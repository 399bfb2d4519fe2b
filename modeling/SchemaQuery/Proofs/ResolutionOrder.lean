import SchemaQuery.Proofs.DepthFirst
import SchemaQuery.Proofs.Resolution

namespace SchemaQuery.Declarations

open Relation

variable {declared : Declarations}

def MixesIn (declared : Declarations) (shape mixin : ShapeId) : Prop :=
  ∃ d ∈ declared.entries, d.id = shape ∧ mixin ∈ d.mixins

theorem mixesIn_iff_of_find? {d : Declaration} {id mixin : ShapeId}
    (h : declared.find? id = some d) : declared.MixesIn id mixin ↔ mixin ∈ d.mixins := by
  obtain ⟨hd, rfl⟩ := Sorted.find?_eq_some_iff.mp h
  constructor
  · rintro ⟨other, hother, hid, hmixin⟩
    rwa [← Sorted.eq_of_key_eq hother hd hid]
  · intro hmixin
    exact ⟨d, hd, rfl, hmixin⟩

theorem mem_mixinsOf {id mixin : ShapeId} :
    mixin ∈ declared.mixinsOf id ↔ declared.MixesIn id mixin := by
  unfold mixinsOf
  split
  · next hnone =>
    constructor
    · intro h
      cases h
    · rintro ⟨d, hd, hid, -⟩
      rw [Sorted.find?_eq_some_iff.mpr ⟨hd, hid⟩] at hnone
      cases hnone
  · next d hd => rw [List.mem_eraseDups, mixesIn_iff_of_find? hd]

theorem mem_dependents {id shape : ShapeId} :
    shape ∈ declared.dependents id ↔ declared.MixesIn shape id := by
  simp only [dependents, List.mem_map, List.mem_filter, decide_eq_true_eq, MixesIn]
  constructor
  · rintro ⟨d, ⟨hd, hmixin⟩, hid⟩
    exact ⟨d, hd, hid, hmixin⟩
  · rintro ⟨d, hd, hid, hmixin⟩
    exact ⟨d, ⟨hd, hmixin⟩, hid⟩

theorem mem_keys_of_mem_dependents {id shape : ShapeId} (h : shape ∈ declared.dependents id) :
    shape ∈ declared.keys := by
  obtain ⟨d, hd, rfl, -⟩ := mem_dependents.mp h
  exact List.mem_map_of_mem hd

theorem checkMixin_eq_ok_iff {d : Declaration} {mixin : ShapeId} :
    declared.checkMixin d mixin = .ok () ↔
      mixin ≠ d.id ∧ ∃ found, declared.find? mixin = some found ∧
        found.traits.contains .mixinMarker = true ∧ found.type = d.type := by
  unfold checkMixin
  by_cases hself : mixin = d.id
  · simp [hself]
  cases declared.find? mixin with
  | none => simp [hself]
  | some found =>
      by_cases hmarked : found.traits.contains .mixinMarker <;>
        by_cases htype : found.type = d.type <;> simp [hself, hmarked, htype]

theorem of_checkMixins (hchecked : ∀ d ∈ declared.entries, declared.checkMixins d = .ok ())
    {shape mixin : ShapeId} (h : declared.MixesIn shape mixin) :
    mixin ≠ shape ∧ mixin ∈ declared.keys := by
  obtain ⟨d, hd, rfl, hmixin⟩ := h
  have hcheck := forM_eq_ok_iff.mp (hchecked d hd) mixin hmixin
  obtain ⟨hne, found, hfind, -⟩ := checkMixin_eq_ok_iff.mp hcheck
  obtain ⟨hfound, rfl⟩ := Sorted.find?_eq_some_iff.mp hfind
  exact ⟨hne, List.mem_map_of_mem hfound⟩

theorem exists_of_misplaced?_eq_some {before order : List ShapeId} {mixin : ShapeId}
    (h : declared.misplaced? before order = some mixin) :
    ∃ earlier shape later, order = earlier ++ shape :: later ∧ declared.MixesIn shape mixin ∧
      mixin ≠ shape ∧ mixin ∉ earlier ∧ mixin ∉ before := by
  induction order generalizing before with
  | nil => cases h
  | cons id rest ih =>
      unfold misplaced? at h
      split at h
      · next found hlast =>
        cases h
        have hmem := List.mem_of_getLast? hlast
        rw [List.mem_filter, mem_mixinsOf] at hmem
        simp only [List.mem_cons, not_or, decide_eq_true_eq] at hmem
        exact ⟨[], id, rest, rfl, hmem.1, hmem.2.1, List.not_mem_nil, hmem.2.2⟩
      · obtain ⟨earlier, shape, later, rfl, hmixes, hne, hearlier, hbefore⟩ := ih h
        rw [List.mem_cons, not_or] at hbefore
        refine ⟨id :: earlier, shape, later, rfl, hmixes, hne, ?_, hbefore.2⟩
        rw [List.mem_cons, not_or]
        exact ⟨hbefore.1, hearlier⟩

theorem mem_of_misplaced?_eq_none {before order earlier later : List ShapeId} {shape mixin : ShapeId}
    (h : declared.misplaced? before order = none) (horder : order = earlier ++ shape :: later)
    (hmixes : declared.MixesIn shape mixin) (hne : mixin ≠ shape) :
    mixin ∈ earlier ∨ mixin ∈ before := by
  induction order generalizing before earlier with
  | nil => simp at horder
  | cons id rest ih =>
      unfold misplaced? at h
      split at h
      · cases h
      · next hlast =>
        cases earlier with
        | nil =>
            rw [List.nil_append, List.cons.injEq] at horder
            obtain ⟨rfl, rfl⟩ := horder
            rw [List.getLast?_eq_none_iff, List.filter_eq_nil_iff] at hlast
            have hknown := hlast mixin (mem_mixinsOf.mpr hmixes)
            simp only [decide_eq_true_eq, not_not, List.mem_cons] at hknown
            exact .inr (hknown.resolve_left hne)
        | cons first earlier =>
            rw [List.cons_append, List.cons.injEq] at horder
            obtain ⟨rfl, rfl⟩ := horder
            rcases ih h rfl with hearlier | hbefore
            · exact .inl (List.mem_cons_of_mem _ hearlier)
            · rcases List.mem_cons.mp hbefore with rfl | hbefore
              · exact .inl List.mem_cons_self
              · exact .inr hbefore

/-- The order that is tried, which is the result if no mixin is misplaced in it. -/
def searchOrder (declared : Declarations) : List ShapeId :=
  DepthFirst.order declared.keys declared.dependents

theorem searchOrder_perm (declared : Declarations) : declared.searchOrder.Perm declared.keys :=
  DepthFirst.order_perm declared.nodup_keys fun _ _ _ h => mem_keys_of_mem_dependents h

theorem nodup_searchOrder (declared : Declarations) : declared.searchOrder.Nodup :=
  declared.searchOrder_perm.nodup_iff.mpr declared.nodup_keys

theorem reflTransGen_of_reaches {a b : ShapeId}
    (h : DepthFirst.Reaches declared.dependents a b) :
    ReflTransGen declared.MixesIn b a := by
  apply reflTransGen_swap.mp
  exact ReflTransGen.mono (fun _ _ hedge => mem_dependents.mp hedge) _ _ h

/-- A mixin that the search does not put before a shape which mixes it in leads back to that
shape. -/
theorem cycle_of_misplaced (hchecked : ∀ d ∈ declared.entries, declared.checkMixins d = .ok ())
    {mixin : ShapeId} (h : declared.misplaced? [] declared.searchOrder = some mixin) :
    TransGen declared.MixesIn mixin mixin := by
  obtain ⟨earlier, shape, later, horder, hmixes, hne, hearlier, -⟩ :=
    exists_of_misplaced?_eq_some h
  have hmem : mixin ∈ declared.searchOrder :=
    declared.searchOrder_perm.mem_iff.mpr (of_checkMixins hchecked hmixes).2
  -- the order has every shape, so a mixin that is not in front of the shape comes after it
  have hlater : mixin ∈ later := by
    rw [horder, List.mem_append, List.mem_cons] at hmem
    exact (hmem.resolve_left hearlier).resolve_left hne
  obtain ⟨between, after, rfl⟩ := List.append_of_mem hlater
  have hsplit : declared.searchOrder = (earlier ++ shape :: between) ++ mixin :: after := by
    rw [horder, List.append_assoc, List.cons_append]
  have hafter : shape ∉ after := by
    have hnodup := declared.nodup_searchOrder
    rw [hsplit, List.nodup_append] at hnodup
    intro hshape
    exact hnodup.2.2 shape (by simp) shape (List.mem_cons_of_mem mixin hshape) rfl
  have hreaches := (DepthFirst.mem_after_or_reaches
    (fun _ _ _ h => mem_keys_of_mem_dependents h) hsplit
    (mem_dependents.mpr hmixes)).resolve_left hafter
  exact .tail' (reflTransGen_of_reaches hreaches) hmixes

def MixinsFirst (declared : Declarations) (order : List ShapeId) : Prop :=
  ∀ earlier shape later, order = earlier ++ shape :: later →
    ∀ mixin, declared.MixesIn shape mixin → mixin ∈ earlier

theorem idxOf_lt_of_mixesIn {order : List ShapeId} (hnodup : order.Nodup)
    (hmem : ∀ id ∈ declared.keys, id ∈ order) (hfirst : declared.MixinsFirst order)
    {shape mixin : ShapeId} (h : declared.MixesIn shape mixin) :
    order.idxOf mixin < order.idxOf shape := by
  have hshape : shape ∈ order := by
    obtain ⟨d, hd, rfl, -⟩ := h
    exact hmem d.id (List.mem_map_of_mem hd)
  obtain ⟨earlier, later, rfl⟩ := List.append_of_mem hshape
  have hmixin : mixin ∈ earlier := hfirst earlier shape later rfl mixin h
  have hnew : shape ∉ earlier := by
    intro hold
    exact (List.nodup_append.mp hnodup).2.2 shape hold shape List.mem_cons_self rfl
  rw [List.idxOf_append_of_mem hmixin, List.idxOf_append_of_notMem hnew, List.idxOf_cons_self]
  exact List.idxOf_lt_length_of_mem hmixin

theorem acyclic_of_mixinsFirst {order : List ShapeId} (hnodup : order.Nodup)
    (hmem : ∀ id ∈ declared.keys, id ∈ order) (hfirst : declared.MixinsFirst order)
    (id : ShapeId) : ¬ TransGen declared.MixesIn id id := by
  intro hcycle
  have hlt {a b : ShapeId} (h : TransGen declared.MixesIn a b) : order.idxOf b < order.idxOf a := by
    induction h with
    | single hedge => exact idxOf_lt_of_mixesIn hnodup hmem hfirst hedge
    | tail _ hedge ih => exact (idxOf_lt_of_mixesIn hnodup hmem hfirst hedge).trans ih
  exact (hlt hcycle).ne rfl

theorem resolutionOrder_of_checked
    (hchecked : ∀ d ∈ declared.entries, declared.checkMixins d = .ok ()) :
    declared.resolutionOrder =
      match declared.misplaced? [] declared.searchOrder with
      | some shape => .error (.cycle shape)
      | none => .ok declared.searchOrder := by
  simp only [resolutionOrder, forM_eq_ok_iff.mpr hchecked]
  rfl

theorem mixins_resolved {before : List ShapeId} {d : Declaration}
    (hbefore : ∀ id ∈ before, id ∈ declared.keys) (hmixins : ∀ mixin ∈ d.mixins, mixin ∈ before)
    {policy : ConflictPolicy} {resolved : List Shape}
    (h : declared.resolveInOrder policy [] before = .ok resolved) :
    (d.mixins.filterMap fun mixin => resolved.find? fun shape => shape.id = mixin).map Shape.id =
      d.mixins := by
  have hids : resolved.map Shape.id = before := map_id_of_resolveInOrder h hbefore
  generalize d.mixins = mixins at hmixins
  induction mixins with
  | nil => rfl
  | cons mixin rest ih =>
      obtain ⟨hmixin, hrest⟩ := List.forall_mem_cons.mp hmixins
      rw [← hids, List.mem_map] at hmixin
      obtain ⟨shape, hshape, hid⟩ := hmixin
      cases hfind : resolved.find? fun shape => shape.id = mixin with
      | none =>
          have hother := List.find?_eq_none.mp hfind shape hshape
          exact absurd (decide_eq_true hid) hother
      | some found =>
          have hfound : found.id = mixin := by simpa using List.find?_some hfind
          rw [List.filterMap_cons, hfind, List.map_cons, hfound, ih hrest]

/-- An order that has every declared shape once, and its mixins resolved when its turn comes. -/
structure IsResolutionOrder (declared : Declarations) (order : List ShapeId) : Prop where
  nodup : order.Nodup
  perm : order.Perm declared.keys
  mixinsFirst : declared.MixinsFirst order
  mixinsResolved : ∀ before d after, order = before ++ d.id :: after → d ∈ declared.entries →
    ∀ policy resolved, declared.resolveInOrder policy [] before = .ok resolved →
      (d.mixins.filterMap fun mixin => resolved.find? fun shape => shape.id = mixin).map Shape.id =
        d.mixins

theorem isResolutionOrder_searchOrder
    (hchecked : ∀ d ∈ declared.entries, declared.checkMixins d = .ok ())
    (h : declared.misplaced? [] declared.searchOrder = none) :
    declared.IsResolutionOrder declared.searchOrder := by
  have hfirst : declared.MixinsFirst declared.searchOrder := by
    intro earlier shape later horder mixin hmixes
    have hne := (of_checkMixins hchecked hmixes).1
    exact (mem_of_misplaced?_eq_none h horder hmixes hne).resolve_right List.not_mem_nil
  refine ⟨declared.nodup_searchOrder, declared.searchOrder_perm, hfirst, ?_⟩
  intro before d after horder hd policy resolved hresolved
  refine mixins_resolved ?_ ?_ hresolved
  · intro id hid
    apply declared.searchOrder_perm.mem_iff.mp
    rw [horder]
    exact List.mem_append_left _ hid
  · intro mixin hmixin
    exact hfirst before d.id after horder mixin ⟨d, hd, rfl, hmixin⟩

/-- If the mixins of all declarations may be used, there is a resolution order exactly if no shape
mixes itself in, and otherwise the error names a shape that does. -/
theorem resolutionOrder_of_checkMixins
    (hchecked : ∀ d ∈ declared.entries, declared.checkMixins d = .ok ()) :
    ((∃ order, declared.resolutionOrder = .ok order) ↔
      ∀ id, ¬ TransGen declared.MixesIn id id) ∧
    (∀ order, declared.resolutionOrder = .ok order → declared.IsResolutionOrder order) ∧
    (∀ e, declared.resolutionOrder = .error e →
      ∃ shape, e = .cycle shape ∧ TransGen declared.MixesIn shape shape) := by
  rw [resolutionOrder_of_checked hchecked]
  cases h : declared.misplaced? [] declared.searchOrder with
  | none =>
      have hsound := isResolutionOrder_searchOrder hchecked h
      refine ⟨⟨?_, ?_⟩, ?_, ?_⟩
      · intro _
        exact acyclic_of_mixinsFirst hsound.nodup (fun id hid => hsound.perm.mem_iff.mpr hid)
          hsound.mixinsFirst
      · intro _
        exact ⟨_, rfl⟩
      · intro order horder
        cases horder
        exact hsound
      · intro e he
        cases he
  | some mixin =>
      have hcycle := cycle_of_misplaced hchecked h
      refine ⟨⟨?_, ?_⟩, ?_, ?_⟩
      · rintro ⟨order, horder⟩
        cases horder
      · intro hacyclic
        exact absurd hcycle (hacyclic mixin)
      · intro order horder
        cases horder
      · intro e he
        cases he
        exact ⟨mixin, rfl, hcycle⟩

def mixinStructure (name : String) (mixins : List String) : Declaration :=
  ((Declaration.structure ⟨"a", name, none⟩).annotate .mixinMarker).addAll
    (mixins.map fun mixin => .mixin ⟨"a", mixin, none⟩)

def diamond : Declarations :=
  .ofList [mixinStructure "A" [], mixinStructure "B" ["A"], mixinStructure "C" ["A"],
    mixinStructure "D" ["B", "C", "B"]]

def knot : Declarations :=
  .ofList [mixinStructure "A" ["B", "C"], mixinStructure "B" ["C"], mixinStructure "C" ["B"]]

theorem resolutionOrder_of_checkMixins_diamond_knot :
    (∀ d ∈ diamond.entries, diamond.checkMixins d = .ok ()) ∧
    (∀ d ∈ knot.entries, knot.checkMixins d = .ok ()) ∧
    (∃ order, diamond.resolutionOrder = .ok order ∧ diamond.IsResolutionOrder order) ∧
    (∀ id, ¬ TransGen diamond.MixesIn id id) ∧
    (∃ shape, knot.resolutionOrder = .error (.cycle shape) ∧
      TransGen knot.MixesIn shape shape) := by
  have hdiamond : ∀ d ∈ diamond.entries, diamond.checkMixins d = .ok () := by decide
  have hknot : ∀ d ∈ knot.entries, knot.checkMixins d = .ok () := by decide
  obtain ⟨hacyclic, hsound, -⟩ := resolutionOrder_of_checkMixins hdiamond
  have hresolves : diamond.resolutionOrder.isOk = true := by
    simp only [resolutionOrder, DepthFirst.order_eq_workFor]
    decide +kernel
  have hfails : knot.resolutionOrder.isOk = false := by
    simp only [resolutionOrder, DepthFirst.order_eq_workFor]
    decide +kernel
  refine ⟨hdiamond, hknot, ?_⟩
  cases horder : diamond.resolutionOrder with
  | error e =>
      rw [horder] at hresolves
      cases hresolves
  | ok order =>
      refine ⟨⟨order, rfl, hsound order horder⟩, hacyclic.mp ⟨order, horder⟩, ?_⟩
      cases herror : knot.resolutionOrder with
      | ok order =>
          rw [herror] at hfails
          cases hfails
      | error e =>
          obtain ⟨shape, rfl, hcycle⟩ := (resolutionOrder_of_checkMixins hknot).2.2 e herror
          exact ⟨shape, rfl, hcycle⟩

end SchemaQuery.Declarations
