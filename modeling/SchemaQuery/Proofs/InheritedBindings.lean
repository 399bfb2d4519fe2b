import SchemaQuery.Proofs.ResolvedMembers
import SchemaQuery.Proofs.TargetTables

namespace SchemaQuery

section Sources

variable {σ α : Type} {merge : σ → σ → σ}

theorem part_foldl (part : σ → α) (mergePart : α → α → α)
    (h : ∀ a b, part (merge a b) = mergePart (part a) (part b)) (sources : List σ) (init : σ) :
    part (sources.foldl merge init) = (sources.map part).foldl mergePart (part init) := by
  rw [List.foldl_map]
  exact (List.foldl_hom part fun a b => (h a b).symm).symm

theorem foldl_orElse (values : List (Option α)) (init : Option α) :
    values.foldl (fun a b => b <|> a) init = (values.filterMap id).getLast?.or init := by
  induction values generalizing init with
  | nil => rfl
  | cons value rest ih =>
      rw [List.foldl_cons, ih]
      cases value with
      | none => rfl
      | some a =>
          have hlast : ((some a :: rest).filterMap id).getLast? =
              some ((rest.filterMap id).getLast?.getD a) := by
            rw [← List.getLast?_cons]
            rfl
          rw [hlast]
          cases (rest.filterMap id).getLast? <;> rfl

theorem foldl_text (texts : List String) (init : String) :
    texts.foldl (fun a b => if b = "" then a else b) init =
      (texts.filter (· ≠ "")).getLast?.getD init := by
  induction texts generalizing init with
  | nil => rfl
  | cons text rest ih =>
      rw [List.foldl_cons, ih]
      by_cases h : text = ""
      · simp [h]
      · simp [h, List.getLast?_cons]

theorem foldl_eraseDups [DecidableEq α] {add : List α → List α → List α}
    (h : ∀ l new, add l.eraseDups new = (l ++ new).eraseDups) (lists : List (List α)) :
    lists.foldl add [] = lists.flatten.eraseDups := by
  suffices hgo : ∀ l : List α, lists.foldl add l.eraseDups = (l ++ lists.flatten).eraseDups from
    hgo []
  induction lists with
  | nil => simp
  | cons new rest ih =>
      intro l
      rw [List.foldl_cons, h, ih, List.flatten_cons, List.append_assoc]

theorem addNewIds_eraseDups (ids new : List ShapeId) :
    addNewIds ids.eraseDups new = (ids ++ new).eraseDups := by
  induction new generalizing ids with
  | nil => simp [addNewIds]
  | cons id rest ih =>
      have hstep : (if id ∈ ids.eraseDups then ids.eraseDups else ids.eraseDups ++ [id]) =
          (ids ++ [id]).eraseDups := by
        by_cases hmem : id ∈ ids
        · rw [if_pos (List.mem_eraseDups.mpr hmem), eraseDups_concat_of_mem hmem]
        · rw [if_neg (mt List.mem_eraseDups.mp hmem), eraseDups_concat_of_not_mem hmem]
      rw [List.append_cons, ← ih, ← hstep]
      rfl

end Sources

/-- A list of the ids in several lists, each of them once and where it first occurs. -/
structure MergesIds (ids : List ShapeId) (lists : List (List ShapeId)) : Prop where
  nodup : ids.Nodup
  eq : ids = lists.flatten.eraseDups

/-- A table of the names in several tables, each of them once and where it first occurs, with the
target that it has in the last table that has it. -/
structure TargetTable.Merges (targets : TargetTable) (tables : List TargetTable) : Prop where
  nodup : targets.names.Nodup
  names : targets.names = (tables.flatMap TargetTable.names).eraseDups
  find? : ∀ name, targets.find? name = (tables.filterMap fun t => t.find? name).getLast?

def Lifecycle.bound? (r : Resource) : Lifecycle → Option ShapeId
  | create => r.create
  | put => r.put
  | read => r.read
  | update => r.update
  | delete => r.delete
  | list => r.list

structure Resource.Merges (r : Resource) (sources : List Resource) : Prop where
  identifiers : r.identifiers.Merges (sources.map Resource.identifiers)
  properties : r.properties.Merges (sources.map Resource.properties)
  lifecycle : ∀ slot : Lifecycle,
    slot.bound? r = (sources.filterMap fun source => slot.bound? source).getLast?
  operations : MergesIds r.operations (sources.map Resource.operations)
  collectionOperations :
    MergesIds r.collectionOperations (sources.map Resource.collectionOperations)
  resources : MergesIds r.resources (sources.map Resource.resources)

structure Operation.Merges (o : Operation) (sources : List Operation) : Prop where
  input : o.input = (sources.filterMap Operation.input).getLast?
  output : o.output = (sources.filterMap Operation.output).getLast?
  errors : MergesIds o.errors (sources.map Operation.errors)

/-- What several services become when they are merged in order. An empty version is none. -/
structure Service.Merges (s : Service) (sources : List Service) : Prop where
  version : s.version = ((sources.map Service.version).filter (· ≠ "")).getLast?.getD ""
  operations : MergesIds s.operations (sources.map Service.operations)
  resources : MergesIds s.resources (sources.map Service.resources)
  errors : MergesIds s.errors (sources.map Service.errors)

section Parts

variable {σ : Type} {merge : σ → σ → σ} {sources : List σ} {init : σ}

theorem mergesIds_foldl (part : σ → List ShapeId)
    (h : ∀ a b, part (merge a b) = addNewIds (part a) (part b)) (hinit : part init = []) :
    MergesIds (part (sources.foldl merge init)) (sources.map part) := by
  have heq : part (sources.foldl merge init) = (sources.map part).flatten.eraseDups := by
    rw [part_foldl part addNewIds h, hinit, foldl_eraseDups addNewIds_eraseDups]
  exact ⟨heq ▸ nodup_eraseDups _, heq⟩

theorem last_foldl {α : Type} (part : σ → Option α)
    (h : ∀ a b, part (merge a b) = (part b <|> part a)) (hinit : part init = none) :
    part (sources.foldl merge init) = (sources.filterMap part).getLast? := by
  rw [part_foldl part (fun a b => b <|> a) h, hinit, foldl_orElse, Option.or_none,
    List.filterMap_map, Function.id_comp]

theorem TargetTable.merges_foldl (part : σ → TargetTable)
    (h : ∀ a b, part (merge a b) = (part a).insertAll (part b)) (hinit : part init = ∅) :
    (part (sources.foldl merge init)).Merges (sources.map part) where
  nodup := (part (sources.foldl merge init)).distinct
  names := by
    have hnames (a b : σ) : (part (merge a b)).names =
        ((part a).names ++ (part b).names).eraseDups := by
      rw [h, names_insertAll]
    have hempty : (part init).names = [] := by
      rw [hinit]
      rfl
    rw [part_foldl (fun s => (part s).names) (fun a b => (a ++ b).eraseDups) hnames, hempty,
      foldl_eraseDups eraseDups_eraseDups_append, List.flatMap_map]
    rfl
  find? := by
    intro name
    have hfind (a b : σ) : (part (merge a b)).find? name =
        ((part b).find? name <|> (part a).find? name) := by
      rw [h, find?_insertAll, Option.or_eq_orElse]
      rfl
    have hempty : (part init).find? name = none := by
      rw [hinit]
      rfl
    rw [last_foldl (fun s => (part s).find? name) hfind hempty, List.filterMap_map]
    rfl

end Parts

theorem Resource.mergeAll_merges (sources : List Resource) : (mergeAll sources).Merges sources where
  identifiers := TargetTable.merges_foldl identifiers (fun _ _ => rfl) rfl
  properties := TargetTable.merges_foldl properties (fun _ _ => rfl) rfl
  lifecycle := by
    intro slot
    refine last_foldl (fun r => slot.bound? r) ?_ ?_
    · intro a b
      cases slot <;> rfl
    · cases slot <;> rfl
  operations := mergesIds_foldl operations (fun _ _ => rfl) rfl
  collectionOperations := mergesIds_foldl collectionOperations (fun _ _ => rfl) rfl
  resources := mergesIds_foldl resources (fun _ _ => rfl) rfl

theorem Operation.mergeAll_merges (sources : List Operation) :
    (mergeAll sources).Merges sources where
  input := last_foldl input (fun _ _ => rfl) rfl
  output := last_foldl output (fun _ _ => rfl) rfl
  errors := mergesIds_foldl errors (fun _ _ => rfl) rfl

theorem Service.mergeAll_merges (sources : List Service) : (mergeAll sources).Merges sources where
  version := by
    rw [mergeAll, part_foldl version (fun a b => if b = "" then a else b) fun _ _ => rfl,
      foldl_text]
    rfl
  operations := mergesIds_foldl operations (fun _ _ => rfl) rfl
  resources := mergesIds_foldl resources (fun _ _ => rfl) rfl
  errors := mergesIds_foldl errors (fun _ _ => rfl) rfl

theorem MergesIds.eq_of_singleton {ids own : List ShapeId} (h : MergesIds ids [own]) :
    ids = own.eraseDups := by
  rw [h.eq, List.flatten_singleton]

theorem TargetTable.Merges.eq_of_singleton {targets own : TargetTable} (h : targets.Merges [own]) :
    targets = own := by
  apply eq_of_find?
  · rw [h.names, List.flatMap_singleton, eraseDups_names]
  · intro name
    rw [h.find?]
    cases hfind : own.find? name <;> simp [hfind]

def Resource.withoutRepeats (r : Resource) : Resource :=
  { r with
    operations := r.operations.eraseDups
    collectionOperations := r.collectionOperations.eraseDups
    resources := r.resources.eraseDups }

def Operation.withoutRepeats (o : Operation) : Operation :=
  { o with errors := o.errors.eraseDups }

def Service.withoutRepeats (s : Service) : Service :=
  { s with
    operations := s.operations.eraseDups
    resources := s.resources.eraseDups
    errors := s.errors.eraseDups }

theorem getLast?_filterMap_singleton {σ α : Type} (part : σ → Option α) (own : σ) :
    ([own].filterMap part).getLast? = part own := by
  cases h : part own <;> simp [h]

theorem Resource.Merges.eq_withoutRepeats {r own : Resource} (h : r.Merges [own]) :
    r = own.withoutRepeats := by
  have hslot (slot : Lifecycle) : slot.bound? r = slot.bound? own :=
    (h.lifecycle slot).trans (getLast?_filterMap_singleton _ own)
  cases r
  cases own
  rw [withoutRepeats, Resource.mk.injEq]
  exact ⟨h.identifiers.eq_of_singleton, h.properties.eq_of_singleton, hslot .create, hslot .put,
    hslot .read, hslot .update, hslot .delete, hslot .list, h.operations.eq_of_singleton,
    h.collectionOperations.eq_of_singleton, h.resources.eq_of_singleton⟩

theorem Operation.Merges.eq_withoutRepeats {o own : Operation} (h : o.Merges [own]) :
    o = own.withoutRepeats := by
  cases o
  cases own
  rw [withoutRepeats, Operation.mk.injEq]
  exact ⟨h.input.trans (getLast?_filterMap_singleton _ _),
    h.output.trans (getLast?_filterMap_singleton _ _), h.errors.eq_of_singleton⟩

theorem Service.Merges.eq_withoutRepeats {s own : Service} (h : s.Merges [own]) :
    s = own.withoutRepeats := by
  have hversion : s.version = own.version := by
    rw [h.version]
    by_cases hempty : own.version = "" <;> simp [hempty]
  cases s
  cases own
  rw [withoutRepeats, Service.mk.injEq]
  exact ⟨hversion, h.operations.eq_of_singleton, h.resources.eq_of_singleton,
    h.errors.eq_of_singleton⟩

/-- The bindings of a shape are merged from those of its mixins, which have bindings of the same
kind, and from its own. -/
def Shape.MergesBindings {σ : Type} (bindings? : Shape → Option σ) (Merges : σ → List σ → Prop)
    (shape : Shape) (mixins : List Shape) (own : σ) : Prop :=
  ∃ inherited merged, mixins.map bindings? = inherited.map some ∧
    bindings? shape = some merged ∧ Merges merged (inherited ++ [own])

namespace Shape

variable {σ : Type} {bindings? : Shape → Option σ} {Merges : σ → List σ → Prop}
variable {mixins : List Shape} {own : σ}

theorem map_eq_map_some_filterMap (h : ∀ mixin ∈ mixins, (bindings? mixin).isSome) :
    mixins.map bindings? = (mixins.filterMap bindings?).map some := by
  induction mixins with
  | nil => rfl
  | cons mixin rest ih =>
      obtain ⟨hmixin, hrest⟩ := List.forall_mem_cons.mp h
      obtain ⟨bindings, hbindings⟩ := Option.isSome_iff_exists.mp hmixin
      rw [List.map_cons, List.filterMap_cons, ih hrest, hbindings]
      rfl

theorem mergesBindings_of_mergeAll {mergeAll : List σ → σ} {withoutRepeats : σ → σ}
    (hmerges : ∀ sources, Merges (mergeAll sources) sources)
    (hsingle : ∀ {merged own}, Merges merged [own] → merged = withoutRepeats own)
    (hmixins : ∀ mixin ∈ mixins, (bindings? mixin).isSome) {shape : Shape}
    (hshape : bindings? shape = some (mergeAll (mixins.filterMap bindings? ++ [own]))) :
    shape.MergesBindings bindings? Merges mixins own ∧
      (mixins = [] → bindings? shape = some (withoutRepeats own)) := by
  constructor
  · exact ⟨mixins.filterMap bindings?, _, map_eq_map_some_filterMap hmixins, hshape, hmerges _⟩
  · rintro rfl
    rw [hshape]
    exact congrArg some (hsingle (hmerges [own]))

theorem isSome_asResource?_iff (shape : Shape) :
    shape.asResource?.isSome = true ↔ shape.type = .resource := by
  obtain ⟨_, content, _, _⟩ := shape
  cases content <;> simp [asResource?, type, Content.type]

theorem isSome_asOperation?_iff (shape : Shape) :
    shape.asOperation?.isSome = true ↔ shape.type = .operation := by
  obtain ⟨_, content, _, _⟩ := shape
  cases content <;> simp [asOperation?, type, Content.type]

theorem isSome_asService?_iff (shape : Shape) :
    shape.asService?.isSome = true ↔ shape.type = .service := by
  obtain ⟨_, content, _, _⟩ := shape
  cases content <;> simp [asService?, type, Content.type]

end Shape

namespace Declarations

variable {policy : ConflictPolicy} {declared : Declarations} {shapes : List Shape}

/-- The bindings of every resource, operation and service are merged from those of its mixins in
order and then its own. Where there are no mixins, only repeats in its lists are left out. -/
theorem bindings_of_resolveAll (h : declared.resolveAll policy = .ok shapes) :
    (shapes.map Shape.id).Perm declared.keys ∧
      ∀ d ∈ declared.entries, ∀ shape ∈ shapes, shape.id = d.id →
        (d.mixinsIn shapes).map Shape.id = d.mixins ∧
        (∀ own, d.content = .resource own →
          shape.MergesBindings Shape.asResource? Resource.Merges (d.mixinsIn shapes) own ∧
          (d.mixins = [] → shape.asResource? = some own.withoutRepeats)) ∧
        (∀ own, d.content = .operation own →
          shape.MergesBindings Shape.asOperation? Operation.Merges (d.mixinsIn shapes) own ∧
          (d.mixins = [] → shape.asOperation? = some own.withoutRepeats)) ∧
        (∀ own, d.content = .service own →
          shape.MergesBindings Shape.asService? Service.Merges (d.mixinsIn shapes) own ∧
          (d.mixins = [] → shape.asService? = some own.withoutRepeats)) := by
  have hyields := yields_of_resolveAll h
  refine ⟨hyields.ids, ?_⟩
  intro d hd shape hshape hid
  have htype {mixin : Shape} (hmixin : mixin ∈ d.mixinsIn shapes) : mixin.type = d.type :=
    type_of_mem_mixinsIn h hd hmixin
  obtain ⟨_, -, -, -, hcontent, -⟩ :=
    Declaration.resolve_eq_ok_iff.mp (hyields.resolve_eq_ok hd hshape hid)
  have hnone (hmixins : d.mixins = []) : d.mixinsIn shapes = [] := by
    rw [Declaration.mixinsIn, hmixins, List.filterMap_nil]
  unfold Declaration.resolveContent at hcontent
  unfold Declaration.type at htype
  refine ⟨hyields.mixins d hd, ?_, ?_, ?_⟩
  · intro own hown
    rw [hown] at hcontent htype
    have hbindings := Shape.mergesBindings_of_mergeAll Resource.mergeAll_merges
      Resource.Merges.eq_withoutRepeats
      (fun mixin hmixin => mixin.isSome_asResource?_iff.mpr (htype hmixin))
      (by rw [Shape.asResource?, ← Except.ok.inj hcontent])
    exact ⟨hbindings.1, fun hmixins => hbindings.2 (hnone hmixins)⟩
  · intro own hown
    rw [hown] at hcontent htype
    have hbindings := Shape.mergesBindings_of_mergeAll Operation.mergeAll_merges
      Operation.Merges.eq_withoutRepeats
      (fun mixin hmixin => mixin.isSome_asOperation?_iff.mpr (htype hmixin))
      (by rw [Shape.asOperation?, ← Except.ok.inj hcontent])
    exact ⟨hbindings.1, fun hmixins => hbindings.2 (hnone hmixins)⟩
  · intro own hown
    rw [hown] at hcontent htype
    have hbindings := Shape.mergesBindings_of_mergeAll Service.mergeAll_merges
      Service.Merges.eq_withoutRepeats
      (fun mixin hmixin => mixin.isSome_asService?_iff.mpr (htype hmixin))
      (by rw [Shape.asService?, ← Except.ok.inj hcontent])
    exact ⟨hbindings.1, fun hmixins => hbindings.2 (hnone hmixins)⟩

def chainedResource : Declaration :=
  (Declaration.new .resource ⟨"a", "S", none⟩).addAll
    [.mixin ⟨"a", "R", none⟩, .identifier "z" ⟨"a", "U", none⟩, .identifier "x" ⟨"a", "U", none⟩,
      .lifecycle .read ⟨"a", "Find", none⟩, .bindOperation ⟨"a", "P", none⟩,
      .bindOperation ⟨"a", "O", none⟩]

def repeatingOperation : Declaration :=
  (Declaration.new .operation ⟨"a", "O", none⟩).addAll
    [.input ⟨"a", "T", none⟩, .error ⟨"a", "E", none⟩, .error ⟨"a", "E", none⟩]

def bindingChain : Declarations :=
  .ofList [
    (Declaration.new .resource ⟨"a", "R", none⟩).addAll
      [.trait (.mark .mixinMarker), .identifier "x" ⟨"a", "T", none⟩,
        .identifier "y" ⟨"a", "T", none⟩, .lifecycle .read ⟨"a", "Get", none⟩,
        .lifecycle .list ⟨"a", "All", none⟩, .bindOperation ⟨"a", "O", none⟩],
    chainedResource,
    (Declaration.new .service ⟨"a", "V", none⟩).addAll
      [.trait (.mark .mixinMarker), .version "1", .error ⟨"a", "E", none⟩],
    (Declaration.new .service ⟨"a", "W", none⟩).addAll
      [.mixin ⟨"a", "V", none⟩, .error ⟨"a", "F", none⟩, .error ⟨"a", "E", none⟩],
    repeatingOperation]

theorem bindings_of_resolveAll_bindingChain :
    ∃ shapes, bindingChain.resolveAll .error = .ok shapes ∧
      (∃ shape ∈ shapes, ∃ own, shape.id = chainedResource.id ∧
        chainedResource.content = .resource own ∧
        (chainedResource.mixinsIn shapes).map Shape.id = [⟨"a", "R", none⟩] ∧
        shape.MergesBindings Shape.asResource? Resource.Merges (chainedResource.mixinsIn shapes)
          own) ∧
      ∃ shape ∈ shapes, ∃ own, shape.id = repeatingOperation.id ∧
        repeatingOperation.content = .operation own ∧
        shape.asOperation? = some own.withoutRepeats := by
  have hresolves : (bindingChain.resolveAll .error).isOk = true := by
    simp only [resolveAll, resolutionOrder, DepthFirst.order_eq_workFor]
    decide +kernel
  obtain ⟨shapes, h⟩ := exists_eq_ok_of_isOk hresolves
  obtain ⟨hids, hbindings⟩ := bindings_of_resolveAll h
  have hfound {d : Declaration} (hd : d ∈ bindingChain.entries) :
      ∃ shape ∈ shapes, shape.id = d.id :=
    List.mem_map.mp (hids.mem_iff.mpr (List.mem_map_of_mem hd))
  have hresource : chainedResource ∈ bindingChain.entries := by decide
  have hoperation : repeatingOperation ∈ bindingChain.entries := by decide
  obtain ⟨shape, hshape, hid⟩ := hfound hresource
  obtain ⟨other, hother, hotherId⟩ := hfound hoperation
  obtain ⟨hmixins, hmerges, -⟩ := hbindings _ hresource shape hshape hid
  obtain ⟨-, -, hlone, -⟩ := hbindings _ hoperation other hother hotherId
  exact ⟨shapes, h,
    ⟨shape, hshape, _, hid, rfl, hmixins, (hmerges _ rfl).1⟩,
    other, hother, _, hotherId, rfl, (hlone _ rfl).2 rfl⟩

example : (bindingChain.resolveAll .error).map (fun shapes =>
      ((shapes.filterMap Shape.asResource?).map fun r =>
        (r.identifiers.entries.map fun entry => (entry.1, entry.2.name), r.read.map ShapeId.name,
          r.list.map ShapeId.name, r.operations.map ShapeId.name),
        (shapes.filterMap Shape.asService?).map fun s => (s.version, s.errors.map ShapeId.name))) =
    .ok ([([("x", "T"), ("y", "T")], some "Get", some "All", ["O"]),
        ([("x", "U"), ("y", "T"), ("z", "U")], some "Find", some "All", ["O", "P"])],
      [("1", ["E"]), ("1", ["E", "F"])]) := by
  simp only [resolveAll, resolutionOrder, DepthFirst.order_eq_workFor]
  rfl

end Declarations

end SchemaQuery
