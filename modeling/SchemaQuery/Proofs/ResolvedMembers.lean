import SchemaQuery.Proofs.EffectiveMembers
import SchemaQuery.Proofs.ResolvedMixins

namespace SchemaQuery

namespace Declaration

variable {policy : ConflictPolicy} {d : Declaration} {mixins : List Shape} {shape : Shape}

theorem of_resolveContent {effective : List EffectiveMember} {content : Content}
    (h : d.resolveContent mixins effective = .ok content) :
    content.type = d.type ∧ content.type ≠ .member ∧
      ∀ type members, content = .aggregate type members →
        members = effective.map (EffectiveMember.frozen d.id) := by
  unfold resolveContent at h
  unfold Declaration.type
  split at h
  case h_2 type _ hcontent =>
    obtain ⟨frozen, hfreeze, rfl⟩ := map_eq_ok_iff.mp h
    rw [hcontent]
    refine ⟨rfl, ShapeType.noConfusion, ?_⟩
    rintro _ _ ⟨⟩
    exact EffectiveMember.eq_of_freeze hfreeze
  case h_3 => cases h
  all_goals
    next hcontent =>
    cases h
    rw [hcontent]
    refine ⟨rfl, ShapeType.noConfusion, ?_⟩
    intro _ _ hcontent
    cases hcontent

theorem type_of_resolve (h : d.resolve policy mixins = .ok shape) : shape.type = d.type := by
  obtain ⟨_, -, -, -, hcontent, -⟩ := resolve_eq_ok_iff.mp h
  exact (of_resolveContent hcontent).1

theorem members_of_resolve (hd : d.Keyed)
    (hmixins : ∀ mixin ∈ mixins, ∀ m ∈ mixin.members, m.traits.Keyed)
    (h : d.resolve policy mixins = .ok shape) :
    Compatible policy (mixins.flatMap Shape.members) d.members ∧
      ∃ effective, Merged (mixins.flatMap Shape.members) d.members effective ∧
        EffectiveMember.checkNames d effective = .ok () ∧
        d.resolveContent mixins effective = .ok shape.content := by
  obtain ⟨effective, -, hall, hnames, hcontent, -⟩ := resolve_eq_ok_iff.mp h
  have hsettles : Settles policy (mixins.flatMap Shape.members) d.members
      (EffectiveMember.all policy d mixins) := EffectiveMember.settles_all hd hmixins
  rw [hall] at hsettles
  exact ⟨hsettles.1, effective, hsettles.2, hnames, hcontent⟩

theorem members_eq_of_content {effective : List EffectiveMember}
    (h : d.resolveContent mixins effective = .ok shape.content) {type : AggregateType}
    (htype : shape.type = .aggregate type) :
    shape.members = effective.map (EffectiveMember.frozen d.id) := by
  obtain ⟨-, -, hmembers⟩ := of_resolveContent h
  unfold Shape.type at htype
  unfold Shape.members
  cases hcontent : shape.content with
  | aggregate type members => exact hmembers type members hcontent
  | simple | member | service | resource | operation =>
      rw [hcontent] at htype
      cases htype

theorem keyed_members_of_resolve (hd : d.Keyed)
    (hmixins : ∀ mixin ∈ mixins, ∀ m ∈ mixin.members, m.traits.Keyed)
    (h : d.resolve policy mixins = .ok shape) : ∀ m ∈ shape.members, m.traits.Keyed := by
  obtain ⟨-, effective, hmerged, -, hcontent⟩ := members_of_resolve hd hmixins h
  intro m hm
  cases htype : shape.type with
  | aggregate type =>
      rw [members_eq_of_content hcontent htype] at hm
      obtain ⟨e, he, rfl⟩ := List.mem_map.mp hm
      exact (hmerged.merges e he).keyed
  | simple | member | service | resource | operation =>
      unfold Shape.type at htype
      unfold Shape.members at hm
      split at hm
      · next heq =>
        rw [heq] at htype
        cases htype
      · cases hm

end Declaration

namespace Declarations

variable {policy : ConflictPolicy} {declared : Declarations}

theorem type_of_mem_mixinsIn {shapes : List Shape} (h : declared.resolveAll policy = .ok shapes)
    {d : Declaration} (hd : d ∈ declared.entries) {mixin : Shape}
    (hmixin : mixin ∈ d.mixinsIn shapes) : mixin.type = d.type := by
  have hyields := yields_of_resolveAll h
  have hid : mixin.id ∈ d.mixins := hyields.mixins d hd ▸ List.mem_map_of_mem hmixin
  obtain ⟨found, hfound, hsame, -, htype⟩ := exists_mixin_of_resolveAll h hd hid
  have hmem := Declaration.mem_of_mem_mixinsIn hmixin
  rw [Declaration.type_of_resolve (hyields.resolve_eq_ok hfound hmem hsame.symm), htype]

theorem keyed_members_of_resolveInOrder (hkeyed : ∀ d ∈ declared.entries, d.Keyed)
    {order : List ShapeId} {resolved : List Shape}
    (h : declared.resolveInOrder policy [] order = .ok resolved) :
    ∀ shape ∈ resolved, ∀ m ∈ shape.members, m.traits.Keyed := by
  refine forall_of_resolveInOrder ?_ (List.forall_mem_nil _) h
  intro d hd mixins shape hmixins hresolve
  exact Declaration.keyed_members_of_resolve (hkeyed d hd) hmixins hresolve

theorem keyed_members_of_resolveAll (hkeyed : ∀ d ∈ declared.entries, d.Keyed)
    {shapes : List Shape} (h : declared.resolveAll policy = .ok shapes) :
    ∀ shape ∈ shapes, ∀ m ∈ shape.members, m.traits.Keyed := by
  refine forall_of_resolveAll ?_ h
  intro d hd mixins shape hmixins hresolve
  exact Declaration.keyed_members_of_resolve (hkeyed d hd) hmixins hresolve

theorem exists_resolveAll_eq_error (hkeyed : ∀ d ∈ declared.entries, d.Keyed)
    {before after : List ShapeId} {d : Declaration} {resolved : List Shape}
    (hd : d ∈ declared.entries)
    (horder : declared.resolutionOrder = .ok (before ++ d.id :: after))
    (hbefore : declared.resolveInOrder policy [] before = .ok resolved)
    (hviolation : ¬ Compatible policy ((d.mixinsIn resolved).flatMap Shape.members) d.members) :
    ∃ e, declared.resolveAll policy = .error e := by
  have hmixins : ∀ mixin ∈ d.mixinsIn resolved, ∀ m ∈ mixin.members, m.traits.Keyed :=
    fun mixin hmixin => keyed_members_of_resolveInOrder hkeyed hbefore mixin
      (Declaration.mem_of_mem_mixinsIn hmixin)
  -- resolution comes to the declaration with the mixins that have been resolved before
  rw [resolveAll, horder]
  dsimp only
  rw [resolveInOrder_append, hbefore]
  dsimp only
  rw [resolveInOrder_cons hd]
  cases hresolve : d.resolve policy (d.mixinsIn resolved) with
  | error e => exact ⟨e, rfl⟩
  | ok shape =>
      exact absurd (Declaration.members_of_resolve (hkeyed d hd) hmixins hresolve).1 hviolation

/-- The members of an aggregate are what the members of its mixins and its own become, one for each
name in the order of first occurrence. They go together in every declaration that is resolved, and
a declaration in which they do not cannot be resolved. -/
theorem members_of_resolveAll (hkeyed : ∀ d ∈ declared.entries, d.Keyed) :
    (∀ shapes, declared.resolveAll policy = .ok shapes →
      (shapes.map Shape.id).Perm declared.keys ∧
        ∀ d ∈ declared.entries, ∀ shape ∈ shapes, shape.id = d.id →
          (d.mixinsIn shapes).map Shape.id = d.mixins ∧
          Compatible policy ((d.mixinsIn shapes).flatMap Shape.members) d.members ∧
          ∀ type, shape.type = .aggregate type → ∃ effective,
            Merged ((d.mixinsIn shapes).flatMap Shape.members) d.members effective ∧
            shape.members = effective.map (EffectiveMember.frozen d.id)) ∧
    (∀ before d after resolved, d ∈ declared.entries →
      declared.resolutionOrder = .ok (before ++ d.id :: after) →
      declared.resolveInOrder policy [] before = .ok resolved →
      ¬ Compatible policy ((d.mixinsIn resolved).flatMap Shape.members) d.members →
      ∃ e, declared.resolveAll policy = .error e) := by
  constructor
  · intro shapes h
    have hyields := yields_of_resolveAll h
    refine ⟨hyields.ids, ?_⟩
    intro d hd shape hshape hid
    have hmixins : ∀ mixin ∈ d.mixinsIn shapes, ∀ m ∈ mixin.members, m.traits.Keyed :=
      fun mixin hmixin => keyed_members_of_resolveAll hkeyed h mixin
        (Declaration.mem_of_mem_mixinsIn hmixin)
    obtain ⟨hcompatible, effective, hmerged, -, hcontent⟩ := Declaration.members_of_resolve
      (hkeyed d hd) hmixins (hyields.resolve_eq_ok hd hshape hid)
    refine ⟨hyields.mixins d hd, hcompatible, ?_⟩
    intro type htype
    exact ⟨effective, hmerged, Declaration.members_eq_of_content hcontent htype⟩
  · intro before d after resolved hd horder hbefore hviolation
    exact exists_resolveAll_eq_error hkeyed hd horder hbefore hviolation

def kiteTail : Declaration :=
  (Declaration.structure ⟨"a", "D", none⟩).addAll
    [.mixin ⟨"a", "B", none⟩, .mixin ⟨"a", "C", none⟩, .member "z" ⟨"a", "U", none⟩ []]

def kite : Declarations :=
  .ofList [
    (Declaration.structure ⟨"a", "A", none⟩).addAll
      [.trait (.mark .mixinMarker),
        .member "x" ⟨"a", "T", none⟩ [⟨⟨"a", "doc", none⟩, .text "A"⟩]],
    (Declaration.structure ⟨"a", "B", none⟩).addAll
      [.trait (.mark .mixinMarker), .mixin ⟨"a", "A", none⟩,
        .member "x" ⟨"a", "T", none⟩ [⟨⟨"a", "doc", none⟩, .text "B"⟩],
        .member "y" ⟨"a", "T", none⟩ []],
    (Declaration.structure ⟨"a", "C", none⟩).addAll
      [.trait (.mark .mixinMarker), .mixin ⟨"a", "A", none⟩, .member "y" ⟨"a", "U", none⟩ []],
    kiteTail]

theorem keyed_kite : ∀ d ∈ kite.entries, d.Keyed := by
  intro d hd
  have hmem := Sorted.mem_of_mem_ofList hd
  simp only [List.mem_cons, List.not_mem_nil, or_false] at hmem
  rcases hmem with rfl | rfl | rfl | rfl <;> exact (Declaration.keyed_new _ _).addAll _

theorem members_of_resolveAll_kite :
    (∀ d ∈ kite.entries, d.Keyed) ∧
    (∃ shapes, kite.resolveAll .firstWins = .ok shapes ∧
      (shapes.map Shape.id).Perm kite.keys ∧
        ∀ d ∈ kite.entries, ∀ shape ∈ shapes, shape.id = d.id →
          (d.mixinsIn shapes).map Shape.id = d.mixins ∧
          Compatible .firstWins ((d.mixinsIn shapes).flatMap Shape.members) d.members ∧
          ∀ type, shape.type = .aggregate type → ∃ effective,
            Merged ((d.mixinsIn shapes).flatMap Shape.members) d.members effective ∧
            shape.members = effective.map (EffectiveMember.frozen d.id)) ∧
    (∃ e, kite.resolveAll .error = .error e) := by
  refine ⟨keyed_kite, ?_, ?_⟩
  · have hresolves : (kite.resolveAll .firstWins).isOk = true := by
      simp only [resolveAll, resolutionOrder, DepthFirst.order_eq_workFor]
      decide +kernel
    obtain ⟨shapes, h⟩ := exists_eq_ok_of_isOk hresolves
    exact ⟨shapes, h, (members_of_resolveAll keyed_kite).1 shapes h⟩
  · have hmem : kiteTail ∈ kite.entries := by decide
    have horder : kite.resolutionOrder =
        .ok ([⟨"a", "A", none⟩, ⟨"a", "B", none⟩, ⟨"a", "C", none⟩] ++ [kiteTail.id]) := by
      simp only [resolutionOrder, DepthFirst.order_eq_workFor]
      decide +kernel
    have htargets : (kite.resolveInOrder .error []
        [⟨"a", "A", none⟩, ⟨"a", "B", none⟩, ⟨"a", "C", none⟩]).map (fun resolved =>
          (membersNamed "y" ((kiteTail.mixinsIn resolved).flatMap Shape.members)).map
            Member.target) = .ok [⟨"a", "T", none⟩, ⟨"a", "U", none⟩] := by decide +kernel
    obtain ⟨resolved, hresolved, htargets⟩ := map_eq_ok_iff.mp htargets
    refine (members_of_resolveAll keyed_kite).2 _ kiteTail [] resolved hmem horder hresolved ?_
    intro h
    obtain ⟨m, n, hnamed, hm, hn⟩ : ∃ m n,
        membersNamed "y" ((kiteTail.mixinsIn resolved).flatMap Shape.members) = [m, n] ∧
          m.target = ⟨"a", "T", none⟩ ∧ n.target = ⟨"a", "U", none⟩ := by
      simpa [List.map_eq_cons_iff] using htargets
    have hagree := h.agree rfl "y" m (by simp [hnamed]) n (by simp [hnamed])
    rw [hm, hn] at hagree
    exact absurd hagree (by decide)

example : (kite.resolveAll .firstWins).map (fun shapes => shapes.map fun shape =>
      shape.members.map fun m => (m.id.member, m.target.name, m.mixins.map ShapeId.name)) =
    .ok [[(some "x", "T", [])], [(some "x", "T", ["A"]), (some "y", "T", [])],
      [(some "x", "T", ["A"]), (some "y", "U", [])],
      [(some "x", "T", ["B", "C"]), (some "y", "T", ["B"]), (some "z", "U", [])]] := by
  simp only [resolveAll, resolutionOrder, DepthFirst.order_eq_workFor]
  decide +kernel

end Declarations

end SchemaQuery
