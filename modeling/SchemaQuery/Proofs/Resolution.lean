import SchemaQuery.Except
import SchemaQuery.Mixin.Resolve
import SchemaQuery.Proofs.Sorted

namespace SchemaQuery

namespace EffectiveMember

theorem exists_withMember_of_freeze {shape : ShapeId} {effective : List EffectiveMember}
    {members : List Member} (h : freeze shape effective = .ok members) {m : Member}
    (hm : m ∈ members) : ∃ name, shape.withMember name = .ok m.id := by
  induction effective generalizing members with
  | nil =>
      cases h
      cases hm
  | cons e rest ih =>
      unfold freeze at h
      split at h
      · cases h
      · next id hid =>
        obtain ⟨frozen, hrest, rfl⟩ := map_eq_ok_iff.mp h
        rcases List.mem_cons.mp hm with rfl | hm
        · exact ⟨e.name, hid⟩
        · exact ih hrest hm

end EffectiveMember

namespace Declaration

variable {policy : ConflictPolicy} {d : Declaration} {mixins : List Shape} {shape : Shape}

theorem resolve_eq_ok_iff :
    d.resolve policy mixins = .ok shape ↔
      ∃ members, EffectiveTraits.of d mixins = .ok shape.traits ∧
        EffectiveMember.all policy d mixins = .ok members ∧
        EffectiveMember.checkNames d members = .ok () ∧
        d.resolveContent mixins members = .ok shape.content ∧ shape.id = d.id ∧
        shape.mixins = d.mixins := by
  constructor
  · intro h
    unfold resolve at h
    split at h
    · cases h
    next traits htraits =>
    split at h
    · cases h
    next members hmembers =>
    split at h
    · cases h
    next hnames =>
    obtain ⟨content, hcontent, rfl⟩ := map_eq_ok_iff.mp h
    exact ⟨members, htraits, hmembers, hnames, hcontent, rfl, rfl⟩
  · rintro ⟨members, htraits, hmembers, hnames, hcontent, hid, hmixins⟩
    simp only [resolve, htraits, hmembers, hnames, hcontent, Except.map, ← hid, ← hmixins]

theorem of_resolve (h : d.resolve policy mixins = .ok shape) :
    shape.id = d.id ∧ ∀ m ∈ shape.members, ∃ name, d.id.withMember name = .ok m.id := by
  obtain ⟨members, -, -, -, hcontent, hid, -⟩ := resolve_eq_ok_iff.mp h
  refine ⟨hid, ?_⟩
  intro m hm
  unfold resolveContent at hcontent
  rw [Shape.members] at hm
  split at hcontent
  case h_2 =>
    obtain ⟨frozen, hfreeze, hcontent⟩ := map_eq_ok_iff.mp hcontent
    rw [← hcontent] at hm
    exact EffectiveMember.exists_withMember_of_freeze hfreeze hm
  case h_3 => cases hcontent
  -- only the content of an aggregate has members
  all_goals
    rw [← Except.ok.inj hcontent] at hm
    cases hm

end Declaration

namespace Declarations

variable {policy : ConflictPolicy} {declared : Declarations}

theorem exists_resolve_of_resolveInOrder {order : List ShapeId} {resolved shapes : List Shape}
    (h : resolveInOrder policy declared resolved order = .ok shapes) {shape : Shape}
    (hshape : shape ∈ shapes) :
    shape ∈ resolved ∨
      ∃ d ∈ declared.entries, ∃ mixins, d.resolve policy mixins = .ok shape := by
  induction order generalizing resolved with
  | nil =>
      cases h
      exact .inl hshape
  | cons id rest ih =>
      unfold resolveInOrder at h
      split at h
      · exact ih h
      · next d hd =>
        dsimp only at h
        split at h
        · cases h
        · next new hnew =>
          rcases ih h with hmem | hlater
          · rcases List.mem_append.mp hmem with hmem | hmem
            · exact .inl hmem
            · rw [List.mem_singleton.mp hmem]
              exact .inr ⟨d, (Sorted.find?_eq_some_iff.mp hd).1, _, hnew⟩
          · exact .inr hlater

theorem exists_resolve_of_resolveAll {shapes : List Shape}
    (h : declared.resolveAll policy = .ok shapes) {shape : Shape} (hshape : shape ∈ shapes) :
    ∃ d ∈ declared.entries, ∃ mixins, d.resolve policy mixins = .ok shape := by
  unfold resolveAll at h
  split at h
  · cases h
  · exact (exists_resolve_of_resolveInOrder h hshape).resolve_left List.not_mem_nil

theorem map_id_of_resolveInOrder {order : List ShapeId} {resolved shapes : List Shape}
    (h : resolveInOrder policy declared resolved order = .ok shapes)
    (horder : ∀ id ∈ order, id ∈ declared.keys) :
    shapes.map Shape.id = resolved.map Shape.id ++ order := by
  induction order generalizing resolved with
  | nil =>
      cases h
      exact (List.append_nil _).symm
  | cons id rest ih =>
      obtain ⟨hid, hrest⟩ := List.forall_mem_cons.mp horder
      unfold resolveInOrder at h
      split at h
      · next hnone =>
        obtain ⟨d, hd, rfl⟩ := List.mem_map.mp hid
        rw [Sorted.find?_eq_some_iff.mpr ⟨hd, rfl⟩] at hnone
        cases hnone
      · next d hd =>
        dsimp only at h
        split at h
        · cases h
        · next new hnew =>
          have hkey : new.id = id :=
            (Declaration.of_resolve hnew).1.trans (Sorted.find?_eq_some_iff.mp hd).2
          rw [ih h hrest, List.map_append, List.append_assoc, List.map_singleton, hkey]
          rfl

end Declarations

end SchemaQuery
