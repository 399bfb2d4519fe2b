import Mathlib.Data.Option.Basic
import SchemaQuery.Proofs.ResolvedMixins
import SchemaQuery.Proofs.TraitLookup

namespace SchemaQuery

namespace Shape

/-- The trait that an entry names. A name without a namespace is one of the prelude. -/
def namedTrait? : Node → Option ShapeId
  | .text entry => (ShapeId.parseRelative entry ShapeId.preludeNamespace).toOption
  | _ => none

def localTraits (mixin : Shape) : List ShapeId :=
  match (mixin.trait? .mixinMarker).bind fun t => t.value.field? "localTraits" with
  | some (.array entries) => entries.filterMap namedTrait?
  | _ => []

/-- A mixin hands a trait on unless it marks mixins or the mixin lists it as its own. -/
def HandsOn (mixin : Shape) (trait : ShapeId) : Prop :=
  trait ≠ .mixinMarker ∧ trait ∉ mixin.localTraits

instance (mixin : Shape) (trait : ShapeId) : Decidable (mixin.HandsOn trait) :=
  inferInstanceAs (Decidable (_ ∧ _))

end Shape

/-- A trait as the last of the mixins has it that has it and hands it on. -/
def inheritedTrait? (mixins : List Shape) (trait : ShapeId) : Option Trait :=
  (mixins.filter fun mixin => mixin.hasTrait trait ∧ mixin.HandsOn trait).getLast?.bind
    fun mixin => mixin.trait? trait

theorem inheritedTrait?_cons (mixin : Shape) (rest : List Shape) (trait : ShapeId) :
    inheritedTrait? (mixin :: rest) trait =
      (inheritedTrait? rest trait).or
        (if mixin.HandsOn trait then mixin.trait? trait else none) := by
  unfold inheritedTrait?
  rw [List.filter_cons]
  cases hfound : (rest.filter fun mixin => mixin.hasTrait trait ∧ mixin.HandsOn trait).getLast? with
  | none =>
      rw [List.getLast?_eq_none_iff.mp hfound, Shape.hasTrait_eq_isSome]
      by_cases hhands : mixin.HandsOn trait <;> cases htrait : mixin.trait? trait <;>
        simp [hhands, htrait]
  | some last =>
      have hlast := List.mem_of_getLast? hfound
      rw [List.mem_filter, decide_eq_true_eq, Shape.hasTrait_eq_isSome] at hlast
      obtain ⟨t, ht⟩ := Option.isSome_iff_exists.mp hlast.2.1
      split
      · rw [List.getLast?_cons, hfound, Option.getD_some, Option.bind_some, ht, Option.some_or]
      · rw [hfound, Option.bind_some, ht, Option.some_or]

namespace EffectiveTraits

theorem eq_of_localIds {shape mixin : ShapeId} {entries : List Node} {ids : List ShapeId}
    (h : localIds shape mixin entries = .ok ids) :
    ids = entries.filterMap Shape.namedTrait? := by
  induction entries generalizing ids with
  | nil =>
      cases h
      rfl
  | cons entry rest ih =>
      unfold localIds at h
      split at h
      · next heq => cases heq
      · next text _ heq =>
        cases heq
        split at h
        · cases h
        next id hid =>
        obtain ⟨later, hlater, rfl⟩ := map_eq_ok_iff.mp h
        have hnamed : Shape.namedTrait? (.text text) = some id := toOption_eq_some_iff.mpr hid
        rw [List.filterMap_cons_some hnamed, ih hlater]
      · cases h

theorem eq_of_keptBack {shape : ShapeId} {mixin : Shape} {kept : List ShapeId}
    (h : keptBack shape mixin = .ok kept) : kept = .mixinMarker :: mixin.localTraits := by
  unfold keptBack at h
  unfold Shape.localTraits
  generalize (mixin.trait? .mixinMarker).bind (fun t => t.value.field? "localTraits") = found
    at h ⊢
  cases found with
  | none =>
      cases h
      rfl
  | some value =>
      cases value with
      | array entries =>
          obtain ⟨ids, hids, rfl⟩ := map_eq_ok_iff.mp h
          rw [eq_of_localIds hids]
      | null | bool | int | float | text | object =>
          cases h
          rfl

theorem eq_of_handedOn {shape : ShapeId} {mixin : Shape} {new : List Trait}
    (h : handedOn shape mixin = .ok new) :
    new = mixin.traits.toList.filter fun t => mixin.HandsOn t.id := by
  obtain ⟨kept, hkept, rfl⟩ := map_eq_ok_iff.mp h
  rw [eq_of_keptBack hkept]
  refine List.filter_congr ?_
  intro t _
  rw [decide_eq_decide, List.mem_cons, not_or]
  rfl

theorem find?_handedOn {shape : ShapeId} {mixin : Shape} {new : List Trait}
    (hmixin : mixin.traits.Keyed) (h : handedOn shape mixin = .ok new) (trait : ShapeId) :
    new.find? (fun t => t.id = trait) =
      if mixin.HandsOn trait then mixin.trait? trait else none := by
  rw [eq_of_handedOn h, List.find?_filter, Shape.trait?, ← hmixin.find?_toList]
  split
  · next hhands =>
    congr 1
    funext t
    by_cases ht : t.id = trait
    · simp [ht, hhands]
    · simp [ht]
  · next hhands =>
    rw [List.find?_eq_none]
    intro t _
    simp only [decide_eq_true_eq, not_and]
    rintro hkeeps rfl
    exact hhands hkeeps

theorem nodup_handedOn {shape : ShapeId} {mixin : Shape} {new : List Trait}
    (hmixin : mixin.traits.Keyed) (h : handedOn shape mixin = .ok new) :
    (new.map Trait.id).Nodup := by
  rw [eq_of_handedOn h]
  exact hmixin.nodup_map_id.sublist (List.filter_sublist.map Trait.id)

variable {shape : ShapeId} {traits inheritedTraits : Traits} {mixins : List Shape}

theorem find?_inherited (hmixins : ∀ mixin ∈ mixins, mixin.traits.Keyed)
    (h : inherited shape traits mixins = .ok inheritedTraits) (trait : ShapeId) :
    inheritedTraits.find? trait = (inheritedTrait? mixins trait).or (traits.find? trait) := by
  induction mixins generalizing traits with
  | nil =>
      cases h
      rfl
  | cons mixin rest ih =>
      obtain ⟨hmixin, hrest⟩ := List.forall_mem_cons.mp hmixins
      unfold inherited at h
      split at h
      · cases h
      next new hnew =>
      -- the rest is written over this mixin, and this mixin over what there was
      rw [ih hrest h, Traits.find?_insertAll (nodup_handedOn hmixin hnew), find?_handedOn hmixin hnew,
        inheritedTrait?_cons, Option.or_assoc]

theorem keyed_inherited (htraits : traits.Keyed)
    (h : inherited shape traits mixins = .ok inheritedTraits) : inheritedTraits.Keyed := by
  induction mixins generalizing traits with
  | nil =>
      cases h
      exact htraits
  | cons mixin rest ih =>
      unfold inherited at h
      split at h
      · cases h
      next new _ => exact ih (htraits.insertAll new) h

theorem keyed_of {d : Declaration} (h : of d mixins = .ok traits) : traits.Keyed := by
  obtain ⟨inherited, hinherited, rfl⟩ := map_eq_ok_iff.mp h
  exact (keyed_inherited Traits.keyed_empty hinherited).insertAll _

theorem find?_of {d : Declaration} (hd : d.traits.Keyed)
    (hmixins : ∀ mixin ∈ mixins, mixin.traits.Keyed) (h : of d mixins = .ok traits)
    (trait : ShapeId) :
    traits.find? trait = (d.traits.find? trait).or (inheritedTrait? mixins trait) := by
  obtain ⟨inherited, hinherited, rfl⟩ := map_eq_ok_iff.mp h
  rw [Traits.find?_insertAll hd.nodup_map_id, hd.find?_toList, find?_inherited hmixins hinherited,
    Traits.find?_empty, Option.or_none]

end EffectiveTraits

theorem inheritedTrait?_mixinMarker (mixins : List Shape) :
    inheritedTrait? mixins .mixinMarker = none := by
  have hnone : mixins.filter (fun mixin => mixin.hasTrait .mixinMarker ∧
      mixin.HandsOn .mixinMarker) = [] := by
    rw [List.filter_eq_nil_iff]
    intro mixin _
    simp [Shape.HandsOn]
  rw [inheritedTrait?, hnone]
  rfl

namespace Declarations

variable {policy : ConflictPolicy} {declared : Declarations} {shapes : List Shape}

theorem keyed_traits_of_resolveAll (h : declared.resolveAll policy = .ok shapes) :
    ∀ shape ∈ shapes, shape.traits.Keyed := by
  refine forall_of_resolveAll ?_ h
  intro d _ mixins shape _ hresolve
  obtain ⟨_, htraits, -⟩ := Declaration.resolve_eq_ok_iff.mp hresolve
  exact EffectiveTraits.keyed_of htraits

/-- A resolved shape has a trait as it is declared. If it is not declared, the last of the mixins
counts that has the trait and hands it on. So exactly the shapes that are declared as mixins are
marked as mixins. -/
theorem traits_of_resolveAll (hkeyed : ∀ d ∈ declared.entries, d.traits.Keyed)
    (h : declared.resolveAll policy = .ok shapes) :
    (shapes.map Shape.id).Perm declared.keys ∧
      ∀ d ∈ declared.entries, ∀ shape ∈ shapes, shape.id = d.id →
        (d.mixinsIn shapes).map Shape.id = d.mixins ∧
        (∀ trait, shape.trait? trait =
          (d.traits.find? trait).or (inheritedTrait? (d.mixinsIn shapes) trait)) ∧
        (shape.hasTrait .mixinMarker ↔ d.traits.contains .mixinMarker) := by
  have hyields := yields_of_resolveAll h
  refine ⟨hyields.ids, ?_⟩
  intro d hd shape hshape hid
  obtain ⟨_, htraits, -⟩ :=
    Declaration.resolve_eq_ok_iff.mp (hyields.resolve_eq_ok hd hshape hid)
  have hmixins : ∀ mixin ∈ d.mixinsIn shapes, mixin.traits.Keyed := fun mixin hmixin =>
    keyed_traits_of_resolveAll h mixin (Declaration.mem_of_mem_mixinsIn hmixin)
  have htrait (trait : ShapeId) : shape.trait? trait =
      (d.traits.find? trait).or (inheritedTrait? (d.mixinsIn shapes) trait) :=
    EffectiveTraits.find?_of (hkeyed d hd) hmixins htraits trait
  refine ⟨hyields.mixins d hd, htrait, ?_⟩
  rw [Shape.hasTrait_eq_isSome, htrait, inheritedTrait?_mixinMarker, Option.or_none,
    Traits.contains_eq_isSome_find?]

def layered : Declarations :=
  .ofList [
    (Declaration.structure ⟨"a", "A", none⟩).addAll
      [.trait ⟨.mixinMarker, .ofFields [("localTraits", .array [.text "own"])]⟩,
        .trait ⟨.prelude "own", .text "A"⟩, .trait ⟨⟨"a", "tag", none⟩, .text "A"⟩],
    (Declaration.structure ⟨"a", "B", none⟩).addAll
      [.mixin ⟨"a", "A", none⟩, .trait ⟨⟨"a", "doc", none⟩, .text "B"⟩,
        .trait ⟨.mixinMarker, .ofFields [("localTraits", .array [.text "a#tag"])]⟩],
    (Declaration.structure ⟨"a", "C", none⟩).addAll
      [.trait (.mark .mixinMarker), .trait ⟨⟨"a", "doc", none⟩, .text "C"⟩],
    (Declaration.structure ⟨"a", "D", none⟩).addAll
      [.mixin ⟨"a", "B", none⟩, .mixin ⟨"a", "C", none⟩, .trait ⟨.prelude "own", .text "D"⟩]]

theorem keyed_layered : ∀ d ∈ layered.entries, d.Keyed := by
  intro d hd
  have hmem := Sorted.mem_of_mem_ofList hd
  simp only [List.mem_cons, List.not_mem_nil, or_false] at hmem
  rcases hmem with rfl | rfl | rfl | rfl <;> exact (Declaration.keyed_new _ _).addAll _

theorem traits_of_resolveAll_layered :
    (∀ d ∈ layered.entries, d.traits.Keyed) ∧
      ∃ shapes, layered.resolveAll .error = .ok shapes ∧
        (shapes.map Shape.id).Perm layered.keys ∧
        ∀ d ∈ layered.entries, ∀ shape ∈ shapes, shape.id = d.id →
          (d.mixinsIn shapes).map Shape.id = d.mixins ∧
          (∀ trait, shape.trait? trait =
            (d.traits.find? trait).or (inheritedTrait? (d.mixinsIn shapes) trait)) ∧
          (shape.hasTrait .mixinMarker ↔ d.traits.contains .mixinMarker) := by
  have hkeyed : ∀ d ∈ layered.entries, d.traits.Keyed := fun d hd => (keyed_layered d hd).traits
  have hresolves : (layered.resolveAll .error).isOk = true := by
    simp only [resolveAll, resolutionOrder, DepthFirst.order_eq_workFor]
    decide +kernel
  obtain ⟨shapes, h⟩ := exists_eq_ok_of_isOk hresolves
  exact ⟨hkeyed, shapes, h, traits_of_resolveAll hkeyed h⟩

example : (layered.resolveAll .error).map (fun shapes =>
      shapes.map fun shape => (shape.id.name, shape.traits.ids.map ShapeId.name)) =
    .ok [("C", ["doc", "mixin"]), ("A", ["tag", "mixin", "own"]), ("B", ["doc", "tag", "mixin"]),
      ("D", ["doc", "own"])] := by
  simp only [resolveAll, resolutionOrder, DepthFirst.order_eq_workFor]
  decide +kernel

end Declarations

end SchemaQuery
