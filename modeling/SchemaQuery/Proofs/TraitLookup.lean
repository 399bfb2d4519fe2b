import SchemaQuery.Declaration
import SchemaQuery.Proofs.Indexes

namespace SchemaQuery

namespace Traits

variable {traits : Traits}

def Keyed (traits : Traits) : Prop :=
  ∀ entry ∈ traits.byId.entries, entry.2.id = entry.1

theorem find?_eq_some_iff {id : ShapeId} {t : Trait} :
    traits.find? id = some t ↔ (id, t) ∈ traits.byId.entries := by
  rw [find?, Option.map_eq_some_iff]
  constructor
  · rintro ⟨entry, hentry, rfl⟩
    obtain ⟨hmem, rfl⟩ := Sorted.find?_eq_some_iff.mp hentry
    exact hmem
  · intro hmem
    exact ⟨(id, t), Sorted.find?_eq_some_iff.mpr ⟨hmem, rfl⟩, rfl⟩

theorem contains_eq_isSome_find? (traits : Traits) (id : ShapeId) :
    traits.contains id = (traits.find? id).isSome := by
  rw [contains, Sorted.contains_eq_isSome_find?, find?, Option.isSome_map]

@[simp] theorem find?_empty (id : ShapeId) : (∅ : Traits).find? id = none := rfl

theorem find?_insert (t : Trait) (traits : Traits) (id : ShapeId) :
    (traits.insert t).find? id = if t.id = id then some t else traits.find? id := by
  rw [find?, insert, Sorted.find?_insert]
  split <;> rfl

theorem keyed_empty : (∅ : Traits).Keyed := by
  intro entry hentry
  cases hentry

theorem Keyed.insert (h : traits.Keyed) (t : Trait) : (traits.insert t).Keyed := by
  intro entry hentry
  rcases Sorted.mem_insert.mp hentry with rfl | ⟨hentry, -⟩
  · rfl
  · exact h entry hentry

theorem Keyed.insertAll (h : traits.Keyed) (new : List Trait) : (traits.insertAll new).Keyed := by
  induction new generalizing traits with
  | nil => exact h
  | cons t new ih => exact ih (h.insert t)

theorem keyed_ofList (list : List Trait) : (ofList list).Keyed :=
  keyed_empty.insertAll list

theorem Keyed.map_id_toList (h : traits.Keyed) : traits.toList.map Trait.id = traits.ids := by
  rw [toList, List.map_map]
  exact List.map_congr_left h

theorem Keyed.nodup_map_id (h : traits.Keyed) : (traits.toList.map Trait.id).Nodup := by
  rw [h.map_id_toList]
  exact traits.nodup_ids

theorem find?_map_snd {id : ShapeId} {entries : List (ShapeId × Trait)}
    (h : ∀ entry ∈ entries, entry.2.id = entry.1) :
    (entries.map Prod.snd).find? (fun t => t.id = id) =
      (entries.find? fun entry => entry.1 = id).map Prod.snd := by
  induction entries with
  | nil => rfl
  | cons entry entries ih =>
      obtain ⟨hentry, hentries⟩ := List.forall_mem_cons.mp h
      rw [List.map_cons, List.find?_cons, List.find?_cons, hentry, ih hentries]
      split <;> rfl

theorem Keyed.find?_toList (h : traits.Keyed) (id : ShapeId) :
    traits.toList.find? (fun t => t.id = id) = traits.find? id :=
  find?_map_snd h

theorem find?_insertAll {new : List Trait} (hnew : (new.map Trait.id).Nodup) (traits : Traits)
    (id : ShapeId) :
    (traits.insertAll new).find? id =
      (new.find? fun t => t.id = id).or (traits.find? id) := by
  induction new generalizing traits with
  | nil => rfl
  | cons t new ih =>
      obtain ⟨ht, hnew⟩ := List.nodup_cons.mp hnew
      refine (ih hnew (traits.insert t)).trans ?_
      rw [find?_insert, List.find?_cons]
      by_cases hid : t.id = id
      · subst hid
        have hnone : new.find? (fun other => other.id = t.id) = none := by
          rw [List.find?_eq_none]
          intro other hother hid
          exact ht (List.mem_map.mpr ⟨other, hother, of_decide_eq_true hid⟩)
        simp [hnone]
      · simp [hid]

end Traits

theorem Shape.hasTrait_eq_isSome (shape : Shape) (trait : ShapeId) :
    shape.hasTrait trait = (shape.trait? trait).isSome :=
  shape.traits.contains_eq_isSome_find? trait

def DeclaredContent.Keyed (content : DeclaredContent) : Prop :=
  ∀ type members, content = .aggregate type members → ∀ m ∈ members, m.traits.Keyed

theorem DeclaredContent.Keyed.onContent {step : Step} {content after : DeclaredContent}
    (h : content.Keyed) (hstep : step.onContent content = .ok after) : after.Keyed := by
  cases step with
  | member name target traits =>
      cases content with
      | aggregate type members =>
          cases hstep
          rintro _ _ ⟨⟩
          intro m hm
          rcases List.mem_append.mp hm with hm | hm
          · exact h type members rfl m hm
          · rw [List.mem_singleton.mp hm]
            exact Traits.keyed_ofList traits
      | simple | member | service | resource | operation => cases hstep
  | trait | mixin =>
      cases hstep
      exact h
  | identifier | property | lifecycle | collectionOperation | bindOperation | bindResource
  | input | output | error | version =>
      -- the content stays one without members
      cases content <;> cases hstep <;> rintro _ _ ⟨⟩

namespace Declaration

structure Keyed (d : Declaration) : Prop where
  traits : d.traits.Keyed
  content : d.content.Keyed

theorem Keyed.members {d : Declaration} (h : d.Keyed) : ∀ m ∈ d.members, m.traits.Keyed := by
  intro m hm
  rw [Declaration.members] at hm
  split at hm
  · next type members hcontent => exact h.content type members hcontent m hm
  · cases hm

theorem keyed_new (type : ShapeType) (id : ShapeId) : (new type id).Keyed where
  traits := Traits.keyed_empty
  content := by
    intro _ _ hcontent m hm
    cases type <;> cases hcontent
    cases hm

theorem keyed_simple (type : ShapeType) (id : ShapeId) : (simple type id).Keyed := by
  unfold simple
  split
  · exact keyed_new type id
  · exact ⟨(keyed_new type id).traits, (keyed_new type id).content⟩

theorem Keyed.add {d : Declaration} (h : d.Keyed) (step : Step) : (d.add step).Keyed := by
  unfold Declaration.add
  split
  · exact ⟨h.traits, h.content⟩
  · next content hcontent =>
    split
    · exact ⟨h.traits.insert _, h.content⟩
    · exact ⟨h.traits, h.content⟩
    · exact ⟨h.traits, h.content.onContent hcontent⟩

theorem Keyed.addAll {d : Declaration} (h : d.Keyed) (steps : List Step) :
    (d.addAll steps).Keyed := by
  induction steps generalizing d with
  | nil => exact h
  | cons step steps ih => exact ih (h.add step)

end Declaration

end SchemaQuery
