import Mathlib.Data.List.Nodup
import Mathlib.Data.Option.Basic
import SchemaQuery.Except
import SchemaQuery.Form.Shape
import SchemaQuery.Proofs.IdText
import SchemaQuery.Proofs.TraitLookup

namespace SchemaQuery

theorem mapM_eq_some_iff {α β : Type} {f : α → Option β} {l : List α} {found : List β} :
    l.mapM f = some found ↔ l.map f = found.map some := by
  induction l generalizing found with
  | nil => cases found <;> simp
  | cons a l ih =>
      rw [List.mapM_cons, List.map_cons]
      cases found <;> simp [Option.bind_eq_some_iff, ← ih]

namespace Traits

variable {traits : Traits}

/-- The ids of a table are those of its traits, however it is looked at. -/
structure Coherent (traits : Traits) : Prop where
  keyed : traits.Keyed
  ids : traits.ids = traits.toList.map Trait.id
  find? : ∀ id t, traits.find? id = some t → t.id = id
  rebuilt : ofList traits.toList = traits

theorem byId_insertAll (new : List Trait) (traits : Traits) :
    (traits.insertAll new).byId =
      (new.map fun t => (t.id, t)).foldl (fun s entry => s.insert entry) traits.byId := by
  rw [List.foldl_map]
  exact (List.foldl_hom byId fun _ _ => rfl).symm

theorem Keyed.ofList_toList (h : traits.Keyed) : ofList traits.toList = traits := by
  have hentries : (traits.toList.map fun t => (t.id, t)) = traits.byId.entries := by
    rw [toList, List.map_map]
    refine (List.map_congr_left ?_).trans (List.map_id _)
    intro entry hentry
    exact Prod.ext (h entry hentry) rfl
  apply ext
  rw [ofList, byId_insertAll, hentries]
  exact Sorted.ofList_entries traits.byId

theorem coherent_iff : traits.Coherent ↔ traits.Keyed := by
  constructor
  · exact Coherent.keyed
  · intro h
    refine ⟨h, h.map_id_toList.symm, ?_, h.ofList_toList⟩
    intro id t hfind
    exact h (id, t) (find?_eq_some_iff.mp hfind)

inductive Change where
  | insert (t : Trait)
  | erase (id : ShapeId)

/-- The only id under which a change makes a difference. -/
def Change.id : Change → ShapeId
  | insert t => t.id
  | erase id => id

def change (traits : Traits) : Change → Traits
  | .insert t => traits.insert t
  | .erase id => traits.erase id

def changeAll (traits : Traits) (changes : List Change) : Traits :=
  changes.foldl change traits

/-- Every trait stands under its own id, but for those under some ids. -/
def KeyedBut (ids : List ShapeId) (traits : Traits) : Prop :=
  ∀ entry ∈ traits.byId.entries, entry.2.id = entry.1 ∨ entry.1 ∈ ids

theorem keyedBut_nil : traits.KeyedBut [] ↔ traits.Keyed := by
  simp [KeyedBut, Keyed]

theorem mem_change {c : Change} {entry : ShapeId × Trait} :
    entry ∈ (traits.change c).byId.entries ↔
      c = .insert entry.2 ∧ entry.2.id = entry.1 ∨
        entry ∈ traits.byId.entries ∧ entry.1 ≠ c.id := by
  obtain ⟨id, t⟩ := entry
  cases c with
  | insert new =>
      refine Sorted.mem_insert.trans (or_congr_left ?_)
      simp only [Prod.mk.injEq, Change.insert.injEq]
      constructor
      · rintro ⟨rfl, rfl⟩
        exact ⟨rfl, rfl⟩
      · rintro ⟨rfl, rfl⟩
        exact ⟨rfl, rfl⟩
  | erase erased => simp [change, erase, Sorted.erase, Change.id]

theorem keyedBut_change {c : Change} {ids : List ShapeId} :
    (traits.change c).KeyedBut ids ↔ traits.KeyedBut (c.id :: ids) := by
  constructor
  · intro h entry hentry
    by_cases hid : entry.1 = c.id
    · exact .inr (hid ▸ List.mem_cons_self)
    · exact (h entry (mem_change.mpr (.inr ⟨hentry, hid⟩))).imp_right (List.mem_cons_of_mem _)
  · intro h entry hentry
    rcases mem_change.mp hentry with ⟨-, hown⟩ | ⟨hentry, hne⟩
    · exact .inl hown
    · exact (h entry hentry).imp_right fun hmem => (List.mem_cons.mp hmem).resolve_left hne

theorem keyedBut_changeAll {changes : List Change} {ids : List ShapeId} :
    (traits.changeAll changes).KeyedBut ids ↔
      traits.KeyedBut (changes.map Change.id ++ ids) := by
  induction changes generalizing traits with
  | nil => rfl
  | cons c changes ih => exact ih.trans keyedBut_change

theorem coherent_changeAll_iff {changes : List Change} :
    (traits.changeAll changes).Coherent ↔ traits.KeyedBut (changes.map Change.id) := by
  rw [coherent_iff, ← keyedBut_nil, keyedBut_changeAll, List.append_nil]

theorem Keyed.changeAll_coherent (h : traits.Keyed) (changes : List Change) :
    (traits.changeAll changes).Coherent :=
  coherent_changeAll_iff.mpr fun entry hentry => .inl (h entry hentry)

def fields? (n : Node) : Option (List (String × Node)) := do
  let fields ← n.record? ["traits"]
  Field.required fields "traits" fun
    | .object fields => some fields
    | _ => none

structure HeldBy (field : String × Node) (id : ShapeId) (t : Trait) : Prop where
  id : ShapeId.parse field.1 = .ok id
  trait : Trait.ofNode? field.2 = some t

def ofField? (field : String × Node) : Option (ShapeId × Trait) := do
  return (← (ShapeId.parse field.1).toOption, ← Trait.ofNode? field.2)

theorem ofField?_eq_some_iff {field : String × Node} {entry : ShapeId × Trait} :
    ofField? field = some entry ↔ HeldBy field entry.1 entry.2 := by
  simp only [ofField?, Option.bind_eq_bind, Option.pure_def, Option.bind_eq_some_iff,
    toOption_eq_some_iff]
  constructor
  · rintro ⟨id, hid, t, htrait, ⟨⟩⟩
    exact ⟨hid, htrait⟩
  · rintro ⟨hid, htrait⟩
    exact ⟨entry.1, hid, entry.2, htrait, rfl⟩

theorem ofNode?_eq (n : Node) :
    ofNode? n = (fields? n).bind fun fields =>
      (fields.mapM ofField?).map fun entries => ⟨.ofList entries⟩ := by
  unfold ofNode? fields? Field.required
  cases n.record? ["traits"] with
  | none => rfl
  | some record =>
      cases hvalue : record.lookup "traits" with
      | none => simp [hvalue]
      | some value =>
          cases value with
          | object fields =>
              simp only [Option.bind_eq_bind, Option.bind_some, hvalue]
              exact Option.map_eq_bind.symm
          | null | bool | int | float | text | array => simp [hvalue]

theorem ofNode?_eq_some_iff {n : Node} :
    ofNode? n = some traits ↔ ∃ fields entries, fields? n = some fields ∧
      fields.map ofField? = entries.map some ∧ (⟨.ofList entries⟩ : Traits) = traits := by
  rw [ofNode?_eq, Option.bind_eq_some_iff]
  simp only [Option.map_eq_some_iff, mapM_eq_some_iff, exists_and_left]

theorem text_eq_of_ofField? {field : String × Node} {entry : ShapeId × Trait}
    (h : ofField? field = some entry) : entry.1.text = field.1 :=
  (ShapeId.text_eq_of_parse (ofField?_eq_some_iff.mp h).id).2

theorem map_text_of_map_ofField? {fields : List (String × Node)} {entries : List (ShapeId × Trait)}
    (h : fields.map ofField? = entries.map some) :
    entries.map (fun entry => entry.1.text) = fields.map Prod.fst := by
  induction fields generalizing entries with
  | nil =>
      rw [List.map_nil, List.map_eq_nil_iff.mp h.symm]
      rfl
  | cons field fields ih =>
      cases entries with
      | nil => cases h
      | cons entry entries =>
          obtain ⟨hfield, hfields⟩ := List.cons.inj h
          rw [List.map_cons, List.map_cons, ih hfields, text_eq_of_ofField? hfield]

theorem mem_entries_of_ofNode? {n : Node} (h : ofNode? n = some traits) :
    ∃ fields, fields? n = some fields ∧ ((fields.map Prod.fst).Nodup →
      ∀ entry, entry ∈ traits.byId.entries ↔ ∃ field ∈ fields, HeldBy field entry.1 entry.2) := by
  obtain ⟨fields, entries, hfields, hread, rfl⟩ := ofNode?_eq_some_iff.mp h
  refine ⟨fields, hfields, ?_⟩
  intro hnodup entry
  have hids : (entries.map Prod.fst).Nodup := by
    refine List.Nodup.of_map ShapeId.text ?_
    rw [List.map_map]
    exact map_text_of_map_ofField? hread ▸ hnodup
  rw [Sorted.mem_ofList_of_nodup hids, ← List.mem_map_of_injective (Option.some_injective _),
    ← hread, List.mem_map]
  simp only [ofField?_eq_some_iff]

/-- A table that is made of nothing or of a list of traits is coherent after any changes. One that is
read is so as soon as every id under which a field holds another trait has been inserted or erased,
and not before. -/
theorem coherent_changeAll (changes : List Change) :
    ((∅ : Traits).changeAll changes).Coherent ∧
    (∀ list, ((ofList list).changeAll changes).Coherent) ∧
    ∀ n traits, ofNode? n = some traits → ∃ fields, fields? n = some fields ∧
      ((fields.map Prod.fst).Nodup →
        ((traits.changeAll changes).Coherent ↔ ∀ field ∈ fields, ∀ id t, HeldBy field id t →
          t.id = id ∨ ∃ c ∈ changes, c.id = id)) := by
  refine ⟨keyed_empty.changeAll_coherent changes, ?_, ?_⟩
  · intro list
    exact (keyed_ofList list).changeAll_coherent changes
  · intro n traits h
    obtain ⟨fields, hfields, hmem⟩ := mem_entries_of_ofNode? h
    refine ⟨fields, hfields, ?_⟩
    intro hnodup
    rw [coherent_changeAll_iff]
    constructor
    · intro hbut field hfield id t hheld
      have hentry := (hmem hnodup (id, t)).mpr ⟨field, hfield, hheld⟩
      exact (hbut (id, t) hentry).imp_right List.mem_map.mp
    · intro hfields entry hentry
      obtain ⟨field, hfield, hheld⟩ := (hmem hnodup entry).mp hentry
      exact (hfields field hfield entry.1 entry.2 hheld).imp_right List.mem_map.mpr

def mislabelledFields : List (String × Node) :=
  [("a#S", .object [("id", .text "a#S"), ("value", .int 1)]),
    ("a#T", .object [("id", .text "a#U"), ("value", .int 2)])]

def mislabelled : Node := .object [("traits", .object mislabelledFields)]

def misplaced : Traits :=
  ⟨.ofList [(⟨"a", "S", none⟩, ⟨⟨"a", "S", none⟩, .int 1⟩),
    (⟨"a", "T", none⟩, ⟨⟨"a", "U", none⟩, .int 2⟩)]⟩

theorem ofNode?_mislabelled :
    ofNode? mislabelled = some misplaced ∧ ¬ misplaced.Keyed ∧
      misplaced.ids ≠ misplaced.toList.map Trait.id ∧
      (misplaced.find? ⟨"a", "T", none⟩).map Trait.id = some ⟨"a", "U", none⟩ ∧
      ofList misplaced.toList ≠ misplaced := by
  refine ⟨by decide +kernel, ?_, by decide, by decide, by decide⟩
  intro h
  exact absurd h.map_id_toList (by decide)

theorem coherent_changeAll_mislabelled :
    ∃ traits, ofNode? mislabelled = some traits ∧
      (mislabelledFields.map Prod.fst).Nodup ∧ ¬ (traits.changeAll []).Coherent ∧
      (traits.changeAll [.erase ⟨"a", "T", none⟩]).Coherent := by
  have hread : (ofNode? mislabelled).isSome = true := by decide +kernel
  obtain ⟨traits, h⟩ := Option.isSome_iff_exists.mp hread
  have hfields : fields? mislabelled = some mislabelledFields := rfl
  have hnodup : (mislabelledFields.map Prod.fst).Nodup := by decide
  refine ⟨traits, h, hnodup, ?_, ?_⟩
  · obtain ⟨fields, hfound, hiff⟩ := (coherent_changeAll []).2.2 mislabelled traits h
    obtain rfl := Option.some.inj (hfields.symm.trans hfound)
    have hheld : HeldBy ("a#T", .object [("id", .text "a#U"), ("value", .int 2)])
        ⟨"a", "T", none⟩ ⟨⟨"a", "U", none⟩, .int 2⟩ := ⟨by decide +kernel, by decide +kernel⟩
    intro hcoherent
    have hown := (hiff hnodup).mp hcoherent _ (by decide) _ _ hheld
    simp at hown
  · obtain ⟨fields, hfound, hiff⟩ :=
      (coherent_changeAll [.erase ⟨"a", "T", none⟩]).2.2 mislabelled traits h
    obtain rfl := Option.some.inj (hfields.symm.trans hfound)
    rw [hiff hnodup, mislabelledFields, List.forall_mem_cons, List.forall_mem_singleton]
    constructor
    · intro id t hheld
      have hid : ShapeId.parse "a#S" = .ok ⟨"a", "S", none⟩ := by decide +kernel
      have htrait : Trait.ofNode? (.object [("id", .text "a#S"), ("value", .int 1)]) =
          some ⟨⟨"a", "S", none⟩, .int 1⟩ := by decide +kernel
      obtain rfl := Except.ok.inj (hid.symm.trans hheld.id)
      obtain rfl := Option.some.inj (htrait.symm.trans hheld.trait)
      exact .inl rfl
    · intro id t hheld
      have hid : ShapeId.parse "a#T" = .ok ⟨"a", "T", none⟩ := by decide +kernel
      obtain rfl := Except.ok.inj (hid.symm.trans hheld.id)
      exact .inr ⟨_, List.mem_singleton_self _, rfl⟩

end Traits

end SchemaQuery
