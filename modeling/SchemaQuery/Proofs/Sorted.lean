import Mathlib.Data.List.Sort
import SchemaQuery.Sorted

namespace SchemaQuery.Sorted

open Std

variable {α κ : Type} [Ord κ] {key : α → κ}

abbrev Precedes (key : α → κ) (a b : α) : Prop := compare (key a) (key b) = .lt

theorem key_ne_of_precedes [ReflOrd κ] {a b : α} (h : Precedes key a b) : key a ≠ key b := by
  intro heq
  have hself : compare (key a) (key a) = .eq := ReflOrd.compare_self
  rw [Precedes, ← heq, hself] at h
  cases h

theorem eq_of_mem_iff_of_pairwise [OrientedOrd κ] {l₁ l₂ : List α}
    (h₁ : l₁.Pairwise (Precedes key)) (h₂ : l₂.Pairwise (Precedes key))
    (h : ∀ a, a ∈ l₁ ↔ a ∈ l₂) : l₁ = l₂ := by
  have hirrefl : Std.Irrefl (Precedes key) := ⟨fun _ hself => key_ne_of_precedes hself rfl⟩
  have hantisymm : Std.Antisymm (Precedes key) :=
    ⟨fun _ _ hab hba => absurd hba (OrientedCmp.not_lt_of_lt hab)⟩
  exact h₁.eq_of_mem_iff h₂ h

theorem nodup_keys [ReflOrd κ] (s : Sorted key) : s.keys.Nodup := by
  refine List.nodup_iff_pairwise_ne.mpr (List.pairwise_map.mpr ?_)
  exact s.ordered.imp key_ne_of_precedes

theorem eq_of_key_eq [ReflOrd κ] {s : Sorted key} {a b : α} (ha : a ∈ s.entries)
    (hb : b ∈ s.entries) (h : key a = key b) : a = b :=
  List.inj_on_of_nodup_map s.nodup_keys ha hb h

theorem contains_iff [DecidableEq κ] {s : Sorted key} {k : κ} :
    s.contains k = true ↔ ∃ a ∈ s.entries, key a = k := by
  simp [contains]

theorem contains_eq_isSome_find? [DecidableEq κ] (s : Sorted key) (k : κ) :
    s.contains k = (s.find? k).isSome := by
  rw [Bool.eq_iff_iff, contains, find?, List.any_eq_true, List.find?_isSome]

theorem find?_eq_some_iff [ReflOrd κ] [DecidableEq κ] {s : Sorted key} {k : κ} {a : α} :
    s.find? k = some a ↔ a ∈ s.entries ∧ key a = k := by
  constructor
  · intro h
    exact ⟨List.mem_of_find?_eq_some h, by simpa using List.find?_some h⟩
  · rintro ⟨hmem, rfl⟩
    cases hfind : s.find? (key a) with
    | none =>
        have hnone := List.find?_eq_none.mp hfind a hmem
        simp at hnone
    | some b =>
        have hkey : key b = key a := by simpa using List.find?_some hfind
        rw [eq_of_key_eq (List.mem_of_find?_eq_some hfind) hmem hkey]

theorem filter_key_eq [OrientedOrd κ] [ReflOrd κ] [DecidableEq κ] (s : Sorted key) (k : κ) :
    (s.entries.filter fun a => key a = k) = (s.find? k).toList := by
  refine eq_of_mem_iff_of_pairwise (s.ordered.filter _) ?_ fun a => ?_
  · cases s.find? k <;> simp
  · rw [List.mem_filter, decide_eq_true_eq, ← find?_eq_some_iff, Option.mem_toList]

def relabel (f : α → α) (hf : ∀ a, key (f a) = key a) (s : Sorted key) : Sorted key where
  entries := s.entries.map f
  ordered := by
    rw [List.pairwise_map]
    simpa only [hf] using s.ordered

section Relabel

variable {f : α → α} {hf : ∀ a, key (f a) = key a}

@[simp] theorem entries_relabel (s : Sorted key) : (s.relabel f hf).entries = s.entries.map f := rfl

@[simp] theorem keys_relabel (s : Sorted key) : (s.relabel f hf).keys = s.keys := by
  simp [keys, hf]

@[simp] theorem contains_relabel [DecidableEq κ] (s : Sorted key) (k : κ) :
    (s.relabel f hf).contains k = s.contains k := by
  simp [contains, Function.comp_def, hf]

@[simp] theorem size_relabel (s : Sorted key) : (s.relabel f hf).size = s.size := by
  simp [size]

theorem find?_relabel [DecidableEq κ] (s : Sorted key) (k : κ) :
    (s.relabel f hf).find? k = (s.find? k).map f := by
  have hsame : (fun a => decide (key a = k)) ∘ f = fun a => decide (key a = k) := by
    funext a
    rw [Function.comp_apply, hf]
  rw [find?, entries_relabel, List.find?_map, hsame, find?]

theorem insert_relabel [TransOrd κ] (a : α) (s : Sorted key) :
    (s.relabel f hf).insert (f a) = (s.insert a).relabel f hf := by
  apply ext
  simp only [entries_insert, entries_relabel]
  induction s.entries with
  | nil => rfl
  | cons b rest ih =>
      simp only [List.map_cons, insertEntry, hf]
      split
      · rfl
      · rfl
      · rw [ih, List.map_cons]

end Relabel

section Insert

variable [TransOrd κ] [LawfulEqOrd κ]

theorem mem_insertEntry_iff {a c : α} {l : List α} (h : l.Pairwise (Precedes key)) :
    c ∈ insertEntry key a l ↔ c = a ∨ c ∈ l ∧ key c ≠ key a := by
  induction l with
  | nil => simp [insertEntry]
  | cons b rest ih =>
      obtain ⟨hb, hrest⟩ := List.pairwise_cons.mp h
      have hlater {d : α} (hd : d ∈ rest) : key d ≠ key b :=
        (key_ne_of_precedes (hb d hd)).symm
      unfold insertEntry
      split
      · next hlt =>
        have hnew : ∀ d ∈ b :: rest, key d ≠ key a := by
          intro d hd
          rcases List.mem_cons.mp hd with rfl | hd
          · exact (key_ne_of_precedes hlt).symm
          · have hlt : Precedes key a d := TransCmp.lt_trans hlt (hb d hd)
            exact (key_ne_of_precedes hlt).symm
        rw [List.mem_cons]
        exact or_congr_right ⟨fun hc => ⟨hc, hnew c hc⟩, And.left⟩
      · next heq =>
        have hkey : key a = key b := LawfulEqCmp.eq_of_compare heq
        rw [List.mem_cons, List.mem_cons, hkey]
        refine or_congr_right ⟨fun hc => ⟨.inr hc, hlater hc⟩, ?_⟩
        rintro ⟨rfl | hc, hne⟩
        · exact absurd rfl hne
        · exact hc
      · next hgt =>
        have hkey : key b ≠ key a := key_ne_of_precedes (OrientedCmp.lt_of_gt hgt)
        rw [List.mem_cons, List.mem_cons, ih hrest]
        constructor
        · rintro (rfl | rfl | ⟨hc, hne⟩)
          · exact .inr ⟨.inl rfl, hkey⟩
          · exact .inl rfl
          · exact .inr ⟨.inr hc, hne⟩
        · rintro (rfl | ⟨rfl | hc, hne⟩)
          · exact .inr (.inl rfl)
          · exact .inl rfl
          · exact .inr (.inr ⟨hc, hne⟩)

theorem mem_insert {a c : α} {s : Sorted key} :
    c ∈ (s.insert a).entries ↔ c = a ∨ c ∈ s.entries ∧ key c ≠ key a :=
  mem_insertEntry_iff s.ordered

theorem find?_insert [DecidableEq κ] (a : α) (s : Sorted key) (k : κ) :
    (s.insert a).find? k = if key a = k then some a else s.find? k := by
  apply Option.ext
  intro c
  rw [find?_eq_some_iff, mem_insert]
  split
  · next hkey =>
    subst hkey
    simp only [Option.some.injEq]
    constructor
    · rintro ⟨rfl | ⟨-, hne⟩, heq⟩
      · rfl
      · exact absurd heq hne
    · rintro rfl
      exact ⟨.inl rfl, rfl⟩
  · next hkey =>
    rw [find?_eq_some_iff]
    constructor
    · rintro ⟨rfl | ⟨hc, -⟩, heq⟩
      · exact absurd heq hkey
      · exact ⟨hc, heq⟩
    · rintro ⟨hc, rfl⟩
      exact ⟨.inr ⟨hc, fun heq => hkey heq.symm⟩, rfl⟩

theorem contains_insert [DecidableEq κ] (a : α) (s : Sorted key) (k : κ) :
    (s.insert a).contains k = (decide (key a = k) || s.contains k) := by
  rw [contains_eq_isSome_find?, contains_eq_isSome_find?, find?_insert]
  split <;> simp [*]

omit [LawfulEqOrd κ] in
theorem size_insert_le (a : α) (s : Sorted key) : (s.insert a).size ≤ s.size + 1 := by
  have hlength (l : List α) : (insertEntry key a l).length ≤ l.length + 1 := by
    induction l with
    | nil => simp [insertEntry]
    | cons b rest ih =>
        unfold insertEntry
        split <;> simp [ih]
  exact hlength s.entries

theorem mem_of_mem_foldl_insert {a : α} {l : List α} {s : Sorted key}
    (h : a ∈ (l.foldl (fun s b => s.insert b) s).entries) : a ∈ l ∨ a ∈ s.entries := by
  induction l generalizing s with
  | nil => exact .inr h
  | cons b l ih =>
      rcases ih h with hlater | hmem
      · exact .inl (List.mem_cons_of_mem b hlater)
      · rcases mem_insert.mp hmem with rfl | ⟨hmem, -⟩
        · exact .inl List.mem_cons_self
        · exact .inr hmem

theorem mem_of_mem_ofList {a : α} {l : List α} (h : a ∈ (ofList l : Sorted key).entries) : a ∈ l :=
  (mem_of_mem_foldl_insert h).resolve_right List.not_mem_nil

theorem mem_foldl_insert {a : α} {l : List α} (hl : (l.map key).Nodup) {s : Sorted key} :
    a ∈ (l.foldl (fun s b => s.insert b) s).entries ↔
      a ∈ l ∨ a ∈ s.entries ∧ key a ∉ l.map key := by
  induction l generalizing s with
  | nil => simp
  | cons b l ih =>
      obtain ⟨hb, hl⟩ := List.nodup_cons.mp hl
      rw [List.foldl_cons, ih hl, mem_insert, List.map_cons, List.mem_cons, List.mem_cons, not_or]
      constructor
      · rintro (hmem | ⟨rfl | ⟨hmem, hne⟩, hnew⟩)
        · exact .inl (.inr hmem)
        · exact .inl (.inl rfl)
        · exact .inr ⟨hmem, hne, hnew⟩
      · rintro ((rfl | hmem) | ⟨hmem, hne, hnew⟩)
        · exact .inr ⟨.inl rfl, hb⟩
        · exact .inl hmem
        · exact .inr ⟨.inr ⟨hmem, hne⟩, hnew⟩

theorem mem_ofList_of_nodup {a : α} {l : List α} (hl : (l.map key).Nodup) :
    a ∈ (ofList l : Sorted key).entries ↔ a ∈ l := by
  rw [ofList, mem_foldl_insert hl]
  exact or_iff_left fun h => List.not_mem_nil h.1

theorem ofList_entries (s : Sorted key) : ofList s.entries = s := by
  apply ext
  apply eq_of_mem_iff_of_pairwise (ofList s.entries).ordered s.ordered
  intro a
  exact mem_ofList_of_nodup s.nodup_keys

end Insert

end SchemaQuery.Sorted

namespace SchemaQuery.SortedSet

open Std

variable {κ : Type} [Ord κ] [TransOrd κ] [LawfulEqOrd κ]

theorem mem_insert {a c : κ} {s : SortedSet κ} :
    c ∈ (s.insert a).entries ↔ c = a ∨ c ∈ s.entries := by
  rw [Sorted.mem_insert]
  by_cases h : c = a <;> simp [h]

theorem mem_foldl_insert {c : κ} {l : List κ} {s : SortedSet κ} :
    c ∈ (l.foldl (fun s a => s.insert a) s).entries ↔ c ∈ s.entries ∨ c ∈ l := by
  induction l generalizing s with
  | nil => simp
  | cons a l ih =>
      rw [List.foldl_cons, ih, mem_insert, List.mem_cons]
      tauto

@[simp] theorem mem_ofList {c : κ} {l : List κ} :
    c ∈ (Sorted.ofList l : SortedSet κ).entries ↔ c ∈ l := by
  rw [Sorted.ofList, mem_foldl_insert]
  simp [EmptyCollection.emptyCollection]

omit [TransOrd κ] [LawfulEqOrd κ] in
theorem contains_iff [DecidableEq κ] {c : κ} {s : SortedSet κ} :
    s.contains c = true ↔ c ∈ s.entries := by
  simp [Sorted.contains_iff]

omit [LawfulEqOrd κ] in
theorem isLE_of_find?_entries {s : SortedSet κ} {test : κ → Bool} {a : κ}
    (h : s.entries.find? test = some a) :
    ∀ b ∈ s.entries, test b = true → (compare a b).isLE = true := by
  obtain ⟨-, before, after, hentries, hbefore⟩ := List.find?_eq_some_iff_append.mp h
  have hordered := s.ordered
  rw [hentries] at hordered ⊢
  obtain ⟨hafter, -⟩ := List.pairwise_cons.mp (List.pairwise_append.mp hordered).2.1
  intro b hb htest
  rcases List.mem_append.mp hb with hb | hb
  · have hfails := hbefore b hb
    rw [htest] at hfails
    cases hfails
  · rcases List.mem_cons.mp hb with rfl | hb
    · rw [Std.compare_self]
      rfl
    · have hlt : compare a b = .lt := hafter b hb
      rw [hlt]
      rfl

theorem find?_entries_eq_some_iff {s : SortedSet κ} {test : κ → Bool} {a : κ} :
    s.entries.find? test = some a ↔ a ∈ s.entries ∧ test a = true ∧
      ∀ b ∈ s.entries, test b = true → (compare a b).isLE = true := by
  constructor
  · intro h
    exact ⟨List.mem_of_find?_eq_some h, List.find?_some h, isLE_of_find?_entries h⟩
  · rintro ⟨ha, htest, hleast⟩
    cases hfind : s.entries.find? test with
    | none => exact absurd htest (List.find?_eq_none.mp hfind a ha)
    | some b =>
        have hle := hleast b (List.mem_of_find?_eq_some hfind) (List.find?_some hfind)
        have hge := isLE_of_find?_entries hfind a ha htest
        rw [LawfulEqCmp.eq_of_compare (OrientedCmp.isLE_antisymm hge hle)]

end SchemaQuery.SortedSet
