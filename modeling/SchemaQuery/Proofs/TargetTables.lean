import Mathlib.Data.Finset.Card
import Mathlib.Data.Finset.Dedup
import Mathlib.Data.String.Basic
import SchemaQuery.Proofs.FirstOccurrences
import SchemaQuery.Shape.TargetTable

namespace SchemaQuery.TargetTable

theorem lookup_eq_some_iff_of_nodup {entries : List (String × ShapeId)}
    (h : (entries.map Prod.fst).Nodup) {name : String} {target : ShapeId} :
    entries.lookup name = some target ↔ (name, target) ∈ entries := by
  have hmem {found : ShapeId} (hfound : entries.lookup name = some found) :
      (name, found) ∈ entries := by
    obtain ⟨before, after, rfl, -⟩ := List.lookup_eq_some_iff.mp hfound
    simp
  constructor
  · exact hmem
  · intro htarget
    cases hlookup : entries.lookup name with
    | none =>
        have hne := List.lookup_eq_none_iff.mp hlookup _ htarget
        simp at hne
    | some found =>
        have heq := List.inj_on_of_nodup_map h (hmem hlookup) htarget rfl
        rw [(Prod.mk.inj heq).2]

theorem find?_eq_some_iff {targets : TargetTable} {name : String} {target : ShapeId} :
    targets.find? name = some target ↔ (name, target) ∈ targets.entries :=
  lookup_eq_some_iff_of_nodup targets.distinct

theorem eraseDups_names (targets : TargetTable) : targets.names.eraseDups = targets.names :=
  eraseDups_of_nodup targets.distinct

theorem entries_eq_filterMap (targets : TargetTable) :
    targets.entries = targets.names.filterMap fun name => (targets.find? name).map (name, ·) := by
  rw [names, List.filterMap_map]
  refine Eq.trans List.filterMap_some.symm (List.filterMap_congr ?_)
  intro entry hentry
  rw [Function.comp_apply, find?_eq_some_iff.mpr hentry]
  rfl

theorem eq_of_find? {s t : TargetTable} (hnames : s.names = t.names)
    (hfind : ∀ name, s.find? name = t.find? name) : s = t := by
  have hentries : s.entries = t.entries := by
    rw [s.entries_eq_filterMap, t.entries_eq_filterMap, hnames, funext hfind]
  cases s
  cases t
  simp_all

theorem lookup_cons_eq (entry : String × ShapeId) (rest : List (String × ShapeId)) (name : String) :
    (entry :: rest).lookup name = if name = entry.1 then some entry.2 else rest.lookup name := by
  obtain ⟨n, t⟩ := entry
  by_cases h : name = n
  · simp [h]
  · rw [List.lookup_cons, beq_eq_false_iff_ne.mpr h, if_neg h]

theorem lookup_putEntry (name : String) (target : ShapeId) (entries : List (String × ShapeId))
    (other : String) :
    (putEntry name target entries).lookup other =
      if other = name then some target else entries.lookup other := by
  induction entries with
  | nil => exact lookup_cons_eq (name, target) [] other
  | cons entry rest ih =>
      obtain ⟨n, t⟩ := entry
      unfold putEntry
      split
      · next hname =>
        subst hname
        rw [lookup_cons_eq, lookup_cons_eq]
        split <;> rfl
      · next hname =>
        rw [lookup_cons_eq, lookup_cons_eq, ih]
        by_cases h : other = n
        · rw [if_pos h, if_pos h, if_neg (h ▸ hname)]
        · rw [if_neg h, if_neg h]

theorem find?_insert (name : String) (target : ShapeId) (targets : TargetTable) (other : String) :
    (targets.insert name target).find? other =
      if other = name then some target else targets.find? other :=
  lookup_putEntry name target targets.entries other

theorem names_insert (name : String) (target : ShapeId) (targets : TargetTable) :
    (targets.insert name target).names = (targets.names ++ [name]).eraseDups := by
  refine (names_putEntry name target targets.entries).trans ?_
  by_cases h : name ∈ targets.names
  · rw [eraseDups_concat_of_mem h, eraseDups_names]
    exact if_pos h
  · rw [eraseDups_concat_of_not_mem h, eraseDups_names]
    exact if_neg h

def putAll (targets : TargetTable) (entries : List (String × ShapeId)) : TargetTable :=
  entries.foldl (fun targets entry => targets.insert entry.1 entry.2) targets

theorem names_putAll (targets : TargetTable) (entries : List (String × ShapeId)) :
    (targets.putAll entries).names = (targets.names ++ entries.map Prod.fst).eraseDups := by
  induction entries generalizing targets with
  | nil => simp [putAll, eraseDups_names]
  | cons entry rest ih =>
      refine (ih _).trans ?_
      rw [names_insert, eraseDups_eraseDups_append, List.map_cons, List.append_assoc,
        List.singleton_append]

theorem find?_putAll (targets : TargetTable) (entries : List (String × ShapeId)) (name : String) :
    (targets.putAll entries).find? name =
      (entries.reverse.lookup name).or (targets.find? name) := by
  induction entries generalizing targets with
  | nil => rfl
  | cons entry rest ih =>
      refine (ih _).trans ?_
      rw [find?_insert, List.reverse_cons, List.lookup_append, Option.or_assoc, lookup_cons_eq]
      by_cases h : name = entry.1 <;> simp [h]

theorem insertAll_eq_putAll (targets new : TargetTable) :
    targets.insertAll new = targets.putAll new.entries := rfl

theorem names_insertAll (targets new : TargetTable) :
    (targets.insertAll new).names = (targets.names ++ new.names).eraseDups :=
  names_putAll targets new.entries

theorem find?_insertAll (targets new : TargetTable) (name : String) :
    (targets.insertAll new).find? name = (new.find? name).or (targets.find? name) := by
  have hreverse : ((new.entries.reverse).map Prod.fst).Nodup := by
    rw [List.map_reverse, List.nodup_reverse]
    exact new.distinct
  have hlookup : new.entries.reverse.lookup name = new.find? name := by
    apply Option.ext
    intro target
    rw [lookup_eq_some_iff_of_nodup hreverse, List.mem_reverse, find?_eq_some_iff]
  rw [insertAll_eq_putAll, find?_putAll, hlookup]

/-- What a table holds into which targets have been put in some order. -/
structure FilledBy (puts : List (String × ShapeId)) (table : TargetTable) : Prop where
  distinct : table.names.Nodup
  mem_names : ∀ name, name ∈ table.names ↔ name ∈ puts.map Prod.fst
  firstCome : table.names.Pairwise fun a b =>
    (puts.map Prod.fst).idxOf a < (puts.map Prod.fst).idxOf b
  lastStays : ∀ name target, table.find? name = some target ↔
    ∃ before after, puts = before ++ (name, target) :: after ∧ name ∉ after.map Prod.fst
  missing : ∀ name, table.find? name = none ↔ name ∉ puts.map Prod.fst
  contains : ∀ name, table.contains name = true ↔ ∃ target, table.find? name = some target
  targets : table.targets.map some = table.names.map table.find?
  entries : table.entries = table.names.zip table.targets
  size : table.size = (puts.map Prod.fst).toFinset.card

theorem lookup_reverse_eq_some_iff {entries : List (String × ShapeId)} {name : String}
    {target : ShapeId} :
    entries.reverse.lookup name = some target ↔
      ∃ before after, entries = before ++ (name, target) :: after ∧ name ∉ after.map Prod.fst := by
  have hnew (after : List (String × ShapeId)) :
      name ∉ after.map Prod.fst ↔ ∀ entry ∈ after.reverse, (name != entry.1) = true := by
    simp only [List.mem_map, List.mem_reverse, bne_iff_ne, not_exists, not_and, ne_comm]
  rw [List.lookup_eq_some_iff]
  constructor
  · rintro ⟨after, before, heq, hafter⟩
    refine ⟨before.reverse, after.reverse, ?_, (hnew _).mpr ?_⟩
    · rw [← List.reverse_reverse entries, heq]
      simp
    · rwa [List.reverse_reverse]
  · rintro ⟨before, after, rfl, hafter⟩
    exact ⟨after.reverse, before.reverse, by simp, (hnew after).mp hafter⟩

theorem find?_eq_none_iff {table : TargetTable} {name : String} :
    table.find? name = none ↔ name ∉ table.names := by
  rw [find?, List.lookup_eq_none_iff, names, List.mem_map]
  simp only [bne_iff_ne, not_exists, not_and, ne_comm]

theorem names_putAll_empty (puts : List (String × ShapeId)) :
    ((∅ : TargetTable).putAll puts).names = (puts.map Prod.fst).eraseDups :=
  names_putAll ∅ puts

theorem find?_putAll_empty (puts : List (String × ShapeId)) (name : String) :
    ((∅ : TargetTable).putAll puts).find? name = puts.reverse.lookup name :=
  (find?_putAll ∅ puts name).trans Option.or_none

theorem map_find?_names (table : TargetTable) :
    table.names.map table.find? = table.targets.map some := by
  rw [names, targets, List.map_map, List.map_map]
  refine List.map_congr_left ?_
  intro entry hentry
  exact find?_eq_some_iff.mpr hentry

theorem zip_names_targets (table : TargetTable) :
    table.names.zip table.targets = table.entries := by
  rw [names, targets, List.zip_map']
  exact List.map_id _

/-- A table keeps the names that are put into it in the order in which they first come, each once
and with the target that was put last. What is put later leaves the names where they are. -/
theorem filledBy_putAll (puts : List (String × ShapeId)) :
    FilledBy puts ((∅ : TargetTable).putAll puts) ∧
      ∀ later, ((∅ : TargetTable).putAll puts).names <+:
        ((∅ : TargetTable).putAll (puts ++ later)).names := by
  have hnames := names_putAll_empty puts
  have hdistinct : ((∅ : TargetTable).putAll puts).names.Nodup :=
    ((∅ : TargetTable).putAll puts).distinct
  have hmem (name : String) :
      name ∈ ((∅ : TargetTable).putAll puts).names ↔ name ∈ puts.map Prod.fst := by
    rw [hnames, List.mem_eraseDups]
  constructor
  · refine ⟨hdistinct, hmem, ?_, ?_, ?_, ?_, (map_find?_names _).symm,
      (zip_names_targets _).symm, ?_⟩
    · rw [hnames]
      exact pairwise_idxOf_eraseDups _
    · intro name target
      rw [find?_putAll_empty, lookup_reverse_eq_some_iff]
    · intro name
      rw [find?_eq_none_iff, hmem]
    · intro name
      exact Option.isSome_iff_exists
    · have hfinset : ((∅ : TargetTable).putAll puts).names.toFinset =
          (puts.map Prod.fst).toFinset := by
        ext name
        rw [List.mem_toFinset, List.mem_toFinset, hmem]
      rw [← hfinset, List.toFinset_card_of_nodup hdistinct, names, List.length_map]
      rfl
  · intro later
    rw [names_putAll_empty, names_putAll_empty, List.map_append]
    exact eraseDups_isPrefix_append _ _

example : ((∅ : TargetTable).putAll [("b", ⟨"a", "B", none⟩), ("a", ⟨"a", "A", none⟩),
    ("b", ⟨"a", "C", none⟩)]).entries = [("b", ⟨"a", "C", none⟩), ("a", ⟨"a", "A", none⟩)] := by
  decide

end SchemaQuery.TargetTable
