namespace SchemaQuery

/-- The values under each key, in the order in which they were added. -/
structure Grouping (κ α : Type) where
  groups : List (κ × List α)

namespace Grouping

variable {κ α : Type} [DecidableEq κ]

instance : EmptyCollection (Grouping κ α) := ⟨⟨[]⟩⟩

instance : Inhabited (Grouping κ α) := ⟨∅⟩

def addTo (k : κ) (a : α) : List (κ × List α) → List (κ × List α)
  | [] => [(k, [a])]
  | (l, as) :: rest => if l = k then (l, as ++ [a]) :: rest else (l, as) :: addTo k a rest

def add (g : Grouping κ α) (k : κ) (a : α) : Grouping κ α :=
  ⟨addTo k a g.groups⟩

def ofPairs (pairs : List (κ × α)) : Grouping κ α :=
  pairs.foldl (fun g (k, a) => g.add k a) ∅

def get (g : Grouping κ α) (k : κ) : List α :=
  (g.groups.lookup k).getD []

def keys (g : Grouping κ α) : List κ :=
  g.groups.map Prod.fst

theorem lookup_addTo (k l : κ) (a : α) (groups : List (κ × List α)) :
    (addTo k a groups).lookup l =
      if l = k then some (((groups.lookup k).getD []) ++ [a]) else groups.lookup l := by
  induction groups with
  | nil =>
    by_cases h : l = k
    · simp [addTo, h]
    · simp [addTo, List.lookup_cons, h, beq_eq_false_iff_ne.mpr h]
  | cons e rest ih =>
    obtain ⟨m, as⟩ := e
    by_cases hm : m = k
    · subst hm
      by_cases hl : l = m
      · simp [addTo, hl]
      · simp [addTo, List.lookup_cons, hl, beq_eq_false_iff_ne.mpr hl]
    · have hkm : (k == m) = false := beq_eq_false_iff_ne.mpr fun e => hm e.symm
      by_cases hl : l = m
      · subst hl
        simp [addTo, hm]
      · simp only [addTo, hm, if_false, List.lookup_cons, beq_eq_false_iff_ne.mpr hl, hkm, ih]

theorem get_add (g : Grouping κ α) (k l : κ) (a : α) :
    (g.add k a).get l = if l = k then g.get k ++ [a] else g.get l := by
  unfold get add
  rw [lookup_addTo]
  split <;> rfl

theorem get_eq_nil_of_not_mem {g : Grouping κ α} {k : κ} (h : k ∉ g.keys) : g.get k = [] := by
  have hnone : g.groups.lookup k = none := by
    rw [List.lookup_eq_none_iff]
    intro e he
    have hne : k ≠ e.1 := fun hk => h (List.mem_map.mpr ⟨e, he, hk.symm⟩)
    simpa using hne
  simp [get, hnone]

end Grouping

end SchemaQuery
