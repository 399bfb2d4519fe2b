/-!
Lists in strictly increasing order of a key: the finite sets and maps of this library.

An entry is found by its key, inserting an entry replaces the one with the same key, and the
order of iteration is the order of the keys.
-/
namespace SchemaQuery

open Std

structure Sorted {α κ : Type} [Ord κ] (key : α → κ) where
  entries : List α
  ordered : entries.Pairwise fun a b => compare (key a) (key b) = .lt

namespace Sorted

variable {α κ : Type} [Ord κ] {key : α → κ}

@[ext] theorem ext {s t : Sorted key} (h : s.entries = t.entries) : s = t := by
  cases s
  cases t
  simp_all

instance [DecidableEq α] : DecidableEq (Sorted key) := fun s t =>
  decidable_of_iff (s.entries = t.entries) ⟨ext, fun h => h ▸ rfl⟩

instance : EmptyCollection (Sorted key) := ⟨⟨[], .nil⟩⟩

instance : Inhabited (Sorted key) := ⟨∅⟩

def insertEntry (key : α → κ) (a : α) : List α → List α
  | [] => [a]
  | b :: rest =>
    match compare (key a) (key b) with
    | .lt => a :: b :: rest
    | .eq => a :: rest
    | .gt => b :: insertEntry key a rest

theorem mem_insertEntry {a c : α} {l : List α} (h : c ∈ insertEntry key a l) :
    c = a ∨ c ∈ l := by
  induction l with
  | nil => simpa [insertEntry] using h
  | cons b rest ih =>
    unfold insertEntry at h
    split at h <;> grind

theorem pairwise_insertEntry [TransOrd κ] {a : α} {l : List α}
    (h : l.Pairwise fun a b => compare (key a) (key b) = .lt) :
    (insertEntry key a l).Pairwise fun a b => compare (key a) (key b) = .lt := by
  induction l with
  | nil => simp [insertEntry]
  | cons b rest ih =>
    obtain ⟨hb, hrest⟩ := List.pairwise_cons.mp h
    unfold insertEntry
    split
    · next hlt =>
      refine List.pairwise_cons.mpr ⟨fun c hc => ?_, h⟩
      rcases List.mem_cons.mp hc with rfl | hc
      · exact hlt
      · exact TransCmp.lt_trans hlt (hb c hc)
    · next heq =>
      exact List.pairwise_cons.mpr
        ⟨fun c hc => TransCmp.lt_of_eq_of_lt heq (hb c hc), hrest⟩
    · next hgt =>
      refine List.pairwise_cons.mpr ⟨fun c hc => ?_, ih hrest⟩
      rcases mem_insertEntry hc with rfl | hc
      · exact OrientedCmp.lt_of_gt hgt
      · exact hb c hc

variable [TransOrd κ]

/-- Adds an entry, in place of the entry with the same key if there is one. -/
def insert (a : α) (s : Sorted key) : Sorted key :=
  ⟨insertEntry key a s.entries, pairwise_insertEntry s.ordered⟩

/-- The entries of a list; of several with one key the last. -/
def ofList (l : List α) : Sorted key :=
  l.foldl (fun s a => s.insert a) ∅

omit [TransOrd κ]

def find? [DecidableEq κ] (s : Sorted key) (k : κ) : Option α :=
  s.entries.find? fun a => key a = k

def contains [DecidableEq κ] (s : Sorted key) (k : κ) : Bool :=
  s.entries.any fun a => key a = k

def erase [DecidableEq κ] (s : Sorted key) (k : κ) : Sorted key :=
  ⟨s.entries.filter fun a => key a ≠ k, s.ordered.filter _⟩

def filter (p : α → Bool) (s : Sorted key) : Sorted key :=
  ⟨s.entries.filter p, s.ordered.filter _⟩

def keys (s : Sorted key) : List κ :=
  s.entries.map key

def size (s : Sorted key) : Nat :=
  s.entries.length

def isEmpty (s : Sorted key) : Bool :=
  s.entries.isEmpty

theorem pairwise_keys (s : Sorted key) :
    s.keys.Pairwise fun a b => compare a b = .lt :=
  List.pairwise_map.mpr s.ordered

@[simp] theorem entries_insert [TransOrd κ] (a : α) (s : Sorted key) :
    (s.insert a).entries = insertEntry key a s.entries := rfl

end Sorted

abbrev SortedSet (κ : Type) [Ord κ] := Sorted (id : κ → κ)

abbrev SortedMap (κ ν : Type) [Ord κ] := Sorted (Prod.fst : κ × ν → κ)

end SchemaQuery
