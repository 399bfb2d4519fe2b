import SchemaQuery.Shape.Id

namespace SchemaQuery

structure TargetTable where
  entries : List (String × ShapeId)
  distinct : (entries.map Prod.fst).Nodup
deriving DecidableEq

namespace TargetTable

instance : EmptyCollection TargetTable := ⟨⟨[], .nil⟩⟩

instance : Inhabited TargetTable := ⟨∅⟩

/-- Gives a name a target: where it stands, or at the end if it is new. -/
def putEntry (name : String) (target : ShapeId) :
    List (String × ShapeId) → List (String × ShapeId)
  | [] => [(name, target)]
  | (n, t) :: rest =>
    if n = name then (n, target) :: rest else (n, t) :: putEntry name target rest

theorem names_putEntry (name : String) (target : ShapeId) (l : List (String × ShapeId)) :
    (putEntry name target l).map Prod.fst =
      if name ∈ l.map Prod.fst then l.map Prod.fst else l.map Prod.fst ++ [name] := by
  induction l with
  | nil => simp [putEntry]
  | cons e rest ih =>
    obtain ⟨n, t⟩ := e
    unfold putEntry
    split
    · next h => simp [h]
    · next h =>
      have hne : ¬ name = n := fun e => h e.symm
      simp only [List.map_cons, ih, List.mem_cons, hne, false_or]
      split <;> simp

def insert (name : String) (target : ShapeId) (targets : TargetTable) : TargetTable where
  entries := putEntry name target targets.entries
  distinct := by
    rw [names_putEntry]
    split
    · exact targets.distinct
    · next h =>
      exact List.nodup_append.mpr
        ⟨targets.distinct, by simp, by
          intro a ha b hb hab
          simp only [List.mem_singleton] at hb
          exact h (hb ▸ hab ▸ ha)⟩

def find? (targets : TargetTable) (name : String) : Option ShapeId :=
  targets.entries.lookup name

def contains (targets : TargetTable) (name : String) : Bool :=
  (targets.find? name).isSome

def names (targets : TargetTable) : List String :=
  targets.entries.map Prod.fst

def targets (t : TargetTable) : List ShapeId :=
  t.entries.map Prod.snd

def size (targets : TargetTable) : Nat :=
  targets.entries.length

def insertAll (targets new : TargetTable) : TargetTable :=
  new.entries.foldl (fun targets (name, target) => targets.insert name target) targets

end TargetTable

end SchemaQuery
