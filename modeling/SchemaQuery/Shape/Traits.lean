import SchemaQuery.Node
import SchemaQuery.Shape.Id

namespace SchemaQuery

structure Trait where
  id : ShapeId
  value : Node
deriving DecidableEq, Inhabited

namespace Trait

def mark (id : ShapeId) : Trait :=
  ⟨id, .empty⟩

def same (a b : Trait) : Bool :=
  a.id = b.id && a.value.same b.value

end Trait

structure Traits where
  byId : SortedMap ShapeId Trait
deriving DecidableEq, Inhabited

namespace Traits

instance : EmptyCollection Traits := ⟨⟨∅⟩⟩

@[ext] theorem ext {s t : Traits} (h : s.byId = t.byId) : s = t := by
  cases s
  cases t
  simp_all

def insert (t : Trait) (traits : Traits) : Traits :=
  ⟨traits.byId.insert (t.id, t)⟩

def insertAll (new : List Trait) (traits : Traits) : Traits :=
  new.foldl (fun traits t => traits.insert t) traits

/-- The traits of a list; of several with one id the last. -/
def ofList (list : List Trait) : Traits :=
  insertAll list ∅

def erase (traits : Traits) (id : ShapeId) : Traits :=
  ⟨traits.byId.erase id⟩

def find? (traits : Traits) (id : ShapeId) : Option Trait :=
  (traits.byId.find? id).map Prod.snd

def contains (traits : Traits) (id : ShapeId) : Bool :=
  traits.byId.contains id

def ids (traits : Traits) : List ShapeId :=
  traits.byId.keys

def toList (traits : Traits) : List Trait :=
  traits.byId.entries.map Prod.snd

def size (traits : Traits) : Nat :=
  traits.byId.size

end Traits

end SchemaQuery
