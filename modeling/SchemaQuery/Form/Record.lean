import SchemaQuery.Node

namespace SchemaQuery

namespace Field

variable {α β : Type}

def required (fields : List (String × β)) (name : String) (read : β → Option α) : Option α :=
  (fields.lookup name).bind read

def orDefault (fields : List (String × β)) (name : String) (default : α) (read : β → Option α) :
    Option α :=
  match fields.lookup name with
  | none => some default
  | some value => read value

end Field

namespace Node

/-- The fields of a record whose fields have the given names. An array holds the first of them in
this order and nothing else. -/
def record? (names : List String) : Node → Option (List (String × Node))
  | .object fields => some fields
  | .array items => if items.length ≤ names.length then some (names.zip items) else none
  | _ => none

def choice? : Node → Option String
  | .text name => some name
  | .object [(name, .null)] => some name
  | _ => none

def bool? : Node → Option Bool
  | .bool b => some b
  | _ => none

def number? (bound : Nat) : Node → Option Nat
  | .int (.ofNat n) => if n < bound then some n else none
  | _ => none

def optionalNumber? (bound : Nat) : Node → Option (Option Nat)
  | .null => some none
  | n => (n.number? bound).map some

end Node

end SchemaQuery
