namespace SchemaQuery

inductive SimpleType where
  | blob
  | boolean
  | string
  | timestamp
  | byte
  | short
  | integer
  | long
  | float
  | double
  | bigInteger
  | bigDecimal
  | document
deriving DecidableEq, Inhabited, Repr

inductive AggregateType where
  | list
  | set
  | map
  | «structure»
  | union
deriving DecidableEq, Inhabited, Repr

inductive ShapeType where
  | simple (type : SimpleType)
  | aggregate (type : AggregateType)
  | member
  | service
  | resource
  | operation
deriving DecidableEq, Inhabited, Repr

namespace SimpleType

def all : List SimpleType :=
  [blob, boolean, string, timestamp, byte, short, integer, long, float, double, bigInteger,
    bigDecimal, document]

def name : SimpleType → String
  | blob => "blob"
  | boolean => "boolean"
  | string => "string"
  | timestamp => "timestamp"
  | byte => "byte"
  | short => "short"
  | integer => "integer"
  | long => "long"
  | float => "float"
  | double => "double"
  | bigInteger => "bigInteger"
  | bigDecimal => "bigDecimal"
  | document => "document"

def isNumber : SimpleType → Bool
  | byte | short | integer | long | float | double | bigInteger | bigDecimal => true
  | blob | boolean | string | timestamp | document => false

end SimpleType

namespace AggregateType

def all : List AggregateType :=
  [list, set, map, .structure, .union]

def name : AggregateType → String
  | list => "list"
  | set => "set"
  | map => "map"
  | .structure => "structure"
  | .union => "union"

/-- A set is the older spelling of a list. -/
def isCollection : AggregateType → Bool
  | list | set => true
  | map | .structure | .union => false

/-- The member names that a shape of this type must have, in name order, if they are fixed. -/
def fixedMembers : AggregateType → Option (List String)
  | list | set => some ["member"]
  | map => some ["key", "value"]
  | .structure | .union => none

end AggregateType

namespace ShapeType

def all : List ShapeType :=
  SimpleType.all.map simple ++ AggregateType.all.map aggregate ++
    [member, service, resource, operation]

def name : ShapeType → String
  | simple type => type.name
  | aggregate type => type.name
  | member => "member"
  | service => "service"
  | resource => "resource"
  | operation => "operation"

instance : ToString ShapeType := ⟨name⟩

def ofName? (text : String) : Option ShapeType :=
  all.find? fun type => type.name = text

def isNumber : ShapeType → Bool
  | simple type => type.isNumber
  | _ => false

def isSimple : ShapeType → Bool
  | simple _ => true
  | _ => false

def isCollection : ShapeType → Bool
  | aggregate type => type.isCollection
  | _ => false

/-- Equality of types, with a set as good as a list. -/
def agrees (a b : ShapeType) : Bool :=
  a = b || (a.isCollection && b.isCollection)

theorem mem_all (type : ShapeType) : type ∈ all := by
  cases type with
  | simple type => cases type <;> decide
  | aggregate type => cases type <;> decide
  | member => decide
  | service => decide
  | resource => decide
  | operation => decide

end ShapeType

end SchemaQuery
