import SchemaQuery.Selector.Basic
import SchemaQuery.Text.Lowercase

namespace SchemaQuery

inductive AttributeValue where
  | text (s : String)
  | structured
  | null
deriving DecidableEq, Inhabited, Repr

namespace AttributeValue

def ofNode : Node → AttributeValue
  | .null => .null
  | .text s => .text s
  | .bool b => .text (Node.render (.bool b))
  | .int n => .text (Node.render (.int n))
  | .float x => .text (Node.render (.float x))
  | .array _ => .structured
  | .object _ => .structured

def text? : AttributeValue → Option String
  | .text s => some s
  | structured => none
  | null => none

end AttributeValue

namespace PathSegment

/-- Reads an array index: digits, with a plus in front or not, below `2 ^ 64`. -/
def index? (text : String) : Option Nat :=
  let digits :=
    match text.toList with
    | '+' :: rest => rest
    | cs => cs
  if digits ≠ [] ∧ digits.all Char.isDigit ∧ Decimal.digitsValue digits < Nat.pow 2 64 then
    some (Decimal.digitsValue digits)
  else
    none

def follow : PathSegment → Node → List Node
  | .key k, .object fields => (fields.lookup k).toList
  | .key k, .array items => ((index? k).bind fun i => items[i]?).toList
  | .keys, .object fields => fields.map fun f => .text f.1
  | .values, .object fields => fields.map Prod.snd
  | .values, .array items => items
  | .length, .array items => [.int items.length]
  | .length, .object fields => [.int fields.length]
  | .length, .text s => [.int s.length]
  | _, _ => []

end PathSegment

def Node.select : List PathSegment → Node → List AttributeValue
  | [], value => [.ofNode value]
  | segment :: rest, value => (segment.follow value).flatMap (select rest)

namespace Comparator

def occursIn (needle : List Char) : List Char → Bool
  | [] => needle.isEmpty
  | c :: rest => needle.isPrefixOf (c :: rest) || occursIn needle rest

/-- Compares two texts as numbers. What is no number compares with nothing. -/
def compareNumbers (test : Binary64 → Binary64 → Bool) (actual expected : List Char) : Bool :=
  match Binary64.parse? actual, Binary64.parse? expected with
  | some a, some b => test a b
  | _, _ => false

/-- Whether an actual text stands in a relation to an expected one. The comparators with an own
treatment of several values, `notEqual` and `exists`, count as equality here. -/
def holds (comparator : Comparator) (ignoreCase : Bool) (actual expected : String) : Bool :=
  let fold (s : String) : List Char := if ignoreCase then lowercase s.toList else s.toList
  match comparator with
  | greater => compareNumbers (fun a b => b.lt a) actual.toList expected.toList
  | greaterEqual => compareNumbers (fun a b => b.le a) actual.toList expected.toList
  | less => compareNumbers (fun a b => a.lt b) actual.toList expected.toList
  | lessEqual => compareNumbers (fun a b => a.le b) actual.toList expected.toList
  | startsWith => (fold expected).isPrefixOf (fold actual)
  | endsWith => (fold expected).isSuffixOf (fold actual)
  | contains => occursIn (fold expected) (fold actual)
  | equal => fold actual = fold expected
  | notEqual => fold actual = fold expected
  | .exists => fold actual = fold expected

end Comparator

namespace Comparison

/-- Whether a list of attribute values compares as asked. Unequal means that some text is equal to
none of the given ones. -/
def test (c : Comparison) (values : List AttributeValue) : Bool :=
  match c.comparator with
  | .exists =>
    let answer := if values.isEmpty then "false" else "true"
    c.values.any (Comparator.equal.holds c.ignoreCase answer)
  | .notEqual =>
    (values.filterMap AttributeValue.text?).any fun actual =>
      c.values.all fun expected => !Comparator.equal.holds c.ignoreCase actual expected
  | comparator =>
    (values.filterMap AttributeValue.text?).any fun actual =>
      c.values.any (comparator.holds c.ignoreCase actual)

end Comparison

namespace AttributeKey

def values (shape : Shape) : AttributeKey → List AttributeValue
  | id => [.text shape.id.text]
  | idNamespace => [.text shape.id.namespaceName]
  | idName => [.text shape.id.name]
  | idMember => shape.id.member.toList.map .text
  | service => shape.asService?.toList.map fun _ => .text shape.id.text
  | serviceVersion => shape.asService?.toList.map fun s => .text s.version
  | trait definition path =>
    match shape.trait? definition with
    | none => []
    | some t => t.value.select path

end AttributeKey

namespace AttributeFilter

def test (filter : AttributeFilter) (shape : Shape) : Bool :=
  match filter.comparison with
  | none => !(filter.key.values shape).isEmpty
  | some c => c.test (filter.key.values shape)

end AttributeFilter

end SchemaQuery
