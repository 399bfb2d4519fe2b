import SchemaQuery.Number.Shortest
import SchemaQuery.Sorted

/-!
Nodes: the values of traits, in the shape of a document of objects, arrays and scalars.
-/
namespace SchemaQuery

/-- A value. The fields of an object stand in the order of their names, each name once. Whole
numbers and floating-point numbers are different values. -/
inductive Node where
  | null
  | bool (b : Bool)
  | int (n : Int)
  | float (x : Binary64)
  | text (s : String)
  | array (items : List Node)
  | object (fields : List (String × Node))
deriving Inhabited

namespace Node

mutual

def decEq : (a b : Node) → Decidable (a = b)
  | .null, .null => isTrue rfl
  | .bool a, .bool b => decidable_of_iff (a = b) (by simp)
  | .int a, .int b => decidable_of_iff (a = b) (by simp)
  | .float a, .float b => decidable_of_iff (a = b) (by simp)
  | .text a, .text b => decidable_of_iff (a = b) (by simp)
  | .array a, .array b => @decidable_of_iff _ (a = b) (by simp) (decEqItems a b)
  | .object a, .object b => @decidable_of_iff _ (a = b) (by simp) (decEqFields a b)
  | .null, .bool _ | .null, .int _ | .null, .float _
  | .null, .text _ | .null, .array _ | .null, .object _ => isFalse (by simp)
  | .bool _, .null | .bool _, .int _ | .bool _, .float _
  | .bool _, .text _ | .bool _, .array _ | .bool _, .object _ => isFalse (by simp)
  | .int _, .null | .int _, .bool _ | .int _, .float _
  | .int _, .text _ | .int _, .array _ | .int _, .object _ => isFalse (by simp)
  | .float _, .null | .float _, .bool _ | .float _, .int _
  | .float _, .text _ | .float _, .array _ | .float _, .object _ => isFalse (by simp)
  | .text _, .null | .text _, .bool _ | .text _, .int _
  | .text _, .float _ | .text _, .array _ | .text _, .object _ => isFalse (by simp)
  | .array _, .null | .array _, .bool _ | .array _, .int _
  | .array _, .float _ | .array _, .text _ | .array _, .object _ => isFalse (by simp)
  | .object _, .null | .object _, .bool _ | .object _, .int _
  | .object _, .float _ | .object _, .text _ | .object _, .array _ => isFalse (by simp)

def decEqItems : (a b : List Node) → Decidable (a = b)
  | [], [] => isTrue rfl
  | [], _ :: _ | _ :: _, [] => isFalse (by simp)
  | a :: as, b :: bs =>
    @decidable_of_iff _ (a = b ∧ as = bs) (by simp)
      (@instDecidableAnd _ _ (decEq a b) (decEqItems as bs))

def decEqFields : (a b : List (String × Node)) → Decidable (a = b)
  | [], [] => isTrue rfl
  | [], _ :: _ | _ :: _, [] => isFalse (by simp)
  | (k, a) :: as, (l, b) :: bs =>
    @decidable_of_iff _ (k = l ∧ a = b ∧ as = bs) (by simp [and_assoc])
      (@instDecidableAnd _ _ _ (@instDecidableAnd _ _ (decEq a b) (decEqFields as bs)))

end

instance : DecidableEq Node := decEq

/-- The object with the given fields; of several with one name the last. -/
def ofFields (fields : List (String × Node)) : Node :=
  .object (Sorted.ofList fields : SortedMap String Node).entries

def empty : Node := .object []

def field? (name : String) : Node → Option Node
  | .object fields => fields.lookup name
  | _ => none

/-- Numbers are positional from a hundred-thousandth up to 16 digits. -/
def numberLayout : NumberLayout := ⟨-4, 16⟩

mutual

/-- Equality of values, in which the two floating-point zeros are equal. -/
def same : Node → Node → Bool
  | .null, .null => true
  | .bool a, .bool b => a = b
  | .int a, .int b => a = b
  | .float a, .float b => a.same b
  | .text a, .text b => a = b
  | .array a, .array b => sameItems a b
  | .object a, .object b => sameFields a b
  | _, _ => false

def sameItems : List Node → List Node → Bool
  | [], [] => true
  | a :: as, b :: bs => same a b && sameItems as bs
  | _, _ => false

def sameFields : List (String × Node) → List (String × Node) → Bool
  | [], [] => true
  | (k, a) :: as, (l, b) :: bs => k = l && same a b && sameFields as bs
  | _, _ => false

end

/-- A character of a text between double quotes. Control characters are escaped and nothing else
but the quote and the backslash. -/
def escape (c : Char) : List Char :=
  if c = '"' then ['\\', '"']
  else if c = '\\' then ['\\', '\\']
  else if c = '\n' then ['\\', 'n']
  else if c = '\t' then ['\\', 't']
  else if c = '\r' then ['\\', 'r']
  else if c = '\x08' then ['\\', 'b']
  else if c = '\x0c' then ['\\', 'f']
  else if c.toNat < 16 then ['\\', 'u', '0', '0', '0'] ++ Nat.toDigits 16 c.toNat
  else if c.toNat < 32 then ['\\', 'u', '0', '0'] ++ Nat.toDigits 16 c.toNat
  else [c]

def quote (s : String) : String :=
  .ofList ('"' :: s.toList.flatMap escape ++ ['"'])

mutual

def render : Node → String
  | .null => "null"
  | .bool true => "true"
  | .bool false => "false"
  | .int n => toString n
  | .float x => numberLayout.text x
  | .text s => quote s
  | .array items => "[" ++ ",".intercalate (renderItems items) ++ "]"
  | .object fields => "\x7b" ++ ",".intercalate (renderFields fields) ++ "\x7d"

def renderItems : List Node → List String
  | [] => []
  | item :: rest => render item :: renderItems rest

def renderFields : List (String × Node) → List String
  | [] => []
  | (name, value) :: rest => (quote name ++ ":" ++ render value) :: renderFields rest

end

end Node

end SchemaQuery
