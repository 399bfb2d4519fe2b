import SchemaQuery.Shape.Id

namespace SchemaQuery

inductive SyntaxFlaw where
  | unexpected (c : Char)
  | expected (text : String)
  | identifierExpected
  | selectorExpected
  | traitIdExpected
  | badTraitId (e : ShapeId.Malformed)
  | segmentExpected
  | segmentFunctionExpected
  | comparatorExpected
  | valueExpected
  | unterminatedText
  | unterminatedEscape
deriving DecidableEq, Repr

inductive ReferenceError where
  | unknownShapeType (name : String)
  | unknownRelationship (name : String)
  | unknownFunction (name : String)
  | unknownAttribute (name : String)
  | unboundVariable (name : String)
  | unknownTrait (id : ShapeId)
  | arity (function : String) (expected found : Nat)
deriving DecidableEq, Repr

/-- A refusal. Positions count the bytes of the text in UTF-8. -/
inductive SelectorError where
  | malformed (position : Nat) (flaw : SyntaxFlaw) (expression : String)
  | reference (e : ReferenceError)
deriving DecidableEq, Repr

def SyntaxFlaw.message : SyntaxFlaw → String
  | unexpected c => "unexpected `" ++ c.toString ++ "`"
  | expected text => "expected `" ++ text ++ "`"
  | identifierExpected => "expected an identifier"
  | selectorExpected => "expected a selector"
  | traitIdExpected => "expected a trait shape id"
  | badTraitId e => e.message
  | segmentExpected => "expected a path segment"
  | segmentFunctionExpected => "expected `(keys)`, `(values)` or `(length)`"
  | comparatorExpected => "expected a comparator or `]`"
  | valueExpected => "expected a value"
  | unterminatedText => "unterminated string"
  | unterminatedEscape => "unterminated escape"

def ReferenceError.message : ReferenceError → String
  | unknownShapeType name => "Unknown shape type `" ++ name ++ "`"
  | unknownRelationship name => "Unknown relationship `" ++ name ++ "`"
  | unknownFunction name => "Unknown function `:" ++ name ++ "`"
  | unknownAttribute name => "Unknown attribute `" ++ name ++ "`"
  | unboundVariable name => "Variable `$" ++ name ++ "` is referenced before it is captured"
  | unknownTrait id => "Trait `" ++ id.text ++ "` is not defined in the model"
  | arity function expected found =>
    "`:" ++ function ++ "` expects " ++ toString expected ++ " selector(s), found " ++
      toString found

def SelectorError.message : SelectorError → String
  | malformed position flaw expression =>
    "Syntax error at position " ++ toString position ++ ": " ++ flaw.message ++ " (in `" ++
      expression ++ "`)"
  | reference e => e.message

end SchemaQuery
