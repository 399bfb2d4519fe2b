import SchemaQuery.Declaration

namespace SchemaQuery.Prelude

def simpleShapes : List (String × SimpleType) :=
  [("Blob", .blob), ("Boolean", .boolean), ("String", .string), ("Timestamp", .timestamp),
    ("Byte", .byte), ("Short", .short), ("Integer", .integer), ("Long", .long),
    ("Float", .float), ("Double", .double), ("BigInteger", .bigInteger),
    ("BigDecimal", .bigDecimal), ("Document", .document)]

def markers : List String :=
  ["trait", "mixin", "sensitive", "required", "readonly"]

def textTraits : List String :=
  ["documentation", "error", "pattern"]

def deprecated : Declaration :=
  (((Declaration.structure (.prelude "deprecated")).withMember "message"
    (.prelude "String")).withMember "since" (.prelude "String")).annotate .traitMarker

/-- Every built-in shape, in the order in which the prelude declares them. -/
def declarations : List Declaration :=
  simpleShapes.map (fun (name, type) => .simple (.simple type) (.prelude name)) ++
  markers.map (fun name => (Declaration.structure (.prelude name)).annotate .traitMarker) ++
  textTraits.map (fun name => (Declaration.string (.prelude name)).annotate .traitMarker) ++
  [deprecated]

end SchemaQuery.Prelude
