import SchemaQuery.Selector.Basic

namespace SchemaQuery

def escapedChar (c : Char) : List Char :=
  if c = '"' ∨ c = '\\' then ['\\', c] else [c]

def quotedText (text : String) : String :=
  "\"" ++ .ofList (text.toList.flatMap escapedChar) ++ "\""

def PathSegment.render : PathSegment → String
  | key text => quotedText text
  | keys => "(keys)"
  | values => "(values)"
  | length => "(length)"

def renderPath : List PathSegment → String
  | [] => ""
  | segment :: rest => "|" ++ segment.render ++ renderPath rest

def AttributeKey.render : AttributeKey → String
  | id => "id"
  | idNamespace => "id|namespace"
  | idName => "id|name"
  | idMember => "id|member"
  | service => "service"
  | serviceVersion => "service|version"
  | trait definition path => "trait|" ++ definition.text ++ renderPath path

def Comparison.render (c : Comparison) : String :=
  c.comparator.symbol ++ " " ++ ", ".intercalate (c.values.map quotedText) ++
    if c.ignoreCase then " i" else ""

def AttributeFilter.render (filter : AttributeFilter) : String :=
  match filter.comparison with
  | none => "[" ++ filter.key.render ++ "]"
  | some c => "[" ++ filter.key.render ++ " " ++ c.render ++ "]"

/-- The text of a step. One along labels that goes on as often as it goes has none. -/
def NeighborStep.render : NeighborStep → String
  | ⟨.forward, none⟩ => ">"
  | ⟨.reverse, none⟩ => "<"
  | ⟨.recursive, _⟩ => "~>"
  | ⟨.forward, some labels⟩ => "-[" ++ ", ".intercalate (labels.map RelationshipType.text) ++ "]->"
  | ⟨.reverse, some labels⟩ => "<-[" ++ ", ".intercalate (labels.map RelationshipType.text) ++ "]-"

mutual

def Stage.render : Stage → String
  | .type filter => filter.name
  | .attribute filter => filter.render
  | .neighbor step => step.render
  | .function kind args => ":" ++ kind.name ++ "(" ++ ", ".intercalate (argumentTexts args) ++ ")"
  | .capture name selector => "$" ++ name ++ "(" ++ ", ".intercalate (pipelineTexts selector) ++ ")"
  | .bind name => "$" ++ name
  | .get name => "$\x7b" ++ name ++ "\x7d"

def stageTexts : List Stage → List String
  | [] => []
  | stage :: rest => stage.render :: stageTexts rest

def pipelineTexts : List (List Stage) → List String
  | [] => []
  | pipeline :: rest => " ".intercalate (stageTexts pipeline) :: pipelineTexts rest

def argumentTexts : List (List (List Stage)) → List String
  | [] => []
  | selector :: rest => ", ".intercalate (pipelineTexts selector) :: argumentTexts rest

end

def Selector.render (selector : Selector) : String :=
  ", ".intercalate (pipelineTexts selector)

theorem argumentTexts_map (pipelines : List Pipeline) :
    argumentTexts (pipelines.map fun pipeline => [pipeline]) = pipelineTexts pipelines := by
  induction pipelines with
  | nil => rfl
  | cons pipeline rest ih =>
      rw [List.map_cons, argumentTexts, ih, pipelineTexts, pipelineTexts, pipelineTexts,
        String.intercalate_singleton]

end SchemaQuery
