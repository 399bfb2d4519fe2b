import SchemaQuery.Shape.Basic

/-!
Declarations: what is written down for one shape, before anything is inherited.

A declaration is built up step by step. A step that does not fit the type of the shape leaves the
content as it is and is put on record as misuse; building a model reports the first one.
-/
namespace SchemaQuery

structure MemberDeclaration where
  name : String
  target : ShapeId
  traits : Traits
deriving DecidableEq, Inhabited

inductive DeclaredContent where
  | simple (type : SimpleType)
  | aggregate (type : AggregateType) (members : List MemberDeclaration)
  | member
  | service (service : Service)
  | resource (resource : Resource)
  | operation (operation : Operation)
deriving DecidableEq, Inhabited

namespace DeclaredContent

def blank : ShapeType → DeclaredContent
  | .simple type => .simple type
  | .aggregate type => .aggregate type []
  | .member => .member
  | .service => .service .blank
  | .resource => .resource .blank
  | .operation => .operation .blank

def type : DeclaredContent → ShapeType
  | .simple type => .simple type
  | .aggregate type _ => .aggregate type
  | .member => .member
  | .service _ => .service
  | .resource _ => .resource
  | .operation _ => .operation

@[simp] theorem type_blank (t : ShapeType) : (blank t).type = t := by
  cases t <;> rfl

end DeclaredContent

inductive Lifecycle where
  | create
  | put
  | read
  | update
  | delete
  | list
deriving DecidableEq, Inhabited, Repr

namespace Lifecycle

def name : Lifecycle → String
  | create => "create"
  | put => "put"
  | read => "read"
  | update => "update"
  | delete => "delete"
  | list => "list"

def bind (operation : ShapeId) (r : Resource) : Lifecycle → Resource
  | create => { r with create := some operation }
  | put => { r with put := some operation }
  | read => { r with read := some operation }
  | update => { r with update := some operation }
  | delete => { r with delete := some operation }
  | list => { r with list := some operation }

end Lifecycle

inductive Misuse where
  | memberDeclared
  | notSimple (type : ShapeType)
  | noMembers (type : ShapeType) (name : String)
  | needsResource (what : String) (type : ShapeType)
  | needsOperation (what : String) (type : ShapeType)
  | noOperations (type : ShapeType) (operation : ShapeId)
  | noResources (type : ShapeType) (resource : ShapeId)
  | noErrors (type : ShapeType) (error : ShapeId)
  | noVersion (type : ShapeType)
deriving DecidableEq, Repr

def Misuse.message : Misuse → String
  | memberDeclared => "members are declared through their container"
  | notSimple type => "`" ++ type.name ++ "` is not a simple type"
  | noMembers type name => "`" ++ type.name ++ "` shapes cannot declare member `" ++ name ++ "`"
  | needsResource what type =>
    "`" ++ what ++ "` requires a resource, found `" ++ type.name ++ "`"
  | needsOperation what type =>
    "`" ++ what ++ "` requires an operation, found `" ++ type.name ++ "`"
  | noOperations type operation =>
    "`" ++ type.name ++ "` shapes cannot bind operation `" ++ operation.text ++ "`"
  | noResources type resource =>
    "`" ++ type.name ++ "` shapes cannot bind resource `" ++ resource.text ++ "`"
  | noErrors type error =>
    "`" ++ type.name ++ "` shapes cannot declare error `" ++ error.text ++ "`"
  | noVersion type => "`" ++ type.name ++ "` shapes have no version"

inductive Step where
  | member (name : String) (target : ShapeId) (traits : List Trait)
  | trait (t : Trait)
  | mixin (id : ShapeId)
  | identifier (name : String) (target : ShapeId)
  | property (name : String) (target : ShapeId)
  | lifecycle (slot : Lifecycle) (operation : ShapeId)
  | collectionOperation (operation : ShapeId)
  | bindOperation (operation : ShapeId)
  | bindResource (resource : ShapeId)
  | input (id : ShapeId)
  | output (id : ShapeId)
  | error (id : ShapeId)
  | version (text : String)
deriving DecidableEq, Inhabited

structure Declaration where
  id : ShapeId
  content : DeclaredContent
  traits : Traits
  mixins : List ShapeId
  misuse : List Misuse
deriving DecidableEq, Inhabited

namespace Step

def onResource (what : String) (change : Resource → Resource) :
    DeclaredContent → Except Misuse DeclaredContent
  | .resource r => .ok (.resource (change r))
  | content => .error (.needsResource what content.type)

def onOperation (what : String) (change : Operation → Operation) :
    DeclaredContent → Except Misuse DeclaredContent
  | .operation o => .ok (.operation (change o))
  | content => .error (.needsOperation what content.type)

def onContent (step : Step) (content : DeclaredContent) : Except Misuse DeclaredContent :=
  match step with
  | .member name target traits =>
    match content with
    | .aggregate type members =>
      .ok (.aggregate type (members ++ [⟨name, target, .ofList traits⟩]))
    | content => .error (.noMembers content.type name)
  | .trait _ => .ok content
  | .mixin _ => .ok content
  | .identifier name target =>
    onResource "identifier"
      (fun r => { r with identifiers := r.identifiers.insert name target }) content
  | .property name target =>
    onResource "property"
      (fun r => { r with properties := r.properties.insert name target }) content
  | .lifecycle slot operation =>
    onResource slot.name (fun r => slot.bind operation r) content
  | .collectionOperation operation =>
    onResource "collectionOperation"
      (fun r => { r with collectionOperations := r.collectionOperations ++ [operation] }) content
  | .bindOperation operation =>
    match content with
    | .resource r => .ok (.resource { r with operations := r.operations ++ [operation] })
    | .service s => .ok (.service { s with operations := s.operations ++ [operation] })
    | content => .error (.noOperations content.type operation)
  | .bindResource resource =>
    match content with
    | .resource r => .ok (.resource { r with resources := r.resources ++ [resource] })
    | .service s => .ok (.service { s with resources := s.resources ++ [resource] })
    | content => .error (.noResources content.type resource)
  | .input id => onOperation "input" (fun o => { o with input := some id }) content
  | .output id => onOperation "output" (fun o => { o with output := some id }) content
  | .error id =>
    match content with
    | .operation o => .ok (.operation { o with errors := o.errors ++ [id] })
    | .service s => .ok (.service { s with errors := s.errors ++ [id] })
    | content => .error (.noErrors content.type id)
  | .version text =>
    match content with
    | .service s => .ok (.service { s with version := text })
    | content => .error (.noVersion content.type)

end Step

namespace Declaration

def type (d : Declaration) : ShapeType :=
  d.content.type

def members (d : Declaration) : List MemberDeclaration :=
  match d.content with
  | .aggregate _ members => members
  | _ => []

def new (type : ShapeType) (id : ShapeId) : Declaration where
  id
  content := .blank type
  traits := ∅
  mixins := []
  misuse := if type = .member then [.memberDeclared] else []

/-- Says one more thing about a shape. What does not fit changes only the record of misuse. -/
def add (d : Declaration) (step : Step) : Declaration :=
  match step.onContent d.content with
  | .error misuse => { d with misuse := d.misuse ++ [misuse] }
  | .ok content =>
    match step with
    | .trait t => { d with traits := d.traits.insert t }
    | .mixin id => { d with mixins := d.mixins ++ [id] }
    | _ => { d with content }

def addAll (d : Declaration) (steps : List Step) : Declaration :=
  steps.foldl add d

def simple (type : ShapeType) (id : ShapeId) : Declaration :=
  let d := new type id
  if type.isSimple then d else { d with misuse := d.misuse ++ [.notSimple type] }

def string (id : ShapeId) : Declaration :=
  simple (.simple .string) id

def «structure» (id : ShapeId) : Declaration :=
  new (.aggregate .structure) id

def «union» (id : ShapeId) : Declaration :=
  new (.aggregate .union) id

def list (id member : ShapeId) : Declaration :=
  (new (.aggregate .list) id).add (.member "member" member [])

def set (id member : ShapeId) : Declaration :=
  (new (.aggregate .set) id).add (.member "member" member [])

def map (id key value : ShapeId) : Declaration :=
  ((new (.aggregate .map) id).add (.member "key" key [])).add (.member "value" value [])

def resource (id : ShapeId) : Declaration :=
  new .resource id

def operation (id : ShapeId) : Declaration :=
  new .operation id

def service (id : ShapeId) : Declaration :=
  new .service id

def annotate (d : Declaration) (trait : ShapeId) : Declaration :=
  d.add (.trait (.mark trait))

def withMember (d : Declaration) (name : String) (target : ShapeId) : Declaration :=
  d.add (.member name target [])

end Declaration

abbrev Declarations := Sorted Declaration.id

end SchemaQuery
