import SchemaQuery.Config.Basic
import SchemaQuery.Model.Error

/-!
Effective members: the members of the mixins in order, then the declared ones.

Members of one name and one target become one member, which remembers the members that it inherits
from. What a declaration says about an inherited member comes before what it inherits.
-/
namespace SchemaQuery

structure EffectiveMember where
  name : String
  target : ShapeId
  traits : Traits
  mixins : List ShapeId
deriving DecidableEq, Inhabited

namespace EffectiveMember

def addMissing (traits : Traits) (new : List Trait) : Traits :=
  new.foldl (fun traits t => if traits.contains t.id then traits else traits.insert t) traits

def absorb (e : EffectiveMember) (m : Member) : EffectiveMember :=
  { e with traits := addMissing e.traits m.traits.toList, mixins := e.mixins ++ [m.id] }

def refine (e : EffectiveMember) (m : MemberDeclaration) : EffectiveMember :=
  { e with traits := e.traits.insertAll m.traits.toList }

def inherit (policy : ConflictPolicy) (shape mixin : ShapeId) (name : String) (m : Member) :
    List EffectiveMember → Except ModelError (List EffectiveMember)
  | [] => .ok [⟨name, m.target, m.traits, [m.id]⟩]
  | e :: rest =>
    if e.name = name then
      if e.target = m.target then
        .ok (e.absorb m :: rest)
      else
        match policy with
        | .error => .error (.conflict shape name (.betweenMixins mixin m.target e.target))
        | .firstWins => .ok (e :: rest)
    else
      (inherit policy shape mixin name m rest).map (e :: ·)

def inheritAll (policy : ConflictPolicy) (shape mixin : ShapeId) (effective : List EffectiveMember) :
    List Member → Except ModelError (List EffectiveMember)
  | [] => .ok effective
  | m :: rest =>
    match m.id.member with
    | none => inheritAll policy shape mixin effective rest
    | some name =>
      match inherit policy shape mixin name m effective with
      | .error e => .error e
      | .ok effective => inheritAll policy shape mixin effective rest

def inheritFrom (policy : ConflictPolicy) (shape : ShapeId) (effective : List EffectiveMember) :
    List Shape → Except ModelError (List EffectiveMember)
  | [] => .ok effective
  | mixin :: rest =>
    match inheritAll policy shape mixin.id effective mixin.members with
    | .error e => .error e
    | .ok effective => inheritFrom policy shape effective rest

/-- Adds a declared member, which must have the target that it inherits. -/
def declare (shape : ShapeId) (m : MemberDeclaration) :
    List EffectiveMember → Except ModelError (List EffectiveMember)
  | [] => .ok [⟨m.name, m.target, m.traits, []⟩]
  | e :: rest =>
    if e.name = m.name then
      if e.target = m.target then
        .ok (e.refine m :: rest)
      else
        .error (.conflict shape m.name (.withLocal m.target e.target))
    else
      (declare shape m rest).map (e :: ·)

def declareAll (shape : ShapeId) (seen : List String) (effective : List EffectiveMember) :
    List MemberDeclaration → Except ModelError (List EffectiveMember)
  | [] => .ok effective
  | m :: rest =>
    if m.name ∈ seen then
      .error (.duplicateMember shape m.name)
    else
      match declare shape m effective with
      | .error e => .error e
      | .ok effective => declareAll shape (m.name :: seen) effective rest

def all (policy : ConflictPolicy) (d : Declaration) (mixins : List Shape) :
    Except ModelError (List EffectiveMember) :=
  match inheritFrom policy d.id [] mixins with
  | .error e => .error e
  | .ok effective => declareAll d.id [] effective d.members

/-- Checks that a list, set or map has exactly the members that it must have. -/
def checkNames (d : Declaration) (members : List EffectiveMember) : Except ModelError Unit :=
  match d.content with
  | .aggregate type _ =>
    match type.fixedMembers with
    | none => .ok ()
    | some expected =>
      let found := (members.map name).mergeSort fun a b => (compare a b).isLE
      if found = expected then
        .ok ()
      else
        .error (.invalidDefinition d.id (.memberNames type expected found))
  | _ => .ok ()

def freeze (shape : ShapeId) : List EffectiveMember → Except ModelError (List Member)
  | [] => .ok []
  | e :: rest =>
    match shape.withMember e.name with
    | .error flaw => .error (.malformedId flaw)
    | .ok id => (freeze shape rest).map (⟨id, shape, e.target, e.traits, e.mixins⟩ :: ·)

end EffectiveMember

end SchemaQuery
