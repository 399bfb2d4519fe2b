import SchemaQuery.Proofs.Freezing

namespace SchemaQuery

def ShapeType.ownsMembers : ShapeType → Bool
  | aggregate _ => true
  | _ => false

namespace Step

def misuse? (type : ShapeType) : Step → Option Misuse
  | .member name _ _ => if type.ownsMembers then none else some (.noMembers type name)
  | .trait _ | .mixin _ => none
  | .identifier _ _ =>
    if type = .resource then none else some (.needsResource "identifier" type)
  | .property _ _ =>
    if type = .resource then none else some (.needsResource "property" type)
  | .lifecycle slot _ =>
    if type = .resource then none else some (.needsResource slot.name type)
  | .collectionOperation _ =>
    if type = .resource then none else some (.needsResource "collectionOperation" type)
  | .bindOperation operation =>
    if type = .resource ∨ type = .service then none else some (.noOperations type operation)
  | .bindResource resource =>
    if type = .resource ∨ type = .service then none else some (.noResources type resource)
  | .input _ => if type = .operation then none else some (.needsOperation "input" type)
  | .output _ => if type = .operation then none else some (.needsOperation "output" type)
  | .error id =>
    if type = .operation ∨ type = .service then none else some (.noErrors type id)
  | .version _ => if type = .service then none else some (.noVersion type)

theorem onContent_eq_error_iff {step : Step} {content : DeclaredContent} {misuse : Misuse} :
    step.onContent content = .error misuse ↔ step.misuse? content.type = some misuse := by
  cases step with
  | trait | mixin => simp [onContent, misuse?]
  | member | identifier | property | lifecycle | collectionOperation | bindOperation
  | bindResource | input | output | error | version =>
      cases content <;>
        simp [onContent, onResource, onOperation, misuse?, DeclaredContent.type,
          ShapeType.ownsMembers]

end Step

namespace Declaration

variable {d : Declaration} {step : Step}

theorem add_of_misuse {found : Misuse} (h : step.misuse? d.type = some found) :
    d.add step = { d with misuse := d.misuse ++ [found] } := by
  rw [add, Step.onContent_eq_error_iff.mpr h]

theorem misuse_add_eq (d : Declaration) (step : Step) :
    (d.add step).misuse = d.misuse ++ (step.misuse? d.type).toList := by
  cases hmisuse : step.misuse? d.type with
  | some misuse => rw [add_of_misuse hmisuse, Option.toList_some]
  | none =>
      rw [Option.toList_none, List.append_nil, add]
      split
      next misuse hcontent =>
        have hfound := Step.onContent_eq_error_iff.mp hcontent
        rw [← type, hmisuse] at hfound
        cases hfound
      next => cases step <;> rfl

theorem id_add (d : Declaration) (step : Step) : (d.add step).id = d.id := by
  unfold add
  split
  · rfl
  · cases step <;> rfl

theorem id_addAll (d : Declaration) (steps : List Step) : (d.addAll steps).id = d.id := by
  induction steps generalizing d with
  | nil => rfl
  | cons step steps ih => exact (ih (d.add step)).trans (id_add d step)

theorem type_addAll (d : Declaration) (steps : List Step) : (d.addAll steps).type = d.type := by
  induction steps generalizing d with
  | nil => rfl
  | cons step steps ih => exact (ih (d.add step)).trans (type_add d step)

theorem misuse_addAll (d : Declaration) (steps : List Step) :
    (d.addAll steps).misuse = d.misuse ++ steps.filterMap (Step.misuse? d.type) := by
  induction steps generalizing d with
  | nil => exact (List.append_nil _).symm
  | cons step steps ih =>
      refine (ih (d.add step)).trans ?_
      rw [misuse_add_eq, type_add, List.append_assoc]
      cases h : step.misuse? d.type with
      | none => rw [List.filterMap_cons_none h, Option.toList_none, List.nil_append]
      | some misuse => rw [List.filterMap_cons_some h, Option.toList_some, List.singleton_append]

inductive Opening where
  | new (type : ShapeType)
  | simple (type : ShapeType)
  | string
  | «structure»
  | union
  | list (member : ShapeId)
  | set (member : ShapeId)
  | map (key value : ShapeId)
  | resource
  | operation
  | service

namespace Opening

def declare (id : ShapeId) : Opening → Declaration
  | new type => Declaration.new type id
  | simple type => Declaration.simple type id
  | string => Declaration.string id
  | .structure => Declaration.structure id
  | .union => Declaration.union id
  | list member => Declaration.list id member
  | set member => Declaration.set id member
  | map key value => Declaration.map id key value
  | resource => Declaration.resource id
  | operation => Declaration.operation id
  | service => Declaration.service id

def type : Opening → ShapeType
  | new type | simple type => type
  | string => .simple .string
  | .structure => .aggregate .structure
  | .union => .aggregate .union
  | list _ => .aggregate .list
  | set _ => .aggregate .set
  | map _ _ => .aggregate .map
  | resource => .resource
  | operation => .operation
  | service => .service

def misuse : Opening → List Misuse
  | new type => if type = .member then [.memberDeclared] else []
  | simple type =>
    (if type = .member then [.memberDeclared] else []) ++
      if type.isSimple then [] else [.notSimple type]
  | _ => []

theorem id_declare (o : Opening) (id : ShapeId) : (o.declare id).id = id := by
  cases o with
  | simple type => cases type <;> rfl
  | _ => rfl

theorem type_declare (o : Opening) (id : ShapeId) : (o.declare id).type = o.type := by
  cases o with
  | new type => exact DeclaredContent.type_blank type
  | simple type => cases type <;> rfl
  | _ => rfl

theorem misuse_declare (o : Opening) (id : ShapeId) : (o.declare id).misuse = o.misuse := by
  cases o with
  | simple type => cases type <;> rfl
  | _ => rfl

/-- What a constructor and the steps after it write down. -/
def write (o : Opening) (id : ShapeId) (steps : List Step) : Declaration :=
  (o.declare id).addAll steps

def record (o : Opening) (steps : List Step) : List Misuse :=
  o.misuse ++ steps.filterMap (Step.misuse? o.type)

theorem id_write (o : Opening) (id : ShapeId) (steps : List Step) : (o.write id steps).id = id :=
  (id_addAll _ steps).trans (o.id_declare id)

theorem type_write (o : Opening) (id : ShapeId) (steps : List Step) :
    (o.write id steps).type = o.type :=
  (type_addAll _ steps).trans (o.type_declare id)

theorem misuse_write (o : Opening) (id : ShapeId) (steps : List Step) :
    (o.write id steps).misuse = o.record steps := by
  rw [write, misuse_addAll, misuse_declare, type_declare, record]

end Opening

end Declaration

namespace Model

variable {config : ModelConfig} {declarations before after : List Declaration}
variable {declared : Declarations} {d : Declaration} {id : ShapeId} {found : Misuse}

theorem collect_of_misuse (h : d.misuse.head? = some found) (rest : List Declaration) :
    collect declared (d :: rest) = .error (.invalidDefinition d.id (.misuse found)) := by
  obtain ⟨others, hmisuse⟩ := List.head?_eq_some_iff.mp h
  rw [collect, hmisuse]

theorem collect_eq_misuse_iff :
    collect declared declarations = .error (.invalidDefinition id (.misuse found)) ↔
      ∃ before d after, declarations = before ++ d :: after ∧
        (∃ collected, collect declared before = .ok collected) ∧ d.id = id ∧
        d.misuse.head? = some found := by
  constructor
  · intro h
    induction declarations generalizing declared with
    | nil => cases h
    | cons d rest ih =>
        obtain ⟨first, hfirst, heq⟩ | heq | heq | ⟨hd, hnew, hrest⟩ := collect_cons_eq_error h
        · cases heq
          exact ⟨[], d, rest, rfl, ⟨declared, rfl⟩, rfl, hfirst⟩
        · cases heq
        · cases heq
        · obtain ⟨before, culprit, after, rfl, ⟨collected, hcollected⟩, hculprit⟩ := ih hrest
          have hcollect := collect_cons_eq_ok_iff.mpr ⟨hd, hnew, hcollected⟩
          exact ⟨d :: before, culprit, after, rfl, ⟨collected, hcollect⟩, hculprit⟩
  · rintro ⟨before, d, after, rfl, ⟨collected, hcollected⟩, rfl, hmisuse⟩
    rw [collect_append, hcollected]
    exact collect_of_misuse hmisuse after

theorem exists_collect_empty_iff :
    (∃ collected, collect ∅ declarations = .ok collected) ↔ Collectable declarations :=
  exists_collect_iff.trans (and_iff_left fun _ _ => rfl)

theorem misuse_of_mem_prelude (hd : d ∈ Prelude.declarations) : d.misuse = [] := by
  revert d
  decide +kernel

theorem collect_withPrelude_eq_misuse_iff :
    collect ∅ (withPrelude config declarations) =
        .error (.invalidDefinition id (.misuse found)) ↔
      collect ∅ declarations = .error (.invalidDefinition id (.misuse found)) := by
  unfold withPrelude
  split
  · rw [collect_append]
    cases hcollect : collect ∅ declarations with
    | error e => rfl
    | ok collected =>
        refine iff_of_false ?_ (by simp)
        intro h
        obtain ⟨before, culprit, after, hprelude, -, -, hculprit⟩ := collect_eq_misuse_iff.mp h
        have hmem : culprit ∈ Prelude.declarations := by simp [hprelude]
        rw [misuse_of_mem_prelude hmem] at hculprit
        cases hculprit
  · rfl

theorem collect_eq_of_build_eq_misuse
    (h : build config declarations = .error (.invalidDefinition id (.misuse found))) :
    collect ∅ (withPrelude config declarations) =
      .error (.invalidDefinition id (.misuse found)) := by
  obtain hfails | hmixins | ⟨_, -, _, -, hrefused⟩ | ⟨_, _, heq | heq⟩ := refusal_of_build h
  · exact hfails
  · cases hmixins
  · cases hrefused
  · cases heq
  · cases heq

theorem build_eq_misuse_iff :
    build config declarations = .error (.invalidDefinition id (.misuse found)) ↔
      ∃ before d after, declarations = before ++ d :: after ∧ Collectable before ∧ d.id = id ∧
        d.misuse.head? = some found := by
  have hbuild : build config declarations = .error (.invalidDefinition id (.misuse found)) ↔
      collect ∅ (withPrelude config declarations) =
        .error (.invalidDefinition id (.misuse found)) := by
    constructor
    · exact collect_eq_of_build_eq_misuse
    · intro h
      rw [build, h]
  rw [hbuild, collect_withPrelude_eq_misuse_iff, collect_eq_misuse_iff]
  simp only [exists_collect_empty_iff]

theorem misuse_eq_nil_of_build {m : Model} (h : build config declarations = .ok m)
    (hd : d ∈ declarations) : d.misuse = [] := by
  obtain ⟨declared, -, hcollect, -⟩ := build_eq_ok_iff.mp h
  have hcollectable := exists_collect_empty_iff.mp ⟨declared, hcollect⟩
  refine (hcollectable.admissible d ?_).misuse
  unfold withPrelude
  split
  · exact List.mem_append_left _ hd
  · exact hd

open Declaration

/-- A step that does not fit changes nothing but the record, which keeps every misuse in order. A
declaration with a record is in no list that is built, and the first entry is reported unless a
declaration before it is refused. Misuse is reported of a declaration with a record only. -/
theorem misuse_never_lost (o : Opening) (id : ShapeId) (steps : List Step) (config : ModelConfig) :
    (∀ step found, step.misuse? o.type = some found →
      (o.write id steps).add step =
        { o.write id steps with misuse := (o.write id steps).misuse ++ [found] }) ∧
    (o.write id steps).misuse = o.record steps ∧
    (∀ declarations, o.write id steps ∈ declarations → o.record steps ≠ [] →
      ∃ e, build config declarations = .error e) ∧
    (∀ before after found, Collectable before → (o.record steps).head? = some found →
      build config (before ++ o.write id steps :: after) =
        .error (.invalidDefinition id (.misuse found))) ∧
    ∀ declarations rejected found,
      build config declarations = .error (.invalidDefinition rejected (.misuse found)) →
        ∃ culprit ∈ declarations, culprit.id = rejected ∧ culprit.misuse.head? = some found ∧
          (o.record steps = [] → culprit ≠ o.write id steps) := by
  have hrecord := o.misuse_write id steps
  refine ⟨?_, hrecord, ?_, ?_, ?_⟩
  · intro step found hstep
    exact add_of_misuse ((o.type_write id steps).symm ▸ hstep)
  · intro declarations hd hmisuse
    cases hbuild : build config declarations with
    | error e => exact ⟨e, rfl⟩
    | ok m => exact absurd (misuse_eq_nil_of_build hbuild hd) (hrecord ▸ hmisuse)
  · intro before after found hbefore hfound
    exact build_eq_misuse_iff.mpr
      ⟨before, _, after, rfl, hbefore, o.id_write id steps, hrecord ▸ hfound⟩
  · intro declarations rejected found hbuild
    obtain ⟨before, culprit, after, rfl, -, hid, hfound⟩ := build_eq_misuse_iff.mp hbuild
    refine ⟨culprit, by simp, hid, hfound, ?_⟩
    rintro hnone rfl
    rw [hrecord, hnone] at hfound
    cases hfound

def plain : Declaration := Opening.string.write ⟨"a", "T", none⟩ []

def versioned : Declaration :=
  Opening.structure.write ⟨"a", "S", none⟩
    [.identifier "x" ⟨"a", "T", none⟩, .mixin ⟨"a", "M", none⟩, .version "1"]

theorem misuse_never_lost_versioned :
    versioned.add (.input ⟨"a", "T", none⟩) =
        { versioned with
          misuse := versioned.misuse ++ [.needsOperation "input" (.aggregate .structure)] } ∧
      Collectable [plain] ∧
      build default [plain, versioned] =
        .error (.invalidDefinition ⟨"a", "S", none⟩
          (.misuse (.needsResource "identifier" (.aggregate .structure)))) ∧
      (∃ e, build default [versioned, plain] = .error e) ∧
      ∃ culprit ∈ [plain, versioned], culprit.id = ⟨"a", "S", none⟩ ∧ culprit ≠ plain := by
  have hplain : Collectable [plain] := by
    refine ⟨List.forall_mem_singleton.mpr ⟨rfl, rfl⟩, ?_⟩
    exact List.nodup_singleton _
  obtain ⟨hadd, -, hfails, hreported, -⟩ := misuse_never_lost .structure ⟨"a", "S", none⟩
    [.identifier "x" ⟨"a", "T", none⟩, .mixin ⟨"a", "M", none⟩, .version "1"] default
  obtain ⟨-, -, -, -, hculprit⟩ := misuse_never_lost .string ⟨"a", "T", none⟩ [] default
  have hbuild := hreported [plain] [] _ hplain rfl
  refine ⟨hadd (.input ⟨"a", "T", none⟩) _ rfl, hplain, hbuild, ?_, ?_⟩
  · exact hfails [versioned, plain] List.mem_cons_self (by decide)
  · obtain ⟨culprit, hmem, hid, -, hne⟩ := hculprit [plain, versioned] _ _ hbuild
    exact ⟨culprit, hmem, hid, hne (by decide)⟩

end Model

end SchemaQuery
