import SchemaQuery.Mixin.Resolve
import SchemaQuery.Proofs.InheritedTargets

/-!
What resolution is refused for: a mixin that may not be used, or a declaration whose traits or
members do not go together.
-/

namespace SchemaQuery

inductive ModelError.OfMixins : ModelError → Prop
  | cycle (shape : ShapeId) : OfMixins (.cycle shape)
  | unknownMixin (shape mixin : ShapeId) : OfMixins (.unknownMixin shape mixin)
  | invalidMixin (shape mixin : ShapeId) (flaw : MixinFlaw) :
      OfMixins (.invalidMixin shape mixin flaw)

/-- What a declaration is refused for when it is resolved. The error names its shape, unless it is
about the text of an id. -/
inductive Declaration.RefusedFor (d : Declaration) : ModelError → Prop
  | conflict (name : String) (conflict : MemberConflict) :
      d.RefusedFor (.conflict d.id name conflict)
  | duplicateMember (name : String) : d.RefusedFor (.duplicateMember d.id name)
  | badLocalTrait (mixin : ShapeId) (entry : Node) :
      d.RefusedFor (.invalidMixin d.id mixin (.badLocalTrait entry))
  | memberNames (type : AggregateType) (expected found : List String) :
      d.RefusedFor (.invalidDefinition d.id (.memberNames type expected found))
  | loneMember (h : d.content = .member) : d.RefusedFor (.invalidDefinition d.id .loneMember)
  | malformedId (flaw : ShapeId.Malformed) : d.RefusedFor (.malformedId flaw)

variable {e : ModelError}

namespace EffectiveTraits

variable {shape : ShapeId}

theorem localIds_eq_error {mixin : ShapeId} {entries : List Node}
    (h : localIds shape mixin entries = .error e) :
    (∃ flaw, e = .malformedId flaw) ∨
      ∃ entry, e = .invalidMixin shape mixin (.badLocalTrait entry) := by
  induction entries with
  | nil => cases h
  | cons entry rest ih =>
      unfold localIds at h
      split at h
      next heq => cases heq
      next heq =>
        cases heq
        split at h
        next flaw hflaw =>
          cases h
          exact .inl ⟨flaw, rfl⟩
        next => exact ih (map_eq_error_iff.mp h)
      next heq =>
        cases heq
        cases h
        exact .inr ⟨entry, rfl⟩

theorem handedOn_eq_error {mixin : Shape} (h : handedOn shape mixin = .error e) :
    (∃ flaw, e = .malformedId flaw) ∨
      ∃ entry, e = .invalidMixin shape mixin.id (.badLocalTrait entry) := by
  rw [handedOn, map_eq_error_iff, keptBack] at h
  split at h
  · exact localIds_eq_error (map_eq_error_iff.mp h)
  · cases h

theorem inherited_eq_error {traits : Traits} {mixins : List Shape}
    (h : inherited shape traits mixins = .error e) :
    (∃ flaw, e = .malformedId flaw) ∨
      ∃ mixin entry, e = .invalidMixin shape mixin (.badLocalTrait entry) := by
  induction mixins generalizing traits with
  | nil => cases h
  | cons mixin rest ih =>
      unfold inherited at h
      split at h
      next hfails =>
        cases h
        exact (handedOn_eq_error hfails).imp_right fun hentry => ⟨mixin.id, hentry⟩
      next => exact ih h

end EffectiveTraits

namespace EffectiveMember

variable {shape : ShapeId} {effective : List EffectiveMember} {d : Declaration}

theorem checkNames_eq_error (h : checkNames d effective = .error e) :
    ∃ type expected found, e = .invalidDefinition d.id (.memberNames type expected found) := by
  unfold checkNames at h
  split at h
  next type _ _ =>
    split at h
    · cases h
    next expected _ =>
      dsimp only at h
      split at h
      · cases h
      · cases h
        exact ⟨type, expected, _, rfl⟩
  next => cases h

theorem freeze_eq_error (h : freeze shape effective = .error e) :
    ∃ flaw, e = .malformedId flaw := by
  induction effective with
  | nil => cases h
  | cons first rest ih =>
      unfold freeze at h
      split at h
      next flaw hflaw =>
        cases h
        exact ⟨flaw, rfl⟩
      next => exact ih (map_eq_error_iff.mp h)

theorem declareAll_eq_error {seen : List String} {locals : List MemberDeclaration}
    (h : declareAll shape seen effective locals = .error e) :
    (∃ name conflict, e = .conflict shape name conflict) ∨
      ∃ name, e = .duplicateMember shape name := by
  induction locals generalizing seen effective with
  | nil => cases h
  | cons l rest ih =>
      unfold declareAll at h
      split at h
      next =>
        cases h
        exact .inr ⟨l.name, rfl⟩
      next =>
        split at h
        next hfails =>
          cases h
          obtain ⟨target, -, -, heq⟩ := target?_of_declare_eq_error hfails
          exact .inl ⟨l.name, _, heq⟩
        next => exact ih h

theorem all_eq_error {policy : ConflictPolicy} {mixins : List Shape}
    (h : all policy d mixins = .error e) :
    (∃ name conflict, e = .conflict d.id name conflict) ∨
      ∃ name, e = .duplicateMember d.id name := by
  unfold all at h
  split at h
  next hfails =>
    cases h
    obtain ⟨-, before, second, after, name, target, earlier, -, -, heq⟩ :=
      exists_clash_of_inheritFrom Heads.nil hfails
    exact .inl ⟨name, _, heq⟩
  next => exact declareAll_eq_error h

end EffectiveMember

namespace Declaration

variable {d : Declaration} {policy : ConflictPolicy} {mixins : List Shape}

theorem resolveContent_eq_error {effective : List EffectiveMember}
    (h : d.resolveContent mixins effective = .error e) :
    (∃ flaw, e = .malformedId flaw) ∨
      d.content = .member ∧ e = .invalidDefinition d.id .loneMember := by
  unfold resolveContent at h
  split at h
  case h_2 => exact .inl (EffectiveMember.freeze_eq_error (map_eq_error_iff.mp h))
  case h_3 hcontent =>
    cases h
    exact .inr ⟨hcontent, rfl⟩
  all_goals cases h

theorem refusedFor_of_resolve (h : d.resolve policy mixins = .error e) : d.RefusedFor e := by
  unfold resolve at h
  split at h
  next hfails =>
    cases h
    obtain ⟨flaw, rfl⟩ | ⟨mixin, entry, rfl⟩ :=
      EffectiveTraits.inherited_eq_error (map_eq_error_iff.mp hfails)
    · exact .malformedId flaw
    · exact .badLocalTrait mixin entry
  next =>
  split at h
  next hfails =>
    cases h
    obtain ⟨name, conflict, rfl⟩ | ⟨name, rfl⟩ := EffectiveMember.all_eq_error hfails
    · exact .conflict name conflict
    · exact .duplicateMember name
  next =>
  split at h
  next hfails =>
    cases h
    obtain ⟨type, expected, found, rfl⟩ := EffectiveMember.checkNames_eq_error hfails
    exact .memberNames type expected found
  next =>
    obtain ⟨flaw, rfl⟩ | ⟨hcontent, rfl⟩ := resolveContent_eq_error (map_eq_error_iff.mp h)
    · exact .malformedId flaw
    · exact .loneMember hcontent

end Declaration

namespace Declarations

variable {policy : ConflictPolicy} {declared : Declarations}

theorem ofMixins_of_checkMixin {d : Declaration} {mixin : ShapeId}
    (h : declared.checkMixin d mixin = .error e) : e.OfMixins := by
  unfold checkMixin at h
  repeat' split at h
  · cases h
    exact .cycle _
  · cases h
    exact .unknownMixin _ _
  · cases h
    exact .invalidMixin _ _ _
  · cases h
    exact .invalidMixin _ _ _
  · cases h

theorem ofMixins_of_resolutionOrder (h : declared.resolutionOrder = .error e) : e.OfMixins := by
  unfold resolutionOrder at h
  split at h
  next hfails =>
    cases h
    obtain ⟨d, -, hd⟩ := exists_of_forM_eq_error hfails
    obtain ⟨mixin, -, hmixin⟩ := exists_of_forM_eq_error hd
    exact ofMixins_of_checkMixin hmixin
  next =>
    dsimp only at h
    split at h
    · cases h
      exact .cycle _
    · cases h

end Declarations

end SchemaQuery
