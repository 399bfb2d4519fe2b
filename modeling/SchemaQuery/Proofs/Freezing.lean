import SchemaQuery.Proofs.ConflictPolicies
import SchemaQuery.Proofs.Containment
import SchemaQuery.Proofs.TraitDefinitions

namespace SchemaQuery

theorem Step.type_onContent {step : Step} {content after : DeclaredContent}
    (h : step.onContent content = .ok after) : after.type = content.type := by
  cases step with
  | trait | mixin =>
      cases h
      rfl
  | member | identifier | property | lifecycle | collectionOperation | bindOperation
  | bindResource | input | output | error | version =>
      cases content <;> cases h <;> rfl

namespace Declaration

/-- What can be written down for a shape: a constructor, and then any steps. -/
inductive Written : Declaration → Prop
  | new (type : ShapeType) (id : ShapeId) : Written (new type id)
  | simple (type : ShapeType) (id : ShapeId) : Written (simple type id)
  | add {d : Declaration} (h : Written d) (step : Step) : Written (d.add step)

theorem type_add (d : Declaration) (step : Step) : (d.add step).type = d.type := by
  unfold add
  split
  · rfl
  next content hcontent =>
    cases step with
    | trait | mixin => rfl
    | member | identifier | property | lifecycle | collectionOperation | bindOperation
    | bindResource | input | output | error | version => exact Step.type_onContent hcontent

theorem misuse_add (d : Declaration) (step : Step) : d.misuse ⊆ (d.add step).misuse := by
  unfold add
  split
  · exact List.subset_append_left _ _
  · cases step <;> exact List.Subset.refl _

/-- A member that is declared by itself is put on record, whatever else is said about it. -/
theorem Written.memberDeclared_mem {d : Declaration} (h : d.Written) (htype : d.type = .member) :
    Misuse.memberDeclared ∈ d.misuse := by
  induction h with
  | new type id =>
      obtain rfl : type = .member := (DeclaredContent.type_blank type).symm.trans htype
      exact List.mem_singleton_self _
  | simple type id =>
      unfold Declaration.simple at htype ⊢
      split at htype
      next hsimple =>
        obtain rfl : type = .member := (DeclaredContent.type_blank type).symm.trans htype
        cases hsimple
      next hsimple =>
        obtain rfl : type = .member := (DeclaredContent.type_blank type).symm.trans htype
        rw [if_neg hsimple]
        exact List.mem_append_left _ (List.mem_singleton_self _)
  | @add d _ step ih =>
      rw [type_add] at htype
      exact misuse_add d step (ih htype)

theorem Written.type_ne_member {d : Declaration} (h : d.Written) (hd : d.Admissible) :
    d.type ≠ .member := by
  intro htype
  have hmem := h.memberDeclared_mem htype
  rw [hd.misuse] at hmem
  cases hmem

theorem written_of_mem_prelude {d : Declaration} (hd : d ∈ Prelude.declarations) : d.Written := by
  simp only [Prelude.declarations, Prelude.deprecated, List.mem_append, List.mem_map,
    List.mem_singleton] at hd
  rcases hd with ((⟨_, -, rfl⟩ | ⟨_, -, rfl⟩) | ⟨_, -, rfl⟩) | rfl
  · exact .simple _ _
  · exact (Written.new _ _).add _
  · exact (Written.simple _ _).add _
  · exact (((Written.new _ _).add _).add _).add _

end Declaration

theorem Declarations.of_resolveAll_eq_error {declared : Declarations} {policy : ConflictPolicy}
    {e : ModelError} (h : declared.resolveAll policy = .error e) :
    e.OfMixins ∨ ∃ d ∈ declared.entries, d.RefusedFor e := by
  by_cases horder : declared.resolutionOrder = .error e
  · exact .inl (ofMixins_of_resolutionOrder horder)
  · obtain ⟨before, d, hd, after, resolved, -, -, hfails⟩ :=
      exists_of_resolveAll_eq_error horder h
    exact .inr ⟨d, hd, Declaration.refusedFor_of_resolve hfails⟩

namespace Model

theorem addShape_of_new {shapes : Sorted Shape.id} {new : Shape}
    (hnew : ∀ shape ∈ shapes.entries, shape.id ≠ new.id) :
    addShape shapes new = .ok (shapes.insert new) := by
  refine if_neg ?_
  intro hcontains
  obtain ⟨shape, hshape, hid⟩ := Sorted.contains_iff.mp hcontains
  exact hnew shape hshape hid

theorem exists_addMembers {container : ShapeId} {shapes : Sorted Shape.id} {members : List Member}
    (hmembers : ∀ m ∈ members, m.container = container ∧ m.id.container = container)
    (hdistinct : (members.map Member.id).Nodup)
    (hnew : ∀ m ∈ members, ∀ shape ∈ shapes.entries, shape.id ≠ m.id) :
    ∃ added, addMembers container shapes members = .ok added := by
  induction members generalizing shapes with
  | nil => exact ⟨shapes, rfl⟩
  | cons m rest ih =>
      obtain ⟨hbelongs, hmembers⟩ := List.forall_mem_cons.mp hmembers
      obtain ⟨hother, hdistinct⟩ := List.nodup_cons.mp hdistinct
      obtain ⟨hm, hnew⟩ := List.forall_mem_cons.mp hnew
      have hadd : addShape shapes m.toShape = .ok (shapes.insert m.toShape) := addShape_of_new hm
      obtain ⟨added, hadded⟩ : ∃ added,
          addMembers container (shapes.insert m.toShape) rest = .ok added := by
        refine ih hmembers hdistinct ?_
        intro later hlater shape hshape
        obtain rfl | hshape := (mem_addShape_iff hadd).mp hshape
        · exact fun hid => hother (List.mem_map.mpr ⟨later, hlater, hid.symm⟩)
        · exact hnew later hlater shape hshape
      refine ⟨added, ?_⟩
      rw [addMembers, if_neg (by simp [hbelongs.1, hbelongs.2]), hadd]
      exact hadded

theorem exists_addAll {shapes : Sorted Shape.id} {tops : List Shape}
    (hlevel : ∀ top ∈ tops, top.TopLevel)
    (hnames : ∀ top ∈ tops, (top.members.map Member.id).Nodup)
    (hids : (tops.map Shape.id).Nodup)
    (hnew : ∀ top ∈ tops, ∀ shape ∈ shapes.entries, shape.id.container ≠ top.id) :
    ∃ added, addAll shapes tops = .ok added := by
  induction tops generalizing shapes with
  | nil => exact ⟨shapes, rfl⟩
  | cons top rest ih =>
      obtain ⟨htop, hlevel⟩ := List.forall_mem_cons.mp hlevel
      obtain ⟨hdistinct, hnames⟩ := List.forall_mem_cons.mp hnames
      obtain ⟨hother, hids⟩ := List.nodup_cons.mp hids
      obtain ⟨hnewTop, hnew⟩ := List.forall_mem_cons.mp hnew
      have hself : top.id.container = top.id := ShapeId.container_eq_self htop.id
      have hinside {m : Member} (hm : m ∈ top.members) : m.id.container = top.id := by
        obtain ⟨-, name, hname⟩ := htop.members m hm
        rw [hname, ShapeId.container_memberNamed, hself]
      -- the members first
      obtain ⟨withMembers, hwithMembers⟩ : ∃ added,
          addMembers top.id shapes top.members = .ok added := by
        refine exists_addMembers (fun m hm => ⟨(htop.members m hm).1, hinside hm⟩) hdistinct ?_
        intro m hm shape hshape hid
        exact hnewTop shape hshape (hid ▸ hinside hm)
      -- then the shape itself, whose id is not that of a member
      have hadd : addShape withMembers top = .ok (withMembers.insert top) := by
        refine addShape_of_new ?_
        intro shape hshape hid
        obtain ⟨m, hm, rfl⟩ | hshape := (mem_addMembers_iff hwithMembers).mp hshape
        · obtain ⟨-, name, hname⟩ := htop.members m hm
          have hnone := htop.id
          rw [← hid, Member.toShape, hname, ShapeId.member_memberNamed] at hnone
          cases hnone
        · exact hnewTop shape hshape (hid ▸ hself)
      obtain ⟨added, hadded⟩ : ∃ added, addAll (withMembers.insert top) rest = .ok added := by
        refine ih hlevel hnames hids ?_
        intro later hlater shape hshape
        have hne : top.id ≠ later.id := fun hid =>
          hother (List.mem_map.mpr ⟨later, hlater, hid.symm⟩)
        obtain rfl | hshape := (mem_addShape_iff hadd).mp hshape
        · exact hself ▸ hne
        obtain ⟨m, hm, rfl⟩ | hshape := (mem_addMembers_iff hwithMembers).mp hshape
        · rw [Member.toShape, hinside hm]
          exact hne
        · exact hnew later hlater shape hshape
      refine ⟨added, ?_⟩
      rw [addAll, hwithMembers]
      dsimp only
      rw [hadd]
      exact hadded

variable {config : ModelConfig} {declarations : List Declaration} {declared : Declarations}
variable {e : ModelError}

theorem exists_ofShapes_of_resolveAll {policy : ConflictPolicy} {tops : List Shape}
    (hcollect : collect ∅ declarations = .ok declared)
    (hresolve : declared.resolveAll policy = .ok tops) : ∃ m, ofShapes tops = .ok m := by
  have hyields := Declarations.yields_of_resolveAll hresolve
  have hresolved : ∀ top ∈ tops, ∃ d : Declaration, d.Admissible ∧
      ∃ mixins, d.resolve policy mixins = .ok top := by
    intro top htop
    obtain ⟨d, hd, hresolve⟩ := hyields.exists_declaration htop
    exact ⟨d, admissible_of_mem_collect hcollect hd, _, hresolve⟩
  obtain ⟨added, hadded⟩ : ∃ added, addAll ∅ tops = .ok added := by
    refine exists_addAll ?_ ?_ hyields.nodup (fun _ _ _ hshape => absurd hshape List.not_mem_nil)
    · intro top htop
      obtain ⟨d, hd, mixins, hresolve⟩ := hresolved top htop
      exact Declaration.topLevel_of_resolve hd.topLevel hresolve
    · intro top htop
      obtain ⟨d, -, mixins, hresolve⟩ := hresolved top htop
      have hnames := Declaration.nodup_members_of_resolve hresolve
      rw [← Function.comp_def ShapeId.member Member.id, ← List.map_map] at hnames
      exact hnames.of_map
  exact ⟨⟨added, .ofShapes added⟩, by rw [ofShapes, hadded]; rfl⟩

theorem collect_eq_error {collected : Declarations}
    (h : collect collected declarations = .error e) :
    (∃ shape misuse, e = .invalidDefinition shape (.misuse misuse)) ∨
      (∃ shape, e = .invalidDefinition shape .memberId) ∨ ∃ shape, e = .duplicateShape shape := by
  induction declarations generalizing collected with
  | nil => cases h
  | cons d rest ih =>
      obtain ⟨misuse, -, rfl⟩ | rfl | rfl | ⟨-, -, hrest⟩ := collect_cons_eq_error h
      · exact .inl ⟨d.id, misuse, rfl⟩
      · exact .inr (.inl ⟨d.id, rfl⟩)
      · exact .inr (.inr ⟨d.id, rfl⟩)
      · exact ih hrest

/-- What building is refused for: a flaw of a declaration, of mixins, of what one declaration
inherits, or a trait that is not defined. -/
theorem refusal_of_build (h : build config declarations = .error e) :
    collect ∅ (withPrelude config declarations) = .error e ∨ e.OfMixins ∨
      (∃ declared, collect ∅ (withPrelude config declarations) = .ok declared ∧
        ∃ d ∈ declared.entries, d.RefusedFor e) ∨
      ∃ shape trait, e = .unknownTrait shape trait ∨ e = .notATraitDefinition shape trait := by
  unfold build at h
  split at h
  next hfails =>
    cases h
    exact .inl hfails
  next declared hcollect =>
  split at h
  next hfails =>
    cases h
    refine .inr ((Declarations.of_resolveAll_eq_error hfails).imp_right fun hd => ?_)
    exact .inl ⟨declared, hcollect, hd⟩
  next tops hresolve =>
  -- freezing the shapes succeeds, so that only the check of traits is left
  obtain ⟨m, hm⟩ := exists_ofShapes_of_resolveAll hcollect hresolve
  rw [hm] at h
  dsimp only at h
  split at h
  · obtain ⟨shape, trait, -, hcheck⟩ := exists_firstUndefined (map_eq_error_iff.mp h)
    exact .inr (.inr (.inr ⟨shape.id, trait,
      (eq_of_checkTrait_eq_error hcheck).imp And.right And.right⟩))
  · cases h

theorem collect_eq_error_of_build
    (hnoMember : ∀ declared, collect ∅ (withPrelude config declarations) = .ok declared →
      ∀ d ∈ declared.entries, d.type ≠ .member)
    (h : build config declarations = .error e)
    (he : (∃ member container, e = .foreignMember member container) ∨
      (∃ shape, e = .duplicateShape shape) ∨ ∃ shape, e = .invalidDefinition shape .loneMember) :
    collect ∅ (withPrelude config declarations) = .error e := by
  obtain hfails | hmixins | ⟨declared, hcollect, d, hd, hrefused⟩ | ⟨shape, trait, heq⟩ :=
    refusal_of_build h
  · exact hfails
  · obtain ⟨_, _, rfl⟩ | ⟨_, rfl⟩ | ⟨_, rfl⟩ := he <;> cases hmixins
  · obtain ⟨_, _, rfl⟩ | ⟨_, rfl⟩ | ⟨_, rfl⟩ := he
    · cases hrefused
    · cases hrefused
    · cases hrefused with
      | loneMember hcontent =>
          exact absurd (congrArg DeclaredContent.type hcontent) (hnoMember declared hcollect d hd)
  · obtain ⟨_, _, rfl⟩ | ⟨_, rfl⟩ | ⟨_, rfl⟩ := he <;> obtain heq | heq := heq <;> cases heq

/-- Nothing is refused any more once declarations are resolved, other than traits that are not
defined. A shape is resolved with all its mixins, and it is no member; whatever comes out of it is a
model. So no build reports a member in a foreign container or a lone member, and a duplicate shape
only if it is declared twice. -/
theorem resolved_freezes (config : ModelConfig) {declarations : List Declaration}
    (hwritten : ∀ d ∈ declarations, d.Written) :
    (∀ declared tops, collect ∅ (withPrelude config declarations) = .ok declared →
      declared.resolveAll config.conflicts = .ok tops → ∃ m, ofShapes tops = .ok m) ∧
    (∀ declared before d after resolved,
      collect ∅ (withPrelude config declarations) = .ok declared → d ∈ declared.entries →
      declared.resolutionOrder = .ok (before ++ d.id :: after) →
      declared.resolveInOrder config.conflicts [] before = .ok resolved →
      d.type ≠ .member ∧ (d.mixinsIn resolved).map Shape.id = d.mixins) ∧
    (∀ member container,
      build config declarations ≠ .error (.foreignMember member container)) ∧
    (∀ shape, build config declarations = .error (.duplicateShape shape) →
      collect ∅ (withPrelude config declarations) = .error (.duplicateShape shape)) ∧
    ∀ shape, build config declarations ≠ .error (.invalidDefinition shape .loneMember) := by
  have hnoMember (declared : Declarations)
      (hcollect : collect ∅ (withPrelude config declarations) = .ok declared) :
      ∀ d ∈ declared.entries, d.type ≠ .member := by
    intro d hd
    have hd' : d.Written :=
      forall_of_collect (fun _ => Declaration.written_of_mem_prelude) hwritten hcollect d hd
    exact hd'.type_ne_member (admissible_of_mem_collect hcollect hd)
  refine ⟨fun declared tops => exists_ofShapes_of_resolveAll, ?_, ?_, ?_, ?_⟩
  · intro declared before d after resolved hcollect hd horder hbefore
    have hsound := Declarations.isResolutionOrder_of_resolutionOrder horder
    exact ⟨hnoMember declared hcollect d hd,
      hsound.mixinsResolved before d after rfl hd config.conflicts resolved hbefore⟩
  · intro member container h
    have hfails := collect_eq_error_of_build hnoMember h (.inl ⟨member, container, rfl⟩)
    obtain ⟨_, _, heq⟩ | ⟨_, heq⟩ | ⟨_, heq⟩ := collect_eq_error hfails <;> cases heq
  · intro shape h
    exact collect_eq_error_of_build hnoMember h (.inr (.inl ⟨shape, rfl⟩))
  · intro shape h
    have hfails := collect_eq_error_of_build hnoMember h (.inr (.inr ⟨shape, rfl⟩))
    obtain ⟨_, _, heq⟩ | ⟨_, heq⟩ | ⟨_, heq⟩ := collect_eq_error hfails <;> cases heq

theorem written_of_mem_heirs {d : Declaration} (hd : d ∈ heirs) : d.Written := by
  simp only [heirs, List.mem_cons, List.not_mem_nil, or_false] at hd
  rcases hd with rfl | rfl | rfl
  · exact .simple _ _
  · exact ((Declaration.Written.new _ _).add _).add _
  · exact ((Declaration.Written.new _ _).add _).add _

theorem resolved_freezes_heirs :
    (∀ d ∈ heirs ++ heirs, d.Written) ∧
    (∃ declared tops m, collect ∅ heirs = .ok declared ∧
      declared.resolveAll .error = .ok tops ∧ ofShapes tops = .ok m) ∧
    ∃ shape, build ⟨.error, false, false⟩ (heirs ++ heirs) = .error (.duplicateShape shape) ∧
      collect ∅ (heirs ++ heirs) = .error (.duplicateShape shape) := by
  have hwritten : ∀ d ∈ heirs ++ heirs, d.Written := fun d hd =>
    written_of_mem_heirs ((List.mem_append.mp hd).elim id id)
  refine ⟨hwritten, ?_, ?_⟩
  · have hresolves : ((collect ∅ heirs).bind (Declarations.resolveAll .error)).isOk = true := by
      change ((collect ∅ heirs).bind fun declared => declared.resolveAll .error).isOk = true
      simp only [Declarations.resolveAll, Declarations.resolutionOrder, DepthFirst.order_eq_workFor]
      decide +kernel
    obtain ⟨tops, h⟩ := exists_eq_ok_of_isOk hresolves
    cases hcollect : collect ∅ heirs with
    | error e =>
        rw [hcollect] at h
        cases h
    | ok declared =>
        rw [hcollect] at h
        have hfreezes := (resolved_freezes ⟨.error, false, false⟩
          fun d hd => written_of_mem_heirs hd).1 declared tops hcollect h
        obtain ⟨m, hm⟩ := hfreezes
        exact ⟨declared, tops, m, rfl, h, hm⟩
  · have hbuild : build ⟨.error, false, false⟩ (heirs ++ heirs) =
        .error (.duplicateShape ⟨"a", "T", none⟩) := rfl
    exact ⟨_, hbuild, (resolved_freezes _ hwritten).2.2.2.1 _ hbuild⟩

end Model

end SchemaQuery
