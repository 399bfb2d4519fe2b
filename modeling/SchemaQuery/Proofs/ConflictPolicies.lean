import SchemaQuery.Proofs.ResolutionErrors
import SchemaQuery.Proofs.ResolvedMembers

namespace SchemaQuery

namespace EffectiveMember

variable {shape mixin : ShapeId} {name : String} {m : Member} {members : List Member}
variable {effective result : List EffectiveMember} {d : Declaration} {mixins : List Shape}

theorem inherit_firstWins (h : inherit .error shape mixin name m effective = .ok result) :
    inherit .firstWins shape mixin name m effective = .ok result := by
  induction effective generalizing result with
  | nil => exact h
  | cons e rest ih =>
      unfold inherit at h ⊢
      split at h
      next hname =>
        split at h
        next htarget => rw [if_pos hname, if_pos htarget, h]
        · cases h
      next hne =>
        obtain ⟨later, hlater, rfl⟩ := map_eq_ok_iff.mp h
        rw [if_neg hne, ih hlater]
        rfl

theorem inheritAll_firstWins (h : inheritAll .error shape mixin effective members = .ok result) :
    inheritAll .firstWins shape mixin effective members = .ok result := by
  induction members generalizing effective with
  | nil => exact h
  | cons m rest ih =>
      unfold inheritAll at h ⊢
      split at h
      next => exact ih h
      next name hname =>
        split at h
        · cases h
        next next hnext =>
          rw [inherit_firstWins hnext]
          exact ih h

theorem inheritFrom_firstWins (h : inheritFrom .error shape effective mixins = .ok result) :
    inheritFrom .firstWins shape effective mixins = .ok result := by
  induction mixins generalizing effective with
  | nil => exact h
  | cons mixin rest ih =>
      unfold inheritFrom at h ⊢
      split at h
      · cases h
      next next hnext =>
        rw [inheritAll_firstWins hnext]
        exact ih h

theorem all_firstWins (h : all .error d mixins = .ok result) :
    all .firstWins d mixins = .ok result := by
  unfold all at h ⊢
  split at h
  · cases h
  next inherited hinherited =>
    rw [inheritFrom_firstWins hinherited]
    exact h

end EffectiveMember

/-- A mixin has a member with another target than the member of that name of an earlier one. -/
def MixinsDisagree (mixins : List Shape) (name : String) (mixin target earlier : ShapeId) : Prop :=
  ∃ before first between second after,
    mixins = before ++ first :: between ++ second :: after ∧ second.id = mixin ∧
    first.id ≠ second.id ∧ target ≠ earlier ∧
    (∃ m ∈ first.members, m.id.member = some name ∧ m.target = earlier) ∧
    ∃ m ∈ second.members, m.id.member = some name ∧ m.target = target

theorem mixinsDisagree_of_clashesWith {before after : List Shape} {second : Shape}
    (hids : ∀ first ∈ before, first.id = second.id → first = second)
    (hnames : (second.members.map fun m => m.id.member).Nodup) {name : String}
    {target earlier : ShapeId}
    (h : ClashesWith (before.flatMap Shape.members) second.members name target earlier) :
    MixinsDisagree (before ++ second :: after) name second.id target earlier := by
  obtain ⟨earlierMembers, m, laterMembers, hmembers, hname, htarget, hfirst, hdiffers⟩ := h
  obtain ⟨m', hm', hname', htarget'⟩ := exists_of_firstTarget?_eq_some hfirst
  have hm : m ∈ second.members := by simp [hmembers]
  have hother : m' ∉ earlierMembers := by
    intro hmem
    rw [hmembers, List.map_append, List.nodup_append'] at hnames
    refine hnames.2.2 (List.mem_map_of_mem hmem) ?_
    rw [hname', ← hname, List.map_cons]
    exact List.mem_cons_self
  obtain ⟨first, hfirst, hmem⟩ :=
    List.mem_flatMap.mp ((List.mem_append.mp hm').resolve_right hother)
  obtain ⟨before, between, rfl⟩ := List.append_of_mem hfirst
  have hne : first.id ≠ second.id := by
    intro hid
    obtain rfl := hids first hfirst hid
    have hsame : m' = m := List.inj_on_of_nodup_map hnames hmem hm (hname'.trans hname.symm)
    rw [hsame, htarget] at htarget'
    exact hdiffers htarget'
  refine ⟨before, first, between, second, after, ?_, rfl, hne, hdiffers,
    ⟨m', hmem, hname', htarget'⟩, ⟨m, hm, hname, htarget⟩⟩
  rw [List.append_assoc, List.cons_append]

namespace Declaration

variable {policy : ConflictPolicy} {d : Declaration} {mixins : List Shape} {shape : Shape}
variable {failure : ModelError} {owner : ShapeId} {name : String} {conflict : MemberConflict}

theorem resolve_firstWins (h : d.resolve .error mixins = .ok shape) :
    d.resolve .firstWins mixins = .ok shape := by
  obtain ⟨members, htraits, hall, hrest⟩ := resolve_eq_ok_iff.mp h
  exact resolve_eq_ok_iff.mpr ⟨members, htraits, EffectiveMember.all_firstWins hall, hrest⟩

theorem nodup_members_of_resolve (h : d.resolve policy mixins = .ok shape) :
    (shape.members.map fun m => m.id.member).Nodup := by
  obtain ⟨effective, -, hall, -, hcontent, -⟩ := resolve_eq_ok_iff.mp h
  obtain ⟨-, -, hmembers⟩ := of_resolveContent hcontent
  unfold Shape.members
  split
  next type members heq =>
    have hnodup := (EffectiveMember.nodup_of_all hall).map (Option.some_injective String)
    rw [List.map_map] at hnodup
    rw [hmembers type members heq, List.map_map]
    exact hnodup
  next => exact List.nodup_nil

theorem exists_of_resolve_eq_conflict
    (h : d.resolve policy mixins = .error (.conflict owner name conflict)) :
    policy = .error ∨ owner = d.id ∧ ∃ l ∈ d.members, l.name = name ∧ ∃ inherited,
      firstTarget? name (mixins.flatMap Shape.members) = some inherited ∧
      l.target ≠ inherited ∧ conflict = .withLocal l.target inherited := by
  unfold resolve at h
  split at h
  next hfails =>
    cases h
    obtain ⟨flaw, heq⟩ | ⟨mixin, entry, heq⟩ :=
      EffectiveTraits.inherited_eq_error (map_eq_error_iff.mp hfails) <;> cases heq
  split at h
  next hfails =>
    cases h
    unfold EffectiveMember.all at hfails
    split at hfails
    next hinherit =>
      exact .inl (EffectiveMember.exists_clash_of_inheritFrom .nil hinherit).1
    next effective hinherit =>
      have hheads := EffectiveMember.Heads.nil.inheritFrom hinherit
      exact .inr (EffectiveMember.exists_of_declareAll_eq_conflict
        (fun name _ => hheads.targets name) hfails)
  split at h
  next hfails =>
    cases h
    obtain ⟨type, expected, found, heq⟩ := EffectiveMember.checkNames_eq_error hfails
    cases heq
  next =>
    obtain ⟨flaw, heq⟩ | ⟨-, heq⟩ := resolveContent_eq_error (map_eq_error_iff.mp h) <;> cases heq

theorem exists_mixinsDisagree_of_resolve
    (hids : ∀ first ∈ mixins, ∀ second ∈ mixins, first.id = second.id → first = second)
    (hnames : ∀ mixin ∈ mixins, (mixin.members.map fun m => m.id.member).Nodup)
    (hfirst : d.resolve .firstWins mixins = .ok shape)
    (h : d.resolve .error mixins = .error failure) :
    ∃ name mixin target earlier,
      failure = .conflict d.id name (.betweenMixins mixin target earlier) ∧
      MixinsDisagree mixins name mixin target earlier := by
  obtain ⟨members, htraits, hall, hmembers, hcontent, -⟩ := resolve_eq_ok_iff.mp hfirst
  have hinherit : EffectiveMember.inheritFrom .error d.id [] mixins = .error failure := by
    cases hinherited : EffectiveMember.inheritFrom .error d.id [] mixins with
    | error e =>
        simp only [resolve, htraits, EffectiveMember.all, hinherited] at h
        cases h
        rfl
    | ok effective =>
        -- whatever comes after inheriting is the same under both policies
        have hsame : EffectiveMember.all .error d mixins =
            EffectiveMember.all .firstWins d mixins := by
          rw [EffectiveMember.all, EffectiveMember.all, hinherited,
            EffectiveMember.inheritFrom_firstWins hinherited]
        simp only [resolve, htraits, hsame, hall, hmembers, hcontent, Except.map] at h
        cases h
  obtain ⟨-, before, second, after, name, target, earlier, rfl, hclash, rfl⟩ :=
    EffectiveMember.exists_clash_of_inheritFrom .nil hinherit
  refine ⟨name, second.id, target, earlier, rfl, mixinsDisagree_of_clashesWith ?_ ?_ hclash⟩
  · intro first hmem hid
    exact hids first (List.mem_append_left _ hmem) second (by simp) hid
  · exact hnames second (by simp)

end Declaration

namespace Declarations

variable {policy : ConflictPolicy} {declared : Declarations} {failure : ModelError}
variable {owner : ShapeId} {name : String} {conflict : MemberConflict}

theorem resolutionOrder_ne_conflict :
    declared.resolutionOrder ≠ .error (.conflict owner name conflict) := by
  intro h
  cases ofMixins_of_resolutionOrder h

theorem resolveInOrder_firstWins {order : List ShapeId} {resolved shapes : List Shape}
    (h : declared.resolveInOrder .error resolved order = .ok shapes) :
    declared.resolveInOrder .firstWins resolved order = .ok shapes := by
  induction order generalizing resolved with
  | nil => exact h
  | cons id rest ih =>
      unfold resolveInOrder at h ⊢
      split at h
      next hnone =>
        exact ih h
      next d hfind =>
        dsimp only at h ⊢
        split at h
        · cases h
        next new hnew =>
          rw [Declaration.resolve_firstWins hnew]
          exact ih h

theorem resolveAll_firstWins {shapes : List Shape} (h : declared.resolveAll .error = .ok shapes) :
    declared.resolveAll .firstWins = .ok shapes := by
  unfold resolveAll at h ⊢
  split at h
  · cases h
  next order horder => exact resolveInOrder_firstWins h

theorem exists_of_resolveInOrder_eq_error {order : List ShapeId} {resolved : List Shape}
    (h : declared.resolveInOrder policy resolved order = .error failure) :
    ∃ before, ∃ d ∈ declared.entries, ∃ after earlier, order = before ++ d.id :: after ∧
      declared.resolveInOrder policy resolved before = .ok earlier ∧
      d.resolve policy (d.mixinsIn earlier) = .error failure := by
  induction order generalizing resolved with
  | nil => cases h
  | cons id rest ih =>
      unfold resolveInOrder at h
      split at h
      next hnone =>
        obtain ⟨before, d, hd, after, earlier, rfl, hbefore, hfails⟩ := ih h
        refine ⟨id :: before, d, hd, after, earlier, rfl, ?_, hfails⟩
        rw [resolveInOrder, hnone]
        exact hbefore
      next d hfind =>
        obtain ⟨hd, rfl⟩ := Sorted.find?_eq_some_iff.mp hfind
        dsimp only at h
        split at h
        next hfails =>
          cases h
          exact ⟨[], d, hd, rest, resolved, rfl, rfl, hfails⟩
        next new hnew =>
          obtain ⟨before, d', hd', after, earlier, rfl, hbefore, hfails⟩ := ih h
          refine ⟨d.id :: before, d', hd', after, earlier, rfl, ?_, hfails⟩
          rw [resolveInOrder_cons hd, Declaration.mixinsIn, hnew]
          exact hbefore

theorem resolutionOrder_ne_error {shapes : List Shape}
    (h : declared.resolveAll policy = .ok shapes) : declared.resolutionOrder ≠ .error failure := by
  intro hfails
  rw [resolveAll, hfails] at h
  cases h

theorem exists_of_resolveAll_eq_error (horder : declared.resolutionOrder ≠ .error failure)
    (h : declared.resolveAll policy = .error failure) :
    ∃ before, ∃ d ∈ declared.entries, ∃ after earlier,
      declared.resolutionOrder = .ok (before ++ d.id :: after) ∧
      declared.resolveInOrder policy [] before = .ok earlier ∧
      d.resolve policy (d.mixinsIn earlier) = .error failure := by
  unfold resolveAll at h
  split at h
  next hfails =>
    cases h
    exact absurd hfails horder
  next order heq =>
    obtain ⟨before, d, hd, after, earlier, rfl, hbefore, hfails⟩ :=
      exists_of_resolveInOrder_eq_error h
    exact ⟨before, d, hd, after, earlier, heq, hbefore, hfails⟩

theorem resolve_of_resolveAll {shapes resolved : List Shape} {before after : List ShapeId}
    {d : Declaration} (h : declared.resolveAll policy = .ok shapes) (hd : d ∈ declared.entries)
    (horder : declared.resolutionOrder = .ok (before ++ d.id :: after))
    (hbefore : declared.resolveInOrder policy [] before = .ok resolved) :
    d.mixinsIn shapes = d.mixinsIn resolved ∧
      ∃ shape, d.resolve policy (d.mixinsIn shapes) = .ok shape := by
  have hyields := yields_of_resolveAll h
  have hmixins : (d.mixinsIn resolved).map Shape.id = d.mixins :=
    (isResolutionOrder_of_resolutionOrder horder).mixinsResolved before d after rfl hd policy
      resolved hbefore
  rw [resolveAll, horder] at h
  dsimp only at h
  rw [resolveInOrder_append, hbefore] at h
  obtain ⟨shape, -, hshape⟩ := hyields.resolve d hd
  refine ⟨Declaration.mixinsIn_eq hyields.nodup ?_ hmixins, shape, hshape⟩
  intro mixin hmixin
  exact mem_of_resolveInOrder h (Declaration.mem_of_mem_mixinsIn hmixin)

/-- The first mixin winning changes nothing unless mixins disagree, and what is then an error is
their conflict. Only members that are declared can still be in conflict, with the member that their
shape inherits first. -/
theorem resolveAll_under_policies (declared : Declarations) :
    (∀ shapes, declared.resolveAll .error = .ok shapes →
      declared.resolveAll .firstWins = .ok shapes) ∧
    (∀ shapes failure, declared.resolveAll .firstWins = .ok shapes →
      declared.resolveAll .error = .error failure →
      ∃ d ∈ declared.entries, ∃ name mixin target earlier,
        failure = .conflict d.id name (.betweenMixins mixin target earlier) ∧
        MixinsDisagree (d.mixinsIn shapes) name mixin target earlier) ∧
    (∀ owner name conflict,
      declared.resolveAll .firstWins = .error (.conflict owner name conflict) →
      ∃ before, ∃ d ∈ declared.entries, ∃ after resolved,
        declared.resolutionOrder = .ok (before ++ d.id :: after) ∧
        declared.resolveInOrder .firstWins [] before = .ok resolved ∧ d.id = owner ∧
        ∃ l ∈ d.members, l.name = name ∧ ∃ inherited,
          firstTarget? name ((d.mixinsIn resolved).flatMap Shape.members) = some inherited ∧
          l.target ≠ inherited ∧ conflict = .withLocal l.target inherited) := by
  refine ⟨fun shapes => resolveAll_firstWins, ?_, ?_⟩
  · intro shapes failure hfirst h
    obtain ⟨before, d, hd, after, resolved, horder, hbefore, hfails⟩ :=
      exists_of_resolveAll_eq_error (resolutionOrder_ne_error hfirst) h
    have hyields := yields_of_resolveAll hfirst
    obtain ⟨hmixins, shape, hshape⟩ :=
      resolve_of_resolveAll hfirst hd horder (resolveInOrder_firstWins hbefore)
    rw [← hmixins] at hfails
    refine ⟨d, hd, Declaration.exists_mixinsDisagree_of_resolve ?_ ?_ hshape hfails⟩
    · intro first hfirst second hsecond hid
      exact List.inj_on_of_nodup_map hyields.nodup (Declaration.mem_of_mem_mixinsIn hfirst)
        (Declaration.mem_of_mem_mixinsIn hsecond) hid
    · intro mixin hmixin
      obtain ⟨d', -, hresolve⟩ :=
        hyields.exists_declaration (Declaration.mem_of_mem_mixinsIn hmixin)
      exact Declaration.nodup_members_of_resolve hresolve
  · intro owner name conflict h
    obtain ⟨before, d, hd, after, resolved, horder, hbefore, hfails⟩ :=
      exists_of_resolveAll_eq_error resolutionOrder_ne_conflict h
    obtain hpolicy | ⟨rfl, hlocal⟩ := Declaration.exists_of_resolve_eq_conflict hfails
    · cases hpolicy
    · exact ⟨before, d, hd, after, resolved, horder, hbefore, rfl, hlocal⟩

def overridden : Declarations :=
  .ofList [
    ((Declaration.structure ⟨"a", "M", none⟩).annotate .mixinMarker).withMember "x"
      ⟨"a", "T", none⟩,
    ((Declaration.structure ⟨"a", "S", none⟩).add (.mixin ⟨"a", "M", none⟩)).withMember "x"
      ⟨"a", "U", none⟩]

theorem resolveAll_under_policies_kite_overridden :
    (∃ shapes, resolveAll .error (kite.erase kiteTail.id) = .ok shapes ∧
      resolveAll .firstWins (kite.erase kiteTail.id) = .ok shapes) ∧
    (∃ shapes failure, kite.resolveAll .firstWins = .ok shapes ∧
      kite.resolveAll .error = .error failure ∧
      ∃ d ∈ kite.entries, ∃ name mixin target earlier,
        failure = .conflict d.id name (.betweenMixins mixin target earlier) ∧
        MixinsDisagree (d.mixinsIn shapes) name mixin target earlier) ∧
    ∃ owner name conflict,
      overridden.resolveAll .firstWins = .error (.conflict owner name conflict) ∧
      ∃ before, ∃ d ∈ overridden.entries, ∃ after resolved,
        overridden.resolutionOrder = .ok (before ++ d.id :: after) ∧
        overridden.resolveInOrder .firstWins [] before = .ok resolved ∧ d.id = owner ∧
        ∃ l ∈ d.members, l.name = name ∧ ∃ inherited,
          firstTarget? name ((d.mixinsIn resolved).flatMap Shape.members) = some inherited ∧
          l.target ≠ inherited ∧ conflict = .withLocal l.target inherited := by
  refine ⟨?_, ?_, ?_⟩
  · have hresolves : (resolveAll .error (kite.erase kiteTail.id)).isOk = true := by
      simp only [resolveAll, resolutionOrder, DepthFirst.order_eq_workFor]
      decide +kernel
    obtain ⟨shapes, h⟩ := exists_eq_ok_of_isOk hresolves
    exact ⟨shapes, h, (resolveAll_under_policies _).1 shapes h⟩
  · have hresolves : (kite.resolveAll .firstWins).isOk = true := by
      simp only [resolveAll, resolutionOrder, DepthFirst.order_eq_workFor]
      decide +kernel
    obtain ⟨shapes, hfirst⟩ := exists_eq_ok_of_isOk hresolves
    have h : kite.resolveAll .error = .error (.conflict ⟨"a", "D", none⟩ "y"
        (.betweenMixins ⟨"a", "C", none⟩ ⟨"a", "U", none⟩ ⟨"a", "T", none⟩)) := by
      simp only [resolveAll, resolutionOrder, DepthFirst.order_eq_workFor]
      decide +kernel
    exact ⟨shapes, _, hfirst, h, (resolveAll_under_policies kite).2.1 shapes _ hfirst h⟩
  · have h : overridden.resolveAll .firstWins = .error (.conflict ⟨"a", "S", none⟩ "x"
        (.withLocal ⟨"a", "U", none⟩ ⟨"a", "T", none⟩)) := by
      simp only [resolveAll, resolutionOrder, DepthFirst.order_eq_workFor]
      decide +kernel
    exact ⟨_, _, _, h, (resolveAll_under_policies overridden).2.2 _ _ _ h⟩

end Declarations

end SchemaQuery
