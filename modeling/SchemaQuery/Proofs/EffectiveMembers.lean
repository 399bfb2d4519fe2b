import SchemaQuery.Except
import SchemaQuery.Proofs.MergedMembers

namespace SchemaQuery

namespace ShapeId

def memberNamed (shape : ShapeId) (name : String) : ShapeId :=
  { shape with member := some name }

@[simp] theorem member_memberNamed (shape : ShapeId) (name : String) :
    (shape.memberNamed name).member = some name := rfl

@[simp] theorem container_memberNamed (shape : ShapeId) (name : String) :
    (shape.memberNamed name).container = shape.container := rfl

theorem eq_memberNamed_of_withMember {shape id : ShapeId} {name : String}
    (h : shape.withMember name = .ok id) : id = shape.memberNamed name := by
  unfold withMember at h
  split at h
  · cases h
  · exact (Except.ok.inj h).symm

end ShapeId

/-- When inherited and declared members go together. -/
structure Compatible (policy : ConflictPolicy) (inherited : List Member)
    (locals : List MemberDeclaration) : Prop where
  distinct : (locals.map MemberDeclaration.name).Nodup
  keepsTarget : ∀ l ∈ locals, ∀ first, (membersNamed l.name inherited).head? = some first →
    l.target = first.target
  agree : policy = .error → ∀ name, ∀ m ∈ membersNamed name inherited,
    ∀ n ∈ membersNamed name inherited, m.target = n.target

/-- Merging yields the effective members if they go together, and fails otherwise. -/
def Settles (policy : ConflictPolicy) (inherited : List Member) (locals : List MemberDeclaration) :
    Except ModelError (List EffectiveMember) → Prop
  | .ok effective => Compatible policy inherited locals ∧ Merged inherited locals effective
  | .error _ => ¬ Compatible policy inherited locals

namespace Compatible

variable {policy : ConflictPolicy} {inherited inherited' : List Member}
variable {locals locals' : List MemberDeclaration}

theorem nil (policy : ConflictPolicy) : Compatible policy [] [] where
  distinct := List.nodup_nil
  keepsTarget := List.forall_mem_nil _
  agree := by
    intro _ name m hm
    cases hm

theorem of_prefix (h : Compatible policy inherited locals) (hinherited : inherited' <+: inherited)
    (hlocals : locals' <+: locals) : Compatible policy inherited' locals' where
  distinct := h.distinct.sublist (hlocals.sublist.map _)
  keepsTarget := by
    intro l hl first hfirst
    obtain ⟨more, rfl⟩ := hinherited
    refine h.keepsTarget l (hlocals.subset hl) first ?_
    rw [membersNamed_append, List.head?_append, hfirst, Option.some_or]
  agree := by
    intro hpolicy name m hm n hn
    have hsub : membersNamed name inherited' ⊆ membersNamed name inherited :=
      List.filter_subset _ hinherited.subset
    exact h.agree hpolicy name m (hsub hm) n (hsub hn)

theorem concat_member (h : Compatible policy inherited []) {m : Member} {name : String}
    (hname : m.id.member = some name)
    (hagree : policy = .error → ∀ n ∈ membersNamed name inherited, n.target = m.target) :
    Compatible policy (inherited ++ [m]) [] where
  distinct := List.nodup_nil
  keepsTarget := List.forall_mem_nil _
  agree := by
    intro hpolicy other n hn n' hn'
    by_cases hother : other = name
    · subst hother
      have htarget : ∀ n ∈ membersNamed other (inherited ++ [m]), n.target = m.target := by
        rw [membersNamed_concat hname, List.forall_mem_append, List.forall_mem_singleton]
        exact ⟨hagree hpolicy, rfl⟩
      rw [htarget n hn, htarget n' hn']
    · rw [(addsName_member hname inherited).members other hother] at hn hn'
      exact h.agree hpolicy other n hn n' hn'

theorem concat_nameless (h : Compatible policy inherited locals) {m : Member}
    (hnone : m.id.member = none) : Compatible policy (inherited ++ [m]) locals := by
  have hsame (name : String) :
      membersNamed name (inherited ++ [m]) = membersNamed name inherited := by
    simp [membersNamed, hnone]
  refine ⟨h.distinct, ?_, ?_⟩
  · simpa only [hsame] using h.keepsTarget
  · simpa only [hsame] using h.agree

theorem concat_declaration (h : Compatible policy inherited locals) {l : MemberDeclaration}
    (hnew : l.name ∉ locals.map MemberDeclaration.name)
    (htarget : ∀ first, (membersNamed l.name inherited).head? = some first →
      l.target = first.target) : Compatible policy inherited (locals ++ [l]) where
  distinct := by
    rw [List.map_append, List.map_singleton, List.nodup_append_comm, List.singleton_append,
      List.nodup_cons]
    exact ⟨hnew, h.distinct⟩
  keepsTarget := by
    rw [List.forall_mem_append, List.forall_mem_singleton]
    exact ⟨h.keepsTarget, htarget⟩
  agree := h.agree

end Compatible

theorem Settles.goOn {policy : ConflictPolicy} {inherited inherited' : List Member}
    {locals locals' : List MemberDeclaration} {result : Except ModelError (List EffectiveMember)}
    {next : List EffectiveMember → Except ModelError (List EffectiveMember)}
    (hinherited : inherited <+: inherited') (hlocals : locals <+: locals')
    (hnext : ∀ effective, Merged inherited locals effective → Compatible policy inherited locals →
      Settles policy inherited' locals' (next effective)) :
    Settles policy inherited locals result → Settles policy inherited' locals'
      (match result with
      | .error e => .error e
      | .ok effective => next effective) := by
  intro h
  cases result with
  | error e =>
      intro hcompatible
      exact h (hcompatible.of_prefix hinherited hlocals)
  | ok effective => exact hnext effective h.2 h.1

namespace EffectiveMember

theorem inherit_append {policy : ConflictPolicy} {shape mixin : ShapeId} {name : String}
    {m : Member} {before : List EffectiveMember} (h : name ∉ before.map EffectiveMember.name)
    (after : List EffectiveMember) :
    inherit policy shape mixin name m (before ++ after) =
      (inherit policy shape mixin name m after).map (before ++ ·) := by
  induction before with
  | nil => cases hafter : inherit policy shape mixin name m after <;> simp [hafter, Except.map]
  | cons e before ih =>
      rw [List.map_cons, List.mem_cons, not_or] at h
      have hne : ¬ e.name = name := Ne.symm h.1
      have hstep : inherit policy shape mixin name m (e :: (before ++ after)) =
          (inherit policy shape mixin name m (before ++ after)).map (e :: ·) := by
        cases policy <;> rw [inherit, if_neg hne]
      rw [List.cons_append, hstep, ih h.2]
      cases inherit policy shape mixin name m after <;> rfl

theorem declare_append {shape : ShapeId} {l : MemberDeclaration} {before : List EffectiveMember}
    (h : l.name ∉ before.map EffectiveMember.name) (after : List EffectiveMember) :
    declare shape l (before ++ after) = (declare shape l after).map (before ++ ·) := by
  induction before with
  | nil => cases hafter : declare shape l after <;> simp [hafter, Except.map]
  | cons e before ih =>
      rw [List.map_cons, List.mem_cons, not_or] at h
      rw [List.cons_append, declare, if_neg (Ne.symm h.1), ih h.2]
      cases declare shape l after <;> rfl

variable {policy : ConflictPolicy} {inherited : List Member} {locals : List MemberDeclaration}
variable {effective : List EffectiveMember}

theorem settles_inherit_again {before after : List EffectiveMember} {e : EffectiveMember}
    (hmerged : Merged inherited [] (before ++ e :: after))
    (hcompatible : Compatible policy inherited []) {m : Member} (hm : m.traits.Keyed)
    (hname : m.id.member = some e.name) (shape mixin : ShapeId) :
    Settles policy (inherited ++ [m]) []
      (inherit policy shape mixin e.name m (before ++ e :: after)) := by
  have hadds := addsName_member hname inherited
  have hnamed := membersNamed_concat hname inherited
  have hmerges : e.Merges (membersNamed e.name inherited) [] := hmerged.merges e (by simp)
  obtain ⟨first, hfirst, htarget⟩ := hmerges.head?_target
  have hfirst : first ∈ membersNamed e.name inherited := List.mem_of_head? hfirst
  rw [inherit_append hmerged.not_mem_of_nodup.1]
  -- the policy only matters where the targets differ
  by_cases hsame : m.target = e.target
  · have hstep : inherit policy shape mixin e.name m (e :: after) =
        .ok (e.absorb m :: after) := by
      cases policy <;> rw [inherit, if_pos rfl, if_pos hsame.symm]
    rw [hstep]
    refine ⟨hcompatible.concat_member hname ?_, hmerged.replace hadds rfl ?_⟩
    · intro hpolicy n hn
      rw [hsame, ← htarget]
      exact hcompatible.agree hpolicy e.name n hn first hfirst
    · rw [hnamed]
      exact hmerges.absorb hm hsame
  · cases policy with
    | error =>
        rw [inherit, if_pos rfl, if_neg (Ne.symm hsame)]
        intro h
        have hagree := h.agree rfl e.name m (by simp [hnamed]) first (by simp [hnamed, hfirst])
        exact hsame (hagree.trans htarget)
    | firstWins =>
        rw [inherit, if_pos rfl, if_neg (Ne.symm hsame)]
        refine ⟨hcompatible.concat_member hname (fun h => nomatch h),
          hmerged.replace hadds rfl ?_⟩
        rw [hnamed]
        exact hmerges.ignore hsame

theorem settles_inherit_new (hmerged : Merged inherited [] effective)
    (hcompatible : Compatible policy inherited []) {m : Member} (hm : m.traits.Keyed)
    {name : String} (hname : m.id.member = some name)
    (hnew : name ∉ effective.map EffectiveMember.name) (shape mixin : ShapeId) :
    Settles policy (inherited ++ [m]) [] (inherit policy shape mixin name m effective) := by
  have hnone : membersNamed name inherited = [] := by
    refine membersNamed_eq_nil ?_
    simpa [memberNames] using mt hmerged.mem_names_iff.mpr hnew
  rw [← List.append_nil effective, inherit_append hnew, inherit]
  refine ⟨hcompatible.concat_member hname ?_,
    hmerged.concat (addsName_member hname inherited) hnew ?_⟩
  · intro _ n hn
    rw [hnone] at hn
    cases hn
  · rw [membersNamed_concat hname, hnone]
    exact .inherit hm name

theorem settles_inherit (hmerged : Merged inherited [] effective)
    (hcompatible : Compatible policy inherited []) {m : Member} (hm : m.traits.Keyed)
    {name : String} (hname : m.id.member = some name) (shape mixin : ShapeId) :
    Settles policy (inherited ++ [m]) [] (inherit policy shape mixin name m effective) := by
  by_cases hmem : name ∈ effective.map EffectiveMember.name
  · obtain ⟨e, he, rfl⟩ := List.mem_map.mp hmem
    obtain ⟨before, after, rfl⟩ := List.append_of_mem he
    exact settles_inherit_again hmerged hcompatible hm hname shape mixin
  · exact settles_inherit_new hmerged hcompatible hm hname hmem shape mixin

theorem settles_declare_again {before after : List EffectiveMember} {e : EffectiveMember}
    (hmerged : Merged inherited locals (before ++ e :: after))
    (hcompatible : Compatible policy inherited locals) {l : MemberDeclaration}
    (hl : l.traits.Keyed) (hnew : l.name ∉ locals.map MemberDeclaration.name)
    (hname : e.name = l.name) (shape : ShapeId) :
    Settles policy inherited (locals ++ [l]) (declare shape l (before ++ e :: after)) := by
  have hadds := addsName_declaration inherited locals l
  have hnone : declaredNamed l.name locals = [] := declaredNamed_eq_nil hnew
  have hmerges := hmerged.merges e (by simp)
  rw [hname, hnone] at hmerges
  obtain ⟨first, hfirst, htarget⟩ := hmerges.head?_target
  rw [declare_append (hname ▸ hmerged.not_mem_of_nodup.1), declare, if_pos hname]
  split
  · next hsame =>
    rw [← hname] at hadds
    refine ⟨hcompatible.concat_declaration hnew ?_, hmerged.replace hadds rfl ?_⟩
    · intro found hfound
      rw [hfirst] at hfound
      cases hfound
      rw [htarget, hsame]
    · rw [hname, declaredNamed_concat, hnone]
      exact hmerges.refine hl
  · next hdiffers =>
    intro h
    have hkeeps := h.keepsTarget l (by simp) first hfirst
    exact hdiffers (htarget.symm.trans hkeeps.symm)

theorem settles_declare_new (hmerged : Merged inherited locals effective)
    (hcompatible : Compatible policy inherited locals) {l : MemberDeclaration}
    (hl : l.traits.Keyed) (hnew : l.name ∉ effective.map EffectiveMember.name) (shape : ShapeId) :
    Settles policy inherited (locals ++ [l]) (declare shape l effective) := by
  have hnames := mt hmerged.mem_names_iff.mpr hnew
  rw [memberNames, List.mem_append, not_or] at hnames
  have hmissing : membersNamed l.name inherited = [] := membersNamed_eq_nil hnames.1
  rw [← List.append_nil effective, declare_append hnew, declare]
  refine ⟨hcompatible.concat_declaration hnames.2 ?_,
    hmerged.concat (addsName_declaration inherited locals l) hnew ?_⟩
  · rw [hmissing]
    intro first hfirst
    cases hfirst
  · rw [hmissing, declaredNamed_concat, declaredNamed_eq_nil hnames.2]
    exact .declare hl l.name

theorem settles_declare (hmerged : Merged inherited locals effective)
    (hcompatible : Compatible policy inherited locals) {l : MemberDeclaration}
    (hl : l.traits.Keyed) (hnew : l.name ∉ locals.map MemberDeclaration.name) (shape : ShapeId) :
    Settles policy inherited (locals ++ [l]) (declare shape l effective) := by
  by_cases hmem : l.name ∈ effective.map EffectiveMember.name
  · obtain ⟨e, he, hname⟩ := List.mem_map.mp hmem
    obtain ⟨before, after, rfl⟩ := List.append_of_mem he
    exact settles_declare_again hmerged hcompatible hl hnew hname shape
  · exact settles_declare_new hmerged hcompatible hl hmem shape

theorem settles_inheritAll (hmerged : Merged inherited [] effective)
    (hcompatible : Compatible policy inherited []) {members : List Member}
    (hmembers : ∀ m ∈ members, m.traits.Keyed) (shape mixin : ShapeId) :
    Settles policy (inherited ++ members) [] (inheritAll policy shape mixin effective members) := by
  -- what has been merged grows by one member after the other
  induction members generalizing inherited effective with
  | nil =>
      rw [List.append_nil]
      exact ⟨hcompatible, hmerged⟩
  | cons m rest ih =>
      obtain ⟨hm, hrest⟩ := List.forall_mem_cons.mp hmembers
      rw [List.append_cons, inheritAll]
      split
      · next hnone =>
        exact ih (hmerged.concat_nameless hnone) (hcompatible.concat_nameless hnone) hrest
      next name hname =>
      have hstep := settles_inherit hmerged hcompatible hm hname shape mixin
      refine Settles.goOn (List.prefix_append _ _) List.prefix_rfl ?_ hstep
      intro effective hmerged hcompatible
      exact ih hmerged hcompatible hrest

theorem settles_inheritFrom (hmerged : Merged inherited [] effective)
    (hcompatible : Compatible policy inherited []) {mixins : List Shape}
    (hmixins : ∀ mixin ∈ mixins, ∀ m ∈ mixin.members, m.traits.Keyed) (shape : ShapeId) :
    Settles policy (inherited ++ mixins.flatMap Shape.members) []
      (inheritFrom policy shape effective mixins) := by
  induction mixins generalizing inherited effective with
  | nil =>
      rw [List.flatMap_nil, List.append_nil]
      exact ⟨hcompatible, hmerged⟩
  | cons mixin rest ih =>
      obtain ⟨hmixin, hrest⟩ := List.forall_mem_cons.mp hmixins
      rw [List.flatMap_cons, ← List.append_assoc, inheritFrom]
      have hstep := settles_inheritAll hmerged hcompatible hmixin shape mixin.id
      refine Settles.goOn (List.prefix_append _ _) List.prefix_rfl ?_ hstep
      intro effective hmerged hcompatible
      exact ih hmerged hcompatible hrest

theorem settles_declareAll (hmerged : Merged inherited locals effective)
    (hcompatible : Compatible policy inherited locals) {new : List MemberDeclaration}
    (hnew : ∀ l ∈ new, l.traits.Keyed) {seen : List String}
    (hseen : ∀ name, name ∈ seen ↔ name ∈ locals.map MemberDeclaration.name) (shape : ShapeId) :
    Settles policy inherited (locals ++ new) (declareAll shape seen effective new) := by
  induction new generalizing locals effective seen with
  | nil =>
      rw [List.append_nil]
      exact ⟨hcompatible, hmerged⟩
  | cons l rest ih =>
      obtain ⟨hl, hrest⟩ := List.forall_mem_cons.mp hnew
      rw [List.append_cons, declareAll]
      split
      · next hmem =>
        rw [hseen] at hmem
        intro h
        have hdistinct := h.distinct
        rw [← List.append_cons, List.map_append, List.nodup_append'] at hdistinct
        exact hdistinct.2.2 hmem (by simp)
      next hmem =>
      rw [hseen] at hmem
      have hstep := settles_declare hmerged hcompatible hl hmem shape
      refine Settles.goOn List.prefix_rfl (List.prefix_append _ _) ?_ hstep
      intro effective hmerged hcompatible
      refine ih hmerged hcompatible hrest ?_
      intro name
      rw [List.mem_cons, hseen, List.map_append, List.mem_append, or_comm, List.map_singleton,
        List.mem_singleton]

/-- A declaration gets its effective members exactly if what it inherits and declares goes
together. -/
theorem settles_all {d : Declaration} (hd : d.Keyed) {mixins : List Shape}
    (hmixins : ∀ mixin ∈ mixins, ∀ m ∈ mixin.members, m.traits.Keyed) :
    Settles policy (mixins.flatMap Shape.members) d.members (all policy d mixins) := by
  have hinherited := settles_inheritFrom .nil (.nil policy) hmixins d.id
  rw [List.nil_append] at hinherited
  -- the declared members are merged into what all mixins together have left
  refine Settles.goOn List.prefix_rfl List.nil_prefix ?_ hinherited
  intro effective hmerged hcompatible
  exact settles_declareAll hmerged hcompatible hd.members (fun _ => Iff.rfl) d.id

def frozen (shape : ShapeId) (e : EffectiveMember) : Member :=
  ⟨shape.memberNamed e.name, shape, e.target, e.traits, e.mixins⟩

theorem eq_of_freeze {shape : ShapeId} {members : List Member}
    (h : freeze shape effective = .ok members) : members = effective.map (frozen shape) := by
  induction effective generalizing members with
  | nil =>
      cases h
      rfl
  | cons e rest ih =>
      unfold freeze at h
      split at h
      · cases h
      next id hid =>
      obtain ⟨later, hlater, rfl⟩ := map_eq_ok_iff.mp h
      rw [ih hlater, ShapeId.eq_memberNamed_of_withMember hid]
      rfl

end EffectiveMember

end SchemaQuery
