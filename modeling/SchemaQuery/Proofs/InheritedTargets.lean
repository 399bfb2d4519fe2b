import Mathlib.Data.List.Nodup
import SchemaQuery.Proofs.EffectiveMembers

namespace SchemaQuery

def firstTarget? (name : String) (members : List Member) : Option ShapeId :=
  (membersNamed name members).head?.map Member.target

theorem firstTarget?_append (name : String) (members more : List Member) :
    firstTarget? name (members ++ more) =
      (firstTarget? name members).or (firstTarget? name more) := by
  rw [firstTarget?, membersNamed_append, List.head?_append, Option.map_or]
  rfl

theorem firstTarget?_nameless {m : Member} (hnone : m.id.member = none) (name : String) :
    firstTarget? name [m] = none := by
  simp [firstTarget?, membersNamed, hnone]

theorem exists_of_firstTarget?_eq_some {name : String} {members : List Member} {target : ShapeId}
    (h : firstTarget? name members = some target) :
    ∃ m ∈ members, m.id.member = some name ∧ m.target = target := by
  obtain ⟨m, hfirst, rfl⟩ := Option.map_eq_some_iff.mp h
  obtain ⟨hm, hname⟩ := List.mem_filter.mp (List.mem_of_head? hfirst)
  exact ⟨m, hm, of_decide_eq_true hname, rfl⟩

/-- One of the members has another target than the first one with its name, which is inherited
earlier or comes before it. -/
def ClashesWith (inherited members : List Member) (name : String) (target earlier : ShapeId) :
    Prop :=
  ∃ before m after, members = before ++ m :: after ∧ m.id.member = some name ∧
    m.target = target ∧ firstTarget? name (inherited ++ before) = some earlier ∧ target ≠ earlier

theorem ClashesWith.cons {inherited members : List Member} {m : Member} {name : String}
    {target earlier : ShapeId}
    (h : ClashesWith (inherited ++ [m]) members name target earlier) :
    ClashesWith inherited (m :: members) name target earlier := by
  obtain ⟨before, m', after, rfl, hname, htarget, hfirst, hdiffers⟩ := h
  rw [← List.append_cons] at hfirst
  exact ⟨m :: before, m', after, rfl, hname, htarget, hfirst, hdiffers⟩

namespace EffectiveMember

def target? (name : String) (effective : List EffectiveMember) : Option ShapeId :=
  (effective.find? fun e => e.name = name).map target

theorem target?_cons_self (e : EffectiveMember) (rest : List EffectiveMember) :
    target? e.name (e :: rest) = some e.target := by
  simp [target?]

theorem target?_cons_of_ne {e : EffectiveMember} {name : String} (h : e.name ≠ name)
    (rest : List EffectiveMember) : target? name (e :: rest) = target? name rest := by
  simp [target?, h]

/-- What a step of merging may do to the effective members: a name that they do not have yet is
added at their end, and all others keep their targets. -/
structure Adds (name : String) (new : ShapeId) (effective result : List EffectiveMember) :
    Prop where
  targets : ∀ other, target? other result =
    (target? other effective).or (if name = other then some new else none)
  names : result.map EffectiveMember.name =
    if name ∈ effective.map EffectiveMember.name then effective.map EffectiveMember.name
    else effective.map EffectiveMember.name ++ [name]

namespace Adds

variable {name : String} {new : ShapeId} {effective result rest : List EffectiveMember}
variable {e : EffectiveMember}

theorem nil (e : EffectiveMember) : Adds e.name e.target [] [e] where
  targets := by
    intro other
    by_cases h : e.name = other <;> simp [target?, h]
  names := rfl

theorem cons (hne : e.name ≠ name) (h : Adds name new rest result) :
    Adds name new (e :: rest) (e :: result) where
  targets := by
    intro other
    by_cases hother : e.name = other
    · subst hother
      rw [target?_cons_self, target?_cons_self, Option.some_or]
    · rw [target?_cons_of_ne hother, target?_cons_of_ne hother, h.targets]
  names := by
    have hmem : name ∈ (e :: rest).map EffectiveMember.name ↔
        name ∈ rest.map EffectiveMember.name := by
      rw [List.map_cons, List.mem_cons, or_iff_right hne.symm]
    rw [List.map_cons, h.names]
    simp only [hmem]
    split <;> rfl

theorem head (e e' : EffectiveMember) (hname : e'.name = e.name) (htarget : e'.target = e.target)
    (new : ShapeId) : Adds e.name new (e :: rest) (e' :: rest) where
  targets := by
    intro other
    by_cases hother : e.name = other
    · subst hother
      rw [target?_cons_self, ← hname, target?_cons_self, htarget, Option.some_or]
    · rw [target?_cons_of_ne hother, target?_cons_of_ne (hname ▸ hother), if_neg hother,
        Option.or_none]
  names := by simp [hname]

theorem nodup (h : Adds name new effective result)
    (hnodup : (effective.map EffectiveMember.name).Nodup) :
    (result.map EffectiveMember.name).Nodup := by
  rw [h.names]
  split
  · exact hnodup
  next hnew =>
    rw [List.nodup_append_comm, List.singleton_append, List.nodup_cons]
    exact ⟨hnew, hnodup⟩

end Adds

variable {policy : ConflictPolicy} {shape mixin : ShapeId} {name : String} {m : Member}
variable {l : MemberDeclaration} {effective result : List EffectiveMember} {failure : ModelError}

theorem adds_of_inherit (h : inherit policy shape mixin name m effective = .ok result) :
    Adds name m.target effective result := by
  induction effective generalizing result with
  | nil =>
      cases h
      exact Adds.nil ⟨name, m.target, m.traits, [m.id]⟩
  | cons e rest ih =>
      unfold inherit at h
      split at h
      next hname =>
        subst hname
        split at h
        · cases h
          exact .head e (e.absorb m) rfl rfl m.target
        · split at h
          · cases h
          · cases h
            exact .head e e rfl rfl m.target
      next hne =>
        obtain ⟨later, hlater, rfl⟩ := map_eq_ok_iff.mp h
        exact .cons hne (ih hlater)

theorem target?_of_inherit_eq_error
    (h : inherit policy shape mixin name m effective = .error failure) :
    policy = .error ∧ ∃ earlier, target? name effective = some earlier ∧ m.target ≠ earlier ∧
      failure = .conflict shape name (.betweenMixins mixin m.target earlier) := by
  induction effective with
  | nil => cases h
  | cons e rest ih =>
      unfold inherit at h
      split at h
      next hname =>
        subst hname
        split at h
        · cases h
        next hdiffers =>
        split at h
        · cases h
          exact ⟨rfl, e.target, target?_cons_self e rest, Ne.symm hdiffers, rfl⟩
        · cases h
      next hne =>
        rw [map_eq_error_iff] at h
        rw [target?_cons_of_ne hne]
        exact ih h

theorem adds_of_declare (h : declare shape l effective = .ok result) :
    Adds l.name l.target effective result := by
  induction effective generalizing result with
  | nil =>
      cases h
      exact Adds.nil ⟨l.name, l.target, l.traits, []⟩
  | cons e rest ih =>
      unfold declare at h
      split at h
      next hname =>
        rw [← hname]
        split at h
        · cases h
          exact .head e (e.refine l) rfl rfl l.target
        · cases h
      next hne =>
        obtain ⟨later, hlater, rfl⟩ := map_eq_ok_iff.mp h
        exact .cons hne (ih hlater)

theorem target?_of_declare_eq_error (h : declare shape l effective = .error failure) :
    ∃ inherited, target? l.name effective = some inherited ∧ l.target ≠ inherited ∧
      failure = .conflict shape l.name (.withLocal l.target inherited) := by
  induction effective with
  | nil => cases h
  | cons e rest ih =>
      unfold declare at h
      split at h
      next hname =>
        split at h
        · cases h
        next hdiffers =>
        cases h
        rw [← hname]
        exact ⟨e.target, target?_cons_self e rest, Ne.symm hdiffers, rfl⟩
      next hne =>
        rw [map_eq_error_iff] at h
        rw [target?_cons_of_ne hne]
        exact ih h

structure Heads (effective : List EffectiveMember) (inherited : List Member) : Prop where
  targets : ∀ name, target? name effective = firstTarget? name inherited
  nodup : (effective.map EffectiveMember.name).Nodup

namespace Heads

variable {inherited members : List Member} {mixins : List Shape}

theorem nil : Heads [] [] where
  targets := fun _ => rfl
  nodup := List.nodup_nil

theorem inherit (h : Heads effective inherited) (hname : m.id.member = some name)
    (hresult : EffectiveMember.inherit policy shape mixin name m effective = .ok result) :
    Heads result (inherited ++ [m]) where
  targets := by
    intro other
    rw [(adds_of_inherit hresult).targets, h.targets, firstTarget?_append]
    by_cases hother : name = other <;> simp [firstTarget?, membersNamed, hname, hother]
  nodup := (adds_of_inherit hresult).nodup h.nodup

theorem nameless (h : Heads effective inherited) (hnone : m.id.member = none) :
    Heads effective (inherited ++ [m]) where
  targets := by
    intro other
    rw [h.targets, firstTarget?_append, firstTarget?_nameless hnone, Option.or_none]
  nodup := h.nodup

theorem inheritAll (h : Heads effective inherited)
    (hresult : EffectiveMember.inheritAll policy shape mixin effective members = .ok result) :
    Heads result (inherited ++ members) := by
  induction members generalizing effective inherited with
  | nil =>
      cases hresult
      rw [List.append_nil]
      exact h
  | cons m rest ih =>
      rw [List.append_cons]
      unfold EffectiveMember.inheritAll at hresult
      split at hresult
      next hnone => exact ih (h.nameless hnone) hresult
      next name hname =>
        split at hresult
        · cases hresult
        next next hnext => exact ih (h.inherit hname hnext) hresult

theorem inheritFrom (h : Heads effective inherited)
    (hresult : EffectiveMember.inheritFrom policy shape effective mixins = .ok result) :
    Heads result (inherited ++ mixins.flatMap Shape.members) := by
  induction mixins generalizing effective inherited with
  | nil =>
      cases hresult
      rw [List.flatMap_nil, List.append_nil]
      exact h
  | cons mixin rest ih =>
      rw [List.flatMap_cons, ← List.append_assoc]
      unfold EffectiveMember.inheritFrom at hresult
      split at hresult
      · cases hresult
      next next hnext => exact ih (h.inheritAll hnext) hresult

end Heads

theorem exists_clash_of_inheritAll {inherited members : List Member}
    (hheads : Heads effective inherited)
    (h : inheritAll policy shape mixin effective members = .error failure) :
    policy = .error ∧ ∃ name target earlier, ClashesWith inherited members name target earlier ∧
      failure = .conflict shape name (.betweenMixins mixin target earlier) := by
  induction members generalizing effective inherited with
  | nil => cases h
  | cons m rest ih =>
      unfold inheritAll at h
      split at h
      next hnone =>
        obtain ⟨hpolicy, name, target, earlier, hclash, hfailure⟩ :=
          ih (hheads.nameless hnone) h
        exact ⟨hpolicy, name, target, earlier, hclash.cons, hfailure⟩
      next name hname =>
        split at h
        next hfails =>
          cases h
          obtain ⟨hpolicy, earlier, hearlier, hdiffers, hfailure⟩ :=
            target?_of_inherit_eq_error hfails
          rw [hheads.targets, ← List.append_nil inherited] at hearlier
          exact ⟨hpolicy, name, m.target, earlier,
            ⟨[], m, rest, rfl, hname, rfl, hearlier, hdiffers⟩, hfailure⟩
        next next hnext =>
          obtain ⟨hpolicy, name, target, earlier, hclash, hfailure⟩ :=
            ih (hheads.inherit hname hnext) h
          exact ⟨hpolicy, name, target, earlier, hclash.cons, hfailure⟩

theorem exists_clash_of_inheritFrom {inherited : List Member} {mixins : List Shape}
    (hheads : Heads effective inherited)
    (h : inheritFrom policy shape effective mixins = .error failure) :
    policy = .error ∧ ∃ before second after name target earlier,
      mixins = before ++ second :: after ∧
      ClashesWith (inherited ++ before.flatMap Shape.members) second.members name target
        earlier ∧
      failure = .conflict shape name (.betweenMixins second.id target earlier) := by
  induction mixins generalizing effective inherited with
  | nil => cases h
  | cons mixin rest ih =>
      unfold inheritFrom at h
      split at h
      next hfails =>
        cases h
        obtain ⟨hpolicy, name, target, earlier, hclash, hfailure⟩ :=
          exists_clash_of_inheritAll hheads hfails
        rw [← List.append_nil inherited] at hclash
        exact ⟨hpolicy, [], mixin, rest, name, target, earlier, rfl, hclash, hfailure⟩
      next next hnext =>
        obtain ⟨hpolicy, before, second, after, name, target, earlier, rfl, hclash, hfailure⟩ :=
          ih (hheads.inheritAll hnext) h
        rw [List.append_assoc, ← List.flatMap_cons] at hclash
        exact ⟨hpolicy, mixin :: before, second, after, name, target, earlier, rfl, hclash,
          hfailure⟩

theorem exists_of_declareAll_eq_conflict {seen : List String} {locals : List MemberDeclaration}
    {inherited : String → Option ShapeId} {conflict : MemberConflict}
    (htargets : ∀ name, name ∉ seen → target? name effective = inherited name)
    (h : declareAll shape seen effective locals = .error (.conflict mixin name conflict)) :
    mixin = shape ∧ ∃ l ∈ locals, l.name = name ∧ ∃ target, inherited name = some target ∧
      l.target ≠ target ∧ conflict = .withLocal l.target target := by
  induction locals generalizing seen effective with
  | nil => cases h
  | cons l rest ih =>
      unfold declareAll at h
      split at h
      · cases h
      next hnew =>
      split at h
      next hfails =>
        cases h
        obtain ⟨target, htarget, hdiffers, hfailure⟩ := target?_of_declare_eq_error hfails
        cases hfailure
        rw [htargets l.name hnew] at htarget
        exact ⟨rfl, l, List.mem_cons_self, rfl, target, htarget, hdiffers, rfl⟩
      next next hnext =>
        -- declared names differ, so those still to come have the targets that they inherit
        have hkeeps : ∀ name, name ∉ l.name :: seen → target? name next = inherited name := by
          intro name hname
          rw [List.mem_cons, not_or] at hname
          rw [(adds_of_declare hnext).targets, htargets name hname.2, if_neg (Ne.symm hname.1),
            Option.or_none]
        obtain ⟨hshape, l', hl', hrest⟩ := ih hkeeps h
        exact ⟨hshape, l', List.mem_cons_of_mem l hl', hrest⟩

theorem nodup_of_declareAll {seen : List String} {locals : List MemberDeclaration}
    (hnodup : (effective.map EffectiveMember.name).Nodup)
    (h : declareAll shape seen effective locals = .ok result) :
    (result.map EffectiveMember.name).Nodup := by
  induction locals generalizing seen effective with
  | nil =>
      cases h
      exact hnodup
  | cons l rest ih =>
      unfold declareAll at h
      split at h
      · cases h
      split at h
      · cases h
      next next hnext => exact ih ((adds_of_declare hnext).nodup hnodup) h

theorem nodup_of_all {d : Declaration} {mixins : List Shape}
    (h : all policy d mixins = .ok result) : (result.map EffectiveMember.name).Nodup := by
  unfold all at h
  split at h
  · cases h
  next inherited hinherited =>
  exact nodup_of_declareAll (Heads.nil.inheritFrom hinherited).nodup h

end EffectiveMember

end SchemaQuery
