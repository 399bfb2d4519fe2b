import SchemaQuery.Mixin.Members
import SchemaQuery.Proofs.FirstOccurrences
import SchemaQuery.Proofs.TraitLookup

namespace SchemaQuery

def membersNamed (name : String) (members : List Member) : List Member :=
  members.filter fun m => m.id.member = some name

def membersTargeting (target : ShapeId) (members : List Member) : List Member :=
  members.filter fun m => m.target = target

def declaredNamed (name : String) (locals : List MemberDeclaration) : List MemberDeclaration :=
  locals.filter fun l => l.name = name

def memberNames (inherited : List Member) (locals : List MemberDeclaration) : List String :=
  inherited.filterMap (fun m => m.id.member) ++ locals.map MemberDeclaration.name

/-- What inherited and declared members of one name become: a member with the target of the first
one, which stands for all inherited ones with that target. Of its traits those that are declared
come first, and then those of the inherited members in order. -/
structure EffectiveMember.Merges (e : EffectiveMember) (inherited : List Member)
    (locals : List MemberDeclaration) : Prop where
  target : (inherited.map Member.target ++ locals.map MemberDeclaration.target).head? =
    some e.target
  mixins : e.mixins = (membersTargeting e.target inherited).map Member.id
  trait? : ∀ trait, e.traits.find? trait =
    (locals.findSome? fun l => l.traits.find? trait).or
      ((membersTargeting e.target inherited).findSome? fun m => m.traits.find? trait)
  keyed : e.traits.Keyed

/-- The effective members: one for each name, in the order in which the names first occur. -/
structure Merged (inherited : List Member) (locals : List MemberDeclaration)
    (effective : List EffectiveMember) : Prop where
  names : effective.map EffectiveMember.name = (memberNames inherited locals).eraseDups
  merges : ∀ e ∈ effective, e.Merges (membersNamed e.name inherited) (declaredNamed e.name locals)

theorem membersTargeting_concat (target : ShapeId) (members : List Member) (m : Member) :
    membersTargeting target (members ++ [m]) =
      membersTargeting target members ++ if m.target = target then [m] else [] := by
  unfold membersTargeting
  by_cases h : m.target = target <;> simp [h]

namespace EffectiveMember

theorem addMissing_cons (traits : Traits) (t : Trait) (new : List Trait) :
    addMissing traits (t :: new) =
      addMissing (if traits.contains t.id then traits else traits.insert t) new := rfl

@[simp] theorem absorb_target (e : EffectiveMember) (m : Member) :
    (e.absorb m).target = e.target := rfl

@[simp] theorem refine_target (e : EffectiveMember) (m : MemberDeclaration) :
    (e.refine m).target = e.target := rfl

theorem find?_addMissing (traits : Traits) (new : List Trait) (id : ShapeId) :
    (addMissing traits new).find? id =
      (traits.find? id).or (new.find? fun t => t.id = id) := by
  induction new generalizing traits with
  | nil => exact Option.or_none.symm
  | cons t new ih =>
      rw [addMissing_cons, ih, List.find?_cons, Traits.contains_eq_isSome_find?]
      split
      · next hfound =>
        by_cases hid : t.id = id
        · subst hid
          obtain ⟨found, hfound⟩ := Option.isSome_iff_exists.mp hfound
          simp [hfound]
        · simp [hid]
      · next hmissing =>
        rw [Traits.find?_insert]
        by_cases hid : t.id = id
        · subst hid
          simp [Option.not_isSome_iff_eq_none.mp hmissing]
        · simp [hid]

theorem keyed_addMissing {traits : Traits} (h : traits.Keyed) (new : List Trait) :
    (addMissing traits new).Keyed := by
  induction new generalizing traits with
  | nil => exact h
  | cons t new ih =>
      rw [addMissing_cons]
      refine ih ?_
      split
      · exact h
      · exact h.insert t

namespace Merges

variable {e : EffectiveMember} {inherited : List Member} {m : Member} {l : MemberDeclaration}

theorem inherit (hm : m.traits.Keyed) (name : String) :
    (⟨name, m.target, m.traits, [m.id]⟩ : EffectiveMember).Merges [m] [] where
  target := rfl
  mixins := by simp [membersTargeting]
  trait? := by simp [membersTargeting]
  keyed := hm

theorem declare (hl : l.traits.Keyed) (name : String) :
    (⟨name, l.target, l.traits, []⟩ : EffectiveMember).Merges [] [l] where
  target := rfl
  mixins := rfl
  trait? := by simp [membersTargeting]
  keyed := hl

theorem head?_target (h : e.Merges inherited []) :
    ∃ first, inherited.head? = some first ∧ first.target = e.target := by
  have htarget := h.target
  rw [List.map_nil, List.append_nil, List.head?_map, Option.map_eq_some_iff] at htarget
  exact htarget

theorem absorb (h : e.Merges inherited []) (hm : m.traits.Keyed) (htarget : m.target = e.target) :
    (e.absorb m).Merges (inherited ++ [m]) [] where
  target := by
    have hfirst := h.target
    rw [List.map_nil, List.append_nil] at hfirst ⊢
    rw [List.map_append, List.head?_append, hfirst]
    rfl
  mixins := by
    change e.mixins ++ [m.id] = _
    rw [h.mixins, absorb_target, membersTargeting_concat, if_pos htarget, List.map_append]
    rfl
  trait? := by
    intro trait
    change (addMissing e.traits m.traits.toList).find? trait = _
    rw [find?_addMissing, h.trait?, hm.find?_toList, absorb_target, membersTargeting_concat,
      if_pos htarget, List.findSome?_append, List.findSome?_singleton]
    rfl
  keyed := keyed_addMissing h.keyed _

theorem ignore (h : e.Merges inherited []) (htarget : m.target ≠ e.target) :
    e.Merges (inherited ++ [m]) [] where
  target := by
    have hfirst := h.target
    rw [List.map_nil, List.append_nil] at hfirst ⊢
    rw [List.map_append, List.head?_append, hfirst]
    rfl
  mixins := by rw [h.mixins, membersTargeting_concat, if_neg htarget, List.append_nil]
  trait? := by
    intro trait
    rw [h.trait?, membersTargeting_concat, if_neg htarget, List.append_nil]
  keyed := h.keyed

theorem refine (h : e.Merges inherited []) (hl : l.traits.Keyed) :
    (e.refine l).Merges inherited [l] where
  target := by
    have hfirst := h.target
    rw [List.map_nil, List.append_nil] at hfirst
    rw [List.head?_append, hfirst]
    rfl
  mixins := h.mixins
  trait? := by
    intro trait
    change (e.traits.insertAll l.traits.toList).find? trait = _
    rw [Traits.find?_insertAll hl.nodup_map_id, h.trait?, hl.find?_toList, refine_target,
      List.findSome?_singleton]
    rfl
  keyed := h.keyed.insertAll _

end Merges

end EffectiveMember

section Occurrences

variable {name : String} {m : Member} {l : MemberDeclaration}

theorem membersNamed_append (name : String) (members more : List Member) :
    membersNamed name (members ++ more) = membersNamed name members ++ membersNamed name more :=
  List.filter_append members more

theorem membersNamed_concat (hname : m.id.member = some name) (members : List Member) :
    membersNamed name (members ++ [m]) = membersNamed name members ++ [m] := by
  simp [membersNamed, hname]

theorem declaredNamed_concat (locals : List MemberDeclaration) (l : MemberDeclaration) :
    declaredNamed l.name (locals ++ [l]) = declaredNamed l.name locals ++ [l] := by
  simp [declaredNamed]

theorem membersNamed_eq_nil {members : List Member}
    (h : name ∉ members.filterMap fun m => m.id.member) : membersNamed name members = [] := by
  rw [membersNamed, List.filter_eq_nil_iff]
  intro m hm hname
  exact h (List.mem_filterMap.mpr ⟨m, hm, of_decide_eq_true hname⟩)

theorem declaredNamed_eq_nil {locals : List MemberDeclaration}
    (h : name ∉ locals.map MemberDeclaration.name) : declaredNamed name locals = [] := by
  rw [declaredNamed, List.filter_eq_nil_iff]
  intro l hl hname
  exact h (List.mem_map.mpr ⟨l, hl, of_decide_eq_true hname⟩)

variable {inherited inherited' : List Member} {locals locals' : List MemberDeclaration}

structure AddsName (name : String) (inherited : List Member) (locals : List MemberDeclaration)
    (inherited' : List Member) (locals' : List MemberDeclaration) : Prop where
  names : memberNames inherited' locals' = memberNames inherited locals ++ [name]
  members : ∀ other, other ≠ name → membersNamed other inherited' = membersNamed other inherited
  declared : ∀ other, other ≠ name → declaredNamed other locals' = declaredNamed other locals

theorem addsName_member (hname : m.id.member = some name) (inherited : List Member) :
    AddsName name inherited [] (inherited ++ [m]) [] where
  names := by simp [memberNames, hname]
  members := by
    intro other hother
    simp [membersNamed, hname, Ne.symm hother]
  declared := fun _ _ => rfl

theorem addsName_declaration (inherited : List Member) (locals : List MemberDeclaration)
    (l : MemberDeclaration) : AddsName l.name inherited locals inherited (locals ++ [l]) where
  names := by simp [memberNames]
  members := fun _ _ => rfl
  declared := by
    intro other hother
    simp [declaredNamed, Ne.symm hother]

end Occurrences

namespace Merged

variable {inherited inherited' : List Member} {locals locals' : List MemberDeclaration}
variable {effective before after : List EffectiveMember} {e e' : EffectiveMember}

theorem nil : Merged [] [] [] where
  names := rfl
  merges := List.forall_mem_nil _

theorem nodup (h : Merged inherited locals effective) :
    (effective.map EffectiveMember.name).Nodup :=
  h.names ▸ nodup_eraseDups _

theorem mem_names_iff (h : Merged inherited locals effective) {name : String} :
    name ∈ effective.map EffectiveMember.name ↔ name ∈ memberNames inherited locals := by
  rw [h.names, List.mem_eraseDups]

theorem not_mem_of_nodup (h : Merged inherited locals (before ++ e :: after)) :
    e.name ∉ before.map EffectiveMember.name ∧ e.name ∉ after.map EffectiveMember.name := by
  have hnodup := h.nodup
  rw [List.map_append, List.map_cons, List.nodup_middle, List.nodup_cons, List.mem_append,
    not_or] at hnodup
  exact hnodup.1

theorem merges_other (h : ∀ e ∈ effective,
      e.Merges (membersNamed e.name inherited) (declaredNamed e.name locals)) {name : String}
    (hadds : AddsName name inherited locals inherited' locals')
    (hname : name ∉ effective.map EffectiveMember.name) : ∀ e ∈ effective,
      e.Merges (membersNamed e.name inherited') (declaredNamed e.name locals') := by
  intro e he
  have hother : e.name ≠ name := by
    rintro rfl
    exact hname (List.mem_map_of_mem he)
  rw [hadds.members _ hother, hadds.declared _ hother]
  exact h e he

theorem concat (h : Merged inherited locals effective)
    (hadds : AddsName e.name inherited locals inherited' locals')
    (hnew : e.name ∉ effective.map EffectiveMember.name)
    (he : e.Merges (membersNamed e.name inherited') (declaredNamed e.name locals')) :
    Merged inherited' locals' (effective ++ [e]) where
  names := by
    rw [hadds.names, eraseDups_concat_of_not_mem (mt h.mem_names_iff.mpr hnew), List.map_append,
      h.names]
    rfl
  merges := by
    rw [List.forall_mem_append, List.forall_mem_singleton]
    exact ⟨merges_other h.merges hadds hnew, he⟩

theorem concat_nameless (h : Merged inherited locals effective) {m : Member}
    (hnone : m.id.member = none) : Merged (inherited ++ [m]) locals effective where
  names := by simpa [memberNames, hnone] using h.names
  merges := by
    intro e he
    have hsame : membersNamed e.name (inherited ++ [m]) = membersNamed e.name inherited := by
      simp [membersNamed, hnone]
    rw [hsame]
    exact h.merges e he

theorem replace (h : Merged inherited locals (before ++ e :: after))
    (hadds : AddsName e.name inherited locals inherited' locals') (hname : e'.name = e.name)
    (he' : e'.Merges (membersNamed e.name inherited') (declaredNamed e.name locals')) :
    Merged inherited' locals' (before ++ e' :: after) where
  names := by
    have hmem : e.name ∈ memberNames inherited locals := h.mem_names_iff.mp (by simp)
    rw [hadds.names, eraseDups_concat_of_mem hmem, ← h.names]
    simp [hname]
  merges := by
    obtain ⟨hbefore, hafter⟩ := h.not_mem_of_nodup
    have hmerges := h.merges
    rw [List.forall_mem_append, List.forall_mem_cons] at hmerges ⊢
    rw [hname]
    exact ⟨merges_other hmerges.1 hadds hbefore, he', merges_other hmerges.2.2 hadds hafter⟩

end Merged

end SchemaQuery
