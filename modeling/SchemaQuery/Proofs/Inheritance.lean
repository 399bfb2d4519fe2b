import SchemaQuery.Proofs.Containment
import SchemaQuery.Proofs.EffectiveTraits

namespace SchemaQuery

namespace Shape

def Keeps (shape other : Shape) : Prop :=
  ∀ inherited ∈ other.members, ∃ found ∈ shape.members,
    found.id.member = inherited.id.member ∧ found.target = inherited.target

theorem Keeps.trans {a b c : Shape} (hab : a.Keeps b) (hbc : b.Keeps c) : a.Keeps c := by
  intro inherited hinherited
  obtain ⟨middle, hmiddle, hname, htarget⟩ := hbc inherited hinherited
  obtain ⟨found, hfound, hname', htarget'⟩ := hab middle hmiddle
  exact ⟨found, hfound, hname'.trans hname, htarget'.trans htarget⟩

theorem exists_aggregate {shape : Shape} {found : Member} (h : found ∈ shape.members) :
    ∃ type, shape.type = .aggregate type := by
  by_contra hnone
  rw [members_eq_nil (not_exists.mp hnone)] at h
  contradiction

structure Extends (shape mixin : Shape) : Prop where
  type : mixin.type = shape.type
  marked : mixin.hasTrait .mixinMarker = true
  names : ∀ inherited ∈ mixin.members, ∃ found ∈ shape.members,
    found.id.member = inherited.id.member

end Shape

/-- A member comes from a member of a mixin, of which it has the name, the target and the traits. -/
structure Member.ComesFrom (found origin : Member) : Prop where
  name : origin.id.member = found.id.member
  target : origin.target = found.target
  traits : ∀ trait, origin.traits.contains trait = true → found.traits.contains trait = true

namespace Declaration

variable {policy : ConflictPolicy} {d : Declaration} {mixins : List Shape} {shape : Shape}

theorem exists_member_of_resolve (hd : d.Keyed)
    (hmixins : ∀ mixin ∈ mixins, ∀ m ∈ mixin.members, m.traits.Keyed)
    (h : d.resolve policy mixins = .ok shape) {type : AggregateType}
    (htype : shape.type = .aggregate type) {inherited : Member} {name : String}
    (hinherited : inherited ∈ membersNamed name (mixins.flatMap Shape.members)) :
    ∃ found ∈ shape.members, found.id.member = some name ∧
      (policy = .error → found.target = inherited.target) := by
  obtain ⟨hcompatible, effective, hmerged, -, hcontent⟩ := members_of_resolve hd hmixins h
  obtain ⟨hmem, hname⟩ := List.mem_filter.mp hinherited
  have hnames : name ∈ memberNames (mixins.flatMap Shape.members) d.members := by
    apply List.mem_append_left
    exact List.mem_filterMap.mpr ⟨inherited, hmem, by simpa using hname⟩
  obtain ⟨e, he, rfl⟩ := List.mem_map.mp (hmerged.mem_names_iff.mpr hnames)
  rw [members_eq_of_content hcontent htype]
  refine ⟨e.frozen d.id, List.mem_map_of_mem he, rfl, ?_⟩
  intro hpolicy
  -- the target is that of the first inherited member, and the policy makes all of them agree
  obtain ⟨first, rest, hcons⟩ := List.exists_cons_of_ne_nil (List.ne_nil_of_mem hinherited)
  have htarget := (hmerged.merges e he).target
  rw [hcons, List.map_cons, List.cons_append, List.head?_cons, Option.some.injEq] at htarget
  rw [EffectiveMember.frozen, ← htarget]
  exact hcompatible.agree hpolicy e.name first (hcons ▸ List.mem_cons_self) inherited hinherited

theorem exists_origin_of_resolve (hd : d.Keyed)
    (hmixins : ∀ mixin ∈ mixins, ∀ m ∈ mixin.members, m.traits.Keyed)
    (h : d.resolve policy mixins = .ok shape) {found : Member} (hfound : found ∈ shape.members)
    {id : ShapeId} (hid : id ∈ found.mixins) :
    ∃ mixin ∈ mixins, ∃ origin ∈ mixin.members, origin.id = id ∧ found.ComesFrom origin := by
  obtain ⟨-, effective, hmerged, -, hcontent⟩ := members_of_resolve hd hmixins h
  obtain ⟨type, htype⟩ := Shape.exists_aggregate hfound
  rw [members_eq_of_content hcontent htype] at hfound
  obtain ⟨e, he, rfl⟩ := List.mem_map.mp hfound
  have hmerges := hmerged.merges e he
  change id ∈ e.mixins at hid
  rw [hmerges.mixins, List.mem_map] at hid
  obtain ⟨origin, horigin, rfl⟩ := hid
  obtain ⟨hnamed, htarget⟩ := List.mem_filter.mp horigin
  obtain ⟨hmem, hname⟩ := List.mem_filter.mp hnamed
  obtain ⟨mixin, hmixin, hmember⟩ := List.mem_flatMap.mp hmem
  refine ⟨mixin, hmixin, origin, hmember, rfl, of_decide_eq_true hname,
    of_decide_eq_true htarget, ?_⟩
  intro trait hcarried
  have hsome : ((membersTargeting e.target
      (membersNamed e.name (mixins.flatMap Shape.members))).findSome?
        fun m => m.traits.find? trait).isSome = true := by
    rw [List.findSome?_isSome_iff]
    exact ⟨origin, horigin, by rwa [← Traits.contains_eq_isSome_find?]⟩
  change e.traits.contains trait = true
  rw [Traits.contains_eq_isSome_find?, hmerges.trait?, Option.isSome_or, hsome, Bool.or_true]

end Declaration

namespace Declarations

variable {policy : ConflictPolicy} {declared : Declarations} {shapes : List Shape}
variable {d : Declaration} {shape : Shape}

theorem keyed_members_of_mixinsIn (hkeyed : ∀ d ∈ declared.entries, d.Keyed)
    (h : declared.resolveAll policy = .ok shapes) :
    ∀ mixin ∈ d.mixinsIn shapes, ∀ m ∈ mixin.members, m.traits.Keyed := by
  intro mixin hmixin
  exact keyed_members_of_resolveAll hkeyed h mixin (Declaration.mem_of_mem_mixinsIn hmixin)

theorem hasTrait_mixinMarker_of_resolve (hd : d.Keyed) {mixins : List Shape}
    (hmixins : ∀ mixin ∈ mixins, mixin.traits.Keyed) (h : d.resolve policy mixins = .ok shape) :
    shape.hasTrait .mixinMarker = d.traits.contains .mixinMarker := by
  obtain ⟨_, htraits, -⟩ := Declaration.resolve_eq_ok_iff.mp h
  rw [Shape.hasTrait_eq_isSome, Shape.trait?, EffectiveTraits.find?_of hd.traits hmixins htraits,
    inheritedTrait?_mixinMarker, Option.or_none, Traits.contains_eq_isSome_find?]

theorem exists_member_of_mixin (hkeyed : ∀ d ∈ declared.entries, d.Keyed)
    (h : declared.resolveAll policy = .ok shapes) (htops : ∀ top ∈ shapes, top.TopLevel)
    (hd : d ∈ declared.entries) (hresolve : d.resolve policy (d.mixinsIn shapes) = .ok shape)
    {mixin : Shape} (hmixin : mixin ∈ d.mixinsIn shapes) (htype : mixin.type = shape.type)
    {inherited : Member} (hinherited : inherited ∈ mixin.members) :
    ∃ found ∈ shape.members, found.id.member = inherited.id.member ∧
      (policy = .error → found.target = inherited.target) := by
  obtain ⟨-, name, hid⟩ :=
    (htops mixin (Declaration.mem_of_mem_mixinsIn hmixin)).members inherited hinherited
  have hname : inherited.id.member = some name := by rw [hid, ShapeId.member_memberNamed]
  have hnamed : inherited ∈ membersNamed name ((d.mixinsIn shapes).flatMap Shape.members) := by
    apply List.mem_filter.mpr
    exact ⟨List.mem_flatMap.mpr ⟨mixin, hmixin, hinherited⟩, decide_eq_true hname⟩
  obtain ⟨type, haggregate⟩ := Shape.exists_aggregate hinherited
  rw [hname]
  exact Declaration.exists_member_of_resolve (hkeyed d hd) (keyed_members_of_mixinsIn hkeyed h)
    hresolve (htype ▸ haggregate) hnamed

theorem exists_extends_of_resolveAll (hkeyed : ∀ d ∈ declared.entries, d.Keyed)
    (h : declared.resolveAll policy = .ok shapes) (htops : ∀ top ∈ shapes, top.TopLevel)
    (hshape : shape ∈ shapes) {id : ShapeId} (hid : id ∈ shape.mixins) :
    ∃ mixin ∈ shapes, mixin.id = id ∧ shape.Extends mixin ∧
      (policy = .error → shape.Keeps mixin) := by
  have hyields := yields_of_resolveAll h
  obtain ⟨d, hd, hresolve⟩ := hyields.exists_declaration hshape
  obtain ⟨_, -, -, -, -, -, hsame⟩ := Declaration.resolve_eq_ok_iff.mp hresolve
  rw [hsame] at hid
  obtain ⟨declaration, hdeclared, hdeclaredId, hmarked, -⟩ := exists_mixin_of_resolveAll h hd hid
  obtain ⟨mixin, hmixin, rfl⟩ := hyields.exists_mixin hd hid
  have hmem := Declaration.mem_of_mem_mixinsIn hmixin
  have hmixinResolve := hyields.resolve_eq_ok hdeclared hmem hdeclaredId.symm
  have htype : mixin.type = shape.type := by
    rw [type_of_mem_mixinsIn h hd hmixin, Declaration.type_of_resolve hresolve]
  have hmember {inherited : Member} (hinherited : inherited ∈ mixin.members) :=
    exists_member_of_mixin hkeyed h htops hd hresolve hmixin htype hinherited
  refine ⟨mixin, hmem, rfl, ⟨htype, ?_, ?_⟩, ?_⟩
  · rw [hasTrait_mixinMarker_of_resolve (hkeyed declaration hdeclared)
      (fun mixin hmixin => keyed_traits_of_resolveAll h mixin
        (Declaration.mem_of_mem_mixinsIn hmixin)) hmixinResolve, hmarked]
  · intro inherited hinherited
    obtain ⟨found, hfound, hname, -⟩ := hmember hinherited
    exact ⟨found, hfound, hname⟩
  · intro hpolicy inherited hinherited
    obtain ⟨found, hfound, hname, htarget⟩ := hmember hinherited
    exact ⟨found, hfound, hname, htarget hpolicy⟩

theorem exists_origin_of_resolveAll (hkeyed : ∀ d ∈ declared.entries, d.Keyed)
    (h : declared.resolveAll policy = .ok shapes) (hshape : shape ∈ shapes) {found : Member}
    (hfound : found ∈ shape.members) {id : ShapeId} (hid : id ∈ found.mixins) :
    ∃ mixin ∈ shapes, mixin.id ∈ shape.mixins ∧
      ∃ origin ∈ mixin.members, origin.id = id ∧ found.ComesFrom origin := by
  have hyields := yields_of_resolveAll h
  obtain ⟨d, hd, hresolve⟩ := hyields.exists_declaration hshape
  obtain ⟨_, -, -, -, -, -, hsame⟩ := Declaration.resolve_eq_ok_iff.mp hresolve
  obtain ⟨mixin, hmixin, hrest⟩ := Declaration.exists_origin_of_resolve (hkeyed d hd)
    (keyed_members_of_mixinsIn hkeyed h) hresolve hfound hid
  refine ⟨mixin, Declaration.mem_of_mem_mixinsIn hmixin, ?_, hrest⟩
  rw [hsame, ← hyields.mixins d hd]
  exact List.mem_map_of_mem hmixin

end Declarations

namespace Model

variable {config : ModelConfig} {declarations : List Declaration} {m : Model}

def MixesIn (m : Model) (shape mixin : ShapeId) : Prop :=
  ∃ found, m.find? shape = some found ∧ mixin ∈ found.mixins

/-- What a shape of a model inherits, and where its members say that they come from. -/
structure Inherits (m : Model) (policy : ConflictPolicy) (shape : Shape) : Prop where
  mixins : ∀ id ∈ shape.mixins, ∃ mixin, m.find? id = some mixin ∧ shape.Extends mixin
  origins : ∀ found ∈ shape.members, ∀ id ∈ found.mixins, ∃ origin : Member,
    m.find? id = some origin.toShape ∧ origin.container ∈ shape.mixins ∧ found.ComesFrom origin
  reached : policy = .error → ∀ id, Relation.TransGen m.MixesIn shape.id id →
    ∃ mixin, m.find? id = some mixin ∧ shape.Keeps mixin

theorem keyed_of_mem_prelude {d : Declaration} (hd : d ∈ Prelude.declarations) : d.Keyed := by
  simp only [Prelude.declarations, Prelude.deprecated, List.mem_append, List.mem_map,
    List.mem_singleton] at hd
  rcases hd with ((⟨_, -, rfl⟩ | ⟨_, -, rfl⟩) | ⟨_, -, rfl⟩) | rfl
  · exact Declaration.keyed_simple _ _
  · exact (Declaration.keyed_new _ _).add _
  · exact (Declaration.keyed_simple _ _).add _
  · exact (((Declaration.keyed_new _ _).add _).add _).add _

theorem exists_keeps_of_mixesIn {tops : List Shape}
    (hstep : ∀ top ∈ tops, ∀ id ∈ top.mixins,
      ∃ mixin ∈ tops, m.find? id = some mixin ∧ top.Keeps mixin)
    {shape : Shape} (hshape : shape ∈ tops) (hfind : m.find? shape.id = some shape) {id : ShapeId}
    (h : Relation.TransGen m.MixesIn shape.id id) :
    ∃ mixin ∈ tops, m.find? id = some mixin ∧ shape.Keeps mixin := by
  induction h with
  | single hfirst =>
      obtain ⟨found, hfound, hid⟩ := hfirst
      obtain rfl : shape = found := Option.some.inj (hfind.symm.trans hfound)
      exact hstep shape hshape _ hid
  | tail _ hlast ih =>
      obtain ⟨mixin, hmixin, hmixinFind, hkeeps⟩ := ih
      obtain ⟨found, hfound, hid⟩ := hlast
      obtain rfl : mixin = found := Option.some.inj (hmixinFind.symm.trans hfound)
      obtain ⟨next, hnext, hnextFind, hnextKeeps⟩ := hstep mixin hmixin _ hid
      exact ⟨next, hnext, hnextFind, hkeeps.trans hnextKeeps⟩

/-- Every declared shape of a model fits its mixins, which are in the model too. Its members have
those of the mixins on record that they come from. Unless conflicts are passed over, the members
of all that it mixes in, directly or not, are its own. -/
theorem inherits_of_build (hkeyed : ∀ d ∈ declarations, d.Keyed)
    (h : build config declarations = .ok m) :
    ∀ shape ∈ m.shapes.entries, shape.type ≠ .member → m.Inherits config.conflicts shape := by
  obtain ⟨declared, tops, hcollect, hresolve, hshapes, -⟩ := build_eq_ok_iff.mp h
  have hkeyed : ∀ d ∈ declared.entries, d.Keyed :=
    forall_of_collect (fun _ => keyed_of_mem_prelude) hkeyed hcollect
  have hgathers := gathers_of_resolveAll hcollect hresolve hshapes
  have hfind {top : Shape} (htop : top ∈ tops) : m.find? top.id = some top :=
    find?_eq_some_iff.mpr ⟨hgathers.mem_of_mem_tops htop, rfl⟩
  intro shape hshape htype
  have htop := hgathers.mem_tops hshape htype
  refine ⟨?_, ?_, ?_⟩
  · intro id hid
    obtain ⟨mixin, hmixin, rfl, hextends, -⟩ := Declarations.exists_extends_of_resolveAll hkeyed
      hresolve hgathers.topLevel htop hid
    exact ⟨mixin, hfind hmixin, hextends⟩
  · intro found hfound id hid
    obtain ⟨mixin, hmixin, hmem, origin, horigin, rfl, hfrom⟩ :=
      Declarations.exists_origin_of_resolveAll hkeyed hresolve htop hfound hid
    refine ⟨origin, find?_eq_some_iff.mpr ⟨hgathers.toShape_mem hmixin horigin, rfl⟩, ?_, hfrom⟩
    rw [((hgathers.topLevel mixin hmixin).members origin horigin).1]
    exact hmem
  · intro hpolicy id hreaches
    have hstep : ∀ top ∈ tops, ∀ id ∈ top.mixins,
        ∃ mixin ∈ tops, m.find? id = some mixin ∧ top.Keeps mixin := by
      intro top htop id hid
      obtain ⟨mixin, hmixin, rfl, -, hkeeps⟩ := Declarations.exists_extends_of_resolveAll hkeyed
        hresolve hgathers.topLevel htop hid
      exact ⟨mixin, hmixin, hfind hmixin, hkeeps hpolicy⟩
    obtain ⟨mixin, -, hfound, hkeeps⟩ := exists_keeps_of_mixesIn hstep htop (hfind htop) hreaches
    exact ⟨mixin, hfound, hkeeps⟩

def lineage : List Declaration :=
  [.string ⟨"a", "T", none⟩,
    ((Declaration.structure ⟨"a", "A", none⟩).annotate .mixinMarker).withMember "x"
      ⟨"a", "T", none⟩,
    ((Declaration.structure ⟨"a", "B", none⟩).annotate .mixinMarker).add (.mixin ⟨"a", "A", none⟩),
    ((Declaration.structure ⟨"a", "C", none⟩).add (.mixin ⟨"a", "B", none⟩)).add
      (.member "x" ⟨"a", "T", none⟩ [.mark ⟨"a", "tag", none⟩])]

theorem keyed_lineage : ∀ d ∈ lineage, d.Keyed := by
  simp only [lineage, List.forall_mem_cons, List.not_mem_nil, false_implies, implies_true, and_true]
  refine ⟨Declaration.keyed_simple _ _, ?_, ?_, ?_⟩ <;>
    exact ((Declaration.keyed_new _ _).add _).add _

theorem inherits_of_build_lineage :
    (∀ d ∈ lineage, d.Keyed) ∧ ∃ m shape, build ⟨.error, false, false⟩ lineage = .ok m ∧
      m.find? ⟨"a", "C", none⟩ = some shape ∧ m.Inherits .error shape ∧
      ∃ mixin, m.find? ⟨"a", "A", none⟩ = some mixin ∧ shape.Keeps mixin := by
  have hbuilds : (build ⟨.error, false, false⟩ lineage).map (fun m =>
      ((m.find? ⟨"a", "C", none⟩).map fun shape => (shape.type, shape.mixins),
        (m.find? ⟨"a", "B", none⟩).map Shape.mixins)) =
      .ok (some (.aggregate .structure, [⟨"a", "B", none⟩]), some [⟨"a", "A", none⟩]) := by
    simp only [build, Declarations.resolveAll, Declarations.resolutionOrder,
      DepthFirst.order_eq_workFor]
    decide +kernel
  obtain ⟨m, hbuild, hmixins⟩ := map_eq_ok_iff.mp hbuilds
  simp only [Prod.mk.injEq, Option.map_eq_some_iff] at hmixins
  obtain ⟨⟨shape, hshape, htype, hfirst⟩, mixin, hmixin, hsecond⟩ := hmixins
  obtain ⟨hmem, hid⟩ := find?_eq_some_iff.mp hshape
  have hinherits := inherits_of_build keyed_lineage hbuild shape hmem (by simp [htype])
  have hreaches : Relation.TransGen m.MixesIn shape.id ⟨"a", "A", none⟩ :=
    .tail (.single ⟨shape, hid ▸ hshape, by rw [hfirst, List.mem_singleton]⟩)
      ⟨mixin, hmixin, by rw [hsecond, List.mem_singleton]⟩
  exact ⟨keyed_lineage, m, shape, hbuild, hshape, hinherits, hinherits.reached rfl _ hreaches⟩

example : (build ⟨.error, false, false⟩ lineage).map (fun m =>
      (m.find? ⟨"a", "C", none⟩).map fun shape => shape.members.map fun found =>
        (found.target.name, found.mixins.map ShapeId.name, found.traits.ids.map ShapeId.name)) =
    .ok (some [("T", ["B"], ["tag"])]) := by
  simp only [build, Declarations.resolveAll, Declarations.resolutionOrder,
    DepthFirst.order_eq_workFor]
  decide +kernel

end Model

end SchemaQuery
