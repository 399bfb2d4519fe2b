import SchemaQuery.Proofs.IdText
import SchemaQuery.Proofs.Sorted

namespace SchemaQuery

open Std

def octets (text : String) : List UInt8 :=
  text.toUTF8.data.toList

def Ascii (text : String) : Prop :=
  ∀ c ∈ text.toList, c.toNat < 128

section Octets

variable {cs ds : List Char} {s t : String}

theorem Ascii.octets_eq (h : Ascii s) : octets s = s.toList.map Char.toUInt8 := by
  have hutf8 : octets s = s.toList.flatMap String.utf8EncodeChar := by
    rw [octets, String.toUTF8, ← String.ofList_toList (s := s), String.toByteArray_ofList]
    simp [List.utf8Encode]
  have hsingle : ∀ c ∈ s.toList, String.utf8EncodeChar c = [c.toUInt8] := by
    intro c hc
    have hle : c.val ≤ 127 := Nat.le_of_lt_succ (h c hc)
    exact String.utf8EncodeChar_eq_singleton (Char.utf8Size_eq_one_iff.mpr hle)
  rw [hutf8, List.flatMap_congr hsingle, List.map_eq_flatMap]

theorem compare_toUInt8 {c d : Char} (hc : c.toNat < 128) (hd : d.toNat < 128) :
    compare c.toUInt8 d.toUInt8 = compare c d := by
  have hoctet {c : Char} (hc : c.toNat < 128) : c.toUInt8.toNat = c.toNat := by
    rw [Char.toUInt8, UInt32.toNat_toUInt8]
    exact Nat.mod_eq_of_lt (Nat.lt_trans hc (by decide))
  have hlt : c.toUInt8 < d.toUInt8 ↔ c < d := by
    rw [UInt8.lt_iff_toNat_lt, hoctet hc, hoctet hd, Char.lt_def, UInt32.lt_iff_toNat_lt]
    rfl
  have heq : c.toUInt8 = d.toUInt8 ↔ c = d := by
    rw [← UInt8.toNat_inj, hoctet hc, hoctet hd, Char.toNat_inj]
  simp only [compare, compareOfLessAndEq, hlt, heq]

theorem compare_map_toUInt8 (hcs : ∀ c ∈ cs, c.toNat < 128) (hds : ∀ d ∈ ds, d.toNat < 128) :
    compare (cs.map Char.toUInt8) (ds.map Char.toUInt8) = compare cs ds := by
  induction cs generalizing ds with
  | nil => cases ds <;> simp
  | cons c cs ih =>
      cases ds with
      | nil => simp
      | cons d ds =>
          obtain ⟨hc, hcs⟩ := List.forall_mem_cons.mp hcs
          obtain ⟨hd, hds⟩ := List.forall_mem_cons.mp hds
          rw [List.map_cons, List.map_cons, List.compare_cons_cons, List.compare_cons_cons,
            compare_toUInt8 hc hd, ih hcs hds]

theorem compare_eq_lt_iff : compare cs ds = .lt ↔ cs < ds := by
  induction cs generalizing ds with
  | nil => cases ds <;> simp
  | cons c cs ih =>
      cases ds with
      | nil => simp
      | cons d ds =>
          have hlt : compare c d = .lt ↔ c < d := compareOfLessAndEq_eq_lt
          rw [List.compare_cons_cons, Ordering.then_eq_lt, List.cons_lt_cons_iff, ih, hlt,
            LawfulEqCmp.compare_eq_iff_eq]

theorem compare_toList (s t : String) : compare s.toList t.toList = compare s t := by
  have hlt (s t : String) : compare s t = .lt ↔ compare s.toList t.toList = .lt := by
    rw [compare_eq_lt_iff]
    exact compareOfLessAndEq_eq_lt
  cases h : compare s t with
  | lt => exact (hlt s t).mp h
  | eq =>
      obtain rfl := LawfulEqCmp.eq_of_compare h
      exact ReflCmp.compare_self
  | gt => exact OrientedCmp.gt_of_lt ((hlt t s).mp (OrientedCmp.lt_of_gt h))

theorem compare_octets (hs : Ascii s) (ht : Ascii t) :
    compare (octets s) (octets t) = compare s t := by
  rw [hs.octets_eq, ht.octets_eq, compare_map_toUInt8 hs ht, compare_toList]

end Octets

/-- If what follows each of two lists starts below all that the other one holds, the lists come
first in the order, and then what follows them. -/
theorem compare_append {α : Type} [Ord α] [OrientedOrd α] {x y r s : List α}
    (hr : ∀ c ∈ r.head?, ∀ d ∈ y, compare c d = .lt)
    (hs : ∀ d ∈ s.head?, ∀ c ∈ x, compare d c = .lt) :
    compare (x ++ r) (y ++ s) = (compare x y).then (compare r s) := by
  induction x generalizing y with
  | nil =>
      cases y with
      | nil => simp
      | cons d y =>
          cases r with
          | nil => simp
          | cons c r =>
              -- the first list is over and the second one is not: the separator decides
              have hlt := hr c rfl d List.mem_cons_self
              simp [List.compare_cons_cons, hlt]
  | cons c x ih =>
      cases y with
      | nil =>
          cases s with
          | nil => simp
          | cons d s =>
              have hgt := OrientedCmp.gt_of_lt (hs d rfl c List.mem_cons_self)
              simp [List.compare_cons_cons, hgt]
      | cons d y =>
          rw [List.cons_append, List.cons_append, List.compare_cons_cons, List.compare_cons_cons,
            ih, Ordering.then_assoc]
          · exact fun c hc d hd => hr c hc d (List.mem_cons_of_mem _ hd)
          · exact fun d hd c hc => hs d hd c (List.mem_cons_of_mem _ hc)

namespace ShapeId

variable {a b : ShapeId}

theorem ascii_of_isIdentifier {cs : List Char} (h : isIdentifier cs = true) :
    ∀ c ∈ cs, c.toNat < 128 := by
  intro c hc
  have hbounds := toNat_of_isIdentifierChar (isIdentifierChar_of_mem h hc)
  omega

theorem ascii_of_isNamespace {cs : List Char} (h : isNamespace cs = true) :
    ∀ c ∈ cs, c.toNat < 128 := by
  intro c hc
  rcases char_of_isNamespace h hc with rfl | hc
  · decide
  · have hbounds := toNat_of_isIdentifierChar hc
    omega

theorem WellFormed.ascii_text (h : a.WellFormed) : Ascii a.text := by
  intro c hc
  rw [toList_text, List.mem_append, List.mem_cons, List.mem_append] at hc
  rcases hc with hc | rfl | hc | hc
  · exact ascii_of_isNamespace h.namespaceName c hc
  · decide
  · exact ascii_of_isIdentifier h.name c hc
  · obtain ⟨member, hmember, hc⟩ := List.mem_flatMap.mp hc
    rcases List.mem_cons.mp hc with rfl | hc
    · decide
    · exact ascii_of_isIdentifier (h.member member (Option.mem_toList.mp hmember)) c hc

/-- The separator behind a namespace comes before all that may stand in one. -/
theorem sharp_precedes {cs : List Char} (h : isNamespace cs = true) (rest : List Char) :
    ∀ c ∈ ('#' :: rest).head?, ∀ d ∈ cs, compare c d = .lt := by
  rintro c ⟨⟩ d hd
  refine compareOfLessAndEq_eq_lt.mpr ?_
  rcases char_of_isNamespace h hd with rfl | hd
  · decide
  · have hlow := (toNat_of_isIdentifierChar hd).1
    exact Nat.lt_of_lt_of_le (by decide) hlow

def memberText (member : Option String) : List Char :=
  member.toList.flatMap fun member => '$' :: member.toList

theorem memberText_precedes {cs : List Char} (h : isIdentifier cs = true)
    (member : Option String) : ∀ c ∈ (memberText member).head?, ∀ d ∈ cs, compare c d = .lt := by
  intro c hc d hd
  cases member with
  | none => cases hc
  | some member =>
      cases hc
      have hlow := (toNat_of_isIdentifierChar (isIdentifierChar_of_mem h hd)).1
      exact compareOfLessAndEq_eq_lt.mpr (Nat.lt_of_lt_of_le (by decide) hlow)

theorem compare_memberText (m n : Option String) :
    compare (memberText m) (memberText n) = compare m n := by
  cases m with
  | none => cases n <;> rfl
  | some m =>
      cases n with
      | none => rfl
      | some n =>
          simp only [memberText, Option.toList_some, List.flatMap_singleton,
            List.compare_cons_cons, ReflCmp.compare_self, compare_toList]
          rfl

theorem compare_text (ha : a.WellFormed) (hb : b.WellFormed) :
    compare a.text b.text = compare a b := by
  calc
    compare a.text b.text = compare a.text.toList b.text.toList := (compare_toList _ _).symm
    _ = (compare a.namespaceName.toList b.namespaceName.toList).then
        (compare (a.name.toList ++ memberText a.member) (b.name.toList ++ memberText b.member)) := by
      rw [toList_text, toList_text, compare_append (sharp_precedes hb.namespaceName _)
        (sharp_precedes ha.namespaceName _), List.compare_cons_cons, Std.compare_self]
      rfl
    _ = (compare a.namespaceName b.namespaceName).then
        ((compare a.name b.name).then (compare a.member b.member)) := by
      rw [compare_append (memberText_precedes hb.name _) (memberText_precedes ha.name _),
        compare_toList, compare_toList, compare_memberText]
    _ = compare a b := rfl

theorem compare_container (a b : ShapeId) :
    compare a b = (compare a.container b.container).then (compare a.member b.member) := by
  change (compare a.namespaceName b.namespaceName).then
      ((compare a.name b.name).then (compare a.member b.member)) =
    ((compare a.namespaceName b.namespaceName).then ((compare a.name b.name).then .eq)).then
      (compare a.member b.member)
  rw [Ordering.then_eq, Ordering.then_assoc]

theorem precedes_of_container (h : compare a.container b.container = .lt) :
    compare a b = .lt := by
  rw [compare_container, h]
  rfl

theorem compare_member (h : a.container = b.container) :
    compare a b = compare a.member b.member := by
  rw [compare_container, h, Std.compare_self]
  rfl

theorem container_precedes {id : ShapeId} (h : id.hasMember = true) :
    compare id.container id = .lt := by
  obtain ⟨space, name, member⟩ := id
  cases member with
  | none => cases h
  | some member => exact compare_member rfl

/-- The ids of a shape and of its members stand next to each other: first the shape, if it is there,
and then its members by name. -/
def Together (shape : ShapeId) (ids : List ShapeId) : Prop :=
  ∃ before members after,
    ids = before ++ ((if shape ∈ ids then [shape] else []) ++ members) ++ after ∧
    (∀ other ∈ before ++ after, other.container ≠ shape) ∧
    (∀ other ∈ members, other.container = shape ∧ other.hasMember = true) ∧
    members.Pairwise fun a b => compare a.member b.member = .lt

section Together

variable {ids : List ShapeId}

theorem eq_of_mem_iff_of_sorted {others : List ShapeId}
    (h : ids.Pairwise fun a b => compare a b = .lt)
    (hothers : others.Pairwise fun a b => compare a b = .lt) (hmem : ∀ id, id ∈ ids ↔ id ∈ others) :
    ids = others := by
  have h : ids.Pairwise (Sorted.Precedes fun id : ShapeId => id) := h
  exact Sorted.eq_of_mem_iff_of_pairwise h hothers hmem

theorem eq_append_filter_container (h : ids.Pairwise fun a b => compare a b = .lt)
    (shape : ShapeId) :
    ids = (ids.filter fun id => compare id.container shape = .lt) ++
      (ids.filter fun id => id.container = shape) ++
      ids.filter fun id => compare shape id.container = .lt := by
  -- Both sides are sorted, so that they need only have the same elements.
  refine eq_of_mem_iff_of_sorted h ?_ fun id => ?_
  · simp only [List.pairwise_append, List.mem_append, List.mem_filter, decide_eq_true_eq]
    refine ⟨⟨h.filter _, h.filter _, ?_⟩, h.filter _, ?_⟩
    · rintro a ⟨-, hbefore⟩ b ⟨-, rfl⟩
      exact precedes_of_container hbefore
    · rintro a (⟨-, hbefore⟩ | ⟨-, rfl⟩) b ⟨-, hafter⟩
      · exact precedes_of_container (TransCmp.lt_trans hbefore hafter)
      · exact precedes_of_container hafter
  · simp only [List.mem_append, List.mem_filter, decide_eq_true_eq, ← and_or_left]
    refine (and_iff_left ?_).symm
    cases hcompare : compare id.container shape with
    | lt => exact .inl (.inl rfl)
    | eq => exact .inl (.inr (LawfulEqCmp.eq_of_compare hcompare))
    | gt => exact .inr (OrientedCmp.lt_of_gt hcompare)

theorem filter_container_eq (h : ids.Pairwise fun a b => compare a b = .lt) (id : ShapeId) :
    (ids.filter fun other => other.container = id.container) =
      (if id.container ∈ ids then [id.container] else []) ++
        ids.filter fun other => other.container = id.container ∧ other.hasMember := by
  refine eq_of_mem_iff_of_sorted (h.filter _) ?_ fun other => ?_
  · rw [List.pairwise_append]
    refine ⟨?_, h.filter _, ?_⟩
    · split
      · exact List.pairwise_singleton _ _
      · exact .nil
    · intro a ha b hb
      simp only [List.mem_ite_nil_right, List.mem_singleton] at ha
      simp only [List.mem_filter, decide_eq_true_eq] at hb
      obtain ⟨-, hcontainer, hmember⟩ := hb
      rw [ha.2, ← hcontainer]
      exact container_precedes hmember
  · simp only [List.mem_append, List.mem_ite_nil_right, List.mem_singleton, List.mem_filter,
      decide_eq_true_eq]
    constructor
    · rintro ⟨hother, hcontainer⟩
      cases hmember : other.member with
      | none =>
          rw [← hcontainer, container_eq_self hmember]
          exact .inl ⟨hother, rfl⟩
      | some name => exact .inr ⟨hother, hcontainer, by rw [hasMember, hmember]; rfl⟩
    · rintro (⟨hmem, rfl⟩ | ⟨hother, hcontainer, -⟩)
      · exact ⟨hmem, container_container id⟩
      · exact ⟨hother, hcontainer⟩

theorem together_container (h : ids.Pairwise fun a b => compare a b = .lt) (id : ShapeId) :
    Together id.container ids := by
  have heq := eq_append_filter_container h id.container
  rw [filter_container_eq h id] at heq
  refine ⟨_, _, _, heq, ?_, ?_, ?_⟩
  · intro other hother hcontainer
    simp only [List.mem_append, List.mem_filter, decide_eq_true_eq, hcontainer,
      Std.compare_self] at hother
    rcases hother with ⟨-, hlt⟩ | ⟨-, hlt⟩ <;> cases hlt
  · intro other hother
    exact of_decide_eq_true (List.mem_filter.mp hother).2
  · refine (h.filter _).imp_of_mem ?_
    intro a b ha hb hlt
    simp only [List.mem_filter, decide_eq_true_eq] at ha hb
    rwa [compare_member (ha.2.1.trans hb.2.1.symm)] at hlt

end Together

/-- The order of ids is the order of their texts byte by byte. It is a total order, and in a sorted
list without repetitions the ids of a shape and of its members stand next to each other. -/
theorem order_of_texts :
    (∀ a b : ShapeId, a.WellFormed → b.WellFormed →
      compare a b = compare (octets a.text) (octets b.text)) ∧
    (∀ a b : ShapeId, compare a b = .eq ↔ a = b) ∧
    (∀ a b : ShapeId, compare b a = (compare a b).swap) ∧
    (∀ a b c : ShapeId, (compare a b).isLE = true → (compare b c).isLE = true →
      (compare a c).isLE = true) ∧
    ∀ ids : List ShapeId, ids.Pairwise (fun a b => (compare a b).isLE = true) → ids.Nodup →
      ∀ id : ShapeId, Together id.container ids := by
  refine ⟨?_, fun _ _ => LawfulEqCmp.compare_eq_iff_eq, fun _ _ => OrientedCmp.eq_swap,
    fun _ _ _ => TransCmp.isLE_trans, ?_⟩
  · intro a b ha hb
    rw [compare_octets ha.ascii_text hb.ascii_text, compare_text ha hb]
  · intro ids hsorted hnodup
    have hordered : ids.Pairwise fun a b => compare a b = .lt := by
      refine (hsorted.and hnodup).imp ?_
      rintro a b ⟨hle, hne⟩
      rcases Ordering.isLE_iff_eq_lt_or_eq_eq.mp hle with hlt | heq
      · exact hlt
      · exact absurd (LawfulEqCmp.eq_of_compare heq) hne
    exact together_container hordered

def overlapping : List ShapeId :=
  [⟨"a", "S", none⟩, ⟨"a", "S", some "m"⟩, ⟨"a", "S", some "mm"⟩, ⟨"a", "S1", none⟩,
    ⟨"a.b", "A", none⟩]

theorem order_of_texts_overlapping :
    (∀ a ∈ overlapping, a.WellFormed) ∧
    (∀ a ∈ overlapping, ∀ b ∈ overlapping,
      compare a b = compare (octets a.text) (octets b.text)) ∧
    compare (octets "a#S$mm") (octets "a#S1") = .lt ∧
    compare (octets "a#S1") (octets "a.b#A") = .lt ∧
    Together ⟨"a", "S", none⟩ overlapping := by
  have hformed : ∀ a ∈ overlapping, a.WellFormed := by decide +kernel
  have hsorted : overlapping.Pairwise fun a b => (compare a b).isLE = true := by decide +kernel
  have hnodup : overlapping.Nodup := by decide +kernel
  obtain ⟨htext, -, -, -, htogether⟩ := order_of_texts
  have hpairs : ∀ a ∈ overlapping, ∀ b ∈ overlapping,
      compare a b = compare (octets a.text) (octets b.text) :=
    fun a ha b hb => htext a b (hformed a ha) (hformed b hb)
  refine ⟨hformed, hpairs, ?_, ?_, htogether _ hsorted hnodup ⟨"a", "S", some "m"⟩⟩
  · exact (hpairs ⟨"a", "S", some "mm"⟩ (by decide) ⟨"a", "S1", none⟩ (by decide)).symm
  · exact (hpairs ⟨"a", "S1", none⟩ (by decide) ⟨"a.b", "A", none⟩ (by decide)).symm

end ShapeId

end SchemaQuery
