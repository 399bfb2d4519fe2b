import Mathlib.Data.List.TakeWhile
import SchemaQuery.Proofs.LexemeForm
import SchemaQuery.Proofs.Rendering

namespace SchemaQuery.Lexeme

def Stops (p : Char → Bool) (rest : List Char) : Prop :=
  ∀ c, rest.head? = some c → p c = false

theorem Stops.nil (p : Char → Bool) : Stops p [] := by
  intro c hc
  cases hc

theorem Stops.cons {p : Char → Bool} {c : Char} (h : p c = false) (rest : List Char) :
    Stops p (c :: rest) := by
  rintro _ ⟨⟩
  exact h

section TakeWhile

variable {p : Char → Bool} {cs rest : List Char}

theorem takeWhile_append_rest (hrest : Stops p rest) :
    (cs ++ rest).takeWhile p = cs.takeWhile p := by
  induction cs with
  | nil =>
      cases rest with
      | nil => rfl
      | cons c rest =>
          rw [List.nil_append, List.takeWhile_cons, hrest c rfl, if_neg Bool.false_ne_true,
            List.takeWhile_nil]
  | cons c cs ih => rw [List.cons_append, List.takeWhile_cons, List.takeWhile_cons, ih]

theorem dropWhile_append_rest (hrest : Stops p rest) :
    (cs ++ rest).dropWhile p = cs.dropWhile p ++ rest := by
  induction cs with
  | nil =>
      cases rest with
      | nil => rfl
      | cons c rest =>
          rw [List.nil_append, List.dropWhile_cons, hrest c rfl, if_neg Bool.false_ne_true,
            List.dropWhile_nil, List.nil_append]
  | cons c cs ih =>
      rw [List.cons_append, List.dropWhile_cons, List.dropWhile_cons, ih]
      split <;> rfl

theorem takeWhile_append_stops (hcs : ∀ c ∈ cs, p c = true) (hrest : Stops p rest) :
    (cs ++ rest).takeWhile p = cs := by
  rw [takeWhile_append_rest hrest, List.takeWhile_eq_self_iff.mpr hcs]

theorem dropWhile_append_stops (hcs : ∀ c ∈ cs, p c = true) (hrest : Stops p rest) :
    (cs ++ rest).dropWhile p = rest := by
  rw [dropWhile_append_rest hrest, List.dropWhile_eq_nil_iff.mpr hcs, List.nil_append]

end TakeWhile

theorem expect_append (text : String) (rest : List Char) :
    expect text (text.toList ++ rest) = .ok rest := by
  have hpre : text.toList.isPrefixOf (text.toList ++ rest) = true :=
    List.isPrefixOf_iff_prefix.mpr (List.prefix_append _ _)
  rw [expect, if_pos hpre, ← String.length_toList, List.drop_left]

theorem exists_toList_of_isVariableName {name : String} (h : isVariableName name = true) :
    ∃ c cs, name.toList = c :: cs ∧ (c.isAlpha ∨ c = '_') ∧
      ∀ d ∈ c :: cs, ShapeId.isIdentifierChar d = true := by
  unfold isVariableName at h
  split at h
  · cases h
  · next c cs hname =>
    simp only [Bool.and_eq_true, Bool.or_eq_true, decide_eq_true_eq, List.all_eq_true] at h
    exact ⟨c, cs, hname, h.1, List.forall_mem_cons.mpr ⟨isIdentifierChar_of_start h.1, h.2⟩⟩

theorem identifier_append {name : String} (hname : isVariableName name = true) {rest : List Char}
    (hrest : Stops ShapeId.isIdentifierChar rest) :
    identifier (name.toList ++ rest) = .ok (name, rest) := by
  obtain ⟨c, cs, hcs, hstart, hall⟩ := exists_toList_of_isVariableName hname
  rw [hcs, List.cons_append, identifier, if_pos hstart, ← List.cons_append,
    takeWhile_append_stops hall hrest, dropWhile_append_stops hall hrest, ← hcs,
    String.ofList_toList]

theorem quotedBody_append {start read text rest : List Char} :
    quotedBody start '"' read (text.flatMap escapedChar ++ '"' :: rest) =
      .ok (.ofList (read.reverse ++ text), rest) := by
  induction text generalizing read with
  | nil => simp [quotedBody]
  | cons c text ih =>
      have hread : (c :: read).reverse ++ text = read.reverse ++ c :: text := by simp
      rw [List.flatMap_cons, List.append_assoc, ← hread, ← ih]
      unfold escapedChar
      split
      · rfl
      · next hplain =>
        rw [not_or] at hplain
        rw [List.singleton_append]
        rw [quotedBody.eq_4 _ _ _ _ _ (by simp [hplain.2]) (by simp [hplain.2]),
          if_neg hplain.1]

theorem toList_quotedText (text : String) :
    (quotedText text).toList = '"' :: (text.toList.flatMap escapedChar ++ ['"']) := by
  simp [quotedText]

theorem value_append (text : String) (rest : List Char) :
    value ((quotedText text).toList ++ rest) = .ok (text, rest) := by
  rw [toList_quotedText, List.cons_append, List.append_assoc, value, if_pos (by decide),
    List.singleton_append, quotedBody_append, List.reverse_nil, List.nil_append,
    String.ofList_toList]

theorem segment_append (s : PathSegment) (rest : List Char) :
    segment (s.render.toList ++ rest) = .ok (s, rest) := by
  cases s with
  | key text =>
      rw [PathSegment.render, toList_quotedText, List.cons_append, List.append_assoc, segment,
        if_neg (by decide), if_pos (by decide), List.singleton_append, quotedBody_append,
        List.reverse_nil, List.nil_append, String.ofList_toList]
      rfl
  | keys | values | length => rfl

theorem path_stops {rest : List Char} (hrest : Stops (· = '|') rest) :
    path rest = .ok ([], rest) := by
  unfold path
  split
  · next tail =>
    have hfalse := hrest '|' rfl
    cases hfalse
  · rfl

theorem path_bar {s : PathSegment} {tail rest : List Char}
    (hsegment : segment tail = .ok (s, rest)) :
    path ('|' :: tail) = (path rest).map fun (p, left) => (s :: p, left) := by
  rw [path]
  split
  · next e he =>
    rw [hsegment] at he
    cases he
  · next read left hread =>
    rw [hsegment] at hread
    cases hread
    rfl

theorem path_append {rest : List Char} (hrest : Stops (· = '|') rest) (p : List PathSegment) :
    path ((renderPath p).toList ++ rest) = .ok (p, rest) := by
  induction p with
  | nil => exact path_stops hrest
  | cons s p ih =>
      have htext : (renderPath (s :: p)).toList ++ rest =
          '|' :: (s.render.toList ++ ((renderPath p).toList ++ rest)) := by
        simp [renderPath]
      rw [htext, path_bar (segment_append s _), ih]
      rfl

theorem skip_of_not_blank {c : Char} {rest : List Char} (hblank : isBlank c = false)
    (hslash : c ≠ '/') : skip (c :: rest) = c :: rest := by
  rw [skip, skipBlank, if_neg Bool.false_ne_true, hblank, if_neg Bool.false_ne_true, if_neg]
  rintro ⟨heq, -⟩
  exact hslash heq

theorem skip_blank (rest : List Char) : skip (' ' :: rest) = skip rest := by
  have hblank : isBlank ' ' = true := by decide
  rw [skip, skipBlank, if_neg Bool.false_ne_true, if_pos hblank, skip]

section CommaList

variable {α : Type} {item : List Char → Reading α}
  {shorter : ∀ {cs rest : List Char} {a : α}, item cs = .ok (a, rest) → rest.length < cs.length}

theorem commaList_blank (cs : List Char) :
    commaList item shorter (' ' :: cs) = commaList item shorter cs := by
  rw [commaList, commaList, skip_blank]

theorem commaList_last {cs rest : List Char} {a : α} (hitem : item (skip cs) = .ok (a, rest))
    (hrest : Stops (· = ',') (skip rest)) :
    commaList item shorter cs = .ok ([a], skip rest) := by
  unfold commaList
  split
  · next e he =>
    rw [hitem] at he
    cases he
  · next read left hread =>
    rw [hitem] at hread
    cases hread
    split
    · next next hnext =>
      have hfalse := hrest ',' (by rw [hnext]; rfl)
      cases hfalse
    · rfl

theorem commaList_more {cs rest next : List Char} {a : α} (hitem : item (skip cs) = .ok (a, rest))
    (hnext : skip rest = ',' :: next) :
    commaList item shorter cs =
      (commaList item shorter next).map fun (as, left) => (a :: as, left) := by
  rw [commaList]
  split
  · next e he =>
    rw [hitem] at he
    cases he
  · next read left hread =>
    rw [hitem] at hread
    cases hread
    rw [hnext]
    rfl

theorem commaList_append {print : α → String} {as : List α} {rest : List Char} (hne : as ≠ [])
    (hitem : ∀ a ∈ as, ∀ rest, Stops ShapeId.isIdentifierChar rest →
      item (skip ((print a).toList ++ rest)) = .ok (a, rest))
    (hrest : Stops ShapeId.isIdentifierChar rest) (hcomma : Stops (· = ',') (skip rest)) :
    commaList item shorter ((", ".intercalate (as.map print)).toList ++ rest) =
      .ok (as, skip rest) := by
  induction as with
  | nil => exact absurd rfl hne
  | cons a as ih =>
      obtain ⟨ha, has⟩ := List.forall_mem_cons.mp hitem
      cases as with
      | nil =>
          rw [List.map_singleton, String.intercalate_singleton]
          exact commaList_last (ha rest hrest) hcomma
      | cons b as =>
          have htext : (", ".intercalate ((a :: b :: as).map print)).toList ++ rest =
              (print a).toList ++
                ',' :: ' ' :: ((", ".intercalate ((b :: as).map print)).toList ++ rest) := by
            simp only [List.map_cons, String.intercalate_cons_cons, String.toList_append,
              List.append_assoc]
            rfl
          rw [htext, commaList_more (ha _ (.cons (by decide) _))
            (skip_of_not_blank (by decide) (by decide)), commaList_blank,
            ih (List.cons_ne_nil b as) has]
          rfl

end CommaList

theorem skip_quotedText (text : String) (rest : List Char) :
    skip ((quotedText text).toList ++ rest) = (quotedText text).toList ++ rest := by
  rw [toList_quotedText, List.cons_append, skip_of_not_blank (by decide) (by decide)]

theorem values_append {vs : List String} {rest : List Char} (hne : vs ≠ [])
    (hrest : Stops ShapeId.isIdentifierChar rest) (hcomma : Stops (· = ',') (skip rest)) :
    values ((", ".intercalate (vs.map quotedText)).toList ++ rest) = .ok (vs, skip rest) := by
  refine commaList_append hne ?_ hrest hcomma
  intro text _ rest _
  rw [skip_quotedText, value_append]

theorem isBlank_of_isIdentifierChar {c : Char} (h : ShapeId.isIdentifierChar c = true) :
    isBlank c = false := by
  have hbounds := ShapeId.toNat_of_isIdentifierChar h
  simp only [isBlank, isInRanges, blankRanges, List.any_cons, List.any_nil, Bool.or_false,
    Bool.or_eq_false_iff, Bool.and_eq_false_iff, decide_eq_false_iff_not]
  omega

theorem skip_of_isVariableName {name : String} (h : isVariableName name = true)
    (rest : List Char) : skip (name.toList ++ rest) = name.toList ++ rest := by
  obtain ⟨c, cs, hcs, -, hall⟩ := exists_toList_of_isVariableName h
  have hc := hall c List.mem_cons_self
  rw [hcs, List.cons_append]
  apply skip_of_not_blank
  · exact isBlank_of_isIdentifierChar hc
  · rintro rfl
    exact absurd hc (by decide)

theorem label_append {type : RelationshipType} (htype : type ≠ .memberTarget) {rest : List Char}
    (hrest : Stops ShapeId.isIdentifierChar rest) :
    label (skip (type.text.toList ++ rest)) = .ok (type, rest) := by
  have hname : isVariableName type.text = true := by cases type <;> decide
  have hlabel : RelationshipType.ofLabel? type.text = some type := by
    cases type with
    | memberTarget => exact absurd rfl htype
    | _ => decide
  rw [skip_of_isVariableName hname, label, identifier_append hname hrest]
  simp only [hlabel]

theorem labels_append {types : List RelationshipType} {rest : List Char} (hne : types ≠ [])
    (hnodup : types.Nodup) (htarget : RelationshipType.memberTarget ∉ types) :
    labels ((", ".intercalate (types.map RelationshipType.text)).toList ++ ']' :: rest) =
      .ok (types, ']' :: rest) := by
  have hread : commaList label length_of_label
      ((", ".intercalate (types.map RelationshipType.text)).toList ++ ']' :: rest) =
        .ok (types, ']' :: rest) := by
    have hskip : skip (']' :: rest) = ']' :: rest := skip_of_not_blank (by decide) (by decide)
    conv_rhs => rw [← hskip]
    refine commaList_append hne ?_ (.cons (by decide) rest) ?_
    · intro type htype rest hrest
      exact label_append (ne_of_mem_of_not_mem htype htarget) hrest
    · rw [hskip]
      exact .cons (by decide) rest
  rw [labels, hread]
  simp only [Except.map, eraseDups_of_nodup hnodup]

def isKeyChar (c : Char) : Bool :=
  isTraitIdChar c || c = '|'

theorem Stops.mono {p q : Char → Bool} {rest : List Char} (h : Stops q rest)
    (hpq : ∀ c, p c = true → q c = true) : Stops p rest := by
  intro c hc
  have hstop := h c hc
  cases hp : p c with
  | false => rfl
  | true =>
      rw [hpq c hp] at hstop
      cases hstop

theorem isTraitIdChar_of_isIdentifierChar {c : Char} (h : ShapeId.isIdentifierChar c = true) :
    isTraitIdChar c = true := by
  simp only [ShapeId.isIdentifierChar, Bool.or_eq_true, beq_iff_eq] at h
  simp only [isTraitIdChar, Bool.or_eq_true, decide_eq_true_eq]
  exact .inl (.inl (.inl h))

namespace Stops

variable {rest : List Char}

theorem traitId (h : Stops isKeyChar rest) : Stops isTraitIdChar rest :=
  h.mono fun _ hc => Bool.or_eq_true_iff.mpr (.inl hc)

theorem identifier (h : Stops isKeyChar rest) : Stops ShapeId.isIdentifierChar rest :=
  h.traitId.mono fun _ hc => isTraitIdChar_of_isIdentifierChar hc

theorem bar (h : Stops isKeyChar rest) : Stops (· = '|') rest :=
  h.mono fun _ hc => Bool.or_eq_true_iff.mpr (.inr hc)

end Stops

theorem isTraitIdChar_of_mem_text {id : ShapeId} (hid : id.WellFormed) {c : Char}
    (hc : c ∈ id.text.toList) : isTraitIdChar c = true := by
  rw [ShapeId.toList_text, List.mem_append, List.mem_cons, List.mem_append] at hc
  rcases hc with hc | rfl | hc | hc
  · rcases ShapeId.char_of_isNamespace hid.namespaceName hc with rfl | hc
    · decide
    · exact isTraitIdChar_of_isIdentifierChar hc
  · decide
  · exact isTraitIdChar_of_isIdentifierChar (ShapeId.isIdentifierChar_of_mem hid.name hc)
  · obtain ⟨member, hmember, hc⟩ := List.mem_flatMap.mp hc
    rcases List.mem_cons.mp hc with rfl | hc
    · decide
    · have hidentifier := hid.member member (Option.mem_toList.mp hmember)
      exact isTraitIdChar_of_isIdentifierChar (ShapeId.isIdentifierChar_of_mem hidentifier hc)

theorem traitKey_append {id : ShapeId} (hid : id.WellFormed) (p : List PathSegment)
    {rest : List Char} (hrest : Stops isKeyChar rest) :
    traitKey ("|".toList ++ (id.text.toList ++ ((renderPath p).toList ++ rest))) =
      .ok (.trait id p, rest) := by
  have hall : ∀ c ∈ id.text.toList, isTraitIdChar c = true := fun c hc =>
    isTraitIdChar_of_mem_text hid hc
  have hstop : Stops isTraitIdChar ((renderPath p).toList ++ rest) := by
    cases p with
    | nil => exact hrest.traitId
    | cons s p =>
        have htext : (renderPath (s :: p)).toList ++ rest =
            '|' :: (s.render.toList ++ ((renderPath p).toList ++ rest)) := by
          simp [renderPath]
        rw [htext]
        exact .cons (by decide) _
  unfold traitKey
  rw [expect_append]
  dsimp only
  rw [takeWhile_append_stops hall hstop, dropWhile_append_stops hall hstop, String.ofList_toList,
    ShapeId.parseRelative_text hid]
  dsimp only
  rw [path_append hrest.bar]
  rfl

section KeyPart

variable {whole key : AttributeKey} {name : String} {parts : List (String × AttributeKey)}
  {rest : List Char}

theorem keyPart_whole (hrest : Stops (· = '|') rest) :
    keyPart whole name parts rest = .ok (whole, rest) := by
  unfold keyPart
  split
  · next tail =>
    have hfalse := hrest '|' rfl
    cases hfalse
  · rfl

theorem keyPart_part (part : String) (hpart : isVariableName part = true)
    (hlookup : parts.lookup part = some key) (hrest : Stops ShapeId.isIdentifierChar rest) :
    keyPart whole name parts ('|' :: (part.toList ++ rest)) = .ok (key, rest) := by
  rw [keyPart, identifier_append hpart hrest]
  simp only [hlookup]

end KeyPart

section Key

variable {rest : List Char} (hrest : Stops ShapeId.isIdentifierChar rest)

include hrest

theorem key_id :
    key (skip ("id".toList ++ rest)) = keyPart .id "id"
      [("namespace", .idNamespace), ("name", .idName), ("member", .idMember)] rest := by
  have hname : isVariableName "id" = true := by decide
  rw [skip_of_isVariableName hname, key, identifier_append hname hrest]
  dsimp only
  rw [if_pos rfl]

theorem key_service :
    key (skip ("service".toList ++ rest)) =
      keyPart .service "service" [("version", .serviceVersion)] rest := by
  have hname : isVariableName "service" = true := by decide
  rw [skip_of_isVariableName hname, key, identifier_append hname hrest]
  dsimp only
  rw [if_neg (by decide), if_pos rfl]

theorem key_trait : key (skip ("trait".toList ++ rest)) = traitKey rest := by
  have hname : isVariableName "trait" = true := by decide
  rw [skip_of_isVariableName hname, key, identifier_append hname hrest]
  dsimp only
  rw [if_neg (by decide), if_neg (by decide), if_pos rfl]

end Key

theorem key_append {k : AttributeKey} (hk : k.WellFormed) {rest : List Char}
    (hrest : Stops isKeyChar rest) :
    key (skip (k.render.toList ++ rest)) = .ok (k, rest) := by
  have hbar (rest : List Char) : Stops ShapeId.isIdentifierChar ('|' :: rest) :=
    .cons (by decide) rest
  cases k with
  | id => exact (key_id hrest.identifier).trans (keyPart_whole hrest.bar)
  | idNamespace =>
      exact (key_id (hbar _)).trans (keyPart_part "namespace" rfl rfl hrest.identifier)
  | idName => exact (key_id (hbar _)).trans (keyPart_part "name" rfl rfl hrest.identifier)
  | idMember => exact (key_id (hbar _)).trans (keyPart_part "member" rfl rfl hrest.identifier)
  | service => exact (key_service hrest.identifier).trans (keyPart_whole hrest.bar)
  | serviceVersion =>
      exact (key_service (hbar _)).trans (keyPart_part "version" rfl rfl hrest.identifier)
  | trait definition p =>
      have htext : (AttributeKey.trait definition p).render.toList ++ rest = "trait".toList ++
          ("|".toList ++ (definition.text.toList ++ ((renderPath p).toList ++ rest))) := by
        simp [AttributeKey.render]
      rw [htext]
      exact (key_trait (hbar _)).trans (traitKey_append hk p hrest)

end SchemaQuery.Lexeme
