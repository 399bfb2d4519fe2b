import SchemaQuery.Proofs.RenderedLexemes

/-!
Reading a text that is followed by a line break and more text. A comment ends with its line, and no
lexeme goes on over a line break outside of quotes, so the lexemes of the text stay the same.
-/

namespace SchemaQuery

namespace Lexeme

/-- A reader reads the same when a line break and more text follow, and leaves them. -/
def Stable {α : Type} (read : List Char → Reading α) : Prop :=
  ∀ cs a left more, read cs = .ok (a, left) →
    read (cs ++ '\n' :: more) = .ok (a, left ++ '\n' :: more)

/-- A reader reads the same when more text follows that does not go on with a certain kind of
character, and leaves that text. -/
def EndsBefore {α : Type} (p : Char → Bool) (read : List Char → Reading α) : Prop :=
  ∀ cs a left more, Stops p more → read cs = .ok (a, left) →
    read (cs ++ more) = .ok (a, left ++ more)

theorem EndsBefore.stable {α : Type} {p : Char → Bool} {read : List Char → Reading α}
    (h : EndsBefore p read) (hp : p '\n' = false) : Stable read := by
  intro cs a left more
  exact h cs a left _ (.cons hp more)

theorem exists_of_append_break {c : Char} (hc : c ≠ '\n') {cs more rest : List Char}
    (h : cs ++ '\n' :: more = c :: rest) : ∃ tail, cs = c :: tail := by
  cases cs with
  | nil =>
      cases h
      exact absurd rfl hc
  | cons d cs =>
      cases h
      exact ⟨cs, rfl⟩

theorem stops_of_ne_cons {c : Char} {cs : List Char} (h : ∀ rest, cs = c :: rest → False) :
    Stops (· = c) cs := by
  cases cs with
  | nil => exact .nil _
  | cons d cs =>
      refine .cons (decide_eq_false ?_) cs
      rintro rfl
      exact h cs rfl

theorem Stops.append {p : Char → Bool} {cs more : List Char} (h : Stops p cs)
    (hmore : cs = [] → Stops p more) : Stops p (cs ++ more) := by
  cases cs with
  | nil => exact hmore rfl
  | cons c cs => exact .cons (h c rfl) _

theorem Stops.append_break {p : Char → Bool} {cs : List Char} (h : Stops p cs)
    (hp : p '\n' = false) (more : List Char) : Stops p (cs ++ '\n' :: more) :=
  h.append fun _ => .cons hp more

theorem stops_dropWhile (p : Char → Bool) (cs : List Char) : Stops p (cs.dropWhile p) := by
  intro c hc
  have hhead := List.head?_dropWhile_not p cs
  rw [hc] at hhead
  simpa using hhead

section LineBreak

variable {cs : List Char} (more : List Char)

theorem isPrefixOf_append_break {text : List Char} (htext : '\n' ∉ text) :
    text.isPrefixOf (cs ++ '\n' :: more) = text.isPrefixOf cs := by
  induction text generalizing cs with
  | nil => simp
  | cons t text ih =>
      obtain ⟨hne, hrest⟩ := not_or.mp (List.mem_cons.not.mp htext)
      cases cs with
      | nil => simp [List.isPrefixOf, Ne.symm hne]
      | cons c cs => simp only [List.cons_append, List.isPrefixOf, ih hrest]

theorem drop_append_of_isPrefixOf {text : String} (n : Nat) (hn : text.length = n)
    (h : text.toList.isPrefixOf cs = true) : (cs ++ more).drop n = cs.drop n ++ more := by
  have hlength := (List.isPrefixOf_iff_prefix.mp h).length_le
  rw [String.length_toList, hn] at hlength
  exact List.drop_append_of_le_length hlength

theorem skipBlank_append_break (inComment : Bool) :
    skipBlank inComment (cs ++ '\n' :: more) =
      match skipBlank inComment cs with
      | [] => skipBlank false more
      | c :: rest => c :: rest ++ '\n' :: more := by
  induction cs generalizing inComment with
  | nil => cases inComment <;> rfl
  | cons c cs ih =>
      -- a single slash at the end of the text does not start a comment with the line break
      have hslashes : (c = '/' ∧ (cs ++ '\n' :: more).head? = some '/') ↔
          (c = '/' ∧ cs.head? = some '/') := by
        cases cs with
        | nil => simp
        | cons d cs => rfl
      simp only [List.cons_append, skipBlank, hslashes]
      split
      · exact ih _
      split
      · exact ih _
      split
      · exact ih _
      · rfl

theorem skip_append_of_ne_nil (h : skip cs ≠ []) :
    skip (cs ++ '\n' :: more) = skip cs ++ '\n' :: more := by
  obtain ⟨c, rest, hskip⟩ := List.exists_cons_of_ne_nil h
  unfold skip at hskip ⊢
  rw [skipBlank_append_break, hskip]

theorem skip_append_of_eq_nil (h : skip cs = []) : skip (cs ++ '\n' :: more) = skip more := by
  unfold skip at h ⊢
  rw [skipBlank_append_break, h]

theorem expect_append_rest {text : String} {left : List Char} (h : expect text cs = .ok left) :
    expect text (cs ++ more) = .ok (left ++ more) := by
  unfold expect at h
  split at h
  next hprefix =>
    cases h
    have hlonger := (List.isPrefixOf_iff_prefix.mp hprefix).trans (List.prefix_append cs more)
    rw [expect, if_pos (List.isPrefixOf_iff_prefix.mpr hlonger),
      drop_append_of_isPrefixOf _ _ rfl hprefix]
  · cases h

end LineBreak

theorem ne_nil_of_expect {text : String} (htext : text ≠ "") {cs left : List Char}
    (h : expect text cs = .ok left) : cs ≠ [] := by
  rintro rfl
  have hlength := length_of_expect h
  rw [List.length_nil] at hlength
  exact htext (String.length_eq_zero_iff.mp (by omega))

section Readers

variable {α β : Type} {read : List Char → Reading α}

theorem Stable.skip (h : Stable read) (hnil : ∀ r, read [] ≠ .ok r) {cs left : List Char} {a : α}
    (more : List Char) (hread : read (skip cs) = .ok (a, left)) :
    read (Lexeme.skip (cs ++ '\n' :: more)) = .ok (a, left ++ '\n' :: more) := by
  have hne : Lexeme.skip cs ≠ [] := by
    intro hskip
    rw [hskip] at hread
    exact hnil _ hread
  rw [skip_append_of_ne_nil more hne]
  exact h _ a left more hread

theorem Stable.map (h : Stable read) (f : α → β) :
    Stable fun cs => (read cs).map fun (a, rest) => (f a, rest) := by
  intro cs b left more hread
  obtain ⟨⟨a, rest⟩, hread, heq⟩ := map_eq_ok_iff.mp hread
  cases heq
  dsimp only
  rw [h cs a left more hread]
  rfl

theorem stable_expect (text : String) (a : α) :
    Stable fun cs => (expect text cs).map fun rest => (a, rest) := by
  intro cs b left more h
  obtain ⟨rest, hrest, heq⟩ := map_eq_ok_iff.mp h
  cases heq
  dsimp only
  rw [expect_append_rest _ hrest]
  rfl

end Readers

theorem endsBefore_identifier : EndsBefore ShapeId.isIdentifierChar identifier := by
  intro cs name left more hmore h
  unfold identifier at h
  split at h
  · cases h
  split at h
  next c tail hstart =>
    cases h
    rw [List.cons_append, identifier, if_pos hstart, ← List.cons_append,
      takeWhile_append_rest hmore, dropWhile_append_rest hmore]
  · cases h

theorem stable_identifier : Stable identifier :=
  endsBefore_identifier.stable (by decide)

theorem quotedBody_plain {start : List Char} {quote c : Char} {read rest : List Char}
    (hlone : c = '\\' → rest = [] → False)
    (hescape : ∀ d after, c = '\\' → rest = d :: after → False) (more : List Char) :
    quotedBody start quote read (c :: rest ++ more) =
      if c = quote then .ok (.ofList read.reverse, rest ++ more)
      else quotedBody start quote (c :: read) (rest ++ more) := by
  have hplain : c ≠ '\\' := by
    intro hc
    cases rest with
    | nil => exact hlone hc rfl
    | cons d after => exact hescape d after hc rfl
  exact quotedBody.eq_4 _ _ _ _ _ (fun hc _ => hplain hc) (fun _ _ hc _ => hplain hc)

theorem quotedBody_append_rest {start : List Char} (start' : List Char) {quote : Char}
    {read cs left : List Char} {text : String} (more : List Char)
    (h : quotedBody start quote read cs = .ok (text, left)) :
    quotedBody start' quote read (cs ++ more) = .ok (text, left ++ more) := by
  fun_induction quotedBody start quote read cs with
  | case1 | case2 => cases h
  | case3 read c rest ih => exact ih h
  | case4 read rest hlone hescape =>
      cases h
      rw [quotedBody_plain hlone hescape, if_pos rfl]
  | case5 read c rest hlone hescape hne ih =>
      rw [quotedBody_plain hlone hescape, if_neg hne]
      exact ih h

theorem stable_value : Stable value := by
  intro cs text left more h
  unfold value at h
  split at h
  · cases h
  next c rest =>
  rw [List.cons_append, value]
  split at h
  next hquote =>
    rw [if_pos hquote]
    exact quotedBody_append_rest _ ('\n' :: more) h
  next hquote =>
  rw [if_neg hquote]
  split at h
  next hbare =>
    cases h
    rw [if_pos hbare, ← List.cons_append, takeWhile_append_rest (.cons (by decide) more),
      dropWhile_append_rest (.cons (by decide) more)]
  · cases h

theorem endsBefore_segment : EndsBefore ShapeId.isIdentifierChar segment := by
  intro cs s left more hmore h
  unfold segment at h
  split at h
  · cases h
  next c rest =>
  split at h
  next hopen =>
    split at h
    next hkeys =>
      obtain ⟨after, hafter⟩ := List.isPrefixOf_iff_prefix.mp hkeys
      rw [← hafter] at h ⊢
      cases h
      rfl
    split at h
    next hvalues =>
      obtain ⟨after, hafter⟩ := List.isPrefixOf_iff_prefix.mp hvalues
      rw [← hafter] at h ⊢
      cases h
      rfl
    split at h
    next hlength =>
      obtain ⟨after, hafter⟩ := List.isPrefixOf_iff_prefix.mp hlength
      rw [← hafter] at h ⊢
      cases h
      rfl
    · cases h
  next hopen =>
  rw [List.cons_append, segment, if_neg hopen]
  split at h
  next hquote =>
    obtain ⟨⟨text, after⟩, hbody, heq⟩ := map_eq_ok_iff.mp h
    cases heq
    rw [if_pos hquote, quotedBody_append_rest _ more hbody]
    rfl
  next hquote =>
  rw [if_neg hquote]
  split at h
  next hchar =>
    cases h
    rw [if_pos hchar, ← List.cons_append, takeWhile_append_rest hmore, dropWhile_append_rest hmore]
  · cases h

theorem stable_label : Stable label := by
  intro cs type left more h
  unfold label at h ⊢
  split at h
  · cases h
  next name rest hname =>
  rw [stable_identifier _ _ _ more hname]
  dsimp only
  split at h
  · cases h
  · cases h
    rfl

section CommaList

variable {α : Type} {item : List Char → Reading α}
  {shorter : ∀ {cs rest : List Char} {a : α}, item cs = .ok (a, rest) → rest.length < cs.length}

/-- A list ends before the line break if something else than blanks is left behind it. -/
theorem commaList_append_break (hitem : Stable item) {cs left : List Char} {as : List α}
    (more : List Char) (h : commaList item shorter cs = .ok (as, left)) (hleft : left ≠ []) :
    commaList item shorter (cs ++ '\n' :: more) = .ok (as, left ++ '\n' :: more) := by
  have hnil : ∀ r, item [] ≠ .ok r := fun r hread => Nat.not_lt_zero _ (shorter hread)
  fun_induction commaList item shorter cs generalizing as left with
  | case1 => cases h
  | case2 cs a rest hread next hnext ih =>
      obtain ⟨⟨others, final⟩, hothers, heq⟩ := map_eq_ok_iff.mp h
      cases heq
      have hskip : skip (rest ++ '\n' :: more) = ',' :: (next ++ '\n' :: more) := by
        rw [skip_append_of_ne_nil more (hnext ▸ List.cons_ne_nil _ _), hnext, List.cons_append]
      rw [commaList_more (hitem.skip hnil more hread) hskip, ih hothers hleft]
      rfl
  | case3 cs a rest hread hnext =>
      cases h
      have hskip := skip_append_of_ne_nil more hleft
      have hcomma : Stops (· = ',') (skip (rest ++ '\n' :: more)) := by
        rw [hskip]
        exact (stops_of_ne_cons hnext).append_break (by decide) more
      rw [commaList_last (hitem.skip hnil more hread) hcomma, hskip]

end CommaList

def isPathChar (c : Char) : Bool :=
  ShapeId.isIdentifierChar c || c = '|'

section Keys

variable {more : List Char}

theorem Stops.ofPath (h : Stops isPathChar more) :
    Stops ShapeId.isIdentifierChar more ∧ Stops (· = '|') more :=
  ⟨h.mono fun _ hc => Bool.or_eq_true_iff.mpr (.inl hc),
    h.mono fun _ hc => Bool.or_eq_true_iff.mpr (.inr hc)⟩

theorem endsBefore_path : EndsBefore isPathChar path := by
  intro cs p left more hmore h
  fun_induction path cs generalizing p left with
  | case1 => cases h
  | case2 tail s rest hsegment ih =>
      obtain ⟨⟨others, final⟩, hothers, heq⟩ := map_eq_ok_iff.mp h
      cases heq
      rw [List.cons_append, path_bar (endsBefore_segment _ _ _ _ hmore.ofPath.1 hsegment),
        ih _ _ hothers]
      rfl
  | case3 cs hbar =>
      cases h
      exact path_stops ((stops_of_ne_cons hbar).append fun _ => hmore.ofPath.2)

theorem traitKey_append_rest {cs left : List Char} {k : AttributeKey}
    (h : traitKey cs = .ok (k, left)) (hmore : Stops isPathChar more)
    (htrait : ∀ id, k = .trait id [] → Stops isTraitIdChar more) :
    traitKey (cs ++ more) = .ok (k, left ++ more) := by
  unfold traitKey at h
  split at h
  · cases h
  next rest hbar =>
  dsimp only at h
  split at h
  · cases h
  next id hid =>
  obtain ⟨⟨p, final⟩, hpath, heq⟩ := map_eq_ok_iff.mp h
  cases heq
  have hall : ∀ c ∈ rest.takeWhile isTraitIdChar, isTraitIdChar c = true := fun _ =>
    List.mem_takeWhile_imp
  -- the id ends at a bar, or else there is no path and it ends before what follows the key
  have hstops : Stops isTraitIdChar (rest.dropWhile isTraitIdChar ++ more) := by
    refine (stops_dropWhile _ rest).append fun hnil => htrait id ?_
    rw [hnil, path_stops (.nil _)] at hpath
    cases hpath
    rfl
  have htext : rest ++ more =
      rest.takeWhile isTraitIdChar ++ (rest.dropWhile isTraitIdChar ++ more) := by
    rw [← List.append_assoc, List.takeWhile_append_dropWhile]
  rw [traitKey, expect_append_rest more hbar]
  dsimp only
  rw [htext, takeWhile_append_stops hall hstops, dropWhile_append_stops hall hstops, hid]
  dsimp only
  rw [endsBefore_path _ _ _ _ hmore hpath]
  rfl

theorem endsBefore_keyPart (whole : AttributeKey) (name : String)
    (parts : List (String × AttributeKey)) : EndsBefore isPathChar (keyPart whole name parts) := by
  intro cs key left more hmore h
  unfold keyPart at h
  split at h
  next rest =>
    rw [List.cons_append, keyPart]
    split at h
    · cases h
    next part rest hpart =>
    rw [endsBefore_identifier _ _ _ _ hmore.ofPath.1 hpart]
    dsimp only
    split at h
    next found hlookup =>
      cases h
      rfl
    · cases h
  next hbar =>
    cases h
    exact keyPart_whole ((stops_of_ne_cons hbar).append fun _ => hmore.ofPath.2)

theorem key_append_rest {cs left : List Char} {k : AttributeKey} (h : key cs = .ok (k, left))
    (hmore : Stops isPathChar more)
    (htrait : ∀ id, k = .trait id [] → Stops isTraitIdChar more) :
    key (cs ++ more) = .ok (k, left ++ more) := by
  unfold key at h ⊢
  split at h
  · cases h
  next name rest hname =>
  rw [endsBefore_identifier _ _ _ _ hmore.ofPath.1 hname]
  dsimp only
  split at h
  next hid =>
    rw [if_pos hid]
    exact endsBefore_keyPart _ _ _ _ _ _ _ hmore h
  next hid =>
  rw [if_neg hid]
  split at h
  next hservice =>
    rw [if_pos hservice]
    exact endsBefore_keyPart _ _ _ _ _ _ _ hmore h
  next hservice =>
  rw [if_neg hservice]
  split at h
  next htext =>
    rw [if_pos htext]
    exact traitKey_append_rest h hmore htrait
  · cases h

theorem stable_key : Stable key := by
  intro cs k left more h
  exact key_append_rest h (.cons (by decide) more) fun _ _ => .cons (by decide) more

end Keys

theorem stable_comparator : Stable comparator := by
  intro cs c left more h
  unfold comparator at h ⊢
  have hsame : (fun c : Comparator => c.symbol.toList.isPrefixOf (cs ++ '\n' :: more)) =
      fun c => c.symbol.toList.isPrefixOf cs := by
    funext c
    exact isPrefixOf_append_break more (by cases c <;> decide)
  rw [hsame]
  split at h
  next found hfound =>
    cases h
    have hprefix := List.find?_some hfound
    rw [drop_append_of_isPrefixOf _ _ rfl hprefix]
  · cases h

theorem stable_filterEnd : Stable filterEnd := by
  intro cs ignoreCase left more h
  unfold filterEnd at h
  split at h
  next rest =>
    rw [List.cons_append, filterEnd]
    refine (stable_expect _ true).skip ?_ more h
    rintro r ⟨⟩
  next hflag =>
    unfold filterEnd
    split
    next rest heq =>
      obtain ⟨tail, rfl⟩ := exists_of_append_break (by decide) heq
      exact absurd rfl (hflag tail)
    · exact stable_expect _ false cs ignoreCase left more h

theorem stable_comparison : Stable comparison := by
  intro cs c left more h
  unfold comparison at h ⊢
  split at h
  · cases h
  next symbol rest hsymbol =>
  rw [stable_comparator _ _ _ more hsymbol]
  dsimp only
  split at h
  · cases h
  next vs rest hvalues =>
  have hne : rest ≠ [] := by
    rintro rfl
    cases h
  rw [values, commaList_append_break stable_value more hvalues hne]
  exact stable_filterEnd.map _ _ _ _ more h

theorem stable_attributeFilter : Stable attributeFilter := by
  intro cs filter left more h
  unfold attributeFilter at h
  split at h
  · cases h
  next key rest hkey =>
  have hnil : ∀ r, Lexeme.key [] ≠ .ok r := by
    rintro r ⟨⟩
  have hne : skip rest ≠ [] := by
    intro hnil
    rw [hnil] at h
    cases h
  rw [attributeFilter, stable_key.skip hnil more hkey]
  dsimp only
  rw [skip_append_of_ne_nil more hne]
  split at h
  next rest heq =>
    cases h
    rw [heq]
    rfl
  next hbracket =>
    split
    next after heq =>
      obtain ⟨tail, heq⟩ := exists_of_append_break (by decide) heq
      exact absurd heq (hbracket tail)
    · exact stable_comparison.map (fun c => (⟨key, some c⟩ : AttributeFilter)) _ _ _ more h

theorem stable_arrow (direction : Direction) {ending : String} (hending : ending ≠ "") :
    Stable (arrow direction ending) := by
  intro cs lexeme left more h
  unfold arrow at h ⊢
  split at h
  · cases h
  next types rest hlabels =>
  obtain ⟨⟨read, final⟩, hread, heq⟩ := map_eq_ok_iff.mp hlabels
  cases heq
  obtain ⟨final, hexpect, heq⟩ := map_eq_ok_iff.mp h
  have hne := ne_nil_of_expect hending hexpect
  rw [labels, commaList_append_break stable_label more hread hne]
  exact stable_expect _ _ _ _ _ more h

theorem stable_function : Stable function := by
  intro cs lexeme left more h
  unfold function at h ⊢
  split at h
  · cases h
  next name rest hname =>
  rw [stable_identifier _ _ _ more hname]
  dsimp only
  split at h
  · cases h
  next kind hkind =>
  refine (stable_expect _ (Lexeme.openFunction kind name)).skip ?_ more h
  rintro r ⟨⟩

theorem stable_variableUse : Stable variableUse := by
  intro cs lexeme left more h
  unfold variableUse at h
  split at h
  next rest =>
    rw [List.cons_append, variableUse]
    split at h
    · cases h
    next name rest hname =>
    rw [stable_identifier _ _ _ more hname]
    exact stable_expect _ _ _ _ _ more h
  next hbrace =>
    unfold variableUse
    split
    next rest heq =>
      obtain ⟨tail, rfl⟩ := exists_of_append_break (by decide) heq
      exact absurd rfl (hbrace tail)
    split at h
    · cases h
    next name rest hname =>
      cases h
      rw [stable_identifier _ _ _ more hname]
      rfl
    next name rest hparenthesis hname =>
      cases h
      rw [stable_identifier _ _ _ more hname]
      split
      next heq => cases heq
      next heq =>
        simp only [Except.ok.injEq, Prod.mk.injEq] at heq
        obtain ⟨tail, heq⟩ := exists_of_append_break (by decide) heq.2
        exact absurd heq (hparenthesis tail)
      next heq =>
        cases heq
        rfl

theorem stable_typeName : Stable typeName := by
  intro cs lexeme left more h
  unfold typeName at h ⊢
  split at h
  · cases h
  next name rest hname =>
  rw [stable_identifier _ _ _ more hname]
  dsimp only
  split at h
  · cases h
  · cases h
    rfl

theorem stable_stageAt (c : Char) : Stable (stageAt c) := by
  intro rest lexeme left more h
  unfold stageAt at h ⊢
  split at h
  next hc =>
    cases h
    rw [if_pos hc]
  next hc =>
  rw [if_neg hc]
  split at h
  next hc =>
    rw [if_pos hc]
    exact stable_attributeFilter.map (fun filter => Lexeme.stage (.attribute filter)) _ _ _ more h
  next hc =>
  rw [if_neg hc]
  split at h
  next hc =>
    cases h
    rw [if_pos hc]
  next hc =>
  rw [if_neg hc]
  split at h
  next hc =>
    rw [if_pos hc]
    exact stable_expect _ _ (c :: rest) _ _ more h
  next hc =>
  rw [if_neg hc]
  split at h
  next hc =>
    rw [if_pos hc]
    split at h
    · cases h
    next after hopen =>
    rw [← List.cons_append, expect_append_rest _ hopen]
    exact stable_arrow _ (by decide) _ _ _ more h
  next hc =>
  rw [if_neg hc]
  split at h
  next hc =>
    rw [if_pos hc]
    split at h
    next after => exact stable_arrow _ (by decide) _ _ _ more h
    next hopen =>
      cases h
      -- the line break stands between this text and the next, so no arrow begins in both
      split
      next after heq =>
        obtain ⟨tail, rfl⟩ := exists_of_append_break (by decide) heq
        obtain ⟨tail, rfl⟩ := exists_of_append_break (by decide) (List.cons.inj heq).2
        exact absurd rfl (hopen tail)
      · rfl
  next hc =>
  rw [if_neg hc]
  split at h
  next hc =>
    rw [if_pos hc]
    exact stable_typeName (c :: rest) _ _ more h
  · cases h

theorem stable_readAt (c : Char) : Stable (readAt c) := by
  intro rest lexeme left more h
  unfold readAt at h ⊢
  split at h
  next hc =>
    cases h
    rw [if_pos hc]
  next hc =>
  rw [if_neg hc]
  split at h
  next hc =>
    cases h
    rw [if_pos hc]
  next hc =>
  rw [if_neg hc]
  split at h
  next hc =>
    rw [if_pos hc]
    exact stable_function _ _ _ more h
  next hc =>
  rw [if_neg hc]
  split at h
  next hc =>
    rw [if_pos hc]
    exact stable_variableUse _ _ _ more h
  next hc =>
    rw [if_neg hc]
    exact stable_stageAt c _ _ _ more h

end Lexeme

namespace Lexemes

inductive Begins : Lexemes → List Lexeme → Lexemes → Prop
  | refl {left : Lexemes} : Begins left [] left
  | next {lexeme : Lexeme} {rest left : Lexemes} {read : List Lexeme} (place : List Char)
      (h : Begins rest read left) : Begins (.next lexeme place rest) (lexeme :: read) left

/-- A text without faults has the same lexemes when more text follows in the next line, and then
those of that text. -/
theorem begins_append_break {cs : List Char} {read : List Lexeme} (more : List Char)
    (h : Begins (.of cs) read .finish) : Begins (.of (cs ++ '\n' :: more)) read (.of more) := by
  fun_induction Lexemes.of cs generalizing read with
  | case1 cs hskip =>
      cases h
      rw [of_congr (Lexeme.skip_append_of_eq_nil more hskip)]
      exact .refl
  | case2 => cases h
  | case3 cs c tail hskip lexeme rest hread ih =>
      cases h with
      | next place h =>
        have hnext : Lexeme.skip (cs ++ '\n' :: more) = c :: (tail ++ '\n' :: more) := by
          rw [Lexeme.skip_append_of_ne_nil more (hskip ▸ List.cons_ne_nil c tail), hskip,
            List.cons_append]
        rw [of_readAt hnext (Lexeme.stable_readAt c _ _ _ more hread)]
        exact .next _ (ih h)

end Lexemes

end SchemaQuery
