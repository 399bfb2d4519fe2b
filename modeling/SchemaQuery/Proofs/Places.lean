import SchemaQuery.Selector.Lexemes

namespace SchemaQuery

def Fault.Inside (cs : List Char) : Fault → Prop
  | .flaw _ place => place <:+ cs
  | .reference _ => True

theorem Fault.Inside.trans {rest cs : List Char} {fault : Fault} (h : fault.Inside rest)
    (hrest : rest <:+ cs) : fault.Inside cs := by
  cases fault with
  | flaw what place => exact List.IsSuffix.trans h hrest
  | reference e => trivial

namespace Lexeme

/-- What is left of a text, or follows the place of a flaw, is an end of the text. -/
def Inside {α : Type} (cs : List Char) : Reading α → Prop
  | .ok (_, rest) => rest <:+ cs
  | .error fault => fault.Inside cs

/-- What is left of a text lacks at least its first character. -/
def Consumes (cs rest : List Char) : Prop :=
  ∃ used, used ≠ [] ∧ cs = used ++ rest

theorem consumes_of_length {cs rest : List Char} (h : rest <:+ cs)
    (hlength : rest.length < cs.length) : Consumes cs rest := by
  obtain ⟨used, rfl⟩ := h
  refine ⟨used, ?_, rfl⟩
  rintro rfl
  exact Nat.lt_irrefl _ hlength

theorem Consumes.of_suffix {cs place rest : List Char} (h : Consumes place rest)
    (hplace : place <:+ cs) : Consumes cs rest := by
  obtain ⟨used, hused, rfl⟩ := h
  obtain ⟨before, rfl⟩ := hplace
  exact ⟨before ++ used, List.append_ne_nil_of_right_ne_nil _ hused, (List.append_assoc _ _ _).symm⟩

section Inside

variable {α β : Type} {cs rest : List Char} {r : Reading α}

theorem Inside.trans (h : Inside rest r) (hrest : rest <:+ cs) : Inside cs r := by
  cases r with
  | ok read => exact List.IsSuffix.trans h hrest
  | error fault => exact Fault.Inside.trans h hrest

theorem Inside.map (h : Inside cs r) (f : α → β) :
    Inside cs (r.map fun (a, rest) => (f a, rest)) := by
  cases r with
  | ok read => exact h
  | error fault => exact h

theorem Inside.left {a : α} (h : Inside cs r) (hr : r = .ok (a, rest)) : rest <:+ cs := by
  subst hr
  exact h

theorem Inside.fault {fault : Fault} (h : Inside cs r) (hr : r = .error fault) :
    fault.Inside cs := by
  subst hr
  exact h

end Inside

theorem suffix_skipBlank (inComment : Bool) (cs : List Char) : skipBlank inComment cs <:+ cs := by
  induction cs generalizing inComment with
  | nil => exact List.nil_suffix
  | cons c rest ih =>
      unfold skipBlank
      split
      · exact (ih _).trans (List.suffix_cons c rest)
      split
      · exact (ih _).trans (List.suffix_cons c rest)
      split
      · exact (ih _).trans (List.suffix_cons c rest)
      · exact List.suffix_refl _

theorem suffix_skip (cs : List Char) : skip cs <:+ cs :=
  suffix_skipBlank false cs

theorem suffix_of_expect {text : String} {cs rest : List Char} (h : expect text cs = .ok rest) :
    rest <:+ cs := by
  unfold expect at h
  split at h
  · cases h
    exact List.drop_suffix _ _
  · cases h

theorem inside_of_expect {text : String} {cs : List Char} {fault : Fault}
    (h : expect text cs = .error fault) : fault.Inside cs := by
  unfold expect at h
  split at h
  · cases h
  · cases h
    exact List.suffix_refl _

theorem inside_expect {α : Type} (text : String) (cs : List Char) (a : α) :
    Inside cs ((expect text cs).map fun rest => (a, rest)) := by
  cases h : expect text cs with
  | error fault => exact inside_of_expect h
  | ok rest => exact suffix_of_expect h

theorem inside_identifier (cs : List Char) : Inside cs (identifier cs) := by
  unfold identifier
  split
  · exact List.suffix_refl _
  split
  · exact List.dropWhile_suffix _
  · exact List.suffix_refl _

theorem inside_quotedBody {start : List Char} (quote : Char) (read : List Char) {cs : List Char}
    (hcs : cs <:+ start) : Inside start (quotedBody start quote read cs) := by
  fun_induction quotedBody start quote read cs with
  | case1 => exact List.suffix_refl _
  | case2 => exact List.nil_suffix
  | case3 read c rest ih => exact ih ((List.suffix_append ['\\', c] rest).trans hcs)
  | case4 read rest => exact (List.suffix_cons _ rest).trans hcs
  | case5 read c rest _ _ _ ih => exact ih ((List.suffix_cons c rest).trans hcs)

theorem inside_value (cs : List Char) : Inside cs (value cs) := by
  unfold value
  split
  · exact List.suffix_refl _
  next c rest =>
  split
  · exact inside_quotedBody c [] (List.suffix_cons c rest)
  split
  · exact List.dropWhile_suffix _
  · exact List.suffix_refl _

theorem inside_segment (cs : List Char) : Inside cs (segment cs) := by
  unfold segment
  split
  · exact List.suffix_refl _
  next c rest =>
  split
  · split
    · exact List.drop_suffix _ _
    split
    · exact List.drop_suffix _ _
    split
    · exact List.drop_suffix _ _
    · exact List.suffix_refl _
  split
  · exact (inside_quotedBody c [] (List.suffix_cons c rest)).map PathSegment.key
  split
  · exact List.dropWhile_suffix _
  · exact List.suffix_refl _

theorem inside_commaList {α : Type} {item : List Char → Reading α}
    {shorter : ∀ {cs rest : List Char} {a : α}, item cs = .ok (a, rest) → rest.length < cs.length}
    (hitem : ∀ cs, Inside cs (item cs)) (cs : List Char) :
    Inside cs (commaList item shorter cs) := by
  fun_induction commaList item shorter cs with
  | case1 cs fault hread => exact ((hitem _).fault hread).trans (suffix_skip cs)
  | case2 cs a rest hread next hnext ih =>
      have hrest := ((hitem _).left hread).trans (suffix_skip cs)
      have hcomma := (suffix_skip rest).trans hrest
      rw [hnext] at hcomma
      exact (ih.map (a :: ·)).trans ((List.suffix_cons _ next).trans hcomma)
  | case3 cs a rest hread =>
      exact (suffix_skip rest).trans (((hitem _).left hread).trans (suffix_skip cs))

theorem inside_label (cs : List Char) : Inside cs (label cs) := by
  unfold label
  split
  next hname => exact (inside_identifier cs).fault hname
  next hname =>
  split
  · trivial
  · exact (inside_identifier cs).left hname

theorem inside_labels (cs : List Char) : Inside cs (labels cs) :=
  (inside_commaList inside_label cs).map List.eraseDups

theorem inside_values (cs : List Char) : Inside cs (values cs) :=
  inside_commaList inside_value cs

theorem inside_path (cs : List Char) : Inside cs (path cs) := by
  fun_induction path cs with
  | case1 tail fault hsegment =>
      exact ((inside_segment tail).fault hsegment).trans (List.suffix_cons _ tail)
  | case2 tail s rest hsegment ih =>
      have hrest := (inside_segment tail).left hsegment
      exact (ih.map (s :: ·)).trans (hrest.trans (List.suffix_cons _ tail))
  | case3 => exact List.suffix_refl _

theorem inside_traitKey (cs : List Char) : Inside cs (traitKey cs) := by
  unfold traitKey
  split
  next hbar => exact inside_of_expect hbar
  next body hbar =>
  have hbody := suffix_of_expect hbar
  dsimp only
  split
  · exact hbody
  next id _ =>
  exact ((inside_path _).map (AttributeKey.trait id)).trans
    ((List.dropWhile_suffix _).trans hbody)

theorem inside_keyPart (whole : AttributeKey) (name : String)
    (parts : List (String × AttributeKey)) (cs : List Char) :
    Inside cs (keyPart whole name parts cs) := by
  unfold keyPart
  split
  next rest =>
    have hrest := List.suffix_cons '|' rest
    split
    next hpart => exact ((inside_identifier rest).fault hpart).trans hrest
    next hpart =>
    split
    · exact ((inside_identifier rest).left hpart).trans hrest
    · trivial
  · exact List.suffix_refl _

theorem inside_key (cs : List Char) : Inside cs (key cs) := by
  unfold key
  split
  next hname => exact (inside_identifier cs).fault hname
  next hname =>
  have hrest := (inside_identifier cs).left hname
  split
  · exact (inside_keyPart _ _ _ _).trans hrest
  split
  · exact (inside_keyPart _ _ _ _).trans hrest
  split
  · exact (inside_traitKey _).trans hrest
  · trivial

theorem inside_comparator (cs : List Char) : Inside cs (comparator cs) := by
  unfold comparator
  split
  · exact List.drop_suffix _ _
  · exact List.suffix_refl _

theorem inside_filterEnd (cs : List Char) : Inside cs (filterEnd cs) := by
  unfold filterEnd
  split
  next rest =>
    exact (inside_expect "]" (skip rest) true).trans
      ((suffix_skip rest).trans (List.suffix_cons _ rest))
  · exact inside_expect "]" cs false

theorem inside_comparison (cs : List Char) : Inside cs (comparison cs) := by
  unfold comparison
  split
  next hcomparator => exact (inside_comparator cs).fault hcomparator
  next comparator rest hcomparator =>
  have hrest := (inside_comparator cs).left hcomparator
  split
  next hvalues => exact ((inside_values rest).fault hvalues).trans hrest
  next vs left hvalues =>
  have hleft := ((inside_values rest).left hvalues).trans hrest
  exact ((inside_filterEnd left).map (Comparison.mk comparator vs)).trans hleft

theorem inside_attributeFilter (cs : List Char) : Inside cs (attributeFilter cs) := by
  have hskip := suffix_skip cs
  unfold attributeFilter
  split
  next hkey => exact ((inside_key _).fault hkey).trans hskip
  next key rest hkey =>
  have hrest := ((inside_key _).left hkey).trans hskip
  have hnext := (suffix_skip rest).trans hrest
  split
  next tail hbracket =>
    rw [hbracket] at hnext
    exact (List.suffix_cons _ tail).trans hnext
  · exact ((inside_comparison _).map fun c => (⟨key, some c⟩ : AttributeFilter)).trans hnext

theorem inside_arrow (direction : Direction) (ending : String) (cs : List Char) :
    Inside cs (arrow direction ending cs) := by
  unfold arrow
  split
  next hlabels => exact (inside_labels cs).fault hlabels
  next types rest hlabels =>
  exact (inside_expect ending rest _).trans ((inside_labels cs).left hlabels)

theorem inside_function (cs : List Char) : Inside cs (function cs) := by
  unfold function
  split
  next hname => exact (inside_identifier cs).fault hname
  next name rest hname =>
  have hrest := (inside_identifier cs).left hname
  split
  · trivial
  · exact (inside_expect "(" (skip rest) _).trans ((suffix_skip rest).trans hrest)

theorem inside_variableUse (cs : List Char) : Inside cs (variableUse cs) := by
  unfold variableUse
  split
  next rest =>
    have hrest := List.suffix_cons '\x7b' rest
    split
    next hname => exact ((inside_identifier rest).fault hname).trans hrest
    next name left hname =>
    exact (inside_expect "\x7d" left _).trans (((inside_identifier rest).left hname).trans hrest)
  · split
    next hname => exact (inside_identifier cs).fault hname
    next name rest hname =>
      exact (List.suffix_cons _ rest).trans ((inside_identifier cs).left hname)
    next hname => exact (inside_identifier cs).left hname

theorem inside_typeName (cs : List Char) : Inside cs (typeName cs) := by
  unfold typeName
  split
  next hname => exact (inside_identifier cs).fault hname
  next hname =>
  split
  · trivial
  · exact (inside_identifier cs).left hname

theorem inside_stageAt (c : Char) (rest : List Char) : Inside (c :: rest) (stageAt c rest) := by
  have hrest := List.suffix_cons c rest
  unfold stageAt
  split
  · exact hrest
  split
  · exact ((inside_attributeFilter rest).map fun filter => Lexeme.stage (.attribute filter)).trans
      hrest
  split
  · exact hrest
  split
  · exact inside_expect "~>" (c :: rest) _
  split
  · split
    next hopen => exact inside_of_expect hopen
    next left hopen => exact (inside_arrow _ _ left).trans (suffix_of_expect hopen)
  split
  · split
    next left => exact (inside_arrow _ _ left).trans (List.suffix_append [c, '-', '['] left)
    · exact hrest
  split
  · exact inside_typeName (c :: rest)
  · exact List.suffix_refl _

theorem inside_readAt (c : Char) (rest : List Char) : Inside (c :: rest) (readAt c rest) := by
  have hrest := List.suffix_cons c rest
  unfold readAt
  split
  · exact hrest
  split
  · exact hrest
  split
  · exact (inside_function rest).trans hrest
  split
  · exact (inside_variableUse rest).trans hrest
  · exact inside_stageAt c rest

theorem consumes_of_value {cs rest : List Char} {text : String} (h : value cs = .ok (text, rest)) :
    Consumes cs rest :=
  consumes_of_length ((inside_value cs).left h) (length_of_value h)

theorem consumes_of_label {cs rest : List Char} {type : RelationshipType}
    (h : label cs = .ok (type, rest)) : Consumes cs rest :=
  consumes_of_length ((inside_label cs).left h) (length_of_label h)

theorem consumes_of_readAt {c : Char} {tail rest : List Char} {lexeme : Lexeme}
    (h : readAt c tail = .ok (lexeme, rest)) : Consumes (c :: tail) rest :=
  consumes_of_length ((inside_readAt c tail).left h) (Nat.lt_succ_of_le (length_of_readAt h))

end Lexeme

end SchemaQuery
