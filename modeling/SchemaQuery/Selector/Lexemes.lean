import SchemaQuery.Except
import SchemaQuery.Selector.Lexeme

namespace SchemaQuery

namespace Lexeme

theorem length_of_expect {text : String} {cs rest : List Char}
    (h : expect text cs = .ok rest) : rest.length + text.length = cs.length := by
  unfold expect at h
  split at h
  · next hpre =>
    have hle := (List.isPrefixOf_iff_prefix.mp hpre).length_le
    simp only [String.length_toList] at hle
    simp only [Except.ok.injEq] at h
    simp only [← h, List.length_drop]
    omega
  · simp at h

theorem length_of_commaList {α : Type} {item : List Char → Reading α}
    {shorter : ∀ {cs rest : List Char} {a : α}, item cs = .ok (a, rest) → rest.length < cs.length}
    {cs rest : List Char} {as : List α} (h : commaList item shorter cs = .ok (as, rest)) :
    rest.length < cs.length := by
  fun_induction commaList item shorter cs generalizing as rest with
  | case1 => simp at h
  | case2 cs a left hitem next hnext ih =>
    have h₁ := shorter hitem
    have h₂ := length_skip cs
    have h₃ := length_skip left
    obtain ⟨⟨as, r⟩, hrest, hr⟩ := map_eq_ok_iff.mp h
    have h₄ := ih hrest
    grind
  | case3 =>
    next cs a left hitem hnext =>
    have h₁ := shorter hitem
    have h₂ := length_skip cs
    have h₃ := length_skip left
    grind

theorem length_of_values {cs rest : List Char} {vs : List String}
    (h : values cs = .ok (vs, rest)) : rest.length < cs.length :=
  length_of_commaList h

theorem length_of_labels {cs rest : List Char} {ls : List RelationshipType}
    (h : labels cs = .ok (ls, rest)) : rest.length < cs.length := by
  obtain ⟨⟨ls, r⟩, hlabels, hr⟩ := map_eq_ok_iff.mp h
  have := length_of_commaList hlabels
  grind

theorem length_of_path {cs rest : List Char} {p : List PathSegment}
    (h : path cs = .ok (p, rest)) : rest.length ≤ cs.length := by
  fun_induction path cs generalizing p rest with
  | case1 => simp at h
  | case2 tail s left hseg ih =>
    have h₁ := length_of_segment hseg
    obtain ⟨⟨p, r⟩, hrest, hr⟩ := map_eq_ok_iff.mp h
    have h₂ := ih hrest
    grind
  | case3 => grind

theorem length_of_traitKey {cs rest : List Char} {key : AttributeKey}
    (h : traitKey cs = .ok (key, rest)) : rest.length ≤ cs.length := by
  unfold traitKey at h
  have hdrop (cs : List Char) : (cs.dropWhile isTraitIdChar).length ≤ cs.length :=
    (List.dropWhile_suffix _).length_le
  grind [= map_eq_ok_iff, → length_of_expect, → length_of_path]

theorem length_of_keyPart {whole : AttributeKey} {name : String}
    {parts : List (String × AttributeKey)} {cs rest : List Char} {key : AttributeKey}
    (h : keyPart whole name parts cs = .ok (key, rest)) : rest.length ≤ cs.length := by
  unfold keyPart at h
  grind [→ length_of_identifier]

theorem length_of_key {cs rest : List Char} {k : AttributeKey}
    (h : key cs = .ok (k, rest)) : rest.length < cs.length := by
  unfold key at h
  grind [→ length_of_identifier, → length_of_keyPart, → length_of_traitKey]

theorem length_of_comparator {cs rest : List Char} {c : Comparator}
    (h : comparator cs = .ok (c, rest)) : rest.length ≤ cs.length := by
  unfold comparator at h
  grind

theorem length_of_filterEnd {cs rest : List Char} {b : Bool}
    (h : filterEnd cs = .ok (b, rest)) : rest.length ≤ cs.length := by
  unfold filterEnd at h
  grind [= map_eq_ok_iff, → length_of_expect]

theorem length_of_comparison {cs rest : List Char} {c : Comparison}
    (h : comparison cs = .ok (c, rest)) : rest.length < cs.length := by
  unfold comparison at h
  grind [= map_eq_ok_iff, → length_of_comparator, → length_of_values, → length_of_filterEnd]

theorem length_of_attributeFilter {cs rest : List Char} {filter : AttributeFilter}
    (h : attributeFilter cs = .ok (filter, rest)) : rest.length < cs.length := by
  unfold attributeFilter at h
  grind [= map_eq_ok_iff, → length_of_key, → length_of_comparison]

theorem length_of_arrow {direction : Direction} {ending : String} {cs rest : List Char}
    {l : Lexeme} (h : arrow direction ending cs = .ok (l, rest)) : rest.length < cs.length := by
  unfold arrow at h
  grind [= map_eq_ok_iff, → length_of_labels, → length_of_expect]

theorem length_of_function {cs rest : List Char} {l : Lexeme}
    (h : function cs = .ok (l, rest)) : rest.length < cs.length := by
  unfold function at h
  grind [= map_eq_ok_iff, → length_of_identifier, → length_of_expect]

theorem length_of_variableUse {cs rest : List Char} {l : Lexeme}
    (h : variableUse cs = .ok (l, rest)) : rest.length < cs.length := by
  unfold variableUse at h
  grind [= map_eq_ok_iff, → length_of_identifier, → length_of_expect]

theorem length_of_typeName {cs rest : List Char} {l : Lexeme}
    (h : typeName cs = .ok (l, rest)) : rest.length < cs.length := by
  unfold typeName at h
  grind [→ length_of_identifier]

theorem length_of_stageAt {c : Char} {cs rest : List Char} {l : Lexeme}
    (h : stageAt c cs = .ok (l, rest)) : rest.length ≤ cs.length := by
  unfold stageAt at h
  have htilde : "~>".length = 2 := rfl
  grind [= map_eq_ok_iff, → length_of_attributeFilter, → length_of_arrow,
    → length_of_typeName, → length_of_expect]

theorem length_of_readAt {c : Char} {cs rest : List Char} {l : Lexeme}
    (h : readAt c cs = .ok (l, rest)) : rest.length ≤ cs.length := by
  unfold readAt at h
  grind [→ length_of_function, → length_of_variableUse, → length_of_stageAt]

end Lexeme

/-- The lexemes of a text, each with the characters from it on. -/
inductive Lexemes where
  | finish
  | fault (fault : Fault)
  | next (lexeme : Lexeme) (place : List Char) (rest : Lexemes)
deriving Inhabited

def Lexemes.of (cs : List Char) : Lexemes :=
  match _hskip : Lexeme.skip cs with
  | [] => .finish
  | c :: tail =>
    match _hread : Lexeme.readAt c tail with
    | .error f => .fault f
    | .ok (lexeme, rest) => .next lexeme (c :: tail) (of rest)
termination_by cs.length
decreasing_by
  have hread := Lexeme.length_of_readAt ‹Lexeme.readAt c tail = .ok (lexeme, rest)›
  have hskip := Lexeme.length_skip cs
  rw [‹Lexeme.skip cs = c :: tail›, List.length_cons] at hskip
  omega

end SchemaQuery
