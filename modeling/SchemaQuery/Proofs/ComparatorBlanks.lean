import SchemaQuery.Proofs.FollowingText
import SchemaQuery.Proofs.TextPaths

namespace SchemaQuery

theorem ShapeId.exists_last_of_isIdentifier {cs : List Char} (h : isIdentifier cs = true) :
    ∃ first c, cs = first ++ [c] ∧ isIdentifierChar c = true := by
  have hne : cs ≠ [] := by
    rintro rfl
    cases h
  have hlast := (List.dropLast_append_getLast hne).symm
  exact ⟨_, _, hlast, isIdentifierChar_of_mem h (List.getLast_mem hne)⟩

theorem ShapeId.WellFormed.exists_last {id : ShapeId} (hid : id.WellFormed) :
    ∃ first c, id.text.toList = first ++ [c] ∧ isIdentifierChar c = true := by
  obtain ⟨space, name, member⟩ := id
  rw [toList_text]
  cases member with
  | none =>
      obtain ⟨first, c, hname, hc⟩ := exists_last_of_isIdentifier hid.name
      refine ⟨space.toList ++ '#' :: first, c, ?_, hc⟩
      simp [hname]
  | some member =>
      obtain ⟨first, c, hmember, hc⟩ := exists_last_of_isIdentifier (hid.member member rfl)
      refine ⟨space.toList ++ '#' :: (name.toList ++ '$' :: first), c, ?_, hc⟩
      simp [hmember]

theorem ShapeId.parse_dollar (cs : List Char) (id : ShapeId) :
    parse (.ofList (cs ++ ['$'])) ≠ .ok id := by
  intro h
  obtain ⟨hid, htext⟩ := parse_eq_ok_iff.mp h
  obtain ⟨first, c, hlast, hc⟩ := hid.exists_last
  rw [htext, String.toList_ofList] at hlast
  obtain ⟨-, hdollar⟩ := List.append_inj' hlast rfl
  cases hdollar
  exact absurd hc (by decide)

theorem ShapeId.exists_parseRelative_dollar_eq_error (cs : List Char) (space : String) :
    ∃ e, parseRelative (.ofList (cs ++ ['$'])) space = .error e := by
  have hlonger : space ++ "#" ++ String.ofList (cs ++ ['$']) =
      .ofList (space.toList ++ '#' :: cs ++ ['$']) := by
    apply String.toList_injective
    simp
  cases h : parseRelative (.ofList (cs ++ ['$'])) space with
  | error e => exact ⟨e, rfl⟩
  | ok id =>
      unfold parseRelative at h
      rw [hlonger] at h
      split at h
      · exact absurd h (parse_dollar _ id)
      · exact absurd h (parse_dollar _ id)

namespace Lexeme

section Keys

variable {k : AttributeKey} {cs rest : List Char}

theorem skip_of_key (h : key cs = .ok (k, rest)) (more : List Char) :
    skip (cs ++ more) = cs ++ more := by
  cases cs with
  | nil => cases h
  | cons c cs =>
      have hstart : c.isAlpha ∨ c = '_' := by
        by_contra hstart
        rw [key, identifier, if_neg hstart] at h
        cases h
      have hc := isIdentifierChar_of_start hstart
      apply skip_of_not_blank
      · exact isBlank_of_isIdentifierChar hc
      · rintro rfl
        exact absurd hc (by decide)

theorem attributeFilter_bare (h : key cs = .ok (k, [])) (rest : List Char) :
    attributeFilter (cs ++ ']' :: rest) = .ok (⟨k, none⟩, rest) := by
  have hkey : key (cs ++ ']' :: rest) = .ok (k, ']' :: rest) :=
    key_append_rest h (.cons (by decide) rest) fun _ _ => .cons (by decide) rest
  rw [attributeFilter, skip_of_key h, hkey]
  dsimp only
  rw [skip_of_not_blank (by decide) (by decide)]
  rfl

theorem attributeFilter_symbol (hkey : key cs = .ok (k, rest)) (c : Comparator)
    (more : List Char) (hskip : skip rest = c.symbol.toList ++ more) :
    attributeFilter cs = (comparison (c.symbol.toList ++ more)).map fun (comparison, rest) =>
      (⟨k, some comparison⟩, rest) := by
  have hstart := skip_of_key hkey []
  rw [List.append_nil] at hstart
  rw [attributeFilter, hstart, hkey]
  dsimp only
  rw [hskip]
  cases c <;> rfl

end Keys

section Comparators

variable (c : Comparator)

theorem skip_symbol (rest : List Char) :
    skip (c.symbol.toList ++ rest) = c.symbol.toList ++ rest := by
  obtain ⟨d, cs, hsymbol, hblank, hslash, -⟩ := exists_toList_symbol c
  rw [hsymbol, List.cons_append, skip_of_not_blank hblank hslash]

theorem stops_symbol (rest : List Char) : Stops isPathChar (c.symbol.toList ++ rest) := by
  cases c <;> exact .cons (by decide) _

theorem stops_symbol_of_ne (hc : c ≠ .endsWith) (rest : List Char) :
    Stops isTraitIdChar (c.symbol.toList ++ rest) := by
  cases c with
  | endsWith => exact absurd rfl hc
  | _ => exact .cons (by decide) _

variable {q : Char} (hq : isQuote q = true)

include hq

theorem comparison_quote (rest : List Char) :
    comparison (c.symbol.toList ++ q :: rest) =
      comparison (c.symbol.toList ++ ' ' :: q :: rest) := by
  have hglued : comparator (c.symbol.toList ++ q :: rest) = .ok (c, q :: rest) := by
    simp only [isQuote, Bool.or_eq_true, decide_eq_true_eq] at hq
    rcases hq with rfl | rfl
    · cases c <;> rfl
    · cases c <;> rfl
  unfold comparison
  rw [hglued, comparator_append]
  dsimp only
  rw [values, values, commaList_blank]

theorem value_quote {body : List Char} {text : String}
    (h : value (q :: body) = .ok (text, [])) (rest : List Char) :
    value (q :: body ++ rest) = .ok (text, rest) := by
  rw [value, if_pos hq] at h
  rw [List.cons_append, value, if_pos hq]
  exact quotedBody_append_rest _ rest h

theorem comparison_value {body : List Char} {text : String}
    (h : value (q :: body) = .ok (text, [])) (rest : List Char) :
    comparison (c.symbol.toList ++ ' ' :: (q :: body ++ ']' :: rest)) =
      .ok (⟨c, [text], false⟩, rest) := by
  have hblank : isBlank q = false ∧ q ≠ '/' := by
    simp only [isQuote, Bool.or_eq_true, decide_eq_true_eq] at hq
    rcases hq with rfl | rfl <;> decide
  have hbracket : skip (']' :: rest) = ']' :: rest := skip_of_not_blank (by decide) (by decide)
  have hitem : value (skip (q :: body ++ ']' :: rest)) = .ok (text, ']' :: rest) := by
    rw [List.cons_append, skip_of_not_blank hblank.1 hblank.2, ← List.cons_append]
    exact value_quote hq h _
  rw [comparison, comparator_append]
  dsimp only
  have hcomma : Stops (· = ',') (skip (']' :: rest)) := by
    rw [hbracket]
    exact .cons (by decide) rest
  rw [values, commaList_blank, commaList_last hitem hcomma, hbracket]
  rfl

end Comparators

theorem eq_of_path {cs left : List Char} (h : path cs = .ok ([], left)) : left = cs := by
  unfold path at h
  split at h
  · split at h
    · cases h
    · obtain ⟨_, -, heq⟩ := map_eq_ok_iff.mp h
      cases heq
  · cases h
    rfl

/-- The dollar sign after the id of a trait makes it no id. -/
theorem exists_traitKey_dollar_eq_error {cs : List Char} {id : ShapeId}
    (h : traitKey cs = .ok (.trait id [], [])) {rest : List Char}
    (hrest : Stops isTraitIdChar rest) :
    ∃ e place, traitKey (cs ++ '$' :: rest) = .error (.flaw (.badTraitId e) place) := by
  unfold traitKey at h
  split at h
  · cases h
  next body hbar =>
  dsimp only at h
  split at h
  · cases h
  obtain ⟨⟨p, left⟩, hpath, heq⟩ := map_eq_ok_iff.mp h
  cases heq
  -- without a path nothing of the key is left behind its id, which the dollar sign goes on with
  have hall : ∀ c ∈ body ++ ['$'], isTraitIdChar c = true := by
    rw [List.forall_mem_append]
    exact ⟨List.dropWhile_eq_nil_iff.mp (eq_of_path hpath).symm,
      List.forall_mem_singleton.mpr (by decide)⟩
  obtain ⟨e, he⟩ :=
    ShapeId.exists_parseRelative_dollar_eq_error body ShapeId.preludeNamespace
  have hne : String.ofList (body ++ ['$']) ≠ "" := by
    intro hempty
    have hnil := congrArg String.toList hempty
    simp at hnil
  have htake : (body ++ '$' :: rest).takeWhile isTraitIdChar = body ++ ['$'] := by
    rw [List.append_cons, takeWhile_append_stops hall hrest]
  refine ⟨e, body ++ '$' :: rest, ?_⟩
  rw [traitKey, expect_append_rest _ hbar]
  dsimp only
  rw [htake, he]
  dsimp only
  rw [if_neg hne]

theorem exists_key_dollar_eq_error {cs : List Char} {id : ShapeId}
    (h : key cs = .ok (.trait id [], [])) {rest : List Char} (hrest : Stops isTraitIdChar rest) :
    ∃ e place, key (cs ++ '$' :: rest) = .error (.flaw (.badTraitId e) place) := by
  unfold key at h
  split at h
  · cases h
  next name left hname =>
  have hread : identifier (cs ++ '$' :: rest) = .ok (name, left ++ '$' :: rest) :=
    endsBefore_identifier _ _ _ _ (.cons (by decide) rest) hname
  unfold key
  rw [hread]
  dsimp only
  split at h
  next hid =>
    refine absurd rfl (of_keyPart (p := (· ≠ .trait id [])) ?_ ?_ h)
    · rintro ⟨⟩
    · simp
  next hid =>
  split at h
  next hservice =>
    refine absurd rfl (of_keyPart (p := (· ≠ .trait id [])) ?_ ?_ h)
    · rintro ⟨⟩
    · simp
  next hservice =>
  split at h
  next htrait =>
    rw [if_neg hid, if_neg hservice, if_pos htrait]
    exact exists_traitKey_dollar_eq_error h hrest
  · cases h

section Filters

variable {k : AttributeKey} {cs : List Char} (hkey : key cs = .ok (k, []))

include hkey

theorem attributeFilter_spaced (c : Comparator) (rest : List Char) :
    attributeFilter (cs ++ ' ' :: (c.symbol.toList ++ ' ' :: rest)) =
      (comparison (c.symbol.toList ++ ' ' :: rest)).map fun (comparison, rest) =>
        (⟨k, some comparison⟩, rest) := by
  refine attributeFilter_symbol (key_append_rest hkey ?_ fun _ _ => ?_) c _ ?_
  · exact .cons (by decide) _
  · exact .cons (by decide) _
  · rw [List.nil_append, skip_blank, skip_symbol]

theorem attributeFilter_glued {c : Comparator} (htrait : c = .endsWith → ∀ id, k ≠ .trait id [])
    {q : Char} (hq : isQuote q = true) (rest : List Char) :
    attributeFilter (cs ++ (c.symbol.toList ++ q :: rest)) =
      attributeFilter (cs ++ ' ' :: (c.symbol.toList ++ ' ' :: q :: rest)) := by
  rw [attributeFilter_spaced hkey, ← comparison_quote c hq]
  refine attributeFilter_symbol (key_append_rest hkey ?_ ?_) c _ ?_
  · exact stops_symbol c _
  · rintro id rfl
    exact stops_symbol_of_ne c (fun hc => htrait hc id rfl) _
  · rw [List.nil_append, skip_symbol]

theorem exists_attributeFilter_dollar_eq_error {id : ShapeId} (hid : k = .trait id [])
    (rest : List Char) :
    ∃ e place, attributeFilter (cs ++ (Comparator.endsWith.symbol.toList ++ rest)) =
      .error (.flaw (.badTraitId e) place) := by
  subst hid
  have hequals : Stops isTraitIdChar ('=' :: rest) := .cons (by decide) _
  obtain ⟨e, place, herror⟩ := exists_key_dollar_eq_error hkey hequals
  have hsymbol : Comparator.endsWith.symbol.toList ++ rest = '$' :: '=' :: rest := rfl
  refine ⟨e, place, ?_⟩
  rw [hsymbol, attributeFilter, skip_of_key hkey, herror]

end Filters

end Lexeme

namespace Selector

open Lexeme

theorem parse_bracket {text : String} {tail : List Char} (htext : text.toList = '[' :: tail) :
    parse text =
      ((attributeFilter tail).bind fun read =>
        assemble ((Level.start []).add (.attribute read.1)) [] (.of read.2)).mapError
          fun fault => fault.toError text := by
  have hskip : skip ('[' :: tail) = '[' :: tail := skip_of_not_blank (by decide) (by decide)
  have hread : readAt '[' tail = (attributeFilter tail).map fun read =>
    (.stage (.attribute read.1), read.2) := rfl
  rw [parse_eq_mapError, htext, Lexemes.of_cons hskip, hread]
  cases attributeFilter tail with
  | error fault => rfl
  | ok read => rfl

theorem parse_bracket_eq_ok {text : String} {tail : List Char} {filter : AttributeFilter}
    (htext : text.toList = '[' :: tail) (h : attributeFilter tail = .ok (filter, [])) :
    parse text = .ok [[.attribute filter]] := by
  rw [parse_bracket htext, h, Except.bind, Lexemes.of_nil]
  rfl

theorem parse_bracket_congr {text other : String} {tail tail' : List Char}
    (htext : text.toList = '[' :: tail) (hother : other.toList = '[' :: tail')
    (h : attributeFilter tail = attributeFilter tail') (s : Selector) :
    parse text = .ok s ↔ parse other = .ok s := by
  simp only [parse_bracket htext, parse_bracket hother, h, mapError_eq_ok_iff]

/-- Blanks around a comparator make no difference in front of a quote, except in one place: right
after the id of a trait without a path, the dollar sign of `$=` goes on with the id, and the text is
refused. With the blanks a bare key and a quoted value always make a filter. -/
theorem parse_comparator_blanks {k v : String} {key : AttributeKey}
    (hkey : Lexeme.key k.toList = .ok (key, [])) (hquote : v.toList.head?.any isQuote = true)
    (c : Comparator) :
    let glued := "[" ++ k ++ c.symbol ++ v ++ "]"
    let spaced := "[" ++ k ++ " " ++ c.symbol ++ " " ++ v ++ "]"
    parse ("[" ++ k ++ "]") = .ok [[.attribute ⟨key, none⟩]] ∧
    (∀ text, Lexeme.value v.toList = .ok (text, []) →
      parse spaced = .ok [[.attribute ⟨key, some ⟨c, [text], false⟩⟩]]) ∧
    ((c = .endsWith → ∀ id, key ≠ .trait id []) →
      ∀ s, parse glued = .ok s ↔ parse spaced = .ok s) ∧
    ∀ id, c = .endsWith → key = .trait id [] →
      ∃ position e, parse glued = .error (.malformed position (.badTraitId e) glued) := by
  intro glued spaced
  obtain ⟨q, body, hbody, hq⟩ : ∃ q body, v.toList = q :: body ∧ isQuote q = true := by
    cases hv : v.toList with
    | nil =>
        rw [hv] at hquote
        cases hquote
    | cons q body =>
        rw [hv] at hquote
        exact ⟨q, body, rfl, hquote⟩
  have hglued : glued.toList =
      '[' :: (k.toList ++ (c.symbol.toList ++ q :: (body ++ [']']))) := by
    simp [glued, hbody]
  have hspaced : spaced.toList =
      '[' :: (k.toList ++ ' ' :: (c.symbol.toList ++ ' ' :: q :: (body ++ [']']))) := by
    simp [spaced, hbody]
  refine ⟨?_, ?_, ?_, ?_⟩
  · have htext : ("[" ++ k ++ "]").toList = '[' :: (k.toList ++ [']']) := by simp
    exact parse_bracket_eq_ok htext (attributeFilter_bare hkey [])
  · intro text hvalue
    rw [hbody] at hvalue
    refine parse_bracket_eq_ok hspaced ?_
    have hcomparison := comparison_value c hq hvalue []
    rw [List.cons_append] at hcomparison
    rw [attributeFilter_spaced hkey, hcomparison]
    rfl
  · intro htrait
    exact parse_bracket_congr hglued hspaced (attributeFilter_glued hkey htrait hq _)
  · rintro id rfl hid
    obtain ⟨e, place, herror⟩ := exists_attributeFilter_dollar_eq_error hkey hid _
    rw [parse_bracket hglued, herror]
    exact ⟨_, e, rfl⟩

theorem parse_comparator_blanks_member :
    Lexeme.key "id|member".toList = .ok (.idMember, []) ∧
    Lexeme.key "trait|a#T".toList = .ok (.trait ⟨"a", "T", none⟩ [], []) ∧
    parse "[id|member$='x']" = .ok [[.attribute ⟨.idMember, some ⟨.endsWith, ["x"], false⟩⟩]] ∧
    (parse "[trait|a#T$='x']").isOk = false := by
  have hmember : Lexeme.key "id|member".toList = .ok (.idMember, []) := by decide +kernel
  have htrait : Lexeme.key "trait|a#T".toList = .ok (.trait ⟨"a", "T", none⟩ [], []) := by decide +kernel
  have hvalue : Lexeme.value "'x'".toList = .ok ("x", []) := by decide +kernel
  have h := parse_comparator_blanks (v := "'x'") hmember (by decide) .endsWith
  obtain ⟨position, e, hrefused⟩ :=
    (parse_comparator_blanks (v := "'x'") htrait (by decide) .endsWith).2.2.2 _ rfl rfl
  have hglued := (h.2.2.1 (fun _ id => by simp) _).mpr (h.2.1 "x" hvalue)
  have htext (k : String) : "[" ++ k ++ Comparator.endsWith.symbol ++ "'x'" ++ "]" =
      "[" ++ k ++ "$='x']" := by simp [Comparator.symbol, String.append_assoc]
  rw [htext] at hglued hrefused
  refine ⟨hmember, htrait, hglued, ?_⟩
  change (parse ("[" ++ "trait|a#T" ++ "$='x']")).isOk = false
  rw [hrefused]
  rfl

theorem parse_glued_endsWith :
    parse "[trait|a#T]" = .ok [[.attribute ⟨.trait ⟨"a", "T", none⟩ [], none⟩]] ∧
    parse "[trait|a#T $= 'x']" =
      .ok [[.attribute ⟨.trait ⟨"a", "T", none⟩ [], some ⟨.endsWith, ["x"], false⟩⟩]] ∧
    parse "[trait|a#T$='x']" =
      .error (.malformed 7 (.badTraitId ⟨"a#T$", .badMember⟩) "[trait|a#T$='x']") := by
  have hbare : "[trait|a#T]".toList = '[' :: "trait|a#T]".toList := by decide
  have hspaced : "[trait|a#T $= 'x']".toList = '[' :: "trait|a#T $= 'x']".toList := by decide
  have hglued : "[trait|a#T$='x']".toList = '[' :: "trait|a#T$='x']".toList := by decide
  have hrefused : attributeFilter "trait|a#T$='x']".toList =
      .error (.flaw (.badTraitId ⟨"a#T$", .badMember⟩) "a#T$='x']".toList) := by decide +kernel
  refine ⟨parse_bracket_eq_ok hbare (by decide +kernel), parse_bracket_eq_ok hspaced (by decide +kernel), ?_⟩
  rw [parse_bracket hglued, hrefused]
  rfl

end Selector

end SchemaQuery
