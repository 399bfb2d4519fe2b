import SchemaQuery.Proofs.Places
import SchemaQuery.Selector.Parse

/-!
Texts cut at bytes. A place that is given by a byte may lie inside of a character, where the text
cannot be cut. No reader ever gets to such a place: what it tries as a word of so many bytes, and
what it leaves, is what cutting the text there gives.
-/

namespace SchemaQuery

section Bytes

variable {cs before after : List Char}

theorem byteLength_eq (cs : List Char) : byteLength cs = (String.ofList cs).utf8ByteSize := by
  have hfold (length : Nat) : cs.foldl (fun length c => length + c.utf8Size) length =
      length + (String.ofList cs).utf8ByteSize := by
    induction cs generalizing length with
    | nil => simp
    | cons c cs ih =>
        rw [List.foldl_cons, ih, String.ofList_cons, String.utf8ByteSize_append,
          String.utf8ByteSize_singleton, Nat.add_assoc]
  rw [byteLength, hfold, Nat.zero_add]

theorem byteLength_cons (c : Char) (cs : List Char) :
    byteLength (c :: cs) = c.utf8Size + byteLength cs := by
  simp [byteLength_eq, String.ofList_cons]

theorem byteLength_append (before after : List Char) :
    byteLength (before ++ after) = byteLength before + byteLength after := by
  simp [byteLength_eq]

theorem byteLength_toList (text : String) : byteLength text.toList = text.utf8ByteSize := by
  rw [byteLength_eq, String.ofList_toList]

theorem byteLength_pos_of_ne_nil (h : cs ≠ []) : 0 < byteLength cs := by
  obtain ⟨c, rest, rfl⟩ := List.exists_cons_of_ne_nil h
  rw [byteLength_cons]
  exact Nat.add_pos_left c.utf8Size_pos _

/-- The text before a byte and the text from it on, if the byte does not lie inside of a
character. -/
def splitAtByte : Nat → List Char → Option (List Char × List Char)
  | 0, cs => some ([], cs)
  | _ + 1, [] => none
  | n + 1, c :: cs =>
    if c.utf8Size ≤ n + 1 then
      (splitAtByte (n + 1 - c.utf8Size) cs).map fun (before, after) => (c :: before, after)
    else
      none

theorem splitAtByte_append (before after : List Char) :
    splitAtByte (byteLength before) (before ++ after) = some (before, after) := by
  induction before with
  | nil => cases after <;> rfl
  | cons c before ih =>
      obtain ⟨n, hn⟩ := Nat.exists_eq_add_one.mpr
        (byteLength_pos_of_ne_nil (List.cons_ne_nil c before))
      have hsize : n + 1 - c.utf8Size = byteLength before := by
        rw [← hn, byteLength_cons, Nat.add_sub_cancel_left]
      have hle : c.utf8Size ≤ n + 1 := by
        rw [← hn, byteLength_cons]
        exact Nat.le_add_right _ _
      rw [hn, List.cons_append, splitAtByte, if_pos hle, hsize, ih]
      rfl

theorem splitAtByte_eq_some_iff {n : Nat} :
    splitAtByte n cs = some (before, after) ↔ cs = before ++ after ∧ byteLength before = n := by
  constructor
  · intro h
    fun_induction splitAtByte n cs generalizing before with
    | case1 cs =>
        cases h
        exact ⟨rfl, rfl⟩
    | case2 => cases h
    | case3 n c cs hle ih =>
        obtain ⟨⟨before, rest⟩, hsplit, heq⟩ := Option.map_eq_some_iff.mp h
        cases heq
        obtain ⟨rfl, hlength⟩ := ih hsplit
        refine ⟨rfl, ?_⟩
        rw [byteLength_cons, hlength, Nat.add_sub_cancel' hle]
    | case4 => cases h
  · rintro ⟨rfl, rfl⟩
    exact splitAtByte_append before after

theorem splitAtByte_span (p : Char → Bool) (cs : List Char) :
    splitAtByte (byteLength (cs.takeWhile p)) cs = some (cs.takeWhile p, cs.dropWhile p) :=
  splitAtByte_eq_some_iff.mpr ⟨List.takeWhile_append_dropWhile.symm, rfl⟩

def fromByte (n : Nat) (cs : List Char) : Option (List Char) :=
  (splitAtByte n cs).map Prod.snd

theorem fromByte_eq_some_iff {n : Nat} {rest : List Char} :
    fromByte n cs = some rest ↔ ∃ before, cs = before ++ rest ∧ byteLength before = n := by
  simp only [fromByte, Option.map_eq_some_iff, Prod.exists, splitAtByte_eq_some_iff]
  constructor
  · rintro ⟨before, _, hsplit, rfl⟩
    exact ⟨before, hsplit⟩
  · rintro ⟨before, hsplit⟩
    exact ⟨before, rest, hsplit, rfl⟩

theorem fromByte_zero (cs : List Char) : fromByte 0 cs = some cs :=
  fromByte_eq_some_iff.mpr ⟨[], rfl, rfl⟩

theorem suffix_of_fromByte {n : Nat} {rest : List Char} (h : fromByte n cs = some rest) :
    rest <:+ cs := by
  obtain ⟨before, rfl, -⟩ := fromByte_eq_some_iff.mp h
  exact List.suffix_append before rest

theorem fromByte_of_suffix {n : Nat} {text rest : List Char} (h : fromByte n text = some cs)
    (hrest : rest <:+ cs) :
    fromByte (n + (byteLength cs - byteLength rest)) text = some rest := by
  obtain ⟨before, rfl, rfl⟩ := fromByte_eq_some_iff.mp h
  obtain ⟨used, rfl⟩ := hrest
  refine fromByte_eq_some_iff.mpr ⟨before ++ used, (List.append_assoc _ _ _).symm, ?_⟩
  rw [byteLength_append, byteLength_append, Nat.add_sub_cancel]

/-- What follows a word, if the first bytes of a text are that word. -/
def afterWord? (word : String) (cs : List Char) : Option (List Char) :=
  (splitAtByte word.utf8ByteSize cs).bind fun (first, rest) =>
    if first = word.toList then some rest else none

theorem afterWord?_eq_some_iff {word : String} {rest : List Char} :
    afterWord? word cs = some rest ↔ cs = word.toList ++ rest := by
  simp only [afterWord?, Option.bind_eq_some_iff, Prod.exists, splitAtByte_eq_some_iff]
  constructor
  · rintro ⟨first, _, ⟨rfl, -⟩, hread⟩
    split at hread
    · cases hread
      subst first
      rfl
    · cases hread
  · rintro rfl
    exact ⟨word.toList, rest, ⟨rfl, byteLength_toList word⟩, if_pos rfl⟩

theorem afterWord?_eq (word : String) (cs : List Char) :
    afterWord? word cs =
      if word.toList.isPrefixOf cs then some (cs.drop word.length) else none := by
  split
  next hprefix =>
    obtain ⟨rest, rfl⟩ := List.isPrefixOf_iff_prefix.mp hprefix
    rw [← String.length_toList, List.drop_left]
    exact afterWord?_eq_some_iff.mpr rfl
  next hprefix =>
    rw [Option.eq_none_iff_forall_ne_some]
    rintro rest hread
    obtain rfl := afterWord?_eq_some_iff.mp hread
    exact hprefix (List.isPrefixOf_iff_prefix.mpr (List.prefix_append _ rest))

end Bytes

def Comparator.ofSymbol? (symbol : List Char) : Option Comparator :=
  all.find? fun c => c.symbol.toList = symbol

def Comparator.inBytes? (n : Nat) (cs : List Char) : Option (Comparator × List Char) :=
  (splitAtByte n cs).bind fun (symbol, rest) => (ofSymbol? symbol).map fun c => (c, rest)

namespace Comparator

theorem ofSymbol?_eq_some_iff {symbol : List Char} {c : Comparator} :
    ofSymbol? symbol = some c ↔ c.symbol.toList = symbol := by
  constructor
  · intro h
    have := List.find?_some h
    simpa using this
  · rintro rfl
    cases c <;> decide

theorem inBytes?_eq_some_iff {n : Nat} {cs rest : List Char} {c : Comparator} :
    inBytes? n cs = some (c, rest) ↔
      cs = c.symbol.toList ++ rest ∧ c.symbol.utf8ByteSize = n := by
  constructor
  · intro h
    obtain ⟨⟨symbol, after⟩, hsplit, hread⟩ := Option.bind_eq_some_iff.mp h
    obtain ⟨found, hfound, heq⟩ := Option.map_eq_some_iff.mp hread
    cases heq
    obtain ⟨rfl, hlength⟩ := splitAtByte_eq_some_iff.mp hsplit
    obtain rfl := ofSymbol?_eq_some_iff.mp hfound
    exact ⟨rfl, byteLength_toList _ ▸ hlength⟩
  · rintro ⟨rfl, rfl⟩
    rw [inBytes?, ← byteLength_toList, splitAtByte_append, Option.bind_some]
    dsimp only
    rw [ofSymbol?_eq_some_iff.mpr rfl]
    rfl

theorem size_symbol (c : Comparator) :
    (c.symbol.utf8ByteSize = 2 ∧ c ∈ all.take 7) ∨
      (c.symbol.utf8ByteSize = 1 ∧ c ∉ all.take 7) := by
  cases c <;> decide

theorem inBytes?_two_eq_none {cs : List Char} {c : Comparator}
    (hfind : all.find? (fun c => c.symbol.toList.isPrefixOf cs) = some c)
    (hlate : c ∉ all.take 7) : inBytes? 2 cs = none := by
  rw [Option.eq_none_iff_forall_ne_some]
  rintro ⟨longer, rest⟩ hlonger
  obtain ⟨rfl, hsize⟩ := inBytes?_eq_some_iff.mp hlonger
  have hearly : longer ∈ all.take 7 := by
    rcases size_symbol longer with ⟨-, hearly⟩ | ⟨hone, -⟩
    · exact hearly
    · rw [hsize] at hone
      cases hone
  have hprefix : longer.symbol.toList.isPrefixOf (longer.symbol.toList ++ rest) = true :=
    List.isPrefixOf_iff_prefix.mpr (List.prefix_append _ rest)
  -- the search comes to the symbols of two bytes first, and so it would have found one of them
  obtain ⟨found, hfound⟩ : ∃ found, (all.take 7).find? (fun c =>
      c.symbol.toList.isPrefixOf (longer.symbol.toList ++ rest)) = some found :=
    Option.isSome_iff_exists.mp (List.find?_isSome.mpr ⟨longer, hearly, hprefix⟩)
  rw [← List.take_append_drop 7 all, List.find?_append, hfound, Option.some_or] at hfind
  cases hfind
  exact hlate (List.mem_of_find?_eq_some hfound)

end Comparator

theorem Lexeme.comparator_eq_inBytes (cs : List Char) :
    comparator cs =
      match (Comparator.inBytes? 2 cs).or (Comparator.inBytes? 1 cs) with
      | some read => .ok read
      | none => .error (.flaw .comparatorExpected cs) := by
  unfold comparator
  split
  next c hfind =>
    have hprefix := List.find?_some hfind
    obtain ⟨rest, rfl⟩ := List.isPrefixOf_iff_prefix.mp hprefix
    have hdrop : (c.symbol.toList ++ rest).drop c.symbol.length = rest := by
      rw [← String.length_toList, List.drop_left]
    rw [hdrop]
    rcases Comparator.size_symbol c with ⟨htwo, -⟩ | ⟨hone, hlate⟩
    · rw [Comparator.inBytes?_eq_some_iff.mpr ⟨rfl, htwo⟩]
      rfl
    · rw [Comparator.inBytes?_two_eq_none hfind hlate,
        Comparator.inBytes?_eq_some_iff.mpr ⟨rfl, hone⟩]
      rfl
  next hfind =>
    have hnone (n : Nat) : Comparator.inBytes? n cs = none := by
      rw [Option.eq_none_iff_forall_ne_some]
      rintro ⟨c, rest⟩ hread
      obtain ⟨rfl, -⟩ := Comparator.inBytes?_eq_some_iff.mp hread
      have hmem : c ∈ Comparator.all := by cases c <;> decide
      exact List.find?_eq_none.mp hfind c hmem
        (List.isPrefixOf_iff_prefix.mpr (List.prefix_append _ rest))
    rw [hnone, hnone]
    rfl

namespace Lexeme

theorem expect_eq_afterWord (word : String) (cs : List Char) :
    expect word cs =
      match afterWord? word cs with
      | some rest => .ok rest
      | none => .error (.flaw (.expected word) cs) := by
  rw [expect, afterWord?_eq]
  split <;> rfl

theorem splitAtByte_of_identifier {cs rest : List Char} {name : String}
    (h : identifier cs = .ok (name, rest)) :
    splitAtByte name.utf8ByteSize cs = some (name.toList, rest) := by
  unfold identifier at h
  split at h
  · cases h
  split at h
  · cases h
    rw [← byteLength_eq, String.toList_ofList]
    exact splitAtByte_span _ _
  · cases h

theorem segment_eq_afterWord (tail : List Char) :
    segment ('(' :: tail) =
      match [("(keys)", PathSegment.keys), ("(values)", .values), ("(length)", .length)].findSome?
          fun (word, s) => (afterWord? word ('(' :: tail)).map fun rest => (s, rest) with
      | some read => .ok read
      | none => .error (.flaw .segmentFunctionExpected ('(' :: tail)) := by
  simp only [segment, if_true, List.findSome?_cons, List.findSome?_nil, afterWord?_eq]
  by_cases hkeys : "(keys)".toList.isPrefixOf ('(' :: tail)
  · rw [if_pos hkeys, if_pos hkeys]
    rfl
  rw [if_neg hkeys, if_neg hkeys]
  by_cases hvalues : "(values)".toList.isPrefixOf ('(' :: tail)
  · rw [if_pos hvalues, if_pos hvalues]
    rfl
  rw [if_neg hvalues, if_neg hvalues]
  by_cases hlength : "(length)".toList.isPrefixOf ('(' :: tail)
  · rw [if_pos hlength, if_pos hlength]
    rfl
  · rw [if_neg hlength, if_neg hlength]
    rfl

theorem stageAt_eq_afterWord (tail : List Char) :
    stageAt '<' tail =
      match afterWord? "<-[" ('<' :: tail) with
      | some rest => arrow .reverse "]-" rest
      | none => .ok (.stage (.neighbor ⟨.reverse, none⟩), tail) := by
  cases hword : afterWord? "<-[" ('<' :: tail) with
  | some rest =>
      cases afterWord?_eq_some_iff.mp hword
      rfl
  | none =>
      have hother (rest : List Char) : tail ≠ '-' :: '[' :: rest := by
        rintro rfl
        have hread : afterWord? "<-[" ('<' :: '-' :: '[' :: rest) = some rest :=
          afterWord?_eq_some_iff.mpr rfl
        rw [hword] at hread
        cases hread
      -- `hother` leaves only the second way of reading what follows
      simp only [stageAt, Char.reduceEq, if_false, if_true]

/-- A reader that is started at a byte of a text leaves the text at a byte, and finds flaws at
bytes, by which the text can be cut. -/
def KeepsToBytes {α : Type} (read : List Char → Reading α) : Prop :=
  ∀ text n cs, fromByte n text = some cs →
    (∀ a rest, read cs = .ok (a, rest) →
      fromByte (n + (byteLength cs - byteLength rest)) text = some rest) ∧
    ∀ what place, read cs = .error (.flaw what place) →
      fromByte (n + (byteLength cs - byteLength place)) text = some place

theorem keepsToBytes_iff {α : Type} {read : List Char → Reading α} :
    KeepsToBytes read ↔ ∀ cs, Inside cs (read cs) := by
  constructor
  · intro h cs
    -- the text that is read is the whole one from its first byte on
    obtain ⟨hleft, hflaw⟩ := h cs 0 cs (fromByte_zero cs)
    cases hread : read cs with
    | ok result => exact suffix_of_fromByte (hleft _ _ hread)
    | error fault =>
        cases fault with
        | flaw what place => exact suffix_of_fromByte (hflaw _ _ hread)
        | reference e => trivial
  · intro h text n cs hcs
    refine ⟨fun a rest hread => fromByte_of_suffix hcs ((h cs).left hread), ?_⟩
    intro what place hread
    exact fromByte_of_suffix hcs ((h cs).fault hread)

/-- Every reader keeps to bytes by which its text can be cut, whatever it is given to read. -/
theorem keepsToBytes_readers :
    (∀ word, KeepsToBytes fun cs => (expect word cs).map fun rest => ((), rest)) ∧
    (KeepsToBytes fun cs => .ok ((), skip cs)) ∧
    KeepsToBytes identifier ∧ KeepsToBytes value ∧ KeepsToBytes segment ∧ KeepsToBytes label ∧
    KeepsToBytes labels ∧ KeepsToBytes values ∧ KeepsToBytes path ∧ KeepsToBytes traitKey ∧
    (∀ whole name parts, KeepsToBytes (keyPart whole name parts)) ∧ KeepsToBytes key ∧
    KeepsToBytes comparator ∧ KeepsToBytes filterEnd ∧ KeepsToBytes comparison ∧
    KeepsToBytes attributeFilter ∧ (∀ direction ending, KeepsToBytes (arrow direction ending)) ∧
    KeepsToBytes function ∧ KeepsToBytes variableUse ∧ KeepsToBytes typeName ∧
    ∀ text n c tail, fromByte n text = some (c :: tail) →
      (∀ lexeme rest, readAt c tail = .ok (lexeme, rest) →
        fromByte (n + (byteLength (c :: tail) - byteLength rest)) text = some rest) ∧
      ∀ what place, readAt c tail = .error (.flaw what place) →
        fromByte (n + (byteLength (c :: tail) - byteLength place)) text = some place := by
  simp only [keepsToBytes_iff]
  refine ⟨fun word cs => inside_expect word cs (), suffix_skip, inside_identifier,
    inside_value, inside_segment, inside_label, inside_labels, inside_values, inside_path,
    inside_traitKey, inside_keyPart, inside_key, inside_comparator, inside_filterEnd,
    inside_comparison, inside_attributeFilter, inside_arrow, inside_function, inside_variableUse,
    inside_typeName, ?_⟩
  intro text n c tail hplace
  have hinside := inside_readAt c tail
  exact ⟨fun lexeme rest hread => fromByte_of_suffix hplace (hinside.left hread),
    fun what place hread => fromByte_of_suffix hplace (hinside.fault hread)⟩

end Lexeme

end SchemaQuery
