import Mathlib.Data.List.Basic
import SchemaQuery.Proofs.IdText

namespace SchemaQuery.ShapeId

/-- A letter or an underscore, and after it letters, digits and underscores. Underscores alone are no
identifier. -/
def Identifier (text : String) : Prop :=
  ∃ first rest, text.toList = first :: rest ∧ (first.isAlpha ∨ first = '_') ∧
    (∀ c ∈ rest, c.isAlphanum ∨ c = '_') ∧ ∃ c ∈ first :: rest, c.isAlphanum

def Dotted (text : String) : Prop :=
  ∃ parts, parts ≠ [] ∧ (∀ part ∈ parts, Identifier part) ∧ text = ".".intercalate parts

/-- The texts of ids, each with the id that it spells. -/
inductive Spells : String → ShapeId → Prop
  | shape {space name : String} (hspace : Dotted space) (hname : Identifier name) :
      Spells (space ++ "#" ++ name) ⟨space, name, none⟩
  | member {space name member : String} (hspace : Dotted space) (hname : Identifier name)
      (hmember : Identifier member) :
      Spells (space ++ "#" ++ name ++ "$" ++ member) ⟨space, name, some member⟩

theorem not_isDigit_of_isAlpha {c : Char} (h : c.isAlpha = true) : c.isDigit = false := by
  rw [← Bool.not_eq_true, Char.isDigit_iff_toNat]
  have hletter := toNat_of_isAlpha h
  have hnine : '9'.toNat = 57 := rfl
  omega

theorem isStart_iff {c : Char} :
    c.isDigit = false ∧ isIdentifierChar c = true ↔ c.isAlpha = true ∨ c = '_' := by
  have hunderscore : ('_' : Char).isDigit = false := by decide
  simp only [isIdentifierChar, Char.isAlphanum, Bool.or_eq_true, beq_iff_eq]
  constructor
  · rintro ⟨hdigit, (halpha | hdigit') | rfl⟩
    · exact .inl halpha
    · rw [hdigit] at hdigit'
      contradiction
    · exact .inr rfl
  · rintro (halpha | rfl)
    · exact ⟨not_isDigit_of_isAlpha halpha, .inl (.inl halpha)⟩
    · exact ⟨hunderscore, .inr rfl⟩

theorem isIdentifier_iff {text : String} : isIdentifier text.toList = true ↔ Identifier text := by
  unfold Identifier
  cases text.toList with
  | nil => simp [isIdentifier]
  | cons first rest =>
      have hrest : rest.all isIdentifierChar = true ↔ ∀ c ∈ rest, c.isAlphanum ∨ c = '_' := by
        simp [isIdentifierChar]
      rw [isIdentifier, Bool.and_eq_true, Bool.and_eq_true, Bool.not_eq_true', List.all_cons,
        Bool.and_eq_true, List.any_eq_true, ← and_assoc, isStart_iff, hrest, and_assoc]
      constructor
      · rintro ⟨hfirst, hrest, hany⟩
        exact ⟨first, rest, rfl, hfirst, hrest, hany⟩
      · rintro ⟨_, _, ⟨⟩, hfirst, hrest, hany⟩
        exact ⟨hfirst, hrest, hany⟩

theorem pieces_eq_splitOn (separator : Char) (cs : List Char) :
    pieces separator cs = cs.splitOn separator := by
  induction cs with
  | nil => rfl
  | cons c rest ih =>
      have hcons : (c :: rest).splitOn separator =
          if c = separator then [] :: rest.splitOn separator
          else (rest.splitOn separator).modifyHead (List.cons c) := by
        simp [List.splitOn, List.splitOnP_cons_eq_if_modifyHead]
      have hne : rest.splitOn separator ≠ [] := List.splitOnP_ne_nil _ rest
      rw [pieces, ih, hcons]
      split
      · rfl
      · split
        · contradiction
        · next hsplit =>
          rw [hsplit]
          rfl

theorem isNamespace_iff {text : String} : isNamespace text.toList = true ↔ Dotted text := by
  rw [isNamespace, pieces_eq_splitOn, List.all_eq_true]
  constructor
  · intro h
    refine ⟨(text.toList.splitOn '.').map String.ofList, ?_, ?_, ?_⟩
    · simp
    · intro part hpart
      obtain ⟨piece, hpiece, rfl⟩ := List.mem_map.mp hpart
      rw [← isIdentifier_iff, String.toList_ofList]
      exact h piece hpiece
    · apply String.toList_injective
      simp [String.toList_intercalate, List.intercalate_splitOn]
  · rintro ⟨parts, hne, hparts, rfl⟩ piece hpiece
    have hdot : ∀ cs ∈ parts.map String.toList, '.' ∉ cs := by
      intro cs hcs
      obtain ⟨part, hpart, rfl⟩ := List.mem_map.mp hcs
      exact not_mem_of_isIdentifier (isIdentifier_iff.mpr (hparts part hpart)) (by decide)
    rw [String.toList_intercalate] at hpiece
    have hdots : ".".toList = ['.'] := rfl
    rw [hdots, List.splitOn_intercalate '.' hdot (by simpa using hne)] at hpiece
    obtain ⟨part, hpart, rfl⟩ := List.mem_map.mp hpiece
    exact isIdentifier_iff.mpr (hparts part hpart)

theorem spells_iff {text : String} {id : ShapeId} :
    Spells text id ↔ id.WellFormed ∧ id.text = text := by
  constructor
  · rintro (⟨hspace, hname⟩ | ⟨hspace, hname, hmember⟩)
    · refine ⟨⟨isNamespace_iff.mpr hspace, isIdentifier_iff.mpr hname, ?_⟩, rfl⟩
      rintro member ⟨⟩
    · refine ⟨⟨isNamespace_iff.mpr hspace, isIdentifier_iff.mpr hname, ?_⟩, rfl⟩
      rintro member ⟨⟩
      exact isIdentifier_iff.mpr hmember
  · rintro ⟨hid, rfl⟩
    obtain ⟨space, name, member⟩ := id
    have hspace := isNamespace_iff.mp hid.namespaceName
    have hname := isIdentifier_iff.mp hid.name
    cases member with
    | none => exact .shape hspace hname
    | some member => exact .member hspace hname (isIdentifier_iff.mp (hid.member member rfl))

theorem parse_dollar_member {id : ShapeId} (hid : id.WellFormed) (member : String) :
    parse (id.container.text ++ "$" ++ member) = id.withMember member := by
  have htext : (id.container.text ++ "$" ++ member).toList =
      id.namespaceName.toList ++ '#' :: (id.name.toList ++ '$' :: member.toList) := by
    simp [container, text]
  have hdollar : '$' ∉ id.name.toList := not_mem_of_isIdentifier hid.name (by decide)
  rw [parse, htext, cut_append (separator_not_mem_of_isNamespace hid.namespaceName)]
  simp only [hid.namespaceName, hid.name, cut_append hdollar, String.ofList_toList]
  rfl

theorem ofParts_eq_ok_iff {space name : String} {id : ShapeId} :
    ofParts space name = .ok id ↔ parse (space ++ "#" ++ name) = .ok id ∧ id.member = none := by
  rw [parse_eq_ok_iff]
  constructor
  · intro h
    unfold ofParts at h
    split at h
    · cases h
    · next hspace =>
      split at h
      · cases h
      · next hname =>
        cases h
        refine ⟨⟨⟨by simpa using hspace, by simpa using hname, ?_⟩, rfl⟩, rfl⟩
        rintro member ⟨⟩
  · rintro ⟨⟨hid, htext⟩, hmember⟩
    obtain ⟨space', name', member⟩ := id
    subst hmember
    have hlist : space'.toList ++ '#' :: name'.toList = space.toList ++ '#' :: name.toList := by
      simpa [text] using congrArg String.toList htext
    -- The text of an id has only one `#`, so that both sides are cut there.
    have hsharp : '#' ∉ name'.toList := not_mem_of_isIdentifier hid.name (by decide)
    obtain ⟨hspace, -, hname⟩ := (List.append_cons_inj_of_notMem
      (separator_not_mem_of_isNamespace hid.namespaceName) hsharp).mp hlist
    obtain rfl := String.toList_injective hspace
    obtain rfl := String.toList_injective hname
    simp only [ofParts, hid.namespaceName, hid.name]
    rfl

/-- A text and the id that is read from it determine each other. Reading accepts the texts of the
grammar and no others. An id made from the name of a member, from a namespace and a name, or from a
text that may leave out its namespace is the one that is read from the text put together. -/
theorem text_determines_id :
    (∀ text id, parse text = .ok id ↔ Spells text id) ∧
    (∀ text id, parse text = .ok id →
      id.text = text ∧ parse id.text = .ok id ∧
      (∀ member, id.withMember member = parse (id.container.text ++ "$" ++ member)) ∧
      ∀ space, parseRelative id.text space = .ok id) ∧
    ∀ space name id, ofParts space name = .ok id ↔
      parse (space ++ "#" ++ name) = .ok id ∧ id.member = none := by
  refine ⟨fun text id => ?_, ?_, fun space name id => ofParts_eq_ok_iff⟩
  · rw [spells_iff, parse_eq_ok_iff]
  · intro text id h
    obtain ⟨hid, htext⟩ := parse_eq_ok_iff.mp h
    exact ⟨htext, parse_text hid, fun member => (parse_dollar_member hid member).symm,
      parseRelative_text hid⟩

theorem text_determines_id_underscores :
    parse "_a.b_#_2$m" = .ok ⟨"_a.b_", "_2", some "m"⟩ ∧
      Spells "_a.b_#_2$m" ⟨"_a.b_", "_2", some "m"⟩ ∧
      parse "_a.b_#_2$_" = .error ⟨"_a.b_#_2$_", .badMember⟩ ∧
      withMember ⟨"_a.b_", "_2", some "m"⟩ "_" = .error ⟨"_a.b_#_2$_", .badMember⟩ ∧
      parseRelative "_a.b_#_2$m" "c" = .ok ⟨"_a.b_", "_2", some "m"⟩ := by
  have hparse : parse "_a.b_#_2$m" = .ok ⟨"_a.b_", "_2", some "m"⟩ := by decide +kernel
  have hrefused : parse "_a.b_#_2$_" = .error ⟨"_a.b_#_2$_", .badMember⟩ := by decide +kernel
  obtain ⟨hspells, hread, -⟩ := text_determines_id
  obtain ⟨htext, -, hmember, hrelative⟩ := hread _ _ hparse
  refine ⟨hparse, (hspells _ _).mp hparse, hrefused, (hmember "_").trans hrefused, ?_⟩
  rw [← htext]
  exact hrelative "c"

end SchemaQuery.ShapeId
