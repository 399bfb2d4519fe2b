import SchemaQuery.Proofs.FirstOccurrences
import SchemaQuery.Proofs.WellFormed
import SchemaQuery.Selector.Lexemes

namespace SchemaQuery

namespace ShapeId

theorem wellFormed_of_parseRelative {input space : String} {id : ShapeId}
    (h : parseRelative input space = .ok id) : id.WellFormed := by
  unfold parseRelative at h
  split at h
  · exact (text_eq_of_parse h).1
  · exact (text_eq_of_parse h).1

end ShapeId

theorem RelationshipType.label?_of_ofLabel? {label : String} {type : RelationshipType}
    (h : ofLabel? label = some type) : type.label? = some label := by
  have hfound := List.find?_some h
  simpa using hfound

namespace Lexeme

def WellFormed : Lexeme → Prop
  | .stage s => s.Plain ∧ s.WellFormed
  | .bind name | .get name | .openCapture name => isVariableName name = true
  | .openFunction _ _ | .comma | .close => True

theorem isIdentifierChar_of_start {c : Char} (h : c.isAlpha ∨ c = '_') :
    ShapeId.isIdentifierChar c = true := by
  rcases h with h | rfl
  · simp [ShapeId.isIdentifierChar, Char.isAlphanum, h]
  · decide

theorem isVariableName_of_identifier {cs rest : List Char} {name : String}
    (h : identifier cs = .ok (name, rest)) : isVariableName name = true := by
  unfold identifier at h
  split at h
  · cases h
  · next c tail =>
    split at h
    · next hc =>
      simp only [Except.ok.injEq, Prod.mk.injEq] at h
      rw [← h.1, isVariableName, String.toList_ofList,
        List.takeWhile_cons_of_pos (isIdentifierChar_of_start hc), Bool.and_eq_true]
      constructor
      · simpa using hc
      · exact List.all_takeWhile
    · cases h

section CommaList

variable {α : Type} {item : List Char → Reading α}
  {shorter : ∀ {cs rest : List Char} {a : α}, item cs = .ok (a, rest) → rest.length < cs.length}
  {cs rest : List Char} {as : List α}

theorem ne_nil_of_commaList (h : commaList item shorter cs = .ok (as, rest)) : as ≠ [] := by
  unfold commaList at h
  split at h
  · cases h
  · split at h
    · obtain ⟨read, -, heq⟩ := map_eq_ok_iff.mp h
      cases heq
      exact List.cons_ne_nil _ _
    · cases h
      exact List.cons_ne_nil _ _

theorem forall_mem_of_commaList {P : α → Prop}
    (hitem : ∀ {cs rest : List Char} {a : α}, item cs = .ok (a, rest) → P a)
    (h : commaList item shorter cs = .ok (as, rest)) : ∀ a ∈ as, P a := by
  fun_induction commaList item shorter cs generalizing as rest with
  | case1 => cases h
  | case2 cs a left hread next hnext ih =>
      obtain ⟨⟨others, final⟩, hothers, heq⟩ := map_eq_ok_iff.mp h
      cases heq
      exact List.forall_mem_cons.mpr ⟨hitem hread, ih hothers⟩
  | case3 cs a left hread =>
      cases h
      exact List.forall_mem_singleton.mpr (hitem hread)

end CommaList

theorem of_label {cs rest : List Char} {type : RelationshipType}
    (h : label cs = .ok (type, rest)) : type ≠ .memberTarget := by
  unfold label at h
  split at h
  · cases h
  · split at h
    · cases h
    · next hlabel =>
      cases h
      rintro rfl
      cases RelationshipType.label?_of_ofLabel? hlabel

theorem of_labels {cs rest : List Char} {labels : List RelationshipType}
    (h : Lexeme.labels cs = .ok (labels, rest)) :
    labels ≠ [] ∧ labels.Nodup ∧ RelationshipType.memberTarget ∉ labels := by
  obtain ⟨⟨read, left⟩, hread, heq⟩ := map_eq_ok_iff.mp h
  cases heq
  refine ⟨?_, nodup_eraseDups read, ?_⟩
  · obtain ⟨type, htype⟩ := List.exists_mem_of_ne_nil read (ne_nil_of_commaList hread)
    exact List.ne_nil_of_mem (List.mem_eraseDups.mpr htype)
  · rw [List.mem_eraseDups]
    intro hmem
    exact forall_mem_of_commaList of_label hread _ hmem rfl

theorem wellFormed_of_traitKey {cs rest : List Char} {key : AttributeKey}
    (h : traitKey cs = .ok (key, rest)) : key.WellFormed := by
  unfold traitKey at h
  split at h
  · cases h
  · dsimp only at h
    split at h
    · cases h
    · next definition hdefinition =>
      obtain ⟨read, -, heq⟩ := map_eq_ok_iff.mp h
      cases heq
      exact ShapeId.wellFormed_of_parseRelative hdefinition

theorem of_keyPart {p : AttributeKey → Prop} {whole key : AttributeKey} {name : String}
    {parts : List (String × AttributeKey)} {cs rest : List Char} (hwhole : p whole)
    (hparts : ∀ part ∈ parts, p part.2)
    (h : keyPart whole name parts cs = .ok (key, rest)) : p key := by
  unfold keyPart at h
  split at h
  · split at h
    · cases h
    · split at h
      · next hlookup =>
        cases h
        obtain ⟨before, after, rfl, -⟩ := List.lookup_eq_some_iff.mp hlookup
        exact hparts _ (List.mem_append_right before List.mem_cons_self)
      · cases h
  · cases h
    exact hwhole

theorem wellFormed_of_key {cs rest : List Char} {key : AttributeKey}
    (h : Lexeme.key cs = .ok (key, rest)) : key.WellFormed := by
  unfold Lexeme.key at h
  split at h
  · cases h
  · split at h
    · refine of_keyPart ?_ ?_ h
      · trivial
      · simp [AttributeKey.WellFormed]
    · split at h
      · refine of_keyPart ?_ ?_ h
        · trivial
        · simp [AttributeKey.WellFormed]
      · split at h
        · exact wellFormed_of_traitKey h
        · cases h

theorem ne_nil_of_comparison {cs rest : List Char} {c : Comparison}
    (h : comparison cs = .ok (c, rest)) : c.values ≠ [] := by
  unfold comparison at h
  split at h
  · cases h
  · split at h
    · cases h
    · next hvalues =>
      obtain ⟨read, -, heq⟩ := map_eq_ok_iff.mp h
      cases heq
      exact ne_nil_of_commaList hvalues

theorem wellFormed_of_attributeFilter {cs rest : List Char} {filter : AttributeFilter}
    (h : attributeFilter cs = .ok (filter, rest)) : filter.WellFormed := by
  unfold attributeFilter at h
  split at h
  · cases h
  · next key left hkey =>
    have hformed := wellFormed_of_key hkey
    split at h
    · cases h
      exact ⟨hformed, by simp⟩
    · obtain ⟨⟨c, final⟩, hcomparison, heq⟩ := map_eq_ok_iff.mp h
      cases heq
      refine ⟨hformed, ?_⟩
      rintro _ ⟨⟩
      exact ne_nil_of_comparison hcomparison

theorem wellFormed_of_arrow {direction : Direction} {ending : String} {cs rest : List Char}
    {lexeme : Lexeme} (hdirection : direction ≠ .recursive)
    (h : arrow direction ending cs = .ok (lexeme, rest)) : lexeme.WellFormed := by
  unfold arrow at h
  split at h
  · cases h
  · next labels left hlabels =>
    obtain ⟨read, -, heq⟩ := map_eq_ok_iff.mp h
    cases heq
    obtain ⟨hnonempty, hnodup, htarget⟩ := of_labels hlabels
    refine ⟨trivial, .neighbor ⟨fun _ => hdirection, ?_, ?_, ?_⟩⟩
    · simpa using hnonempty
    · rintro _ ⟨⟩
      exact hnodup
    · rintro _ ⟨⟩
      exact htarget

theorem wellFormed_step (direction : Direction) :
    (Lexeme.stage (.neighbor ⟨direction, none⟩)).WellFormed :=
  ⟨trivial, .neighbor ⟨by simp, by simp, by simp, by simp⟩⟩

theorem wellFormed_of_function {cs rest : List Char} {lexeme : Lexeme}
    (h : function cs = .ok (lexeme, rest)) : lexeme.WellFormed := by
  unfold function at h
  split at h
  · cases h
  · split at h
    · cases h
    · obtain ⟨left, -, heq⟩ := map_eq_ok_iff.mp h
      cases heq
      trivial

theorem wellFormed_of_variableUse {cs rest : List Char} {lexeme : Lexeme}
    (h : variableUse cs = .ok (lexeme, rest)) : lexeme.WellFormed := by
  unfold variableUse at h
  split at h
  · split at h
    · cases h
    · next hname =>
      obtain ⟨left, -, heq⟩ := map_eq_ok_iff.mp h
      cases heq
      exact isVariableName_of_identifier hname
  · split at h
    · cases h
    · next hname =>
      cases h
      exact isVariableName_of_identifier hname
    · next hname =>
      cases h
      exact isVariableName_of_identifier hname

theorem wellFormed_of_typeName {cs rest : List Char} {lexeme : Lexeme}
    (h : typeName cs = .ok (lexeme, rest)) : lexeme.WellFormed := by
  unfold typeName at h
  split at h
  · cases h
  · split at h
    · cases h
    · cases h
      exact ⟨trivial, .type _⟩

theorem wellFormed_of_stageAt {c : Char} {cs rest : List Char} {lexeme : Lexeme}
    (h : stageAt c cs = .ok (lexeme, rest)) : lexeme.WellFormed := by
  unfold stageAt at h
  split at h
  · cases h
    exact ⟨trivial, .type _⟩
  split at h
  · obtain ⟨⟨filter, left⟩, hfilter, heq⟩ := map_eq_ok_iff.mp h
    cases heq
    exact ⟨trivial, .attribute (wellFormed_of_attributeFilter hfilter)⟩
  split at h
  · cases h
    exact wellFormed_step .forward
  split at h
  · obtain ⟨left, -, heq⟩ := map_eq_ok_iff.mp h
    cases heq
    exact wellFormed_step .recursive
  split at h
  · split at h
    · cases h
    · exact wellFormed_of_arrow (by decide) h
  split at h
  · split at h
    · exact wellFormed_of_arrow (by decide) h
    · cases h
      exact wellFormed_step .reverse
  split at h
  · exact wellFormed_of_typeName h
  · cases h

theorem wellFormed_of_readAt {c : Char} {cs rest : List Char} {lexeme : Lexeme}
    (h : readAt c cs = .ok (lexeme, rest)) : lexeme.WellFormed := by
  unfold readAt at h
  split at h
  · cases h
    trivial
  split at h
  · cases h
    trivial
  split at h
  · exact wellFormed_of_function h
  split at h
  · exact wellFormed_of_variableUse h
  · exact wellFormed_of_stageAt h

end Lexeme

def Lexemes.WellFormed : Lexemes → Prop
  | .finish | .fault _ => True
  | .next lexeme _ rest => lexeme.WellFormed ∧ rest.WellFormed

theorem Lexemes.wellFormed_of (cs : List Char) : (Lexemes.of cs).WellFormed := by
  fun_induction Lexemes.of cs with
  | case1 | case2 => trivial
  | case3 cs c tail hskip lexeme rest hread ih => exact ⟨Lexeme.wellFormed_of_readAt hread, ih⟩

end SchemaQuery
