import SchemaQuery.Proofs.RenderedParts

namespace SchemaQuery.Lexeme

theorem comparator_append (c : Comparator) (rest : List Char) :
    comparator (c.symbol.toList ++ ' ' :: rest) = .ok (c, ' ' :: rest) := by
  cases c <;> rfl

theorem comparison_append {c : Comparison} (hvalues : c.values ≠ []) (rest : List Char) :
    comparison (c.render.toList ++ ']' :: rest) = .ok (c, rest) := by
  obtain ⟨comparator, vs, ignoreCase⟩ := c
  have hbracket : skip (']' :: rest) = ']' :: rest := skip_of_not_blank (by decide) (by decide)
  have hflag : skip (' ' :: 'i' :: ']' :: rest) = 'i' :: ']' :: rest := by
    rw [skip_blank, skip_of_not_blank (by decide) (by decide)]
  have hend : expect "]" (']' :: rest) = .ok rest := expect_append "]" rest
  have hread (tail : List Char) (hstop : Stops ShapeId.isIdentifierChar tail)
      (hcomma : Stops (· = ',') (skip tail)) :
      values (' ' :: ((", ".intercalate (vs.map quotedText)).toList ++ tail)) =
        .ok (vs, skip tail) := by
    rw [values, commaList_blank]
    exact values_append hvalues hstop hcomma
  unfold comparison
  cases ignoreCase with
  | false =>
      have htext : (Comparison.mk comparator vs false).render.toList ++ ']' :: rest =
          comparator.symbol.toList ++
            ' ' :: ((", ".intercalate (vs.map quotedText)).toList ++ ']' :: rest) := by
        simp [Comparison.render]
      rw [htext, comparator_append]
      dsimp only
      rw [hread _ (.cons (by decide) rest) (by rw [hbracket]; exact .cons (by decide) rest),
        hbracket]
      dsimp only
      change ((expect "]" (']' :: rest)).map _).map _ = _
      rw [hend]
      rfl
  | true =>
      have htext : (Comparison.mk comparator vs true).render.toList ++ ']' :: rest =
          comparator.symbol.toList ++
            ' ' :: ((", ".intercalate (vs.map quotedText)).toList ++ ' ' :: 'i' :: ']' :: rest) := by
        simp [Comparison.render]
      rw [htext, comparator_append]
      dsimp only
      rw [hread _ (.cons (by decide) _) (by rw [hflag]; exact .cons (by decide) _), hflag]
      dsimp only
      change ((expect "]" (skip (']' :: rest))).map _).map _ = _
      rw [hbracket, hend]
      rfl

theorem exists_toList_symbol (c : Comparator) :
    ∃ d cs, c.symbol.toList = d :: cs ∧ isBlank d = false ∧ d ≠ '/' ∧ d ≠ ']' := by
  cases c <;> exact ⟨_, _, rfl, by decide, by decide, by decide⟩

theorem attributeFilter_append {filter : AttributeFilter} (hfilter : filter.WellFormed)
    (rest : List Char) : ∃ tail, filter.render.toList ++ rest = '[' :: tail ∧
      attributeFilter tail = .ok (filter, rest) := by
  obtain ⟨key, comparison⟩ := filter
  cases comparison with
  | none =>
      refine ⟨key.render.toList ++ ']' :: rest, by simp [AttributeFilter.render], ?_⟩
      rw [attributeFilter, key_append hfilter.key (.cons (by decide) rest)]
      dsimp only
      rw [skip_of_not_blank (by decide) (by decide)]
      rfl
  | some c =>
      refine ⟨key.render.toList ++ ' ' :: (c.render.toList ++ ']' :: rest),
        by simp [AttributeFilter.render], ?_⟩
      rw [attributeFilter, key_append hfilter.key (.cons (by decide) _)]
      dsimp only
      have hcomparison := comparison_append (hfilter.values c rfl) rest
      obtain ⟨d, cs, hsymbol, hblank, hslash, hbracket⟩ := exists_toList_symbol c.comparator
      have hhead : ∃ tail, c.render.toList ++ ']' :: rest = d :: tail := by
        simp [Comparison.render, hsymbol]
      obtain ⟨tail, htail⟩ := hhead
      rw [htail] at hcomparison ⊢
      rw [skip_blank, skip_of_not_blank hblank hslash]
      split
      · next heq =>
        cases heq
        exact absurd rfl hbracket
      · rw [hcomparison]
        rfl

def EndsStage (rest : List Char) : Prop :=
  ∀ c, rest.head? = some c → c = ' ' ∨ c = ',' ∨ c = ')'

theorem EndsStage.identifier {rest : List Char} (h : EndsStage rest) :
    Stops ShapeId.isIdentifierChar rest := by
  intro c hc
  rcases h c hc with rfl | rfl | rfl
  · decide
  · decide
  · decide

def Reads (cs : List Char) (lexeme : Lexeme) (rest : List Char) : Prop :=
  ∃ c tail, cs = c :: tail ∧ isBlank c = false ∧ c ≠ '/' ∧ readAt c tail = .ok (lexeme, rest)

theorem reads_comma (rest : List Char) : Reads (',' :: rest) .comma rest :=
  ⟨',', rest, rfl, by decide, by decide, rfl⟩

theorem reads_close (rest : List Char) : Reads (')' :: rest) .close rest :=
  ⟨')', rest, rfl, by decide, by decide, rfl⟩

theorem isVariableName_of_functionName {name : String} {kind : FunctionKind}
    (h : FunctionKind.ofName? name = some kind) : isVariableName name = true := by
  unfold FunctionKind.ofName? at h
  split at h
  next hname => subst hname; decide
  split at h
  next hname => rcases hname with rfl | rfl <;> decide
  split at h
  next hname => subst hname; decide
  split at h
  next hname => subst hname; decide
  split at h
  next hname => subst hname; decide
  · cases h

theorem reads_functionName {name : String} {kind : FunctionKind}
    (hkind : FunctionKind.ofName? name = some kind) (rest : List Char) :
    Reads (':' :: (name.toList ++ '(' :: rest)) (.openFunction kind name) rest := by
  refine ⟨':', _, rfl, by decide, by decide, ?_⟩
  have hopen : expect "(" (skip ('(' :: rest)) = .ok rest := by
    rw [skip_of_not_blank (by decide) (by decide)]
    exact expect_append "(" rest
  change function (name.toList ++ '(' :: rest) = _
  rw [function, identifier_append (isVariableName_of_functionName hkind) (.cons (by decide) rest)]
  simp only [hkind, hopen, Except.map]

theorem reads_openFunction (kind : FunctionKind) (rest : List Char) :
    Reads (':' :: (kind.name.toList ++ '(' :: rest)) (.openFunction kind kind.name) rest :=
  reads_functionName (by cases kind <;> decide) rest

section Variables

variable {name : String} (hname : isVariableName name = true) {rest : List Char}

include hname

theorem reads_get :
    Reads ('$' :: '\x7b' :: (name.toList ++ '\x7d' :: rest)) (.get name) rest := by
  refine ⟨'$', _, rfl, by decide, by decide, ?_⟩
  have hclose : expect "\x7d" ('\x7d' :: rest) = .ok rest := expect_append "\x7d" rest
  change variableUse ('\x7b' :: (name.toList ++ '\x7d' :: rest)) = _
  rw [variableUse, identifier_append hname (.cons (by decide) rest)]
  simp only [hclose, Except.map]

theorem variableUse_append :
    variableUse (name.toList ++ rest) =
      match identifier (name.toList ++ rest) with
      | .error e => .error e
      | .ok (name, '(' :: rest) => .ok (.openCapture name, rest)
      | .ok (name, rest) => .ok (.bind name, rest) := by
  obtain ⟨c, cs, hcs, -, hall⟩ := exists_toList_of_isVariableName hname
  rw [hcs, List.cons_append]
  unfold variableUse
  split
  · next heq =>
    cases heq
    exact absurd (hall _ List.mem_cons_self) (by decide)
  · rfl

theorem reads_openCapture :
    Reads ('$' :: (name.toList ++ '(' :: rest)) (.openCapture name) rest := by
  refine ⟨'$', _, rfl, by decide, by decide, ?_⟩
  change variableUse (name.toList ++ '(' :: rest) = _
  rw [variableUse_append hname, identifier_append hname (.cons (by decide) rest)]
  rfl

theorem reads_bind (hrest : EndsStage rest) :
    Reads ('$' :: (name.toList ++ rest)) (.bind name) rest := by
  refine ⟨'$', _, rfl, by decide, by decide, ?_⟩
  change variableUse (name.toList ++ rest) = _
  rw [variableUse_append hname, identifier_append hname hrest.identifier]
  cases rest with
  | nil => rfl
  | cons c rest =>
      rcases hrest c rfl with rfl | rfl | rfl
      · rfl
      · rfl
      · rfl

end Variables

theorem readAt_of_isAlpha {c : Char} (h : c.isAlpha = true) (rest : List Char) :
    readAt c rest = typeName (c :: rest) := by
  have hne (d : Char) (hd : d.isAlpha = false) : c ≠ d := by
    rintro rfl
    rw [h] at hd
    cases hd
  rw [readAt, if_neg (hne ',' rfl), if_neg (hne ')' rfl), if_neg (hne ':' rfl),
    if_neg (hne '$' rfl)]
  unfold stageAt
  rw [if_neg (hne '*' rfl), if_neg (hne '[' rfl), if_neg (hne '>' rfl), if_neg (hne '~' rfl),
    if_neg (hne '-' rfl), if_neg (hne '<' rfl), if_pos h]

theorem ofName?_name (filter : TypeFilter) : TypeFilter.ofName? filter.name = some filter := by
  have hexact : ∀ type ∈ ShapeType.all, TypeFilter.ofName? type.name = some (.exact type) := by
    decide
  cases filter with
  | exact type => exact hexact type (ShapeType.mem_all type)
  | any | number | simpleType | collection => decide

theorem name_typeFilter (filter : TypeFilter) :
    filter = .any ∨ isVariableName filter.name = true ∧
      (filter.name.toList.head?.any Char.isAlpha) = true := by
  have hexact : ∀ type ∈ ShapeType.all, isVariableName type.name = true ∧
      (type.name.toList.head?.any Char.isAlpha) = true := by decide
  cases filter with
  | any => exact .inl rfl
  | exact type => exact .inr (hexact type (ShapeType.mem_all type))
  | number | simpleType | collection => exact .inr (by decide)

theorem reads_typeFilter (filter : TypeFilter) {rest : List Char} (hrest : EndsStage rest) :
    Reads (filter.name.toList ++ rest) (.stage (.type filter)) rest := by
  rcases name_typeFilter filter with rfl | ⟨hname, halpha⟩
  · exact ⟨'*', rest, rfl, by decide, by decide, rfl⟩
  · obtain ⟨c, cs, hcs, -, hall⟩ := exists_toList_of_isVariableName hname
    have hc := hall c List.mem_cons_self
    have hread := identifier_append hname hrest.identifier
    rw [hcs] at halpha
    rw [hcs, List.cons_append] at hread ⊢
    refine ⟨c, _, rfl, isBlank_of_isIdentifierChar hc, ?_, ?_⟩
    · rintro rfl
      exact absurd hc (by decide)
    · rw [readAt_of_isAlpha halpha, typeName, hread]
      simp only [ofName?_name]

theorem reads_attributeFilter {filter : AttributeFilter} (hfilter : filter.WellFormed)
    (rest : List Char) :
    Reads (filter.render.toList ++ rest) (.stage (.attribute filter)) rest := by
  obtain ⟨tail, htail, hread⟩ := attributeFilter_append hfilter rest
  refine ⟨'[', tail, htail, by decide, by decide, ?_⟩
  change (attributeFilter tail).map _ = _
  rw [hread]
  rfl

theorem arrow_append {types : List RelationshipType} (hne : types ≠ []) (hnodup : types.Nodup)
    (htarget : RelationshipType.memberTarget ∉ types) (direction : Direction) (ending : String)
    {after rest : List Char} (hending : ending.toList ++ rest = ']' :: after) :
    arrow direction ending ((", ".intercalate (types.map RelationshipType.text)).toList ++
      (ending.toList ++ rest)) = .ok (.stage (.neighbor ⟨direction, some types⟩), rest) := by
  have hexpect := expect_append ending rest
  rw [hending] at hexpect ⊢
  rw [arrow, labels_append hne hnodup htarget]
  simp only [hexpect, Except.map]

theorem reads_neighborStep {step : NeighborStep} (hstep : step.WellFormed) {rest : List Char}
    (hrest : EndsStage rest) :
    Reads (step.render.toList ++ rest) (.stage (.neighbor step)) rest := by
  obtain ⟨direction, labels⟩ := step
  obtain ⟨hdirection, hne, hnodup, htarget⟩ := hstep
  cases labels with
  | none =>
      cases direction with
      | forward => exact ⟨'>', rest, rfl, by decide, by decide, rfl⟩
      | recursive => exact ⟨'~', '>' :: rest, rfl, by decide, by decide, rfl⟩
      | reverse =>
          refine ⟨'<', rest, rfl, by decide, by decide, ?_⟩
          cases rest with
          | nil => rfl
          | cons c rest =>
              rcases hrest c rfl with rfl | rfl | rfl
              · rfl
              · rfl
              · rfl
  | some types =>
      have hread (direction : Direction) (ending : String) (after : List Char)
          (hending : ending.toList ++ rest = ']' :: after) :=
        arrow_append (by simpa using hne) (hnodup types rfl) (htarget types rfl) direction ending
          hending
      cases direction with
      | recursive => exact absurd rfl (hdirection (by simp))
      | forward =>
          refine ⟨'-', '[' :: ((", ".intercalate (types.map RelationshipType.text)).toList ++
            ("]->".toList ++ rest)), by simp [NeighborStep.render], by decide, by decide, ?_⟩
          exact hread .forward "]->" _ rfl
      | reverse =>
          refine ⟨'<', '-' :: '[' :: ((", ".intercalate (types.map RelationshipType.text)).toList ++
            ("]-".toList ++ rest)), by simp [NeighborStep.render], by decide, by decide, ?_⟩
          exact hread .reverse "]-" _ rfl

end SchemaQuery.Lexeme

namespace SchemaQuery.Lexemes

theorem of_cons {cs tail : List Char} {c : Char} (hskip : Lexeme.skip cs = c :: tail) :
    Lexemes.of cs =
      match Lexeme.readAt c tail with
      | .error f => .fault f
      | .ok (lexeme, rest) => .next lexeme (c :: tail) (.of rest) := by
  rw [Lexemes.of]
  split
  · next hnil =>
    rw [hskip] at hnil
    cases hnil
  · next c tail hcons =>
    rw [hskip] at hcons
    cases hcons
    split
    · next f hfault => rw [hfault]
    · next found left hfound => rw [hfound]

theorem of_readAt {cs tail rest : List Char} {c : Char} {lexeme : Lexeme}
    (hskip : Lexeme.skip cs = c :: tail) (hread : Lexeme.readAt c tail = .ok (lexeme, rest)) :
    Lexemes.of cs = .next lexeme (c :: tail) (.of rest) := by
  rw [of_cons hskip, hread]

theorem of_reads {cs rest : List Char} {lexeme : Lexeme} (h : Lexeme.Reads cs lexeme rest) :
    Lexemes.of cs = .next lexeme cs (.of rest) := by
  obtain ⟨c, tail, rfl, hblank, hslash, hread⟩ := h
  exact of_readAt (Lexeme.skip_of_not_blank hblank hslash) hread

theorem of_nil : Lexemes.of [] = .finish := by
  rw [Lexemes.of]
  rfl

theorem of_congr {cs other : List Char} (h : Lexeme.skip cs = Lexeme.skip other) :
    Lexemes.of cs = .of other := by
  rw [Lexemes.of, Lexemes.of, h]

theorem of_blank (rest : List Char) : Lexemes.of (' ' :: rest) = .of rest :=
  of_congr (Lexeme.skip_blank rest)

end SchemaQuery.Lexemes
