import SchemaQuery.Selector.Attribute

/-!
Comparisons that pass over letter case. The lower case of a text depends on the text around it in
one way only: a capital sigma becomes a final one where it ends a word. A text stands in another one
in lower case too if its sigmas end words there exactly as they do in the text by itself, and
otherwise it may not.
-/

namespace SchemaQuery

namespace Lowercase

/-- Whether a capital sigma between the reversed text before it and the text after it ends a
word. -/
def endsWord (before after : List Char) : Bool :=
  meetsCased before && !meetsCased after

/-- The capital sigmas of a text end the same words between two other texts as by themselves. -/
def KeepsSigmas (before cs after : List Char) : Prop :=
  ∀ first rest, cs = first ++ 'Σ' :: rest →
    endsWord (first.reverse ++ before.reverse) (rest ++ after) = endsWord first.reverse rest

theorem KeepsSigmas.of_not_mem {cs : List Char} (h : 'Σ' ∉ cs) (before after : List Char) :
    KeepsSigmas before cs after := by
  rintro first rest rfl
  simp at h

theorem KeepsSigmas.alone (cs : List Char) : KeepsSigmas [] cs [] := by
  intro first rest _
  rw [List.reverse_nil, List.append_nil, List.append_nil]

def lowerBetween (before : List Char) : List Char → List Char → List Char
  | [], _ => []
  | c :: rest, after => lowerAt before c (rest ++ after) ++ lowerBetween (c :: before) rest after

variable {before after before' after' : List Char}

theorem lowerFrom_append (before cs after : List Char) :
    lowerFrom before (cs ++ after) =
      lowerBetween before cs after ++ lowerFrom (cs.reverse ++ before) after := by
  induction cs generalizing before with
  | nil => rfl
  | cons c rest ih =>
      rw [List.cons_append, lowerFrom, lowerBetween, ih, List.append_assoc, List.reverse_cons,
        List.append_assoc, List.singleton_append]

theorem lowerFrom_eq_lowerBetween (before cs : List Char) :
    lowerFrom before cs = lowerBetween before cs [] := by
  have h := lowerFrom_append before cs []
  rwa [List.append_nil, lowerFrom, List.append_nil] at h

theorem lowerAt_sigma (before after : List Char) :
    lowerAt before 'Σ' after = if endsWord before after then ['ς'] else ['σ'] := rfl

theorem lowerAt_of_ne {c : Char} (hc : c ≠ 'Σ') (before before' after after' : List Char) :
    lowerAt before c after = lowerAt before' c after' := by
  unfold lowerAt
  rw [if_neg hc, if_neg hc]

theorem length_lowerAt (before before' after after' : List Char) (c : Char) :
    (lowerAt before c after).length = (lowerAt before' c after').length := by
  by_cases hc : c = 'Σ'
  · subst hc
    rw [lowerAt_sigma, lowerAt_sigma]
    split <;> split <;> rfl
  · rw [lowerAt_of_ne hc before before' after after']

theorem lowerAt_eq_iff {c : Char} :
    lowerAt before c after = lowerAt before' c after' ↔
      (c = 'Σ' → endsWord before after = endsWord before' after') := by
  by_cases hc : c = 'Σ'
  · subst hc
    rw [lowerAt_sigma, lowerAt_sigma]
    cases endsWord before after <;> cases endsWord before' after' <;> simp
  · simp [hc, lowerAt_of_ne hc before before' after after']

theorem length_lowerBetween (before before' cs after after' : List Char) :
    (lowerBetween before cs after).length = (lowerBetween before' cs after').length := by
  induction cs generalizing before before' with
  | nil => rfl
  | cons c rest ih =>
      rw [lowerBetween, lowerBetween, List.length_append, List.length_append,
        length_lowerAt before before' _ (rest ++ after'), ih (c :: before) (c :: before')]

/-- Two surroundings give a text the same lower case exactly if its sigmas end the same words. -/
theorem lowerBetween_eq_iff {cs : List Char} :
    lowerBetween before cs after = lowerBetween before' cs after' ↔
      ∀ first rest, cs = first ++ 'Σ' :: rest →
        endsWord (first.reverse ++ before) (rest ++ after) =
          endsWord (first.reverse ++ before') (rest ++ after') := by
  induction cs generalizing before before' with
  | nil => simp [lowerBetween]
  | cons c cs ih =>
      -- the first characters have lower cases of one length, so that an equality falls apart there
      have hlength := length_lowerAt before before' (cs ++ after) (cs ++ after') c
      have hsplit : lowerBetween before (c :: cs) after = lowerBetween before' (c :: cs) after' ↔
          lowerAt before c (cs ++ after) = lowerAt before' c (cs ++ after') ∧
            lowerBetween (c :: before) cs after = lowerBetween (c :: before') cs after' :=
        ⟨fun h => List.append_inj h hlength,
          fun h => by rw [lowerBetween, lowerBetween, h.1, h.2]⟩
      rw [hsplit, lowerAt_eq_iff, ih]
      constructor
      · rintro ⟨hhere, hlater⟩ first rest heq
        cases first with
        | nil =>
            cases heq
            exact hhere rfl
        | cons d first =>
            cases heq
            have h := hlater first rest rfl
            simpa using h
      · intro h
        refine ⟨?_, ?_⟩
        · rintro rfl
          exact h [] cs rfl
        · rintro first rest rfl
          have h := h (c :: first) rest rfl
          simpa using h

theorem lowercase_append_append (before cs after : List Char) :
    ∃ lowerBefore lowerAfter, lowercase (before ++ cs ++ after) =
      lowerBefore ++ lowerBetween before.reverse cs after ++ lowerAfter ∧
      (before = [] → lowerBefore = []) ∧ (after = [] → lowerAfter = []) := by
  refine ⟨lowerBetween [] before (cs ++ after), lowerFrom (cs.reverse ++ before.reverse) after,
    ?_, ?_, ?_⟩
  · rw [lowercase, List.append_assoc, lowerFrom_append, List.append_nil, lowerFrom_append,
      List.append_assoc]
  · rintro rfl
    rfl
  · rintro rfl
    rfl

theorem lowerBetween_eq_lowercase_iff {before cs after : List Char} :
    lowerBetween before.reverse cs after = lowercase cs ↔ KeepsSigmas before cs after := by
  rw [lowercase, lowerFrom_eq_lowerBetween, lowerBetween_eq_iff]
  simp only [List.append_nil]
  rfl

theorem length_lowerBetween_eq (before cs after : List Char) :
    (lowerBetween before.reverse cs after).length = (lowercase cs).length := by
  rw [lowercase, lowerFrom_eq_lowerBetween]
  exact length_lowerBetween _ _ _ _ _

end Lowercase

open Lowercase

namespace Comparator

variable {c : Comparator}

theorem occursIn_iff {needle cs : List Char} : occursIn needle cs = true ↔ needle <:+: cs := by
  induction cs with
  | nil => simp [occursIn]
  | cons c rest ih =>
      rw [occursIn, Bool.or_eq_true, List.isPrefixOf_iff_prefix, ih, List.infix_cons_iff]

def findsText : List Comparator :=
  [equal, startsWith, endsWith, contains]

def Admits (before after : List Char) : Comparator → Prop
  | equal => before = [] ∧ after = []
  | startsWith => before = []
  | endsWith => after = []
  | _ => True

def fold (ignoreCase : Bool) (s : String) : List Char :=
  if ignoreCase then lowercase s.toList else s.toList

theorem holds_iff (hc : c ∈ findsText) {ignoreCase : Bool} {actual expected : String} :
    c.holds ignoreCase actual expected = true ↔
      ∃ before after, c.Admits before after ∧
        fold ignoreCase actual = before ++ fold ignoreCase expected ++ after := by
  simp only [findsText, List.mem_cons, List.not_mem_nil, or_false] at hc
  rcases hc with rfl | rfl | rfl | rfl
  · change decide (fold ignoreCase actual = fold ignoreCase expected) = true ↔ _
    simp [Admits, and_assoc]
  · change (fold ignoreCase expected).isPrefixOf (fold ignoreCase actual) = true ↔ _
    rw [List.isPrefixOf_iff_prefix]
    simp [Admits, List.IsPrefix, eq_comm]
  · change (fold ignoreCase expected).isSuffixOf (fold ignoreCase actual) = true ↔ _
    rw [List.isSuffixOf_iff_suffix]
    simp [Admits, List.IsSuffix, eq_comm]
  · change occursIn (fold ignoreCase expected) (fold ignoreCase actual) = true ↔ _
    rw [occursIn_iff]
    simp [Admits, List.IsInfix, eq_comm]

/-- The expected text stands in the actual one as the comparator asks, and its capital sigmas end
words there exactly as they do in the expected text by itself. -/
def FindsAlike (c : Comparator) (actual expected : String) : Prop :=
  ∃ before after, c.Admits before after ∧ actual.toList = before ++ expected.toList ++ after ∧
    KeepsSigmas before expected.toList after

theorem holds_true_of_findsAlike (hc : c ∈ findsText) {actual expected : String}
    (h : c.FindsAlike actual expected) : c.holds true actual expected = true := by
  obtain ⟨before, after, hadmits, hactual, hsigmas⟩ := h
  obtain ⟨lowerBefore, lowerAfter, hlower, hbefore, hafter⟩ :=
    lowercase_append_append before expected.toList after
  refine (holds_iff hc).mpr ⟨lowerBefore, lowerAfter, ?_, ?_⟩
  · cases c with
    | equal => exact ⟨hbefore hadmits.1, hafter hadmits.2⟩
    | startsWith => exact hbefore hadmits
    | endsWith => exact hafter hadmits
    | contains | notEqual | «exists» | greater | greaterEqual | less | lessEqual => trivial
  · change lowercase actual.toList = lowerBefore ++ lowercase expected.toList ++ lowerAfter
    rw [hactual, hlower, lowerBetween_eq_lowercase_iff.mpr hsigmas]

theorem FindsAlike.of_not_mem (hc : c ∈ findsText) {actual expected : String}
    (hsigma : 'Σ' ∉ expected.toList) (h : c.holds false actual expected = true) :
    c.FindsAlike actual expected := by
  obtain ⟨before, after, hadmits, hactual⟩ := (holds_iff hc).mp h
  exact ⟨before, after, hadmits, hactual, .of_not_mem hsigma before after⟩

theorem FindsAlike.of_equal {actual expected : String}
    (h : equal.holds false actual expected = true) : equal.FindsAlike actual expected := by
  obtain ⟨before, after, ⟨rfl, rfl⟩, hactual⟩ := (holds_iff (by decide)).mp h
  exact ⟨[], [], ⟨rfl, rfl⟩, hactual, .alone _⟩

theorem findsAlike_of_holds (hc : c ∈ findsText) (hplace : c ≠ contains) {actual expected : String}
    (h : c.holds false actual expected = true) (hignoring : c.holds true actual expected = true) :
    c.FindsAlike actual expected := by
  obtain ⟨before, after, hadmits, hactual⟩ := (holds_iff hc).mp h
  obtain ⟨lowerBefore', lowerAfter', hadmits', hlower'⟩ := (holds_iff hc).mp hignoring
  obtain ⟨lowerBefore, lowerAfter, hlower, hbefore, hafter⟩ :=
    lowercase_append_append before expected.toList after
  have hlength := length_lowerBetween_eq before expected.toList after
  change actual.toList = before ++ expected.toList ++ after at hactual
  change lowercase actual.toList = lowerBefore' ++ lowercase expected.toList ++ lowerAfter'
    at hlower'
  rw [hactual, hlower] at hlower'
  refine ⟨before, after, hadmits, hactual, lowerBetween_eq_lowercase_iff.mp ?_⟩
  simp only [findsText, List.mem_cons, List.not_mem_nil, or_false] at hc
  rcases hc with rfl | rfl | rfl | rfl
  · rw [hbefore hadmits.1, hadmits'.1, List.nil_append, List.nil_append] at hlower'
    exact (List.append_inj hlower' hlength).1
  · rw [hbefore hadmits, hadmits', List.nil_append, List.nil_append] at hlower'
    exact (List.append_inj hlower' hlength).1
  · rw [hafter hadmits, hadmits', List.append_nil, List.append_nil] at hlower'
    exact (List.append_inj' hlower' hlength).2
  · exact absurd rfl hplace

end Comparator

def AttributeFilter.texts (key : AttributeKey) (shape : Shape) : List String :=
  (key.values shape).filterMap AttributeValue.text?

theorem AttributeFilter.test_comparison_iff {c : Comparator} (hne : c ≠ .notEqual)
    (hexists : c ≠ .exists) {key : AttributeKey} {values : List String} {ignoreCase : Bool}
    {shape : Shape} :
    test ⟨key, some ⟨c, values, ignoreCase⟩⟩ shape = true ↔
      ∃ actual ∈ texts key shape, ∃ expected ∈ values,
        c.holds ignoreCase actual expected = true := by
  cases c with
  | notEqual => exact absurd rfl hne
  | «exists» => exact absurd rfl hexists
  | equal | startsWith | endsWith | contains | greater | greaterEqual | less | lessEqual =>
      simp only [test, Comparison.test, texts, List.any_eq_true]

theorem AttributeFilter.test_eq_true_iff {c : Comparator} (hc : c ∈ Comparator.findsText)
    {key : AttributeKey} {values : List String} {ignoreCase : Bool} {shape : Shape} :
    test ⟨key, some ⟨c, values, ignoreCase⟩⟩ shape = true ↔
      ∃ actual ∈ texts key shape, ∃ expected ∈ values,
        c.holds ignoreCase actual expected = true := by
  refine test_comparison_iff ?_ ?_
  · rintro rfl
    exact absurd hc (by decide)
  · rintro rfl
    exact absurd hc (by decide)

/-- A comparison that holds also holds without regard to letter case if the capital sigmas of the
expected text end words in the actual text exactly as they do by themselves; where the comparator
leaves no choice of the place, exactly then. So equality is always kept, and everything is that has
no capital sigma to look for. A filter that passes a shape by such comparisons passes it too. -/
theorem Comparator.holds_ignoring_case {c : Comparator} (hc : c ∈ findsText) :
    (∀ actual expected, c.FindsAlike actual expected → c.holds true actual expected = true) ∧
    (∀ actual expected, c.holds false actual expected = true →
      c = equal ∨ 'Σ' ∉ expected.toList → c.holds true actual expected = true) ∧
    (∀ actual expected, c ≠ contains → c.holds false actual expected = true →
      (c.holds true actual expected = true ↔ c.FindsAlike actual expected)) ∧
    ∀ key values shape,
      (∀ actual ∈ AttributeFilter.texts key shape, ∀ expected ∈ values,
        c.holds false actual expected = true → c.FindsAlike actual expected) →
      AttributeFilter.test ⟨key, some ⟨c, values, false⟩⟩ shape = true →
        AttributeFilter.test ⟨key, some ⟨c, values, true⟩⟩ shape = true := by
  refine ⟨fun actual expected => holds_true_of_findsAlike hc, ?_, ?_, ?_⟩
  · rintro actual expected h (rfl | hsigma)
    · exact holds_true_of_findsAlike hc (.of_equal h)
    · exact holds_true_of_findsAlike hc (.of_not_mem hc hsigma h)
  · intro actual expected hplace h
    exact ⟨findsAlike_of_holds hc hplace h, holds_true_of_findsAlike hc⟩
  · intro key values shape halike h
    obtain ⟨actual, hactual, expected, hexpected, hholds⟩ :=
      (AttributeFilter.test_eq_true_iff hc).mp h
    exact (AttributeFilter.test_eq_true_iff hc).mpr ⟨actual, hactual, expected, hexpected,
      holds_true_of_findsAlike hc (halike actual hactual expected hexpected hholds)⟩

theorem Comparator.holds_ignoring_case_startsWith :
    startsWith ∈ findsText ∧ startsWith.holds false "ΣΑΣ!" "ΣΑΣ" = true ∧
      startsWith.holds true "ΣΑΣ!" "ΣΑΣ" = true := by
  have hsigmas : KeepsSigmas [] "ΣΑΣ".toList ['!'] := by
    rw [← lowerBetween_eq_lowercase_iff]
    decide +kernel
  exact ⟨by decide, by decide +kernel, (holds_ignoring_case (c := startsWith) (by decide)).1 _ _
    ⟨[], ['!'], rfl, by decide +kernel, hsigmas⟩⟩

/-- A sigma that ends the expected text but no word of the actual one: the texts compare as they
are, and not without regard to letter case, and so a filter refuses a service that it passed. -/
theorem Comparator.ignoring_case_narrows :
    (startsWith.holds false "ΑΣΑ" "ΑΣ" = true ∧ startsWith.holds true "ΑΣΑ" "ΑΣ" = false) ∧
    (endsWith.holds false "ΑΣ" "Σ" = true ∧ endsWith.holds true "ΑΣ" "Σ" = false) ∧
    (contains.holds false "ΑΣΑ" "ΑΣ" = true ∧ contains.holds true "ΑΣΑ" "ΑΣ" = false) ∧
    let version := { Service.blank with version := "ΑΣΑ" }
    let service : Shape := ⟨⟨"a", "S", none⟩, .service version, ∅, []⟩
    AttributeFilter.test ⟨.serviceVersion, some ⟨startsWith, ["ΑΣ"], false⟩⟩ service = true ∧
      AttributeFilter.test ⟨.serviceVersion, some ⟨startsWith, ["ΑΣ"], true⟩⟩ service = false := by
  decide +kernel

end SchemaQuery
