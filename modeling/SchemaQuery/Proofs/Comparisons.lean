import SchemaQuery.Proofs.LetterCase

namespace SchemaQuery.AttributeFilter

/-- Whether a comparison of an attribute with some values passes a shape. -/
abbrev compares (shape : Shape) (key : AttributeKey) (ignoreCase : Bool) (c : Comparator)
    (values : List String) : Bool :=
  test ⟨key, some ⟨c, values, ignoreCase⟩⟩ shape

variable {shape : Shape} {key : AttributeKey} {ignoreCase : Bool} {values vs ws : List String}

theorem compares_notEqual_iff :
    compares shape key ignoreCase .notEqual values = true ↔
      ∃ actual ∈ texts key shape, ∀ expected ∈ values,
        Comparator.equal.holds ignoreCase actual expected = false := by
  simp only [compares, test, Comparison.test, texts, List.any_eq_true, List.all_eq_true,
    Bool.not_eq_true']

theorem compares_exists :
    compares shape key ignoreCase .exists values =
      values.any (Comparator.equal.holds ignoreCase
        (if test ⟨key, none⟩ shape then "true" else "false")) := by
  change values.any (Comparator.equal.holds ignoreCase
    (if (key.values shape).isEmpty then "false" else "true")) = _
  congr 2
  rw [test]
  cases (key.values shape).isEmpty <;> simp

theorem equal_holds_self (ignoreCase : Bool) (text : String) :
    Comparator.equal.holds ignoreCase text text = true := by
  simp [Comparator.holds]

theorem equal_holds_truth (ignoreCase answer expected : Bool) :
    Comparator.equal.holds ignoreCase (if answer then "true" else "false")
      (if expected then "true" else "false") = (answer == expected) := by
  cases ignoreCase <;> cases answer <;> cases expected <;> decide +kernel

theorem compares_append {c : Comparator} (hc : c ≠ .notEqual) :
    compares shape key ignoreCase c (vs ++ ws) = true ↔
      compares shape key ignoreCase c vs = true ∨ compares shape key ignoreCase c ws = true := by
  by_cases hexists : c = .exists
  · subst hexists
    rw [compares_exists, compares_exists, compares_exists, List.any_append, Bool.or_eq_true]
  · simp only [compares, test_comparison_iff hc hexists, ← exists_or, ← and_or_left,
      List.mem_append, or_and_right]

theorem compares_notEqual_of_subset (h : vs ⊆ ws)
    (hpasses : compares shape key ignoreCase .notEqual ws = true) :
    compares shape key ignoreCase .notEqual vs = true := by
  obtain ⟨actual, hactual, hdiffers⟩ := compares_notEqual_iff.mp hpasses
  exact compares_notEqual_iff.mpr ⟨actual, hactual, fun expected hexpected =>
    hdiffers expected (h hexpected)⟩

theorem compares_exists_answer (answer : Bool) :
    compares shape key ignoreCase .exists [if answer then "true" else "false"] = true ↔
      test ⟨key, none⟩ shape = answer := by
  rw [compares_exists, List.any_cons, List.any_nil, Bool.or_false, equal_holds_truth, beq_iff_eq]

theorem compares_notEqual_of_texts_eq {text : String} (h : texts key shape = [text]) :
    compares shape key ignoreCase .notEqual values = true ↔
      compares shape key ignoreCase .equal values = false := by
  rw [compares_notEqual_iff, ← Bool.not_eq_true, compares,
    test_comparison_iff Comparator.noConfusion Comparator.noConfusion, h]
  simp

theorem compares_eq_false_of_texts_eq_nil (h : texts key shape = []) {c : Comparator}
    (hexists : c ≠ .exists) : compares shape key ignoreCase c values = false := by
  rw [← Bool.not_eq_true]
  by_cases hc : c = .notEqual
  · subst hc
    rw [compares_notEqual_iff, h]
    simp
  · rw [compares, test_comparison_iff hc hexists, h]
    simp

theorem texts_eq_nil_iff :
    texts key shape = [] ↔ ∀ value ∈ key.values shape, value = .structured ∨ value = .null := by
  have htext (value : AttributeValue) :
      value.text? = none ↔ value = .structured ∨ value = .null := by
    cases value <;> simp [AttributeValue.text?]
  simp only [texts, List.filterMap_eq_nil_iff, htext]

theorem texts_eq_nil_iff_compares_nothing :
    texts key shape = [] ↔
      ∀ c, c ≠ .exists → ∀ values, compares shape key ignoreCase c values = false := by
  constructor
  · intro h c hexists values
    exact compares_eq_false_of_texts_eq_nil h hexists
  · intro h
    refine List.eq_nil_iff_forall_not_mem.mpr ?_
    intro text htext
    have hpasses : compares shape key ignoreCase .equal [text] = true :=
      (test_comparison_iff Comparator.noConfusion Comparator.noConfusion).mpr
        ⟨text, htext, text, List.mem_singleton_self text, equal_holds_self ignoreCase text⟩
    rw [h .equal Comparator.noConfusion] at hpasses
    cases hpasses

/-- A comparison with the values of two lists passes exactly if it does with those of one of them,
and inequality only if it does with those of both. Existence compares with `true` as the filter
without comparison answers, and with `false` the other way round. Of a single text, inequality says
the opposite of equality. An attribute has nothing but nulls, objects and arrays exactly if no
comparator but that for existence ever passes it. -/
theorem comparisons_combine (shape : Shape) (key : AttributeKey) (ignoreCase : Bool)
    (vs ws : List String) :
    (∀ c, c ≠ .notEqual → (compares shape key ignoreCase c (vs ++ ws) = true ↔
      compares shape key ignoreCase c vs = true ∨ compares shape key ignoreCase c ws = true)) ∧
    (compares shape key ignoreCase .notEqual (vs ++ ws) = true →
      compares shape key ignoreCase .notEqual vs = true ∧
        compares shape key ignoreCase .notEqual ws = true) ∧
    (compares shape key ignoreCase .exists ["true"] = true ↔ test ⟨key, none⟩ shape = true) ∧
    (compares shape key ignoreCase .exists ["false"] = true ↔ ¬ test ⟨key, none⟩ shape = true) ∧
    (∀ text, texts key shape = [text] →
      (compares shape key ignoreCase .notEqual vs = true ↔
        ¬ compares shape key ignoreCase .equal vs = true)) ∧
    ((∀ value ∈ key.values shape, value = .structured ∨ value = .null) ↔
      ∀ c, c ≠ .exists → ∀ values, compares shape key ignoreCase c values = false) := by
  refine ⟨fun c hc => compares_append hc, ?_, compares_exists_answer true, ?_, ?_, ?_⟩
  · intro h
    exact ⟨compares_notEqual_of_subset (List.subset_append_left vs ws) h,
      compares_notEqual_of_subset (List.subset_append_right vs ws) h⟩
  · rw [Bool.not_eq_true]
    exact compares_exists_answer false
  · intro text htext
    rw [Bool.not_eq_true]
    exact compares_notEqual_of_texts_eq htext
  · rw [← texts_eq_nil_iff]
    exact texts_eq_nil_iff_compares_nothing

def noted : Shape :=
  ⟨⟨"a", "S", none⟩, .simple .string, .ofList [⟨⟨"a", "doc", none⟩,
    .object [("many", .array [.text "a", .int 10, .null]),
      ("none", .array [.null, .array [.text "a"], .empty]),
      ("one", .array [.null, .text "x", .empty])]⟩], []⟩

def notedKey (name : String) : AttributeKey :=
  .trait ⟨"a", "doc", none⟩ [.key name, .values]

theorem comparisons_combine_noted :
    (Comparator.greater ≠ .notEqual ∧
      (compares noted (notedKey "many") false .greater (["a"] ++ ["9.5"]) = true ↔
        compares noted (notedKey "many") false .greater ["a"] = true ∨
          compares noted (notedKey "many") false .greater ["9.5"] = true)) ∧
    (compares noted (notedKey "many") true .notEqual (["A"] ++ ["x"]) = true ∧
      compares noted (notedKey "many") true .notEqual ["A"] = true ∧
        compares noted (notedKey "many") true .notEqual ["x"] = true) ∧
    (texts (notedKey "one") noted = ["x"] ∧
      (compares noted (notedKey "one") true .notEqual ["a", "X"] = true ↔
        ¬ compares noted (notedKey "one") true .equal ["a", "X"] = true)) ∧
    ((∀ value ∈ (notedKey "none").values noted, value = .structured ∨ value = .null) ∧
      Comparator.contains ≠ .exists ∧
        compares noted (notedKey "none") false .contains ["", "a"] = false) := by
  have hnumber : Comparator.greater ≠ .notEqual := by decide
  have hdiffers : compares noted (notedKey "many") true .notEqual (["A"] ++ ["x"]) = true := by
    decide +kernel
  have htexts : texts (notedKey "one") noted = ["x"] := by decide +kernel
  have hvalues : ∀ value ∈ (notedKey "none").values noted,
      value = .structured ∨ value = .null := by decide +kernel
  have hexists : Comparator.contains ≠ .exists := by decide
  exact ⟨⟨hnumber, (comparisons_combine noted (notedKey "many") false ["a"] ["9.5"]).1 _ hnumber⟩,
    ⟨hdiffers, (comparisons_combine noted (notedKey "many") true ["A"] ["x"]).2.1 hdiffers⟩,
    ⟨htexts, (comparisons_combine noted (notedKey "one") true ["a", "X"] []).2.2.2.2.1 _ htexts⟩,
    hvalues, hexists,
    (comparisons_combine noted (notedKey "none") false [] []).2.2.2.2.2.mp hvalues _ hexists _⟩

example : compares noted (notedKey "many") false .notEqual ["a"] = true ∧
    compares noted (notedKey "many") false .notEqual ["10"] = true ∧
    compares noted (notedKey "many") false .notEqual ["a", "10"] = false := by
  decide +kernel

end SchemaQuery.AttributeFilter
