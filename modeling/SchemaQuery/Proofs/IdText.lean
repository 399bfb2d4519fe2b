import SchemaQuery.Shape.Id

namespace SchemaQuery.ShapeId

structure WellFormed (id : ShapeId) : Prop where
  namespaceName : isNamespace id.namespaceName.toList = true
  name : isIdentifier id.name.toList = true
  member : ∀ member, id.member = some member → isIdentifier member.toList = true

instance (id : ShapeId) : Decidable id.WellFormed :=
  decidable_of_iff
    (isNamespace id.namespaceName.toList = true ∧ isIdentifier id.name.toList = true ∧
      ∀ member ∈ id.member, isIdentifier member.toList = true)
    ⟨fun ⟨hspace, hname, hmember⟩ => ⟨hspace, hname, hmember⟩,
      fun h => ⟨h.namespaceName, h.name, h.member⟩⟩

theorem cut_append {separator : Char} {before after : List Char} (h : separator ∉ before) :
    cut separator (before ++ separator :: after) = some (before, after) := by
  have hbefore : ∀ c ∈ before, decide (c ≠ separator) = true := by
    intro c hc
    exact decide_eq_true fun heq => h (heq ▸ hc)
  have htake : (before ++ separator :: after).takeWhile (· ≠ separator) = before := by
    rw [List.takeWhile_append_of_pos hbefore]
    simp
  have hdrop : (before ++ separator :: after).dropWhile (· ≠ separator) = separator :: after := by
    rw [List.dropWhile_append_of_pos hbefore]
    simp
  simp only [cut, hdrop, htake]

theorem cut_eq_none {separator : Char} {cs : List Char} (h : separator ∉ cs) :
    cut separator cs = none := by
  have hdrop : cs.dropWhile (· ≠ separator) = [] := by
    rw [← List.append_nil cs, List.dropWhile_append_of_pos]
    · rfl
    · intro c hc
      exact decide_eq_true fun heq => h (heq ▸ hc)
  simp only [cut, hdrop]

theorem eq_append_of_cut {separator : Char} {cs before after : List Char}
    (h : cut separator cs = some (before, after)) : cs = before ++ separator :: after := by
  unfold cut at h
  split at h
  · cases h
  · next c rest hdrop =>
    have hc : c = separator := by
      have hhead := List.head?_dropWhile_not (p := (· ≠ separator)) cs
      rw [hdrop] at hhead
      simpa using hhead
    simp only [Option.some.injEq, Prod.mk.injEq] at h
    rw [← h.1, ← h.2, ← hc, ← hdrop, hc]
    exact List.takeWhile_append_dropWhile.symm

theorem toNat_of_isAlpha {c : Char} (h : c.isAlpha = true) :
    65 ≤ c.toNat ∧ c.toNat ≤ 90 ∨ 97 ≤ c.toNat ∧ c.toNat ≤ 122 := by
  rcases Bool.or_eq_true_iff.mp h with hupper | hlower
  · exact .inl (of_decide_eq_true hupper)
  · obtain ⟨hlow, hhigh⟩ := Bool.and_eq_true_iff.mp hlower
    exact .inr ⟨of_decide_eq_true hlow, of_decide_eq_true hhigh⟩

theorem toNat_of_isIdentifierChar {c : Char} (h : isIdentifierChar c = true) :
    48 ≤ c.toNat ∧ c.toNat ≤ 122 := by
  rcases Bool.or_eq_true_iff.mp h with halphanum | hunderscore
  · rcases Bool.or_eq_true_iff.mp halphanum with halpha | hdigit
    · have hbounds := toNat_of_isAlpha halpha
      omega
    · obtain ⟨hlow, hhigh⟩ := Char.isDigit_iff_toNat.mp hdigit
      exact ⟨hlow, Nat.le_trans hhigh (by decide)⟩
  · obtain rfl := eq_of_beq hunderscore
    decide

theorem isIdentifierChar_of_mem {cs : List Char} (h : isIdentifier cs = true) {c : Char}
    (hc : c ∈ cs) : isIdentifierChar c = true := by
  cases cs with
  | nil => cases hc
  | cons d rest =>
      simp only [isIdentifier, Bool.and_eq_true, List.all_eq_true] at h
      exact h.1.2 c hc

theorem not_mem_of_isIdentifier {cs : List Char} (h : isIdentifier cs = true) {c : Char}
    (hc : isIdentifierChar c = false) : c ∉ cs := by
  intro hmem
  rw [isIdentifierChar_of_mem h hmem] at hc
  cases hc

theorem eq_or_mem_of_pieces {separator : Char} {cs : List Char} {c : Char} (hc : c ∈ cs) :
    c = separator ∨ ∃ piece ∈ pieces separator cs, c ∈ piece := by
  induction cs with
  | nil => cases hc
  | cons d rest ih =>
      unfold pieces
      rcases List.mem_cons.mp hc with rfl | hc
      · by_cases h : c = separator
        · exact .inl h
        · right
          rw [if_neg h]
          split <;> exact ⟨_, List.mem_cons_self, List.mem_cons_self⟩
      · refine (ih hc).imp_right ?_
        rintro ⟨piece, hpiece, hmem⟩
        split
        · exact ⟨piece, List.mem_cons_of_mem _ hpiece, hmem⟩
        · split
          · next hnil => simp [hnil] at hpiece
          · next first others hpieces =>
            rw [hpieces] at hpiece
            rcases List.mem_cons.mp hpiece with rfl | hpiece
            · exact ⟨d :: piece, List.mem_cons_self, List.mem_cons_of_mem d hmem⟩
            · exact ⟨piece, List.mem_cons_of_mem _ hpiece, hmem⟩

theorem char_of_isNamespace {cs : List Char} (h : isNamespace cs = true) {c : Char}
    (hc : c ∈ cs) : c = '.' ∨ isIdentifierChar c = true := by
  refine Or.imp_right ?_ (eq_or_mem_of_pieces hc)
  rintro ⟨piece, hpiece, hmem⟩
  exact isIdentifierChar_of_mem (List.all_eq_true.mp h piece hpiece) hmem

theorem separator_not_mem_of_isNamespace {cs : List Char} (h : isNamespace cs = true) :
    '#' ∉ cs := by
  intro hmem
  rcases char_of_isNamespace h hmem with hdot | hchar
  · exact absurd hdot (by decide)
  · exact absurd hchar (by decide)

theorem toList_text (id : ShapeId) :
    id.text.toList = id.namespaceName.toList ++ '#' ::
      (id.name.toList ++ (id.member.toList.flatMap fun member => '$' :: member.toList)) := by
  cases hmember : id.member with
  | none => simp [text, hmember]
  | some member => simp [text, hmember]

theorem parse_text {id : ShapeId} (h : id.WellFormed) : parse id.text = .ok id := by
  obtain ⟨hspace, hname, hmember⟩ := h
  obtain ⟨space, name, member⟩ := id
  have hdollar : '$' ∉ name.toList := not_mem_of_isIdentifier hname (by decide)
  rw [parse, toList_text, cut_append (separator_not_mem_of_isNamespace hspace)]
  cases member with
  | none => simp_all [cut_eq_none hdollar]
  | some member => simp_all [cut_append hdollar]

theorem parseRelative_text {id : ShapeId} (hid : id.WellFormed) (space : String) :
    parseRelative id.text space = .ok id := by
  have hsharp : id.text.toList.contains '#' = true := by
    rw [toList_text, List.contains_iff_mem]
    exact List.mem_append_right _ List.mem_cons_self
  rw [parseRelative, if_pos hsharp, parse_text hid]

theorem text_eq_of_parse {input : String} {id : ShapeId} (h : parse input = .ok id) :
    id.WellFormed ∧ id.text = input := by
  unfold parse at h
  split at h
  · cases h
  · next space rest hcut =>
    have hinput := eq_append_of_cut hcut
    split at h
    · cases h
    · next hspace =>
      split at h
      · split at h
        · cases h
        · next hname =>
          cases h
          refine ⟨⟨by simpa using hspace, by simpa using hname, ?_⟩, ?_⟩
          · rintro member ⟨⟩
          · apply String.toList_injective
            rw [toList_text, hinput]
            simp
      · next name member hmember =>
        have hrest := eq_append_of_cut hmember
        split at h
        · cases h
        · split at h
          · cases h
          · next hname hmember =>
            cases h
            refine ⟨⟨by simpa using hspace, by simpa using hname, ?_⟩, ?_⟩
            · rintro member ⟨⟩
              simpa using hmember
            · apply String.toList_injective
              rw [toList_text, hinput, hrest]
              simp

theorem parse_eq_ok_iff {input : String} {id : ShapeId} :
    parse input = .ok id ↔ id.WellFormed ∧ id.text = input := by
  constructor
  · exact text_eq_of_parse
  · rintro ⟨hid, rfl⟩
    exact parse_text hid

end SchemaQuery.ShapeId
