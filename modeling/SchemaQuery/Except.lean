namespace SchemaQuery

variable {ε α β : Type}

theorem map_eq_ok_iff {f : α → β} {x : Except ε α} {b : β} :
    x.map f = .ok b ↔ ∃ a, x = .ok a ∧ f a = b := by
  cases x <;> simp [Except.map]

theorem map_eq_error_iff {f : α → β} {x : Except ε α} {e : ε} :
    x.map f = .error e ↔ x = .error e := by
  cases x <;> simp [Except.map]

theorem mapError_eq_ok_iff {ε' : Type} {f : ε → ε'} {x : Except ε α} {a : α} :
    x.mapError f = .ok a ↔ x = .ok a := by
  cases x with
  | error e =>
    constructor
    · rintro ⟨⟩
    · rintro ⟨⟩
  | ok b =>
    constructor
    · rintro ⟨⟩
      rfl
    · rintro ⟨⟩
      rfl

theorem exists_eq_ok_of_isOk {x : Except ε α} (h : x.isOk = true) : ∃ a, x = .ok a := by
  cases x with
  | error e => cases h
  | ok a => exact ⟨a, rfl⟩

theorem toOption_eq_some_iff {x : Except ε α} {a : α} : x.toOption = some a ↔ x = .ok a := by
  cases x <;> simp [Except.toOption]

theorem forM_eq_ok_iff {check : α → Except ε Unit} {l : List α} :
    l.forM check = .ok () ↔ ∀ a ∈ l, check a = .ok () := by
  induction l with
  | nil => simp [pure, Except.pure]
  | cons a l ih =>
    rw [List.forall_mem_cons, ← ih]
    change (check a >>= fun _ => l.forM check) = .ok () ↔ _
    cases check a <;> simp [bind, Except.bind]

/-- If the check of some item fails, the error is that of the first one. -/
theorem exists_first_of_forM_eq_error {check : α → Except ε Unit} {before : α → α → Prop}
    {l : List α} {e : ε} (hl : l.Pairwise before) (h : l.forM check = .error e) :
    ∃ a ∈ l, check a = .error e ∧ ∀ b ∈ l, check b ≠ .ok () → b = a ∨ before a b := by
  induction l with
  | nil => simp [pure, Except.pure] at h
  | cons a l ih =>
    obtain ⟨ha, hl⟩ := List.pairwise_cons.mp hl
    change (check a >>= fun _ => l.forM check) = .error e at h
    cases hcheck : check a with
    | error found =>
      rw [hcheck] at h
      refine ⟨a, List.mem_cons_self, hcheck.trans h, ?_⟩
      intro b hb _
      exact (List.mem_cons.mp hb).imp_right (ha b)
    | ok _ =>
      rw [hcheck] at h
      obtain ⟨first, hfirst, hfails, hrest⟩ := ih hl h
      refine ⟨first, List.mem_cons_of_mem a hfirst, hfails, ?_⟩
      intro b hb hne
      rcases List.mem_cons.mp hb with rfl | hb
      · exact absurd hcheck hne
      · exact hrest b hb hne

theorem exists_of_forM_eq_error {check : α → Except ε Unit} {l : List α} {e : ε}
    (h : l.forM check = .error e) : ∃ a ∈ l, check a = .error e := by
  have hl : l.Pairwise fun _ _ => True := List.pairwise_iff_getElem.mpr fun _ _ _ _ _ => trivial
  obtain ⟨a, ha, hfails, -⟩ := exists_first_of_forM_eq_error hl h
  exact ⟨a, ha, hfails⟩

end SchemaQuery
