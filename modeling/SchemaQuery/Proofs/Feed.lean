import SchemaQuery.Selector.Push

namespace SchemaQuery

variable {α β σ : Type}

theorem feed_append (take : α → σ → ForInStep σ) (l₁ l₂ : List α) (s : σ) :
    feed take (l₁ ++ l₂) s =
      match feed take l₁ s with
      | .done s => .done s
      | .yield s => feed take l₂ s := by
  induction l₁ generalizing s with
  | nil => rfl
  | cons a l₁ ih =>
      rw [List.cons_append, feed, feed]
      cases take a s with
      | done s => rfl
      | yield s => exact ih s

theorem feed_map (take : β → σ → ForInStep σ) (f : α → β) (l : List α) (s : σ) :
    feed take (l.map f) s = feed (fun a => take (f a)) l s := by
  induction l generalizing s with
  | nil => rfl
  | cons a l ih =>
      rw [List.map_cons, feed, feed]
      cases take (f a) s with
      | done s => rfl
      | yield s => exact ih s

theorem feed_flatMap (take : β → σ → ForInStep σ) (f : α → List β) (l : List α) (s : σ) :
    feed take (l.flatMap f) s = feed (fun a => feed take (f a)) l s := by
  induction l generalizing s with
  | nil => rfl
  | cons a l ih =>
      rw [List.flatMap_cons, feed_append, feed]
      cases feed take (f a) s with
      | done s => rfl
      | yield s => exact ih s

theorem feed_singleton (take : α → σ → ForInStep σ) (a : α) (s : σ) :
    feed take [a] s = take a s := by
  rw [feed]
  cases take a s <;> rfl

theorem feed_congr {take take' : α → σ → ForInStep σ} {l : List α}
    (h : ∀ a ∈ l, take a = take' a) (s : σ) : feed take l s = feed take' l s := by
  induction l generalizing s with
  | nil => rfl
  | cons a l ih =>
      obtain ⟨ha, hl⟩ := List.forall_mem_cons.mp h
      rw [feed, feed, ha]
      cases take' a s with
      | done s => rfl
      | yield s => exact ih hl s

def mapAnswer {τ : Type} (f : σ → τ) : ForInStep σ → ForInStep τ
  | .done s => .done (f s)
  | .yield s => .yield (f s)

@[simp] theorem value_mapAnswer {τ : Type} (f : σ → τ) (answer : ForInStep σ) :
    (mapAnswer f answer).value = f answer.value := by
  cases answer <;> rfl

/-- A consumer of translated items with a translated state keeps in step with the original one. -/
theorem feed_translate {τ : Type} {take : α → σ → ForInStep σ} {take' : β → τ → ForInStep τ}
    {f : α → β} {g : σ → τ} {l : List α}
    (h : ∀ a ∈ l, ∀ s, take' (f a) (g s) = mapAnswer g (take a s)) (s : σ) :
    feed take' (l.map f) (g s) = mapAnswer g (feed take l s) := by
  induction l generalizing s with
  | nil => rfl
  | cons a l ih =>
      obtain ⟨ha, hl⟩ := List.forall_mem_cons.mp h
      rw [List.map_cons, feed, feed, ha]
      cases take a s with
      | done s => rfl
      | yield s => exact ih hl s

theorem feed_filter {take : α → σ → ForInStep σ} {test : α → Bool}
    (h : ∀ a, test a = false → ∀ s, take a s = .yield s) (l : List α) (s : σ) :
    feed take (l.filter test) s = feed take l s := by
  induction l generalizing s with
  | nil => rfl
  | cons a l ih =>
      rw [List.filter_cons]
      cases htest : test a with
      | false =>
          rw [if_neg Bool.false_ne_true, feed, h a htest s]
          exact ih s
      | true =>
          rw [if_pos rfl, feed, feed]
          cases take a s with
          | done s => rfl
          | yield s => exact ih s

end SchemaQuery
