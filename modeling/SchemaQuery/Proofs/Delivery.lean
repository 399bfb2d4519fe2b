import SchemaQuery.Proofs.Outcomes

namespace SchemaQuery

/-- A run of a sink. It is called on the outcomes in turn, each time with the state that the call
before has left. All calls but the last go on, and the answer is `done` if the last one stops. -/
inductive Sink.Calls {σ : Type} (sink : Sink σ) : σ → List Outcome → ForInStep σ → Prop where
  | finish {s : σ} : Calls sink s [] (.yield s)
  | stop {s t : σ} {o : Outcome} (hstop : sink o.bindings o.shape s = .done t) :
      Calls sink s [o] (.done t)
  | goOn {s t : σ} {o : Outcome} {os : List Outcome} {answer : ForInStep σ}
      (hyield : sink o.bindings o.shape s = .yield t) (hrest : Calls sink t os answer) :
      Calls sink s (o :: os) answer

def Sink.recorded {σ : Type} (sink : Sink σ) : Sink (List Outcome × σ) :=
  fun bindings shape (heard, s) =>
    match sink bindings shape s with
    | .done t => .done (heard ++ [⟨bindings, shape⟩], t)
    | .yield t => .yield (heard ++ [⟨bindings, shape⟩], t)

variable {σ : Type}

theorem Sink.recorded_take_of_done {sink : Sink σ} {o : Outcome} {s t : σ}
    (h : sink o.bindings o.shape s = .done t) (heard : List Outcome) :
    sink.recorded.take o (heard, s) = .done (heard ++ [o], t) := by
  simp only [Sink.take, Sink.recorded, h]

theorem Sink.recorded_take_of_yield {sink : Sink σ} {o : Outcome} {s t : σ}
    (h : sink o.bindings o.shape s = .yield t) (heard : List Outcome) :
    sink.recorded.take o (heard, s) = .yield (heard ++ [o], t) := by
  simp only [Sink.take, Sink.recorded, h]

theorem exists_calls_feed (sink : Sink σ) (os heard : List Outcome) (s : σ) :
    ∃ called left, os = called ++ left ∧ sink.Calls s called (feed sink.take os s) ∧
      (left = [] ∨ ∃ t, feed sink.take os s = .done t) ∧
      (feed sink.recorded.take os (heard, s)).value.1 = heard ++ called := by
  induction os generalizing heard s with
  | nil => exact ⟨[], [], rfl, .finish, .inl rfl, (List.append_nil heard).symm⟩
  | cons o os ih =>
      cases hcall : sink o.bindings o.shape s with
      | done t =>
          have hfeed : feed sink.take (o :: os) s = .done t := by
            simp only [feed, Sink.take, hcall]
          refine ⟨[o], os, rfl, ?_, .inr ⟨t, hfeed⟩, ?_⟩
          · rw [hfeed]
            exact .stop hcall
          · rw [feed, Sink.recorded_take_of_done hcall]
            rfl
      | yield t =>
          have hfeed : feed sink.take (o :: os) s = feed sink.take os t := by
            simp only [feed, Sink.take, hcall]
          obtain ⟨called, left, hos, hcalls, hleft, hheard⟩ := ih (heard ++ [o]) t
          refine ⟨o :: called, left, by rw [hos, List.cons_append], ?_, ?_, ?_⟩
          · rw [hfeed]
            exact .goOn hcall hcalls
          · rw [hfeed]
            exact hleft
          · rw [feed, Sink.recorded_take_of_yield hcall]
            simpa using hheard

theorem any_eq_true_iff_collect_ne_empty (selector : Selector) (m : Model) (bindings : Bindings)
    (shape : Shape) :
    selector.any m bindings shape = true ↔ selector.collect m bindings shape ≠ ∅ := by
  have hflow := selector.flow_delivers m
  have hcollect : selector.collect m bindings shape = _ := hflow.collect_eq bindings shape
  have hany : selector.any m bindings shape = _ := hflow.any_eq bindings shape
  rw [hcollect, hany, ← not_iff_not]
  simp only [Bool.not_eq_true', Bool.not_eq_false, List.isEmpty_iff, ne_eq, not_not]
  constructor
  · intro hnil
    rw [hnil]
    rfl
  · intro hempty
    rw [List.eq_nil_iff_forall_not_mem]
    intro o ho
    have hmem : o.shape.id ∈ (∅ : IdSet).entries := by
      rw [← hempty, SortedSet.mem_ofList]
      exact List.mem_map_of_mem ho
    cases hmem

/-- Evaluation calls the sink on what the selector yields, in order, up to and including the first
outcome at which the sink stops. It stops exactly if the sink does. -/
theorem push_calls_outcomes (selector : Selector) (m : Model) (bindings : Bindings)
    (shape : Shape) (sink : Sink σ) (s : σ) :
    (∃ called left, selector.outcomes m bindings shape = called ++ left ∧
      sink.Calls s called (selector.push m bindings shape sink s) ∧
      (left = [] ∨ ∃ t, selector.push m bindings shape sink s = .done t) ∧
      (selector.push m bindings shape sink.recorded ([], s)).value.1 = called) ∧
    (selector.any m bindings shape = true ↔ selector.collect m bindings shape ≠ ∅) := by
  refine ⟨?_, any_eq_true_iff_collect_ne_empty selector m bindings shape⟩
  have hpush : selector.push m bindings shape sink s = _ :=
    selector.flow_delivers m bindings shape sink s
  have hrecord : selector.push m bindings shape sink.recorded ([], s) = _ :=
    selector.flow_delivers m bindings shape sink.recorded ([], s)
  rw [hpush, hrecord]
  exact exists_calls_feed sink (selector.outcomes m bindings shape) [] s

end SchemaQuery
