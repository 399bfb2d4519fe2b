import SchemaQuery.Graph.DepthFirst

namespace SchemaQuery.BreadthFirst

open DepthFirst

variable {α : Type} [DecidableEq α]

theorem unseen_cons_of_notMem {sources seen : List α} {a : α} (h : a ∉ sources) :
    unseen sources (a :: seen) = unseen sources seen := by
  unfold unseen
  refine List.filter_congr fun b hb => ?_
  have hne : b ≠ a := fun e => h (e ▸ hb)
  simp [hne]

/-- Takes vertices from the front of the queue and puts their successors at its end. Vertices come
in the order of their first turn. Only `sources` have successors. -/
def work (sources : List α) (next : α → List α) (queue seen : List α) : List α :=
  match queue with
  | [] => []
  | a :: queue =>
    if a ∈ seen then
      work sources next queue seen
    else if a ∈ sources then
      a :: work sources next (queue ++ next a) (a :: seen)
    else
      a :: work sources next queue (a :: seen)
termination_by ((unseen sources seen).length, queue.length)
decreasing_by
  · exact Prod.Lex.right _ (by simp)
  · next hnew hmem => exact Prod.Lex.left _ _ (length_unseen_cons hmem hnew)
  · next hnew hmem =>
    rw [unseen_cons_of_notMem hmem]
    exact Prod.Lex.right _ (by simp)

/-- The vertices that a walk of at least one step from `start` reaches, the nearer ones first. -/
def reach (sources : List α) (next : α → List α) (start : α) : List α :=
  work sources next (next start) []

end SchemaQuery.BreadthFirst
