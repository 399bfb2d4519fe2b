/-!
Depth-first search of a finite directed graph.

The vertices come in the reverse of the order in which the search leaves them: if the graph has no
cycle, every vertex stands before those that it points to.
-/
namespace SchemaQuery.DepthFirst

variable {α : Type} [DecidableEq α]

/-- What is left to do: visit a vertex, or leave one whose successors are all visited. -/
inductive Task (α : Type) where
  | visit (a : α)
  | leave (a : α)
deriving DecidableEq

def unseen (vertices seen : List α) : List α :=
  vertices.filter fun a => a ∉ seen

theorem unseen_cons (vertices seen : List α) (a : α) :
    unseen vertices (a :: seen) = (unseen vertices seen).filter fun b => b ≠ a := by
  unfold unseen
  rw [List.filter_filter]
  congr 1
  funext b
  simp

theorem length_unseen_cons {vertices seen : List α} {a : α} (hmem : a ∈ vertices)
    (hnew : a ∉ seen) :
    (unseen vertices (a :: seen)).length < (unseen vertices seen).length := by
  rw [unseen_cons]
  exact List.length_filter_lt_length_iff_exists.mpr
    ⟨a, List.mem_filter.mpr ⟨hmem, by simpa using hnew⟩, by simp⟩

/-- Works the tasks off. Of the successors of a vertex the last one is visited first. -/
def work (vertices : List α) (next : α → List α) (tasks : List (Task α)) (seen left : List α) :
    List α :=
  match tasks with
  | [] => left
  | .leave a :: tasks => work vertices next tasks seen (a :: left)
  | .visit a :: tasks =>
    if a ∈ vertices ∧ a ∉ seen then
      work vertices next ((next a).reverse.map .visit ++ .leave a :: tasks) (a :: seen) left
    else
      work vertices next tasks seen left
termination_by ((unseen vertices seen).length, tasks.length)
decreasing_by
  · exact Prod.Lex.right _ (by simp)
  · next h => exact Prod.Lex.left _ _ (length_unseen_cons h.1 h.2)
  · exact Prod.Lex.right _ (by simp)

/-- All vertices, the last one left first. Successors outside `vertices` are passed over. -/
def order (vertices : List α) (next : α → List α) : List α :=
  work vertices next (vertices.map .visit) [] []

end SchemaQuery.DepthFirst
