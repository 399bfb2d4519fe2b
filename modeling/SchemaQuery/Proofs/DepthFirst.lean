import Mathlib.Algebra.GroupWithZero.Nat
import Mathlib.Data.List.Basic
import Mathlib.Logic.Relation
import SchemaQuery.Graph.DepthFirst

namespace SchemaQuery.DepthFirst

open Relation

variable {α : Type} {vertices : List α} {next : α → List α}

abbrev Reaches (next : α → List α) : α → α → Prop := ReflTransGen fun a b => b ∈ next a

def Task.vertex : Task α → α
  | .visit a => a
  | .leave a => a

def openVertices : List (Task α) → List α
  | [] => []
  | .visit _ :: tasks => openVertices tasks
  | .leave a :: tasks => a :: openVertices tasks

theorem openVertices_append (above below : List (Task α)) :
    openVertices (above ++ below) = openVertices above ++ openVertices below := by
  induction above with
  | nil => rfl
  | cons task above ih =>
      cases task with
      | visit a => exact ih
      | leave a => exact congrArg (a :: ·) ih

theorem openVertices_map_visit (as : List α) : openVertices (as.map Task.visit) = [] := by
  induction as with
  | nil => rfl
  | cons a as ih => exact ih

theorem leave_mem_of_mem_openVertices {tasks : List (Task α)} {a : α}
    (h : a ∈ openVertices tasks) : .leave a ∈ tasks := by
  induction tasks with
  | nil => cases h
  | cons task tasks ih =>
      cases task with
      | visit b => exact List.mem_cons_of_mem _ (ih h)
      | leave b =>
          rcases List.mem_cons.mp h with rfl | h
          · exact List.mem_cons_self
          · exact List.mem_cons_of_mem _ (ih h)

/-- The successors of every open vertex are known, or will be visited before it is left. -/
def Covered (next : α → List α) (known : List α) : List (Task α) → Prop
  | [] => True
  | .visit a :: tasks => Covered next (a :: known) tasks
  | .leave a :: tasks => (∀ b ∈ next a, b ∈ known) ∧ Covered next known tasks

theorem Covered.mono {known more : List α} {tasks : List (Task α)}
    (h : Covered next known tasks) (hsub : ∀ a ∈ known, a ∈ more) : Covered next more tasks := by
  induction tasks generalizing known more with
  | nil => trivial
  | cons task tasks ih =>
      cases task with
      | visit a =>
          have hrest : Covered next (a :: known) tasks := h
          refine ih hrest ?_
          intro b hb
          rcases List.mem_cons.mp hb with rfl | hb
          · exact List.mem_cons_self
          · exact List.mem_cons_of_mem a (hsub b hb)
      | leave a => exact ⟨fun b hb => hsub b (h.1 b hb), ih h.2 hsub⟩

theorem covered_map_visit {known as : List α} {tasks : List (Task α)} :
    Covered next known (as.map Task.visit ++ tasks) ↔
      Covered next (as.reverse ++ known) tasks := by
  induction as generalizing known with
  | nil => rfl
  | cons a as ih =>
      rw [List.map_cons, List.cons_append, List.reverse_cons, List.append_assoc]
      exact ih

/-- What holds whenever the search goes on with `tasks`. -/
structure Searching (vertices : List α) (next : α → List α) (tasks : List (Task α))
    (seen left : List α) : Prop where
  nodup : (openVertices tasks ++ left).Nodup
  mem_seen_iff : ∀ a, a ∈ seen ↔ a ∈ openVertices tasks ++ left
  subset : ∀ a ∈ left, a ∈ vertices
  mem_vertices : ∀ task ∈ tasks, task.vertex ∈ vertices
  unvisited : ∀ a ∈ vertices, a ∈ seen ∨ .visit a ∈ tasks
  /-- Whatever is done before a vertex is left is reached from it. -/
  reached : tasks.Pairwise fun task later => ∀ a, later = .leave a → Reaches next a task.vertex
  covered : Covered next seen tasks
  closed : ∀ before a after, left = before ++ a :: after →
    ∀ b ∈ next a, b ∈ after ∨ Reaches next b a

namespace Searching

variable {tasks : List (Task α)} {seen left : List α} {a : α}

theorem start (vertices : List α) (next : α → List α) :
    Searching vertices next (vertices.map .visit) [] [] where
  nodup := by simp [openVertices_map_visit]
  mem_seen_iff := by simp [openVertices_map_visit]
  subset := List.forall_mem_nil _
  mem_vertices := by
    intro task htask
    obtain ⟨a, ha, rfl⟩ := List.mem_map.mp htask
    exact ha
  unvisited a ha := .inr (List.mem_map_of_mem ha)
  reached := by
    refine List.pairwise_map.mpr (List.pairwise_of_forall ?_)
    rintro b c a ⟨⟩
  covered := by
    rw [← List.append_nil (vertices.map Task.visit), covered_map_visit]
    trivial
  closed := by
    intro before a after h
    simp at h

theorem leave (h : Searching vertices next (.leave a :: tasks) seen left) :
    Searching vertices next tasks seen (a :: left) := by
  have hreached := List.pairwise_cons.mp h.reached
  have hperm : (openVertices tasks ++ a :: left).Perm
      (openVertices (.leave a :: tasks) ++ left) := List.perm_middle
  refine ⟨hperm.nodup_iff.mpr h.nodup, ?_, ?_, ?_, ?_, hreached.2, h.covered.2, ?_⟩
  · intro b
    rw [h.mem_seen_iff, hperm.mem_iff]
  · exact List.forall_mem_cons.mpr ⟨h.mem_vertices _ List.mem_cons_self, h.subset⟩
  · intro task htask
    exact h.mem_vertices task (List.mem_cons_of_mem _ htask)
  · intro b hb
    apply (h.unvisited b hb).imp_right
    intro hmem
    simpa using hmem
  · intro before c after heq b hb
    cases before with
    | cons d before =>
        rw [List.cons_append, List.cons.injEq] at heq
        exact h.closed before c after heq.2 b hb
    | nil =>
        rw [List.nil_append, List.cons.injEq] at heq
        obtain ⟨rfl, rfl⟩ := heq
        have hseen := h.covered.1 b hb
        rw [h.mem_seen_iff, List.mem_append] at hseen
        rcases hseen with hopen | hleft
        -- an open successor waits below on the stack, so it reaches whatever is left before it
        · right
          rcases List.mem_cons.mp hopen with rfl | hopen
          · exact .refl
          · exact hreached.1 _ (leave_mem_of_mem_openVertices hopen) b rfl
        · exact .inl hleft

theorem enter (hnext : ∀ b ∈ next a, b ∈ vertices)
    (h : Searching vertices next (.visit a :: tasks) seen left) (hnew : a ∉ seen) :
    Searching vertices next ((next a).reverse.map .visit ++ .leave a :: tasks) (a :: seen)
      left := by
  have ha : a ∈ vertices := h.mem_vertices _ List.mem_cons_self
  have hreached := List.pairwise_cons.mp h.reached
  have hopen : openVertices ((next a).reverse.map Task.visit ++ .leave a :: tasks) =
      a :: openVertices tasks := by
    rw [openVertices_append, openVertices_map_visit]
    rfl
  refine ⟨?_, ?_, h.subset, ?_, ?_, ?_, ?_, h.closed⟩
  · rw [hopen, List.cons_append, List.nodup_cons]
    exact ⟨fun hmem => hnew ((h.mem_seen_iff a).mpr hmem), h.nodup⟩
  · intro b
    rw [hopen, List.cons_append, List.mem_cons, List.mem_cons, h.mem_seen_iff]
    rfl
  · intro task htask
    rcases List.mem_append.mp htask with hvisit | hlater
    · obtain ⟨b, hb, rfl⟩ := List.mem_map.mp hvisit
      exact hnext b (List.mem_reverse.mp hb)
    · rcases List.mem_cons.mp hlater with rfl | hlater
      · exact ha
      · exact h.mem_vertices task (List.mem_cons_of_mem _ hlater)
  · intro b hb
    rcases h.unvisited b hb with hseen | hvisit
    · exact .inl (List.mem_cons_of_mem a hseen)
    · rcases List.mem_cons.mp hvisit with heq | hlater
      · cases heq
        exact .inl List.mem_cons_self
      · exact .inr (List.mem_append_right _ (List.mem_cons_of_mem _ hlater))
  · refine List.pairwise_append.mpr ⟨?_, List.pairwise_cons.mpr ⟨hreached.1, hreached.2⟩, ?_⟩
    · refine List.pairwise_map.mpr (List.pairwise_of_forall ?_)
      rintro b c d ⟨⟩
    · intro task htask later hlater c hc
      obtain ⟨b, hb, rfl⟩ := List.mem_map.mp htask
      have hedge : b ∈ next a := List.mem_reverse.mp hb
      -- below the successors wait `a` itself, which leads to them, and what led to `a`
      rcases List.mem_cons.mp hlater with rfl | hlater
      · cases hc
        exact .single hedge
      · exact (hreached.1 later hlater c hc).tail hedge
  · rw [covered_map_visit, List.reverse_reverse]
    have hcovered : Covered next (a :: seen) tasks := h.covered
    constructor
    · intro b hb
      exact List.mem_append_left _ hb
    · apply hcovered.mono
      intro b hb
      exact List.mem_append_right _ hb

theorem skip (h : Searching vertices next (.visit a :: tasks) seen left) (hseen : a ∈ seen) :
    Searching vertices next tasks seen left := by
  refine ⟨h.nodup, h.mem_seen_iff, h.subset, ?_, ?_, (List.pairwise_cons.mp h.reached).2, ?_,
    h.closed⟩
  · intro task htask
    exact h.mem_vertices task (List.mem_cons_of_mem _ htask)
  · intro b hb
    rcases h.unvisited b hb with hmem | hvisit
    · exact .inl hmem
    · rcases List.mem_cons.mp hvisit with heq | hlater
      · cases heq
        exact .inl hseen
      · exact .inr hlater
  · have hcovered : Covered next (a :: seen) tasks := h.covered
    apply hcovered.mono
    intro b hb
    rcases List.mem_cons.mp hb with rfl | hb
    · exact hseen
    · exact hb

end Searching

variable [DecidableEq α]

theorem searching_work (hnext : ∀ a ∈ vertices, ∀ b ∈ next a, b ∈ vertices)
    {tasks : List (Task α)} {seen left : List α} (h : Searching vertices next tasks seen left) :
    ∃ final, Searching vertices next [] final (work vertices next tasks seen left) := by
  fun_induction work vertices next tasks seen left with
  | case1 seen left => exact ⟨seen, h⟩
  | case2 seen left a tasks ih => exact ih h.leave
  | case3 seen left a tasks hnew ih => exact ih (h.enter (hnext a hnew.1) hnew.2)
  | case4 seen left a tasks hold ih =>
      have ha : a ∈ vertices := h.mem_vertices _ List.mem_cons_self
      apply ih
      apply h.skip
      by_contra hnew
      exact hold ⟨ha, hnew⟩

theorem order_perm (hvertices : vertices.Nodup)
    (hnext : ∀ a ∈ vertices, ∀ b ∈ next a, b ∈ vertices) :
    (order vertices next).Perm vertices := by
  obtain ⟨final, h⟩ := searching_work hnext (Searching.start vertices next)
  apply (List.perm_ext_iff_of_nodup h.nodup hvertices).mpr
  intro a
  constructor
  · exact h.subset a
  · intro ha
    have hseen := (h.unvisited a ha).resolve_right List.not_mem_nil
    exact (h.mem_seen_iff a).mp hseen

/-- The order has the end of an edge after its start, unless the edge closes a cycle. -/
theorem mem_after_or_reaches (hnext : ∀ a ∈ vertices, ∀ b ∈ next a, b ∈ vertices) {a b : α}
    {before after : List α} (horder : order vertices next = before ++ a :: after)
    (hedge : b ∈ next a) : b ∈ after ∨ Reaches next b a := by
  obtain ⟨final, h⟩ := searching_work hnext (Searching.start vertices next)
  exact h.closed before a after horder b hedge

theorem unseen_nil (vertices : List α) : unseen vertices [] = vertices :=
  List.filter_eq_self.mpr fun _ _ => by simp

theorem sum_filter_ne (cost : α → Nat) (l : List α) (a : α) :
    ((l.filter fun b => b ≠ a).map cost).sum + l.count a * cost a = (l.map cost).sum := by
  induction l with
  | nil => simp
  | cons b l ih =>
      by_cases h : b = a
      · subst h
        simp [Nat.add_mul] at ih ⊢
        omega
      · simp [h] at ih ⊢
        omega

theorem sum_unseen_cons_add_le (cost : α → Nat) {seen : List α} {a : α} (hmem : a ∈ vertices)
    (hnew : a ∉ seen) :
    ((unseen vertices (a :: seen)).map cost).sum + cost a ≤
      ((unseen vertices seen).map cost).sum := by
  have hcount : 0 < (unseen vertices seen).count a :=
    List.count_pos_iff.mpr (List.mem_filter.mpr ⟨hmem, decide_eq_true hnew⟩)
  rw [unseen_cons, ← sum_filter_ne cost (unseen vertices seen) a]
  exact Nat.add_le_add_left (Nat.le_mul_of_pos_left _ hcount) _

/-- The search, given up after `n` tasks. -/
def workFor (vertices : List α) (next : α → List α) :
    Nat → List (Task α) → List α → List α → List α
  | 0, _, _, left => left
  | _ + 1, [], _, left => left
  | n + 1, .leave a :: tasks, seen, left => workFor vertices next n tasks seen (a :: left)
  | n + 1, .visit a :: tasks, seen, left =>
    if a ∈ vertices ∧ a ∉ seen then
      workFor vertices next n ((next a).reverse.map .visit ++ .leave a :: tasks) (a :: seen) left
    else
      workFor vertices next n tasks seen left

/-- The tasks at hand, and those that each unseen vertex adds when it is visited. -/
def workload (vertices : List α) (next : α → List α) (tasks : List (Task α)) (seen : List α) :
    Nat :=
  tasks.length + ((unseen vertices seen).map fun a => (next a).length + 1).sum

theorem work_eq_workFor {tasks : List (Task α)} {seen left : List α} {n : Nat}
    (h : workload vertices next tasks seen ≤ n) :
    work vertices next tasks seen left = workFor vertices next n tasks seen left := by
  induction n generalizing tasks seen left with
  | zero =>
      obtain rfl : tasks = [] := List.eq_nil_of_length_eq_zero (by unfold workload at h; omega)
      rw [work, workFor]
  | succ n ih =>
      cases tasks with
      | nil => rw [work, workFor]
      | cons task tasks =>
      cases task with
      | leave a =>
          rw [work, workFor, ih]
          simp only [workload, List.length_cons] at h ⊢
          omega
      | visit a =>
          rw [work, workFor]
          split
          next hvisit =>
            -- `a` is not unseen any more, and what it counted for are the tasks that it adds
            have hless :=
              sum_unseen_cons_add_le (fun a => (next a).length + 1) hvisit.1 hvisit.2
            rw [ih]
            simp only [workload, List.length_cons, List.length_append, List.length_map,
              List.length_reverse] at h ⊢
            omega
          next =>
            rw [ih]
            simp only [workload, List.length_cons] at h ⊢
            omega

/-- The search takes a task for each edge and at most two for each vertex. -/
theorem order_eq_workFor (vertices : List α) (next : α → List α) :
    order vertices next =
      workFor vertices next
        (vertices.length + (vertices.map fun a => (next a).length + 1).sum)
        (vertices.map .visit) [] [] := by
  refine work_eq_workFor ?_
  simp [workload, unseen_nil]

end SchemaQuery.DepthFirst
