import Mathlib.Logic.Relation
import Mathlib.Order.Lattice.Nat
import SchemaQuery.Graph.BreadthFirst
import SchemaQuery.Proofs.DepthFirst

namespace SchemaQuery.BreadthFirst

open DepthFirst Relation

def Walk {α : Type} (R : α → α → Prop) (start : α) : Nat → α → Prop
  | 0, a => a = start
  | n + 1, b => ∃ a, Walk R start n a ∧ R a b

/-- The number of steps of a shortest walk of at least one step. -/
noncomputable def distance {α : Type} (R : α → α → Prop) (start a : α) : Nat :=
  sInf {n | 0 < n ∧ Walk R start n a}

abbrev Edge {α : Type} (next : α → List α) (a b : α) : Prop :=
  b ∈ next a

/-- A finished run of the loop, by what is in the queue, what has been seen, and what is taken from
the queue for the first time. There is no bound on the number of turns. -/
inductive Run {α : Type} (next : α → List α) : List α → List α → List α → Prop
  | finish {seen : List α} : Run next [] seen []
  | skip {a : α} {queue seen taken : List α} (hseen : a ∈ seen)
      (hrest : Run next queue seen taken) : Run next (a :: queue) seen taken
  | take {a : α} {queue seen taken : List α} (hnew : a ∉ seen)
      (hrest : Run next (queue ++ next a) (a :: seen) taken) :
      Run next (a :: queue) seen (a :: taken)

variable {α : Type} {R : α → α → Prop} {next : α → List α} {start a : α}

theorem transGen_iff_exists_walk : TransGen R start a ↔ ∃ n, 0 < n ∧ Walk R start n a := by
  constructor
  · intro h
    induction h with
    | single hstep => exact ⟨1, Nat.one_pos, start, rfl, hstep⟩
    | @tail b c _ hstep ih =>
        obtain ⟨n, -, hwalk⟩ := ih
        exact ⟨n + 1, Nat.succ_pos n, b, hwalk, hstep⟩
  · rintro ⟨n, hpos, hwalk⟩
    induction n generalizing a with
    | zero => exact absurd hpos (Nat.lt_irrefl 0)
    | succ n ih =>
        obtain ⟨b, hwalk, hstep⟩ := hwalk
        cases n with
        | zero =>
            cases hwalk
            exact .single hstep
        | succ n => exact (ih (Nat.succ_pos n) hwalk).tail hstep

theorem le_distance {d : Nat} (hreached : TransGen R start a)
    (h : ∀ n, 0 < n → Walk R start n a → d ≤ n) : d ≤ distance R start a := by
  obtain ⟨n, hpos, hwalk⟩ := transGen_iff_exists_walk.mp hreached
  obtain ⟨hpos, hwalk⟩ := Nat.sInf_mem (s := {n | 0 < n ∧ Walk R start n a}) ⟨n, hpos, hwalk⟩
  exact h _ hpos hwalk

theorem distance_le {n : Nat} (hpos : 0 < n) (hwalk : Walk R start n a) :
    distance R start a ≤ n :=
  Nat.sInf_le ⟨hpos, hwalk⟩

/-- What holds whenever the loop goes on. The queue has the vertices of one distance, and behind
them some of those that are one step further. -/
structure Frontier (next : α → List α) (start : α) (d : Nat) (near far seen : List α) : Prop where
  pos : 0 < d
  walk_near : ∀ a ∈ near, Walk (Edge next) start d a
  walk_far : ∀ a ∈ far, Walk (Edge next) start (d + 1) a
  within : ∀ n a, 0 < n → n ≤ d → Walk (Edge next) start n a →
    a ∈ seen ∨ n = d ∧ a ∈ near
  closed : ∀ a ∈ seen, ∀ b ∈ next a, b ∈ seen ∨ b ∈ near ∨ b ∈ far

namespace Frontier

variable {d : Nat} {near far seen : List α}

theorem initial (next : α → List α) (start : α) : Frontier next start 1 (next start) [] [] where
  pos := Nat.one_pos
  walk_near a ha := ⟨start, rfl, ha⟩
  walk_far := List.forall_mem_nil _
  within n a hpos hle hwalk := by
    obtain rfl : n = 1 := Nat.le_antisymm hle hpos
    obtain ⟨_, rfl, ha⟩ := hwalk
    exact .inr ⟨rfl, ha⟩
  closed := List.forall_mem_nil _

theorem skip (h : Frontier next start d (a :: near) far seen) (hseen : a ∈ seen) :
    Frontier next start d near far seen where
  pos := h.pos
  walk_near b hb := h.walk_near b (List.mem_cons_of_mem a hb)
  walk_far := h.walk_far
  within n b hpos hle hwalk := by
    have := h.within n b hpos hle hwalk
    grind
  closed b hb c hc := by
    have := h.closed b hb c hc
    grind

theorem take (h : Frontier next start d (a :: near) far seen) :
    Frontier next start d near (far ++ next a) (a :: seen) where
  pos := h.pos
  walk_near b hb := h.walk_near b (List.mem_cons_of_mem a hb)
  walk_far b hb := by
    rcases List.mem_append.mp hb with hb | hb
    · exact h.walk_far b hb
    · exact ⟨a, h.walk_near a List.mem_cons_self, hb⟩
  within n b hpos hle hwalk := by
    have := h.within n b hpos hle hwalk
    grind
  closed b hb c hc := by
    rcases List.mem_cons.mp hb with rfl | hb
    · exact .inr (.inr (List.mem_append_right far hc))
    · have := h.closed b hb c hc
      grind

theorem advance (h : Frontier next start d [] far seen) :
    Frontier next start (d + 1) far [] seen where
  pos := Nat.succ_pos d
  walk_near := h.walk_far
  walk_far := List.forall_mem_nil _
  within n a hpos hle hwalk := by
    rcases Nat.lt_or_eq_of_le hle with hlt | rfl
    · have := h.within n a hpos (Nat.le_of_lt_succ hlt) hwalk
      grind
    · obtain ⟨b, hwalk, ha⟩ := hwalk
      have hb : b ∈ seen := by
        have := h.within d b h.pos (Nat.le_refl d) hwalk
        grind
      have := h.closed b hb a ha
      grind
  closed a ha b hb := by
    have := h.closed a ha b hb
    grind

theorem exists_front {queue : List α} (h : Frontier next start d near far seen)
    (hqueue : near ++ far = a :: queue) :
    ∃ e near' far', d ≤ e ∧ queue = near' ++ far' ∧
      Frontier next start e (a :: near') far' seen := by
  cases near with
  | nil =>
      rw [List.nil_append] at hqueue
      subst hqueue
      exact ⟨d + 1, queue, [], Nat.le_succ d, (List.append_nil queue).symm, h.advance⟩
  | cons b near =>
      rw [List.cons_append, List.cons.injEq] at hqueue
      obtain ⟨rfl, rfl⟩ := hqueue
      exact ⟨d, near, far, Nat.le_refl d, rfl, h⟩

theorem distance_front (h : Frontier next start d (a :: near) far seen) (hnew : a ∉ seen) :
    TransGen (Edge next) start a ∧ distance (Edge next) start a = d := by
  have hwalk := h.walk_near a List.mem_cons_self
  have hreached : TransGen (Edge next) start a :=
    transGen_iff_exists_walk.mpr ⟨d, h.pos, hwalk⟩
  refine ⟨hreached, Nat.le_antisymm (distance_le h.pos hwalk) (le_distance hreached ?_)⟩
  intro n hpos hwalk
  by_contra hlt
  have := h.within n a hpos (Nat.le_of_not_le hlt) hwalk
  grind

theorem mem_seen_of_finished (h : Frontier next start d [] [] seen) {b : α}
    (hb : TransGen (Edge next) start b) : b ∈ seen := by
  induction hb with
  | @single b hstep =>
      have := h.within 1 b Nat.one_pos h.pos ⟨start, rfl, hstep⟩
      grind
  | @tail b c _ hstep ih =>
      have := h.closed b ih c hstep
      grind

end Frontier

/-- What a run takes from the queue, in a state with nothing nearer than `d` left to take. -/
structure Takes (next : α → List α) (start : α) (d : Nat) (seen taken : List α) : Prop where
  reached : ∀ a ∈ taken, TransGen (Edge next) start a
  complete : ∀ a, TransGen (Edge next) start a → a ∈ seen ∨ a ∈ taken
  fresh : ∀ a ∈ taken, a ∉ seen
  nodup : taken.Nodup
  farther : ∀ a ∈ taken, d ≤ distance (Edge next) start a
  ordered : taken.Pairwise fun a b =>
    distance (Edge next) start a ≤ distance (Edge next) start b

theorem Run.takes {queue seen taken : List α} (h : Run next queue seen taken) {d : Nat}
    {near far : List α} (hqueue : near ++ far = queue)
    (hfrontier : Frontier next start d near far seen) : Takes next start d seen taken := by
  -- the queue comes to the next distance in the course of the run, so `d` is not fixed
  induction h generalizing d near far with
  | finish =>
      obtain ⟨rfl, rfl⟩ := List.append_eq_nil_iff.mp hqueue
      exact ⟨List.forall_mem_nil _, fun a ha => .inl (hfrontier.mem_seen_of_finished ha),
        List.forall_mem_nil _, .nil, List.forall_mem_nil _, .nil⟩
  | skip hseen _ ih =>
      obtain ⟨e, near', far', hle, rfl, hfront⟩ := hfrontier.exists_front hqueue
      have hrest := ih rfl (hfront.skip hseen)
      exact ⟨hrest.reached, hrest.complete, hrest.fresh, hrest.nodup,
        fun a ha => hle.trans (hrest.farther a ha), hrest.ordered⟩
  | @take a _ _ taken hnew _ ih =>
      obtain ⟨e, near', far', hle, rfl, hfront⟩ := hfrontier.exists_front hqueue
      have hrest := ih (List.append_assoc near' far' (next a)).symm hfront.take
      obtain ⟨hreached, hdistance⟩ := hfront.distance_front hnew
      refine ⟨List.forall_mem_cons.mpr ⟨hreached, hrest.reached⟩, ?_,
        List.forall_mem_cons.mpr ⟨hnew, ?_⟩,
        List.nodup_cons.mpr ⟨fun ha => hrest.fresh a ha List.mem_cons_self, hrest.nodup⟩,
        List.forall_mem_cons.mpr ⟨hle.trans_eq hdistance.symm, ?_⟩,
        List.pairwise_cons.mpr ⟨?_, hrest.ordered⟩⟩
      · intro b hb
        have := hrest.complete b hb
        grind
      · intro b hb hseen
        exact hrest.fresh b hb (List.mem_cons_of_mem a hseen)
      · intro b hb
        exact hle.trans (hrest.farther b hb)
      · intro b hb
        rw [hdistance]
        exact hrest.farther b hb

variable [DecidableEq α] {sources : List α}

theorem run_work (hsources : ∀ a, a ∉ sources → next a = []) (queue seen : List α) :
    Run next queue seen (work sources next queue seen) := by
  fun_induction work sources next queue seen with
  | case1 => exact .finish
  | case2 seen a queue hseen ih => exact .skip hseen ih
  | case3 seen a queue hnew hsource ih => exact .take hnew ih
  | case4 seen a queue hnew hsource ih =>
      refine .take hnew ?_
      rwa [hsources a hsource, List.append_nil]

/-- The loop ends, whatever cycles there are. -/
theorem run_reach (hsources : ∀ a, a ∉ sources → next a = []) (start : α) :
    Run next (next start) [] (reach sources next start) :=
  run_work hsources (next start) []

theorem takes_reach (hsources : ∀ a, a ∉ sources → next a = []) (start : α) :
    Takes next start 1 [] (reach sources next start) :=
  (run_reach hsources start).takes (List.append_nil _) (Frontier.initial next start)

theorem mem_reach_iff (hsources : ∀ a, a ∉ sources → next a = []) :
    a ∈ reach sources next start ↔ TransGen (Edge next) start a := by
  have htakes := takes_reach hsources start
  constructor
  · exact htakes.reached a
  · intro ha
    exact (htakes.complete a ha).resolve_left List.not_mem_nil

def workFor (sources : List α) (next : α → List α) : Nat → List α → List α → List α
  | 0, _, _ => []
  | _ + 1, [], _ => []
  | n + 1, a :: queue, seen =>
    if a ∈ seen then
      workFor sources next n queue seen
    else if a ∈ sources then
      a :: workFor sources next n (queue ++ next a) (a :: seen)
    else
      a :: workFor sources next n queue (a :: seen)

def workload (sources : List α) (next : α → List α) (queue seen : List α) : Nat :=
  queue.length + ((unseen sources seen).map fun a => (next a).length).sum

theorem work_eq_workFor {queue seen : List α} {n : Nat}
    (h : workload sources next queue seen ≤ n) :
    work sources next queue seen = workFor sources next n queue seen := by
  induction n generalizing queue seen with
  | zero =>
      obtain rfl : queue = [] := List.eq_nil_of_length_eq_zero (by unfold workload at h; omega)
      rw [work, workFor]
  | succ n ih =>
      cases queue with
      | nil => rw [work, workFor]
      | cons a queue =>
          rw [work, workFor]
          split
          next =>
            rw [ih]
            simp only [workload, List.length_cons] at h ⊢
            omega
          next hnew =>
          split
          next hmem =>
            have hless := sum_unseen_cons_add_le (fun a => (next a).length) hmem hnew
            rw [ih]
            simp only [workload, List.length_cons, List.length_append] at h ⊢
            omega
          next hmem =>
            rw [ih]
            simp only [workload, unseen_cons_of_notMem hmem, List.length_cons] at h ⊢
            omega

/-- The search takes a turn for each edge. -/
theorem reach_eq_workFor (sources : List α) (next : α → List α) (start : α) :
    reach sources next start =
      workFor sources next
        ((next start).length + (sources.map fun a => (next a).length).sum) (next start) [] := by
  refine work_eq_workFor ?_
  simp [workload, unseen_nil]

end SchemaQuery.BreadthFirst
