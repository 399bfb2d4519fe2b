import Mathlib.Data.List.Find
import Mathlib.Data.List.Induction
import Mathlib.Data.List.Nodup
import Mathlib.Order.Lattice.Nat
import SchemaQuery.Proofs.FastPath
import SchemaQuery.Proofs.FirstOccurrences
import SchemaQuery.Proofs.Outcomes
import SchemaQuery.Selector.Query

/-!
What a search reports: of all that the alternatives hand on from their candidates, the first shapes
up to the limit, each with what was bound when it was first handed on.
-/

namespace SchemaQuery

/-- The shapes that a search starts from, in id order. Ids that the model does not have lead
nowhere. -/
def Candidates.shapes (m : Model) : Candidates → List Shape
  | .model => m.shapes.entries
  | .scoped ids => m.shapes.entries.filter fun shape => shape.id ∈ ids

namespace Search

/-- All that the alternatives hand on in turn, each from every candidate with nothing bound. -/
def discovered (m : Model) (candidates : Candidates) (selector : Selector) : List Outcome :=
  selector.flatMap fun pipeline =>
    (candidates.shapes m).flatMap ((pipelineFlow m pipeline).handed ∅)

def within {α : Type} (limit : Option Nat) (l : List α) : List α :=
  match limit with
  | none => l
  | some n => l.take n

/-- Keeps the match of an outcome, unless its shape has been found before. -/
def addMatch (record : Bool) (found : Sorted Match.id) (o : Outcome) : Sorted Match.id :=
  if found.contains o.shape.id then found
  else found.insert ⟨o.shape, if record then o.bindings else ∅⟩

theorem size_addMatch_le (record : Bool) (found : Sorted Match.id) (o : Outcome) :
    (addMatch record found o).size ≤ found.size + 1 := by
  unfold addMatch
  split
  · exact Nat.le_succ _
  · exact Sorted.size_insert_le _ _

theorem keep_take (limit : Option Nat) (record : Bool) (o : Outcome) (found : Sorted Match.id) :
    (keep limit record).take o found =
      match limit with
      | none => .yield (addMatch record found o)
      | some n =>
        if n ≤ (addMatch record found o).size then .done (addMatch record found o)
        else .yield (addMatch record found o) :=
  rfl

theorem exists_feed_keep (limit : Option Nat) (record : Bool) (os : List Outcome)
    (found : Sorted Match.id) (hroom : ∀ n, limit = some n → found.size < n) :
    ∃ seen left, os = seen ++ left ∧
      (feed (keep limit record).take os found).value = seen.foldl (addMatch record) found ∧
      (∀ n, limit = some n → (seen.foldl (addMatch record) found).size ≤ n) ∧
      (left = [] ∨ limit = some (seen.foldl (addMatch record) found).size) := by
  induction os generalizing found with
  | nil => exact ⟨[], [], rfl, rfl, fun n hn => (hroom n hn).le, .inl rfl⟩
  | cons o os ih =>
      have hsize := size_addMatch_le record found o
      -- one outcome adds one match at most, so a limit that is reached is met exactly
      by_cases hfull : ∃ n, limit = some n ∧ n ≤ (addMatch record found o).size
      · obtain ⟨n, rfl, hn⟩ := hfull
        have heq : (addMatch record found o).size = n := by
          have hless := hroom n rfl
          omega
        refine ⟨[o], os, rfl, ?_, ?_, .inr ?_⟩
        · simp only [feed, keep_take, if_pos hn]
          rfl
        · rintro n' ⟨⟩
          exact heq.le
        · exact congrArg some heq.symm
      · have hroom' : ∀ n, limit = some n → (addMatch record found o).size < n := by
          intro n hn
          exact Nat.lt_of_not_le fun hle => hfull ⟨n, hn, hle⟩
        obtain ⟨seen, left, rfl, hvalue, hle, hleft⟩ := ih (addMatch record found o) hroom'
        refine ⟨o :: seen, left, rfl, ?_, hle, hleft⟩
        rw [List.foldl_cons, ← hvalue]
        cases limit with
        | none => rfl
        | some n => simp only [feed, keep_take, if_neg (Nat.not_le.mpr (hroom' n rfl))]

theorem find?_shape_concat (os : List Outcome) (o : Outcome) (id : ShapeId) :
    (os ++ [o]).find? (fun o => o.shape.id = id) =
      (os.find? fun o => o.shape.id = id).or (if o.shape.id = id then some o else none) := by
  rw [List.find?_append, List.find?_singleton]
  simp only [decide_eq_true_eq]

theorem mem_foldl_addMatch {record : Bool} {os : List Outcome} {r : Match} :
    r ∈ (os.foldl (addMatch record) ∅).entries ↔
      ∃ bindings, os.find? (fun o => o.shape.id = r.id) = some ⟨bindings, r.shape⟩ ∧
        r.bindings = if record then bindings else ∅ := by
  induction os using List.reverseRecOn generalizing r with
  | nil => simp [EmptyCollection.emptyCollection]
  | append_singleton os o ih =>
      have hcontains : (os.foldl (addMatch record) ∅).contains o.shape.id = true ↔
          ∃ first, os.find? (fun other => other.shape.id = o.shape.id) = some first := by
        rw [Sorted.contains_iff]
        constructor
        · rintro ⟨known, hknown, hid⟩
          obtain ⟨bindings, hfirst, -⟩ := ih.mp hknown
          exact ⟨_, hid ▸ hfirst⟩
        · rintro ⟨first, hfirst⟩
          have hid : first.shape.id = o.shape.id := by simpa using List.find?_some hfirst
          refine ⟨⟨first.shape, if record then first.bindings else ∅⟩, ih.mpr ?_, hid⟩
          refine ⟨first.bindings, ?_, rfl⟩
          rw [Match.id, hid]
          exact hfirst
      rw [List.foldl_append, List.foldl_cons, List.foldl_nil, find?_shape_concat, addMatch]
      -- the last outcome counts only if nothing before it was of the same shape
      by_cases hid : o.shape.id = r.id
      · rw [if_pos hid]
        rw [hid] at hcontains
        split
        · next hknown =>
          obtain ⟨first, hfirst⟩ := hcontains.mp (hid ▸ hknown)
          rw [ih, hfirst, Option.some_or]
        · next hnew =>
          have hnone : (os.find? fun other => other.shape.id = r.id) = none :=
            Option.eq_none_iff_forall_ne_some.mpr fun first hfirst =>
              hnew (hid ▸ hcontains.mpr ⟨first, hfirst⟩)
          rw [hnone, Option.none_or, Sorted.mem_insert]
          constructor
          · rintro (rfl | ⟨-, hne⟩)
            · exact ⟨o.bindings, rfl, rfl⟩
            · exact absurd hid.symm hne
          · rintro ⟨bindings, ho, hbindings⟩
            cases ho
            exact .inl (congrArg (Match.mk r.shape) hbindings)
      · rw [if_neg hid, Option.or_none, ← ih]
        split
        · rfl
        · rw [Sorted.mem_insert]
          constructor
          · rintro (rfl | ⟨hr, -⟩)
            · exact absurd rfl hid
            · exact hr
          · intro hr
            exact .inr ⟨hr, fun heq => hid heq.symm⟩

section Model

variable {m : Model} {record : Bool} {os : List Outcome}

theorem find?_id_eq_some_iff (hos : ∀ o ∈ os, o.shape ∈ m.shapes.entries) {bindings : Bindings}
    {r : Match} :
    os.find? (fun o => o.shape.id = r.id) = some ⟨bindings, r.shape⟩ ↔
      os.find? (fun o => o.shape = r.shape) = some ⟨bindings, r.shape⟩ := by
  by_cases hshape : r.shape ∈ m.shapes.entries
  · have hcongr : os.find? (fun o => o.shape.id = r.id) = os.find? (fun o => o.shape = r.shape) := by
      apply List.find?_congr
      intro o ho
      rw [decide_eq_decide]
      exact ⟨Sorted.eq_of_key_eq (hos o ho) hshape, congrArg Shape.id⟩
    rw [hcongr]
  · constructor
    · exact fun hfind => absurd (hos _ (List.mem_of_find?_eq_some hfind)) hshape
    · exact fun hfind => absurd (hos _ (List.mem_of_find?_eq_some hfind)) hshape

theorem exists_find?_shape_iff {shape : Shape} :
    (∃ bindings, os.find? (fun o => o.shape = shape) = some ⟨bindings, shape⟩) ↔
      shape ∈ os.map Outcome.shape := by
  rw [List.mem_map]
  constructor
  · rintro ⟨bindings, hfind⟩
    exact ⟨_, List.mem_of_find?_eq_some hfind, rfl⟩
  · rintro ⟨o, ho, rfl⟩
    cases hfind : os.find? fun other => other.shape = o.shape with
    | none => simpa using List.find?_eq_none.mp hfind o ho
    | some first =>
        have hfirst : first.shape = o.shape := by simpa using List.find?_some hfind
        exact ⟨first.bindings, hfirst ▸ rfl⟩

theorem perm_foldl_addMatch (hos : ∀ o ∈ os, o.shape ∈ m.shapes.entries) :
    ((os.foldl (addMatch record) ∅).entries.map Match.shape).Perm
      (os.map Outcome.shape).eraseDups := by
  have hids := (os.foldl (addMatch record) ∅).nodup_keys
  have hnodup : ((os.foldl (addMatch record) ∅).entries.map Match.shape).Nodup := by
    refine List.Nodup.of_map Shape.id ?_
    rwa [List.map_map]
  refine (List.perm_ext_iff_of_nodup hnodup (nodup_eraseDups _)).mpr fun shape => ?_
  rw [List.mem_eraseDups, ← exists_find?_shape_iff, List.mem_map]
  constructor
  · rintro ⟨r, hr, rfl⟩
    obtain ⟨bindings, hfind, -⟩ := mem_foldl_addMatch.mp hr
    exact ⟨bindings, (find?_id_eq_some_iff hos).mp hfind⟩
  · rintro ⟨bindings, hfind⟩
    let r : Match := ⟨shape, if record then bindings else ∅⟩
    have hid := (find?_id_eq_some_iff hos (r := r)).mpr hfind
    exact ⟨r, mem_foldl_addMatch.mpr ⟨bindings, hid, rfl⟩, rfl⟩

/-- The shapes that have been found when a search ends are the first ones up to the limit. -/
theorem within_eraseDups {limit : Option Nat} {seen left : List Outcome}
    (hseen : ∀ o ∈ seen, o.shape ∈ m.shapes.entries)
    (hle : ∀ n, limit = some n → (seen.foldl (addMatch record) ∅).size ≤ n)
    (hleft : left = [] ∨ limit = some (seen.foldl (addMatch record) ∅).size) :
    within limit ((seen ++ left).map Outcome.shape).eraseDups =
      (seen.map Outcome.shape).eraseDups := by
  have hsize : (seen.map Outcome.shape).eraseDups.length =
      (seen.foldl (addMatch record) ∅).size := by
    rw [← (perm_foldl_addMatch hseen).length_eq, List.length_map]
    rfl
  rcases hleft with rfl | rfl
  · rw [List.append_nil]
    cases limit with
    | none => rfl
    | some n => exact List.take_of_length_le (hsize.trans_le (hle n rfl))
  · rw [List.map_append, List.eraseDups_append, ← hsize]
    exact List.take_left

end Model

section Results

variable {m : Model} {record : Bool}

theorem starts_scan (candidates : Candidates) (pipeline : Pipeline) :
    starts m false candidates pipeline = candidates.shapes m := by
  cases candidates with
  | model => rfl
  | «scoped» ids =>
      rw [starts, Model.shapesAt_eq_filter (Sorted.ordered _), Candidates.shapes]
      simp only [SortedSet.mem_ofList]

theorem tryPipeline_eq_feed (hm : m.Sound) (optimize : Bool) (candidates : Candidates)
    (limit : Option Nat) (pipeline : Pipeline) (found : Sorted Match.id) :
    tryPipeline m optimize candidates limit pipeline found record =
      feed (keep limit record).take
        ((candidates.shapes m).flatMap ((pipelineFlow m pipeline).handed ∅)) found := by
  have hscan : tryPipeline m false candidates limit pipeline found record =
      feed (keep limit record).take
        ((candidates.shapes m).flatMap ((pipelineFlow m pipeline).handed ∅)) found := by
    rw [tryPipeline, starts_scan, feed_flatMap]
    refine feed_congr (fun start _ => ?_) found
    funext found
    rw [(pipeline.flow_delivers m).handed_eq]
    exact pipeline.flow_delivers m ∅ start _ found
  rw [← hscan]
  cases candidates with
  | «scoped» ids => rfl
  | model =>
      cases optimize with
      | false => rfl
      | true => exact congrFun (tryPipeline_optimize_eq hm limit pipeline record) found

theorem run_eq_feed (hm : m.Sound) (optimize : Bool) {limit : Option Nat} (hlimit : limit ≠ some 0)
    (selector : Selector) (candidates : Candidates) :
    run m ⟨optimize, limit⟩ selector candidates record =
      (feed (keep limit record).take (discovered m candidates selector) ∅).value.entries := by
  rw [run, if_neg hlimit, discovered, feed_flatMap]
  simp only [tryPipeline_eq_feed hm]

theorem mem_discovered {candidates : Candidates} {selector : Selector} {o : Outcome} :
    o ∈ discovered m candidates selector ↔
      ∃ pipeline ∈ selector, ∃ start ∈ candidates.shapes m,
        o ∈ pipelineOutcomes m ∅ start pipeline := by
  simp only [discovered, List.mem_flatMap, (Pipeline.flow_delivers _ m).handed_eq]

theorem mem_entries_of_mem_shapes {candidates : Candidates} {shape : Shape}
    (h : shape ∈ candidates.shapes m) : shape ∈ m.shapes.entries := by
  cases candidates with
  | model => exact h
  | «scoped» ids => exact List.mem_of_mem_filter h

theorem mem_entries_of_mem_discovered {candidates : Candidates} {selector : Selector} :
    ∀ o ∈ discovered m candidates selector, o.shape ∈ m.shapes.entries := by
  intro o ho
  obtain ⟨pipeline, -, start, hstart, ho⟩ := mem_discovered.mp ho
  exact pipeline.staysIn m ∅ start (mem_entries_of_mem_shapes hstart) o ho

theorem mem_run_iff (hm : m.Sound) {optimize : Bool} {limit : Option Nat} {selector : Selector}
    {candidates : Candidates} {r : Match} :
    r ∈ run m ⟨optimize, limit⟩ selector candidates record ↔
      r.shape ∈ within limit ((discovered m candidates selector).map Outcome.shape).eraseDups ∧
        ∃ bindings,
          (discovered m candidates selector).find? (fun o => o.shape = r.shape) =
            some ⟨bindings, r.shape⟩ ∧
          r.bindings = if record then bindings else ∅ := by
  by_cases hlimit : limit = some 0
  · simp [run, hlimit, within]
  have hos : ∀ o ∈ discovered m candidates selector, o.shape ∈ m.shapes.entries :=
    mem_entries_of_mem_discovered
  have hroom : ∀ n, limit = some n → (∅ : Sorted Match.id).size < n := by
    rintro n rfl
    exact Nat.pos_of_ne_zero fun hn => hlimit (congrArg some hn)
  rw [run_eq_feed hm optimize hlimit]
  generalize discovered m candidates selector = os at hos
  obtain ⟨seen, left, rfl, hvalue, hle, hleft⟩ := exists_feed_keep limit record os ∅ hroom
  have hseen : ∀ o ∈ seen, o.shape ∈ m.shapes.entries :=
    fun o ho => hos o (List.mem_append_left left ho)
  have hwithin := within_eraseDups hseen hle hleft
  rw [hvalue, hwithin, List.mem_eraseDups, mem_foldl_addMatch]
  simp only [find?_id_eq_some_iff hseen]
  constructor
  · rintro ⟨bindings, hfind, hbindings⟩
    refine ⟨exists_find?_shape_iff.mp ⟨bindings, hfind⟩, bindings, ?_, hbindings⟩
    rw [List.find?_append, hfind, Option.some_or]
  · rintro ⟨hshape, bindings, hfind, hbindings⟩
    obtain ⟨first, hfirst⟩ := exists_find?_shape_iff.mpr hshape
    rw [List.find?_append, hfirst, Option.some_or] at hfind
    exact ⟨bindings, hfirst.trans hfind, hbindings⟩

/-- The results of a search, given all that is discovered: in id order and each once, the first
shapes up to the limit, with what was bound when they came first. -/
structure ReportsFirst (found : List Outcome) (limit : Option Nat) (results : List Match) :
    Prop where
  ordered : results.Pairwise fun a b => compare a.id b.id = .lt
  shapes : (results.map Match.shape).Perm (within limit (found.map Outcome.shape).eraseDups)
  bindings : ∀ r ∈ results,
    found.find? (fun o => o.shape = r.shape) = some ⟨r.bindings, r.shape⟩

theorem within_sublist {α : Type} (limit : Option Nat) (l : List α) :
    (within limit l).Sublist l := by
  cases limit with
  | none => exact .refl l
  | some n => exact List.take_sublist n l

theorem ordered_run (config : SelectorConfig) (selector : Selector) (candidates : Candidates) :
    (run m config selector candidates record).Pairwise (Sorted.Precedes Match.id) := by
  unfold run
  split
  · exact .nil
  · exact Sorted.ordered _

theorem mem_map_shape_run_iff (hm : m.Sound) {optimize : Bool} {limit : Option Nat}
    {selector : Selector} {candidates : Candidates} {shape : Shape} :
    shape ∈ (run m ⟨optimize, limit⟩ selector candidates record).map Match.shape ↔
      shape ∈ within limit ((discovered m candidates selector).map Outcome.shape).eraseDups := by
  rw [List.mem_map]
  constructor
  · rintro ⟨r, hr, rfl⟩
    exact ((mem_run_iff hm).mp hr).1
  · intro hshape
    have hmem := List.mem_eraseDups.mp ((within_sublist limit _).mem hshape)
    obtain ⟨bindings, hfind⟩ := exists_find?_shape_iff.mpr hmem
    let r : Match := ⟨shape, if record then bindings else ∅⟩
    exact ⟨r, (mem_run_iff hm).mpr ⟨hshape, bindings, hfind, rfl⟩, rfl⟩

theorem nodup_map_shape {results : List Match}
    (h : results.Pairwise (Sorted.Precedes Match.id)) : (results.map Match.shape).Nodup := by
  refine List.nodup_iff_pairwise_ne.mpr (List.pairwise_map.mpr (h.imp ?_))
  intro a b hlt heq
  exact Sorted.key_ne_of_precedes hlt (congrArg Shape.id heq)

theorem reportsFirst_run (hm : m.Sound) (optimize : Bool) (limit : Option Nat)
    (selector : Selector) (candidates : Candidates) :
    ReportsFirst (discovered m candidates selector) limit
      (run m ⟨optimize, limit⟩ selector candidates true) where
  ordered := ordered_run _ selector candidates
  shapes := by
    have hnodup := (within_sublist limit _).nodup
      (nodup_eraseDups ((discovered m candidates selector).map Outcome.shape))
    refine (List.perm_ext_iff_of_nodup (nodup_map_shape (ordered_run _ _ _)) hnodup).mpr ?_
    exact fun shape => mem_map_shape_run_iff hm
  bindings := by
    intro r hr
    obtain ⟨-, bindings, hfind, hbindings⟩ := (mem_run_iff hm).mp hr
    rw [hbindings]
    exact hfind

theorem run_false_eq (hm : m.Sound) (optimize : Bool) (limit : Option Nat) (selector : Selector)
    (candidates : Candidates) :
    run m ⟨optimize, limit⟩ selector candidates false =
      (run m ⟨optimize, limit⟩ selector candidates true).map fun r => ⟨r.shape, ∅⟩ := by
  have hordered : ((run m ⟨optimize, limit⟩ selector candidates true).map
      fun r => (⟨r.shape, ∅⟩ : Match)).Pairwise (Sorted.Precedes Match.id) :=
    List.pairwise_map.mpr (ordered_run _ selector candidates)
  refine Sorted.eq_of_mem_iff_of_pairwise (ordered_run _ selector candidates) hordered ?_
  intro r
  rw [mem_run_iff hm, List.mem_map]
  constructor
  · rintro ⟨hshape, bindings, hfind, hbindings⟩
    refine ⟨⟨r.shape, bindings⟩, (mem_run_iff hm).mpr ⟨hshape, bindings, hfind, rfl⟩, ?_⟩
    exact congrArg (Match.mk r.shape) hbindings.symm
  · rintro ⟨recorded, hrecorded, rfl⟩
    obtain ⟨hshape, bindings, hfind, -⟩ := (mem_run_iff hm).mp hrecorded
    exact ⟨hshape, bindings, hfind, rfl⟩

end Results

end Search

/-- A search reports the first shapes that it discovers, as many as asked for. So a limit cuts the
number of results down to itself, a larger one keeps the results of a smaller one with what is
bound, and all results are shapes of the model. Whether what is bound is recorded makes no
difference to the shapes. -/
theorem search_reports_first {config : ModelConfig} {declarations : List Declaration} {m : Model}
    (hbuild : Model.build config declarations = .ok m)
    (hids : ∀ d ∈ declarations, d.id.WellFormed) (selector : Selector) (candidates : Candidates)
    (optimize : Bool) :
    (∀ limit, Search.ReportsFirst (Search.discovered m candidates selector) limit
      (Search.run m ⟨optimize, limit⟩ selector candidates true)) ∧
    (∀ limit, Search.run m ⟨optimize, limit⟩ selector candidates false =
      (Search.run m ⟨optimize, limit⟩ selector candidates true).map fun r => ⟨r.shape, ∅⟩) ∧
    (∀ n, (Search.run m ⟨optimize, some n⟩ selector candidates true).length =
      min n (Search.run m ⟨optimize, none⟩ selector candidates true).length) ∧
    (∀ n larger, n ≤ larger → Search.run m ⟨optimize, some n⟩ selector candidates true ⊆
      Search.run m ⟨optimize, some larger⟩ selector candidates true) ∧
    (∀ n, Search.run m ⟨optimize, some n⟩ selector candidates true ⊆
      Search.run m ⟨optimize, none⟩ selector candidates true) ∧
    (∀ limit, ∀ r ∈ Search.run m ⟨optimize, limit⟩ selector candidates true,
      m.find? r.id = some r.shape) ∧
    ∀ text limit, Query.selectWith ⟨text, selector⟩ m ⟨optimize, limit⟩ =
      (Query.matchesWith ⟨text, selector⟩ m ⟨optimize, limit⟩).map Match.shape := by
  have hm := Model.sound_of_build hbuild hids
  have hreports := fun limit => Search.reportsFirst_run hm optimize limit selector candidates
  refine ⟨hreports, ?_, ?_, ?_, ?_, ?_, ?_⟩
  · exact fun limit => Search.run_false_eq hm optimize limit selector candidates
  · intro n
    have hfew := (hreports (some n)).shapes.length_eq
    have hall := (hreports none).shapes.length_eq
    rw [List.length_map] at hfew hall
    rw [hfew, hall]
    exact List.length_take
  · intro n larger hle r hr
    obtain ⟨hshape, hbound⟩ := (Search.mem_run_iff hm).mp hr
    exact (Search.mem_run_iff hm).mpr ⟨List.take_subset_take_left _ hle hshape, hbound⟩
  · intro n r hr
    obtain ⟨hshape, hbound⟩ := (Search.mem_run_iff hm).mp hr
    exact (Search.mem_run_iff hm).mpr ⟨List.mem_of_mem_take hshape, hbound⟩
  · intro limit r hr
    obtain ⟨-, bindings, hfind, -⟩ := (Search.mem_run_iff hm).mp hr
    have hmem := Search.mem_entries_of_mem_discovered _ (List.mem_of_find?_eq_some hfind)
    exact Model.find?_eq_some_iff.mpr ⟨hmem, rfl⟩
  · intro text limit
    change (Search.run m ⟨optimize, limit⟩ selector .model false).map Match.shape = _
    rw [Search.run_false_eq hm, List.map_map]
    rfl

def Selector.membersThenIds : Selector :=
  [[.type (.exact (.aggregate .structure)), .neighbor ⟨.forward, none⟩, .bind "x"],
    [.attribute ⟨.id, some ⟨.equal, ["a#T", "a#S"], false⟩⟩]]

theorem search_reports_first_oneMember :
    ∃ m, Model.build ⟨.error, false, false⟩ oneMember = .ok m ∧
      (∀ d ∈ oneMember, d.id.WellFormed) ∧
      Search.ReportsFirst (Search.discovered m .model .membersThenIds) (some 2)
        (Search.run m ⟨true, some 2⟩ .membersThenIds .model true) ∧
      (Search.run m ⟨true, some 2⟩ .membersThenIds .model true).length =
        min 2 (Search.run m ⟨true, none⟩ .membersThenIds .model true).length ∧
      (Search.run m ⟨true, some 2⟩ .membersThenIds .model true).map (·.id.text) =
        ["a#S", "a#S$m"] := by
  have hfound : (Model.build ⟨.error, false, false⟩ oneMember).map (fun m =>
      (Search.run m ⟨true, some 2⟩ .membersThenIds .model true).map (·.id.text)) =
        .ok ["a#S", "a#S$m"] := by
    simp only [Model.build, Declarations.resolveAll, Declarations.resolutionOrder,
      DepthFirst.order_eq_workFor]
    decide +kernel
  obtain ⟨m, hbuild, hfound⟩ := map_eq_ok_iff.mp hfound
  have hids : ∀ d ∈ oneMember, d.id.WellFormed := by decide
  obtain ⟨hreports, -, hlength, -⟩ :=
    search_reports_first hbuild hids .membersThenIds .model true
  exact ⟨m, hbuild, hids, hreports (some 2), hlength 2, hfound⟩

end SchemaQuery
