import SchemaQuery.Model.Build
import SchemaQuery.Proofs.Sorted

namespace SchemaQuery

/-- A declaration without misuse whose id names no member. -/
structure Declaration.Admissible (d : Declaration) : Prop where
  misuse : d.misuse = []
  topLevel : d.id.member = none

structure Collectable (declarations : List Declaration) : Prop where
  admissible : ∀ d ∈ declarations, d.Admissible
  distinct : (declarations.map Declaration.id).Nodup

theorem Collectable.perm {declarations other : List Declaration} (h : Collectable declarations)
    (hperm : declarations.Perm other) : Collectable other where
  admissible d hd := h.admissible d (hperm.mem_iff.mpr hd)
  distinct := (hperm.map Declaration.id).nodup_iff.mp h.distinct

theorem collectable_cons {d : Declaration} {rest : List Declaration} :
    Collectable (d :: rest) ↔
      d.Admissible ∧ Collectable rest ∧ ∀ later ∈ rest, later.id ≠ d.id := by
  constructor
  · intro h
    obtain ⟨hd, hrest⟩ := List.forall_mem_cons.mp h.admissible
    obtain ⟨hnew, hdistinct⟩ := List.nodup_cons.mp h.distinct
    refine ⟨hd, ⟨hrest, hdistinct⟩, ?_⟩
    intro later hlater hid
    exact hnew (hid ▸ List.mem_map_of_mem hlater)
  · rintro ⟨hd, hrest, hnew⟩
    refine ⟨List.forall_mem_cons.mpr ⟨hd, hrest.admissible⟩, List.nodup_cons.mpr ⟨?_, ?_⟩⟩
    · intro hmem
      obtain ⟨later, hlater, hid⟩ := List.mem_map.mp hmem
      exact hnew later hlater hid
    · exact hrest.distinct

namespace Model

variable {declared collected : Declarations} {d : Declaration} {rest new : List Declaration}

theorem collect_cons_eq_ok_iff :
    collect declared (d :: rest) = .ok collected ↔
      d.Admissible ∧ declared.contains d.id = false ∧
        collect (declared.insert d) rest = .ok collected := by
  constructor
  · intro h
    unfold collect at h
    split at h
    · simp at h
    next hmisuse =>
    split at h
    · simp at h
    next hmember =>
    split at h
    · simp at h
    next hnew =>
    exact ⟨⟨hmisuse, by simpa [ShapeId.hasMember] using hmember⟩, by simpa using hnew, h⟩
  · rintro ⟨hd, hnew, hrest⟩
    simp [collect, hd.misuse, ShapeId.hasMember, hd.topLevel, hnew, hrest]

theorem collect_cons_eq_error {e : ModelError} (h : collect declared (d :: rest) = .error e) :
    (∃ misuse, d.misuse.head? = some misuse ∧ e = .invalidDefinition d.id (.misuse misuse)) ∨
      e = .invalidDefinition d.id .memberId ∨ e = .duplicateShape d.id ∨
      d.Admissible ∧ declared.contains d.id = false ∧
        collect (declared.insert d) rest = .error e := by
  unfold collect at h
  split at h
  next misuse others hmisuse =>
    cases h
    exact .inl ⟨misuse, by rw [hmisuse]; rfl, rfl⟩
  next hmisuse =>
  split at h
  · cases h
    exact .inr (.inl rfl)
  next hmember =>
  split at h
  · cases h
    exact .inr (.inr (.inl rfl))
  next hnew =>
  have hd : d.Admissible := ⟨hmisuse, by simpa [ShapeId.hasMember] using hmember⟩
  exact .inr (.inr (.inr ⟨hd, by simpa using hnew, h⟩))

theorem mem_collect_iff (h : collect declared new = .ok collected) :
    d ∈ collected.entries ↔ d ∈ new ∨ d ∈ declared.entries := by
  induction new generalizing declared with
  | nil =>
      obtain rfl : declared = collected := by simpa [collect] using h
      simp
  | cons first rest ih =>
      obtain ⟨-, hnew, hrest⟩ := collect_cons_eq_ok_iff.mp h
      have hkeeps : d ∈ declared.entries → d.id ≠ first.id := by
        intro hd hid
        rw [Sorted.contains_iff.mpr ⟨d, hd, hid⟩] at hnew
        contradiction
      rw [ih hrest, Sorted.mem_insert, List.mem_cons]
      tauto

/-- Declarations are collected exactly if they are collectable and none of their ids is taken. -/
theorem exists_collect_iff :
    (∃ collected, collect declared new = .ok collected) ↔
      Collectable new ∧ ∀ d ∈ new, declared.contains d.id = false := by
  induction new generalizing declared with
  | nil => simpa [collect] using (⟨by simp, by simp⟩ : Collectable [])
  | cons d rest ih =>
      simp only [collect_cons_eq_ok_iff, exists_and_left, ih, collectable_cons, List.forall_mem_cons,
        Sorted.contains_insert, Bool.or_eq_false_iff, decide_eq_false_iff_not]
      constructor
      · rintro ⟨hd, hnew, hrest, hlater⟩
        exact ⟨⟨hd, hrest, fun later hmem => Ne.symm (hlater later hmem).1⟩, hnew,
          fun later hmem => (hlater later hmem).2⟩
      · rintro ⟨⟨hd, hrest, hne⟩, hnew, hlater⟩
        exact ⟨hd, hnew, hrest, fun later hmem => ⟨Ne.symm (hne later hmem), hlater later hmem⟩⟩

theorem admissible_of_mem_collect (h : collect ∅ new = .ok collected)
    (hd : d ∈ collected.entries) : d.Admissible := by
  obtain ⟨hcollectable, -⟩ := exists_collect_iff.mp ⟨collected, h⟩
  exact hcollectable.admissible d (((mem_collect_iff h).mp hd).resolve_right List.not_mem_nil)

theorem forall_of_collect {P : Declaration → Prop} {config : ModelConfig}
    (hprelude : ∀ d ∈ Prelude.declarations, P d) (hnew : ∀ d ∈ new, P d)
    (h : collect ∅ (withPrelude config new) = .ok collected) : ∀ d ∈ collected.entries, P d := by
  intro d hd
  have hmem := ((mem_collect_iff h).mp hd).resolve_right List.not_mem_nil
  unfold withPrelude at hmem
  split at hmem
  · rcases List.mem_append.mp hmem with hmem | hmem
    · exact hnew d hmem
    · exact hprelude d hmem
  · exact hnew d hmem

theorem collect_append (declared : Declarations) (before after : List Declaration) :
    collect declared (before ++ after) =
      match collect declared before with
      | .error e => .error e
      | .ok declared => collect declared after := by
  induction before generalizing declared with
  | nil => rfl
  | cons d rest ih =>
      simp only [List.cons_append, collect, ih]
      split
      · rfl
      · split
        · rfl
        · split <;> rfl

theorem collect_perm {other : List Declaration} (hperm : new.Perm other)
    (h : collect declared new = .ok collected) : collect declared other = .ok collected := by
  obtain ⟨hcollectable, hnew⟩ := exists_collect_iff.mp ⟨collected, h⟩
  obtain ⟨found, hfound⟩ := exists_collect_iff.mpr
    ⟨hcollectable.perm hperm, fun d hd => hnew d (hperm.mem_iff.mpr hd)⟩
  have hsame : found = collected := by
    apply Sorted.ext
    apply Sorted.eq_of_mem_iff_of_pairwise found.ordered collected.ordered
    intro d
    rw [mem_collect_iff hfound, mem_collect_iff h, hperm.mem_iff]
  rw [hfound, hsame]

end Model

end SchemaQuery
