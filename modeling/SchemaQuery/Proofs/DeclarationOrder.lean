import SchemaQuery.Proofs.BuiltModel
import SchemaQuery.Proofs.DepthFirst

namespace SchemaQuery.Model

variable {declarations other : List Declaration} {config : ModelConfig}

theorem withPrelude_perm (h : declarations.Perm other) :
    (withPrelude config declarations).Perm (withPrelude config other) := by
  unfold withPrelude
  split
  · exact h.append_right _
  · exact h

theorem build_eq_ok_of_perm (h : declarations.Perm other) {m : Model}
    (hbuild : build config declarations = .ok m) : build config other = .ok m := by
  obtain ⟨declared, shapes, hcollect, hrest⟩ := build_eq_ok_iff.mp hbuild
  apply build_eq_ok_iff.mpr
  exact ⟨declared, shapes, collect_perm (withPrelude_perm h) hcollect, hrest⟩

theorem collect_withPrelude_eq (h : declarations.Perm other)
    (hcollectable : Collectable declarations) :
    collect ∅ (withPrelude config declarations) = collect ∅ (withPrelude config other) := by
  have hnew : ∀ d ∈ declarations, (∅ : Declarations).contains d.id = false := fun _ _ => rfl
  obtain ⟨declared, hdeclared⟩ := exists_collect_iff.mpr ⟨hcollectable, hnew⟩
  have hother := collect_perm h hdeclared
  unfold withPrelude
  split
  · rw [collect_append, collect_append, hdeclared, hother]
  · rw [hdeclared, hother]

/-- In any order, declarations are built to the same model or to none. If nothing is wrong with the
declarations for themselves, the reason why they are not built is the same too. -/
theorem build_perm (h : declarations.Perm other) (config : ModelConfig) :
    (∀ m, build config declarations = .ok m ↔ build config other = .ok m) ∧
    (Collectable declarations → build config declarations = build config other) := by
  constructor
  · intro m
    exact ⟨build_eq_ok_of_perm h, build_eq_ok_of_perm h.symm⟩
  · intro hcollectable
    unfold build
    rw [collect_withPrelude_eq h hcollectable]

def mixinLast : List Declaration :=
  [(Declaration.structure ⟨"a", "S", none⟩).add (.mixin ⟨"a", "M", none⟩),
    ((Declaration.structure ⟨"a", "M", none⟩).annotate .mixinMarker).withMember "x"
      ⟨"a", "T", none⟩]

def strays : List Declaration :=
  [(Declaration.structure ⟨"a", "S", none⟩).add (.mixin ⟨"a", "Gone", none⟩),
    (Declaration.structure ⟨"a", "R", none⟩).add (.mixin ⟨"a", "Lost", none⟩)]

/-- The mixin may come last. Of two faults the one of the shape that is first in id order is
reported, although it is declared last. -/
theorem build_perm_mixinLast_strays :
    mixinLast.Perm mixinLast.reverse ∧ strays.Perm strays.reverse ∧ Collectable strays ∧
      (∃ m, build ⟨.error, false, false⟩ mixinLast = .ok m ∧
        build ⟨.error, false, false⟩ mixinLast.reverse = .ok m) ∧
      build ⟨.error, false, false⟩ strays =
        .error (.unknownMixin ⟨"a", "R", none⟩ ⟨"a", "Lost", none⟩) ∧
      build ⟨.error, false, false⟩ strays.reverse =
        .error (.unknownMixin ⟨"a", "R", none⟩ ⟨"a", "Lost", none⟩) := by
  have hperm : strays.Perm strays.reverse := strays.reverse_perm.symm
  have hadmissible : ∀ d ∈ strays, d.misuse = [] ∧ d.id.member = none := by decide
  have hcollectable : Collectable strays :=
    ⟨fun d hd => ⟨(hadmissible d hd).1, (hadmissible d hd).2⟩, by decide⟩
  have hbuilds : (build ⟨.error, false, false⟩ mixinLast).isOk = true := by
    simp only [build, Declarations.resolveAll, Declarations.resolutionOrder,
      DepthFirst.order_eq_workFor]
    decide +kernel
  have hfails : build ⟨.error, false, false⟩ strays =
      .error (.unknownMixin ⟨"a", "R", none⟩ ⟨"a", "Lost", none⟩) := rfl
  obtain ⟨m, hbuild⟩ := exists_eq_ok_of_isOk hbuilds
  have hsame := (build_perm mixinLast.reverse_perm.symm ⟨.error, false, false⟩).1 m
  refine ⟨mixinLast.reverse_perm.symm, hperm, hcollectable, ⟨m, hbuild, hsame.mp hbuild⟩,
    hfails, ?_⟩
  rw [← (build_perm hperm ⟨.error, false, false⟩).2 hcollectable, hfails]

end SchemaQuery.Model
