import SchemaQuery.Proofs.ByteSlices
import SchemaQuery.Proofs.TextPaths

namespace SchemaQuery

def Lexemes.Inside (cs : List Char) : Lexemes → Prop
  | .finish => True
  | .fault f => f.Inside cs
  | .next _ place rest => place <:+ cs ∧ rest.Inside cs

namespace Lexemes

theorem Inside.trans {rest cs : List Char} {lexemes : Lexemes} (h : lexemes.Inside rest)
    (hrest : rest <:+ cs) : lexemes.Inside cs := by
  induction lexemes with
  | finish => trivial
  | fault f => exact Fault.Inside.trans h hrest
  | next lexeme place others ih => exact ⟨h.1.trans hrest, ih h.2⟩

theorem inside_of (cs : List Char) : (Lexemes.of cs).Inside cs := by
  fun_induction Lexemes.of cs with
  | case1 => trivial
  | case2 cs c tail hskip fault hread =>
      have hplace : c :: tail <:+ cs := hskip ▸ Lexeme.suffix_skip cs
      exact ((Lexeme.inside_readAt c tail).fault hread).trans hplace
  | case3 cs c tail hskip lexeme rest hread ih =>
      have hplace : c :: tail <:+ cs := hskip ▸ Lexeme.suffix_skip cs
      exact ⟨hplace, ih.trans (((Lexeme.inside_readAt c tail).left hread).trans hplace)⟩

theorem consumes_of_next {cs place : List Char} {lexeme : Lexeme} {rest : Lexemes}
    (h : Lexemes.of cs = .next lexeme place rest) :
    ∃ left, rest = .of left ∧ Lexeme.Consumes cs left := by
  rw [Lexemes.of] at h
  split at h
  · cases h
  next c tail hskip =>
  split at h
  · cases h
  next found left hread =>
  cases h
  exact ⟨left, rfl, (Lexeme.consumes_of_readAt hread).of_suffix (hskip ▸ Lexeme.suffix_skip cs)⟩

end Lexemes

namespace Assembly

theorem inside_of_step {a : Assembly} {place : List Char} {lexeme : Lexeme} {fault : Fault}
    (h : a.step place lexeme = .error fault) : fault.Inside place := by
  cases lexeme with
  | stage | bind | openFunction | openCapture => cases h
  | get name =>
      rw [step] at h
      split at h
      · cases h
      · cases h
        trivial
  | comma =>
      rw [step] at h
      split at h
      · cases h
        exact List.suffix_refl _
      · cases h
  | close =>
      rw [step] at h
      split at h
      · cases h
        exact List.suffix_refl _
      split at h
      · cases h
        exact List.suffix_refl _
      split at h
      · cases h
        trivial
      · cases h

theorem inside_of_assemble {a : Assembly} {lexemes : Lexemes} {cs : List Char} {fault : Fault}
    (hlexemes : lexemes.Inside cs) (h : assemble a.level a.outer lexemes = .error fault) :
    fault.Inside cs := by
  induction lexemes generalizing a with
  | finish =>
      unfold assemble at h
      split at h
      · cases h
        exact List.nil_suffix
      split at h
      · cases h
      · cases h
        exact List.nil_suffix
  | fault f =>
      cases h
      exact hlexemes
  | next lexeme place rest ih =>
      rw [assemble_next] at h
      split at h
      next hstep =>
        cases h
        exact (inside_of_step hstep).trans hlexemes.1
      · exact ih hlexemes.2 h

/-- The parser takes a step for each lexeme, and a lexeme takes at least one byte. -/
theorem Reads.consumes {a b : Assembly} {lexemes left : Lexemes} {read : List Lexeme}
    (h : Reads a lexemes read b left) {cs : List Char} (hcs : lexemes = .of cs) :
    ∃ used rest, cs = used ++ rest ∧ left = .of rest ∧ read.length ≤ byteLength used := by
  induction h generalizing cs with
  | refl => exact ⟨[], cs, rfl, hcs, Nat.zero_le _⟩
  | step hstep _ ih =>
      obtain ⟨next, hnext, used, hused, rfl⟩ := Lexemes.consumes_of_next hcs.symm
      obtain ⟨others, rest, rfl, hleft, hlength⟩ := ih hnext
      refine ⟨used ++ others, rest, (List.append_assoc _ _ _).symm, hleft, ?_⟩
      -- the lexeme of this step pays for it with the bytes that it takes
      have hpos := byteLength_pos_of_ne_nil hused
      rw [byteLength_append, List.length_cons]
      omega

theorem Reads.eq_of_nil {a b : Assembly} {lexemes left : Lexemes}
    (h : Reads a lexemes [] b left) : b = a := by
  cases h
  rfl

theorem Reads.consumes_of_ne {a b : Assembly} {cs : List Char} {read : List Lexeme}
    {left : Lexemes} (h : Reads a (.of cs) read b left) (hne : b ≠ a) :
    ∃ rest, left = .of rest ∧ Lexeme.Consumes cs rest := by
  obtain ⟨used, rest, hcs, hleft, hlength⟩ := h.consumes rfl
  refine ⟨rest, hleft, used, ?_, hcs⟩
  rintro rfl
  obtain rfl : read = [] := List.eq_nil_of_length_eq_zero (Nat.le_zero.mp hlength)
  exact hne h.eq_of_nil

/-- The parser does not go on: the text is at its end, or at a fault, or its next lexeme is
refused. -/
def Halts (a : Assembly) : Lexemes → Prop
  | .finish => True
  | .fault _ => True
  | .next lexeme place _ => ∃ fault, a.step place lexeme = .error fault

theorem exists_reads_halts (a : Assembly) (lexemes : Lexemes) :
    ∃ read b left, Reads a lexemes read b left ∧ b.Halts left := by
  induction lexemes generalizing a with
  | finish => exact ⟨[], a, .finish, .refl, trivial⟩
  | fault f => exact ⟨[], a, .fault f, .refl, trivial⟩
  | next lexeme place rest ih =>
      cases hstep : a.step place lexeme with
      | error fault => exact ⟨[], a, .next lexeme place rest, .refl, fault, hstep⟩
      | ok b =>
          obtain ⟨read, c, left, hread, hhalts⟩ := ih b
          exact ⟨lexeme :: read, c, left, .step hstep hread, hhalts⟩

/-- The parser reads a stage, and comes back to the selector that the stage is in. -/
def ReadsStage (cs : List Char) (stage : Stage) (left : Lexemes) : Prop :=
  ∃ a b read, Reads a (.of cs) read b left ∧ b.outer = a.outer ∧
    b.level.stages = a.level.stages ++ [stage]

/-- The parser reads an argument, from its start to the comma or the closing parenthesis behind
it. -/
def ReadsArgument (cs : List Char) (argument : Pipeline) (left : Lexemes) : Prop :=
  ∃ a b read, Reads a (.of cs) read b left ∧ b.outer = a.outer ∧ a.level.stages = [] ∧
    b.level.stages = argument ∧
    ∃ place c, b.step place .comma = .ok c ∨ b.step place .close = .ok c

theorem ReadsStage.consumes {cs : List Char} {stage : Stage} {left : Lexemes}
    (h : ReadsStage cs stage left) : ∃ rest, left = .of rest ∧ Lexeme.Consumes cs rest := by
  obtain ⟨a, b, read, hread, -, hstages⟩ := h
  refine hread.consumes_of_ne ?_
  rintro rfl
  simp at hstages

theorem ReadsArgument.consumes {cs : List Char} {argument : Pipeline} {left : Lexemes}
    (h : ReadsArgument cs argument left) : ∃ rest, left = .of rest ∧ Lexeme.Consumes cs rest := by
  obtain ⟨a, b, read, hread, -, hstart, -, place, c, hend⟩ := h
  refine hread.consumes_of_ne ?_
  rintro rfl
  rcases hend with hcomma | hclose
  · exact (step_comma_eq_ok_iff.mp hcomma).1 hstart
  · exact (step_close_eq_ok_iff.mp hclose).1 hstart

end Assembly

namespace Selector

open Assembly

theorem position_of_parse {text expression : String} {position : Nat} {flaw : SyntaxFlaw}
    (h : parse text = .error (.malformed position flaw expression)) :
    expression = text ∧
      ∃ before after, text = before ++ after ∧ position = before.utf8ByteSize := by
  unfold parse at h
  split at h
  next fault hfault =>
    have hinside : fault.Inside text.toList :=
      inside_of_assemble (a := .start) (Lexemes.inside_of text.toList) hfault
    cases fault with
    | reference e => cases h
    | flaw what place =>
        cases h
        obtain ⟨before, hbefore⟩ := hinside
        refine ⟨rfl, .ofList before, .ofList place, ?_, ?_⟩
        · rw [← String.ofList_append, hbefore, String.ofList_toList]
        · rw [← hbefore, byteLength_append, Nat.add_sub_cancel, byteLength_eq]
  · cases h

/-- The parser moves on by whole characters. A label, a value, a stage and an argument take at least
one of them. It takes no more steps than the text before it has bytes, and halts. A comparator is
found in the first two bytes or in the first one, if these are whole characters. A refusal names the
whole text, and a position in it where a character starts or the text ends. -/
theorem parse_moves_on (text : String) :
    (∀ cs type rest, Lexeme.label cs = .ok (type, rest) → Lexeme.Consumes cs rest) ∧
    (∀ cs value rest, Lexeme.value cs = .ok (value, rest) → Lexeme.Consumes cs rest) ∧
    (∀ cs stage left, ReadsStage cs stage left →
      ∃ rest, left = .of rest ∧ Lexeme.Consumes cs rest) ∧
    (∀ cs argument left, ReadsArgument cs argument left →
      ∃ rest, left = .of rest ∧ Lexeme.Consumes cs rest) ∧
    (∀ read reached left, Reads .start (.of text.toList) read reached left →
      ∃ before after, text = before ++ after ∧ left = .of after.toList ∧
        read.length ≤ before.utf8ByteSize) ∧
    (∃ read reached left, Reads .start (.of text.toList) read reached left ∧ reached.Halts left ∧
      parse text =
        (assemble reached.level reached.outer left).mapError fun fault => fault.toError text) ∧
    (∀ cs, Lexeme.comparator cs =
      match (Comparator.inBytes? 2 cs).or (Comparator.inBytes? 1 cs) with
      | some read => .ok read
      | none => .error (.flaw .comparatorExpected cs)) ∧
    ∀ position flaw expression, parse text = .error (.malformed position flaw expression) →
      expression = text ∧ position ≤ text.utf8ByteSize ∧
        ∃ before after, text = before ++ after ∧ position = before.utf8ByteSize := by
  refine ⟨fun _ _ _ => Lexeme.consumes_of_label, fun _ _ _ => Lexeme.consumes_of_value,
    fun _ _ _ => ReadsStage.consumes, fun _ _ _ => ReadsArgument.consumes, ?_, ?_,
    Lexeme.comparator_eq_inBytes, ?_⟩
  · intro read reached left h
    obtain ⟨used, rest, hcs, hleft, hlength⟩ := h.consumes rfl
    refine ⟨.ofList used, .ofList rest, ?_, ?_, ?_⟩
    · rw [← String.ofList_append, ← hcs, String.ofList_toList]
    · rw [hleft, String.toList_ofList]
    · rwa [← byteLength_eq]
  · obtain ⟨read, reached, left, h, hhalts⟩ := exists_reads_halts .start (.of text.toList)
    refine ⟨read, reached, left, h, hhalts, ?_⟩
    rw [parse_eq_mapError, ← h.assemble_eq]
    rfl
  · intro position flaw expression h
    obtain ⟨hexpression, before, after, rfl, hposition⟩ := position_of_parse h
    refine ⟨hexpression, ?_, before, after, rfl, hposition⟩
    rw [hposition, String.utf8ByteSize_append]
    exact Nat.le_add_right _ _

end Selector

end SchemaQuery
