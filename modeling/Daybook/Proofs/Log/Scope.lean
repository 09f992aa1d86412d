import Daybook.Log.Action

/-!
Blocks put the context back.

A block ends by putting the context back with the receipt from its beginning, and this works only if nobody has
used the receipt. Whatever runs inside uses receipts of its own only, which are numbered higher
(`LogProgram.extends_run`); so the receipt is still good, and the context after a block is that before it, whether
the body fails or not (`LogProgram.run_bind_of_ok`). This holds for all blocks of a program, at any depth
(`LogProgram.restores_run`).

A program that changes the context in blocks only leaves it as it was, also if it is broken off anywhere
(`LogProgram.Contained.interrupted`).
-/

namespace Daybook

/-! ## Receipts -/

namespace LogVariable

/-- Whether no receipt from before has been used since then. -/
structure Extends (v w : LogVariable) : Prop where
  issued_le : v.issued ≤ w.issued
  mem_used : ∀ n < v.issued, n ∈ w.used → n ∈ v.used

variable {u v w : LogVariable}

theorem Extends.refl (v : LogVariable) : v.Extends v :=
  ⟨Nat.le_refl _, fun _ _ hn => hn⟩

theorem Extends.trans (huv : u.Extends v) (hvw : v.Extends w) : u.Extends w where
  issued_le := Nat.le_trans huv.issued_le hvw.issued_le
  mem_used := by
    intro n hlt hn
    exact huv.mem_used n hlt (hvw.mem_used n (Nat.lt_of_lt_of_le hlt huv.issued_le) hn)

/-- Setting a variable gives out a new receipt, and keeps those given out before. -/
theorem extends_set (v : LogVariable) (c : LogContext) : v.Extends (v.set c).2 :=
  ⟨Nat.le_succ _, fun _ _ hn => hn⟩

/-- **A receipt stays good** as long as no receipt from before is used. -/
theorem reset_of_extends {c : LogContext} (h : (v.set c).2.Extends w) :
    ∃ left, w.reset (v.set c).1 = .ok left ∧ left.value = v.value ∧ v.Extends left := by
  have hissued : v.issued < w.issued := h.issued_le
  -- The receipt has the number next to all that had been given out, so it cannot be among those used before.
  have hgood : v.issued ∉ w.used := by
    intro hused
    exact absurd (v.used_lt _ (h.mem_used _ (Nat.lt_succ_self _) hused)) (Nat.lt_irrefl _)
  refine ⟨_, (if_neg hgood).trans (dif_pos hissued), rfl, Nat.le_of_lt hissued, ?_⟩
  intro n hlt hn
  rcases List.mem_cons.1 hn with rfl | hn
  · exact absurd hlt (Nat.lt_irrefl _)
  · exact h.mem_used n (Nat.lt_succ_of_lt hlt) hn

end LogVariable

/-! ## Blocks -/

namespace LogProgram

open LogVariable LogContext

/-- A block whose body has used no receipt from before ends as its body does, with the context from before. -/
theorem leave_of_extends {v : LogVariable} {c : LogContext} {body : LogRun}
    (h : (v.set c).2.Extends body.left) (inside : LogContext) :
    ∃ left, left.value = v.value ∧ v.Extends left ∧ body.leave inside (v.set c).1
      = ⟨[.block inside body.seen body.failure.isSome v.value], body.failure, left⟩ := by
  obtain ⟨left, hreset, hvalue, hextends⟩ := reset_of_extends h
  refine ⟨left, hvalue, hextends, ?_⟩
  rw [LogRun.leave, hreset, ← hvalue]

variable (p : LogProgram) (v : LogVariable)

/-- **No program uses a receipt from before.** -/
theorem extends_run : v.Extends (p.run v).left := by
  induction p generalizing v with
  | done => exact .refl v
  | set fields =>
    rw [run]
    split
    · exact extends_set v _
    · exact .refl v
  | clear => exact extends_set v _
  | emit event => exact .refl v
  | fail f => exact .refl v
  | bind fields body ih =>
    rw [run]
    split
    · next c _ =>
      obtain ⟨left, -, hextends, hleave⟩ := leave_of_extends (ih (v.set c).2) c
      rw [hleave]
      exact hextends
    · exact .refl v
  | attempt body ih => exact ih v
  | andThen first second ihf ihs =>
    rw [run]
    dsimp only
    split
    · exact ihf v
    · exact (ihf v).trans (ihs _)

variable {p v}

/-- **A block ends as its body does, with the context from before.** -/
theorem run_bind_of_ok {fields : ContextChange} {c : LogContext}
    (h : v.value.change fields = .ok c) (body : LogProgram) :
    ∃ left, left.value = v.value ∧ (LogProgram.bind fields body).run v
      = ⟨[.block c (body.run (v.set c).2).seen (body.run (v.set c).2).failure.isSome v.value],
          (body.run (v.set c).2).failure, left⟩ := by
  obtain ⟨left, hvalue, -, hleave⟩ := leave_of_extends (body.extends_run (v.set c).2) c
  refine ⟨left, hvalue, ?_⟩
  rw [run, h]
  exact hleave

/-- A block over unknown fields is refused before anything inside of it runs. -/
theorem run_bind_of_error {fields : ContextChange} {e : UnknownFields}
    (h : v.value.change fields = .error e) (body : LogProgram) :
    (LogProgram.bind fields body).run v = .refused v e := by
  rw [run, h]

variable (p v)

/-- The context after a block is the context before it. -/
theorem value_bind (fields : ContextChange) (body : LogProgram) :
    ((LogProgram.bind fields body).run v).left.value = v.value := by
  cases h : v.value.change fields with
  | ok c =>
    obtain ⟨left, hvalue, hrun⟩ := run_bind_of_ok h body
    rw [hrun, hvalue]
  | error e =>
    rw [run_bind_of_error h body]
    rfl

end LogProgram

/-! ## Whole programs -/

namespace Observation

mutual

/-- Whether a step that is not a change of the context left it as it was before, and so did all steps inside. -/
def Restores (before : LogContext) : Observation → Prop
  | .changed _ => True
  | .refused _ after => after = before
  | .emitted _ after => after = before
  | .block inside body _ after => after = before ∧ AllRestore inside body

/-- Whether some steps did so, the first of which began with the given context. -/
def AllRestore (before : LogContext) : List Observation → Prop
  | [] => True
  | o :: os => Restores before o ∧ AllRestore o.after os

end

/-- The context after some steps. -/
def lastContext (before : LogContext) (os : List Observation) : LogContext :=
  os.foldl (fun _ o => o.after) before

/-- Observations one after the other restore if each part does, the second from where the first ends. -/
theorem allRestore_append (before : LogContext) (os others : List Observation) :
    AllRestore before (os ++ others)
      ↔ AllRestore before os ∧ AllRestore (lastContext before os) others := by
  induction os generalizing before with
  | nil => simp [AllRestore, lastContext]
  | cons o os ih =>
    rw [List.cons_append, AllRestore, AllRestore, ih, and_assoc]
    rfl

end Observation

namespace LogProgram

open Observation LogContext

variable (p : LogProgram) (v : LogVariable)

/-- The variable holds the context that was observed last. -/
theorem value_run : (p.run v).left.value = lastContext v.value (p.run v).seen := by
  induction p generalizing v with
  | done => rfl
  | set fields =>
    rw [run]
    split <;> rfl
  | clear => rfl
  | emit event => rfl
  | fail f => rfl
  | bind fields body ih =>
    cases h : v.value.change fields with
    | ok c =>
      obtain ⟨left, hvalue, hrun⟩ := run_bind_of_ok h body
      rw [hrun, hvalue]
      rfl
    | error e =>
      rw [run_bind_of_error h body]
      rfl
  | attempt body ih => exact ih v
  | andThen first second ihf ihs =>
    rw [run]
    dsimp only
    split
    · exact ihf v
    · rw [ihs, ihf, lastContext, lastContext, lastContext, List.foldl_append]

/-- **Every block of a program puts the context back**, at any depth and however it is left. -/
theorem restores_run : AllRestore v.value (p.run v).seen := by
  induction p generalizing v with
  | done => trivial
  | set fields =>
    rw [run]
    split
    · exact ⟨trivial, trivial⟩
    · exact ⟨rfl, trivial⟩
  | clear => exact ⟨trivial, trivial⟩
  | emit event => exact ⟨rfl, trivial⟩
  | fail f => trivial
  | bind fields body ih =>
    cases h : v.value.change fields with
    | ok c =>
      obtain ⟨left, -, hrun⟩ := run_bind_of_ok h body
      rw [hrun]
      exact ⟨⟨rfl, ih (v.set c).2⟩, trivial⟩
    | error e =>
      rw [run_bind_of_error h body]
      exact ⟨rfl, trivial⟩
  | attempt body ih => exact ih v
  | andThen first second ihf ihs =>
    rw [run]
    dsimp only
    split
    · exact ihf v
    · -- The second part begins with the context that was observed last in the first one.
      refine (allRestore_append _ _ _).2 ⟨ihf v, ?_⟩
      rw [← value_run]
      exact ihs _

/-! ## Programs that change the context in blocks only -/

/-- Whether the context is changed in blocks only. -/
def Contained : LogProgram → Prop
  | .set _ => False
  | .clear => False
  | .attempt p => p.Contained
  | .andThen p q => p.Contained ∧ q.Contained
  | _ => True

/-- Whether nothing in a program fails. -/
def Faultless : LogProgram → Prop
  | .set fields => unknownNames fields = []
  | .fail _ => False
  | .bind fields body => unknownNames fields = [] ∧ body.Faultless
  | .andThen p q => p.Faultless ∧ q.Faultless
  | _ => True

variable {p}

/-- A program that changes the context in blocks only leaves it as it was. -/
theorem Contained.value_eq (h : p.Contained) : (p.run v).left.value = v.value := by
  induction p generalizing v with
  | done => rfl
  | set fields => exact h.elim
  | clear => exact h.elim
  | emit event => rfl
  | fail f => rfl
  | bind fields body ih => exact value_bind v fields body
  | attempt body ih => exact ih v h
  | andThen first second ihf ihs =>
    obtain ⟨hfirst, hsecond⟩ := h
    rw [run]
    dsimp only
    split
    · exact ihf v hfirst
    · rw [ihs _ hsecond, ihf v hfirst]

/-- Known fields can be changed in every context. -/
theorem change_of_known {fields : ContextChange} (h : unknownNames fields = []) (c : LogContext) :
    ∃ next, c.change fields = .ok next := by
  rw [change, h]
  exact ⟨_, rfl⟩

/-- Unknown fields are refused in every context, in the order in which they were given. -/
theorem change_of_unknown {fields : ContextChange} (h : unknownNames fields ≠ []) (c : LogContext) :
    c.change fields = .error ⟨unknownNames fields⟩ := by
  unfold change
  split
  · next hknown => exact absurd hknown h
  · rfl

/-- A program that binds known fields only does not fail. -/
theorem Faultless.failure_eq (h : p.Faultless) : (p.run v).failure = none := by
  induction p generalizing v with
  | done => rfl
  | set fields =>
    obtain ⟨c, hc⟩ := change_of_known h v.value
    rw [run, hc]
  | clear => rfl
  | emit event => rfl
  | fail f => exact h.elim
  | bind fields body ih =>
    obtain ⟨c, hc⟩ := change_of_known h.1 v.value
    obtain ⟨left, -, hrun⟩ := run_bind_of_ok hc body
    rw [hrun]
    exact ih _ h.2
  | attempt body ih => rfl
  | andThen first second ihf ihs =>
    rw [run, ihf v h.1]
    exact ihs _ h.2

/-- Whether the second program is the first one, broken off at some place by a failure. -/
inductive Interrupted (f : Fault) : LogProgram → LogProgram → Prop
  | never (p : LogProgram) : Interrupted f p p
  | before (p : LogProgram) : Interrupted f p (.fail f)
  | behind (p : LogProgram) : Interrupted f p (.andThen p (.fail f))
  | bind (fields : ContextChange) {p q : LogProgram} (h : Interrupted f p q) :
    Interrupted f (.bind fields p) (.bind fields q)
  | attempt {p q : LogProgram} (h : Interrupted f p q) : Interrupted f (.attempt p) (.attempt q)
  | first {p q : LogProgram} (h : Interrupted f p q) (r : LogProgram) :
    Interrupted f (.andThen p r) (.andThen q r)
  | second (r : LogProgram) {p q : LogProgram} (h : Interrupted f p q) :
    Interrupted f (.andThen r p) (.andThen r q)

/-- A program stays contained when it is broken off. -/
theorem Contained.interrupted {f : Fault} {q : LogProgram} (hp : p.Contained)
    (h : Interrupted f p q) : q.Contained := by
  induction h with
  | never p => exact hp
  | before p => trivial
  | behind p => exact ⟨hp, trivial⟩
  | bind fields _ _ => trivial
  | attempt _ ih => exact ih hp
  | first _ r ih => exact ⟨ih hp.1, hp.2⟩
  | second r _ ih => exact ⟨hp.1, ih hp.2⟩

end LogProgram

end Daybook
