import Mathlib.Data.List.DropRight
import Daybook.Log.Setup

/-!
What calls that set up the logging come to.

The first step marks the logging as configured and the second one gives the handler its form; only then is the level
looked at. So the first attempt since the last reset decides, whether it fails or not: a level that there is is set and
the handler attached, and a level that there is not leaves the logging without a handler, whatever levels come later
(`LogSetup.after_eq`). At most one handler is attached at any time. But a call that fails is not undone, so calls are
all or nothing exactly as long as none fails (`LogSetup.setsUpOnce_iff`).
-/

namespace Daybook.LogSetup

variable {σ : Type} [DecidableEq σ] {s : LogSetup σ} {level : Value} {handler : σ}

/-! ## One call -/

/-- Whether nothing has been tried, and no handler is attached. -/
structure IsFresh (s : LogSetup σ) : Prop where
  configured : s.configured = false
  handlers : s.handlers = []

omit [DecidableEq σ] in
/-- Nothing is set up at the beginning. -/
theorem isFresh_initial : (initial : LogSetup σ).IsFresh :=
  ⟨rfl, rfl⟩

omit [DecidableEq σ] in
/-- A reset forgets whatever was tried. -/
theorem isFresh_reset (s : LogSetup σ) : s.reset.IsFresh :=
  ⟨rfl, rfl⟩

/-- The setup with one more handler, at a level. -/
def attached (s : LogSetup σ) (n : Int) (handler : σ) : LogSetup σ where
  configured := true
  handlers := including s.handlers handler
  level := n
  propagates := false
  formatted := including s.formatted handler

/-- The setup after a call that came to nothing, but for the form of its handler. -/
def tried (s : LogSetup σ) (handler : σ) : LogSetup σ :=
  { s with configured := true, formatted := including s.formatted handler }

/-- Once logging counts as set up, setting it up again changes nothing. -/
theorem configure_of_configured (h : s.configured = true) (level : Value) (handler : σ) :
    s.configure level handler = (.ok (), s) := by
  rw [configure, if_pos h]

/-- With a level that there is, all steps are made. -/
theorem configure_of_ok {n : Int} (h : s.configured = false) (hlevel : levelOfValue level = .ok n)
    (handler : σ) : s.configure level handler = (.ok (), s.attached n handler) := by
  have hstep : Step.setLevel (σ := σ) level = modify fun s => { s with level := n } := by
    rw [Step.setLevel, hlevel]
  rw [configure, if_neg (by simp [h]), Step.setUp, hstep]
  rfl

/-- With a level that there is not, the first two steps are made and the third one fails. -/
theorem configure_of_error {e : LevelError} (h : s.configured = false)
    (hlevel : levelOfValue level = .error e) (handler : σ) :
    s.configure level handler = (.error e, s.tried handler) := by
  have hstep : Step.setLevel (σ := σ) level = throw e := by
    rw [Step.setLevel, hlevel]
  rw [configure, if_neg (by simp [h]), Step.setUp, hstep]
  rfl

/-- **A call fails only where nothing has been tried**, and then on its level. -/
theorem configure_eq_error_iff {e : LevelError} :
    (s.configure level handler).1 = .error e
      ↔ s.configured = false ∧ levelOfValue level = .error e := by
  by_cases h : s.configured = true
  · simp [configure_of_configured h, h]
  · have hfalse : s.configured = false := by simpa using h
    cases hlevel : levelOfValue level with
    | ok n => simp [configure_of_ok hfalse hlevel]
    | error e' => simp [configure_of_error hfalse hlevel, hfalse]

/-! ## Calls one after the other -/

/-- A call that sets up the logging, or undoes that. -/
inductive Call (σ : Type) where
  | configure (level : Value) (handler : σ)
  | reset

namespace Call

/-- Whether a call undoes what others have set up. -/
def isReset : Call σ → Bool
  | .configure .. => false
  | .reset => true

/-- Makes a call. -/
def run : Call σ → LogSetup σ → Except LevelError Unit × LogSetup σ
  | .configure level handler, s => s.configure level handler
  | .reset, s => (.ok (), s.reset)

end Call

/-- The setup after some calls. -/
def after (s : LogSetup σ) (cs : List (Call σ)) : LogSetup σ :=
  cs.foldl (fun s c => (c.run s).2) s

/-- What happens after some calls starts from where they end. -/
theorem after_append (s : LogSetup σ) (cs ds : List (Call σ)) :
    s.after (cs ++ ds) = (s.after cs).after ds :=
  List.foldl_append

theorem after_concat (s : LogSetup σ) (cs : List (Call σ)) (c : Call σ) :
    s.after (cs ++ [c]) = (c.run (s.after cs)).2 := by
  rw [after_append]
  rfl

/-- The calls up to the last reset. -/
def untilReset (cs : List (Call σ)) : List (Call σ) :=
  cs.rdropWhile fun c => !c.isReset

/-- The setup that the last reset left, or else the one from the beginning. -/
def base (s : LogSetup σ) (cs : List (Call σ)) : LogSetup σ :=
  s.after (untilReset cs)

/-- The levels and handlers of the calls since the last reset. -/
def attempts (cs : List (Call σ)) : List (Value × σ) :=
  cs.foldl (fun as c => match c with
    | .configure level handler => as ++ [(level, handler)]
    | .reset => []) []

section Concat

variable (s) (cs : List (Call σ)) (level : Value) (handler : σ)

@[simp] theorem base_nil : s.base [] = s := rfl

@[simp] theorem base_configure : s.base (cs ++ [.configure level handler]) = s.base cs := by
  rw [base, untilReset, List.rdropWhile_concat_pos _ _ _ rfl]
  rfl

@[simp] theorem base_reset : s.base (cs ++ [.reset]) = (s.after cs).reset := by
  rw [base, untilReset, List.rdropWhile_concat_neg _ _ _ Bool.false_ne_true, after_concat]
  rfl

omit [DecidableEq σ] in
@[simp] theorem attempts_configure :
    attempts (cs ++ [.configure level handler]) = attempts cs ++ [(level, handler)] := by
  simp only [attempts, List.foldl_append, List.foldl_cons, List.foldl_nil]

omit [DecidableEq σ] in
@[simp] theorem attempts_reset : attempts (cs ++ [.reset]) = ([] : List (Value × σ)) := by
  simp only [attempts, List.foldl_append, List.foldl_cons, List.foldl_nil]

end Concat

/-- A reset leaves nothing set up, whatever was before. Only the form of handlers may be left. -/
theorem toLogState_base (s : LogSetup σ) (cs : List (Call σ)) :
    (s.base cs).toLogState
      = if cs.any Call.isReset then (initial : LogSetup σ).toLogState else s.toLogState := by
  induction cs using List.reverseRecOn with
  | nil => simp
  | append_singleton cs c ih =>
    cases c with
    | configure level handler => simp [ih, Call.isReset]
    | reset => simp [reset, Call.isReset]

theorem IsFresh.base (h : s.IsFresh) (cs : List (Call σ)) : (s.base cs).IsFresh := by
  induction cs using List.reverseRecOn with
  | nil => exact h
  | append_singleton cs c ih =>
    cases c with
    | configure level handler => rwa [base_configure]
    | reset => rw [base_reset]; exact isFresh_reset _

/-! ## The first attempt decides -/

/-- What the first of some attempts makes of a setup. -/
def decided (b : LogSetup σ) : List (Value × σ) → LogSetup σ
  | [] => b
  | (level, handler) :: _ =>
    match levelOfValue level with
    | .ok n => b.attached n handler
    | .error _ => b.tried handler

/-- Logging counts as set up after the first attempt, even if this one fails. -/
theorem configured_decided {b : LogSetup σ} (h : b.IsFresh) (as : List (Value × σ)) :
    (b.decided as).configured = true ↔ as ≠ [] := by
  cases as with
  | nil => simp [decided, h.configured]
  | cons a as =>
    rw [decided]
    split <;> simp [attached, tried]

/-- Another attempt decides only if it is the first one. -/
theorem configure_decided {b : LogSetup σ} (h : b.IsFresh) (as : List (Value × σ)) :
    ((b.decided as).configure level handler).2 = b.decided (as ++ [(level, handler)]) := by
  cases as with
  | nil =>
    rw [List.nil_append, decided, decided]
    cases hlevel : levelOfValue level with
    | ok n => rw [configure_of_ok h.configured hlevel]
    | error e => rw [configure_of_error h.configured hlevel]
  | cons a as =>
    have hconfigured := (configured_decided h (a :: as)).2 (List.cons_ne_nil a as)
    rw [configure_of_configured hconfigured]
    rfl

/-- **The first attempt since the last reset decides.** -/
theorem after_eq (h : s.IsFresh) (cs : List (Call σ)) :
    s.after cs = (s.base cs).decided (attempts cs) := by
  induction cs using List.reverseRecOn with
  | nil => rfl
  | append_singleton cs c ih =>
    rw [after_concat, ih]
    cases c with
    | configure level handler =>
      rw [base_configure, attempts_configure]
      exact configure_decided (h.base cs) _
    | reset =>
      rw [base_reset, attempts_reset, ih]
      rfl

/-- Logging counts as set up if there was an attempt since the last reset. -/
theorem configured_after_iff (h : s.IsFresh) (cs : List (Call σ)) :
    (s.after cs).configured = true ↔ attempts cs ≠ [] := by
  rw [after_eq h]
  exact configured_decided (h.base cs) _

theorem configured_after_eq_false_iff (h : s.IsFresh) (cs : List (Call σ)) :
    (s.after cs).configured = false ↔ attempts cs = [] := by
  rw [← Bool.not_eq_true, configured_after_iff h, not_not]

/-- There is never more than one handler. -/
theorem length_handlers_after_le (h : s.IsFresh) (cs : List (Call σ)) :
    (s.after cs).handlers.length ≤ 1 := by
  have hbase := (h.base cs).handlers
  rw [after_eq h]
  cases attempts cs with
  | nil => simp [decided, hbase]
  | cons a as =>
    rw [decided]
    split <;> simp [attached, tried, including, hbase]

/-- A handler that is included is there, whether it was before or not. -/
theorem mem_including (handlers : List σ) (handler : σ) :
    handler ∈ including handlers handler := by
  rw [including]
  split <;> simp [*]

/-- **Whatever is attached writes records in their form.** -/
theorem handlers_after_subset_formatted (h : s.IsFresh) (cs : List (Call σ)) :
    (s.after cs).handlers ⊆ (s.after cs).formatted := by
  have hbase := (h.base cs).handlers
  rw [after_eq h]
  cases attempts cs with
  | nil => simp [decided, hbase]
  | cons a as =>
    rw [decided]
    split
    · have hone : including ([] : List σ) a.2 = [a.2] := rfl
      simp only [attached, hbase, hone]
      exact List.cons_subset.2 ⟨mem_including _ _, List.nil_subset _⟩
    · simp [tried, hbase]

/-- Up to the next reset, later calls change nothing. -/
theorem after_of_configured (h : s.configured = true) {ds : List (Call σ)}
    (hds : ∀ c ∈ ds, c ≠ .reset) : s.after ds = s := by
  induction ds with
  | nil => rfl
  | cons c ds ih =>
    obtain ⟨hc, hrest⟩ := List.forall_mem_cons.1 hds
    cases c with
    | configure level handler =>
      have hstep : s.after (.configure level handler :: ds) = s.after ds := by
        rw [after, List.foldl_cons, Call.run, configure_of_configured h]
        rfl
      rw [hstep, ih hrest]
    | reset => exact absurd rfl hc

/-! ## All or nothing -/

/-- A call that fails is noted, and only its handler gets anything of it. -/
theorem after_concat_of_error {cs : List (Call σ)} {c : Call σ} {e : LevelError}
    (h : (c.run (s.after cs)).1 = .error e) :
    (s.after cs).configured = false ∧ ∃ handler, s.after (cs ++ [c]) = (s.after cs).tried handler := by
  rw [after_concat]
  cases c with
  | configure level handler =>
    obtain ⟨hfalse, hlevel⟩ := configure_eq_error_iff.1 h
    exact ⟨hfalse, handler, by rw [Call.run, configure_of_error hfalse hlevel]⟩
  | reset => cases h

/-- What the first attempt with a level that there is would make of a setup. -/
def intended (b : LogSetup σ) : List (Value × σ) → LogSetup σ
  | [] => b
  | (level, handler) :: as =>
    match levelOfValue level with
    | .ok n => b.attached n handler
    | .error _ => b.intended as

/-- Whether calls set up the logging once, and each of them wholly or not at all. The form of a handler is the handler's
own and no part of this. -/
structure SetsUpOnce (s : LogSetup σ) (cs : List (Call σ)) : Prop where
  /-- At any time, the first attempt since the last reset that can succeed is the one that counts. -/
  intended : ∀ ds, ds <+: cs →
    (s.after ds).toLogState = ((s.base ds).intended (attempts ds)).toLogState
  handlers : ∀ ds, ds <+: cs → (s.after ds).handlers.length ≤ 1
  /-- A call that fails leaves the setup as it was. -/
  unchanged : ∀ ds c e, ds ++ [c] <+: cs → (c.run (s.after ds)).1 = .error e →
    (s.after (ds ++ [c])).toLogState = (s.after ds).toLogState

/-- Whether no call fails. -/
def NoneFails (s : LogSetup σ) (cs : List (Call σ)) : Prop :=
  ∀ ds c, ds ++ [c] <+: cs → (c.run (s.after ds)).1 = .ok ()

/-- If no call fails, none of the first calls does. -/
theorem NoneFails.of_isPrefix {cs ds : List (Call σ)} (h : s.NoneFails cs) (hds : ds <+: cs) :
    s.NoneFails ds :=
  fun es c hes => h es c (hes.trans hds)

/-- An attempt that is the first one does not fail, so there is such a level. -/
theorem NoneFails.exists_level_of_first (h : s.IsFresh) {cs : List (Call σ)}
    (hnone : s.NoneFails (cs ++ [.configure level handler])) (hfirst : attempts cs = []) :
    ∃ n, levelOfValue level = .ok n := by
  have hok : ((s.after cs).configure level handler).1 = .ok () := hnone cs _ (List.prefix_refl _)
  have hfalse := (configured_after_eq_false_iff h cs).2 hfirst
  cases hlevel : levelOfValue level with
  | ok n => exact ⟨n, rfl⟩
  | error e =>
    -- With another level the call would have failed.
    rw [configure_of_error hfalse hlevel] at hok
    cases hok

/-- Where no call fails, the first attempt since the last reset has a level that there is. -/
theorem NoneFails.exists_level (h : s.IsFresh) {cs : List (Call σ)} (hnone : s.NoneFails cs)
    {as : List (Value × σ)} (has : attempts cs = (level, handler) :: as) :
    ∃ n, levelOfValue level = .ok n := by
  induction cs using List.reverseRecOn generalizing as with
  | nil => cases has
  | append_singleton cs c ih =>
    cases c with
    | reset =>
      rw [attempts_reset] at has
      cases has
    | configure level' handler' =>
      rw [attempts_configure] at has
      -- Either this call is the first attempt, or the first one is among the calls before.
      cases hearlier : attempts cs with
      | nil =>
        rw [hearlier] at has
        obtain ⟨rfl, rfl⟩ := Prod.mk.inj (List.cons.inj has).1
        exact hnone.exists_level_of_first h hearlier
      | cons a bs =>
        rw [hearlier] at has
        obtain ⟨rfl, -⟩ := List.cons.inj has
        exact ih (hnone.of_isPrefix (List.prefix_append _ _)) hearlier

/-- **Calls set up the logging once exactly as long as none fails.** -/
theorem setsUpOnce_iff (h : s.IsFresh) {cs : List (Call σ)} :
    s.SetsUpOnce cs ↔ s.NoneFails cs := by
  constructor
  · intro honce ds c hds
    cases hrun : (c.run (s.after ds)).1 with
    | ok u => rfl
    | error e =>
      -- The call has left its mark, and so it has changed the setup.
      obtain ⟨hfalse, handler, htried⟩ := after_concat_of_error hrun
      have hunchanged := honce.unchanged ds c e hds hrun
      rw [htried] at hunchanged
      exact absurd (congrArg LogState.configured hunchanged) (by simp [tried, hfalse])
  · intro hnone
    refine ⟨fun ds hds => ?_, fun ds _ => length_handlers_after_le h ds, fun ds c e hds hrun => ?_⟩
    · rw [after_eq h]
      cases hattempts : attempts ds with
      | nil => rfl
      | cons a as =>
        obtain ⟨n, hlevel⟩ := (hnone.of_isPrefix hds).exists_level h hattempts
        simp only [decided, LogSetup.intended, hlevel]
    · rw [hnone ds c hds] at hrun
      cases hrun

/-- **The first attempt decides.** Up to the next reset, the first attempt alone says what the logging is set up to:
its level and its handler if there is such a level, and nothing otherwise. No later call fails or changes anything, and
at most one handler is attached. A call fails exactly if it is the first attempt and there is no such level; the
level, the handlers and where records go stay as they were, but the call counts as the first attempt, and its handler
has the form of records. A reset undoes everything but that form. Hence the first attempt that can succeed is the one
that counts, and a failing one leaves no trace in what is set up, exactly as long as none fails. -/
theorem decided_by_first (h : s.IsFresh) (cs : List (Call σ)) :
    s.after cs = (s.base cs).decided (attempts cs)
    ∧ (s.base cs).toLogState
      = (if cs.any Call.isReset then (initial : LogSetup σ).toLogState else s.toLogState)
    ∧ (s.after cs).handlers.length ≤ 1
    ∧ (attempts cs ≠ [] → ∀ ds, (∀ c ∈ ds, c ≠ .reset) → s.after (cs ++ ds) = s.after cs)
    ∧ (∀ level handler e, ((s.after cs).configure level handler).1 = .error e
      ↔ attempts cs = [] ∧ levelOfValue level = .error e)
    ∧ (∀ level handler e, ((s.after cs).configure level handler).1 = .error e →
      ((s.after cs).configure level handler).2 = (s.after cs).tried handler)
    ∧ (s.SetsUpOnce cs ↔ s.NoneFails cs) := by
  refine ⟨after_eq h cs, toLogState_base s cs, length_handlers_after_le h cs, fun hattempts ds hds => ?_,
    fun level handler e => ?_, fun level handler e herror => ?_, setsUpOnce_iff h⟩
  · rw [after_append]
    exact after_of_configured ((configured_after_iff h cs).2 hattempts) hds
  · rw [configure_eq_error_iff, configured_after_eq_false_iff h]
  · obtain ⟨hfalse, hlevel⟩ := configure_eq_error_iff.1 herror
    rw [configure_of_error hfalse hlevel]

/-- A level that there is not, and then one that there is. -/
def blunder : List (Call Nat) :=
  [.configure (.text "LOUD") 0, .configure (.text "info") 1]

/-- After the blunder no handler is attached, though the first one has its form, and another attempt succeeds only after
a reset. -/
theorem decided_by_first_blunder :
    (initial : LogSetup Nat).IsFresh
    ∧ (initial.after blunder).handlers = [] ∧ (initial.after blunder).formatted = [0]
    ∧ initial.after (blunder ++ [.configure (.integer 10) 2]) = initial.after blunder
    ∧ initial.after (blunder ++ [.reset, .configure (.integer 10) 2]) = ⟨⟨true, [2], 10, false⟩, [0, 2]⟩ := by
  have hfresh : (initial : LogSetup Nat).IsFresh := isFresh_initial
  obtain ⟨hdecided, -, -, hlater, -⟩ := decided_by_first hfresh blunder
  obtain ⟨hagain, -⟩ := decided_by_first hfresh (blunder ++ [.reset, .configure (.integer 10) 2])
  have hattempts : attempts blunder ≠ [] := List.cons_ne_nil _ _
  refine ⟨hfresh, ?_, ?_, hlater hattempts _ (by simp), ?_⟩
  · rw [hdecided]
    decide
  · rw [hdecided]
    decide
  · rw [hagain]
    decide

/-- The second call could succeed and is not the one that counts. -/
theorem not_setsUpOnce_blunder : ¬ (initial : LogSetup Nat).SetsUpOnce blunder := by
  intro honce
  have hintended := honce.intended blunder (List.prefix_refl _)
  revert hintended
  decide

end Daybook.LogSetup
