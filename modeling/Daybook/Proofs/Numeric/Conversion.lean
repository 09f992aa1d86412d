import Daybook.Proofs.Numeric.Canonical
import Daybook.Proofs.Syntax.Rules

/-!
What conversions by halves ask for.

A numeral can be converted in a single step only up to some length. `readAsking` and `writeAsking` are the conversions
by halves with the single steps made visible: each of them may fail, and what it is asked for is kept. With any steps
that are right on at most `chunk` digits they come to what `readWith` and `writeWith` say, because they ask for nothing
else (`exists_answers_readAsking`, `exists_answers_writeAsking`).

What is written is the usual numeral of the number, and what is read is the number that the usual reading of the text
gives (`converted_exactly`).
-/

namespace Daybook.Numeral

-- Powers are those of the core library, whatever else is in scope.
attribute [local instance (high)] instPowNat

/-! ## Single steps -/

/-- A computation in single steps that may fail. It keeps what the steps were asked for. -/
abbrev Asking (α : Type) := OptionT (StateM (List α))

section Asking

variable {α β γ : Type}

/-- Asks for one step. -/
def ask (convert : α → Option β) (a : α) : Asking α β :=
  OptionT.mk fun asked => (convert a, asked ++ [a])

/-- Whether a computation comes to a result, and what it asks for on the way. -/
def Answers (x : Asking α β) (b : β) (asked : List α) : Prop :=
  ∀ before, x.run.run before = (some b, before ++ asked)

/-- A single step that succeeds is the answer to its own question. -/
theorem answers_ask {convert : α → Option β} {a : α} {b : β} (h : convert a = some b) :
    Answers (ask convert a) b [a] := by
  intro before
  rw [← h]
  rfl

/-- What needs no step asks nothing. -/
theorem answers_pure (b : β) : Answers (pure b : Asking α β) b [] := by
  intro before
  rw [List.append_nil]
  rfl

/-- One after the other, answers are put together and questions are listed in order. -/
theorem Answers.bind {x : Asking α β} {f : β → Asking α γ} {b : β} {c : γ} {as bs : List α}
    (hx : Answers x b as) (hf : Answers (f b) c bs) : Answers (x >>= f) c (as ++ bs) := by
  intro before
  rw [OptionT.run_bind, Option.elimM, StateT.run_bind, hx before, ← List.append_assoc]
  exact hf (before ++ as)

/-- A computation comes to one result. -/
theorem Answers.eq {x : Asking α β} {b c : β} {as bs : List α} (hb : Answers x b as)
    (hc : Answers x c bs) : b = c := by
  have h : (some b, [] ++ as) = (some c, [] ++ bs) := (hb []).symm.trans (hc [])
  exact Option.some.inj (Prod.mk.inj h).1

end Asking

/-! ## Reading -/

/-- The number that digits denote, where each piece is read in one step. -/
def readAsking (convert : Numeral → Option Nat) (ds : Numeral) : Asking Numeral Nat :=
  if ds.length ≤ chunk then ask convert ds
  else do
    let half := ds.length / 2
    let high ← readAsking convert (ds.take half)
    let low ← readAsking convert (ds.drop half)
    return high * 10 ^ (ds.length - half) + low
termination_by ds.length
decreasing_by
  · simp only [List.length_take, chunk] at *; omega
  · simp only [List.length_drop, chunk] at *; omega

/-- Digits that fit in one step are asked for at once. -/
theorem readAsking_of_le {ds : Numeral} (h : ds.length ≤ chunk) (convert : Numeral → Option Nat) :
    readAsking convert ds = ask convert ds := by
  unfold readAsking
  exact if_pos h

/-- More digits are asked for by halves, the high half first. -/
theorem readAsking_of_lt {ds : Numeral} (h : chunk < ds.length) (convert : Numeral → Option Nat) :
    readAsking convert ds = do
      let high ← readAsking convert (ds.take (ds.length / 2))
      let low ← readAsking convert (ds.drop (ds.length / 2))
      return high * 10 ^ (ds.length - ds.length / 2) + low := by
  conv => lhs; unfold readAsking
  exact if_neg (Nat.not_le_of_lt h)

/-- **Reading asks for short pieces only**, none of them empty, which make up the numeral. -/
theorem exists_answers_readAsking {convert : Numeral → Option Nat} {leaf : Numeral → Nat}
    (hconvert : ∀ es : Numeral, es ≠ [] → es.length ≤ chunk → convert es = some (leaf es))
    {ds : Numeral} (hne : ds ≠ []) :
    ∃ asked, Answers (readAsking convert ds) (readWith leaf ds) asked
      ∧ (∀ es ∈ asked, es ≠ [] ∧ es.length ≤ chunk) ∧ asked.flatten = ds := by
  induction ds using readAsking.induct with
  | case1 ds hle =>
    refine ⟨[ds], ?_, List.forall_mem_singleton.2 ⟨hne, hle⟩, List.flatten_singleton⟩
    rw [readAsking_of_le hle, readWith_of_le hle]
    exact answers_ask (hconvert ds hne hle)
  | case2 ds hlt half ihhigh ihlow =>
    have hlong : chunk < ds.length := Nat.lt_of_not_le hlt
    -- A numeral that is cut has digits on both sides.
    have hhalf : 0 < half ∧ half < ds.length := by
      simp only [half, chunk] at *
      omega
    have hhigh : ds.take half ≠ [] := by
      rw [Ne, List.take_eq_nil_iff, not_or]
      exact ⟨Nat.ne_of_gt hhalf.1, hne⟩
    have hlow : ds.drop half ≠ [] := by
      rw [Ne, List.drop_eq_nil_iff]
      omega
    obtain ⟨highs, hhighs, hshort, hflat⟩ := ihhigh hhigh
    obtain ⟨lows, hlows, hshort', hflat'⟩ := ihlow hlow
    refine ⟨highs ++ lows, ?_, List.forall_mem_append.2 ⟨hshort, hshort'⟩, ?_⟩
    · rw [readAsking_of_lt hlong, readWith_of_lt hlong, ← List.append_nil lows]
      exact hhighs.bind (hlows.bind (answers_pure _))
    · rw [List.flatten_append, hflat, hflat', List.take_append_drop]

/-- The number that digits denote is the one that their text stands for. -/
theorem read_eq_ofDigitChars (ds : Numeral) : read ds = Nat.ofDigitChars 10 ds.toChars 0 := by
  have hdigit : ∀ d : Digit, d.toChar.toNat - '0'.toNat = d.val := by decide
  rw [read_eq, readDigits, Nat.ofDigitChars, toChars, List.foldl_map]
  simp only [hdigit]

/-! ## Writing -/

/-- The digits of a number, where each part is written in one step. -/
def writeAsking (convert : Nat → Option Numeral) (n : Nat) : Asking Nat Numeral :=
  if n < 10 ^ chunk then ask convert n
  else do
    let high ← writeAsking convert (n / 10 ^ half n)
    let low ← writeAsking convert (n % 10 ^ half n)
    return high ++ pad (half n) low
termination_by n
decreasing_by
  · exact div_half_lt (Nat.le_of_not_lt ‹_›)
  · exact mod_half_lt (Nat.le_of_not_lt ‹_›)

/-- A number that fits in one step is asked for at once. -/
theorem writeAsking_of_lt {n : Nat} (h : n < 10 ^ chunk) (convert : Nat → Option Numeral) :
    writeAsking convert n = ask convert n := by
  -- Rewriting with the definition would compute `10 ^ chunk`.
  unfold writeAsking
  exact if_pos h

/-- A larger number is asked for by halves, the high half first. -/
theorem writeAsking_of_le {n : Nat} (h : 10 ^ chunk ≤ n) (convert : Nat → Option Numeral) :
    writeAsking convert n = do
      let high ← writeAsking convert (n / 10 ^ half n)
      let low ← writeAsking convert (n % 10 ^ half n)
      return high ++ pad (half n) low := by
  conv => lhs; unfold writeAsking
  exact if_neg (Nat.not_lt_of_le h)

/-- **Writing asks for small numbers only.** -/
theorem exists_answers_writeAsking {convert : Nat → Option Numeral} {leaf : Nat → Numeral}
    (hconvert : ∀ m < 10 ^ chunk, convert m = some (leaf m)) (n : Nat) :
    ∃ asked, Answers (writeAsking convert n) (writeWith leaf n) asked
      ∧ ∀ m ∈ asked, m < 10 ^ chunk := by
  induction n using writeAsking.induct with
  | case1 n hlt =>
    refine ⟨[n], ?_, List.forall_mem_singleton.2 hlt⟩
    rw [writeAsking_of_lt hlt, writeWith_of_lt hlt]
    exact answers_ask (hconvert n hlt)
  | case2 n hlt ihhigh ihlow =>
    have hle : 10 ^ chunk ≤ n := Nat.le_of_not_lt hlt
    obtain ⟨highs, hhighs, hsmall⟩ := ihhigh
    obtain ⟨lows, hlows, hsmall'⟩ := ihlow
    refine ⟨highs ++ lows, ?_, List.forall_mem_append.2 ⟨hsmall, hsmall'⟩⟩
    rw [writeAsking_of_le hle, writeWith_of_le hle, ← List.append_nil lows]
    exact hhighs.bind (hlows.bind (answers_pure _))

/-- What is written is the usual text of the number. -/
theorem natText_eq_toDigits (n : Nat) : natText n = Nat.toDigits 10 n := by
  have hdigit : ∀ d : Digit, d.toChar = d.val.digitChar := by decide
  rw [natText, write_eq]
  fun_induction writeDigits n with
  | case1 n h => rw [Nat.toDigits_of_lt_base h, toChars, List.map_singleton, hdigit]
  | case2 n h ih =>
    rw [Nat.toDigits_of_base_le (by decide) (Nat.le_of_not_lt h), ← ih]
    simp only [toChars, List.map_append, List.map_singleton, hdigit]

/-! ## Conversions of any size -/

/-- The number that digits denote, in one step: there is none without digits, and none beyond the limit. -/
def readStep? (ds : Numeral) : Option Nat :=
  if ds ≠ [] ∧ ds.length ≤ digitLimit then some (readDigits ds) else none

/-- The digits of a number in one step, if there are not more of them than the limit allows. -/
def writeStep? (n : Nat) : Option Numeral :=
  if n < 10 ^ digitLimit then some (writeDigits n) else none

/-- The step that is given reads digits up to its limit. -/
theorem readStep?_of_le {ds : Numeral} (hne : ds ≠ []) (h : ds.length ≤ chunk) :
    readStep? ds = some (readDigits ds) :=
  if_pos ⟨hne, h.trans (by decide)⟩

theorem writeStep?_of_lt {n : Nat} (h : n < 10 ^ chunk) : writeStep? n = some (writeDigits n) :=
  if_pos (Nat.lt_of_lt_of_le h (Nat.pow_le_pow_right (by decide) (by decide)))

/-- Written digits are digits to the end. -/
theorem span_toChars (ds : Numeral) : span (toChars ds) = (ds, []) := by
  have h : span (toChars ds ++ []) = (ds, []) := span_toChars_append ds trivial
  rwa [List.append_nil] at h

/-- **Conversions are exact for any size.** The digits of every number are written, in single steps that are asked only
for numbers below `10 ^ chunk`; what such a step makes of larger ones does not matter. They are the usual numeral, with
no zero in front but that of zero itself. Every text of digits is read as the number that it stands for, in single steps
that are asked only for pieces of it, of at most `chunk` digits each; what such a step makes of longer ones does not
matter. And what is written is read back. -/
theorem converted_exactly :
    (∀ n, (∃ asked, Answers (writeAsking writeStep? n) (write n) asked ∧ ∀ m ∈ asked, m < 10 ^ chunk)
      ∧ (∀ leaf, (∀ m < 10 ^ chunk, leaf m = writeDigits m) → writeWith leaf n = write n)
      ∧ natText n = Nat.toDigits 10 n ∧ write n ≠ [] ∧ IsCanonical (write n))
    ∧ (∀ cs : List Char, cs ≠ [] → (∀ c ∈ cs, c.isDigit = true) →
      ∃ ds, span cs = (ds, []) ∧ toChars ds = cs ∧ read ds = Nat.ofDigitChars 10 cs 0
        ∧ (∃ asked, Answers (readAsking readStep? ds) (read ds) asked
          ∧ (∀ es ∈ asked, es ≠ [] ∧ es.length ≤ chunk) ∧ asked.flatten = ds)
        ∧ ∀ leaf, (∀ es : Numeral, es ≠ [] → es.length ≤ chunk → leaf es = readDigits es) →
          readWith leaf ds = read ds)
    ∧ ∀ n, span (natText n) = (write n, []) ∧ read (write n) = n := by
  refine ⟨fun n => ?_, fun cs hne hdigits => ?_, fun n => ⟨span_toChars _, ?_⟩⟩
  · have hasked := exists_answers_writeAsking (fun m => writeStep?_of_lt) n
    refine ⟨hasked, fun leaf hleaf => ?_, natText_eq_toDigits n, write_ne_nil n, isCanonical_write n⟩
    rw [writeWith_eq hleaf, write_eq]
  · obtain ⟨ds, rfl⟩ := exists_toChars hdigits
    have hds : ds ≠ [] := by
      rintro rfl
      exact hne rfl
    have hasked := exists_answers_readAsking (fun es => readStep?_of_le) hds
    refine ⟨ds, span_toChars ds, rfl, read_eq_ofDigitChars ds, hasked, fun leaf hleaf => ?_⟩
    -- The same steps answer both, since no piece that is asked for is empty or long.
    have hstep : ∀ es : Numeral, es ≠ [] → es.length ≤ chunk → readStep? es = some (leaf es) := by
      intro es hes hle
      rw [hleaf es hes hle, readStep?_of_le hes hle]
    obtain ⟨_, hanswers, -⟩ := exists_answers_readAsking hstep hds
    obtain ⟨_, hanswers', -⟩ := hasked
    exact hanswers.eq hanswers'
  · rw [read_eq, readDigits_write]

/-- A text of three times as many digits as one step reads. -/
def nines : List Char := List.replicate 3000 '9'

/-- A text that is read in pieces. -/
theorem converted_exactly_nines :
    nines ≠ [] ∧ (∀ c ∈ nines, c.isDigit = true)
    ∧ ∃ ds, toChars ds = nines ∧ read ds = Nat.ofDigitChars 10 nines 0
      ∧ ∃ asked, Answers (readAsking readStep? ds) (read ds) asked
        ∧ (∀ es ∈ asked, es ≠ [] ∧ es.length ≤ chunk) ∧ asked.flatten = ds := by
  have hne : nines ≠ [] := List.cons_ne_nil _ _
  have hdigits : ∀ c ∈ nines, c.isDigit = true := by
    intro c hc
    rw [List.eq_of_mem_replicate hc]
    decide
  obtain ⟨-, hread, -⟩ := converted_exactly
  obtain ⟨ds, -, hchars, hvalue, hasked, -⟩ := hread nines hne hdigits
  exact ⟨hne, hdigits, ds, hchars, hvalue, hasked⟩

end Daybook.Numeral
