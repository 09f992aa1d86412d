import Mathlib.Data.List.Pairwise
import Daybook.Config.Basic
import Daybook.Proofs.Validation.Running
import Daybook.Syntax.Production

/-!
Reading configurations.

Whatever a document says, the checks of the configuration that it describes stand in their own order, none of
them twice (`sublist_all_of_ofValue`). A document that describes none has a fault that can be reported, with two
exceptions: of several unknown keys the least one is reported, but two of them may have no order, and the least
one may be an integer of too many digits (`ofValue_eq_error_iff`).
-/

namespace Daybook.Config

open Production (bind_eq_ok)

/-! ## Checks -/

/-- Checks that are read from a document stand in their own order, and none of them twice. -/
theorem sublist_all_of_checksOf {v : Option Value} {checks : List Check}
    (h : checksOf v = .ok checks) : checks.Sublist Check.all := by
  unfold checksOf at h
  split at h
  · cases h
    exact List.Sublist.refl _
  · split at h
    · next items _ =>
      cases hselect : Check.select Check.ofValue? items with
      | error name =>
        rw [hselect] at h
        cases h
      | ok selected =>
        rw [hselect] at h
        cases h
        exact Check.sublist_of_select hselect
    · cases h
  · cases h

/-- A mapping describes a configuration if all its keys are known and each field can be read. -/
theorem ofEntries_eq_ok_iff {entries : List (Value × Value)} {config : Config} :
    ofEntries entries = .ok config ↔ unknownKeys entries = []
      ∧ checksOf (lookup? entries "checks") = .ok config.checks
      ∧ failFastOf (lookup? entries "fail_fast") = .ok config.failFast
      ∧ logLevelOf (lookup? entries "log_level") = .ok config.logLevel := by
  constructor
  · intro h
    unfold ofEntries at h
    split at h
    · cases h
    · next hunknown =>
      obtain ⟨checks, hchecks, h⟩ := bind_eq_ok.1 h
      obtain ⟨failFast, hfailFast, h⟩ := bind_eq_ok.1 h
      obtain ⟨level, hlevel, h⟩ := bind_eq_ok.1 h
      cases h
      exact ⟨hunknown, hchecks, hfailFast, hlevel⟩
  · rintro ⟨hunknown, hchecks, hfailFast, hlevel⟩
    rw [ofEntries, hunknown]
    dsimp only
    rw [hchecks, hfailFast, hlevel]
    rfl

/-- **The checks of a configuration stand in their own order**, none of them twice. -/
theorem sublist_all_of_ofValue {v : Value} {config : Config} (h : ofValue v = .ok config) :
    config.checks.Sublist Check.all := by
  unfold ofValue at h
  split at h
  · cases h
    exact List.Sublist.refl _
  · exact sublist_all_of_checksOf (ofEntries_eq_ok_iff.1 h).2.1
  · cases h

/-- Whether some document describes a configuration. -/
def IsAccepted (config : Config) : Prop :=
  ∃ v, ofValue v = .ok config

theorem isAccepted_default : IsAccepted .default :=
  ⟨.null, rfl⟩

/-- The checks of an accepted configuration stand in their own order. -/
theorem IsAccepted.sublist_all {config : Config} (h : config.IsAccepted) :
    config.checks.Sublist Check.all := by
  obtain ⟨v, hv⟩ := h
  exact sublist_all_of_ofValue hv

/-! ## Comparing keys -/

/-- The sorts of keys that are compared with each other. -/
inductive KeySort where
  | number
  | text
  | bytes
  | date
  /-- Dates with a time of day. -/
  | dateTime
  /-- Dates with a time of day by a clock that is a known time ahead. -/
  | zonedTime
  deriving DecidableEq

/-- The sort of a key, if it is compared with any other. -/
def keySort? : Value → Option KeySort
  | .bool _ => some .number
  | .integer _ => some .number
  | .real _ => some .number
  | .rational _ => some .number
  | .text _ => some .text
  | .brokenText _ => some .text
  | .bytes _ => some .bytes
  | .date _ => some .date
  | .dateTime _ => some .dateTime
  | .zonedTime _ => some .zonedTime
  | _ => none

/-- Whether two keys are compared with each other. -/
def Comparable (a b : Value) : Prop :=
  ∃ sort, keySort? a = some sort ∧ keySort? b = some sort

/-- Numbers are sorted with numbers, among them what is infinite or no number. -/
theorem keySort?_eq_number_iff {a : Value} :
    keySort? a = some .number ↔ (∃ p, a.number? = some p) ∨ ∃ x, a = .real x := by
  cases a <;> simp [keySort?, Value.number?]

theorem keySort?_eq_text_iff {a : Value} : keySort? a = some .text ↔ ∃ s, a.codes? = some s := by
  cases a <;> simp [keySort?, Value.codes?]

/-- The keys of any other sort are made in one way. -/
theorem exists_of_keySort? {a : Value} {sort : KeySort} (h : keySort? a = some sort) :
    match sort with
    | .number => True
    | .text => True
    | .bytes => ∃ bs, a = .bytes bs
    | .date => ∃ d, a = .date d
    | .dateTime => ∃ t, a = .dateTime t
    | .zonedTime => ∃ t, a = .zonedTime t := by
  cases a <;> simp [keySort?] at h <;> subst h <;> simp

variable {a b c : Value}

/-- Comparability depends on the sorts of two keys alone, so it is symmetric. -/
theorem Comparable.symm (h : Comparable a b) : Comparable b a := by
  obtain ⟨sort, ha, hb⟩ := h
  exact ⟨sort, hb, ha⟩

/-- Keys that can be compared with the same key can be compared with each other. -/
theorem Comparable.trans (hab : Comparable a b) (hbc : Comparable b c) : Comparable a c := by
  obtain ⟨sort, ha, hb⟩ := hab
  obtain ⟨other, hb', hc⟩ := hbc
  obtain rfl := Option.some.inj (hb.symm.trans hb')
  exact ⟨sort, ha, hc⟩

/-- Numbers are compared, if not both of them are floating point numbers, which have an order of their own. -/
theorem isSome_numberBefore?_iff (h : ∀ x y, a = .real x → b = .real y → False) :
    (keyBefore?.numberBefore? a b).isSome
      ↔ keySort? a = some .number ∧ keySort? b = some .number := by
  unfold keyBefore?.numberBefore?
  rw [keySort?_eq_number_iff, keySort?_eq_number_iff]
  split
  case h_1 hp hq => simp [hp, hq]
  case h_2 hq => simp [hq]
  case h_3 hp _ => simp [hp]
  case h_4 hnumbers hleft hright =>
    simp only [Option.isSome_none, Bool.false_eq_true, false_iff]
    rintro ⟨⟨p, hp⟩ | ⟨x, rfl⟩, ⟨q, hq⟩ | ⟨y, rfl⟩⟩
    · exact hnumbers p q hp hq
    · -- A floating point number may have no value, but then it has a place beyond all others.
      cases hy : (Value.real y).number? with
      | none => exact hright p y hp hy rfl
      | some q => exact hnumbers p q hp hy
    · cases hx : (Value.real x).number? with
      | none => exact hleft q x hx hq rfl
      | some p => exact hnumbers p q hx hq
    · exact h x y rfl rfl

/-- **Keys of one sort are compared**, and no others. -/
theorem isSome_keyBefore?_iff : (keyBefore? a b).isSome ↔ Comparable a b := by
  unfold keyBefore?
  split
  case h_1 => simp [Comparable, keySort?]
  case h_2 => simp [Comparable, keySort?]
  case h_3 => simp [Comparable, keySort?]
  case h_4 => simp [Comparable, keySort?]
  case h_5 => simp [Comparable, keySort?]
  case h_6 hbytes hdates hdateTimes hzonedTimes hreals =>
    split
    case h_1 s t hs ht =>
      simp only [Option.isSome_some, true_iff]
      exact ⟨.text, keySort?_eq_text_iff.2 ⟨s, hs⟩, keySort?_eq_text_iff.2 ⟨t, ht⟩⟩
    case h_2 htexts =>
      rw [isSome_numberBefore?_iff hreals]
      constructor
      · intro h
        exact ⟨.number, h⟩
      · rintro ⟨sort, ha, hb⟩
        -- Two keys of a sort other than the numbers would have been compared before.
        have hleft := exists_of_keySort? ha
        have hright := exists_of_keySort? hb
        cases sort with
        | number => exact ⟨ha, hb⟩
        | text =>
          obtain ⟨s, hs⟩ := keySort?_eq_text_iff.1 ha
          obtain ⟨t, ht⟩ := keySort?_eq_text_iff.1 hb
          exact (htexts s t hs ht).elim
        | bytes =>
          obtain ⟨s, rfl⟩ := hleft
          obtain ⟨t, rfl⟩ := hright
          exact (hbytes s t rfl rfl).elim
        | date =>
          obtain ⟨d, rfl⟩ := hleft
          obtain ⟨e, rfl⟩ := hright
          exact (hdates d e rfl rfl).elim
        | dateTime =>
          obtain ⟨t, rfl⟩ := hleft
          obtain ⟨u, rfl⟩ := hright
          exact (hdateTimes t u rfl rfl).elim
        | zonedTime =>
          obtain ⟨t, rfl⟩ := hleft
          obtain ⟨u, rfl⟩ := hright
          exact (hzonedTimes t u rfl rfl).elim

/-! ## The least key -/

/-- **There is a least key if all are compared with the first one.** -/
theorem isSome_leastKey?_iff (least : Value) (keys : List Value) :
    (leastKey? least keys).isSome ↔ ∀ key ∈ keys, Comparable least key := by
  induction keys generalizing least with
  | nil => simp [leastKey?]
  | cons key keys ih =>
    rw [List.forall_mem_cons, leastKey?]
    cases hbefore : keyBefore? key least with
    | none =>
      have hapart : ¬Comparable key least := by
        rw [← isSome_keyBefore?_iff, hbefore]
        exact Bool.false_ne_true
      simp only [Option.bind_eq_bind, Option.bind_none, Option.isSome_none, Bool.false_eq_true,
        false_iff]
      rintro ⟨hkey, -⟩
      exact hapart hkey.symm
    | some before =>
      have hkey : Comparable key least := by
        rw [← isSome_keyBefore?_iff, hbefore]
        rfl
      show (leastKey? (if before then key else least) keys).isSome ↔ _
      rw [ih]
      -- Whichever of the two goes on, it is compared with the same keys.
      split
      · constructor
        · intro h
          exact ⟨hkey.symm, fun other hother => hkey.symm.trans (h other hother)⟩
        · rintro ⟨-, h⟩ other hother
          exact hkey.trans (h other hother)
      · constructor
        · intro h
          exact ⟨hkey.symm, h⟩
        · exact And.right

/-- Keys that are all compared with the first one are compared with each other. -/
theorem pairwise_comparable_cons {key : Value} {keys : List Value} :
    (key :: keys).Pairwise Comparable ↔ ∀ other ∈ keys, Comparable key other := by
  rw [List.pairwise_cons, and_iff_left_of_imp]
  intro h
  apply List.pairwise_of_forall_mem_list
  intro a ha b hb
  exact (h a ha).symm.trans (h b hb)

/-! ## Faults -/

/-- Steps that are taken one after the other break off at the first one that fails. -/
theorem bind_eq_error {ε α β : Type} {x : Except ε α} {f : α → Except ε β} {e : ε} :
    x >>= f = .error e ↔ x = .error e ∨ ∃ a, x = .ok a ∧ f a = .error e := by
  cases x <;> simp [bind, Except.bind]

/-- A refusal of what stands for the checks is reported. -/
theorem fault?_ne_none_of_checksOf {v : Option Value} {e : ConfigError} (h : checksOf v = .error e) :
    e.fault? ≠ none := by
  unfold checksOf at h
  split at h
  · cases h
  · split at h
    · next items _ =>
      cases hselect : Check.select Check.ofValue? items with
      | error name =>
        rw [hselect] at h
        cases h
        simp [ConfigError.fault?]
      | ok checks =>
        rw [hselect] at h
        cases h
    · cases h
      simp [ConfigError.fault?]
  · cases h
    simp [ConfigError.fault?]

/-- A refusal of what stands for stopping at the first failure is reported. -/
theorem fault?_ne_none_of_failFastOf {v : Option Value} {e : ConfigError}
    (h : failFastOf v = .error e) : e.fault? ≠ none := by
  unfold failFastOf at h
  split at h
  · cases h
  · cases h
  · cases h
    simp [ConfigError.fault?]

/-- A refusal of what stands for the level is reported. -/
theorem fault?_ne_none_of_logLevelOf {v : Option Value} {e : ConfigError}
    (h : logLevelOf v = .error e) : e.fault? ≠ none := by
  unfold logLevelOf at h
  split at h
  · cases h
  · split at h
    · cases h
    · cases h
      simp [ConfigError.fault?]
  · cases h
    simp [ConfigError.fault?]

/-- The key that is reported of a mapping: the least one of those that are unknown. -/
def reportedKey? (entries : List (Value × Value)) : Option Value :=
  match unknownKeys entries with
  | [] => none
  | key :: keys => leastKey? key keys

/-- The faults of a mapping that have no report, or need not have one. -/
inductive Unreported (entries : List (Value × Value)) : ConfigError → Prop
  /-- Two unknown keys cannot be compared. -/
  | unordered : ¬(unknownKeys entries).Pairwise Comparable → Unreported entries .unorderedKeys
  /-- The one to report cannot be written. -/
  | unwritable {key : Value} : isSettled (unknownKeys entries) = true →
    reportedKey? entries = some key → isWritable key = false → Unreported entries .unwritableKey
  /-- Any of the unknown keys may be the one to report, because one of them is no number, and one of them cannot be
  written. -/
  | unsettled : (unknownKeys entries).Pairwise Comparable → isSettled (unknownKeys entries) = false →
    Unreported entries .unsettledKey

/-- **Which unknown keys have no report**: those that cannot all be compared, and those of which the one to report
cannot be written, or need not be one that can. -/
theorem fault?_unknownKeyError_iff {entries : List (Value × Value)} {key : Value} {keys : List Value}
    (hunknown : unknownKeys entries = key :: keys) {e : ConfigError} :
    unknownKeyError key keys = e ∧ e.fault? = none ↔ Unreported entries e := by
  have hcomparable : (unknownKeys entries).Pairwise Comparable ↔ (leastKey? key keys).isSome := by
    rw [hunknown, pairwise_comparable_cons, isSome_leastKey?_iff]
  have hreported : reportedKey? entries = leastKey? key keys := by
    rw [reportedKey?, hunknown]
  constructor
  · rintro ⟨rfl, hfault⟩
    unfold unknownKeyError at hfault ⊢
    cases hleast : leastKey? key keys with
    | none =>
      refine .unordered ?_
      rw [hcomparable, hleast]
      exact Bool.false_ne_true
    | some least =>
      rw [hleast] at hcomparable hfault hreported
      dsimp only at hfault ⊢
      split at hfault
      · next hsettled =>
        rw [if_pos hsettled]
        split at hfault
        · cases hfault
        · next hwritable =>
          rw [if_neg hwritable]
          exact .unwritable (hunknown ▸ hsettled) hreported (Bool.eq_false_iff.2 hwritable)
      · next hsettled =>
        rw [if_neg hsettled]
        exact .unsettled (hcomparable.2 rfl) (hunknown ▸ Bool.eq_false_iff.2 hsettled)
  · intro h
    unfold unknownKeyError
    cases h with
    | unordered hkeys =>
      rw [hcomparable, Option.not_isSome_iff_eq_none] at hkeys
      rw [hkeys]
      exact ⟨rfl, rfl⟩
    | unwritable hsettled hkey hwritable =>
      rw [hunknown] at hsettled
      rw [← hreported, hkey]
      dsimp only
      rw [if_pos hsettled, if_neg (Bool.eq_false_iff.1 hwritable)]
      exact ⟨rfl, rfl⟩
    | unsettled hkeys hsettled =>
      obtain ⟨least, hleast⟩ := Option.isSome_iff_exists.1 (hcomparable.1 hkeys)
      rw [hunknown] at hsettled
      rw [hleast]
      dsimp only
      rw [if_neg (Bool.eq_false_iff.1 hsettled)]
      exact ⟨rfl, rfl⟩

/-- Where all keys are known, there is nothing to report about keys. -/
theorem not_unreported_of_unknownKeys {entries : List (Value × Value)} (h : unknownKeys entries = [])
    (e : ConfigError) : ¬Unreported entries e := by
  rintro (hkeys | ⟨-, hkey, -⟩ | ⟨-, hsettled⟩)
  · rw [h] at hkeys
    exact hkeys List.Pairwise.nil
  · rw [reportedKey?, h] at hkey
    cases hkey
  · rw [h] at hsettled
    cases hsettled

/-- **A mapping has no other faults without a report.** -/
theorem ofEntries_eq_error_iff {entries : List (Value × Value)} {e : ConfigError} :
    ofEntries entries = .error e ∧ e.fault? = none ↔ Unreported entries e := by
  unfold ofEntries
  split
  · next key keys hunknown =>
    rw [Except.error.injEq]
    exact fault?_unknownKeyError_iff hunknown
  · next hunknown =>
    refine iff_of_false ?_ (not_unreported_of_unknownKeys hunknown e)
    -- The three fields are read one after the other, each with faults of its own.
    rintro ⟨h, hfault⟩
    simp only [bind_eq_error] at h
    rcases h with h | ⟨_, -, h | ⟨_, -, h | ⟨_, -, h⟩⟩⟩
    · exact fault?_ne_none_of_checksOf h hfault
    · exact fault?_ne_none_of_failFastOf h hfault
    · exact fault?_ne_none_of_logLevelOf h hfault
    · cases h

/-- **Nor has a document**: faults without a report are faults of a mapping. -/
theorem ofValue_eq_error_iff {v : Value} {e : ConfigError} :
    ofValue v = .error e ∧ e.fault? = none
      ↔ ∃ entries, v = .mapping entries ∧ Unreported entries e := by
  constructor
  · rintro ⟨h, hfault⟩
    unfold ofValue at h
    split at h
    · cases h
    · next entries => exact ⟨entries, rfl, ofEntries_eq_error_iff.1 ⟨h, hfault⟩⟩
    · obtain rfl := Except.error.inj h
      cases hfault
  · rintro ⟨entries, rfl, h⟩
    exact ofEntries_eq_error_iff.2 h

end Daybook.Config
