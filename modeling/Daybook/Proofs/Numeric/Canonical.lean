import Mathlib.Algebra.Order.Field.Rat
import Mathlib.Data.List.DropRight
import Mathlib.Tactic.FieldSimp
import Mathlib.Tactic.Positivity
import Daybook.Proofs.Numeric.Decimal

/-!
Canonical literals.

A literal denotes its whole part and its places, each digit by the place where it stands (`value_eq_exact`).
Literals that look different can denote the same number, because of zeros in front of the whole part, zeros
behind the places, and a sign before a zero. A literal without these is canonical (`IsCanonical`), and then it is the
only one of its value (`IsCanonical.eq_of_value_eq`). Taking them away leaves the value as it is
(`value_reduced`), so every literal has one canonical form (`isCanonical_reduced`).
-/

namespace Daybook

namespace Numeral

/-! ## The value of each digit in its place -/

/-- The number in which every digit counts by its place. -/
def placeValue : Numeral → Nat
  | [] => 0
  | d :: ds => d.val * 10 ^ ds.length + placeValue ds

/-- Reading digits from the left gives the sum of their place values. -/
theorem readDigits_eq_placeValue (ds : Numeral) : readDigits ds = placeValue ds := by
  induction ds with
  | nil => rfl
  | cons d ds ih =>
    have hfirst : readDigits [d] = d.val := by
      simp only [readDigits, List.foldl_cons, List.foldl_nil]
      omega
    rw [placeValue, ← List.singleton_append, readDigits_append, hfirst, ih]

/-- So does reading them by halves. -/
theorem read_eq_placeValue (ds : Numeral) : read ds = placeValue ds := by
  rw [read_eq, readDigits_eq_placeValue]

/-- Digits behind others make these count for more. -/
theorem placeValue_append (ds es : Numeral) :
    placeValue (ds ++ es) = placeValue ds * 10 ^ es.length + placeValue es := by
  simp only [← readDigits_eq_placeValue, readDigits_append]

/-- The value of some digits needs no more digits than these. -/
theorem placeValue_lt (ds : Numeral) : placeValue ds < 10 ^ ds.length := by
  induction ds with
  | nil => exact Nat.one_pos
  | cons d ds ih =>
    have hdigit : d.val * 10 ^ ds.length ≤ 9 * 10 ^ ds.length :=
      Nat.mul_le_mul_right _ (Nat.le_of_lt_succ d.isLt)
    rw [placeValue, List.length_cons, pow_succ]
    omega

/-- Only zeros denote zero. -/
theorem placeValue_eq_zero_iff {ds : Numeral} : placeValue ds = 0 ↔ ∀ d ∈ ds, d = 0 := by
  induction ds with
  | nil => simp [placeValue]
  | cons d ds ih =>
    have hpow : 10 ^ ds.length ≠ 0 := Nat.pos_iff_ne_zero.1 (Nat.pow_pos (by decide))
    rw [placeValue, Nat.add_eq_zero_iff, Nat.mul_eq_zero, or_iff_left hpow, ih, List.forall_mem_cons,
      Fin.val_eq_zero_iff]

/-- A number is the high and the low part that it is put together from. -/
theorem eq_and_eq_of_mul_add_eq {high high' low low' m : Nat} (hlow : low < m) (hlow' : low' < m)
    (h : high * m + low = high' * m + low') : high = high' ∧ low = low' := by
  have hdiv (a b : Nat) (hb : b < m) : (a * m + b) / m = a := by
    rw [mul_comm, Nat.mul_add_div (Nat.zero_lt_of_lt hb), Nat.div_eq_of_lt hb, add_zero]
  have hhigh : high = high' := by rw [← hdiv high low hlow, h, hdiv high' low' hlow']
  subst hhigh
  exact ⟨rfl, Nat.add_left_cancel h⟩

/-- As many digits of the same value are the same digits. -/
theorem eq_of_placeValue_eq {ds es : Numeral} (hlength : ds.length = es.length)
    (h : placeValue ds = placeValue es) : ds = es := by
  induction ds generalizing es with
  | nil => exact (List.length_eq_zero_iff.1 hlength.symm).symm
  | cons d ds ih =>
    obtain ⟨e, es, rfl⟩ := List.exists_cons_of_length_eq_add_one hlength.symm
    obtain hlength : ds.length = es.length := Nat.succ.inj hlength
    rw [placeValue, placeValue, hlength] at h
    -- What stands behind the first digit is too small to make up for a different one.
    have hlt : placeValue ds < 10 ^ es.length := hlength ▸ placeValue_lt ds
    obtain ⟨hdigit, hrest⟩ := eq_and_eq_of_mul_add_eq hlt (placeValue_lt es) h
    rw [Fin.ext hdigit, ih hlength hrest]

/-! ## Zeros in front -/

/-- Whether no zero in front is superfluous: a zero comes first only where it is the only digit. -/
def IsCanonical (ds : Numeral) : Prop :=
  ds.head? = some 0 → ds = [0]

/-- The digits without superfluous zeros in front. -/
def trim : Numeral → Numeral
  | [] => []
  | [d] => [d]
  | d :: e :: ds => if d = 0 then trim (e :: ds) else d :: e :: ds

/-- Trimming leaves at least one digit. -/
theorem trim_ne_nil {ds : Numeral} (h : ds ≠ []) : trim ds ≠ [] := by
  fun_induction trim ds with
  | case1 => exact h
  | case2 d => exact h
  | case3 e ds ih => exact ih (List.cons_ne_nil _ _)
  | case4 d e ds hd => exact h

/-- Trimming leaves no superfluous zero in front. -/
theorem isCanonical_trim (ds : Numeral) : IsCanonical (trim ds) := by
  fun_induction trim ds with
  | case1 => rintro ⟨⟩
  | case2 d => rintro ⟨⟩; rfl
  | case3 e ds ih => exact ih
  | case4 d e ds hd => exact fun hhead => absurd (Option.some.inj hhead) hd

/-- Zeros in front do not count. -/
theorem placeValue_trim (ds : Numeral) : placeValue (trim ds) = placeValue ds := by
  fun_induction trim ds with
  | case1 => rfl
  | case2 d => rfl
  | case3 e ds ih => rw [ih, placeValue.eq_2 0, Fin.val_zero, zero_mul, zero_add]
  | case4 d e ds hd => rfl

/-- Digits without a superfluous zero are those that writing gives. -/
theorem writeDigits_readDigits {ds : Numeral} (hne : ds ≠ []) (h : IsCanonical ds) :
    writeDigits (readDigits ds) = ds := by
  induction ds using List.reverseRecOn with
  | nil => exact absurd rfl hne
  | append_singleton ds d ih =>
    rw [readDigits_concat]
    cases ds with
    | nil =>
      have hdigit : 10 * readDigits [] + d.val = d.val := Nat.zero_add _
      rw [hdigit]
      exact writeDigits_of_lt d.isLt
    | cons e ds =>
      -- The first digit is not the only one, and so it is no zero; it makes up for two digits.
      have hhead : e ≠ 0 := by
        rintro rfl
        exact absurd (h rfl) (by simp)
      have hpos : readDigits (e :: ds) ≠ 0 := by
        rw [readDigits_eq_placeValue]
        exact fun hzero => hhead (placeValue_eq_zero_iff.1 hzero e List.mem_cons_self)
      rw [writeDigits_of_le (by omega)]
      have hdiv : (10 * readDigits (e :: ds) + d.val) / 10 = readDigits (e :: ds) := by omega
      have hmod : (10 * readDigits (e :: ds) + d.val) % 10 = d.val := by omega
      simp only [hdiv, hmod, Fin.eta]
      rw [ih (List.cons_ne_nil _ _) fun hzero => absurd (Option.some.inj hzero) hhead]

/-- Numbers are written without superfluous zeros. -/
theorem isCanonical_writeDigits (n : Nat) : IsCanonical (writeDigits n) := by
  fun_induction writeDigits n with
  | case1 n h =>
    intro hhead
    exact congrArg (fun d => [d]) (Option.some.inj hhead)
  | case2 n h ih =>
    intro hhead
    -- The first digit is that of the quotient, which is at least one.
    rw [List.head?_append_of_ne_nil _ (writeDigits_ne_nil _)] at hhead
    have hzero : n / 10 = 0 := by
      rw [← readDigits_writeDigits (n / 10), ih hhead]
      rfl
    omega

theorem isCanonical_write (n : Nat) : IsCanonical (write n) := by
  rw [write_eq]
  exact isCanonical_writeDigits n

/-- **Digits without superfluous zeros are determined by their value.** -/
theorem IsCanonical.eq_of_placeValue_eq {ds es : Numeral} (hds : ds ≠ []) (hes : es ≠ [])
    (hd : IsCanonical ds) (he : IsCanonical es) (h : placeValue ds = placeValue es) : ds = es := by
  rw [← writeDigits_readDigits hds hd, ← writeDigits_readDigits hes he, readDigits_eq_placeValue,
    readDigits_eq_placeValue, h]

/-! ## Zeros behind -/

/-- Behind the last digit other than zero, each zero multiplies by ten. -/
theorem exists_rdropWhile (ds : Numeral) :
    ∃ count, ds.length = (ds.rdropWhile (· = 0)).length + count
      ∧ placeValue ds = placeValue (ds.rdropWhile (· = 0)) * 10 ^ count := by
  have hzeros : placeValue (ds.rtakeWhile (· = 0)) = 0 := by
    rw [placeValue_eq_zero_iff]
    intro d hd
    simpa using List.mem_rtakeWhile_imp hd
  have hsplit : ds.rdropWhile (· = 0) ++ ds.rtakeWhile (· = 0) = ds :=
    List.rdropWhile_append_rtakeWhile
  refine ⟨(ds.rtakeWhile (· = 0)).length, ?_, ?_⟩
  · rw [← List.length_append, hsplit]
  · conv_lhs => rw [← hsplit]
    rw [placeValue_append, hzeros, add_zero]

end Numeral

namespace Decimal

/-! ## The number that a literal is -/

/-- The number without the sign: the whole part, and the places as tenths, hundredths and so on. -/
def magnitude (d : Decimal) : Rat :=
  d.whole.placeValue + (d.places.placeValue : Rat) / 10 ^ d.places.length

/-- The number that a literal is. -/
def exact (d : Decimal) : Rat :=
  if d.negative then -d.magnitude else d.magnitude

/-- The magnitude of a literal is all its digits as one number, over a power of ten. -/
theorem mkRat_units (d : Decimal) :
    mkRat ((d.whole.placeValue * 10 ^ d.places.length + d.places.placeValue : Nat) : Int)
        (10 ^ d.places.length)
      = d.magnitude := by
  rw [Rat.mkRat_eq_div, magnitude]
  push_cast
  field_simp

/-- **The value of a literal is exact.** -/
theorem value_eq_exact (d : Decimal) : d.value = d.exact := by
  have hunits : Numeral.read (d.whole ++ d.places)
      = d.whole.placeValue * 10 ^ d.places.length + d.places.placeValue := by
    rw [Numeral.read_eq_placeValue, Numeral.placeValue_append]
  rw [value, exact, hunits, mkRat_units]

/-! ## Canonical literals -/

/-- Whether nothing in the literal is superfluous. -/
structure IsCanonical (d : Decimal) : Prop where
  /-- No zero in front. -/
  whole : d.whole.IsCanonical
  /-- No zero behind the places. -/
  places : d.places.getLast? ≠ some 0
  /-- No sign before a zero. -/
  negative : d.negative = true → ∃ digit ∈ d.whole ++ d.places, digit ≠ 0

/-- The number of units of the last place. -/
def units (d : Decimal) : Nat :=
  (d.whole ++ d.places).placeValue

theorem units_eq (d : Decimal) :
    d.units = d.whole.placeValue * 10 ^ d.places.length + d.places.placeValue :=
  Numeral.placeValue_append _ _

theorem magnitude_eq_units_div (d : Decimal) :
    d.magnitude = (d.units : Rat) / 10 ^ d.places.length := by
  rw [← mkRat_units, Rat.mkRat_eq_div, ← units_eq]
  push_cast
  rfl

/-- Magnitudes have no sign. -/
theorem magnitude_nonneg (d : Decimal) : 0 ≤ d.magnitude := by
  rw [magnitude_eq_units_div]
  positivity

/-- A magnitude is zero if all digits are. -/
theorem magnitude_eq_zero_iff {d : Decimal} :
    d.magnitude = 0 ↔ ∀ digit ∈ d.whole ++ d.places, digit = 0 := by
  have hpow : (10 : Rat) ^ d.places.length ≠ 0 := by positivity
  rw [magnitude_eq_units_div, div_eq_zero_iff, or_iff_left hpow, Nat.cast_eq_zero, units,
    Numeral.placeValue_eq_zero_iff]

/-- The magnitude of a literal is its value without sign. -/
theorem abs_value (d : Decimal) : |d.value| = d.magnitude := by
  rw [value_eq_exact, exact]
  split
  · rw [abs_neg, abs_of_nonneg d.magnitude_nonneg]
  · rw [abs_of_nonneg d.magnitude_nonneg]

/-- A literal with a value has a digit other than zero. -/
theorem exists_ne_zero {d : Decimal} (h : d.value ≠ 0) : ∃ digit ∈ d.whole ++ d.places, digit ≠ 0 := by
  by_contra! hzero
  rw [← abs_ne_zero, abs_value] at h
  exact h (magnitude_eq_zero_iff.2 hzero)

/-- A canonical literal has a sign exactly if it is less than zero. -/
theorem IsCanonical.negative_iff {d : Decimal} (h : d.IsCanonical) :
    d.negative = true ↔ d.value < 0 := by
  rw [value_eq_exact, exact]
  constructor
  · intro hsign
    have hne : d.magnitude ≠ 0 := by
      obtain ⟨digit, hmem, hdigit⟩ := h.negative hsign
      exact fun hzero => hdigit (magnitude_eq_zero_iff.1 hzero digit hmem)
    rw [if_pos hsign, neg_lt_zero]
    exact lt_of_le_of_ne d.magnitude_nonneg hne.symm
  · intro hneg
    by_contra hsign
    rw [if_neg hsign] at hneg
    exact absurd hneg (not_lt.2 d.magnitude_nonneg)

/-- The last place is the last digit of the number of units. -/
theorem getLast?_eq_zero_of_dvd {d : Decimal} (hne : d.places ≠ []) (h : 10 ∣ d.units) :
    d.places.getLast? = some 0 := by
  obtain ⟨ps, p, hplaces⟩ := (List.eq_nil_or_concat d.places).resolve_left hne
  rw [List.concat_eq_append] at hplaces
  have hp : Numeral.placeValue [p] = p.val := by simp [Numeral.placeValue]
  rw [units, hplaces, ← List.append_assoc, Numeral.placeValue_append, hp, List.length_singleton,
    pow_one] at h
  have hzero : p = 0 := Fin.ext (by simp only [Fin.val_zero]; omega)
  rw [hplaces, List.getLast?_concat, hzero]

/-- Where the last place is no zero, no fraction with fewer places has the same value. -/
theorem length_places_le {d : Decimal} (h : d.places.getLast? ≠ some 0) {units places : Nat}
    (hvalue : d.magnitude = (units : Rat) / 10 ^ places) : d.places.length ≤ places := by
  by_contra hmore
  obtain ⟨more, hlength⟩ := Nat.exists_eq_add_of_lt (not_le.1 hmore)
  have hne : d.places ≠ [] := by
    rintro hnil
    rw [hnil] at hlength
    cases hlength
  have hunits : d.units = 10 ^ (more + 1) * units := by
    rw [magnitude_eq_units_div, hlength, add_assoc, pow_add] at hvalue
    field_simp at hvalue
    exact_mod_cast hvalue
  refine h (getLast?_eq_zero_of_dvd hne ?_)
  rw [hunits]
  exact (dvd_pow_self 10 (Nat.succ_ne_zero more)).mul_right units

/-- **Canonical literals of the same value are the same.** -/
theorem IsCanonical.eq_of_value_eq {d e : Decimal} (hd : d.IsCanonical) (he : e.IsCanonical)
    (h : d.value = e.value) : d = e := by
  have hmagnitude : d.magnitude = e.magnitude := by rw [← abs_value, h, abs_value]
  have hlength : d.places.length = e.places.length :=
    le_antisymm (length_places_le hd.places (hmagnitude.trans e.magnitude_eq_units_div))
      (length_places_le he.places (hmagnitude.symm.trans d.magnitude_eq_units_div))
  have hunits : d.units = e.units := by
    have hpow : (10 : Rat) ^ e.places.length ≠ 0 := by positivity
    rw [magnitude_eq_units_div, magnitude_eq_units_div, hlength, div_left_inj' hpow] at hmagnitude
    exact Nat.cast_injective hmagnitude
  rw [units_eq, units_eq, hlength] at hunits
  obtain ⟨hwhole, hplaces⟩ := Numeral.eq_and_eq_of_mul_add_eq
    (hlength ▸ d.places.placeValue_lt) e.places.placeValue_lt hunits
  have hsign : d.negative = e.negative := by
    rw [Bool.eq_iff_iff, hd.negative_iff, he.negative_iff, h]
  obtain hwhole : d.whole = e.whole :=
    hd.whole.eq_of_placeValue_eq d.whole_ne_nil e.whole_ne_nil he.whole hwhole
  obtain hplaces : d.places = e.places := Numeral.eq_of_placeValue_eq hlength hplaces
  cases d
  cases e
  cases hsign
  cases hwhole
  cases hplaces
  rfl

/-! ## Taking away what is superfluous -/

/-- The literal without superfluous zeros, and without the sign of zero. -/
def reduced (d : Decimal) : Decimal where
  negative := d.negative && (d.whole ++ d.places).any (· ≠ 0)
  whole := d.whole.trim
  places := d.places.rdropWhile (· = 0)
  whole_ne_nil := Numeral.trim_ne_nil d.whole_ne_nil

/-- Leaving out zeros does not change the magnitude. -/
theorem magnitude_reduced (d : Decimal) : d.reduced.magnitude = d.magnitude := by
  obtain ⟨count, hlength, hvalue⟩ := d.places.exists_rdropWhile
  simp only [magnitude, reduced, Numeral.placeValue_trim]
  rw [hlength, hvalue, pow_add]
  push_cast
  field_simp

/-- **The value stays as it is.** -/
theorem value_reduced (d : Decimal) : d.reduced.value = d.value := by
  rw [value_eq_exact, value_eq_exact, exact, exact, magnitude_reduced]
  by_cases hzero : ∀ digit ∈ d.whole ++ d.places, digit = 0
  · -- Zero has the same value with and without a sign.
    rw [magnitude_eq_zero_iff.2 hzero, neg_zero, ite_self, ite_self]
  · have hany : (d.whole ++ d.places).any (· ≠ 0) = true := by
      rw [List.any_eq_true]
      simpa only [not_forall, exists_prop, decide_eq_true_eq] using hzero
    rw [reduced, hany, Bool.and_true]

/-- **Nothing superfluous is left.** -/
theorem isCanonical_reduced (d : Decimal) : d.reduced.IsCanonical where
  whole := d.whole.isCanonical_trim
  places := by
    intro hlast
    obtain ⟨hne, hzero⟩ := List.mem_getLast?_eq_getLast hlast
    exact List.rdropWhile_last_not _ _ hne (decide_eq_true hzero.symm)
  negative := by
    intro hsign
    rw [reduced, Bool.and_eq_true, List.any_eq_true] at hsign
    obtain ⟨-, digit, hmem, hdigit⟩ := hsign
    -- If only zeros were left, the literal would have been zero.
    by_contra! hzero
    rw [← magnitude_eq_zero_iff, magnitude_reduced, magnitude_eq_zero_iff] at hzero
    exact of_decide_eq_true hdigit (hzero digit hmem)

/-- Of a zero nothing is left but one digit. -/
example : (⟨true, [0, 0], [0], by decide⟩ : Decimal).reduced.text = "0" := by
  decide

/-- A zero behind the places is taken away. -/
theorem length_places_reduced_lt {d : Decimal} (h : d.places.getLast? = some 0) :
    d.reduced.places.length < d.places.length := by
  obtain ⟨ps, hplaces⟩ := List.getLast?_eq_some_iff.1 h
  rw [reduced, hplaces, List.rdropWhile_concat_pos _ _ _ (by decide), List.length_append]
  exact Nat.lt_succ_of_le (List.rdropWhile_prefix _ _).length_le

/-- A canonical literal is what is left of every literal of its value. -/
theorem IsCanonical.eq_reduced {d e : Decimal} (h : d.IsCanonical) (hvalue : d.value = e.value) :
    d = e.reduced :=
  h.eq_of_value_eq e.isCanonical_reduced (hvalue.trans e.value_reduced.symm)

end Decimal
end Daybook
