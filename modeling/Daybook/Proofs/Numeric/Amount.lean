import Mathlib.Data.Nat.Prime.Basic
import Mathlib.Data.Rat.Lemmas
import Daybook.Numeric.Amount
import Daybook.Proofs.Numeric.Canonical

/-!
The text of an amount is a decimal literal of its value.

Terminating decimals are the rationals whose denominator divides a power of ten (`IsTerminating`), which
means that it has no prime factor but two and five (`isTerminating_iff`). They are those for which the
number of places is found (`exists_places`), and it is the least that is enough (`places?_le`). The text of
one that is not negative is that of a literal (`exists_decimal`), and the text of a negative one has a minus
sign before that of its opposite (`toChars_of_neg`). Conversely every literal is a terminating decimal
(`isTerminating_value`). The other rationals are written as quotients of whole numbers, which are literals
too; so any amount can be read back from its text (`read?_toChars`).
-/

namespace Daybook.Amount

/-- Whether the amount has a decimal notation with finitely many places. -/
def IsTerminating (q : Rat) : Prop :=
  ∃ places : Nat, q.den ∣ 10 ^ places

/-! ## Denominators -/

/-- Factoring out splits a number into a power and what is left. -/
theorem pow_mul_factorOut (p n : Nat) : p ^ (factorOut p n).1 * (factorOut p n).2 = n := by
  fun_induction factorOut p n with
  | case1 n h ih =>
    obtain ⟨-, -, hmod⟩ := h
    rw [pow_succ, mul_right_comm, ih]
    exact Nat.div_mul_cancel (Nat.dvd_of_mod_eq_zero hmod)
  | case2 n h => rw [pow_zero, one_mul]

/-- What is left is not divisible any more. -/
theorem not_dvd_factorOut {p n : Nat} (hp : 2 ≤ p) (hn : 0 < n) : ¬ p ∣ (factorOut p n).2 := by
  fun_induction factorOut p n with
  | case1 n h ih =>
    obtain ⟨-, -, hmod⟩ := h
    exact ih (Nat.div_pos (Nat.le_of_dvd hn (Nat.dvd_of_mod_eq_zero hmod)) (by omega))
  | case2 n h =>
    intro hdvd
    exact h ⟨hp, hn, Nat.mod_eq_zero_of_dvd hdvd⟩

/-- The number of places that is found is enough. -/
theorem dvd_of_places? {denominator places : Nat} (h : places? denominator = some places) :
    denominator ∣ 10 ^ places := by
  simp only [places?] at h
  split at h
  · next hrest =>
    have htwos := pow_mul_factorOut 2 denominator
    have hfives := pow_mul_factorOut 5 (factorOut 2 denominator).2
    rw [hrest, mul_one] at hfives
    rw [← hfives] at htwos
    obtain rfl := Option.some.inj h
    have hdvd (twos fives : Nat) : 2 ^ twos * 5 ^ fives ∣ 10 ^ max twos fives := by
      rw [show (10 : Nat) = 2 * 5 from rfl, mul_pow]
      exact Nat.mul_dvd_mul (Nat.pow_dvd_pow 2 (Nat.le_max_left _ _))
        (Nat.pow_dvd_pow 5 (Nat.le_max_right _ _))
    have hplaces := hdvd (factorOut 2 denominator).1 (factorOut 5 (factorOut 2 denominator).2).1
    rwa [htwos] at hplaces
  · cases h

/-- Whether the number has no prime factor but two and five. -/
def OnlyTwosAndFives (n : Nat) : Prop :=
  ∀ p : Nat, p.Prime → p ∣ n → p = 2 ∨ p = 5

/-- Whatever divides a power of ten has no other prime factor. -/
theorem onlyTwosAndFives_of_dvd {n enough : Nat} (h : n ∣ 10 ^ enough) : OnlyTwosAndFives n := by
  intro p hp hdvd
  have hten : p ∣ 2 * 5 := hp.dvd_of_dvd_pow (hdvd.trans h)
  rcases hp.dvd_mul.1 hten with htwo | hfive
  · exact .inl ((Nat.prime_dvd_prime_iff_eq hp Nat.prime_two).1 htwo)
  · exact .inr ((Nat.prime_dvd_prime_iff_eq hp Nat.prime_five).1 hfive)

/-- A number of places is found for a denominator without other prime factors: what is left of it has no
prime factor at all. -/
theorem OnlyTwosAndFives.exists_places {denominator : Nat} (h : OnlyTwosAndFives denominator)
    (hpos : 0 < denominator) : ∃ places, places? denominator = some places := by
  have htwos := pow_mul_factorOut 2 denominator
  have hfives := pow_mul_factorOut 5 (factorOut 2 denominator).2
  have hodd : 0 < (factorOut 2 denominator).2 := by
    rcases Nat.eq_zero_or_pos (factorOut 2 denominator).2 with hzero | hpos'
    · rw [hzero, mul_zero] at htwos
      omega
    · exact hpos'
  have htwo : ¬ 2 ∣ (factorOut 2 denominator).2 := not_dvd_factorOut (by decide) hpos
  have hfive : ¬ 5 ∣ (factorOut 5 (factorOut 2 denominator).2).2 :=
    not_dvd_factorOut (by decide) hodd
  generalize hrest : (factorOut 5 (factorOut 2 denominator).2).2 = rest at hfives hfive
  have hdvdodd : rest ∣ (factorOut 2 denominator).2 := Dvd.intro_left _ hfives
  have hone : rest = 1 := by
    by_contra hne
    obtain ⟨p, hp, hprest⟩ := Nat.exists_prime_and_dvd hne
    rcases h p hp ((hprest.trans hdvdodd).trans (Dvd.intro_left _ htwos)) with rfl | rfl
    · exact htwo (hprest.trans hdvdodd)
    · exact hfive hprest
  refine ⟨max (factorOut 2 denominator).1 (factorOut 5 (factorOut 2 denominator).2).1, ?_⟩
  simp only [places?, hrest, if_pos hone]

/-- A denominator that divides a power of ten has a number of places. -/
theorem exists_places {denominator enough : Nat} (hpos : 0 < denominator)
    (h : denominator ∣ 10 ^ enough) : ∃ places, places? denominator = some places :=
  (onlyTwosAndFives_of_dvd h).exists_places hpos

/-- **Terminating decimals are the rationals whose denominators have no other prime factor.** -/
theorem isTerminating_iff {q : Rat} : IsTerminating q ↔ OnlyTwosAndFives q.den := by
  constructor
  · rintro ⟨_, hdvd⟩
    exact onlyTwosAndFives_of_dvd hdvd
  · intro h
    obtain ⟨places, hplaces⟩ := h.exists_places q.den_pos
    exact ⟨places, dvd_of_places? hplaces⟩

/-- No fewer places are enough than those that are found. -/
theorem places?_le {denominator places enough : Nat} (h : places? denominator = some places)
    (hdvd : denominator ∣ 10 ^ enough) : places ≤ enough := by
  have hpower {p r k : Nat} (hp : 1 < p) (hcoprime : p.Coprime r)
      (h : p ^ k ∣ p ^ enough * r ^ enough) : k ≤ enough :=
    (Nat.pow_dvd_pow_iff_le_right hp).1 ((hcoprime.pow k enough).dvd_of_dvd_mul_right h)
  have htwos := pow_mul_factorOut 2 denominator
  have hfives := pow_mul_factorOut 5 (factorOut 2 denominator).2
  have hten : 10 ^ enough = 2 ^ enough * 5 ^ enough := mul_pow 2 5 enough
  simp only [places?] at h
  split at h
  · obtain rfl := Option.some.inj h
    refine max_le (hpower (by decide) (by decide : Nat.Coprime 2 5) ?_)
      (hpower (by decide) (by decide : Nat.Coprime 5 2) ?_)
    · rw [← hten]
      exact (Dvd.intro _ htwos).trans hdvd
    · rw [mul_comm, ← hten]
      exact ((Dvd.intro _ hfives).trans (Dvd.intro_left _ htwos)).trans hdvd
  · cases h

/-! ## Literals -/

/-- The literal with the given number of units of its last place. -/
def literal (places units : Nat) : Decimal :=
  let digits := Numeral.pad (places + 1) (Numeral.write units)
  { negative := false
    whole := digits.take (digits.length - places)
    places := digits.drop (digits.length - places)
    whole_ne_nil := by
      have hlength : digits.length = _ := Numeral.length_pad (places + 1) (Numeral.write units)
      rw [← List.length_pos_iff, List.length_take]
      omega }

/-- A literal has the places that it was made with. -/
theorem length_places_literal (places units : Nat) :
    (literal places units).places.length = places := by
  have hlength := Numeral.length_pad (places + 1) (Numeral.write units)
  simp only [literal, List.length_drop]
  omega

/-- The value of a literal is its units over a power of ten. -/
theorem value_literal (places units : Nat) :
    (literal places units).value = mkRat units (10 ^ places) := by
  have hdigits : (literal places units).whole ++ (literal places units).places
      = Numeral.pad (places + 1) (Numeral.write units) := List.take_append_drop _ _
  have hpositive : (literal places units).negative = false := rfl
  simp only [Decimal.value, hpositive, Bool.false_eq_true, if_false]
  rw [hdigits, length_places_literal, Numeral.read_eq, Numeral.readDigits_pad,
    Numeral.readDigits_write]

/-- Nothing is taken away from digits that do not end in a zero. -/
theorem withoutZeros_eq_self {ds : Numeral} (h : ds.getLast? ≠ some 0) : withoutZeros ds = ds := by
  have hstrip : ds.rdropWhile (· = 0) = ds := by
    rw [List.rdropWhile_eq_self_iff]
    intro hne hzero
    rw [List.getLast?_eq_some_getLast hne] at h
    exact h (congrArg some (of_decide_eq_true hzero))
  exact hstrip

/-- A literal whose last place is not zero is written as the amount is: there are no zeros to strip. -/
theorem toChars_literal {places units : Nat} (h : (literal places units).places.getLast? ≠ some 0) :
    (literal places units).toChars = pointed places units := by
  have hfraction := withoutZeros_eq_self h
  simp only [literal] at hfraction
  simp only [pointed, literal, Decimal.toChars, Bool.false_eq_true, if_false, List.nil_append]
  rw [hfraction]
  split
  · next hzero =>
    have hpos := List.length_pos_iff.2 (Numeral.write_ne_nil units)
    have hpad : Numeral.pad 1 (Numeral.write units) = Numeral.write units := by
      rw [Numeral.pad, Nat.sub_eq_zero_of_le hpos]
      rfl
    subst hzero
    simp [hpad, Decimal.placesText, natText]
  · next hpos =>
    have hne : (Numeral.pad (places + 1) (Numeral.write units)).drop
        ((Numeral.pad (places + 1) (Numeral.write units)).length - places) ≠ [] := by
      have hlength := length_places_literal places units
      intro hnil
      simp only [literal, hnil, List.length_nil] at hlength
      exact hpos hlength.symm
    simp [Decimal.placesText, hne]

/-! ## Values of literals -/

/-- Reducing a fraction over a power of ten leaves a denominator that divides it. -/
theorem den_mkRat_dvd (n : Int) (places : Nat) : (mkRat n (10 ^ places)).den ∣ 10 ^ places := by
  rw [Rat.den_mkRat, if_neg (Nat.pos_iff_ne_zero.1 (Nat.pow_pos (by decide)))]
  exact Nat.div_dvd_of_dvd (Nat.gcd_dvd_left _ _)

/-- So a fraction over a power of ten terminates. -/
theorem isTerminating_mkRat (n : Int) (places : Nat) : IsTerminating (mkRat n (10 ^ places)) :=
  ⟨places, den_mkRat_dvd n places⟩

/-- A literal needs no more places than it has. -/
theorem den_value_dvd (d : Decimal) : d.value.den ∣ 10 ^ d.places.length := by
  simp only [Decimal.value]
  split
  · rw [Rat.neg_den]
    exact den_mkRat_dvd _ _
  · exact den_mkRat_dvd _ _

/-- **Every literal is a terminating decimal.** -/
theorem isTerminating_value (d : Decimal) : IsTerminating d.value :=
  ⟨d.places.length, den_value_dvd d⟩

theorem value_nonneg {d : Decimal} (h : d.negative = false) : 0 ≤ d.value := by
  simp only [Decimal.value, h, Bool.false_eq_true, if_false]
  exact Rat.mkRat_nonneg (Int.natCast_nonneg _) _

/-- A minus sign changes the sign of the value. -/
theorem value_opposite {d : Decimal} (h : d.negative = false) :
    Decimal.value { d with negative := true } = -d.value := by
  simp only [Decimal.value, h, if_true, Bool.false_eq_true, if_false]

/-! ## Texts of terminating decimals -/

/-- A literal with the places that are found does not end in a zero. Without its zeros behind the point it would need
fewer places than the denominator does. -/
theorem getLast?_places_literal {q : Rat} {places units : Nat} (hplaces : places? q.den = some places)
    (hvalue : (literal places units).value = q) : (literal places units).places.getLast? ≠ some 0 := by
  intro hlast
  have hfewer := Decimal.length_places_reduced_lt hlast
  rw [length_places_literal] at hfewer
  have hdvd := den_value_dvd (literal places units).reduced
  rw [Decimal.value_reduced, hvalue] at hdvd
  exact absurd (places?_le hplaces hdvd) (not_le.2 hfewer)

/-- The text of a terminating decimal that is not negative is that of a number of units, with the places that are
found. No zero is stripped from it. -/
theorem exists_units {q : Rat} (h : IsTerminating q) (hq : 0 ≤ q) :
    ∃ places units, places? q.den = some places ∧ (literal places units).value = q
      ∧ toChars q = (literal places units).toChars := by
  obtain ⟨_, hdvd⟩ := h
  obtain ⟨places, hplaces⟩ := exists_places q.den_pos hdvd
  obtain ⟨factor, hfactor⟩ := dvd_of_places? hplaces
  have hne : factor ≠ 0 := by
    rintro rfl
    have : 0 < 10 ^ places := Nat.pow_pos (by decide)
    omega
  have hvalue : (literal places (q.num.natAbs * factor)).value = q := by
    have hnum : (q.num.natAbs : Int) = q.num := Int.natAbs_of_nonneg (Rat.num_nonneg.2 hq)
    rw [value_literal, hfactor, Nat.cast_mul, hnum, Rat.mkRat_mul_right hne, Rat.mkRat_self]
  refine ⟨places, q.num.natAbs * factor, hplaces, hvalue, ?_⟩
  rw [toChars_literal (getLast?_places_literal hplaces hvalue)]
  simp only [toChars, hplaces, if_neg (not_lt.2 hq), List.nil_append]
  rw [hfactor, Nat.mul_div_cancel_left _ q.den_pos]

/-- **The text of a terminating decimal that is not negative is a literal of it.** -/
theorem exists_decimal {q : Rat} (h : IsTerminating q) (hq : 0 ≤ q) :
    ∃ d : Decimal, d.negative = false ∧ d.value = q ∧ toChars q = d.toChars := by
  obtain ⟨places, units, -, hvalue, htext⟩ := exists_units h hq
  exact ⟨literal places units, rfl, hvalue, htext⟩

/-- The opposite of an amount that terminates does so too. -/
theorem IsTerminating.neg {q : Rat} (h : IsTerminating q) : IsTerminating (-q) := by
  obtain ⟨places, hdvd⟩ := h
  exact ⟨places, by rwa [Rat.neg_den]⟩

/-- The text of a negative one has a minus sign before that of its opposite. -/
theorem toChars_of_neg {q : Rat} (h : IsTerminating q) (hq : q < 0) :
    toChars q = '-' :: toChars (-q) := by
  obtain ⟨_, hdvd⟩ := h
  obtain ⟨places, hplaces⟩ := exists_places q.den_pos hdvd
  have hneg : ¬ -q < 0 := by
    rw [not_lt, Left.nonneg_neg_iff]
    exact le_of_lt hq
  simp only [toChars, Rat.neg_den, hplaces, if_pos hq, if_neg hneg, Rat.neg_num, Int.natAbs_neg]
  rfl

/-! ## Reading amounts back -/

/-- The amount that a text is: the value of a literal, or the quotient of those of two. -/
def read? (cs : List Char) : Option Rat :=
  match Decimal.ofChars? cs with
  | some d => some d.value
  | none =>
    match Decimal.ofChars? (cs.takeWhile (· ≠ '/')),
        Decimal.ofChars? ((cs.dropWhile (· ≠ '/')).drop 1) with
    | some numerator, some denominator => some (numerator.value / denominator.value)
    | _, _ => none

/-- The literal of a whole number. -/
def wholeLiteral (n : Int) : Decimal where
  negative := decide (n < 0)
  whole := Numeral.write n.natAbs
  places := []
  whole_ne_nil := Numeral.write_ne_nil n.natAbs

theorem toChars_wholeLiteral (n : Int) : (wholeLiteral n).toChars = intText n := by
  rw [Decimal.toChars, wholeLiteral, intText]
  simp only [decide_eq_true_eq, Decimal.placesText, List.isEmpty_nil, if_true, List.append_nil]
  by_cases hn : n < 0
  · rw [if_pos hn, if_pos hn]
    rfl
  · rw [if_neg hn, if_neg hn]
    rfl

/-- The literal of an integer has its value. -/
theorem value_wholeLiteral (n : Int) : (wholeLiteral n).value = n := by
  have hread : Numeral.read (Numeral.write n.natAbs ++ []) = n.natAbs := by
    rw [List.append_nil, Numeral.read_eq, Numeral.readDigits_write]
  have hone : (10 : Nat) ^ ([] : Numeral).length = 1 := rfl
  simp only [Decimal.value, wholeLiteral, decide_eq_true_eq, hread, hone, Rat.mkRat_one]
  by_cases hn : n < 0
  · rw [if_pos hn, ← Int.cast_neg, Int.ofNat_natAbs_of_nonpos (le_of_lt hn), neg_neg]
  · rw [if_neg hn, Int.natAbs_of_nonneg (not_lt.1 hn)]

/-- Integers are written with characters of literals. -/
theorem isLiteralChar_of_mem_intText {n : Int} {c : Char} (h : c ∈ intText n) :
    Decimal.isLiteralChar c = true := by
  rw [← toChars_wholeLiteral] at h
  exact Decimal.isLiteralChar_of_mem h

/-- A quotient is read as one, since literals have no slash. -/
theorem read?_quotient (numerator denominator : Int) :
    read? (intText numerator ++ '/' :: intText denominator)
      = some ((numerator : Rat) / denominator) := by
  have hbefore : ∀ c ∈ intText numerator, (c ≠ '/' : Bool) = true := by
    intro c hc
    rw [decide_eq_true_eq]
    rintro rfl
    exact absurd (isLiteralChar_of_mem_intText hc) (by decide)
  have htake : (intText numerator ++ '/' :: intText denominator).takeWhile (· ≠ '/')
      = intText numerator := by
    rw [List.takeWhile_append_of_pos hbefore]
    exact List.append_nil _
  have hdrop : (intText numerator ++ '/' :: intText denominator).dropWhile (· ≠ '/')
      = '/' :: intText denominator := by
    rw [List.dropWhile_append_of_pos hbefore]
    rfl
  -- No literal has a slash, and so the text of a quotient is none.
  rw [read?, Decimal.ofChars?_of_mem (c := '/') (by decide) (by simp), htake, hdrop, List.drop_one, List.tail_cons,
    ← toChars_wholeLiteral, ← toChars_wholeLiteral, Decimal.ofChars?_toChars,
    Decimal.ofChars?_toChars]
  dsimp only
  rw [value_wholeLiteral, value_wholeLiteral]

/-- A literal is read as its value. -/
theorem read?_literal (d : Decimal) : read? d.toChars = some d.value := by
  rw [read?, Decimal.ofChars?_toChars]

/-- The text of a terminating decimal is a literal of it. -/
theorem exists_literal {q : Rat} (h : IsTerminating q) :
    ∃ d : Decimal, d.value = q ∧ toChars q = d.toChars := by
  by_cases hq : q < 0
  · -- The sign is that of the literal.
    obtain ⟨d, hsign, hvalue, htext⟩ := exists_decimal h.neg (Left.nonneg_neg_iff.2 (le_of_lt hq))
    refine ⟨{ d with negative := true }, ?_, ?_⟩
    · rw [value_opposite hsign, hvalue, neg_neg]
    · rw [toChars_of_neg h hq, htext, Decimal.toChars, Decimal.toChars, hsign]
      rfl
  · obtain ⟨d, -, hvalue, htext⟩ := exists_decimal h (not_lt.1 hq)
    exact ⟨d, hvalue, htext⟩

/-- The text of any other amount is a quotient. -/
theorem toChars_of_not_terminating {q : Rat} (h : ¬ IsTerminating q) :
    toChars q = intText q.num ++ '/' :: natText q.den := by
  cases hplaces : places? q.den with
  | some places => exact absurd ⟨places, dvd_of_places? hplaces⟩ h
  | none => rw [toChars, hplaces]

/-- The text of an amount is a literal of it, or else a quotient. -/
theorem toChars_cases (q : Rat) :
    (∃ d : Decimal, d.value = q ∧ toChars q = d.toChars)
      ∨ toChars q = intText q.num ++ '/' :: intText q.den := by
  by_cases h : IsTerminating q
  · exact .inl (exists_literal h)
  · exact .inr (toChars_of_not_terminating h)

/-- Amounts are written with characters of literals and the slash. -/
theorem isLiteralChar_of_mem_toChars {q : Rat} {c : Char} (h : c ∈ toChars q) :
    Decimal.isLiteralChar c = true ∨ c = '/' := by
  rcases toChars_cases q with ⟨d, -, htext⟩ | htext
  · rw [htext] at h
    exact .inl (Decimal.isLiteralChar_of_mem h)
  · rw [htext] at h
    rcases List.mem_append.1 h with hnumerator | hmore
    · exact .inl (isLiteralChar_of_mem_intText hnumerator)
    · rcases List.mem_cons.1 hmore with rfl | hdenominator
      · exact .inr rfl
      · exact .inl (isLiteralChar_of_mem_intText hdenominator)

/-- **An amount can be read back from its text.** -/
theorem read?_toChars (q : Rat) : read? (toChars q) = some q := by
  rcases toChars_cases q with ⟨d, hvalue, htext⟩ | htext
  · rw [htext, read?_literal, hvalue]
  · rw [htext, read?_quotient, Int.cast_natCast, Rat.num_div_den]

/-- Different amounts have different texts. -/
theorem text_injective : Function.Injective text := by
  intro a b h
  have hread := congrArg (fun s => read? s.toList) h
  simp only [text, String.toList_ofList, read?_toChars] at hread
  exact Option.some.inj hread

end Daybook.Amount
