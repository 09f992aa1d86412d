import Daybook.Money.Exact
import Daybook.Proofs.Numeric.Amount
import Daybook.Proofs.Numeric.Ratio
import Daybook.Proofs.Syntax.Rules

/-!
Texts of exact amounts, and the amounts that texts are.

A terminating decimal is written as its canonical literal (`exists_canonical`): nothing is stripped from its text,
because there are only as many places as its denominator needs. Hence writing the value of any literal takes away
what is superfluous in it (`text_value`). The other amounts are written as quotients of canonical whole numbers in
lowest terms (`isQuotient`). Read as amounts, texts give back what was written, up to the number of digits
that the lenient notation accepts in a quotient (`text_canonical_and_lossless`). Plain literals (`Decimal.IsPlain`)
are not subject to that bound, and within it the lenient notation gives them the same value
(`plain_and_lenient_agree`).
-/

namespace Daybook

/-! ## Plain literals -/

/-- Whether the text is a plain literal: digits, and perhaps a point and more digits, with or without a minus
sign in front. -/
def Decimal.IsPlain (s : String) : Prop :=
  Token.Kind.number.Matches s.toList ∨ ∃ cs, s.toList = '-' :: cs ∧ Token.Kind.number.Matches cs

/-- The plain literals are the texts of literals. -/
theorem Decimal.isPlain_iff {s : String} : IsPlain s ↔ ∃ d : Decimal, d.text = s := by
  constructor
  · rintro (hmatches | ⟨cs, hminus, hmatches⟩)
    · obtain ⟨d, -, hchars⟩ := exists_of_matches hmatches
      exact ⟨d, by rw [text, hchars, String.ofList_toList]⟩
    · obtain ⟨d, hsign, hchars⟩ := exists_of_matches hmatches
      refine ⟨{ d with negative := true }, ?_⟩
      rw [text, ← String.ofList_toList (s := s), hminus, ← hchars, toChars, toChars, hsign]
      rfl
  · rintro ⟨⟨negative, whole, places, hne⟩, rfl⟩
    have hmatches := matches_toChars (d := ⟨false, whole, places, hne⟩) rfl
    rw [IsPlain, text, String.toList_ofList]
    cases negative with
    | false => exact .inl hmatches
    | true => exact .inr ⟨_, rfl, hmatches⟩

namespace Amount

/-! ## Texts of terminating decimals -/

/-- The whole part of the text starts with a zero only where it has no other digit. -/
theorem isCanonical_whole_literal (places units : Nat) :
    (literal places units).whole.IsCanonical := by
  intro hhead
  have hdigits : (literal places units).whole ++ (literal places units).places
      = Numeral.pad (places + 1) (Numeral.write units) := List.take_append_drop _ _
  by_cases hshort : (Numeral.write units).length ≤ places + 1
  · -- There is no more than one digit in front of the places.
    have hlength : (literal places units).whole.length = 1 := by
      have hcount := congrArg List.length hdigits
      rw [List.length_append, length_places_literal, Numeral.length_pad, max_eq_left hshort] at hcount
      omega
    obtain ⟨d, hd⟩ := List.length_eq_one_iff.1 hlength
    rw [hd] at hhead ⊢
    rw [Option.some.inj hhead]
  · -- No zeros are put in front, and so the digits are those of a number.
    have hpad : Numeral.pad (places + 1) (Numeral.write units) = Numeral.write units := by
      rw [Numeral.pad, Nat.sub_eq_zero_of_le (by omega)]
      rfl
    have hfirst : (Numeral.write units).head? = some 0 := by
      rw [← hpad, ← hdigits, List.head?_append_of_ne_nil _ (literal places units).whole_ne_nil, hhead]
    rw [Numeral.isCanonical_write units hfirst, List.length_singleton] at hshort
    omega

/-- A literal with the places that are found has no zeros behind them. -/
theorem isCanonical_literal {q : Rat} {places units : Nat} (hplaces : places? q.den = some places)
    (hvalue : (literal places units).value = q) : (literal places units).IsCanonical where
  whole := isCanonical_whole_literal places units
  places := getLast?_places_literal hplaces hvalue
  negative := by rintro ⟨⟩

/-- **Every terminating decimal is written as a canonical literal of it.** -/
theorem exists_canonical {q : Rat} (h : IsTerminating q) :
    ∃ d : Decimal, d.IsCanonical ∧ d.value = q ∧ toChars q = d.toChars := by
  by_cases hq : q < 0
  · obtain ⟨places, units, hplaces, hvalue, htext⟩ :=
      exists_units h.neg (Left.nonneg_neg_iff.2 (le_of_lt hq))
    have hcanonical := isCanonical_literal hplaces hvalue
    have hopposite := value_opposite (d := literal places units) rfl
    rw [hvalue, neg_neg] at hopposite
    refine ⟨{ literal places units with negative := true }, ?_, hopposite, ?_⟩
    · exact ⟨hcanonical.whole, hcanonical.places,
        fun _ => Decimal.exists_ne_zero (hopposite.trans_ne (ne_of_lt hq))⟩
    · rw [toChars_of_neg h hq, htext]
      rfl
  · obtain ⟨places, units, hplaces, hvalue, htext⟩ := exists_units h (not_lt.1 hq)
    exact ⟨literal places units, isCanonical_literal hplaces hvalue, hvalue, htext⟩

/-- **Writing the value of a literal takes away what is superfluous in it.** -/
theorem text_value (d : Decimal) : text d.value = d.reduced.text := by
  obtain ⟨c, hcanonical, hvalue, htext⟩ := exists_canonical (isTerminating_value d)
  rw [text, htext, hcanonical.eq_reduced hvalue, Decimal.text]

/-! ## Texts of quotients -/

/-- An integer is written without superfluous zeros, and zero without a sign. -/
theorem isCanonical_wholeLiteral (n : Int) : (wholeLiteral n).IsCanonical where
  whole := Numeral.isCanonical_write _
  places := by rintro ⟨⟩
  negative := by
    intro hsign
    refine Decimal.exists_ne_zero ?_
    rw [value_wholeLiteral]
    exact_mod_cast ne_of_lt (of_decide_eq_true hsign)

/-- The text is a quotient of canonical whole numbers, and it is in lowest terms: the two numbers are the numerator
and the denominator of the amount. -/
structure IsQuotient (q : Rat) (numerator denominator : Decimal) : Prop where
  text_eq : text q = numerator.text ++ "/" ++ denominator.text
  canonical : numerator.IsCanonical ∧ denominator.IsCanonical
  isInteger : numerator.isInteger = true ∧ denominator.isInteger = true
  numerator_eq : numerator.value = q.num
  denominator_eq : denominator.value = q.den
  lowest : q.num.natAbs.Coprime q.den

/-- **Any other amount is written as a quotient in lowest terms.** -/
theorem isQuotient {q : Rat} (h : ¬ IsTerminating q) :
    IsQuotient q (wholeLiteral q.num) (wholeLiteral q.den) where
  text_eq := by
    rw [text, toChars_of_not_terminating h, Decimal.text, Decimal.text, toChars_wholeLiteral,
      toChars_wholeLiteral, ← String.toList_inj]
    simp only [String.toList_append, String.toList_ofList, List.append_assoc]
    rfl
  canonical := ⟨isCanonical_wholeLiteral _, isCanonical_wholeLiteral _⟩
  isInteger := ⟨rfl, rfl⟩
  numerator_eq := value_wholeLiteral _
  denominator_eq := value_wholeLiteral _
  lowest := q.reduced

/-- A quotient is no literal, and so it is read in lenient notation. -/
theorem ofText_text_of_not_terminating {q : Rat} (h : ¬ IsTerminating q) :
    ofText (text q) = Ratio.parse (String.ofList (intText q.num ++ '/' :: natText q.den)) := by
  rw [text, toChars_of_not_terminating h, ofText, Decimal.ofString?, String.toList_ofList,
    Decimal.ofChars?_of_mem (c := '/') (by decide) (by simp)]

/-! ## Amounts of texts -/

/-- **A literal is the amount that it denotes, however long it is.** -/
theorem ofValue_literal (d : Decimal) : ofValue (.text d.text) = .ok d.value := by
  rw [ofValue, ofText, Decimal.ofString?, Decimal.text, String.toList_ofList, Decimal.ofChars?_toChars]
  rfl

/-- **The text of an amount is canonical, and it is read as this amount**: terminating decimals as canonical literals,
other amounts as quotients in lowest terms, as long as neither of the two numbers has too many digits. Conversely
the value of a literal is written as what is left of it without superfluous zeros and the sign of zero. -/
theorem text_canonical_and_lossless :
    (∀ q : Rat, OnlyTwosAndFives q.den →
      ∃ d : Decimal, d.IsCanonical ∧ text q = d.text ∧ Decimal.parse (text q) = .ok q)
    ∧ (∀ q : Rat, ¬ OnlyTwosAndFives q.den →
      ∃ numerator denominator : Decimal, IsQuotient q numerator denominator
        ∧ (numerator.whole.length ≤ Numeral.digitLimit
            ∧ denominator.whole.length ≤ Numeral.digitLimit →
          ofValue (.text (text q)) = .ok q)
        ∧ (Numeral.digitLimit < numerator.whole.length
            ∨ Numeral.digitLimit < denominator.whole.length →
          ofValue (.text (text q)) = .error (.text .tooManyDigits)))
    ∧ (∀ s : String, Decimal.IsPlain s →
      ∃ (d : Decimal) (q : Rat), d.text = s ∧ Decimal.parse s = .ok q ∧ text q = d.reduced.text)
    ∧ Function.Injective text := by
  refine ⟨?_, ?_, ?_, text_injective⟩
  · intro q h
    obtain ⟨d, hcanonical, hvalue, htext⟩ := exists_canonical (isTerminating_iff.2 h)
    have hdtext : text q = d.text := congrArg String.ofList htext
    exact ⟨d, hcanonical, hdtext, by rw [hdtext, Decimal.parse_text, hvalue]⟩
  · intro q h
    rw [← isTerminating_iff] at h
    refine ⟨_, _, isQuotient h, ?_, ?_⟩
    · rintro ⟨hnumerator, hdenominator⟩
      rw [ofValue, ofText_text_of_not_terminating h,
        Ratio.parse_quotient q.den_nz hnumerator hdenominator, Rat.num_div_den]
      rfl
    · intro hlong
      rw [ofValue, ofText_text_of_not_terminating h,
        Ratio.parse_quotient_of_long (n := q.num) (m := q.den) hlong]
      rfl
  · intro s hs
    obtain ⟨d, rfl⟩ := Decimal.isPlain_iff.1 hs
    exact ⟨d, d.value, rfl, d.parse_text, text_value d⟩

/-- A literal with superfluous zeros on both sides. -/
def padded : Decimal :=
  ⟨true, [0, 0, 7], [5, 0], by decide⟩

theorem text_padded : padded.text = "-007.50" := by
  decide

theorem isPlain_padded : Decimal.IsPlain "-007.50" :=
  Decimal.isPlain_iff.2 ⟨padded, text_padded⟩

/-- A fraction that terminates, one that does not, and a literal with zeros to leave out. -/
theorem text_canonical_and_lossless_samples :
    (∃ d : Decimal, d.IsCanonical ∧ text (-5 / 4) = d.text
      ∧ Decimal.parse (text (-5 / 4)) = .ok (-5 / 4))
    ∧ ofValue (.text (text (1 / 3))) = .ok (1 / 3)
    ∧ ∃ q : Rat, Decimal.parse "-007.50" = .ok q ∧ text q = "-7.5" := by
  obtain ⟨hterminating, hquotient, hliteral, -⟩ := text_canonical_and_lossless
  refine ⟨hterminating _ ?_, ?_, ?_⟩
  · rw [show (-5 / 4 : Rat).den = 4 by decide +kernel]
    exact onlyTwosAndFives_of_dvd (show 4 ∣ 10 ^ 2 by decide)
  · have hthree : (1 / 3 : Rat).num = 1 ∧ (1 / 3 : Rat).den = 3 := by decide +kernel
    obtain ⟨n, d, hquotient, hread, -⟩ := hquotient (1 / 3) fun h => by
      rw [hthree.2] at h
      exact absurd (h 3 Nat.prime_three (dvd_refl 3)) (by decide)
    obtain rfl : n = wholeLiteral 1 := hquotient.canonical.1.eq_of_value_eq
      (isCanonical_wholeLiteral 1) (by rw [hquotient.numerator_eq, hthree.1, value_wholeLiteral])
    obtain rfl : d = wholeLiteral 3 := hquotient.canonical.2.eq_of_value_eq
      (isCanonical_wholeLiteral 3) (by rw [hquotient.denominator_eq, hthree.2, value_wholeLiteral]; rfl)
    have hone (k : Nat) (hk : k < 10) : (Numeral.write k).length ≤ Numeral.digitLimit := by
      rw [Numeral.write_eq, Numeral.writeDigits_of_lt hk]
      exact (by decide : 1 ≤ Numeral.digitLimit)
    exact hread ⟨hone 1 (by decide), hone 3 (by decide)⟩
  · obtain ⟨d, q, htext, hparse, hreduced⟩ := hliteral _ isPlain_padded
    obtain rfl : d = padded := Decimal.text_injective (htext.trans text_padded.symm)
    exact ⟨q, hparse, hreduced.trans (by decide)⟩

/-- **A plain literal means the same in both notations**: the amount is what it denotes, and so is what the lenient
notation reads of it, unless it has too many digits for that. -/
theorem plain_and_lenient_agree {s : String} (h : Decimal.IsPlain s) :
    ∃ d : Decimal, d.text = s
      ∧ Decimal.parse s = .ok d.exact
      ∧ ofValue (.text s) = .ok d.exact
      ∧ (d.whole.length ≤ Numeral.digitLimit ∧ d.places.length ≤ Numeral.digitLimit →
        Ratio.parse s = .ok d.exact)
      ∧ (Numeral.digitLimit < d.whole.length ∨ Numeral.digitLimit < d.places.length →
        Ratio.parse s = .error .tooManyDigits) := by
  obtain ⟨d, rfl⟩ := Decimal.isPlain_iff.1 h
  refine ⟨d, rfl, ?_, ?_, fun hshort => Ratio.parse_text hshort.1 hshort.2, Ratio.parse_text_of_long⟩
  · rw [Decimal.parse_text, Decimal.value_eq_exact]
  · rw [ofValue_literal, Decimal.value_eq_exact]

/-- A literal with zeros in front and at the end is read in both ways. -/
theorem plain_and_lenient_agree_padded :
    Decimal.IsPlain "-007.50" ∧ ofValue (.text "-007.50") = .ok (-15 / 2)
      ∧ Ratio.parse "-007.50" = .ok (-15 / 2) := by
  obtain ⟨d, htext, -, hvalue, hlenient, -⟩ := plain_and_lenient_agree isPlain_padded
  obtain rfl : d = padded := Decimal.text_injective (htext.trans text_padded.symm)
  have hexact : padded.exact = -15 / 2 := by decide +kernel
  rw [hexact] at hvalue hlenient
  exact ⟨isPlain_padded, hvalue, hlenient ⟨by decide, by decide⟩⟩

end Amount
end Daybook
