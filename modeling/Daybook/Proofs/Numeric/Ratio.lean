import Daybook.Numeric.Ratio
import Daybook.Proofs.Numeric.Canonical

/-!
Literals and quotients in lenient notation.

The lenient notation allows more than a plain literal, but what it reads of one is the same number. Its digits
may come from any script and be grouped, but digits of ASCII that stand together are one group
(`digitGroup_toChars_append`). So a plain literal is a number without an exponent (`ofChars?_toChars`), and two
whole numbers with a slash between them are a quotient (`ofChars?_quotient`). Both have their exact value
(`parse_text`, `parse_quotient`), unless a run of digits is too long (`parse_text_of_long`,
`parse_quotient_of_long`).
-/

namespace Daybook

namespace Ratio

/-! ## Groups of digits -/

/-- Whether no group of digits goes on here. -/
def EndsGroup : List Char → Prop
  | [] => True
  | c :: _ => Text.decimalDigit? c = none ∧ c ≠ '_'

/-- The digits of ASCII are among the decimal digits of all scripts. -/
theorem decimalDigit?_toChar (d : Digit) : Text.decimalDigit? d.toChar = some d := by
  revert d
  decide +kernel

theorem endsGroup_point (cs : List Char) : EndsGroup ('.' :: cs) :=
  ⟨by decide +kernel, by decide⟩

theorem endsGroup_slash (cs : List Char) : EndsGroup ('/' :: cs) :=
  ⟨by decide +kernel, by decide⟩

theorem toChar_ne_underscore (d : Digit) : d.toChar ≠ '_' := by
  revert d
  decide

/-- Digits of ASCII are one group. -/
theorem digitGroup_toChars_append (ds : Numeral) {rest : List Char} (h : EndsGroup rest) :
    digitGroup (ds.toChars ++ rest) = (ds, rest) := by
  induction ds with
  | nil =>
    rw [show Numeral.toChars [] ++ rest = rest from rfl]
    cases rest with
    | nil => rw [digitGroup]
    | cons c cs => rw [digitGroup, h.1]
  | cons d ds ih =>
    -- What comes behind the digit is a digit or the end of the group, and so no underscore.
    have hnext : ∀ c cs, Numeral.toChars ds ++ rest = '_' :: c :: cs → False := by
      intro c cs hunderscore
      cases ds with
      | nil =>
        rw [show Numeral.toChars [] ++ rest = rest from rfl] at hunderscore
        rw [hunderscore] at h
        exact h.2 rfl
      | cons e ds => exact toChar_ne_underscore e (List.cons.inj hunderscore).1
    show digitGroup (d.toChar :: (Numeral.toChars ds ++ rest)) = _
    rw [digitGroup, decimalDigit?_toChar]
    dsimp only
    -- An underscore between digits would be skipped; there is none.
    split
    · next c cs hunderscore => exact (hnext c cs hunderscore).elim
    · rw [ih]

/-- Written digits are one group, without underscores. -/
theorem digitGroup_toChars (ds : Numeral) : digitGroup ds.toChars = (ds, []) := by
  have hgroup : digitGroup (ds.toChars ++ []) = (ds, []) := digitGroup_toChars_append ds trivial
  rwa [List.append_nil] at hgroup

/-! ## Signs -/

/-- No digit is white space, so nothing is stripped from a number. -/
theorem isWideBlank_toChar (d : Digit) : Text.isWideBlank d.toChar = false := by
  revert d
  decide

theorem toChar_ne_plus (d : Digit) : d.toChar ≠ '+' := by
  revert d
  decide

/-- A text that starts with digits, or with a minus sign and digits, has no white space in front. -/
theorem sign_dropWhile (negative : Bool) {ds : Numeral} (hne : ds ≠ []) (rest : List Char) :
    sign (((if negative then ['-'] else []) ++ (ds.toChars ++ rest)).dropWhile Text.isWideBlank)
      = (negative, ds.toChars ++ rest) := by
  obtain ⟨d, ds, rfl⟩ := List.exists_cons_of_ne_nil hne
  cases negative with
  | true => rfl
  | false =>
    have hdrop : (Numeral.toChars (d :: ds) ++ rest).dropWhile Text.isWideBlank
        = d.toChar :: (Numeral.toChars ds ++ rest) := by
      show (d.toChar :: (Numeral.toChars ds ++ rest)).dropWhile _ = _
      rw [List.dropWhile_cons_of_neg (by rw [isWideBlank_toChar]; decide)]
    rw [if_neg Bool.false_ne_true, List.nil_append, hdrop, sign]
    · rfl
    · intro cs hminus
      exact d.toChar_ne_minus (List.cons.inj hminus).1
    · intro cs hplus
      exact toChar_ne_plus d (List.cons.inj hplus).1

/-- Such a text is the number that stands behind the sign, if that is all of it. -/
theorem ofChars?_of_magnitude? (negative : Bool) {ds : Numeral} (hne : ds ≠ []) {rest : List Char}
    {m : Magnitude} (h : magnitude? (ds.toChars ++ rest) = some (m, [])) :
    ofChars? ((if negative then ['-'] else []) ++ (ds.toChars ++ rest)) = some ⟨negative, m⟩ := by
  rw [ofChars?, sign_dropWhile negative hne]
  dsimp only
  rw [h]
  rfl

/-! ## Literals -/

/-- Written places are read as the fraction that they are. -/
theorem fraction_placesText (places : Numeral) : fraction (Decimal.placesText places) = (places, []) := by
  cases places with
  | nil => rfl
  | cons p ps => exact digitGroup_toChars (p :: ps)

/-- The digits of a literal and the point between them are read as such, and there is no exponent. -/
theorem magnitude?_literal {whole : Numeral} (hne : whole ≠ []) (places : Numeral) :
    magnitude? (whole.toChars ++ Decimal.placesText places)
      = some (.scaled whole places false [], []) := by
  have hends : EndsGroup (Decimal.placesText places) := by
    cases places with
    | nil => trivial
    | cons p ps => exact endsGroup_point _
  have hslash : ∀ after, Decimal.placesText places = '/' :: after → False := by
    intro after hslash
    cases places with
    | nil => cases hslash
    | cons p ps => exact absurd (List.cons.inj hslash).1 (by decide)
  rw [magnitude?, digitGroup_toChars_append whole hends]
  dsimp only
  split
  · next after hafter => exact (hslash after hafter).elim
  · rw [fraction_placesText]
    simp [hne, exponent]

/-- Two whole numbers with a slash between them are read as a quotient. -/
theorem magnitude?_quotient {ds es : Numeral} (hds : ds ≠ []) (hes : es ≠ []) :
    magnitude? (ds.toChars ++ '/' :: es.toChars) = some (.quotient ds es, []) := by
  rw [magnitude?, digitGroup_toChars_append ds (endsGroup_slash _)]
  simp [digitGroup_toChars, hds, hes]

/-- **A plain literal is a number without an exponent.** -/
theorem ofChars?_toChars (d : Decimal) :
    ofChars? d.toChars = some ⟨d.negative, .scaled d.whole d.places false []⟩ := by
  rw [Decimal.toChars, List.append_assoc]
  exact ofChars?_of_magnitude? d.negative d.whole_ne_nil (magnitude?_literal d.whole_ne_nil d.places)

/-- **Two whole numbers with a slash between them are a quotient.** -/
theorem ofChars?_quotient (negative : Bool) {ds es : Numeral} (hds : ds ≠ []) (hes : es ≠ []) :
    ofChars? ((if negative then ['-'] else []) ++ (ds.toChars ++ '/' :: es.toChars))
      = some ⟨negative, .quotient ds es⟩ :=
  ofChars?_of_magnitude? negative hds (magnitude?_quotient hds hes)

/-! ## Values -/

/-- A number has the value of its magnitude with its sign, if no run of digits is too long. -/
theorem value_of_short (negative : Bool) {m : Magnitude} {q : Rat}
    (hshort : ∀ run ∈ m.runs, run.length ≤ Numeral.digitLimit) (h : m.value = .ok q) :
    value ⟨negative, m⟩ = .ok (if negative then -q else q) := by
  have hany : m.runs.any (Numeral.digitLimit < ·.length) = false := by
    rw [List.any_eq_false]
    intro run hrun
    rw [decide_eq_true_eq]
    exact not_lt.2 (hshort run hrun)
  rw [value, hany, h]
  rfl

/-- With such a run it is refused, whatever its magnitude. -/
theorem value_of_long (negative : Bool) {m : Magnitude} {run : Numeral} (hrun : run ∈ m.runs)
    (hlong : Numeral.digitLimit < run.length) : value ⟨negative, m⟩ = .error .tooManyDigits := by
  have hany : m.runs.any (Numeral.digitLimit < ·.length) = true :=
    List.any_eq_true.2 ⟨run, hrun, decide_eq_true hlong⟩
  rw [value, if_pos hany]

/-- The whole part and the places, read apart and put together, are the literal without its sign. -/
theorem value_literal (d : Decimal) :
    Magnitude.value (.scaled d.whole d.places false []) = .ok d.magnitude := by
  have hone : 10 ^ Numeral.read [] = 1 := by
    rw [Numeral.read_eq]
    rfl
  rw [Magnitude.value, hone, if_neg Bool.false_ne_true, mul_one, Numeral.read_eq_placeValue,
    Numeral.read_eq_placeValue, Decimal.mkRat_units]

/-- **A literal has its exact value**, if neither its whole part nor its places are too many digits. -/
theorem parse_text {d : Decimal} (hwhole : d.whole.length ≤ Numeral.digitLimit)
    (hplaces : d.places.length ≤ Numeral.digitLimit) : parse d.text = .ok d.exact := by
  have hshort : ∀ run ∈ (Magnitude.scaled d.whole d.places false []).runs,
      run.length ≤ Numeral.digitLimit := by
    simp only [Magnitude.runs, List.forall_mem_cons, List.length_nil, Nat.zero_le, true_and]
    exact ⟨hwhole, hplaces, fun _ h => (List.not_mem_nil h).elim⟩
  rw [parse, Decimal.text, String.toList_ofList, ofChars?_toChars]
  dsimp only
  rw [value_of_short _ hshort (value_literal d), Decimal.exact]

/-- **A literal is refused** if one of them is too many digits. -/
theorem parse_text_of_long {d : Decimal}
    (h : Numeral.digitLimit < d.whole.length ∨ Numeral.digitLimit < d.places.length) :
    parse d.text = .error .tooManyDigits := by
  rw [parse, Decimal.text, String.toList_ofList, ofChars?_toChars]
  rcases h with hwhole | hplaces
  · exact value_of_long _ (List.mem_cons_self ..) hwhole
  · exact value_of_long _ (List.mem_cons_of_mem _ (List.mem_cons_self ..)) hplaces

/-- The text of a quotient: the sign belongs to the numerator. -/
theorem ofChars?_quotientText (n : Int) (m : Nat) :
    ofChars? (intText n ++ '/' :: natText m)
      = some ⟨n < 0, .quotient (Numeral.write n.natAbs) (Numeral.write m)⟩ := by
  have htext : intText n ++ '/' :: natText m
      = (if (n < 0 : Bool) then ['-'] else [])
        ++ ((Numeral.write n.natAbs).toChars ++ '/' :: (Numeral.write m).toChars) := by
    rw [intText, natText, natText]
    by_cases hn : n < 0
    · rw [if_pos hn, if_pos (decide_eq_true hn)]
      rfl
    · rw [if_neg hn, if_neg (by rwa [decide_eq_true_eq])]
      rfl
  rw [htext, ofChars?_quotient _ (Numeral.write_ne_nil _) (Numeral.write_ne_nil _)]

/-- **A quotient has its value**, if neither of the two numbers has too many digits. -/
theorem parse_quotient {n : Int} {m : Nat} (hm : m ≠ 0)
    (hnumerator : (Numeral.write n.natAbs).length ≤ Numeral.digitLimit)
    (hdenominator : (Numeral.write m).length ≤ Numeral.digitLimit) :
    parse (String.ofList (intText n ++ '/' :: natText m)) = .ok ((n : Rat) / m) := by
  have hshort : ∀ run ∈ (Magnitude.quotient (Numeral.write n.natAbs) (Numeral.write m)).runs,
      run.length ≤ Numeral.digitLimit := by
    simp only [Magnitude.runs, List.forall_mem_cons]
    exact ⟨hnumerator, hdenominator, fun _ h => (List.not_mem_nil h).elim⟩
  have hvalue : Magnitude.value (.quotient (Numeral.write n.natAbs) (Numeral.write m))
      = .ok (mkRat n.natAbs m) := by
    rw [Magnitude.value, Numeral.read_eq, Numeral.readDigits_write, if_neg hm, Numeral.read_eq,
      Numeral.readDigits_write]
  rw [parse, String.toList_ofList, ofChars?_quotientText]
  dsimp only
  rw [value_of_short _ hshort hvalue, Rat.mkRat_eq_div]
  by_cases hn : n < 0
  · rw [if_pos (decide_eq_true hn), Int.ofNat_natAbs_of_nonpos (le_of_lt hn), Int.cast_neg, neg_div, neg_neg]
  · rw [if_neg (by rwa [decide_eq_true_eq]), Int.natAbs_of_nonneg (not_lt.1 hn)]

/-- **A quotient is refused** if one of them has too many digits. -/
theorem parse_quotient_of_long {n : Int} {m : Nat}
    (h : Numeral.digitLimit < (Numeral.write n.natAbs).length
      ∨ Numeral.digitLimit < (Numeral.write m).length) :
    parse (String.ofList (intText n ++ '/' :: natText m)) = .error .tooManyDigits := by
  rw [parse, String.toList_ofList, ofChars?_quotientText]
  rcases h with hnumerator | hdenominator
  · exact value_of_long _ (List.mem_cons_self ..) hnumerator
  · exact value_of_long _ (List.mem_cons_of_mem _ (List.mem_cons_self ..)) hdenominator

end Ratio
end Daybook
