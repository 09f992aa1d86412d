import Daybook.Numeric.Decimal
import Daybook.Proofs.Numeric.Numeral

/-!
A literal and its text.

The text of a literal is read as this literal (`takeUnsigned?_toChars_append` in front of another text,
`ofChars?_toChars` as a whole), because every digit is kept as it is written.
-/

namespace Daybook

theorem Digit.toChar_ne_minus (d : Digit) : d.toChar ≠ '-' := by
  revert d
  decide

namespace Decimal

/-- A literal without a sign is taken off the front of a text that does not go on with it. -/
theorem takeUnsigned?_toChars_append {d : Decimal} {rest : List Char} (h : d.negative = false)
    (hdigit : Numeral.NoDigit rest)
    (hpoint : d.places = [] → ∀ cs, rest = '.' :: cs → Numeral.NoDigit cs) :
    takeUnsigned? (d.toChars ++ rest) = some (d, rest) := by
  obtain ⟨negative, whole, places, hne⟩ := d
  cases h
  have hspan : Numeral.span (Numeral.toChars whole ++ (placesText places ++ rest))
      = (whole, placesText places ++ rest) := by
    apply Numeral.span_toChars_append
    cases places with
    | nil => exact hdigit
    | cons d places => exact (by decide : Digit.ofChar? '.' = none)
  have hplaces : spanPlaces (placesText places ++ rest) = (places, rest) := by
    cases places with
    | nil =>
      -- A point behind a whole number is left where it is, because no digit follows it.
      rw [show placesText [] ++ rest = rest from rfl]
      unfold spanPlaces
      split
      · next cs =>
        have hspan' : Numeral.span cs = ([], cs) :=
          Numeral.span_toChars_append [] (hpoint rfl cs rfl)
        rw [hspan']
        rfl
      · rfl
    | cons d places =>
      have hspan' : Numeral.span (Numeral.toChars (d :: places) ++ rest) = (d :: places, rest) :=
        Numeral.span_toChars_append _ hdigit
      rw [show placesText (d :: places) ++ rest
          = '.' :: (Numeral.toChars (d :: places) ++ rest) from rfl,
        spanPlaces, hspan']
      rfl
  simp only [toChars, Bool.false_eq_true, if_false, List.nil_append, List.append_assoc,
    takeUnsigned?, hspan, hplaces, dif_neg hne]

/-- A literal without sign is taken from its text as a whole. -/
theorem takeUnsigned?_toChars {d : Decimal} (h : d.negative = false) :
    takeUnsigned? d.toChars = some (d, []) := by
  have htake : takeUnsigned? (d.toChars ++ []) = some (d, []) :=
    takeUnsigned?_toChars_append h trivial (by rintro - _ ⟨⟩)
  rwa [List.append_nil] at htake

/-- **The text of a literal is read as this literal.** -/
theorem ofChars?_toChars (d : Decimal) : ofChars? d.toChars = some d := by
  obtain ⟨negative, whole, places, hne⟩ := d
  have htake := takeUnsigned?_toChars (d := ⟨false, whole, places, hne⟩) rfl
  cases negative with
  | true =>
    -- What stands behind the sign is the literal without it.
    have hminus : toChars ⟨true, whole, places, hne⟩
        = '-' :: toChars ⟨false, whole, places, hne⟩ := rfl
    rw [hminus, ofChars?, htake]
    rfl
  | false =>
    obtain ⟨first, others, rfl⟩ := List.exists_cons_of_ne_nil hne
    have hcons : toChars ⟨false, first :: others, places, hne⟩
        = first.toChar :: (Numeral.toChars others ++ placesText places) := rfl
    rw [hcons] at htake ⊢
    rw [ofChars?]
    · rw [htake]
      rfl
    · intro cs hminus
      exact first.toChar_ne_minus (List.cons.inj hminus).1

/-- Literals are told apart by their texts. -/
theorem text_injective : Function.Injective text := by
  intro d e h
  have hread := congrArg (fun s => ofChars? s.toList) h
  simp only [text, String.toList_ofList, ofChars?_toChars] at hread
  exact Option.some.inj hread

/-- Whether a character may stand in a literal: a digit, the sign, or the point. -/
def isLiteralChar (c : Char) : Bool :=
  (Digit.ofChar? c).isSome || c = '-' || c = '.'

/-- Digits are characters of literals. -/
theorem isLiteralChar_of_mem_digits {digits : Numeral} {c : Char} (h : c ∈ digits.toChars) :
    isLiteralChar c = true := by
  obtain ⟨digit, -, rfl⟩ := List.mem_map.1 h
  rw [isLiteralChar, Digit.ofChar?_toChar]
  rfl

/-- **A literal consists of such characters.** -/
theorem isLiteralChar_of_mem {d : Decimal} {c : Char} (h : c ∈ d.toChars) :
    isLiteralChar c = true := by
  rw [toChars, placesText] at h
  rcases List.mem_append.1 h with hunsigned | hplaces
  · rcases List.mem_append.1 hunsigned with hsign | hwhole
    · split at hsign
      · rw [List.mem_singleton.1 hsign]
        decide
      · cases hsign
    · exact isLiteralChar_of_mem_digits hwhole
  · split at hplaces
    · cases hplaces
    · rcases List.mem_cons.1 hplaces with rfl | hplaces
      · decide
      · exact isLiteralChar_of_mem_digits hplaces

/-- A text that is taken as a whole is the text of the literal. -/
theorem takeUnsigned?_eq_of_isEmpty {cs rest : List Char} {d : Decimal}
    (h : takeUnsigned? cs = some (d, rest)) (hrest : rest.isEmpty = true) : d.toChars = cs := by
  have hchars := (takeUnsigned?_eq_some h).1
  rwa [List.isEmpty_iff.1 hrest, List.append_nil] at hchars

/-- What is read as a literal is its text. -/
theorem toChars_of_ofChars? {cs : List Char} {d : Decimal} (h : ofChars? cs = some d) :
    d.toChars = cs := by
  unfold ofChars? at h
  split at h
  · next cs =>
    obtain ⟨⟨e, rest⟩, htake, h⟩ := Option.bind_eq_some_iff.1 h
    dsimp only at h
    split at h
    · next hrest =>
      obtain rfl := Option.some.inj h
      have hsign : e.negative = false := (takeUnsigned?_eq_some htake).2
      rw [← takeUnsigned?_eq_of_isEmpty htake hrest, toChars, toChars, hsign]
      rfl
    · cases h
  · obtain ⟨⟨e, rest⟩, htake, h⟩ := Option.bind_eq_some_iff.1 h
    dsimp only at h
    split at h
    · next hrest =>
      obtain rfl := Option.some.inj h
      exact takeUnsigned?_eq_of_isEmpty htake hrest
    · cases h

/-- A text with any other character is no literal. -/
theorem ofChars?_of_mem {cs : List Char} {c : Char} (hc : isLiteralChar c = false) (h : c ∈ cs) :
    ofChars? cs = none := by
  by_contra hsome
  obtain ⟨d, hd⟩ := Option.ne_none_iff_exists'.1 hsome
  rw [← toChars_of_ofChars? hd] at h
  rw [isLiteralChar_of_mem h] at hc
  cases hc

/-- A literal is read back as a whole. -/
theorem parse_text (d : Decimal) : Decimal.parse d.text = .ok d.value := by
  rw [Decimal.parse, ofString?, text, String.toList_ofList, ofChars?_toChars]

end Decimal

end Daybook
