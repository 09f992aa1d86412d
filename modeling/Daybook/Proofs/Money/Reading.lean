import Daybook.Money.Basic
import Daybook.Proofs.Numeric.Amount
import Daybook.Proofs.Syntax.Cutting
import Daybook.Proofs.Text.Words

/-!
Reading money back from its text.

The text of money is that of its amount, a space, and the tag. No amount has a space in its text, so the first
space is the one between the two (`read?_text`). Hence different money has different texts, even where the tag
is the same (`text_injective`).
-/

namespace Daybook

open Text

/-- The text of an amount is a word. -/
theorem Amount.isWord_text (q : Rat) : IsWord (Amount.text q) where
  ne_empty := by
    intro hempty
    have hread := Amount.read?_toChars q
    rw [Amount.text, String.ofList_eq_empty_iff] at hempty
    rw [hempty] at hread
    cases hread
  visible := by
    intro c hc
    rw [Amount.text, String.toList_ofList] at hc
    rcases Amount.isLiteralChar_of_mem_toChars hc with hliteral | rfl
    · rw [Decimal.isLiteralChar, Bool.or_eq_true, Bool.or_eq_true, decide_eq_true_eq,
        decide_eq_true_eq] at hliteral
      rcases hliteral with (hdigit | rfl) | rfl
      · have hvisible : ∀ d : Digit, isVisible d.toChar = true := by decide
        obtain ⟨d, hd⟩ := Option.isSome_iff_exists.1 hdigit
        rw [← Digit.toChar_of_ofChar? hd]
        exact hvisible d
      · decide
      · decide
    · decide

/-- A tag is a word. -/
theorem Currency.isWord_code (c : Currency) : IsWord c.code where
  ne_empty := by
    intro hempty
    have hcode := c.isCode
    rw [hempty] at hcode
    cases hcode
  visible := by
    intro d hd
    have hcode := c.isCode
    rw [isCurrencyCode, Bool.and_eq_true, List.all_eq_true] at hcode
    have hupper := Token.isUpper_iff.1 (hcode.2 d hd)
    rw [isVisible, Bool.and_eq_true, decide_eq_true_eq, decide_eq_true_eq]
    omega

namespace Money

/-- The money that a text is: the amount in front of the first space, and the tag behind it. -/
def read? (s : String) : Option Money := do
  let amount ← Amount.read? (s.toList.takeWhile (· ≠ ' '))
  let currency ← (Currency.of? (String.ofList ((s.toList.dropWhile (· ≠ ' ')).drop 1))).toOption
  return ⟨amount, currency⟩

/-- An amount of money is written with one space before its currency. -/
theorem toList_text (m : Money) :
    m.text.toList = Amount.toChars m.amount ++ ' ' :: m.currency.code.toList := by
  rw [text, Amount.text, String.toList_append, String.toList_append, String.toList_ofList,
    List.append_assoc]
  rfl

theorem ne_space_of_mem {q : Rat} {c : Char} (h : c ∈ Amount.toChars q) :
    (c ≠ ' ' : Bool) = true := by
  rw [decide_eq_true_eq]
  rintro rfl
  refine (Amount.isWord_text q).not_mem (c := ' ') (by decide) ?_
  rwa [Amount.text, String.toList_ofList]

/-- **Money can be read back from its text.** -/
theorem read?_text (m : Money) : read? m.text = some m := by
  have hamount : m.text.toList.takeWhile (· ≠ ' ') = Amount.toChars m.amount := by
    rw [toList_text, List.takeWhile_append_of_pos fun _ => ne_space_of_mem]
    exact List.append_nil _
  have htag : (m.text.toList.dropWhile (· ≠ ' ')).drop 1 = m.currency.code.toList := by
    rw [toList_text, List.dropWhile_append_of_pos fun _ => ne_space_of_mem]
    rfl
  have hcurrency : Currency.of? m.currency.code = .ok m.currency := dif_pos m.currency.isCode
  rw [read?, hamount, htag, Amount.read?_toChars, String.ofList_toList, hcurrency]
  rfl

/-- Different money has different texts. -/
theorem text_injective : Function.Injective text := by
  intro a b h
  have hread := congrArg read? h
  rw [read?_text, read?_text] at hread
  exact Option.some.inj hread

end Money

end Daybook
