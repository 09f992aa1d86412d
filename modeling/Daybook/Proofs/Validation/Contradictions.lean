import Daybook.Proofs.Money.Reading
import Daybook.Proofs.Validation.Assertions

/-!
What findings say about asserted balances.

A balance sheet and an asserted balance go by what the entries of an account up to a day add to it
(`balanceOf_balanceUpTo`). Where that is not what was asserted, the finding tells both: its two texts read
back to the two amounts with the tag that was asserted. As different money has different texts, a finding
never says that it expected what it found (`balanceFindings_tellDifference`).
-/

namespace Daybook

/-- The sum of what the entries of an account up to a day add to it. -/
def Ledger.balanceUpTo (l : Ledger) (account : Account) (day : Date) : Rat :=
  sumOf (·.effect.amount) (l.entries.filter fun e => decide (e.account = account ∧ e.date ≤ day))

/-- A balance sheet counts the entries up to its date. -/
theorem BalanceSheet.balanceOf_balanceUpTo (l : Ledger) (account : Account) (day : Date) :
    (BalanceSheet.of l (some day)).balanceOf account = l.balanceUpTo account day := by
  rw [balanceOf_of, included, List.filter_filter, Ledger.balanceUpTo]
  simp only [includes, Bool.decide_and]

namespace Check

/-- Entries contradict an assertion if the balance up to its date is another one. -/
theorem contradicts_iff {l : Ledger} {v : BalanceAssertion} :
    contradicts l v = true ↔ v.amount.amount ≠ l.balanceUpTo v.account v.date := by
  rw [contradicts, decide_eq_true_iff, BalanceSheet.balanceOf_balanceUpTo]

/-- What a finding says about an asserted balance, where another one was found. -/
structure TellsDifference (f : Finding) (v : BalanceAssertion) (balance : Rat) : Prop where
  span : f.span? = some v.span
  found : Money.read? f.found = some ⟨balance, v.amount.currency⟩
  expected : Money.read? f.expected = some v.amount
  differ : f.found ≠ f.expected

/-- A finding about another balance tells that balance and the asserted one. -/
theorem tellsDifference_balance {v : BalanceAssertion} {balance : Rat} {currencies : List Currency}
    (h : v.amount.amount ≠ balance) : TellsDifference (.balance v balance currencies) v balance where
  span := rfl
  found := Money.read?_text ⟨balance, v.amount.currency⟩
  expected := Money.read?_text v.amount
  differ := by
    intro htexts
    have hmoney : (⟨balance, v.amount.currency⟩ : Money) = v.amount := Money.text_injective htexts
    exact h (congrArg Money.amount hmoney).symm

/-- **Wrong asserted balances are found, and told legibly**: for each asserted balance that is not the sum
of what the entries of its account up to its date add to it there is one finding, in the order in which they
were asserted, and no other. It is about the span of the assertion. Both of its texts have the asserted tag,
they read back to that sum and to the asserted amount, and they are not the same. -/
theorem balanceFindings_tellDifference (l : Ledger) :
    List.Forall₂ (fun f v => TellsDifference f v (l.balanceUpTo v.account v.date)) (balanceFindings l)
      (l.assertions.filter fun v => decide (v.amount.amount ≠ l.balanceUpTo v.account v.date)) := by
  have hwrong : l.assertions.filter (contradicts l)
      = l.assertions.filter fun v =>
          decide (v.amount.amount ≠ l.balanceUpTo v.account v.date) :=
    List.filter_congr fun v _ => Bool.eq_iff_iff.2 (contradicts_iff.trans decide_eq_true_iff.symm)
  rw [balanceFindings_eq_map, hwrong, List.forall₂_map_left_iff]
  apply List.forall₂_same.2
  intro v hv
  have hdiffers : v.amount.amount ≠ l.balanceUpTo v.account v.date :=
    of_decide_eq_true (List.mem_filter.1 hv).2
  rw [difference, BalanceSheet.balanceOf_balanceUpTo]
  exact tellsDifference_balance hdiffers

end Check

end Daybook
