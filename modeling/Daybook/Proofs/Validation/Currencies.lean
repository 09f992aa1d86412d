import Daybook.Log.Narration
import Daybook.Proofs.Account.Order
import Daybook.Proofs.Validation.Assertions

/-!
Which currencies are named where an asserted balance is compared.

A balance is a sum over amounts of all currencies. Where there are several of them a warning is logged, and a
finding names them. The sum goes over the entries up to the date of the assertion (`IsCompared`). The tags
are those of the timeline, which has the entries of later dates too (`IsInvolved`). So no tag that was summed
is left out, but the tag of a later entry is named even if nothing with that tag was summed
(`names_compared_iff`, `exchangedLedger`).
-/

namespace Daybook.Check

open Parsed (sampleDay cash brl)

/-! ## What is said -/

/-- What the details of a wrong asserted balance start with. -/
def differenceText (v : BalanceAssertion) : String :=
  "The balance of " ++ v.account.path ++ " including every transaction up to " ++ v.date.iso
    ++ " differs from the asserted amount."

/-- The sentence that names currencies. -/
def mixtureText (tags : List Currency) : String :=
  " Amounts in " ++ String.intercalate ", " (tags.map (·.code))
    ++ " were summed together without conversion."

/-- The warnings that are logged for an asserted balance. -/
def assertionWarnings (l : Ledger) (v : BalanceAssertion) : List Action :=
  mixedWarning ("account", .text v.account.path)
    (comparedCurrencies (timelineOf (assertedTimelines l) v.account) v)

/-- The check of balances logs them for one asserted balance after the other. -/
theorem warnings_balances (l : Ledger) :
    Check.balances.warnings l = l.assertions.flatMap (assertionWarnings l) := rfl

/-- What is logged and told about an asserted balance names the tags, if they are at least two, and otherwise
none. -/
structure Mentions (l : Ledger) (v : BalanceAssertion) (tags : List Currency) : Prop where
  logged : assertionWarnings l v
    = if 2 ≤ tags.length then
        [ report .warning "validation.checks" "mixed_currency_aggregation"
          [("account", .text v.account.path), ("currencies", .list (tags.map (.text ·.code)))] ]
      else []
  told : ∀ f ∈ balanceFindings l, f.assertion? = some v →
    f.details = differenceText v ++ if 2 ≤ tags.length then mixtureText tags else ""

/-- What is said is about the currencies with a property, each once and in the order of codes. -/
def Names (l : Ledger) (v : BalanceAssertion) (P : Currency → Prop) : Prop :=
  ∃ tags : List Currency, (tags.Pairwise fun a b => a.code < b.code) ∧ (∀ c, c ∈ tags ↔ P c)
    ∧ Mentions l v tags

variable {l : Ledger} {v : BalanceAssertion}

/-- What is logged and told of an assertion mentions the currencies that the comparison names. -/
theorem mentions_comparedCurrencies (h : v ∈ l.assertions) :
    Mentions l v (comparedCurrencies (Timeline.of v.account l.entries) v) where
  logged := by
    rw [assertionWarnings, timelineOf_asserted h, mixedWarning]
    simp only [← not_lt, ite_not]
    rfl
  told f hf hv := by
    rw [balanceFindings_eq_map] at hf
    obtain ⟨w, -, rfl⟩ := List.mem_map.1 hf
    obtain rfl : w = v := Option.some.inj hv
    simp only [← not_lt, ite_not]
    rfl

/-- Two different currencies make a list of at least two. -/
theorem two_le_length {tags : List Currency} {a b : Currency} (ha : a ∈ tags) (hb : b ∈ tags)
    (hne : a ≠ b) : 2 ≤ tags.length := by
  cases tags with
  | nil => exact absurd ha List.not_mem_nil
  | cons first rest =>
    cases rest with
    | nil =>
      rw [List.mem_singleton] at ha hb
      exact absurd (ha.trans hb.symm) hne
    | cons => exact Nat.le_add_left 2 _

/-- The warning tells which tags it is about. -/
theorem Mentions.eq {tags others : List Currency} (h : Mentions l v tags)
    (hothers : Mentions l v others) (htwo : 2 ≤ tags.length) : tags = others := by
  have hlogged := h.logged.symm.trans hothers.logged
  rw [if_pos htwo] at hlogged
  by_cases hlength : 2 ≤ others.length
  · rw [if_pos hlength] at hlogged
    have hinjective : Function.Injective fun c : Currency => Value.text c.code := by
      intro a b hcode
      exact Currency.code_injective (Value.text.inj hcode)
    simp only [report, List.cons.injEq, Action.emit.injEq, LogEvent.mk.injEq, Prod.mk.injEq,
      Value.list.injEq, true_and, and_true] at hlogged
    exact List.map_injective_iff.2 hinjective hlogged
  · rw [if_neg hlength] at hlogged
    cases hlogged

/-! ## What is summed -/

/-- A currency is compared if an entry of the account up to the date has it, or the asserted amount. -/
def IsCompared (l : Ledger) (v : BalanceAssertion) (c : Currency) : Prop :=
  c = v.amount.currency
    ∨ ∃ e ∈ l.entries, e.account = v.account ∧ e.date ≤ v.date ∧ e.amount.currency = c

/-- A currency is involved if any entry of the account has it, or the asserted amount. -/
def IsInvolved (l : Ledger) (v : BalanceAssertion) (c : Currency) : Prop :=
  c = v.amount.currency ∨ ∃ e ∈ l.entries, e.account = v.account ∧ e.amount.currency = c

/-- A currency that is compared is involved. -/
theorem IsCompared.isInvolved {c : Currency} (h : IsCompared l v c) : IsInvolved l v c := by
  rcases h with h | ⟨e, he, haccount, -, hcurrency⟩
  · exact .inl h
  · exact .inr ⟨e, he, haccount, hcurrency⟩

/-- The currencies that are named are the ones involved, on whatever date. -/
theorem mem_comparedCurrencies {c : Currency} :
    c ∈ comparedCurrencies (Timeline.of v.account l.entries) v ↔ IsInvolved l v c := by
  rw [comparedCurrencies, Currency.mem_sorted, List.mem_append, List.mem_singleton, or_comm]
  apply or_congr_right
  rw [Timeline.of, Currency.mem_sorted, List.mem_map]
  simp only [List.mem_filter, decide_eq_true_iff, and_assoc]

/-- What is said names the currencies that are involved. -/
theorem names_involved (h : v ∈ l.assertions) : Names l v (IsInvolved l v) :=
  ⟨_, Currency.pairwise_sorted _, fun _ => mem_comparedCurrencies, mentions_comparedCurrencies h⟩

/-- What is said names the compared currencies if no other one is involved, and only then. -/
theorem names_compared_iff_involved (h : v ∈ l.assertions) :
    Names l v (IsCompared l v) ↔ ∀ c, IsInvolved l v c → IsCompared l v c := by
  obtain ⟨involved, hsorted, hinvolved, hmentions⟩ := names_involved h
  constructor
  · rintro ⟨compared, -, hcompared, hsaid⟩ c hc
    by_contra hnot
    -- The asserted tag is compared and `c` is not, so both are named.
    have hasserted : IsCompared l v v.amount.currency := .inl rfl
    have hne : c ≠ v.amount.currency := by
      rintro rfl
      exact hnot hasserted
    have htwo : 2 ≤ involved.length :=
      two_le_length ((hinvolved c).2 hc) ((hinvolved _).2 hasserted.isInvolved) hne
    have heq : involved = compared := hmentions.eq hsaid htwo
    rw [← hcompared, ← heq, hinvolved] at hnot
    exact hnot hc
  · intro hall
    refine ⟨involved, hsorted, fun c => ?_, hmentions⟩
    rw [hinvolved]
    exact ⟨hall c, IsCompared.isInvolved⟩

/-- Only a later entry can have a tag that is involved and not compared. -/
theorem involved_imp_compared_iff :
    (∀ c, IsInvolved l v c → IsCompared l v c)
      ↔ ∀ e ∈ l.entries, e.account = v.account → v.date < e.date →
          IsCompared l v e.amount.currency := by
  constructor
  · intro hall e he haccount _
    exact hall _ (.inr ⟨e, he, haccount, rfl⟩)
  · rintro hlater c (hc | ⟨e, he, haccount, rfl⟩)
    · exact .inl hc
    · rcases Nat.lt_or_ge v.date.key e.date.key with hlt | hle
      · exact hlater e he haccount hlt
      · exact .inr ⟨e, he, haccount, hle, rfl⟩

/-- **The note on mixed currencies names the tags of all dates**: for an asserted balance the warning and the
details of a finding name the tags of the asserted amount and of every entry of the account, if these are at
least two, and none otherwise. So they name the tags of what was summed just when no later entry of the
account has a tag of its own. -/
theorem names_compared_iff (h : v ∈ l.assertions) :
    Names l v (IsInvolved l v)
    ∧ (Names l v (IsCompared l v)
        ↔ ∀ e ∈ l.entries, e.account = v.account → v.date < e.date →
            IsCompared l v e.amount.currency) :=
  ⟨names_involved h, (names_compared_iff_involved h).trans involved_imp_compared_iff⟩

/-! ## An account that changes its currency -/

/-- The currency `USD`. -/
def usd : Currency := ⟨"USD", by decide⟩

/-- Wrong balances of cash are asserted. -/
def earlyAssertion : BalanceAssertion := ⟨3, cash, sampleDay, ⟨99, brl⟩, .point 0⟩

def lateAssertion : BalanceAssertion := ⟨4, cash, nextMonth, ⟨99, brl⟩, .point 0⟩

/-- Cash in one currency, and a month later in another one. -/
def exchangedLedger : Ledger where
  entries :=
    [ ⟨1, sampleDay, "", .debit, cash, ⟨10, brl⟩, .point 0, none⟩,
      ⟨2, nextMonth, "", .debit, cash, ⟨5, usd⟩, .point 0, none⟩ ]
  assertions := [earlyAssertion, lateAssertion]

/-- The early assertion names a currency that is used only later; for the late one no currency is. -/
theorem names_compared_iff_exchanged :
    Names exchangedLedger earlyAssertion (IsInvolved exchangedLedger earlyAssertion)
    ∧ Names exchangedLedger lateAssertion (IsCompared exchangedLedger lateAssertion) := by
  have hnolater : ∀ e ∈ exchangedLedger.entries, ¬ lateAssertion.date < e.date := by decide
  have hearly := names_compared_iff (l := exchangedLedger) (v := earlyAssertion) List.mem_cons_self
  have hlate := names_compared_iff (l := exchangedLedger) (v := lateAssertion)
    (List.mem_cons_of_mem _ (List.mem_singleton_self _))
  refine ⟨hearly.1, hlate.2.2 ?_⟩
  intro e he _ hafter
  exact absurd hafter (hnolater e he)

/-- On the early date there is one currency to compare. -/
theorem isCompared_exchanged {c : Currency} :
    IsCompared exchangedLedger earlyAssertion c ↔ c = brl := by
  constructor
  · rintro (hc | ⟨e, he, -, hdate, rfl⟩)
    · exact hc
    · have hearly : ∀ e ∈ exchangedLedger.entries, e.date ≤ earlyAssertion.date →
          e.amount.currency = brl := by decide
      exact hearly e he hdate
  · exact .inl

theorem mentions_exchanged : Mentions exchangedLedger earlyAssertion [brl, usd] := by
  have horder : ([brl, usd].eraseDups).Pairwise fun a b => a.precedes b = true := by decide
  have hown : (Timeline.of earlyAssertion.account exchangedLedger.entries).currencies = [brl, usd] :=
    Currency.sorted_of_pairwise horder
  have htags : comparedCurrencies (Timeline.of earlyAssertion.account exchangedLedger.entries)
      earlyAssertion = [brl, usd] := by
    rw [comparedCurrencies, hown]
    exact Currency.sorted_of_pairwise (by decide)
  rw [← htags]
  exact mentions_comparedCurrencies List.mem_cons_self

/-- Only `BRL` was summed on the first day, and the finding names `USD` too. -/
theorem not_names_compared_exchanged :
    (∀ c, IsCompared exchangedLedger earlyAssertion c ↔ c = brl)
    ∧ (∃ f ∈ balanceFindings exchangedLedger, f.assertion? = some earlyAssertion
        ∧ f.details = "The balance of assets:cash including every transaction up to 2020-01-02"
          ++ " differs from the asserted amount."
          ++ " Amounts in BRL, USD were summed together without conversion.")
    ∧ assertionWarnings exchangedLedger earlyAssertion ≠ []
    ∧ ¬ Names exchangedLedger earlyAssertion (IsCompared exchangedLedger earlyAssertion) := by
  have hmem : earlyAssertion ∈ exchangedLedger.assertions := List.mem_cons_self
  have hfound : difference exchangedLedger earlyAssertion ∈ balanceFindings exchangedLedger := by
    rw [balanceFindings_eq_map]
    exact List.mem_map_of_mem (List.mem_filter.2 ⟨hmem, by decide +kernel⟩)
  refine ⟨fun _ => isCompared_exchanged, ⟨_, hfound, rfl, ?_⟩, ?_, ?_⟩
  · rw [mentions_exchanged.told _ hfound rfl]
    decide +kernel
  · rw [mentions_exchanged.logged]
    exact List.cons_ne_nil _ _
  · rw [names_compared_iff_involved hmem]
    intro hall
    have husd : IsInvolved exchangedLedger earlyAssertion usd :=
      .inr ⟨_, List.mem_cons_of_mem _ (List.mem_singleton_self _), rfl, rfl⟩
    have heq : usd = brl := isCompared_exchanged.1 (hall usd husd)
    exact absurd heq (by decide)

end Daybook.Check
