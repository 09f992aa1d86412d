import Daybook.Proofs.Numeric.Amount
import Daybook.Proofs.Syntax.Grammar
import Daybook.Proofs.Syntax.Spelling

/-!
Statements as text.

What a statement is written as spells tokens that are this statement again (`exists_spelling`), provided
that it can be written at all: `Statement.Writable` asks for a year of four digits within the bounds of
the grammar, for amounts that are decimals, and for a description without a quote. A minus sign is a
token of its own and belongs to the amount of an assertion only, so amounts that are moved must not be
negative. The other half says that nothing else is ever read (`writable_of_isStatement`).
-/

namespace Daybook

/-- Whether the grammar has the date. -/
def Date.Writable (d : Date) : Prop :=
  1000 ≤ d.year ∧ d.year ≤ 3000

/-- Whether the leg can be written. -/
def Movement.Writable (m : Movement) : Prop :=
  0 ≤ m.amount.amount ∧ Amount.IsTerminating m.amount.amount

/-- Whether the statement can be written. -/
def Statement.Writable : Statement → Prop
  | .opening date _ _ => date.Writable
  | .assertion date _ amount => date.Writable ∧ Amount.IsTerminating amount.amount
  | .transaction date description movements _ =>
    date.Writable ∧ '"' ∉ description.toList ∧ ∀ m ∈ movements, m.Writable

namespace Grammar

open Token Text

/-! ## Dates -/

/-- A natural number with at least so many digits. -/
def padded (count n : Nat) : Decimal where
  negative := false
  whole := Numeral.pad count (Numeral.write n)
  places := []
  whole_ne_nil := by
    intro hnil
    exact Numeral.write_ne_nil n (List.append_eq_nil_iff.1 hnil).2

/-- A number that is padded with zeros is still this number. -/
theorem natural?_padded (count n : Nat) : (padded count n).natural? = some n := by
  have hread : Numeral.read (padded count n).whole = n := by
    rw [Numeral.read_eq, padded, Numeral.readDigits_pad, Numeral.readDigits_write]
  rw [Decimal.natural?, hread]
  rfl

/-- A date is spelled by its ISO notation. -/
theorem spells_date {d : Date} (h : d.Writable) : ∃ ts, IsDate ts d ∧ Spells ts d.isoChars := by
  refine ⟨_, .mk (natural?_padded 4 d.year) (natural?_padded 2 d.month) (natural?_padded 2 d.day) h,
    ?_⟩
  -- From the day to the year: every token is put in front of those behind it.
  have hday : Spells [.number (padded 2 d.day)] (padded 2 d.day).toChars := .single rfl rfl
  have hmonth := (hday.joined (t := .separator "-") (.inr rfl) rfl (.inl rfl)).joined
    (t := .number (padded 2 d.month)) rfl rfl (.inr rfl)
  have hyear := (hmonth.joined (t := .separator "-") (.inr rfl) rfl (.inl rfl)).joined
    (t := .number (padded 4 d.year)) rfl rfl (.inr rfl)
  have hchars (count n : Nat) :
      (padded count n).toChars = (Numeral.pad count (Numeral.write n)).toChars :=
    List.append_nil _
  simp only [chars, hchars] at hyear
  rw [Date.isoChars, List.append_assoc]
  exact hyear

/-! ## Accounts -/

/-- The segments behind a word. -/
theorem spells_path {word : String} {names : List String} (hword : isSegment word.toList = true)
    (h : ∀ name ∈ names, isSegment name.toList = true) :
    ∃ ts, IsPath ts names
      ∧ Spells (.identifier word :: ts) (Account.joinPath (word :: names)).toList := by
  induction names generalizing word with
  | nil =>
    refine ⟨[], .nil, ?_⟩
    rw [Account.joinPath, String.intercalate_singleton]
    exact .single hword rfl
  | cons name names ih =>
    obtain ⟨ts, hpath, hspells⟩ := ih (h name List.mem_cons_self)
      (fun n hn => h n (List.mem_cons_of_mem name hn))
    refine ⟨_, .cons hpath, ?_⟩
    have hcolon := hspells.joined (t := .separator ":") (.inl rfl) rfl (.inl rfl)
    have hchars : (Account.joinPath (word :: name :: names)).toList
        = word.toList ++ (':' :: (Account.joinPath (name :: names)).toList) := by
      simp [Account.joinPath, String.toList_intercalate]
    rw [hchars]
    exact hcolon.joined (t := .identifier word) hword rfl (.inr rfl)

/-- Keywords of kinds are identifiers. -/
theorem isSegment_keyword (kind : AccountKind) : isSegment kind.keyword.toList = true := by
  cases kind <;> decide

/-- An account is spelled by its path. -/
theorem spells_account (a : Account) : ∃ ts, IsAccount ts a ∧ Spells ts a.path.toList := by
  obtain ⟨ts, hpath, hspells⟩ := spells_path (isSegment_keyword a.kind) a.isSegment
  exact ⟨_, .mk hpath, hspells⟩

/-! ## Amounts -/

theorem toList_text (m : Money) :
    m.text.toList = Amount.toChars m.amount ++ ' ' :: m.currency.code.toList := by
  simp [Money.text, Amount.text]

/-- An amount that is not negative is spelled by its text, if it terminates. -/
theorem spells_unsigned {m : Money} (hnonneg : 0 ≤ m.amount) (h : Amount.IsTerminating m.amount) :
    ∃ ts, IsUnsigned ts m ∧ Spells ts m.text.toList := by
  obtain ⟨d, hsign, hvalue, hchars⟩ := Amount.exists_decimal h hnonneg
  obtain ⟨amount, currency⟩ := m
  subst hvalue
  refine ⟨_, .mk, ?_⟩
  rw [toList_text, hchars]
  have hnumber : Spells [.number d] d.toChars := .single hsign rfl
  exact Spells.spaced rfl hnumber (.single currency.isCode rfl)

/-- An amount that is negative has the text of its opposite behind a minus sign. -/
theorem spells_signed {m : Money} (h : Amount.IsTerminating m.amount) :
    ∃ ts, IsSigned ts m ∧ Spells ts m.text.toList := by
  rcases lt_or_ge m.amount 0 with hneg | hnonneg
  · have hneg' : 0 ≤ m.neg.amount := by
      have hle := le_of_lt hneg
      rwa [← Left.nonneg_neg_iff] at hle
    obtain ⟨ts, hunsigned, hspells⟩ := spells_unsigned hneg' h.neg
    refine ⟨.separator "-" :: ts, ?_, ?_⟩
    · have hminus := IsSigned.minus hunsigned
      rwa [show m.neg.neg = m by simp [Money.neg]] at hminus
    · obtain ⟨t, ts, rfl⟩ := hspells.exists_cons
      have hchars : m.text.toList = '-' :: m.neg.text.toList := by
        rw [toList_text, toList_text, Amount.toChars_of_neg h hneg]
        rfl
      rw [hchars]
      exact hspells.joined (t := .separator "-") (.inr rfl) rfl (.inl rfl)
  · obtain ⟨ts, hunsigned, hspells⟩ := spells_unsigned hnonneg h
    exact ⟨ts, .plain hunsigned, hspells⟩

/-! ## Legs -/

theorem wellFormed_symbol (direction : Direction) :
    WellFormed (.movement direction.symbol) := by
  cases direction with
  | debit => exact .inl rfl
  | credit => exact .inr rfl

/-- A movement is spelled by its line. -/
theorem spells_movement {m : Movement} (h : m.Writable) :
    ∃ ts, IsMovement ts m ∧ Spells ts m.line.toList := by
  obtain ⟨direction, amount, account⟩ := m
  obtain ⟨ts, hamount, hts⟩ := spells_unsigned h.1 h.2
  obtain ⟨us, haccount, hus⟩ := spells_account account
  refine ⟨_, .mk hamount haccount, ?_⟩
  have hsymbol : Spells [.movement direction.symbol] direction.symbol.toList :=
    .single (wellFormed_symbol direction) rfl
  have hline := Spells.spaced (c := ' ') rfl (Spells.spaced (c := ' ') rfl hsymbol hts) hus
  simpa [Movement.line] using hline

/-- The lines of legs below other text. -/
theorem spells_movements {ms : List Movement} {us : List Token} {ds : List Char}
    (hus : Spells us ds) (h : ∀ m ∈ ms, m.Writable) :
    ∃ ts, IsMovements ts ms
      ∧ Spells (us ++ ts) (ds ++ (String.join (ms.map fun m => "\n" ++ m.line)).toList) := by
  induction ms generalizing us ds with
  | nil => exact ⟨[], .nil, by simpa using hus⟩
  | cons m ms ih =>
    obtain ⟨ts, hfirst, hts⟩ := spells_movement (h m List.mem_cons_self)
    -- This line belongs to the text above the other ones.
    have hline := Spells.spaced (c := '\n') rfl hus hts
    obtain ⟨vs, hothers, hvs⟩ := ih hline (fun n hn => h n (List.mem_cons_of_mem m hn))
    refine ⟨ts ++ vs, .cons hfirst hothers, ?_⟩
    simpa [String.toList_join] using hvs

/-! ## Statements -/

/-- An opening is spelled on one line behind its date. -/
theorem spells_opening (date : Date) (a : Account) (c : Currency) :
    ∃ ts, IsBody date ts (.opening date a c)
      ∧ Spells ts ("open " ++ a.path ++ " " ++ c.code).toList := by
  obtain ⟨ts, haccount, hts⟩ := spells_account a
  refine ⟨_, .opening haccount, ?_⟩
  have hword : Spells [.identifier "open"] "open".toList := .single (by decide) rfl
  have hcode : Spells [.currency c.code] c.code.toList := .single c.isCode rfl
  have hspells := Spells.spaced (c := ' ') rfl (Spells.spaced (c := ' ') rfl hword hts) hcode
  simpa using hspells

/-- An asserted balance is spelled on one line, if its amount terminates. -/
theorem spells_assertion (date : Date) (a : Account) {m : Money}
    (h : Amount.IsTerminating m.amount) :
    ∃ ts, IsBody date ts (.assertion date a m)
      ∧ Spells ts ("balance " ++ a.path ++ " " ++ m.text).toList := by
  obtain ⟨ts, haccount, hts⟩ := spells_account a
  obtain ⟨us, hamount, hus⟩ := spells_signed h
  refine ⟨_, .assertion haccount hamount, ?_⟩
  have hword : Spells [.identifier "balance"] "balance".toList := .single (by decide) rfl
  have hspells := Spells.spaced (c := ' ') rfl (Spells.spaced (c := ' ') rfl hword hts) hus
  simpa using hspells

/-- A transaction is spelled over several lines, if no quote is in its description. -/
theorem spells_transaction (date : Date) {description : String} {ms : List Movement}
    (ne_nil : ms ≠ []) (hquote : '"' ∉ description.toList) (h : ∀ m ∈ ms, m.Writable) :
    ∃ ts, IsBody date ts (.transaction date description ms ne_nil)
      ∧ Spells ts ("transaction \"" ++ description ++ "\""
        ++ String.join (ms.map fun m => "\n" ++ m.line)).toList := by
  have hword : Spells [.identifier "transaction"] "transaction".toList := .single (by decide) rfl
  have hstring : Spells [.string description] ('"' :: description.toList ++ ['"']) :=
    .single hquote rfl
  have hhead := Spells.spaced (c := ' ') rfl hword hstring
  obtain ⟨ts, hlegs, hspells⟩ := spells_movements hhead h
  refine ⟨_, .transaction hlegs, ?_⟩
  simpa using hspells

/-- **What a statement is written as spells the statement.** -/
theorem exists_spelling {s : Statement} (h : s.Writable) :
    ∃ ts, IsStatement ts s ∧ Spells ts s.text.toList := by
  -- A statement is its date, a blank, and what its sort has behind that.
  have hjoin {date : Date} {us : List Token} {body : String} (hdate : date.Writable)
      (hbody : IsBody date us s) (hus : Spells us body.toList) :
      ∃ ts, IsStatement ts s ∧ Spells ts (date.iso ++ " " ++ body).toList := by
    obtain ⟨ts, hday, hts⟩ := spells_date hdate
    refine ⟨_, .bare hday hbody, ?_⟩
    have hspells := Spells.spaced (c := ' ') rfl hts hus
    simpa [Date.iso] using hspells
  cases s with
  | opening date a c =>
    obtain ⟨us, hbody, hus⟩ := spells_opening date a c
    simpa [Statement.text, String.append_assoc] using hjoin h hbody hus
  | assertion date a m =>
    obtain ⟨us, hbody, hus⟩ := spells_assertion date a h.2
    simpa [Statement.text, String.append_assoc] using hjoin h.1 hbody hus
  | transaction date description ms ne_nil =>
    obtain ⟨us, hbody, hus⟩ := spells_transaction date ne_nil h.2.1 h.2.2
    simpa [Statement.text, String.append_assoc] using hjoin h.1 hbody hus

/-! ## What is read can be written -/

/-- Amounts that are read without sign are not negative, and terminate. -/
theorem nonneg_of_isUnsigned {ts : List Token} {m : Money} (h : IsUnsigned ts m)
    (hts : ∀ t ∈ ts, t.WellFormed) : 0 ≤ m.amount ∧ Amount.IsTerminating m.amount := by
  obtain @⟨number, currency⟩ := h
  have hsign : number.negative = false := hts (.number number) List.mem_cons_self
  exact ⟨Amount.value_nonneg hsign, Amount.isTerminating_value number⟩

theorem isTerminating_of_isSigned {ts : List Token} {m : Money} (h : IsSigned ts m) :
    Amount.IsTerminating m.amount := by
  cases h with
  | plain amount =>
    obtain @⟨number, currency⟩ := amount
    exact Amount.isTerminating_value number
  | minus amount =>
    obtain @⟨number, currency⟩ := amount
    exact (Amount.isTerminating_value number).neg

/-- Movements that are read can be written. -/
theorem writable_of_isMovements {ts : List Token} {ms : List Movement} (h : IsMovements ts ms)
    (hts : ∀ t ∈ ts, t.WellFormed) : ∀ m ∈ ms, m.Writable := by
  induction h with
  | nil => simp
  | @cons ts us m ms first _ ih =>
    intro n hn
    rcases List.mem_cons.1 hn with rfl | hn
    · obtain ⟨amount, -⟩ := first
      refine nonneg_of_isUnsigned amount ?_
      intro t ht
      exact hts t (by simp [ht])
    · exact ih (fun t ht => hts t (by simp [ht])) n hn

/-- **Nothing else is read**: what well-formed tokens mean can be written. -/
theorem writable_of_isStatement {ts : List Token} {s : Statement} (h : IsStatement ts s)
    (hts : ∀ t ∈ ts, t.WellFormed) : s.Writable := by
  have hbody {date : Date} {us vs : List Token} (hday : IsDate us date) (hbody : IsBody date vs s)
      (hvs : ∀ t ∈ vs, t.WellFormed) : s.Writable := by
    obtain ⟨-, -, -, hbounds⟩ := hday
    cases hbody with
    | opening => exact hbounds
    | assertion _ amount => exact ⟨hbounds, isTerminating_of_isSigned amount⟩
    | transaction legs =>
      refine ⟨hbounds, hvs (.string _) (by simp), ?_⟩
      exact writable_of_isMovements legs (fun t ht => hvs t (by simp [ht]))
  cases h with
  | bare day body => exact hbody day body (fun t ht => hts t (by simp [ht]))
  | colon day body => exact hbody day body (fun t ht => hts t (by simp [ht]))

end Grammar

end Daybook
