import Mathlib.Data.List.Forall2
import Daybook.Syntax.Parsed

/-!
The grammar of the ledger language as a relation.

`IsStatement ts s` says that the tokens `ts`, taken as a whole, are one statement, and that it means
`s`. Spans play no part. The relation is not shaped like the reading of statements: it knows no rest
of the input and no choice of how to go on.

The second half is about the places where a date seems to begin, because recovery from errors aims at
them. A statement begins with such a place (`IsStatement.beginsDate`) and has no other one inside,
whatever follows it (`IsStatement.calm_tail`).
-/

namespace Daybook.Grammar

/-- A date: year, month and day as whole numbers. Leading zeros do not count. -/
inductive IsDate : List Token → Date → Prop
  | mk {year month day : Decimal} {date : Date} (hyear : year.natural? = some date.year)
      (hmonth : month.natural? = some date.month) (hday : day.natural? = some date.day)
      (hbounds : 1000 ≤ date.year ∧ date.year ≤ 3000) :
      IsDate [.number year, .separator "-", .number month, .separator "-", .number day] date

/-- Segments, each of them behind a colon. -/
inductive IsPath : List Token → List String → Prop
  | nil : IsPath [] []
  | cons {name : String} {ts : List Token} {names : List String} (more : IsPath ts names) :
      IsPath (.separator ":" :: .identifier name :: ts) (name :: names)

/-- An account: the word for its kind and one to three segments. -/
inductive IsAccount : List Token → Account → Prop
  | mk {ts : List Token} {account : Account} (path : IsPath ts account.segments) :
      IsAccount (.identifier account.kind.keyword :: ts) account

/-- A number and a currency. -/
inductive IsUnsigned : List Token → Money → Prop
  | mk {number : Decimal} {currency : Currency} :
      IsUnsigned [.number number, .currency currency.code] ⟨number.value, currency⟩

/-- An amount that may have a minus sign, which negates it. -/
inductive IsSigned : List Token → Money → Prop
  | plain {ts : List Token} {m : Money} (amount : IsUnsigned ts m) : IsSigned ts m
  | minus {ts : List Token} {m : Money} (amount : IsUnsigned ts m) :
      IsSigned (.separator "-" :: ts) m.neg

theorem IsSigned.ne_nil {ts : List Token} {m : Money} (h : IsSigned ts m) : ts ≠ [] := by
  cases h with
  | plain amount => cases amount; exact List.cons_ne_nil _ _
  | minus _ => exact List.cons_ne_nil _ _

/-- A leg of a transaction; `<` is a debit and `>` a credit. -/
inductive IsMovement : List Token → Movement → Prop
  | mk {direction : Direction} {ts us : List Token} {m : Money} {a : Account}
      (amount : IsUnsigned ts m) (account : IsAccount us a) :
      IsMovement (.movement direction.symbol :: ts ++ us) ⟨direction, m, a⟩

/-- Legs, one after the other. -/
inductive IsMovements : List Token → List Movement → Prop
  | nil : IsMovements [] []
  | cons {ts us : List Token} {m : Movement} {ms : List Movement} (first : IsMovement ts m)
      (others : IsMovements us ms) : IsMovements (ts ++ us) (m :: ms)

/-- No movements have no tokens. -/
theorem IsMovements.eq_nil {ts : List Token} (h : IsMovements ts []) : ts = [] := by
  cases h
  rfl

/-- What stands behind the date of a statement. -/
inductive IsBody (date : Date) : List Token → Statement → Prop
  | opening {ts : List Token} {a : Account} {c : Currency} (account : IsAccount ts a) :
      IsBody date (.identifier "open" :: ts ++ [.currency c.code]) (.opening date a c)
  | assertion {ts us : List Token} {a : Account} {m : Money} (account : IsAccount ts a)
      (amount : IsSigned us m) :
      IsBody date (.identifier "balance" :: ts ++ us) (.assertion date a m)
  | transaction {ts : List Token} {description : String} {ms : List Movement} {ne_nil : ms ≠ []}
      (legs : IsMovements ts ms) :
      IsBody date (.identifier "transaction" :: .string description :: ts)
        (.transaction date description ms ne_nil)

/-- A statement. There may be a colon behind its date. -/
inductive IsStatement : List Token → Statement → Prop
  | bare {ts us : List Token} {date : Date} {s : Statement} (day : IsDate ts date)
      (body : IsBody date us s) : IsStatement (ts ++ us) s
  | colon {ts us : List Token} {date : Date} {s : Statement} (day : IsDate ts date)
      (body : IsBody date us s) : IsStatement (ts ++ .separator ":" :: us) s

/-- Statements one after the other, as the pieces of tokens that they are. -/
structure IsSequence (ts : List Token) (pieces : List (List Token)) (ss : List Statement) :
    Prop where
  flatten_eq : pieces.flatten = ts
  statements : List.Forall₂ IsStatement pieces ss

/-! ## Where a date seems to begin -/

/-- Whether a date seems to begin here. -/
def beginsDate : List Token → Bool
  | year :: hyphen₁ :: month :: hyphen₂ :: day :: _ =>
    year.isInteger && hyphen₁.isSeparator "-" && month.isNumber && hyphen₂.isSeparator "-"
      && day.isNumber
  | _ => false

/-- Spans play no part in where a statement seems to start. -/
theorem startsStatement_eq (ts : Tokens) :
    startsStatement ts = beginsDate (ts.map (·.value)) := by
  unfold startsStatement
  split
  · rfl
  · next h =>
    rcases ts with _ | ⟨a, _ | ⟨b, _ | ⟨c, _ | ⟨d, _ | ⟨e, ts⟩⟩⟩⟩⟩
    case cons.cons.cons.cons.cons => exact absurd rfl (h a b c d e ts)
    all_goals rfl

/-- Five tokens decide. -/
theorem beginsDate_append {ts : List Token} (h : 5 ≤ ts.length) (us : List Token) :
    beginsDate (ts ++ us) = beginsDate ts := by
  rcases ts with _ | ⟨a, _ | ⟨b, _ | ⟨c, _ | ⟨d, _ | ⟨e, ts⟩⟩⟩⟩⟩
  case cons.cons.cons.cons.cons => rfl
  all_goals simp only [List.length_cons, List.length_nil] at h; omega

/-- A date takes five tokens. -/
theorem five_le_length {ts : List Token} (h : beginsDate ts = true) : 5 ≤ ts.length := by
  rcases ts with _ | ⟨a, _ | ⟨b, _ | ⟨c, _ | ⟨d, _ | ⟨e, ts⟩⟩⟩⟩⟩
  case cons.cons.cons.cons.cons => simp only [List.length_cons]; omega
  all_goals cases h

/-- It begins with an integer. -/
theorem isInteger_of_beginsDate {t : Token} {ts : List Token}
    (h : beginsDate (t :: ts) = true) : t.isInteger = true := by
  rcases ts with _ | ⟨b, _ | ⟨c, _ | ⟨d, _ | ⟨e, ts⟩⟩⟩⟩
  case cons.cons.cons.cons => simp_all [beginsDate]
  all_goals cases h

/-- Its second token is a hyphen. -/
theorem isSeparator_second {t u : Token} {ts : List Token}
    (h : beginsDate (t :: u :: ts) = true) : u.isSeparator "-" = true := by
  rcases ts with _ | ⟨c, _ | ⟨d, _ | ⟨e, ts⟩⟩⟩
  case cons.cons.cons => simp_all [beginsDate]
  all_goals cases h

/-- Its fourth token is a hyphen too, so no date begins inside of another one. -/
theorem isSeparator_fourth {t u v w : Token} {ts : List Token}
    (h : beginsDate (t :: u :: v :: w :: ts) = true) : w.isSeparator "-" = true := by
  rcases ts with _ | ⟨e, ts⟩
  case cons => simp_all [beginsDate]
  case nil => cases h

/-! ## Tokens in which no date seems to begin -/

/-- No date seems to begin in these tokens, whatever follows them. -/
def Calm : List Token → Prop
  | [] => True
  | t :: ts => (∀ rest, beginsDate (t :: ts ++ rest) = false) ∧ Calm ts

/-- Dates do not begin in calm tokens, nor in calm tokens behind calm tokens. -/
theorem Calm.append {ts us : List Token} (hts : Calm ts) (hus : Calm us) : Calm (ts ++ us) := by
  induction ts with
  | nil => exact hus
  | cons t ts ih =>
    refine ⟨?_, ih hts.2⟩
    intro rest
    have h := hts.1 (us ++ rest)
    rwa [← List.append_assoc] at h

/-- A token that is no integer may stand in front of calm tokens. -/
theorem Calm.cons {t : Token} {ts : List Token} (ht : t.isInteger = false) (hts : Calm ts) :
    Calm (t :: ts) := by
  refine ⟨?_, hts⟩
  intro rest
  rw [Bool.eq_false_iff]
  intro h
  rw [isInteger_of_beginsDate h] at ht
  cases ht

/-- A number without a hyphen behind it begins no date. -/
theorem Calm.cons_cons {t u : Token} {ts : List Token} (hu : u.isSeparator "-" = false)
    (hts : Calm (u :: ts)) : Calm (t :: u :: ts) := by
  refine ⟨?_, hts⟩
  intro rest
  rw [Bool.eq_false_iff]
  intro h
  rw [isSeparator_second h] at hu
  cases hu

/-- Nor does one with a hyphen and a number behind it, if there is no hyphen after that. -/
theorem Calm.cons_cons_cons_cons {t u v w : Token} {ts : List Token}
    (hw : w.isSeparator "-" = false) (hts : Calm (u :: v :: w :: ts)) :
    Calm (t :: u :: v :: w :: ts) := by
  refine ⟨?_, hts⟩
  intro rest
  rw [Bool.eq_false_iff]
  intro h
  rw [isSeparator_fourth h] at hw
  cases hw

theorem Calm.drop {ts : List Token} (h : Calm ts) (n : Nat) : Calm (ts.drop n) := by
  induction n generalizing ts with
  | zero => exact h
  | succ n ih =>
    cases ts with
    | nil => exact h
    | cons t ts => exact ih h.2

/-- Whatever follows calm tokens, no date begins inside of them. -/
theorem Calm.beginsDate_drop {ts : List Token} (h : Calm ts) {n : Nat} (hn : n < ts.length)
    (rest : List Token) : Grammar.beginsDate (ts.drop n ++ rest) = false := by
  have hcalm := h.drop n
  rw [List.drop_eq_getElem_cons hn] at hcalm ⊢
  exact hcalm.1 rest

/-- No date begins inside of a path, which has no numbers. -/
theorem IsPath.calm {ts : List Token} {names : List String} (h : IsPath ts names) : Calm ts := by
  induction h with
  | nil => trivial
  | cons _ ih => exact (ih.cons rfl).cons rfl

theorem IsAccount.calm {ts : List Token} {a : Account} (h : IsAccount ts a) : Calm ts := by
  obtain ⟨path⟩ := h
  exact path.calm.cons rfl

/-- No date begins at the number of an amount, since a currency follows. -/
theorem IsUnsigned.calm {ts : List Token} {m : Money} (h : IsUnsigned ts m) : Calm ts := by
  obtain ⟨⟩ := h
  exact Calm.cons_cons rfl (Calm.cons rfl trivial)

theorem IsSigned.calm {ts : List Token} {m : Money} (h : IsSigned ts m) : Calm ts := by
  cases h with
  | plain amount => exact amount.calm
  | minus amount => exact amount.calm.cons rfl

/-- No date begins inside of movements. -/
theorem IsMovements.calm {ts : List Token} {ms : List Movement} (h : IsMovements ts ms) :
    Calm ts := by
  induction h with
  | nil => trivial
  | cons first _ ih =>
    obtain ⟨amount, account⟩ := first
    exact ((amount.calm.cons rfl).append account.calm).append ih

/-- No date begins in a statement behind its own date. -/
theorem IsBody.calm {date : Date} {ts : List Token} {s : Statement} (h : IsBody date ts s) :
    Calm ts := by
  cases h with
  | opening account => exact (account.calm.cons rfl).append (Calm.cons rfl trivial)
  | assertion account amount => exact (account.calm.cons rfl).append amount.calm
  | transaction legs => exact (legs.calm.cons rfl).cons rfl

/-- A statement goes on with its keyword, which is no hyphen. -/
theorem IsBody.exists_cons {date : Date} {ts : List Token} {s : Statement}
    (h : IsBody date ts s) : ∃ name us, ts = .identifier name :: us := by
  cases h with
  | opening => exact ⟨_, _, rfl⟩
  | assertion => exact ⟨_, _, rfl⟩
  | transaction => exact ⟨_, _, rfl⟩

/-- Only the first number of a date is one with which a date seems to begin. -/
theorem IsDate.calm_tail {ts us : List Token} {t : Token} {date : Date} (h : IsDate ts date)
    (ht : t.isSeparator "-" = false) (hus : Calm (t :: us)) : Calm (ts ++ t :: us).tail := by
  obtain @⟨year, month, day, _, _, _, _, _⟩ := h
  -- Neither number has two hyphens at the right distance behind it.
  have hday : Calm (.number day :: t :: us) := hus.cons_cons ht
  have hmonth : Calm (.number month :: .separator "-" :: .number day :: t :: us) :=
    (hday.cons rfl).cons_cons_cons_cons ht
  exact hmonth.cons rfl

theorem natural?_isInteger {d : Decimal} {n : Nat} (h : d.natural? = some n) :
    d.isInteger = true := by
  unfold Decimal.natural? at h
  split at h
  · simp_all
  · cases h

/-- The tokens of a date begin one, whatever follows. -/
theorem IsDate.beginsDate {ts : List Token} {date : Date} (h : IsDate ts date)
    (us : List Token) : Grammar.beginsDate (ts ++ us) = true := by
  obtain ⟨hyear, _, _, _⟩ := h
  simp [Grammar.beginsDate, Token.isInteger, natural?_isInteger hyear, Token.isSeparator,
    Token.isNumber]

/-- A statement begins like a date. -/
theorem IsStatement.beginsDate {ts : List Token} {s : Statement} (h : IsStatement ts s)
    (us : List Token) : Grammar.beginsDate (ts ++ us) = true := by
  cases h with
  | bare day _ => rw [List.append_assoc]; exact day.beginsDate _
  | colon day _ => rw [List.append_assoc]; exact day.beginsDate _

/-- Nowhere else in a statement a date seems to begin. -/
theorem IsStatement.calm_tail {ts : List Token} {s : Statement} (h : IsStatement ts s) :
    Calm ts.tail := by
  cases h with
  | bare day body =>
    obtain ⟨name, us, rfl⟩ := body.exists_cons
    exact day.calm_tail rfl body.calm
  | colon day body => exact day.calm_tail rfl (body.calm.cons rfl)

theorem IsStatement.exists_cons {ts : List Token} {s : Statement} (h : IsStatement ts s) :
    ∃ year us, ts = .number year :: us := by
  cases h with
  | bare day _ => obtain ⟨_, _, _, _⟩ := day; exact ⟨_, _, rfl⟩
  | colon day _ => obtain ⟨_, _, _, _⟩ := day; exact ⟨_, _, rfl⟩

end Daybook.Grammar
