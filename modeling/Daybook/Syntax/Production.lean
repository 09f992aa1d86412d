import Daybook.Syntax.ParseError
import Daybook.Syntax.Statement

/-!
The productions of the grammar.

A production takes what it reads off the front of a list of tokens without comments:

    statement   := date [':'] (opening | assertion | transaction)
    opening     := 'open' account CURRENCY
    assertion   := 'balance' account ['-'] NUMBER CURRENCY
    transaction := 'transaction' STRING movement+
    movement    := ('<' | '>') NUMBER CURRENCY account
    account     := kind ':' IDENTIFIER (':' IDENTIFIER)*
    date        := NUMBER '-' NUMBER '-' NUMBER

The next token always decides how to go on, so nothing is read twice. Every production leaves a
suffix of its tokens (`take_suffix` and the lemmas after it), and a statement takes at least one.
-/

namespace Daybook

/-- Tokens with their spans. -/
abbrev Tokens := List (Spanned Token)

/-- Why a statement is not read. The place is missing at the end of the tokens. -/
structure Rejection where
  complaint : Complaint
  place : Option (Span × String)
  deriving DecidableEq

/-- A token that no text contains: a symbol that is no direction, a currency or a segment that breaks
the rules. It ends all reading. -/
inductive TokenFault where
  | direction (e : UnknownDirection)
  | currency (e : CurrencyError)
  | account (e : AccountError)
  deriving DecidableEq

/-- How reading a statement can fail. -/
inductive Failure where
  | rejected (r : Rejection)
  | fault (f : TokenFault)
  deriving DecidableEq

namespace Production

/-! ## Single tokens -/

/-- A complaint about a token. -/
def refuseToken (complaint : Complaint) (t : Spanned Token) : Failure :=
  .rejected ⟨complaint, some (t.span, t.value.describe)⟩

/-- A complaint about the next token, or about the end. -/
def refuse (complaint : Complaint) : Tokens → Failure
  | [] => .rejected ⟨complaint, none⟩
  | t :: _ => refuseToken complaint t

/-- Something else stands where a token was wanted, or nothing. -/
def missing (wanted : Wanted) : Tokens → Failure
  | [] => .rejected ⟨.ended wanted, none⟩
  | t :: _ => refuseToken (.unexpected wanted) t

/-- The next token, of which `pick` takes what is wanted. -/
def take {α : Type} (pick : Token → Option α) (wanted : Wanted) (ts : Tokens) :
    Except Failure (Spanned α × Tokens) :=
  match ts with
  | [] => .error (missing wanted [])
  | t :: rest =>
    match pick t.value with
    | some a => .ok (⟨a, t.span⟩, rest)
    | none => .error (missing wanted (t :: rest))

/-- Whether the next token is the given separator. -/
def nextIs (symbol : String) : Tokens → Bool
  | [] => false
  | t :: _ => t.value.isSeparator symbol

/-! ## Dates -/

/-- The value of a part of a date, within its bounds. -/
def datePart (part : DatePart) (d : Spanned Decimal) : Except Failure Nat :=
  match d.value.natural? with
  | some n =>
    if part.bounds.1 ≤ n ∧ n ≤ part.bounds.2 then .ok n
    else .error (.rejected ⟨.badDatePart part d.value.text, some (d.span, d.value.text)⟩)
  | none => .error (.rejected ⟨.badDatePart part d.value.text, some (d.span, d.value.text)⟩)

/-- The date with the given parts. -/
def dateOf (year month day : Spanned Decimal) : Except Failure (Spanned Date) := do
  let y ← datePart .year year
  let m ← datePart .month month
  let d ← datePart .day day
  let span := year.span.union day.span
  match Date.of? y m d with
  | some date => .ok ⟨date, span⟩
  | none =>
    let text := year.value.text ++ "-" ++ month.value.text ++ "-" ++ day.value.text
    .error (.rejected ⟨.noSuchDate text, some (span, text)⟩)

/-- A date. -/
def date (ts : Tokens) : Except Failure (Spanned Date × Tokens) := do
  let (year, ts) ← take Token.number? .year ts
  let (_, ts) ← take (Token.separator? "-") .hyphen ts
  let (month, ts) ← take Token.number? .month ts
  let (_, ts) ← take (Token.separator? "-") .hyphen ts
  let (day, ts) ← take Token.number? .day ts
  let date ← dateOf year month day
  return (date, ts)

/-! ## Accounts -/

/-- The segments after the first, each behind a colon. -/
def moreSegments : Tokens → Except Failure (List (Spanned String) × Tokens)
  | [] => .ok ([], [])
  | [t] => if t.value.isSeparator ":" then .error (missing .segment []) else .ok ([], [t])
  | colon :: t :: ts =>
    if colon.value.isSeparator ":" then
      match t.value.identifier? with
      | some name => do
        let (segments, rest) ← moreSegments ts
        return (⟨name, t.span⟩ :: segments, rest)
      | none => .error (missing .segment (t :: ts))
    else .ok ([], colon :: t :: ts)

/-- The account with the given words. -/
def accountOf (head : Spanned String) (kind : AccountKind) (first : Spanned String)
    (others : List (Spanned String)) : Except Failure (Spanned Account) :=
  let names := (first :: others).map (·.value)
  let span := head.span.union ((first :: others).getLast (List.cons_ne_nil _ _)).span
  if maxSegments < names.length then
    .error (.rejected ⟨.tooManySegments, some (span, Account.joinPath (kind.keyword :: names))⟩)
  else
    match Account.of? kind names with
    | .ok account => .ok ⟨account, span⟩
    | .error e => .error (.fault (.account e))

/-- An account. -/
def account (ts : Tokens) : Except Failure (Spanned Account × Tokens) := do
  let (head, ts) ← take Token.identifier? .account ts
  match AccountKind.ofKeyword? head.value with
  | none => .error (refuseToken (.unknownKind head.value) ⟨.identifier head.value, head.span⟩)
  | some kind =>
    let (_, ts) ← take (Token.separator? ":") .colon ts
    let (first, ts) ← take Token.identifier? .segment ts
    let (others, ts) ← moreSegments ts
    let account ← accountOf head kind first others
    return (account, ts)

/-! ## Amounts and movements -/

/-- The currency with the given tag. -/
def currencyOf (code : Spanned String) : Except Failure (Spanned Currency) :=
  match Currency.of? code.value with
  | .ok currency => .ok ⟨currency, code.span⟩
  | .error e => .error (.fault (.currency e))

/-- A currency. -/
def currency (ts : Tokens) : Except Failure (Spanned Currency × Tokens) := do
  let (code, ts) ← take Token.currency? .currency ts
  let currency ← currencyOf code
  return (currency, ts)

/-- An amount, behind its minus sign if there is one. It goes from the sign, or else from the number, to the
currency. -/
def amount (sign : Option Span) (ts : Tokens) : Except Failure (Spanned Money × Tokens) := do
  let (number, ts) ← take Token.number? .amount ts
  let (currency, ts) ← currency ts
  let value := if sign.isSome then -number.value.value else number.value.value
  return (⟨⟨value, currency.value⟩, (sign.getD number.span).union currency.span⟩, ts)

/-- An amount that may have a minus sign before it. -/
def signed (ts : Tokens) : Except Failure (Spanned Money × Tokens) :=
  match ts with
  | t :: rest => if t.value.isSeparator "-" then amount (some t.span) rest else amount none (t :: rest)
  | [] => amount none []

/-- The direction with the given symbol. -/
def directionOf (arrow : Spanned String) : Except Failure Direction :=
  match Direction.ofSymbol arrow.value with
  | .ok direction => .ok direction
  | .error e => .error (.fault (.direction e))

/-- A movement after its symbol. -/
def movement (arrow : Spanned String) (ts : Tokens) : Except Failure (Spanned Movement × Tokens) := do
  let direction ← directionOf arrow
  if nextIs "-" ts then .error (refuse .negativeMovement ts)
  else
    let (amount, ts) ← amount none ts
    let (account, ts) ← account ts
    return (⟨⟨direction, amount.value, account.value⟩, arrow.span.union account.span⟩, ts)

/-! ## What productions leave -/

/-- Steps one after the other succeed if both do. -/
theorem bind_eq_ok {ε α β : Type} {x : Except ε α} {f : α → Except ε β} {b : β} :
    x >>= f = .ok b ↔ ∃ a, x = .ok a ∧ f a = .ok b := by
  cases x <;> simp [bind, Except.bind]

/-- A single token is taken. -/
theorem eq_cons_of_take {α : Type} {pick : Token → Option α} {wanted : Wanted} {ts rest : Tokens}
    {a : Spanned α} (h : take pick wanted ts = .ok (a, rest)) :
    ∃ t, ts = t :: rest ∧ pick t.value = some a.value ∧ t.span = a.span := by
  unfold take at h
  split at h
  · cases h
  · next t more =>
    split at h
    · next v hv =>
      simp only [Except.ok.injEq, Prod.mk.injEq] at h
      obtain ⟨rfl, rfl⟩ := h
      exact ⟨t, rfl, hv, rfl⟩
    · cases h

/-- A token is taken from the front, as all productions take theirs. -/
theorem suffix_of_take {α : Type} {pick : Token → Option α} {wanted : Wanted} {ts rest : Tokens}
    {a : Spanned α} (h : take pick wanted ts = .ok (a, rest)) : rest <:+ ts := by
  obtain ⟨t, rfl, -⟩ := eq_cons_of_take h
  exact List.suffix_cons t rest

/-- A date takes at least one token. -/
theorem length_lt_of_date {ts rest : Tokens} {d : Spanned Date} (h : date ts = .ok (d, rest)) :
    rest.length < ts.length := by
  simp only [date, bind_eq_ok, Prod.exists] at h
  obtain ⟨_, _, h₁, _, _, h₂, _, _, h₃, _, _, h₄, _, _, h₅, _, _, h₆⟩ := h
  obtain ⟨_, rfl, -⟩ := eq_cons_of_take h₁
  obtain ⟨_, rfl, -⟩ := eq_cons_of_take h₂
  obtain ⟨_, rfl, -⟩ := eq_cons_of_take h₃
  obtain ⟨_, rfl, -⟩ := eq_cons_of_take h₄
  obtain ⟨_, rfl, -⟩ := eq_cons_of_take h₅
  cases h₆
  simp only [List.length_cons]
  omega

theorem suffix_of_moreSegments {ts rest : Tokens} {segments : List (Spanned String)}
    (h : moreSegments ts = .ok (segments, rest)) : rest <:+ ts := by
  fun_induction moreSegments ts generalizing segments rest with
  | case1 => cases h; exact List.suffix_rfl
  | case2 => cases h
  | case3 => cases h; exact List.suffix_rfl
  | case4 colon t ts _ name _ ih =>
    simp only [bind_eq_ok, Prod.exists] at h
    obtain ⟨_, _, h₁, h₂⟩ := h
    cases h₂
    exact (ih h₁).trans ((List.suffix_cons t ts).trans (List.suffix_cons colon _))
  | case5 => cases h
  | case6 => cases h; exact List.suffix_rfl

theorem suffix_of_account {ts rest : Tokens} {a : Spanned Account}
    (h : account ts = .ok (a, rest)) : rest <:+ ts := by
  simp only [account, bind_eq_ok, Prod.exists] at h
  obtain ⟨_, _, h₁, h⟩ := h
  split at h
  · cases h
  · simp only [bind_eq_ok, Prod.exists] at h
    obtain ⟨_, _, h₂, _, _, h₃, _, _, h₄, _, _, h₅⟩ := h
    cases h₅
    exact (suffix_of_moreSegments h₄).trans
      ((suffix_of_take h₃).trans ((suffix_of_take h₂).trans (suffix_of_take h₁)))

theorem suffix_of_currency {ts rest : Tokens} {c : Spanned Currency}
    (h : currency ts = .ok (c, rest)) : rest <:+ ts := by
  simp only [currency, bind_eq_ok, Prod.exists] at h
  obtain ⟨_, _, h₁, _, _, h₂⟩ := h
  cases h₂
  exact suffix_of_take h₁

theorem suffix_of_amount {sign : Option Span} {ts rest : Tokens} {m : Spanned Money}
    (h : amount sign ts = .ok (m, rest)) : rest <:+ ts := by
  simp only [amount, bind_eq_ok, Prod.exists] at h
  obtain ⟨_, _, h₁, _, _, h₂, h₃⟩ := h
  cases h₃
  exact (suffix_of_currency h₂).trans (suffix_of_take h₁)

theorem suffix_of_signed {ts rest : Tokens} {m : Spanned Money}
    (h : signed ts = .ok (m, rest)) : rest <:+ ts := by
  unfold signed at h
  split at h
  · split at h
    · exact (suffix_of_amount h).trans (List.suffix_cons _ _)
    · exact suffix_of_amount h
  · exact suffix_of_amount h

theorem suffix_of_movement {arrow : Spanned String} {ts rest : Tokens} {m : Spanned Movement}
    (h : movement arrow ts = .ok (m, rest)) : rest <:+ ts := by
  simp only [movement, bind_eq_ok] at h
  obtain ⟨_, _, h⟩ := h
  split at h
  · cases h
  · simp only [bind_eq_ok, Prod.exists] at h
    obtain ⟨_, _, h₁, _, _, h₂, h₃⟩ := h
    cases h₃
    exact (suffix_of_account h₂).trans (suffix_of_amount h₁)

/-! ## Statements -/

/-- The movements that the tokens begin with. -/
def movements : Tokens → Except Failure (List (Spanned Movement) × Tokens)
  | [] => .ok ([], [])
  | t :: ts =>
    match t.value.movement? with
    | none => .ok ([], t :: ts)
    | some symbol =>
      match _ : movement ⟨symbol, t.span⟩ ts with
      | .error e => .error e
      | .ok (m, rest) => do
        let (ms, rest) ← movements rest
        return (m :: ms, rest)
termination_by ts => ts.length
decreasing_by
  have := (suffix_of_movement ‹_›).length_le
  simp only [List.length_cons]
  omega

/-- Movements take tokens from the front, by induction on how they are read. -/
theorem suffix_of_movements {ts rest : Tokens} {ms : List (Spanned Movement)}
    (h : movements ts = .ok (ms, rest)) : rest <:+ ts := by
  fun_induction movements ts generalizing ms rest with
  | case1 => cases h; exact List.suffix_rfl
  | case2 => cases h; exact List.suffix_rfl
  | case3 => cases h
  | case4 t ts _ _ _ _ h₁ ih =>
    simp only [bind_eq_ok, Prod.exists] at h
    obtain ⟨_, _, h₂, h₃⟩ := h
    cases h₃
    exact (ih h₂).trans ((suffix_of_movement h₁).trans (List.suffix_cons t ts))

/-- An opening, after its keyword. -/
def opening (day : Spanned Date) (ts : Tokens) : Except Failure (Spanned Statement × Tokens) := do
  let (account, ts) ← account ts
  let (currency, ts) ← currency ts
  return (⟨.opening day.value account.value currency.value, day.span.union currency.span⟩, ts)

/-- An assertion, after its keyword. -/
def assertion (day : Spanned Date) (ts : Tokens) :
    Except Failure (Spanned Statement × Tokens) := do
  let (account, ts) ← account ts
  let (amount, ts) ← signed ts
  return (⟨.assertion day.value account.value amount.value, day.span.union amount.span⟩, ts)

/-- A transaction, after its keyword. -/
def transaction (day : Spanned Date) (ts : Tokens) :
    Except Failure (Spanned Statement × Tokens) := do
  let (description, ts) ← take Token.string? .description ts
  let (legs, ts) ← movements ts
  match Statement.transaction? day.value description.value (legs.map (·.value)) with
  | none => .error (refuse .noMovement ts)
  | some statement =>
    return (⟨statement, Span.covering day.span (description.span :: legs.map (·.span))⟩, ts)

/-- The colon that may stand after a date. -/
def skipColon : Tokens → Tokens
  | [] => []
  | t :: ts => if t.value.isSeparator ":" then ts else t :: ts

/-- A statement. -/
def statement (ts : Tokens) : Except Failure (Spanned Statement × Tokens) := do
  let (day, ts) ← date ts
  let (keyword, ts) ← take Token.identifier? .keyword (skipColon ts)
  if keyword.value = "open" then opening day ts
  else if keyword.value = "balance" then assertion day ts
  else if keyword.value = "transaction" then transaction day ts
  else
    .error (refuseToken (.unknownKeyword keyword.value) ⟨.identifier keyword.value, keyword.span⟩)

theorem suffix_of_opening {day : Spanned Date} {ts rest : Tokens} {s : Spanned Statement}
    (h : opening day ts = .ok (s, rest)) : rest <:+ ts := by
  simp only [opening, bind_eq_ok, Prod.exists] at h
  obtain ⟨_, _, h₁, _, _, h₂, h₃⟩ := h
  cases h₃
  exact (suffix_of_currency h₂).trans (suffix_of_account h₁)

theorem suffix_of_assertion {day : Spanned Date} {ts rest : Tokens} {s : Spanned Statement}
    (h : assertion day ts = .ok (s, rest)) : rest <:+ ts := by
  simp only [assertion, bind_eq_ok, Prod.exists] at h
  obtain ⟨_, _, h₁, _, _, h₂, h₃⟩ := h
  cases h₃
  exact (suffix_of_signed h₂).trans (suffix_of_account h₁)

theorem suffix_of_transaction {day : Spanned Date} {ts rest : Tokens} {s : Spanned Statement}
    (h : transaction day ts = .ok (s, rest)) : rest <:+ ts := by
  simp only [transaction, bind_eq_ok, Prod.exists] at h
  obtain ⟨_, _, h₁, _, _, h₂, h⟩ := h
  split at h
  · cases h
  · cases h
    exact (suffix_of_movements h₂).trans (suffix_of_take h₁)

theorem skipColon_suffix (ts : Tokens) : skipColon ts <:+ ts := by
  unfold skipColon
  split
  · exact List.suffix_rfl
  · split
    · exact List.suffix_cons _ _
    · exact List.suffix_rfl

/-- A statement takes at least one token. -/
theorem length_lt_of_statement {ts rest : Tokens} {s : Spanned Statement}
    (h : statement ts = .ok (s, rest)) : rest.length < ts.length := by
  simp only [statement, bind_eq_ok, Prod.exists] at h
  obtain ⟨_, rest₁, h₁, _, rest₂, h₂, h⟩ := h
  have hkeyword : rest₂.length ≤ rest₁.length :=
    ((suffix_of_take h₂).trans (skipColon_suffix _)).length_le
  have hdate := length_lt_of_date h₁
  have hbody : rest.length ≤ rest₂.length := by
    split at h
    · exact (suffix_of_opening h).length_le
    split at h
    · exact (suffix_of_assertion h).length_le
    split at h
    · exact (suffix_of_transaction h).length_le
    · cases h
  omega

end Production

end Daybook
