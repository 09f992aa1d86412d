import Daybook.Proofs.Guarded.Step
import Daybook.Proofs.Syntax.Reading

/-!
Reading statements.

A production that does not find what it wants rejects the statement, and reading goes on behind it. Other
failures are no part of the language: a token is taken where there is none, a range is no span, a symbol
is no direction, a tag no currency, a word no segment, a transaction has no legs. `Stop` keeps the two
apart. Every production stops as the one that runs does, with its faults as breaches (`statement_eq`), so
nothing but a fault ends the reading of any tokens whatever (`outcomes_eq`); and the tokens of a source have
none (`parsed_eq`).
-/

namespace Daybook.Guarded

open Production (nextIs missing refuse refuseToken)

variable {α β : Type}

/-- How a production stops: the statement is rejected, or a step breaks off. -/
inductive Stop where
  | rejected (r : Rejection)
  | breach (b : Breach)

/-- A production of the guarded parser. -/
abbrev Reading (α : Type) := Except Stop α

/-- A failure as a stop; a fault is a breach. -/
def Stop.of : Failure → Stop
  | .rejected r => .rejected r
  | .fault f => .breach (.token f)

/-- What is read, with its failures as stops. -/
def lift (x : Except Failure α) : Reading α :=
  x.mapError Stop.of

/-- A guarded step of a production. -/
def step (x : Guarded α) : Reading α :=
  x.mapError Stop.breach

/-- Reading one thing after another agrees with the productions if each step does. All lemmas about productions below
peel their first step with this one. -/
theorem lift_bind {x : Except Failure α} {k : α → Except Failure β} {x' : Reading α}
    {k' : α → Reading β} (hx : x' = lift x) (hk : ∀ a, k' a = lift (k a)) :
    x' >>= k' = lift (x >>= k) := by
  cases x with
  | ok a => rw [hx]; exact hk a
  | error e => rw [hx]; rfl

theorem lift_eq_ok {x : Except Failure α} {a : α} : lift x = .ok a ↔ x = .ok a := by
  cases x with
  | ok b => rw [lift, Except.mapError, Except.ok.injEq, Except.ok.injEq]
  | error e =>
    constructor
    · intro h
      cases h
    · intro h
      cases h

/-- A step that succeeds may be left out. -/
theorem step_bind {x : Guarded α} {a : α} (h : x = .ok a) (k : α → Reading β) :
    step x >>= k = k a := by
  rw [h]
  rfl

/-! ## Single tokens -/

/-- The next token. -/
def advance : Tokens → Reading (Spanned Token × Tokens)
  | [] => .error (.breach .index)
  | t :: ts => .ok (t, ts)

/-- The next token, of which `pick` takes what is wanted. -/
def expect (pick : Token → Option α) (wanted : Wanted) (ts : Tokens) :
    Reading (Spanned α × Tokens) :=
  match ts.head?.bind fun t => pick t.value with
  | some a => do
    let (t, rest) ← advance ts
    return (⟨a, t.span⟩, rest)
  | none => .error (.of (missing wanted ts))

/-- What was looked at is there to be taken. -/
theorem expect_eq (pick : Token → Option α) (wanted : Wanted) (ts : Tokens) :
    expect pick wanted ts = lift (Production.take pick wanted ts) := by
  cases ts with
  | nil => rfl
  | cons t rest =>
    unfold expect Production.take
    dsimp only [List.head?_cons, Option.bind_some]
    cases pick t.value with
    | some a => rfl
    | none => rfl

/-- The items that the tokens begin with: there is one more as long as one starts. -/
def many (starts : Tokens → Bool) (one : Tokens → Reading (α × Tokens))
    (shorter : ∀ {ts rest : Tokens} {a : α}, one ts = .ok (a, rest) → rest.length < ts.length)
    (ts : Tokens) : Reading (List α × Tokens) :=
  if starts ts then
    match _ : one ts with
    | .error e => .error e
    | .ok (a, rest) => do
      let (as, rest) ← many starts one shorter rest
      return (a :: as, rest)
  else .ok ([], ts)
termination_by ts.length
decreasing_by exact shorter ‹_›

section Many

variable {starts : Tokens → Bool} {one : Tokens → Reading (α × Tokens)}
  {shorter : ∀ {ts rest : Tokens} {a : α}, one ts = .ok (a, rest) → rest.length < ts.length}
  {ts rest : Tokens} {a : α} {e : Stop}

/-- A loop ends where nothing of its kind starts. -/
theorem many_of_not (h : ¬ starts ts = true) : many starts one shorter ts = .ok ([], ts) := by
  rw [many, if_neg h]

/-- What is read next decides alone; that it leaves fewer tokens matters for the recursion only. -/
theorem many_of_starts (h : starts ts = true) :
    many starts one shorter ts = match one ts with
      | .error e => .error e
      | .ok (a, rest) => do
        let (as, rest) ← many starts one shorter rest
        return (a :: as, rest) := by
  rw [many, if_pos h]
  split
  · next hone => rw [hone]
  · next hone => rw [hone]

/-- A loop goes on behind what it has read. -/
theorem many_of_ok (hstarts : starts ts = true) (h : one ts = .ok (a, rest)) :
    many starts one shorter ts = (do
      let (as, rest) ← many starts one shorter rest
      return (a :: as, rest)) := by
  rw [many_of_starts hstarts, h]

/-- A loop ends in the error of what it cannot read. -/
theorem many_of_error (hstarts : starts ts = true) (h : one ts = .error e) :
    many starts one shorter ts = .error e := by
  rw [many_of_starts hstarts, h]

end Many

/-! ## Dates -/

/-- The date with the given parts. -/
def dateOf (year month day : Spanned Decimal) : Reading (Spanned Date) := do
  let range ← step (union year.span day.span)
  let y ← lift (Production.datePart .year year)
  let m ← lift (Production.datePart .month month)
  let d ← lift (Production.datePart .day day)
  match Date.of? y m d with
  | some date => .ok ⟨date, range⟩
  | none =>
    let text := year.value.text ++ "-" ++ month.value.text ++ "-" ++ day.value.text
    .error (.rejected ⟨.noSuchDate text, some (range, text)⟩)

/-- Year, month and day make a date, or are rejected as they are by the production. -/
theorem dateOf_eq (year month day : Spanned Decimal) :
    dateOf year month day = lift (Production.dateOf year month day) := by
  -- The range comes before the parts here. As there always is one, a part that is refused is still the first.
  rw [dateOf, step_bind (union_eq year.span day.span)]
  refine lift_bind rfl fun y => ?_
  refine lift_bind rfl fun m => ?_
  refine lift_bind rfl fun d => ?_
  cases Date.of? y m d with
  | some date => rfl
  | none => rfl

/-- A date. -/
def date (ts : Tokens) : Reading (Spanned Date × Tokens) := do
  let (year, ts) ← expect Token.number? .year ts
  let (_, ts) ← expect (Token.separator? "-") .hyphen ts
  let (month, ts) ← expect Token.number? .month ts
  let (_, ts) ← expect (Token.separator? "-") .hyphen ts
  let (day, ts) ← expect Token.number? .day ts
  let date ← dateOf year month day
  return (date, ts)

/-- A date is read without a breach. -/
theorem date_eq (ts : Tokens) : date ts = lift (Production.date ts) := by
  refine lift_bind (expect_eq _ _ _) fun ⟨year, ts⟩ => ?_
  refine lift_bind (expect_eq _ _ _) fun ⟨_, ts⟩ => ?_
  refine lift_bind (expect_eq _ _ _) fun ⟨month, ts⟩ => ?_
  refine lift_bind (expect_eq _ _ _) fun ⟨_, ts⟩ => ?_
  refine lift_bind (expect_eq _ _ _) fun ⟨day, ts⟩ => ?_
  exact lift_bind (dateOf_eq _ _ _) fun _ => rfl

/-! ## Accounts -/

/-- A segment behind a colon. -/
def segment (ts : Tokens) : Reading (Spanned String × Tokens) := do
  let (_, ts) ← advance ts
  expect Token.identifier? .segment ts

theorem segment_cons (colon : Spanned Token) (ts : Tokens) :
    segment (colon :: ts) = lift (Production.take Token.identifier? .segment ts) :=
  expect_eq _ _ _

/-- A segment takes its colon, which is why the loop of segments ends. -/
theorem length_lt_of_segment {ts rest : Tokens} {name : Spanned String}
    (h : segment ts = .ok (name, rest)) : rest.length < ts.length := by
  cases ts with
  | nil => cases h
  | cons colon ts =>
    rw [segment_cons, lift_eq_ok] at h
    exact Nat.lt_succ_of_le (Production.suffix_of_take h).length_le

/-- The segments after the first, each behind a colon. -/
def moreSegments : Tokens → Reading (List (Spanned String) × Tokens) :=
  many (nextIs ":") segment length_lt_of_segment

/-- Segments behind each other are read without a breach. -/
theorem moreSegments_eq (ts : Tokens) : moreSegments ts = lift (Production.moreSegments ts) := by
  -- The production that runs looks at a colon and what follows it together: the cases are its own.
  fun_induction Production.moreSegments ts with
  | case1 => exact many_of_not Bool.false_ne_true
  | case2 t hcolon => exact many_of_error hcolon rfl
  | case3 t hcolon => exact many_of_not hcolon
  | case4 colon t ts hcolon name hname ih =>
    have hsegment : segment (colon :: t :: ts) = .ok (⟨name, t.span⟩, ts) := by
      rw [segment_cons, Production.take, hname]
      rfl
    refine (many_of_ok hcolon hsegment).trans ?_
    exact lift_bind ih fun _ => rfl
  | case5 colon t ts hcolon hname =>
    have hsegment : segment (colon :: t :: ts) = .error (.of (missing .segment (t :: ts))) := by
      rw [segment_cons, Production.take, hname]
      rfl
    exact many_of_error hcolon hsegment
  | case6 colon t ts hcolon => exact many_of_not hcolon

/-- The account with the given words. -/
def accountOf (head : Spanned String) (kind : AccountKind) (names : List (Spanned String)) :
    Reading (Spanned Account) := do
  let final ← step (last names)
  let range ← step (union head.span final.span)
  let words := names.map (·.value)
  if maxSegments < words.length then
    .error (.rejected ⟨.tooManySegments, some (range, Account.joinPath (kind.keyword :: words))⟩)
  else
    match Account.of? kind words with
    | .ok account => .ok ⟨account, range⟩
    | .error e => .error (.breach (.token (.account e)))

/-- A kind and at least one segment make an account. -/
theorem accountOf_eq (head : Spanned String) (kind : AccountKind) (first : Spanned String)
    (others : List (Spanned String)) :
    accountOf head kind (first :: others) = lift (Production.accountOf head kind first others) := by
  rw [accountOf, step_bind (last_cons first others), step_bind (union_eq _ _),
    Production.accountOf]
  dsimp only
  split
  · rfl
  · cases Account.of? kind ((first :: others).map (·.value)) with
    | ok account => rfl
    | error e => rfl

/-- An account. -/
def account (ts : Tokens) : Reading (Spanned Account × Tokens) := do
  let (head, ts) ← expect Token.identifier? .account ts
  match AccountKind.ofKeyword? head.value with
  | none =>
    .error (.of (refuseToken (.unknownKind head.value) ⟨.identifier head.value, head.span⟩))
  | some kind =>
    let (_, ts) ← expect (Token.separator? ":") .colon ts
    let (first, ts) ← expect Token.identifier? .segment ts
    let (others, ts) ← moreSegments ts
    let account ← accountOf head kind (first :: others)
    return (account, ts)

/-- An account is read without a breach. -/
theorem account_eq (ts : Tokens) : account ts = lift (Production.account ts) := by
  refine lift_bind (expect_eq _ _ _) fun ⟨head, ts⟩ => ?_
  dsimp only
  cases AccountKind.ofKeyword? head.value with
  | none => rfl
  | some kind =>
    refine lift_bind (expect_eq _ _ _) fun ⟨_, ts⟩ => ?_
    refine lift_bind (expect_eq _ _ _) fun ⟨first, ts⟩ => ?_
    refine lift_bind (moreSegments_eq _) fun ⟨others, ts⟩ => ?_
    exact lift_bind (accountOf_eq _ _ _ _) fun _ => rfl

/-! ## Amounts and movements -/

/-- The currency with the given tag. -/
def currencyOf (code : Spanned String) : Reading (Spanned Currency) :=
  match Currency.of? code.value with
  | .ok currency => .ok ⟨currency, code.span⟩
  | .error e => .error (.breach (.token (.currency e)))

/-- A code makes a currency, unless the token that it comes from is at fault. -/
theorem currencyOf_eq (code : Spanned String) :
    currencyOf code = lift (Production.currencyOf code) := by
  unfold currencyOf Production.currencyOf
  cases Currency.of? code.value with
  | ok currency => rfl
  | error e => rfl

/-- A currency. -/
def currency (ts : Tokens) : Reading (Spanned Currency × Tokens) := do
  let (code, ts) ← expect Token.currency? .currency ts
  let currency ← currencyOf code
  return (currency, ts)

/-- A currency is read without a breach. -/
theorem currency_eq (ts : Tokens) : currency ts = lift (Production.currency ts) := by
  refine lift_bind (expect_eq _ _ _) fun ⟨code, ts⟩ => ?_
  exact lift_bind (currencyOf_eq _) fun _ => rfl

/-- An amount, behind its minus sign if there is one. -/
def amountBehind (sign : Option Span) (ts : Tokens) : Reading (Spanned Money × Tokens) := do
  let (number, ts) ← expect Token.number? .amount ts
  let (currency, ts) ← currency ts
  let value := if sign.isSome then -number.value.value else number.value.value
  let range ← step (union (sign.getD number.span) currency.span)
  return (⟨⟨value, currency.value⟩, range⟩, ts)

/-- An amount is read behind its sign, with the span of both. -/
theorem amountBehind_eq (sign : Option Span) (ts : Tokens) :
    amountBehind sign ts = lift (Production.amount sign ts) := by
  refine lift_bind (expect_eq _ _ _) fun ⟨number, ts⟩ => ?_
  refine lift_bind (currency_eq _) fun ⟨currency, ts⟩ => ?_
  exact step_bind (union_eq _ _) _

/-- An amount that may have a minus sign before it. -/
def signed (ts : Tokens) : Reading (Spanned Money × Tokens) :=
  if nextIs "-" ts then do
    let (sign, ts) ← advance ts
    amountBehind (some sign.span) ts
  else amountBehind none ts

/-- A signed amount is read without a breach. -/
theorem signed_eq (ts : Tokens) : signed ts = lift (Production.signed ts) := by
  unfold signed Production.signed
  -- `nextIs` looks at the head of the tokens, the production that runs at their constructor.
  cases ts with
  | nil => exact amountBehind_eq none []
  | cons t rest =>
    show (if t.value.isSeparator "-" then _ else _) = _
    dsimp only
    split
    · exact amountBehind_eq (some t.span) rest
    · exact amountBehind_eq none (t :: rest)

/-- The symbol of a token: that of a movement, and of any other token its text. -/
def symbolOf (t : Token) : String :=
  t.movement?.getD t.text

/-- The direction with the given symbol. -/
def directionOf (symbol : String) : Reading Direction :=
  match Direction.ofSymbol symbol with
  | .ok direction => .ok direction
  | .error e => .error (.breach (.token (.direction e)))

/-- An arrow gives its direction; a symbol that is none is a fault of the token, as it is for the productions. -/
theorem directionOf_eq (arrow : Spanned String) :
    directionOf arrow.value = lift (Production.directionOf arrow) := by
  unfold directionOf Production.directionOf
  cases Direction.ofSymbol arrow.value with
  | ok direction => rfl
  | error e => rfl

/-- A movement. -/
def movement (ts : Tokens) : Reading (Spanned Movement × Tokens) := do
  let (arrow, ts) ← advance ts
  let direction ← directionOf (symbolOf arrow.value)
  if nextIs "-" ts then .error (.of (refuse .negativeMovement ts))
  else
    let (amount, ts) ← amountBehind none ts
    let (account, ts) ← account ts
    let range ← step (union arrow.span account.span)
    return (⟨⟨direction, amount.value, account.value⟩, range⟩, ts)

theorem movement_cons (t : Spanned Token) (ts : Tokens) :
    movement (t :: ts) = lift (Production.movement ⟨symbolOf t.value, t.span⟩ ts) := by
  refine lift_bind (directionOf_eq ⟨symbolOf t.value, t.span⟩) fun direction => ?_
  dsimp only
  split
  · rfl
  · refine lift_bind (amountBehind_eq none _) fun ⟨amount, ts⟩ => ?_
    refine lift_bind (account_eq _) fun ⟨account, ts⟩ => ?_
    exact step_bind (union_eq _ _) _

/-- A movement takes at least its arrow, which is why the loop of movements ends. -/
theorem length_lt_of_movement {ts rest : Tokens} {m : Spanned Movement}
    (h : movement ts = .ok (m, rest)) : rest.length < ts.length := by
  cases ts with
  | nil => cases h
  | cons t ts =>
    rw [movement_cons, lift_eq_ok] at h
    exact Nat.lt_succ_of_le (Production.suffix_of_movement h).length_le

/-- Whether the next token is the symbol of a movement. -/
def nextIsMovement (ts : Tokens) : Bool :=
  (ts.head?.bind fun t => t.value.movement?).isSome

/-- The movements that the tokens begin with. -/
def movements : Tokens → Reading (List (Spanned Movement) × Tokens) :=
  many nextIsMovement movement length_lt_of_movement

theorem nextIsMovement_cons {t : Spanned Token} {symbol : String}
    (h : t.value.movement? = some symbol) (ts : Tokens) : nextIsMovement (t :: ts) = true := by
  show t.value.movement?.isSome = true
  rw [h]
  rfl

/-- A movement is read from its symbol on. -/
theorem movement_of_symbol {t : Spanned Token} {symbol : String}
    (h : t.value.movement? = some symbol) (ts : Tokens) :
    movement (t :: ts) = lift (Production.movement ⟨symbol, t.span⟩ ts) := by
  rw [movement_cons, symbolOf, h, Option.getD_some]

/-- Movements behind each other are read without a breach. -/
theorem movements_eq (ts : Tokens) : movements ts = lift (Production.movements ts) := by
  -- It has the arrow before it calls for a movement; here the movement takes the arrow itself.
  fun_induction Production.movements ts with
  | case1 => exact many_of_not Bool.false_ne_true
  | case2 t ts hnone =>
    have hnext : ¬ nextIsMovement (t :: ts) = true := by
      show ¬ t.value.movement?.isSome = true
      rw [hnone]
      exact Bool.false_ne_true
    exact many_of_not hnext
  | case3 t ts symbol hsymbol e herror =>
    have hmovement : movement (t :: ts) = .error (.of e) := by
      rw [movement_of_symbol hsymbol, herror]
      rfl
    exact many_of_error (nextIsMovement_cons hsymbol ts) hmovement
  | case4 t ts symbol hsymbol m rest hok ih =>
    have hmovement : movement (t :: ts) = .ok (m, rest) := by
      rw [movement_of_symbol hsymbol, hok]
      rfl
    refine (many_of_ok (nextIsMovement_cons hsymbol ts) hmovement).trans ?_
    exact lift_bind ih fun _ => rfl

/-! ## Statements -/

/-- An opening, after its keyword. -/
def opening (day : Spanned Date) (ts : Tokens) : Reading (Spanned Statement × Tokens) := do
  let (account, ts) ← account ts
  let (currency, ts) ← currency ts
  let range ← step (union day.span currency.span)
  return (⟨.opening day.value account.value currency.value, range⟩, ts)

/-- An opening is read without a breach. -/
theorem opening_eq (day : Spanned Date) (ts : Tokens) :
    opening day ts = lift (Production.opening day ts) := by
  refine lift_bind (account_eq _) fun ⟨account, ts⟩ => ?_
  refine lift_bind (currency_eq _) fun ⟨currency, ts⟩ => ?_
  exact step_bind (union_eq _ _) _

/-- An assertion, after its keyword. -/
def assertion (day : Spanned Date) (ts : Tokens) : Reading (Spanned Statement × Tokens) := do
  let (account, ts) ← account ts
  let (amount, ts) ← signed ts
  let range ← step (union day.span amount.span)
  return (⟨.assertion day.value account.value amount.value, range⟩, ts)

/-- An asserted balance is read without a breach. -/
theorem assertion_eq (day : Spanned Date) (ts : Tokens) :
    assertion day ts = lift (Production.assertion day ts) := by
  refine lift_bind (account_eq _) fun ⟨account, ts⟩ => ?_
  refine lift_bind (signed_eq _) fun ⟨amount, ts⟩ => ?_
  exact step_bind (union_eq _ _) _

/-- A transaction with the given legs; there is none without a leg. -/
def transactionOf (day : Spanned Date) (description : Spanned String)
    (legs : List (Spanned Movement)) : Reading (Spanned Statement) := do
  let range ← step (covering (day.span :: description.span :: legs.map (·.span)))
  match Statement.transaction? day.value description.value (legs.map (·.value)) with
  | some statement => .ok ⟨statement, range⟩
  | none => .error (.breach .noMovement)

/-- A transaction, after its keyword. -/
def transaction (day : Spanned Date) (ts : Tokens) : Reading (Spanned Statement × Tokens) := do
  let (description, ts) ← expect Token.string? .description ts
  let (legs, ts) ← movements ts
  if legs.isEmpty then .error (.of (refuse .noMovement ts))
  else
    let statement ← transactionOf day description legs
    return (statement, ts)

/-- A transaction is read without a breach. Its span is made only if there are movements to cover. -/
theorem transaction_eq (day : Spanned Date) (ts : Tokens) :
    transaction day ts = lift (Production.transaction day ts) := by
  refine lift_bind (expect_eq _ _ _) fun ⟨description, ts⟩ => ?_
  refine lift_bind (movements_eq _) fun ⟨legs, ts⟩ => ?_
  -- Without legs both reject the statement, before a transaction is made of it.
  cases legs with
  | nil => rfl
  | cons leg legs =>
    show transactionOf day description (leg :: legs) >>= _ = _
    rw [transactionOf, step_bind (covering_cons _ _)]
    rfl

/-- The colon that may stand after a date. -/
def skipColon (ts : Tokens) : Reading Tokens :=
  if nextIs ":" ts then do
    let (_, ts) ← advance ts
    return ts
  else .ok ts

/-- The colon behind a date may be left out. -/
theorem skipColon_eq (ts : Tokens) : skipColon ts = .ok (Production.skipColon ts) := by
  unfold skipColon Production.skipColon
  cases ts with
  | nil => rfl
  | cons t ts =>
    show (if t.value.isSeparator ":" then _ else _) = _
    dsimp only
    split
    · rfl
    · rfl

/-- A statement. -/
def statement (ts : Tokens) : Reading (Spanned Statement × Tokens) := do
  let (day, ts) ← date ts
  let ts ← skipColon ts
  let (keyword, ts) ← expect Token.identifier? .keyword ts
  if keyword.value = "open" then opening day ts
  else if keyword.value = "balance" then assertion day ts
  else if keyword.value = "transaction" then transaction day ts
  else
    .error (.of
      (refuseToken (.unknownKeyword keyword.value) ⟨.identifier keyword.value, keyword.span⟩))

/-- **A statement stops at a rejection or at a fault**, as the one that runs does. -/
theorem statement_eq (ts : Tokens) : statement ts = lift (Production.statement ts) := by
  refine lift_bind (date_eq _) fun ⟨day, ts⟩ => ?_
  dsimp only
  rw [skipColon_eq]
  refine lift_bind (expect_eq _ _ _) fun ⟨keyword, ts⟩ => ?_
  dsimp only
  split
  · exact opening_eq day ts
  split
  · exact assertion_eq day ts
  split
  · exact transaction_eq day ts
  · rfl

/-- A statement takes at least one token, which is why the loop of statements ends. -/
theorem length_lt_of_statement {ts rest : Tokens} {s : Spanned Statement}
    (h : statement ts = .ok (s, rest)) : rest.length < ts.length := by
  rw [statement_eq, lift_eq_ok] at h
  exact Production.length_lt_of_statement h

/-! ## All statements -/

/-- The error that a rejection is in a source whose tokens end at the given offset. -/
def errorOf (stop : Nat) (r : Rejection) : Guarded ParseError :=
  match r.place with
  | some (range, found) => .ok ⟨range, r.complaint, found⟩
  | none => do
    let range ← span stop stop
    return ⟨range, r.complaint, "end of input"⟩

/-- A rejection becomes an error at the token that it names, or else at the end of the tokens. -/
theorem errorOf_eq (stop : Nat) (r : Rejection) : errorOf stop r = .ok (r.toError stop) := by
  unfold errorOf Rejection.toError
  cases r.place with
  | some place => rfl
  | none =>
    have hspan : span stop stop = .ok (Span.point stop) := span_eq (Span.point stop)
    dsimp only
    rw [bind_of_eq hspan]
    rfl

/-- The statements and errors of tokens without comments, of which the last one ends at `stop`. -/
def outcomes (stop : Nat) : Tokens → Guarded (List (Except ParseError (Spanned Statement)))
  | [] => .ok []
  | t :: ts =>
    match _ : statement (t :: ts) with
    | .ok (s, rest) => do
      let more ← outcomes stop rest
      return .ok s :: more
    | .error (.rejected r) => do
      let e ← errorOf stop r
      let more ← outcomes stop (nextStart ts)
      return .error e :: more
    | .error (.breach b) => .error b
termination_by ts => ts.length
decreasing_by
  · exact length_lt_of_statement ‹_›
  · exact Nat.lt_succ_of_le (nextStart_suffix ts).length_le

/-- What is read next decides alone, and it is what the production that runs gives. -/
theorem outcomes_cons (stop : Nat) (t : Spanned Token) (ts : Tokens) :
    outcomes stop (t :: ts) = match lift (Production.statement (t :: ts)) with
      | .ok (s, rest) => do
        let more ← outcomes stop rest
        return .ok s :: more
      | .error (.rejected r) => do
        let e ← errorOf stop r
        let more ← outcomes stop (nextStart ts)
        return .error e :: more
      | .error (.breach b) => .error b := by
  rw [outcomes, ← statement_eq]
  split
  · next h => rw [h]
  · next h => rw [h]
  · next h => rw [h]

/-- Behind a statement reading goes on with what is left. -/
theorem outcomes_of_ok {stop : Nat} {t : Spanned Token} {ts rest : Tokens} {s : Spanned Statement}
    (h : Production.statement (t :: ts) = .ok (s, rest)) :
    outcomes stop (t :: ts) = (do
      let more ← outcomes stop rest
      return .ok s :: more) := by
  rw [outcomes_cons, h]
  rfl

/-- After a rejection reading goes on where the next statement may start. -/
theorem outcomes_of_rejected {stop : Nat} {t : Spanned Token} {ts : Tokens} {r : Rejection}
    (h : Production.statement (t :: ts) = .error (.rejected r)) :
    outcomes stop (t :: ts) = (do
      let more ← outcomes stop (nextStart ts)
      return .error (r.toError stop) :: more) := by
  rw [outcomes_cons, h]
  exact bind_of_eq (errorOf_eq stop r) _

/-- A fault of a token ends the reading. -/
theorem outcomes_of_fault {stop : Nat} {t : Spanned Token} {ts : Tokens} {f : TokenFault}
    (h : Production.statement (t :: ts) = .error (.fault f)) :
    outcomes stop (t :: ts) = .error (.token f) := by
  rw [outcomes_cons, h]
  rfl

/-- What was read, unless a fault ended the reading. -/
def unlessFault (p : Parsed) : Guarded (List (Except ParseError (Spanned Statement))) :=
  match p.fault with
  | none => .ok p.outcomes
  | some f => .error (.token f)

theorem unlessFault_push (outcome : Except ParseError (Spanned Statement)) (p : Parsed) :
    unlessFault (p.push outcome) = (do
      let more ← unlessFault p
      return outcome :: more) := by
  unfold unlessFault
  rw [Parsed.fault_push]
  cases p.fault with
  | none => rfl
  | some f => rfl

/-- **Nothing but a fault ends the reading**, whatever the tokens are. -/
theorem outcomes_eq (stop : Nat) (ts : Tokens) :
    outcomes stop ts = unlessFault (Parsed.read stop ts) := by
  fun_induction Parsed.read stop ts with
  | case1 => rw [outcomes]; rfl
  | case2 t ts s rest hstatement ih => rw [outcomes_of_ok hstatement, ih, unlessFault_push]
  | case3 t ts r hstatement ih => rw [outcomes_of_rejected hstatement, ih, unlessFault_push]
  | case4 t ts f hstatement => exact outcomes_of_fault hstatement

/-- The statements of a list of tokens, in which comments do not count. -/
def parsed (ts : Tokens) : Guarded Parsed := do
  let significant := ts.filter fun t => !t.value.isComment
  let outcomes ← outcomes (Parsed.lastStop significant) significant
  return ⟨outcomes, none⟩

/-- Tokens that no fault ends the reading of are read. -/
theorem parsed_of_fault {ts : Tokens} (h : (Parsed.of ts).fault = none) :
    parsed ts = .ok (Parsed.of ts) := by
  have houtcomes : outcomes (Parsed.lastStop (ts.filter fun t => !t.value.isComment))
      (ts.filter fun t => !t.value.isComment) = .ok (Parsed.of ts).outcomes := by
    rw [outcomes_eq]
    show unlessFault (Parsed.of ts) = _
    rw [unlessFault, h]
  rw [parsed, bind_of_eq houtcomes, ← h]
  rfl

/-- **The tokens of every source are read.** -/
theorem parsed_eq (source : String) :
    parsed (Lexed.of source).tokens = .ok (Parsed.of (Lexed.of source).tokens) := by
  apply parsed_of_fault
  rw [Parsed.of_tokens]
  exact Parsed.fault_read _ (Parsed.lexemes_significant source)

end Daybook.Guarded
