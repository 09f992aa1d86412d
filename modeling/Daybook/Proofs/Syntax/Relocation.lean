import Daybook.Proofs.Syntax.Placing
import Daybook.Proofs.Syntax.Recovery

/-!
Where tokens are does not matter.

No production looks at a span. Moving the spans of the tokens, by a map that preserves unions, moves those
of what is read and of what is complained about, and nothing else changes: the same values, the same
complaints and the same tokens left over (`statement_relocate`, `read_relocate`).
-/

namespace Daybook

/-- The rejection with its place moved. -/
def Rejection.relocate (f : Span → Span) (r : Rejection) : Rejection :=
  { r with place := r.place.map fun (span, found) => (f span, found) }

/-- The failure with its place moved. -/
def Failure.relocate (f : Span → Span) : Failure → Failure
  | .rejected r => .rejected (r.relocate f)
  | .fault e => .fault e

/-- The error with its span moved. -/
def ParseError.relocate (f : Span → Span) (e : ParseError) : ParseError :=
  { e with span := f e.span }

namespace Production

open Spanned Daybook.Span

variable {α β γ δ : Type} (f : Span → Span)

/-- The outcome with its failure moved, and what is read changed by the given map. -/
def moved (g : α → β) : Except Failure α → Except Failure β
  | .ok a => .ok (g a)
  | .error e => .error (e.relocate f)

/-- What a production reads and leaves, moved. -/
def movedRest (p : Spanned α × Tokens) : Spanned α × Tokens :=
  (p.1.relocate f, p.2.map (relocate f))

/-- The same for productions that read a list. -/
def movedRests (p : List (Spanned α) × Tokens) : List (Spanned α) × Tokens :=
  (p.1.map (relocate f), p.2.map (relocate f))

variable {f}

/-- Steps one after the other are moved if each is. The lemmas about productions peel their steps with this one. -/
theorem bind_moved {g : α → β} {h : γ → δ} {x : Except Failure α} {x' : Except Failure β}
    {k : α → Except Failure γ} {k' : β → Except Failure δ} (hx : x' = moved f g x)
    (hk : ∀ a, k' (g a) = moved f h (k a)) : x' >>= k' = moved f h (x >>= k) := by
  cases x with
  | ok a => rw [hx]; exact hk a
  | error e => rw [hx]; rfl

/-- A value that is read from one span to another one is moved with them. -/
theorem ok_union (hf : PreservesUnion f) (value : α) (a b : Span) (rest : Tokens) :
    (.ok (⟨value, (f a).union (f b)⟩, rest.map (relocate f))
        : Except Failure (Spanned α × Tokens))
      = moved f (movedRest f) (.ok (⟨value, a.union b⟩, rest)) := by
  rw [← hf]
  rfl

/-- A refusal names the first token, wherever that stands. -/
theorem refuse_relocate (complaint : Complaint) (ts : Tokens) :
    refuse complaint (ts.map (relocate f)) = (refuse complaint ts).relocate f := by
  cases ts with
  | nil => rfl
  | cons t ts => rfl

/-- Taking a token moves with it. -/
theorem take_relocate (pick : Token → Option α) (wanted : Wanted) (ts : Tokens) :
    take pick wanted (ts.map (relocate f)) = moved f (movedRest f) (take pick wanted ts) := by
  cases ts with
  | nil => rfl
  | cons t ts =>
    rw [List.map_cons, take, take, value_relocate]
    cases pick t.value with
    | some a => rfl
    | none => rfl

/-! ## Dates -/

theorem datePart_relocate (part : DatePart) (d : Spanned Decimal) :
    datePart part (d.relocate f) = moved f id (datePart part d) := by
  rw [datePart, datePart, value_relocate]
  cases d.value.natural? with
  | none => rfl
  | some n =>
    dsimp only
    split
    · rfl
    · rfl

/-- Moving the parts of a date moves the date, because the map preserves unions. -/
theorem dateOf_relocate (hf : PreservesUnion f) (year month day : Spanned Decimal) :
    dateOf (year.relocate f) (month.relocate f) (day.relocate f)
      = moved f (relocate f) (dateOf year month day) := by
  refine bind_moved (datePart_relocate _ _) fun y => ?_
  refine bind_moved (datePart_relocate _ _) fun m => ?_
  refine bind_moved (datePart_relocate _ _) fun d => ?_
  simp only [id, value_relocate, span_relocate, ← hf _ _]
  cases Date.of? y m d with
  | some date => rfl
  | none => rfl

theorem date_relocate (hf : PreservesUnion f) (ts : Tokens) :
    date (ts.map (relocate f)) = moved f (movedRest f) (date ts) := by
  refine bind_moved (take_relocate _ _ _) fun ⟨year, ts⟩ => ?_
  refine bind_moved (take_relocate _ _ _) fun ⟨_, ts⟩ => ?_
  refine bind_moved (take_relocate _ _ _) fun ⟨month, ts⟩ => ?_
  refine bind_moved (take_relocate _ _ _) fun ⟨_, ts⟩ => ?_
  refine bind_moved (take_relocate _ _ _) fun ⟨day, ts⟩ => ?_
  exact bind_moved (dateOf_relocate hf _ _ _) fun _ => rfl

/-! ## Accounts -/

theorem moreSegments_relocate (ts : Tokens) :
    moreSegments (ts.map (relocate f)) = moved f (movedRests f) (moreSegments ts) := by
  fun_induction moreSegments ts with
  | case1 => rfl
  | case2 t h =>
    rw [List.map_cons, List.map_nil, moreSegments, value_relocate, if_pos h]
    rfl
  | case3 t h =>
    rw [List.map_cons, List.map_nil, moreSegments, value_relocate, if_neg h]
    rfl
  | case4 colon t ts hcolon name hname ih =>
    rw [List.map_cons, List.map_cons, moreSegments, value_relocate, value_relocate, if_pos hcolon,
      hname]
    exact bind_moved ih fun _ => rfl
  | case5 colon t ts hcolon hname =>
    rw [List.map_cons, List.map_cons, moreSegments, value_relocate, value_relocate, if_pos hcolon,
      hname]
    rfl
  | case6 colon t ts hcolon =>
    rw [List.map_cons, List.map_cons, moreSegments, value_relocate, if_neg hcolon]
    rfl

/-- Moving the parts of an account moves the account. -/
theorem accountOf_relocate (hf : PreservesUnion f) (head : Spanned String) (kind : AccountKind)
    (first : Spanned String) (others : List (Spanned String)) :
    accountOf (head.relocate f) kind (first.relocate f) (others.map (relocate f))
      = moved f (relocate f) (accountOf head kind first others) := by
  have hlast : (first.relocate f :: others.map (relocate f)).getLast (List.cons_ne_nil _ _)
      = ((first :: others).getLast (List.cons_ne_nil _ _)).relocate f :=
    List.getLast_map (l := first :: others) _
  have hvalues : (first.relocate f :: others.map (relocate f)).map (·.value)
      = (first :: others).map (·.value) := map_value_relocate f (first :: others)
  simp only [accountOf, hlast, hvalues, span_relocate, ← hf _ _]
  split
  · rfl
  · split
    · rfl
    · rfl

theorem account_relocate (hf : PreservesUnion f) (ts : Tokens) :
    account (ts.map (relocate f)) = moved f (movedRest f) (account ts) := by
  refine bind_moved (take_relocate _ _ _) fun ⟨head, ts⟩ => ?_
  dsimp only [movedRest, value_relocate]
  cases AccountKind.ofKeyword? head.value with
  | none => rfl
  | some kind =>
    refine bind_moved (take_relocate _ _ _) fun ⟨_, ts⟩ => ?_
    refine bind_moved (take_relocate _ _ _) fun ⟨first, ts⟩ => ?_
    refine bind_moved (moreSegments_relocate _) fun ⟨others, ts⟩ => ?_
    exact bind_moved (accountOf_relocate hf _ _ _ _) fun _ => rfl

/-! ## Amounts and movements -/

theorem currencyOf_relocate (code : Spanned String) :
    currencyOf (code.relocate f) = moved f (relocate f) (currencyOf code) := by
  rw [currencyOf, currencyOf, value_relocate]
  cases Currency.of? code.value with
  | ok currency => rfl
  | error e => rfl

theorem currency_relocate (ts : Tokens) :
    currency (ts.map (relocate f)) = moved f (movedRest f) (currency ts) := by
  refine bind_moved (take_relocate _ _ _) fun ⟨code, ts⟩ => ?_
  exact bind_moved (currencyOf_relocate _) fun _ => rfl

/-- An amount moves with its sign. -/
theorem amount_relocate (hf : PreservesUnion f) (sign : Option Span) (ts : Tokens) :
    amount (sign.map f) (ts.map (relocate f)) = moved f (movedRest f) (amount sign ts) := by
  refine bind_moved (take_relocate _ _ _) fun ⟨number, ts⟩ => ?_
  refine bind_moved (currency_relocate _) fun ⟨currency, ts⟩ => ?_
  cases sign with
  | none => exact ok_union hf _ _ _ _
  | some s => exact ok_union hf _ _ _ _

theorem signed_relocate (hf : PreservesUnion f) (ts : Tokens) :
    signed (ts.map (relocate f)) = moved f (movedRest f) (signed ts) := by
  cases ts with
  | nil => exact amount_relocate hf none []
  | cons t ts =>
    rw [List.map_cons, signed, signed, value_relocate]
    split
    · exact amount_relocate hf (some t.span) ts
    · exact amount_relocate hf none (t :: ts)

theorem directionOf_relocate (arrow : Spanned String) :
    directionOf (arrow.relocate f) = moved f id (directionOf arrow) := by
  rw [directionOf, directionOf, value_relocate]
  cases Direction.ofSymbol arrow.value with
  | ok direction => rfl
  | error e => rfl

/-- What the next token is does not depend on where it is. -/
theorem nextIs_relocate (symbol : String) (ts : Tokens) :
    nextIs symbol (ts.map (relocate f)) = nextIs symbol ts := by
  cases ts with
  | nil => rfl
  | cons t ts => rfl

theorem movement_relocate (hf : PreservesUnion f) (arrow : Spanned String) (ts : Tokens) :
    movement (arrow.relocate f) (ts.map (relocate f))
      = moved f (movedRest f) (movement arrow ts) := by
  refine bind_moved (directionOf_relocate _) fun direction => ?_
  rw [nextIs_relocate]
  split
  · exact congrArg Except.error (refuse_relocate _ _)
  · refine bind_moved (amount_relocate hf none _) fun ⟨amount, ts⟩ => ?_
    refine bind_moved (account_relocate hf _) fun ⟨account, ts⟩ => ?_
    exact ok_union hf _ _ _ _

/-! ## Statements -/

/-- The first leg is read, and then the others. -/
theorem movements_cons {t : Spanned Token} {symbol : String} (ts : Tokens)
    (h : t.value.movement? = some symbol) :
    movements (t :: ts) = (do
      let (m, rest) ← movement ⟨symbol, t.span⟩ ts
      let (ms, rest) ← movements rest
      return (m :: ms, rest)) := by
  rw [movements, h]
  dsimp only
  split
  · next e herror => rw [herror]; rfl
  · next m rest hok => rw [hok]; rfl

/-- Movements move one after the other, by induction on how they are read. -/
theorem movements_relocate (hf : PreservesUnion f) (ts : Tokens) :
    movements (ts.map (relocate f)) = moved f (movedRests f) (movements ts) := by
  fun_induction movements ts with
  | case1 => rw [List.map_nil, movements]; rfl
  | case2 t ts hnone => rw [List.map_cons, movements, value_relocate, hnone]; rfl
  | case3 t ts symbol hsymbol e herror =>
    have hfirst : movement ⟨symbol, (t.relocate f).span⟩ (ts.map (relocate f)) = _ :=
      movement_relocate hf ⟨symbol, t.span⟩ ts
    rw [herror] at hfirst
    rw [List.map_cons, movements_cons (t := t.relocate f) _ hsymbol, hfirst]
    rfl
  | case4 t ts symbol hsymbol m rest hok ih =>
    have hfirst : movement ⟨symbol, (t.relocate f).span⟩ (ts.map (relocate f)) = _ :=
      movement_relocate hf ⟨symbol, t.span⟩ ts
    rw [hok] at hfirst
    rw [List.map_cons, movements_cons (t := t.relocate f) _ hsymbol, hfirst]
    change (movements (rest.map (relocate f)) >>= _) = _
    exact bind_moved ih fun _ => rfl

theorem opening_relocate (hf : PreservesUnion f) (day : Spanned Date) (ts : Tokens) :
    opening (day.relocate f) (ts.map (relocate f)) = moved f (movedRest f) (opening day ts) := by
  refine bind_moved (account_relocate hf _) fun ⟨account, ts⟩ => ?_
  refine bind_moved (currency_relocate _) fun ⟨currency, ts⟩ => ?_
  exact ok_union hf _ _ _ _

theorem assertion_relocate (hf : PreservesUnion f) (day : Spanned Date) (ts : Tokens) :
    assertion (day.relocate f) (ts.map (relocate f))
      = moved f (movedRest f) (assertion day ts) := by
  refine bind_moved (account_relocate hf _) fun ⟨account, ts⟩ => ?_
  refine bind_moved (signed_relocate hf _) fun ⟨amount, ts⟩ => ?_
  exact ok_union hf _ _ _ _

theorem transaction_relocate (hf : PreservesUnion f) (day : Spanned Date) (ts : Tokens) :
    transaction (day.relocate f) (ts.map (relocate f))
      = moved f (movedRest f) (transaction day ts) := by
  refine bind_moved (take_relocate _ _ _) fun ⟨description, ts⟩ => ?_
  refine bind_moved (movements_relocate hf _) fun ⟨legs, ts⟩ => ?_
  -- The span of a transaction covers its legs, however many there are.
  have hspan : Span.covering (f day.span) (f description.span :: (legs.map (·.span)).map f)
      = f (Span.covering day.span (description.span :: legs.map (·.span))) :=
    covering_map hf day.span (description.span :: legs.map Spanned.span)
  simp only [movedRests, value_relocate, span_relocate, map_value_relocate,
    map_span_relocate, hspan, refuse_relocate]
  cases Statement.transaction? day.value description.value (legs.map (·.value)) with
  | none => rfl
  | some s => rfl

theorem skipColon_relocate (ts : Tokens) :
    skipColon (ts.map (relocate f)) = (skipColon ts).map (relocate f) := by
  cases ts with
  | nil => rfl
  | cons t ts =>
    rw [List.map_cons, skipColon, skipColon, value_relocate]
    split
    · rfl
    · rfl

/-- **Where the tokens are does not matter for a statement.** -/
theorem statement_relocate (hf : PreservesUnion f) (ts : Tokens) :
    statement (ts.map (relocate f)) = moved f (movedRest f) (statement ts) := by
  refine bind_moved (date_relocate hf ts) fun ⟨day, ts⟩ => ?_
  simp only [movedRest, skipColon_relocate]
  refine bind_moved (take_relocate _ _ _) fun ⟨⟨name, span⟩, ts⟩ => ?_
  -- The keyword decides what follows, and its text is the same in both places.
  change (if name = "open" then opening (day.relocate f) (ts.map (relocate f))
    else if name = "balance" then assertion (day.relocate f) (ts.map (relocate f))
    else if name = "transaction" then transaction (day.relocate f) (ts.map (relocate f))
    else .error (refuseToken (.unknownKeyword name) ⟨.identifier name, f span⟩)) = _
  by_cases hopen : name = "open"
  · rw [if_pos hopen, if_pos hopen]
    exact opening_relocate hf day ts
  rw [if_neg hopen, if_neg hopen]
  by_cases hbalance : name = "balance"
  · rw [if_pos hbalance, if_pos hbalance]
    exact assertion_relocate hf day ts
  rw [if_neg hbalance, if_neg hbalance]
  by_cases htransaction : name = "transaction"
  · rw [if_pos htransaction, if_pos htransaction]
    exact transaction_relocate hf day ts
  · rw [if_neg htransaction, if_neg htransaction]
    rfl

end Production

namespace Parsed

open Production Spanned Daybook.Span

/-! ## All tokens of a source -/

/-- The outcome with its span moved. -/
def relocateOutcome (f : Span → Span) :
    Except ParseError (Spanned Statement) → Except ParseError (Spanned Statement)
  | .ok s => .ok (s.relocate f)
  | .error e => .error (e.relocate f)

/-- What was read, with all spans moved. -/
def relocate (f : Span → Span) (p : Parsed) : Parsed :=
  { p with outcomes := p.outcomes.map (relocateOutcome f) }

variable {f : Span → Span}

/-- Comments stay comments when they are moved. -/
theorem significant_relocate (l : Lexed) :
    significant (l.relocate f) = (significant l).map (Spanned.relocate f) :=
  List.filter_map

theorem significant_place_add (n offset : Nat) (ps : List Piece) :
    significant (Lexed.ofPlaced (Lexed.place (offset + n) ps))
      = (significant (Lexed.ofPlaced (Lexed.place offset ps))).map
          (Spanned.relocate (Span.shift n)) := by
  rw [Lexed.place_add, Lexed.ofPlaced_relocate, significant_relocate]

/-- Tokens stay well formed when they are moved. -/
theorem lexemes_relocate {ts : Tokens} (h : Lexemes ts) :
    Lexemes (ts.map (Spanned.relocate f)) := by
  intro t ht
  obtain ⟨u, hu, rfl⟩ := List.mem_map.1 ht
  exact h u hu

/-- The end of shifted tokens is shifted by as much. -/
theorem lastStop_shift (n : Nat) {ts : Tokens} (h : ts ≠ []) :
    lastStop (ts.map (Spanned.relocate (Span.shift n))) = lastStop ts + n := by
  rw [lastStop, lastStop, List.getLast?_map, List.getLast?_eq_some_getLast h]
  rfl

/-- The statements of what is moved are the moved statements. -/
theorem statements_relocate (p : Parsed) :
    (p.relocate f).statements = p.statements.map (Spanned.relocate f) := by
  simp only [statements, relocate, List.filterMap_map, List.map_filterMap]
  refine List.filterMap_congr fun outcome _ => ?_
  cases outcome with
  | ok s => rfl
  | error e => rfl

/-- The errors of what is moved are the moved errors. -/
theorem errors_relocate (p : Parsed) :
    (p.relocate f).errors = p.errors.map (ParseError.relocate f) := by
  simp only [errors, relocate, List.filterMap_map, List.map_filterMap]
  refine List.filterMap_congr fun outcome _ => ?_
  cases outcome with
  | ok s => rfl
  | error e => rfl

theorem startsStatement_relocate (ts : Tokens) :
    startsStatement (ts.map (Spanned.relocate f)) = startsStatement ts := by
  rw [Grammar.startsStatement_eq, Grammar.startsStatement_eq, map_value_relocate]

/-- Skipping does not look at places. -/
theorem nextStart_relocate (ts : Tokens) :
    nextStart (ts.map (Spanned.relocate f)) = (nextStart ts).map (Spanned.relocate f) := by
  induction ts with
  | nil => rfl
  | cons t ts ih =>
    have hstart : startsStatement (t.relocate f :: ts.map (Spanned.relocate f))
        = startsStatement (t :: ts) := startsStatement_relocate (t :: ts)
    rw [List.map_cons, nextStart, nextStart, hstart]
    split
    · rfl
    · exact ih

/-- A rejection moves with its token, or else with the end of the tokens. -/
theorem toError_relocate {stop stop' : Nat} (hstop : f (point stop) = point stop')
    (r : Rejection) : (r.relocate f).toError stop' = (r.toError stop).relocate f := by
  obtain ⟨complaint, place⟩ := r
  cases place with
  | none => exact congrArg (fun span => ParseError.mk span _ _) hstop.symm
  | some place => rfl

/-- **Where the tokens are does not matter for what is read.** -/
theorem read_relocate {stop stop' : Nat} (hf : PreservesUnion f)
    (hstop : f (point stop) = point stop') {ts : Tokens} (h : Lexemes ts) :
    read stop' (ts.map (Spanned.relocate f)) = (read stop ts).relocate f := by
  refine read_induction ?nil ?ok ?rejected ts h
  case nil => rw [List.map_nil, read_nil, read_nil]; rfl
  case ok =>
    intro t ts s rest _ hstatement ih
    have hmoved := statement_relocate hf (t :: ts)
    rw [hstatement] at hmoved
    rw [List.map_cons, read_of_ok hmoved, read_of_ok hstatement, ih]
    rfl
  case rejected =>
    intro t ts r _ hstatement ih
    have hmoved := statement_relocate hf (t :: ts)
    rw [hstatement] at hmoved
    rw [List.map_cons, read_of_rejected hmoved, read_of_rejected hstatement, nextStart_relocate,
      ih, toError_relocate hstop]
    rfl

end Parsed

end Daybook
