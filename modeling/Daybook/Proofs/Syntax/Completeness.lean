import Daybook.Proofs.Account.Path
import Daybook.Proofs.Syntax.Soundness

/-!
What the grammar describes is what the productions read.

Tokens of the grammar are taken whatever stands behind them, as long as that cannot go on with them
(`Accepts`). The quantifiers are in this order because the span that a production gives must not
depend on what stands behind its tokens. Main statement: `accepts_of_isStatement`.
-/

namespace Daybook.Production

open Grammar

variable {α : Type}

/-- The production takes these tokens for the value, whatever follows them that ends them. -/
def Accepts (production : Tokens → Except Failure (Spanned α × Tokens)) (Ends : Tokens → Prop)
    (block : Tokens) (a : α) : Prop :=
  ∃ span, ∀ rest, Ends rest → production (block ++ rest) = .ok (⟨a, span⟩, rest)

/-- A wanted token is taken. -/
theorem take_cons {pick : Token → Option α} {wanted : Wanted} {t : Spanned Token} {a : α}
    (h : pick t.value = some a) (rest : Tokens) :
    take pick wanted (t :: rest) = .ok (⟨a, t.span⟩, rest) := by
  simp only [take, h]

/-- The tokens of a date are read as the date, whatever follows. -/
theorem accepts_of_isDate {block : Tokens} {d : Date} (h : IsDate (block.map (·.value)) d) :
    Accepts date (fun _ => True) block d := by
  generalize hvalues : block.map (·.value) = values at h
  obtain @⟨year, month, day, _, hyear, hmonth, hday, hbounds⟩ := h
  simp only [List.map_eq_cons_iff, List.map_eq_nil_iff] at hvalues
  obtain ⟨y, _, rfl, hy, g, _, rfl, hg, m, _, rfl, hm, g', _, rfl, hg', n, _, rfl, hn, rfl⟩ :=
    hvalues
  refine ⟨y.span.union n.span, fun rest _ => ?_⟩
  simp only [date, bind_eq_ok, Prod.exists]
  exact ⟨_, _, take_cons (Token.number?_eq_some.2 hy) _,
    _, _, take_cons (a := ()) (Token.separator?_eq_some.2 hg) _,
    _, _, take_cons (Token.number?_eq_some.2 hm) _,
    _, _, take_cons (a := ()) (Token.separator?_eq_some.2 hg') _,
    _, _, take_cons (Token.number?_eq_some.2 hn) _,
    _, dateOf_eq_ok.2 ⟨hyear, hmonth, hday, hbounds, rfl⟩, rfl⟩

/-- Where no colon follows there are no more segments. -/
theorem moreSegments_eq_nil {rest : Tokens} (h : nextIs ":" rest = false) :
    moreSegments rest = .ok ([], rest) := by
  rcases rest with _ | ⟨t, _ | ⟨u, rest⟩⟩
  · rfl
  · simp only [nextIs] at h
    simp [moreSegments, h]
  · simp only [nextIs] at h
    simp [moreSegments, h]

/-- The tokens of a path are read as its segments, up to where no colon follows. -/
theorem accepts_of_isPath {block : Tokens} {names : List String}
    (h : IsPath (block.map (·.value)) names) :
    ∃ segments : List (Spanned String), segments.map (·.value) = names
      ∧ ∀ rest, nextIs ":" rest = false → moreSegments (block ++ rest) = .ok (segments, rest) := by
  generalize hvalues : block.map (·.value) = values at h
  induction h generalizing block with
  | nil =>
    obtain rfl := List.map_eq_nil_iff.1 hvalues
    exact ⟨[], rfl, fun _ hrest => moreSegments_eq_nil hrest⟩
  | @cons name _ _ _ ih =>
    obtain ⟨c, _, rfl, hc, hvalues⟩ := List.map_eq_cons_iff.1 hvalues
    obtain ⟨t, block, rfl, ht, hvalues⟩ := List.map_eq_cons_iff.1 hvalues
    obtain ⟨segments, hmap, hmore⟩ := ih hvalues
    refine ⟨⟨name, t.span⟩ :: segments, by rw [List.map_cons, hmap], fun rest hrest => ?_⟩
    have hcolon : c.value.isSeparator ":" = true := Token.isSeparator_eq_true.2 hc
    have hname : t.value.identifier? = some name := Token.identifier?_eq_some.2 ht
    simp only [List.cons_append, moreSegments, hcolon, if_true, hname, hmore rest hrest]
    rfl

/-- The segments of an account make it up. -/
theorem accountOf_eq_ok (head first : Spanned String) (others : List (Spanned String))
    {a : Account} (h : (first :: others).map (·.value) = a.segments) :
    ∃ span, accountOf head a.kind first others = .ok ⟨a, span⟩ := by
  have hle := a.length_le
  simp only [accountOf]
  rw [h, if_neg (by omega), Account.of?_segments]
  exact ⟨_, rfl⟩

/-- The tokens of an account are read as the account, if no colon follows. -/
theorem accepts_of_isAccount {block : Tokens} {a : Account}
    (h : IsAccount (block.map (·.value)) a) :
    Accepts account (fun rest => nextIs ":" rest = false) block a := by
  generalize hvalues : block.map (·.value) = values at h
  obtain ⟨hpath⟩ := h
  obtain ⟨head, block, rfl, hhead, hvalues⟩ := List.map_eq_cons_iff.1 hvalues
  generalize hnames : a.segments = names at hpath
  cases hpath with
  | nil => exact absurd hnames a.ne_nil
  | @cons name ts names hmore =>
    obtain ⟨c, _, rfl, hc, hvalues⟩ := List.map_eq_cons_iff.1 hvalues
    obtain ⟨t, block, rfl, ht, hvalues⟩ := List.map_eq_cons_iff.1 hvalues
    obtain ⟨others, hothers, hsegments⟩ := accepts_of_isPath (hvalues ▸ hmore)
    obtain ⟨span, haccount⟩ := accountOf_eq_ok (a := a) ⟨a.kind.keyword, head.span⟩
      ⟨name, t.span⟩ others (by rw [hnames, List.map_cons, hothers])
    refine ⟨span, fun rest hrest => ?_⟩
    simp only [account, bind_eq_ok, Prod.exists]
    refine ⟨_, _, take_cons (Token.identifier?_eq_some.2 hhead) _, ?_⟩
    simp only [AccountKind.ofKeyword?_keyword, bind_eq_ok, Prod.exists]
    exact ⟨_, _, take_cons (a := ()) (Token.separator?_eq_some.2 hc) _,
      _, _, take_cons (Token.identifier?_eq_some.2 ht) _,
      _, _, hsegments rest hrest, _, haccount, rfl⟩

/-! ## Amounts and legs -/

theorem currency_cons {t : Spanned Token} {c : Currency} (h : t.value = .currency c.code)
    (rest : Tokens) : currency (t :: rest) = .ok (⟨c, t.span⟩, rest) := by
  simp only [currency, bind_eq_ok, Prod.exists]
  refine ⟨_, _, take_cons (Token.currency?_eq_some.2 h) _, ⟨c, t.span⟩, ?_, rfl⟩
  simp only [currencyOf, Currency.of?]
  rw [dif_pos c.isCode]

/-- A number and a currency are accepted as an amount, whether there is a sign before them or not. -/
theorem accepts_of_isUnsigned {block : Tokens} {m : Money}
    (h : IsUnsigned (block.map (·.value)) m) (sign : Option Span) :
    Accepts (amount sign) (fun _ => True) block (if sign.isSome then m.neg else m) := by
  generalize hvalues : block.map (·.value) = values at h
  obtain ⟨⟩ := h
  simp only [List.map_eq_cons_iff, List.map_eq_nil_iff] at hvalues
  obtain ⟨n, _, rfl, hn, c, _, rfl, hc, rfl⟩ := hvalues
  refine ⟨(sign.getD n.span).union c.span, fun rest _ => ?_⟩
  simp only [amount, bind_eq_ok, Prod.exists]
  refine ⟨_, _, take_cons (Token.number?_eq_some.2 hn) _, _, _, currency_cons hc rest, ?_⟩
  cases sign <;> rfl

/-- The tokens of a signed amount are read as the amount, whatever follows. -/
theorem accepts_of_isSigned {block : Tokens} {m : Money}
    (h : IsSigned (block.map (·.value)) m) : Accepts signed (fun _ => True) block m := by
  generalize hvalues : block.map (·.value) = values at h
  cases h with
  | plain hamount =>
    obtain ⟨span, hspan⟩ := accepts_of_isUnsigned (hvalues ▸ hamount) none
    refine ⟨span, fun rest hrest => ?_⟩
    obtain ⟨⟩ := hamount
    obtain ⟨n, block, rfl, hn, -⟩ := List.map_eq_cons_iff.1 hvalues
    -- A number is no minus sign.
    have hplain : n.value.isSeparator "-" = false := by rw [hn]; rfl
    simp only [signed, List.cons_append, hplain, Bool.false_eq_true, if_false]
    exact hspan rest hrest
  | minus hamount =>
    obtain ⟨t, block, rfl, ht, hvalues⟩ := List.map_eq_cons_iff.1 hvalues
    obtain ⟨span, hspan⟩ := accepts_of_isUnsigned (hvalues ▸ hamount) (some t.span)
    refine ⟨span, fun rest hrest => ?_⟩
    have hminus : t.value.isSeparator "-" = true := Token.isSeparator_eq_true.2 ht
    simp only [signed, List.cons_append, hminus, if_true]
    exact hspan rest hrest

/-- An amount without sign does not begin with a minus sign. -/
theorem nextIs_minus {block : Tokens} {m : Money} (h : IsUnsigned (block.map (·.value)) m)
    (rest : Tokens) : nextIs "-" (block ++ rest) = false := by
  generalize hvalues : block.map (·.value) = values at h
  obtain ⟨⟩ := h
  obtain ⟨n, block, rfl, hn, -⟩ := List.map_eq_cons_iff.1 hvalues
  simp only [List.cons_append, nextIs, hn]
  rfl

/-- A leg is accepted behind its symbol. -/
theorem accepts_of_isMovement {block : Tokens} {m : Movement}
    (h : IsMovement (block.map (·.value)) m) :
    ∃ t us symbol, block = t :: us ∧ t.value.movement? = some symbol
      ∧ Accepts (movement ⟨symbol, t.span⟩) (fun rest => nextIs ":" rest = false) us m := by
  generalize hvalues : block.map (·.value) = values at h
  obtain @⟨direction, _, _, _, _, amount, account⟩ := h
  rw [List.cons_append] at hvalues
  obtain ⟨t, _, rfl, ht, hvalues⟩ := List.map_eq_cons_iff.1 hvalues
  obtain ⟨us, vs, rfl, hus, hvs⟩ := List.map_eq_append_iff.1 hvalues
  obtain ⟨_, hamount⟩ := accepts_of_isUnsigned (hus ▸ amount) none
  obtain ⟨span, haccount⟩ := accepts_of_isAccount (hvs ▸ account)
  refine ⟨t, us ++ vs, direction.symbol, rfl, Token.movement?_eq_some.2 ht, t.span.union span, ?_⟩
  intro rest hrest
  have hdirection : directionOf ⟨direction.symbol, t.span⟩ = .ok direction := by
    simp only [directionOf, ofSymbol_eq_ok.2 rfl]
  -- A minus sign would be refused, but the amount begins with its number.
  have hminus : nextIs "-" (us ++ vs ++ rest) = false := by
    rw [List.append_assoc]
    exact nextIs_minus (hus ▸ amount) _
  simp only [movement, bind_eq_ok]
  refine ⟨_, hdirection, ?_⟩
  rw [hminus, List.append_assoc]
  simp only [Bool.false_eq_true, if_false, bind_eq_ok, Prod.exists]
  exact ⟨_, _, hamount _ trivial, _, _, haccount _ hrest, rfl⟩

/-- Where no movement follows there are none. -/
theorem movements_eq_nil {rest : Tokens} (h : nextIsMovement rest = false) :
    movements rest = .ok ([], rest) := by
  cases rest with
  | nil => rw [movements]
  | cons t rest =>
    have hnone : t.value.movement? = none := by simpa [nextIsMovement] using h
    rw [movements]
    split
    · rfl
    · next hsome => rw [hnone] at hsome; cases hsome

/-- Behind a leg there is another one or the end of them, but no colon. -/
theorem nextIs_colon_of_isMovements {block : Tokens} {ms : List Movement}
    (h : IsMovements (block.map (·.value)) ms) {rest : Tokens}
    (hrest : nextIs ":" rest = false) : nextIs ":" (block ++ rest) = false := by
  generalize hvalues : block.map (·.value) = values at h
  cases h with
  | nil =>
    obtain rfl := List.map_eq_nil_iff.1 hvalues
    exact hrest
  | cons first others =>
    obtain ⟨_, _⟩ := first
    obtain ⟨t, block, rfl, ht, -⟩ := List.map_eq_cons_iff.1 hvalues
    simp only [List.cons_append, nextIs, ht]
    rfl

/-- The tokens of movements are read as the movements, if neither a colon nor another movement follows. -/
theorem accepts_of_isMovements {block : Tokens} {ms : List Movement}
    (h : IsMovements (block.map (·.value)) ms) :
    ∃ legs : List (Spanned Movement), legs.map (·.value) = ms
      ∧ ∀ rest, nextIs ":" rest = false → nextIsMovement rest = false →
        movements (block ++ rest) = .ok (legs, rest) := by
  generalize hvalues : block.map (·.value) = values at h
  induction h generalizing block with
  | nil =>
    obtain rfl := List.map_eq_nil_iff.1 hvalues
    exact ⟨[], rfl, fun _ _ hrest => movements_eq_nil hrest⟩
  | @cons _ _ m _ first others ih =>
    obtain ⟨ts, us, rfl, hts, hus⟩ := List.map_eq_append_iff.1 hvalues
    obtain ⟨t, ts, symbol, rfl, ht, span, hfirst⟩ := accepts_of_isMovement (hts ▸ first)
    obtain ⟨legs, hmap, hothers⟩ := ih hus
    refine ⟨⟨m, span⟩ :: legs, by rw [List.map_cons, hmap], fun rest hcolon hrest => ?_⟩
    -- The path of this leg ends because the next leg begins with its symbol.
    have hhead := hfirst (us ++ rest) (nextIs_colon_of_isMovements (hus ▸ others) hcolon)
    rw [List.cons_append, List.cons_append, List.append_assoc, movements]
    split
    · next hnone => rw [ht] at hnone; cases hnone
    · next symbol' hsymbol =>
      rw [ht] at hsymbol
      cases hsymbol
      split
      · next herror => rw [hhead] at herror; cases herror
      · next hok =>
        rw [hhead] at hok
        cases hok
        rw [hothers rest hcolon hrest]
        rfl

/-! ## Statements -/

/-- The tokens of an opening are read as the opening. -/
theorem accepts_opening {day : Spanned Date} {block : Tokens} {a : Account} {c : Currency}
    {ts : List Token} (hblock : block.map (·.value) = ts ++ [.currency c.code])
    (haccount : IsAccount ts a) :
    Accepts (opening day) (EndsBefore (.opening day.value a c)) block
      (.opening day.value a c) := by
  obtain ⟨us, vs, rfl, hus, hvs⟩ := List.map_eq_append_iff.1 hblock
  simp only [List.map_eq_cons_iff, List.map_eq_nil_iff] at hvs
  obtain ⟨t, _, rfl, ht, rfl⟩ := hvs
  obtain ⟨_, haccount⟩ := accepts_of_isAccount (hus ▸ haccount)
  refine ⟨day.span.union t.span, fun rest _ => ?_⟩
  have hcolon : nextIs ":" (t :: rest) = false := by simp only [nextIs, ht]; rfl
  simp only [opening, bind_eq_ok, Prod.exists, List.append_assoc]
  exact ⟨_, _, haccount _ hcolon, _, _, currency_cons ht rest, rfl⟩

/-- An amount does not begin with a colon, so it ends the account in front of it. -/
theorem nextIs_colon_of_isSigned {block : Tokens} {m : Money}
    (h : IsSigned (block.map (·.value)) m) (rest : Tokens) :
    nextIs ":" (block ++ rest) = false := by
  generalize hvalues : block.map (·.value) = values at h
  cases h with
  | plain amount =>
    obtain ⟨⟩ := amount
    obtain ⟨t, block, rfl, ht, -⟩ := List.map_eq_cons_iff.1 hvalues
    simp only [List.cons_append, nextIs, ht]
    rfl
  | minus amount =>
    obtain ⟨t, block, rfl, ht, -⟩ := List.map_eq_cons_iff.1 hvalues
    simp only [List.cons_append, nextIs, ht]
    rfl

/-- The tokens of an asserted balance are read as the assertion. -/
theorem accepts_assertion {day : Spanned Date} {block : Tokens} {a : Account} {m : Money}
    {ts us : List Token} (hblock : block.map (·.value) = ts ++ us) (haccount : IsAccount ts a)
    (hamount : IsSigned us m) :
    Accepts (assertion day) (EndsBefore (.assertion day.value a m)) block
      (.assertion day.value a m) := by
  obtain ⟨ts, us, rfl, rfl, rfl⟩ := List.map_eq_append_iff.1 hblock
  obtain ⟨_, haccount⟩ := accepts_of_isAccount haccount
  obtain ⟨span, hspan⟩ := accepts_of_isSigned hamount
  refine ⟨day.span.union span, fun rest _ => ?_⟩
  simp only [assertion, bind_eq_ok, Prod.exists, List.append_assoc]
  exact ⟨_, _, haccount _ (nextIs_colon_of_isSigned hamount rest), _, _, hspan rest trivial, rfl⟩

/-- The tokens of a transaction are read as the transaction, if nothing follows that could belong to it. -/
theorem accepts_transaction {day : Spanned Date} {block : Tokens} {description : String}
    {ms : List Movement} {ne_nil : ms ≠ []} {ts : List Token}
    (hblock : block.map (·.value) = .string description :: ts) (hlegs : IsMovements ts ms) :
    Accepts (transaction day) (EndsBefore (.transaction day.value description ms ne_nil)) block
      (.transaction day.value description ms ne_nil) := by
  obtain ⟨t, block, rfl, ht, rfl⟩ := List.map_eq_cons_iff.1 hblock
  obtain ⟨legs, rfl, hmovements⟩ := accepts_of_isMovements hlegs
  refine ⟨Span.covering day.span (t.span :: legs.map (·.span)), fun rest hrest => ?_⟩
  simp only [transaction, bind_eq_ok, Prod.exists]
  refine ⟨_, _, take_cons (Token.string?_eq_some.2 ht) _, _, _,
    hmovements rest hrest.1 hrest.2, ?_⟩
  simp only [Statement.transaction?, dif_neg ne_nil]
  rfl

/-- What the keyword decides on. -/
def bodyOf (day : Spanned Date) (t : Spanned Token) (name : String) (ts : Tokens) :
    Except Failure (Spanned Statement × Tokens) :=
  if name = "open" then opening day ts
  else if name = "balance" then assertion day ts
  else if name = "transaction" then transaction day ts
  else .error (refuseToken (.unknownKeyword name) ⟨.identifier name, t.span⟩)

/-- A statement is read by what its keyword decides on. -/
theorem statement_eq_bodyOf {ts rest us : Tokens} {day : Spanned Date} {t : Spanned Token}
    {name : String} (hdate : date ts = .ok (day, rest)) (hskip : skipColon rest = t :: us)
    (ht : t.value = .identifier name) : statement ts = bodyOf day t name us := by
  have htake : take Token.identifier? .keyword (t :: us) = .ok (⟨name, t.span⟩, us) :=
    take_cons (Token.identifier?_eq_some.2 ht) us
  simp only [statement, hdate, bind, Except.bind, hskip, htake]
  rfl

/-- What stands behind a date is accepted behind its keyword. -/
theorem accepts_of_isBody (day : Spanned Date) {block : Tokens} {s : Statement}
    (h : IsBody day.value (block.map (·.value)) s) :
    ∃ t name us, block = t :: us ∧ t.value = .identifier name
      ∧ Accepts (bodyOf day t name) (EndsBefore s) us s := by
  generalize hvalues : block.map (·.value) = values at h
  cases h with
  | opening haccount =>
    rw [List.cons_append] at hvalues
    obtain ⟨t, block, rfl, ht, hvalues⟩ := List.map_eq_cons_iff.1 hvalues
    exact ⟨t, _, block, rfl, ht, accepts_opening hvalues haccount⟩
  | assertion haccount hamount =>
    rw [List.cons_append] at hvalues
    obtain ⟨t, block, rfl, ht, hvalues⟩ := List.map_eq_cons_iff.1 hvalues
    exact ⟨t, _, block, rfl, ht, accepts_assertion hvalues haccount hamount⟩
  | transaction hlegs =>
    obtain ⟨t, block, rfl, ht, hvalues⟩ := List.map_eq_cons_iff.1 hvalues
    exact ⟨t, _, block, rfl, ht, accepts_transaction hvalues hlegs⟩

/-- **Completeness**: every statement of the grammar is read. -/
theorem accepts_of_isStatement {block : Tokens} {s : Statement}
    (h : IsStatement (block.map (·.value)) s) : Accepts statement (EndsBefore s) block s := by
  generalize hvalues : block.map (·.value) = values at h
  cases h with
  | @bare _ _ date _ hday hbody =>
    obtain ⟨block₁, block₂, rfl, rfl, rfl⟩ := List.map_eq_append_iff.1 hvalues
    obtain ⟨dayspan, hdate⟩ := accepts_of_isDate hday
    obtain ⟨t, name, us, rfl, ht, span, hspan⟩ := accepts_of_isBody ⟨date, dayspan⟩ hbody
    refine ⟨span, fun rest hrest => ?_⟩
    have hskip : skipColon (t :: us ++ rest) = t :: (us ++ rest) := by
      simp only [skipColon, List.cons_append, ht]
      rfl
    rw [List.append_assoc, statement_eq_bodyOf (hdate _ trivial) hskip ht]
    exact hspan rest hrest
  | @colon _ _ date _ hday hbody =>
    obtain ⟨block₁, block₂, rfl, rfl, hright⟩ := List.map_eq_append_iff.1 hvalues
    obtain ⟨c, block₂, rfl, hc, rfl⟩ := List.map_eq_cons_iff.1 hright
    obtain ⟨dayspan, hdate⟩ := accepts_of_isDate hday
    obtain ⟨t, name, us, rfl, ht, span, hspan⟩ := accepts_of_isBody ⟨date, dayspan⟩ hbody
    refine ⟨span, fun rest hrest => ?_⟩
    have hskip : skipColon (c :: t :: us ++ rest) = t :: (us ++ rest) := by
      simp only [skipColon, List.cons_append, hc]
      rfl
    rw [List.append_assoc, statement_eq_bodyOf (hdate _ trivial) hskip ht]
    exact hspan rest hrest

end Daybook.Production
