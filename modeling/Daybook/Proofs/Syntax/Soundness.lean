import Daybook.Proofs.Source.Extent
import Daybook.Proofs.Syntax.Grammar

/-!
What the productions read is what the grammar describes.

What a production takes off the front of its tokens is what the grammar says of its value, and the
span of the value is the extent of the tokens taken (`Reads`). Productions join the spans of their
ends only, which is the extent as long as the spans of the tokens increase. Main statement:
`reads_of_statement`.
-/

namespace Daybook.Token

theorem number?_eq_some {t : Token} {d : Decimal} : t.number? = some d ↔ t = .number d := by
  cases t <;> simp [number?]

theorem identifier?_eq_some {t : Token} {name : String} :
    t.identifier? = some name ↔ t = .identifier name := by
  cases t <;> simp [identifier?]

theorem currency?_eq_some {t : Token} {code : String} :
    t.currency? = some code ↔ t = .currency code := by
  cases t <;> simp [currency?]

theorem movement?_eq_some {t : Token} {symbol : String} :
    t.movement? = some symbol ↔ t = .movement symbol := by
  cases t <;> simp [movement?]

theorem string?_eq_some {t : Token} {content : String} :
    t.string? = some content ↔ t = .string content := by
  cases t <;> simp [string?]

theorem isSeparator_eq_true {t : Token} {symbol : String} :
    t.isSeparator symbol = true ↔ t = .separator symbol := by
  cases t <;> simp [isSeparator]

theorem separator?_eq_some {t : Token} {symbol : String} {u : Unit} :
    t.separator? symbol = some u ↔ t = .separator symbol := by
  simp [separator?, isSeparator_eq_true]

end Daybook.Token

namespace Daybook

/-- A date is made from its own parts only. -/
theorem Date.of?_eq_some {y m d : Nat} {date : Date} :
    Date.of? y m d = some date ↔ y = date.year ∧ m = date.month ∧ d = date.day := by
  unfold Date.of?
  constructor
  · intro h
    split at h
    · obtain rfl := Option.some.inj h
      exact ⟨rfl, rfl, rfl⟩
    · cases h
  · rintro ⟨rfl, rfl, rfl⟩
    exact dif_pos ⟨date.year_bounds, date.month_bounds, date.day_bounds⟩

end Daybook

namespace Daybook.Production

open Grammar

variable {α : Type}

/-- The tokens of `ts` before `rest` mean the value, and their extent is its span. -/
def Reads (Means : List Token → α → Prop) (ts : Tokens) (a : Spanned α) (rest : Tokens) : Prop :=
  ∃ block, ts = block ++ rest ∧ Means (block.map (·.value)) a.value
    ∧ (Spanned.Increasing block → a.span = Spanned.extent block)

/-! ## Dates -/

/-- A part of a date is a natural number within the bounds of the part. -/
theorem datePart_eq_ok {part : DatePart} {d : Spanned Decimal} {n : Nat} :
    datePart part d = .ok n
      ↔ d.value.natural? = some n ∧ part.bounds.1 ≤ n ∧ n ≤ part.bounds.2 := by
  unfold datePart
  split
  · next m hm =>
    rw [hm]
    split
    · next hbounds =>
      simp only [Except.ok.injEq, Option.some.injEq]
      constructor
      · rintro rfl
        exact ⟨rfl, hbounds⟩
      · exact fun h => h.1
    · next hbounds =>
      simp only [reduceCtorEq, Option.some.injEq, false_iff]
      rintro ⟨rfl, h⟩
      exact hbounds h
  · next hnone => simp [hnone]

/-- A date is accepted if its parts are, in the years 1000 to 3000. -/
theorem dateOf_eq_ok {year month day : Spanned Decimal} {d : Spanned Date} :
    dateOf year month day = .ok d
      ↔ year.value.natural? = some d.value.year ∧ month.value.natural? = some d.value.month
        ∧ day.value.natural? = some d.value.day ∧ (1000 ≤ d.value.year ∧ d.value.year ≤ 3000)
        ∧ d.span = year.span.union day.span := by
  simp only [dateOf, bind_eq_ok, datePart_eq_ok, DatePart.bounds]
  constructor
  · rintro ⟨y, ⟨hy, hlow, hhigh⟩, m, ⟨hm, -⟩, n, ⟨hn, -⟩, h⟩
    split at h
    · next date hdate =>
      obtain ⟨rfl, rfl, rfl⟩ := Date.of?_eq_some.1 hdate
      cases h
      exact ⟨hy, hm, hn, ⟨hlow, hhigh⟩, rfl⟩
    · cases h
  · rintro ⟨hy, hm, hn, hbounds, hspan⟩
    -- Month and day need no check of their own: a date keeps within their bounds.
    have hmonth := d.value.month_bounds
    have hday := d.value.day_bounds
    have hle := Date.daysInMonth_le d.value.year d.value.month
    have hdate : Date.of? d.value.year d.value.month d.value.day = some d.value :=
      Date.of?_eq_some.2 ⟨rfl, rfl, rfl⟩
    refine ⟨_, ⟨hy, hbounds⟩, _, ⟨hm, hmonth⟩, _, ⟨hn, by omega, by omega⟩, ?_⟩
    rw [hdate, ← hspan]

/-- What is read as a date is the tokens of one. -/
theorem reads_of_date {ts rest : Tokens} {d : Spanned Date} (h : date ts = .ok (d, rest)) :
    Reads IsDate ts d rest := by
  simp only [date, bind_eq_ok, Prod.exists] at h
  obtain ⟨year, _, h₁, _, _, h₂, month, _, h₃, _, _, h₄, day, _, h₅, _, h₆, h₇⟩ := h
  obtain ⟨y, rfl, hy, hyspan⟩ := eq_cons_of_take h₁
  obtain ⟨g, rfl, hg, -⟩ := eq_cons_of_take h₂
  obtain ⟨m, rfl, hm, -⟩ := eq_cons_of_take h₃
  obtain ⟨g', rfl, hg', -⟩ := eq_cons_of_take h₄
  obtain ⟨n, rfl, hn, hnspan⟩ := eq_cons_of_take h₅
  cases h₇
  obtain ⟨hyear, hmonth, hday, hbounds, hspan⟩ := dateOf_eq_ok.1 h₆
  refine ⟨[y, g, m, g', n], rfl, ?_, ?_⟩
  · simp only [List.map_cons, List.map_nil, Token.number?_eq_some.1 hy,
      Token.separator?_eq_some.1 hg, Token.number?_eq_some.1 hm,
      Token.separator?_eq_some.1 hg', Token.number?_eq_some.1 hn]
    exact IsDate.mk hyear hmonth hday hbounds
  · intro hinc
    rw [hspan, ← hyspan, ← hnspan]
    exact (Spanned.extent_append_append [y] [g, m, g'] [n] hinc (List.cons_ne_nil _ _)
      (List.cons_ne_nil _ _)).symm

/-! ## Accounts -/

/-- The span of the last segment is that of the last token. -/
theorem reads_of_moreSegments {ts rest : Tokens} {names : List (Spanned String)}
    (h : moreSegments ts = .ok (names, rest)) :
    nextIs ":" rest = false ∧ ∃ block, ts = block ++ rest
      ∧ IsPath (block.map (·.value)) (names.map (·.value))
      ∧ ∀ (first : Spanned String) (t : Spanned Token), first.span = t.span →
        ((first :: names).getLast (List.cons_ne_nil _ _)).span
          = ((t :: block).getLast (List.cons_ne_nil _ _)).span := by
  fun_induction moreSegments ts generalizing names rest with
  | case1 =>
    cases h
    exact ⟨rfl, [], rfl, IsPath.nil, fun _ _ h => h⟩
  | case2 => cases h
  | case3 t hcolon =>
    cases h
    exact ⟨Bool.eq_false_iff.2 hcolon, [], rfl, IsPath.nil, fun _ _ h => h⟩
  | case4 colon t ts hcolon name hname ih =>
    simp only [bind_eq_ok, Prod.exists] at h
    obtain ⟨others, _, h₁, h₂⟩ := h
    cases h₂
    obtain ⟨hnext, block, rfl, hpath, hlast⟩ := ih h₁
    -- The last segment is this one or one of the others, whatever stands before it.
    refine ⟨hnext, colon :: t :: block, rfl, ?_, ?_⟩
    · simp only [List.map_cons, Token.isSeparator_eq_true.1 hcolon,
        Token.identifier?_eq_some.1 hname]
      exact IsPath.cons hpath
    · intro _ _ _
      rw [List.getLast_cons (List.cons_ne_nil _ _), List.getLast_cons (List.cons_ne_nil _ _),
        List.getLast_cons (List.cons_ne_nil _ _)]
      exact hlast _ t rfl
  | case5 => cases h
  | case6 colon t ts hcolon =>
    cases h
    exact ⟨Bool.eq_false_iff.2 hcolon, [], rfl, IsPath.nil, fun _ _ h => h⟩

theorem of?_eq_ok {kind : AccountKind} {segments : List String} {a : Account}
    (h : Account.of? kind segments = .ok a) : a.kind = kind ∧ a.segments = segments := by
  unfold Account.of? at h
  split at h
  · cases h
  split at h
  · cases h
  split at h
  · cases h
  · cases h
    exact ⟨rfl, rfl⟩

/-- What is read as an account is its tokens, and no colon follows. -/
theorem reads_of_account {ts rest : Tokens} {a : Spanned Account}
    (h : account ts = .ok (a, rest)) : nextIs ":" rest = false ∧ Reads IsAccount ts a rest := by
  simp only [account, bind_eq_ok, Prod.exists] at h
  obtain ⟨head, _, h₁, h⟩ := h
  split at h
  · cases h
  next kind hkind =>
  simp only [bind_eq_ok, Prod.exists] at h
  obtain ⟨_, _, h₂, first, _, h₃, others, _, h₄, _, h₅, h₆⟩ := h
  obtain ⟨t, rfl, ht, htspan⟩ := eq_cons_of_take h₁
  obtain ⟨c, rfl, hc, -⟩ := eq_cons_of_take h₂
  obtain ⟨u, rfl, hu, huspan⟩ := eq_cons_of_take h₃
  obtain ⟨hnext, block, rfl, hpath, hlast⟩ := reads_of_moreSegments h₄
  cases h₆
  simp only [accountOf] at h₅
  split at h₅
  · cases h₅
  split at h₅
  · next account haccount =>
    cases h₅
    obtain ⟨rfl, hsegments⟩ := of?_eq_ok haccount
    refine ⟨hnext, t :: c :: u :: block, rfl, ?_, ?_⟩
    · simp only [List.map_cons, Token.identifier?_eq_some.1 ht, Token.separator?_eq_some.1 hc,
        Token.identifier?_eq_some.1 hu, ← AccountKind.keyword_of_ofKeyword? hkind]
      refine IsAccount.mk ?_
      rw [hsegments]
      exact IsPath.cons hpath
    · intro hinc
      -- The last segment is named apart, so that the extent is that of the two ends.
      have hends : t :: c :: u :: block
          = [t] ++ (c :: (u :: block).dropLast) ++ [(u :: block).getLast (List.cons_ne_nil _ _)] := by
        simp only [List.cons_append, List.nil_append, List.dropLast_concat_getLast]
      rw [hends] at hinc ⊢
      rw [Spanned.extent_append_append _ _ _ hinc (List.cons_ne_nil _ _) (List.cons_ne_nil _ _),
        hlast first u huspan.symm, ← htspan]
      rfl
  · cases h₅

/-! ## Amounts and legs -/

/-- What is read as a currency is its token. -/
theorem reads_of_currency {ts rest : Tokens} {c : Spanned Currency}
    (h : currency ts = .ok (c, rest)) :
    Reads (fun block c => block = [Token.currency c.code]) ts c rest := by
  simp only [currency, bind_eq_ok, Prod.exists] at h
  obtain ⟨code, _, h₁, _, h₂, h₃⟩ := h
  obtain ⟨t, rfl, ht, htspan⟩ := eq_cons_of_take h₁
  cases h₃
  simp only [currencyOf] at h₂
  split at h₂
  · next currency hcode =>
    cases h₂
    unfold Currency.of? at hcode
    split at hcode
    · cases hcode
      refine ⟨[t], rfl, ?_, fun _ => htspan.symm⟩
      simp only [List.map_cons, List.map_nil, Token.currency?_eq_some.1 ht]
    · cases hcode
  · cases h₂

/-- An amount is a number and a currency. It begins at its sign, if it has one. -/
theorem exists_of_amount {sign : Option Span} {ts rest : Tokens} {m : Spanned Money}
    (h : amount sign ts = .ok (m, rest)) : ∃ (t : Spanned Token) (number : Decimal) (c : Spanned Currency),
      t.value = .number number
      ∧ Reads (fun block c => block = [Token.currency c.code]) ts.tail c rest ∧ ts = t :: ts.tail
      ∧ m.value = ⟨if sign.isSome then -number.value else number.value, c.value⟩
      ∧ m.span = (sign.getD t.span).union c.span := by
  simp only [amount, bind_eq_ok, Prod.exists] at h
  obtain ⟨number, _, h₁, c, _, h₂, h₃⟩ := h
  obtain ⟨t, rfl, ht, htspan⟩ := eq_cons_of_take h₁
  cases h₃
  refine ⟨t, number.value, c, Token.number?_eq_some.1 ht, reads_of_currency h₂, rfl, rfl, ?_⟩
  rw [htspan]

/-- What is read as an amount without sign is the tokens of one. -/
theorem reads_of_unsigned {ts rest : Tokens} {m : Spanned Money}
    (h : amount none ts = .ok (m, rest)) : Reads IsUnsigned ts m rest := by
  obtain ⟨t, number, c, ht, ⟨block, htail, hblock, hspan⟩, hts, hvalue, hm⟩ := exists_of_amount h
  rw [hts, htail]
  refine ⟨t :: block, rfl, ?_, ?_⟩
  · rw [List.map_cons, ht, hblock, hvalue]
    exact IsUnsigned.mk
  · intro hinc
    have hne : block ≠ [] := by rintro rfl; cases hblock
    rw [hm, hspan (List.pairwise_cons.1 hinc).2]
    exact (Spanned.extent_append (List.cons_ne_nil t []) hne).symm

/-- Behind a sign the number is left out of the span of the amount, but not out of its extent: it stands between the
sign and the currency. -/
theorem reads_of_minus {s : Spanned Token} {ts rest : Tokens} {m : Spanned Money}
    (hminus : s.value.isSeparator "-" = true) (h : amount (some s.span) ts = .ok (m, rest)) :
    Reads IsSigned (s :: ts) m rest := by
  obtain ⟨t, number, c, ht, ⟨block, htail, hblock, hspan⟩, hts, hvalue, hm⟩ := exists_of_amount h
  rw [hts, htail]
  refine ⟨s :: t :: block, rfl, ?_, ?_⟩
  · rw [List.map_cons, List.map_cons, ht, hblock, hvalue, Token.isSeparator_eq_true.1 hminus]
    exact IsSigned.minus IsUnsigned.mk
  · intro hinc
    have hne : block ≠ [] := by rintro rfl; cases hblock
    rw [hm, hspan (List.pairwise_cons.1 (List.pairwise_cons.1 hinc).2).2]
    exact (Spanned.extent_append_append [s] [t] block hinc (List.cons_ne_nil _ _) hne).symm

/-- What is read as an amount is a number and a currency, or these behind a minus sign. -/
theorem reads_of_signed {ts rest : Tokens} {m : Spanned Money}
    (h : signed ts = .ok (m, rest)) : Reads IsSigned ts m rest := by
  unfold signed at h
  split at h
  · split at h
    · next hminus => exact reads_of_minus hminus h
    · obtain ⟨block, hts, hblock, hspan⟩ := reads_of_unsigned h
      exact ⟨block, hts, IsSigned.plain hblock, hspan⟩
  · cases h

/-- A direction is found by its own symbol only. -/
theorem ofSymbol_eq_ok {symbol : String} {d : Direction} :
    Direction.ofSymbol symbol = .ok d ↔ symbol = d.symbol := by
  unfold Direction.ofSymbol
  cases d with
  | debit => split <;> [simp_all [Direction.symbol]; (split <;> simp_all [Direction.symbol])]
  | credit => split <;> [simp_all [Direction.symbol]; (split <;> simp_all [Direction.symbol])]

/-- A leg is read behind its symbol; together with the symbol it is one of the grammar. -/
theorem reads_of_movement {t : Spanned Token} {symbol : String} {ts rest : Tokens}
    {m : Spanned Movement} (ht : t.value.movement? = some symbol)
    (h : movement ⟨symbol, t.span⟩ ts = .ok (m, rest)) :
    nextIs ":" rest = false ∧ Reads IsMovement (t :: ts) m rest := by
  simp only [movement, bind_eq_ok] at h
  obtain ⟨direction, h₁, h⟩ := h
  split at h
  · cases h
  simp only [bind_eq_ok, Prod.exists] at h
  obtain ⟨amount, _, h₂, account, _, h₃, h₄⟩ := h
  obtain ⟨block₁, rfl, hamount, -⟩ := reads_of_unsigned h₂
  obtain ⟨hnext, block₂, rfl, haccount, hspan⟩ := reads_of_account h₃
  cases h₄
  simp only [directionOf] at h₁
  split at h₁
  · next d hd =>
    cases h₁
    obtain rfl := ofSymbol_eq_ok.1 hd
    refine ⟨hnext, [t] ++ block₁ ++ block₂, by simp, ?_, ?_⟩
    · simp only [List.map_append, List.map_cons, List.map_nil, Token.movement?_eq_some.1 ht]
      exact IsMovement.mk hamount haccount
    · intro hinc
      have hne : block₂ ≠ [] := by rintro rfl; cases haccount
      rw [Spanned.extent_append_append _ _ _ hinc (List.cons_ne_nil _ _) hne,
        ← hspan (List.pairwise_append.1 hinc).2.1]
      rfl
  · cases h₁

/-- Whether a leg begins here. -/
def nextIsMovement : Tokens → Bool
  | [] => false
  | t :: _ => t.value.movement?.isSome

/-- The spans of legs go on an extent to the left of them. -/
theorem reads_of_movements {ts rest : Tokens} {ms : List (Spanned Movement)}
    (h : movements ts = .ok (ms, rest)) :
    nextIsMovement rest = false ∧ (ms ≠ [] → nextIs ":" rest = false)
      ∧ ∃ block, ts = block ++ rest ∧ IsMovements (block.map (·.value)) (ms.map (·.value))
      ∧ ∀ before, before ≠ [] → Spanned.Increasing (before ++ block) →
        Span.covering (Spanned.extent before) (ms.map (·.span))
          = Spanned.extent (before ++ block) := by
  fun_induction movements ts generalizing ms rest with
  | case1 =>
    cases h
    refine ⟨rfl, fun h => absurd rfl h, [], rfl, IsMovements.nil, ?_⟩
    intro before _ _
    rw [List.append_nil]
    rfl
  | case2 t ts hnone =>
    cases h
    refine ⟨by simp [nextIsMovement, hnone], fun h => absurd rfl h, [], rfl, IsMovements.nil, ?_⟩
    intro before _ _
    rw [List.append_nil]
    rfl
  | case3 => cases h
  | case4 t ts symbol ht m _ h₁ ih =>
    simp only [bind_eq_ok, Prod.exists] at h
    obtain ⟨others, _, h₂, h₃⟩ := h
    cases h₃
    obtain ⟨hcolon, block₁, hts, hfirst, hspan⟩ := reads_of_movement ht h₁
    obtain ⟨hnext, hcolons, block₂, rfl, hothers, hspans⟩ := ih h₂
    refine ⟨hnext, ?_, block₁ ++ block₂, by rw [hts, List.append_assoc], ?_, ?_⟩
    · intro _
      cases others with
      | nil => simpa [List.map_eq_nil_iff.1 hothers.eq_nil] using hcolon
      | cons m ms => exact hcolons (List.cons_ne_nil m ms)
    · rw [List.map_append]
      exact IsMovements.cons hfirst hothers
    · -- The extent grows by one leg, and the others go on from there.
      intro before hbefore hinc
      rw [← List.append_assoc] at hinc ⊢
      have hne : block₁ ≠ [] := by rintro rfl; cases hfirst
      have hinner : Spanned.Increasing block₁ :=
        (List.pairwise_append.1 (List.pairwise_append.1 hinc).1).2.1
      calc Span.covering (Spanned.extent before) (m.span :: others.map (·.span))
          = Span.covering (Spanned.extent (before ++ block₁)) (others.map (·.span)) := by
            rw [Spanned.extent_append hbefore hne, ← hspan hinner]
            rfl
        _ = Spanned.extent (before ++ block₁ ++ block₂) :=
            hspans _ (List.append_ne_nil_of_left_ne_nil hbefore _) hinc

/-! ## Statements -/

/-- Whether what stands behind a statement cannot go on with it. Only a transaction takes as much as
it can. -/
def EndsBefore : Statement → Tokens → Prop
  | .transaction _ _ _ _, rest => nextIs ":" rest = false ∧ nextIsMovement rest = false
  | _, _ => True

/-- A colon is skipped, or there is none. -/
theorem skipColon_eq (ts : Tokens) :
    skipColon ts = ts ∨ ∃ t, t.value = .separator ":" ∧ ts = t :: skipColon ts := by
  unfold skipColon
  split
  · exact .inl rfl
  · next t ts =>
    split
    · next hcolon => exact .inr ⟨t, Token.isSeparator_eq_true.1 hcolon, rfl⟩
    · exact .inl rfl

/-- Behind a date and a keyword, tokens make up a statement. Whatever is between the date and these
tokens, the span of the statement goes from the first to the last of them all. -/
def Completes (name : String) (day : Spanned Date) (ts : Tokens) (s : Spanned Statement)
    (rest : Tokens) : Prop :=
  EndsBefore s.value rest ∧ ∃ block, ts = block ++ rest
    ∧ IsBody day.value (.identifier name :: block.map (·.value)) s.value
    ∧ ∀ before mid, before ≠ [] → day.span = Spanned.extent before →
      Spanned.Increasing (before ++ mid ++ block) →
      s.span = Spanned.extent (before ++ mid ++ block)

/-- A statement that ends with the tokens `us` gets its span from its date and from them. -/
theorem union_eq_extent {first last : Span} {before mid ts us : Tokens} (hbefore : before ≠ [])
    (hus : us ≠ []) (hfirst : first = Spanned.extent before)
    (hlast : Spanned.Increasing us → last = Spanned.extent us)
    (hinc : Spanned.Increasing (before ++ mid ++ (ts ++ us))) :
    first.union last = Spanned.extent (before ++ mid ++ (ts ++ us)) := by
  rw [← List.append_assoc, List.append_assoc before] at hinc ⊢
  rw [Spanned.extent_append_append _ _ _ hinc hbefore hus, hfirst,
    hlast (List.pairwise_append.1 hinc).2.1]

/-- What is read as an opening completes a statement. -/
theorem completes_of_opening {day : Spanned Date} {ts rest : Tokens} {s : Spanned Statement}
    (h : opening day ts = .ok (s, rest)) : Completes "open" day ts s rest := by
  simp only [opening, bind_eq_ok, Prod.exists] at h
  obtain ⟨a, _, h₁, c, _, h₂, h₃⟩ := h
  obtain ⟨-, block₁, rfl, haccount, -⟩ := reads_of_account h₁
  obtain ⟨block₂, rfl, hcurrency, hspan⟩ := reads_of_currency h₂
  cases h₃
  refine ⟨trivial, block₁ ++ block₂, by rw [List.append_assoc], ?_, ?_⟩
  · rw [List.map_append, hcurrency]
    exact IsBody.opening haccount
  · intro before mid hbefore hday hinc
    have hne : block₂ ≠ [] := by rintro rfl; cases hcurrency
    exact union_eq_extent hbefore hne hday hspan hinc

/-- So does what is read as an asserted balance. -/
theorem completes_of_assertion {day : Spanned Date} {ts rest : Tokens} {s : Spanned Statement}
    (h : assertion day ts = .ok (s, rest)) : Completes "balance" day ts s rest := by
  simp only [assertion, bind_eq_ok, Prod.exists] at h
  obtain ⟨a, _, h₁, m, _, h₂, h₃⟩ := h
  obtain ⟨-, block₁, rfl, haccount, -⟩ := reads_of_account h₁
  obtain ⟨block₂, rfl, hamount, hspan⟩ := reads_of_signed h₂
  cases h₃
  refine ⟨trivial, block₁ ++ block₂, by rw [List.append_assoc], ?_, ?_⟩
  · rw [List.map_append]
    exact IsBody.assertion haccount hamount
  · intro before mid hbefore hday hinc
    have hne : block₂ ≠ [] := by rintro rfl; exact hamount.ne_nil rfl
    exact union_eq_extent hbefore hne hday hspan hinc

/-- So does what is read as a transaction, and no movement follows. -/
theorem completes_of_transaction {day : Spanned Date} {ts rest : Tokens} {s : Spanned Statement}
    (h : transaction day ts = .ok (s, rest)) : Completes "transaction" day ts s rest := by
  simp only [transaction, bind_eq_ok, Prod.exists] at h
  obtain ⟨description, _, h₁, legs, _, h₂, h₃⟩ := h
  obtain ⟨t, rfl, ht, htspan⟩ := eq_cons_of_take h₁
  obtain ⟨hnext, hcolon, block, rfl, hlegs, hspan⟩ := reads_of_movements h₂
  simp only [Statement.transaction?] at h₃
  split at h₃
  · cases h₃
  next statement hstatement =>
  split at hstatement
  · cases hstatement
  next hne =>
  cases hstatement
  cases h₃
  refine ⟨⟨hcolon (by simpa using hne), hnext⟩, t :: block, rfl, ?_, ?_⟩
  · simp only [List.map_cons, Token.string?_eq_some.1 ht]
    exact IsBody.transaction hlegs
  · intro before mid hbefore hday hinc
    have hsplit : before ++ mid ++ t :: block = before ++ mid ++ [t] ++ block := by simp
    rw [hsplit] at hinc ⊢
    calc Span.covering day.span (description.span :: legs.map (·.span))
        = Span.covering ((Spanned.extent before).union t.span) (legs.map (·.span)) := by
          rw [hday, htspan]
          rfl
      _ = Span.covering (Spanned.extent (before ++ mid ++ [t])) (legs.map (·.span)) := by
          rw [Spanned.extent_append_append before mid [t] (List.pairwise_append.1 hinc).1 hbefore
            (List.cons_ne_nil t [])]
          rfl
      _ = Spanned.extent (before ++ mid ++ [t] ++ block) := hspan _ (by simp) hinc

/-- **Soundness**: a statement that is read is one of the grammar. -/
theorem reads_of_statement {ts rest : Tokens} {s : Spanned Statement}
    (h : statement ts = .ok (s, rest)) :
    EndsBefore s.value rest ∧ Reads IsStatement ts s rest := by
  simp only [statement, bind_eq_ok, Prod.exists] at h
  obtain ⟨day, rest₁, h₁, keyword, rest₂, h₂, h₃⟩ := h
  obtain ⟨block₁, rfl, hday, hspan₁⟩ := reads_of_date h₁
  obtain ⟨t, hcolon, ht, -⟩ := eq_cons_of_take h₂
  have hbody : Completes keyword.value day rest₂ s rest := by
    split at h₃
    · next hname => rw [hname]; exact completes_of_opening h₃
    split at h₃
    · next hname => rw [hname]; exact completes_of_assertion h₃
    split at h₃
    · next hname => rw [hname]; exact completes_of_transaction h₃
    · cases h₃
  obtain ⟨hends, block₂, rfl, hbody, hspan₂⟩ := hbody
  rw [← Token.identifier?_eq_some.1 ht] at hbody
  have hne : block₁ ≠ [] := by rintro rfl; cases hday
  refine ⟨hends, ?_⟩
  -- The colon behind the date belongs to the block but not to what was read of it.
  rcases skipColon_eq rest₁ with hskip | ⟨c, hc, hskip⟩
  · refine ⟨block₁ ++ [t] ++ block₂, by rw [← hskip, hcolon]; simp, ?_, ?_⟩
    · rw [List.append_assoc, List.map_append]
      exact IsStatement.bare hday hbody
    · intro hinc
      exact hspan₂ _ _ hne
        (hspan₁ (List.pairwise_append.1 (List.pairwise_append.1 hinc).1).1) hinc
  · refine ⟨block₁ ++ [c, t] ++ block₂, by rw [hskip, hcolon]; simp, ?_, ?_⟩
    · rw [List.append_assoc, List.map_append]
      simp only [List.cons_append, List.nil_append, List.map_cons, hc]
      exact IsStatement.colon hday hbody
    · intro hinc
      exact hspan₂ _ _ hne
        (hspan₁ (List.pairwise_append.1 (List.pairwise_append.1 hinc).1).1) hinc

end Daybook.Production
