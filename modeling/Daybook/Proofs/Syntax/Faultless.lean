import Daybook.Proofs.Syntax.Lexeme
import Daybook.Proofs.Syntax.Soundness

/-!
The tokens of a text never end all reading.

Three leaves of the productions can fail with a fault: an account whose segments break the rules, a
currency that is none and a symbol that is no direction. Tokens that keep the rules of their kinds
(`Lexemes`) reach none of them, so a statement is read or rejected (`faultless_statement`).
-/

namespace Daybook.Production

open Grammar

variable {α β : Type}

/-- Whether all tokens keep the rules of their kinds. -/
def Lexemes (ts : Tokens) : Prop :=
  ∀ t ∈ ts, t.value.WellFormed

/-- What is left of well-formed tokens is well formed. -/
theorem Lexemes.of_suffix {ts rest : Tokens} (h : Lexemes ts) (hsuffix : rest <:+ ts) :
    Lexemes rest :=
  fun t ht => h t (hsuffix.subset ht)

theorem Lexemes.append {ts us : Tokens} (hts : Lexemes ts) (hus : Lexemes us) :
    Lexemes (ts ++ us) :=
  List.forall_mem_append.2 ⟨hts, hus⟩

/-- No fault is the outcome. -/
def Faultless (x : Except Failure α) : Prop :=
  ∀ f, x ≠ .error (.fault f)

theorem faultless_ok (a : α) : Faultless (.ok a) := by
  intro f h
  cases h

theorem faultless_rejected (r : Rejection) :
    Faultless (.error (.rejected r) : Except Failure α) := by
  intro f h
  cases h

/-- Steps one after the other are faultless if each is, the second one for what the first gives. -/
theorem faultless_bind {x : Except Failure α} {g : α → Except Failure β} (hx : Faultless x)
    (hg : ∀ a, x = .ok a → Faultless (g a)) : Faultless (x >>= g) := by
  cases x with
  | ok a => exact hg a rfl
  | error e =>
    intro f h
    cases h
    exact hx f rfl

theorem faultless_take (pick : Token → Option α) (wanted : Wanted) (ts : Tokens) :
    Faultless (take pick wanted ts) := by
  unfold take
  split
  · exact faultless_rejected _
  split
  · exact faultless_ok _
  · exact faultless_rejected _

theorem faultless_datePart (part : DatePart) (d : Spanned Decimal) :
    Faultless (datePart part d) := by
  unfold datePart
  split
  · split
    · exact faultless_ok _
    · exact faultless_rejected _
  · exact faultless_rejected _

/-- A date can be rejected, but not be at fault. -/
theorem faultless_dateOf (year month day : Spanned Decimal) :
    Faultless (dateOf year month day) := by
  refine faultless_bind (faultless_datePart _ _) fun _ _ => ?_
  refine faultless_bind (faultless_datePart _ _) fun _ _ => ?_
  refine faultless_bind (faultless_datePart _ _) fun _ _ => ?_
  split
  · exact faultless_ok _
  · exact faultless_rejected _

theorem faultless_date (ts : Tokens) : Faultless (date ts) := by
  refine faultless_bind (faultless_take _ _ _) fun _ _ => ?_
  refine faultless_bind (faultless_take _ _ _) fun _ _ => ?_
  refine faultless_bind (faultless_take _ _ _) fun _ _ => ?_
  refine faultless_bind (faultless_take _ _ _) fun _ _ => ?_
  refine faultless_bind (faultless_take _ _ _) fun _ _ => ?_
  exact faultless_bind (faultless_dateOf _ _ _) fun _ _ => faultless_ok _

theorem faultless_moreSegments (ts : Tokens) : Faultless (moreSegments ts) := by
  fun_induction moreSegments ts with
  | case1 => exact faultless_ok _
  | case2 => exact faultless_rejected _
  | case3 => exact faultless_ok _
  | case4 _ _ _ _ _ _ ih => exact faultless_bind ih fun _ _ => faultless_ok _
  | case5 => exact faultless_rejected _
  | case6 => exact faultless_ok _

/-- The segments of a path are identifiers among its tokens. -/
theorem identifier_mem_of_isPath {ts : List Token} {names : List String} (h : IsPath ts names)
    {name : String} (hname : name ∈ names) : .identifier name ∈ ts := by
  induction h with
  | nil => cases hname
  | cons _ ih =>
    rcases List.mem_cons.1 hname with rfl | hmem
    · simp
    · simp [ih hmem]

/-- Identifiers are accepted as segments, so an account is not at fault. -/
theorem faultless_accountOf {head first : Spanned String} {kind : AccountKind}
    {others : List (Spanned String)}
    (h : ∀ name ∈ (first :: others).map (·.value), isSegment name.toList = true) :
    Faultless (accountOf head kind first others) := by
  simp only [accountOf]
  split
  · exact faultless_rejected _
  next hle =>
  have hnone : ((first :: others).map (·.value)).find? (fun s => !isSegment s.toList) = none := by
    rw [List.find?_eq_none]
    intro name hname
    simp [h name hname]
  split
  · exact faultless_ok _
  · next hof =>
    unfold Account.of? at hof
    rw [dif_neg (by simp), dif_neg hle] at hof
    split at hof
    · next hsome => rw [hnone] at hsome; cases hsome
    · cases hof

/-- Every segment of a path is an identifier, and so a token that keeps its rule. -/
theorem isSegment_of_path {ts ts' rest : Tokens} {first : Spanned String}
    {others : List (Spanned String)} (h : Lexemes ts)
    (hfirst : take Token.identifier? .segment ts = .ok (first, ts'))
    (hothers : moreSegments ts' = .ok (others, rest)) :
    ∀ name ∈ (first :: others).map (·.value), isSegment name.toList = true := by
  obtain ⟨t, rfl, ht, -⟩ := eq_cons_of_take hfirst
  obtain ⟨-, block, rfl, hpath, -⟩ := reads_of_moreSegments hothers
  intro name hname
  rcases List.mem_cons.1 hname with rfl | hmem
  · have hwf := h t List.mem_cons_self
    rwa [Token.identifier?_eq_some.1 ht] at hwf
  · obtain ⟨u, hu, huvalue⟩ := List.mem_map.1 (identifier_mem_of_isPath hpath hmem)
    have hwf := h u (by simp [hu])
    rwa [huvalue] at hwf

theorem faultless_account {ts : Tokens} (h : Lexemes ts) : Faultless (account ts) := by
  refine faultless_bind (faultless_take _ _ _) fun ⟨head, ts₁⟩ h₁ => ?_
  dsimp only
  split
  · exact faultless_rejected _
  refine faultless_bind (faultless_take _ _ _) fun ⟨_, ts₂⟩ h₂ => ?_
  refine faultless_bind (faultless_take _ _ _) fun ⟨first, ts₃⟩ h₃ => ?_
  refine faultless_bind (faultless_moreSegments _) fun ⟨others, rest⟩ h₄ => ?_
  have hts₂ := (h.of_suffix (suffix_of_take h₁)).of_suffix (suffix_of_take h₂)
  exact faultless_bind (faultless_accountOf (isSegment_of_path hts₂ h₃ h₄)) fun _ _ => faultless_ok _

/-- A code that was read as a currency is accepted as one. -/
theorem faultless_currency {ts : Tokens} (h : Lexemes ts) : Faultless (currency ts) := by
  refine faultless_bind (faultless_take _ _ _) fun ⟨code, rest⟩ h₁ => ?_
  refine faultless_bind ?_ fun _ _ => faultless_ok _
  obtain ⟨t, rfl, ht, -⟩ := eq_cons_of_take h₁
  have hwf := h t List.mem_cons_self
  rw [Token.currency?_eq_some.1 ht] at hwf
  have hcode : isCurrencyCode code.value.toList = true := hwf
  simp only [currencyOf, Currency.of?]
  rw [dif_pos hcode]
  exact faultless_ok _

theorem faultless_amount {ts : Tokens} (h : Lexemes ts) (sign : Option Span) :
    Faultless (amount sign ts) := by
  refine faultless_bind (faultless_take _ _ _) fun ⟨_, _⟩ h₁ => ?_
  exact faultless_bind (faultless_currency (h.of_suffix (suffix_of_take h₁))) fun _ _ =>
    faultless_ok _

theorem faultless_signed {ts : Tokens} (h : Lexemes ts) : Faultless (signed ts) := by
  unfold signed
  split
  · split
    · exact faultless_amount (h.of_suffix (List.suffix_cons _ _)) _
    · exact faultless_amount h _
  · exact faultless_amount h _

/-- The symbols of movements are those of the two directions. -/
theorem faultless_movement {t : Spanned Token} {symbol : String} {ts : Tokens}
    (ht : t.value.movement? = some symbol) (h : Lexemes (t :: ts)) :
    Faultless (movement ⟨symbol, t.span⟩ ts) := by
  have hts := h.of_suffix (List.suffix_cons t ts)
  refine faultless_bind ?_ fun _ _ => ?_
  · have hwf := h t List.mem_cons_self
    rw [Token.movement?_eq_some.1 ht] at hwf
    rcases hwf with rfl | rfl
    · exact faultless_ok _
    · exact faultless_ok _
  split
  · cases ts with
    | nil => exact faultless_rejected _
    | cons => exact faultless_rejected _
  · refine faultless_bind (faultless_amount hts _) fun ⟨_, _⟩ h₁ => ?_
    exact faultless_bind (faultless_account (hts.of_suffix (suffix_of_amount h₁))) fun _ _ =>
      faultless_ok _

/-- Movements are faultless one after the other, by induction on how they are read. -/
theorem faultless_movements {ts : Tokens} (h : Lexemes ts) : Faultless (movements ts) := by
  fun_induction movements ts with
  | case1 => exact faultless_ok _
  | case2 => exact faultless_ok _
  | case3 t ts symbol ht e herror =>
    intro f hf
    cases hf
    exact faultless_movement ht h f herror
  | case4 t ts _ _ _ _ h₁ ih =>
    have hrest := (h.of_suffix (List.suffix_cons t ts)).of_suffix (suffix_of_movement h₁)
    exact faultless_bind (ih hrest) fun _ _ => faultless_ok _

theorem faultless_opening {day : Spanned Date} {ts : Tokens} (h : Lexemes ts) :
    Faultless (opening day ts) := by
  refine faultless_bind (faultless_account h) fun ⟨_, _⟩ h₁ => ?_
  exact faultless_bind (faultless_currency (h.of_suffix (suffix_of_account h₁))) fun _ _ =>
    faultless_ok _

theorem faultless_assertion {day : Spanned Date} {ts : Tokens} (h : Lexemes ts) :
    Faultless (assertion day ts) := by
  refine faultless_bind (faultless_account h) fun ⟨_, _⟩ h₁ => ?_
  exact faultless_bind (faultless_signed (h.of_suffix (suffix_of_account h₁))) fun _ _ =>
    faultless_ok _

theorem faultless_transaction {day : Spanned Date} {ts : Tokens} (h : Lexemes ts) :
    Faultless (transaction day ts) := by
  refine faultless_bind (faultless_take _ _ _) fun ⟨_, _⟩ h₁ => ?_
  refine faultless_bind (faultless_movements (h.of_suffix (suffix_of_take h₁))) fun ⟨_, us⟩ _ => ?_
  dsimp only
  split
  · cases us with
    | nil => exact faultless_rejected _
    | cons => exact faultless_rejected _
  · exact faultless_ok _

/-- **A statement is read or rejected.** -/
theorem faultless_statement {ts : Tokens} (h : Lexemes ts) : Faultless (statement ts) := by
  refine faultless_bind (faultless_date _) fun ⟨_, rest⟩ h₁ => ?_
  refine faultless_bind (faultless_take _ _ _) fun ⟨_, body⟩ h₂ => ?_
  obtain ⟨block, rfl, -⟩ := reads_of_date h₁
  have hrest : Lexemes rest := h.of_suffix (List.suffix_append block rest)
  have hbody : Lexemes body :=
    (hrest.of_suffix (skipColon_suffix rest)).of_suffix (suffix_of_take h₂)
  dsimp only
  split
  · exact faultless_opening hbody
  split
  · exact faultless_assertion hbody
  split
  · exact faultless_transaction hbody
  · exact faultless_rejected _

end Daybook.Production
