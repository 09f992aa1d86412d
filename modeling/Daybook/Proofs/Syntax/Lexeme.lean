import Daybook.Account.Basic
import Daybook.Money.Currency
import Daybook.Syntax.Lexer

/-!
The tokens that a text has.

A token can be built from any text, but what the lexer builds keeps the rule of its kind: `WellFormed`
states these rules, and `wellFormed_of_mem_tokens` says that all tokens of a source keep them.
-/

namespace Daybook.Token

/-- Whether the token keeps the rule of its kind. -/
def WellFormed : Token → Prop
  | .identifier name => isSegment name.toList = true
  | .number literal => literal.negative = false
  | .currency code => isCurrencyCode code.toList = true
  | .movement symbol => symbol = "<" ∨ symbol = ">"
  | .separator symbol => symbol = ":" ∨ symbol = "-"
  | .string content => '"' ∉ content.toList
  | .comment content => '\n' ∉ content.toList

instance : (t : Token) → Decidable t.WellFormed
  | .identifier name => inferInstanceAs (Decidable (isSegment name.toList = true))
  | .number literal => inferInstanceAs (Decidable (literal.negative = false))
  | .currency code => inferInstanceAs (Decidable (isCurrencyCode code.toList = true))
  | .movement symbol => inferInstanceAs (Decidable (symbol = "<" ∨ symbol = ">"))
  | .separator symbol => inferInstanceAs (Decidable (symbol = ":" ∨ symbol = "-"))
  | .string content => inferInstanceAs (Decidable ('"' ∉ content.toList))
  | .comment content => inferInstanceAs (Decidable ('\n' ∉ content.toList))

theorem not_mem_takeWhile_ne {c : Char} {cs : List Char} : c ∉ cs.takeWhile (· ≠ c) := by
  intro h
  simpa using List.all_eq_true.1 List.all_takeWhile c h

/-- What is taken as a currency has three to five capitals. -/
theorem wellFormed_of_takeCurrency? {cs rest : List Char} {t : Token}
    (h : takeCurrency? cs = some (t, rest)) : t.WellFormed := by
  simp only [takeCurrency?] at h
  split at h
  · next hlen =>
    cases h
    have hupper : ((cs.take 6).takeWhile Char.isUpper).all Char.isUpper = true :=
      List.all_takeWhile
    simp only [WellFormed, isCurrencyCode, String.toList_ofList, hupper, Bool.and_eq_true,
      decide_eq_true_eq]
    exact ⟨hlen, trivial⟩
  · cases h

/-- What is taken as a string has no quote inside. -/
theorem wellFormed_of_takeString? {cs rest : List Char} {t : Token}
    (h : takeString? cs = some (t, rest)) : t.WellFormed := by
  simp only [takeString?] at h
  split at h
  · cases h
    simp only [WellFormed, String.toList_ofList]
    exact not_mem_takeWhile_ne
  · cases h

/-- A token taken off the front of a text keeps the rule of its kind. -/
theorem wellFormed_of_take? {cs rest : List Char} {t : Token} (h : take? cs = some (t, rest)) :
    t.WellFormed := by
  unfold take? at h
  split at h
  · cases h
  · cases h
    simp only [WellFormed, String.toList_ofList]
    exact not_mem_takeWhile_ne
  next c cs _ =>
  split at h
  · exact wellFormed_of_takeCurrency? h
  split at h
  · next hc =>
    cases h
    rcases hc with rfl | rfl
    · exact .inl rfl
    · exact .inr rfl
  split at h
  · exact wellFormed_of_takeString? h
  split at h
  · next hc =>
    cases h
    rcases hc with rfl | rfl
    · exact .inl rfl
    · exact .inr rfl
  split at h
  · simp only [Option.map_eq_some_iff, Prod.mk.injEq, Prod.exists] at h
    obtain ⟨d, _, hd, rfl, -⟩ := h
    exact (Decimal.takeUnsigned?_eq_some hd).2
  split at h
  · next hlower =>
    cases h
    have hall : (cs.takeWhile isIdentifierChar).all isIdentifierChar = true :=
      List.all_takeWhile
    simp only [WellFormed, String.toList_ofList, isSegment, hlower, Bool.true_and]
    exact hall
  · cases h

end Daybook.Token

namespace Daybook.Lexed

/-- Whatever text is split, its tokens are well formed. -/
theorem wellFormed_of_mem_split {cs : List Char} {t : Token} (h : .token t ∈ Piece.split cs) :
    t.WellFormed := by
  fun_induction Piece.split cs with
  | case1 => cases h
  | case2 c cs _ ih =>
    rcases List.mem_cons.1 h with heq | hmem
    · cases heq
    · exact ih hmem
  | case3 c cs _ u rest htake ih =>
    rcases List.mem_cons.1 h with heq | hmem
    · cases heq
      exact Token.wellFormed_of_take? htake
    · exact ih hmem
  | case4 c cs _ _ ih =>
    rcases List.mem_cons.1 h with heq | hmem
    · cases heq
    · exact ih hmem

/-- Placing pieces keeps them and their order. -/
theorem map_value_place (offset : Nat) (ps : List Piece) :
    (place offset ps).map (·.value) = ps := by
  induction ps generalizing offset with
  | nil => rfl
  | cons p ps ih => exact congrArg (p :: ·) (ih (offset + Text.Utf8.width p.chars))

theorem value_mem_of_mem_place {offset : Nat} {pieces : List Piece} {p : Spanned Piece}
    (h : p ∈ place offset pieces) : p.value ∈ pieces := by
  rw [← map_value_place offset pieces]
  exact List.mem_map_of_mem h

/-- **All tokens of a source keep the rules of their kinds.** -/
theorem wellFormed_of_mem_tokens {source : String} {t : Spanned Token}
    (h : t ∈ (Lexed.of source).tokens) : t.value.WellFormed := by
  obtain ⟨p, hp, ht⟩ := List.mem_filterMap.1 h
  obtain ⟨piece, span⟩ := p
  cases piece with
  | token u =>
    cases ht
    exact wellFormed_of_mem_split (value_mem_of_mem_place hp)
  | blank => cases ht
  | unreadable => cases ht

end Daybook.Lexed
