import Daybook.Proofs.Numeric.Decimal
import Daybook.Proofs.Syntax.Lexeme

/-!
Where a text is cut into tokens.

A well-formed token is taken off the front of its own text, unless the text that follows goes on with it
(`take?_chars_append`). `Lexed.readAt` reads a text that starts at some offset. It goes on token by token,
and blanks are passed over one by one, whatever follows them (`readAt_token`, `readAt_blanks`); so what is
read from a text is put together from its parts without a look at how they are cut into pieces.
-/

namespace Daybook.Text

/-- Whether no character of the class stands at the front. -/
def Halts (p : Char → Bool) : List Char → Prop
  | [] => True
  | c :: _ => p c = false

/-- A run that halts where more text begins is taken as a whole. -/
theorem takeWhile_append_halts {p : Char → Bool} {cs rest : List Char}
    (h : ∀ c ∈ cs, p c = true) (hrest : Halts p rest) : (cs ++ rest).takeWhile p = cs := by
  rw [List.takeWhile_append_of_pos h]
  cases rest with
  | nil => rw [List.takeWhile_nil, List.append_nil]
  | cons c rest =>
    have hc : p c = false := hrest
    rw [List.takeWhile_cons_of_neg (Bool.eq_false_iff.1 hc), List.append_nil]

/-- What is left behind it is that text. -/
theorem dropWhile_append_halts {p : Char → Bool} {cs rest : List Char}
    (h : ∀ c ∈ cs, p c = true) (hrest : Halts p rest) : (cs ++ rest).dropWhile p = rest := by
  rw [List.dropWhile_append_of_pos h]
  cases rest with
  | nil => rfl
  | cons c rest =>
    have hc : p c = false := hrest
    rw [List.dropWhile_cons_of_neg (Bool.eq_false_iff.1 hc)]

/-- A run that halts before a text halts before its first characters. -/
theorem Halts.take {p : Char → Bool} {rest : List Char} (h : Halts p rest) (n : Nat) :
    Halts p (rest.take n) := by
  cases rest with
  | nil => rwa [List.take_nil]
  | cons c rest =>
    cases n with
    | zero => trivial
    | succ n => exact h

/-- The blanks by their code points. -/
theorem toNat_of_isBlank {c : Char} (h : isBlank c = true) :
    c.toNat = 32 ∨ (9 ≤ c.toNat ∧ c.toNat ≤ 13) := by
  simp only [isBlank, Bool.or_eq_true, Bool.and_eq_true, decide_eq_true_eq] at h
  rcases h with rfl | h
  · exact .inl rfl
  · exact .inr h

end Daybook.Text

namespace Daybook.Token

open Text

/-- Whether a text that goes on like this leaves the token in front of it as it is. -/
def EndsBefore : Token → List Char → Prop
  | .identifier _, rest => Halts isIdentifierChar rest
  | .number literal, rest => Numeral.NoDigit rest
      ∧ (literal.places = [] → ∀ cs, rest = '.' :: cs → Numeral.NoDigit cs)
  | .currency _, rest => Halts Char.isUpper rest
  | .comment _, rest => Halts (· ≠ '\n') rest
  | _, _ => True

/-! ## Kinds of characters -/

theorem isUpper_iff {c : Char} : c.isUpper = true ↔ 65 ≤ c.toNat ∧ c.toNat ≤ 90 := by
  change decide (65 ≤ c.val ∧ c.val ≤ 90) = true ↔ _
  simp only [decide_eq_true_eq, UInt32.le_iff_toNat_le, UInt32.reduceToNat,
    Char.toNat_val]

theorem isLower_iff {c : Char} : c.isLower = true ↔ 97 ≤ c.toNat ∧ c.toNat ≤ 122 := by
  change (decide (97 ≤ c.val) && decide (c.val ≤ 122)) = true ↔ _
  simp only [Bool.and_eq_true, decide_eq_true_eq, UInt32.le_iff_toNat_le, UInt32.reduceToNat,
    Char.toNat_val]

theorem isDigit_iff {c : Char} : c.isDigit = true ↔ 48 ≤ c.toNat ∧ c.toNat ≤ 57 := by
  change (decide (48 ≤ c.val) && decide (c.val ≤ 57)) = true ↔ _
  simp only [Bool.and_eq_true, decide_eq_true_eq, UInt32.le_iff_toNat_le, UInt32.reduceToNat,
    Char.toNat_val]

/-- Small letters are neither capitals nor digits. -/
theorem not_isUpper_of_isLower {c : Char} (h : c.isLower = true) :
    c.isUpper = false ∧ c.isDigit = false := by
  rw [isLower_iff] at h
  rw [Bool.eq_false_iff, Bool.eq_false_iff, Ne, Ne, isUpper_iff, isDigit_iff]
  omega

theorem not_isUpper_of_isIdentifierChar {c : Char} (h : isIdentifierChar c = true) :
    c.isUpper = false := by
  simp only [isIdentifierChar, Bool.or_eq_true, decide_eq_true_eq] at h
  rcases h with hlower | rfl
  · exact (not_isUpper_of_isLower hlower).1
  · decide

theorem isIdentifierChar_of_mem {name : List Char} (h : isSegment name = true) :
    ∀ c ∈ name, isIdentifierChar c = true := by
  cases name with
  | nil => cases h
  | cons c name =>
    simp only [isSegment, Bool.and_eq_true] at h
    refine List.forall_mem_cons.2 ⟨?_, List.all_eq_true.1 h.2⟩
    rw [isIdentifierChar, h.1]
    rfl

/-- A digit is a digit, and nothing else that a token could begin with. -/
theorem toChar_kinds (d : Digit) :
    d.toChar.isUpper = false ∧ d.toChar.isDigit = true ∧ d.toChar ≠ '/'
      ∧ d.toChar ≠ '<' ∧ d.toChar ≠ '>' ∧ d.toChar ≠ '"' ∧ d.toChar ≠ ':' ∧ d.toChar ≠ '-' := by
  revert d
  decide

/-! ## One token -/

/-- An identifier is taken up to where its characters end. -/
theorem take?_identifier {name : String} {rest : List Char} (h : isSegment name.toList = true)
    (hrest : Halts isIdentifierChar rest) :
    take? (name.toList ++ rest) = some (.identifier name, rest) := by
  match hname : name.toList with
  | [] => rw [hname] at h; cases h
  | c :: cs =>
    rw [hname] at h
    simp only [isSegment, Bool.and_eq_true] at h
    obtain ⟨hlower, hall⟩ := h
    obtain ⟨hupper, hdigit⟩ := not_isUpper_of_isLower hlower
    have hne (d : Char) (hd : d.isLower = false) : c ≠ d := by
      rintro rfl
      rw [hd] at hlower
      cases hlower
    have hinside : ∀ d ∈ cs, isIdentifierChar d = true := List.all_eq_true.1 hall
    rw [List.cons_append, take?]
    · simp only [hupper, hlower, hdigit, hne '<' rfl, hne '>' rfl, hne '"' rfl, hne ':' rfl,
        hne '-' rfl, Bool.false_eq_true, if_false, if_true, or_self,
        takeWhile_append_halts hinside hrest, dropWhile_append_halts hinside hrest]
      rw [← hname, String.ofList_toList]
    · intro cs' hc
      exact absurd hc (hne '/' rfl)

/-- A number is taken up to where its digits and its places end. -/
theorem take?_number {d : Decimal} {rest : List Char} (h : d.negative = false)
    (hrest : EndsBefore (.number d) rest) :
    take? (d.toChars ++ rest) = some (.number d, rest) := by
  have htake := Decimal.takeUnsigned?_toChars_append h hrest.1 hrest.2
  obtain ⟨first, others, hwhole⟩ := List.exists_cons_of_ne_nil d.whole_ne_nil
  have hcons : d.toChars ++ rest = first.toChar :: (Numeral.toChars others
      ++ (Decimal.placesText d.places ++ rest)) := by
    simp [Decimal.toChars, h, hwhole, Numeral.toChars]
  obtain ⟨hupper, hdigit, hslash, hdebit, hcredit, hquote, hcolon, hhyphen⟩ := toChar_kinds first
  rw [hcons] at htake ⊢
  rw [take?]
  · simp only [hupper, hdigit, hdebit, hcredit, hquote, hcolon, hhyphen, htake, Bool.false_eq_true,
      if_false, if_true, or_self, Option.map_some]
  · intro cs hc
    exact absurd hc hslash

/-- A currency code is taken if no capital follows. -/
theorem take?_currency {code : String} {rest : List Char} (h : isCurrencyCode code.toList = true)
    (hrest : Halts Char.isUpper rest) :
    take? (code.toList ++ rest) = some (.currency code, rest) := by
  simp only [isCurrencyCode, Bool.and_eq_true, decide_eq_true_eq] at h
  obtain ⟨⟨hmin, hmax⟩, hall⟩ := h
  have hinside : ∀ c ∈ code.toList, c.isUpper = true := List.all_eq_true.1 hall
  -- One more character than a code can have shows that the run ends with the code.
  have hrun : ((code.toList ++ rest).take 6).takeWhile Char.isUpper = code.toList := by
    rw [List.take_append, List.take_of_length_le (by omega)]
    exact takeWhile_append_halts hinside (hrest.take _)
  have htake : takeCurrency? (code.toList ++ rest) = some (.currency code, rest) := by
    simp only [takeCurrency?, hrun, if_pos (And.intro hmin hmax), String.ofList_toList,
      List.drop_left]
  obtain ⟨c, cs, hcode⟩ : ∃ c cs, code.toList = c :: cs :=
    List.exists_cons_of_ne_nil (List.ne_nil_of_length_pos (by omega))
  have hupper : c.isUpper = true := hinside c (by rw [hcode]; exact List.mem_cons_self)
  rw [hcode] at htake ⊢
  rw [List.cons_append, take?, if_pos hupper]
  · exact htake
  · rintro cs' rfl
    cases hupper

/-- **A token is taken off the front of its text.** -/
theorem take?_chars_append {t : Token} {rest : List Char} (h : t.WellFormed)
    (hrest : t.EndsBefore rest) : take? (t.chars ++ rest) = some (t, rest) := by
  cases t with
  | identifier name => exact take?_identifier h hrest
  | number literal => exact take?_number h hrest
  | currency code => exact take?_currency h hrest
  | movement symbol =>
    rcases h with rfl | rfl
    · rfl
    · rfl
  | separator symbol =>
    rcases h with rfl | rfl
    · rfl
    · rfl
  | string content =>
    have hinside : ∀ c ∈ content.toList, (c ≠ '"' : Bool) = true := by
      intro c hc
      rw [decide_eq_true_eq]
      rintro rfl
      exact h hc
    have hhalts : Halts (· ≠ '"') ('"' :: rest) := by simp [Halts]
    have hquote : chars (.string content) ++ rest = '"' :: (content.toList ++ '"' :: rest) := by
      simp [chars]
    rw [hquote, take?]
    · have htake : takeString? (content.toList ++ '"' :: rest) = some (.string content, rest) := by
        rw [takeString?, dropWhile_append_halts hinside hhalts,
          takeWhile_append_halts hinside hhalts, String.ofList_toList]
      exact htake
    · intro cs hc
      cases hc
  | comment content =>
    have hinside : ∀ c ∈ content.toList, (c ≠ '\n' : Bool) = true := by
      intro c hc
      rw [decide_eq_true_eq]
      rintro rfl
      exact h hc
    rw [show chars (.comment content) ++ rest = '/' :: '/' :: (content.toList ++ rest) from rfl,
      take?, takeComment, takeWhile_append_halts hinside hrest,
      dropWhile_append_halts hinside hrest, String.ofList_toList]

end Daybook.Token

/-! ## A text -/

namespace Daybook.Piece

open Text

/-- No token begins with a blank. -/
theorem take?_of_isBlank {c : Char} (h : isBlank c = true) (cs : List Char) :
    Token.take? (c :: cs) = none := by
  have hnat := toNat_of_isBlank h
  have hne (d : Char) (hd : isBlank d = false) : c ≠ d := by
    rintro rfl
    rw [hd] at h
    cases h
  have hupper : c.isUpper = false := by
    rw [Bool.eq_false_iff, Ne, Token.isUpper_iff]; omega
  have hlower : c.isLower = false := by
    rw [Bool.eq_false_iff, Ne, Token.isLower_iff]; omega
  have hdigit : c.isDigit = false := by
    rw [Bool.eq_false_iff, Ne, Token.isDigit_iff]; omega
  rw [Token.take?]
  · simp only [hupper, hlower, hdigit, hne '<' rfl, hne '>' rfl, hne '"' rfl, hne ':' rfl,
      hne '-' rfl, Bool.false_eq_true, if_false, or_self]
  · intro cs' hc
    exact absurd hc (hne '/' rfl)

/-- A token that is taken is the first piece. -/
theorem split_of_take? {cs rest : List Char} {t : Token} (h : Token.take? cs = some (t, rest)) :
    split cs = .token t :: split rest := by
  match cs with
  | [] => cases h
  | c :: cs =>
    have hblank : ¬ isBlank c = true := by
      intro hblank
      rw [take?_of_isBlank hblank] at h
      cases h
    rw [split, if_neg hblank]
    split
    · next h' => rw [h] at h'; cases h'; rfl
    · next h' => rw [h] at h'; cases h'

end Daybook.Piece

namespace Daybook.Lexed

open Text

/-- What is read from a text that starts at the given offset. -/
def readAt (offset : Nat) (cs : List Char) : Lexed :=
  let pieces := place offset (Piece.split cs)
  { tokens := pieces.filterMap token?, errors := pieces.filterMap error? }

/-- More tokens in front. -/
def prepend (ts : List (Spanned Token)) (l : Lexed) : Lexed :=
  { l with tokens := ts ++ l.tokens }

theorem prepend_prepend (ts us : List (Spanned Token)) (l : Lexed) :
    (l.prepend us).prepend ts = l.prepend (ts ++ us) := by
  simp only [prepend, List.append_assoc]

theorem of_eq_readAt (source : String) : of source = readAt 0 source.toList := rfl

theorem readAt_nil (offset : Nat) : readAt offset [] = ⟨[], []⟩ := by
  rw [readAt, Piece.split]
  rfl

/-- **One token is read**, and then what follows it. -/
theorem readAt_token {t : Token} {rest : List Char} (h : t.WellFormed) (hrest : t.EndsBefore rest)
    (offset : Nat) :
    readAt offset (t.chars ++ rest)
      = (readAt (offset + Utf8.width t.chars) rest).prepend
          [⟨t, ⟨offset, offset + Utf8.width t.chars, Nat.le_add_right _ _⟩⟩] := by
  rw [readAt, Piece.split_of_take? (Token.take?_chars_append h hrest)]
  rfl

/-- One blank moves what follows it, also where it belongs to a longer run. -/
theorem readAt_blank {c : Char} (h : isBlank c = true) (offset : Nat) (cs : List Char) :
    readAt offset (c :: cs) = readAt (offset + c.utf8Size) cs := by
  -- Both sides are what is read behind the run of blanks.
  have hcons : readAt offset (c :: cs)
      = readAt (offset + c.utf8Size + Utf8.width (cs.takeWhile isBlank))
          (cs.dropWhile isBlank) := by
    rw [readAt, Piece.split, if_pos h, Nat.add_assoc]
    rfl
  rw [hcons]
  cases cs with
  | nil => rfl
  | cons d cs =>
    by_cases hd : isBlank d = true
    · rw [List.takeWhile_cons_of_pos hd, List.dropWhile_cons_of_pos hd]
      conv_rhs => rw [readAt, Piece.split, if_pos hd]
      rfl
    · rw [List.takeWhile_cons_of_neg hd, List.dropWhile_cons_of_neg hd]
      rfl

/-- **Blanks move what follows them.** -/
theorem readAt_blanks {blanks : List Char} (h : ∀ c ∈ blanks, isBlank c = true) (offset : Nat)
    (cs : List Char) :
    readAt offset (blanks ++ cs) = readAt (offset + Utf8.width blanks) cs := by
  induction blanks generalizing offset with
  | nil => rfl
  | cons c blanks ih =>
    rw [List.cons_append, readAt_blank (h c List.mem_cons_self),
      ih (fun d hd => h d (List.mem_cons_of_mem c hd)), Utf8.width_cons, Nat.add_assoc]

end Daybook.Lexed
