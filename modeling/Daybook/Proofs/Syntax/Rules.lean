import Daybook.Proofs.Syntax.Bytes
import Daybook.Proofs.Syntax.Spelling

/-!
The rules of the kinds of tokens, and writing tokens.

A lexeme is what can be seen of a token: its kind, what it stands for, and its text. `Lexeme.WellFormed`
asks that the text matches the rule of the kind and that the lexeme stands for what this text stands for.
The tokens of a source have these lexemes and no others, in this sense: well-formed lexemes that are
written one after the other with white space between neighbours are read as just these, each of them at
its place, and whatever is read from any source is well formed (`written_and_read`).
-/

namespace Daybook

namespace Token

/-- What a token stands for: the exact value of a number, or a text. -/
inductive Payload where
  | number (value : Rat)
  | text (s : String)
  deriving DecidableEq

/-- What the token stands for. -/
def payload : Token → Payload
  | .identifier name => .text name
  | .number literal => .number literal.value
  | .currency code => .text code
  | .movement symbol => .text symbol
  | .separator symbol => .text symbol
  | .string content => .text content
  | .comment content => .text content

namespace Kind

/-- The rule of a kind: how its tokens are written. -/
def Matches : Kind → List Char → Prop
  | .identifier, cs => ∃ c ds, cs = c :: ds ∧ c.isLower = true
      ∧ ∀ d ∈ ds, d.isLower = true ∨ d = '_'
  | .number, cs => ∃ whole places, whole ≠ [] ∧ (∀ c ∈ whole ++ places, c.isDigit = true)
      ∧ (cs = whole ∧ places = [] ∨ cs = whole ++ '.' :: places ∧ places ≠ [])
  | .currency, cs => 3 ≤ cs.length ∧ cs.length ≤ 5 ∧ ∀ c ∈ cs, c.isUpper = true
  | .movement, cs => cs = ['<'] ∨ cs = ['>']
  | .separator, cs => cs = [':'] ∨ cs = ['-']
  | .string, cs => ∃ content, cs = '"' :: content ++ ['"'] ∧ '"' ∉ content
  | .comment, cs => ∃ content, cs = '/' :: '/' :: content ∧ '\n' ∉ content

/-- What a token of the kind stands for that has the given text. -/
def payload? : Kind → String → Except NotDecimal Payload
  | .number, text => (Decimal.parse text).map Payload.number
  | .string, text => .ok (.text (String.ofList (text.toList.drop 1).dropLast))
  | .comment, text => .ok (.text (String.ofList (text.toList.drop 2)))
  | _, text => .ok (.text text)

end Kind

end Token

/-- What can be seen of a token. -/
structure Lexeme where
  kind : Token.Kind
  payload : Token.Payload
  text : String
  deriving DecidableEq

/-- What can be seen of the token. -/
def Token.lexeme (t : Token) : Lexeme :=
  ⟨t.kind, t.payload, t.text⟩

namespace Lexeme

/-- Whether the text is one of its kind, and the lexeme stands for what this text stands for. -/
structure WellFormed (l : Lexeme) : Prop where
  matches_text : l.kind.Matches l.text.toList
  payload_eq : l.kind.payload? l.text = .ok l.payload

end Lexeme

/-! ## The literals of numbers -/

theorem Numeral.isDigit_of_mem_toChars {ds : Numeral} {c : Char} (h : c ∈ ds.toChars) :
    c.isDigit = true := by
  obtain ⟨d, -, rfl⟩ := List.mem_map.1 h
  exact (Token.toChar_kinds d).2.1

/-- Characters that are digits are the text of some digits. -/
theorem Numeral.exists_toChars {cs : List Char} (h : ∀ c ∈ cs, c.isDigit = true) :
    ∃ ds : Numeral, ds.toChars = cs := by
  induction cs with
  | nil => exact ⟨[], rfl⟩
  | cons c cs ih =>
    obtain ⟨hc, hcs⟩ := List.forall_mem_cons.1 h
    obtain ⟨ds, hds⟩ := ih hcs
    rw [Token.isDigit_iff] at hc
    have hdigit : Digit.ofChar? c = some ⟨c.toNat - 48, by omega⟩ := by
      rw [Digit.ofChar?, dif_pos (by omega)]
    refine ⟨⟨c.toNat - 48, by omega⟩ :: ds, ?_⟩
    rw [toChars, List.map_cons, Digit.toChar_of_ofChar? hdigit]
    exact congrArg _ hds

namespace Decimal

theorem toChars_of_unsigned {d : Decimal} (h : d.negative = false) :
    d.toChars = d.whole.toChars ++ placesText d.places := by
  rw [toChars, h]
  rfl

theorem matches_toChars {d : Decimal} (h : d.negative = false) :
    Token.Kind.number.Matches d.toChars := by
  have hne : d.whole.toChars ≠ [] := fun hnil => d.whole_ne_nil (List.map_eq_nil_iff.1 hnil)
  refine ⟨d.whole.toChars, Numeral.toChars d.places, hne, ?_, ?_⟩
  · intro c hc
    rcases List.mem_append.1 hc with hc | hc
    · exact Numeral.isDigit_of_mem_toChars hc
    · exact Numeral.isDigit_of_mem_toChars hc
  · rw [toChars_of_unsigned h]
    cases d.places with
    | nil => exact .inl ⟨List.append_nil _, rfl⟩
    | cons p ps => exact .inr ⟨rfl, List.cons_ne_nil _ _⟩

/-- What matches the rule for numbers is the text of a number. -/
theorem exists_of_matches {cs : List Char} (h : Token.Kind.number.Matches cs) :
    ∃ d : Decimal, d.negative = false ∧ d.toChars = cs := by
  obtain ⟨whole, places, hne, hdigits, hcs⟩ := h
  obtain ⟨hwhole, hplaces⟩ := List.forall_mem_append.1 hdigits
  obtain ⟨ds, rfl⟩ := Numeral.exists_toChars hwhole
  obtain ⟨es, rfl⟩ := Numeral.exists_toChars hplaces
  have hds : ds ≠ [] := by
    rintro rfl
    exact hne rfl
  refine ⟨⟨false, ds, es, hds⟩, rfl, ?_⟩
  rw [toChars_of_unsigned rfl]
  rcases hcs with ⟨rfl, hnil⟩ | ⟨rfl, hcons⟩
  · rw [List.map_eq_nil_iff.1 hnil]
    exact List.append_nil _
  · cases es with
    | nil => exact absurd rfl hcons
    | cons e es => rfl

end Decimal

/-! ## Lexemes and tokens -/

namespace Token

open Text

/-- Segments are what the rule for identifiers describes. -/
theorem isSegment_iff_matches {cs : List Char} :
    isSegment cs = true ↔ Kind.identifier.Matches cs := by
  have hchar (d : Char) : isIdentifierChar d = true ↔ d.isLower = true ∨ d = '_' := by
    simp only [isIdentifierChar, Bool.or_eq_true, decide_eq_true_eq]
  constructor
  · intro h
    cases cs with
    | nil => cases h
    | cons c ds =>
      simp only [isSegment, Bool.and_eq_true] at h
      exact ⟨c, ds, rfl, h.1, fun d hd => (hchar d).1 (List.all_eq_true.1 h.2 d hd)⟩
  · rintro ⟨c, ds, rfl, hc, hds⟩
    simp only [isSegment, Bool.and_eq_true]
    exact ⟨hc, List.all_eq_true.2 fun d hd => (hchar d).2 (hds d hd)⟩

/-- Codes are what the rule for currencies describes. -/
theorem isCurrencyCode_iff_matches {cs : List Char} :
    isCurrencyCode cs = true ↔ Kind.currency.Matches cs := by
  simp only [isCurrencyCode, Kind.Matches, Bool.and_eq_true, decide_eq_true_eq, List.all_eq_true,
    and_assoc]

/-- A token that keeps the rule of its kind can be seen to do so. -/
theorem wellFormed_lexeme {t : Token} (h : t.WellFormed) : t.lexeme.WellFormed := by
  cases t with
  | identifier name =>
    have htext : text (.identifier name) = name := String.ofList_toList
    rw [lexeme, htext]
    exact ⟨isSegment_iff_matches.1 h, rfl⟩
  | number literal =>
    refine ⟨?_, ?_⟩
    · rw [lexeme, text, String.toList_ofList]
      exact Decimal.matches_toChars h
    · exact congrArg (Except.map Payload.number) (Decimal.parse_text literal)
  | currency code =>
    have htext : text (.currency code) = code := String.ofList_toList
    rw [lexeme, htext]
    exact ⟨isCurrencyCode_iff_matches.1 h, rfl⟩
  | movement symbol =>
    rcases h with rfl | rfl
    · exact ⟨.inl rfl, rfl⟩
    · exact ⟨.inr rfl, rfl⟩
  | separator symbol =>
    rcases h with rfl | rfl
    · exact ⟨.inl rfl, rfl⟩
    · exact ⟨.inr rfl, rfl⟩
  | string content =>
    have htext : (lexeme (.string content)).text.toList = '"' :: content.toList ++ ['"'] :=
      String.toList_ofList
    refine ⟨⟨content.toList, htext, h⟩, ?_⟩
    rw [lexeme] at htext ⊢
    rw [kind, Kind.payload?, htext, List.cons_append, List.drop_one, List.tail_cons,
      List.dropLast_concat, String.ofList_toList]
    rfl
  | comment content =>
    have htext : (lexeme (.comment content)).text.toList = '/' :: '/' :: content.toList :=
      String.toList_ofList
    refine ⟨⟨content.toList, htext, h⟩, ?_⟩
    rw [lexeme] at htext ⊢
    rw [kind, Kind.payload?, htext, List.drop_succ_cons, List.drop_succ_cons, List.drop_zero,
      String.ofList_toList]
    rfl

/-- **Every well-formed lexeme is that of a token**, which keeps the rule of its kind. -/
theorem exists_lexeme_eq {l : Lexeme} (h : l.WellFormed) :
    ∃ t : Token, t.WellFormed ∧ t.lexeme = l := by
  obtain ⟨kind, payload, text⟩ := l
  obtain ⟨hmatches, hpayload⟩ := h
  dsimp only at hmatches hpayload
  -- The text has the form of the kind, and the payload is computed from it.
  have htext : String.ofList text.toList = text := String.ofList_toList
  cases kind with
  | identifier =>
    cases hpayload
    refine ⟨.identifier text, isSegment_iff_matches.2 hmatches, ?_⟩
    exact congrArg (Lexeme.mk _ _) htext
  | number =>
    obtain ⟨d, hsign, hchars⟩ := Decimal.exists_of_matches hmatches
    have hliteral : d.text = text := by rw [Decimal.text, hchars, htext]
    rw [Kind.payload?, ← hliteral, Decimal.parse_text d] at hpayload
    cases hpayload
    exact ⟨.number d, hsign, congrArg (Lexeme.mk _ _) hliteral⟩
  | currency =>
    cases hpayload
    refine ⟨.currency text, isCurrencyCode_iff_matches.2 hmatches, ?_⟩
    exact congrArg (Lexeme.mk _ _) htext
  | movement =>
    cases hpayload
    refine ⟨.movement text, ?_, congrArg (Lexeme.mk _ _) htext⟩
    rcases hmatches with hsymbol | hsymbol
    · exact .inl (String.toList_injective hsymbol)
    · exact .inr (String.toList_injective hsymbol)
  | separator =>
    cases hpayload
    refine ⟨.separator text, ?_, congrArg (Lexeme.mk _ _) htext⟩
    rcases hmatches with hsymbol | hsymbol
    · exact .inl (String.toList_injective hsymbol)
    · exact .inr (String.toList_injective hsymbol)
  | string =>
    obtain ⟨content, hcontent, hquote⟩ := hmatches
    rw [Kind.payload?, hcontent, List.cons_append, List.drop_one, List.tail_cons,
      List.dropLast_concat] at hpayload
    cases hpayload
    refine ⟨.string (String.ofList content), ?_, ?_⟩
    · rwa [WellFormed, String.toList_ofList]
    · refine congrArg (Lexeme.mk _ _) ?_
      rw [Token.text, chars, String.toList_ofList, ← hcontent, htext]
  | comment =>
    obtain ⟨content, hcontent, hnewline⟩ := hmatches
    rw [Kind.payload?, hcontent, List.drop_succ_cons, List.drop_succ_cons, List.drop_zero]
      at hpayload
    cases hpayload
    refine ⟨.comment (String.ofList content), ?_, ?_⟩
    · rwa [WellFormed, String.toList_ofList]
    · refine congrArg (Lexeme.mk _ _) ?_
      rw [Token.text, chars, String.toList_ofList, ← hcontent, htext]

end Token

/-! ## Writing lexemes -/

namespace Lexeme

open Text

/-- Whether the text separates the lexeme from the next one: white space, which begins with a line feed
behind a comment. -/
structure IsGap (l : Lexeme) (gap : List Char) : Prop where
  isBlank : ∀ c ∈ gap, isBlank c = true
  ne_nil : gap ≠ []
  newline : l.kind = .comment → gap.head? = some '\n'

/-- Whether there is a gap behind every lexeme. Behind the last one it may be missing. -/
def Separated : List (Lexeme × List Char) → Prop
  | [] => True
  | [(l, gap)] => gap = [] ∨ IsGap l gap
  | (l, gap) :: next :: more => IsGap l gap ∧ Separated (next :: more)

/-- The lexemes as they are written, each of them with the gap behind it. -/
def written : List (Lexeme × List Char) → List Char
  | [] => []
  | (l, gap) :: more => l.text.toList ++ (gap ++ written more)

/-- The lexemes at the places where they are written, where the first one starts at the given offset. -/
def placed (offset : Nat) : List (Lexeme × List Char) → List (Spanned Lexeme)
  | [] => []
  | (l, gap) :: more =>
    let stop := offset + Utf8.width l.text.toList
    ⟨l, ⟨offset, stop, Nat.le_add_right _ _⟩⟩ :: placed (stop + Utf8.width gap) more

/-- Separated lexemes have a gap behind the first one, unless it is the last, and the others are separated. -/
theorem Separated.of_cons {l : Lexeme} {gap : List Char} {more : List (Lexeme × List Char)}
    (h : Separated ((l, gap) :: more)) :
    (gap = [] ∧ more = [] ∨ IsGap l gap) ∧ Separated more := by
  cases more with
  | nil =>
    rcases h with hnil | hgap
    · exact ⟨.inl ⟨hnil, rfl⟩, trivial⟩
    · exact ⟨.inr hgap, trivial⟩
  | cons next more => exact ⟨.inr h.1, h.2⟩

/-- Gaps are blank. -/
theorem Separated.isBlank {l : Lexeme} {gap : List Char} {more : List (Lexeme × List Char)}
    (h : Separated ((l, gap) :: more)) : ∀ c ∈ gap, isBlank c = true := by
  rcases h.of_cons.1 with ⟨rfl, -⟩ | hgap
  · simp
  · exact hgap.isBlank

/-- No token goes on into a gap. -/
theorem IsGap.endsBefore {t : Token} {gap : List Char} (h : IsGap t.lexeme gap)
    (rest : List Char) : t.EndsBefore (gap ++ rest) := by
  obtain ⟨c, gap, rfl⟩ := List.exists_cons_of_ne_nil h.ne_nil
  by_cases hcomment : t.isComment = true
  · cases t with
    | comment content =>
      obtain rfl : c = '\n' := Option.some.inj (h.newline rfl)
      exact (by decide : decide ('\n' ≠ '\n') = false)
    | _ => cases hcomment
  · refine Token.endsBefore_of_atBreak (Bool.eq_false_iff.2 hcomment) ?_
    exact .inl (h.isBlank c List.mem_cons_self)

end Lexeme

namespace Lexed

open Text Lexeme

/-- What can be seen of the tokens. -/
def lexemes (l : Lexed) : List (Spanned Lexeme) :=
  l.tokens.map fun t => ⟨t.value.lexeme, t.span⟩

/-- Separated lexemes are read as they were written, each at its place. -/
theorem readAt_written {ls : List (Lexeme × List Char)} (h : Separated ls)
    (hwf : ∀ p ∈ ls, p.1.WellFormed) (offset : Nat) :
    (readAt offset (written ls)).errors = []
      ∧ (readAt offset (written ls)).lexemes = placed offset ls := by
  induction ls generalizing offset with
  | nil => rw [written, readAt_nil]; exact ⟨rfl, rfl⟩
  | cons p ls ih =>
    obtain ⟨l, gap⟩ := p
    obtain ⟨hl, hls⟩ := List.forall_mem_cons.1 hwf
    obtain ⟨hgap, hmore⟩ := h.of_cons
    obtain ⟨t, ht, rfl⟩ := Token.exists_lexeme_eq hl
    -- Only behind the last lexeme may the gap be missing, and nothing is written there.
    have hends : t.EndsBefore (gap ++ written ls) := by
      rcases hgap with ⟨rfl, rfl⟩ | hgap
      · exact t.endsBefore_nil
      · exact hgap.endsBefore (written ls)
    have htext : t.lexeme.text.toList = t.chars := String.toList_ofList
    have hread := readAt_token ht hends offset
    rw [readAt_blanks h.isBlank] at hread
    obtain ⟨herrors, hlexemes⟩ := ih hmore hls (offset + Utf8.width t.chars + Utf8.width gap)
    simp only [written, placed, htext]
    rw [hread]
    exact ⟨herrors, congrArg _ hlexemes⟩

/-- **Reading undoes writing.** Well-formed lexemes, written with a gap between neighbours, are read
without any error as just these lexemes, each of them with the span of the place where it is written.
Conversely, whatever is read from a source is well formed. -/
theorem lexemes_written :
    (∀ ls : List (Lexeme × List Char), Separated ls → (∀ p ∈ ls, p.1.WellFormed) →
      (ofBytes (Utf8.encode (written ls))).errors = []
      ∧ (ofBytes (Utf8.encode (written ls))).lexemes = placed 0 ls)
    ∧ ∀ source : String, ∀ l ∈ (ofBytes (Utf8.encode source.toList)).lexemes,
      l.value.WellFormed := by
  refine ⟨?_, ?_⟩
  · intro ls h hwf
    have hbytes := ofBytes_encode (String.ofList (written ls))
    rw [of_eq_readAt, String.toList_ofList] at hbytes
    rw [hbytes]
    exact readAt_written h hwf 0
  · intro source l hl
    rw [ofBytes_encode] at hl
    obtain ⟨t, ht, rfl⟩ := List.mem_map.1 hl
    exact Token.wellFormed_lexeme (wellFormed_of_mem_tokens ht)

/-- A word, a comment with a quote in it, a currency behind a line feed, a number right at a tab, and a
string that would be a comment. -/
def sampleLexemes : List (Lexeme × List Char) :=
  [(⟨.identifier, .text "open", "open"⟩, [' ']),
    (⟨.comment, .text " \"é", "// \"é"⟩, ['\n', ' ']),
    (⟨.currency, .text "BRL", "BRL"⟩, ['\n']),
    (⟨.number, .number (mkRat 150 100), "1.50"⟩, ['\t']),
    (⟨.string, .text "//é\n", "\"//é\n\""⟩, [])]

/-- The sample is written in bytes and read back. -/
theorem lexemes_written_sample :
    Separated sampleLexemes ∧ (∀ p ∈ sampleLexemes, p.1.WellFormed)
    ∧ (ofBytes (Utf8.encode (written sampleLexemes))).errors = []
    ∧ (ofBytes (Utf8.encode (written sampleLexemes))).lexemes = placed 0 sampleLexemes := by
  have hgap {l : Lexeme} {gap : List Char} (hblank : ∀ c ∈ gap, isBlank c = true)
      (hne : gap ≠ []) (hnewline : l.kind = .comment → gap.head? = some '\n') : IsGap l gap :=
    ⟨hblank, hne, hnewline⟩
  have hseparated : Separated sampleLexemes := by
    refine ⟨hgap ?_ ?_ ?_, hgap ?_ ?_ ?_, hgap ?_ ?_ ?_, hgap ?_ ?_ ?_, .inl rfl⟩
    all_goals simp [isBlank]
  have hwf : ∀ p ∈ sampleLexemes, p.1.WellFormed := by
    have hof {t : Token} {l : Lexeme} (ht : t.WellFormed) (hl : t.lexeme = l) : l.WellFormed := by
      rw [← hl]
      exact Token.wellFormed_lexeme ht
    simp only [sampleLexemes, List.forall_mem_cons]
    refine ⟨hof (t := .identifier "open") (by decide) (by decide),
      hof (t := .comment " \"é") (by decide) (by decide),
      hof (t := .currency "BRL") (by decide) (by decide),
      hof (t := .number ⟨false, [1], [5, 0], by decide⟩) (by decide) (by decide +kernel),
      hof (t := .string "//é\n") (by decide) (by decide), by simp⟩
  exact ⟨hseparated, hwf, lexemes_written.1 sampleLexemes hseparated hwf⟩

end Lexed

end Daybook
