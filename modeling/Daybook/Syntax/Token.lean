import Daybook.Numeric.Decimal
import Daybook.Source.Span
import Daybook.Text.Blank

/-!
Tokens of the ledger language.

A token keeps its text: `Token.text` is what it is written as, quotes and comment marks included.
Numbers are literals, so that leading zeros and trailing places are kept as well.

`Token.take?` takes one token off the front of a text. No two kinds of tokens begin with the same
character, so the first character decides which rule applies, and each rule takes the longest piece
that it can. Main statement: `take?_eq_some`, the text of the token taken and the rest are the text.
-/

namespace Daybook

/-- A token. -/
inductive Token where
  | identifier (name : String)
  | number (literal : Decimal)
  | currency (code : String)
  | movement (symbol : String)
  | separator (symbol : String)
  | string (content : String)
  | comment (content : String)
  deriving DecidableEq

namespace Token

/-- The kinds of tokens. -/
inductive Kind where
  | identifier
  | number
  | currency
  | movement
  | separator
  | string
  | comment
  deriving DecidableEq

/-- The kind of a token. -/
def kind : Token → Kind
  | .identifier _ => .identifier
  | .number _ => .number
  | .currency _ => .currency
  | .movement _ => .movement
  | .separator _ => .separator
  | .string _ => .string
  | .comment _ => .comment

/-- The name of a kind of tokens. -/
def Kind.name : Kind → String
  | .identifier => "identifier"
  | .number => "number"
  | .currency => "currency"
  | .movement => "movement"
  | .separator => "separator"
  | .string => "string"
  | .comment => "comment"

/-- What a token is written as. -/
def chars : Token → List Char
  | .identifier name => name.toList
  | .number literal => literal.toChars
  | .currency code => code.toList
  | .movement symbol => symbol.toList
  | .separator symbol => symbol.toList
  | .string content => '"' :: content.toList ++ ['"']
  | .comment content => '/' :: '/' :: content.toList

/-- What a token is written as, as a string. -/
def text (t : Token) : String :=
  String.ofList t.chars

/-- How messages name a token. -/
def describe (t : Token) : String :=
  match t with
  | .string _ => "string " ++ t.text
  | _ => t.kind.name ++ " " ++ Text.quoted t.text

/-- Whether a token is a comment, which statements do not see. -/
def isComment : Token → Bool
  | .comment _ => true
  | _ => false

/-- Whether a token is the given separator. -/
def isSeparator (symbol : String) : Token → Bool
  | .separator s => s = symbol
  | _ => false

/-- Whether a token is a number. -/
def isNumber : Token → Bool
  | .number _ => true
  | _ => false

/-- Whether a token is a number written without a point. -/
def isInteger : Token → Bool
  | .number literal => literal.isInteger
  | _ => false

/-- The name that a token is, if it is an identifier. -/
def identifier? : Token → Option String
  | .identifier name => some name
  | _ => none

/-- The literal that a token is, if it is a number. -/
def number? : Token → Option Decimal
  | .number literal => some literal
  | _ => none

/-- The tag that a token is, if it is a currency. -/
def currency? : Token → Option String
  | .currency code => some code
  | _ => none

/-- The symbol that a token is, if it is that of a movement. -/
def movement? : Token → Option String
  | .movement symbol => some symbol
  | _ => none

/-- The content of a string. -/
def string? : Token → Option String
  | .string content => some content
  | _ => none

/-- The given separator. -/
def separator? (symbol : String) (t : Token) : Option Unit :=
  if t.isSeparator symbol then some () else none

/-! ## Taking a token off the front of a text -/

/-- A currency tag is a run of three to five capital letters; a longer run is none. -/
def takeCurrency? (cs : List Char) : Option (Token × List Char) :=
  let run := (cs.take 6).takeWhile Char.isUpper
  if 3 ≤ run.length ∧ run.length ≤ 5 then
    some (.currency (String.ofList run), cs.drop run.length)
  else none

/-- A string goes up to the next quote, over line ends too. -/
def takeString? (cs : List Char) : Option (Token × List Char) :=
  match cs.dropWhile (· ≠ '"') with
  | _ :: rest => some (.string (String.ofList (cs.takeWhile (· ≠ '"'))), rest)
  | [] => none

/-- A comment goes up to the end of the line. -/
def takeComment (cs : List Char) : Token × List Char :=
  (.comment (String.ofList (cs.takeWhile (· ≠ '\n'))), cs.dropWhile (· ≠ '\n'))

/-- The letters and underscores that go on an identifier. -/
def isIdentifierChar (c : Char) : Bool :=
  c.isLower || c = '_'

/-- The token that a text begins with, and the rest of the text. -/
def take? : List Char → Option (Token × List Char)
  | [] => none
  | '/' :: '/' :: cs => some (takeComment cs)
  | c :: cs =>
    if c.isUpper then takeCurrency? (c :: cs)
    else if c = '<' ∨ c = '>' then some (.movement (String.singleton c), cs)
    else if c = '"' then takeString? cs
    else if c = ':' ∨ c = '-' then some (.separator (String.singleton c), cs)
    else if c.isDigit then
      (Decimal.takeUnsigned? (c :: cs)).map fun (d, rest) => (.number d, rest)
    else if c.isLower then
      some (.identifier (String.ofList (c :: cs.takeWhile isIdentifierChar)),
        cs.dropWhile isIdentifierChar)
    else none

/-- A code that is taken and the rest are the text. -/
theorem takeCurrency?_eq_some {cs rest : List Char} {t : Token}
    (h : takeCurrency? cs = some (t, rest)) : t.chars ++ rest = cs ∧ t.chars ≠ [] := by
  simp only [takeCurrency?] at h
  split at h
  · next hlen =>
    simp only [Option.some.injEq, Prod.mk.injEq] at h
    obtain ⟨rfl, rfl⟩ := h
    have hpre : (cs.take 6).takeWhile Char.isUpper <+: cs :=
      (List.takeWhile_prefix _).trans (List.take_prefix _ _)
    refine ⟨?_, ?_⟩
    · simpa [chars] using List.prefix_iff_eq_append.1 hpre
    · intro hnil
      simp only [chars, String.toList_ofList] at hnil
      rw [hnil] at hlen
      simp at hlen
  · cases h

/-- A string that is taken, with its quotes, and the rest are the text behind the first quote. -/
theorem takeString?_eq_some {cs rest : List Char} {t : Token}
    (h : takeString? cs = some (t, rest)) : t.chars ++ rest = '"' :: cs := by
  simp only [takeString?] at h
  split at h
  · next c tail hdrop =>
    simp only [Option.some.injEq, Prod.mk.injEq] at h
    obtain ⟨rfl, rfl⟩ := h
    have hc : c = '"' := by
      have := List.head?_dropWhile_not (p := (· ≠ '"')) (l := cs)
      rw [hdrop] at this
      simpa using this
    have := List.takeWhile_append_dropWhile (p := (· ≠ '"')) (l := cs)
    rw [hdrop, hc] at this
    simpa [chars] using this
  · cases h

/-- **Nothing is lost**: the text of the token and the rest make up the text, and the token is not
empty. -/
theorem take?_eq_some {cs rest : List Char} {t : Token} (h : take? cs = some (t, rest)) :
    t.chars ++ rest = cs ∧ t.chars ≠ [] := by
  unfold take? at h
  split at h
  · cases h
  · simp only [takeComment, Option.some.injEq, Prod.mk.injEq] at h
    obtain ⟨rfl, rfl⟩ := h
    simp [chars]
  · next c cs _ =>
    split at h
    · exact takeCurrency?_eq_some h
    split at h
    · simp only [Option.some.injEq, Prod.mk.injEq] at h
      obtain ⟨rfl, rfl⟩ := h
      simp [chars]
    split at h
    · next hc =>
      subst hc
      have := takeString?_eq_some h
      refine ⟨this, ?_⟩
      simp only [takeString?] at h
      split at h
      · simp only [Option.some.injEq, Prod.mk.injEq] at h
        obtain ⟨rfl, rfl⟩ := h
        simp [chars]
      · cases h
    split at h
    · simp only [Option.some.injEq, Prod.mk.injEq] at h
      obtain ⟨rfl, rfl⟩ := h
      simp [chars]
    split at h
    · simp only [Option.map_eq_some_iff, Prod.mk.injEq, Prod.exists] at h
      obtain ⟨d, r, hd, rfl, rfl⟩ := h
      refine ⟨(Decimal.takeUnsigned?_eq_some hd).1, ?_⟩
      simp [chars, Decimal.toChars, Numeral.toChars, d.whole_ne_nil]
    split at h
    · simp only [Option.some.injEq, Prod.mk.injEq] at h
      obtain ⟨rfl, rfl⟩ := h
      simp [chars]
    · cases h

/-- What is left is shorter. -/
theorem length_lt_of_take? {cs rest : List Char} {t : Token} (h : take? cs = some (t, rest)) :
    rest.length < cs.length := by
  obtain ⟨happend, hne⟩ := take?_eq_some h
  have := congrArg List.length happend
  have hpos := List.length_pos_iff.2 hne
  simp only [List.length_append] at this
  omega

end Token

end Daybook
