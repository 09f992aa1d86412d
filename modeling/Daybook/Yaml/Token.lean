import Daybook.Text.Quoted
import Daybook.Yaml.Cursor

/-!
Tokens of a document.

Block lists and block mappings are opened and closed by tokens of their own, which stand where the
indentation changes. Tokens have a name, which errors show.
-/

namespace Daybook.Yaml

/-- The text of a scalar: characters without quotes, which may stand for something else than text, or
the code points of a text in quotes. An escape may name any code point, even half of a pair. -/
inductive ScalarText where
  | plain (text : List Char)
  | quoted (codes : List Nat)
  deriving DecidableEq

/-- The kinds of tokens. -/
inductive TokenKind where
  | documentStart
  | documentEnd
  | streamEnd
  | blockList
  | blockMapping
  | blockEnd
  | openList
  | closeList
  | openMapping
  | closeMapping
  | item
  | comma
  | key
  | value
  | scalar (text : ScalarText)
  deriving DecidableEq

/-- The name of a kind of tokens. -/
def TokenKind.name : TokenKind → String
  | .documentStart => "<document start>"
  | .documentEnd => "<document end>"
  | .streamEnd => "<stream end>"
  | .blockList => "<block sequence start>"
  | .blockMapping => "<block mapping start>"
  | .blockEnd => "<block end>"
  | .openList => "["
  | .closeList => "]"
  | .openMapping => "\x7b"
  | .closeMapping => "\x7d"
  | .item => "-"
  | .comma => ","
  | .key => "?"
  | .value => ":"
  | .scalar _ => "<scalar>"

/-- A token with the places where it begins and ends. -/
structure Token where
  kind : TokenKind
  start : Mark
  stop : Mark
  deriving DecidableEq

/-- Whether a token is of one of the given kinds. -/
def Token.isOneOf (t : Token) (kinds : List TokenKind) : Bool :=
  kinds.contains t.kind

end Daybook.Yaml
