import Daybook.Yaml.Lookahead

/-!
Documents as trees.

A node is a scalar, a list or a mapping, and knows where it begins. What is left out, such as the value
behind a colon, is an empty scalar. `fuel` bounds the nesting and the number of parts.
-/

namespace Daybook.Yaml

/-- A part of a document. -/
inductive Node where
  | scalar (mark : Mark) (text : ScalarText)
  | list (mark : Mark) (items : List Node)
  | mapping (mark : Mark) (entries : List (Node × Node))

namespace Node

/-- Where a node begins. -/
def mark : Node → Mark
  | .scalar mark _ => mark
  | .list mark _ => mark
  | .mapping mark _ => mark

/-- The node that stands for what is left out. -/
def missing (place : Mark) : Node := .scalar place (.plain [])

/-- Reading nodes from tokens. -/
abbrev Reading := StateT Lookahead (Except Failure)

/-- The next token, which stays. -/
def peek : Reading Token := do
  let l ← (← get).settle ((← get).cursor.rest.length + 2)
  set l
  return l.tokens.headD ⟨.streamEnd, l.mark, l.mark⟩

/-- The next token, which is taken away. -/
def take : Reading Token := do
  let t ← peek
  modify fun l => { l with tokens := l.tokens.tail, taken := l.taken + 1 }
  return t

/-- Refuses the document. -/
def refuse {α : Type} (flaw : Flaw) : Reading α := throw (.flaw flaw)

mutual

/-- A node outside brackets and braces if `block`. As the value of a key a list need not be indented
more than the key, which `afterColon` allows. -/
def read (fuel : Nat) (block afterColon : Bool) : Reading Node := do
  let t ← peek
  match fuel with
  | 0 => refuse (.unsupported t.start)
  | fuel + 1 =>
    match t.kind with
    | .scalar text => do
      let _ ← take
      return .scalar t.start text
    | .openList => do
      let _ ← take
      return .list t.start (← flowItems fuel t.start true)
    | .openMapping => do
      let _ ← take
      return .mapping t.start (← flowEntries fuel t.start true)
    | kind =>
      if afterColon && kind = .item then return .list t.start (← looseItems fuel)
      else if block && kind = .blockList then
        let _ ← take
        return .list t.start (← blockItems fuel t.start)
      else if block && kind = .blockMapping then
        let _ ← take
        return .mapping t.start (← blockEntries fuel t.start)
      else refuse (.noNode (!block) kind t.start)

/-- The node behind a token, unless what comes next shows that it is left out. -/
def readUnless (fuel : Nat) (block afterColon : Bool) (kinds : List TokenKind) (before : Token) :
    Reading Node := do
  if (← peek).isOneOf kinds then return missing before.stop
  else
    match fuel with
    | 0 => refuse (.unsupported before.stop)
    | fuel + 1 => read fuel block afterColon

/-- The value behind a key, which may be left out with its colon. -/
def valueUnless (fuel : Nat) (block : Bool) (kinds : List TokenKind) : Reading Node := do
  let t ← peek
  match fuel with
  | 0 => refuse (.unsupported t.start)
  | fuel + 1 =>
    if t.kind = .value then readUnless fuel block block kinds (← take) else return missing t.start

/-- The items of a block list that begins at `start`. -/
def blockItems (fuel : Nat) (start : Mark) : Reading (List Node) := do
  let t ← take
  match fuel with
  | 0 => refuse (.unsupported t.start)
  | fuel + 1 =>
    match t.kind with
    | .item => do
      let item ← readUnless fuel true false [.item, .blockEnd] t
      return item :: (← blockItems fuel start)
    | .blockEnd => return []
    | kind => refuse (.noBlockEnd false kind start t.start)

/-- The items of a block list that is not indented more than what it belongs to. -/
def looseItems (fuel : Nat) : Reading (List Node) := do
  let t ← peek
  match fuel with
  | 0 => refuse (.unsupported t.start)
  | fuel + 1 =>
    if t.kind = .item then
      let t ← take
      let item ← readUnless fuel true false [.item, .key, .value, .blockEnd] t
      return item :: (← looseItems fuel)
    else return []

/-- The entries of a block mapping that begins at `start`. -/
def blockEntries (fuel : Nat) (start : Mark) : Reading (List (Node × Node)) := do
  let t ← take
  match fuel with
  | 0 => refuse (.unsupported t.start)
  | fuel + 1 =>
    match t.kind with
    | .key => do
      let ends := [TokenKind.key, .value, .blockEnd]
      let key ← readUnless fuel true true ends t
      let value ← valueUnless fuel true ends
      return (key, value) :: (← blockEntries fuel start)
    | .blockEnd => return []
    | kind => refuse (.noBlockEnd true kind start t.start)

/-- The items of a list in brackets that begins at `start`. An item with a colon is a mapping with one
entry. -/
def flowItems (fuel : Nat) (start : Mark) (first : Bool) : Reading (List Node) := do
  let t ← peek
  match fuel with
  | 0 => refuse (.unsupported t.start)
  | fuel + 1 =>
    if t.kind = .closeList then
      let _ ← take
      return []
    else if !first && t.kind ≠ .comma then refuse (.noFlowEnd false t.kind start t.start)
    else
      let _ ← if first then pure t else take
      let t ← peek
      match t.kind with
      | .closeList => do
        let _ ← take
        return []
      | .key => do
        let key ← readUnless fuel false false [.value, .comma, .closeList] (← take)
        let value ← valueUnless fuel false [.comma, .closeList]
        return .mapping t.start [(key, value)] :: (← flowItems fuel start false)
      | _ => do
        let item ← read fuel false false
        return item :: (← flowItems fuel start false)

/-- The entries of a mapping in braces that begins at `start`. What has no colon is a key without a
value. -/
def flowEntries (fuel : Nat) (start : Mark) (first : Bool) : Reading (List (Node × Node)) := do
  let t ← peek
  match fuel with
  | 0 => refuse (.unsupported t.start)
  | fuel + 1 =>
    if t.kind = .closeMapping then
      let _ ← take
      return []
    else if !first && t.kind ≠ .comma then refuse (.noFlowEnd true t.kind start t.start)
    else
      let _ ← if first then pure t else take
      let t ← peek
      match t.kind with
      | .closeMapping => do
        let _ ← take
        return []
      | .key => do
        let key ← readUnless fuel false false [.value, .comma, .closeMapping] (← take)
        let value ← valueUnless fuel false [.comma, .closeMapping]
        return (key, value) :: (← flowEntries fuel start false)
      | _ => do
        let key ← read fuel false false
        let value := missing (← peek).start
        return (key, value) :: (← flowEntries fuel start false)

end

/-- Takes tokens of a kind away, as many as there are. -/
def skipAll (kind : TokenKind) (fuel : Nat) : Reading Unit := do
  match fuel with
  | 0 => return
  | fuel + 1 =>
    if (← peek).kind = kind then
      let _ ← take
      skipAll kind fuel

/-- The document, unless there is none. -/
def readFirst (fuel : Nat) : Reading (Option Node) := do
  let t ← peek
  match t.kind with
  | .streamEnd => return none
  | .documentStart => do
    let _ ← take
    let t ← peek
    if t.isOneOf [.documentStart, .documentEnd, .streamEnd] then return some (missing t.start)
    else return some (← read fuel true false)
  | _ => return some (← read fuel true false)

/-- The only document of a text, if it has one. -/
def readOnly (fuel : Nat) : Reading (Option Node) := do
  match ← readFirst fuel with
  | none => return none
  | some node => do
    skipAll .documentEnd fuel
    let t ← peek
    match t.kind with
    | .streamEnd => return some node
    | .documentStart => refuse (.secondDocument node.mark t.start)
    | kind => refuse (.noDocumentStart kind t.start)

/-- The document that a text holds, if it holds one. -/
def ofText? (text : List Char) : Except Failure (Option Node) :=
  (readOnly (8 * text.length + 16)).run' { cursor := .start text }

end Node

end Daybook.Yaml
