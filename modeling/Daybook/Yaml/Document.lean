import Daybook.Yaml.Node
import Daybook.Yaml.Scalar

/-!
Documents as values.

The reader covers the part of YAML 1.1 that configuration files use: block lists and block mappings,
lists in brackets and mappings in braces, plain scalars and scalars in quotes, comments and document
separators. A key may occur more than once; which value counts is left to whoever looks it up.
-/

namespace Daybook.Yaml

/-- Whether a document may hold a character. -/
def isAllowed (c : Char) : Bool :=
  let n := c.toNat
  n = 0x09 || n = 0x0A || n = 0x0D || (0x20 ≤ n && n ≤ 0x7E) || n = 0x85 || (0xA0 ≤ n && n ≤ 0xD7FF)
    || (0xE000 ≤ n && n ≤ 0xFFFD) || 0x10000 ≤ n

/-- The first character of a text that no document may hold. -/
def forbidden? (text : List Char) : Option Flaw :=
  match text.dropWhile isAllowed with
  | [] => none
  | c :: rest => some (.forbidden c.toNat (text.length - rest.length - 1))

/-- What a scalar says. -/
def ScalarText.meaning : ScalarText → Meaning
  | .plain text => plainMeaning text
  | .quoted codes => .value (Value.ofCodes codes)

namespace Node

/-- What messages call the kind of a node. -/
def kindName : Node → String
  | .scalar .. => "scalar"
  | .list .. => "sequence"
  | .mapping .. => "mapping"

/-- Whether a node is a key whose value is merged into its mapping. -/
def isMergeKey : Node → Bool
  | .scalar _ text =>
    match text.meaning with
    | .merge => true
    | _ => false
  | _ => false

/-- The value of a scalar. -/
def scalarValue (place : Mark) (text : ScalarText) : Except Failure Value :=
  match text.meaning with
  | .value v => .ok v
  | .merge => .error (.flaw (.onlyAsKey "tag:yaml.org,2002:merge" place))
  | .default => .error (.flaw (.onlyAsKey "tag:yaml.org,2002:value" place))
  | .impossible => .error .impossibleScalar

/-- The value of a key of a mapping that begins at `start`. -/
def keyValue (start : Mark) : Node → Except Failure Value
  | .scalar place text =>
    match text.meaning with
    | .default => .ok (.text "=")
    | _ => scalarValue place text
  | key => .error (.flaw (.badKey start key.mark))

mutual

/-- The entries of a mapping that begins at `start`, in front of them those that are merged into it. -/
def merged (fuel : Nat) (start : Mark) (entries : List (Node × Node)) :
    Except Failure (List (Node × Node)) := do
  match fuel with
  | 0 => return entries
  | fuel + 1 =>
    let sources := entries.filter fun (key, _) => key.isMergeKey
    let own := entries.filter fun (key, _) => !key.isMergeKey
    let added ← sources.mapM fun (_, source) => mergedFrom fuel start source
    return added.flatten ++ own

/-- The entries that a node has merged into a mapping. Of several mappings in a list the first one comes
last, so that it counts. -/
def mergedFrom (fuel : Nat) (start : Mark) (source : Node) : Except Failure (List (Node × Node)) := do
  match fuel, source with
  | fuel + 1, .mapping place entries => merged fuel place entries
  | fuel + 1, .list _ items => do
    let parts ← items.mapM fun item =>
      match item with
      | .mapping place entries => merged fuel place entries
      | item => .error (.flaw (.badMerge true item.kindName start item.mark))
    return parts.reverse.flatten
  | _, source => .error (.flaw (.badMerge false source.kindName start source.mark))

end

/-- A node, with its value if it is a scalar. -/
def draft (node : Node) : Except Failure (Node × Value) :=
  match node with
  | .scalar place text => (scalarValue place text).map fun v => (node, v)
  | _ => .ok (node, .null)

/-- The value of a node. The scalars of a list or a mapping are looked at before what is nested in it,
which matters if there are several flaws. -/
def value (fuel : Nat) (node : Node) : Except Failure Value := do
  match fuel, node with
  | fuel + 1, .list _ items => do
    let drafts ← items.mapM draft
    return .list (← drafts.mapM (finish fuel))
  | fuel + 1, .mapping place entries => do
    let entries ← merged fuel place entries
    let drafts ← entries.mapM fun (key, item) => do
      let key ← keyValue place key
      return (key, ← draft item)
    return .mapping (← drafts.mapM fun (key, item) => do return (key, ← finish fuel item))
  | _, node => do return (← draft node).2
where
  /-- The value of a node whose scalar was looked at. -/
  finish (fuel : Nat) (drafted : Node × Value) : Except Failure Value :=
    match drafted with
    | (.scalar .., v) => .ok v
    | (node, _) => value fuel node

end Node

/-- The value of a document; no document is null. -/
def read (text : List Char) : Except Failure Value := do
  match forbidden? text with
  | some flaw => .error (.flaw flaw)
  | none =>
    match ← Node.ofText? text with
    | some node => node.value (text.length + 1)
    | none => return .null

end Daybook.Yaml
