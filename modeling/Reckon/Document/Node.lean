import Reckon.Document.Token
import Reckon.Tree

/-!
# Nodes of a document

The tokens of a document make one node: a scalar, a sequence or a mapping of nodes. Where a node is
missing it is an empty plain scalar. A document has at most one node, and at most `depthLimit` nodes
are inside each other. What does not fit makes the whole document malformed; a fault among the
tokens shows when it stands where a token is needed.
-/

set_option autoImplicit false

namespace Reckon.Document

inductive Node where
  | scalar (written : Scalar)
  | sequence (items : List Node)
  | mapping (entries : List (Node × Node))

namespace Node

def missing : Node := .scalar (.plain [])

instance : Inhabited Node := ⟨missing⟩

/-- Where a node stands: inside a flow collection, in a block, or as a part of a mapping, where the
entries of a sequence need no further indentation. -/
inductive Setting where
  | flow
  | block
  | part
deriving DecidableEq

def faultAt : List Token → Fault
  | .fault fault :: _ => fault
  | _ => .malformed

/-- Whether the tokens go on with one of some tokens, or end. -/
def stopsAt (stops : List Token) : List Token → Bool
  | [] => true
  | token :: _ => stops.contains token

/-- The tokens behind the comma that separates the parts of a flow collection; the first part has
none before it. -/
def separated (isFirst : Bool) (tokens : List Token) : Except Fault (List Token) :=
  if isFirst then .ok tokens
  else
    match tokens with
    | .flowEntry :: rest => .ok rest
    | _ => .error (faultAt tokens)

mutual

/-- The node at the start of the tokens. The first argument bounds the nodes inside each other and
in a row, and the second one the nodes inside each other. -/
def read : Nat → Nat → Setting → List Token → Except Fault (Node × List Token)
  | 0, _, _, _ => .error .malformed
  | _, 0, _, tokens =>
    match tokens with
    | .fault fault :: _ => .error fault
    | _ => .error .tooDeep
  | bound + 1, levels + 1, setting, tokens =>
    match tokens with
    | .scalar written :: rest => .ok (.scalar written, rest)
    | .openSequence :: rest => do
      let (items, after) ← flowItems bound levels true rest
      return (.sequence items, after)
    | .openMapping :: rest => do
      let (entries, after) ← flowEntries bound levels true rest
      return (.mapping entries, after)
    | .blockSequence :: rest =>
      if setting = .flow then .error .malformed
      else do
        let (items, after) ← blockItems bound levels rest
        return (.sequence items, after)
    | .blockMapping :: rest =>
      if setting = .flow then .error .malformed
      else do
        let (entries, after) ← blockEntries bound levels rest
        return (.mapping entries, after)
    | .blockEntry :: _ =>
      if setting = .part then do
        let (items, after) ← partItems bound levels tokens
        return (.sequence items, after)
      else .error .malformed
    | _ => .error (faultAt tokens)

/-- The node at the start of the tokens, which may be missing before certain tokens. -/
def readUnless :
    Nat → Nat → List Token → Setting → List Token → Except Fault (Node × List Token)
  | 0, _, _, _, _ => .error .malformed
  | bound + 1, levels, stops, setting, tokens =>
    if stopsAt stops tokens then .ok (missing, tokens) else read bound levels setting tokens

def blockItems : Nat → Nat → List Token → Except Fault (List Node × List Token)
  | 0, _, _ => .error .malformed
  | bound + 1, levels, tokens =>
    match tokens with
    | .blockEntry :: rest => do
      let (item, after) ← readUnless bound levels [.blockEntry, .blockEnd] .block rest
      let (items, behind) ← blockItems bound levels after
      return (item :: items, behind)
    | .blockEnd :: rest => .ok ([], rest)
    | _ => .error (faultAt tokens)

/-- The items of a sequence whose dashes stand in the column of the mapping around it. -/
def partItems : Nat → Nat → List Token → Except Fault (List Node × List Token)
  | 0, _, _ => .error .malformed
  | bound + 1, levels, tokens =>
    match tokens with
    | .blockEntry :: rest => do
      let (item, after) ←
        readUnless bound levels [.blockEntry, .key, .value, .blockEnd] .block rest
      let (items, behind) ← partItems bound levels after
      return (item :: items, behind)
    | _ => .ok ([], tokens)

/-- The value of an entry of a block mapping, given what follows its key. -/
def blockValue : Nat → Nat → List Token → Except Fault (Node × List Token)
  | 0, _, _ => .error .malformed
  | bound + 1, levels, tokens =>
    match tokens with
    | .value :: rest => readUnless bound levels [.key, .value, .blockEnd] .part rest
    | _ => .ok (missing, tokens)

def blockEntries : Nat → Nat → List Token → Except Fault (List (Node × Node) × List Token)
  | 0, _, _ => .error .malformed
  | bound + 1, levels, tokens =>
    match tokens with
    | .key :: rest => do
      let (key, afterKey) ← readUnless bound levels [.key, .value, .blockEnd] .part rest
      let (value, afterValue) ← blockValue bound levels afterKey
      let (entries, behind) ← blockEntries bound levels afterValue
      return ((key, value) :: entries, behind)
    | .blockEnd :: rest => .ok ([], rest)
    | _ => .error (faultAt tokens)

/-- A key and a value of a flow collection, given what follows the mark of the key. -/
def flowPair : Nat → Nat → Token → List Token → Except Fault ((Node × Node) × List Token)
  | 0, _, _, _ => .error .malformed
  | bound + 1, levels, closing, tokens => do
    let (key, afterKey) ← readUnless bound levels [.value, .flowEntry, closing] .flow tokens
    match afterKey with
    | .value :: rest =>
      let (value, after) ← readUnless bound levels [.flowEntry, closing] .flow rest
      return ((key, value), after)
    | _ => return ((key, missing), afterKey)

/-- The items of a flow sequence and its end. A key makes a mapping of one entry. -/
def flowItems : Nat → Nat → Bool → List Token → Except Fault (List Node × List Token)
  | 0, _, _, _ => .error .malformed
  | bound + 1, levels, isFirst, tokens =>
    match tokens with
    | .closeSequence :: rest => .ok ([], rest)
    | _ => do
      match ← separated isFirst tokens with
      | .closeSequence :: rest => return ([], rest)
      | .key :: rest =>
        if levels = 0 then .error .tooDeep
        else
          let (entry, after) ← flowPair bound (levels - 1) .closeSequence rest
          let (items, behind) ← flowItems bound levels false after
          return (.mapping [entry] :: items, behind)
      | fresh =>
        let (item, after) ← read bound levels .flow fresh
        let (items, behind) ← flowItems bound levels false after
        return (item :: items, behind)

/-- The entries of a flow mapping and its end. A node without a colon is a key. -/
def flowEntries :
    Nat → Nat → Bool → List Token → Except Fault (List (Node × Node) × List Token)
  | 0, _, _, _ => .error .malformed
  | bound + 1, levels, isFirst, tokens =>
    match tokens with
    | .closeMapping :: rest => .ok ([], rest)
    | _ => do
      match ← separated isFirst tokens with
      | .closeMapping :: rest => return ([], rest)
      | .key :: rest =>
        let (entry, after) ← flowPair bound levels .closeMapping rest
        let (entries, behind) ← flowEntries bound levels false after
        return (entry :: entries, behind)
      | fresh =>
        let (key, after) ← read bound levels .flow fresh
        let (entries, behind) ← flowEntries bound levels false after
        return ((key, missing) :: entries, behind)

end

def skipEnds : List Token → List Token
  | .documentEnd :: rest => skipEnds rest
  | tokens => tokens

/-- The node of a document, if it has one, and what follows the document. The number bounds the
nodes. -/
def readDocument (bound : Nat) (tokens : List Token) :
    Except Fault (Option Node × List Token) :=
  match tokens with
  | [] => .ok (none, [])
  | .documentStart :: rest =>
    if stopsAt [.documentStart, .documentEnd] rest then .ok (some missing, rest)
    else do
      let (node, after) ← read bound depthLimit .block rest
      return (some node, after)
  | _ => do
    let (node, after) ← read bound depthLimit .block tokens
    return (some node, after)

def ofTokens (tokens : List Token) : Except Fault (Option Node) := do
  let (node?, rest) ← readDocument (4 * tokens.length + 4) tokens
  match skipEnds rest with
  | [] => return node?
  | extra => .error (faultAt extra)

end Node

end Reckon.Document
