import Reckon.Document.Scalar
import Reckon.Document.Source

/-!
# Tokens of a document

A document is cut into scalars and the marks of its structure. Where a block of entries or of keys
begins and ends is told by indentation, and a scalar or a flow collection becomes a key when a colon
follows it on the same line. Tags, anchors, directives and block scalars are not part of these
documents. Where the scan cannot go on a fault stands in place of a token, behind the tokens that
were settled by then: those that no key can come before any more. Of a source that is broken the
scan cannot go on at its end.
-/

set_option autoImplicit false

namespace Reckon.Document

inductive Token where
  | blockSequence
  | blockMapping
  | blockEnd
  | blockEntry
  | key
  | value
  | openSequence
  | closeSequence
  | openMapping
  | closeMapping
  | flowEntry
  | documentStart
  | documentEnd
  | scalar (written : Scalar)
  | fault (fault : Fault)
deriving DecidableEq

/-- A token that becomes a key if a colon follows it. -/
structure PossibleKey where
  tokensBefore : Nat
  /-- Whether its indentation makes it a key for sure. -/
  required : Bool
  place : Place

structure Scan where
  place : Place
  tokens : List Token
  flowLevel : Nat
  /-- The column of the innermost block, and -1 outside of all. -/
  indent : Int
  outerIndents : List Int
  allowsKey : Bool
  /-- The possible key of each flow level that has one, innermost first. -/
  keys : List (Nat × PossibleKey)
  /-- What is wrong behind the last character. -/
  broken? : Option Fault

namespace Scan

def start (source : Source) : Scan :=
  ⟨Place.start source.characters, [], 0, -1, [], true, [], source.broken?⟩

def push (scan : Scan) (token : Token) : Scan :=
  { scan with tokens := scan.tokens ++ [token] }

def mark (scan : Scan) (token : Token) (width : Nat) : Scan :=
  { scan.push token with place := scan.place.skip width }

def inFlow (scan : Scan) : Bool :=
  0 < scan.flowLevel

/-- Skips spaces, comments and line ends; a key may start on a new line outside flow collections. -/
def skipGap : Nat → Scan → Scan
  | 0, scan => scan
  | bound + 1, scan =>
    let place := scan.place.skipWhile (· == ' ')
    let behind :=
      if place.rest.head? == some '#' then place.skipWhile fun character => !isBreak character
      else place
    match behind.rest with
    | character :: _ =>
      if isBreak character then
        skipGap bound
          { scan with place := behind.next, allowsKey := scan.allowsKey || !scan.inFlow }
      else { scan with place := behind }
    | [] => { scan with place := behind }

/-- Drops the possible key of the flow level; one that is required may not be dropped. -/
def dropKey (scan : Scan) : Except Fault Scan :=
  match scan.keys.lookup scan.flowLevel with
  | some key =>
    if key.required then .error .malformed
    else .ok { scan with keys := scan.keys.filter fun entry => entry.1 != scan.flowLevel }
  | none => .ok scan

/-- Whether a possible key is too far away for its colon. -/
def isStale (scan : Scan) (key : PossibleKey) : Bool :=
  key.place.line != scan.place.line
    || 1024 < key.place.left - scan.place.left

def dropStale (scan : Scan) : Except Fault Scan :=
  if scan.keys.any fun entry => scan.isStale entry.2 && entry.2.required then .error .malformed
  else .ok { scan with keys := scan.keys.filter fun entry => !scan.isStale entry.2 }

def noteKey (scan : Scan) : Except Fault Scan :=
  if scan.allowsKey then do
    let dropped ← scan.dropKey
    let required := !scan.inFlow && scan.indent == (scan.place.column : Int)
    let key : PossibleKey := ⟨scan.tokens.length, required, scan.place⟩
    return { dropped with keys := (scan.flowLevel, key) :: dropped.keys }
  else .ok scan

def closeBlocks (column : Int) : Nat → Scan → Scan
  | 0, scan => scan
  | bound + 1, scan =>
    if column < scan.indent then
      match scan.outerIndents with
      | outer :: rest =>
        closeBlocks column bound
          { scan.push .blockEnd with indent := outer, outerIndents := rest }
      | [] => scan
    else scan

/-- Closes the blocks that a column ends, outside flow collections. -/
def unwind (scan : Scan) (column : Int) : Scan :=
  if scan.inFlow then scan else closeBlocks column scan.outerIndents.length scan

/-- Opens a block at a column when it is to the right of the innermost one. The token that opens it
goes behind the first `before` tokens. -/
def openBlock (scan : Scan) (column : Nat) (before : Nat) (token : Token) : Scan :=
  if scan.indent < (column : Int) then
    { scan with
      tokens := scan.tokens.take before ++ token :: scan.tokens.drop before
      indent := column
      outerIndents := scan.indent :: scan.outerIndents }
  else scan

def documentMark (scan : Scan) (token : Token) : Except Fault Scan := do
  let unwound ← (scan.unwind (-1)).dropKey
  return { unwound.mark token 3 with allowsKey := false }

def openFlow (scan : Scan) (token : Token) : Except Fault Scan := do
  let noted ← scan.noteKey
  return { noted.mark token 1 with flowLevel := noted.flowLevel + 1, allowsKey := true }

def closeFlow (scan : Scan) (token : Token) : Except Fault Scan := do
  let dropped ← scan.dropKey
  if dropped.flowLevel = 0 then .error .malformed
  else
    return { dropped.mark token 1 with flowLevel := dropped.flowLevel - 1, allowsKey := false }

def flowComma (scan : Scan) : Except Fault Scan := do
  let dropped ← scan.dropKey
  return { dropped.mark .flowEntry 1 with allowsKey := true }

def blockDash (scan : Scan) : Except Fault Scan := do
  if !scan.inFlow && !scan.allowsKey then .error .malformed
  else
    let opened :=
      if scan.inFlow then scan
      else scan.openBlock scan.place.column scan.tokens.length .blockSequence
    let dropped ← opened.dropKey
    return { dropped.mark .blockEntry 1 with allowsKey := true }

def keyMark (scan : Scan) : Except Fault Scan := do
  if !scan.inFlow && !scan.allowsKey then .error .malformed
  else
    let opened :=
      if scan.inFlow then scan
      else scan.openBlock scan.place.column scan.tokens.length .blockMapping
    let dropped ← opened.dropKey
    return { dropped.mark .key 1 with allowsKey := !scan.inFlow }

/-- A colon before a value. The possible key of the flow level, if there is one, is a key now. -/
def valueMark (scan : Scan) : Except Fault Scan :=
  match scan.keys.lookup scan.flowLevel with
  | some key =>
    let before := key.tokensBefore
    let keyed :=
      { scan with
        tokens := scan.tokens.take before ++ Token.key :: scan.tokens.drop before
        keys := scan.keys.filter fun entry => entry.1 != scan.flowLevel }
    let opened :=
      if scan.inFlow then keyed else keyed.openBlock key.place.column before .blockMapping
    .ok { opened.mark .value 1 with allowsKey := false }
  | none => do
    if !scan.inFlow && !scan.allowsKey then .error .malformed
    else
      let opened :=
        if scan.inFlow then scan
        else scan.openBlock scan.place.column scan.tokens.length .blockMapping
      return { opened.mark .value 1 with allowsKey := !scan.inFlow }

def quoted (scan : Scan) (quote : Char) : Except Fault Scan := do
  let noted ← scan.noteKey
  let piece ← quotedScalar quote noted.place.left noted.place.next
  let pushed := noted.push (.scalar (.quoted ⟨piece.items⟩))
  return { pushed with place := piece.place, allowsKey := false }

def plain (scan : Scan) : Except Fault Scan := do
  let noted ← scan.noteKey
  let (piece, brokeLine) :=
    plainScalar noted.inFlow (noted.indent + 1) noted.place.left noted.place
  return { noted.push (.scalar (.plain piece.items)) with
    place := piece.place, allowsKey := brokeLine }

def isIndicator (character : Char) : Bool :=
  "-?:,[]\x7b\x7d#&*!|>\x27\x22%@\x60".toList.contains character

def startsPlain (scan : Scan) (character : Char) (rest : List Char) : Bool :=
  (!isGap character && !isIndicator character)
    || (!endsWord rest
      && (character == '-' || (!scan.inFlow && (character == '?' || character == ':'))))

/-- Reads the next token, which starts with a character. -/
def token (scan : Scan) (character : Char) (rest : List Char) : Except Fault Scan :=
  let separate := scan.inFlow || endsWord rest
  if scan.place.column = 0 && character == '-' && startsMark scan.place.rest then
    scan.documentMark .documentStart
  else if scan.place.column = 0 && character == '.' && startsMark scan.place.rest then
    scan.documentMark .documentEnd
  else if character == '[' then scan.openFlow .openSequence
  else if character == '\x7b' then scan.openFlow .openMapping
  else if character == ']' then scan.closeFlow .closeSequence
  else if character == '\x7d' then scan.closeFlow .closeMapping
  else if character == ',' then scan.flowComma
  else if character == '-' && endsWord rest then scan.blockDash
  else if character == '?' && separate then scan.keyMark
  else if character == ':' && separate then scan.valueMark
  else if character == '\x27' || character == '\x22' then scan.quoted character
  else if scan.startsPlain character rest then scan.plain
  else .error .malformed

/-- How many tokens are settled: those before the first one that may become a key. -/
def settled (scan : Scan) : Nat :=
  scan.keys.foldl (fun least entry => min least entry.2.tokensBefore) scan.tokens.length

/-- The scan, unless it is at the end of a broken source. -/
def unbroken (scan : Scan) : Except Fault Scan :=
  match scan.broken? with
  | some fault => if scan.place.left = 0 then .error fault else .ok scan
  | none => .ok scan

/-- The fault of a token; one that goes on to the end of a broken source has the fault of that. -/
def tokenFault (scan : Scan) (fault : Fault) : Fault :=
  if fault = .openScalar then scan.broken?.getD fault else fault

/-- Reads on behind a gap. The flag tells whether the document ends there. -/
def advance (scan : Scan) : Except Fault (Scan × Bool) := do
  let skipped ← (scan.skipGap (scan.place.left + 1)).unbroken
  let fresh ← skipped.dropStale
  let unwound := fresh.unwind fresh.place.column
  match unwound.place.rest with
  | [] => return (← (unwound.unwind (-1)).dropKey, true)
  | character :: rest => do
    let advanced ← (unwound.token character rest).mapError unwound.tokenFault
    return (← advanced.unbroken, false)

def stopped (scan : Scan) (count : Nat) (fault : Fault) : List Token :=
  scan.tokens.take count ++ [.fault fault]

/-- The tokens up to the end of the document or to a fault. The second argument is how many of the
tokens so far were settled when the last of them was read. -/
def finish : Nat → Nat → Scan → List Token
  | 0, count, scan => scan.stopped count .malformed
  | bound + 1, count, scan =>
    match scan.dropStale with
    | .error fault => scan.stopped count fault
    | .ok fresh =>
      match fresh.advance with
      | .error fault => fresh.stopped fresh.settled fault
      | .ok (ended, true) => ended.tokens
      | .ok (advanced, false) => finish bound fresh.settled advanced

end Scan

def scan (source : Source) : List Token :=
  (Scan.start source).finish (source.characters.length + 2) 0

end Reckon.Document
