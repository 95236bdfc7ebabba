import Criterion.Yaml.BlockScalar
import Criterion.Yaml.PlainScalar
import Criterion.Yaml.Token

/-!
# From text to tokens

The tokens of a YAML text are found from left to right, with an account of the block collections that
are open, each with the column it is indented to, and of the flow collections around the place.

Whether a node is the key of a mapping is known only at the colon behind it. For every flow collection
around the place, and for the block outside of them, it is remembered where the last node that might
be a key began. At a colon the tokens that make it one are put in there. A key must stand on one line
and begin at most 1024 octets before its colon. Where a block mapping cannot do without the key it is
an error if no colon comes.
-/

namespace Criterion.Yaml

/-- Where a node begins that might be a key. -/
structure KeyCandidate where
  /-- Must it be a key, since a line of a block mapping begins with it? -/
  required : Bool
  /-- How many tokens come before it. -/
  position : Nat
  place : Cursor
deriving Repr

/-- A text whose first part has been cut into tokens. -/
structure Layout where
  cursor : Cursor
  tokens : Array Token := #[]
  /-- The column of the innermost block collection; -1 outside of all. -/
  indent : Int := -1
  outerIndents : List Int := []
  /-- What might be a key in the innermost flow collection, or in the block outside of all. -/
  candidate : Option KeyCandidate := none
  /-- The candidates of the collections around it, one for each flow collection that is open. -/
  outerCandidates : List (Option KeyCandidate) := []
  /-- May a node that begins here be a key? -/
  keyAllowed : Bool := true

namespace Layout

def inFlow (s : Layout) : Bool := !s.outerCandidates.isEmpty

def emit (s : Layout) (token : Token) : Layout := { s with tokens := s.tokens.push token }

/-- Adds a token of some characters that stand at the cursor. -/
def emitMark (s : Layout) (token : Token) (count : Nat) : Layout :=
  { s.emit token with cursor := s.cursor.advance count }

/-- Goes over blanks, comments and line ends. Behind a line end a key may begin, but for flow
collections. A tab is a blank only where no key may begin. -/
def skipBlanks : (fuel : Nat) → Layout → Layout
  | 0, s => s
  | fuel + 1, s =>
    -- a byte order mark may stand at the start of any line
    let start := if s.cursor.column == 0 && s.cursor.at? '\uFEFF' then s.cursor.advance 1 else s.cursor
    let tabs := s.inFlow || !s.keyAllowed
    let next := (start.skipWhile fun ch => ch == ' ' || (tabs && ch == '\t')).skipComment
    match next.takeBreak? with
    | some (_, below) =>
      skipBlanks fuel { s with cursor := below, keyAllowed := s.keyAllowed || !s.inFlow }
    | none => { s with cursor := next }

/-- Is the candidate too far back, by lines or by octets, to be a key? -/
def isStale (c : Cursor) (key : KeyCandidate) : Bool :=
  key.place.line < c.line || c.left + 1024 < key.place.left

/-- Gives up a candidate that is too far back; one that must be a key is an error. -/
def dropStale (c : Cursor) : Option KeyCandidate → Option (Option KeyCandidate)
  | none => some none
  | some key => if isStale c key then (if key.required then none else some none) else some (some key)

def dropStaleKeys (s : Layout) : Option Layout := do
  let candidate ← dropStale s.cursor s.candidate
  let outerCandidates ← s.outerCandidates.mapM (dropStale s.cursor)
  return { s with candidate, outerCandidates }

/-- Gives up the innermost candidate; one that must be a key is an error. -/
def dropKey (s : Layout) : Option Layout :=
  if s.candidate.any (·.required) then none else some { s with candidate := none }

/-- Remembers that the node that begins here might be a key. -/
def noteKey (s : Layout) : Option Layout :=
  if s.keyAllowed then do
    let s ← s.dropKey
    let required := !s.inFlow && s.indent == s.cursor.column
    return { s with candidate := some ⟨required, s.tokens.size, s.cursor⟩ }
  else some s

/-- Closes block collections, innermost first, as long as they are indented deeper than a column. -/
def closeBlocks (column indent : Int) (tokens : Array Token) : List Int → Int × List Int × Array Token
  | [] => (indent, [], tokens)
  | outer :: outers =>
    if indent > column then closeBlocks column outer (tokens.push .blockEnd) outers
    else (indent, outer :: outers, tokens)

/-- Closes the block collections that are indented deeper than a column. Flow collections do not care
about columns. -/
def unindent (s : Layout) (column : Int) : Layout :=
  if s.inFlow then s
  else
    let (indent, outerIndents, tokens) := closeBlocks column s.indent s.tokens s.outerIndents
    { s with indent, outerIndents, tokens }

/-- Opens a block collection at a column if it is deeper than the innermost one; its token is put in
behind the first `position` ones. -/
def openBlock (s : Layout) (column : Nat) (token : Token) (position : Nat) : Layout :=
  if !s.inFlow && s.indent < column then
    { s with
      indent := column
      outerIndents := s.indent :: s.outerIndents
      tokens := s.tokens.insertIdxIfInBounds position token }
  else s

/-- Opens a block collection here, for a mark that must stand where a key may begin. -/
def openBlockHere (s : Layout) (token : Token) : Option Layout :=
  if s.inFlow then some s
  else if s.keyAllowed then some (s.openBlock s.cursor.column token s.tokens.size)
  else none

/-- The dash in front of an item of a block sequence. -/
def takeBlockEntry (s : Layout) : Option Layout := do
  let s ← s.openBlockHere .blockSequenceStart
  let s ← s.dropKey
  return { s.emitMark .blockEntry 1 with keyAllowed := true }

/-- The question mark in front of a key. -/
def takeKey (s : Layout) : Option Layout := do
  let s ← s.openBlockHere .blockMappingStart
  let s ← s.dropKey
  return { s.emitMark .key 1 with keyAllowed := !s.inFlow }

/-- The colon in front of a value. If there is a candidate it is the key of this value. -/
def takeValue (s : Layout) : Option Layout :=
  match s.candidate with
  | some key =>
    -- the node behind which the colon stands was a key, so this is told in front of it
    let s := { s with tokens := s.tokens.insertIdxIfInBounds key.position .key }
    let s := s.openBlock key.place.column .blockMappingStart key.position
    some { s.emitMark .value 1 with candidate := none, keyAllowed := false }
  | none => do
    let s ← s.openBlockHere .blockMappingStart
    return { s.emitMark .value 1 with keyAllowed := !s.inFlow }

def openFlow (s : Layout) (token : Token) : Option Layout := do
  let s ← s.noteKey
  return { s.emitMark token 1 with
    candidate := none
    outerCandidates := s.candidate :: s.outerCandidates
    keyAllowed := true }

def closeFlow (s : Layout) (token : Token) : Option Layout := do
  let s ← s.dropKey
  let (candidate, outerCandidates) := match s.outerCandidates with
    | [] => (none, [])
    | candidate :: outer => (candidate, outer)
  return { s.emitMark token 1 with candidate, outerCandidates, keyAllowed := false }

def takeFlowEntry (s : Layout) : Option Layout := do
  let s ← s.dropKey
  return { s.emitMark .flowEntry 1 with keyAllowed := true }

def takeDocumentMark (s : Layout) (token : Token) : Option Layout := do
  let s ← (s.unindent (-1)).dropKey
  return { s.emitMark token 3 with keyAllowed := false }

def takeDirective (s : Layout) : Option Layout := do
  let s ← (s.unindent (-1)).dropKey
  let (token, next) ← directive? s.cursor
  return { s.emit token with cursor := next, keyAllowed := false }

def takeNodePart (s : Layout) (read : Cursor → Option (Token × Cursor)) : Option Layout := do
  let s ← s.noteKey
  let (token, next) ← read s.cursor
  return { s.emit token with cursor := next, keyAllowed := false }

def takeQuoted (s : Layout) (quote : Quote) : Option Layout :=
  s.takeNodePart fun c =>
    (quotedScalar? quote c).map fun (text, next) => (.scalar (String.ofList text) false, next)

/-- A plain scalar; where lines end behind it a key may begin. -/
def takePlain (s : Layout) : Option Layout := do
  let s ← s.noteKey
  let (scalar, next) ← plainScalar? s.inFlow (s.indent + 1).toNat s.cursor
  return { s.emit (.scalar (String.ofList scalar.text) true) with
    cursor := next
    keyAllowed := scalar.endsLine }

/-- A block scalar, which cannot be a key. -/
def takeBlockScalar (s : Layout) (folded : Bool) : Option Layout := do
  let s ← s.dropKey
  let (text, next) ← blockScalar? folded s.indent s.cursor
  return { s.emit (.scalar (String.ofList text) false) with cursor := next, keyAllowed := true }

/-- A character that cannot begin a plain scalar, but for a dash, a question mark and a colon. -/
def isIndicator (c : Char) : Bool :=
  isFlowMark c || c == '#' || c == '&' || c == '*' || c == '!' || c == '|' || c == '>' || c == '\'' ||
    c == '"' || c == '%' || c == '@' || c == '\x60'

/-- Takes the next token off a text that begins with this character. -/
def takeToken (s : Layout) (ch : Char) (rest : List Char) : Option Layout :=
  if s.cursor.column == 0 && ch == '%' then s.takeDirective
  else if s.cursor.atDocumentMark then
    s.takeDocumentMark (if ch == '-' then .documentStart else .documentEnd)
  else
    -- inside a flow collection these are marks even with no white space behind them
    let marks := s.inFlow || endsWord rest
    match ch with
    | '[' => s.openFlow .flowSequenceStart
    | '\x7b' => s.openFlow .flowMappingStart
    | ']' => s.closeFlow .flowSequenceEnd
    | '\x7d' => s.closeFlow .flowMappingEnd
    | ',' => s.takeFlowEntry
    | '-' => if endsWord rest then s.takeBlockEntry else s.takePlain
    | '?' => if marks then s.takeKey else s.takePlain
    | ':' => if marks then s.takeValue else s.takePlain
    | '*' => s.takeNodePart fun c => (anchorName? c).map fun (name, next) => (.reference name, next)
    | '&' => s.takeNodePart fun c => (anchorName? c).map fun (name, next) => (.anchor name, next)
    | '!' => s.takeNodePart fun c => (tag? s.inFlow c).map fun (tag, next) => (.tag tag, next)
    | '|' => if s.inFlow then none else s.takeBlockScalar false
    | '>' => if s.inFlow then none else s.takeBlockScalar true
    | '\'' => s.takeQuoted .single
    | '"' => s.takeQuoted .double
    | ch => if isIndicator ch || isGap ch then none else s.takePlain

/-- Takes all tokens. At the end of the text all block collections are closed. -/
def run : (fuel : Nat) → Layout → Option (List Token)
  | 0, _ => none
  | fuel + 1, s => do
    let s ← (s.skipBlanks (s.cursor.left + 1)).dropStaleKeys
    -- a line that is indented less closes what is deeper than it
    let s := s.unindent s.cursor.column
    match s.cursor.rest with
    | [] =>
      let s ← (s.unindent (-1)).dropKey
      return s.tokens.toList
    | ch :: rest =>
      let s ← s.takeToken ch rest
      run fuel s

end Layout

def tokens? (text : String) : Option (List Token) :=
  let cs := text.toList
  if cs.all isAllowed then
    Layout.run (cs.length + 1) { cursor := .start cs }
  else none

end Criterion.Yaml
