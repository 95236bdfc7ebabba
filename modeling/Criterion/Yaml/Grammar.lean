import Criterion.Yaml.Layout
import Criterion.Yaml.Tree

/-!
# From tokens to a tree

The grammar of a document, by recursive descent. A key or a value that is not written is the empty
scalar. In a flow sequence a key with its value makes a mapping of its own. A text holds one document
or none.

Each function gives up fuel for every call it makes. No more than three calls come between two tokens
that are taken, so that three times the number of tokens is enough.
-/

namespace Criterion.Yaml

/-- The tokens that are left, and the names that have been anchored with the numbers they stand for,
the latest first. -/
structure Reading where
  tokens : List Token
  /-- What the handles of tags stand for, the latest first. -/
  handles : List (String × Octets)
  anchors : List (String × Nat) := []

namespace Reading

def skip (r : Reading) : Reading := { r with tokens := r.tokens.drop 1 }

def next? (r : Reading) (tokens : List Token) : Bool := r.tokens.head?.any tokens.contains

/-- Gives a name to the node that follows; its number is the count of the names before. -/
def addAnchor (r : Reading) (name : String) : Nat × Reading :=
  let count := (r.anchors.map (·.1)).eraseDups.length
  (count, { r with anchors := (name, count) :: r.anchors })

/-- The tag that a written tag stands for. -/
def expand? (r : Reading) (tag : WrittenTag) : Option Octets :=
  if tag.handle.isEmpty then some tag.suffix
  else (r.handles.lookup tag.handle).map (· ++ tag.suffix)

def takeAnchor (r : Reading) : Option Nat × Reading :=
  match r.tokens with
  | .anchor name :: _ =>
    let (number, r) := r.addAnchor name
    (some number, r.skip)
  | _ => (none, r)

def takeTag (r : Reading) : Option (Option Octets × Reading) :=
  match r.tokens with
  | .tag tag :: _ => (r.expand? tag).map fun octets => (some octets, r.skip)
  | _ => some (none, r)

/-- Takes the anchor and the tag of a node, which may come in either order. -/
def takeProperties (r : Reading) : Option (Properties × Reading) := do
  let (first, r) := r.takeAnchor
  let (tag, r) ← r.takeTag
  -- an anchor behind the tag counts only where none stands in front of it
  let (second, r) := if first.isNone && tag.isSome then r.takeAnchor else (none, r)
  return (⟨first <|> second, tag⟩, r)

end Reading

/-- In which surroundings a node stands: in a flow collection, in a block, or in a block mapping, where
a sequence need not be indented. -/
inductive Surroundings where
  | flow | block | blockMapping
deriving DecidableEq, Repr

mutual

def readNode : (fuel : Nat) → Surroundings → Reading → Option (Tree × Reading)
  | 0, _, _ => none
  | fuel + 1, around, r =>
    match r.tokens with
    | .reference name :: _ => (r.anchors.lookup name).map fun target => (.reference target, r.skip)
    | _ =>
      match r.takeProperties with
      | none => none
      | some (properties, r) =>
        match r.tokens with
        | .scalar text plain :: _ => some (.scalar properties text plain, r.skip)
        | .flowSequenceStart :: _ => readFlowItems fuel properties [] r.skip
        | .flowMappingStart :: _ => readFlowEntries fuel properties [] r.skip
        | .blockSequenceStart :: _ =>
          if around == .flow then none else readBlockItems fuel properties [] r.skip
        | .blockMappingStart :: _ =>
          if around == .flow then none else readBlockEntries fuel properties [] r.skip
        -- no content is written here, unless as a sequence that is not indented
        | tokens =>
          if around == .blockMapping && tokens.head? == some .blockEntry then
            readLooseItems fuel properties [] r
          else if properties.anchor.isSome || properties.tag.isSome then
            some (.scalar properties "" true, r)
          else none

/-- Reads a node that need not be written: it is not if one of these tokens comes. -/
def readOptional : (fuel : Nat) → Surroundings → (stops : List Token) → Reading →
    Option (Tree × Reading)
  | 0, _, _, _ => none
  | fuel + 1, around, stops, r =>
    if r.next? stops then some (.nothing, r) else readNode fuel around r

def readBlockItems : (fuel : Nat) → Properties → (items : List Tree) → Reading →
    Option (Tree × Reading)
  | 0, _, _, _ => none
  | fuel + 1, properties, items, r =>
    match r.tokens with
    | .blockEntry :: _ =>
      match readOptional fuel .block [.blockEntry, .blockEnd] r.skip with
      | none => none
      | some (item, r) => readBlockItems fuel properties (item :: items) r
    | .blockEnd :: _ => some (.sequence properties items.reverse, r.skip)
    | _ => none

/-- Reads the items of a sequence that is not indented; it ends where no item follows. -/
def readLooseItems : (fuel : Nat) → Properties → (items : List Tree) → Reading →
    Option (Tree × Reading)
  | 0, _, _, _ => none
  | fuel + 1, properties, items, r =>
    match r.tokens with
    | .blockEntry :: _ =>
      match readOptional fuel .block [.blockEntry, .key, .value, .blockEnd] r.skip with
      | none => none
      | some (item, r) => readLooseItems fuel properties (item :: items) r
    | _ => some (.sequence properties items.reverse, r)

def readBlockEntries : (fuel : Nat) → Properties → (entries : List (Tree × Tree)) → Reading →
    Option (Tree × Reading)
  | 0, _, _, _ => none
  | fuel + 1, properties, entries, r =>
    match r.tokens with
    | .key :: _ =>
      match readOptional fuel .blockMapping [.key, .value, .blockEnd] r.skip with
      | none => none
      | some (key, r) =>
        match readValue fuel .blockMapping [.key, .value, .blockEnd] r with
        | none => none
        | some (value, r) => readBlockEntries fuel properties ((key, value) :: entries) r
    | .blockEnd :: _ => some (.mapping properties entries.reverse, r.skip)
    | _ => none

/-- Reads the value of a key, with its colon. Without a colon it is not written. -/
def readValue : (fuel : Nat) → Surroundings → (stops : List Token) → Reading →
    Option (Tree × Reading)
  | 0, _, _, _ => none
  | fuel + 1, around, stops, r =>
    match r.tokens with
    | .value :: _ => readOptional fuel around stops r.skip
    | _ => some (.nothing, r)

def readFlowItems : (fuel : Nat) → Properties → (items : List Tree) → Reading →
    Option (Tree × Reading)
  | 0, _, _, _ => none
  | fuel + 1, properties, items, r =>
    match r.tokens with
    | .flowSequenceEnd :: _ => some (.sequence properties items.reverse, r.skip)
    | .flowEntry :: _ =>
      if items.isEmpty then none else readFlowItem fuel properties items r.skip
    | _ => if items.isEmpty then readFlowItem fuel properties items r else none

/-- Reads an item of a flow sequence and those behind it. There may be none behind the last comma. -/
def readFlowItem : (fuel : Nat) → Properties → (items : List Tree) → Reading →
    Option (Tree × Reading)
  | 0, _, _, _ => none
  | fuel + 1, properties, items, r =>
    match r.tokens with
    | .flowSequenceEnd :: _ => some (.sequence properties items.reverse, r.skip)
    | .key :: _ =>
      match readPair fuel r.skip with
      | none => none
      | some (pair, r) => readFlowItems fuel properties (pair :: items) r
    | _ =>
      match readNode fuel .flow r with
      | none => none
      | some (item, r) => readFlowItems fuel properties (item :: items) r

/-- Reads a key and its value in a flow sequence. Where the key is not written, the token in its place
is gone over, whatever it is. -/
def readPair : (fuel : Nat) → Reading → Option (Tree × Reading)
  | 0, _ => none
  | fuel + 1, r =>
    let read :=
      if r.next? [.value, .flowEntry, .flowSequenceEnd] then some (.nothing, r.skip)
      else readNode fuel .flow r
    match read with
    | none => none
    | some (key, r) =>
      match readValue fuel .flow [.flowEntry, .flowSequenceEnd] r with
      | none => none
      | some (value, r) => some (.mapping {} [(key, value)], r)

def readFlowEntries : (fuel : Nat) → Properties → (entries : List (Tree × Tree)) → Reading →
    Option (Tree × Reading)
  | 0, _, _, _ => none
  | fuel + 1, properties, entries, r =>
    match r.tokens with
    | .flowMappingEnd :: _ => some (.mapping properties entries.reverse, r.skip)
    | .flowEntry :: _ =>
      if entries.isEmpty then none else readFlowEntry fuel properties entries r.skip
    | _ => if entries.isEmpty then readFlowEntry fuel properties entries r else none

/-- Reads an entry of a flow mapping and those behind it. A node without the mark of a key is a key
without a value. -/
def readFlowEntry : (fuel : Nat) → Properties → (entries : List (Tree × Tree)) → Reading →
    Option (Tree × Reading)
  | 0, _, _, _ => none
  | fuel + 1, properties, entries, r =>
    match r.tokens with
    | .flowMappingEnd :: _ => some (.mapping properties entries.reverse, r.skip)
    | .key :: _ =>
      match readOptional fuel .flow [.value, .flowEntry, .flowMappingEnd] r.skip with
      | none => none
      | some (key, r) =>
        match readValue fuel .flow [.flowEntry, .flowMappingEnd] r with
        | none => none
        | some (value, r) => readFlowEntries fuel properties ((key, value) :: entries) r
    | _ =>
      match readNode fuel .flow r with
      | none => none
      | some (key, r) => readFlowEntries fuel properties ((key, .nothing) :: entries) r

end

/-- What handles stand for where no directive says so. -/
def standardHandles : List (String × Octets) :=
  [("!", octets "!"), ("!!", octets "tag:yaml.org,2002:")]

/-- The handles that directives define, and the tokens behind the directives. The version may be given
once, and a handle be defined once. -/
def readDirectives (versioned : Bool) (handles : List (String × Octets)) :
    List Token → Option (List (String × Octets) × List Token)
  | .versionDirective major minor :: tokens =>
    if versioned || major != 1 || (minor != 1 && minor != 2) then none
    else readDirectives true handles tokens
  | .tagDirective handle expansion :: tokens =>
    if (handles.lookup handle).isSome then none
    else readDirectives versioned ((handle, expansion) :: handles) tokens
  | tokens => some (handles ++ standardHandles, tokens)

/-- Is this a token with which no content of a document begins? -/
def isOutsideContent : Token → Bool
  | .versionDirective _ _ | .tagDirective _ _ | .documentStart | .documentEnd => true
  | _ => false

/-- Must the first document have a mark at its start, as it has directives or does have the mark? -/
def hasDocumentStart : Token → Bool
  | .versionDirective _ _ | .tagDirective _ _ | .documentStart => true
  | _ => false

/-- Reads the content of a document, and sees that nothing follows but marks of its end. -/
def readContent (handles : List (String × Octets)) (explicit : Bool) (tokens : List Token) :
    Option Tree :=
  let empty := explicit && tokens.head?.all isOutsideContent
  let read :=
    if empty then some (.nothing, tokens)
    else (readNode (3 * tokens.length + 3) .block ⟨tokens, handles, []⟩).map fun (tree, r) =>
      (tree, r.tokens)
  match read with
  | none => none
  | some (tree, rest) => if rest.all (· == .documentEnd) then some tree else none

/-- The document that tokens make; none if there are no tokens. -/
def readDocument? (tokens : List Token) : Option (Option Tree) :=
  match tokens with
  | [] => some none
  | token :: _ =>
    if hasDocumentStart token then
      match readDirectives false [] tokens with
      | some (handles, .documentStart :: rest) => (readContent handles true rest).map some
      | _ => none
    else (readContent standardHandles false tokens).map some

/-- The document that a text holds; none if it holds no content and no mark of a document. -/
def document? (text : String) : Option (Option Tree) := (tokens? text).bind readDocument?

end Criterion.Yaml
