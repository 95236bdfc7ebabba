import Criterion.Yaml.QuotedScalar

/-!
# Tags

A tag names the type of a node. It is written in full between angle brackets, or as a handle and a
suffix, where directives say what the handle stands for. Escapes `%XX` in it give octets, which must
be those of a text in UTF-8; a zero octet ends the tag.
-/

namespace Criterion.Yaml

/-- A part of a tag, in UTF-8. -/
abbrev Octets := List UInt8

def octets (text : String) : Octets := text.toUTF8.toList

/-- What a tag's octets say before a zero octet. -/
def beforeZero (tag : Octets) : Octets := tag.takeWhile (· != 0)

/-- A character that may stand in a tag without an escape. -/
def isTagChar (c : Char) : Bool :=
  isNameChar c || c == ';' || c == '/' || c == '?' || c == ':' || c == '@' || c == '&' || c == '=' ||
    c == '+' || c == '$' || c == '.' || c == '%' || c == '!' || c == '~' || c == '*' || c == '\'' ||
    c == '(' || c == ')'

/-- A character that may stand in a tag that has an end of its own. -/
def isFullTagChar (c : Char) : Bool := isTagChar c || c == ',' || c == '[' || c == ']'

/-- How many octets the character has whose first octet this is; none if no character begins so. -/
def sequenceWidth? (octet : Nat) : Option Nat :=
  if octet < 0x80 then some 1
  else if octet < 0xC0 then none
  else if octet < 0xE0 then some 2
  else if octet < 0xF0 then some 3
  else if octet < 0xF8 then some 4
  else none

/-- The octet of an escape `%XX`. -/
def escapedOctet? : List Char → Option Nat
  | '%' :: a :: b :: _ => do return 16 * (← hexValue? a) + (← hexValue? b)
  | _ => none

/-- The octets behind the first one of a character, each escaped. -/
def trailingOctets? : (count : Nat) → List Char → Option Octets
  | 0, _ => some []
  | count + 1, cs => do
    let octet ← escapedOctet? cs
    if 0x80 ≤ octet ∧ octet < 0xC0 then
      return octet.toUInt8 :: (← trailingOctets? count (cs.drop 3))
    else none

def escapedCharacter? (cs : List Char) : Option Octets := do
  let first ← escapedOctet? cs
  let width ← sequenceWidth? first
  return first.toUInt8 :: (← trailingOctets? (width - 1) (cs.drop 3))

/-- Takes up the octets of a tag, last one first, as long as characters of it follow. -/
def tagOctets (allowed : Char → Bool) :
    (fuel : Nat) → (taken : Octets) → Cursor → Option (Octets × Cursor)
  | 0, _, _ => none
  | fuel + 1, taken, c =>
    match c.rest with
    | [] => some (taken, c)
    | ch :: _ =>
      if !allowed ch then some (taken, c)
      else if ch == '%' then
        match escapedCharacter? c.rest with
        | none => none
        | some character =>
          tagOctets allowed fuel (character.reverse ++ taken) (c.advance (3 * character.length))
      else tagOctets allowed fuel (ch.toNat.toUInt8 :: taken) (c.advance 1)

/-- Reads a part of a tag behind octets that have been read already. -/
def tagPart? (allowed : Char → Bool) (before : Octets) (c : Cursor) : Option (Octets × Cursor) :=
  (tagOctets allowed (c.left + 1) before.reverse c).map fun (taken, next) =>
    (beforeZero taken.reverse, next)

/-- Reads a part of a tag that must not be empty. -/
def nonemptyTagPart? (allowed : Char → Bool) (c : Cursor) : Option (Octets × Cursor) :=
  match tagPart? allowed [] c with
  | none => none
  | some (part, next) => if next.left = c.left then none else some (part, next)

/-- A handle: an exclamation mark, or a word between two of them. A word without the second one is
answered as well. -/
def tagHandle? (c : Cursor) : Option (List Char × Cursor) :=
  if c.at? '!' then
    let (word, next) := (c.advance 1).takeWhile isNameChar
    if next.at? '!' then some ('!' :: word ++ ['!'], next.advance 1) else some ('!' :: word, next)
  else none

/-- A tag as it is written: a handle, which is empty for a tag in full, and a suffix. -/
structure WrittenTag where
  handle : String
  suffix : Octets
deriving DecidableEq, Repr

def fullTag? (c : Cursor) : Option (WrittenTag × Cursor) := do
  let (suffix, next) ← nonemptyTagPart? isFullTagChar (c.advance 2)
  if next.at? '>' then return (⟨"", suffix⟩, next.advance 1) else none

/-- A tag of a handle and a suffix. A single exclamation mark is a tag in full. -/
def shortTag? (c : Cursor) : Option (WrittenTag × Cursor) := do
  let (handle, next) ← tagHandle? c
  if handle.length > 1 && handle.getLast? == some '!' then
    let (suffix, next) ← nonemptyTagPart? isTagChar next
    return (⟨String.ofList handle, suffix⟩, next)
  else
    let (suffix, next) ← tagPart? isTagChar (octets (String.ofList (handle.drop 1))) next
    if suffix.isEmpty then return (⟨"", octets "!"⟩, next) else return (⟨"!", suffix⟩, next)

/-- Reads a tag. White space follows it, or in a flow collection a comma. -/
def tag? (inFlow : Bool) (c : Cursor) : Option (WrittenTag × Cursor) := do
  let (tag, next) ← if (c.advance 1).at? '<' then fullTag? c else shortTag? c
  if endsWord next.rest || (inFlow && next.at? ',') then return (tag, next) else none

end Criterion.Yaml
