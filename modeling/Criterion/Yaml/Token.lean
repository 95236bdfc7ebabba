import Criterion.Yaml.Tag

/-!
# Tokens of a YAML text

The tokens between which white space and comments do not count any more. The indentation of block
collections has become a pair of tokens around each of them, and every key is announced by a token
in front of it.
-/

namespace Criterion.Yaml

inductive Token where
  | versionDirective (major minor : Nat)
  | tagDirective (handle : String) (expansion : Octets)
  | documentStart
  | documentEnd
  | blockSequenceStart
  | blockMappingStart
  | blockEnd
  | flowSequenceStart
  | flowSequenceEnd
  | flowMappingStart
  | flowMappingEnd
  | blockEntry
  | flowEntry
  | key
  | value
  | reference (name : String)
  | anchor (name : String)
  | tag (tag : WrittenTag)
  /-- A scalar; `plain` tells whether it had no mark at its ends. -/
  | scalar (text : String) (plain : Bool)
deriving DecidableEq, Repr

/-- Reads a number of one to nine digits. -/
def versionNumber? (c : Cursor) : Option (Nat × Cursor) :=
  let (digits, next) := c.takeWhile Char.isDigit
  if digits.isEmpty || digits.length > 9 then none
  else some (Nat.ofDigitChars 10 digits 0, next)

def versionDirective? (c : Cursor) : Option (Token × Cursor) := do
  let (major, next) ← versionNumber? (c.skipWhile isSpaceOrTab)
  if next.at? '.' then
    let (minor, next) ← versionNumber? (next.advance 1)
    return (.versionDirective major minor, next)
  else none

/-- Reads the handle and its expansion behind the name of their directive. -/
def tagDirective? (c : Cursor) : Option (Token × Cursor) := do
  let (handle, next) ← tagHandle? (c.skipWhile isSpaceOrTab)
  if handle.getLast? == some '!' && next.rest.head?.any isSpaceOrTab then
    let (expansion, next) ← nonemptyTagPart? isFullTagChar (next.skipWhile isSpaceOrTab)
    if endsWord next.rest then return (.tagDirective (String.ofList handle) expansion, next) else none
  else none

/-- Reads a directive, from its percent sign to the end of its line. -/
def directive? (c : Cursor) : Option (Token × Cursor) := do
  let (name, next) := (c.advance 1).takeWhile isNameChar
  if endsWord next.rest then
    let (token, next) ←
      if name == ['Y', 'A', 'M', 'L'] then versionDirective? next
      else if name == ['T', 'A', 'G'] then tagDirective? next
      else none
    let atEnd := (next.skipWhile isSpaceOrTab).skipComment
    match atEnd.takeBreak? with
    | some (_, below) => return (token, below)
    | none => if atEnd.rest.isEmpty then return (token, atEnd) else none
  else none

/-- May the character follow the name of an anchor? -/
def endsName (cs : List Char) : Bool :=
  cs.head?.all fun c =>
    isGap c || c == '?' || c == ':' || c == ',' || c == ']' || c == '\x7d' || c == '%' || c == '@' ||
      c == '\x60'

def anchorName? (c : Cursor) : Option (String × Cursor) :=
  let (name, next) := (c.advance 1).takeWhile isNameChar
  if name.isEmpty || !endsName next.rest then none else some (String.ofList name, next)

end Criterion.Yaml
