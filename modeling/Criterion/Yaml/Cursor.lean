/-!
# A place in a YAML text

A cursor is the rest of a text together with the place where it begins. Lines end in five ways; a
carriage return with a line feed behind it is one line end. Whatever ends a line is read as a line
feed, but for the two Unicode separators, which stay what they are.
-/

namespace Criterion.Yaml

def isBreak (c : Char) : Bool :=
  c == '\n' || c == '\r' || c == '\u0085' || c == '\u2028' || c == '\u2029'

def isSpaceOrTab (c : Char) : Bool := c == ' ' || c == '\t'

/-- Is the character white space, or does it end a line? -/
def isGap (c : Char) : Bool := isSpaceOrTab c || isBreak c

/-- Is there no more text, or white space next? -/
def endsWord (cs : List Char) : Bool := cs.head?.all isGap

def endsLine (cs : List Char) : Bool := cs.head?.all isBreak

/-- A character that a YAML text may hold: no control character but tab and line ends. -/
def isAllowed (c : Char) : Bool :=
  let n := c.toNat
  n == 0x09 || n == 0x0A || n == 0x0D || (0x20 ≤ n && n ≤ 0x7E) || n == 0x85 ||
    (0xA0 ≤ n && n ≤ 0xFFFD) || 0x10000 ≤ n

/-- A character of an anchor's name, or of a word in a tag. -/
def isNameChar (c : Char) : Bool := c.isAlphanum || c == '_' || c == '-'

/-- How many octets characters take in UTF-8. -/
def octetCount (cs : List Char) : Nat := cs.foldl (fun count c => count + c.utf8Size) 0

/-- The rest of a text, how many octets it has, and the place where it begins. A column counts
characters. -/
structure Cursor where
  rest : List Char
  left : Nat
  line : Nat := 0
  column : Nat := 0
deriving Repr

namespace Cursor

def start (cs : List Char) : Cursor where
  rest := cs
  left := octetCount cs

def at? (c : Cursor) (ch : Char) : Bool := c.rest.head? == some ch

/-- Goes on by some characters of the same line. -/
def advance (c : Cursor) (n : Nat) : Cursor :=
  { c with
    rest := c.rest.drop n
    left := c.left - octetCount (c.rest.take n)
    column := c.column + n }

/-- The characters up to the first one without a property, and the place of that one. -/
def takeWhile (c : Cursor) (p : Char → Bool) : List Char × Cursor :=
  let taken := c.rest.takeWhile p
  (taken, c.advance taken.length)

def skipWhile (c : Cursor) (p : Char → Bool) : Cursor := (c.takeWhile p).2

/-- What the end of this line is read as, and the start of the next line. -/
def takeBreak? (c : Cursor) : Option (Char × Cursor) :=
  match c.rest with
  | '\r' :: '\n' :: rest => some ('\n', ⟨rest, c.left - 2, c.line + 1, 0⟩)
  | ch :: rest =>
    if isBreak ch then
      some (if ch == '\u2028' || ch == '\u2029' then ch else '\n',
        ⟨rest, c.left - ch.utf8Size, c.line + 1, 0⟩)
    else none
  | [] => none

/-- Goes over a comment, if one begins here, to the end of the line. -/
def skipComment (c : Cursor) : Cursor :=
  if c.at? '#' then c.skipWhile (fun ch => !isBreak ch) else c

/-- Do three dashes or three points stand alone at the start of this line? -/
def atDocumentMark (c : Cursor) : Bool :=
  c.column == 0 &&
    match c.rest with
    | '-' :: '-' :: '-' :: rest => endsWord rest
    | '.' :: '.' :: '.' :: rest => endsWord rest
    | _ => false

end Cursor

end Criterion.Yaml
