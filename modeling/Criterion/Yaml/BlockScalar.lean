import Criterion.Yaml.Cursor

/-!
# Block scalars

A block scalar is announced by a bar or an angle bracket and consists of the indented lines below it.
A bar keeps the line ends. After an angle bracket a single line end between two lines that begin
with a visible character becomes a space. The header may say how deep the lines are indented, and
whether the line ends at the end are dropped, kept, or all but one dropped.
-/

namespace Criterion.Yaml

/-- What becomes of the line ends at the end of a block scalar. -/
inductive Chomping where
  | strip | clip | keep
deriving DecidableEq, Repr

structure BlockHeader where
  chomping : Chomping := .clip
  indentation : Option Nat := none
deriving DecidableEq, Repr

def chomping? : Char → Option Chomping
  | '+' => some .keep
  | '-' => some .strip
  | _ => none

/-- The indentation that a digit stands for; 0 is none. -/
def indentation? (c : Char) : Option Nat :=
  if c.isDigit && c != '0' then some (c.toNat - '0'.toNat) else none

/-- The signs of a header and how many there are: a chomping and an indentation, in either order. -/
def blockHeader? (cs : List Char) : Option (BlockHeader × Nat) :=
  let second := (cs.drop 1).head?
  match cs.head? with
  | none => some ({}, 0)
  | some c =>
    match chomping? c with
    | some k =>
      if second.any Char.isDigit then
        (second.bind indentation?).map fun n => (⟨k, some n⟩, 2)
      else some (⟨k, none⟩, 1)
    | none =>
      if c.isDigit then
        (indentation? c).map fun n =>
          match second.bind chomping? with
          | some k => (⟨k, some n⟩, 2)
          | none => (⟨.clip, some n⟩, 1)
      else some ({}, 0)

/-- Goes over a header, with the comment behind it, to the start of the next line. -/
def blockStart? (c : Cursor) : Option (BlockHeader × Cursor) :=
  match blockHeader? c.rest with
  | none => none
  | some (header, count) =>
    let atEnd := ((c.advance count).skipWhile isSpaceOrTab).skipComment
    match atEnd.takeBreak? with
    | some (_, next) => some (header, next)
    | none => if atEnd.rest.isEmpty then some (header, atEnd) else none

/-- Goes over empty lines and the indentation of the next one. With no indentation known, all spaces
are taken for one and the deepest column is found. Answers with the line ends, last one first. -/
def indentedBreaks (indentation : Option Nat) :
    (fuel : Nat) → (breaks : List Char) → (deepest : Nat) → Cursor →
      Option (List Char × Nat × Cursor)
  | 0, _, _, _ => none
  | fuel + 1, breaks, deepest, c =>
    let spaces := (c.rest.takeWhile (· == ' ')).length
    let next := c.advance (match indentation with
      | none => spaces
      | some n => min spaces (n - c.column))
    let deepest := max deepest next.column
    -- a tab may not stand where indentation is still due
    if indentation.all (next.column < ·) && next.at? '\t' then none
    else
      match next.takeBreak? with
      | none => some (breaks, deepest, next)
      | some (lineEnd, below) => indentedBreaks indentation fuel (lineEnd :: breaks) deepest below

/-- The text of a block scalar so far, last character first, with what came behind its last line:
the line end, and those of the empty lines below it. -/
structure BlockText where
  taken : List Char := []
  lineEnd : Option Char := none
  breaks : List Char := []
  /-- Did the last line begin with white space? -/
  spaced : Bool := false

/-- Joins the last line to the next one, which begins with white space or does not. -/
def BlockText.join (text : BlockText) (folded : Bool) (spaced : Bool) : List Char :=
  if folded && text.lineEnd == some '\n' && !text.spaced && !spaced then
    -- with empty lines behind it the folded line end is not written
    if text.breaks.isEmpty then ' ' :: text.taken else text.breaks ++ text.taken
  else text.breaks ++ text.lineEnd.toList ++ text.taken

/-- The whole text, its end treated as the header says. -/
def BlockText.finish (text : BlockText) (chomping : Chomping) : List Char :=
  let tail := match chomping with
    | .strip => []
    | .clip => text.lineEnd.toList
    | .keep => text.breaks ++ text.lineEnd.toList
  (tail ++ text.taken).reverse

/-- Takes up the lines that stand at the indentation. -/
def blockLines (folded : Bool) (indentation : Nat) :
    (fuel : Nat) → BlockText → Cursor → Option (BlockText × Cursor)
  | 0, _, _ => none
  | fuel + 1, text, c =>
    if c.column == indentation && !c.rest.isEmpty then
      let spaced := c.rest.head?.any isSpaceOrTab
      let (line, atEnd) := c.takeWhile (fun ch => !isBreak ch)
      let taken := line.reverse ++ text.join folded spaced
      match atEnd.takeBreak? with
      | none => some (⟨taken, none, [], spaced⟩, atEnd)
      | some (lineEnd, below) =>
        match indentedBreaks (some indentation) (below.left + 1) [] 0 below with
        | none => none
        | some (breaks, _, next) =>
          blockLines folded indentation fuel ⟨taken, some lineEnd, breaks, spaced⟩ next
    else some (text, c)

/-- Reads a block scalar, its mark included, inside a collection that is indented to `parent`; the
outermost lines of a document have the parent -1. -/
def blockScalar? (folded : Bool) (parent : Int) (c : Cursor) : Option (List Char × Cursor) := do
  let (header, start) ← blockStart? (c.advance 1)
  let given := header.indentation.map fun n => (max parent 0).toNat + n
  let (breaks, deepest, first) ← indentedBreaks given (start.left + 1) [] 0 start
  -- where the header does not say it, the leading lines give the indentation
  let indentation := given.getD (max deepest (max (parent + 1).toNat 1))
  let (text, next) ← blockLines folded indentation (first.left + 1) { breaks } first
  return (text.finish header.chomping, next)

end Criterion.Yaml
