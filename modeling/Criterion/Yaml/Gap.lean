import Criterion.Yaml.Cursor

/-!
# White space inside a scalar

White space between two words of a plain or quoted scalar is kept where both stand on one line.
Where lines end in between, the blanks around the line ends are dropped and the line ends are
folded: one alone becomes a space, and of several the first is dropped.
-/

namespace Criterion.Yaml

/-- White space that has been passed: on one line, or over line ends, the later of which come last
one first. The first line end is missing where it was escaped. -/
inductive Gap where
  | inline (blanks : List Char)
  | lines (first : Option Char) (later : List Char)
deriving DecidableEq, Repr

namespace Gap

def none : Gap := inline []

def isLines : Gap → Bool
  | inline _ => false
  | lines _ _ => true

/-- What a gap is folded to. -/
def folded : Gap → List Char
  | inline blanks => blanks
  | lines (some '\n') [] => [' ']
  | lines (some '\n') later => later.reverse
  -- an escaped line end leaves nothing, and a Unicode separator stays what it is
  | lines first later => first.toList ++ later.reverse

/-- The gap with blanks behind it; they count only on a line of their own words. -/
def addBlanks (gap : Gap) (blanks : List Char) : Gap :=
  match gap with
  | inline before => inline (before ++ blanks)
  | lines first later => lines first later

/-- The gap with a line end behind it. -/
def addBreak (gap : Gap) (lineEnd : Char) : Gap :=
  match gap with
  | inline _ => lines (some lineEnd) []
  | lines first later => lines first (lineEnd :: later)

/-- Takes up white space. Behind a line end no tab may stand in a column below `margin`. -/
def take (margin : Nat) : (fuel : Nat) → Gap → Cursor → Option (Gap × Cursor)
  | 0, _, _ => Option.none
  | fuel + 1, gap, c =>
    let (blanks, afterBlanks) := c.takeWhile isSpaceOrTab
    if gap.isLines && (blanks.take (margin - c.column)).contains '\t' then Option.none
    else
      let gap := gap.addBlanks blanks
      match afterBlanks.takeBreak? with
      | Option.none => some (gap, afterBlanks)
      | some (lineEnd, next) => take margin fuel (gap.addBreak lineEnd) next

end Gap

end Criterion.Yaml
