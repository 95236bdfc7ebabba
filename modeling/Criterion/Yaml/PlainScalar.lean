import Criterion.Yaml.Gap

/-!
# Plain scalars

A plain scalar has no mark at its ends. It stops at a colon with white space behind it, at a comment,
inside a flow collection at the marks of flow collections, and outside of one where a line is
indented less than it must be. It may go over several lines.
-/

namespace Criterion.Yaml

/-- Does the character separate the items of flow collections, or stand at their ends? -/
def isFlowMark (c : Char) : Bool := c == ',' || c == '[' || c == ']' || c == '\x7b' || c == '\x7d'

/-- The characters of a plain scalar up to white space or its end, last one first. Inside a flow
collection a colon may not stand right before a mark of one. -/
def plainWord (inFlow : Bool) (taken : List Char) : List Char → Option (List Char)
  | [] => some taken
  | c :: rest =>
    if isGap c then some taken
    else if c == ':' && inFlow && rest.head?.any (fun d => isFlowMark d || d == '?') then none
    else if c == ':' && endsWord rest then some taken
    else if inFlow && isFlowMark c then some taken
    else plainWord inFlow (c :: taken) rest

/-- A plain scalar that has been read, and whether line ends came behind its last word. -/
structure PlainScalar where
  text : List Char
  endsLine : Bool
deriving DecidableEq, Repr

/-- Takes up the words of a plain scalar and the gaps between them. The last gap is no part of it. -/
def plainWords (inFlow : Bool) (margin : Nat) :
    (fuel : Nat) → (taken : List Char) → Gap → Cursor → Option (PlainScalar × Cursor)
  | 0, _, _, _ => none
  | fuel + 1, taken, gap, c =>
    if c.atDocumentMark || c.at? '#' then some (⟨taken.reverse, gap.isLines⟩, c)
    else
      match plainWord inFlow [] c.rest with
      | none => none
      | some word =>
        -- the gap is taken up only with a word behind it
        let (taken, gap) :=
          if word.isEmpty then (taken, gap)
          else (word ++ gap.folded.reverse ++ taken, Gap.none)
        let afterWord := c.advance word.length
        if afterWord.rest.head?.any isGap then
          match gap.take margin (afterWord.left + 1) afterWord with
          | none => none
          | some (gap, next) =>
            if !inFlow && next.column < margin then some (⟨taken.reverse, gap.isLines⟩, next)
            else plainWords inFlow margin fuel taken gap next
        else some (⟨taken.reverse, gap.isLines⟩, afterWord)

/-- Reads a plain scalar; its further lines must be indented up to `margin`. -/
def plainScalar? (inFlow : Bool) (margin : Nat) (c : Cursor) : Option (PlainScalar × Cursor) :=
  plainWords inFlow margin (c.left + 1) [] Gap.none c

end Criterion.Yaml
