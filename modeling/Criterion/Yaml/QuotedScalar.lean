import Criterion.Yaml.Gap

/-!
# Quoted scalars

Between single quotes a doubled quote stands for one. Between double quotes a backslash begins an
escape: a letter for a control character, a code point in hexadecimal digits, or a line end that is
not to be folded. Line ends are folded in both.
-/

namespace Criterion.Yaml

def hexValue? (c : Char) : Option Nat :=
  if c.isDigit then some (c.toNat - '0'.toNat)
  else if 'a' ≤ c ∧ c ≤ 'f' then some (c.toNat - 'a'.toNat + 10)
  else if 'A' ≤ c ∧ c ≤ 'F' then some (c.toNat - 'A'.toNat + 10)
  else none

/-- The number that so many hexadecimal digits denote. -/
def hexNumber? : (count : Nat) → (value : Nat) → List Char → Option Nat
  | 0, value, _ => some value
  | _ + 1, _, [] => none
  | count + 1, value, c :: cs =>
    match hexValue? c with
    | none => none
    | some d => hexNumber? count (16 * value + d) cs

/-- The character with this code point, if there is one. -/
def charOfCode? (n : Nat) : Option Char :=
  if n.isValidChar then some (Char.ofNat n) else none

/-- The character that an escape of one letter stands for. -/
def simpleEscape? : Char → Option Char
  | '0' => some '\x00'
  | 'a' => some '\x07'
  | 'b' => some '\x08'
  | 't' | '\t' => some '\t'
  | 'n' => some '\n'
  | 'v' => some '\x0b'
  | 'f' => some '\x0c'
  | 'r' => some '\r'
  | 'e' => some '\x1b'
  | ' ' => some ' '
  | '"' => some '"'
  | '/' => some '/'
  | '\\' => some '\\'
  | 'N' => some '\u0085'
  | '_' => some '\u00a0'
  | 'L' => some '\u2028'
  | 'P' => some '\u2029'
  | _ => none

/-- How many hexadecimal digits follow a letter. -/
def escapeWidth? : Char → Option Nat
  | 'x' => some 2
  | 'u' => some 4
  | 'U' => some 8
  | _ => none

/-- The character that an escape stands for, and how many characters follow its backslash. -/
def escape? : List Char → Option (Char × Nat)
  | [] => none
  | c :: rest =>
    match escapeWidth? c with
    | some width => do
      let code ← hexNumber? width 0 rest
      let ch ← charOfCode? code
      return (ch, width + 1)
    | none => (simpleEscape? c).map (·, 1)

inductive Quote where
  | single | double
deriving DecidableEq, Repr

def Quote.mark : Quote → Char
  | single => '\''
  | double => '"'

/-- Takes up the characters of a quoted scalar, last one first, up to white space, its end or an
escaped line end. -/
def quotedWord (quote : Quote) :
    (fuel : Nat) → (taken : List Char) → Cursor → Option (List Char × Cursor)
  | 0, _, _ => none
  | fuel + 1, taken, c =>
    match c.rest with
    | [] => some (taken, c)
    | ch :: rest =>
      if isGap ch then some (taken, c)
      else if ch == quote.mark then
        -- a doubled single quote stands for one, any other ends the scalar
        if quote == .single && rest.head? == some '\'' then
          quotedWord quote fuel ('\'' :: taken) (c.advance 2)
        else some (taken, c)
      else if quote == .double && ch == '\\' then
        if rest.head?.any isBreak then some (taken, c)
        else
          match escape? rest with
          | none => none
          | some (escaped, count) => quotedWord quote fuel (escaped :: taken) (c.advance (count + 1))
      else quotedWord quote fuel (ch :: taken) (c.advance 1)

/-- The gap that an escaped line end begins, or no gap, and the place behind it. -/
def escapedBreak (quote : Quote) (c : Cursor) : Gap × Cursor :=
  if quote == .double && c.at? '\\' then
    match (c.advance 1).takeBreak? with
    | some (_, next) => (.lines none [], next)
    | none => (.none, c)
  else (.none, c)

/-- Takes up the words of a quoted scalar, from behind its first quote on. -/
def quotedWords (quote : Quote) :
    (fuel : Nat) → (taken : List Char) → Cursor → Option (List Char × Cursor)
  | 0, _, _ => none
  | fuel + 1, taken, c =>
    if c.atDocumentMark || c.rest.isEmpty then none
    else
      match quotedWord quote (c.left + 1) taken c with
      | none => none
      | some (taken, afterWord) =>
        if afterWord.at? quote.mark then some (taken.reverse, afterWord.advance 1)
        else
          let (gap, start) := escapedBreak quote afterWord
          match gap.take 0 (start.left + 1) start with
          | none => none
          | some (gap, next) => quotedWords quote fuel (gap.folded.reverse ++ taken) next

/-- Reads a quoted scalar, its quotes included. -/
def quotedScalar? (quote : Quote) (c : Cursor) : Option (List Char × Cursor) :=
  quotedWords quote (c.left + 1) [] (c.advance 1)

end Criterion.Yaml
