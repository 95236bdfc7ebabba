import Criterion.Operand.Basic

/-!
# Literals of a condition

What a word of a condition stands for. A word that begins with `%` refers to a parameter; one between
single quotes is a text, in which a doubled quote stands for one quote and then `${sp}` for a space;
a word of digits, points and minus signs is a number if it reads as one. Any other word but `null`
is a text as it stands.
-/

namespace Criterion

/-- Replaces `pattern` by `replacement` from the left, never inside a replacement. -/
def replaceAll (pattern replacement : List Char) (cs : List Char) : List Char :=
  go [] cs
where
  /-- Goes through the text with what is written so far, last character first. -/
  go (written : List Char) (cs : List Char) : List Char :=
    match cs with
    | [] => written.reverse
    | c :: rest =>
      if pattern.isPrefixOf (c :: rest) then
        -- the search goes on behind the pattern, and never in what replaces it
        go (replacement.reverse ++ written) (rest.drop (pattern.length - 1))
      else go (c :: written) rest
  termination_by cs.length
  decreasing_by all_goals (simp only [List.length_drop, List.length_cons]; omega)

namespace Operand

def spaceSpelling : List Char := ['$', '\x7b', 's', 'p', '\x7d']

/-- What stands between single quotes, if a text begins and ends with one. -/
def unquote? : List Char → Option (List Char)
  | '\'' :: rest => if rest.getLast? = some '\'' then some rest.dropLast else none
  | _ => none

def unescapeQuoted (cs : List Char) : List Char :=
  replaceAll spaceSpelling [' '] (replaceAll ['\'', '\''] ['\''] cs)

/-- Is the word made of minus signs, points and digits? -/
def isNumeric (cs : List Char) : Bool :=
  !cs.isEmpty && cs.all (fun c => c == '-' || c == '.' || c.isDigit)

/-- Is the word `null`, in capitals or small letters? -/
def isNullWord (cs : List Char) : Bool := cs.map Char.toLower == ['n', 'u', 'l', 'l']

/-- What a word without a mark of its own stands for. -/
def ofPlainWord (word : String) : Operand :=
  if isNullWord word.toList then null else text word

/-- The literal that a word of a condition stands for. -/
def ofWord (word : String) : Operand :=
  match word.toList with
  | '%' :: name => parameter (String.ofList name)
  | cs =>
    -- the mark is between quotes too, so it is looked for before the texts
    if word = blankSpelling then blank
    else
      match unquote? cs with
      | some inner => text (String.ofList (unescapeQuoted inner))
      | none =>
        match if isNumeric cs then Decimal.ofChars? cs else none with
        | some d => decimal d
        | none => ofPlainWord word

end Operand

end Criterion
