import Criterion.Operator
import Criterion.Text.Blank

/-!
# Tokens of a condition

A condition is cut at blank characters and at twelve separators: the parentheses and the spellings
of the operators. Where several separators begin at one place the longest is taken. All else is a
word, up to the next blank character or separator. Quotes have no part in this: `a'='b` is the two
words `a'` and `'b` with an operator between them.
-/

namespace Criterion

inductive Token where
  | openGroup
  | closeGroup
  | operator (op : Operator)
  | word (text : String)
deriving DecidableEq, Repr

namespace Token

/-- The text of a token; an operator has its canonical spelling. -/
def text : Token → String
  | openGroup => "("
  | closeGroup => ")"
  | operator op => op.text
  | word s => s

/-- The token whose separator begins here, the longest if there are several, and what is left. -/
def separator? : List Char → Option (Token × List Char)
  -- those of two characters come first, so that the longest is taken
  | '|' :: '|' :: rest => some (operator .or, rest)
  | '&' :: '&' :: rest => some (operator .and, rest)
  | '<' :: '=' :: rest => some (operator .le, rest)
  | '>' :: '=' :: rest => some (operator .ge, rest)
  | '<' :: '>' :: rest => some (operator .ne, rest)
  | '!' :: '=' :: rest => some (operator .ne, rest)
  | '=' :: '=' :: rest => some (operator .eq, rest)
  | '(' :: rest => some (openGroup, rest)
  | ')' :: rest => some (closeGroup, rest)
  | '=' :: rest => some (operator .eq, rest)
  | '<' :: rest => some (operator .lt, rest)
  | '>' :: rest => some (operator .gt, rest)
  | _ => none

/-- A separator takes at least one character. -/
theorem length_lt_of_separator? {cs rest : List Char} {t : Token}
    (h : separator? cs = some (t, rest)) : rest.length < cs.length := by
  unfold separator? at h
  split at h <;> simp only [Option.some.injEq, Prod.mk.injEq, reduceCtorEq] at h <;>
    (obtain ⟨-, rfl⟩ := h; simp only [List.length_cons]; omega)

/-- The tokens that a word, last character first, makes: none if it is empty. -/
def flush (word : List Char) (tokens : List Token) : List Token :=
  if word.isEmpty then tokens else .word (String.ofList word.reverse) :: tokens

/-- Goes through a condition with the tokens found so far, last one first, and the characters of an
unfinished word, last one first. -/
def scan (tokens : List Token) (word cs : List Char) : List Token :=
  match _h : separator? cs with
  | some (t, rest) => scan (t :: flush word tokens) [] rest
  | none =>
    match cs with
    | [] => (flush word tokens).reverse
    | c :: rest =>
      if isBlank c then scan (flush word tokens) [] rest else scan tokens (c :: word) rest
termination_by cs.length
decreasing_by
  all_goals first
    | exact length_lt_of_separator? ‹_›
    | (simp only [List.length_cons]; omega)

end Token

def tokenize (condition : String) : List Token := Token.scan [] [] condition.toList

end Criterion
