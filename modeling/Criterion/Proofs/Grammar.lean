import Criterion.Evaluation
import Criterion.Operand.Literal
import Criterion.Proofs.Token.Rendering

/-!
# Conditions as the grammar has them

```
expression := term (("&&" | "||") expression)?
term       := "(" expression ")" | comparison
comparison := word (("==" | "!=" | ">" | ">=" | "<" | "<=") word)?
```

An expression has a value of its own, found part by part. A parenthesised term has the value of what
the parentheses hold, and a chain of terms groups to the right.
-/

namespace Criterion

/-- A word that can be read back. -/
structure Word where
  chars : List Char
  isWord : Token.IsWord chars

/-- An operator that compares. -/
abbrev Relation := { op : Operator // op.isLogical = false }

/-- An operator that joins. -/
abbrev Connective := { op : Operator // op.isLogical = true }

/-- One value, or two that are compared. -/
inductive Comparison where
  | word (w : Word)
  | relation (v : Word) (op : Relation) (w : Word)

mutual

/-- A comparison, or an expression in parentheses. -/
inductive Term where
  | comparison (c : Comparison)
  | group (e : Expression)

/-- A chain of terms. -/
inductive Expression where
  | single (t : Term)
  | joined (t : Term) (op : Connective) (e : Expression)

end

/-! ## How an expression is written -/

/-- The word as a token. -/
def Word.token (w : Word) : Token := .word (String.ofList w.chars)

def Comparison.tokens : Comparison → List Token
  | .word w => [w.token]
  | .relation v op w => [v.token, .operator op, w.token]

mutual

def Term.tokens : Term → List Token
  | .comparison c => c.tokens
  | .group e => .openGroup :: (e.tokens ++ [.closeGroup])

/-- The tokens of an expression. -/
def Expression.tokens : Expression → List Token
  | .single t => t.tokens
  | .joined t op e => t.tokens ++ .operator op :: e.tokens

end

/-- One of the texts of an expression. -/
def Expression.text (e : Expression) : String := String.ofList (Token.spaced e.tokens)

theorem Word.token_isProper (w : Word) : w.token.IsProper := by
  rintro s h
  obtain rfl := Token.word.inj h
  rw [String.toList_ofList]
  exact w.isWord

theorem Comparison.tokens_isProper (c : Comparison) : ∀ s ∈ c.tokens, s.IsProper := by
  intro s hs
  cases c with
  | word w =>
      obtain rfl := List.mem_singleton.mp hs
      exact w.token_isProper
  | relation v op w =>
      simp only [tokens, List.mem_cons, List.not_mem_nil, or_false] at hs
      -- only of words is there anything to show
      rcases hs with rfl | rfl | rfl
      · exact v.token_isProper
      · exact nofun
      · exact w.token_isProper

mutual

theorem Term.tokens_isProper (t : Term) : ∀ s ∈ t.tokens, s.IsProper := by
  intro s hs
  cases t with
  | comparison c => exact c.tokens_isProper s hs
  | group e =>
      simp only [Term.tokens, List.mem_cons, List.mem_append, List.not_mem_nil, or_false] at hs
      rcases hs with rfl | hs | rfl
      · exact nofun
      · exact e.tokens_isProper s hs
      · exact nofun

theorem Expression.tokens_isProper (e : Expression) : ∀ s ∈ e.tokens, s.IsProper := by
  intro s hs
  cases e with
  | single t => exact t.tokens_isProper s hs
  | joined t op e =>
      simp only [Expression.tokens, List.mem_append, List.mem_cons] at hs
      rcases hs with hs | rfl | hs
      · exact t.tokens_isProper s hs
      · exact nofun
      · exact e.tokens_isProper s hs

end

/-- An expression can be written down. -/
theorem Expression.tokenize_text (e : Expression) : tokenize e.text = e.tokens := by
  have h := Token.renders_spaced e.tokens_isProper
  refine tokenize_of_renders ?_
  rw [text, String.toList_ofList]
  exact h

/-! ## What an expression says -/

/-- The literal that a word stands for. -/
def Word.literal (w : Word) : Operand := .ofWord (String.ofList w.chars)

/-- The value of a comparison in a context, or without one. -/
def Comparison.value (context : Option Datum) : Comparison → Operand
  | .word w => w.literal.resolve context
  | .relation v op w =>
    .bool (op.val.apply (v.literal.resolve context) (w.literal.resolve context))

mutual

/-- The value of a term in a context, or without one. -/
def Term.value (context : Option Datum) : Term → Operand
  | .comparison c => c.value context
  | .group e => e.value context

/-- The value of an expression in a context, or without one. -/
def Expression.value (context : Option Datum) : Expression → Operand
  | .single t => t.value context
  | .joined t op e => .bool (op.val.apply (t.value context) (e.value context))

end

end Criterion
