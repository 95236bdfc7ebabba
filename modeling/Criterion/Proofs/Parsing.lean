import Criterion.Proofs.Builder.Assembly
import Criterion.Proofs.Token.Rendering

/-!
# What parsing does

A text is parsed as the list of its tokens, be it blank or not, and the tokens are fed to a zipper
one by one. All that is said about parsing is said about the zipper from here on; neither the arena
nor the trimming of the text is looked at again.
-/

namespace Criterion

/-- One token's effect on a tree with a focus. -/
def Zipper.feed (z : Zipper) (t : Token) : Except ConditionError Zipper := z.perform t.operation

/-- A logical operator takes the focus for its left operand. -/
theorem Zipper.feed_logical {op : Operator} (h : op.isLogical = true) (z : Zipper) :
    z.feed (.operator op) = .ok (z.shift op) := by
  rw [feed, Token.operation, if_pos h]
  rfl

/-- A comparison goes to the branch in focus. -/
theorem Zipper.feed_comparison {op : Operator} (h : op.isLogical = false) (z : Zipper) :
    z.feed (.operator op) = .ok (z.setOperator op) := by
  rw [feed, Token.operation, if_neg (by simp [h])]
  rfl

/-- The tree with a focus that a list of tokens makes, from the tree of one empty branch. -/
def Zipper.read (tokens : List Token) : Except ConditionError Zipper :=
  tokens.foldlM Zipper.feed {}

/-- Feeding keeps the correspondence, token by token. -/
theorem agree_foldlM_feed {b : Builder} {z : Zipper} (h : Represents b z) (tokens : List Token) :
    Agree (tokens.foldlM Builder.feed b) (tokens.foldlM Zipper.feed z) := by
  induction tokens generalizing b z with
  | nil => exact h
  | cons t tokens ih =>
      have hag : Agree (b.feed t) (z.feed t) := by
        rw [Builder.feed_eq_perform]
        exact h.perform t.operation
      rw [List.foldlM_cons, List.foldlM_cons]
      rcases hag.cases with ⟨e, hb, hz⟩ | ⟨b', z', hb, hz, h'⟩
      · -- the run is over with the error of this token
        rw [hb, hz]
        rfl
      · rw [hb, hz]
        exact ih h'

/-- **The tokens of a condition make the tree of the zipper that reads them.** -/
theorem ofTokens_eq (tokens : List Token) :
    Condition.ofTokens tokens = (Zipper.read tokens).map fun z => ⟨z.tree⟩ := by
  unfold Condition.ofTokens Zipper.read
  rcases (agree_foldlM_feed represents_new tokens).cases with ⟨e, hb, hz⟩ | ⟨b, z, hb, hz, h⟩
  · rw [hb, hz]
    rfl
  · rw [hb, hz]
    obtain ⟨is, hd, hall⟩ := h.denotes
    exact congrArg (fun n => Except.ok (Condition.mk n)) (hd.finish hall)

/-- Tokens are read on from where those before them have left the zipper. -/
theorem Zipper.read_append (ts rest : List Token) :
    read (ts ++ rest) = read ts >>= fun z => rest.foldlM feed z := by
  rw [read, List.foldlM_append]
  rfl

/-- Tokens that make one zipper can stand for each other at the beginning. -/
theorem ofTokens_append_congr {ts ts' : List Token} (h : Zipper.read ts = Zipper.read ts')
    (rest : List Token) :
    Condition.ofTokens (ts ++ rest) = Condition.ofTokens (ts' ++ rest) := by
  rw [ofTokens_eq, ofTokens_eq, Zipper.read_append, Zipper.read_append, h]

theorem ofTokens_append_of_ok {ts : List Token} {z : Zipper} (h : Zipper.read ts = .ok z)
    (rest : List Token) : Condition.ofTokens (ts ++ rest) =
      (rest.foldlM Zipper.feed z).map fun y => ⟨y.tree⟩ := by
  rw [ofTokens_eq, Zipper.read_append, h]
  rfl

/-- A token that is refused is refused whatever comes after it. -/
theorem ofTokens_append_of_error {ts : List Token} {e : ConditionError}
    (h : Condition.ofTokens ts = .error e) (rest : List Token) :
    Condition.ofTokens (ts ++ rest) = .error e := by
  rw [ofTokens_eq] at h
  rw [ofTokens_eq, Zipper.read_append]
  cases hz : Zipper.read ts with
  | error e' => rw [hz] at h; exact h
  | ok z => rw [hz] at h; cases h

/-- **Parsing looks at the tokens only.** The empty condition is what no tokens make, so that a blank
text is no exception. -/
theorem parse_eq_ofTokens (text : String) :
    Condition.parse text = Condition.ofTokens (tokenize text) := by
  unfold Condition.parse
  dsimp only
  rw [tokenize_trim]
  split
  · -- a blank text has no tokens, and none make the empty condition
    next h =>
      have htrim : trim text = "" := by simpa using h
      have hnone : tokenize "" = [] := tokenize_of_renders (.nil fun b hb => by simp at hb)
      rw [← tokenize_trim, htrim, hnone, ofTokens_eq]
      rfl
  · rfl

end Criterion
