import Criterion.Proofs.Evaluation
import Criterion.Proofs.Grammar
import Criterion.Proofs.Parsing

/-!
# When parentheses group

A closing parenthesis takes the focus up by one branch, whichever made that branch: the opening
parenthesis, or a logical operator that came after it. So the parentheses are left with branches of
their own still around the focus, and a logical operator that comes next takes hold of a part of what
they hold. All is well as long as none of these branches is a logical operator's.
-/

namespace Criterion

/-! ## The tree that an expression makes -/

/-- A tree with a focus, inside of further branches. -/
def Zipper.under (z : Zipper) (frames : List Frame) : Zipper :=
  { z with frames := z.frames ++ frames }

@[simp] theorem Zipper.under_frames (z : Zipper) (frames : List Frame) :
    (z.under frames).frames = z.frames ++ frames := rfl

@[simp] theorem Zipper.under_nil (z : Zipper) : z.under [] = z := by
  rw [under, List.append_nil]

theorem Zipper.under_append (z : Zipper) (inner outer : List Frame) :
    z.under (inner ++ outer) = (z.under inner).under outer := by
  simp [under]

theorem Zipper.tree_under (z : Zipper) (frames : List Frame) :
    (z.under frames).tree = enclose frames z.tree := enclose_append _ _ _

/-- Where a branch is still around the focus, those outside of it are not noticed. -/
theorem Zipper.closeGroup_under {z : Zipper} (h : z.frames ≠ []) (frames : List Frame) :
    (z.under frames).closeGroup = z.closeGroup.under frames := by
  obtain ⟨op, operands, _ | ⟨f, rest⟩⟩ := z
  · exact absurd rfl h
  · rfl

/-- The tree of a comparison. -/
def Comparison.zipper : Comparison → Zipper
  | .word w => { operands := .one (.leaf w.literal) }
  | .relation v op w => { op := some op.val, operands := .two (.leaf v.literal) (.leaf w.literal) }

mutual

/-- The tree that a term makes of an empty branch, and where it leaves the focus. -/
def Term.zipper : Term → Zipper
  | .comparison c => c.zipper
  | .group e => (e.zipper.under [.first none]).closeGroup

/-- The tree that an expression makes of an empty branch, and where it leaves the focus. -/
def Expression.zipper : Expression → Zipper
  | .single t => t.zipper
  | .joined t op e => e.zipper.under (.second (some op.val) t.zipper.node :: t.zipper.frames)

end

theorem Comparison.foldlM_tokens (c : Comparison) (frames : List Frame) :
    c.tokens.foldlM Zipper.feed { frames } = .ok (c.zipper.under frames) := by
  cases c with
  | word w => rfl
  | relation v op w =>
      rw [tokens, List.foldlM_cons]
      show (Zipper.feed { operands := .one (.leaf v.literal), frames } (.operator op) >>= _) = _
      rw [Zipper.feed_comparison op.property]
      rfl

mutual

theorem Term.foldlM_tokens (t : Term) (frames : List Frame) :
    t.tokens.foldlM Zipper.feed { frames } = .ok (t.zipper.under frames) := by
  cases t with
  | comparison c => exact c.foldlM_tokens frames
  | group e =>
      -- the opening parenthesis makes one more branch around what is inside
      have he := e.foldlM_tokens (.first none :: frames)
      rw [Term.tokens, List.foldlM_cons]
      show (e.tokens ++ [Token.closeGroup]).foldlM Zipper.feed { frames := .first none :: frames } = _
      rw [List.foldlM_append, he, Term.zipper, ← Zipper.closeGroup_under (by simp),
        ← Zipper.under_append]
      rfl

/-- **An expression is read alike inside of any branches.** -/
theorem Expression.foldlM_tokens (e : Expression) (frames : List Frame) :
    e.tokens.foldlM Zipper.feed { frames } = .ok (e.zipper.under frames) := by
  cases e with
  | single t => exact t.foldlM_tokens frames
  | joined t op e =>
      have ht := t.foldlM_tokens frames
      -- the operator takes the focus that the term has left, not the whole term
      have he := e.foldlM_tokens (.second (some op.val) t.zipper.node :: t.zipper.frames ++ frames)
      rw [Expression.tokens, List.foldlM_append, ht]
      show ((t.zipper.under frames).feed (.operator op) >>= _) = _
      rw [Zipper.feed_logical op.property, Expression.zipper, ← Zipper.under_append]
      exact he

end

/-- However an expression is written, it parses. -/
theorem parse_of_tokenize {e : Expression} {text : String} (h : tokenize text = e.tokens) :
    Condition.parse text = .ok ⟨e.zipper.tree⟩ := by
  have hread : Zipper.read e.tokens = .ok e.zipper := by
    rw [Zipper.read, e.foldlM_tokens [], Zipper.under_nil]
  rw [parse_eq_ofTokens, h, ofTokens_eq, hread]
  rfl

/-! ## What the parentheses leave open -/

/-- What has made a branch around the focus. -/
inductive Opening where
  | group
  | operator
deriving DecidableEq, Repr

mutual

/-- What a term leaves open, last first. Its closing parenthesis closes what was opened last. -/
def Term.unclosed : Term → List Opening
  | .comparison _ => []
  | .group e => (e.unclosed ++ [Opening.group]).tail

/-- What an expression leaves open, last first. -/
def Expression.unclosed : Expression → List Opening
  | .single t => t.unclosed
  | .joined t _ e => e.unclosed ++ .operator :: t.unclosed

end

mutual

/-- Is no logical operator left open, anywhere in the term, where another one follows? -/
def Term.isSettled : Term → Bool
  | .comparison _ => true
  | .group e => e.isSettled

/-- Is no logical operator left open, anywhere in the expression, where another one follows? -/
def Expression.isSettled : Expression → Bool
  | .single t => t.isSettled
  | .joined t _ e => !t.unclosed.contains .operator && t.isSettled && e.isSettled

end

/-- What has made a branch, among those that expressions make. -/
def Frame.opening? : Frame → Option Opening
  | .first none => some .group
  | .second (some _) _ => some .operator
  | _ => none

theorem Frame.eq_of_opening?_group {f : Frame} (h : f.opening? = some .group) :
    f = .first none := by
  unfold opening? at h
  split at h
  · rfl
  · cases h
  · cases h

theorem Frame.eq_of_opening?_operator {f : Frame} (h : f.opening? = some .operator) :
    ∃ op left, f = .second (some op) left := by
  unfold opening? at h
  split at h
  · cases h
  · exact ⟨_, _, rfl⟩
  · cases h

mutual

/-- The branches around the focus are those that are left open. -/
theorem Term.map_opening? (t : Term) :
    t.zipper.frames.map Frame.opening? = t.unclosed.map some := by
  cases t with
  | comparison c => cases c <;> rfl
  | group e =>
      -- one is closed, and it is the last one that was opened, whatever opened it
      rw [Term.zipper, Term.unclosed, Zipper.closeGroup_frames, List.map_tail, Zipper.under_frames,
        List.map_append, e.map_opening?, List.map_tail, List.map_append]
      rfl

theorem Expression.map_opening? (e : Expression) :
    e.zipper.frames.map Frame.opening? = e.unclosed.map some := by
  cases e with
  | single t => exact t.map_opening?
  | joined t op e =>
      rw [Expression.zipper, Expression.unclosed, Zipper.under_frames, List.map_append, List.map_cons,
        e.map_opening?, t.map_opening?, List.map_append, List.map_cons]
      rfl

end

/-- A branch around the focus was made by something that is left open. -/
theorem exists_opening {frames : List Frame} {openings : List Opening}
    (h : frames.map Frame.opening? = openings.map some) {f : Frame} (hf : f ∈ frames) :
    ∃ o ∈ openings, f.opening? = some o := by
  have hmem : f.opening? ∈ openings.map some := by
    rw [← h]
    exact List.mem_map_of_mem hf
  obtain ⟨o, ho, heq⟩ := List.mem_map.mp hmem
  exact ⟨o, ho, heq.symm⟩

/-! ## Settled expressions are grouped as they are written -/

theorem Node.value_branch (context : Option Datum) (op : Operator) (l r : Node) :
    (Node.branch (some op) (some l) (some r)).value context =
      .bool (op.apply (l.value context) (r.value context)) := by
  rw [Node.value]
  rfl

theorem Frame.value_around_group (context : Option Datum) (n : Node) :
    ((Frame.first none).around n).value context = n.value context := by
  rw [around, Node.value]
  rfl

/-- Branches that parentheses have made change no value. -/
theorem value_enclose_groups {frames : List Frame} (h : ∀ f ∈ frames, f = .first none)
    (context : Option Datum) (n : Node) :
    (enclose frames n).value context = n.value context := by
  induction frames generalizing n with
  | nil => rfl
  | cons f frames ih =>
      obtain rfl : f = .first none := h f List.mem_cons_self
      rw [enclose_cons, ih (fun g hg => h g (List.mem_cons_of_mem _ hg)), Frame.value_around_group]

theorem Comparison.value_tree (c : Comparison) (context : Option Datum) :
    c.zipper.tree.value context = c.value context := by
  cases c with
  | word w =>
      show (Node.branch none (some (.leaf w.literal)) none).value context = _
      rw [Node.value, Node.value]
      rfl
  | relation v op w =>
      show (Node.branch (some op.val) (some (.leaf v.literal)) (some (.leaf w.literal))).value
        context = _
      rw [Node.value_branch, Node.value, Node.value]
      rfl

/-- The operator takes the place of the focus of the first term, wherever that is. -/
theorem Expression.tree_joined (t : Term) (op : Connective) (e : Expression) :
    (Expression.joined t op e).zipper.tree =
      enclose t.zipper.frames (.branch (some op.val) (some t.zipper.node) (some e.zipper.tree)) := by
  rw [Expression.zipper, Zipper.tree_under]
  rfl

/-- Parentheses keep the value, however they leave the focus. -/
theorem Term.value_tree_group (e : Expression) (context : Option Datum) :
    (Term.group e).zipper.tree.value context = e.zipper.tree.value context := by
  rw [Term.zipper, Zipper.tree_closeGroup, Zipper.tree_under]
  exact Frame.value_around_group context e.zipper.tree

mutual

theorem Term.value_tree {t : Term} (h : t.isSettled = true) (context : Option Datum) :
    t.zipper.tree.value context = t.value context := by
  cases t with
  | comparison c => exact c.value_tree context
  | group e =>
      rw [Term.value_tree_group]
      exact Expression.value_tree h context

/-- The tree of a settled expression has the value of the expression. -/
theorem Expression.value_tree {e : Expression} (h : e.isSettled = true) (context : Option Datum) :
    e.zipper.tree.value context = e.value context := by
  cases e with
  | single t => exact Term.value_tree h context
  | joined t op e =>
      rw [Expression.isSettled, Bool.and_eq_true, Bool.and_eq_true] at h
      obtain ⟨⟨hopen, ht⟩, he⟩ := h
      -- nothing but parentheses is open, as the operator that follows must not find another one
      have hgroups : ∀ f ∈ t.zipper.frames, f = .first none := by
        intro f hf
        obtain ⟨o, ho, heq⟩ := exists_opening t.map_opening? hf
        cases o with
        | group => exact Frame.eq_of_opening?_group heq
        | operator => simp [ho] at hopen
      -- so the focus has the value of the whole term
      have hnode : t.zipper.node.value context = t.value context := by
        rw [← Term.value_tree ht, Zipper.tree, value_enclose_groups hgroups]
      rw [Expression.tree_joined, value_enclose_groups hgroups, Node.value_branch, hnode,
        Expression.value_tree he]
      rfl

end

end Criterion
