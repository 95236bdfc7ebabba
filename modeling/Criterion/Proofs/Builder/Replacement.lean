import Criterion.Proofs.Builder.Assembly
import Criterion.Proofs.Parts

/-!
# Operators that are taken away

A branch with an operator and both children takes no third child, and a logical operator moves it as
a whole. There is one way for it to lose its operator: the cursor is on it, and an operator is set
that is another one. Nothing in the builder keeps this from happening. The cursor is on such a
branch when its second child has just come, and when a closing parenthesis has come back to it.

In a run in which this never happens every such branch keeps its operator and its children, at the
place it is moved to, and is found in the finished tree. In any other run one of them does not.
-/

namespace Criterion

namespace Builder

/-- Where a branch lies after an operation. A logical operator moves what the branch under the
cursor holds to the end of the arena, and nothing else is moved. -/
def place (b : Builder) (o : Operation) (i : Nat) : Nat :=
  match o with
  | .shift _ => if i = b.cursor then b.arena.size else i
  | _ => i

/-- Where a branch lies after operations, one after the other. -/
def placeAfter (b : Builder) : List Operation → Nat → Nat
  | [], i => i
  | o :: ops, i => (b.step o).placeAfter ops (b.place o i)

/-- Does the operation set another operator on a branch that has one, and both children? -/
def replaces (b : Builder) : Operation → Bool
  | .setOperator op =>
    match b.focus with
    | ⟨some old, some _, some _⟩ => old != op
    | _ => false
  | _ => false

/-- Do operations, one after the other, never set another operator on such a branch? -/
def spares (b : Builder) : List Operation → Bool
  | [] => true
  | o :: ops => !b.replaces o && (b.step o).spares ops

theorem exists_of_replaces {b : Builder} {o : Operation} (h : b.replaces o = true) :
    ∃ old new l r, b.focus = ⟨some old, some l, some r⟩ ∧ o = .setOperator new ∧ old ≠ new := by
  cases o with
  | setOperator new =>
      dsimp only [replaces] at h
      split at h
      · next old l r hfocus => exact ⟨old, new, l, r, hfocus, rfl, by simpa using h⟩
      · cases h
  | _ => cases h

theorem step_of_ok {b b' : Builder} {o : Operation} (h : b.perform o = .ok b') : b.step o = b' := by
  rw [step, h]
  rfl

theorem step_of_error {b : Builder} {o : Operation} {e : ConditionError}
    (h : b.perform o = .error e) : b.step o = b := by
  rw [step, h]
  rfl

/-! ## One operation -/

section Kept

variable {b : Builder} {i : Nat} {op : Operator} {l r : Child}

theorem getElem?_setFocus_of_ne (hi : i ≠ b.cursor) (branch : Branch) :
    (b.setFocus branch).arena[i]? = b.arena[i]? :=
  Array.getElem?_setIfInBounds_ne (Ne.symm hi)

theorem getElem?_alloc {branch : Branch} (hi : b.arena[i]? = some branch) (other : Branch) :
    (b.alloc other).arena[i]? = some branch := by
  have hlt : i < b.arena.size := (Array.getElem?_eq_some_iff.mp hi).1
  have hpush : (b.arena.push other)[i]? = b.arena[i]? := by
    rw [Array.getElem?_push, if_neg (Nat.ne_of_lt hlt)]
  exact hpush.trans hi

/-- A child is attached to another branch, since this one is full. -/
theorem getElem?_attach {b' : Builder} {child : Child}
    (hi : b.arena[i]? = some ⟨some op, some l, some r⟩) (h : b.attach child = .ok b') :
    b'.arena[i]? = some ⟨some op, some l, some r⟩ := by
  by_cases hic : i = b.cursor
  · -- the cursor is on the full branch itself, where attaching fails
    have hfocus : b.focus = ⟨some op, some l, some r⟩ := focus_eq (hic ▸ hi)
    unfold attach at h
    rw [hfocus] at h
    cases h
  · unfold attach at h
    dsimp only at h
    split at h
    · obtain rfl := Except.ok.inj h
      exact (getElem?_setFocus_of_ne hic _).trans hi
    · split at h
      · obtain rfl := Except.ok.inj h
        exact (getElem?_setFocus_of_ne hic _).trans hi
      · cases h

theorem getElem?_openGroup {b' : Builder}
    (hi : b.arena[i]? = some ⟨some op, some l, some r⟩) (h : b.openGroup = .ok b') :
    b'.arena[i]? = some ⟨some op, some l, some r⟩ := by
  unfold openGroup at h
  dsimp only at h
  split at h
  · cases h
  · obtain ⟨attached, ha, hb'⟩ := bind_eq_ok_iff.mp h
    obtain rfl : attached.descend b.arena.size = b' := Except.ok.inj hb'
    have hkept := getElem?_attach (getElem?_alloc hi {}) ha
    exact hkept

/-- A logical operator moves the branch under the cursor as a whole. -/
theorem getElem?_shift (hi : b.arena[i]? = some ⟨some op, some l, some r⟩) (o : Operator) :
    (b.shift o).arena[if i = b.cursor then b.arena.size else i]? =
      some ⟨some op, some l, some r⟩ := by
  have hlt : i < b.arena.size := (Array.getElem?_eq_some_iff.mp hi).1
  by_cases hic : i = b.cursor
  · -- what the cursor's branch held is the first of the two new branches
    have hfocus : b.focus = ⟨some op, some l, some r⟩ := focus_eq (hic ▸ hi)
    have hnew : (b.alloc b.focus).arena[b.arena.size]? = some ⟨some op, some l, some r⟩ := by
      rw [hfocus]
      exact Array.getElem?_push_size
    have hne : b.arena.size ≠ ((b.alloc b.focus).alloc {}).cursor := by
      show b.arena.size ≠ b.cursor
      omega
    rw [if_pos hic]
    exact (getElem?_setFocus_of_ne hne _).trans (getElem?_alloc hnew {})
  · have hkept := getElem?_alloc (getElem?_alloc hi b.focus) {}
    have hne : i ≠ ((b.alloc b.focus).alloc {}).cursor := hic
    rw [if_neg hic]
    exact (getElem?_setFocus_of_ne hne _).trans hkept

theorem getElem?_setOperator_cursor (hi : b.arena[b.cursor]? = some ⟨some op, some l, some r⟩)
    (o : Operator) : (b.setOperator o).arena[b.cursor]? = some ⟨some o, some l, some r⟩ := by
  have hlt : b.cursor < b.arena.size := (Array.getElem?_eq_some_iff.mp hi).1
  have hset : (b.setFocus { b.focus with op := o }).arena[b.cursor]? =
      some { b.focus with op := o } := Array.getElem?_setIfInBounds_self_of_lt hlt
  rw [focus_eq hi] at hset
  rw [setOperator, focus_eq hi]
  exact hset

/-- The operator that a branch has may be set again. -/
theorem getElem?_setOperator (hi : b.arena[i]? = some ⟨some op, some l, some r⟩) {o : Operator}
    (ho : b.replaces (.setOperator o) = false) :
    (b.setOperator o).arena[i]? = some ⟨some op, some l, some r⟩ := by
  by_cases hic : i = b.cursor
  · subst hic
    have hfocus : b.focus = ⟨some op, some l, some r⟩ := focus_eq hi
    have hsame : op = o := by
      unfold replaces at ho
      rw [hfocus] at ho
      simpa using ho
    rw [hsame]
    exact getElem?_setOperator_cursor hi o
  · exact (getElem?_setFocus_of_ne hic _).trans hi

/-- **Preserved by every operation** that does not set another operator on such a branch. -/
theorem getElem?_step (hi : b.arena[i]? = some ⟨some op, some l, some r⟩) {o : Operation}
    (ho : b.replaces o = false) :
    (b.step o).arena[b.place o i]? = some ⟨some op, some l, some r⟩ := by
  cases hp : b.perform o with
  | error e =>
      -- a logical operator never fails, so that nothing is moved here
      have hplace : b.place o i = i := by
        cases o with
        | shift op => cases hp
        | _ => rfl
      rw [step_of_error hp, hplace]
      exact hi
  | ok b' =>
      rw [step_of_ok hp]
      cases o with
      | push literal => exact getElem?_attach hi hp
      | openGroup => exact getElem?_openGroup hi hp
      | closeGroup =>
          obtain rfl : b.closeGroup = b' := Except.ok.inj hp
          unfold closeGroup
          split <;> exact hi
      | shift o =>
          obtain rfl : b.shift o = b' := Except.ok.inj hp
          exact getElem?_shift hi o
      | setOperator o =>
          obtain rfl : b.setOperator o = b' := Except.ok.inj hp
          exact getElem?_setOperator hi ho

/-! ## Any number of operations -/

theorem getElem?_foldl_step {ops : List Operation}
    (hi : b.arena[i]? = some ⟨some op, some l, some r⟩) (hops : b.spares ops = true) :
    (ops.foldl step b).arena[b.placeAfter ops i]? = some ⟨some op, some l, some r⟩ := by
  induction ops generalizing b i with
  | nil => exact hi
  | cons o ops ih =>
      rw [spares, Bool.and_eq_true, Bool.not_eq_true'] at hops
      exact ih (getElem?_step hi hops.1) hops.2

end Kept

theorem spares_append (b : Builder) (before after : List Operation) :
    b.spares (before ++ after) = (b.spares before && (before.foldl step b).spares after) := by
  induction before generalizing b with
  | nil => rfl
  | cons o before ih => rw [List.cons_append, spares, spares, ih, List.foldl_cons, Bool.and_assoc]

/-- If there is an operation that takes an operator away, there is a last one. -/
theorem exists_last_replacing {b : Builder} {ops : List Operation} (h : b.spares ops = false) :
    ∃ before o after, ops = before ++ o :: after ∧ (before.foldl step b).replaces o = true ∧
      ((before.foldl step b).step o).spares after = true := by
  induction ops generalizing b with
  | nil => cases h
  | cons o ops ih =>
      cases hrest : (b.step o).spares ops with
      | false =>
          -- there is a later one, and so a last one among those
          obtain ⟨before, o', after, rfl, hreplaces, hafter⟩ := ih hrest
          exact ⟨o :: before, o', after, rfl, hreplaces, hafter⟩
      | true =>
          have hreplaces : b.replaces o = true := by
            rw [spares, hrest, Bool.and_true, Bool.not_eq_false'] at h
            exact h
          exact ⟨[], o, ops, rfl, hreplaces, hrest⟩

end Builder

/-! ## In the finished tree -/

theorem Denotes.exists_node {arena : Array Branch} {child : Child} {n : Option Node} {is : List Nat}
    (h : Denotes arena (some child) n is) : ∃ m, n = some m := by
  cases h with
  | leaf => exact ⟨_, rfl⟩
  | branch => exact ⟨_, rfl⟩

/-- Each branch of the arena is a node of the tree, over the nodes that its children are. -/
theorem Denotes.mem_childSubtrees {arena : Array Branch} {c : Option Child} {n : Option Node}
    {is : List Nat} (h : Denotes arena c n is) {i : Nat} (hi : i ∈ is) {op : Option Operator}
    {left right : Option Child} (hbranch : arena[i]? = some ⟨op, left, right⟩) :
    ∃ l r ls rs, .branch op l r ∈ Node.childSubtrees n ∧ Denotes arena left l ls ∧
      Denotes arena right r rs := by
  induction h with
  | missing => cases hi
  | leaf => cases hi
  | @branch k op' left' right' l r ls rs hk hl hr ihl ihr =>
      simp only [List.mem_append, List.mem_singleton] at hi
      rcases hi with (hi | hi) | rfl
      · obtain ⟨l', r', ls', rs', hmem, hdl, hdr⟩ := ihr hi
        exact ⟨l', r', ls', rs', Node.mem_subtrees_branch.mpr (.inr (.inr hmem)), hdl, hdr⟩
      · obtain ⟨l', r', ls', rs', hmem, hdl, hdr⟩ := ihl hi
        exact ⟨l', r', ls', rs', Node.mem_subtrees_branch.mpr (.inr (.inl hmem)), hdl, hdr⟩
      · -- the branch itself
        rw [hk] at hbranch
        cases hbranch
        exact ⟨l, r, ls, rs, Node.mem_subtrees_branch.mpr (.inl rfl), hl, hr⟩

namespace Builder

/-- The branch at index `i` has this operator and these children, and so it has in the finished
tree. The children are the nodes that they have become. -/
structure HasBranch (b : Builder) (i : Nat) (op : Operator) (l r : Child) : Prop where
  inArena : b.arena[i]? = some ⟨some op, some l, some r⟩
  inTree : ∃ m n ls rs, .branch (some op) (some m) (some n) ∈ b.finish.subtrees ∧
    Denotes b.arena (some l) (some m) ls ∧ Denotes b.arena (some r) (some n) rs

/-- What a branch of the arena has, its node in the finished tree has too. -/
theorem hasBranch_run {ops : List Operation} {i : Nat} {op : Operator} {l r : Child}
    (hi : (run ops).arena[i]? = some ⟨some op, some l, some r⟩) : (run ops).HasBranch i op l r := by
  obtain ⟨is, hd, hall⟩ := (represents_run ops).denotes
  have hlt : i < (run ops).arena.size := (Array.getElem?_eq_some_iff.mp hi).1
  have hmem : i ∈ is := hall.mem_iff.mpr (List.mem_range.mpr hlt)
  obtain ⟨m?, n?, ls, rs, hbranch, hl, hr⟩ := hd.mem_childSubtrees hmem hi
  obtain ⟨m, rfl⟩ := hl.exists_node
  obtain ⟨n, rfl⟩ := hr.exists_node
  refine ⟨hi, m, n, ls, rs, ?_, hl, hr⟩
  rw [hd.finish hall]
  exact hbranch

/-- Does every branch that has an operator and both children at some time of a run have them at its
end, at the place it has been moved to? -/
def KeepsOperators (ops : List Operation) : Prop :=
  ∀ before after, ops = before ++ after → ∀ i op l r,
    (run before).arena[i]? = some ⟨some op, some l, some r⟩ →
      (run ops).HasBranch ((run before).placeAfter after i) op l r

theorem run_append (before after : List Operation) :
    run (before ++ after) = after.foldl step (run before) := List.foldl_append

theorem keepsOperators_of_spares {ops : List Operation} (h : new.spares ops = true) :
    KeepsOperators ops := by
  rintro before after rfl i op l r hi
  rw [spares_append, Bool.and_eq_true] at h
  have hkept := getElem?_foldl_step hi h.2
  rw [← run_append] at hkept
  exact hasBranch_run hkept

/-- An operator that is taken away for the last time is not found again. -/
theorem not_keepsOperators {ops : List Operation} (h : new.spares ops = false) :
    ¬ KeepsOperators ops := by
  intro hkeeps
  obtain ⟨before, o, after, rfl, hreplaces, hafter⟩ := exists_last_replacing h
  change (run before).replaces o = true at hreplaces
  change ((run before).step o).spares after = true at hafter
  obtain ⟨old, new, l, r, hfocus, rfl, hne⟩ := exists_of_replaces hreplaces
  obtain ⟨hat, -, -, -, -⟩ := represents_run before
  have hcursor : (run before).arena[(run before).cursor]? = some ⟨some old, some l, some r⟩ := by
    rw [← hfocus, focus_eq hat]
    exact hat
  -- after the operation the branch has the new operator, and keeps it, since this was the last time
  have hset : ((run before).step (.setOperator new)).arena[(run before).cursor]? =
      some ⟨some new, some l, some r⟩ := getElem?_setOperator_cursor hcursor new
  have hnew := getElem?_foldl_step hset hafter
  have hold := (hkeeps before _ rfl _ old l r hcursor).inArena
  rw [run_append] at hold
  have hboth : some (Branch.mk (some old) (some l) (some r)) =
      some ⟨some new, some l, some r⟩ := hold.symm.trans hnew
  cases hboth
  exact hne rfl

/-- **A run keeps all operators just if it never sets another one on a branch that is full.** -/
theorem keepsOperators_iff_spares (ops : List Operation) :
    KeepsOperators ops ↔ new.spares ops = true := by
  constructor
  · intro hkeeps
    cases h : new.spares ops with
    | true => rfl
    | false => exact absurd hkeeps (not_keepsOperators h)
  · exact keepsOperators_of_spares

end Builder

end Criterion
