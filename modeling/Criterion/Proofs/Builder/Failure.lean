import Criterion.Proofs.Builder.Assembly

/-!
# Operations that fail

A builder that is changed in place keeps, when an operation fails, whatever the operation has changed
up to then. Opening a group might do this: it looks at the second place of the branch in focus, adds a
branch to the arena, and looks at both places when it attaches it. Were the first place taken and the
second one not seen to be, the new branch would be left behind with nothing that leads to it.

`performInPlace` does the operations in this way. It turns out to be `perform`, with the builder
unchanged by all that fails: where the second place is free, attaching succeeds.
-/

namespace Criterion

namespace Builder

/-! ## Operations in place -/

/-- Puts a child into the first free place of the cursor's branch. -/
def attachInPlace (child : Child) : EStateM ConditionError Builder Unit := do
  let branch := (← get).focus
  if branch.left.isNone then
    modify fun b => b.setFocus { branch with left := some child }
  else if branch.right.isNone then
    modify fun b => b.setFocus { branch with right := some child }
  else throw .malformedOperands

/-- Looks for a free place, adds an empty branch to the arena, attaches it, and moves the cursor into
it, one after the other. -/
def openGroupInPlace : EStateM ConditionError Builder Unit := do
  if (← get).focus.right.isSome then throw .malformedOperands
  let index := (← get).arena.size
  modify fun b => b.alloc {}
  attachInPlace (.branch index)
  modify fun b => b.descend index

/-- Does an operation in place. If it fails, the builder is left as it is at that moment. -/
def performInPlace : Operation → EStateM ConditionError Builder Unit
  | .push literal => attachInPlace (.leaf literal)
  | .openGroup => openGroupInPlace
  | .closeGroup => modify closeGroup
  | .shift op => modify fun b => b.shift op
  | .setOperator op => modify fun b => b.setOperator op

/-- What comes of an operation, and the builder after it. -/
def attempt (b : Builder) (o : Operation) : Except ConditionError Unit × Builder :=
  match (performInPlace o).run b with
  | .ok () after => (.ok (), after)
  | .error e after => (.error e, after)

/-- What comes of operations, one after the other, and the builder after the last one. -/
def attempts (b : Builder) : List Operation → List (Except ConditionError Unit) × Builder
  | [] => ([], b)
  | o :: ops =>
    let (result, after) := b.attempt o
    let (results, last) := after.attempts ops
    (result :: results, last)

/-- The operations that do not fail when they are done one after the other. -/
def successful (b : Builder) (ops : List Operation) : List Operation :=
  ((ops.zip (b.attempts ops).1).filter fun p => p.2.isOk).map Prod.fst

/-! ## One operation -/

/-- Attaching looks first and writes last, so that it leaves nothing behind when it fails. -/
theorem run_attachInPlace (child : Child) (b : Builder) :
    (attachInPlace child).run b =
      match b.attach child with
      | .ok after => .ok () after
      | .error e => .error e b := by
  unfold attachInPlace attach
  rw [EStateM.run_bind, EStateM.run_get]
  dsimp only
  split
  · rfl
  · split <;> rfl

/-- The steps of opening a group, with what is left behind where attaching fails. -/
theorem run_openGroupInPlace (b : Builder) :
    openGroupInPlace.run b =
      if b.focus.right.isSome then .error .malformedOperands b
      else
        match (attachInPlace (.branch b.arena.size)).run (b.alloc {}) with
        | .ok () attached => .ok () (attached.descend b.arena.size)
        | .error e left => .error e left := by
  unfold openGroupInPlace
  rw [EStateM.run_bind, EStateM.run_get]
  dsimp only
  split
  · rfl
  · rw [EStateM.run_bind, EStateM.run_get]
    dsimp only
    rw [EStateM.run_bind, EStateM.run_modify]
    dsimp only
    rw [EStateM.run_bind]
    cases (attachInPlace (.branch b.arena.size)).run (b.alloc {}) <;> rfl

/-- One more branch in the arena makes no difference to the one under the cursor. -/
theorem focus_alloc (b : Builder) : (b.alloc {}).focus = b.focus := by
  unfold focus alloc
  simp only [Array.getD_eq_getD_getElem?, Array.getElem?_push]
  split
  · next h => rw [h]; simp
  · rfl

/-- Where the second place is free, a child is attached: to the first place, or to this one. -/
theorem exists_attach_alloc {b : Builder} (h : b.focus.right = none) (child : Child) :
    ∃ after, (b.alloc {}).attach child = .ok after := by
  unfold attach
  dsimp only
  rw [focus_alloc, h]
  split
  · exact ⟨_, rfl⟩
  · exact ⟨_, rfl⟩

theorem openGroup_of_some {b : Builder} {child : Child} (h : b.focus.right = some child) :
    b.openGroup = .error .malformedOperands := by
  unfold openGroup
  rw [h]
  rfl

theorem openGroup_of_none {b attached : Builder} (h : b.focus.right = none)
    (ha : (b.alloc {}).attach (.branch b.arena.size) = .ok attached) :
    b.openGroup = .ok (attached.descend b.arena.size) := by
  unfold openGroup
  dsimp only
  rw [h, ha]
  rfl

/-- **A branch that has been added is attached**: opening a group fails before it or not at all. -/
theorem run_openGroupInPlace_eq (b : Builder) :
    openGroupInPlace.run b =
      match b.openGroup with
      | .ok after => .ok () after
      | .error e => .error e b := by
  rw [run_openGroupInPlace]
  cases h : b.focus.right with
  | some child =>
      rw [openGroup_of_some h]
      rfl
  | none =>
      -- the place that was seen to be free is free still, so attaching does not fail
      obtain ⟨attached, ha⟩ := exists_attach_alloc h (.branch b.arena.size)
      rw [openGroup_of_none h ha, run_attachInPlace, ha]
      rfl

/-- **An operation that fails in place leaves the builder as it was**, and one that does not fail does
what it does to a copy. -/
theorem attempt_eq (b : Builder) (o : Operation) :
    b.attempt o = ((b.perform o).map fun _ => (), b.step o) := by
  have hrun : (performInPlace o).run b =
      match b.perform o with
      | .ok after => .ok () after
      | .error e => .error e b := by
    cases o with
    | push literal => exact run_attachInPlace (.leaf literal) b
    | openGroup => exact run_openGroupInPlace_eq b
    | closeGroup => rfl
    | shift op => rfl
    | setOperator op => rfl
  unfold attempt step
  rw [hrun]
  cases b.perform o <;> rfl

theorem attempt_of_error {b : Builder} {o : Operation} {e : ConditionError}
    (h : (b.attempt o).1 = .error e) : b.attempt o = (.error e, b) := by
  rw [attempt_eq] at h ⊢
  unfold step
  cases hp : b.perform o with
  | ok after => rw [hp] at h; cases h
  | error e' => rw [hp] at h; cases h; rfl

/-! ## Any number of operations -/

theorem attempts_cons (b : Builder) (o : Operation) (ops : List Operation) :
    b.attempts (o :: ops) =
      ((b.attempt o).1 :: ((b.attempt o).2.attempts ops).1, ((b.attempt o).2.attempts ops).2) := rfl

/-- The builder after operations in place is the one after operations on copies. -/
theorem attempts_snd (b : Builder) (ops : List Operation) :
    (b.attempts ops).2 = ops.foldl step b := by
  induction ops generalizing b with
  | nil => rfl
  | cons o ops ih =>
      rw [attempts_cons, List.foldl_cons, ih, attempt_eq]

theorem successful_cons (b : Builder) (o : Operation) (ops : List Operation) :
    b.successful (o :: ops) =
      if (b.attempt o).1.isOk then o :: (b.attempt o).2.successful ops
      else (b.attempt o).2.successful ops := by
  unfold successful
  rw [attempts_cons, List.zip_cons_cons, List.filter_cons]
  split <;> rfl

/-- **Operations that fail may be left out.** -/
theorem attempts_successful (b : Builder) (ops : List Operation) :
    b.attempts (b.successful ops) =
      ((b.attempts ops).1.filter fun result => result.isOk, (b.attempts ops).2) := by
  induction ops generalizing b with
  | nil => rfl
  | cons o ops ih =>
      rw [successful_cons, attempts_cons b o ops]
      cases h : (b.attempt o).1 with
      | ok u =>
          show b.attempts (o :: (b.attempt o).2.successful ops) = _
          rw [attempts_cons, ih, h]
          rfl
      | error e =>
          -- the builder is the same with and without the operation
          show b.attempts ((b.attempt o).2.successful ops) = _
          rw [attempt_of_error h, ih]
          rfl

/-! ## When an operation fails -/

end Builder

/-- Both places of the branch are taken. -/
def Branch.IsFull (branch : Branch) : Prop := branch.left.isSome ∧ branch.right.isSome

/-- In a tree there is no second operand without a first one; so a branch is full when its second
place is taken. -/
theorem Represents.isFull_iff {b : Builder} {z : Zipper} (h : Represents b z) :
    b.focus.IsFull ↔ b.focus.right.isSome := by
  obtain ⟨hf, hl, hr, -, -⟩ := h
  rw [focus_eq hf, Branch.IsFull]
  cases ho : z.operands with
  | empty =>
      rw [ho] at hr
      obtain ⟨rfl, -⟩ := hr.of_none
      simp
  | one l =>
      rw [ho] at hr
      obtain ⟨rfl, -⟩ := hr.of_none
      simp
  | two l r =>
      rw [ho] at hl
      obtain ⟨c, rfl⟩ := hl.of_some
      simp

theorem Builder.attach_eq_error_iff (b : Builder) (child : Child) :
    b.attach child = .error .malformedOperands ↔ b.focus.IsFull := by
  unfold attach
  obtain ⟨op, left, right⟩ := b.focus
  cases left with
  | none => exact ⟨nofun, fun h => absurd h.1 nofun⟩
  | some l =>
      cases right with
      | none => exact ⟨nofun, fun h => absurd h.2 nofun⟩
      | some r => exact ⟨fun _ => ⟨rfl, rfl⟩, fun _ => rfl⟩

theorem Builder.openGroup_eq_error_iff (b : Builder) :
    b.openGroup = .error .malformedOperands ↔ b.focus.right.isSome := by
  cases h : b.focus.right with
  | some child => exact ⟨fun _ => rfl, fun _ => openGroup_of_some h⟩
  | none =>
      obtain ⟨attached, ha⟩ := exists_attach_alloc h (.branch b.arena.size)
      rw [openGroup_of_none h ha]
      exact ⟨nofun, nofun⟩

/-! ## Branches that nothing leads to -/

/-- The branch at an index can be reached from the root. -/
inductive Linked (arena : Array Branch) : Nat → Prop where
  | root : Linked arena 0
  | child {i j : Nat} : Linked arena i → j ∈ (arena.getD i {}).children → Linked arena j

/-- What a branch leads to is the branches of its node. -/
theorem Denotes.linked {arena : Array Branch} {c : Option Child} {n : Option Node} {is : List Nat}
    (h : Denotes arena c n is) (hc : ∀ i, c = some (.branch i) → Linked arena i) :
    ∀ i ∈ is, Linked arena i := by
  induction h with
  | missing => exact nofun
  | leaf => exact nofun
  | @branch i op left right l r ls rs hi _ _ ihl ihr =>
      -- from the branch to its children, and on from there
      have hhere : Linked arena i := hc i rfl
      have hbranch : arena.getD i {} = ⟨op, left, right⟩ := getD_eq hi
      intro k hk
      simp only [List.mem_append, List.mem_singleton] at hk
      rcases hk with (hk | hk) | rfl
      · refine ihr (fun j hj => hhere.child ?_) k hk
        rw [hbranch]
        exact Branch.mem_children.mpr (.inr hj)
      · refine ihl (fun j hj => hhere.child ?_) k hk
        rw [hbranch]
        exact Branch.mem_children.mpr (.inl hj)
      · exact hhere

/-- Where the arena is a tree, all of it can be reached. -/
theorem Represents.linked {b : Builder} {z : Zipper} (h : Represents b z) {i : Nat}
    (hi : i < b.arena.size) : Linked b.arena i := by
  obtain ⟨is, hd, hall⟩ := h.denotes
  refine hd.linked ?_ i (hall.mem_iff.mpr (List.mem_range.mpr hi))
  intro j hj
  cases hj
  exact .root

/-! ## Any run of a builder -/

/-- **A failing operation changes nothing.** In the state that any run leads to, failed operations
included, a value is refused just where both places of the branch in focus are taken, and so is a new
group; whatever fails leaves the builder as it is. A run without those of its operations that fail
gives the same results for the others and the same tree. Once the second place has been found free,
a new branch is attached, so that every branch of the arena can be reached from the root. -/
theorem failing_changes_nothing (ops : List Operation) {b : Builder}
    (hb : (Builder.new.attempts ops).2 = b) :
    (∀ literal, (b.attempt (.push literal)).1 = .error .malformedOperands ↔ b.focus.IsFull) ∧
      ((b.attempt .openGroup).1 = .error .malformedOperands ↔ b.focus.IsFull) ∧
      (∀ o e, (b.attempt o).1 = .error e → (b.attempt o).2 = b) ∧
      (Builder.new.attempts (Builder.new.successful ops)).1 =
        (Builder.new.attempts ops).1.filter (fun result => result.isOk) ∧
      (Builder.new.attempts (Builder.new.successful ops)).2.finish = b.finish ∧
      (b.focus.right = none → ∃ attached,
        (Builder.attachInPlace (.branch b.arena.size)).run (b.alloc {}) = .ok () attached) ∧
      ∀ i < b.arena.size, Linked b.arena i := by
  have hrep : Represents b (Zipper.run ops) := by
    rw [← hb, Builder.attempts_snd]
    exact represents_run ops
  have herror : ∀ o, (b.attempt o).1 = .error .malformedOperands ↔
      b.perform o = .error .malformedOperands := by
    intro o
    rw [Builder.attempt_eq]
    cases b.perform o with
    | error e => cases e; exact ⟨fun _ => rfl, fun _ => rfl⟩
    | ok after => exact ⟨nofun, nofun⟩
  refine ⟨fun literal => ?_, ?_, fun o e h => ?_, ?_, ?_, fun h => ?_, fun i hi => ?_⟩
  · rw [herror]
    exact b.attach_eq_error_iff (.leaf literal)
  · -- a group looks at the second place alone, but then the first one is taken as well
    rw [herror, hrep.isFull_iff]
    exact b.openGroup_eq_error_iff
  · rw [Builder.attempt_of_error h]
  · rw [Builder.attempts_successful]
  · rw [Builder.attempts_successful, hb]
  · obtain ⟨attached, ha⟩ := Builder.exists_attach_alloc h (.branch b.arena.size)
    exact ⟨attached, by rw [Builder.run_attachInPlace, ha]⟩
  · exact hrep.linked hi

/-- A group and a value that come where a value and a group fill the root. -/
theorem failing_changes_nothing_at_root :
    (Builder.new.attempts
        [.push .null, .openGroup, .closeGroup, .openGroup, .push .blank, .shift .and]).1.map
          (fun result => result.isOk) = [true, true, true, false, false, true] ∧
      Builder.new.successful
        [.push .null, .openGroup, .closeGroup, .openGroup, .push .blank, .shift .and] =
          [.push .null, .openGroup, .closeGroup, .shift .and] ∧
      (Builder.new.attempts [.push .null, .openGroup, .closeGroup, .shift .and]).2.finish =
        (Builder.new.attempts
          [.push .null, .openGroup, .closeGroup, .openGroup, .push .blank, .shift .and]).2.finish := by
  have hkept : Builder.new.successful
      [.push .null, .openGroup, .closeGroup, .openGroup, .push .blank, .shift .and] =
        [.push .null, .openGroup, .closeGroup, .shift .and] := by decide +kernel
  obtain ⟨-, -, -, -, hfinish, -⟩ := failing_changes_nothing
    [.push .null, .openGroup, .closeGroup, .openGroup, .push .blank, .shift .and] rfl
  rw [hkept] at hfinish
  exact ⟨by decide +kernel, hkept, hfinish⟩

end Criterion
