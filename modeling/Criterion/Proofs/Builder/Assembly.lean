import Criterion.Proofs.Builder.Arena

/-!
# The finished tree

`finish` turns the arena into a tree from a list of tasks. The tasks alone settle the order in which
the branches are assembled. For the child that `Denotes` a node, the order is the list of its indices,
children first, and twice as many tasks as there are indices are enough.

A child that has not been built, or that has been taken before, would silently become the empty node.
`assemble?` gives up instead. It never does: each branch is the child of one other branch, and has been
built when that one is assembled.

Together with the arena being the tree of the zipper this makes `finish` forget the focus, and do
nothing else (`finish_run`).
-/

namespace Criterion

namespace Assembly

/-! ## Tasks and their order -/

/-- The indices that up to `fuel` tasks assemble, in order, and the tasks that are left after them. -/
def order : (fuel : Nat) → List Task → Array Branch → List Nat × List Task
  | 0, tasks, _ => ([], tasks)
  | _ + 1, [], _ => ([], [])
  | fuel + 1, .visit index :: tasks, arena =>
    let branch := arena.getD index {}
    order fuel
      (childTasks branch.right ++ childTasks branch.left ++ .assemble index :: tasks) arena
  | fuel + 1, .assemble index :: tasks, arena =>
    let (is, left) := order fuel tasks (arena.setIfInBounds index {})
    (index :: is, left)

/-- Working through the tasks is assembling in their order. -/
theorem runTasks_eq_foldl (fuel : Nat) (tasks : List Task) (s : Assembly) :
    runTasks fuel tasks s = (order fuel tasks s.arena).1.foldl assemble s := by
  -- a visit only puts tasks in front, so that the order can be told without what is built
  fun_induction runTasks fuel tasks s with
  | case1 => rfl
  | case2 => rfl
  | case3 _ _ _ _ _ ih => rw [order]; exact ih
  | case4 _ _ _ _ ih => rw [order]; exact ih

/-- The arena without the branches that have been taken. -/
def emptied (arena : Array Branch) (is : List Nat) : Array Branch :=
  is.foldl (fun arena i => arena.setIfInBounds i {}) arena

theorem getElem?_emptied {is : List Nat} {j : Nat} (hj : j ∉ is) (arena : Array Branch) :
    (emptied arena is)[j]? = arena[j]? := by
  induction is generalizing arena with
  | nil => rfl
  | cons i is ih =>
      rw [List.mem_cons, not_or] at hj
      exact (ih hj.2 _).trans (Array.getElem?_setIfInBounds_ne (Ne.symm hj.1))

/-! ## Assembling where nothing may be missing -/

/-- Takes a child as `takeChild` does, and fails if its node is not there. -/
def takeChild? (built : Array (Option Node)) :
    Option Child → Option (Option Node × Array (Option Node))
  | some (.branch index) =>
    (built.getD index none).map fun n => (some n, built.setIfInBounds index none)
  | child => some (takeChild built child)

/-- Assembles a branch as `assemble` does, and fails if the node of a child is not there. -/
def assemble? (s : Assembly) (index : Nat) : Option Assembly := do
  let branch := s.arena.getD index {}
  let left ← takeChild? s.built branch.left
  let right ← takeChild? left.2 branch.right
  return {
    arena := s.arena.setIfInBounds index {}
    built := right.2.setIfInBounds index (some (.branch branch.op left.1 right.1)) }

theorem takeChild_of_takeChild? {built : Array (Option Node)} {child : Option Child}
    {taken : Option Node × Array (Option Node)} (h : takeChild? built child = some taken) :
    takeChild built child = taken := by
  match child with
  | none => exact Option.some.inj h
  | some (.leaf literal) => exact Option.some.inj h
  | some (.branch index) =>
      obtain ⟨n, hn, rfl⟩ := Option.map_eq_some_iff.mp h
      rw [takeChild, hn]
      rfl

theorem assemble_of_assemble? {s s' : Assembly} {index : Nat}
    (h : s.assemble? index = some s') : s.assemble index = s' := by
  obtain ⟨left, hl, h⟩ := Option.bind_eq_some_iff.mp h
  obtain ⟨right, hr, h⟩ := Option.bind_eq_some_iff.mp h
  rw [← Option.some.inj h, assemble, takeChild_of_takeChild? hl, takeChild_of_takeChild? hr]

/-- Where nothing is missing, failing on what is missing makes no difference. -/
theorem foldl_of_foldlM {is : List Nat} {s s' : Assembly}
    (h : is.foldlM assemble? s = some s') : is.foldl assemble s = s' := by
  induction is generalizing s with
  | nil => exact Option.some.inj h
  | cons i is ih =>
      rw [List.foldlM_cons] at h
      obtain ⟨mid, hmid, hrest⟩ := Option.bind_eq_some_iff.mp h
      rw [List.foldl_cons, assemble_of_assemble? hmid]
      exact ih hrest

/-- The node of a child is there to be taken. -/
inductive Ready (built : Array (Option Node)) : Option Child → Option Node → Prop where
  | missing : Ready built none none
  | leaf {literal : Operand} : Ready built (some (.leaf literal)) (some (.leaf literal))
  | branch {i : Nat} {n : Node} : built[i]? = some (some n) → Ready built (some (.branch i)) (some n)

variable {built : Array (Option Node)} {c : Option Child} {n : Option Node}

theorem Ready.congr {built' : Array (Option Node)} (h : Ready built c n)
    (heq : ∀ i, c = some (.branch i) → built'[i]? = built[i]?) : Ready built' c n := by
  cases h with
  | missing => exact .missing
  | leaf => exact .leaf
  | branch hi => exact .branch ((heq _ rfl).trans hi)

/-- Taking a child gives its node and touches no other. -/
theorem Ready.takeChild? (h : Ready built c n) :
    ∃ rest, Assembly.takeChild? built c = some (n, rest) ∧ rest.size = built.size ∧
      ∀ j, c ≠ some (.branch j) → rest[j]? = built[j]? := by
  cases h with
  | missing => exact ⟨built, rfl, rfl, fun _ _ => rfl⟩
  | leaf => exact ⟨built, rfl, rfl, fun _ _ => rfl⟩
  | @branch i n hi =>
      refine ⟨built.setIfInBounds i none, ?_, Array.size_setIfInBounds, fun j hj => ?_⟩
      · rw [Assembly.takeChild?, Array.getD_eq_getD_getElem?, hi]
        rfl
      · exact Array.getElem?_setIfInBounds_ne (by rintro rfl; exact hj rfl)

/-- A branch whose children are ready becomes ready itself. Its children are taken, and nothing else
is touched. -/
theorem Ready.assemble? {s : Assembly} {i : Nat} {op : Option Operator} {left right : Option Child}
    {l r : Option Node} (hi : s.arena.getD i {} = ⟨op, left, right⟩) (hlt : i < s.built.size)
    (hl : Ready s.built left l) (hr : Ready s.built right r)
    (hne : ∀ j, right = some (.branch j) → left ≠ some (.branch j)) :
    ∃ s', s.assemble? i = some s' ∧ Ready s'.built (some (.branch i)) (some (.branch op l r)) ∧
      s'.built.size = s.built.size ∧
      ∀ j, j ≠ i → left ≠ some (.branch j) → right ≠ some (.branch j) →
        s'.built[j]? = s.built[j]? ∧ s'.arena[j]? = s.arena[j]? := by
  obtain ⟨x, hx, hxsize, hxkeep⟩ := hl.takeChild?
  -- the left child has been taken; the right one is another branch, and is still there
  have hxr : Ready x right r := hr.congr fun j hj => hxkeep j (hne j hj)
  obtain ⟨y, hy, hysize, hykeep⟩ := hxr.takeChild?
  have hstep : s.assemble? i = some
      ⟨s.arena.setIfInBounds i {}, y.setIfInBounds i (some (.branch op l r))⟩ := by
    rw [Assembly.assemble?, hi]
    simp only [hx, hy, Option.bind_eq_bind, Option.bind_some]
    rfl
  have hsize : y.size = s.built.size := hysize.trans hxsize
  refine ⟨_, hstep, .branch ?_, Array.size_setIfInBounds.trans hsize, fun j hji hleft hright => ?_⟩
  · exact Array.getElem?_setIfInBounds_self_of_lt (hsize ▸ hlt)
  · refine ⟨?_, Array.getElem?_setIfInBounds_ne (Ne.symm hji)⟩
    rw [Array.getElem?_setIfInBounds_ne (Ne.symm hji), hykeep j hright, hxkeep j hleft]

end Assembly

/-- The indices of a branch's children. -/
def Branch.children (branch : Branch) : List Nat :=
  [branch.left, branch.right].filterMap fun
    | some (.branch i) => some i
    | _ => none

theorem Branch.mem_children {branch : Branch} {i : Nat} :
    i ∈ branch.children ↔ branch.left = some (.branch i) ∨ branch.right = some (.branch i) := by
  obtain ⟨op, left, right⟩ := branch
  rcases left with _ | ⟨_ | _⟩ <;> rcases right with _ | ⟨_ | _⟩ <;>
    simp [children, eq_comm]

/-! ## The order is children first -/

section Denoted

variable {arena : Array Branch} {c : Option Child} {n : Option Node} {is : List Nat}

theorem getD_eq {i : Nat} {branch : Branch} (h : arena[i]? = some branch) :
    arena.getD i {} = branch := by
  rw [Array.getD_eq_getD_getElem?, h]
  rfl

/-- The tasks of a child take twice as many steps as it has branches, and assemble all of them before
the tasks behind are begun. -/
theorem Denotes.order (h : Denotes arena c n is) (hnd : is.Nodup) {rest : Array Branch}
    (heq : ∀ i ∈ is, rest[i]? = arena[i]?) (fuel : Nat) (tasks : List Task) :
    Assembly.order (2 * is.length + fuel) (Assembly.childTasks c ++ tasks) rest =
      (is ++ (Assembly.order fuel tasks (Assembly.emptied rest is)).1,
        (Assembly.order fuel tasks (Assembly.emptied rest is)).2) := by
  induction h generalizing fuel tasks rest with
  | missing => simp [Assembly.childTasks, Assembly.emptied]
  | leaf => simp [Assembly.childTasks, Assembly.emptied]
  | @branch i op left right l r ls rs hi _ _ ihl ihr =>
      simp only [List.nodup_append] at hnd
      obtain ⟨⟨hndr, hndl, hdisj⟩, -, -⟩ := hnd
      have hfuel : 2 * (rs ++ ls ++ [i]).length + fuel =
          (2 * rs.length + (2 * ls.length + (fuel + 1))) + 1 := by
        simp only [List.length_append, List.length_singleton]
        omega
      have hright : ∀ j ∈ rs, rest[j]? = arena[j]? := fun j hj => heq j (by simp [hj])
      -- taking what is to the right leaves what is to the left in the arena
      have hleft : ∀ j ∈ ls, (Assembly.emptied rest rs)[j]? = arena[j]? := fun j hj => by
        rw [Assembly.getElem?_emptied fun hjr => hdisj j hjr j hj rfl]
        exact heq j (by simp [hj])
      have hhere : rest.getD i {} = ⟨op, left, right⟩ :=
        getD_eq ((heq i (by simp)).trans hi)
      rw [hfuel, Assembly.childTasks, List.singleton_append, Assembly.order, hhere]
      simp only [List.append_assoc]
      rw [ihr hndr hright, ihl hndl hleft, Assembly.order]
      simp [Assembly.emptied]

/-- A child that is a branch is among the indices it denotes. -/
theorem Denotes.mem_of_branch {i : Nat} (h : Denotes arena (some (.branch i)) n is) : i ∈ is := by
  cases h
  simp

theorem split_append {α : Type} {xs ys pre post : List α} {a : α}
    (h : xs ++ ys = pre ++ a :: post) :
    (∃ mid, xs = pre ++ a :: mid) ∨ ∃ mid, pre = xs ++ mid ∧ ys = mid ++ a :: post := by
  rcases List.append_eq_append_iff.mp h with ⟨mid, hpre, hys⟩ | ⟨mid, hxs, hpost⟩
  · exact Or.inr ⟨mid, hpre, hys⟩
  · cases mid with
    | nil => exact Or.inr ⟨[], by simpa using hxs.symm, hpost.symm⟩
    | cons b mid =>
        obtain ⟨rfl, -⟩ := List.cons.inj hpost
        exact Or.inl ⟨mid, hxs⟩

/-- Where a branch stands in the order, its children stand before it. -/
theorem Denotes.children_before (h : Denotes arena c n is) {pre post : List Nat} {i : Nat}
    (he : is = pre ++ i :: post) {j : Nat} (hj : j ∈ (arena.getD i {}).children) : j ∈ pre := by
  induction h generalizing pre post with
  | missing => simp at he
  | leaf => simp at he
  | @branch k op left right l r ls rs hk hl hr ihl ihr =>
      rcases split_append he with ⟨mid, hin⟩ | ⟨mid, rfl, hlast⟩
      · rcases split_append hin with ⟨mid, hrs⟩ | ⟨mid, rfl, hls⟩
        · exact ihr hrs
        · exact List.mem_append_right rs (ihl hls)
      · -- the branch itself, which comes last: its children are the last of either part
        obtain ⟨rfl, rfl⟩ : mid = [] ∧ i = k := by
          cases mid <;> simp_all
        rw [getD_eq hk, Branch.mem_children] at hj
        simp only [List.append_nil, List.mem_append]
        rcases hj with rfl | rfl
        · exact Or.inr hl.mem_of_branch
        · exact Or.inl hr.mem_of_branch

/-- **A child becomes the node it denotes**, nothing is missing on the way, and what lies at other
indices stays as it is. -/
theorem Denotes.assembled (h : Denotes arena c n is) (hnd : is.Nodup) {s : Assembly}
    (heq : ∀ i ∈ is, s.arena[i]? = arena[i]?) (hlt : ∀ i ∈ is, i < s.built.size) :
    ∃ s', is.foldlM Assembly.assemble? s = some s' ∧ Assembly.Ready s'.built c n ∧
      s'.built.size = s.built.size ∧
      ∀ j, j ∉ is → s'.built[j]? = s.built[j]? ∧ s'.arena[j]? = s.arena[j]? := by
  induction h generalizing s with
  | missing => exact ⟨s, rfl, .missing, rfl, fun _ _ => ⟨rfl, rfl⟩⟩
  | leaf => exact ⟨s, rfl, .leaf, rfl, fun _ _ => ⟨rfl, rfl⟩⟩
  | @branch i op left right l r ls rs hi hl hr ihl ihr =>
      simp only [List.nodup_append] at hnd
      obtain ⟨⟨hndr, hndl, hdisj⟩, -, hlast⟩ := hnd
      have hir : i ∉ rs := fun h => hlast i (by simp [h]) i (by simp) rfl
      have hil : i ∉ ls := fun h => hlast i (by simp [h]) i (by simp) rfl
      obtain ⟨u, hu, hur, husize, hukeep⟩ := ihr hndr (fun j hj => heq j (by simp [hj]))
        (fun j hj => hlt j (by simp [hj]))
      -- what is assembled to the right leaves what is to the left alone, and the other way round
      have heql : ∀ j ∈ ls, u.arena[j]? = arena[j]? := fun j hj => by
        rw [(hukeep j fun hjr => hdisj j hjr j hj rfl).2]
        exact heq j (by simp [hj])
      obtain ⟨v, hv, hvl, hvsize, hvkeep⟩ := ihl hndl heql fun j hj => by
        rw [husize]
        exact hlt j (by simp [hj])
      have hvr : Assembly.Ready v.built right r := hur.congr fun j hj =>
        (hvkeep j fun hjl => hdisj j (hj ▸ hr).mem_of_branch j hjl rfl).1
      have hbranch : v.arena.getD i {} = ⟨op, left, right⟩ := by
        refine getD_eq ?_
        rw [(hvkeep i hil).2, (hukeep i hir).2, heq i (by simp), hi]
      have hdistinct : ∀ j, right = some (.branch j) → left ≠ some (.branch j) := fun j hj hjl =>
        hdisj j (hj ▸ hr).mem_of_branch j (hjl ▸ hl).mem_of_branch rfl
      have hin : i < v.built.size := by
        rw [hvsize, husize]
        exact hlt i (by simp)
      obtain ⟨w, hw, hready, hwsize, hwkeep⟩ :=
        Assembly.Ready.assemble? hbranch hin hvl hvr hdistinct
      refine ⟨w, ?_, hready, hwsize.trans (hvsize.trans husize), fun j hj => ?_⟩
      · rw [List.foldlM_append, List.foldlM_append, hu]
        simp [hv, hw]
      · simp only [List.mem_append, List.mem_singleton, not_or] at hj
        obtain ⟨⟨hjr, hjl⟩, hji⟩ := hj
        have hkeep := hwkeep j hji (fun h => hjl (h ▸ hl).mem_of_branch)
          (fun h => hjr (h ▸ hr).mem_of_branch)
        exact ⟨hkeep.1.trans ((hvkeep j hjl).1.trans (hukeep j hjr).1),
          hkeep.2.trans ((hvkeep j hjl).2.trans (hukeep j hjr).2)⟩

end Denoted

/-! ## At the top -/

/-- The tasks assemble each branch of the arena once, in this order, and then there are none left. The
children of a branch come before it, and their nodes are there when it is assembled. -/
structure AssembledIn (arena : Array Branch) (is : List Nat) : Prop where
  /-- Twice the size of the arena is enough, and more makes no difference. -/
  ends : ∀ fuel, Assembly.order (2 * arena.size + fuel) [.visit 0] arena = (is, [])
  /-- What the tasks do is to assemble in this order. -/
  assembles : ∀ fuel built, Assembly.runTasks (2 * arena.size + fuel) [.visit 0] ⟨arena, built⟩ =
    is.foldl Assembly.assemble ⟨arena, built⟩
  /-- No branch is left out, and none comes twice. -/
  once : is.Perm (List.range arena.size)
  /-- The children of a branch come before it. -/
  childrenFirst : ∀ pre i post, is = pre ++ i :: post → ∀ j ∈ (arena.getD i {}).children, j ∈ pre
  /-- No node is missing where one is taken. -/
  nothingMissing :
    is.foldlM Assembly.assemble? ⟨arena, Array.replicate arena.size none⟩ =
      some (is.foldl Assembly.assemble ⟨arena, Array.replicate arena.size none⟩)

section Whole

variable {arena : Array Branch} {n : Node} {is : List Nat}

theorem Denotes.assembledIn (h : Denotes arena (some (.branch 0)) (some n) is)
    (hall : is.Perm (List.range arena.size)) : AssembledIn arena is := by
  have hnd : is.Nodup := hall.nodup_iff.mpr List.nodup_range
  have hlen : is.length = arena.size := hall.length_eq.trans List.length_range
  have hends : ∀ fuel, Assembly.order (2 * arena.size + fuel) [.visit 0] arena = (is, []) := by
    intro fuel
    have horder := h.order hnd (fun _ _ => rfl) fuel []
    rw [hlen] at horder
    cases fuel <;> simpa [Assembly.childTasks, Assembly.order] using horder
  refine ⟨hends, fun fuel built => ?_, hall, fun pre i post he j hj => h.children_before he hj, ?_⟩
  · rw [Assembly.runTasks_eq_foldl, hends]
  · obtain ⟨s, hs, -⟩ := h.assembled hnd (s := ⟨arena, Array.replicate arena.size none⟩)
      (fun _ _ => rfl) (fun i hi => by simpa using h.lt_size hi)
    rw [hs, Assembly.foldl_of_foldlM hs]

/-- The finished tree is the one that the branch at index 0 denotes. -/
theorem Denotes.finish {b : Builder} (h : Denotes b.arena (some (.branch 0)) (some n) is)
    (hall : is.Perm (List.range b.arena.size)) : b.finish = n := by
  obtain ⟨s, hs, hready, -⟩ := h.assembled (hall.nodup_iff.mpr List.nodup_range)
    (s := ⟨b.arena, Array.replicate b.arena.size none⟩)
    (fun _ _ => rfl) (fun i hi => by simpa using h.lt_size hi)
  have hruns := (h.assembledIn hall).assembles 0 (Array.replicate b.arena.size none)
  rw [Assembly.foldl_of_foldlM hs] at hruns
  cases hready with
  | branch hzero =>
      unfold Builder.finish
      dsimp only
      rw [← Nat.add_zero (2 * b.arena.size), hruns, Array.getD_eq_getD_getElem?, hzero]
      rfl

end Whole

/-- **Any run of operations on a builder is the same run on a zipper**: each further operation fails
on both or on neither, the finished tree is the zipper's, and its assembly takes every branch once,
children first, and finds each of them. -/
theorem finish_run (ops : List Operation) :
    (Builder.run ops).finish = (Zipper.run ops).tree ∧
      (∀ o, ((Builder.run ops).perform o).isOk = ((Zipper.run ops).perform o).isOk) ∧
      ∃ is, AssembledIn (Builder.run ops).arena is := by
  have h := represents_run ops
  obtain ⟨is, hd, hall⟩ := h.denotes
  refine ⟨hd.finish hall, fun o => (h.perform o).isOk_eq, is, hd.assembledIn hall⟩

end Criterion
