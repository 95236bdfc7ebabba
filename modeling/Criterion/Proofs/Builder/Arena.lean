import Criterion.Proofs.Builder.Zipper

/-!
# The arena is a tree

A builder's arena holds one tree and nothing else. `Denotes` says which node a child of a branch is,
and at which indices its branches lie; `Leads` says the same of the branches around the cursor. A
builder represents a zipper when the cursor's branch is its focus, the path leads through its frames,
and all these indices together are those of the arena, each of them once.

Each operation writes to the cursor's branch and to new places. What lies elsewhere keeps its meaning,
since no index occurs twice; this is why moving the content of a branch to a new index, which leaves
the old index referred to, does no harm.
-/

namespace Criterion

/-- `Denotes arena c n is`: the child `c` is the node `n`, whose branches lie at the indices `is`. A
branch comes behind its children here, and what is in its right child before what is in its left. -/
inductive Denotes (arena : Array Branch) : Option Child → Option Node → List Nat → Prop where
  | missing : Denotes arena none none []
  | leaf {literal : Operand} : Denotes arena (some (.leaf literal)) (some (.leaf literal)) []
  | branch {i : Nat} {op : Option Operator} {left right : Option Child} {l r : Option Node}
      {ls rs : List Nat} :
      arena[i]? = some ⟨op, left, right⟩ → Denotes arena left l ls → Denotes arena right r rs →
      Denotes arena (some (.branch i)) (some (.branch op l r)) (rs ++ ls ++ [i])

/-- `Leads arena i path frames is`: the path leads from the parent of branch `i` to the root, and what
is outside of branch `i` are the frames, whose branches lie at the indices `is`. -/
inductive Leads (arena : Array Branch) : Nat → List Nat → List Frame → List Nat → Prop where
  | root : Leads arena 0 [] [] []
  | first {i p : Nat} {path : List Nat} {op : Option Operator} {frames : List Frame}
      {is : List Nat} :
      arena[p]? = some ⟨op, some (.branch i), none⟩ → Leads arena p path frames is →
      Leads arena i (p :: path) (.first op :: frames) (p :: is)
  | second {i p : Nat} {path : List Nat} {op : Option Operator} {left : Option Child} {l : Node}
      {frames : List Frame} {ls is : List Nat} :
      arena[p]? = some ⟨op, left, some (.branch i)⟩ → Denotes arena left (some l) ls →
      Leads arena p path frames is →
      Leads arena i (p :: path) (.second op l :: frames) (p :: (ls ++ is))

/-- The builder's arena, cursor and path are the tree and the focus of the zipper. -/
inductive Represents (b : Builder) (z : Zipper) : Prop where
  | intro {left right : Option Child} {ls rs is : List Nat}
      (focus : b.arena[b.cursor]? = some ⟨z.op, left, right⟩)
      (hleft : Denotes b.arena left z.operands.left? ls)
      (hright : Denotes b.arena right z.operands.right? rs)
      (hpath : Leads b.arena b.cursor b.path z.frames is)
      (hall : (b.cursor :: (ls ++ rs ++ is)).Perm (List.range b.arena.size))

/-! ## What lies elsewhere keeps its meaning -/

section Elsewhere

variable {arena arena' : Array Branch}

/-- A child depends on the branches at its own indices alone. -/
theorem Denotes.congr {c : Option Child} {n : Option Node} {is : List Nat}
    (h : Denotes arena c n is) (heq : ∀ i ∈ is, arena'[i]? = arena[i]?) :
    Denotes arena' c n is := by
  induction h with
  | missing => exact .missing
  | leaf => exact .leaf
  | branch hi _ _ ihl ihr =>
      refine .branch ?_ (ihl fun j hj => heq j ?_) (ihr fun j hj => heq j ?_)
      · rw [heq _ (by simp), hi]
      · simp [hj]
      · simp [hj]

/-- What is around a branch depends on the branches at the indices of that alone. -/
theorem Leads.congr {i : Nat} {path : List Nat} {frames : List Frame} {is : List Nat}
    (h : Leads arena i path frames is) (heq : ∀ j ∈ is, arena'[j]? = arena[j]?) :
    Leads arena' i path frames is := by
  induction h with
  | root => exact .root
  | first hp _ ih =>
      refine .first ?_ (ih fun j hj => heq j ?_)
      · rw [heq _ (by simp), hp]
      · simp [hj]
  | second hp hl _ ih =>
      refine .second ?_ (hl.congr fun j hj => heq j ?_) (ih fun j hj => heq j ?_)
      · rw [heq _ (by simp), hp]
      · simp [hj]
      · simp [hj]

theorem Denotes.lt_size {c : Option Child} {n : Option Node} {is : List Nat}
    (h : Denotes arena c n is) {i : Nat} (hi : i ∈ is) : i < arena.size := by
  induction h with
  | missing => cases hi
  | leaf => cases hi
  | branch hj _ _ ihl ihr =>
      simp only [List.mem_append, List.mem_singleton] at hi
      rcases hi with (hi | hi) | rfl
      · exact ihr hi
      · exact ihl hi
      · exact (Array.getElem?_eq_some_iff.mp hj).1

theorem Leads.lt_size {i : Nat} {path : List Nat} {frames : List Frame} {is : List Nat}
    (h : Leads arena i path frames is) {j : Nat} (hj : j ∈ is) : j < arena.size := by
  induction h with
  | root => cases hj
  | first hp _ ih =>
      rcases List.mem_cons.mp hj with rfl | hj
      · exact (Array.getElem?_eq_some_iff.mp hp).1
      · exact ih hj
  | second hp hl _ ih =>
      simp only [List.mem_cons, List.mem_append] at hj
      rcases hj with rfl | hj | hj
      · exact (Array.getElem?_eq_some_iff.mp hp).1
      · exact hl.lt_size hj
      · exact ih hj

theorem Denotes.push {c : Option Child} {n : Option Node} {is : List Nat}
    (h : Denotes arena c n is) (branch : Branch) : Denotes (arena.push branch) c n is :=
  h.congr fun _ hi => by rw [Array.getElem?_push, if_neg (Nat.ne_of_lt (h.lt_size hi))]

theorem Leads.push {i : Nat} {path : List Nat} {frames : List Frame} {is : List Nat}
    (h : Leads arena i path frames is) (branch : Branch) :
    Leads (arena.push branch) i path frames is :=
  h.congr fun _ hj => by rw [Array.getElem?_push, if_neg (Nat.ne_of_lt (h.lt_size hj))]

theorem Denotes.write {c : Option Child} {n : Option Node} {is : List Nat}
    (h : Denotes arena c n is) {i : Nat} (hi : i ∉ is) (branch : Branch) :
    Denotes (arena.setIfInBounds i branch) c n is :=
  h.congr fun _ hj => Array.getElem?_setIfInBounds_ne (by rintro rfl; exact hi hj)

theorem Leads.write {j : Nat} {path : List Nat} {frames : List Frame} {is : List Nat}
    (h : Leads arena j path frames is) {i : Nat} (hi : i ∉ is) (branch : Branch) :
    Leads (arena.setIfInBounds i branch) j path frames is :=
  h.congr fun _ hj => Array.getElem?_setIfInBounds_ne (by rintro rfl; exact hi hj)

theorem Denotes.of_none {c : Option Child} {is : List Nat} (h : Denotes arena c none is) :
    c = none ∧ is = [] := by
  cases h; exact ⟨rfl, rfl⟩

theorem Denotes.of_some {c : Option Child} {n : Node} {is : List Nat}
    (h : Denotes arena c (some n) is) : ∃ child, c = some child := by
  cases h with
  | leaf => exact ⟨_, rfl⟩
  | branch => exact ⟨_, rfl⟩

end Elsewhere

/-! ## One operation -/

/-- Both fail alike, or both succeed and what comes out corresponds. -/
def Agree : Except ConditionError Builder → Except ConditionError Zipper → Prop
  | .ok b, .ok z => Represents b z
  | .error e, .error e' => e = e'
  | _, _ => False

/-- There are two ways to agree, and what one side does tells the way. -/
theorem Agree.cases {x : Except ConditionError Builder} {y : Except ConditionError Zipper}
    (h : Agree x y) : (∃ e, x = .error e ∧ y = .error e) ∨
      ∃ b z, x = .ok b ∧ y = .ok z ∧ Represents b z := by
  cases x with
  | error e =>
      cases y with
      | error e' => exact .inl ⟨e, rfl, congrArg Except.error h.symm⟩
      | ok z => exact h.elim
  | ok b =>
      cases y with
      | error e => exact h.elim
      | ok z => exact .inr ⟨b, z, rfl, rfl, h⟩

theorem Agree.isOk_eq {x : Except ConditionError Builder} {y : Except ConditionError Zipper}
    (h : Agree x y) : x.isOk = y.isOk := by
  rcases h.cases with ⟨e, rfl, rfl⟩ | ⟨b, z, rfl, rfl, -⟩
  · rfl
  · rfl

/-- A new builder is the tree of one empty branch. -/
theorem represents_new : Represents Builder.new {} :=
  ⟨rfl, .missing, .missing, .root, .refl _⟩

theorem focus_eq {b : Builder} {branch : Branch} (h : b.arena[b.cursor]? = some branch) :
    b.focus = branch := by
  unfold Builder.focus
  rw [Array.getD_eq_getD_getElem?, h]
  rfl

/-- Another branch may be put in the cursor's place if its children lie at the same indices. -/
theorem represents_setFocus {b : Builder} {op : Option Operator} (operands : Operands)
    {left right : Option Child} {frames : List Frame} {ls rs is : List Nat}
    (hl : Denotes b.arena left operands.left? ls) (hr : Denotes b.arena right operands.right? rs)
    (hp : Leads b.arena b.cursor b.path frames is)
    (ha : (b.cursor :: (ls ++ rs ++ is)).Perm (List.range b.arena.size)) :
    Represents (b.setFocus ⟨op, left, right⟩) ⟨op, operands, frames⟩ := by
  -- no index occurs twice, so that nothing else is written over
  have hnd : b.cursor ∉ ls ++ rs ++ is := (List.nodup_cons.mp (ha.nodup_iff.mpr List.nodup_range)).1
  have hlt : b.cursor < b.arena.size := List.mem_range.mp (ha.mem_iff.mp List.mem_cons_self)
  simp only [List.mem_append, not_or] at hnd
  refine ⟨?_, hl.write hnd.1.1 _, hr.write hnd.1.2 _, hp.write hnd.2 _, ?_⟩
  · exact Array.getElem?_setIfInBounds_self_of_lt hlt
  · simpa [Builder.setFocus] using ha

/-- An arena with one branch more has one index more, the last one. -/
theorem perm_range_succ {n : Nat} {is : List Nat} (h : is.Perm (List.range n)) :
    (n :: is).Perm (List.range (n + 1)) := by
  rw [List.range_succ]
  exact (h.cons n).trans (List.perm_append_singleton n _).symm

/-- The cursor may go down to an empty branch that becomes the only child of the branch it is on. -/
theorem represents_descend_first {b : Builder} {fresh : Nat} {op : Option Operator}
    {frames : List Frame} {is : List Nat} (hf : b.arena[fresh]? = some {})
    (hp : Leads b.arena b.cursor b.path frames is)
    (ha : (fresh :: b.cursor :: is).Perm (List.range b.arena.size)) :
    Represents ((b.setFocus ⟨op, some (.branch fresh), none⟩).descend fresh)
      { frames := .first op :: frames } := by
  have hnd := ha.nodup_iff.mpr List.nodup_range
  simp only [List.nodup_cons, List.mem_cons, not_or] at hnd
  have hlt : b.cursor < b.arena.size := List.mem_range.mp (ha.mem_iff.mp (by simp))
  refine ⟨?_, .missing, .missing, .first ?_ (hp.write hnd.2.1 _), ?_⟩
  · exact (Array.getElem?_setIfInBounds_ne (Ne.symm hnd.1.1)).trans hf
  · exact Array.getElem?_setIfInBounds_self_of_lt hlt
  · simpa [Builder.descend, Builder.setFocus] using ha

/-- The cursor may go down to an empty branch that becomes the second child of the branch it is on. -/
theorem represents_descend_second {b : Builder} {fresh : Nat} {op : Option Operator}
    {left : Option Child} {l : Node} {frames : List Frame} {ls is : List Nat}
    (hf : b.arena[fresh]? = some {}) (hl : Denotes b.arena left (some l) ls)
    (hp : Leads b.arena b.cursor b.path frames is)
    (ha : (fresh :: b.cursor :: (ls ++ is)).Perm (List.range b.arena.size)) :
    Represents ((b.setFocus ⟨op, left, some (.branch fresh)⟩).descend fresh)
      { frames := .second op l :: frames } := by
  have hnd := ha.nodup_iff.mpr List.nodup_range
  simp only [List.nodup_cons, List.mem_cons, List.mem_append, not_or] at hnd
  have hlt : b.cursor < b.arena.size := List.mem_range.mp (ha.mem_iff.mp (by simp))
  refine ⟨?_, .missing, .missing, .second ?_ (hl.write hnd.2.1.1 _) (hp.write hnd.2.1.2 _), ?_⟩
  · exact (Array.getElem?_setIfInBounds_ne (Ne.symm hnd.1.1)).trans hf
  · exact Array.getElem?_setIfInBounds_self_of_lt hlt
  · simpa [Builder.descend, Builder.setFocus] using ha

namespace Represents

variable {b : Builder} {z : Zipper}

/-- An operand fills the same place on both sides, or there is none on both. -/
theorem push (h : Represents b z) (literal : Operand) :
    Agree (b.pushValue literal) (z.push literal) := by
  obtain ⟨hf, hl, hr, hp, ha⟩ := h
  unfold Builder.pushValue Builder.attach Zipper.push
  rw [focus_eq hf]
  cases ho : z.operands with
  | empty =>
      rw [ho] at hl hr
      obtain ⟨rfl, rfl⟩ := hl.of_none
      exact represents_setFocus (.one _) .leaf hr hp ha
  | one l =>
      rw [ho] at hl hr
      obtain ⟨c, rfl⟩ := hl.of_some
      obtain ⟨rfl, rfl⟩ := hr.of_none
      exact represents_setFocus (.two _ _) hl .leaf hp ha
  | two l r =>
      rw [ho] at hl hr
      obtain ⟨c, rfl⟩ := hl.of_some
      obtain ⟨d, rfl⟩ := hr.of_some
      rfl

theorem openGroup (h : Represents b z) : Agree b.openGroup z.openGroup := by
  obtain ⟨hf, hl, hr, hp, ha⟩ := h
  have hlt : b.cursor < b.arena.size := (Array.getElem?_eq_some_iff.mp hf).1
  have hf' : (b.arena.push {})[b.cursor]? = b.arena[b.cursor]? := by
    rw [Array.getElem?_push, if_neg (Nat.ne_of_lt hlt)]
  unfold Builder.openGroup Builder.attach Zipper.openGroup
  -- the full places are looked for twice: before the new branch is allocated, and after
  rw [focus_eq hf, focus_eq (b := b.alloc {}) (hf'.trans hf)]
  have ha' := perm_range_succ ha
  rw [← Array.size_push {}] at ha'
  cases ho : z.operands with
  | empty =>
      rw [ho] at hl hr
      obtain ⟨rfl, rfl⟩ := hl.of_none
      obtain ⟨rfl, rfl⟩ := hr.of_none
      exact represents_descend_first (b := b.alloc {}) Array.getElem?_push_size (hp.push _) ha'
  | one l =>
      rw [ho] at hl hr
      obtain ⟨c, rfl⟩ := hl.of_some
      obtain ⟨rfl, rfl⟩ := hr.of_none
      rw [List.append_nil] at ha'
      exact represents_descend_second (b := b.alloc {}) Array.getElem?_push_size (hl.push _)
        (hp.push _) ha'
  | two l r =>
      rw [ho] at hl hr
      obtain ⟨c, rfl⟩ := hl.of_some
      obtain ⟨d, rfl⟩ := hr.of_some
      rfl

theorem closeGroup (h : Represents b z) : Represents b.closeGroup z.closeGroup := by
  obtain ⟨arena, cursor, path⟩ := b
  obtain ⟨op, operands, frames⟩ := z
  obtain ⟨hf, hl, hr, hp, ha⟩ := h
  -- the focus turns into an operand of its parent, and takes its indices along
  have hd := Denotes.branch hf hl hr
  cases hp with
  -- at the root nothing moves
  | root => exact ⟨hf, hl, hr, .root, ha⟩
  | first hp hup =>
      -- the same indices as before, in another order
      refine ⟨hp, hd, .missing, hup, .trans (List.perm_iff_count.mpr fun i => ?_) ha⟩
      simp only [Builder.closeGroup, List.count_cons, List.count_append, List.count_nil]
      omega
  | second hp hl' hup =>
      refine ⟨hp, hl', hd, hup, .trans (List.perm_iff_count.mpr fun i => ?_) ha⟩
      simp only [Builder.closeGroup, List.count_cons, List.count_append, List.count_nil]
      omega

/-- The content of the focus is the left child afterwards, wherever it lies. -/
theorem shift (h : Represents b z) (op : Operator) : Represents (b.shift op) (z.shift op) := by
  obtain ⟨hf, hl, hr, hp, ha⟩ := h
  unfold Builder.shift Zipper.shift
  rw [focus_eq hf]
  -- what the focus held is the same node at the index it is moved to
  have hd : Denotes _ _ (some z.node) _ :=
    .branch Array.getElem?_push_size (hl.push _) (hr.push _)
  refine represents_descend_second (b := (b.alloc _).alloc {}) ?_ (hd.push {})
    ((hp.push _).push _) ?_
  · rw [← Array.size_push ⟨z.op, _, _⟩]
    exact Array.getElem?_push_size
  · have ha' := perm_range_succ (perm_range_succ ha)
    simp only [Builder.alloc, Array.size_push]
    refine .trans (List.perm_iff_count.mpr fun i => ?_) ha'
    simp only [List.count_cons, List.count_append, List.count_nil]
    omega

theorem setOperator (h : Represents b z) (op : Operator) :
    Represents (b.setOperator op) (z.setOperator op) := by
  obtain ⟨hf, hl, hr, hp, ha⟩ := h
  unfold Builder.setOperator
  rw [focus_eq hf]
  exact represents_setFocus _ hl hr hp ha

/-- **Each operation fails on both sides, or succeeds on both and keeps the correspondence.** -/
theorem perform (h : Represents b z) (o : Operation) : Agree (b.perform o) (z.perform o) := by
  cases o with
  | push literal => exact h.push literal
  | openGroup => exact h.openGroup
  | closeGroup => exact h.closeGroup
  | shift op => exact h.shift op
  | setOperator op => exact h.setOperator op

/-- A failed operation changes nothing on either side. -/
theorem step (h : Represents b z) (o : Operation) : Represents (b.step o) (z.step o) := by
  unfold Builder.step Zipper.step
  rcases (h.perform o).cases with ⟨e, hb, hz⟩ | ⟨b', z', hb, hz, h'⟩
  · rw [hb, hz]
    exact h
  · rw [hb, hz]
    exact h'

end Represents

/-! ## Any number of operations -/

theorem represents_foldl {b : Builder} {z : Zipper} (h : Represents b z) (ops : List Operation) :
    Represents (ops.foldl Builder.step b) (ops.foldl Zipper.step z) := by
  induction ops generalizing b z with
  | nil => exact h
  | cons o ops ih => exact ih (h.step o)

/-- **The arena of every run is the tree of the zipper.** -/
theorem represents_run (ops : List Operation) : Represents (Builder.run ops) (Zipper.run ops) :=
  represents_foldl represents_new ops

/-- What is inside the branch and what is outside of it make up the tree. -/
theorem Leads.denotes {arena : Array Branch} {i : Nat} {path : List Nat} {frames : List Frame}
    {is : List Nat} (h : Leads arena i path frames is) {n : Node} {js : List Nat}
    (hd : Denotes arena (some (.branch i)) (some n) js) :
    ∃ ks, Denotes arena (some (.branch 0)) (some (enclose frames n)) ks ∧ ks.Perm (js ++ is) := by
  -- from the inside out: each branch on the path denotes the node around the one before
  induction h generalizing n js with
  | root => exact ⟨js, hd, by rw [List.append_nil]⟩
  | first hp _ ih =>
      obtain ⟨ks, hks, hperm⟩ := ih (.branch hp hd .missing)
      refine ⟨ks, hks, hperm.trans (List.perm_iff_count.mpr fun k => ?_)⟩
      simp only [List.count_cons, List.count_append, List.count_nil]
      omega
  | second hp hl _ ih =>
      obtain ⟨ks, hks, hperm⟩ := ih (.branch hp hl hd)
      refine ⟨ks, hks, hperm.trans (List.perm_iff_count.mpr fun k => ?_)⟩
      simp only [List.count_cons, List.count_append, List.count_nil]
      omega

/-- The branch at index 0 is the whole tree, and there is nothing else in the arena. -/
theorem Represents.denotes {b : Builder} {z : Zipper} (h : Represents b z) :
    ∃ is, Denotes b.arena (some (.branch 0)) (some z.tree) is ∧
      is.Perm (List.range b.arena.size) := by
  obtain ⟨hf, hl, hr, hp, ha⟩ := h
  obtain ⟨ks, hks, hperm⟩ := hp.denotes (.branch hf hl hr)
  refine ⟨ks, hks, (hperm.trans (List.perm_iff_count.mpr fun k => ?_)).trans ha⟩
  simp only [List.count_cons, List.count_append, List.count_nil]
  omega

end Criterion
