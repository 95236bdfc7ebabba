import Criterion.Proofs.Except
import Criterion.Proofs.Parsing

/-!
# Closing parentheses that close nothing

A closing parenthesis closes nothing where no group is open before it, and should make no difference
there. What decides is whether the focus is the root, and a logical operator moves the focus away from
the root just as an opening parenthesis does. So the parenthesis makes no difference before the first
logical operator of a condition. After one it moves the focus up. The tree stays what it was, but what
comes next goes to another place in it.
-/

namespace Criterion

/-! ## Matching parentheses -/

namespace Token

/-- Is this a logical operator? -/
def isLogical : Token → Bool
  | operator op => op.isLogical
  | _ => false

/-- How many groups are open after a token that comes where `n` groups are open. -/
def opened (n : Nat) : Token → Nat
  | openGroup => n + 1
  | closeGroup => n - 1
  | _ => n

/-- How many branches are around the focus after a token that comes where `k` branches are. -/
def deepened (k : Nat) : Token → Nat
  | openGroup => k + 1
  | closeGroup => k - 1
  | operator op => if op.isLogical then k + 1 else k
  | word _ => k

end Token

/-- The tokens without the closing parentheses that close nothing, where `n` groups are open. -/
def withoutUnmatched : (n : Nat) → List Token → List Token
  | _, [] => []
  | n, t :: ts =>
    if t = .closeGroup ∧ n = 0 then withoutUnmatched n ts else t :: withoutUnmatched (t.opened n) ts

/-- No closing parenthesis that closes nothing comes after a logical operator. -/
def Harmless : (n : Nat) → List Token → Prop
  | _, [] => True
  | n, t :: ts =>
    if t.isLogical then withoutUnmatched n ts = ts else Harmless (t.opened n) ts

instance decidableHarmless : (n : Nat) → (ts : List Token) → Decidable (Harmless n ts)
  | _, [] => .isTrue trivial
  | n, t :: ts =>
    if h : t.isLogical then
      decidable_of_iff (withoutUnmatched n ts = ts) (by rw [Harmless, if_pos h])
    else
      have := decidableHarmless (t.opened n) ts
      decidable_of_iff (Harmless (t.opened n) ts) (by rw [Harmless, if_neg h])

theorem withoutUnmatched_closeGroup (ts : List Token) :
    withoutUnmatched 0 (.closeGroup :: ts) = withoutUnmatched 0 ts := by
  rw [withoutUnmatched, if_pos ⟨rfl, rfl⟩]

theorem withoutUnmatched_cons {n : Nat} {t : Token} (h : ¬ (t = .closeGroup ∧ n = 0))
    (ts : List Token) : withoutUnmatched n (t :: ts) = t :: withoutUnmatched (t.opened n) ts := by
  rw [withoutUnmatched, if_neg h]

/-- Which groups are open behind some tokens is all that the tokens after them depend on. -/
theorem withoutUnmatched_append (n : Nat) (ts rest : List Token) :
    withoutUnmatched n (ts ++ rest) =
      withoutUnmatched n ts ++ withoutUnmatched (ts.foldl Token.opened n) rest := by
  induction ts generalizing n with
  | nil => rfl
  | cons t ts ih =>
      by_cases h : t = .closeGroup ∧ n = 0
      · -- dropped, and no group is open after it either
        obtain ⟨rfl, rfl⟩ := h
        rw [List.cons_append, withoutUnmatched_closeGroup, withoutUnmatched_closeGroup, ih]
        rfl
      · rw [List.cons_append, withoutUnmatched_cons h, withoutUnmatched_cons h, ih]
        rfl

theorem withoutUnmatched_eq_self {ts : List Token} (h : .closeGroup ∉ ts) (n : Nat) :
    withoutUnmatched n ts = ts := by
  induction ts generalizing n with
  | nil => rfl
  | cons t ts ih =>
      rw [List.mem_cons, not_or] at h
      rw [withoutUnmatched_cons fun hc => h.1 hc.1.symm, ih h.2]

theorem mem_of_mem_withoutUnmatched {t : Token} {n : Nat} {ts : List Token}
    (h : t ∈ withoutUnmatched n ts) : t ∈ ts := by
  induction ts generalizing n with
  | nil => exact h
  | cons s ts ih =>
      by_cases hs : s = .closeGroup ∧ n = 0
      · rw [withoutUnmatched, if_pos hs] at h
        exact List.mem_cons_of_mem _ (ih h)
      · rw [withoutUnmatched_cons hs] at h
        rcases List.mem_cons.mp h with rfl | h
        · exact List.mem_cons_self
        · exact List.mem_cons_of_mem _ (ih h)

/-! ## How far down the focus is -/

/-- How many branches are around the focus after tokens that come where `k` branches are. -/
def depth (k : Nat) (ts : List Token) : Nat := ts.foldl Token.deepened k

/-- A token moves the focus down or up as it says, unless it is refused. -/
theorem Zipper.length_feed {z z' : Zipper} {t : Token} (h : z.feed t = .ok z') :
    z'.frames.length = t.deepened z.frames.length := by
  cases t with
  | openGroup =>
      change z.openGroup = .ok z' at h
      unfold Zipper.openGroup at h
      split at h <;> cases h <;> rfl
  | closeGroup =>
      obtain rfl : z.closeGroup = z' := Except.ok.inj h
      rw [closeGroup_frames, List.length_tail]
      rfl
  | operator op =>
      cases hop : op.isLogical with
      | true =>
          rw [feed_logical hop] at h
          obtain rfl : z.shift op = z' := Except.ok.inj h
          simp [shift, Token.deepened, hop]
      | false =>
          rw [feed_comparison hop] at h
          obtain rfl : z.setOperator op = z' := Except.ok.inj h
          simp [setOperator, Token.deepened, hop]
  | word w =>
      change z.push (.ofWord w) = .ok z' at h
      obtain ⟨operands, -, hz'⟩ := bind_eq_ok_iff.mp h
      cases hz'
      rfl

theorem Zipper.length_foldlM {ts : List Token} {z z' : Zipper}
    (h : ts.foldlM Zipper.feed z = .ok z') : z'.frames.length = depth z.frames.length ts := by
  induction ts generalizing z with
  | nil => cases h; rfl
  | cons t ts ih =>
      obtain ⟨y, hy, hrest⟩ := foldlM_cons_eq_ok_iff.mp h
      rw [ih hrest, length_feed hy]
      rfl

/-- There are never more open groups than branches around the focus. -/
theorem Token.opened_le_deepened {n a : Nat} (hn : n ≤ a) (t : Token) :
    t.opened n ≤ t.deepened a := by
  cases t with
  | operator op => simp only [opened, deepened]; split <;> omega
  | _ => simp only [opened, deepened]; omega

theorem Token.opened_lt_deepened {n a : Nat} (hn : n < a) {t : Token}
    (ht : ¬ (t = .closeGroup ∧ n = 0)) : t.opened n < t.deepened a := by
  cases t with
  | operator op => simp only [opened, deepened]; split <;> omega
  | closeGroup =>
      -- the group that it closes made a branch around the focus
      have hpos : n ≠ 0 := fun hz => ht ⟨rfl, hz⟩
      simp only [opened, deepened]
      omega
  | _ => simp only [opened, deepened]; omega

theorem Token.deepened_lt_deepened {n a b : Nat} (hn : n ≤ a) (hab : a < b) {t : Token}
    (ht : ¬ (t = .closeGroup ∧ n = 0)) : t.deepened a < t.deepened b := by
  cases t with
  | operator op => simp only [deepened]; split <;> omega
  | closeGroup =>
      have hpos : n ≠ 0 := fun hz => ht ⟨rfl, hz⟩
      simp only [deepened]
      omega
  | _ => simp only [deepened]; omega

/-- Where fewer branches are around the focus, it stays so. -/
theorem depth_lt {n a b : Nat} (hn : n ≤ a) (hab : a < b) (ts : List Token) :
    depth a ts < depth b (withoutUnmatched n ts) := by
  -- what is dropped can only move the upper focus further up; all other tokens move both alike
  induction ts generalizing n a b with
  | nil => exact hab
  | cons t ts ih =>
      by_cases ht : t = .closeGroup ∧ n = 0
      · obtain ⟨rfl, rfl⟩ := ht
        rw [withoutUnmatched_closeGroup]
        exact ih (Nat.zero_le _) (Nat.lt_of_le_of_lt (Nat.sub_le a 1) hab)
      · rw [withoutUnmatched_cons ht]
        exact ih (t.opened_le_deepened hn) (Token.deepened_lt_deepened hn hab ht)

/-- With more branches around the focus than groups are open, a parenthesis that closes nothing
moves it up. -/
theorem depth_lt_of_unmatched {n a : Nat} (hn : n < a) {ts : List Token}
    (h : withoutUnmatched n ts ≠ ts) : depth a ts < depth a (withoutUnmatched n ts) := by
  induction ts generalizing n a with
  | nil => exact absurd rfl h
  | cons t ts ih =>
      by_cases ht : t = .closeGroup ∧ n = 0
      · -- this one moves the focus up on one side only, and from there on it stays higher
        obtain ⟨rfl, rfl⟩ := ht
        rw [withoutUnmatched_closeGroup]
        exact depth_lt (Nat.zero_le _) (Nat.sub_lt hn Nat.one_pos) ts
      · rw [withoutUnmatched_cons ht] at h ⊢
        exact ih (Token.opened_lt_deepened hn ht) fun he => h (by rw [he])

/-- **A parenthesis that should be ignored and is not leaves the focus higher for good.** -/
theorem depth_lt_of_not_harmless {n a : Nat} (hn : n ≤ a) {ts : List Token}
    (h : ¬ Harmless n ts) : depth a ts < depth a (withoutUnmatched n ts) := by
  induction ts generalizing n a with
  | nil => exact absurd trivial h
  | cons t ts ih =>
      by_cases hl : t.isLogical
      · rw [Harmless, if_pos hl] at h
        cases t with
        | operator op =>
            -- the operator takes the focus below the branches that groups have made
            have hlt : n < Token.deepened a (.operator op) := by
              have hop : op.isLogical = true := hl
              rw [Token.deepened, if_pos hop]
              omega
            rw [withoutUnmatched_cons fun hc => by cases hc.1]
            exact depth_lt_of_unmatched hlt h
        | _ => cases hl
      · rw [Harmless, if_neg hl] at h
        by_cases ht : t = .closeGroup ∧ n = 0
        · obtain ⟨rfl, rfl⟩ := ht
          rw [withoutUnmatched_closeGroup]
          -- at the root it is ignored indeed
          cases a with
          | zero => exact ih hn h
          | succ a => exact depth_lt (Nat.zero_le _) (Nat.lt_succ_self a) ts
        · rw [withoutUnmatched_cons ht]
          exact ih (t.opened_le_deepened hn) h

/-! ## Where the focus is shows in the tree -/

namespace Node

/-- The operator of a branch. -/
def operator? : Node → Option Operator
  | branch op _ _ => op
  | leaf _ => none

/-- The last operand of a branch. -/
def lastOperand : Node → Node
  | branch _ _ (some r) => r
  | branch _ (some l) none => l
  | n => n

/-- What going to the last operand a number of times leads to. -/
def spine (n : Node) : Nat → Node
  | 0 => n
  | k + 1 => (spine n k).lastOperand

end Node

theorem Frame.lastOperand_around (f : Frame) (n : Node) : (f.around n).lastOperand = n := by
  cases f <;> rfl

theorem Frame.operator?_around (f : Frame) (n : Node) : (f.around n).operator? = f.op := by
  cases f <;> rfl

/-- The focus is found by going to the last operand, once for each branch around it. -/
theorem spine_enclose (frames : List Frame) (n : Node) :
    (enclose frames n).spine frames.length = n := by
  induction frames generalizing n with
  | nil => rfl
  | cons f frames ih =>
      rw [List.length_cons, enclose_cons, Node.spine, ih, f.lastOperand_around]

/-- The operator of a branch around the focus does not depend on the focus. -/
theorem operator?_spine_enclose {k : Nat} {frames : List Frame} (hk : k < frames.length)
    (m n : Node) : ((enclose frames m).spine k).operator? =
      ((enclose frames n).spine k).operator? := by
  induction frames generalizing m n with
  | nil => cases hk
  | cons f frames ih =>
      rw [enclose_cons, enclose_cons]
      by_cases h : k = frames.length
      · -- just as deep as the branches outside: this is the frame itself
        rw [h, spine_enclose, spine_enclose, f.operator?_around, f.operator?_around]
      · exact ih (by simp at hk; omega) (f.around m) (f.around n)

/-- Two focuses at different depths of one tree are told apart by the next comparison operator. -/
theorem Zipper.exists_setOperator_ne {y z : Zipper} (hlt : y.frames.length < z.frames.length)
    (htree : y.tree = z.tree) :
    ∃ op : Operator, op.isLogical = false ∧ (y.setOperator op).tree ≠ (z.setOperator op).tree := by
  obtain ⟨op, hop, hne⟩ : ∃ op : Operator, op.isLogical = false ∧ y.op ≠ some op := by
    by_cases h : y.op = some .eq
    · exact ⟨.ne, rfl, by rw [h]; decide⟩
    · exact ⟨.eq, rfl, h⟩
  refine ⟨op, hop, fun hsame => hne ?_⟩
  -- at the depth of the upper focus, an operator set at the lower one does not show
  calc y.op = (y.tree.spine y.frames.length).operator? := by
        rw [tree, spine_enclose]
        rfl
    _ = (z.tree.spine y.frames.length).operator? := by rw [htree]
    _ = ((z.setOperator op).tree.spine y.frames.length).operator? :=
        operator?_spine_enclose hlt _ _
    _ = ((y.setOperator op).tree.spine y.frames.length).operator? := by rw [hsame]
    _ = some op := by
        rw [tree, setOperator, spine_enclose]
        rfl

/-! ## Reading with and without them -/

/-- Closing parentheses are never refused, and leave the tree as it is. -/
theorem Zipper.foldlM_closings {closings : List Token} (h : ∀ t ∈ closings, t = .closeGroup)
    (z : Zipper) : ∃ y, closings.foldlM feed z = .ok y ∧ y.tree = z.tree := by
  induction closings generalizing z with
  | nil => exact ⟨z, rfl, rfl⟩
  | cons t closings ih =>
      obtain rfl : t = .closeGroup := h t List.mem_cons_self
      obtain ⟨y, hy, htree⟩ := ih (fun s hs => h s (List.mem_cons_of_mem _ hs)) z.closeGroup
      exact ⟨y, hy, htree.trans z.tree_closeGroup⟩

/-- Closing parentheses at the end of a condition make no difference, whether they close something or
not. -/
theorem ofTokens_append_closings {closings : List Token} (h : ∀ t ∈ closings, t = .closeGroup)
    (ts : List Token) : Condition.ofTokens (ts ++ closings) = Condition.ofTokens ts := by
  cases hz : Zipper.read ts with
  | error e =>
      have he : Condition.ofTokens ts = .error e := by rw [ofTokens_eq, hz]; rfl
      rw [ofTokens_append_of_error he, he]
  | ok z =>
      obtain ⟨y, hy, htree⟩ := Zipper.foldlM_closings h z
      rw [ofTokens_append_of_ok hz, hy, ofTokens_eq, hz]
      exact congrArg (fun n => Except.ok (Condition.mk n)) htree

theorem Token.deepened_eq_opened {t : Token} (h : t.isLogical = false) (n : Nat) :
    t.deepened n = t.opened n := by
  cases t with
  | operator op =>
      have hop : op.isLogical = false := h
      simp [deepened, opened, hop]
  | _ => rfl

/-- As long as there was no logical operator, the branches around the focus are the open groups. -/
theorem foldlM_withoutUnmatched {z : Zipper} {ts : List Token} (h : Harmless z.frames.length ts) :
    (withoutUnmatched z.frames.length ts).foldlM Zipper.feed z = ts.foldlM Zipper.feed z := by
  induction ts generalizing z with
  | nil => rfl
  | cons t ts ih =>
      rw [Harmless] at h
      by_cases hl : t.isLogical
      · rw [if_pos hl] at h
        cases t with
        | operator op =>
            have hself : withoutUnmatched z.frames.length (.operator op :: ts) =
                .operator op :: ts := by
              rw [withoutUnmatched_cons fun hc => by cases hc.1]
              exact congrArg _ h
            rw [hself]
        | _ => cases hl
      · rw [if_neg hl] at h
        by_cases ht : t = .closeGroup ∧ z.frames.length = 0
        · -- no group is open and so there is no branch around the focus: it is the root
          obtain ⟨rfl, hzero⟩ := ht
          have hclose : z.feed .closeGroup = .ok z := by
            have hnil : z.frames = [] := List.length_eq_zero_iff.mp hzero
            unfold Zipper.feed Zipper.perform Token.operation Zipper.closeGroup
            rw [hnil]
          have htail : Harmless z.frames.length ts := by
            rw [hzero] at h ⊢
            exact h
          rw [withoutUnmatched, if_pos ⟨rfl, hzero⟩, ih htail, List.foldlM_cons, hclose]
          rfl
        · rw [withoutUnmatched_cons ht, List.foldlM_cons, List.foldlM_cons]
          cases hz : z.feed t with
          | error e => rfl
          | ok y =>
              have hlen : y.frames.length = t.opened z.frames.length := by
                rw [Zipper.length_feed hz, Token.deepened_eq_opened (by simpa using hl)]
              rw [← hlen] at h ⊢
              exact ih h

/-- After a closing parenthesis that was to be ignored and was not, the condition can go on in a way
that shows it. -/
theorem exists_rest_ne {ts : List Token} {y z : Zipper} (hy : Zipper.read ts = .ok y)
    (hz : Zipper.read (withoutUnmatched 0 ts) = .ok z) (h : ¬ Harmless 0 ts) :
    ∃ rest, Token.closeGroup ∉ rest ∧
      Condition.ofTokens (ts ++ rest) ≠ Condition.ofTokens (withoutUnmatched 0 ts ++ rest) := by
  have hlt : y.frames.length < z.frames.length := by
    rw [Zipper.length_foldlM hy, Zipper.length_foldlM hz]
    exact depth_lt_of_not_harmless (Nat.le_refl _) h
  by_cases htree : y.tree = z.tree
  · -- the same tree with the focus at two depths: a comparison operator shows where it is
    obtain ⟨op, hop, hne⟩ := Zipper.exists_setOperator_ne hlt htree
    refine ⟨[.operator op], by simp, fun hsame => hne ?_⟩
    rw [ofTokens_append_of_ok hy, ofTokens_append_of_ok hz, List.foldlM_cons, List.foldlM_cons,
      Zipper.feed_comparison hop, Zipper.feed_comparison hop] at hsame
    exact congrArg Condition.root (Except.ok.inj hsame)
  · -- the trees differ as they stand
    refine ⟨[], List.not_mem_nil, fun hsame => htree ?_⟩
    rw [ofTokens_append_of_ok hy, ofTokens_append_of_ok hz] at hsame
    exact congrArg Condition.root (Except.ok.inj hsame)

/-- **When a closing parenthesis that closes nothing makes no difference**: if there is none after a
logical operator, or nothing but closing parentheses comes after. If there is one, then either the
tokens are refused with it and without it, or the condition can go on in a way that shows it. -/
theorem ignores_unmatched_iff (tokens : List Token) :
    (Harmless 0 tokens → ∀ text closings, (∀ t ∈ closings, t = .closeGroup) →
        tokenize text = tokens ++ closings →
          Condition.parse text = Condition.ofTokens (withoutUnmatched 0 (tokenize text))) ∧
      ((∀ rest, .closeGroup ∉ rest →
          Condition.ofTokens (tokens ++ rest) =
            Condition.ofTokens (withoutUnmatched 0 (tokens ++ rest))) ↔
        Harmless 0 tokens ∨ ∃ e, Condition.ofTokens tokens = .error e ∧
          Condition.ofTokens (withoutUnmatched 0 tokens) = .error e) := by
  have hread : Harmless 0 tokens →
      Zipper.read tokens = Zipper.read (withoutUnmatched 0 tokens) := fun h =>
    (foldlM_withoutUnmatched (z := {}) h).symm
  have hrest : ∀ rest, Token.closeGroup ∉ rest →
      withoutUnmatched 0 (tokens ++ rest) = withoutUnmatched 0 tokens ++ rest := fun rest hr => by
    rw [withoutUnmatched_append, withoutUnmatched_eq_self hr]
  refine ⟨fun h text closings hc htext => ?_, fun h => ?_, ?_⟩
  · -- some of the parentheses at the end are dropped and some are not; neither shows
    have hkept : ∀ t ∈ withoutUnmatched (tokens.foldl Token.opened 0) closings, t = .closeGroup :=
      fun t ht => hc t (mem_of_mem_withoutUnmatched ht)
    rw [parse_eq_ofTokens, htext, withoutUnmatched_append, ofTokens_append_closings hc,
      ofTokens_append_closings hkept, ofTokens_eq, ofTokens_eq, hread h]
  · by_cases hh : Harmless 0 tokens
    · exact .inl hh
    -- the tokens as they are settle what happens if they are refused
    have hnil := h [] List.not_mem_nil
    rw [List.append_nil, ofTokens_eq, ofTokens_eq] at hnil
    cases hy : Zipper.read tokens with
    | error e =>
        refine .inr ⟨e, by rw [ofTokens_eq, hy]; rfl, ?_⟩
        rw [ofTokens_eq, ← hnil, hy]
        rfl
    | ok y =>
        cases hz : Zipper.read (withoutUnmatched 0 tokens) with
        | error e => rw [hy, hz] at hnil; cases hnil
        | ok z =>
            -- neither is refused, so that some rest tells the two apart
            obtain ⟨rest, hr, hne⟩ := exists_rest_ne hy hz hh
            exact absurd (by rw [h rest hr, hrest rest hr]) hne
  · rintro (h | ⟨e, he, he'⟩) rest hr
    · rw [hrest rest hr, ofTokens_append_congr (hread h)]
    · rw [hrest rest hr, ofTokens_append_of_error he, ofTokens_append_of_error he']

/-- One that comes before the first logical operator and one at the end. -/
theorem ignores_unmatched_before_logical :
    Harmless 0 [.word "1", .operator .eq, .word "1", .closeGroup, .operator .and, .word "2"] ∧
      Condition.parse "1 == 1 ) && 2 )" =
        Condition.ofTokens (withoutUnmatched 0 (tokenize "1 == 1 ) && 2 )")) := by
  have h : Harmless 0
      [.word "1", .operator .eq, .word "1", .closeGroup, .operator .and, .word "2"] := by decide
  exact ⟨h, (ignores_unmatched_iff _).1 h _ [.closeGroup] (by simp) (by decide +kernel)⟩

/-- One that comes after a logical operator: the condition is refused, and is not without it. -/
theorem notices_unmatched_after_logical :
    (Condition.parse "1 == 1 && ) 2 == 2").isOk = false ∧
      (Condition.ofTokens (withoutUnmatched 0 (tokenize "1 == 1 && ) 2 == 2"))).isOk = true ∧
        Condition.parse "1 == 1 && ) 2 == 2" ≠
          Condition.ofTokens (withoutUnmatched 0 (tokenize "1 == 1 && ) 2 == 2")) := by
  have hwith : (Condition.parse "1 == 1 && ) 2 == 2").isOk = false := by decide +kernel
  have hwithout : (Condition.ofTokens
      (withoutUnmatched 0 (tokenize "1 == 1 && ) 2 == 2"))).isOk = true := by decide +kernel
  refine ⟨hwith, hwithout, fun h => ?_⟩
  rw [h, hwithout] at hwith
  cases hwith

end Criterion
