import Criterion.Proofs.Closing
import Criterion.Proofs.Evaluation
import Criterion.Proofs.Grouping
import Mathlib.Data.List.Infix

/-!
# A whole condition in parentheses

An opening parenthesis in front of a condition puts one branch around everything that follows. The
condition is read inside of it as it would be at the root, as long as no closing parenthesis of the
condition leads out of it. Each opening parenthesis and each logical operator allows for one closing
parenthesis; where there are never more than these, the focus stays inside. What closes the condition
at its end is of no account, for it only moves the focus.
-/

namespace Criterion

/-! ## Reading inside of further branches -/

/-- In no beginning of the tokens are there more closing parentheses than opening parentheses and
logical operators together. -/
def StaysInside (ts : List Token) : Prop :=
  ∀ p, p <+: ts →
    p.count .closeGroup ≤ p.count .openGroup + p.countP Token.isLogical

theorem staysInside_iff (ts : List Token) : StaysInside ts ↔ ∀ p ∈ ts.inits,
    p.count .closeGroup ≤ p.count .openGroup + p.countP Token.isLogical := by
  simp only [StaysInside, List.mem_inits]

instance (ts : List Token) : Decidable (StaysInside ts) :=
  decidable_of_iff' _ (staysInside_iff ts)

/-- The same for tokens that come where `d` branches are around the focus. -/
def StaysBelow (d : Nat) (ts : List Token) : Prop :=
  ∀ p, p <+: ts →
    p.count .closeGroup ≤ d + (p.count .openGroup + p.countP Token.isLogical)

/-- The focus does not leave the branch that it is in at the beginning. -/
theorem StaysBelow.pos_of_closeGroup {d : Nat} {ts : List Token}
    (h : StaysBelow d (.closeGroup :: ts)) : 0 < d := by
  have hone := h [.closeGroup] (List.cons_prefix_cons.mpr ⟨rfl, List.nil_prefix⟩)
  simp [Token.isLogical] at hone
  omega

/-- What a token adds to the branches around the focus, the tokens behind it may close. -/
theorem StaysBelow.tail {d : Nat} {t : Token} {ts : List Token} (h : StaysBelow d (t :: ts)) :
    StaysBelow (t.deepened d) ts := by
  intro p hp
  have hcons := h (t :: p) (List.cons_prefix_cons.mpr ⟨rfl, hp⟩)
  cases t with
  | openGroup =>
      simp [Token.isLogical] at hcons
      simp only [Token.deepened]
      omega
  | closeGroup =>
      simp [Token.isLogical] at hcons
      simp only [Token.deepened]
      omega
  | word w =>
      simp [Token.isLogical] at hcons
      exact hcons
  | operator op =>
      cases hop : op.isLogical <;> simp [Token.isLogical, Token.deepened, hop] at hcons ⊢ <;> omega

namespace Zipper

variable {z : Zipper}

/-- A token does the same inside of further branches, unless it leads out to them. -/
theorem feed_under {t : Token} (h : t = .closeGroup → z.frames ≠ []) (frames : List Frame) :
    (z.under frames).feed t = (z.feed t).map fun y => y.under frames := by
  cases t with
  | openGroup =>
      show (z.under frames).openGroup = z.openGroup.map _
      obtain ⟨op, operands, inner⟩ := z
      cases operands <;> rfl
  | closeGroup =>
      exact congrArg Except.ok (closeGroup_under (h rfl) frames)
  | word w =>
      show (z.under frames).push (.ofWord w) = (z.push (.ofWord w)).map _
      obtain ⟨op, operands, inner⟩ := z
      cases operands <;> rfl
  | operator op =>
      cases hop : op.isLogical with
      | true => rw [feed_logical hop, feed_logical hop]; rfl
      | false => rw [feed_comparison hop, feed_comparison hop]; rfl

/-- **The same run inside of further branches.** -/
theorem foldlM_under {ts : List Token} (h : StaysBelow z.frames.length ts) (frames : List Frame) :
    ts.foldlM feed (z.under frames) =
      (ts.foldlM feed z).map fun y => y.under frames := by
  induction ts generalizing z with
  | nil => rfl
  | cons t ts ih =>
      -- a parenthesis that closes has a branch to go to before the outer ones
      have hinside : t = .closeGroup → z.frames ≠ [] := by
        rintro rfl
        exact List.length_pos_iff.mp h.pos_of_closeGroup
      rw [List.foldlM_cons, List.foldlM_cons, feed_under hinside]
      cases hy : z.feed t with
      | error e => rfl
      | ok y =>
          have hlen : y.frames.length = t.deepened z.frames.length := length_feed hy
          have htail : StaysBelow y.frames.length ts := by
            rw [hlen]
            exact h.tail
          exact ih htail

end Zipper

/-! ## The tokens of a condition in parentheses -/

namespace Token

/-- A closing parenthesis is a separator, and no longer one goes on into it. -/
theorem separator?_append_close {cs : List Char} (hcs : cs ≠ []) (bs : List Char) :
    separator? (cs ++ ')' :: bs) = (separator? cs).map fun p => (p.1, p.2 ++ ')' :: bs) := by
  rw [separator?_eq_findSome?, separator?_eq_findSome?, List.map_findSome?]
  refine findSome?_congr_mem fun s hs => ?_
  have hiff : s.1 <+: cs ++ ')' :: bs ↔ s.1 <+: cs := by
    by_cases hmem : ')' ∈ s.1
    · -- the separator is the parenthesis itself: it is what the text begins with, or not
      have hself : s.1 = [')'] := by
        revert s
        decide
      obtain ⟨c, cs, rfl⟩ := List.exists_cons_of_ne_nil hcs
      rw [hself, List.cons_append, List.cons_prefix_cons, List.cons_prefix_cons]
      simp
    · exact prefix_append_cons_iff hmem
  by_cases h : s.1 <+: cs
  · simp [h, hiff, List.drop_append_of_le_length h.length_le]
  · simp [h, hiff]

theorem flush_append (word : List Char) (tokens found : List Token) :
    flush word (tokens ++ found) = flush word tokens ++ found := by
  unfold flush
  split <;> rfl

/-- What has been found before stands in front of what is found. -/
theorem scan_append_found (tokens found : List Token) (word cs : List Char) :
    scan (tokens ++ found) word cs = found.reverse ++ scan tokens word cs := by
  fun_induction scan tokens word cs with
  | case1 tokens word cs t rest h ih =>
      rw [scan_of_separator? h, flush_append]
      exact ih
  | case2 tokens word h => rw [scan_nil, flush_append, List.reverse_append]
  | case3 tokens word c rest h hc ih =>
      rw [scan_blank hc, flush_append]
      exact ih
  | case4 tokens word c rest h hc ih =>
      rw [scan_char h (by simpa using hc)]
      exact ih

/-- At the end of a text, closing parentheses end the last word. -/
theorem scan_closings (k : Nat) (tokens : List Token) (word : List Char) :
    scan tokens word (List.replicate k ')') =
      (flush word tokens).reverse ++ List.replicate k closeGroup := by
  induction k generalizing tokens word with
  | zero => rw [List.replicate_zero, List.replicate_zero, List.append_nil, scan_nil]
  | succ k ih =>
      have hsep : separator? (')' :: List.replicate k ')') =
          some (closeGroup, List.replicate k ')') := rfl
      rw [List.replicate_succ, scan_of_separator? hsep, ih, List.replicate_succ]
      simp [flush]

/-- Closing parentheses behind a text are tokens of their own. -/
theorem scan_append_closings (k : Nat) (tokens : List Token) (word cs : List Char) :
    scan tokens word (cs ++ List.replicate k ')') =
      scan tokens word cs ++ List.replicate k closeGroup := by
  cases k with
  | zero => rw [List.replicate_zero, List.replicate_zero, List.append_nil, List.append_nil]
  | succ k =>
      fun_induction scan tokens word cs with
      | case1 tokens word cs t rest h ih =>
          have hne : cs ≠ [] := by
            rintro rfl
            cases h
          have hsep : separator? (cs ++ List.replicate (k + 1) ')') =
              some (t, rest ++ List.replicate (k + 1) ')') := by
            rw [List.replicate_succ, separator?_append_close hne, h]
            rfl
          rw [scan_of_separator? hsep]
          exact ih
      | case2 tokens word h => rw [List.nil_append, scan_closings]
      | case3 tokens word c rest h hc ih =>
          rw [List.cons_append, scan_blank hc]
          exact ih
      | case4 tokens word c rest h hc ih =>
          have hsep : separator? (c :: (rest ++ List.replicate (k + 1) ')')) = none := by
            rw [← List.cons_append, List.replicate_succ, separator?_append_close (by simp), h]
            rfl
          rw [List.cons_append, scan_char hsep (by simpa using hc)]
          exact ih

end Token

/-- The text with an opening parenthesis in front and closing parentheses behind. -/
def parenthesized (text : String) (k : Nat) : String :=
  "(" ++ text ++ String.ofList (List.replicate k ')')

/-- Parentheses around a text are tokens around its own ones. -/
theorem tokenize_parenthesized (text : String) (k : Nat) :
    tokenize (parenthesized text k) =
      .openGroup :: (tokenize text ++ List.replicate k .closeGroup) := by
  have hchars : (parenthesized text k).toList =
      '(' :: (text.toList ++ List.replicate k ')') := by
    simp [parenthesized]
  have hsep : Token.separator? ('(' :: (text.toList ++ List.replicate k ')')) =
      some (.openGroup, text.toList ++ List.replicate k ')') := rfl
  rw [tokenize, hchars, Token.scan_of_separator? hsep]
  calc Token.scan [.openGroup] [] (text.toList ++ List.replicate k ')')
      = .openGroup :: Token.scan [] [] (text.toList ++ List.replicate k ')') :=
        Token.scan_append_found [] [.openGroup] [] _
    _ = .openGroup :: (tokenize text ++ List.replicate k .closeGroup) := by
        rw [Token.scan_append_closings]
        rfl

/-! ## What this says of parsing -/

/-- A branch without an operator around a node. -/
def Node.wrapped (n : Node) : Node := .branch none (some n) none

/-- **The tokens make the same tree in parentheses, in a branch of its own.** -/
theorem ofTokens_parenthesized {ts : List Token} (h : StaysInside ts) (k : Nat) :
    Condition.ofTokens (.openGroup :: (ts ++ List.replicate k .closeGroup)) =
      (Condition.ofTokens ts).map fun c => ⟨c.root.wrapped⟩ := by
  have hclosings : ∀ t ∈ List.replicate k Token.closeGroup, t = .closeGroup :=
    fun t ht => List.eq_of_mem_replicate ht
  have hbelow : StaysBelow (Zipper.frames {}).length ts := fun p hp => by
    show _ ≤ 0 + _
    rw [Nat.zero_add]
    exact h p hp
  -- the parenthesis in front puts one branch around the focus, and the tokens are fed as before
  have hread : Zipper.read (.openGroup :: ts) =
      (Zipper.read ts).map fun z => z.under [.first none] := by
    rw [Zipper.read, List.foldlM_cons]
    exact Zipper.foldlM_under hbelow [.first none]
  rw [← List.cons_append, ofTokens_append_closings hclosings, ofTokens_eq, ofTokens_eq, hread]
  cases Zipper.read ts with
  | error e => rfl
  | ok z =>
      show Except.ok (Condition.mk (z.under [.first none]).tree) = .ok ⟨z.tree.wrapped⟩
      rw [Zipper.tree_under]
      rfl

/-- **Parentheses around a whole condition change nothing**, however many of those at its end there
are, if the condition does not close more than it opens. It is refused with them just if it is refused
without; and if it is not, its tree is the one without them in a branch of its own, with the same value
in every context. -/
theorem parse_parenthesized {text : String} (h : StaysInside (tokenize text)) (k : Nat) :
    ((∃ e, Condition.parse (parenthesized text k) = .error e) ↔
        ∃ e, Condition.parse text = .error e) ∧
      ∀ c, Condition.parse text = .ok c →
        ∃ d, Condition.parse (parenthesized text k) = .ok d ∧
          d.root = .branch none (some c.root) none ∧
          ∀ context, d.root.evaluate context = c.root.evaluate context ∧
            d.holds context = c.holds context := by
  have hparse : Condition.parse (parenthesized text k) =
      (Condition.parse text).map fun c => ⟨c.root.wrapped⟩ := by
    rw [parse_eq_ofTokens, parse_eq_ofTokens, tokenize_parenthesized, ofTokens_parenthesized h]
  rw [hparse]
  constructor
  · cases Condition.parse text with
    | error e => exact ⟨fun _ => ⟨e, rfl⟩, fun _ => ⟨e, rfl⟩⟩
    | ok c => exact ⟨nofun, nofun⟩
  · intro c hc
    rw [hc]
    refine ⟨_, rfl, rfl, fun context => ?_⟩
    have hvalue : c.root.wrapped.value context = c.root.value context :=
      Frame.value_around_group context c.root
    constructor
    · rw [Node.evaluate_eq_value, Node.evaluate_eq_value, hvalue]
    · rw [Bool.eq_iff_iff, Condition.holds_iff, Condition.holds_iff, hvalue]

/-- Two closing parentheses for one opening one: the first takes the focus back to the branch of the
`||`, the second takes it out of the group. -/
theorem parse_parenthesized_closing :
    StaysInside (tokenize "(%a || 1 == 1)) && 'x'") ∧
      ∀ k, ∃ c d, Condition.parse "(%a || 1 == 1)) && 'x'" = .ok c ∧
        Condition.parse (parenthesized "(%a || 1 == 1)) && 'x'" k) = .ok d ∧
        d.root = .branch none (some c.root) none := by
  have hinside : StaysInside (tokenize "(%a || 1 == 1)) && 'x'") := by decide +kernel
  obtain ⟨c, hc⟩ :=
    (exists_ok_iff (Condition.parse "(%a || 1 == 1)) && 'x'")).mpr (by decide +kernel)
  refine ⟨hinside, fun k => ?_⟩
  obtain ⟨d, hd, hroot, -⟩ := (parse_parenthesized hinside k).2 c hc
  exact ⟨c, d, hc, hd, hroot⟩

end Criterion
