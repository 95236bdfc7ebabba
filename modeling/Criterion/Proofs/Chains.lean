import Criterion.Proofs.Connectives
import Criterion.Proofs.Leaves

/-!
# Conditions without parentheses

Where no parenthesis stands, the logical operators cut a condition into segments. A logical operator
takes over the branch in focus with all that the segment before it has put there, and the next
segment begins in an empty branch. So each segment makes a branch of its own, whatever its words and
comparison operators are and in whatever order they come, and these branches are joined from the
right.
-/

namespace Criterion

/-! ## Chains -/

/-- Parts with an operator between each two of them. -/
structure Chain (α : Type) where
  first : α
  rest : List (Operator × α)
deriving DecidableEq, Repr

namespace Chain

variable {α β : Type}

/-- The parts, in their order. -/
def parts (c : Chain α) : List α := c.first :: c.rest.map Prod.snd

/-- The operators, in their order. -/
def operators (c : Chain α) : List Operator := c.rest.map Prod.fst

/-- Replaces each part. -/
def map (f : α → β) (c : Chain α) : Chain β := ⟨f c.first, c.rest.map fun p => (p.1, f p.2)⟩

/-- Joins a part and those behind it from the right. -/
def joinRight (join : Operator → α → α → α) (a : α) : List (Operator × α) → α
  | [] => a
  | (op, b) :: rest => join op a (joinRight join b rest)

/-- Joins the parts from the right: the first one, the first operator, and what the others make. -/
def foldRight (join : Operator → α → α → α) (c : Chain α) : α := joinRight join c.first c.rest

/-- One more part in front, with the operator behind it. -/
def cons (a : α) (op : Operator) (c : Chain α) : Chain α := ⟨a, (op, c.first) :: c.rest⟩

/-- Every chain is a single part, or has one part in front of a chain. -/
@[elab_as_elim]
theorem induct {motive : Chain α → Prop} (single : ∀ a, motive ⟨a, []⟩)
    (cons : ∀ a op c, motive c → motive (cons a op c)) (c : Chain α) : motive c := by
  obtain ⟨first, rest⟩ := c
  induction rest generalizing first with
  | nil => exact single first
  | cons p rest ih => exact cons first p.1 ⟨p.2, rest⟩ (ih p.2)

@[simp] theorem parts_cons (a : α) (op : Operator) (c : Chain α) :
    (cons a op c).parts = a :: c.parts := rfl

@[simp] theorem map_cons (f : α → β) (a : α) (op : Operator) (c : Chain α) :
    (cons a op c).map f = cons (f a) op (c.map f) := rfl

@[simp] theorem foldRight_cons (join : Operator → α → α → α) (a : α) (op : Operator) (c : Chain α) :
    (cons a op c).foldRight join = join op a (c.foldRight join) := rfl

/-- The tokens of a chain of segments. -/
def tokens (c : Chain (List Token)) : List Token :=
  c.first ++ c.rest.flatMap fun p => .operator p.1 :: p.2

theorem tokens_cons (s : List Token) (op : Operator) (c : Chain (List Token)) :
    (cons s op c).tokens = s ++ .operator op :: c.tokens := by
  simp [tokens, cons]

/-- Cuts tokens at the logical operators. -/
def cut : List Token → Chain (List Token)
  | [] => ⟨[], []⟩
  | t :: ts =>
    match t.connective? with
    | some op => cons [] op (cut ts)
    | none => { cut ts with first := t :: (cut ts).first }

end Chain

/-- Only a logical operator joins two segments. -/
theorem Token.eq_of_connective? {t : Token} {op : Operator} (h : t.connective? = some op) :
    t = .operator op ∧ op.isLogical = true := by
  cases t with
  | operator o =>
      unfold connective? at h
      dsimp only at h
      split at h
      · next ho =>
          obtain rfl := Option.some.inj h
          exact ⟨rfl, ho⟩
      · cases h
  | openGroup => cases h
  | closeGroup => cases h
  | word w => cases h

namespace Chain

/-- Nothing is lost and nothing is added. -/
theorem tokens_cut (ts : List Token) : (cut ts).tokens = ts := by
  induction ts with
  | nil => rfl
  | cons t ts ih =>
      rw [cut]
      cases h : t.connective? with
      | some op =>
          obtain ⟨rfl, -⟩ := Token.eq_of_connective? h
          dsimp only
          rw [tokens_cons, ih]
          rfl
      | none =>
          rw [tokens] at ih
          dsimp only
          rw [tokens, List.cons_append, ih]

theorem isLogical_of_mem_operators {ts : List Token} {op : Operator}
    (h : op ∈ (cut ts).operators) : op.isLogical = true := by
  induction ts with
  | nil => cases h
  | cons t ts ih =>
      rw [cut] at h
      cases ht : t.connective? with
      | some o =>
          rw [ht] at h
          rcases List.mem_cons.mp h with rfl | h
          · exact (Token.eq_of_connective? ht).2
          · exact ih h
      | none =>
          rw [ht] at h
          exact ih h

/-- No logical operator is left in a segment. -/
theorem connective?_of_mem_parts {ts s : List Token} (hs : s ∈ (cut ts).parts) {t : Token}
    (ht : t ∈ s) : t.connective? = none ∧ t ∈ ts := by
  induction ts generalizing s with
  | nil =>
      obtain rfl : s = [] := by simpa [cut, parts] using hs
      cases ht
  | cons u ts ih =>
      rw [cut] at hs
      cases hu : u.connective? with
      | some op =>
          rw [hu] at hs
          rcases List.mem_cons.mp hs with rfl | hs
          · -- the segment in front of a logical operator has no tokens yet
            cases ht
          · obtain ⟨hnone, hmem⟩ := ih hs ht
            exact ⟨hnone, List.mem_cons_of_mem _ hmem⟩
      | none =>
          rw [hu] at hs
          rcases List.mem_cons.mp hs with rfl | hs
          · -- any other token joins the first segment of those behind it
            rcases List.mem_cons.mp ht with rfl | ht
            · exact ⟨hu, List.mem_cons_self⟩
            · obtain ⟨hnone, hmem⟩ := ih List.mem_cons_self ht
              exact ⟨hnone, List.mem_cons_of_mem _ hmem⟩
          · obtain ⟨hnone, hmem⟩ := ih (List.mem_cons_of_mem _ hs) ht
            exact ⟨hnone, List.mem_cons_of_mem _ hmem⟩

end Chain

/-! ## Segments -/

/-- The comparison operator that a token is, if it is one. -/
def Token.comparison? : Token → Option Operator
  | operator op => if op.isLogical then none else some op
  | _ => none

namespace Segment

/-- The literals of a segment, in their order. -/
def literals (s : List Token) : List Operand := s.filterMap Token.literal?

/-- The comparison operator of a segment: the last one, wherever it stands. -/
def operator? (s : List Token) : Option Operator := (s.filterMap Token.comparison?).getLast?

/-- The branch that a segment makes: its operator over its first and its second literal. -/
def node (s : List Token) : Node :=
  .branch (operator? s) ((literals s)[0]?.map .leaf) ((literals s)[1]?.map .leaf)

/-- A segment that compares two literals. -/
def IsComplete (s : List Token) : Prop :=
  ∃ op l r, operator? s = some op ∧ literals s = [l, r]

/-- Does the comparison of a segment come out true? -/
def truth (context : Option Datum) (s : List Token) : Bool :=
  match operator? s, literals s with
  | some op, [l, r] => op.apply (l.resolve context) (r.resolve context)
  | _, _ => false

end Segment

/-- Neither a parenthesis nor a logical operator. -/
def Token.IsPlain (t : Token) : Prop :=
  t ≠ openGroup ∧ t ≠ closeGroup ∧ t.connective? = none

/-! ## Reading a segment -/

/-- Puts literals into the free places, one after the other. -/
def Operands.addAll (o : Operands) (ls : List Operand) : Except ConditionError Operands :=
  ls.foldlM (fun o l => o.add (.leaf l)) o

/-- Words fill places and comparison operators replace each other; neither minds the other. -/
theorem Zipper.foldlM_segment {s : List Token} (hs : ∀ t ∈ s, t.IsPlain) (z : Zipper) :
    s.foldlM Zipper.feed z = (z.operands.addAll (Segment.literals s)).map fun operands =>
      { z with op := (Segment.operator? s).or z.op, operands } := by
  induction s generalizing z with
  | nil => rfl
  | cons t s ih =>
      have hrest : ∀ u ∈ s, u.IsPlain := fun u hu => hs u (List.mem_cons_of_mem _ hu)
      obtain ⟨hopen, hclose, hjoin⟩ := hs t List.mem_cons_self
      rw [List.foldlM_cons]
      cases t with
      | openGroup => exact absurd rfl hopen
      | closeGroup => exact absurd rfl hclose
      | word w =>
          show (z.push (.ofWord w) >>= _) = _
          unfold Zipper.push
          -- a word takes a place before the words behind it do
          have hcons : z.operands.addAll (Segment.literals (.word w :: s)) =
              z.operands.add (.leaf (.ofWord w)) >>= fun o => o.addAll (Segment.literals s) :=
            List.foldlM_cons
          rw [hcons]
          cases z.operands.add (.leaf (.ofWord w)) with
          | error e => rfl
          | ok operands => exact ih hrest { z with operands }
      | operator op =>
          have hop : op.isLogical = false := by
            cases h : op.isLogical with
            | false => rfl
            | true => simp [Token.connective?, h] at hjoin
          -- the operators behind this one win, and this one wins over the one before
          have hlast : Segment.operator? (.operator op :: s) =
              (Segment.operator? s).or (some op) := by
            have hself : Token.comparison? (.operator op) = some op := by
              simp [Token.comparison?, hop]
            unfold Segment.operator?
            rw [List.filterMap_cons, hself, List.getLast?_cons]
            cases (s.filterMap Token.comparison?).getLast? <;> rfl
          rw [Zipper.feed_comparison hop, hlast]
          show s.foldlM Zipper.feed (z.setOperator op) = _
          rw [ih hrest (z.setOperator op)]
          have hlit : Segment.literals (.operator op :: s) = Segment.literals s := rfl
          rw [hlit, Option.or_assoc]
          rfl

/-- Two literals at most have a place, the first one to the left. -/
theorem Operands.addAll_empty {ls : List Operand} (h : ls.length ≤ 2) :
    ∃ o, empty.addAll ls = .ok o ∧ o.left? = ls[0]?.map Node.leaf ∧
      o.right? = ls[1]?.map Node.leaf := by
  match ls with
  | [] => exact ⟨empty, rfl, rfl, rfl⟩
  | [l] => exact ⟨one (.leaf l), rfl, rfl, rfl⟩
  | [l, r] => exact ⟨two (.leaf l) (.leaf r), rfl, rfl, rfl⟩
  | _ :: _ :: _ :: _ => simp at h

theorem Operands.addAll_empty_of_lt {ls : List Operand} (h : 2 < ls.length) :
    empty.addAll ls = .error .malformedOperands := by
  match ls with
  | [] | [_] | [_, _] => simp at h
  | _ :: _ :: _ :: _ => rfl

/-- A segment makes its branch, unless a third word comes. -/
theorem Zipper.foldlM_segment_empty {s : List Token} (hs : ∀ t ∈ s, t.IsPlain)
    (hlen : (Segment.literals s).length ≤ 2) (frames : List Frame) :
    ∃ z, s.foldlM Zipper.feed { frames } = .ok z ∧ z.node = Segment.node s ∧ z.frames = frames := by
  obtain ⟨operands, ho, hleft, hright⟩ := Operands.addAll_empty hlen
  refine ⟨{ op := Segment.operator? s, operands, frames }, ?_, ?_, rfl⟩
  · rw [foldlM_segment hs]
    show (Operands.empty.addAll _).map _ = _
    rw [ho, Option.or_none]
    rfl
  · rw [node, hleft, hright, Segment.node]

/-! ## Reading a chain -/

/-- The branch of an operator over two nodes. -/
def Node.join (op : Operator) (l r : Node) : Node := .branch (some op) (some l) (some r)

namespace Chain

/-- The branches of the segments, joined from the right. -/
def tree (c : Chain (List Token)) : Node := (c.map Segment.node).foldRight Node.join

theorem tree_cons (s : List Token) (op : Operator) (c : Chain (List Token)) :
    (cons s op c).tree = .branch (some op) (some (Segment.node s)) (some c.tree) := by
  rw [tree, map_cons, foldRight_cons]
  rfl

/-- **Every segment makes a branch of its own**, and the next one is read below the logical operator
that joins the two. -/
theorem foldlM_tokens {c : Chain (List Token)} (hs : ∀ s ∈ c.parts, ∀ t ∈ s, t.IsPlain)
    (hops : ∀ op ∈ c.operators, op.isLogical = true) (frames : List Frame) :
    (c.tokens.foldlM Zipper.feed { frames }).map Zipper.tree =
      if ∀ s ∈ c.parts, (Segment.literals s).length ≤ 2 then .ok (enclose frames c.tree)
      else .error .malformedOperands := by
  -- along the chain: each segment is read inside the branches that those before it have left
  induction c using Chain.induct generalizing frames with
  | single s =>
      have hplain : ∀ t ∈ s, t.IsPlain := hs s List.mem_cons_self
      have htokens : (Chain.mk s []).tokens = s := List.append_nil s
      have hparts : (Chain.mk s []).parts = [s] := rfl
      rw [htokens, hparts]
      by_cases hlen : (Segment.literals s).length ≤ 2
      · obtain ⟨z, hz, hnode, hframes⟩ := Zipper.foldlM_segment_empty hplain hlen frames
        rw [if_pos (by simpa using hlen), hz]
        show Except.ok (enclose z.frames z.node) = _
        rw [hnode, hframes]
        rfl
      · rw [if_neg (by simpa using hlen), Zipper.foldlM_segment hplain]
        show (Except.map _ (Operands.empty.addAll _)).map _ = _
        rw [Operands.addAll_empty_of_lt (by omega)]
        rfl
  | cons s op c ih =>
      have hplain : ∀ t ∈ s, t.IsPlain := hs s List.mem_cons_self
      have hop : op.isLogical = true := hops op List.mem_cons_self
      rw [tokens_cons, List.foldlM_append]
      by_cases hlen : (Segment.literals s).length ≤ 2
      · obtain ⟨z, hz, hnode, hframes⟩ := Zipper.foldlM_segment_empty hplain hlen frames
        -- the branch goes to the left of the operator, and the rest is read to the right of it
        have hrest := ih (fun u hu => hs u (List.mem_cons_of_mem _ hu))
          (fun o ho => hops o (List.mem_cons_of_mem _ ho)) (.second (some op) z.node :: z.frames)
        have hall : (∀ u ∈ (cons s op c).parts, (Segment.literals u).length ≤ 2) ↔
            ∀ u ∈ c.parts, (Segment.literals u).length ≤ 2 := by
          simp [hlen]
        rw [hz]
        show ((Token.operator op :: c.tokens).foldlM Zipper.feed z).map _ = _
        rw [List.foldlM_cons, Zipper.feed_logical hop]
        rw [hnode, hframes] at hrest
        simp only [hall]
        show (c.tokens.foldlM Zipper.feed (z.shift op)).map _ = _
        rw [Zipper.shift, hnode, hframes, hrest]
        rfl
      · -- the third word is refused, and what stands behind it is not looked at
        rw [if_neg (by simp [hlen]), Zipper.foldlM_segment hplain]
        show (((Operands.empty.addAll _).map _) >>= _).map _ = _
        rw [Operands.addAll_empty_of_lt (by omega)]
        rfl

end Chain

/-! ## The value of a chain of comparisons -/

/-- What a logical operator makes of two truth values. -/
def Operator.joinTruth (op : Operator) (a b : Bool) : Bool := op.apply (.bool a) (.bool b)

theorem Segment.value_node {s : List Token} (h : IsComplete s) (context : Option Datum) :
    (node s).value context = .bool (truth context s) := by
  obtain ⟨op, l, r, hop, hlit⟩ := h
  have hnode : node s = .branch (some op) (some (.leaf l)) (some (.leaf r)) := by
    rw [node, hop, hlit]
    rfl
  rw [hnode, Node.value_branch, Node.value, Node.value, truth, hop, hlit]

theorem Segment.IsComplete.length_literals {s : List Token} (h : IsComplete s) :
    (literals s).length ≤ 2 := by
  obtain ⟨op, l, r, -, hlit⟩ := h
  rw [hlit]
  exact Nat.le_refl 2

namespace Chain

/-- The truth values of the comparisons, joined from the right. -/
def truth (context : Option Datum) (c : Chain (List Token)) : Bool :=
  (c.map (Segment.truth context)).foldRight Operator.joinTruth

/-- The tree of a chain of comparisons has the truth value of the chain. -/
theorem value_tree {c : Chain (List Token)} (h : ∀ s ∈ c.parts, Segment.IsComplete s)
    (context : Option Datum) : c.tree.value context = .bool (c.truth context) := by
  induction c using Chain.induct with
  | single s => exact Segment.value_node (h s List.mem_cons_self) context
  | cons s op c ih =>
      have hs := Segment.value_node (h s List.mem_cons_self) context
      have hc := ih fun u hu => h u (List.mem_cons_of_mem _ hu)
      rw [tree_cons, Node.value_branch, hs, hc]
      rfl

/-- However it is bracketed, a chain of `&&` is true if all its parts are. -/
theorem foldRight_and {c : Chain Bool} (h : ∀ op ∈ c.operators, op = .and) :
    c.foldRight Operator.joinTruth = true ↔ ∀ b ∈ c.parts, b = true := by
  induction c using Chain.induct with
  | single b => simp [foldRight, joinRight, parts]
  | cons b op c ih =>
      obtain rfl : op = .and := h op List.mem_cons_self
      have hc := ih fun o ho => h o (List.mem_cons_of_mem _ ho)
      have hjoin : Operator.joinTruth .and b (c.foldRight Operator.joinTruth) =
          (b && c.foldRight Operator.joinTruth) := rfl
      rw [foldRight_cons, hjoin, Bool.and_eq_true, hc, parts_cons, List.forall_mem_cons]

/-- However it is bracketed, a chain of `||` is true if one of its parts is. -/
theorem foldRight_or {c : Chain Bool} (h : ∀ op ∈ c.operators, op = .or) :
    c.foldRight Operator.joinTruth = true ↔ ∃ b ∈ c.parts, b = true := by
  induction c using Chain.induct with
  | single b => simp [foldRight, joinRight, parts]
  | cons b op c ih =>
      obtain rfl : op = .or := h op List.mem_cons_self
      have hc := ih fun o ho => h o (List.mem_cons_of_mem _ ho)
      have hjoin : Operator.joinTruth .or b (c.foldRight Operator.joinTruth) =
          (b || c.foldRight Operator.joinTruth) := rfl
      rw [foldRight_cons, hjoin, Bool.or_eq_true, hc, parts_cons]
      simp

theorem parts_map (f : List Token → Bool) (c : Chain (List Token)) :
    (c.map f).parts = c.parts.map f := by
  simp [parts, map]

theorem operators_map (f : List Token → Bool) (c : Chain (List Token)) :
    (c.map f).operators = c.operators := by
  simp [operators, map]

end Chain

/-! ## What this says of parsing -/

theorem Chain.isPlain_of_mem_parts {ts : List Token} (hopen : .openGroup ∉ ts)
    (hclose : .closeGroup ∉ ts) {s : List Token} (hs : s ∈ (cut ts).parts) :
    ∀ t ∈ s, t.IsPlain := by
  intro t ht
  obtain ⟨hnone, hmem⟩ := connective?_of_mem_parts hs ht
  refine ⟨?_, ?_, hnone⟩
  · rintro rfl
    exact hopen hmem
  · rintro rfl
    exact hclose hmem

/-- A condition without parentheses is parsed segment by segment. -/
theorem parse_eq_of_cut {text : String} (hopen : .openGroup ∉ tokenize text)
    (hclose : .closeGroup ∉ tokenize text) :
    Condition.parse text =
      if ∀ s ∈ (Chain.cut (tokenize text)).parts, (Segment.literals s).length ≤ 2 then
        .ok ⟨(Chain.cut (tokenize text)).tree⟩
      else .error .malformedOperands := by
  have hread := Chain.foldlM_tokens (c := Chain.cut (tokenize text))
    (fun s hs => Chain.isPlain_of_mem_parts hopen hclose hs)
    (fun op hop => Chain.isLogical_of_mem_operators hop) []
  rw [Chain.tokens_cut] at hread
  have hmap : Condition.parse text =
      ((Zipper.read (tokenize text)).map Zipper.tree).map Condition.mk := by
    rw [parse_eq_ofTokens, ofTokens_eq]
    cases Zipper.read (tokenize text) <;> rfl
  rw [hmap, Zipper.read, hread]
  split <;> rfl

/-- **A condition without parentheses is the chain of its segments.** Cut at its logical operators, it
parses just if no segment has a third word, and then to the branches of the segments, joined from the
right. If every segment compares two values, a chain of `&&` holds when all comparisons are true, one
of `||` when one of them is, and a mixed one when they come out true joined from the right. -/
theorem parse_without_parentheses {text : String} (hopen : .openGroup ∉ tokenize text)
    (hclose : .closeGroup ∉ tokenize text) :
    ((Chain.cut (tokenize text)).tokens = tokenize text ∧
        (∀ op ∈ (Chain.cut (tokenize text)).operators, op.isLogical = true) ∧
        ∀ s ∈ (Chain.cut (tokenize text)).parts, ∀ t ∈ s, t.connective? = none) ∧
      ((∃ c, Condition.parse text = .ok c) ↔
        ∀ s ∈ (Chain.cut (tokenize text)).parts, (Segment.literals s).length ≤ 2) ∧
      (∀ c, Condition.parse text = .ok c → c.root = (Chain.cut (tokenize text)).tree) ∧
      ((∀ s ∈ (Chain.cut (tokenize text)).parts, Segment.IsComplete s) →
        ∃ c, Condition.parse text = .ok c ∧ ∀ context,
          c.root.evaluate context = .bool ((Chain.cut (tokenize text)).truth context) ∧
          ((∀ op ∈ (Chain.cut (tokenize text)).operators, op = .and) →
            (c.holds context = true ↔
              ∀ s ∈ (Chain.cut (tokenize text)).parts, Segment.truth context s = true)) ∧
          ((∀ op ∈ (Chain.cut (tokenize text)).operators, op = .or) →
            (c.holds context = true ↔
              ∃ s ∈ (Chain.cut (tokenize text)).parts, Segment.truth context s = true))) := by
  have hparse := parse_eq_of_cut hopen hclose
  refine ⟨⟨Chain.tokens_cut _, fun op hop => Chain.isLogical_of_mem_operators hop,
    fun s hs t ht => (Chain.connective?_of_mem_parts hs ht).1⟩, ?_, ?_, ?_⟩
  · rw [hparse]
    split
    · next h => exact ⟨fun _ => h, fun _ => ⟨_, rfl⟩⟩
    · next h => exact ⟨nofun, fun hall => absurd hall h⟩
  · intro c hc
    rw [hparse] at hc
    split at hc
    · rw [← Except.ok.inj hc]
    · cases hc
  · intro hcomplete
    rw [if_pos fun s hs => (hcomplete s hs).length_literals] at hparse
    refine ⟨_, hparse, fun context => ?_⟩
    have hvalue := Chain.value_tree hcomplete context
    -- to hold is to have the value true, and the value is the truth of the chain
    have hholds : (Condition.mk (Chain.cut (tokenize text)).tree).holds context = true ↔
        (Chain.cut (tokenize text)).truth context = true := by
      rw [Condition.holds_iff, hvalue, Operand.bool.injEq]
    refine ⟨by rw [Node.evaluate_eq_value, hvalue], fun hand => ?_, fun hor => ?_⟩
    · rw [hholds, Chain.truth, Chain.foldRight_and (by rwa [Chain.operators_map]),
        Chain.parts_map, List.forall_mem_map]
    · rw [hholds, Chain.truth, Chain.foldRight_or (by rwa [Chain.operators_map]),
        Chain.parts_map]
      simp

/-- An operator in front of its values, one that another one replaces, and a segment with nothing in
it. -/
theorem parse_without_parentheses_scattered :
    ∃ c, Condition.parse "== 1 %x != || && < 2" = .ok c ∧
      c.root = .branch (some .or)
        (some (.branch (some .ne) (some (.leaf (.ofWord "1"))) (some (.leaf (.parameter "x")))))
        (some (.branch (some .and) (some .empty)
          (some (.branch (some .lt) (some (.leaf (.ofWord "2"))) none)))) := by
  have hopen : .openGroup ∉ tokenize "== 1 %x != || && < 2" := by decide +kernel
  have hclose : .closeGroup ∉ tokenize "== 1 %x != || && < 2" := by decide +kernel
  have hcut : Chain.cut (tokenize "== 1 %x != || && < 2") =
      ⟨[.operator .eq, .word "1", .word "%x", .operator .ne],
        [(.or, []), (.and, [.operator .lt, .word "2"])]⟩ := by
    decide +kernel
  obtain ⟨-, hparses, htree, -⟩ := parse_without_parentheses hopen hclose
  rw [hcut] at hparses htree
  obtain ⟨c, hc⟩ := hparses.mpr (by decide)
  exact ⟨c, hc, htree c hc⟩

end Criterion
