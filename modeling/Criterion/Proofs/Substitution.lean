import Criterion.Proofs.Evaluation
import Criterion.Proofs.Parts

/-!
# Parameters are values put in place of references

A tree has the same value in a context as the tree without a context in which every reference has
been replaced by the operand that the context gives to its name. Such an operand is null, a decimal
or a text: what a parameter holds is never read as a reference again, nor as the blank mark, nor as
a truth value. So a tree depends on nothing in a context but the operands of the names that occur in
it, and a reference is never an operand that a logical operator accepts.
-/

namespace Criterion

/-! ## What a context gives to a name -/

/-- The operand that a context gives to a name: null if the name has no value there. -/
def Datum.operandOf (context : Datum) (name : String) : Operand :=
  match context.lookup name with
  | some value => .ofDatum value
  | none => .null

namespace Operand

/-- Null, decimals and texts: what the value of a parameter can become. -/
def IsData : Operand → Prop
  | null | decimal _ | text _ => True
  | parameter _ | blank | bool _ => False

theorem isData_ofDatum (value : Datum) : (ofDatum value).IsData := by
  cases value with
  | null => trivial
  | number n =>
      rw [ofDatum]
      cases Decimal.ofText? n.toText with
      | some d => trivial
      | none => trivial
  | text s => trivial
  | bool b => trivial
  | list items => trivial
  | object fields => trivial

theorem isData_operandOf (context : Datum) (name : String) :
    (context.operandOf name).IsData := by
  unfold Datum.operandOf
  cases context.lookup name with
  | some value => exact isData_ofDatum value
  | none => trivial

/-- What is data stays what it is in every context. -/
theorem IsData.resolve_eq {a : Operand} (h : a.IsData) (context : Option Datum) :
    a.resolve context = a := by
  cases a with
  | parameter name => exact h.elim
  | null => rfl
  | decimal d => rfl
  | text s => rfl
  | blank => rfl
  | bool b => rfl

theorem IsData.ne_bool {a : Operand} (h : a.IsData) (b : Bool) : a ≠ .bool b := by
  rintro rfl
  exact h

theorem resolve_parameter (context : Datum) (name : String) :
    (parameter name).resolve (some context) = context.operandOf name := by
  unfold resolve Datum.operandOf
  dsimp only
  cases context.lookup name <;> rfl

theorem resolve_parameter_of_lookup {context value : Datum} {name : String}
    (h : context.lookup name = some value) :
    (parameter name).resolve (some context) = ofDatum value := by
  rw [resolve_parameter, Datum.operandOf, h]

/-- The literal with the operand that a context gives to its name, if it is a reference. -/
def substitute (context : Datum) : Operand → Operand
  | parameter name => context.operandOf name
  | literal => literal

/-- What is put in place of a reference is looked up in no other context. -/
theorem resolve_substitute (context : Datum) (literal : Operand) (other : Option Datum) :
    (literal.substitute context).resolve other = literal.resolve (some context) := by
  cases literal with
  | parameter name =>
      rw [substitute, resolve_parameter]
      exact (isData_operandOf context name).resolve_eq other
  | null => rfl
  | decimal d => rfl
  | text s => rfl
  | blank => rfl
  | bool b => rfl

/-- Operands that are not both truth values are not joined. -/
theorem joinTruth_eq_false {join : Bool → Bool → Bool} {a b : Operand}
    (h : (∀ x, a ≠ .bool x) ∨ ∀ x, b ≠ .bool x) : joinTruth join a b = false := by
  unfold joinTruth
  split
  · next x y =>
      rcases h with h | h
      · exact absurd rfl (h x)
      · exact absurd rfl (h y)
  · rfl

end Operand

/-- A logical operator holds between truth values only. -/
theorem Operator.apply_eq_false {op : Operator} (hop : op.isLogical = true) {a b : Operand}
    (h : (∀ x, a ≠ .bool x) ∨ ∀ x, b ≠ .bool x) : op.apply a b = false := by
  cases op with
  | and => exact Operand.joinTruth_eq_false h
  | or => exact Operand.joinTruth_eq_false h
  | _ => cases hop

/-! ## Putting operands in place of references -/

namespace Node

mutual

/-- The tree with the operand of its name in place of every reference. -/
def substitute (context : Datum) : Node → Node
  | leaf literal => leaf (literal.substitute context)
  | branch op left right =>
    branch op (substituteChild context left) (substituteChild context right)

def substituteChild (context : Datum) : Option Node → Option Node
  | none => none
  | some n => some (substitute context n)

end

/-- **The value in a context is the value of the tree with the operands put in**, whatever the
context is that this tree is evaluated in. -/
theorem value_substitute (context : Datum) (other : Option Datum) (n : Node) :
    (n.substitute context).value other = n.value (some context) := by
  induction n with
  | leaf literal =>
      rw [substitute, value, value]
      exact Operand.resolve_substitute context literal other
  | branch op left right ihl ihr =>
      cases left with
      | none => rw [substitute, substituteChild, value, value]
      | some l =>
          have hl := ihl l rfl
          cases right with
          | none =>
              rw [substitute, substituteChild, substituteChild, value, value, hl]
          | some r =>
              have hr := ihr r rfl
              rw [substitute, substituteChild, substituteChild, value, value, hl, hr]

/-- Contexts that give the same operands to the names in a tree make one tree of it. -/
theorem substitute_congr {p q : Datum} {n : Node}
    (h : ∀ name, Operand.parameter name ∈ n.leaves → p.operandOf name = q.operandOf name) :
    n.substitute p = n.substitute q := by
  induction n with
  | leaf literal =>
      cases literal with
      | parameter name =>
          have hname := h name (by simp [leaves])
          rw [substitute, substitute, Operand.substitute, Operand.substitute, hname]
      | null => rfl
      | decimal d => rfl
      | text s => rfl
      | blank => rfl
      | bool b => rfl
  | branch op left right ihl ihr =>
      have hleft : substituteChild p left = substituteChild q left := by
        cases left with
        | none => rfl
        | some l =>
            have hl := ihl l rfl fun name hmem => h name (by simp [leaves, childLeaves, hmem])
            rw [substituteChild, substituteChild, hl]
      have hright : substituteChild p right = substituteChild q right := by
        cases right with
        | none => rfl
        | some r =>
            have hr := ihr r rfl fun name hmem => h name (by simp [leaves, childLeaves, hmem])
            rw [substituteChild, substituteChild, hr]
      rw [substitute, substitute, hleft, hright]

/-- A tree depends on a context by the operands of its names only. -/
theorem value_congr {p q : Datum} {n : Node}
    (h : ∀ name, Operand.parameter name ∈ n.leaves → p.operandOf name = q.operandOf name) :
    n.value (some p) = n.value (some q) := by
  rw [← value_substitute p none n, ← value_substitute q none n, substitute_congr h]

/-! ## References under a logical operator -/

/-- A reference, maybe with branches without an operator around it. -/
inductive IsReference : Node → Prop where
  | leaf (name : String) : IsReference (.leaf (.parameter name))
  | around {n : Node} (right : Option Node) :
      IsReference n → IsReference (.branch none (some n) right)

/-- No context makes a truth value of a reference, not even one that holds truth values. -/
theorem IsReference.value_ne_bool {n : Node} (h : n.IsReference) (context : Option Datum)
    (b : Bool) : n.value context ≠ .bool b := by
  induction h with
  | leaf name =>
      rw [value]
      cases context with
      | none =>
          intro heq
          cases heq
      | some p =>
          rw [Operand.resolve_parameter]
          exact (Operand.isData_operandOf p name).ne_bool b
  | around right _ ih =>
      cases right with
      | none => rw [value]; exact ih
      | some r => rw [value]; exact ih

/-- **A reference makes a logical operator false**, unless there is no left operand and so no value.
-/
theorem IsReference.value_branch {n : Node} (h : n.IsReference) {op : Operator}
    (hop : op.isLogical = true) {left right : Option Node} (hn : left = some n ∨ right = some n)
    (context : Option Datum) :
    (branch (some op) left right).value context = if left.isSome then .bool false else .null := by
  have hne := h.value_ne_bool context
  cases left with
  | none => rw [value]; rfl
  | some l =>
      cases right with
      | none =>
          -- the reference must be the left operand
          have hl : l = n := by simpa using hn
          have hfalse := Operator.apply_eq_false (b := .bool false) hop (.inl hne)
          rw [value, hl]
          exact congrArg Operand.bool hfalse
      | some r =>
          have hside : (∀ x, l.value context ≠ .bool x) ∨ ∀ x, r.value context ≠ .bool x := by
            rcases hn with hl | hr
            · cases hl
              exact .inl hne
            · cases hr
              exact .inr hne
          have hfalse := Operator.apply_eq_false hop hside
          rw [value]
          exact congrArg Operand.bool hfalse

end Node

/-- Trees of the same value make conditions that both hold or both do not. -/
theorem Condition.holds_congr {c d : Condition} {p q : Option Datum}
    (h : c.root.value p = d.root.value q) : c.holds p = d.holds q := by
  rw [Bool.eq_iff_iff, holds_iff, holds_iff, h]

/-- **Evaluating in a context is evaluating without one what the context is substituted into.** It
makes no difference what else the context holds, and a reference under a logical operator makes it
false, or null where the left operand is missing, so that it never holds. -/
theorem evaluate_substitute (t : Node) (p : Datum) :
    (∀ other, (t.substitute p).evaluate other = t.evaluate (some p) ∧
        (Condition.mk (t.substitute p)).holds other = (Condition.mk t).holds (some p)) ∧
      (∀ q : Datum,
        (∀ name, Operand.parameter name ∈ t.leaves → p.operandOf name = q.operandOf name) →
          t.evaluate (some p) = t.evaluate (some q) ∧
            (Condition.mk t).holds (some p) = (Condition.mk t).holds (some q)) ∧
      ∀ (op : Operator) (left right : Option Node) (n : Node), op.isLogical = true →
        n.IsReference → left = some n ∨ right = some n → ∀ context,
          (Node.branch (some op) left right).evaluate context =
              (if left.isSome then .bool false else .null) ∧
            (Condition.mk (.branch (some op) left right)).holds context = false := by
  refine ⟨fun other => ?_, fun q h => ?_, fun op left right n hop hn hside context => ?_⟩
  · have hvalue := Node.value_substitute p other t
    rw [Node.evaluate_eq_value, Node.evaluate_eq_value]
    exact ⟨hvalue, Condition.holds_congr hvalue⟩
  · have hvalue := Node.value_congr h
    rw [Node.evaluate_eq_value, Node.evaluate_eq_value]
    exact ⟨hvalue, Condition.holds_congr hvalue⟩
  · have hvalue := hn.value_branch hop hside context
    rw [Node.evaluate_eq_value]
    refine ⟨hvalue, Bool.eq_false_iff.mpr fun hholds => ?_⟩
    have htrue := (Condition.holds_iff _ _).mp hholds
    rw [hvalue] at htrue
    cases hl : left.isSome <;> rw [hl] at htrue <;> cases htrue

/-- The condition `%a == '1' && %b`, with the same texts under `a` and `b` in two contexts that hold
different things besides. -/
theorem evaluate_substitute_reference :
    let compared := Node.branch (some .eq) (some (.leaf (.parameter "a"))) (some (.leaf (.text "1")))
    let reference := Node.branch none (some (.leaf (.parameter "b"))) none
    let joined := Node.branch (some .and) (some compared) (some reference)
    let p := Datum.object [("a", .text "1"), ("b", .bool true)]
    let q := Datum.object [("a", .text "1"), ("b", .text "true"), ("c", .null)]
    (joined.substitute p).evaluate none = joined.evaluate (some p) ∧
      (∀ name, Operand.parameter name ∈ joined.leaves → p.operandOf name = q.operandOf name) ∧
      joined.evaluate (some p) = joined.evaluate (some q) ∧
      Operator.and.isLogical = true ∧ reference.IsReference ∧
      joined.evaluate (some p) = .bool false := by
  intro compared reference joined p q
  have hnames : ∀ name, Operand.parameter name ∈ joined.leaves →
      p.operandOf name = q.operandOf name := by
    intro name hmem
    have hab : name = "a" ∨ name = "b" := by
      simpa [joined, compared, reference, Node.leaves, Node.childLeaves] using hmem
    rcases hab with rfl | rfl
    · rfl
    · rfl
  have hreference : reference.IsReference := .around none (.leaf "b")
  obtain ⟨hsubst, hagree, hfalse⟩ := evaluate_substitute joined p
  have hside : some compared = some reference ∨ some reference = some reference := .inr rfl
  exact ⟨(hsubst none).1, hnames, (hagree q hnames).1, rfl, hreference,
    (hfalse .and (some compared) (some reference) reference rfl hreference hside (some p)).1⟩

/-- The number `1.0`. -/
def Binary64.one : Binary64 where
  negative := false
  mantissa := leastMantissa
  exponent := -52
  canonical := by decide

/-- A reference to the right of `&&`, with nothing to the left of it: the branch is null, and not
false. And contexts that give equal decimals need not give equal results, since a text on the left of
`>=` tells `1` from `1.0`. -/
theorem reference_without_left_is_null :
    let reference := Node.leaf (.parameter "x")
    let headless := Node.branch (some .and) none (some reference)
    let ordered := Node.branch (some .ge) (some (.leaf (.text "1")))
      (some (.leaf (.parameter "a")))
    let p := Datum.object [("a", .number (.integer 1))]
    let q := Datum.object [("a", .number (.float .one))]
    (reference.IsReference ∧ headless.evaluate (some (.object [])) = .null ∧
        headless.evaluate (some (.object [])) ≠ .bool false) ∧
      (p.operandOf "a").same (q.operandOf "a") = true ∧
        ordered.evaluate (some p) = .bool true ∧ ordered.evaluate (some q) = .bool false := by
  refine ⟨⟨.leaf "x", ?_, ?_⟩, ?_⟩
  · decide +kernel
  · decide +kernel
  · decide +kernel

end Criterion
