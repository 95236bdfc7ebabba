import Mathlib.Data.List.Forall2

/-!
# Steps that may fail

To parse, to compile and to load are chains of steps of which any may fail, and the first failure is that
of the whole chain. A chain has a result just if each of its steps has one; the lemmas take a chain apart
in this way, for two steps and for the members of a list.
-/

namespace Criterion

section

variable {α β ε : Type}

theorem exists_ok_iff (x : Except ε α) : (∃ a, x = .ok a) ↔ x.isOk = true := by
  cases x with
  | error e => exact ⟨nofun, nofun⟩
  | ok a => exact ⟨fun _ => rfl, fun _ => ⟨a, rfl⟩⟩

theorem eq_ok_of_toOption {x : Except ε α} {a : α} (h : x.toOption = some a) : x = .ok a := by
  cases x with
  | error e => cases h
  | ok b => exact congrArg Except.ok (Option.some.inj h)

/-! ## One step behind another -/

theorem bind_eq_ok_iff {x : Except ε α} {f : α → Except ε β} {b : β} :
    x >>= f = .ok b ↔ ∃ a, x = .ok a ∧ f a = .ok b := by
  cases x with
  | error e =>
      constructor
      · rintro ⟨⟩
      · rintro ⟨_, ⟨⟩, -⟩
  | ok a =>
      constructor
      · exact fun h => ⟨a, rfl, h⟩
      · rintro ⟨_, ⟨⟩, hf⟩
        exact hf

theorem bind_eq_error_iff {x : Except ε α} {f : α → Except ε β} {e : ε} :
    x >>= f = .error e ↔ x = .error e ∨ ∃ a, x = .ok a ∧ f a = .error e := by
  cases x with
  | error e' =>
      constructor
      · rintro ⟨⟩
        exact .inl rfl
      · rintro (⟨⟨⟩⟩ | ⟨_, ⟨⟩, -⟩)
        rfl
  | ok a =>
      constructor
      · exact fun h => .inr ⟨a, rfl, h⟩
      · rintro (⟨⟨⟩⟩ | ⟨_, ⟨⟩, hf⟩)
        exact hf

theorem map_eq_ok_iff {x : Except ε α} {f : α → β} {b : β} :
    x.map f = .ok b ↔ ∃ a, x = .ok a ∧ f a = b := by
  cases x with
  | error e => exact ⟨nofun, nofun⟩
  | ok a =>
      constructor
      · exact fun h => ⟨a, rfl, Except.ok.inj h⟩
      · rintro ⟨_, ⟨⟩, rfl⟩
        rfl

/-! ## A step for each member of a list -/

theorem foldlM_cons_eq_ok_iff {f : β → α → Except ε β} {a : α} {l : List α} {b c : β} :
    (a :: l).foldlM f b = .ok c ↔ ∃ d, f b a = .ok d ∧ l.foldlM f d = .ok c := by
  rw [List.foldlM_cons, bind_eq_ok_iff]

variable {f : α → Except ε β}

theorem mapM_eq_ok_iff {l : List α} {bs : List β} :
    l.mapM f = .ok bs ↔ List.Forall₂ (fun a b => f a = .ok b) l bs := by
  induction l generalizing bs with
  | nil =>
      rw [List.mapM_nil, List.forall₂_nil_left_iff]
      exact ⟨fun h => (Except.ok.inj h).symm, fun h => by rw [h]; rfl⟩
  | cons a l ih =>
      rw [List.mapM_cons, List.forall₂_cons_left_iff, bind_eq_ok_iff]
      constructor
      · rintro ⟨b, hb, hrest⟩
        obtain ⟨cs, hcs, heq⟩ := bind_eq_ok_iff.mp hrest
        exact ⟨b, cs, hb, ih.mp hcs, (Except.ok.inj heq).symm⟩
      · rintro ⟨b, cs, hb, hcs, rfl⟩
        exact ⟨b, hb, bind_eq_ok_iff.mpr ⟨cs, ih.mpr hcs, rfl⟩⟩

/-- **The first failure in a list is that of the whole list.** -/
theorem mapM_eq_error_iff {l : List α} {e : ε} :
    l.mapM f = .error e ↔ ∃ before a behind, l = before ++ a :: behind ∧
      (∀ x ∈ before, ∃ b, f x = .ok b) ∧ f a = .error e := by
  induction l with
  | nil =>
      rw [List.mapM_nil]
      refine ⟨nofun, ?_⟩
      rintro ⟨before, a, behind, h, -⟩
      simp at h
  | cons a l ih =>
      rw [List.mapM_cons, bind_eq_error_iff]
      constructor
      · rintro (ha | ⟨b, hb, hrest⟩)
        · exact ⟨[], a, l, rfl, nofun, ha⟩
        · rcases bind_eq_error_iff.mp hrest with hl | ⟨cs, -, hcs⟩
          · -- the failure lies in the rest, so this member joins those before it
            obtain ⟨before, x, behind, rfl, hbefore, hx⟩ := ih.mp hl
            refine ⟨a :: before, x, behind, rfl, fun y hy => ?_, hx⟩
            rcases List.mem_cons.mp hy with rfl | hy
            · exact ⟨b, hb⟩
            · exact hbefore y hy
          · cases hcs
      · rintro ⟨before, x, behind, heq, hbefore, hx⟩
        cases before with
        | nil =>
            obtain ⟨rfl, -⟩ := List.cons.inj heq
            exact .inl hx
        | cons y before =>
            obtain ⟨rfl, rfl⟩ := List.cons.inj heq
            obtain ⟨b, hb⟩ := hbefore a List.mem_cons_self
            refine .inr ⟨b, hb, bind_eq_error_iff.mpr (.inl (ih.mpr ?_))⟩
            exact ⟨before, x, behind, rfl, fun z hz => hbefore z (List.mem_cons_of_mem _ hz), hx⟩

end

end Criterion
