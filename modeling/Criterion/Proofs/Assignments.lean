import Criterion.Parameters
import Criterion.Proofs.Datum.Fields
import Mathlib.Data.List.DropRight

/-!
# Assignments

The text of an assignment is cut at its first equals sign. What stands in front of the sign names the
parameter, blanks at its ends apart, and what stands behind it alone decides the value; more equals signs
may follow there. A text without the sign is refused, and so is one with nothing but blanks in front of
it.

Assignments that are put over parameters one after the other leave every name with the value of the last
one for it, and with the value that it had if there is none. The order of assignments for different names
makes no difference.
-/

namespace Criterion

/-! ## Reading an assignment -/

theorem trimBlanks_eq_nil_iff {cs : List Char} : trimBlanks cs = [] ↔ ∀ c ∈ cs, isBlank c = true := by
  have htrim : trimBlanks cs = (cs.dropWhile isBlank).rdropWhile isBlank := rfl
  rw [htrim, List.rdropWhile_eq_nil_iff]
  constructor
  · -- a character that is taken off in front is blank, and so is one that is left for the other end
    intro h c hc
    rw [← List.takeWhile_append_dropWhile (p := isBlank) (l := cs)] at hc
    rcases List.mem_append.mp hc with hc | hc
    · exact List.mem_takeWhile_imp hc
    · exact h c hc
  · exact fun h c hc => h c ((List.dropWhile_sublist _).mem hc)

theorem isEmpty_trimBlanks (text : String) : (trimBlanks text.toList).isEmpty = isBlankText text := by
  rw [Bool.eq_iff_iff, List.isEmpty_iff, trimBlanks_eq_nil_iff, isBlankText, List.all_eq_true]

namespace Assignment

/-- A text without an equals sign assigns nothing. -/
theorem ofText_of_notMem {text : String} (h : '=' ∉ text.toList) :
    ofText text = .error (.configuration (.notAssignment text)) := by
  have hdrop : text.toList.dropWhile (· != '=') = [] := by
    refine List.dropWhile_eq_nil_iff.mpr fun c hc => ?_
    exact bne_iff_ne.mpr fun heq => h (heq ▸ hc)
  rw [ofText, hdrop]

/-- The first equals sign parts an assignment into its name and its value. -/
theorem ofText_append {name : String} (h : '=' ∉ name.toList) (value : String) :
    ofText (name ++ "=" ++ value) =
      if isBlankText name then .error (.configuration (.missingName (name ++ "=" ++ value)))
      else .ok ⟨trim name, valueOfText value⟩ := by
  have hall : ∀ c ∈ name.toList, (c != '=') = true := fun c hc =>
    bne_iff_ne.mpr fun heq => h (heq ▸ hc)
  have htext : (name ++ "=" ++ value).toList = name.toList ++ '=' :: value.toList := by simp
  have hdrop : (name.toList ++ '=' :: value.toList).dropWhile (· != '=') = '=' :: value.toList := by
    rw [List.dropWhile_append_of_pos hall]
    rfl
  have htake : (name.toList ++ '=' :: value.toList).takeWhile (· != '=') = name.toList := by
    rw [List.takeWhile_append_of_pos hall]
    exact List.append_nil _
  rw [ofText, htext, hdrop]
  dsimp only
  rw [htake, isEmpty_trimBlanks, String.ofList_toList]
  rfl

theorem exists_eq_append {text : String} (h : '=' ∈ text.toList) :
    ∃ name value : String, '=' ∉ name.toList ∧ text = name ++ "=" ++ value := by
  obtain ⟨before, behind, heq, hbefore⟩ := List.eq_append_cons_of_mem h
  refine ⟨String.ofList before, String.ofList behind, by rwa [String.toList_ofList], ?_⟩
  rw [← String.toList_inj, heq]
  simp

/-- **What is accepted**: a name that is not blank, and any text behind its equals sign. -/
theorem ofText_eq_ok_iff {text : String} {a : Assignment} :
    ofText text = .ok a ↔ ∃ name value : String, text = name ++ "=" ++ value ∧
      '=' ∉ name.toList ∧ isBlankText name = false ∧ a = ⟨trim name, valueOfText value⟩ := by
  constructor
  · intro h
    by_cases hmem : '=' ∈ text.toList
    · obtain ⟨name, value, hname, rfl⟩ := exists_eq_append hmem
      rw [ofText_append hname] at h
      split at h
      · cases h
      · next hblank =>
          exact ⟨name, value, rfl, hname, Bool.eq_false_iff.mpr hblank, (Except.ok.inj h).symm⟩
    · rw [ofText_of_notMem hmem] at h
      cases h
  · rintro ⟨name, value, rfl, hname, hblank, rfl⟩
    rw [ofText_append hname, hblank, if_neg Bool.false_ne_true]

/-- **What is refused**, and what is told of it: the sign is missing, or the name is. -/
theorem ofText_eq_error_iff {text : String} {e : Error} :
    ofText text = .error e ↔
      '=' ∉ text.toList ∧ e = .configuration (.notAssignment text) ∨
        ∃ name value : String, text = name ++ "=" ++ value ∧ '=' ∉ name.toList ∧
          isBlankText name = true ∧ e = .configuration (.missingName text) := by
  constructor
  · intro h
    by_cases hmem : '=' ∈ text.toList
    · obtain ⟨name, value, hname, rfl⟩ := exists_eq_append hmem
      rw [ofText_append hname] at h
      split at h
      · next hblank => exact .inr ⟨name, value, rfl, hname, hblank, (Except.error.inj h).symm⟩
      · cases h
    · rw [ofText_of_notMem hmem] at h
      exact .inl ⟨hmem, (Except.error.inj h).symm⟩
  · rintro (⟨hmem, rfl⟩ | ⟨name, value, rfl, hname, hblank, rfl⟩)
    · exact ofText_of_notMem hmem
    · rw [ofText_append hname, if_pos hblank]

end Assignment

/-! ## One over the other -/

namespace Parameters

variable {fields : Fields} {l l' : List Assignment}

/-- The value of the last assignment for a name. -/
def lastValue? (assignments : List Assignment) (name : String) : Option Datum :=
  (assignments.reverse.find? (·.name == name)).map (·.value)

theorem lastValue?_concat (l : List Assignment) (a : Assignment) (name : String) :
    lastValue? (l ++ [a]) name = if name = a.name then some a.value else lastValue? l name := by
  rw [lastValue?, List.reverse_concat, List.find?_cons]
  split
  · next heq => rw [if_pos (beq_iff_eq.mp heq).symm, Option.map_some]
  · next hne => rw [if_neg fun heq => beq_eq_false_iff_ne.mp hne heq.symm, lastValue?]

theorem lastValue?_eq_none_iff {name : String} :
    lastValue? l name = none ↔ ∀ a ∈ l, a.name ≠ name := by
  simp only [lastValue?, Option.map_eq_none_iff, List.find?_eq_none, List.mem_reverse, beq_iff_eq,
    ne_eq]

theorem assign_append (fields : Fields) (l l' : List Assignment) :
    assign fields (l ++ l') = assign (assign fields l) l' := List.foldl_append

theorem assign_concat (fields : Fields) (l : List Assignment) (a : Assignment) :
    assign fields (l ++ [a]) = (assign fields l).insert a.name a.value := assign_append fields l [a]

theorem inOrder_assign (h : fields.InOrder) (l : List Assignment) : (assign fields l).InOrder := by
  induction l using List.reverseRecOn with
  | nil => exact h
  | append_singleton l a ih =>
      rw [assign_concat]
      exact ih.insert a.name a.value

/-- **A name has the value of the last assignment for it**, or else the one that it had. -/
theorem lookup_assign (fields : Fields) (l : List Assignment) (name : String) :
    (assign fields l).lookup name = (lastValue? l name).or (fields.lookup name) := by
  -- from the end of the list: the last assignment lies over all the others
  induction l using List.reverseRecOn with
  | nil => rfl
  | append_singleton l a ih =>
      rw [assign_concat, Fields.lookup_insert, lastValue?_concat, ih]
      split
      · rfl
      · rfl

/-- Assignments add names and take none away. -/
theorem mem_names_assign {name : String} : name ∈ (assign fields l).map (·.1) ↔
    name ∈ fields.map (·.1) ∨ ∃ a ∈ l, a.name = name := by
  rw [Fields.mem_names_iff, Fields.mem_names_iff, lookup_assign]
  cases hlast : lastValue? l name with
  | none =>
      have hnone := lastValue?_eq_none_iff.mp hlast
      rw [Option.none_or]
      exact (or_iff_left fun ⟨a, ha, hname⟩ => hnone a ha hname).symm
  | some value =>
      have hsome : ∃ a ∈ l, a.name = name := by
        by_contra hall
        have hnone : lastValue? l name = none :=
          lastValue?_eq_none_iff.mpr fun a ha hname => hall ⟨a, ha, hname⟩
        rw [hlast] at hnone
        cases hnone
      exact iff_of_true ⟨value, rfl⟩ (.inr hsome)

/-! ## Changing the order -/

/-- The same assignments in another order, in which those for one name have kept theirs. -/
def Rearranged (l l' : List Assignment) : Prop :=
  ∀ name, l.filter (·.name == name) = l'.filter (·.name == name)

theorem lastValue?_eq_getLast? (l : List Assignment) (name : String) :
    lastValue? l name = ((l.filter (·.name == name)).getLast?).map (·.value) := by
  rw [List.getLast?_filter, lastValue?]

/-- **The order matters between assignments for one name only.** -/
theorem Rearranged.assign_eq (h : Rearranged l l') (hfields : fields.InOrder) :
    assign fields l = assign fields l' := by
  refine (inOrder_assign hfields l).ext (inOrder_assign hfields l') fun name => ?_
  rw [lookup_assign, lookup_assign, lastValue?_eq_getLast?, lastValue?_eq_getLast?, h name]

/-- Neighbours for different names may change places. -/
theorem rearranged_swap {a b : Assignment} (h : a.name ≠ b.name) (before behind : List Assignment) :
    Rearranged (before ++ a :: b :: behind) (before ++ b :: a :: behind) := by
  intro name
  rw [List.filter_append, List.filter_append]
  congr 1
  -- at most one of the two is for this name, so the filter keeps no order between them
  by_cases ha : a.name = name
  · have hb : b.name ≠ name := fun hb => h (ha.trans hb.symm)
    simp only [List.filter_cons, beq_iff_eq, ha, hb, if_true, if_false]
  · simp only [List.filter_cons, beq_iff_eq, ha, if_false]

/-- Where each name is assigned once, every order will do. -/
theorem rearranged_of_perm (hperm : l.Perm l') (hnodup : (l.map (·.name)).Nodup) :
    Rearranged l l' := by
  intro name
  -- at most one assignment is for this name, and a list of one has one order only
  have hfilter := hperm.filter (·.name == name)
  have hnames : ∀ a ∈ l.filter (·.name == name), a.name = name := fun a ha =>
    beq_iff_eq.mp (List.mem_filter.mp ha).2
  have hdistinct : ((l.filter (·.name == name)).map (·.name)).Nodup :=
    hnodup.sublist (List.filter_sublist.map _)
  generalize l.filter (·.name == name) = same at hfilter hnames hdistinct ⊢
  match same with
  | [] => exact (List.perm_nil.mp hfilter.symm).symm
  | [a] => exact (List.perm_singleton.mp hfilter.symm).symm
  | a :: b :: rest =>
      have hne : a.name ≠ b.name := by
        simp only [List.map_cons, List.nodup_cons, List.mem_cons, not_or] at hdistinct
        exact hdistinct.1.1
      exact absurd ((hnames a (by simp)).trans (hnames b (by simp)).symm) hne

end Parameters

end Criterion
