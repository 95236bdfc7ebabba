import Criterion.Datum.Basic

/-!
# Fields say what the names have, and no more

Fields are a list, with each name once and in increasing order. Giving a value to a name keeps them so,
and two such lists are the same if every name has the same value in both. In which order the values
came to their names can therefore not be seen.
-/

namespace Criterion.Fields

variable {fields fields' : Fields} {name : String} {value : Datum}

/-- Giving a value to a name changes that name and no other. -/
theorem lookup_insert (name : String) (value : Datum) (fields : Fields) (other : String) :
    (fields.insert name value).lookup other =
      if other = name then some value else fields.lookup other := by
  split
  · next heq => rw [heq, lookup_insert_self]
  · next hne => rw [lookup_insert_of_ne hne]

/-- The names that have a value are those in the list. -/
theorem mem_names_iff : name ∈ fields.map (·.1) ↔ ∃ value, fields.lookup name = some value := by
  induction fields with
  | nil => simp [lookup]
  | cons field rest ih =>
      obtain ⟨other, old⟩ := field
      rw [List.map_cons, List.mem_cons, lookup, ih]
      split
      · next heq => simp [heq]
      · next hne => simp [hne]

/-! ## Order -/

/-- Each name is there once, and the names increase. -/
def InOrder (fields : Fields) : Prop := fields.Pairwise fun a b => a.1 < b.1

theorem inOrder_nil : InOrder [] := .nil

/-- What is in the list after a value is given was there before, but for the value itself. -/
theorem mem_insert {field : String × Datum} (h : field ∈ fields.insert name value) :
    field = (name, value) ∨ field ∈ fields := by
  induction fields with
  | nil => exact .inl (List.mem_singleton.mp h)
  | cons first rest ih =>
      obtain ⟨other, old⟩ := first
      unfold insert at h
      split at h
      · exact List.mem_cons.mp h
      · split at h
        · exact (List.mem_cons.mp h).imp_right (List.mem_cons_of_mem _)
        · rcases List.mem_cons.mp h with rfl | h
          · exact .inr List.mem_cons_self
          · exact (ih h).imp_right (List.mem_cons_of_mem _)

/-- **Giving a value keeps the order.** -/
theorem InOrder.insert (h : fields.InOrder) (name : String) (value : Datum) :
    (fields.insert name value).InOrder := by
  induction fields with
  | nil => exact List.pairwise_singleton _ _
  | cons field rest ih =>
      obtain ⟨other, old⟩ := field
      obtain ⟨hbelow, hrest⟩ := List.pairwise_cons.mp h
      unfold Fields.insert
      split
      · next hlt =>
          -- in front of all the others
          refine List.pairwise_cons.mpr ⟨fun field hfield => ?_, h⟩
          rcases List.mem_cons.mp hfield with rfl | hfield
          · exact hlt
          · exact String.lt_trans hlt (hbelow field hfield)
      · next hnot =>
          split
          · next heq =>
              -- in the place of the value that the name had
              subst heq
              exact List.pairwise_cons.mpr ⟨hbelow, hrest⟩
          · next hne =>
              -- further behind, where all names are greater than the first one, and this one is as well
              refine List.pairwise_cons.mpr ⟨fun field hfield => ?_, ih hrest⟩
              rcases mem_insert hfield with rfl | hfield
              · exact Std.lt_of_le_of_ne (String.not_lt.mp hnot) (Ne.symm hne)
              · exact hbelow field hfield

/-- Fields that are made of assignments are in order. -/
theorem inOrder_ofList (assignments : List (String × Datum)) : (ofList assignments).InOrder := by
  suffices h : ∀ (l : List (String × Datum)) (fields : Fields), fields.InOrder →
      (l.foldl (fun fields a => insert a.1 a.2 fields) fields).InOrder from
    h assignments [] inOrder_nil
  intro l
  induction l with
  | nil => exact fun _ h => h
  | cons a l ih => exact fun fields h => ih _ (h.insert a.1 a.2)

/-- In order, what is in the list for a name is what looking the name up finds. -/
theorem InOrder.mem_iff (h : fields.InOrder) :
    (name, value) ∈ fields ↔ fields.lookup name = some value := by
  induction fields with
  | nil => simp [lookup]
  | cons field rest ih =>
      obtain ⟨other, old⟩ := field
      obtain ⟨hbelow, hrest⟩ := List.pairwise_cons.mp h
      rw [List.mem_cons, ih hrest, lookup]
      split
      · next heq =>
          subst heq
          constructor
          · rintro (heq | hfound)
            · exact congrArg some (Prod.mk.inj heq).2.symm
            · -- a name behind the first one is greater
              exact absurd (hbelow _ ((ih hrest).mpr hfound)) (String.lt_irrefl _)
          · intro hold
            exact .inl (by rw [Option.some.inj hold])
      · next hne =>
          refine or_iff_right fun heq => hne (Prod.mk.inj heq).1

theorem InOrder.nodup (h : fields.InOrder) : fields.Nodup := by
  refine List.Pairwise.imp (fun {a b} hlt heq => ?_) h
  subst heq
  exact String.lt_irrefl _ hlt

/-- **Fields in order are the same if every name has the same value in them.** -/
theorem InOrder.ext (h : fields.InOrder) (h' : fields'.InOrder)
    (hlookup : ∀ name, fields.lookup name = fields'.lookup name) : fields = fields' := by
  -- the two lists hold the same fields, and there is one order for them
  have hperm : fields.Perm fields' := by
    refine (List.perm_ext_iff_of_nodup h.nodup h'.nodup).mpr fun (name, value) => ?_
    rw [h.mem_iff, h'.mem_iff, hlookup]
  refine hperm.eq_of_pairwise (fun a b _ _ hab hba => ?_) h h'
  exact absurd (String.lt_trans hab hba) (String.lt_irrefl _)

end Criterion.Fields
