import Criterion.Proofs.Assignments
import Criterion.Proofs.Except

/-!
# Overrides

The parameters of a call are those of a file with overrides over them. The fields of a file are in order,
whatever its YAML looks like, since an object is only ever made by giving values to names; so the result
is in order as well, and what each name has in it is all that there is to say.

A file that cannot be had fails every call, whatever its overrides are.
-/

namespace Criterion

namespace Yaml

/-! ## Objects in a document are in order -/

/-- A float is a number, or null for one that is not finite. -/
theorem floatOf?_ne_object (text : String) (fields : Fields) :
    floatOf? text ≠ some (.object fields) := by
  unfold floatOf?
  split
  · rintro ⟨⟩
  · dsimp only
    split
    · rintro ⟨⟩
    · intro h
      obtain ⟨x, -, hx⟩ := Option.map_eq_some_iff.mp h
      cases hx

/-- Without quotes a scalar is null, a truth value, a number or a text. -/
theorem plainDatum?_ne_object (text : String) (fields : Fields) :
    plainDatum? text ≠ some (.object fields) := by
  unfold plainDatum?
  split
  · rintro ⟨⟩
  · cases boolOf? text with
    | some b => rintro ⟨⟩
    | none =>
        cases readInteger text.toList with
        | fits n => rintro ⟨⟩
        | tooLong => rintro ⟨⟩
        | notInteger =>
            dsimp only
            split
            · rintro ⟨⟩
            · cases hfloat : floatOf? text with
              | none => rintro ⟨⟩
              | some value => exact fun h => floatOf?_ne_object text fields (hfloat.trans h)

/-- A tag asks for one of these, and fails where it is not to be had. -/
theorem taggedDatum?_ne_object (tag : Octets) (text : String) (plain : Bool) (fields : Fields) :
    taggedDatum? tag text plain ≠ some (.object fields) := by
  intro h
  unfold taggedDatum? at h
  -- the tags of truth values, integers, floats and null, then a plain scalar, and any other text
  split_ifs at h
  · obtain ⟨b, -, hb⟩ := Option.map_eq_some_iff.mp h
    cases hb
  · cases hinteger : readInteger text.toList <;> simp [hinteger] at h
  · exact floatOf?_ne_object text fields h
  · cases h
  · exact plainDatum?_ne_object text fields h
  · cases h

/-- A scalar is never an object. -/
theorem scalarDatum?_ne_object (tag : Option Octets) (text : String) (plain : Bool)
    (fields : Fields) : scalarDatum? tag text plain ≠ some (.object fields) := by
  unfold scalarDatum?
  cases tag with
  | some tag => exact taggedDatum?_ne_object tag text plain fields
  | none =>
      dsimp only
      split
      · exact plainDatum?_ne_object text fields
      · rintro ⟨⟩

/-- To read one thing and then another, both have to be read. -/
theorem run_bind_eq_some_iff {α β : Type} {x : StateT Nat Option α} {f : α → StateT Nat Option β}
    {s : Nat} {r : β × Nat} :
    (x >>= f).run s = some r ↔ ∃ a s', x.run s = some (a, s') ∧ (f a).run s' = some r := by
  rw [StateT.run_bind]
  exact Option.bind_eq_some_iff.trans Prod.exists

theorem run_lift_scalarDatum?_ne_object (tag : Option Octets) (text : String) (plain : Bool)
    (fields : Fields) (left left' : Nat) :
    (StateT.lift (scalarDatum? tag text plain) : StateT Nat Option Datum).run left ≠
      some (.object fields, left') := by
  intro h
  rw [StateT.run_lift] at h
  obtain ⟨value, hvalue, hsome⟩ := Option.bind_eq_some_iff.mp h
  cases hsome
  exact scalarDatum?_ne_object tag text plain fields hvalue

/-- **An object that a node denotes has its fields in order.** Only a mapping denotes an object, and it
gives its values one after the other. -/
theorem inOrder_of_treeDatum {targets : Targets} {depth left left' : Nat} {tree : Tree}
    {fields : Fields} (h : (treeDatum targets depth tree).run left = some (.object fields, left')) :
    fields.InOrder := by
  cases depth with
  | zero =>
      -- too deep for collections
      rw [treeDatum] at h
      obtain ⟨node, s, -, h⟩ := run_bind_eq_some_iff.mp h
      cases node with
      | scalar p text plain => exact absurd h (run_lift_scalarDatum?_ne_object _ _ _ _ _ _)
      | sequence p items => cases h
      | mapping p entries => cases h
      | reference n => cases h
  | succ depth =>
      rw [treeDatum] at h
      obtain ⟨node, s, -, h⟩ := run_bind_eq_some_iff.mp h
      cases node with
      | scalar p text plain => exact absurd h (run_lift_scalarDatum?_ne_object _ _ _ _ _ _)
      | sequence p items =>
          obtain ⟨-, s, -, h⟩ := run_bind_eq_some_iff.mp h
          obtain ⟨data, s, -, h⟩ := run_bind_eq_some_iff.mp h
          cases h
      | mapping p entries =>
          obtain ⟨-, s, -, h⟩ := run_bind_eq_some_iff.mp h
          -- the only object there is
          obtain ⟨pairs, s, -, h⟩ := run_bind_eq_some_iff.mp h
          cases h
          exact Fields.inOrder_ofList pairs
      | reference n => cases h

end Yaml

/-- So are those of the object that a document denotes. -/
theorem Datum.inOrder_of_ofYaml? {text : String} {fields : Fields}
    (h : Datum.ofYaml? text = some (.object fields)) : fields.InOrder := by
  obtain ⟨document, -, hdocument⟩ := Option.bind_eq_some_iff.mp h
  cases document with
  | none => cases hdocument
  | some tree =>
      obtain ⟨⟨value, left⟩, hrun, rfl⟩ := Option.map_eq_some_iff.mp hdocument
      exact Yaml.inOrder_of_treeDatum hrun

namespace Parameters

variable {files : Files} {path : Option String}

/-! ## Over a file -/

theorem inOrder_of_ofYaml {text : String} {fields : Fields} (h : ofYaml text = .ok fields) :
    fields.InOrder := by
  unfold ofYaml at h
  split at h
  · cases h
    exact Fields.inOrder_nil
  · split at h
    · cases h
    · next hvalue =>
        cases h
        exact Datum.inOrder_of_ofYaml? hvalue
    · cases h
      exact Fields.inOrder_nil
    · cases h

/-- The parameters of a file are in order, and so are none at all. -/
theorem inOrder_of_ofFile {fields : Fields} (h : ofFile files path = .ok fields) :
    fields.InOrder := by
  cases path with
  | none =>
      cases h
      exact Fields.inOrder_nil
  | some path =>
      obtain ⟨text, -, htext⟩ := bind_eq_ok_iff.mp h
      exact inOrder_of_ofYaml htext

/-- To load parameters is to read the file and then to go on with what it holds. -/
theorem load_eq_map (files : Files) (path : Option String) (overrides : List Assignment) :
    load files path overrides = (ofFile files path).map (assign · overrides) := by
  unfold load
  cases ofFile files path <;> rfl

/-- A list of overrides can be applied in two parts. -/
theorem load_append (files : Files) (path : Option String) (first second : List Assignment) :
    load files path (first ++ second) = (load files path first).map (assign · second) := by
  rw [load_eq_map, load_eq_map]
  cases ofFile files path with
  | error e => rfl
  | ok fields => exact congrArg Except.ok (assign_append fields first second)

/-- Only the overrides for one name have to keep their order. -/
theorem Rearranged.load_eq {overrides overrides' : List Assignment}
    (h : Rearranged overrides overrides') (files : Files) (path : Option String) :
    load files path overrides = load files path overrides' := by
  rw [load_eq_map, load_eq_map]
  cases hfile : ofFile files path with
  | error e => rfl
  | ok fields => exact congrArg Except.ok (h.assign_eq (inOrder_of_ofFile hfile))

end Parameters

open Parameters

/-- **Overrides win, and the last one first.** Where the parameters of the file can be had, or there is no
file, every name has the value of the last override for it, or else what the file gives it; there are no
other names, and this says all about the result. A list of overrides can be applied in two parts. Only
those for the same name have to keep their order, so where no name comes twice every order will do. The
text of an override is cut at its first equals sign: the part in front, without the blanks at its ends,
is the name, and the part behind alone decides the value. It is refused just if there is no such sign or
nothing but blanks in front of it. Where the parameters of the file cannot be had, the failure is the same
with every list of overrides. -/
theorem overrides_win (files : Files) (path : Option String) :
    (∀ fields, ofFile files path = .ok fields → ∀ overrides, ∃ result,
      load files path overrides = .ok result ∧ result.InOrder ∧
      (∀ name, result.lookup name = (lastValue? overrides name).or (fields.lookup name)) ∧
      (∀ name, name ∈ result.map (·.1) ↔
        name ∈ fields.map (·.1) ∨ ∃ a ∈ overrides, a.name = name) ∧
      ∀ other : Fields, other.InOrder →
        (∀ name, other.lookup name = (lastValue? overrides name).or (fields.lookup name)) →
          other = result) ∧
    (∀ e, ofFile files path = .error e → ∀ overrides, load files path overrides = .error e) ∧
    (∀ first second,
      load files path (first ++ second) = (load files path first).map (assign · second)) ∧
    (∀ overrides overrides', Rearranged overrides overrides' →
      load files path overrides = load files path overrides') ∧
    (∀ overrides overrides', overrides.Perm overrides' → (overrides.map (·.name)).Nodup →
      load files path overrides = load files path overrides') ∧
    ∀ text,
      (∀ a, Assignment.ofText text = .ok a ↔ ∃ name value : String, text = name ++ "=" ++ value ∧
        '=' ∉ name.toList ∧ isBlankText name = false ∧
          a = ⟨trim name, Assignment.valueOfText value⟩) ∧
      ∀ e, Assignment.ofText text = .error e ↔
        '=' ∉ text.toList ∧ e = .configuration (.notAssignment text) ∨
          ∃ name value : String, text = name ++ "=" ++ value ∧ '=' ∉ name.toList ∧
            isBlankText name = true ∧ e = .configuration (.missingName text) := by
  refine ⟨fun fields h overrides => ?_, fun e h overrides => ?_, load_append files path,
    fun _ _ h => h.load_eq files path, fun _ _ hperm hnodup => ?_, fun text => ⟨fun a => ?_, fun e => ?_⟩⟩
  · have horder := inOrder_assign (inOrder_of_ofFile h) overrides
    refine ⟨assign fields overrides, ?_, horder, lookup_assign fields overrides,
      fun name => mem_names_assign, fun other hother hlookup => ?_⟩
    · rw [load_eq_map, h]
      rfl
    · exact hother.ext horder fun name => (hlookup name).trans (lookup_assign ..).symm
  · rw [load_eq_map, h]
    rfl
  · exact (rearranged_of_perm hperm hnodup).load_eq files path
  · exact Assignment.ofText_eq_ok_iff
  · exact Assignment.ofText_eq_error_iff

/-- One file that gives values to two names. -/
def overriddenFiles : Files := fun path =>
  if path = "values.yaml" then some "age: 10\nname: taro\n" else none

/-- Two overrides for a name that the file has as well; the second is written with blanks around its name
and an equals sign in its value. -/
theorem overrides_win_last :
    ∃ fields result, ofFile overriddenFiles (some "values.yaml") = .ok fields ∧
      Assignment.ofText " age =a=b" = .ok ⟨"age", Assignment.valueOfText "a=b"⟩ ∧
      load overriddenFiles (some "values.yaml") [⟨"age", .number (.integer 40)⟩, ⟨"city", .null⟩,
        ⟨"age", Assignment.valueOfText "a=b"⟩] = .ok result ∧
      result.lookup "age" = some (Assignment.valueOfText "a=b") ∧
      (result.lookup "name").map Datum.toJson = some "\"taro\"" ∧
      load overriddenFiles (some "values.yaml") [⟨"city", .null⟩, ⟨"age", .number (.integer 40)⟩,
        ⟨"age", Assignment.valueOfText "a=b"⟩] = .ok result ∧
      load overriddenFiles (some "other.yaml") [⟨"city", .null⟩] = .error .unreadable := by
  obtain ⟨fields, hfields⟩ := (exists_ok_iff (ofFile overriddenFiles (some "values.yaml"))).mpr
    (by decide +kernel)
  have hname : ((ofFile overriddenFiles (some "values.yaml")).toOption.map fun fields =>
      (fields.lookup "name").map Datum.toJson) = some (some "\"taro\"") := by decide +kernel
  rw [hfields] at hname
  obtain ⟨hwin, -, -, horder, -, htext⟩ := overrides_win overriddenFiles (some "values.yaml")
  obtain ⟨result, hload, -, hlookup, -⟩ := hwin fields hfields [⟨"age", .number (.integer 40)⟩,
    ⟨"city", .null⟩, ⟨"age", Assignment.valueOfText "a=b"⟩]
  have hmissing := (overrides_win overriddenFiles (some "other.yaml")).2.1 .unreadable rfl
  refine ⟨fields, result, hfields, ?_, hload, ?_, ?_, ?_, hmissing _⟩
  · have htrim : "age" = trim " age " := by decide
    exact ((htext " age =a=b").1 _).mpr ⟨" age ", "a=b", rfl, by decide, by decide, htrim ▸ rfl⟩
  · have hlast : ∀ value, lastValue? [⟨"age", .number (.integer 40)⟩, ⟨"city", .null⟩,
        ⟨"age", value⟩] "age" = some value := fun _ => rfl
    rw [hlookup, hlast, Option.some_or]
  · have hlast : ∀ value, lastValue? [⟨"age", .number (.integer 40)⟩, ⟨"city", .null⟩,
        ⟨"age", value⟩] "name" = none := fun _ => rfl
    rw [hlookup, hlast, Option.none_or]
    exact Option.some.inj hname
  · rw [← hload]
    exact horder _ _ (rearranged_swap (by decide) [] _)

end Criterion
