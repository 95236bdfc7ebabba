import Criterion.Proofs.Token.RoundTrip

/-!
# A scan by byte offsets

In memory a text is a run of bytes, with one to four of them to a character. A scan over it keeps two
offsets: the one reached, and the one at which an unfinished word began. It can take a slice between
two offsets only if neither of them is in the middle of a character.

The scan here gives up where it cannot take a slice. By the invariant, an offset is always the size of
a whole number of characters: those behind the scan, or those before the unfinished word. So it never
gives up, and in the end it has the tokens that the scan over characters finds.
-/

namespace Criterion

namespace Token

/-! ## Slices -/

/-- The part of a text between two byte offsets, if they are in order and both are boundaries of
characters. -/
def slice? (text : String) (start stop : Nat) : Option String :=
  if h : start ≤ stop ∧ String.Pos.Raw.IsValid text ⟨start⟩ ∧ String.Pos.Raw.IsValid text ⟨stop⟩ then
    some (text.extract ⟨⟨start⟩, h.2.1⟩ ⟨⟨stop⟩, h.2.2⟩)
  else none

/-- A part of a text can be cut out by the sizes of what stands in front of it and of itself. -/
theorem slice?_append (before part behind : String) :
    slice? (before ++ (part ++ behind)) before.utf8ByteSize
      (before.utf8ByteSize + part.utf8ByteSize) = some part := by
  have hstart : String.Pos.Raw.IsValid (before ++ (part ++ behind)) ⟨before.utf8ByteSize⟩ :=
    String.Pos.Raw.isValid_iff_exists_append.mpr ⟨before, part ++ behind, rfl, rfl⟩
  have hstop : String.Pos.Raw.IsValid (before ++ (part ++ behind))
      ⟨before.utf8ByteSize + part.utf8ByteSize⟩ := by
    refine String.Pos.Raw.isValid_iff_exists_append.mpr ⟨before ++ part, behind, ?_, ?_⟩
    · rw [String.append_assoc]
    · rw [String.rawEndPos, String.utf8ByteSize_append]
  unfold slice?
  rw [dif_pos ⟨Nat.le_add_right _ _, hstart, hstop⟩]
  refine congrArg some (String.toByteArray_inj.mp ?_)
  change (before ++ (part ++ behind)).toByteArray.extract (before.toByteArray.size + 0)
    (before.toByteArray.size + part.toByteArray.size) = part.toByteArray
  rw [String.toByteArray_append, String.toByteArray_append, ByteArray.extract_append_size_add]
  exact ByteArray.extract_append_eq_left rfl

/-- Only from an offset to a later one is there anything to cut out. -/
theorem lt_of_slice? {text part : String} {start stop : Nat}
    (h : slice? text start stop = some part) (hne : part ≠ "") : start < stop := by
  unfold slice? at h
  split at h
  · next hvalid =>
      -- between one offset and itself there is the empty text only
      rcases Nat.lt_or_eq_of_le hvalid.1 with hlt | rfl
      · exact hlt
      · obtain rfl := Option.some.inj h
        refine absurd (String.toByteArray_inj.mp ?_) hne
        exact ByteArray.extract_same
  · cases h

theorem utf8ByteSize_ofList_singleton (c : Char) : (String.ofList [c]).utf8ByteSize = c.utf8Size := by
  rw [← String.singleton_eq_ofList, String.utf8ByteSize_singleton]

/-! ## The scan -/

theorem separator?_eq_find? (cs : List Char) :
    separator? cs =
      (separators.find? fun p => p.1 <+: cs).map fun p => (p.2, cs.drop p.1.length) := by
  rw [separator?_eq_findSome?, List.find?_eq_findSome?_guard, List.map_findSome?]
  refine findSome?_congr_mem fun p _ => ?_
  by_cases h : p.1 <+: cs <;> simp [Option.guard, h]

/-- Where a scan over the bytes of a text is: the tokens found so far, last one first, the offset at
which the unfinished word began, if there is one, and the offset reached. -/
structure ByteScan where
  tokens : List Token
  start? : Option Nat
  pos : Nat

namespace ByteScan

/-- The tokens when the unfinished word ends here. -/
def flush? (text : String) (s : ByteScan) : Option (List Token) :=
  match s.start? with
  | none => some s.tokens
  | some start => (slice? text start s.pos).map fun w => word w :: s.tokens

/-- One turn, at the character `c` with `cs` behind it: past the separator that begins here, or else past
the character. -/
def turn? (text : String) (s : ByteScan) (c : Char) (cs : List Char) : Option ByteScan :=
  match separators.find? fun p => p.1 <+: c :: cs with
  | some (sep, t) =>
      (s.flush? text).map fun tokens =>
        ⟨t :: tokens, none, s.pos + (String.ofList sep).utf8ByteSize⟩
  | none =>
      if isBlank c then (s.flush? text).map fun tokens => ⟨tokens, none, s.pos + c.utf8Size⟩
      else some ⟨s.tokens, s.start? <|> some s.pos, s.pos + c.utf8Size⟩

/-- The scan goes forward with every turn. -/
theorem pos_lt_of_turn? {text : String} {s s' : ByteScan} {c : Char} {cs : List Char}
    (h : s.turn? text c cs = some s') : s.pos < s'.pos := by
  unfold turn? at h
  split at h
  · next sep t hsep =>
      obtain ⟨tokens, -, rfl⟩ := Option.map_eq_some_iff.mp h
      have hmem : (sep, t) ∈ separators := List.mem_of_find?_eq_some hsep
      have hpos : 0 < (String.ofList sep).utf8ByteSize := by
        have hne := ne_nil_of_mem_separators hmem
        rw [Nat.pos_iff_ne_zero, ne_eq, String.utf8ByteSize_eq_zero_iff]
        simpa using hne
      exact Nat.lt_add_of_pos_right hpos
  · have hpos : s.pos < s.pos + c.utf8Size := Nat.lt_add_of_pos_right c.utf8Size_pos
    split at h
    · obtain ⟨tokens, -, rfl⟩ := Option.map_eq_some_iff.mp h
      exact hpos
    · obtain rfl := Option.some.inj h
      exact hpos

/-- Turn after turn to the end of the text. -/
def run? (text : String) (s : ByteScan) : Option (List Token) :=
  match _hrest : (slice? text s.pos text.utf8ByteSize).map String.toList with
  | none => none
  | some [] => (s.flush? text).map List.reverse
  | some (c :: cs) =>
      match _hturn : s.turn? text c cs with
      | none => none
      | some s' => run? text s'
termination_by text.utf8ByteSize - s.pos
decreasing_by
  obtain ⟨part, hslice, hpart⟩ := Option.map_eq_some_iff.mp _hrest
  have hne : part ≠ "" := by
    rintro rfl
    cases hpart
  have hlt : s.pos < text.utf8ByteSize := lt_of_slice? hslice hne
  have hforward : s.pos < s'.pos := pos_lt_of_turn? _hturn
  omega

/-- One turn, and then the rest of the run. -/
theorem run?_eq_bind (text : String) (s : ByteScan) :
    s.run? text = ((slice? text s.pos text.utf8ByteSize).map String.toList).bind fun
      | [] => (s.flush? text).map List.reverse
      | c :: cs => (s.turn? text c cs).bind fun s' => s'.run? text := by
  rw [run?]
  split
  · next hrest =>
      rw [hrest]
      rfl
  · next hrest =>
      rw [hrest]
      rfl
  · next c cs hrest =>
      rw [hrest]
      dsimp only [Option.bind_some]
      split
      · next hturn =>
          rw [hturn]
          rfl
      · next s' hturn =>
          rw [hturn]
          rfl

/-! ## The two scans side by side -/

/-- A scan over the bytes of a text is where the scan over its characters is, which has `tokens` behind
it, `word` unfinished and `cs` to come. -/
structure Tracks (text : String) (tokens : List Token) (word cs : List Char) (s : ByteScan) :
    Prop where
  tokens_eq : s.tokens = tokens
  offsets : ∃ before : String,
    text = before ++ (String.ofList word.reverse ++ String.ofList cs) ∧
      s.pos = before.utf8ByteSize + (String.ofList word.reverse).utf8ByteSize ∧
      s.start? = if word = [] then none else some before.utf8ByteSize

/-- At the beginning nothing is behind the scan. -/
theorem tracks_start (text : String) : Tracks text [] [] text.toList ⟨[], none, 0⟩ where
  tokens_eq := rfl
  offsets := ⟨"", by simp, rfl, rfl⟩

variable {text : String} {tokens : List Token} {word cs : List Char} {s : ByteScan}

/-- What is to come can be read. -/
theorem Tracks.slice?_eq (h : Tracks text tokens word cs s) :
    (slice? text s.pos text.utf8ByteSize).map String.toList = some cs := by
  obtain ⟨before, htext, hpos, -⟩ := h.offsets
  have hsize : text.utf8ByteSize = s.pos + (String.ofList cs).utf8ByteSize := by
    rw [htext, hpos, String.utf8ByteSize_append, String.utf8ByteSize_append, Nat.add_assoc]
  -- what is behind the scan, what is to come, and nothing behind that
  have hsplit : text = (before ++ String.ofList word.reverse) ++ (String.ofList cs ++ "") := by
    rw [htext, String.append_assoc, String.append_empty]
  have hslice := slice?_append (before ++ String.ofList word.reverse) (String.ofList cs) ""
  rw [← hsplit, String.utf8ByteSize_append, ← hpos, ← hsize] at hslice
  rw [hslice, Option.map_some, String.toList_ofList]

/-- The unfinished word can be cut out. -/
theorem Tracks.flush?_eq (h : Tracks text tokens word cs s) :
    s.flush? text = some (flush word tokens) := by
  obtain ⟨before, htext, hpos, hstart⟩ := h.offsets
  unfold ByteScan.flush? flush
  by_cases hword : word = []
  · simp [hstart, hword, h.tokens_eq]
  · have hslice := slice?_append before (String.ofList word.reverse) (String.ofList cs)
    rw [← htext, ← hpos] at hslice
    simp [hstart, hword, h.tokens_eq, hslice]

/-- Behind a text that the scan goes past, no word is unfinished. -/
theorem Tracks.past {past rest : List Char} (h : Tracks text tokens word (past ++ rest) s)
    (found : List Token) :
    Tracks text found [] rest ⟨found, none, s.pos + (String.ofList past).utf8ByteSize⟩ where
  tokens_eq := rfl
  offsets := by
    obtain ⟨before, htext, hpos, -⟩ := h.offsets
    refine ⟨before ++ (String.ofList word.reverse ++ String.ofList past), ?_, ?_, rfl⟩
    · rw [htext, String.ofList_append]
      simp [String.append_assoc]
    · simp [hpos, String.utf8ByteSize_append, Nat.add_assoc]

/-- **The two scans keep pace at a separator.** -/
theorem Tracks.turn?_of_separator? {c : Char} {rest : List Char} {t : Token}
    (h : Tracks text tokens word (c :: cs) s) (hsep : separator? (c :: cs) = some (t, rest)) :
    ∃ s', s.turn? text c cs = some s' ∧ Tracks text (t :: flush word tokens) [] rest s' := by
  rw [separator?_eq_find?, Option.map_eq_some_iff] at hsep
  obtain ⟨⟨sep, u⟩, hfind, heq⟩ := hsep
  obtain ⟨rfl, rfl⟩ := Prod.mk.inj heq
  have hfront : sep <+: c :: cs := by simpa using List.find?_some hfind
  obtain ⟨behind, hbehind⟩ := hfront
  refine ⟨⟨u :: flush word tokens, none, s.pos + (String.ofList sep).utf8ByteSize⟩, ?_, ?_⟩
  · simp [turn?, hfind, h.flush?_eq]
  · rw [← hbehind] at h ⊢
    rw [List.drop_left]
    exact h.past _

/-- **The two scans keep pace at a blank.** -/
theorem Tracks.turn?_of_isBlank {c : Char} (h : Tracks text tokens word (c :: cs) s)
    (hsep : separator? (c :: cs) = none) (hc : isBlank c = true) :
    ∃ s', s.turn? text c cs = some s' ∧ Tracks text (flush word tokens) [] cs s' := by
  rw [separator?_eq_find?, Option.map_eq_none_iff] at hsep
  refine ⟨⟨flush word tokens, none, s.pos + c.utf8Size⟩, ?_, ?_⟩
  · simp [turn?, hsep, hc, h.flush?_eq]
  · have hpast : Tracks text tokens word ([c] ++ cs) s := h
    rw [← utf8ByteSize_ofList_singleton]
    exact hpast.past _

/-- **The two scans keep pace at a character of a word.** -/
theorem Tracks.turn?_of_not_isBlank {c : Char} (h : Tracks text tokens word (c :: cs) s)
    (hsep : separator? (c :: cs) = none) (hc : isBlank c = false) :
    ∃ s', s.turn? text c cs = some s' ∧ Tracks text tokens (c :: word) cs s' := by
  rw [separator?_eq_find?, Option.map_eq_none_iff] at hsep
  refine ⟨⟨s.tokens, s.start? <|> some s.pos, s.pos + c.utf8Size⟩, ?_, h.tokens_eq, ?_⟩
  · simp [turn?, hsep, hc]
  · obtain ⟨before, htext, hpos, hstart⟩ := h.offsets
    have hword : String.ofList (c :: word).reverse =
        String.ofList word.reverse ++ String.ofList [c] := by
      rw [List.reverse_cons, String.ofList_append]
    refine ⟨before, ?_, ?_, ?_⟩
    · rw [htext, hword, ← List.singleton_append, String.ofList_append, String.append_assoc]
    · rw [hpos, hword, String.utf8ByteSize_append, utf8ByteSize_ofList_singleton, Nat.add_assoc]
    · -- the offset is that of this character, if it is the first one of its word
      by_cases hnil : word = []
      · simp [hstart, hpos, hnil]
      · simp [hstart, hnil]

/-- Where there is a character to come, the run takes a turn. -/
theorem Tracks.run?_cons {c : Char} (h : Tracks text tokens word (c :: cs) s) :
    s.run? text = (s.turn? text c cs).bind fun s' => s'.run? text := by
  rw [run?_eq_bind, h.slice?_eq]
  rfl

/-- The scan over the bytes gets to the end, and to the tokens that the scan over the characters gets
to. -/
theorem Tracks.run?_eq (h : Tracks text tokens word cs s) :
    s.run? text = some (scan tokens word cs) := by
  fun_induction scan tokens word cs generalizing s with
  | case1 tokens word cs t rest hsep ih =>
      cases cs with
      | nil => cases hsep
      | cons c cs =>
          obtain ⟨s', hturn, htracks⟩ := h.turn?_of_separator? hsep
          rw [h.run?_cons, hturn]
          exact ih htracks
  | case2 tokens word hsep =>
      rw [run?_eq_bind, h.slice?_eq, Option.bind_some, h.flush?_eq]
      rfl
  | case3 tokens word c rest hsep hc ih =>
      obtain ⟨s', hturn, htracks⟩ := h.turn?_of_isBlank hsep hc
      rw [h.run?_cons, hturn]
      exact ih htracks
  | case4 tokens word c rest hsep hc ih =>
      obtain ⟨s', hturn, htracks⟩ := h.turn?_of_not_isBlank hsep (by simpa using hc)
      rw [h.run?_cons, hturn]
      exact ih htracks

end ByteScan

/-- A scan by byte offsets always gets to the end of a text, and has the tokens of the text then. -/
theorem ByteScan.run?_start (text : String) : run? text ⟨[], none, 0⟩ = some (tokenize text) :=
  (tracks_start text).run?_eq

end Token

end Criterion
