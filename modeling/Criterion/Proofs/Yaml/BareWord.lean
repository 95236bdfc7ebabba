import Criterion.Yaml.Datum
import Mathlib.Data.List.Basic

/-!
# A text of one bare word

A text without white space, colons and marks at its front is a document of one plain scalar, which is
the whole text. What datum it is, its spelling decides.
-/

namespace Criterion.Yaml

/-- A text of one word that begins with no mark and holds no colon. -/
structure IsBareWord (cs : List Char) : Prop where
  allowed : ∀ c ∈ cs, isAllowed c = true
  noGap : ∀ c ∈ cs, isGap c = false
  noColon : ':' ∉ cs
  first : ∀ c ∈ cs.head?, Layout.isIndicator c = false ∧ c ≠ '\uFEFF'
  notMark : cs ∉ [[], ['-'], ['?'], ['-', '-', '-'], ['.', '.', '.']]

/-! ## Places -/

theorem octetCount_nil : octetCount [] = 0 := rfl

/-- The place behind a text of one line. -/
def Cursor.behind (cs : List Char) : Cursor := (start cs).advance cs.length

@[simp] theorem Cursor.rest_behind (cs : List Char) : (behind cs).rest = [] :=
  List.drop_length

@[simp] theorem Cursor.advance_zero (c : Cursor) : c.advance 0 = c := by
  simp [advance, octetCount_nil]

theorem isSpaceOrTab_eq_false {c : Char} (h : isGap c = false) : isSpaceOrTab c = false := by
  rw [isGap, Bool.or_eq_false_iff] at h
  exact h.1

theorem isBreak_eq_false {c : Char} (h : isGap c = false) : isBreak c = false := by
  rw [isGap, Bool.or_eq_false_iff] at h
  exact h.2

theorem endsWord_eq_false {cs : List Char} (hne : cs ≠ []) (h : ∀ c ∈ cs, isGap c = false) :
    endsWord cs = false := by
  obtain ⟨c, cs, rfl⟩ := List.exists_cons_of_ne_nil hne
  exact h c List.mem_cons_self

/-- No line ends at a place where a word goes on, or the text is over. -/
theorem Cursor.takeBreak?_eq_none {c : Cursor} (h : ∀ ch ∈ c.rest.head?, isGap ch = false) :
    c.takeBreak? = none := by
  unfold takeBreak?
  split
  · next heq =>
    rw [heq] at h
    cases h '\r' rfl
  · next ch rest hne heq =>
    rw [heq] at h
    rw [isBreak_eq_false (h ch rfl)]
    rfl
  · rfl

/-- Nothing is gone over where the next character is not to be. -/
theorem Cursor.skipWhile_eq_self {c : Cursor} {p : Char → Bool}
    (h : ∀ ch ∈ c.rest.head?, p ch = false) : c.skipWhile p = c := by
  have htaken : c.rest.takeWhile p = [] := by
    cases hrest : c.rest with
    | nil => rfl
    | cons ch rest =>
        rw [hrest] at h
        rw [List.takeWhile_cons_of_neg (by rw [h ch rfl]; exact Bool.false_ne_true)]
  rw [skipWhile, takeWhile, htaken]
  exact advance_zero c

namespace IsBareWord

variable {cs : List Char}

theorem ne_nil (h : IsBareWord cs) : cs ≠ [] := by
  rintro rfl
  exact h.notMark (by decide)

/-- Three dashes or points are a mark only with white space behind them. -/
theorem atDocumentMark (h : IsBareWord cs) : (Cursor.start cs).atDocumentMark = false := by
  have hmark := h.notMark
  simp only [List.mem_cons, List.not_mem_nil, or_false, not_or] at hmark
  obtain ⟨-, -, -, hdashes, hpoints⟩ := hmark
  have hrest : ∀ mark rest : List Char, cs = mark ++ rest → cs ≠ mark → endsWord rest = false := by
    rintro mark rest rfl hne
    refine endsWord_eq_false (fun hnil => hne ?_) fun c hc =>
      h.noGap c (List.mem_append.mpr (.inr hc))
    rw [hnil, List.append_nil]
  unfold Cursor.atDocumentMark Cursor.start
  dsimp only
  rw [Bool.and_eq_false_iff]
  right
  split
  · next rest => exact hrest ['-', '-', '-'] rest rfl hdashes
  · next rest => exact hrest ['.', '.', '.'] rest rfl hpoints
  · rfl

/-! ## The word is taken whole -/

/-- Only white space or a colon would end the word. -/
theorem plainWord_eq (h : ∀ c ∈ cs, isGap c = false) (hcolon : ':' ∉ cs) (taken : List Char) :
    plainWord false taken cs = some (cs.reverse ++ taken) := by
  induction cs generalizing taken with
  | nil => rfl
  | cons c cs ih =>
      have hgap : isGap c = false := h c List.mem_cons_self
      have hne : (c == ':') = false := beq_eq_false_iff_ne.mpr fun heq =>
        hcolon (heq ▸ List.mem_cons_self)
      rw [plainWord, hgap, hne]
      simp only [Bool.false_and, Bool.false_eq_true, if_false]
      rw [ih (fun d hd => h d (List.mem_cons_of_mem _ hd))
        (fun hd => hcolon (List.mem_cons_of_mem _ hd))]
      simp

/-- The scalar is the whole text, since there is nothing behind its first word. -/
theorem plainScalar?_eq (h : IsBareWord cs) :
    plainScalar? false 0 (.start cs) = some (⟨cs, false⟩, .behind cs) := by
  have hhash : (Cursor.start cs).at? '#' = false := by
    obtain ⟨c, rest, rfl⟩ := List.exists_cons_of_ne_nil h.ne_nil
    have hne : c ≠ '#' := by
      rintro rfl
      cases (h.first '#' rfl).1
    simpa [Cursor.at?, Cursor.start] using hne
  have hword : plainWord false [] (Cursor.start cs).rest = some cs.reverse := by
    rw [← List.append_nil cs.reverse]
    exact plainWord_eq h.noGap h.noColon []
  have hempty : cs.reverse.isEmpty = false := by simpa using h.ne_nil
  have hbehind : (Cursor.start cs).advance cs.reverse.length = .behind cs := by
    rw [List.length_reverse]
    rfl
  rw [plainScalar?, plainWords, h.atDocumentMark, hhash, hword]
  simp only [Bool.or_false, Bool.false_eq_true, if_false, hempty, hbehind, Cursor.rest_behind,
    List.head?_nil, Option.any_none, Gap.none, Gap.folded, List.reverse_nil, List.append_nil,
    List.reverse_reverse, Gap.isLines]

end IsBareWord

/-! ## The tokens -/

namespace Layout

/-- No block collection and no flow collection is open, and nothing must be a key. -/
structure IsFlat (s : Layout) : Prop where
  outerIndents : s.outerIndents = []
  outerCandidates : s.outerCandidates = []
  optional : s.candidate.any (·.required) = false

variable {s : Layout}

theorem IsFlat.inFlow (h : s.IsFlat) : s.inFlow = false := by
  rw [Layout.inFlow, h.outerCandidates]
  rfl

/-- There is no block to close, however little a line is indented. -/
theorem IsFlat.unindent (h : s.IsFlat) (column : Int) : s.unindent column = s := by
  rw [Layout.unindent, h.inFlow, h.outerIndents, closeBlocks]
  simp only [Bool.false_eq_true, if_false]
  rw [← h.outerIndents]

theorem IsFlat.dropStaleKeys (h : s.IsFlat) :
    ∃ candidate, s.dropStaleKeys = some { s with candidate } ∧
      ({ s with candidate } : Layout).IsFlat := by
  have houter : s.outerCandidates.mapM (dropStale s.cursor) = some s.outerCandidates := by
    rw [h.outerCandidates]
    rfl
  -- behind a word of more than 1024 octets the candidate is given up
  have hdrop : ∃ candidate, dropStale s.cursor s.candidate = some candidate ∧
      candidate.any (·.required) = false := by
    cases hc : s.candidate with
    | none => exact ⟨none, rfl, rfl⟩
    | some key =>
        have hrequired : key.required = false := by simpa [hc] using h.optional
        rw [dropStale]
        split
        · exact ⟨none, by rw [hrequired]; rfl, rfl⟩
        · exact ⟨some key, rfl, hrequired⟩
  obtain ⟨candidate, hcandidate, hoptional⟩ := hdrop
  refine ⟨candidate, ?_, h.outerIndents, h.outerCandidates, hoptional⟩
  simp only [Layout.dropStaleKeys, hcandidate, houter, bind, Option.bind]
  rfl

theorem IsFlat.dropKey (h : s.IsFlat) : s.dropKey = some { s with candidate := none } := by
  rw [Layout.dropKey, h.optional]
  rfl

/-- Nothing is gone over where a word begins, or the text is over. -/
theorem skipBlanks_eq_self {fuel : Nat}
    (h : ∀ c ∈ s.cursor.rest.head?, isGap c = false ∧ c ≠ '#' ∧ c ≠ '\uFEFF') :
    s.skipBlanks (fuel + 1) = s := by
  have hmark : s.cursor.at? '\uFEFF' = false :=
    beq_eq_false_iff_ne.mpr fun heq => (h _ heq).2.2 rfl
  have hblanks : ∀ tabs, (s.cursor.skipWhile fun ch => ch == ' ' || (tabs && ch == '\t')) =
      s.cursor := fun tabs => Cursor.skipWhile_eq_self fun ch hch => by
    have hgap := isSpaceOrTab_eq_false (h ch hch).1
    rw [isSpaceOrTab, Bool.or_eq_false_iff] at hgap
    rw [hgap.1, hgap.2, Bool.and_false, Bool.or_false]
  have hcomment : s.cursor.skipComment = s.cursor := by
    rw [Cursor.skipComment, if_neg]
    exact fun heq => (h _ (beq_iff_eq.mp heq)).2.1 rfl
  rw [skipBlanks, hmark]
  simp only [Bool.and_false, Bool.false_eq_true, if_false, hblanks, hcomment,
    Cursor.takeBreak?_eq_none fun ch hch => (h ch hch).1]

/-- Where the text is over, the tokens are those that have been taken. -/
theorem IsFlat.run_of_rest_nil (h : s.IsFlat) (hrest : s.cursor.rest = []) (fuel : Nat) :
    s.run (fuel + 1) = some s.tokens.toList := by
  obtain ⟨candidate, hstale, hflat⟩ := h.dropStaleKeys
  have hskip : s.skipBlanks (s.cursor.left + 1) = s := skipBlanks_eq_self (by simp [hrest])
  rw [run, hskip, hstale]
  simp only [bind, Option.bind, hflat.unindent, hrest, hflat.dropKey]
  rfl

/-- A word that begins with no mark is taken as a plain scalar. -/
theorem IsFlat.takeToken_eq {ch : Char} {rest : List Char} (hs : s.IsFlat)
    (h : IsBareWord (ch :: rest)) (hcursor : s.cursor = .start (ch :: rest)) :
    s.takeToken ch rest = s.takePlain := by
  have hindicator : isIndicator ch = false := (h.first ch rfl).1
  have hgap : isGap ch = false := h.noGap ch List.mem_cons_self
  have hpercent : (ch == '%') = false := beq_eq_false_iff_ne.mpr fun heq => by
    subst heq
    cases hindicator
  -- a dash or a question mark is a mark only with white space behind it
  have hends : [ch] ∈ [['-'], ['?']] → endsWord rest = false := by
    intro hch
    refine endsWord_eq_false (fun hnil => h.notMark ?_) fun c hc =>
      h.noGap c (List.mem_cons_of_mem _ hc)
    rw [hnil]
    exact List.mem_cons_of_mem _ (List.mem_append_left [['-', '-', '-'], ['.', '.', '.']] hch)
  unfold takeToken
  rw [hcursor, hpercent, Bool.and_false, if_neg Bool.false_ne_true, h.atDocumentMark,
    if_neg Bool.false_ne_true, hs.inFlow, Bool.false_or]
  dsimp only
  split
  case h_6 => rw [hends (by decide), if_neg Bool.false_ne_true]
  case h_7 => rw [hends (by decide), if_neg Bool.false_ne_true]
  case h_8 => exact absurd List.mem_cons_self h.noColon
  case h_16 => rw [hindicator, hgap, Bool.false_or, if_neg Bool.false_ne_true]
  -- every other mark is an indicator
  all_goals cases hindicator

/-- The text before anything has been taken. -/
def begin (cs : List Char) : Layout := { cursor := .start cs }

theorem isFlat_begin (cs : List Char) : (begin cs).IsFlat := ⟨rfl, rfl, rfl⟩

/-- The text whose first node might be a key. -/
def noted (cs : List Char) : Layout := { begin cs with candidate := some ⟨false, 0, .start cs⟩ }

theorem takePlain_begin {cs : List Char} (h : IsBareWord cs) :
    (begin cs).takePlain = some { noted cs with
      cursor := .behind cs
      tokens := #[.scalar (String.ofList cs) true]
      keyAllowed := false } := by
  have hnote : (begin cs).noteKey = some (noted cs) := rfl
  have hscalar : plainScalar? (noted cs).inFlow ((noted cs).indent + 1).toNat (noted cs).cursor =
      some (⟨cs, false⟩, .behind cs) := h.plainScalar?_eq
  simp only [takePlain, hnote, hscalar, bind, Option.bind]
  rfl

/-- **The text is one token**, and the run is over then. -/
theorem run_begin {cs : List Char} (h : IsBareWord cs) :
    (begin cs).run (cs.length + 1) = some [.scalar (String.ofList cs) true] := by
  obtain ⟨ch, rest, rfl⟩ := List.exists_cons_of_ne_nil h.ne_nil
  have hflat := isFlat_begin (ch :: rest)
  have hskip : (begin (ch :: rest)).skipBlanks ((begin (ch :: rest)).cursor.left + 1) =
      begin (ch :: rest) := by
    refine skipBlanks_eq_self fun c hc => ?_
    obtain rfl : ch = c := Option.some.inj hc
    refine ⟨h.noGap ch List.mem_cons_self, ?_, (h.first ch rfl).2⟩
    rintro rfl
    cases (h.first '#' rfl).1
  have hstale : (begin (ch :: rest)).dropStaleKeys = some (begin (ch :: rest)) := rfl
  have hrest : (begin (ch :: rest)).cursor.rest = ch :: rest := rfl
  rw [List.length_cons, run, hskip, hstale]
  simp only [bind, Option.bind, hflat.unindent, hrest, hflat.takeToken_eq h rfl, takePlain_begin h]
  exact IsFlat.run_of_rest_nil ⟨rfl, rfl, rfl⟩ (Cursor.rest_behind _) _

end Layout

theorem tokens?_of_isBareWord {cs : List Char} (h : IsBareWord cs) :
    tokens? (String.ofList cs) = some [.scalar (String.ofList cs) true] := by
  rw [tokens?, String.toList_ofList, if_pos (List.all_eq_true.mpr h.allowed)]
  exact Layout.run_begin h

/-! ## The document -/

theorem readDocument?_scalar (text : String) :
    readDocument? [.scalar text true] = some (some (.scalar {} text true)) := rfl

theorem treeDatum_scalar (targets : Targets) (depth : Nat) (p : Properties) (text : String)
    (plain : Bool) (left : Nat) : (treeDatum targets depth (.scalar p text plain)).run left =
      (scalarDatum? p.tag text plain).map (·, left) := by
  have hlift : (treeDatum targets depth (.scalar p text plain)).run left =
      ((StateT.lift (scalarDatum? p.tag text plain) : StateT Nat Option Datum).run left) := by
    cases depth <;> (rw [treeDatum]; rfl)
  rw [hlift]
  cases scalarDatum? p.tag text plain <;> rfl

/-- A document of one plain scalar is the datum that its spelling decides. -/
theorem documentDatum?_scalar (text : String) :
    documentDatum? (some (.scalar {} text true)) = plainDatum? text := by
  rw [documentDatum?, treeDatum_scalar, Option.map_map]
  exact Option.map_id'

end Criterion.Yaml

namespace Criterion

/-- **A text of one bare word is the datum that its spelling decides.** -/
theorem Datum.ofYaml?_of_isBareWord {text : String} (h : Yaml.IsBareWord text.toList) :
    Datum.ofYaml? text = Yaml.plainDatum? text := by
  have htokens := Yaml.tokens?_of_isBareWord h
  rw [String.ofList_toList] at htokens
  rw [Datum.ofYaml?, Yaml.document?, htokens, Option.bind_some, Yaml.readDocument?_scalar,
    Option.bind_some, Yaml.documentDatum?_scalar]

end Criterion
