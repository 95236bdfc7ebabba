import Criterion.Proofs.Comparing
import Criterion.Proofs.Substitution
import Mathlib.Data.Bool.AllAny

/-!
# Texts between quotes

A text is written as a word of a condition between single quotes, with each quote in it doubled and
each space spelled out. Reading the word back undoes the doubled quotes first and the spelled spaces
then. Neither replacement meets what the other one leaves: a spelling of a space holds no quote, and it
begins with a character that comes nowhere else in it, so that it lies in the written text just where a
space or a spelling of one lay in the text. What is read back is the text with its own spellings of a
space replaced, which is the text itself if there are none.

The quotes protect nothing from being cut. But what is put into a text to quote it belongs to no
separator, so that a word comes out in one piece if the text holds no separator itself, and no blank
character other than the space.
-/

namespace Criterion

/-! ## Replacing a pattern -/

section Replacing

variable {pattern replacement : List Char}

/-- What is written so far only stands in front of the rest. -/
theorem replaceAll_go (written cs : List Char) :
    replaceAll.go pattern replacement written cs =
      written.reverse ++ replaceAll.go pattern replacement [] cs := by
  match cs with
  | [] =>
      rw [replaceAll.go, replaceAll.go]
      simp
  | c :: rest =>
      rw [replaceAll.go, replaceAll.go]
      split
      · rw [replaceAll_go (replacement.reverse ++ written), replaceAll_go (replacement.reverse ++ [])]
        simp
      · rw [replaceAll_go (c :: written), replaceAll_go [c]]
        simp
termination_by cs.length
decreasing_by all_goals (simp only [List.length_drop, List.length_cons]; omega)

theorem replaceAll_nil : replaceAll pattern replacement [] = [] := by
  rw [replaceAll, replaceAll.go]
  rfl

/-- Where the pattern begins it is replaced as a whole. -/
theorem replaceAll_append (hne : pattern ≠ []) (cs : List Char) :
    replaceAll pattern replacement (pattern ++ cs) =
      replacement ++ replaceAll pattern replacement cs := by
  obtain ⟨q, qs, rfl⟩ := List.exists_cons_of_ne_nil hne
  have hprefix : (q :: qs).isPrefixOf (q :: (qs ++ cs)) = true :=
    List.isPrefixOf_iff_prefix.mpr (List.prefix_append (q :: qs) cs)
  have hdrop : (qs ++ cs).drop ((q :: qs).length - 1) = cs := List.drop_left
  rw [replaceAll, List.cons_append, replaceAll.go, if_pos hprefix, hdrop, replaceAll_go]
  simp [replaceAll]

/-- Where the pattern does not begin, one character is passed over. -/
theorem replaceAll_cons {c : Char} {cs : List Char} (h : ¬ pattern <+: c :: cs) :
    replaceAll pattern replacement (c :: cs) = c :: replaceAll pattern replacement cs := by
  have hprefix : ¬ pattern.isPrefixOf (c :: cs) = true := fun hp =>
    h (List.isPrefixOf_iff_prefix.mp hp)
  rw [replaceAll, replaceAll.go, if_neg hprefix, replaceAll_go]
  rfl

/-- Characters with which the pattern does not begin are passed over. -/
theorem replaceAll_append_of_notMem {q : Char} {qs ds : List Char} (h : q ∉ ds) (cs : List Char) :
    replaceAll (q :: qs) replacement (ds ++ cs) = ds ++ replaceAll (q :: qs) replacement cs := by
  induction ds with
  | nil => rfl
  | cons d ds ih =>
      rw [List.mem_cons, not_or] at h
      have hprefix : ¬ q :: qs <+: d :: (ds ++ cs) := fun hp => h.1 (List.cons_prefix_cons.mp hp).1
      rw [List.cons_append, replaceAll_cons hprefix, ih h.2]
      rfl

/-- A property of all texts follows by going over a text from the left, from one occurrence of the
pattern to the next. -/
theorem occurrences_induct {motive : List Char → Prop} (hne : pattern ≠ []) (nil : motive [])
    (found : ∀ cs, motive cs → motive (pattern ++ cs))
    (other : ∀ c cs, ¬ pattern <+: c :: cs → motive cs → motive (c :: cs)) (cs : List Char) :
    motive cs := by
  match cs with
  | [] => exact nil
  | c :: cs =>
      by_cases h : pattern <+: c :: cs
      · obtain ⟨rest, hrest⟩ := h
        have hlength : rest.length < (c :: cs).length := by
          rw [← hrest, List.length_append]
          have := List.length_pos_of_ne_nil hne
          omega
        rw [← hrest]
        exact found rest (occurrences_induct hne nil found other rest)
      · exact other c cs h (occurrences_induct hne nil found other cs)
termination_by cs.length
decreasing_by
  · exact hlength
  · exact Nat.lt_succ_self _

/-- Without the pattern in it, a text stays as it is. -/
theorem replaceAll_eq_self {cs : List Char} (h : ¬ pattern <:+: cs) :
    replaceAll pattern replacement cs = cs := by
  induction cs with
  | nil => exact replaceAll_nil
  | cons c cs ih =>
      rw [List.infix_cons_iff, not_or] at h
      rw [replaceAll_cons h.1, ih h.2]

theorem length_replaceAll_le (hlength : replacement.length < pattern.length) (cs : List Char) :
    (replaceAll pattern replacement cs).length ≤ cs.length := by
  have hne : pattern ≠ [] := List.ne_nil_of_length_pos (by omega)
  induction cs using occurrences_induct hne with
  | nil => rw [replaceAll_nil]
  | found cs ih =>
      rw [replaceAll_append hne, List.length_append, List.length_append]
      omega
  | other c cs h ih =>
      rw [replaceAll_cons h, List.length_cons, List.length_cons]
      omega

/-- A shorter replacement makes a text shorter where the pattern occurs. -/
theorem length_replaceAll_lt (hlength : replacement.length < pattern.length) {cs : List Char}
    (h : pattern <:+: cs) : (replaceAll pattern replacement cs).length < cs.length := by
  have hne : pattern ≠ [] := List.ne_nil_of_length_pos (by omega)
  induction cs using occurrences_induct hne with
  | nil => exact absurd (List.infix_nil.mp h) hne
  | found cs _ =>
      have hle := length_replaceAll_le hlength cs
      rw [replaceAll_append hne, List.length_append, List.length_append]
      omega
  | other c cs hprefix ih =>
      -- it does not begin here, so that it occurs further on
      have hlt := ih ((List.infix_cons_iff.mp h).resolve_left hprefix)
      rw [replaceAll_cons hprefix, List.length_cons, List.length_cons]
      omega

/-- A shorter replacement leaves a text as it is only if the pattern does not occur. -/
theorem replaceAll_eq_self_iff (hlength : replacement.length < pattern.length) {cs : List Char} :
    replaceAll pattern replacement cs = cs ↔ ¬ pattern <:+: cs := by
  refine ⟨fun heq h => ?_, replaceAll_eq_self⟩
  have hlt := length_replaceAll_lt hlength h
  rw [heq] at hlt
  exact Nat.lt_irrefl _ hlt

end Replacing

/-! ## Writing characters in place of others -/

section Writing

variable {s cs : List Char} {write : Char → List Char}

/-- What is written in place of characters makes no text begin with `s` if `s` does not go on with it.
-/
theorem prefix_of_prefix_flatMap
    (hs : ∀ c, write c = [c] ∨ ∃ d ds, write c = d :: ds ∧ d ∉ s)
    (h : s <+: cs.flatMap write) : s <+: cs := by
  induction cs generalizing s with
  | nil => exact h
  | cons c cs ih =>
      cases s with
      | nil => exact List.nil_prefix
      | cons q qs =>
          rw [List.flatMap_cons] at h
          rcases hs c with hc | ⟨d, ds, hc, hd⟩
          · rw [hc] at h
            obtain ⟨rfl, hrest⟩ := List.cons_prefix_cons.mp h
            have hqs : ∀ e, write e = [e] ∨ ∃ d ds, write e = d :: ds ∧ d ∉ qs := fun e =>
              (hs e).imp_right fun ⟨d, ds, he, hd⟩ =>
                ⟨d, ds, he, fun hmem => hd (List.mem_cons_of_mem _ hmem)⟩
            exact List.cons_prefix_cons.mpr ⟨rfl, ih hqs hrest⟩
          · rw [hc] at h
            obtain ⟨rfl, -⟩ := List.cons_prefix_cons.mp h
            exact absurd List.mem_cons_self hd

/-- What does not share a character with `s` can be left out in front. -/
theorem infix_of_infix_append {ds : List Char} (hne : s ≠ []) (hds : ∀ d ∈ ds, d ∉ s)
    (h : s <:+: ds ++ cs) : s <:+: cs := by
  induction ds with
  | nil => exact h
  | cons d ds ih =>
      rcases List.infix_cons_iff.mp h with hprefix | hinfix
      · obtain ⟨q, qs, rfl⟩ := List.exists_cons_of_ne_nil hne
        obtain ⟨rfl, -⟩ := List.cons_prefix_cons.mp hprefix
        exact absurd List.mem_cons_self (hds q List.mem_cons_self)
      · exact ih (fun e he => hds e (List.mem_cons_of_mem _ he)) hinfix

/-- A character that `s` does not have can be left out at the end. -/
theorem infix_of_infix_concat {q : Char} (hq : q ∉ s) (h : s <:+: cs ++ [q]) : s <:+: cs := by
  rcases List.infix_concat_iff.mp h with hsuffix | hinfix
  · rcases List.suffix_concat_iff.mp hsuffix with rfl | ⟨qs, rfl, -⟩
    · exact List.nil_infix
    · exact absurd (by simp) hq
  · exact hinfix

/-- What is written in place of characters lets `s` occur nowhere else if `s` shares no character with
it. -/
theorem infix_of_infix_flatMap (hne : s ≠ [])
    (hs : ∀ c, write c = [c] ∨ write c ≠ [] ∧ ∀ d ∈ write c, d ∉ s)
    (h : s <:+: cs.flatMap write) : s <:+: cs := by
  have hhead : ∀ c, write c = [c] ∨ ∃ d ds, write c = d :: ds ∧ d ∉ s := fun c =>
    (hs c).imp_right fun ⟨hc, hnot⟩ =>
      let ⟨d, ds, hcons⟩ := List.exists_cons_of_ne_nil hc
      ⟨d, ds, hcons, hnot d (hcons ▸ List.mem_cons_self)⟩
  induction cs with
  | nil => exact h
  | cons c cs ih =>
      rcases hs c with hc | ⟨-, hnot⟩
      · rw [List.flatMap_cons, hc] at h
        rcases List.infix_cons_iff.mp h with hprefix | hinfix
        · have hwhole : s <+: (c :: cs).flatMap write := by
            rw [List.flatMap_cons, hc]
            exact hprefix
          exact (prefix_of_prefix_flatMap hhead hwhole).isInfix
        · exact List.infix_cons (ih hinfix)
      · exact List.infix_cons (ih (infix_of_infix_append hne hnot h))

end Writing

/-! ## Quoting -/

namespace Operand

/-- A character, with a space spelled out. -/
def spellSpace (c : Char) : List Char := if c = ' ' then spaceSpelling else [c]

/-- A character as it stands between quotes: a quote twice, and a space spelled out. -/
def quoteChar (c : Char) : List Char := if c = '\'' then ['\'', '\''] else spellSpace c

/-- The word that stands for a text: its characters as they stand between quotes, and the quotes. -/
def quote (t : String) : String := String.ofList ('\'' :: (t.toList.flatMap quoteChar ++ ['\'']))

@[simp] theorem toList_quote (t : String) :
    (quote t).toList = '\'' :: (t.toList.flatMap quoteChar ++ ['\'']) := String.toList_ofList

theorem quote_notMem_spellSpace {c : Char} (h : c ≠ '\'') : '\'' ∉ spellSpace c := by
  unfold spellSpace
  split
  · decide
  · exact fun hmem => h (List.mem_singleton.mp hmem).symm

theorem spellSpace_eq {s : List Char} (c : Char) (hs : '$' ∉ s) :
    spellSpace c = [c] ∨ ∃ d ds, spellSpace c = d :: ds ∧ d ∉ s := by
  unfold spellSpace
  split
  · exact .inr ⟨'$', _, rfl, hs⟩
  · exact .inl rfl

/-- Halving the quotes undoes that they were doubled. -/
theorem replaceAll_quotes (cs : List Char) :
    replaceAll ['\'', '\''] ['\''] (cs.flatMap quoteChar) = cs.flatMap spellSpace := by
  induction cs with
  | nil => exact replaceAll_nil
  | cons c cs ih =>
      rw [List.flatMap_cons, List.flatMap_cons, quoteChar]
      split
      · next h =>
          rw [replaceAll_append (by simp), ih, h]
          rfl
      · next h => rw [replaceAll_append_of_notMem (quote_notMem_spellSpace h), ih]

/-- Spaces may be spelled out or not where their spellings are replaced by them afterwards. -/
theorem replaceAll_spellSpace (cs : List Char) :
    replaceAll spaceSpelling [' '] (cs.flatMap spellSpace) = replaceAll spaceSpelling [' '] cs := by
  have hne : spaceSpelling ≠ [] := by decide
  induction cs using occurrences_induct hne with
  | nil => rfl
  | found cs ih =>
      -- a spelling of a space holds no space itself
      have hself : spaceSpelling.flatMap spellSpace = spaceSpelling := by decide
      rw [List.flatMap_append, hself, replaceAll_append hne, replaceAll_append hne, ih]
  | other c cs h ih =>
      rw [replaceAll_cons h, List.flatMap_cons, spellSpace]
      split
      · next hc =>
          rw [replaceAll_append hne, ih, hc]
          rfl
      · -- no spelling of a space begins inside of one, so that the rest of it stood there before
        have hprefix : ¬ spaceSpelling <+: c :: cs.flatMap spellSpace := by
          intro hspelled
          obtain ⟨hc, hrest⟩ := List.cons_prefix_cons.mp hspelled
          have hrest := prefix_of_prefix_flatMap (fun d => spellSpace_eq d (by decide)) hrest
          exact h (List.cons_prefix_cons.mpr ⟨hc, hrest⟩)
        rw [List.cons_append, List.nil_append, replaceAll_cons hprefix, ih]

/-- **Reading what stands between the quotes** gives the text with its own spellings of a space
replaced. -/
theorem unescapeQuoted_quoteChar (cs : List Char) :
    unescapeQuoted (cs.flatMap quoteChar) = replaceAll spaceSpelling [' '] cs := by
  rw [unescapeQuoted, replaceAll_quotes, replaceAll_spellSpace]

/-- If no quote and no spelling of a space comes out, nothing was written in place of anything. -/
theorem flatMap_quoteChar_eq_self {cs : List Char} (hquote : '\'' ∉ cs.flatMap quoteChar)
    (hspace : 'p' ∉ cs.flatMap quoteChar) : cs.flatMap quoteChar = cs := by
  induction cs with
  | nil => rfl
  | cons c cs ih =>
      rw [List.flatMap_cons, List.mem_append, not_or] at hquote hspace
      rw [List.flatMap_cons, ih hquote.2 hspace.2]
      unfold quoteChar spellSpace at hquote hspace ⊢
      split
      · next h => simp [h] at hquote
      · next h =>
          split
          · next h' => simp [h', spaceSpelling] at hspace
          · rfl

/-- Between quotes, only the name of the blank mark is the spelling of the blank mark. -/
theorem quote_eq_blankSpelling_iff {t : String} :
    quote t = blankSpelling ↔ t = "$\x7bblank\x7d" := by
  constructor
  · intro h
    have hchars : '\'' :: (t.toList.flatMap quoteChar ++ ['\'']) = blankSpelling.toList := by
      rw [← toList_quote, h]
    have hinner : t.toList.flatMap quoteChar = "$\x7bblank\x7d".toList :=
      List.append_cancel_right (List.cons.inj hchars).2
    have hself : t.toList.flatMap quoteChar = t.toList :=
      flatMap_quoteChar_eq_self (by rw [hinner]; decide) (by rw [hinner]; decide)
    exact String.toList_injective (hself.symm.trans hinner)
  · rintro rfl
    decide

/-- **A quoted text is read back** with its spellings of a space replaced, unless it is the name of the
blank mark. -/
theorem ofWord_quote (t : String) : ofWord (quote t) =
    if t = "$\x7bblank\x7d" then blank
    else text (String.ofList (replaceAll spaceSpelling [' '] t.toList)) := by
  have hunquote : unquote? (quote t).toList = some (t.toList.flatMap quoteChar) := by
    rw [toList_quote, unquote?, if_pos List.getLast?_concat, List.dropLast_concat]
  unfold ofWord
  split
  · next h => simp at h
  · rw [hunquote]
    simp only [quote_eq_blankSpelling_iff, unescapeQuoted_quoteChar]

/-- A text comes back as it was just if it holds no spelling of a space and is not the name of the
blank mark. -/
theorem ofWord_quote_eq_iff {t : String} :
    ofWord (quote t) = text t ↔ ¬ spaceSpelling <:+: t.toList ∧ t ≠ "$\x7bblank\x7d" := by
  rw [ofWord_quote]
  split
  · next h => simp [h]
  · next h =>
      have hshort : [' '].length < spaceSpelling.length := by decide
      have hself : String.ofList (replaceAll spaceSpelling [' '] t.toList) = t ↔
          ¬ spaceSpelling <:+: t.toList := by
        rw [← replaceAll_eq_self_iff hshort]
        constructor
        · intro heq
          have hchars := congrArg String.toList heq
          rwa [String.toList_ofList] at hchars
        · intro heq
          rw [heq, String.ofList_toList]
      rw [text.injEq, hself]
      simp [h]

end Operand

/-! ## A quoted text is one word -/

namespace Operand

/-- The characters that quoting adds to a text. -/
def quotingMarks : List Char := '\'' :: spaceSpelling

/-- A character stands for itself, or marks that quoting adds stand for it. -/
theorem quoteChar_eq (c : Char) : quoteChar c = [c] ∨
    quoteChar c ≠ [] ∧ ∀ d ∈ quoteChar c, d ∈ quotingMarks := by
  unfold quoteChar spellSpace
  split
  · exact .inr ⟨by decide, List.all_iff_forall_prop.mp (by decide)⟩
  · split
    · exact .inr ⟨by decide, List.all_iff_forall_prop.mp (by decide)⟩
    · exact .inl rfl

theorem notMem_separator_of_mem_quotingMarks {s : List Char × Token} (hs : s ∈ Token.separators) :
    ∀ d ∈ quotingMarks, d ∉ s.1 := by
  have hall : Token.separators.all (fun s => quotingMarks.all (fun d => !s.1.contains d)) = true := by
    decide
  simpa using List.all_eq_true.mp hall s hs

theorem not_isBlank_of_mem_quotingMarks : ∀ c ∈ quotingMarks, Criterion.isBlank c = false :=
  List.all_iff_forall_prop.mp (by decide)

/-- A quoted text has no characters but those marks and its own, and no space. -/
theorem mem_quote {t : String} {c : Char} (h : c ∈ (quote t).toList) :
    c ∈ quotingMarks ∨ c ∈ t.toList ∧ c ≠ ' ' := by
  rw [toList_quote, List.mem_cons, List.mem_append, List.mem_singleton, List.mem_flatMap] at h
  rcases h with rfl | ⟨d, hd, hc⟩ | rfl
  · exact .inl (by decide)
  · unfold quoteChar spellSpace at hc
    split at hc
    · obtain rfl : c = '\'' := by simpa using hc
      exact .inl (by decide)
    · split at hc
      · exact .inl (List.mem_cons_of_mem _ hc)
      · next h =>
          obtain rfl := List.mem_singleton.mp hc
          exact .inr ⟨hd, h⟩
  · exact .inl (by decide)

/-- **A quoted text is a word** if it holds no separator, and no blank characters but spaces. -/
theorem isWord_quote {t : String} (hblank : ∀ c ∈ t.toList, Criterion.isBlank c = true → c = ' ')
    (hsep : ∀ s ∈ Token.separators, ¬ s.1 <:+: t.toList) : Token.IsWord (quote t).toList where
  ne_nil := by simp
  noBlank := fun c hc => by
    rcases mem_quote hc with hmark | ⟨hmem, hne⟩
    · exact not_isBlank_of_mem_quotingMarks c hmark
    · exact Bool.eq_false_iff.mpr fun h => hne (hblank c hmem h)
  noSeparator := fun s hs h => by
    have hmarks := notMem_separator_of_mem_quotingMarks hs
    have hne := Token.ne_nil_of_mem_separators hs
    have hquote : '\'' ∉ s.1 := hmarks '\'' (by decide)
    rw [toList_quote] at h
    -- leave out the quotes at both ends, and then what stands in place of characters
    have hbehind : s.1 <:+: t.toList.flatMap quoteChar ++ ['\''] :=
      infix_of_infix_append hne (by simpa using hquote) (show s.1 <:+: ['\''] ++ _ from h)
    have hinner := infix_of_infix_concat hquote hbehind
    have hwrite : ∀ c, quoteChar c = [c] ∨ quoteChar c ≠ [] ∧ ∀ d ∈ quoteChar c, d ∉ s.1 := fun c =>
      (quoteChar_eq c).imp_right fun ⟨hc, hd⟩ => ⟨hc, fun d hmem => hmarks d (hd d hmem)⟩
    exact hsep s hs (infix_of_infix_flatMap hne hwrite hinner)

end Operand

/-! ## A parameter compared with a quoted text -/

/-- A reference to a parameter has in a context the text that the context binds its name to. -/
theorem Operand.resolve_parameter_text {p : Datum} {name u : String}
    (h : p.lookup name = some (.text u)) : (parameter name).resolve (some p) = text u :=
  resolve_parameter_of_lookup h

/-- **A text between quotes stands for itself**, just if it holds no spelling of a space and is not the
name of the blank mark. If it holds no separator either, and no blank characters but spaces, it is one
word of a condition, and the condition that compares a parameter with it holds exactly where the
parameter is that text. -/
theorem quoted_text_read_back (t : String) :
    (Operand.ofWord (Operand.quote t) = .text t ↔
        ¬ Operand.spaceSpelling <:+: t.toList ∧ t ≠ "$\x7bblank\x7d") ∧
      ((∀ c ∈ t.toList, isBlank c = true → c = ' ') →
        (∀ s ∈ Token.separators, ¬ s.1 <:+: t.toList) →
          tokenize (Operand.quote t) = [.word (Operand.quote t)] ∧
            (¬ Operand.spaceSpelling <:+: t.toList → t ≠ "$\x7bblank\x7d" →
              ∀ name : String, Token.IsWord ('%' :: name.toList) →
                ∃ c, Condition.parse ("%" ++ name ++ " == " ++ Operand.quote t) = .ok c ∧
                  c.root = .branch (some .eq) (some (.leaf (.parameter name)))
                    (some (.leaf (.text t))) ∧
                  ∀ (p : Datum) (u : String), p.lookup name = some (.text u) →
                    (c.holds (some p) = true ↔ u = t))) := by
  refine ⟨Operand.ofWord_quote_eq_iff, fun hblank hsep => ?_⟩
  have hword := Operand.isWord_quote hblank hsep
  refine ⟨tokenize_word hword, fun hspace hmark name hname => ?_⟩
  have hreference : Token.IsWord ("%" ++ name).toList := by
    rw [String.toList_append]
    exact hname
  have hparameter : Operand.ofWord ("%" ++ name) = .parameter name := by
    rw [Operand.ofWord, String.toList_append]
    exact congrArg Operand.parameter String.ofList_toList
  have hparse := parse_comparing_eq hreference hword (show Operator.eq.isLogical = false from rfl)
  rw [hparameter, Operand.ofWord_quote_eq_iff.mpr ⟨hspace, hmark⟩] at hparse
  have htext : comparing ("%" ++ name) .eq (Operand.quote t) =
      "%" ++ name ++ " == " ++ Operand.quote t := by
    apply String.toList_injective
    simp [comparing, Operator.text]
  rw [htext] at hparse
  refine ⟨_, hparse, rfl, fun p u hlookup => ?_⟩
  rw [Condition.holds_iff, Node.value_branch, Node.value, Node.value,
    Operand.resolve_parameter_text hlookup, Operand.bool.injEq]
  exact Operand.equals_text u t

/-- A text with quotes at both its ends, and with a space in what would otherwise be the spelling of a
space. -/
theorem quoted_text_read_back_of_quotes :
    let t := "' $\x7bs p\x7d''"
    Operand.quote t = "'''$\x7bsp\x7d$\x7bs$\x7bsp\x7dp\x7d'''''" ∧
      Operand.ofWord (Operand.quote t) = .text t ∧
      (∀ c ∈ t.toList, isBlank c = true → c = ' ') ∧
      (∀ s ∈ Token.separators, ¬ s.1 <:+: t.toList) ∧
      tokenize (Operand.quote t) = [.word (Operand.quote t)] ∧
      ¬ Operand.spaceSpelling <:+: t.toList ∧ t ≠ "$\x7bblank\x7d" ∧
      Token.IsWord ('%' :: "x".toList) ∧
      ∃ c, Condition.parse ("%" ++ "x" ++ " == " ++ Operand.quote t) = .ok c ∧
        c.holds (some (.object [("x", .text t)])) = true ∧
        c.holds (some (.object [("x", .text "x")])) ≠ true := by
  intro t
  have hblank : ∀ c ∈ t.toList, isBlank c = true → c = ' ' :=
    List.all_iff_forall_prop.mp (by decide)
  have hsep : ∀ s ∈ Token.separators, ¬ s.1 <:+: t.toList := by decide
  have hspace : ¬ Operand.spaceSpelling <:+: t.toList := by decide
  have hmark : t ≠ "$\x7bblank\x7d" := by decide
  have hname : Token.IsWord ('%' :: "x".toList) := by decide
  obtain ⟨hread, hrest⟩ := quoted_text_read_back t
  obtain ⟨htoken, hcompare⟩ := hrest hblank hsep
  obtain ⟨c, hparse, -, hholds⟩ := hcompare hspace hmark "x" hname
  have hother : "x" ≠ t := by decide
  exact ⟨by decide, hread.mpr ⟨hspace, hmark⟩, hblank, hsep, htoken, hspace, hmark, hname, c, hparse,
    (hholds _ t rfl).mpr rfl, fun h => hother ((hholds _ "x" rfl).mp h)⟩

end Criterion
