import Criterion.Proofs.Parsing
import Mathlib.Data.List.Infix

/-!
# Reading tokens back

The lists of tokens that texts are cut into are those whose words hold no blank character and no
separator. Each of them is cut out of every text that spells its tokens with blanks in between, and in
particular out of the tokens' own texts. What a text is parsed to hangs on its tokens alone.
-/

namespace Criterion

namespace Token

/-! ## Words and blanks can be told -/

-- the characters of a text are tested one by one; there are too many characters to test them all
instance (bs : List Char) : Decidable (Blanks bs) :=
  decidable_of_iff (bs.all isBlank = true) List.all_eq_true

instance (cs : List Char) : Decidable (AtBlank cs) :=
  decidable_of_iff (cs.head?.toList.all isBlank = true)
    (List.all_eq_true.trans (by simp [AtBlank]))

theorem isWord_iff {w : List Char} : IsWord w ↔ w.isEmpty = false ∧
    w.all (fun c => !isBlank c) = true ∧ ∀ s ∈ separators, ¬ s.1 <:+: w := by
  rw [List.all_eq_true, List.isEmpty_eq_false_iff]
  constructor
  · rintro ⟨hne, hblank, hsep⟩
    exact ⟨hne, fun c hc => by rw [hblank c hc]; rfl, hsep⟩
  · rintro ⟨hne, hblank, hsep⟩
    exact ⟨hne, fun c hc => by simpa using hblank c hc, hsep⟩

instance (w : List Char) : Decidable (IsWord w) := decidable_of_iff' _ isWord_iff

/-! ## The words that the scan finds -/

theorem ne_nil_of_mem_separators {s : List Char × Token} (hs : s ∈ separators) : s.1 ≠ [] := by
  revert s
  decide

/-- A separator stands for no word. -/
theorem isProper_of_separator? {cs rest : List Char} {t : Token}
    (h : separator? cs = some (t, rest)) : t.IsProper := by
  rintro w rfl
  unfold separator? at h
  split at h <;> simp at h

/-- An unfinished word, last character first, in front of the rest of a text: no character of it is
blank, and none of them begins a separator, be it one that goes on into the rest. -/
structure Pending (word cs : List Char) : Prop where
  noBlank : ∀ c ∈ word, isBlank c = false
  noSeparator : ∀ v, v ≠ [] → v <:+ word.reverse → separator? (v ++ cs) = none

theorem pending_nil (cs : List Char) : Pending [] cs where
  noBlank := nofun
  noSeparator := fun _ hv hsuffix => absurd (List.suffix_nil.mp hsuffix) hv

/-- **Preserved by every character of a word.** -/
theorem Pending.cons {word cs : List Char} {c : Char} (h : Pending word (c :: cs))
    (hsep : separator? (c :: cs) = none) (hc : isBlank c = false) : Pending (c :: word) cs where
  noBlank := fun d hd => by
    rcases List.mem_cons.mp hd with rfl | hd
    · exact hc
    · exact h.noBlank d hd
  noSeparator := fun v hv hsuffix => by
    rw [List.reverse_cons, List.suffix_concat_iff] at hsuffix
    rcases hsuffix with rfl | ⟨u, rfl, hu⟩
    · exact absurd rfl hv
    · -- the part begins before the new character, or is that character
      rw [List.append_assoc]
      by_cases hnil : u = []
      · rw [hnil]
        exact hsep
      · exact h.noSeparator u hnil hu

/-- When it is over it is a word: a separator in it would begin somewhere in it. -/
theorem Pending.isWord {word cs : List Char} (h : Pending word cs) (hne : word ≠ []) :
    IsWord word.reverse where
  ne_nil := by simpa using hne
  noBlank := fun c hc => h.noBlank c (List.mem_reverse.mp hc)
  noSeparator := by
    rintro s hs ⟨before, behind, heq⟩
    have hne : s.1 ++ behind ≠ [] :=
      List.append_ne_nil_of_left_ne_nil (ne_nil_of_mem_separators hs) behind
    have hsuffix : s.1 ++ behind <:+ word.reverse := by
      rw [← heq, List.append_assoc]
      exact List.suffix_append before _
    have hnone := h.noSeparator _ hne hsuffix
    rw [List.append_assoc] at hnone
    exact separator?_eq_none_iff.mp hnone s hs (List.prefix_append s.1 _)

/-- The word that is over is proper, as all tokens before it. -/
theorem isProper_of_mem_flush {word cs : List Char} (h : Pending word cs) {tokens : List Token}
    (ht : ∀ t ∈ tokens, t.IsProper) : ∀ t ∈ flush word tokens, t.IsProper := by
  unfold flush
  split
  · exact ht
  · next hne =>
      intro t hmem
      rcases List.mem_cons.mp hmem with rfl | hmem
      · rintro w hw
        obtain rfl := Token.word.inj hw
        rw [String.toList_ofList]
        exact h.isWord (by simpa using hne)
      · exact ht t hmem

/-- **The scan finds proper tokens only.** -/
theorem isProper_of_mem_scan {tokens : List Token} {word cs : List Char} (h : Pending word cs)
    (ht : ∀ t ∈ tokens, t.IsProper) : ∀ t ∈ scan tokens word cs, t.IsProper := by
  fun_induction scan tokens word cs with
  | case1 tokens word cs t rest hsep ih =>
      refine ih (pending_nil rest) fun s hs => ?_
      rcases List.mem_cons.mp hs with rfl | hs
      · exact isProper_of_separator? hsep
      · exact isProper_of_mem_flush h ht s hs
  | case2 tokens word hsep =>
      exact fun t hmem => isProper_of_mem_flush h ht t (List.mem_reverse.mp hmem)
  | case3 tokens word c rest hsep hc ih => exact ih (pending_nil rest) (isProper_of_mem_flush h ht)
  | case4 tokens word c rest hsep hc ih => exact ih (h.cons hsep (by simpa using hc)) ht

end Token

/-- What a text is cut into can be written. -/
theorem isProper_of_mem_tokenize (text : String) : ∀ t ∈ tokenize text, t.IsProper :=
  Token.isProper_of_mem_scan (Token.pending_nil _) nofun

/-- The tokens that texts are cut into are those that can be written. -/
theorem exists_tokenize_eq_iff {ts : List Token} :
    (∃ text, tokenize text = ts) ↔ ∀ t ∈ ts, t.IsProper := by
  constructor
  · rintro ⟨text, rfl⟩
    exact isProper_of_mem_tokenize text
  · intro h
    refine ⟨String.ofList (Token.spaced ts), tokenize_of_renders ?_⟩
    rw [String.toList_ofList]
    exact Token.renders_spaced h

/-! ## The tokens' own texts -/

/-- The texts of tokens, one after the other with blanks in between. -/
inductive Token.Joins : List Token → List Char → Prop where
  | nil : Joins [] []
  | single (t : Token) : Joins [t] t.text.toList
  | cons (t : Token) {s : Token} {ts : List Token} {bs cs : List Char} : bs ≠ [] → Blanks bs →
      Joins (s :: ts) cs → Joins (t :: s :: ts) (t.text.toList ++ (bs ++ cs))

/-- Blanks may be put in front of what spells tokens. -/
theorem Token.Renders.blanks_append {ts : List Token} {bs cs : List Char} (hbs : Blanks bs)
    (h : Renders ts cs) : Renders ts (bs ++ cs) := by
  have happend : ∀ {ds}, Blanks ds → Blanks (bs ++ ds) := fun hds b hb =>
    (List.mem_append.mp hb).elim (hbs b) (hds b)
  cases h with
  | nil hds => exact .nil (happend hds)
  | cons hds hs hcs hrest =>
      rw [← List.append_assoc]
      exact .cons (happend hds) hs hcs hrest

/-- Tokens that can be written are spelled by their own texts with blanks in between. -/
theorem Token.Joins.renders {ts : List Token} {cs : List Char} (h : Joins ts cs)
    (hts : ∀ t ∈ ts, t.IsProper) : Renders ts cs := by
  induction h with
  | nil => exact .nil nofun
  | single t =>
      have hspells := spells_text (hts t List.mem_cons_self)
      have hsingle : Renders [t] ([] ++ (t.text.toList ++ [])) :=
        .cons nofun hspells nofun (.nil nofun)
      rwa [List.nil_append, List.append_nil] at hsingle
  | @cons t s ts bs cs hne hbs _ ih =>
      have hrest : Renders (s :: ts) (bs ++ cs) :=
        (ih fun u hu => hts u (List.mem_cons_of_mem _ hu)).blanks_append hbs
      -- the blanks in between end the first token, and then belong to the rest
      have hblank : AtBlank (bs ++ cs) := by
        cases bs with
        | nil => exact absurd rfl hne
        | cons b bs => exact fun c hc => by cases hc; exact hbs b List.mem_cons_self
      have hwhole : Renders (t :: s :: ts) ([] ++ (t.text.toList ++ (bs ++ cs))) :=
        .cons nofun (spells_text (hts t List.mem_cons_self)) hblank hrest
      exact hwhole

/-! ## The law -/

/-- **Tokens are read back as they were written**, with either spelling of an operator and whatever
blanks between them and at the ends. These are all the lists that texts are cut into; so the texts of
a condition's tokens, joined by blanks, are cut into the same tokens again. And two texts of the same
tokens are parsed to the same tree or refused alike. -/
theorem tokens_read_back :
    (∀ (ts : List Token) (text : String), Token.Renders ts text.toList → tokenize text = ts) ∧
      (∀ ts : List Token, (∃ text, tokenize text = ts) ↔ ∀ t ∈ ts, t.IsProper) ∧
      (∀ text joined : String, Token.Joins (tokenize text) joined.toList →
        tokenize joined = tokenize text) ∧
      ∀ text other : String, tokenize text = tokenize other →
        Condition.parse text = Condition.parse other := by
  refine ⟨fun ts text h => tokenize_of_renders h, fun ts => exists_tokenize_eq_iff,
    fun text joined h => tokenize_of_renders (h.renders (isProper_of_mem_tokenize text)),
    fun text other h => ?_⟩
  rw [parse_eq_ofTokens, parse_eq_ofTokens, h]

/-- Marks that begin a separator may stand in a word, and second spellings are read as the first. -/
theorem tokens_read_back_of_marks :
    Token.Renders [.word "!|&", .operator .ne, .word "é!", .operator .eq, .word "'"]
        " !|& <>\té!\u3000= '".toList ∧
      tokenize " !|& <>\té!\u3000= '" =
        [.word "!|&", .operator .ne, .word "é!", .operator .eq, .word "'"] := by
  have htext : " !|& <>\té!\u3000= '".toList =
      [' '] ++ (['!', '|', '&'] ++ ([' '] ++ (['<', '>'] ++ (['\t'] ++ (['é', '!'] ++
        (['\u3000'] ++ (['='] ++ ([' '] ++ (['\''] ++ []))))))))) := by decide
  have hrenders : Token.Renders
      [.word "!|&", .operator .ne, .word "é!", .operator .eq, .word "'"]
      " !|& <>\té!\u3000= '".toList := by
    rw [htext]
    refine .cons (by decide) (.word (by decide)) (by decide) ?_
    refine .cons (by decide) (.separator (s := (['<', '>'], .operator .ne)) (by decide))
      (by decide) ?_
    refine .cons (by decide) (.word (by decide)) (by decide) ?_
    refine .cons (by decide) (.separator (s := (['='], .operator .eq)) (by decide)) (by decide) ?_
    exact .cons (by decide) (.word (by decide)) (by decide) (.nil (by decide))
  exact ⟨hrenders, tokens_read_back.1 _ _ hrenders⟩

end Criterion
