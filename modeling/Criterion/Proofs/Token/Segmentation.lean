import Criterion.Proofs.Token.Offsets

/-!
# The pieces of a text

A text is made of blanks, separators and words. A separator is the longest one that begins at its
place. A word is as long as it can be with no blank in it and with no separator that begins in it, not
even one that goes on behind it. These rules leave no choice: what a text begins with tells the kind
of its first piece, and the rule for that kind how far the piece goes. The scan keeps them, and so
what it finds is the only way to cut a text up.
-/

namespace Criterion

namespace Token

/-- A piece of a text: a blank, an entry of the table of separators, or a word. -/
inductive Piece where
  | blank (c : Char)
  | separator (s : List Char × Token)
  | word (w : List Char)
deriving DecidableEq, Repr

/-- Characters in front of the rest of a text that a word may consist of. -/
structure IsClear (w rest : List Char) : Prop where
  noBlank : ∀ c ∈ w, isBlank c = false
  noSeparator : ∀ v, v ≠ [] → v <:+ w → ∀ s ∈ separators, ¬ s.1 <+: v ++ rest

namespace Piece

/-- What a piece takes of a text. -/
def chars : Piece → List Char
  | blank c => [c]
  | separator s => s.1
  | word w => w

/-- What a piece gives: a blank gives nothing. -/
def token? : Piece → Option Token
  | blank _ => none
  | separator s => some s.2
  | word w => some (.word (String.ofList w))

/-- The characters behind the last separator. -/
def unclaimed (ps : List Piece) : List Char :=
  ps.foldl (fun cs p => match p with
    | separator _ => []
    | p => cs ++ p.chars) []

/-- What a piece has to be where `free` stands between it and the separator before it, and `rest`
behind it. A word can be made longer at neither end, as what could be added holds a blank or begins a
separator. -/
def Fits (free rest : List Char) : Piece → Prop
  | blank c => isBlank c = true
  | separator s =>
      s ∈ separators ∧ ∀ s' ∈ separators, s'.1 <+: s.1 ++ rest → s'.1.length ≤ s.1.length
  | word w =>
      w ≠ [] ∧ IsClear w rest ∧
        ∀ u v rest', u <:+ free → v ++ rest' = rest → IsClear (u ++ w ++ v) rest' →
          u = [] ∧ v = []

end Piece

/-- The pieces that a text may be cut into. -/
structure IsSegmentation (cs : List Char) (ps : List Piece) : Prop where
  whole : ps.flatMap Piece.chars = cs
  fits : ∀ before p behind, ps = before ++ p :: behind →
    p.Fits (Piece.unclaimed before) (behind.flatMap Piece.chars)

/-! ## Where words end -/

/-- Such characters are what the scan keeps as an unfinished word. -/
theorem isClear_iff_pending {w rest : List Char} : IsClear w rest ↔ Pending w.reverse rest := by
  constructor
  · intro h
    refine ⟨fun c hc => h.noBlank c (List.mem_reverse.mp hc), fun v hv hsuffix => ?_⟩
    rw [List.reverse_reverse] at hsuffix
    exact separator?_eq_none_iff.mpr (h.noSeparator v hv hsuffix)
  · intro h
    refine ⟨fun c hc => h.noBlank c (List.mem_reverse.mpr hc), fun v hv hsuffix => ?_⟩
    rw [← List.reverse_reverse w] at hsuffix
    exact separator?_eq_none_iff.mp (h.noSeparator v hv hsuffix)

/-- A word in front of such a rest is over. -/
def EndsWord (cs : List Char) : Prop := AtBlank cs ∨ ∃ s ∈ separators, s.1 <+: cs

theorem endsWord_nil : EndsWord [] := by
  refine .inl ?_
  intro c hc
  cases hc

theorem endsWord_of_isBlank {c : Char} (hc : isBlank c = true) (cs : List Char) :
    EndsWord (c :: cs) := by
  refine .inl ?_
  intro d hd
  cases hd
  exact hc

theorem endsWord_of_mem_separators {s : List Char × Token} (hs : s ∈ separators) (cs : List Char) :
    EndsWord (s.1 ++ cs) := .inr ⟨s, hs, List.prefix_append s.1 cs⟩

/-- A word does not end in front of characters that a word may consist of. -/
theorem IsClear.not_endsWord {w rest : List Char} (h : IsClear w rest) (hne : w ≠ []) :
    ¬ EndsWord (w ++ rest) := by
  rintro (hblank | ⟨s, hs, hfront⟩)
  · cases w with
    | nil => exact hne rfl
    | cons c w =>
        have hc : isBlank c = true := hblank c rfl
        rw [h.noBlank c List.mem_cons_self] at hc
        cases hc
  · exact h.noSeparator w hne (List.suffix_refl w) s hs hfront

theorem IsClear.of_append {u w rest : List Char} (h : IsClear (u ++ w) rest) : IsClear w rest where
  noBlank := fun c hc => h.noBlank c (List.mem_append_right u hc)
  noSeparator := fun v hv hsuffix => h.noSeparator v hv (hsuffix.trans (List.suffix_append u w))

/-- With nothing free in front of it, a word fits if it is over where it ends. -/
theorem Piece.fits_word_iff {w rest : List Char} :
    (word w).Fits [] rest ↔ w ≠ [] ∧ IsClear w rest ∧ EndsWord rest := by
  refine and_congr_right fun _ => and_congr_right fun hclear => ?_
  constructor
  · intro hmax
    by_contra hends
    cases rest with
    | nil => exact hends endsWord_nil
    | cons c rest =>
        have hc : isBlank c = false := by
          by_contra hc
          exact hends (endsWord_of_isBlank (by simpa using hc) rest)
        have hnone : separator? (c :: rest) = none :=
          separator?_eq_none_iff.mpr fun s hs hfront => hends (.inr ⟨s, hs, hfront⟩)
        -- the word could take one character more
        have hlonger : IsClear ([] ++ w ++ [c]) rest := by
          rw [isClear_iff_pending, List.nil_append, List.reverse_append]
          exact (isClear_iff_pending.mp hclear).cons hnone hc
        have hnil := (hmax [] [c] rest (List.suffix_refl _) rfl hlonger).2
        cases hnil
  · intro hends u v rest' hu hv hlonger
    obtain rfl := List.suffix_nil.mp hu
    obtain rfl := hv.symm
    refine ⟨rfl, ?_⟩
    by_contra hne
    exact hlonger.of_append.not_endsWord hne hends

/-! ## Cutting from the front -/

/-- Each piece fits, as far as the text behind it goes. -/
def IsCut : List Piece → Prop
  | [] => True
  | p :: ps => p.Fits [] (ps.flatMap Piece.chars) ∧ IsCut ps

/-- That is to say each piece wherever it stands. -/
theorem isCut_iff {ps : List Piece} : IsCut ps ↔
    ∀ before p behind, ps = before ++ p :: behind → p.Fits [] (behind.flatMap Piece.chars) := by
  induction ps with
  | nil => exact ⟨fun _ before p behind h => by simp at h, fun _ => trivial⟩
  | cons q ps ih =>
      constructor
      · rintro ⟨hq, hcut⟩ before p behind heq
        cases before with
        | nil =>
            obtain ⟨rfl, rfl⟩ := List.cons.inj heq
            exact hq
        | cons r before =>
            obtain ⟨rfl, rfl⟩ := List.cons.inj heq
            exact ih.mp hcut before p behind rfl
      · intro h
        refine ⟨h [] q ps rfl, ih.mpr fun before p behind heq => ?_⟩
        exact h (q :: before) p behind (by rw [heq, List.cons_append])

/-- A word that can be made longer at neither end cannot be made longer at its end. -/
theorem Piece.Fits.of_free {free rest : List Char} {p : Piece} (h : p.Fits free rest) :
    p.Fits [] rest := by
  cases p with
  | blank c => exact h
  | separator s => exact h
  | word w =>
      obtain ⟨hne, hclear, hmax⟩ := h
      refine ⟨hne, hclear, fun u v rest' hu hv hlonger => ?_⟩
      obtain rfl := List.suffix_nil.mp hu
      exact hmax [] v rest' List.nil_suffix hv hlonger

theorem IsSegmentation.isCut {cs : List Char} {ps : List Piece} (h : IsSegmentation cs ps) :
    IsCut ps := isCut_iff.mpr fun before p behind heq => (h.fits before p behind heq).of_free

/-- What is free in front of a word ends with a blank. -/
theorem IsCut.isBlank_of_unclaimed {before behind : List Piece} {w : List Char}
    (h : IsCut (before ++ .word w :: behind)) :
    ∀ c ∈ (Piece.unclaimed before).getLast?, isBlank c = true := by
  intro c hc
  rw [isCut_iff] at h
  rcases List.eq_nil_or_concat before with rfl | ⟨before, p, rfl⟩
  · cases hc
  · have hp := h before p (.word w :: behind) (by simp)
    cases p with
    | blank b =>
        have hlast : b = c := by simpa [Piece.unclaimed, Piece.chars] using hc
        rw [← hlast]
        exact hp
    | separator s => simp [Piece.unclaimed] at hc
    | word v =>
        -- two words do not stand side by side: the first one would not be over
        have hw := h (before ++ [.word v]) (.word w) behind (by simp)
        exact absurd (Piece.fits_word_iff.mp hp).2.2 (hw.2.1.not_endsWord hw.1)

/-- **Pieces that fit as far as the text behind them goes fit altogether.** -/
theorem IsCut.isSegmentation {ps : List Piece} (h : IsCut ps) :
    IsSegmentation (ps.flatMap Piece.chars) ps where
  whole := rfl
  fits := by
    rintro before p behind rfl
    have hp := isCut_iff.mp h before p behind rfl
    cases p with
    | blank c => exact hp
    | separator s => exact hp
    | word w =>
        obtain ⟨hne, hclear, hmax⟩ := hp
        refine ⟨hne, hclear, ?_⟩
        intro u v rest' hu hv hlonger
        -- longer in front it would have a blank in it, longer behind it would not be over
        have hu : u = [] := by
          by_contra hnil
          obtain ⟨free, hfree⟩ := hu
          have hblank : isBlank (u.getLast hnil) = true := by
            refine h.isBlank_of_unclaimed _ ?_
            rw [← hfree, List.getLast?_append_of_ne_nil _ hnil]
            exact List.getLast?_eq_some_getLast hnil
          have hmem : u.getLast hnil ∈ u ++ w ++ v := by simp
          rw [hlonger.noBlank _ hmem] at hblank
          cases hblank
        rw [hu] at hlonger
        exact ⟨hu, (hmax [] v rest' List.nil_suffix hv hlonger).2⟩

/-! ## One way to cut -/

section FirstPiece

variable {r r' : List Char} {q : Piece}

/-- A blank can only be a piece of its own. -/
theorem eq_of_fits_blank {c : Char} (hc : isBlank c = true) (hq : q.Fits [] r')
    (h : c :: r = q.chars ++ r') : q = .blank c := by
  cases q with
  | blank d =>
      obtain ⟨rfl, -⟩ := List.cons.inj h
      rfl
  | separator s =>
      exfalso
      obtain ⟨hs, -⟩ := hq
      match hchars : s.1 with
      | [] => exact ne_nil_of_mem_separators hs hchars
      | d :: ds =>
          rw [Piece.chars, hchars] at h
          obtain ⟨rfl, -⟩ := List.cons.inj h
          rw [not_isBlank_of_mem_separators hs c (by simp [hchars])] at hc
          cases hc
  | word w =>
      obtain ⟨hne, hclear, -⟩ := hq
      have hends : EndsWord (w ++ r') := h ▸ endsWord_of_isBlank hc r
      exact absurd hends (hclear.not_endsWord hne)

/-- Of two separators at one place neither is longer, and no word begins there. -/
theorem eq_of_fits_separator {s : List Char × Token} (hs : (Piece.separator s).Fits [] r)
    (hq : q.Fits [] r') (h : s.1 ++ r = q.chars ++ r') : q = .separator s := by
  cases q with
  | blank c =>
      have hsep := eq_of_fits_blank hq hs h.symm
      cases hsep
  | separator s' =>
      obtain ⟨hmem, hlongest⟩ := hs
      obtain ⟨hmem', hlongest'⟩ := hq
      rw [Piece.chars] at h
      have hle : s'.1.length ≤ s.1.length := hlongest s' hmem' (h ▸ List.prefix_append s'.1 r')
      have hge : s.1.length ≤ s'.1.length := hlongest' s hmem (h ▸ List.prefix_append s.1 r)
      have hchars : s.1 = s'.1 := List.append_inj_left h (Nat.le_antisymm hge hle)
      -- the table has one token for a text
      have htoken := separator?_of_mem_separators hmem
      rw [hchars, separator?_of_mem_separators hmem'] at htoken
      obtain ⟨htoken, -⟩ := Prod.mk.inj (Option.some.inj htoken)
      rw [Prod.ext hchars htoken.symm]
  | word w =>
      obtain ⟨hne, hclear, -⟩ := hq
      have hends : EndsWord (w ++ r') := h ▸ endsWord_of_mem_separators hs.1 r
      exact absurd hends (hclear.not_endsWord hne)

theorem eq_of_fits_word {w : List Char} (hw : (Piece.word w).Fits [] r) (hq : q.Fits [] r')
    (h : w ++ r = q.chars ++ r') : q = .word w := by
  cases q with
  | blank c =>
      have hword := eq_of_fits_blank hq hw h.symm
      cases hword
  | separator s =>
      have hword := eq_of_fits_separator hq hw h.symm
      cases hword
  | word v =>
      -- the shorter one of the two words could be made as long as the other
      obtain ⟨-, hclear, hmax⟩ := hw
      obtain ⟨-, hclear', hmax'⟩ := hq
      rcases List.append_eq_append_iff.mp h with ⟨mid, hv, hr⟩ | ⟨mid, hv, hr⟩
      · rw [Piece.chars] at hv
        rw [hv] at hclear'
        have hnil := (hmax [] mid r' List.nil_suffix hr.symm hclear').2
        rw [hv, hnil, List.append_nil]
      · rw [Piece.chars] at hv
        rw [hv] at hclear
        have hnil := (hmax' [] mid r List.nil_suffix hr.symm hclear).2
        rw [hv, hnil, List.append_nil]

/-- A text has one first piece. -/
theorem Piece.Fits.eq {p : Piece} (hp : p.Fits [] r) (hq : q.Fits [] r')
    (h : p.chars ++ r = q.chars ++ r') : p = q := by
  cases p with
  | blank c => exact (eq_of_fits_blank hp hq h).symm
  | separator s => exact (eq_of_fits_separator hp hq h).symm
  | word w => exact (eq_of_fits_word hp hq h).symm

end FirstPiece

theorem Piece.Fits.chars_ne_nil {free rest : List Char} {p : Piece} (h : p.Fits free rest) :
    p.chars ≠ [] := by
  cases p with
  | blank c => exact List.cons_ne_nil c []
  | separator s => exact ne_nil_of_mem_separators h.1
  | word w => exact h.1

/-- **A text can be cut up in one way.** -/
theorem IsCut.eq {ps qs : List Piece} (hp : IsCut ps) (hq : IsCut qs)
    (h : ps.flatMap Piece.chars = qs.flatMap Piece.chars) : ps = qs := by
  induction ps generalizing qs with
  | nil =>
      cases qs with
      | nil => rfl
      | cons q qs => simp [hq.1.chars_ne_nil] at h
  | cons p ps ih =>
      cases qs with
      | nil => simp [hp.1.chars_ne_nil] at h
      | cons q qs =>
          rw [List.flatMap_cons, List.flatMap_cons] at h
          obtain rfl := hp.1.eq hq.1 h
          rw [ih hp.2 hq.2 (List.append_cancel_left h)]

/-! ## The way of the scan -/

/-- The first separator of the table that a text begins with is the longest one. -/
theorem exists_fits_of_separator? {cs rest : List Char} {t : Token}
    (h : separator? cs = some (t, rest)) :
    ∃ s : List Char × Token, s.2 = t ∧ s.1 ++ rest = cs ∧ (Piece.separator s).Fits [] rest := by
  have hsorted : separators.Pairwise fun a b => b.1.length ≤ a.1.length := by decide
  rw [separator?_eq_find?, Option.map_eq_some_iff] at h
  obtain ⟨s, hfind, heq⟩ := h
  obtain ⟨rfl, rfl⟩ := Prod.mk.inj heq
  obtain ⟨hfront, before, behind, htable, hbefore⟩ := List.find?_eq_some_iff_append.mp hfind
  have hwhole : s.1 ++ cs.drop s.1.length = cs :=
    (List.prefix_append_drop (by simpa using hfront)).symm
  refine ⟨s, rfl, hwhole, List.mem_of_find?_eq_some hfind, fun s' hs' hfront' => ?_⟩
  rw [hwhole] at hfront'
  rw [htable] at hs' hsorted
  obtain ⟨-, hsorted, -⟩ := List.pairwise_append.mp hsorted
  -- an earlier one is not in front of the text, and a later one is not longer
  rcases List.mem_append.mp hs' with hearly | hlate
  · have hnot := hbefore s' hearly
    simp [hfront'] at hnot
  · rcases List.mem_cons.mp hlate with rfl | hlate
    · exact Nat.le_refl _
    · exact List.rel_of_pairwise_cons hsorted hlate

/-- The piece that an unfinished word, last character first, makes when it is over. -/
def finished (word : List Char) : List Piece :=
  if word.isEmpty then [] else [.word word.reverse]

theorem flush_eq_finished (word : List Char) (tokens : List Token) :
    flush word tokens = ((finished word).filterMap Piece.token?).reverse ++ tokens := by
  unfold flush finished
  split <;> rfl

/-- A word that is over goes in front of the pieces behind it. -/
theorem IsCut.finished_append {word : List Char} {ps : List Piece} (hps : IsCut ps)
    (hword : Pending word (ps.flatMap Piece.chars)) (hends : EndsWord (ps.flatMap Piece.chars)) :
    IsCut (finished word ++ ps) ∧
      (finished word ++ ps).flatMap Piece.chars = word.reverse ++ ps.flatMap Piece.chars := by
  unfold finished
  split
  · next hnil => simp [hps, List.isEmpty_iff.mp hnil]
  · next hne =>
      have hne : word.reverse ≠ [] := by simpa using hne
      have hclear := isClear_iff_pending.mpr ((List.reverse_reverse word).symm ▸ hword)
      exact ⟨⟨Piece.fits_word_iff.mpr ⟨hne, hclear, hends⟩, hps⟩, rfl⟩

/-- **Preserved by every turn that ends a word**: if what is found behind the piece `p` is the tokens of
pieces, so is what is found with `p` and the word in front. -/
theorem exists_isCut_of_fits {tokens found : List Token} {word cs rest : List Char} {p : Piece}
    (hword : Pending word cs) (hp : p.Fits [] rest) (hcs : p.chars ++ rest = cs)
    (hends : EndsWord cs)
    (h : ∃ ps, IsCut ps ∧ ps.flatMap Piece.chars = rest ∧
      found = (p.token?.toList ++ flush word tokens).reverse ++ ps.filterMap Piece.token?) :
    ∃ ps, IsCut ps ∧ ps.flatMap Piece.chars = word.reverse ++ cs ∧
      found = tokens.reverse ++ ps.filterMap Piece.token? := by
  obtain ⟨ps, hcut, rfl, rfl⟩ := h
  obtain rfl := hcs
  have hcut : IsCut (p :: ps) := ⟨hp, hcut⟩
  obtain ⟨hall, hchars⟩ := hcut.finished_append hword hends
  refine ⟨_, hall, hchars, ?_⟩
  rw [flush_eq_finished, List.filterMap_append, List.filterMap_cons]
  cases p.token? <;> simp

/-- **The scan cuts a text up**, and its tokens are those of the pieces. -/
theorem exists_isCut_scan {tokens : List Token} {word cs : List Char} (h : Pending word cs) :
    ∃ ps, IsCut ps ∧ ps.flatMap Piece.chars = word.reverse ++ cs ∧
      scan tokens word cs = tokens.reverse ++ ps.filterMap Piece.token? := by
  fun_induction scan tokens word cs with
  | case1 tokens word cs t rest hsep ih =>
      obtain ⟨s, rfl, hcs, hfits⟩ := exists_fits_of_separator? hsep
      have hends : EndsWord cs := hcs ▸ endsWord_of_mem_separators hfits.1 rest
      exact exists_isCut_of_fits h hfits hcs hends (ih (pending_nil rest))
  | case2 tokens word hsep =>
      have hnil : IsCut [] := trivial
      obtain ⟨hall, hchars⟩ := hnil.finished_append h endsWord_nil
      refine ⟨_, hall, hchars, ?_⟩
      rw [flush_eq_finished]
      simp
  | case3 tokens word c rest hsep hc ih =>
      have hfits : (Piece.blank c).Fits [] rest := hc
      exact exists_isCut_of_fits h hfits rfl (endsWord_of_isBlank hc rest) (ih (pending_nil rest))
  | case4 tokens word c rest hsep hc ih =>
      obtain ⟨ps, hcut, hchars, hscan⟩ := ih (h.cons hsep (by simpa using hc))
      exact ⟨ps, hcut, by simp [hchars], hscan⟩

end Token

/-! ## The law -/

/-- **What a text is cut into is the only way to cut it up.** The pieces, blanks included, are the text
when laid end to end; a separator is the longest that begins at its place, and a word cannot be made
longer; and no other pieces are like that. The tokens are those of these pieces. The same tokens come
from a scan by byte offsets: each of its turns leads forward, and all slices that it takes, at the
offset reached or of a word, are between boundaries of characters, as it gives up at one that is not.

What a separator takes is not free for a word behind it, though no separator may begin there: the text
`a||b` ends in the word `b`, not `|b`. -/
theorem tokenize_segments_uniquely (text : String) :
    (∃ ps, Token.IsSegmentation text.toList ps ∧ tokenize text = ps.filterMap Token.Piece.token? ∧
        ∀ qs, Token.IsSegmentation text.toList qs → qs = ps) ∧
      Token.ByteScan.run? text ⟨[], none, 0⟩ = some (tokenize text) ∧
      ∀ (s s' : Token.ByteScan) (c : Char) (cs : List Char),
        s.turn? text c cs = some s' → s.pos < s'.pos := by
  refine ⟨?_, Token.ByteScan.run?_start text, fun s s' c cs => Token.ByteScan.pos_lt_of_turn?⟩
  obtain ⟨ps, hcut, hchars, hscan⟩ : ∃ ps, Token.IsCut ps ∧
      ps.flatMap Token.Piece.chars = text.toList ∧
        tokenize text = ps.filterMap Token.Piece.token? :=
    Token.exists_isCut_scan (Token.pending_nil text.toList)
  have hseg : Token.IsSegmentation text.toList ps := hchars ▸ hcut.isSegmentation
  refine ⟨ps, hseg, hscan, ?_⟩
  intro qs hqs
  exact hqs.isCut.eq hcut (hqs.whole.trans hchars.symm)

/-- Of three strokes the first two are the separator, and `<==` is `<=` and then `=`. -/
theorem tokenize_segments_uniquely_overlapping :
    ∃ ps, Token.IsSegmentation "é|||b <==\u3000!".toList ps ∧
      ps.filterMap Token.Piece.token? = [.word "é", .operator .or, .word "|b", .operator .le,
        .operator .eq, .word "!"] ∧
      ∀ qs, Token.IsSegmentation "é|||b <==\u3000!".toList qs → qs = ps := by
  obtain ⟨⟨ps, hseg, htokens, hunique⟩, -, -⟩ := tokenize_segments_uniquely "é|||b <==\u3000!"
  refine ⟨ps, hseg, ?_, hunique⟩
  rw [← htokens]
  decide +kernel

end Criterion
