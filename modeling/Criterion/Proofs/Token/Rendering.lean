import Criterion.Token

/-!
# Texts that tokens are read from

A blank character ends a word and is otherwise of no account. So the tokens of a condition may be
written with any of their spellings, any blanks between them and any around them, and are read back as
they were; and to take the blanks off the ends of a condition changes nothing.
-/

namespace Criterion

namespace Token

/-! ## The table of separators -/

/-- The separators and the tokens they stand for. One that begins with another comes before it. -/
def separators : List (List Char × Token) :=
  [(['|', '|'], operator .or), (['&', '&'], operator .and), (['<', '='], operator .le),
    (['>', '='], operator .ge), (['<', '>'], operator .ne), (['!', '='], operator .ne),
    (['=', '='], operator .eq), (['('], openGroup), ([')'], closeGroup), (['='], operator .eq),
    (['<'], operator .lt), (['>'], operator .gt)]

theorem prefix_iff_take_eq {s cs : List Char} : s <+: cs ↔ cs.take s.length = s := by
  rw [List.prefix_iff_eq_take, eq_comm]

/-- The separator at the front of a text is the first one of the table that it begins with. -/
theorem separator?_eq_findSome? (cs : List Char) :
    separator? cs = separators.findSome? fun s =>
      if s.1 <+: cs then some (s.2, cs.drop s.1.length) else none := by
  simp only [prefix_iff_take_eq]
  match cs with
  | [] => rfl
  | [c] =>
      unfold separator?
      split <;> simp_all [separators, List.findSome?]
  | c :: d :: cs =>
      -- no separator is longer than two characters, so that these two decide
      unfold separator?
      split <;> simp_all [separators, List.findSome?] <;> grind

/-- There is none if the text begins with no entry of the table. -/
theorem separator?_eq_none_iff {cs : List Char} :
    separator? cs = none ↔ ∀ s ∈ separators, ¬ s.1 <+: cs := by
  rw [separator?_eq_findSome?, List.findSome?_eq_none_iff]
  simp

theorem not_isBlank_of_mem_separators {s : List Char × Token} (hs : s ∈ separators) :
    ∀ c ∈ s.1, isBlank c = false := by
  have hall : separators.all (fun s => s.1.all fun c => !isBlank c) = true := by decide
  intro c hc
  have hs := List.all_eq_true.mp (List.all_eq_true.mp hall s hs) c hc
  simpa using hs

theorem separator?_of_mem_separators {s : List Char × Token} (hs : s ∈ separators) :
    separator? s.1 = some (s.2, []) := by
  revert s
  decide

theorem findSome?_congr_mem {α β : Type} {l : List α} {f g : α → Option β}
    (h : ∀ a ∈ l, f a = g a) : l.findSome? f = l.findSome? g := by
  induction l with
  | nil => rfl
  | cons a l ih =>
      rw [List.findSome?_cons, List.findSome?_cons, h a List.mem_cons_self]
      rw [ih fun a ha => h a (List.mem_cons_of_mem _ ha)]

/-- What does not hold a character ends before it. -/
theorem prefix_append_cons_iff {s cs bs : List Char} {b : Char} (hb : b ∉ s) :
    s <+: cs ++ b :: bs ↔ s <+: cs := by
  constructor
  · rintro ⟨t, ht⟩
    rcases List.append_eq_append_iff.mp ht with ⟨mid, rfl, -⟩ | ⟨mid, rfl, hmid⟩
    · exact List.prefix_append s mid
    · cases mid with
      | nil => exact ⟨[], by simp⟩
      | cons d mid =>
          obtain ⟨rfl, -⟩ := List.cons.inj hmid
          exact absurd (by simp) hb
  · exact fun h => h.trans (List.prefix_append cs _)

/-- No separator holds a blank character, so that none goes on into one. -/
theorem separator?_append_blank {b : Char} (hb : isBlank b = true) (cs bs : List Char) :
    separator? (cs ++ b :: bs) = (separator? cs).map fun p => (p.1, p.2 ++ b :: bs) := by
  rw [separator?_eq_findSome?, separator?_eq_findSome?, List.map_findSome?]
  refine findSome?_congr_mem fun s hs => ?_
  have hnb : b ∉ s.1 := by
    intro h
    rw [not_isBlank_of_mem_separators hs b h] at hb
    cases hb
  by_cases h : s.1 <+: cs
  · simp [h, prefix_append_cons_iff hnb, List.drop_append_of_le_length h.length_le]
  · simp [h, prefix_append_cons_iff hnb]

theorem separator?_blank {b : Char} (hb : isBlank b = true) (bs : List Char) :
    separator? (b :: bs) = none := separator?_append_blank hb [] bs

/-! ## One step of the scan -/

theorem scan_nil (tokens : List Token) (word : List Char) :
    scan tokens word [] = (flush word tokens).reverse := by
  rw [scan]
  rfl

theorem scan_of_separator? {cs rest : List Char} {t : Token} (h : separator? cs = some (t, rest))
    (tokens : List Token) (word : List Char) :
    scan tokens word cs = scan (t :: flush word tokens) [] rest := by
  rw [scan]
  split
  · next t' rest' h' =>
      rw [h] at h'
      cases h'
      rfl
  · next h' =>
      rw [h] at h'
      cases h'

theorem scan_blank {b : Char} (hb : isBlank b = true) (tokens : List Token) (word bs : List Char) :
    scan tokens word (b :: bs) = scan (flush word tokens) [] bs := by
  rw [scan]
  split
  · next h =>
      rw [separator?_blank hb] at h
      cases h
  · simp [hb]

theorem scan_char {c : Char} {cs : List Char} (h : separator? (c :: cs) = none)
    (hc : isBlank c = false) (tokens : List Token) (word : List Char) :
    scan tokens word (c :: cs) = scan tokens (c :: word) cs := by
  rw [scan]
  split
  · next h' =>
      rw [h] at h'
      cases h'
  · simp [hc]

/-! ## Blanks at the ends -/

/-- Blank characters only. -/
def Blanks (bs : List Char) : Prop := ∀ b ∈ bs, isBlank b = true

/-- Nothing, or something that begins with a blank. -/
def AtBlank (cs : List Char) : Prop := ∀ c ∈ cs.head?, isBlank c = true

theorem scan_blanks_append {bs : List Char} (hbs : Blanks bs) (tokens : List Token)
    (cs : List Char) : scan tokens [] (bs ++ cs) = scan tokens [] cs := by
  induction bs with
  | nil => rfl
  | cons b bs ih =>
      rw [List.cons_append, scan_blank (hbs b List.mem_cons_self)]
      exact ih fun c hc => hbs c (List.mem_cons_of_mem _ hc)

/-- A word is over where the text is, or a blank comes. -/
theorem scan_atBlank {cs : List Char} (hcs : AtBlank cs) (tokens : List Token) (word : List Char) :
    scan tokens word cs = scan (flush word tokens) [] cs := by
  cases cs with
  | nil => rw [scan_nil, scan_nil]; rfl
  | cons b cs =>
      have hb : isBlank b = true := hcs b rfl
      rw [scan_blank hb, scan_blank hb]
      rfl

/-- Blanks at the end make no difference to what is found. -/
theorem scan_append_blanks {bs : List Char} (hbs : Blanks bs) (tokens : List Token)
    (word cs : List Char) : scan tokens word (cs ++ bs) = scan tokens word cs := by
  cases bs with
  | nil => rw [List.append_nil]
  | cons b bs =>
      have hb : isBlank b = true := hbs b List.mem_cons_self
      have hrest : Blanks bs := fun c hc => hbs c (List.mem_cons_of_mem _ hc)
      -- the first blank takes over what the end of the text did: the word before it is over
      fun_induction scan tokens word cs with
      | case1 tokens word cs t rest h ih =>
          have hsep : separator? (cs ++ b :: bs) = some (t, rest ++ b :: bs) := by
            rw [separator?_append_blank hb, h]
            rfl
          rw [scan_of_separator? hsep]
          exact ih
      | case2 tokens word h =>
          rw [List.nil_append, scan_blank hb, ← List.append_nil bs, scan_blanks_append hrest, scan_nil]
          rfl
      | case3 tokens word c rest h hc ih =>
          rw [List.cons_append, scan_blank hc]
          exact ih
      | case4 tokens word c rest h hc ih =>
          have hsep : separator? (c :: (rest ++ b :: bs)) = none := by
            rw [← List.cons_append, separator?_append_blank hb, h]
            rfl
          rw [List.cons_append, scan_char hsep (by simpa using hc)]
          exact ih

/-! ## Whole texts -/

/-- A word holds no blank character and no separator. -/
structure IsWord (w : List Char) : Prop where
  ne_nil : w ≠ []
  noBlank : ∀ c ∈ w, isBlank c = false
  noSeparator : ∀ s ∈ separators, ¬ s.1 <:+: w

/-- The texts that stand for a token: a word for itself, a separator for its token. -/
inductive Spells : Token → List Char → Prop where
  | separator {s : List Char × Token} : s ∈ separators → Spells s.2 s.1
  | word {w : List Char} : IsWord w → Spells (.word (String.ofList w)) w

/-- The texts that spell tokens one after the other, with blanks in between and at the ends. -/
inductive Renders : List Token → List Char → Prop where
  | nil {bs : List Char} : Blanks bs → Renders [] bs
  | cons {bs s cs : List Char} {t : Token} {ts : List Token} : Blanks bs → Spells t s → AtBlank cs →
      Renders ts cs → Renders (t :: ts) (bs ++ (s ++ cs))

/-- The characters of a word are taken up one by one. -/
theorem scan_append_of_noSeparator {w cs : List Char} (hnb : ∀ c ∈ w, isBlank c = false)
    (hns : ∀ s ∈ separators, ¬ s.1 <:+: w) (hcs : AtBlank cs) (tokens : List Token)
    (word : List Char) : scan tokens word (w ++ cs) = scan tokens (w.reverse ++ word) cs := by
  induction w generalizing word with
  | nil => rfl
  | cons c w ih =>
      have hnone : separator? (c :: w) = none :=
        separator?_eq_none_iff.mpr fun s hs h => hns s hs h.isInfix
      -- a separator could begin in the word and end behind it, were it not for the blank
      have hsep : separator? (c :: (w ++ cs)) = none := by
        cases cs with
        | nil => rw [List.append_nil, hnone]
        | cons b cs =>
            rw [← List.cons_append, separator?_append_blank (hcs b rfl), hnone]
            rfl
      rw [List.cons_append, scan_char hsep (hnb c List.mem_cons_self)]
      rw [ih (fun d hd => hnb d (List.mem_cons_of_mem _ hd))
        fun s hs h => hns s hs (h.trans (List.suffix_cons c w).isInfix)]
      simp

/-- What spells a token is read as that token. -/
theorem scan_spells {t : Token} {s cs : List Char} (h : Spells t s) (hcs : AtBlank cs)
    (tokens : List Token) : scan tokens [] (s ++ cs) = scan (t :: tokens) [] cs := by
  cases h with
  | @separator s hs =>
      have hsep : separator? (s.1 ++ cs) = some (s.2, cs) := by
        cases cs with
        | nil => rw [List.append_nil, separator?_of_mem_separators hs]
        | cons b cs =>
            rw [separator?_append_blank (hcs b rfl), separator?_of_mem_separators hs]
            rfl
      rw [scan_of_separator? hsep]
      rfl
  | word hw =>
      rw [scan_append_of_noSeparator hw.noBlank hw.noSeparator hcs, scan_atBlank hcs]
      have hne : s.reverse.isEmpty = false := by simpa using hw.ne_nil
      simp [flush, hne]

/-- **What spells tokens is read as these tokens**, one after the other. -/
theorem scan_renders {ts : List Token} {cs : List Char} (h : Renders ts cs) (tokens : List Token) :
    scan tokens [] cs = tokens.reverse ++ ts := by
  induction h generalizing tokens with
  | @nil bs hbs =>
      rw [← List.append_nil bs, scan_blanks_append hbs, scan_nil]
      simp [flush]
  | cons hbs hs hcs _ ih =>
      rw [scan_blanks_append hbs, scan_spells hs hcs, ih]
      simp

/-- A token that can be written: a word that is one, or anything else. -/
def IsProper (t : Token) : Prop := ∀ w, t = word w → IsWord w.toList

/-- A proper token is spelled by its own text. -/
theorem spells_text {t : Token} (h : t.IsProper) : Spells t t.text.toList := by
  cases t with
  | openGroup => exact Spells.separator (s := (['('], openGroup)) (by decide)
  | closeGroup => exact Spells.separator (s := ([')'], closeGroup)) (by decide)
  | operator op => exact Spells.separator (s := (op.text.toList, operator op)) (by cases op <;> decide)
  | word w =>
      have hw := Spells.word (h w rfl)
      rw [String.ofList_toList] at hw
      exact hw

/-- The texts of tokens, with a blank before each. -/
def spaced (ts : List Token) : List Char := ts.flatMap fun t => ' ' :: t.text.toList

/-- Such a text spells the tokens, if they are proper. -/
theorem renders_spaced {ts : List Token} (h : ∀ t ∈ ts, t.IsProper) : Renders ts (spaced ts) := by
  induction ts with
  | nil => exact .nil fun b hb => by cases hb
  | cons t ts ih =>
      have hts : Renders ts (spaced ts) := ih fun s hs => h s (List.mem_cons_of_mem _ hs)
      have hblank : Blanks [' '] := fun b hb => by
        obtain rfl := List.mem_singleton.mp hb
        decide
      have hnext : AtBlank (spaced ts) := by
        cases ts with
        | nil => exact fun c hc => by cases hc
        | cons s ts => exact fun c hc => by cases hc; decide
      exact .cons hblank (spells_text (h t List.mem_cons_self)) hnext hts

end Token

/-- Whatever spelling and whatever blanks are chosen, the tokens are read back. -/
theorem tokenize_of_renders {ts : List Token} {text : String} (h : Token.Renders ts text.toList) :
    tokenize text = ts := Token.scan_renders h []

theorem Token.blanks_takeWhile (cs : List Char) : Blanks (cs.takeWhile isBlank) :=
  fun _ hb => List.all_eq_true.mp List.all_takeWhile _ hb

/-- Blanks at the ends of a condition make no difference to its tokens. -/
theorem tokenize_trim (text : String) : tokenize (trim text) = tokenize text := by
  unfold tokenize trim trimBlanks
  rw [String.toList_ofList]
  generalize text.toList = cs
  have hfront : cs.takeWhile isBlank ++ cs.dropWhile isBlank = cs := List.takeWhile_append_dropWhile
  generalize cs.dropWhile isBlank = ds at hfront ⊢
  -- the same at the other end, in the text without the blanks in front
  have hback : (ds.reverse.dropWhile isBlank).reverse ++ (ds.reverse.takeWhile isBlank).reverse =
      ds := by
    rw [← List.reverse_append, List.takeWhile_append_dropWhile, List.reverse_reverse]
  have hblank : Token.Blanks (ds.reverse.takeWhile isBlank).reverse :=
    fun b hb => Token.blanks_takeWhile _ b (List.mem_reverse.mp hb)
  rw [← hfront, Token.scan_blanks_append (Token.blanks_takeWhile cs)]
  rw [← Token.scan_append_blanks hblank, hback]

end Criterion
