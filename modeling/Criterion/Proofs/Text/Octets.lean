import Mathlib.Data.String.Basic

/-!
# The octets of ordered texts

A text is kept in UTF-8, and a comparison of the octets is cheaper than one of the code points. It gives
the same answer: the longer encodings begin with the larger octets, and within one length the octets are
the digits of the code point to the base 64, the most significant one first.
-/

namespace Criterion

/-- The octets of a text, from the first on. -/
def utf8Octets (s : String) : List UInt8 := s.toUTF8.data.toList

theorem utf8Octets_eq (s : String) : utf8Octets s = s.toList.flatMap String.utf8EncodeChar := by
  show s.toByteArray.data.toList = _
  rw [← String.utf8Encode_toList, List.utf8Encode, List.toList_data_toByteArray]

/-! ## One character -/

/-- The first octets decide, if they differ. -/
theorem octet_cons_lt_iff {m n : Nat} (hm : m < 256) (hn : n < 256) {xs ys : List UInt8} :
    UInt8.ofNat m :: xs < UInt8.ofNat n :: ys ↔ m < n ∨ m = n ∧ xs < ys := by
  rw [List.cons_lt_cons_iff, UInt8.ofNat_lt_iff_lt hm hn, ← UInt8.toNat_inj,
    UInt8.toNat_ofNat_of_lt' hm, UInt8.toNat_ofNat_of_lt' hn]

theorem toNat_val_lt (c : Char) : c.val.toNat < 0x110000 := by
  rcases c.valid with h | h
  · exact Nat.lt_trans h (by decide)
  · exact h.2

/-- Whatever follows them, two characters are told apart by their own octets. -/
theorem utf8EncodeChar_append_lt {c d : Char} (h : c < d) (xs ys : List UInt8) :
    String.utf8EncodeChar c ++ xs < String.utf8EncodeChar d ++ ys := by
  have hlt : c.val.toNat < d.val.toNat := h
  have hmax := toNat_val_lt d
  have hdigits (k : Nat) : k / 4096 = k / 64 / 64 ∧ k / 262144 = k / 64 / 64 / 64 := by omega
  unfold String.utf8EncodeChar
  dsimp only
  -- the digits to the base 64, each from the one before it, as linear arithmetic wants them
  rw [(hdigits c.val.toNat).1, (hdigits c.val.toNat).2, (hdigits d.val.toNat).1,
    (hdigits d.val.toNat).2]
  generalize c.val.toNat = m at hlt ⊢
  generalize d.val.toNat = n at hlt hmax ⊢
  clear h hdigits
  -- one case for each two lengths; where the first is the longer one, the bounds exclude each other
  split_ifs <;>
    simp (disch := omega) only [List.cons_append, List.nil_append, octet_cons_lt_iff] <;>
    omega

/-! ## Texts -/

/-- Where one character is less than another, the octets up to there are the same. -/
theorem flatMap_utf8EncodeChar_lt {cs ds : List Char} (h : cs < ds) :
    cs.flatMap String.utf8EncodeChar < ds.flatMap String.utf8EncodeChar := by
  induction h with
  | @nil d ds =>
      have hne : String.utf8EncodeChar d ≠ [] := String.utf8EncodeChar_ne_nil
      obtain ⟨x, xs, hd⟩ := List.exists_cons_of_ne_nil hne
      rw [List.flatMap_nil, List.flatMap_cons, hd]
      exact List.Lex.nil
  | @rel c cs d ds hcd =>
      rw [List.flatMap_cons, List.flatMap_cons]
      exact utf8EncodeChar_append_lt hcd _ _
  | @cons c cs ds _ ih =>
      rw [List.flatMap_cons, List.flatMap_cons]
      exact List.append_left_lt ih

/-- **Two texts are ordered as their octets are.** -/
theorem utf8Octets_lt_iff {s t : String} : utf8Octets s < utf8Octets t ↔ s < t := by
  rw [utf8Octets_eq, utf8Octets_eq]
  constructor
  · intro h
    rcases lt_trichotomy s t with hst | rfl | hts
    · exact hst
    · exact absurd h (List.lt_irrefl _)
    · exact absurd h (List.lt_asymm (flatMap_utf8EncodeChar_lt (String.lt_iff_toList_lt.mp hts)))
  · intro h
    exact flatMap_utf8EncodeChar_lt (String.lt_iff_toList_lt.mp h)

end Criterion
