import Invigilator.Text.Utf8

/-!
# The bytes of a text are its characters

The decoder finds in the bytes of a text the characters of the text and nothing that is spoilt
(`pieces_utf8EncodeChar`). It takes one character at a time off the front, and how many bytes that
is shows in the first of them, so there is one case for each length of a character
(`front?_utf8EncodeChar`).
-/

namespace Invigilator.Utf8

variable {a b c d : UInt8} {n : Nat}

/-! ## The first byte tells the length -/

theorem isTail_iff : isTail b = true ↔ 0x80 ≤ b.toNat ∧ b.toNat < 0xc0 := by
  rw [isTail, Bool.and_eq_true, decide_eq_true_iff, decide_eq_true_iff, UInt8.le_iff_toNat_le,
    UInt8.lt_iff_toNat_lt]
  rfl

theorem not_lt_of_le {k : UInt8} (h : k.toNat ≤ a.toNat) : ¬a < k :=
  fun hlt => absurd (UInt8.lt_iff_toNat_lt.mp hlt) (Nat.not_lt.mpr h)

theorem front?_one (rest : List UInt8) (ha : a.toNat < 0x80) :
    front? (a :: rest) = some (Char.ofNat a.toNat, 0) := by
  have hone : a < 0x80 := UInt8.lt_iff_toNat_lt.mpr ha
  simp [front?, hone]

theorem front?_two (rest : List UInt8) (ha : 0xc0 ≤ a.toNat) (ha' : a.toNat < 0xe0)
    (hb : isTail b = true) :
    front? (a :: b :: rest) =
      (scalar? 0x80 ((a.toNat - 0xc0) * 64 + tailBits b)).map (·, 1) := by
  have hone : ¬a < 0x80 := not_lt_of_le (Nat.le_trans (by decide) ha)
  have htwo : a < 0xe0 := UInt8.lt_iff_toNat_lt.mpr ha'
  have hleast : (0xc0 : UInt8) ≤ a := UInt8.le_iff_toNat_le.mpr ha
  simp [front?, hone, htwo, hleast, hb]

theorem front?_three (rest : List UInt8) (ha : 0xe0 ≤ a.toNat) (ha' : a.toNat < 0xf0)
    (hb : isTail b = true) (hc : isTail c = true) :
    front? (a :: b :: c :: rest) =
      (scalar? 0x800 (((a.toNat - 0xe0) * 64 + tailBits b) * 64 + tailBits c)).map (·, 2) := by
  have hone : ¬a < 0x80 := not_lt_of_le (Nat.le_trans (by decide) ha)
  have htwo : ¬a < 0xe0 := not_lt_of_le ha
  have hthree : a < 0xf0 := UInt8.lt_iff_toNat_lt.mpr ha'
  simp [front?, hone, htwo, hthree, hb, hc]

theorem front?_four (rest : List UInt8) (ha : 0xf0 ≤ a.toNat) (ha' : a.toNat < 0xf8)
    (hb : isTail b = true) (hc : isTail c = true) (hd : isTail d = true) :
    front? (a :: b :: c :: d :: rest) =
      (scalar? 0x10000
        ((((a.toNat - 0xf0) * 64 + tailBits b) * 64 + tailBits c) * 64 + tailBits d)).map
          (·, 3) := by
  have hone : ¬a < 0x80 := not_lt_of_le (Nat.le_trans (by decide) ha)
  have htwo : ¬a < 0xe0 := not_lt_of_le (Nat.le_trans (by decide) ha)
  have hthree : ¬a < 0xf0 := not_lt_of_le ha
  have hfour : a < 0xf8 := UInt8.lt_iff_toNat_lt.mpr ha'
  simp [front?, hone, htwo, hthree, hfour, hb, hc, hd]

/-! ## What is written is found -/

theorem toNat_byte (h : n < 256) : (UInt8.ofNat n).toNat = n := UInt8.toNat_ofNat_of_lt h

/-- Six bits of a character are in each byte behind the first. -/
theorem isTail_byte (n : Nat) : isTail (UInt8.ofNat (n % 64 + 0x80)) = true := by
  rw [isTail_iff, toNat_byte (by omega)]
  omega

theorem tailBits_byte (n : Nat) : tailBits (UInt8.ofNat (n % 64 + 0x80)) = n % 64 := by
  have hbyte : (UInt8.ofNat (n % 64 + 0x80)).toNat = n % 64 + 0x80 := toNat_byte (by omega)
  unfold tailBits
  rw [hbyte, Nat.add_sub_cancel]

/-- Every character is a scalar value. -/
theorem char_toNat (c : Char) : c.toNat < 0xd800 ∨ 0xdfff < c.toNat ∧ c.toNat < 0x110000 :=
  c.valid

theorem scalar?_toNat {least value : Nat} (c : Char) (hvalue : value = c.toNat)
    (hleast : least ≤ c.toNat) : scalar? least value = some c := by
  have hvalid := char_toNat c
  rw [scalar?, if_pos (by omega), hvalue, Char.ofNat_toNat]

/-- **A character is found in front of whatever follows its bytes.** -/
theorem front?_utf8EncodeChar (c : Char) (rest : List UInt8) :
    ∃ a more, String.utf8EncodeChar c = a :: more ∧
      front? (a :: (more ++ rest)) = some (c, more.length) := by
  have hvalid := char_toNat c
  have hval : c.val.toNat = c.toNat := rfl
  simp only [String.utf8EncodeChar, hval]
  split
  · refine ⟨_, _, rfl, (front?_one rest ?_).trans ?_⟩
    · rw [toNat_byte (by omega)]
      omega
    · rw [toNat_byte (by omega), Char.ofNat_toNat]
      rfl
  split
  · refine ⟨_, _, rfl, (front?_two rest ?_ ?_ (isTail_byte _)).trans ?_⟩
    · rw [toNat_byte (by omega)]
      omega
    · rw [toNat_byte (by omega)]
      omega
    · rw [toNat_byte (by omega), tailBits_byte, scalar?_toNat c (by omega) (by omega)]
      rfl
  split
  · refine ⟨_, _, rfl, (front?_three rest ?_ ?_ (isTail_byte _) (isTail_byte _)).trans ?_⟩
    · rw [toNat_byte (by omega)]
      omega
    · rw [toNat_byte (by omega)]
      omega
    · rw [toNat_byte (by omega), tailBits_byte, tailBits_byte,
        scalar?_toNat c (by omega) (by omega)]
      rfl
  · refine ⟨_, _, rfl,
      (front?_four rest ?_ ?_ (isTail_byte _) (isTail_byte _) (isTail_byte _)).trans ?_⟩
    · rw [toNat_byte (by omega)]
      omega
    · rw [toNat_byte (by omega)]
      omega
    · rw [toNat_byte (by omega), tailBits_byte, tailBits_byte, tailBits_byte,
        scalar?_toNat c (by omega) (by omega)]
      rfl

/-- **The bytes of a text are taken for its characters.** -/
theorem pieces_utf8EncodeChar (cs : List Char) :
    pieces (cs.flatMap String.utf8EncodeChar) = cs.map some := by
  induction cs with
  | nil => rw [List.flatMap_nil, pieces, List.map_nil]
  | cons c cs ih =>
    obtain ⟨a, more, hbytes, hfront⟩ :=
      front?_utf8EncodeChar c (cs.flatMap String.utf8EncodeChar)
    rw [List.flatMap_cons, hbytes, List.cons_append, pieces, hfront]
    dsimp only
    rw [List.drop_left, ih, List.map_cons]

end Invigilator.Utf8
