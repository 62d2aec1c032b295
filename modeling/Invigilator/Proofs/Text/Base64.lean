import Invigilator.Text.Base64

/-!
# Base 64 is read as it was written

A text in base 64 stands for some bytes exactly if it is what they are written as (`decode?_iff`):
nothing is lost, and no other text is taken for the same bytes, since reading insists that the bits
which the last character does not need are zero.

Writing goes by groups of three bytes and reading by groups of four characters, so each direction is
one induction over the groups. What happens to the bits inside a group is division and remainder,
and a character and its number determine each other (`valueOf?_charOf`, `charOf_of_valueOf?`).
-/

namespace Invigilator.Base64

/-! ## Characters -/

variable {v : Variant} {c : Char} {n : Nat}

theorem valueOf?_charOf (h : n < 64) : valueOf? v (charOf v n) = some n := by
  have hall : ∀ v, ∀ n < 64, valueOf? v (charOf v n) = some n := by
    intro v
    cases v <;> decide
  exact hall v n h

/-- A number stands for the character that it was read from. -/
theorem charOf_of_valueOf? (h : valueOf? v c = some n) : n < 64 ∧ charOf v n = c := by
  have hself : ∀ k, k = c.toNat → Char.ofNat k = c := by
    rintro k rfl
    exact Char.ofNat_toNat c
  simp only [valueOf?] at h
  unfold charOf
  split at h
  · rename_i hupper
    cases h
    exact ⟨by omega, by rw [if_pos (by omega)]; exact hself _ (by omega)⟩
  split at h
  · rename_i hlower
    cases h
    exact ⟨by omega, by rw [if_neg (by omega), if_pos (by omega)]; exact hself _ (by omega)⟩
  split at h
  · rename_i hdigit
    cases h
    refine ⟨by omega, ?_⟩
    rw [if_neg (by omega), if_neg (by omega), if_pos (by omega)]
    exact hself _ (by omega)
  split at h
  · rename_i hlast
    cases h
    exact ⟨by decide, hlast.symm⟩
  split at h
  · rename_i hlast
    cases h
    exact ⟨by decide, hlast.symm⟩
  · cases h

/-- The dot is kept for what stands between texts. -/
theorem charOf_ne_dot (h : n < 64) : charOf v n ≠ '.' := by
  have hall : ∀ v, ∀ n < 64, charOf v n ≠ '.' := by
    intro v
    cases v <;> decide
  exact hall v n h

/-! ## Bytes -/

/-- Bytes are put together from their bits. -/
theorem ofNat_eq {a : UInt8} (h : n = a.toNat) : UInt8.ofNat n = a := by
  rw [h, UInt8.ofNat_toNat]

/-- **What is written is read.** -/
theorem decode?_encode (v : Variant) (bytes : List UInt8) :
    decode? v (encode v bytes) = some bytes := by
  induction bytes using encode.induct with
  | case1 => rfl
  | case2 a =>
    have ha := a.toNat_lt
    have hbyte : UInt8.ofNat (a.toNat / 4 * 4 + a.toNat % 4 * 16 / 16) = a := ofNat_eq (by omega)
    rw [encode, decode?, valueOf?_charOf (by omega), valueOf?_charOf (by omega)]
    simp only [Option.bind_eq_bind, Option.bind_some]
    rw [if_pos (by omega), hbyte]
  | case3 a b =>
    have ha := a.toNat_lt
    have hb := b.toNat_lt
    have hfirst : UInt8.ofNat
        (a.toNat / 4 * 4 + (a.toNat % 4 * 16 + b.toNat / 16) / 16) = a := ofNat_eq (by omega)
    have hsecond : UInt8.ofNat
        ((a.toNat % 4 * 16 + b.toNat / 16) % 16 * 16 + b.toNat % 16 * 4 / 4) = b :=
      ofNat_eq (by omega)
    rw [encode, decode?, valueOf?_charOf (by omega), valueOf?_charOf (by omega),
      valueOf?_charOf (by omega)]
    simp only [Option.bind_eq_bind, Option.bind_some]
    rw [if_pos (by omega), hfirst, hsecond]
  | case4 a b c rest ih =>
    have ha := a.toNat_lt
    have hb := b.toNat_lt
    have hc := c.toNat_lt
    have hfirst : UInt8.ofNat
        (a.toNat / 4 * 4 + (a.toNat % 4 * 16 + b.toNat / 16) / 16) = a := ofNat_eq (by omega)
    have hsecond : UInt8.ofNat ((a.toNat % 4 * 16 + b.toNat / 16) % 16 * 16 +
        (b.toNat % 16 * 4 + c.toNat / 64) / 4) = b := ofNat_eq (by omega)
    have hthird : UInt8.ofNat
        ((b.toNat % 16 * 4 + c.toNat / 64) % 4 * 64 + c.toNat % 64) = c := ofNat_eq (by omega)
    rw [encode, decode?, valueOf?_charOf (by omega), valueOf?_charOf (by omega),
      valueOf?_charOf (by omega), valueOf?_charOf (by omega), ih]
    simp only [Option.bind_eq_bind, Option.bind_some]
    rw [hfirst, hsecond, hthird]

/-- **What is read was written.** -/
theorem encode_of_decode? {cs : List Char} {bytes : List UInt8}
    (h : decode? v cs = some bytes) : encode v bytes = cs := by
  have hbyte : ∀ {n : Nat}, n < 256 → (UInt8.ofNat n).toNat = n := UInt8.toNat_ofNat_of_lt'
  induction cs using decode?.induct generalizing bytes with
  | case1 =>
    cases h
    rfl
  | case2 => cases h
  | case3 p q =>
    simp only [decode?, Option.bind_eq_bind, Option.bind_eq_some_iff] at h
    obtain ⟨m, hp, n, hq, h⟩ := h
    obtain ⟨hm, rfl⟩ := charOf_of_valueOf? hp
    obtain ⟨hn, rfl⟩ := charOf_of_valueOf? hq
    split at h
    · cases h
      have hm' : (m * 4 + n / 16) / 4 = m := by omega
      have hn' : (m * 4 + n / 16) % 4 * 16 = n := by omega
      rw [encode, hbyte (by omega), hm', hn']
    · cases h
  | case4 p q r =>
    simp only [decode?, Option.bind_eq_bind, Option.bind_eq_some_iff] at h
    obtain ⟨m, hp, n, hq, k, hr, h⟩ := h
    obtain ⟨hm, rfl⟩ := charOf_of_valueOf? hp
    obtain ⟨hn, rfl⟩ := charOf_of_valueOf? hq
    obtain ⟨hk, rfl⟩ := charOf_of_valueOf? hr
    split at h
    · cases h
      have hm' : (m * 4 + n / 16) / 4 = m := by omega
      have hn' : (m * 4 + n / 16) % 4 * 16 + (n % 16 * 16 + k / 4) / 16 = n := by omega
      have hk' : (n % 16 * 16 + k / 4) % 16 * 4 = k := by omega
      rw [encode, hbyte (by omega), hbyte (by omega), hm', hn', hk']
    · cases h
  | case5 p q r s rest ih =>
    simp only [decode?, Option.bind_eq_bind, Option.bind_eq_some_iff] at h
    obtain ⟨m, hp, n, hq, k, hr, l, hs, bytes', hrest, h⟩ := h
    obtain ⟨hm, rfl⟩ := charOf_of_valueOf? hp
    obtain ⟨hn, rfl⟩ := charOf_of_valueOf? hq
    obtain ⟨hk, rfl⟩ := charOf_of_valueOf? hr
    obtain ⟨hl, rfl⟩ := charOf_of_valueOf? hs
    cases h
    have hm' : (m * 4 + n / 16) / 4 = m := by omega
    have hn' : (m * 4 + n / 16) % 4 * 16 + (n % 16 * 16 + k / 4) / 16 = n := by omega
    have hk' : (n % 16 * 16 + k / 4) % 16 * 4 + (k % 4 * 64 + l) / 64 = k := by omega
    have hl' : (k % 4 * 64 + l) % 64 = l := by omega
    rw [encode, hbyte (by omega), hbyte (by omega), hbyte (by omega), ih hrest,
      hm', hn', hk', hl']

/-- **A text stands for some bytes exactly if it is what they are written as.** -/
theorem decode?_iff {cs : List Char} {bytes : List UInt8} :
    decode? v cs = some bytes ↔ encode v bytes = cs :=
  ⟨encode_of_decode?, fun h => h ▸ decode?_encode v bytes⟩

/-- No dot is written. -/
theorem dot_notMem_encode (v : Variant) (bytes : List UInt8) : '.' ∉ encode v bytes := by
  have hchar : ∀ {n : Nat}, n < 64 → '.' ≠ charOf v n := fun h => (charOf_ne_dot h).symm
  induction bytes using encode.induct with
  | case1 => exact List.not_mem_nil
  | case2 a =>
    have ha := a.toNat_lt
    simp only [encode, List.mem_cons, List.not_mem_nil, or_false, not_or]
    exact ⟨hchar (by omega), hchar (by omega)⟩
  | case3 a b =>
    have ha := a.toNat_lt
    have hb := b.toNat_lt
    simp only [encode, List.mem_cons, List.not_mem_nil, or_false, not_or]
    exact ⟨hchar (by omega), hchar (by omega), hchar (by omega)⟩
  | case4 a b c rest ih =>
    have ha := a.toNat_lt
    have hb := b.toNat_lt
    have hc := c.toNat_lt
    simp only [encode, List.mem_cons, not_or]
    exact ⟨hchar (by omega), hchar (by omega), hchar (by omega), hchar (by omega), ih⟩

end Invigilator.Base64
