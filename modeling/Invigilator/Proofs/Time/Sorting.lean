import Invigilator.Access.Token
import Invigilator.Proofs.Time.Reading

/-!
# Written moments in order

Whether texts sort as the moments that they stand for. They do but for one thing. The fields of a
written moment are numerals of fixed width, from the year down to the second, and those sort as
their numbers (`Decimal.padded_lt_padded`). The decimals of the second are no field of fixed width:
there are 0, 3, 6 or 9 of them, with the mark `Z` behind, and `Z` comes after the point and after
every digit. So a text is greater than all others that begin as it does and go on with decimals.

A moment `Covers` the later ones that differ from it in decimals that it does not have itself. That
is all there is to it: of two moments the earlier has the smaller text if and only if it does not
cover the later (`write_lt_write_iff`). A whole second covers everything up to the next.
-/

namespace Invigilator

namespace Token

/-! ## Texts as bytes -/

/-- A character of one byte. -/
def IsAscii (c : Char) : Prop := c.toNat ≤ 127

instance (c : Char) : Decidable (IsAscii c) := inferInstanceAs (Decidable (_ ≤ _))

theorem bytesOf_ofList (cs : List Char) :
    bytesOf (String.ofList cs) = cs.flatMap String.utf8EncodeChar := by
  simp [bytesOf, String.toUTF8, List.utf8Encode]

theorem bytesOf_inj {s t : String} : bytesOf s = bytesOf t ↔ s = t :=
  ⟨fun h => String.toByteArray_inj.mp (ByteArray.ext (Array.toList_inj.mp h)), congrArg bytesOf⟩

theorem toNat_byte {c : Char} (hc : IsAscii c) : (UInt8.ofNat c.toNat).toNat = c.toNat := by
  rw [UInt8.toNat_ofNat']
  exact Nat.mod_eq_of_lt (Nat.lt_of_le_of_lt hc (by decide))

/-- **Texts of such characters are in order as their bytes are.** -/
theorem bytesOf_lt_bytesOf {as bs : List Char} (has : ∀ c ∈ as, IsAscii c)
    (hbs : ∀ c ∈ bs, IsAscii c) :
    bytesOf (String.ofList as) < bytesOf (String.ofList bs) ↔ as < bs := by
  have hbyte : ∀ c, IsAscii c → String.utf8EncodeChar c = [UInt8.ofNat c.toNat] :=
    fun c hc => if_pos hc
  rw [bytesOf_ofList, bytesOf_ofList]
  induction as generalizing bs with
  | nil =>
    cases bs with
    | nil => simp
    | cons b bs => simp [hbyte b (hbs b List.mem_cons_self)]
  | cons a as ih =>
    cases bs with
    | nil => simp
    | cons b bs =>
      obtain ⟨ha, has⟩ := List.forall_mem_cons.mp has
      obtain ⟨hb, hbs⟩ := List.forall_mem_cons.mp hbs
      have hless : UInt8.ofNat a.toNat < UInt8.ofNat b.toNat ↔ a < b := by
        rw [UInt8.lt_iff_toNat_lt, toNat_byte ha, toNat_byte hb]
        rfl
      have hsame : UInt8.ofNat a.toNat = UInt8.ofNat b.toNat ↔ a = b := by
        rw [← UInt8.toNat_inj, toNat_byte ha, toNat_byte hb, Char.toNat_inj]
      rw [List.flatMap_cons, List.flatMap_cons, hbyte a ha, hbyte b hb, List.singleton_append,
        List.singleton_append, List.cons_lt_cons_iff, List.cons_lt_cons_iff]
      exact or_congr hless (and_congr hsame (ih has hbs))

end Token

namespace Stamp

open Decimal (padded isDigit)
open Token (bytesOf IsAscii)

/-! ## The decimals of a second -/

/-- What the last decimal of a written second stands for, in nanoseconds. Where there are no
decimals it is the second itself. -/
def place (nano : Nat) : Nat :=
  if nano = 0 then nanosPerSecond
  else if nano % 1000000 = 0 then 1000000
  else if nano % 1000 = 0 then 1000
  else 1

/-- The end of a written moment: the decimals of the second, and the mark behind them. -/
def ending (nano : Nat) : List Char := writeFraction nano ++ ['Z']

/-- Decimals are a numeral of the units that the last of them stands for. -/
theorem exists_writeFraction {n : Nat} (hpos : 0 < n) (hn : n < nanosPerSecond) :
    ∃ width k, 0 < width ∧ width ≤ 9 ∧ k < Nat.pow 10 width ∧
      writeFraction n = '.' :: padded width k ∧ place n = Nat.pow 10 (9 - width) ∧
        n = k * place n := by
  have hsmall : n < 1000000000 := hn
  have hzero : n ≠ 0 := Nat.ne_of_gt hpos
  by_cases hmilli : n % 1000000 = 0
  · have hplace : place n = 1000000 := (if_neg hzero).trans (if_pos hmilli)
    have hwritten : writeFraction n = '.' :: padded 3 (n / 1000000) :=
      (if_neg hzero).trans (if_pos hmilli)
    rw [hplace, hwritten]
    exact ⟨3, n / 1000000, by decide, by decide, show _ < 1000 by omega, rfl, rfl, by omega⟩
  by_cases hmicro : n % 1000 = 0
  · have hplace : place n = 1000 :=
      (if_neg hzero).trans ((if_neg hmilli).trans (if_pos hmicro))
    have hwritten : writeFraction n = '.' :: padded 6 (n / 1000) :=
      (if_neg hzero).trans ((if_neg hmilli).trans (if_pos hmicro))
    rw [hplace, hwritten]
    exact ⟨6, n / 1000, by decide, by decide, show _ < 1000000 by omega, rfl, rfl, by omega⟩
  · have hplace : place n = 1 := (if_neg hzero).trans ((if_neg hmilli).trans (if_neg hmicro))
    have hwritten : writeFraction n = '.' :: padded 9 n :=
      (if_neg hzero).trans ((if_neg hmilli).trans (if_neg hmicro))
    rw [hplace, hwritten]
    exact ⟨9, n, by decide, by decide, hsmall, rfl, rfl, (Nat.mul_one n).symm⟩

/-- The mark behind a numeral comes after every digit. So of two numerals that begin alike the
longer one is the smaller text. -/
theorem longer_lt {width more k l : Nat} (hwidth : 0 < width) (hk : k < Nat.pow 10 width)
    (hl : l < Nat.pow 10 (width + (more + 1))) :
    (padded width k ++ ['Z'] < padded (width + (more + 1)) l ++ ['Z'] ↔
        k < l / Nat.pow 10 (more + 1)) ∧
      (padded (width + (more + 1)) l ++ ['Z'] < padded width k ++ ['Z'] ↔
        l / Nat.pow 10 (more + 1) ≤ k) := by
  obtain ⟨ds, hds, hlength, hdigits⟩ := Decimal.exists_padded_add hwidth (more + 1) l
  obtain ⟨d, ds, rfl⟩ := List.exists_cons_of_length_eq_add_one hlength
  have hfront : l / Nat.pow 10 (more + 1) < Nat.pow 10 width := by
    refine Nat.div_lt_of_lt_mul ?_
    rwa [show Nat.pow 10 (more + 1) * Nat.pow 10 width = Nat.pow 10 (width + (more + 1)) by
      rw [Nat.mul_comm]; exact (Nat.pow_add 10 width (more + 1)).symm]
  have hd : d.toNat < 'Z'.toNat := by
    have hdigit := hdigits d List.mem_cons_self
    simp only [isDigit, Bool.and_eq_true, decide_eq_true_eq] at hdigit
    exact Nat.lt_of_le_of_lt hdigit.2 (by decide)
  have hlt : d < 'Z' := hd
  have hnot : ¬('Z' < d) := Nat.lt_asymm hd
  have hne : d ≠ 'Z' := fun h => Nat.ne_of_lt hd (congrArg Char.toNat h)
  rw [hds, List.append_assoc, Decimal.padded_append_lt hwidth hk hfront,
    Decimal.padded_append_lt hwidth hfront hk, List.cons_append, List.cons_lt_cons_iff,
    List.cons_lt_cons_iff]
  simp [hlt, hnot, hne, hne.symm, Nat.le_iff_lt_or_eq]

/-- The units of fewer decimals are made of those of more. -/
theorem pow_place {w e : Nat} (h : w + e ≤ 9) :
    Nat.pow 10 (9 - w) = Nat.pow 10 e * Nat.pow 10 (9 - (w + e)) := by
  have hwidth : 9 - w = e + (9 - (w + e)) := by omega
  rw [hwidth]
  exact Nat.pow_add 10 e _

/-- Multiples of a unit that differ do so by a unit. -/
theorem add_unit_le {m n k l unit : Nat} (hm : m = k * unit) (hn : n = l * unit) (h : m < n) :
    k < l ∧ m + unit ≤ n := by
  rw [hm, hn] at h
  have hlt := Nat.lt_of_mul_lt_mul_right h
  refine ⟨hlt, ?_⟩
  rw [hm, hn, ← Nat.succ_mul]
  exact Nat.mul_le_mul_right unit hlt

/-- **Of two endings of one second the text of the earlier is the smaller if and only if the later
lies beyond what the last decimal of the earlier stands for.** -/
theorem ending_lt_ending {m n : Nat} (hlt : m < n) (hn : n < nanosPerSecond) :
    ending m < ending n ↔ m + place m ≤ n := by
  obtain ⟨v, l, hv, hv9, hl, hwritten', hplace', hn'⟩ := exists_writeFraction (by omega) hn
  rcases Nat.eq_zero_or_pos m with rfl | hpos
  · -- a second without decimals is the greatest text of its second
    have hzero : place 0 = nanosPerSecond := rfl
    rw [hzero, ending, ending, hwritten', List.cons_append, show writeFraction 0 = [] from rfl,
      List.nil_append, List.cons_lt_cons_iff]
    have hmark : ¬('Z' < '.') ∧ 'Z' ≠ '.' := by decide
    exact iff_of_false (fun h => h.elim hmark.1 fun h => hmark.2 h.1) (by omega)
  obtain ⟨w, k, hw, hw9, hk, hwritten, hplace, hm⟩ := exists_writeFraction hpos (by omega)
  rw [ending, ending, hwritten, hwritten', List.cons_append, List.cons_append,
    List.cons_lt_cons_self]
  -- the numerals have as many digits in common as the shorter one has
  rcases Nat.lt_trichotomy w v with hshort | rfl | hlong
  · -- the earlier is the shorter: its mark is smaller than no digit, so its digits must be
    obtain ⟨d, rfl⟩ := Nat.exists_eq_add_of_lt hshort
    rw [Nat.add_assoc] at hl hv9 hplace' ⊢
    have hunits : place m = Nat.pow 10 (d + 1) * place n := by
      rw [hplace, hplace', pow_place hv9]
    have hpos' : 0 < place n := hplace' ▸ Nat.pow_pos (by decide)
    have hsum : m + place m = (k + 1) * Nat.pow 10 (d + 1) * place n := by
      rw [Nat.mul_assoc, ← hunits, Nat.succ_mul, ← hm]
    have hfew : 0 < Nat.pow 10 (d + 1) := Nat.pow_pos (by decide)
    rw [(longer_lt hw hk hl).1, Nat.lt_iff_add_one_le, Nat.le_div_iff_mul_le hfew, hsum,
      ← Nat.mul_le_mul_right_iff hpos', ← hn']
  · -- of one length: the numbers decide, and they differ by a unit
    have hunits : place n = place m := hplace'.trans hplace.symm
    obtain ⟨hless, hbeyond⟩ := add_unit_le hm (hunits ▸ hn') hlt
    rw [Decimal.padded_append_lt hw hk hl]
    exact iff_of_true (.inl hless) hbeyond
  · -- the later is the shorter: its mark is greater than every digit
    obtain ⟨d, rfl⟩ := Nat.exists_eq_add_of_lt hlong
    rw [Nat.add_assoc] at hk hw9 hplace ⊢
    have hunits : place n = Nat.pow 10 (d + 1) * place m := by
      rw [hplace, hplace', pow_place hw9]
    rw [hunits, ← Nat.mul_assoc] at hn'
    obtain ⟨hless, hbeyond⟩ := add_unit_le hm hn' hlt
    rw [(longer_lt hv hl hk).2]
    refine iff_of_true ?_ hbeyond
    exact Nat.div_le_of_le_mul (Nat.mul_comm l _ ▸ Nat.le_of_lt hless)

/-! ## Moments -/

theorem lt_iff_parts {a b : Stamp} : a.lt b = true ↔ a.day < b.day ∨ a.day = b.day ∧
    (a.second < b.second ∨ a.second = b.second ∧ a.nano < b.nano) := by
  simp [lt]

/-- Of two different moments one is earlier. -/
theorem lt_or_lt {a b : Stamp} (h : a ≠ b) : a.lt b = true ∨ b.lt a = true := by
  obtain ⟨day, second, nano⟩ := a
  obtain ⟨day', second', nano'⟩ := b
  rw [Ne, mk.injEq] at h
  rw [lt_iff_parts, lt_iff_parts]
  dsimp only
  omega

/-- Of two moments not both are earlier. -/
theorem lt_asymm {a b : Stamp} (h : a.lt b = true) : ¬b.lt a = true := by
  rw [lt_iff_parts] at *
  omega

/-- What is not earlier than a moment is not earlier than one before it. -/
theorem not_lt_trans {a b c : Stamp} (hab : ¬a.lt b = true) (hbc : ¬b.lt c = true) :
    ¬a.lt c = true := by
  rw [lt_iff_parts] at *
  omega

/-- The second of a minute as it is written: a leap second is the sixtieth. -/
def shownSecond (s : Stamp) : Nat := s.second % 60 + if s.isLeap then 1 else 0

/-- The nanoseconds of a second as they are written. -/
def shownNano (s : Stamp) : Nat := if s.isLeap then s.nano - nanosPerSecond else s.nano

/-- A moment of a year that is written in four digits. -/
structure Plain (s : Stamp) : Prop where
  valid : s.Valid
  first : 0 ≤ (Date.ofDays s.day).year
  last : (Date.ofDays s.day).year ≤ 9999

instance (s : Stamp) : Decidable s.Plain :=
  decidable_of_iff ((s.second < 86400 ∧ s.nano < 2 * nanosPerSecond ∧
      (nanosPerSecond ≤ s.nano → s.second % 60 = 59)) ∧ 0 ≤ (Date.ofDays s.day).year ∧
        (Date.ofDays s.day).year ≤ 9999)
    ⟨fun h => ⟨h.1, h.2.1, h.2.2⟩, fun h => ⟨h.valid, h.first, h.last⟩⟩

/-- A later moment lies within what the last written decimal of a moment stands for. -/
def Covers (a b : Stamp) : Prop :=
  a.day = b.day ∧ a.second = b.second ∧ a.nano < b.nano ∧ b.nano < a.nano + place a.shownNano

instance (a b : Stamp) : Decidable (a.Covers b) := inferInstanceAs (Decidable (_ ∧ _ ∧ _ ∧ _))

/-- Half a second later is covered by the whole second, but a second later is not. -/
example : Covers ⟨19675, 80000, 0⟩ ⟨19675, 80000, 500000000⟩ ∧
    ¬Covers ⟨19675, 80000, 0⟩ ⟨19675, 80001, 0⟩ := by decide

variable {s a b : Stamp}

theorem Covers.lt (h : a.Covers b) : a.lt b = true :=
  lt_iff_parts.mpr (.inr ⟨h.1, .inr ⟨h.2.1, h.2.2.1⟩⟩)

theorem writeChars_eq (h : s.Plain) : s.writeChars =
    padded 4 (Date.ofDays s.day).year.toNat ++ '-' :: (padded 2 (Date.ofDays s.day).month ++
      '-' :: (padded 2 (Date.ofDays s.day).day ++ 'T' :: (padded 2 (s.second / 3600) ++
        ':' :: (padded 2 (s.second / 60 % 60) ++
          ':' :: (padded 2 s.shownSecond ++ ending s.shownNano))))) := by
  have hyear : writeYear (Date.ofDays s.day).year = padded 4 (Date.ofDays s.day).year.toNat :=
    if_pos ⟨h.first, h.last⟩
  rw [writeChars, hyear]
  simp only [List.append_assoc, List.cons_append]
  rfl

/-- A moment is written as one of an ordinary second, or as one of the sixtieth of its minute. -/
theorem Valid.shown (h : s.Valid) :
    s.nano < nanosPerSecond ∧ s.shownSecond = s.second % 60 ∧ s.shownNano = s.nano ∨
      nanosPerSecond ≤ s.nano ∧ s.second % 60 = 59 ∧ s.shownSecond = 60 ∧
        s.shownNano = s.nano - nanosPerSecond := by
  by_cases hleap : nanosPerSecond ≤ s.nano
  · have hlast := h.2.2 hleap
    have hyes : s.isLeap = true := decide_eq_true hleap
    right
    rw [shownSecond, shownNano, if_pos hyes, if_pos hyes, hlast]
    exact ⟨hleap, rfl, rfl, rfl⟩
  · have hno : ¬s.isLeap = true := mt of_decide_eq_true hleap
    left
    rw [shownSecond, shownNano, if_neg hno, if_neg hno]
    exact ⟨Nat.not_le.mp hleap, rfl, rfl⟩

/-- Every field fits its width. -/
theorem Plain.fields_lt (h : s.Plain) : (Date.ofDays s.day).year.toNat < 10000 ∧
    (Date.ofDays s.day).month < 100 ∧ (Date.ofDays s.day).day < 100 ∧ s.second / 3600 < 100 ∧
      s.second / 60 % 60 < 100 ∧ s.shownSecond < 100 := by
  have hshown := h.valid.shown
  obtain ⟨⟨hsecond, -⟩, hfirst, hlast⟩ := h
  obtain ⟨hmonth, hday⟩ := Date.ofDays_fields_le s.day
  omega

/-- **The fields decide in their order,** and the decimals behind them last. -/
theorem writeChars_lt_writeChars (ha : a.Plain) (hb : b.Plain) :
    a.writeChars < b.writeChars ↔ a.day < b.day ∨ a.day = b.day ∧
      (a.second / 3600 < b.second / 3600 ∨ a.second / 3600 = b.second / 3600 ∧
        (a.second / 60 % 60 < b.second / 60 % 60 ∨ a.second / 60 % 60 = b.second / 60 % 60 ∧
          (a.shownSecond < b.shownSecond ∨ a.shownSecond = b.shownSecond ∧
            ending a.shownNano < ending b.shownNano))) := by
  obtain ⟨hyear, hmonth, hday, hhour, hminute, hsecond⟩ := ha.fields_lt
  obtain ⟨hyear', hmonth', hday', hhour', hminute', hsecond'⟩ := hb.fields_lt
  rw [writeChars_eq ha, writeChars_eq hb, Decimal.padded_append_lt (by decide) hyear hyear',
    List.cons_lt_cons_self, Decimal.padded_append_lt (by decide) hmonth hmonth',
    List.cons_lt_cons_self, Decimal.padded_append_lt (by decide) hday hday',
    List.cons_lt_cons_self, Decimal.padded_append_lt (by decide) hhour hhour',
    List.cons_lt_cons_self, Decimal.padded_append_lt (by decide) hminute hminute',
    List.cons_lt_cons_self, Decimal.padded_append_lt (by decide) hsecond hsecond']
  have hless : (Date.ofDays a.day).year.toNat < (Date.ofDays b.day).year.toNat ↔
      (Date.ofDays a.day).year < (Date.ofDays b.day).year := by
    have := ha.first
    have := hb.first
    omega
  have hequal : (Date.ofDays a.day).year.toNat = (Date.ofDays b.day).year.toNat ↔
      (Date.ofDays a.day).year = (Date.ofDays b.day).year := by
    have := ha.first
    have := hb.first
    omega
  -- the parts of the date are taken together, and they stand for the day
  rw [hless, hequal, ← Date.before_ofDays (m := a.day), Date.Before,
    ← Date.ofDays_parts (m := a.day)]
  simp only [and_or_left, or_assoc, and_assoc]

/-- The decimals of a second do not reach beyond it. -/
theorem add_place_le {n : Nat} (hn : n < nanosPerSecond) : n + place n ≤ nanosPerSecond := by
  have hsecond : nanosPerSecond = 1000000000 := rfl
  unfold place
  split
  · omega
  split
  · omega
  split <;> omega

/-- Within one second the decimals decide, unless it is followed by a leap second. -/
theorem shown_lt_iff (ha : a.Valid) (hb : b.Valid) (hnano : a.nano < b.nano)
    (hsecond : a.second = b.second) :
    (a.shownSecond < b.shownSecond ∨ a.shownSecond = b.shownSecond ∧
        ending a.shownNano < ending b.shownNano) ↔ ¬b.nano < a.nano + place a.shownNano := by
  have hbound := hb.2.1
  rcases ha.shown with ⟨hplain, hshown, hwritten⟩ | ⟨hleap, hlast, hshown, hwritten⟩ <;>
    rcases hb.shown with ⟨hplain', hshown', hwritten'⟩ | ⟨hleap', hlast', hshown', hwritten'⟩ <;>
    rw [hshown, hshown', hwritten, hwritten']
  · have hending := ending_lt_ending hnano hplain'
    rw [hsecond, hending]
    simp
  · -- from the ordinary second to the leap second behind it
    have hwithin := add_place_le hplain
    exact iff_of_true (.inl (by omega)) (by omega)
  · -- the leap second is the later one
    omega
  · have hshownNano : a.nano - nanosPerSecond < b.nano - nanosPerSecond := by omega
    rw [ending_lt_ending hshownNano (by omega)]
    omega

/-- **Of two moments the text of the earlier is the smaller if and only if the earlier does not
cover the later.** -/
theorem writeChars_lt_iff (ha : a.Plain) (hb : b.Plain) (h : a.lt b = true) :
    a.writeChars < b.writeChars ↔ ¬a.Covers b := by
  rw [writeChars_lt_writeChars ha hb]
  rcases lt_iff_parts.mp h with hday | ⟨hday, hsecond | ⟨hsecond, hnano⟩⟩
  · exact iff_of_true (.inl hday) fun hcovers => Int.ne_of_lt hday hcovers.1
  · -- a leap second is the last of its minute, so a later second shows in the fields
    refine iff_of_true (.inr ⟨hday, ?_⟩) fun hcovers => Nat.ne_of_lt hsecond hcovers.2.1
    rcases ha.valid.shown with ⟨-, hshown, -⟩ | ⟨-, hlast, hshown, -⟩ <;>
      rcases hb.valid.shown with ⟨-, hshown', -⟩ | ⟨-, hlast', hshown', -⟩ <;> omega
  · have hdecimals := shown_lt_iff ha.valid hb.valid hnano hsecond
    rw [hday, hsecond, hdecimals, Covers]
    simp [hday, hsecond, hnano]

/-- A written moment has no other characters than those of one byte. -/
theorem Plain.isAscii (h : s.Plain) : ∀ c ∈ s.writeChars, IsAscii c := by
  have hdigits : ∀ width n, ∀ c ∈ padded width n, IsAscii c := by
    intro width n c hc
    have hdigit := Decimal.isDigit_of_mem_padded width n c hc
    simp only [isDigit, Bool.and_eq_true, decide_eq_true_eq] at hdigit
    exact Nat.le_trans hdigit.2 (by decide)
  have hending : ∀ n, ∀ c ∈ ending n, IsAscii c := by
    intro n
    have hmark : IsAscii 'Z' := by decide
    have hpoint : IsAscii '.' := by decide
    unfold ending writeFraction
    refine List.forall_mem_append.mpr ⟨?_, List.forall_mem_singleton.mpr hmark⟩
    split
    · exact List.forall_mem_nil _
    split
    · exact List.forall_mem_cons.mpr ⟨hpoint, hdigits _ _⟩
    split
    · exact List.forall_mem_cons.mpr ⟨hpoint, hdigits _ _⟩
    · exact List.forall_mem_cons.mpr ⟨hpoint, hdigits _ _⟩
  have hmarks : IsAscii '-' ∧ IsAscii 'T' ∧ IsAscii ':' := by decide
  rw [writeChars_eq h]
  simp only [List.forall_mem_append, List.forall_mem_cons]
  exact ⟨hdigits _ _, hmarks.1, hdigits _ _, hmarks.1, hdigits _ _, hmarks.2.1, hdigits _ _,
    hmarks.2.2, hdigits _ _, hmarks.2.2, hdigits _ _, hending _⟩

/-- **Of two moments the text of the earlier is the smaller, byte by byte, if and only if the
earlier does not cover the later.** -/
theorem write_lt_write_iff (ha : a.Plain) (hb : b.Plain) (h : a.lt b = true) :
    bytesOf a.write < bytesOf b.write ↔ ¬a.Covers b :=
  (Token.bytesOf_lt_bytesOf ha.isAscii hb.isAscii).trans (writeChars_lt_iff ha hb h)

/-- A moment of such a year is found again from its text. -/
theorem write_inj (ha : a.Plain) (hb : b.Plain) : a.write = b.write ↔ a = b := by
  refine ⟨fun h => ?_, congrArg write⟩
  have hread := read?_write (ha.valid.datable ha.first ha.last)
  rw [h, read?_write (hb.valid.datable hb.first hb.last)] at hread
  exact (Option.some.inj hread).symm

end Stamp

end Invigilator
