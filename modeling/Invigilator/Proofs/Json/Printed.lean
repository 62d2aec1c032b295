import Invigilator.Proofs.Json.Parsing

/-!
# A written value is one line

No character below the space is written, so nothing that ends a line, whatever texts a value is made
of (`printed_write`). Inside a string such characters are escaped, and an escape is made of letters
and digits; outside there are only numerals, words and punctuation. A token is written in front of
others, so the induction is on the tokens from the back.
-/

namespace Invigilator.Json

/-- A text without control characters. -/
def Printed (cs : List Char) : Prop := ∀ c ∈ cs, 0x20 ≤ c.toNat

instance (cs : List Char) : Decidable (Printed cs) :=
  List.decidableBAll (fun c : Char => 0x20 ≤ c.toNat) cs

theorem Printed.cons {c : Char} {cs : List Char} (hc : 0x20 ≤ c.toNat) (hcs : Printed cs) :
    Printed (c :: cs) := List.forall_mem_cons.mpr ⟨hc, hcs⟩

theorem Printed.append {as bs : List Char} (has : Printed as) (hbs : Printed bs) :
    Printed (as ++ bs) := List.forall_mem_append.mpr ⟨has, hbs⟩

/-! ## Strings and numbers -/

theorem printed_hexDigit : ∀ d < 16, 0x20 ≤ (hexDigit d).toNat := by decide

/-- A control is escaped, and its escape is made of others. -/
theorem printed_escapeChar (c : Char) : Printed (escapeChar c) := by
  unfold escapeChar
  split
  · decide
  split
  · decide
  split
  · decide
  split
  · decide
  split
  · decide
  split
  · decide
  split
  · decide
  split
  · rename_i hcontrol
    have hdigits : Printed [hexDigit (c.toNat / 16), hexDigit (c.toNat % 16)] :=
      .cons (printed_hexDigit _ (by omega)) (.cons (printed_hexDigit _ (by omega)) nofun)
    exact .append (by decide : Printed ['\\', 'u', '0', '0']) hdigits
  · rename_i hprinted
    exact .cons (Nat.le_of_not_lt hprinted) nofun

theorem printed_escapeOnto {behind : List Char} (hbehind : Printed behind) (s : List Char) :
    Printed (escapeOnto behind s) := by
  induction s with
  | nil => exact hbehind
  | cons c s ih =>
    rw [escapeOnto_cons]
    exact (printed_escapeChar c).append ih

theorem printed_intDigits (n : Int) : Printed (Decimal.intDigits n) := by
  have hdigits : ∀ n, Printed (Decimal.digits n) := by
    intro n c hc
    have hdigit := Decimal.isDigit_of_mem_digits n c hc
    simp only [Decimal.isDigit, Bool.and_eq_true, decide_eq_true_eq] at hdigit
    omega
  cases n with
  | ofNat n => exact hdigits n
  | negSucc n => exact .cons (by decide) (hdigits (n + 1))

/-! ## Tokens and values -/

theorem printed_writeOnto {t : Token} {behind : List Char} (ht : t.Plain)
    (hbehind : Printed behind) : Printed (t.writeOnto behind) := by
  cases t with
  | null => exact .append (by decide : Printed ['n', 'u', 'l', 'l']) hbehind
  | bool b =>
    cases b with
    | true => exact .append (by decide : Printed ['t', 'r', 'u', 'e']) hbehind
    | false => exact .append (by decide : Printed ['f', 'a', 'l', 's', 'e']) hbehind
  | int n => exact (printed_intDigits n).append hbehind
  | real literal => exact ht.elim
  | torn tear => exact ht.elim
  | text s => exact .cons (by decide) (printed_escapeOnto (.cons (by decide) hbehind) s)
  | openList => exact .cons (by decide) hbehind
  | closeList => exact .cons (by decide) hbehind
  | openObject => exact .cons (by decide) hbehind
  | closeObject => exact .cons (by decide) hbehind
  | comma => exact .cons (by decide) hbehind
  | colon => exact .cons (by decide) hbehind

theorem printed_writeTokens {ts : List Token} (hts : Legible ts) : Printed (writeTokens ts) := by
  induction ts with
  | nil => exact nofun
  | cons t ts ih =>
    rw [writeTokens_cons]
    exact printed_writeOnto hts.1 (ih hts.2.2)

/-- **Nothing in a written value ends a line.** -/
theorem printed_write {j : Json} (hj : j.Plain) : Printed j.write.toList := by
  have hlegible : Legible j.tokens := legible_tokensOnto [] ⟨trivial, nofun⟩ j hj
  rw [write, String.toList_ofList]
  exact printed_writeTokens hlegible

end Invigilator.Json
