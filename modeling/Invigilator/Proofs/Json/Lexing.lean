import Invigilator.Json.Token
import Invigilator.Proofs.Text.Numerals

/-!
# Written tokens are scanned

What the scanner makes of the text that tokens are written as. A string closes itself and so does
punctuation, but a number or a word ends only where something else begins. So texts of tokens are
read back if no two of these stand side by side (`Legible`), as they never do in a value.

The scanner goes character by character, so every lemma here is about some characters in front of a
text that is left as it is: what state they leave the scanner in.
-/

namespace Invigilator.Json

/-! ## Strings -/

theorem hexValue?_hexDigit : ∀ d, d < 16 → hexValue? (hexDigit d) = some d := by decide

/-- A character that is known by its number. -/
theorem eq_ofNat {c : Char} {n : Nat} (h : c.toNat = n) : c = Char.ofNat n := by
  rw [← h, Char.ofNat_toNat]

/-- A letter behind a backslash is the character that it stands for. -/
theorem scanFrom_plainEscape {read rest : List Char} {out : List Token} {c e : Char}
    (hu : c ≠ 'u') (he : plainEscape? c = some e) :
    scanFrom (.text read none) out ('\\' :: c :: rest) =
      scanFrom (.text (e :: read) none) out rest := by
  simp [scanFrom, Scanner.step, Scanner.inText, Scanner.inEscape, hu, he]

/-- So are the four digits of a control character. -/
theorem scanFrom_control {read rest : List Char} {out : List Token} {n : Nat} (hn : n < 32) :
    scanFrom (.text read none) out
        ('\\' :: 'u' :: '0' :: '0' :: hexDigit (n / 16) :: hexDigit (n % 16) :: rest) =
      scanFrom (.text (Char.ofNat n :: read) none) out rest := by
  have hhigh := hexValue?_hexDigit (n / 16) (by omega)
  have hlow := hexValue?_hexDigit (n % 16) (by omega)
  have hzero : hexValue? '0' = some 0 := rfl
  have hvalue : n / 16 * 16 + n % 16 = n := by omega
  have hunit : Scanner.unit read none n = .text (Char.ofNat n :: read) none := by
    rw [Scanner.unit, if_neg (by omega), if_neg (by omega)]
  simp [scanFrom, Scanner.step, Scanner.inText, Scanner.inEscape, hzero, hhigh, hlow, hvalue, hunit]

/-- Whatever a character of a string is written as, it is read. -/
theorem scanFrom_escapeChar (read rest : List Char) (out : List Token) (c : Char) :
    scanFrom (.text read none) out (escapeChar c ++ rest) =
      scanFrom (.text (c :: read) none) out rest := by
  unfold escapeChar
  split
  · rename_i h
    rw [h]
    exact scanFrom_plainEscape (by decide) rfl
  split
  · rename_i h
    rw [h]
    exact scanFrom_plainEscape (by decide) rfl
  split
  · rename_i h
    rw [eq_ofNat h]
    exact scanFrom_plainEscape (by decide) rfl
  split
  · rename_i h
    rw [eq_ofNat h]
    exact scanFrom_plainEscape (by decide) rfl
  split
  · rename_i h
    rw [eq_ofNat h]
    exact scanFrom_plainEscape (by decide) rfl
  split
  · rename_i h
    rw [eq_ofNat h]
    exact scanFrom_plainEscape (by decide) rfl
  split
  · rename_i h
    rw [eq_ofNat h]
    exact scanFrom_plainEscape (by decide) rfl
  split
  · rename_i h
    refine (scanFrom_control h).trans ?_
    rw [Char.ofNat_toNat]
    rfl
  · rename_i hquote hslash _ _ _ _ _ hprinted
    simp [scanFrom, Scanner.step, Scanner.inText, hquote, hslash, hprinted]

theorem escapeOnto_cons (behind : List Char) (c : Char) (s : List Char) :
    escapeOnto behind (c :: s) = escapeChar c ++ escapeOnto behind s := by
  simp [escapeOnto]

/-- A string is read up to its closing quote. -/
theorem scanFrom_string (read rest s : List Char) (out : List Token) :
    scanFrom (.text read none) out (escapeOnto ('"' :: rest) s) =
      scanFrom .between (.text (read.reverse ++ s) :: out) rest := by
  induction s generalizing read with
  | nil => simp [escapeOnto, scanFrom, Scanner.step, Scanner.inText, textToken]
  | cons c s ih =>
    rw [escapeOnto_cons, scanFrom_escapeChar, ih]
    simp

/-! ## Numbers and words -/

/-- A token that does not show where it ends. -/
def Token.isBare : Token → Bool
  | .null => true
  | .bool _ => true
  | .int _ => true
  | .real _ => true
  | _ => false

/-- A token that is read from its text as what it is: a number has at most the digits of 64 bits. -/
def Token.Plain : Token → Prop
  | .int n => n.natAbs < Nat.pow 10 mostDigits
  | .real _ => False
  | .torn _ => False
  | _ => True

/-- A text in front of which a number or a word ends. -/
def Stops (rest : List Char) : Prop :=
  ∀ c ∈ rest.head?, isNumberChar c = false ∧ ¬('a' ≤ c ∧ c ≤ 'z')

theorem isNumberChar_of_isDigit {c : Char} (h : Decimal.isDigit c = true) :
    isNumberChar c = true := by
  simp [isNumberChar, h]

/-- A digit begins a number. -/
theorem start_digit {c : Char} (out : List Token) (h : Decimal.isDigit c = true) :
    Scanner.start out c = some (.number [c], out) := by
  have hne : ∀ k, Decimal.isDigit k = false → c ≠ k := by
    rintro k hk rfl
    rw [hk] at h
    cases h
  simp [Scanner.start, isSpace, h, hne ' ' rfl, hne '\t' rfl, hne '\n' rfl, hne '\r' rfl, hne '"' rfl,
    hne '[' rfl, hne ']' rfl, hne '\x7b' rfl, hne '\x7d' rfl, hne ',' rfl, hne ':' rfl]

/-- The characters of a token are gathered as long as they go on, and where they end its token is
made. -/
theorem scanFrom_gathered (state : List Char → Scanner) {goesOn : Char → Prop}
    {made : List Char → Option Token} {token : Token} {cs rest : List Char} (read : List Char)
    (out : List Token)
    (hgoes : ∀ read c behind, goesOn c →
      scanFrom (state read) out (c :: behind) = scanFrom (state (c :: read)) out behind)
    (hends : ∀ read, made read.reverse = some token →
      scanFrom (state read) out rest = scanFrom .between (token :: out) rest)
    (hcs : ∀ c ∈ cs, goesOn c) (htoken : made (read.reverse ++ cs) = some token) :
    scanFrom (state read) out (cs ++ rest) = scanFrom .between (token :: out) rest := by
  induction cs generalizing read with
  | nil =>
    rw [List.append_nil] at htoken
    exact hends read htoken
  | cons c cs ih =>
    rw [List.cons_append, hgoes read c _ (hcs c List.mem_cons_self)]
    exact ih (c :: read) (fun d hd => hcs d (List.mem_cons_of_mem c hd)) (by simpa using htoken)

/-- A number is read up to where it stops. -/
theorem scanFrom_number {token : Token} {cs rest : List Char} (read : List Char) (out : List Token)
    (hcs : ∀ c ∈ cs, isNumberChar c = true) (hrest : Stops rest)
    (htoken : numberToken? (read.reverse ++ cs) = some token) :
    scanFrom (.number read) out (cs ++ rest) = scanFrom .between (token :: out) rest := by
  refine scanFrom_gathered .number read out (fun read c behind hc => ?_) (fun read hmade => ?_)
    hcs htoken
  · simp [scanFrom, Scanner.step, hc]
  · cases rest with
    | nil => simp [scanFrom, Scanner.finish, hmade]
    | cons c rest =>
      have hstop := (hrest c rfl).1
      simp [scanFrom, Scanner.step, hstop, hmade]

/-- So is a word. -/
theorem scanFrom_word {token : Token} {cs rest : List Char} (read : List Char) (out : List Token)
    (hcs : ∀ c ∈ cs, 'a' ≤ c ∧ c ≤ 'z') (hrest : Stops rest)
    (htoken : wordToken? (read.reverse ++ cs) = some token) :
    scanFrom (.word read) out (cs ++ rest) = scanFrom .between (token :: out) rest := by
  refine scanFrom_gathered .word read out (fun read c behind hc => ?_) (fun read hmade => ?_)
    hcs htoken
  · simp [scanFrom, Scanner.step, hc]
  · cases rest with
    | nil => simp [scanFrom, Scanner.finish, hmade]
    | cons c rest =>
      have hstop := (hrest c rfl).2
      simp [scanFrom, Scanner.step, hstop, hmade]

/-- What the digits of a number are split into, sign apart. -/
structure Whole (n : Nat) (ds : List Char) : Prop where
  span : Decimal.spanDigits ds = (ds, [])
  value : Decimal.value ds = n
  short : ds.length ≤ mostDigits
  filled : ds ≠ []
  digit : ∀ c ∈ ds, Decimal.isDigit c = true
  /-- A zero in front stands alone. -/
  leading : ∀ d rest, ds ≠ '0' :: d :: rest

theorem whole_digits {n : Nat} (h : n < Nat.pow 10 mostDigits) : Whole n (Decimal.digits n) := by
  refine ⟨Decimal.spanDigits_digits n, Decimal.value_digits n,
    Decimal.length_digits_le (by decide) h, Decimal.digits_ne_nil n,
    Decimal.isDigit_of_mem_digits n, fun d rest hsame => ?_⟩
  rcases Nat.eq_zero_or_pos n with rfl | hpos
  · have hzero : Decimal.digits 0 = ['0'] := by
      rw [Decimal.digits, if_pos (by decide)]
      rfl
    rw [hzero] at hsame
    cases hsame
  · have hfront := Decimal.head?_digits hpos
    rw [hsame] at hfront
    exact hfront rfl

/-- Digits are the literal of a number, and behind a minus sign that of its negative. A zero has no
sign. -/
theorem numberToken?_signed {n : Nat} {ds : List Char} (negative : Bool) (h : Whole n ds)
    (hzero : negative = true → ds ≠ ['0']) :
    numberToken? (if negative then '-' :: ds else ds) =
      some (.int (if negative then -(n : Int) else n)) := by
  have hlength := h.short
  unfold numberToken?
  split
  rename_i sign body hbody
  obtain ⟨rfl, rfl⟩ : sign = negative ∧ body = ds := by
    cases negative with
    | true =>
      cases hbody
      exact ⟨rfl, rfl⟩
    | false =>
      rw [if_neg Bool.false_ne_true] at hbody
      split at hbody
      · exact absurd (h.digit '-' List.mem_cons_self) (by decide)
      · cases hbody
        exact ⟨rfl, rfl⟩
  rw [h.span]
  split
  · rename_i heq
    exact absurd (congrArg Prod.fst heq) h.filled
  · rename_i heq
    exact absurd (congrArg Prod.fst heq) (h.leading _ _)
  · rename_i heq
    cases heq
    rw [if_neg (by omega), h.value]
    cases sign with
    | true => rw [if_pos rfl, if_neg (hzero rfl), if_pos rfl]
    | false => rfl
  · rename_i hnone heq
    cases heq
    exact (hnone rfl).elim

theorem numberToken?_whole {n : Nat} {ds : List Char} (h : Whole n ds) :
    numberToken? ds = some (.int n) :=
  numberToken?_signed false h nofun

theorem numberToken?_negative {n : Nat} {ds : List Char} (h : Whole n ds) (hn : 0 < n) :
    numberToken? ('-' :: ds) = some (.int (-(n : Int))) := by
  refine numberToken?_signed true h fun _ => ?_
  rintro rfl
  have hvalue := h.value
  have hnone : Decimal.value ['0'] = 0 := by decide
  omega

/-- A literal is read up to where it stops. -/
theorem scanFrom_literal {token : Token} {c : Char} {cs rest : List Char} (out : List Token)
    (hstart : Scanner.start out c = some (.number [c], out))
    (hcs : ∀ d ∈ cs, isNumberChar d = true) (hrest : Stops rest)
    (htoken : numberToken? (c :: cs) = some token) :
    scanFrom .between out (c :: cs ++ rest) = scanFrom .between (token :: out) rest := by
  have hfirst : scanFrom .between out (c :: cs ++ rest) =
      scanFrom (.number [c]) out (cs ++ rest) := by
    simp [scanFrom, Scanner.step, hstart]
  rw [hfirst]
  exact scanFrom_number [c] out hcs hrest htoken

/-- A whole number is read from its numeral. -/
theorem scanFrom_int {n : Int} {rest : List Char} (out : List Token)
    (hn : n.natAbs < Nat.pow 10 mostDigits) (hrest : Stops rest) :
    scanFrom .between out (Decimal.intDigits n ++ rest) =
      scanFrom .between (.int n :: out) rest := by
  cases n with
  | ofNat n =>
    have hwhole : Whole n (Decimal.digits n) := whole_digits hn
    show scanFrom .between out (Decimal.digits n ++ rest) = _
    generalize Decimal.digits n = ds at hwhole
    cases ds with
    | nil => exact absurd rfl hwhole.filled
    | cons c cs =>
      have hnumber : ∀ d ∈ cs, isNumberChar d = true :=
        fun d hd => isNumberChar_of_isDigit (hwhole.digit d (List.mem_cons_of_mem c hd))
      have hstart := start_digit out (hwhole.digit c List.mem_cons_self)
      exact scanFrom_literal out hstart hnumber hrest (numberToken?_whole hwhole)
  | negSucc n =>
    have hwhole : Whole (n + 1) (Decimal.digits (n + 1)) := whole_digits hn
    have hnumber : ∀ d ∈ Decimal.digits (n + 1), isNumberChar d = true :=
      fun d hd => isNumberChar_of_isDigit (hwhole.digit d hd)
    exact scanFrom_literal out rfl hnumber hrest (numberToken?_negative hwhole (Nat.succ_pos n))

/-! ## Lists of tokens -/

theorem writeTokens_cons (t : Token) (ts : List Token) :
    writeTokens (t :: ts) = t.writeOnto (writeTokens ts) := by
  simp [writeTokens]

/-- Every token can be read from its text, and no two stand side by side that would run into each
other. -/
def Legible : List Token → Prop
  | [] => True
  | t :: ts => t.Plain ∧ (t.isBare = true → ∀ u ∈ ts.head?, u.isBare = false) ∧ Legible ts

/-- In front of a token that shows where it begins, any other ends. -/
theorem stops_writeTokens {ts : List Token} (hts : Legible ts)
    (hhead : ∀ u ∈ ts.head?, u.isBare = false) : Stops (writeTokens ts) := by
  cases ts with
  | nil => exact nofun
  | cons t ts =>
    have hplain : t.Plain := hts.1
    have hbare := hhead t rfl
    rw [writeTokens_cons]
    cases t with
    | null => cases hbare
    | bool b => cases hbare
    | int n => cases hbare
    | real literal => cases hbare
    | torn tear => exact hplain.elim
    | openList => rintro c ⟨⟩; decide
    | closeList => rintro c ⟨⟩; decide
    | openObject => rintro c ⟨⟩; decide
    | closeObject => rintro c ⟨⟩; decide
    | comma => rintro c ⟨⟩; decide
    | colon => rintro c ⟨⟩; decide
    | text s => rintro c ⟨⟩; decide

/-- A token is read from its text, if it ends where its text does. -/
theorem scanFrom_token {t : Token} {rest : List Char} (out : List Token) (ht : t.Plain)
    (hrest : t.isBare = true → Stops rest) :
    scanFrom .between out (t.writeOnto rest) = scanFrom .between (t :: out) rest := by
  cases t with
  | null =>
    have hletters : ∀ c ∈ ['u', 'l', 'l'], 'a' ≤ c ∧ c ≤ 'z' := by simp
    exact scanFrom_word ['n'] out hletters (hrest rfl) rfl
  | bool b =>
    cases b with
    | true =>
      have hletters : ∀ c ∈ ['r', 'u', 'e'], 'a' ≤ c ∧ c ≤ 'z' := by simp
      exact scanFrom_word ['t'] out hletters (hrest rfl) rfl
    | false =>
      have hletters : ∀ c ∈ ['a', 'l', 's', 'e'], 'a' ≤ c ∧ c ≤ 'z' := by simp
      exact scanFrom_word ['f'] out hletters (hrest rfl) rfl
  | int n => exact scanFrom_int out ht (hrest rfl)
  | real literal => exact ht.elim
  | torn tear => exact ht.elim
  | text s => exact scanFrom_string [] rest s out
  | openList => rfl
  | closeList => rfl
  | openObject => rfl
  | closeObject => rfl
  | comma => rfl
  | colon => rfl

/-- **What tokens are written as is read as the tokens.** -/
theorem scan_writeTokens {ts : List Token} (hts : Legible ts) :
    scan (writeTokens ts) = some ts := by
  have hfrom : ∀ out, scanFrom .between out (writeTokens ts) = some (out.reverse ++ ts) := by
    induction ts with
    | nil => simp [writeTokens, scanFrom, Scanner.finish]
    | cons t ts ih =>
      intro out
      obtain ⟨hplain, hapart, hbehind⟩ := hts
      rw [writeTokens_cons, scanFrom_token out hplain fun hbare =>
        stops_writeTokens hbehind (hapart hbare), ih hbehind]
      simp
  exact hfrom []

end Invigilator.Json
