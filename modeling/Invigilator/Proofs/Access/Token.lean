import Invigilator.Proofs.Exam.Wire
import Invigilator.Proofs.Text.Base64
import Invigilator.Proofs.Text.Utf8
import Invigilator.Proofs.Time.Sorting

/-!
# Tokens state what was issued

A token goes through four layers on its way out: the claims become a JSON value, the value a text,
the text bytes and the bytes characters. Each layer gives back what it was given, so a part of a
token is read as the value that was written to it (`part?_writePart`), whatever texts the claims are
made of. Two parts are put together with a dot, which neither of them has.

The other way nothing is known about a token but that it was accepted. Cutting it at its last dot
leaves what the tag is of, and a tag has one writing only, so the characters behind the last dot
stand for that tag and for no other (`exists_parts_of_check`, `check_forged`). The function that
makes the tags is arbitrary throughout.
-/

namespace Invigilator

namespace Json

/-! ## Texts as bytes -/

/-- The bytes of a text are scanned as its characters. -/
theorem scanPiecesFrom_map_some (scanner : Scanner) (out : List Token) (cs : List Char) :
    scanPiecesFrom scanner out (cs.map some) = scanFrom scanner out cs := by
  induction cs generalizing scanner out with
  | nil => rfl
  | cons c cs ih =>
    rw [List.map_cons, scanPiecesFrom, scanFrom]
    cases scanner.step out c with
    | none => rfl
    | some next => exact ih next.1 next.2

/-- **The bytes of a text are read as the text.** -/
theorem readBytes?_bytesOf (s : String) : readBytes? (Token.bytesOf s) = read? s := by
  have hbytes : Token.bytesOf s = s.toList.flatMap String.utf8EncodeChar := by
    rw [← Token.bytesOf_ofList, String.ofList_toList]
  rw [readBytes?, hbytes, Utf8.pieces_utf8EncodeChar, scanPieces, scanPiecesFrom_map_some, read?,
    scan]

end Json

namespace Token

variable (mac : Mac) (secret : String)

/-! ## Parts of a token -/

theorem part?_writePart {j : Json} (h : j.Plain) : part? (writePart j) = some j := by
  rw [part?, writePart, Base64.decode?_encode, Option.bind_some, Json.readBytes?_bytesOf,
    Json.read?_write h]

/-- No part that is written has dots. -/
theorem dot_notMem_writePart (j : Json) : '.' ∉ writePart j := Base64.dot_notMem_encode .address _

/-- No part that is read has dots. -/
theorem dot_notMem_of_part? {cs : List Char} {j : Json} (h : part? cs = some j) : '.' ∉ cs := by
  obtain ⟨bytes, hbytes, -⟩ := Option.bind_eq_some_iff.mp h
  rw [← Base64.encode_of_decode? hbytes]
  exact Base64.dot_notMem_encode .address bytes

theorem plain_header : header.Plain := ⟨trivial, trivial, trivial⟩

/-- The header of the tokens that are issued is accepted. -/
theorem acceptsHeader_header : acceptsHeader header = true := by decide

/-- Claims are held against the time of their expiry, and nothing else is wrong with them. -/
theorem claims_toJson {c : Claims} (h : c.Writable) (now : Nat) :
    claims now c.toJson = if now ≤ c.exp + leeway then .ok c else .error .expired := by
  have hread : Claims.ofJson? c.toJson = some c := (Claims.carries h).read_eq
  have hrest : restFits c.toJson = true := by
    simp [restFits, Claims.toJson, Json.slots?, Json.slotOfMembers, Json.Field.plain]
  have hall : isForAll c.toJson = true := by
    simp [isForAll, Claims.toJson, Json.member?]
  have hclaims : claims now c.toJson =
      if restFits c.toJson = false then .error .invalid
      else if c.exp + leeway < now then .error .expired
      else if isForAll c.toJson then .ok c
      else .error .invalid := by
    unfold Claims.toJson at hread ⊢
    rw [claims, hread]
  rw [hclaims, if_neg (by rw [hrest]; decide), if_pos hall]
  by_cases hnow : now ≤ c.exp + leeway
  · rw [if_pos hnow, if_neg (Nat.not_lt.mpr hnow)]
  · rw [if_neg hnow, if_pos (Nat.lt_of_not_le hnow)]

/-! ## Whole tokens -/

/-- The two parts of a token that its tag is of. -/
def signed (header payload : List Char) : List Char := header ++ '.' :: payload

/-- A token as it is issued is checked for nothing but the time of its expiry. -/
theorem check_issue {c : Claims} (h : c.Writable) (now : Nat) :
    check mac secret now (issue mac secret c) =
      if now ≤ c.exp + leeway then .ok c else .error .expired := by
  have hclaims : part? (writePart c.toJson) = some c.toJson :=
    part?_writePart (Claims.carries h).plain
  -- the token is cut at its last two dots, for no part of it has a dot in it
  rw [check, issue, String.toList_ofList, checkChars, issueChars,
    Text.cutAtLast_append _ (Base64.dot_notMem_encode .address _)]
  dsimp only
  rw [Text.cutAtLast_append _ (dot_notMem_writePart c.toJson)]
  dsimp only
  rw [part?_writePart plain_header, Option.map_some, acceptsHeader_header, Option.getD_some,
    if_pos rfl, Base64.decode?_encode]
  dsimp only
  rw [if_pos rfl, hclaims]
  exact claims_toJson h now

/-- **What is accepted is three parts, and the last stands for the tag of the two in front.** -/
theorem exists_parts_of_check {now : Nat} {token : String} {c : Claims}
    (h : check mac secret now token = .ok c) :
    ∃ header payload signature, '.' ∉ header ∧ '.' ∉ payload ∧ '.' ∉ signature ∧
      token = String.ofList (signed header payload ++ '.' :: signature) ∧
      Base64.decode? .address signature = some (tag mac secret (signed header payload)) := by
  -- all tests are passed: there are three parts, the header is accepted, and the tag is the right
  -- one
  rw [check, checkChars] at h
  split at h
  · cases h
  rename_i before signature hlast
  split at h
  · cases h
  rename_i header payload hfirst
  split at h
  swap
  · cases h
  rename_i hheader
  split at h
  · cases h
  rename_i bytes hbytes
  split at h
  swap
  · cases h
  rename_i htag
  have hsigned : before = signed header payload := Text.cutAtLast_eq_some hfirst
  have htoken : token.toList = before ++ '.' :: signature := Text.cutAtLast_eq_some hlast
  have hdot : '.' ∉ header := by
    cases hj : part? header with
    | none =>
      rw [hj] at hheader
      cases hheader
    | some j => exact dot_notMem_of_part? hj
  refine ⟨header, payload, signature, hdot, Text.notMem_of_cutAtLast hfirst,
    Text.notMem_of_cutAtLast hlast, ?_, ?_⟩
  · rw [← hsigned, ← htoken, String.ofList_toList]
  · rw [← hsigned, hbytes, htag]

/-- **A tag is worth nothing in front of which something else stands,** unless that has the same
tag. -/
theorem check_forged {signature : List Char} {bytes : List UInt8} {before : List Char}
    (hdot : '.' ∉ signature) (hbytes : Base64.decode? .address signature = some bytes)
    (hother : bytes ≠ tag mac secret before) (now : Nat) :
    ∃ fault, fault ≠ .expired ∧
      check mac secret now (String.ofList (before ++ '.' :: signature)) = .error fault := by
  rw [check, String.toList_ofList, checkChars, Text.cutAtLast_append _ hdot]
  dsimp only
  split
  · exact ⟨.invalid, by decide, rfl⟩
  split
  · rw [hbytes]
    exact ⟨.badSignature, by decide, if_neg hother⟩
  · exact ⟨.invalid, by decide, rfl⟩

/-- **Tokens say what was put into them, and are bound to it.** What is issued is read as the claims
that it was issued for, until a minute after they expire. And what is accepted is three parts of
which the last stands for the tag of the other two: behind anything that has another tag it is
refused. -/
theorem check_binds :
    (∀ c : Claims, c.Writable → ∀ now, check mac secret now (issue mac secret c) =
      if now ≤ c.exp + leeway then .ok c else .error .expired) ∧
    (∀ now token c, check mac secret now token = .ok c →
      ∃ header payload signature, '.' ∉ header ∧ '.' ∉ payload ∧ '.' ∉ signature ∧
        token = String.ofList (signed header payload ++ '.' :: signature) ∧
        Base64.decode? .address signature = some (tag mac secret (signed header payload)) ∧
        ∀ before, tag mac secret before ≠ tag mac secret (signed header payload) → ∀ now',
          ∃ fault, fault ≠ .expired ∧
            check mac secret now' (String.ofList (before ++ '.' :: signature)) = .error fault) := by
  refine ⟨fun c hc now => check_issue mac secret hc now, fun now token c h => ?_⟩
  obtain ⟨header, payload, signature, hheader, hpayload, hsignature, htoken, htag⟩ :=
    exists_parts_of_check mac secret h
  exact ⟨header, payload, signature, hheader, hpayload, hsignature, htoken, htag,
    fun before hother now' => check_forged mac secret hsignature htag hother.symm now'⟩

/-- A function that tags bytes with their sum. -/
def checksum : Mac := fun key bytes => .replicate 32 ((key ++ bytes).foldl (· + ·) 0)

/-- Claims with texts that have to be escaped, and the latest of expiries. -/
def oddClaims : Claims := ⟨"😀 ü\n\"\\\u0000", "candidate.admin", Nat.pow 2 64 - 1, 0⟩

/-- They are read from their token until a minute after it, and an empty header and empty claims in
front of its tag are refused. -/
theorem check_binds_oddClaims :
    let token := issue checksum "k" oddClaims
    oddClaims.Writable ∧ check checksum "k" (Nat.pow 2 64 + 59) token = .ok oddClaims ∧
      check checksum "k" (Nat.pow 2 64 + 60) token = .error .expired ∧
      ∃ header payload signature,
        token = String.ofList (signed header payload ++ '.' :: signature) ∧
        Base64.decode? .address signature = some (tag checksum "k" (signed header payload)) ∧
        ∃ fault, fault ≠ .expired ∧ check checksum "k" 0
          (String.ofList ("e30.e30".toList ++ '.' :: signature)) = .error fault := by
  intro token
  obtain ⟨hread, hbound⟩ := check_binds checksum "k"
  have hwritable : oddClaims.Writable := ⟨by decide, by decide⟩
  have hok : check checksum "k" (Nat.pow 2 64 + 59) token = .ok oddClaims :=
    (hread oddClaims hwritable _).trans (if_pos (by decide))
  obtain ⟨header, payload, signature, -, -, hsignature, htoken, htag, hforged⟩ :=
    hbound _ token oddClaims hok
  refine ⟨hwritable, hok, (hread oddClaims hwritable _).trans (if_neg (by decide)), header, payload,
    signature, htoken, htag, hforged _ ?_ 0⟩
  -- a token is cut at its last dot in one way only
  have hsigned : signed header payload =
      writePart Token.header ++ '.' :: writePart oddClaims.toJson := by
    have hsame := congrArg (Text.cutAtLast '.') (String.ofList_injective htoken)
    rw [issueChars, Text.cutAtLast_append _ (Base64.dot_notMem_encode .address _),
      Text.cutAtLast_append _ hsignature] at hsame
    exact (congrArg Prod.fst (Option.some.inj hsame)).symm
  rw [hsigned]
  decide +kernel

end Token

end Invigilator
