import Invigilator.Access.Claims
import Invigilator.Access.Key
import Invigilator.Text.Base64
import Invigilator.Text.Cut

/-!
# Bearer tokens

A token is three parts with dots in between: a header, the claims, and a tag of the two under
the secret of the service. The tag is checked before the claims are looked at, and the time of
expiry, with a minute of leeway, before all other claims.

The function that computes tags is an argument: nothing here depends on how it works.
-/

namespace Invigilator

/-- A function that tags bytes under a key. -/
abbrev Mac := List UInt8 → List UInt8 → Vector UInt8 32

/-- Why a token is refused. -/
inductive TokenFault where
  | invalid
  | expired
  | badSignature
deriving DecidableEq, Repr

namespace TokenFault

def kind : TokenFault → String
  | invalid => "InvalidToken"
  | expired => "ExpiredToken"
  | badSignature => "InvalidSignature"

def message : TokenFault → String
  | invalid => "Invalid token"
  | expired => "Token expired"
  | badSignature => "Invalid token signature"

end TokenFault

namespace Token

/-- The seconds for which a token is still accepted after it has expired. -/
def leeway : Nat := 60

/-! ## Bytes -/

/-- The bytes of a text. -/
def bytesOf (s : String) : List UInt8 := s.toUTF8.data.toList

/-- The text of a list of bytes, if it is one. -/
def textOf? (bytes : List UInt8) : Option String := String.fromUTF8? ⟨bytes.toArray⟩

/-- The JSON value in a part of a token. -/
def part? (cs : List Char) : Option Json := (Base64.decode? .address cs).bind Json.readBytes?

/-- A JSON value as a part of a token. -/
def writePart (j : Json) : List Char := Base64.encode .address (bytesOf j.write)

/-! ## The header -/

/-- The header of the tokens that are issued. -/
def header : Json := .object [("typ", .text "JWT"), ("alg", .text "HS256")]

/-- The one algorithm that is accepted. -/
def algorithms : List (String × Unit) := [("HS256", ())]

/-- The members of a header that may hold a text or nothing. -/
def textMembers : List String :=
  ["typ", "cty", "jku", "kid", "x5u", "x5t", "x5t#S256", "enc", "zip", "url", "nonce"]

/-- The members of a header that may hold a list of texts or nothing. -/
def listMembers : List String := ["x5c", "crit"]

/-- Whether a member of a header holds what its name promises; one of an unknown name holds text. -/
def memberFits (name : String) (j : Json) : Bool :=
  if name = "alg" then true
  else if name = "jwk" then
    match j with
    | .null => true
    | j => Key.isKey 1 j
  else if textMembers.contains name then (Json.optional Json.text? (some j)).isSome
  else if listMembers.contains name then
    (Json.optional (Json.listOf? Json.text?) (some j)).isSome
  else (Json.text? j).isSome

/-- Whether a header is well formed and names the accepted algorithm. -/
def acceptsHeader (j : Json) : Bool :=
  match j with
  | .object members =>
    let once (name : String) : Bool := (members.filter fun m => m.1 == name).length ≤ 1
    ("alg" :: "jwk" :: textMembers ++ listMembers).all once &&
      members.all (fun m => memberFits m.1 m.2) &&
      ((j.member? "alg").bind (Json.word? algorithms)).isSome
  | _ => false

/-! ## The claims -/

/-- A list or object with something in it. -/
def isFilled : Json → Bool
  | .list (_ :: _) => true
  | .object (_ :: _) => true
  | _ => false

/-- How the reading of a claim ends, which stands in the object of all claims. -/
def claimGrip (j : Json) : Json.Grip := j.grip (Json.depthLimit - 1)

/-- Whether the time before which a token is not valid is one value; it does not matter which. -/
def isMoment (j : Json) : Bool := !isFilled j && claimGrip j ≠ .early

/--
Whether the claims beside those of `Claims` are well formed: each at most once, and none that
makes the reader lose its place.
-/
def restFits (j : Json) : Bool :=
  match Json.slots? [.plain "nbf", .plain "iss", .plain "aud"] j with
  | some [notBefore, issuer, audience] =>
    notBefore.all isMoment && issuer.all (claimGrip · ≠ .early) &&
      audience.all (claimGrip · ≠ .early)
  | _ => false

/-- Whether a value names someone, or several: a text or a list of texts. -/
def isAudience (j : Json) : Bool :=
  claimGrip j = .held && (j.text?.isSome || (Json.listOf? Json.text? j).isSome)

/-- Whether the claims leave open for whom the token is. -/
def isForAll (j : Json) : Bool := !(j.member? "aud").any isAudience

/-- The claims of a JSON value at a moment. -/
def claims (now : Nat) (j : Json) : Except TokenFault Claims :=
  match j with
  | .object members =>
    match Claims.ofJson? (.object members) with
    | none => .error .invalid
    | some claims =>
      if restFits j = false then .error .invalid
      else if claims.exp + leeway < now then .error .expired
      else if isForAll j then .ok claims
      else .error .invalid
  | _ => .error .invalid

/-! ## Tokens -/

variable (mac : Mac) (secret : String)

/-- The tag of a text. -/
def tag (signed : List Char) : List UInt8 :=
  (mac (bytesOf secret) (bytesOf (String.ofList signed))).toList

/-- The characters of the token that states the claims. -/
def issueChars (c : Claims) : List Char :=
  let signed := writePart header ++ '.' :: writePart c.toJson
  signed ++ '.' :: Base64.encode .address (tag mac secret signed)

/-- The token that states the claims. -/
def issue (c : Claims) : String := String.ofList (issueChars mac secret c)

/-- The claims that the characters of a token state at a moment, given in seconds since 1970. -/
def checkChars (now : Nat) (token : List Char) : Except TokenFault Claims :=
  match Text.cutAtLast '.' token with
  | none => .error .invalid
  | some (signed, signature) =>
    match Text.cutAtLast '.' signed with
    | none => .error .invalid
    | some (header, payload) =>
      if ((part? header).map acceptsHeader).getD false then
        match Base64.decode? .address signature with
        | none => .error .invalid
        | some signature =>
          if signature = tag mac secret signed then
            match part? payload with
            | none => .error .invalid
            | some j => claims now j
          else .error .badSignature
      else .error .invalid

/-- The claims that a token states at a moment, given in seconds since 1970. -/
def check (now : Nat) (token : String) : Except TokenFault Claims :=
  checkChars mac secret now token.toList

end Token

end Invigilator
