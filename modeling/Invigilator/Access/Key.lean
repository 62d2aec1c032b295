import Invigilator.Json.Record

/-!
# Shown keys

The header of a token may show a public key. No key that is shown is ever used, but one that is
malformed spoils the header.
-/

namespace Invigilator.Key

/-- The members that any key may have: a text, a list of texts, or the name of an algorithm. -/
def commonFields : List Json.Field :=
  [.plain "use", .plain "kid", .plain "x5u", .plain "x5t", .plain "x5t#S256", .plain "key_ops",
    .plain "x5c", .plain "alg"]

/-- The name of an algorithm, known or not, plain or as an object that holds nothing under it. -/
def algorithm? : Json → Option String
  | .text name => some name
  | .object [(name, .null)] => some name
  | .object [(name, .object [])] => some name
  | _ => none

/-- Whether the members that any key may have are well formed. -/
def commonFits (j : Json) : Bool :=
  match Json.slots? commonFields j with
  | some [use, id, url, sha1, sha256, operations, chain, algorithm] =>
    [use, id, url, sha1, sha256].all (fun slot => (Json.optional Json.text? slot).isSome) &&
      [operations, chain].all
        (fun slot => (Json.optional (Json.listOf? Json.text?) slot).isSome) &&
      (Json.optional algorithm? algorithm).isSome
  | _ => false

/-- The curves of keys. -/
def curves : List (String × Unit) :=
  ["P-256", "P-384", "P-521", "Ed25519"].map fun name => (name, ())

/-- What a type of key is made of: whether it names a curve, and its texts. -/
structure Shape where
  type : String
  hasCurve : Bool
  texts : List String

/-- The types of keys. -/
def shapes : List Shape :=
  [⟨"EC", true, ["x", "y"]⟩, ⟨"RSA", false, ["n", "e"]⟩, ⟨"oct", false, ["k"]⟩,
    ⟨"OKP", true, ["x"]⟩]

/-- Whether a value has a member, once, that can be read. -/
def hasOnce (name : String) (read : Json → Option α) (j : Json) : Bool :=
  match Json.slots? [.plain name] j with
  | some [slot] => (Json.needed read slot).isSome
  | _ => false

/-- Whether a key has the members of its type. -/
def Shape.fits (s : Shape) (j : Json) : Bool :=
  hasOnce "kty" (Json.word? [(s.type, ())]) j &&
    (!s.hasCurve || hasOnce "crv" (Json.word? curves) j) &&
    s.texts.all fun name => hasOnce name Json.text? j

/-- Whether a value below so many lists and objects is a key. -/
def isKey (outer : Nat) (j : Json) : Bool :=
  match j with
  | .object members =>
    j.isHeldBelow outer && commonFits j && shapes.any fun s => s.fits (.object members)
  | _ => false

end Invigilator.Key
