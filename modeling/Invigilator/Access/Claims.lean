import Invigilator.Json.Record

/-!
# Claims

What a bearer token states about its holder.
-/

namespace Invigilator

structure Claims where
  /-- The user the token was issued to. -/
  sub : String
  /-- Candidate or administrator. -/
  role : String
  /-- When the token expires, in seconds since 1970. -/
  exp : Nat
  /-- When the token was issued, in seconds since 1970. -/
  iat : Nat
deriving DecidableEq, Repr, Inhabited

namespace Claims

def adminRole : String := "admin"

def isAdmin (c : Claims) : Bool := c.role == adminRole

def toJson (c : Claims) : Json :=
  .object [("sub", .text c.sub), ("role", .text c.role), ("exp", .nat c.exp), ("iat", .nat c.iat)]

def ofJson? (j : Json) : Option Claims := do
  match ← Json.slots? [.plain "sub", .plain "role", .plain "exp", .plain "iat"] j with
  | [sub, role, exp, iat] => do
    let sub ← Json.needed Json.text? sub
    let role ← Json.needed Json.text? role
    let exp ← Json.needed Json.nat64? exp
    let iat ← Json.needed Json.nat64? iat
    some { sub := sub, role, exp, iat }
  | _ => none

end Claims

end Invigilator
