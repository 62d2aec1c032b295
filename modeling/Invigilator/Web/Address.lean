import Invigilator.Text.Decimal

/-!
# Addresses

The address that a request is sent to comes in four forms: a path with a query, the same behind
a scheme and the name of a host, the name of a host alone, and a star. Only the path and the
query matter; what stands behind `#` concerns the client.
-/

namespace Invigilator.Web

/-- The path and the query of an address, as they were sent. -/
structure Target where
  path : List Char
  query : List Char
deriving DecidableEq, Repr, Inhabited

namespace Target

/-! ## Characters -/

def isLetter (c : Char) : Bool := ('a' ≤ c && c ≤ 'z') || ('A' ≤ c && c ≤ 'Z')

/-- Whether a character can stand in a path, beside those that end it. -/
def isPathChar (c : Char) : Bool :=
  0x21 ≤ c.toNat && !"#<>?\x60\x7f".toList.contains c

/-- Whether a character can stand in a query, beside the one that ends it. -/
def isQueryChar (c : Char) : Bool := 0x21 ≤ c.toNat && !"\"#<>\x7f".toList.contains c

/-- Whether a character can stand in a scheme. -/
def isSchemeChar (c : Char) : Bool :=
  isLetter c || Decimal.isDigit c || "+-.~".toList.contains c

/-- Whether a character without a meaning of its own can stand in the name of a host. -/
def isHostChar (c : Char) : Bool :=
  isLetter c || Decimal.isDigit c || "!$&\x27()*+,-.;=_~".toList.contains c

/-! ## Hosts -/

/-- What has been seen of the name of a host, with the user in front and the port behind. -/
structure HostScan where
  colons : Nat
  opened : Bool
  closed : Bool
  hasPercent : Bool
  endsInAt : Bool
deriving DecidableEq, Repr, Inhabited

def HostScan.start : HostScan := ⟨0, false, false, false, false⟩

/-- One more character. What was counted belonged to the user, or to the brackets, that end. -/
def HostScan.next? (h : HostScan) (c : Char) : Option HostScan :=
  let h := { h with endsInAt := false }
  if c = ':' then if h.colons < 8 then some { h with colons := h.colons + 1 } else none
  else if c = '[' then if h.hasPercent || h.opened then none else some { h with opened := true }
  else if c = ']' then
    if !h.opened || h.closed then none
    else some { h with closed := true, colons := 0, hasPercent := false }
  else if c = '@' then some { h with colons := 0, hasPercent := false, endsInAt := true }
  else if c = '%' then some { h with hasPercent := true }
  else if isHostChar c then some h
  else none

/-- Whether the name of a host may end here. -/
def HostScan.isWhole (h : HostScan) : Bool :=
  h.opened == h.closed && h.colons ≤ 1 && !h.endsInAt && !h.hasPercent

/-- Whether a text can be the name of a host, or empty. -/
def isHost (cs : List Char) : Bool :=
  (cs.foldlM (fun h c => HostScan.next? h c) HostScan.start).any HostScan.isWhole

/-! ## The forms -/

/-- The path and the query of a text, if all their characters are allowed. -/
def ofChars? (cs : List Char) : Option Target :=
  let inPath (c : Char) : Bool := c ≠ '?' && c ≠ '#'
  let path := cs.takeWhile inPath
  let query :=
    match cs.dropWhile inPath with
    | '?' :: rest => rest.takeWhile (· ≠ '#')
    | _ => []
  if path.all isPathChar && query.all isQueryChar then some ⟨path, query⟩ else none

/-- What follows the scheme of an address, if there is one. -/
def afterScheme? (cs : List Char) : Option (List Char) :=
  match cs.dropWhile isSchemeChar with
  | ':' :: '/' :: '/' :: rest => some rest
  | _ => none

/-- The target of an address with a scheme, or with nothing but the name of a host. -/
def ofHost? (cs : List Char) : Option Target :=
  let inHost (c : Char) : Bool := c ≠ '/' && c ≠ '?' && c ≠ '#'
  let named := (afterScheme? cs).getD cs
  let host := named.takeWhile inHost
  if isHost host then
    match afterScheme? cs with
    | none => if host = cs then some ⟨[], []⟩ else none
    | some _ =>
      if host.isEmpty || 64 < (cs.takeWhile isSchemeChar).length then none
      else
        (ofChars? (named.dropWhile inHost)).map fun t =>
          if t.path.isEmpty then { t with path := ['/'] } else t
  else none

/-- The most bytes of an address. -/
def mostBytes : Nat := 65534

/-- The target of an address. -/
def read? (address : String) : Option Target :=
  if mostBytes < address.utf8ByteSize then none
  else
    match address.toList with
    | [] => none
    | ['*'] => some ⟨['*'], []⟩
    | '/' :: rest => ofChars? ('/' :: rest)
    | cs => ofHost? cs

/-- Whether the path of a target starts at the root. -/
def isRooted (t : Target) : Bool := t.path.head? = some '/'

end Target

end Invigilator.Web
