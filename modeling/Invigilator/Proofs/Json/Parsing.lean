import Invigilator.Json.Text
import Invigilator.Proofs.Json.Lexing

/-!
# Written values are read

The reader keeps a stack of what is open, and when it has gone over the tokens of a value it has
delivered that value to the frame on top (`run_tokensOnto`): this is proved of a value, of the rest
of a list and of the rest of an object at once, as the tokens are made. With the scanner it gives
`read?_write`: no text stands for two values, and the reader finds the one that was written.
-/

namespace Invigilator.Json

mutual

/-- A value that a text can stand for: its numbers are whole and of 64 bits or so. -/
def Plain : Json → Prop
  | .null => True
  | .bool _ => True
  | .int n => n.natAbs < Nat.pow 10 mostDigits
  | .real _ => False
  | .text _ => True
  | .torn _ => False
  | .list items => PlainItems items
  | .object members => PlainMembers members

def PlainItems : List Json → Prop
  | [] => True
  | j :: rest => j.Plain ∧ PlainItems rest

def PlainMembers : List (String × Json) → Prop
  | [] => True
  | (_, j) :: rest => j.Plain ∧ PlainMembers rest

end

/-! ## The tokens of a value -/

/-- The tokens behind a value show where they begin. -/
def Apart (ts : List Token) : Prop := Legible ts ∧ ∀ u ∈ ts.head?, u.isBare = false

theorem Apart.cons (t : Token) {ts : List Token} (hts : Legible ts) (ht : t.Plain)
    (hbare : t.isBare = false) : Apart (t :: ts) := by
  refine ⟨⟨ht, fun h => ?_, hts⟩, ?_⟩
  · rw [hbare] at h
    cases h
  · rintro u ⟨⟩
    exact hbare

/-- Any token may stand in front of tokens that show where they begin. -/
theorem Apart.legible (t : Token) {ts : List Token} (hts : Apart ts) (ht : t.Plain) :
    Legible (t :: ts) := ⟨ht, fun _ => hts.2, hts.1⟩

/-- A name and its colon show where they begin. -/
theorem Apart.name (name : String) {ts : List Token} (hts : Legible ts) :
    Apart (.text name.toList :: .colon :: ts) :=
  .cons (.text name.toList) (Apart.cons .colon hts trivial rfl).1 trivial rfl

mutual

theorem legible_tokensOnto (behind : List Token) (hbehind : Apart behind) :
    ∀ j : Json, j.Plain → Legible (tokensOnto behind j)
  | .null, _ => hbehind.legible .null trivial
  | .bool b, _ => hbehind.legible (.bool b) trivial
  | .int n, hj => hbehind.legible (.int n) hj
  | .text s, _ => hbehind.legible (.text s.toList) trivial
  | .list [], _ => (Apart.cons .openList (hbehind.legible .closeList trivial) trivial rfl).1
  | .list (j :: rest), hj => by
    have hclose : Apart (.closeList :: behind) := .cons .closeList hbehind.1 trivial rfl
    have hrest := apart_itemTokensOnto (.closeList :: behind) hclose rest hj.2
    have hvalue := legible_tokensOnto _ hrest j hj.1
    exact (Apart.cons .openList hvalue trivial rfl).1
  | .object [], _ => (Apart.cons .openObject (hbehind.legible .closeObject trivial) trivial rfl).1
  | .object ((name, j) :: rest), hj => by
    have hclose : Apart (.closeObject :: behind) := .cons .closeObject hbehind.1 trivial rfl
    have hrest := apart_memberTokensOnto (.closeObject :: behind) hclose rest hj.2
    have hvalue := legible_tokensOnto _ hrest j hj.1
    exact (Apart.cons .openObject (Apart.name name hvalue).1 trivial rfl).1

theorem apart_itemTokensOnto (behind : List Token) (hbehind : Apart behind) :
    ∀ items : List Json, PlainItems items → Apart (itemTokensOnto behind items)
  | [], _ => hbehind
  | j :: rest, hj => by
    have hrest := apart_itemTokensOnto behind hbehind rest hj.2
    have hvalue := legible_tokensOnto _ hrest j hj.1
    exact .cons .comma hvalue trivial rfl

theorem apart_memberTokensOnto (behind : List Token) (hbehind : Apart behind) :
    ∀ members : List (String × Json), PlainMembers members →
      Apart (memberTokensOnto behind members)
  | [], _ => hbehind
  | (name, j) :: rest, hj => by
    have hrest := apart_memberTokensOnto behind hbehind rest hj.2
    have hvalue := legible_tokensOnto _ hrest j hj.1
    exact .cons .comma (Apart.name name hvalue).1 trivial rfl

end

/-! ## The reader -/

/-- A reader that has a value goes on with it. -/
def Reader.after (j : Json) (frames : List Frame) (ts : List Token) : Option Reader :=
  (Reader.deliver j frames).bind fun r => r.run ts

theorem Reader.run_cons (r : Reader) (t : Token) (ts : List Token) :
    r.run (t :: ts) = (r.step t).bind fun r => r.run ts := by
  rw [Reader.run]
  cases r.step t <;> rfl

/-- A value may come next. -/
def Expect.IsValue : Expect → Prop
  | .value => True
  | .itemOrClose => True
  | _ => False

/-- Whether a list may end where a value is expected makes no difference to the value. -/
theorem Reader.step_value {expect : Expect} {t : Token} (frames : List Frame)
    (he : expect.IsValue) (ht : t ≠ .closeList) :
    Reader.step ⟨frames, expect⟩ t = Reader.value frames t := by
  cases expect with
  | value => rfl
  | itemOrClose => cases t <;> first | rfl | exact absurd rfl ht
  | memberOrClose => exact he.elim
  | member => exact he.elim
  | colon name => exact he.elim
  | commaOrClose => exact he.elim
  | nothing result => exact he.elim

/-- A token that is a value is delivered. -/
theorem run_scalar {expect : Expect} {t : Token} {j : Json} (frames : List Frame)
    (behind : List Token) (he : expect.IsValue) (ht : t ≠ .closeList)
    (hvalue : Reader.value frames t = Reader.deliver j frames) :
    Reader.run ⟨frames, expect⟩ (t :: behind) = Reader.after j frames behind := by
  rw [Reader.run_cons, Reader.step_value frames he ht, hvalue]
  rfl

mutual

/-- The tokens of a value deliver it. -/
theorem run_tokensOnto (frames : List Frame) (expect : Expect) (he : expect.IsValue)
    (behind : List Token) : ∀ j : Json, j.Plain →
      Reader.run ⟨frames, expect⟩ (tokensOnto behind j) = Reader.after j frames behind
  | .null, _ => run_scalar frames behind he Token.noConfusion rfl
  | .bool b, _ => run_scalar frames behind he Token.noConfusion rfl
  | .int n, _ => run_scalar frames behind he Token.noConfusion rfl
  | .text s, _ => by
    refine run_scalar frames behind he Token.noConfusion ?_
    rw [Reader.value, String.ofList_toList]
  | .list [], _ => by
    rw [tokensOnto, Reader.run_cons, Reader.step_value frames he Token.noConfusion]
    show Reader.run ⟨.items [] :: frames, .itemOrClose⟩ (.closeList :: behind) = _
    rw [Reader.run_cons]
    rfl
  | .list (j :: rest), hj => by
    rw [tokensOnto, Reader.run_cons, Reader.step_value frames he Token.noConfusion]
    show Reader.run ⟨.items [] :: frames, .itemOrClose⟩ _ = _
    rw [run_tokensOnto (.items [] :: frames) .itemOrClose trivial _ j hj.1]
    show Reader.run ⟨.items [j] :: frames, .commaOrClose⟩ _ = _
    rw [run_itemTokensOnto frames behind rest [j] hj.2]
    rfl
  | .object [], _ => by
    rw [tokensOnto, Reader.run_cons, Reader.step_value frames he Token.noConfusion]
    show Reader.run ⟨.members (some []) :: frames, .memberOrClose⟩ (.closeObject :: behind) = _
    rw [Reader.run_cons]
    rfl
  | .object ((name, j) :: rest), hj => by
    rw [tokensOnto, Reader.run_cons, Reader.step_value frames he Token.noConfusion]
    show Reader.run ⟨.members (some []) :: frames, .memberOrClose⟩ _ = _
    rw [Reader.run_cons]
    show Reader.run ⟨.members (some []) :: frames, .colon (String.ofList name.toList)⟩ _ = _
    rw [String.ofList_toList, Reader.run_cons]
    show Reader.run ⟨.member name (some []) :: frames, .value⟩ _ = _
    rw [run_tokensOnto (.member name (some []) :: frames) .value trivial _ j hj.1]
    show Reader.run ⟨.members (some [(name, j)]) :: frames, .commaOrClose⟩ _ = _
    rw [run_memberTokensOnto frames behind rest [(name, j)] hj.2]
    rfl

theorem run_itemTokensOnto (outer : List Frame) (behind : List Token) :
    ∀ (items done : List Json), PlainItems items →
      Reader.run ⟨.items done :: outer, .commaOrClose⟩
          (itemTokensOnto (.closeList :: behind) items) =
        Reader.after (.list (done.reverse ++ items)) outer behind
  | [], done, _ => by
    rw [List.append_nil, itemTokensOnto, Reader.run_cons]
    rfl
  | j :: rest, done, hj => by
    rw [itemTokensOnto, Reader.run_cons]
    show Reader.run ⟨.items done :: outer, .value⟩ _ = _
    rw [run_tokensOnto (.items done :: outer) .value trivial _ j hj.1]
    show Reader.run ⟨.items (j :: done) :: outer, .commaOrClose⟩ _ = _
    rw [run_itemTokensOnto outer behind rest (j :: done) hj.2, List.reverse_cons,
      List.append_assoc]
    rfl

theorem run_memberTokensOnto (outer : List Frame) (behind : List Token) :
    ∀ (members done : List (String × Json)), PlainMembers members →
      Reader.run ⟨.members (some done) :: outer, .commaOrClose⟩
          (memberTokensOnto (.closeObject :: behind) members) =
        Reader.after (.object (done.reverse ++ members)) outer behind
  | [], done, _ => by
    rw [List.append_nil, memberTokensOnto, Reader.run_cons]
    rfl
  | (name, j) :: rest, done, hj => by
    rw [memberTokensOnto, Reader.run_cons]
    show Reader.run ⟨.members (some done) :: outer, .member⟩ _ = _
    rw [Reader.run_cons]
    show Reader.run ⟨.members (some done) :: outer, .colon (String.ofList name.toList)⟩ _ = _
    rw [String.ofList_toList, Reader.run_cons]
    show Reader.run ⟨.member name (some done) :: outer, .value⟩ _ = _
    rw [run_tokensOnto (.member name (some done) :: outer) .value trivial _ j hj.1]
    show Reader.run ⟨.members (some ((name, j) :: done)) :: outer, .commaOrClose⟩ _ = _
    rw [run_memberTokensOnto outer behind rest ((name, j) :: done) hj.2, List.reverse_cons,
      List.append_assoc]
    rfl

end

/-- **What is written is read back.** -/
theorem read?_write {j : Json} (hj : j.Plain) : read? j.write = some j := by
  have hlegible : Legible j.tokens := legible_tokensOnto [] ⟨trivial, nofun⟩ j hj
  have htokens : ofTokens? j.tokens = some j := by
    unfold ofTokens? tokens
    rw [run_tokensOnto [] .value trivial [] j hj]
    rfl
  rw [read?, write, String.toList_ofList, scan_writeTokens hlegible]
  exact htokens

end Invigilator.Json
