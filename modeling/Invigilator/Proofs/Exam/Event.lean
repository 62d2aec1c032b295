import Invigilator.Exam.Event
import Invigilator.Proofs.Exam.Wire
import Invigilator.Proofs.Json.Printed

/-!
# Events are lines that can be read

What a stream sends for an event is one line, and a subscriber who reads it has the event again
(`data_faithful`). An event is a tagged record, and one of its kinds has another in it, a directive:
the event is read into memory first and the directive from there. So a directive must be no deeper
than memory allows below the event (`Directive.fits_toJson`), and must be read in memory as it is
read in a text (`Directive.carriesAt`).
-/

namespace Invigilator

open Json (Carries)

/-- A directive takes up one level of nesting. -/
theorem Directive.fits_toJson {d : Directive} (h : d.Writable) : d.toJson.Fits 1 := by
  cases d with
  | preventDefault => exact Json.fits_tagged _ trivial
  | notify message => exact Json.fits_tagged _ ⟨Json.fits_text 0 message, trivial⟩
  | showWarning message grace =>
    exact Json.fits_tagged _ ⟨Json.fits_text 0 message, Json.fits_nat 0 h, trivial⟩
  | clearWarning => exact Json.fits_tagged _ trivial
  | requestFullscreen => exact Json.fits_tagged _ trivial
  | exitFullscreen => exact Json.fits_tagged _ trivial
  | pushHistoryState => exact Json.fits_tagged _ trivial
  | confirmUnload message => exact Json.fits_tagged _ ⟨Json.fits_text 0 message, trivial⟩

namespace Event

/-- An event whose numbers fit their fields, at a moment that the calendar knows. -/
def Writable : Event → Prop
  | timerTick _ remaining elapsed total _ locked _ time =>
    remaining < Nat.pow 2 64 ∧ elapsed < Nat.pow 2 64 ∧ total < Nat.pow 2 64 ∧
      locked < Nat.pow 2 64 ∧ time.Datable
  | timeExpired _ time _ => time.Datable
  | directive _ d => d.Writable
  | lifeLost _ _ before after time => before < Nat.pow 2 8 ∧ after < Nat.pow 2 8 ∧ time.Datable
  | sessionFinished _ _ _ spent time => spent < Nat.pow 2 64 ∧ time.Datable

/-- A tagged record with nothing deeper than a directive in it is read as its variant. -/
theorem ofJson?_tagged {name : String} {members : List (String × Json)}
    (hname : variants.contains name = true) (htype : "type" ∉ members.map Prod.fst)
    (hfits : Json.FitMembers 1 members) :
    ofJson? (.tagged name members) = ofVariant? name (.object members) := by
  have hplace : (Json.Place.text 0).Leaves 2 := by decide
  rw [ofJson?, Json.variant?_tagged hplace hname htype hfits]
  rfl

/-- **Every event is read as the same variant.** -/
theorem carries {e : Event} (h : e.Writable) : Carries toJson ofJson? e := by
  cases e with
  | timerTick id remaining elapsed total can locked critical time =>
    obtain ⟨hremaining, helapsed, htotal, hlocked, htime⟩ := h
    have hremaining' := Json.carries_nat64 hremaining
    have helapsed' := Json.carries_nat64 helapsed
    have htotal' := Json.carries_nat64 htotal
    have hlocked' := Json.carries_nat64 hlocked
    have htime' := Json.carries_stamp htime
    refine ⟨⟨trivial, trivial, hremaining'.plain, helapsed'.plain, htotal'.plain, trivial,
      hlocked'.plain, trivial, htime'.plain, trivial⟩, ?_⟩
    refine Eq.trans (ofJson?_tagged (by decide) (by simp)
      ⟨Json.fits_text 1 id, Json.fits_nat 1 hremaining, Json.fits_nat 1 helapsed,
        Json.fits_nat 1 htotal, Json.fits_bool 1 can, Json.fits_nat 1 hlocked,
        Json.fits_bool 1 critical, Json.fits_text 1 time.write, trivial⟩) ?_
    rw [ofVariant?, Json.slots?_object rfl (by decide), Option.bind_eq_bind, Option.bind_some]
    simp only [List.map_cons, List.map_nil, Json.needed, Json.text?, Json.bool?,
      Option.bind_eq_bind, Option.bind_some, hremaining'.read_eq, helapsed'.read_eq,
      htotal'.read_eq, hlocked'.read_eq, htime'.read_eq]
  | timeExpired id time message =>
    have htime := Json.carries_stamp h
    refine ⟨⟨trivial, trivial, htime.plain, trivial, trivial⟩, ?_⟩
    refine Eq.trans (ofJson?_tagged (by decide) (by simp)
      ⟨Json.fits_text 1 id, Json.fits_text 1 time.write, Json.fits_text 1 message, trivial⟩) ?_
    rw [ofVariant?, Json.slots?_object rfl (by decide)]
    simp [Json.needed, Json.text?, htime.read_eq]
  | directive id d =>
    have hplace : Json.Place.memory.Leaves 1 := trivial
    have hdirective := Directive.carriesAt hplace h
    refine ⟨⟨trivial, trivial, hdirective.plain, trivial⟩, ?_⟩
    refine Eq.trans (ofJson?_tagged (by decide) (by simp)
      ⟨Json.fits_text 1 id, Directive.fits_toJson h, trivial⟩) ?_
    rw [ofVariant?, Json.slots?_object rfl (by decide)]
    simp [Json.needed, Json.text?, hdirective.read_eq]
  | lifeLost id violation before after time =>
    obtain ⟨hbefore, hafter, htime⟩ := h
    have hbefore' := Json.carries_nat8 hbefore
    have hafter' := Json.carries_nat8 hafter
    have htime' := Json.carries_stamp htime
    have hviolation : Json.heldWord? ViolationType.table violation.toJson = some violation :=
      violation.carries.read_eq
    have hwide : Nat.pow 2 8 < Nat.pow 2 64 := by decide
    refine ⟨⟨trivial, trivial, violation.carries.plain, hbefore'.plain, hafter'.plain,
      htime'.plain, trivial⟩, ?_⟩
    refine Eq.trans (ofJson?_tagged (by decide) (by simp)
      ⟨Json.fits_text 1 id, Json.fits_text 1 violation.name,
        Json.fits_nat 1 (Nat.lt_trans hbefore hwide), Json.fits_nat 1 (Nat.lt_trans hafter hwide),
        Json.fits_text 1 time.write, trivial⟩) ?_
    rw [ofVariant?, Json.slots?_object rfl (by decide)]
    simp [Json.needed, Json.text?, hviolation, hbefore'.read_eq, hafter'.read_eq, htime'.read_eq]
  | sessionFinished id status auto spent time =>
    obtain ⟨hspent, htime⟩ := h
    have hspent' := Json.carries_nat64 hspent
    have htime' := Json.carries_stamp htime
    have hstatus : Json.heldWord? Status.table status.toJson = some status :=
      status.carries.read_eq
    refine ⟨⟨trivial, trivial, status.carries.plain, trivial, hspent'.plain, htime'.plain,
      trivial⟩, ?_⟩
    refine Eq.trans (ofJson?_tagged (by decide) (by simp)
      ⟨Json.fits_text 1 id, Json.fits_text 1 status.name, Json.fits_bool 1 auto,
        Json.fits_nat 1 hspent, Json.fits_text 1 time.write, trivial⟩) ?_
    rw [ofVariant?, Json.slots?_object rfl (by decide)]
    simp [Json.needed, Json.text?, Json.bool?, hstatus, hspent'.read_eq, htime'.read_eq]

/-- The tag of an event is the name that it goes out under. -/
theorem member?_type (e : Event) : e.toJson.member? "type" = some (.text e.name) := by
  cases e <;> simp [toJson, Json.tagged, Json.member?, name]

/-- **An event is sent as one line that says what it is.** It is not the empty object, nothing in it
ends a line, it is read as the same event, and its type is the name that it goes out under. -/
theorem data_faithful (e : Event) (h : e.Writable) :
    e.data ≠ "\x7b\x7d" ∧ (∀ c ∈ e.data.toList, 0x20 ≤ c.toNat) ∧
      (Json.read? e.data).bind ofJson? = some e ∧
      (Json.read? e.data).bind (Json.member? "type") = some (.text e.name) := by
  have hcarries := carries h
  have hread : Json.read? e.data = some e.toJson := Json.read?_write hcarries.plain
  have htype : (Json.read? e.data).bind (Json.member? "type") = some (.text e.name) := by
    rw [hread]
    exact member?_type e
  refine ⟨fun hempty => ?_, Json.printed_write hcarries.plain, hcarries.read?_write, htype⟩
  -- an object with no members has no type either
  rw [hempty] at htype
  cases htype

/-- A directive whose text holds every sort of character that is escaped, and a forged event. -/
def oddWarning : Event :=
  .directive "s\r\n\ndata: \x7b\x7d" (.showWarning "\"\\\u0000\u001f\u2028 😀" (Nat.pow 2 64 - 1))

theorem data_faithful_oddWarning :
    oddWarning.Writable ∧ oddWarning.data ≠ "\x7b\x7d" ∧
      (∀ c ∈ oddWarning.data.toList, 0x20 ≤ c.toNat) ∧
      (Json.read? oddWarning.data).bind ofJson? = some oddWarning ∧
      (Json.read? oddWarning.data).bind (Json.member? "type") = some (.text "directive") := by
  have hwritable : oddWarning.Writable := (by decide : Nat.pow 2 64 - 1 < Nat.pow 2 64)
  exact ⟨hwritable, data_faithful oddWarning hwritable⟩

end Event

end Invigilator
