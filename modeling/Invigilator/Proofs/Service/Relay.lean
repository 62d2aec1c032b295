import Invigilator.Service.Relay

/-!
# What a subscriber hears

Events come to a relay when they are published and go to the subscriber when it reads; in between
they wait. As long as the relay has missed nothing, what was read and what waits are together what
was published: nothing is lost, doubled or moved. Only the event that ends a session cuts this
short, because the stream is closed as soon as that event has been read.

So a subscriber that keeps up hears `Event.untilLast` of what is published, however its reading
falls among the events.
-/

namespace Invigilator

namespace Event

/-- The events up to the first one that ends its stream, with that one. -/
def untilLast : List Event → List Event
  | [] => []
  | e :: events => if e.isLast then [e] else e :: untilLast events

/-- Without an end, events go on. -/
theorem untilLast_append {first : List Event} (rest : List Event)
    (h : ∀ e ∈ first, e.isLast = false) : untilLast (first ++ rest) = first ++ untilLast rest := by
  induction first with
  | nil => rfl
  | cons e first ih =>
    rw [List.cons_append, untilLast, h e List.mem_cons_self, if_neg Bool.false_ne_true,
      ih fun d hd => h d (List.mem_cons_of_mem _ hd), List.cons_append]

theorem untilLast_of_forall {events : List Event} (h : ∀ e ∈ events, e.isLast = false) :
    untilLast events = events := by
  simpa [untilLast] using untilLast_append [] h

/-- Behind an end nothing counts. -/
theorem untilLast_append_of_any {first : List Event} (rest : List Event)
    (h : first.any isLast = true) : untilLast (first ++ rest) = untilLast first := by
  induction first with
  | nil => cases h
  | cons e first ih =>
    rw [List.cons_append, untilLast, untilLast]
    cases hlast : e.isLast with
    | true => rfl
    | false =>
      rw [List.any_cons, hlast, Bool.false_or] at h
      rw [ih h]

/-- No event stands behind one that ends its stream. -/
def EndsLast (events : List Event) : Prop :=
  ∀ before e after, events = before ++ e :: after → e.isLast = true → after = []

/-- Events that go on in order end last as their rest does. -/
theorem endsLast_cons {e : Event} {events : List Event} (h : e.isLast = false) :
    EndsLast (e :: events) ↔ EndsLast events := by
  constructor
  · intro hends before d after hsplit
    exact hends (e :: before) d after (congrArg (e :: ·) hsplit)
  · intro hends before d after hsplit hd
    cases before with
    | nil =>
      obtain ⟨rfl, -⟩ := List.cons.inj hsplit
      rw [h] at hd
      cases hd
    | cons x before => exact hends before d after (List.cons.inj hsplit).2 hd

/-- Nothing is cut off from events that have their end last. -/
theorem untilLast_eq_self_iff {events : List Event} :
    untilLast events = events ↔ EndsLast events := by
  induction events with
  | nil => simp [untilLast, EndsLast]
  | cons e events ih =>
    rw [untilLast]
    cases hlast : e.isLast with
    | false =>
      rw [if_neg Bool.false_ne_true, endsLast_cons hlast, List.cons_inj_right]
      exact ih
    | true =>
      rw [if_pos rfl, List.cons_inj_right, eq_comm]
      constructor
      · rintro rfl before d after hsplit -
        cases before with
        | nil => exact (List.cons.inj hsplit).2.symm
        | cons x before => exact absurd (List.cons.inj hsplit).2 (by simp)
      · exact fun hends => hends [] e events rfl hlast

theorem EndsLast.of_append {before after : List Event} (h : EndsLast (before ++ after)) :
    EndsLast after :=
  fun first e rest hsplit => h (before ++ first) e rest (by rw [hsplit, List.append_assoc])

end Event

namespace Relay

/-- What becomes of a relay as events come, and the subscriber reads where there is `none`. -/
def attend (r : Relay) : List (Option Event) → Relay
  | [] => r
  | some e :: rest => (r.receive e).attend rest
  | none :: rest => r.read.1.attend rest

/-- At no point does the subscriber miss an event. -/
def KeepsUp (r : Relay) (course : List (Option Event)) : Prop :=
  ∀ first rest, course = first ++ rest → (r.attend first).missed = 0

/-- All that the subscriber has heard when it has read what waits for it in the end. -/
def hears (r : Relay) (course : List (Option Event)) : List Event :=
  (r.attend course).read.1.collect.1

theorem attend_append (r : Relay) (first rest : List (Option Event)) :
    r.attend (first ++ rest) = (r.attend first).attend rest := by
  induction first generalizing r with
  | nil => rfl
  | cons x first ih =>
    cases x with
    | none => exact ih _
    | some e => exact ih _

/-- To keep up is to have missed nothing so far, and to keep up with the rest. -/
theorem keepsUp_cons {r : Relay} {x : Option Event} {course : List (Option Event)} :
    r.KeepsUp (x :: course) ↔ r.missed = 0 ∧ (r.attend [x]).KeepsUp course := by
  constructor
  · intro h
    refine ⟨h [] (x :: course) rfl, fun first rest hsplit => ?_⟩
    rw [← attend_append]
    exact h (x :: first) rest (congrArg (x :: ·) hsplit)
  · rintro ⟨hmissed, hrest⟩ first rest hsplit
    cases first with
    | nil => exact hmissed
    | cons y first =>
      obtain ⟨rfl, hcourse⟩ := List.cons.inj hsplit
      exact (congrArg Relay.missed (attend_append r [x] first)).trans (hrest first rest hcourse)

theorem KeepsUp.missed {r : Relay} {course : List (Option Event)} (h : r.KeepsUp course) :
    r.missed = 0 :=
  h [] course rfl

/-- To relay what waits is to hear it up to its end, and closes the stream at that end. -/
theorem relayAll_connected {r : Relay} (events : List Event) (hconnected : r.connected = true)
    (hopen : r.closed = false) :
    (r.relayAll events).1.relayed = (Event.untilLast events).reverse ++ r.relayed ∧
      (r.relayAll events).1.unread = [] ∧ (r.relayAll events).1.missed = r.missed ∧
      (r.relayAll events).1.connected = true ∧
      (r.relayAll events).1.closed = events.any Event.isLast := by
  induction events generalizing r with
  | nil => simp [relayAll, hconnected, hopen, Event.untilLast]
  | cons e events ih =>
    rw [relayAll, Event.untilLast, List.any_cons]
    cases hlast : e.isLast with
    | true => simp [close, hconnected]
    | false =>
      have hrest := ih (r := { r with relayed := e :: r.relayed }) hconnected hopen
      simpa [hlast] using hrest

/-- A relay that has missed nothing, after so many events. -/
structure Faithful (events : List Event) (r : Relay) : Prop where
  connected : r.connected = true
  /-- What was read and what waits is what was published, and the end is not among what was read. -/
  underway : r.closed = false → r.relayed.reverse ++ r.unread = events ∧
    ∀ e ∈ r.relayed, e.isLast = false
  /-- A stream that is closed was read up to its end. -/
  ended : r.closed = true →
    r.relayed.reverse = Event.untilLast events ∧ events.any Event.isLast = true

theorem faithful_subscribe (id : String) (eager : Bool) : Faithful [] (subscribe id eager) :=
  ⟨rfl, fun _ => ⟨rfl, nofun⟩, nofun⟩

/-- An event that is not missed waits behind the others. -/
theorem Faithful.receive {events : List Event} {r : Relay} (h : r.Faithful events) (e : Event)
    (hmissed : (r.receive e).missed = 0) : (r.receive e).Faithful (events ++ [e]) := by
  cases hclosed : r.closed with
  | true =>
    -- what has come to its end takes in no more, and nothing counts behind an end
    obtain ⟨hheard, hlast⟩ := h.ended hclosed
    have hsame : r.receive e = r := if_pos hclosed
    rw [hsame]
    constructor
    case connected => exact h.connected
    case underway =>
      intro hopen
      rw [hclosed] at hopen
      cases hopen
    case ended =>
      intro _
      rw [Event.untilLast_append_of_any _ hlast, hheard, List.any_append, hlast]
      exact ⟨rfl, Bool.true_or _⟩
  | false =>
    obtain ⟨hkept, hnone⟩ := h.underway hclosed
    have hreceive : r.receive e =
        { r with
          unread := (r.unread ++ [e]).drop ((r.unread ++ [e]).length - capacity)
          missed := r.missed + ((r.unread ++ [e]).length - capacity) } := by
      rw [Relay.receive, hclosed]
      rfl
    rw [hreceive] at hmissed ⊢
    -- none is missed, so none was pushed out
    have hexcess : (r.unread ++ [e]).length - capacity = 0 := (Nat.add_eq_zero_iff.mp hmissed).2
    constructor
    case connected => exact h.connected
    case underway =>
      intro _
      refine ⟨?_, hnone⟩
      rw [hexcess, List.drop_zero, ← List.append_assoc, hkept]
    case ended =>
      intro hended
      rw [hclosed] at hended
      cases hended

/-- To read loses nothing, and leaves nothing waiting. -/
theorem Faithful.read {events : List Event} {r : Relay} (h : r.Faithful events) :
    r.read.1.Faithful events ∧ r.read.1.relayed.reverse = Event.untilLast events := by
  cases hclosed : r.closed with
  | true =>
    have hsame : r.read.1 = r := by rw [Relay.read, if_pos hclosed]
    rw [hsame]
    exact ⟨h, (h.ended hclosed).1⟩
  | false =>
    obtain ⟨hkept, hnone⟩ := h.underway hclosed
    have hread : r.read.1 = (({ r with missed := 0 } : Relay).relayAll r.unread).1 := by
      rw [Relay.read, if_neg (by rw [hclosed]; exact Bool.false_ne_true)]
    obtain ⟨hrelayed, hunread, -, hconnected, hends⟩ :=
      relayAll_connected (r := { r with missed := 0 }) r.unread h.connected hclosed
    rw [← hread] at hrelayed hunread hconnected hends
    have hbefore : ∀ e ∈ r.relayed.reverse, e.isLast = false :=
      fun e he => hnone e (List.mem_reverse.mp he)
    have hheard : r.read.1.relayed.reverse = Event.untilLast events := by
      rw [hrelayed, List.reverse_append, List.reverse_reverse, ← hkept,
        Event.untilLast_append _ hbefore]
    have hany : events.any Event.isLast = r.unread.any Event.isLast := by
      have hnot : r.relayed.reverse.any Event.isLast = false := by
        rw [List.any_eq_false]
        exact fun e he => Bool.eq_false_iff.mp (hbefore e he)
      rw [← hkept, List.any_append, hnot, Bool.false_or]
    refine ⟨⟨hconnected, fun hopen => ?_, fun hended => ⟨hheard, ?_⟩⟩, hheard⟩
    · -- the stream goes on, so there was no end among what waited
      rw [hends] at hopen
      have hall : ∀ e ∈ events, e.isLast = false := by
        rw [← hany, List.any_eq_false] at hopen
        exact fun e he => Bool.eq_false_iff.mpr (hopen e he)
      rw [Event.untilLast_of_forall hall] at hheard
      refine ⟨by rw [hunread, List.append_nil, hheard], fun e he => hall e ?_⟩
      rw [← hheard]
      exact List.mem_reverse.mpr he
    · rw [hany, ← hends, hended]

/-- A relay that keeps up stays faithful, whatever comes first. -/
theorem Faithful.attend {events : List Event} {r : Relay} (h : r.Faithful events)
    (course : List (Option Event)) (hkeeps : r.KeepsUp course) :
    (r.attend course).Faithful (events ++ course.filterMap id) := by
  induction course generalizing r events with
  | nil => simpa [Relay.attend] using h
  | cons x course ih =>
    have hrest := (keepsUp_cons.mp hkeeps).2
    cases x with
    | none => exact ih h.read.1 hrest
    | some e =>
      have hfaithful := ih (h.receive e hrest.missed) hrest
      rwa [List.append_assoc] at hfaithful

/-- **A subscriber that keeps up hears everything up to the end.** -/
theorem hears_of_keepsUp (session : String) (eager : Bool) (course : List (Option Event))
    (hkeeps : (subscribe session eager).KeepsUp course) :
    (subscribe session eager).hears course = Event.untilLast (course.filterMap id) :=
  ((faithful_subscribe session eager).attend course hkeeps).read.2

/-! ## A subscriber that reads at once -/

/-- Every event is read as soon as it has come. -/
def atOnce (events : List Event) : List (Option Event) :=
  events.flatMap fun e => [some e, none]

theorem filterMap_atOnce (events : List Event) : (atOnce events).filterMap id = events := by
  induction events with
  | nil => rfl
  | cons e events ih => exact congrArg (e :: ·) ih

/-- Nothing waits, and nothing was missed. -/
structure Idle (r : Relay) : Prop where
  connected : r.connected = true
  unread : r.unread = []
  missed : r.missed = 0

/-- An event that is read at once leaves nothing waiting. -/
theorem Idle.serve {r : Relay} (h : r.Idle) (e : Event) :
    (r.receive e).missed = 0 ∧ (r.receive e).read.1.Idle := by
  cases hclosed : r.closed with
  | true =>
    have hreceive : r.receive e = r := if_pos hclosed
    have hread : r.read.1 = r := by rw [read, if_pos hclosed]
    rw [hreceive, hread]
    exact ⟨h.missed, h⟩
  | false =>
    have hreceive : r.receive e = { r with unread := [e] } := by
      simp [receive, hclosed, h.unread, h.missed, capacity]
    have hread : (r.receive e).read.1 =
        (({ r with unread := [e], missed := 0 } : Relay).relayAll [e]).1 := by
      rw [hreceive, read, if_neg (by rw [hclosed]; exact Bool.false_ne_true)]
    obtain ⟨-, hunread, hmissed, hconnected, -⟩ :=
      relayAll_connected (r := { r with unread := [e], missed := 0 }) [e] h.connected hclosed
    rw [hread]
    refine ⟨?_, hconnected, hunread, hmissed⟩
    rw [hreceive]
    exact h.missed

/-- A subscriber that reads at once keeps up with anything. -/
theorem Idle.keepsUp_atOnce {r : Relay} (h : r.Idle) (events : List Event) :
    r.KeepsUp (atOnce events) := by
  induction events generalizing r with
  | nil =>
    intro first rest hsplit
    rw [(List.append_eq_nil_iff.mp hsplit.symm).1]
    exact h.missed
  | cons e events ih =>
    obtain ⟨hmissed, hidle⟩ := h.serve e
    exact keepsUp_cons.mpr ⟨h.missed, keepsUp_cons.mpr ⟨hmissed, ih hidle⟩⟩

theorem idle_subscribe (session : String) (eager : Bool) : (subscribe session eager).Idle :=
  ⟨rfl, rfl, rfl⟩

/-- **Events come through in full if and only if the end stands last among them.** -/
theorem hears_all_iff (session : String) (events : List Event) :
    (∀ eager course, course.filterMap id = events → (subscribe session eager).KeepsUp course →
      (subscribe session eager).hears course = events) ↔ Event.EndsLast events := by
  rw [← Event.untilLast_eq_self_iff]
  constructor
  · intro hall
    have hkeeps := (idle_subscribe session true).keepsUp_atOnce events
    have hheard := hears_of_keepsUp session true _ hkeeps
    rw [filterMap_atOnce] at hheard
    exact hheard.symm.trans (hall true _ (filterMap_atOnce events) hkeeps)
  · intro hself eager course hcourse hkeeps
    rw [hears_of_keepsUp session eager course hkeeps, hcourse, hself]

end Relay

end Invigilator
