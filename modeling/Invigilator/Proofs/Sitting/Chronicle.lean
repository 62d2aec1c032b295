import Invigilator.Proofs.Sitting.Outcome
import Invigilator.Proofs.Sitting.Rest
import Invigilator.Proofs.Sitting.Telling

/-!
# The log of a session

Whoever has all events of a session knows the session. Its ticks are numbered through and show what
the clock shows; the word that time is up stands where the clock has run out, and nowhere else; the
lives that were lost are the penalties, one by one; and the end says what the record says. So a
`Replica` that is told nothing but the events has the lives, the penalties and the status of the
sitting at every moment.

None of this is a matter of looking at the log as a whole. `Chronicle` relates what has been told
so far to the sitting as it stands, and every way in which a sitting can tell of a stimulus
(`Sitting.Telling`) carries it on.
-/

namespace Invigilator

open Sitting (Coupled Telling isActive_of_isRunning)

/-! ## Kinds of events -/

namespace Event

/-- Whether an event says that the time is up. -/
def isExpiry : Event → Bool
  | timeExpired .. => true
  | timerTick .. => false
  | directive .. => false
  | lifeLost .. => false
  | sessionFinished .. => false

/-- Whether an event is a tick with nothing remaining. -/
def isFinalTick : Event → Bool
  | timerTick _ remaining .. => remaining == 0
  | timeExpired .. => false
  | directive .. => false
  | lifeLost .. => false
  | sessionFinished .. => false

/-- The loss that an event tells of: the kind of the violation, the lives before and after. -/
def loss? : Event → Option (ViolationType × Nat × Nat)
  | lifeLost _ kind before after _ => some (kind, before, after)
  | timerTick .. => none
  | timeExpired .. => none
  | directive .. => none
  | sessionFinished .. => none

end Event

/-- The loss that a penalty records. -/
def Violation.loss (v : Violation) : ViolationType × Nat × Nat :=
  (v.violationType, v.heartsBefore, v.heartsAfter)

/-! ## The word that time is up -/

/-- Each word that time is up stands right behind a tick with nothing remaining, and each such tick
has that word right behind it. -/
structure Punctual (events : List Event) : Prop where
  prompt : ∀ before e after, events = before ++ e :: after →
    (e.isExpiry = true ↔ ∃ tick, before.getLast? = some tick ∧ tick.isFinalTick = true)
  settled : ∀ e, events.getLast? = some e → e.isFinalTick = false

/-- Events that have nothing to do with the end of time. -/
theorem punctual_of_forall {events : List Event}
    (h : ∀ e ∈ events, e.isExpiry = false ∧ e.isFinalTick = false) : Punctual events := by
  refine ⟨fun before e after hsplit => ?_, fun e he => (h e (List.mem_of_getLast? he)).2⟩
  have hmem : e ∈ events := hsplit ▸ List.mem_append_right _ List.mem_cons_self
  refine iff_of_false (by rw [(h e hmem).1]; exact Bool.false_ne_true) ?_
  rintro ⟨tick, htick, hfinal⟩
  have htickmem : tick ∈ events := hsplit ▸ List.mem_append_left _ (List.mem_of_getLast? htick)
  rw [(h tick htickmem).2] at hfinal
  cases hfinal

/-- The last tick and its word. -/
theorem punctual_lastSecond {tick word : Event} (htick : tick.isFinalTick = true)
    (hword : word.isExpiry = true) (hfinal : word.isFinalTick = false)
    (hexpiry : tick.isExpiry = false) : Punctual [tick, word] := by
  refine ⟨fun before e after hsplit => ?_, fun e he => ?_⟩
  · rcases before with _ | ⟨x, _ | ⟨y, before⟩⟩
    · obtain ⟨rfl, -⟩ := List.cons.inj hsplit
      simp [hexpiry]
    · obtain ⟨rfl, hrest⟩ := List.cons.inj hsplit
      obtain ⟨rfl, -⟩ := List.cons.inj hrest
      simp [hword, htick]
    · simp at hsplit
  · obtain rfl : word = e := by simpa using he
    exact hfinal

/-- Punctual stretches follow each other. -/
theorem Punctual.append {first rest : List Event} (hfirst : Punctual first)
    (hrest : Punctual rest) : Punctual (first ++ rest) := by
  -- where they meet nothing is due and nothing is said
  have hmeet : ∀ e after, rest = e :: after →
      (e.isExpiry = true ↔ ∃ tick, first.getLast? = some tick ∧ tick.isFinalTick = true) := by
    intro e after hsplit
    rw [hrest.prompt [] e after hsplit]
    refine iff_of_false (by simp) ?_
    rintro ⟨tick, htick, hfinal⟩
    rw [hfirst.settled tick htick] at hfinal
    cases hfinal
  refine ⟨fun before e after hsplit => ?_, fun e he => ?_⟩
  · -- the event is in the rest, or the first of it, or in the first stretch
    rcases List.append_eq_append_iff.mp hsplit with ⟨middle, rfl, hmiddle⟩ | ⟨middle, hmiddle, hafter⟩
    · rcases List.eq_nil_or_concat middle with rfl | ⟨init, x, rfl⟩
      · rw [List.append_nil]
        exact hmeet e after hmiddle
      · rw [hrest.prompt _ e after hmiddle]
        simp
    · cases middle with
      | nil =>
        rw [List.append_nil] at hmiddle
        rw [← hmiddle]
        exact hmeet e after hafter.symm
      | cons x middle =>
        obtain ⟨rfl, -⟩ := List.cons.inj hafter
        exact hfirst.prompt before e middle hmiddle
  · rcases List.eq_nil_or_concat rest with rfl | ⟨init, x, rfl⟩
    · rw [List.append_nil] at he
      exact hfirst.settled e he
    · exact hrest.settled e (by simpa using he)

/-! ## A replica -/

/-- What a client knows of a session from its events: the lives, the losses and the status. -/
structure Replica where
  lives : Nat
  losses : List (ViolationType × Nat × Nat)
  status : Status
deriving DecidableEq, Repr

namespace Replica

/-- What is known when the session begins. -/
def start (s : Session) : Replica := ⟨s.livesRemaining, [], s.status⟩

/-- What there is to know of a sitting. -/
def of (s : Sitting) : Replica :=
  ⟨s.session.livesRemaining, s.violations.map Violation.loss, s.session.status⟩

/-- An event is heard. -/
def hear (r : Replica) : Event → Replica
  | .lifeLost _ kind before after _ =>
    { r with lives := after, losses := r.losses ++ [(kind, before, after)] }
  | .sessionFinished _ status .. => { r with status := status }
  | .timerTick .. => r
  | .timeExpired .. => r
  | .directive .. => r

theorem of_ended {s : Sitting} (reason : Reason) (time : Stamp) (h : s.session.isActive = true) :
    of (s.ended reason time) = { of s with status := reason.outcome } := by
  rw [of, Sitting.ended, Session.finish_active h]
  rfl

/-- To hear of a loss is to know of the penalty. -/
theorem hear_loss (s : Sitting) (scene : Scene) (kind : ViolationType) (left : Nat) :
    (of s).hear (s.loss scene kind left) = of (s.charged (s.violation scene kind left)) := by
  simp [of, hear, Sitting.loss, Sitting.charged, Sitting.violation, Violation.loss]

end Replica

/-- Sittings that agree are known by the same replica. -/
theorem Sitting.Agrees.replica {s t : Sitting} (h : s.Agrees t) : Replica.of t = Replica.of s := by
  rw [Replica.of, Replica.of, h.session, h.violations]

/-! ## What directives and last words are made of -/

section Words

variable (s : Session) (ds : List Directive)

@[simp] theorem filter_isTick_voice : (s.voice ds).filter Event.isTick = [] := by
  simp [Session.voice, Event.isTick]

@[simp] theorem filterMap_loss_voice : (s.voice ds).filterMap Event.loss? = [] := by
  simp [Session.voice, Event.loss?]

@[simp] theorem countP_isExpiry_voice : (s.voice ds).countP Event.isExpiry = 0 := by
  simp [Session.voice, Event.isExpiry]

@[simp] theorem hear_voice (r : Replica) : (s.voice ds).foldl Replica.hear r = r := by
  induction ds generalizing r with
  | nil => rfl
  | cons d ds ih => exact ih r

theorem punctual_voice : Punctual (s.voice ds) := by
  refine punctual_of_forall fun e he => ?_
  obtain ⟨d, -, rfl⟩ := List.mem_map.mp he
  exact ⟨rfl, rfl⟩

variable (t : Sitting) (reason : Reason) (time : Stamp)

@[simp] theorem filter_isTick_lastWords :
    (t.lastWords reason time).filter Event.isTick = [] := by
  simp [Sitting.lastWords, Event.isTick]

@[simp] theorem filterMap_loss_lastWords :
    (t.lastWords reason time).filterMap Event.loss? = [] := by
  simp [Sitting.lastWords, Event.loss?]

@[simp] theorem countP_isExpiry_lastWords :
    (t.lastWords reason time).countP Event.isExpiry = 0 := by
  simp [Sitting.lastWords, Event.isExpiry]

@[simp] theorem hear_lastWords (r : Replica) :
    (t.lastWords reason time).foldl Replica.hear r = { r with status := reason.outcome } := by
  simp [Sitting.lastWords, Replica.hear]

/-- The end is told as it is, and once. -/
theorem mem_lastWords {t : Sitting} {reason : Reason} {time : Stamp} {e : Event}
    (h : e ∈ t.lastWords reason time) (hlast : e.isLast = true) :
    e = .sessionFinished t.session.id reason.outcome reason.isAutomatic t.timer.elapsed time := by
  rcases List.mem_append.mp h with h | h
  · obtain ⟨d, -, rfl⟩ := List.mem_map.mp h
    cases hlast
  · exact List.mem_singleton.mp h

theorem punctual_lastWords : Punctual (t.lastWords reason time) := by
  refine (punctual_voice _ _).append (punctual_of_forall fun e he => ?_)
  obtain rfl := List.mem_singleton.mp he
  exact ⟨rfl, rfl⟩

end Words

/-! ## Ticks -/

/-- The tick of a second, at some time. -/
def Pace.IsBeat (pace : Pace) (session : String) (second : Nat) (e : Event) : Prop :=
  ∃ critical time, e = .timerTick session (pace.totalSeconds - second) second pace.totalSeconds
    (decide (pace.submitUnlockSeconds ≤ second)) (pace.submitUnlockSeconds - second) critical time

/-- A clock that counts is told as it counts, and the report that it has run out is the one with
nothing remaining. -/
theorem Countdown.Counts.beat {pace : Pace} {n : Nat} {s : Sitting} {tick : Tick}
    (h : s.timer.Counts pace n) (hgoes : s.timer.isRunning = true)
    (htick : s.timer.tick.2 = some tick) (time : Stamp) :
    pace.IsBeat s.session.id (n + 1) (s.beat tick time) ∧
      tick.expired = (s.beat tick time).isFinalTick := by
  rw [h.tick_eq hgoes] at htick
  obtain rfl := Option.some.inj htick
  refine ⟨⟨s.timer.tick.1.isCritical, time, ?_⟩, rfl⟩
  rw [Sitting.beat, h.tick_eq hgoes]
  simp only [Countdown.untilSubmit, h.total, h.unlock]

namespace Sitting.Telling

variable {scene : Scene} {s t : Sitting} {x : Stimulus} {said : List Event} {pace : Pace} {n : Nat}

/-- It is all told of one session. -/
theorem id (h : Telling scene s x said t) : t.session.id = s.session.id := by
  cases h with
  | spoke ds other agrees => rw [agrees.session]
  | ticked tick htick goesOn agrees => rw [agrees.session]
  | timedOut tick htick last agrees => rw [agrees.session]; exact Session.finish_id _ _ _ _
  | handedIn reason agrees => rw [agrees.session]; exact Session.finish_id _ _ _ _
  | lost kind left before after other agrees => rw [agrees.session]; rfl
  | lostLast kind left before after other trigger spoken charged agrees =>
    rw [agrees.session]
    exact (Session.finish_id _ _ _ _).trans (by rw [charged.session]; rfl)
  | shut agrees => rw [agrees.session]; rfl

/-- The clock goes on with the ticks that are told. -/
theorem ticks (h : Telling scene s x said t) (hcounts : s.timer.Counts pace n)
    (hgoes : s.timer.isRunning = true) :
    (said.filter Event.isTick = [] ∧ t.timer.Counts pace n) ∨
      ∃ e, said.filter Event.isTick = [e] ∧ pace.IsBeat s.session.id (n + 1) e ∧
        t.timer.Counts pace (n + 1) := by
  cases h with
  | spoke ds other agrees => exact Or.inl ⟨by simp, agrees.timer ▸ hcounts⟩
  | ticked tick htick goesOn agrees =>
    refine Or.inr ⟨_, rfl, (hcounts.beat hgoes htick scene.time).1, ?_⟩
    rw [agrees.timer]
    exact (hcounts.tick hgoes).1
  | timedOut tick htick last agrees =>
    -- the last tick is told like every other, and the clock stops behind it
    refine Or.inr ⟨_, ?_, (hcounts.beat hgoes htick scene.time).1, ?_⟩
    · rw [List.filter_cons_of_pos (by rfl), List.filter_cons_of_neg Bool.false_ne_true,
        filter_isTick_lastWords]
    · rw [agrees.timer]
      exact (hcounts.tick hgoes).1.stop
  | handedIn reason agrees =>
    refine Or.inl ⟨by simp, ?_⟩
    rw [agrees.timer]
    exact hcounts.stop
  | lost kind left before after other agrees =>
    exact Or.inl ⟨by simp [Sitting.loss, Event.isTick], agrees.timer ▸ hcounts⟩
  | lostLast kind left before after other trigger spoken charged agrees =>
    refine Or.inl ⟨by simp [Sitting.loss, Event.isTick], ?_⟩
    rw [agrees.timer]
    exact (charged.timer ▸ hcounts).stop
  | shut agrees =>
    refine Or.inl ⟨by simp, ?_⟩
    rw [agrees.timer]
    exact hcounts.stop

/-- The word that time is up is told with the last tick, and ends the session. -/
theorem punctual (h : Telling scene s x said t) (hcounts : s.timer.Counts pace n)
    (hgoes : s.timer.isRunning = true) : Punctual said := by
  have hloss : ∀ kind left, Punctual [s.loss scene kind left] := fun kind left =>
    punctual_of_forall fun e he => List.mem_singleton.mp he ▸ ⟨rfl, rfl⟩
  cases h with
  | spoke ds => exact punctual_voice _ ds
  | ticked tick htick goesOn =>
    have hfinal := (hcounts.beat hgoes htick scene.time).2
    refine punctual_of_forall fun e he => List.mem_singleton.mp he ▸ ⟨rfl, ?_⟩
    rw [← hfinal, goesOn]
  | timedOut tick htick last =>
    have hfinal := (hcounts.beat hgoes htick scene.time).2
    exact (punctual_lastSecond (hfinal ▸ last) rfl rfl rfl).append (punctual_lastWords _ _ _)
  | handedIn reason => exact punctual_lastWords _ _ _
  | lost kind left before after =>
    exact (punctual_voice _ _).append ((hloss kind left).append (punctual_voice _ _))
  | lostLast kind left before after =>
    exact (punctual_voice _ _).append
      ((hloss kind left).append ((punctual_lastWords _ _ _).append (punctual_voice _ _)))
  | shut => exact punctual_voice _ _

/-- Time is up only once: the session does not go on. -/
theorem expiry (h : Telling scene s x said t) (hs : s.session.isActive = true) :
    said.countP Event.isExpiry ≤ 1 ∧
      (t.session.isActive = true → said.countP Event.isExpiry = 0) := by
  cases h with
  | spoke => simp
  | ticked => exact ⟨Nat.zero_le 1, fun _ => rfl⟩
  | timedOut tick htick last agrees =>
    refine ⟨?_, fun ht => ?_⟩
    · exact Nat.le_of_eq (by rw [List.countP_cons_of_neg Bool.false_ne_true,
        List.countP_cons_of_pos (by rfl), countP_isExpiry_lastWords])
    · rw [agrees.session, Sitting.ended_isActive _ _ (by exact hs)] at ht
      cases ht
  | handedIn => simp
  | lost => simp [Sitting.loss, Event.isExpiry]
  | lostLast => simp [Sitting.loss, Event.isExpiry]
  | shut => simp

/-- A loss is told for every penalty. -/
theorem losses (h : Telling scene s x said t) :
    t.violations.map Violation.loss =
      s.violations.map Violation.loss ++ said.filterMap Event.loss? := by
  cases h with
  | spoke ds other agrees => simp [agrees.violations]
  | ticked tick htick goesOn agrees => simp [agrees.violations, Sitting.beat, Event.loss?]
  | timedOut tick htick last agrees =>
    rw [List.filterMap_cons_none (by rfl), List.filterMap_cons_none (by rfl),
      filterMap_loss_lastWords, List.append_nil, agrees.violations]
    rfl
  | handedIn reason agrees => simp [agrees.violations, Sitting.ended, Sitting.disarmed]
  | lost kind left before after other agrees =>
    simp [agrees.violations, Sitting.charged, Sitting.violation, Sitting.loss, Event.loss?,
      Violation.loss]
  | lostLast kind left before after other trigger spoken charged agrees =>
    simp [agrees.violations, charged.violations, Sitting.ended, Sitting.disarmed, Sitting.charged,
      Sitting.violation, Sitting.loss, Event.loss?, Violation.loss]
  | shut agrees => simp [agrees.violations, Sitting.disarmed]

/-- A replica is carried along by what is told. -/
theorem replay (h : Telling scene s x said t) (hs : s.session.isActive = true) :
    said.foldl Replica.hear (.of s) = .of t := by
  cases h with
  | spoke ds other agrees => rw [hear_voice, agrees.replica]
  | ticked tick htick goesOn agrees => rw [agrees.replica]; rfl
  | timedOut tick htick last agrees =>
    rw [agrees.replica, Replica.of_ended .timeExpired scene.time (by exact hs)]
    exact hear_lastWords _ .timeExpired scene.time (.of s)
  | handedIn reason agrees =>
    rw [agrees.replica, Replica.of_ended reason scene.time hs, hear_lastWords]
  | lost kind left before after other agrees =>
    rw [agrees.replica, List.foldl_append, hear_voice, List.foldl_cons, Replica.hear_loss,
      hear_voice]
  | lostLast kind left before after other trigger spoken charged agrees =>
    rw [agrees.replica, Replica.of_ended .livesExhausted scene.time
      (by rw [charged.session]; exact hs), charged.replica, List.foldl_append, hear_voice,
      List.foldl_cons, Replica.hear_loss, List.foldl_append, hear_lastWords, hear_voice]
  | shut agrees => rw [hear_voice, agrees.replica]; rfl

section Outcome

variable {id : String} {status : Status} {auto : Bool} {spent : Nat} {time : Stamp}

/-- Last words tell how it ended. -/
theorem outcome_of_lastWords {u : Sitting} {reason : Reason} (hu : u.session.isActive = true)
    (agrees : (u.ended reason scene.time).Agrees t)
    (hwords : .sessionFinished id status auto spent time ∈ u.lastWords reason scene.time) :
    t.session.isActive = false ∧ t.session.status = status ∧ t.session.autoSubmitted = auto ∧
      t.session.timeSpentSeconds = some spent := by
  obtain ⟨-, rfl, rfl, rfl, -⟩ := Event.sessionFinished.inj (mem_lastWords hwords rfl)
  have hover := Sitting.ended_isActive reason scene.time hu
  rw [agrees.session]
  refine ⟨hover, ?_⟩
  rw [Sitting.ended, Session.finish_active hu]
  exact ⟨rfl, rfl, rfl⟩

/-- The end that is told is the end there is. -/
theorem outcome (h : Telling scene s x said t) (hs : s.session.isActive = true)
    (hsaid : .sessionFinished id status auto spent time ∈ said) :
    t.session.isActive = false ∧ t.session.status = status ∧ t.session.autoSubmitted = auto ∧
      t.session.timeSpentSeconds = some spent := by
  -- the end is no directive, no beat of the clock and no loss, so it is among last words
  have hvoice : ∀ {ds : List Directive},
      Event.sessionFinished id status auto spent time ∉ s.session.voice ds := by
    intro ds hmem
    obtain ⟨d, -, hd⟩ := List.mem_map.mp hmem
    cases hd
  have hbeat : ∀ tick, Event.sessionFinished id status auto spent time ≠ s.beat tick scene.time := by
    intro tick hsame
    cases hsame
  have hloss : ∀ kind left,
      Event.sessionFinished id status auto spent time ≠ s.loss scene kind left := by
    intro kind left hsame
    cases hsame
  cases h with
  | spoke ds => exact absurd hsaid hvoice
  | ticked => cases List.mem_singleton.mp hsaid
  | timedOut tick htick last agrees =>
    have hlast := (List.mem_cons.mp hsaid).resolve_left (hbeat tick)
    have hwords := (List.mem_cons.mp hlast).resolve_left (by simp)
    exact outcome_of_lastWords (by exact hs) agrees hwords
  | handedIn reason agrees => exact outcome_of_lastWords hs agrees hsaid
  | lost kind left before after =>
    have hafter := (List.mem_append.mp hsaid).resolve_left hvoice
    exact absurd ((List.mem_cons.mp hafter).resolve_left (hloss kind left)) hvoice
  | lostLast kind left before after other trigger spoken charged agrees =>
    have hafter := (List.mem_append.mp hsaid).resolve_left hvoice
    have hrest := (List.mem_cons.mp hafter).resolve_left (hloss kind left)
    have hwords := (List.mem_append.mp hrest).resolve_right hvoice
    exact outcome_of_lastWords (by rw [charged.session]; exact hs) agrees hwords
  | shut => exact absurd hsaid hvoice

end Outcome

end Sitting.Telling

/-! ## The log -/

/-- What has been told so far of a session, and the sitting as it stands. -/
structure Chronicle (pace : Pace) (session : Session) (events : List Event) (s : Sitting) :
    Prop where
  /-- The ticks are those of the seconds from the first on, without a gap. -/
  beats : ∀ k e, (events.filter Event.isTick)[k]? = some e → pace.IsBeat session.id (k + 1) e
  /-- The clock shows how many there were. -/
  counts : s.timer.Counts pace (events.filter Event.isTick).length
  /-- The word that time is up is said once at most, and not while the session goes on. -/
  once : events.countP Event.isExpiry ≤ 1
  early : s.session.isActive = true → events.countP Event.isExpiry = 0
  /-- It is said right behind the tick with nothing remaining. -/
  punctual : Punctual events
  /-- The losses are the penalties, in order. -/
  losses : events.filterMap Event.loss? = s.snapshot.violations.map Violation.loss
  /-- An end that was told is the end there was. -/
  outcome : ∀ id status auto spent time, .sessionFinished id status auto spent time ∈ events →
    s.snapshot.session.isActive = false ∧ s.snapshot.session.status = status ∧
      s.snapshot.session.autoSubmitted = auto ∧ s.snapshot.session.timeSpentSeconds = some spent
  /-- A client that was told all of it knows the sitting. -/
  replay : events.foldl Replica.hear (.start session) = .of s
  /-- It is all about one session. -/
  id : s.session.id = session.id

namespace Chronicle

variable {pace : Pace} {session : Session} {events said : List Event} {scene : Scene}
  {s t : Sitting} {x : Stimulus}

/-- Before anything was told. -/
theorem opened (session : Session) (answers : List Answer) (pace : Pace) (now : Instant)
    (htotal : 1 ≤ pace.totalSeconds) :
    Chronicle pace session [] (.opened session answers pace now) := by
  rw [Sitting.opened_eq]
  exact ⟨nofun, Countdown.counts_start htotal, Nat.zero_le 1, fun _ => rfl,
    punctual_of_forall nofun, rfl, nofun, rfl, rfl⟩

/-- The numbers of the ticks go on without a gap. -/
theorem beats_append {first more : List Event} {n : Nat} (hn : n = first.length)
    (hfirst : ∀ k e, first[k]? = some e → pace.IsBeat session.id (k + 1) e)
    (hmore : more = [] ∨ ∃ e, more = [e] ∧ pace.IsBeat session.id (n + 1) e) :
    ∀ k e, (first ++ more)[k]? = some e → pace.IsBeat session.id (k + 1) e := by
  intro k e hk
  rcases Nat.lt_or_ge k first.length with hlt | hge
  · rw [List.getElem?_append_left hlt] at hk
    exact hfirst k e hk
  · rw [List.getElem?_append_right hge] at hk
    rcases hmore with rfl | ⟨d, rfl, hd⟩
    · cases hk
    · have hzero : k - first.length = 0 := by
        have := (List.getElem?_eq_some_iff.mp hk).1
        simpa using this
      rw [hzero] at hk
      obtain rfl := Option.some.inj hk
      have hkn : k = n := by omega
      rwa [hkn]

/-- **The log goes on with whatever a running sitting tells.** -/
theorem extend (hl : Chronicle pace session events s) (h : Telling scene s x said t)
    (hactive : s.session.isActive = true) (hgoes : s.timer.isRunning = true) :
    Chronicle pace session (events ++ said) t := by
  obtain ⟨honce, hearly⟩ := h.expiry hactive
  have hid : t.session.id = s.session.id := h.id
  have hbefore := hl.early hactive
  have hticks := h.ticks hl.counts hgoes
  rw [hl.id] at hticks
  constructor
  case beats =>
    rw [List.filter_append]
    refine beats_append rfl hl.beats (hticks.imp (·.1) ?_)
    rintro ⟨e, he, hbeat, -⟩
    exact ⟨e, he, hbeat⟩
  case counts =>
    rw [List.filter_append, List.length_append]
    rcases hticks with ⟨hnone, hcounts⟩ | ⟨e, he, -, hcounts⟩
    · rw [hnone]
      exact hcounts
    · rw [he]
      exact hcounts
  case once =>
    rw [List.countP_append, hbefore, Nat.zero_add]
    exact honce
  case early =>
    intro ht
    rw [List.countP_append, hbefore, hearly ht]
  case punctual => exact hl.punctual.append (h.punctual hl.counts hgoes)
  case losses =>
    rw [List.filterMap_append, hl.losses]
    exact h.losses.symm
  case outcome =>
    intro id status auto spent time hmem
    rcases List.mem_append.mp hmem with hmem | hmem
    · -- an end that was told before would have been the end of this
      have hover : s.session.isActive = false := (hl.outcome id status auto spent time hmem).1
      rw [hactive] at hover
      cases hover
    · exact h.outcome hactive hmem
  case replay => rw [List.foldl_append, hl.replay, h.replay hactive]
  case id => exact hid.trans hl.id

end Chronicle

namespace Turn

variable {σ : Type} (ledger : LivesLedger σ)

/-- The log of a whole run, from a sitting that was opened. -/
theorem chronicle_broadcast {pace : Pace} {session : Session} {s : Sitting × σ}
    (hc : s.1.Coupled) (hopened : Chronicle pace session [] s.1) (cues : List Cue) :
    Chronicle pace session (broadcast ledger s cues) (reached ledger s cues).1 := by
  induction cues using List.reverseRecOn with
  | nil =>
    rw [broadcast_nil]
    exact hopened
  | append_singleton cues c ih =>
    rw [broadcast_concat, reached_concat]
    have hcoupled := coupled_reached ledger hc cues
    cases hrun : (reached ledger s cues).1.isRunning with
    | false =>
      rw [actions_moment_over ledger c hrun, moment_over ledger c hrun, published,
        List.filterMap_nil, List.append_nil]
      exact ih
    | true =>
      exact ih.extend (moment_telling ledger c hrun hcoupled) (isActive_of_isRunning hrun)
        (by rw [hcoupled.ticking, hrun])

/-- **The log of a session determines it.** With any ledger and in any order of what comes, at every
moment of the run: the ticks are numbered through and show the clock, the word that time is up
stands behind the last of them and nowhere else, the losses are the penalties, the end is the end
of the record; and who replays the log has the lives, the penalties and the status. -/
theorem log_determines_session (session : Session) (answers : List Answer) (pace : Pace)
    (now : Instant) (lives : σ) (cues : List Cue) (htotal : 1 ≤ pace.totalSeconds)
    (hactive : session.isActive = true) :
    Chronicle pace session
      (broadcast ledger (Sitting.opened session answers pace now, lives) cues)
      (reached ledger (Sitting.opened session answers pace now, lives) cues).1 :=
  chronicle_broadcast ledger (Sitting.coupled_opened answers pace now hactive)
    (.opened session answers pace now htotal) cues

/-- Two seconds are given; a life is lost in the first, and the second is the last while a grace
period is pending. -/
theorem log_determines_session_timeUp :
    1 ≤ (⟨2, 2, 1, 10000, 1000⟩ : Pace).totalSeconds ∧ (Session.specimen 3).isActive = true ∧
      (broadcast (.lasting Shelf.store 3)
        (Sitting.opened (.specimen 3) [] ⟨2, 2, 1, 10000, 1000⟩ 0, .empty)
        [.at 0 (.signal .copy), .at 1000 .tick, .at 1500 (.signal .windowBlur), .at 2000 .tick,
          .at 2500 .tick]).map Event.name =
        ["directive", "life-lost", "directive", "timer-tick", "directive", "timer-tick",
          "time-expired", "directive", "directive", "session-finished"] ∧
      Chronicle ⟨2, 2, 1, 10000, 1000⟩ (.specimen 3)
        (broadcast (.lasting Shelf.store 3)
          (Sitting.opened (.specimen 3) [] ⟨2, 2, 1, 10000, 1000⟩ 0, .empty)
          [.at 0 (.signal .copy), .at 1000 .tick, .at 1500 (.signal .windowBlur), .at 2000 .tick,
            .at 2500 .tick])
        (reached (.lasting Shelf.store 3)
          (Sitting.opened (.specimen 3) [] ⟨2, 2, 1, 10000, 1000⟩ 0, .empty)
          [.at 0 (.signal .copy), .at 1000 .tick, .at 1500 (.signal .windowBlur), .at 2000 .tick,
            .at 2500 .tick]).1 :=
  ⟨by decide, rfl, by decide +kernel,
    log_determines_session _ (.specimen 3) [] _ 0 _ _ (by decide) rfl⟩

end Turn

end Invigilator
