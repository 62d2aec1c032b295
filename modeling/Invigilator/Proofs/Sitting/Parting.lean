import Invigilator.Proofs.Service.Relay
import Invigilator.Proofs.Sitting.Finality
import Invigilator.Proofs.Sitting.Rest
import Invigilator.Proofs.Sitting.Telling
import Mathlib.Data.List.Induction

/-!
# What stands behind the end

The event that tells of the end of a session closes the streams of its subscribers, so what is
published behind it reaches nobody. An end that comes by itself, with the last second or with a
submission, is the last thing that happens at its stimulus. A penalty is not: it is one effect in
a list, and where it takes the last life, the session ends while the rest of the list still waits.
The order to submit that follows the last life of a grace period then finds nothing to do; but the
word that follows a use of the clipboard is said all the same, behind the end.

`Moment.interrupts` tells those moments from what they found alone. A run has its end last, and
its subscribers hear all of it, exactly when it has no such moment.
-/

namespace Invigilator

open Sitting (Coupled Telling isActive_of_isRunning ended_isActive)

/-- A penalty for the stimulus has effects behind it that speak to the candidate: it was a report
of the browser, or the end of a grace period that found more than one life. -/
def Stimulus.lingers (lives : Nat) : Stimulus → Bool
  | .signal _ => true
  | .graceElapsed => lives != 1
  | .update .. => false
  | .recordRun .. => false
  | .submit _ => false
  | .look => false
  | .tick => false
  | .shutdown => false

/-- The session ends in the midst of the effects of a moment. -/
def Moment.interrupts {σ : Type} (m : Moment σ) : Bool :=
  m.ends && m.cue.stimulus.lingers m.before.1.session.livesRemaining

/-- There is one end among some events, with something behind it if and only if `more`. -/
def Parted (events : List Event) (more : Prop) : Prop :=
  ∃ body last rest, events = body ++ last :: rest ∧ (∀ e ∈ body, e.isLast = false) ∧
    last.isLast = true ∧ (rest = [] ↔ ¬more)

theorem Parted.prepend {events : List Event} {more : Prop} (h : Parted events more)
    {first : List Event} (hfirst : ∀ e ∈ first, e.isLast = false) :
    Parted (first ++ events) more := by
  obtain ⟨body, last, rest, rfl, hbody, hlast⟩ := h
  refine ⟨first ++ body, last, rest, (List.append_assoc _ _ _).symm, fun e he => ?_, hlast⟩
  rcases List.mem_append.mp he with he | he
  · exact hfirst e he
  · exact hbody e he

/-- The one end stands last if and only if nothing is behind it. -/
theorem Parted.endsLast_iff {events : List Event} {more : Prop} (h : Parted events more) :
    Event.EndsLast events ↔ ¬more := by
  obtain ⟨body, last, rest, rfl, hbody, hlast, hrest⟩ := h
  rw [← hrest]
  refine ⟨fun hends => hends body last rest rfl hlast, ?_⟩
  rintro rfl before e after hsplit he
  rcases List.eq_nil_or_concat after with hafter | ⟨init, x, rfl⟩
  · exact hafter
  -- the end would stand in front of the last event, so in the body
  have hsplit' : body ++ [last] = (before ++ e :: init) ++ [x] := by
    rw [hsplit, List.concat_eq_append, List.append_assoc, List.cons_append]
  have hmem : e ∈ body := by
    rw [List.append_inj_left' hsplit' rfl]
    exact List.mem_append_right _ List.mem_cons_self
  rw [hbody e hmem] at he
  cases he

theorem endsLast_of_forall {events : List Event} (h : ∀ e ∈ events, e.isLast = false) :
    Event.EndsLast events := by
  intro before e after hsplit he
  have hmem : e ∈ events := hsplit ▸ List.mem_append_right _ List.mem_cons_self
  rw [h e hmem] at he
  cases he

/-! ## One moment -/

theorem isLast_of_mem_voice {s : Session} {ds : List Directive} {e : Event} (h : e ∈ s.voice ds) :
    e.isLast = false := by
  obtain ⟨d, -, rfl⟩ := List.mem_map.mp h
  rfl

/-- Last words have their end last. -/
theorem parted_lastWords (s : Sitting) (reason : Reason) (time : Stamp) (more : Prop)
    (rest : List Event) (hrest : rest = [] ↔ ¬more) :
    Parted (s.lastWords reason time ++ rest) more :=
  ⟨s.session.voice (s.pardon ++ [.exitFullscreen]), _, rest,
    List.append_assoc _ _ _, fun _ => isLast_of_mem_voice, rfl, hrest⟩

/-- An end that comes by itself has nothing behind it. -/
theorem parted_lastWords_alone (s : Sitting) (reason : Reason) (time : Stamp) {more : Prop}
    (hmore : ¬more) : Parted (s.lastWords reason time) more := by
  have hparted := parted_lastWords s reason time more [] (iff_of_true rfl hmore)
  rwa [List.append_nil] at hparted

namespace Sitting.Telling

variable {scene : Scene} {s t : Sitting} {x : Stimulus} {events : List Event}

/-- As long as the session goes on no end is told. -/
theorem underway (h : Telling scene s x events t) (hs : s.session.isActive = true)
    (ht : t.session.isActive = true) : ∀ e ∈ events, e.isLast = false := by
  cases h with
  | spoke ds => exact fun _ => isLast_of_mem_voice
  | ticked => exact fun e he => List.mem_singleton.mp he ▸ rfl
  | timedOut tick ticks last agrees =>
    -- told like this, the session would be over
    rw [agrees.session, ended_isActive _ _ (by exact hs)] at ht
    cases ht
  | handedIn reason agrees =>
    rw [agrees.session, ended_isActive _ _ hs] at ht
    cases ht
  | lost kind left before after =>
    intro e he
    rcases List.mem_append.mp he with he | he
    · exact isLast_of_mem_voice he
    · rcases List.mem_cons.mp he with rfl | he
      · rfl
      · exact isLast_of_mem_voice he
  | lostLast kind left before after other trigger spoken charged agrees =>
    rw [agrees.session, ended_isActive _ _ (by rw [charged.session]; exact hs)] at ht
    cases ht
  | shut => exact fun _ => isLast_of_mem_voice

/-- The session ends, and that is told once. Something is told behind it if there was a penalty
with effects behind it. -/
theorem parted (h : Telling scene s x events t) (hs : s.session.isActive = true)
    (ht : t.session.isActive = false) :
    Parted events (x.lingers s.session.livesRemaining = true) := by
  have hgoesOn : ∀ {u : Session}, u = s.session → u.isActive ≠ false := by
    rintro u rfl
    rw [hs]
    exact Bool.noConfusion
  cases h with
  | spoke ds other agrees => exact absurd ht (hgoesOn agrees.session)
  | ticked tick ticks goesOn agrees => exact absurd ht (hgoesOn agrees.session)
  | timedOut tick =>
    have hwords : Parted (({ s with timer := s.timer.tick.1 } : Sitting).lastWords .timeExpired
        scene.time) (Stimulus.lingers s.session.livesRemaining .tick = true) :=
      parted_lastWords_alone _ .timeExpired scene.time Bool.false_ne_true
    have hclock : ∀ e ∈ [s.beat tick scene.time,
        .timeExpired s.session.id scene.time "Time limit exceeded"], e.isLast = false := by
      intro e he
      simp only [List.mem_cons, List.not_mem_nil, or_false] at he
      rcases he with rfl | rfl <;> rfl
    exact hwords.prepend hclock
  | handedIn reason =>
    exact parted_lastWords_alone s reason scene.time Bool.false_ne_true
  | lost kind left before after other agrees =>
    have hactive : t.session.isActive = true := agrees.session ▸ hs
    rw [hactive] at ht
    cases ht
  | @lostLast x t u kind left before after other trigger spoken =>
    -- nothing is left to say only when the last life went with a grace period
    have hrest : s.session.voice after = [] ↔ ¬x.lingers s.session.livesRemaining = true := by
      rw [Session.voice, List.map_eq_nil_iff, spoken]
      rcases trigger with rfl | ⟨signal, rfl⟩ <;> simp [Stimulus.lingers]
    have hwords := parted_lastWords u .livesExhausted scene.time _ _ hrest
    have hloss : ∀ e ∈ [s.loss scene kind left], e.isLast = false :=
      fun e he => List.mem_singleton.mp he ▸ rfl
    exact (hwords.prepend hloss).prepend fun _ => isLast_of_mem_voice
  | shut agrees => exact absurd ht (hgoesOn agrees.session)

end Sitting.Telling

/-! ## Runs -/

namespace Turn

variable {σ : Type} (ledger : LivesLedger σ)

/-- Where the end stands in what a run has told so far. -/
structure Parting (h : List (Moment σ)) (events : List Event) (s : Sitting) : Prop where
  /-- As long as the session goes on there is none. -/
  underway : s.session.isActive = true →
    (∀ m ∈ h, m.ends = false) ∧ ∀ e ∈ events, e.isLast = false
  /-- A session that is over has told it, with something behind it if it was interrupted. -/
  ended : s.session.isActive = false → Parted events (∃ m ∈ h, m.interrupts = true)

/-- A moment in which the session does not end, and nothing is told. -/
theorem Parting.idle {h : List (Moment σ)} {events : List Event} {s : Sitting} {m : Moment σ}
    (hp : Parting h events s) (hm : m.ends = false) : Parting (h ++ [m]) events s := by
  have hnot : ¬m.interrupts = true := by
    rw [Moment.interrupts, hm, Bool.false_and]
    exact Bool.false_ne_true
  refine ⟨fun hactive => ⟨fun n hn => ?_, (hp.underway hactive).2⟩, fun hover => ?_⟩
  · rcases List.mem_append.mp hn with hn | hn
    · exact (hp.underway hactive).1 n hn
    · rw [List.mem_singleton.mp hn, hm]
  · have hsame : (∃ n ∈ h ++ [m], n.interrupts = true) ↔ ∃ n ∈ h, n.interrupts = true := by
      simp [or_and_right, exists_or, hnot]
    rw [hsame]
    exact hp.ended hover

/-- **One more moment.** -/
theorem parting_moment {h : List (Moment σ)} {events : List Event} {s : Sitting × σ}
    (hp : Parting h events s.1) (hc : s.1.Coupled) (c : Cue) :
    Parting (h ++ [moment ledger s c]) (events ++ published (moment ledger s c).actions)
      (moment ledger s c).after.1 := by
  cases hrun : s.1.isRunning with
  | false =>
    -- nothing reaches the sitting any more
    have hafter := moment_over ledger c hrun
    have hends : (moment ledger s c).ends = false := by
      rw [Moment.ends, moment_before, hafter, Bool.and_not_self]
    rw [actions_moment_over ledger c hrun, published, List.filterMap_nil, List.append_nil, hafter]
    exact hp.idle hends
  | true =>
    have hactive := isActive_of_isRunning hrun
    have htelling := moment_telling ledger c hrun hc
    obtain ⟨hmoments, hevents⟩ := hp.underway hactive
    refine ⟨fun hafter => ⟨fun m hm => ?_, fun e he => ?_⟩, fun hover => ?_⟩
    · rcases List.mem_append.mp hm with hm | hm
      · exact hmoments m hm
      · rw [List.mem_singleton.mp hm, Moment.ends, hafter, Bool.not_true, Bool.and_false]
    · rcases List.mem_append.mp he with he | he
      · exact hevents e he
      · exact htelling.underway hactive hafter e he
    · -- the session ends now, so this is the only moment that its end can have interrupted
      have hends : (moment ledger s c).ends = true := by
        rw [Moment.ends, moment_before, hactive, hover]
        rfl
      have hbefore : ¬∃ m ∈ h, m.interrupts = true := by
        rintro ⟨m, hm, hinterrupts⟩
        exact Bool.eq_false_iff.mp (hmoments m hm) (Bool.and_eq_true_iff.mp hinterrupts).1
      have hsame : (∃ m ∈ h ++ [moment ledger s c], m.interrupts = true) ↔
          c.stimulus.lingers s.1.session.livesRemaining = true := by
        have hlast : (moment ledger s c).interrupts =
            c.stimulus.lingers s.1.session.livesRemaining := by
          rw [Moment.interrupts, hends, Bool.true_and]
          rfl
        simp only [List.mem_append, List.mem_singleton, or_and_right, exists_or, hbefore, false_or,
          exists_eq_left, hlast]
      rw [hsame]
      exact (htelling.parted hactive hover).prepend hevents

/-- Where the end stands in what a whole run has told. -/
theorem parting_history {s : Sitting × σ} (hc : s.1.Coupled) (hactive : s.1.session.isActive = true)
    (cues : List Cue) :
    Parting (history ledger s cues) (broadcast ledger s cues) (reached ledger s cues).1 := by
  induction cues using List.reverseRecOn with
  | nil =>
    rw [history_nil, broadcast_nil, reached_nil]
    refine ⟨fun _ => ⟨List.forall_mem_nil _, List.forall_mem_nil _⟩, fun hover => ?_⟩
    rw [hactive] at hover
    cases hover
  | append_singleton cues c ih =>
    rw [history_concat, broadcast_concat, reached_concat]
    exact parting_moment ledger ih (coupled_reached ledger hc cues) c

/-- The end stands last if and only if no moment was interrupted by it. -/
theorem Parting.endsLast_iff {h : List (Moment σ)} {events : List Event} {s : Sitting}
    (hp : Parting h events s) : Event.EndsLast events ↔ ∀ m ∈ h, m.interrupts = false := by
  cases hactive : s.session.isActive with
  | true =>
    obtain ⟨hmoments, hevents⟩ := hp.underway hactive
    refine iff_of_true (endsLast_of_forall hevents) fun m hm => ?_
    rw [Moment.interrupts, hmoments m hm, Bool.false_and]
  | false =>
    rw [(hp.ended hactive).endsLast_iff]
    simp

/-- **The end of a session is the last thing that it tells, and its subscribers hear all of it, if
and only if the end interrupted no moment.** A subscriber may come at any point of the run and read
as it likes, as long as it keeps up. -/
theorem end_last_iff (session : Session) (answers : List Answer) (pace : Pace) (now : Instant)
    (lives : σ) (cues : List Cue) (hactive : session.isActive = true) :
    let s := (Sitting.opened session answers pace now, lives)
    (Event.EndsLast (broadcast ledger s cues) ↔
        ∀ m ∈ history ledger s cues, m.interrupts = false) ∧
      ((∀ before after, broadcast ledger s cues = before ++ after →
        ∀ eager course, course.filterMap id = after →
          (Relay.subscribe session.id eager).KeepsUp course →
          (Relay.subscribe session.id eager).hears course = after) ↔
        ∀ m ∈ history ledger s cues, m.interrupts = false) := by
  intro s
  have hcoupled : s.1.Coupled := Sitting.coupled_opened answers pace now hactive
  have hends := (parting_history ledger hcoupled hactive cues).endsLast_iff
  refine ⟨hends, Iff.trans ?_ hends⟩
  constructor
  · intro hall
    exact (Relay.hears_all_iff session.id _).mp (hall [] _ rfl)
  · intro hlast before after hsplit
    exact (Relay.hears_all_iff session.id after).mpr (hsplit ▸ hlast).of_append

/-- The last life is lost to a grace period, which ends with an order to submit. -/
theorem end_last_iff_lastLife :
    (Session.specimen 1).isActive = true ∧
      (let s := (Sitting.opened (.specimen 1) [] .specimen 0, Shelf.empty)
      let cues := [Cue.at 0 (.signal (.visibilityChange true)), .at 10000 .graceElapsed]
      (∀ m ∈ history (.lasting Shelf.store 1) s cues, m.interrupts = false) ∧
      (Event.EndsLast (broadcast (.lasting Shelf.store 1) s cues) ↔
          ∀ m ∈ history (.lasting Shelf.store 1) s cues, m.interrupts = false) ∧
        ((∀ before after, broadcast (.lasting Shelf.store 1) s cues = before ++ after →
          ∀ eager course, course.filterMap id = after →
            (Relay.subscribe "s-1" eager).KeepsUp course →
            (Relay.subscribe "s-1" eager).hears course = after) ↔
          ∀ m ∈ history (.lasting Shelf.store 1) s cues, m.interrupts = false)) :=
  ⟨rfl, by decide +kernel, end_last_iff _ (.specimen 1) [] .specimen 0 _ _ rfl⟩

/-- The last life is lost to the clipboard: what is said of the clipboard comes behind the end, and
a subscriber that read everything at once has not heard it. -/
theorem end_not_last_clipboard :
    let events := broadcast (.lasting Shelf.store 1) (Sitting.specimen 1, .empty)
      [.at 0 (.signal .copy)]
    ¬Event.EndsLast events ∧ (Relay.subscribe "s-1" true).KeepsUp (Relay.atOnce events) ∧
      (Relay.atOnce events).filterMap id = events ∧
      .directive "s-1" (.notify Detector.copyBlocked) ∈ events ∧
      .directive "s-1" (.notify Detector.copyBlocked) ∉
        (Relay.subscribe "s-1" true).hears (Relay.atOnce events) := by
  intro events
  have hevents : events =
      [.directive "s-1" .preventDefault, .lifeLost "s-1" .copy 1 0 default,
        .directive "s-1" .exitFullscreen] ++
      .sessionFinished "s-1" .disqualified true 0 default ::
        [.directive "s-1" (.notify Detector.copyBlocked)] := by decide +kernel
  refine ⟨fun hlast => ?_, (Relay.idle_subscribe "s-1" true).keepsUp_atOnce events,
    Relay.filterMap_atOnce events, by decide +kernel, by decide +kernel⟩
  exact List.cons_ne_nil _ _ (hlast _ _ _ hevents rfl)

end Turn

end Invigilator
