import Invigilator.Proofs.Lives.Visits
import Invigilator.Proofs.Service.Inquiry
import Invigilator.Service.Health
import Invigilator.Service.Practice

/-!
# Invariants of the service

What happens to a service comes down to a few things: notes are taken, ids are drawn, a session is
told of something, subscriptions change, time passes, the store for practice lives is asked, the
way to the records gets better or worse. A property of services that survives these is stable, and
survives every call but four. A start launches a session, a shutdown suspends all that run, an
approval opens the gate and a reset gives lives back: each of these needs an argument of its own.
-/

namespace Invigilator

/-! ## The store for practice lives -/

/-- What the service asks of its store for practice lives: something of a bucket, or whether it is
there. -/
inductive Contact where
  | visit (visit : Visit)
  | ping
deriving DecidableEq, Repr, Inhabited

namespace Contact

/-- The bucket that is given all its lives back. -/
def resets? : Contact → Option Bucket
  | visit v => if v.call = .reset then some v.bucket else none
  | ping => none

/-- The reset of a bucket. The time does not matter to it. -/
def reset (bucket : Bucket) : Contact := .visit ⟨default, bucket, .reset⟩

end Contact

variable {σ α β : Type}

/-- The state that a contact leaves the store in. -/
def PracticeStore.after (practice : PracticeStore σ) (rules : LedgerRules) (lives : σ) :
    Contact → σ
  | .visit v => (Ledger.visited (fun _ => practice.store) rules lives v).after
  | .ping => (practice.ping.run lives).1.2

/-- A visit leaves what the call on the ledger leaves. -/
theorem PracticeStore.after_visit (practice : PracticeStore σ) (rules : LedgerRules) (lives : σ)
    (v : Visit) :
    practice.after rules lives (.visit v) =
      match v.call with
      | .current => ((Ledger.current practice.store rules v.time v.bucket).run lives).1.2
      | .currentLives => ((Ledger.currentLives practice.store rules v.time v.bucket).run lives).1.2
      | .hasLives => ((Ledger.hasLives practice.store rules v.time v.bucket).run lives).1.2
      | .loseLife => ((Ledger.loseLife practice.store rules v.time v.time v.bucket).run lives).1.2
      | .reset => ((Ledger.reset practice.store rules v.bucket).run lives).1.2
      | .untilNextRestore =>
        ((Ledger.untilNextRestore practice.store rules v.time v.time v.bucket).run lives).1.2 := by
  obtain ⟨time, bucket, call⟩ := v
  cases call <;> simp only [after, Ledger.visited, LedgerCall.answer, LedgerCall.run_return]

namespace Service

/-- The service after a contact with its store for practice lives. -/
def contacted (s : Service σ) (c : Contact) : Service σ :=
  { s with lives := s.practice.after (practiceRules s.config) s.lives c }

/-- The service with another gate. -/
def gated (s : Service σ) (g : Gate) : Service σ :=
  { s with
    hall :=
      { s.hall with
        courier :=
          { s.hall.courier with records := { s.hall.courier.records with gate := g } } } }

/-- The property survives what most calls do to the service. -/
structure Stable (P : Service σ → Prop) : Prop where
  jot : ∀ s notes, P s → P { s with hall := s.hall.jot notes }
  draw : ∀ s, P s → P { s with hall := s.hall.draw }
  relays : ∀ s relays, P s → P { s with hall := { s.hall with relays } }
  tell : ∀ s id x, x ≠ .shutdown → P s → P { s with hall := (s.hall.tell id x).2 }
  advance : ∀ s ms, P s → P { s with hall := s.hall.advance ms }
  contact : ∀ s c, c.resets? = none → P s → P (s.contacted c)
  /-- The cabinet is switched on or off, and so many writes are going to fail. -/
  weather : ∀ s on losses silences, P s →
    P { s with
      hall :=
        { s.hall with courier := { s.hall.courier.setAvailable on with losses, silences } } }

/-- The property, with the store for practice lives and the configuration as they are. -/
def Beside (s : Service σ) (P : Service σ → Prop) : Service σ → Prop := fun s' =>
  P s' ∧ s'.practice = s.practice ∧ s'.config = s.config

/-- Nothing that calls do exchanges the store for practice lives, or the configuration. -/
theorem Stable.beside {P : Service σ → Prop} (hP : Stable P) (s : Service σ) :
    Stable (Beside s P) where
  jot s notes hs := ⟨hP.jot s notes hs.1, hs.2⟩
  draw s hs := ⟨hP.draw s hs.1, hs.2⟩
  relays s relays hs := ⟨hP.relays s relays hs.1, hs.2⟩
  tell s id x hx hs := ⟨hP.tell s id x hx hs.1, hs.2⟩
  advance s ms hs := ⟨hP.advance s ms hs.1, hs.2⟩
  contact s c hc hs := ⟨hP.contact s c hc hs.1, hs.2⟩
  weather s on losses silences hs := ⟨hP.weather s on losses silences hs.1, hs.2⟩

/-- Subscriptions change, and notes are taken of it. -/
theorem Stable.rewire {P : Service σ → Prop} (hP : Stable P) {s : Service σ} (hs : P s)
    (relays : List Relay) (notes : List Note) :
    P { s with hall := ({ s.hall with relays } : Hall).jot notes } :=
  hP.jot { s with hall := { s.hall with relays } } notes (hP.relays s relays hs)

/-- The events of a subscription are taken. -/
theorem Stable.collect {P : Service σ → Prop} (hP : Stable P) {s : Service σ} (hs : P s)
    (number : Nat) : P { s with hall := (s.hall.collect number).2 } := by
  unfold Hall.collect
  split
  · exact hs
  · exact hP.relays s _ hs

/-- One subscription changes. -/
theorem Stable.onRelay {P : Service σ → Prop} (hP : Stable P) {s : Service σ} (hs : P s)
    (number : Nat) (f : Relay → Relay × List Note) :
    P { s with hall := s.hall.onRelay number f } := by
  unfold Hall.onRelay
  split
  · exact hs
  · rename_i r _
    exact hP.rewire hs (s.hall.relays.set number (f r).1) (f r).2

end Service

namespace Call

variable {P : Service σ → Prop}

/-- The property survives the call, whether it succeeds or not. -/
def Preserves (P : Service σ → Prop) (c : Call σ α) : Prop := ∀ s, P s → P (c.run s).2

/-! ## Pieces of calls -/

theorem preserves_pure (x : α) : (pure x : Call σ α).Preserves P := fun _ hs => hs

theorem preserves_fail (fault : Fault) : (fail fault : Call σ α).Preserves P := fun _ hs => hs

theorem preserves_ofExcept (result : Except Fault α) :
    (ofExcept result : Call σ α).Preserves P := by
  cases result with
  | ok x => exact preserves_pure x
  | error fault => exact preserves_fail fault

theorem preserves_ofBackend (result : Except BackendFault α) :
    (ofBackend result : Call σ α).Preserves P := by
  cases result with
  | ok x => exact preserves_pure x
  | error fault => exact preserves_fail (.backend fault)

theorem preserves_changeHall {f : Hall → Hall}
    (hf : ∀ s : Service σ, P s → P { s with hall := f s.hall }) :
    (changeHall f : Call σ Unit).Preserves P := hf

theorem preserves_askHall {f : Hall → α × Hall}
    (hf : ∀ s : Service σ, P s → P { s with hall := (f s.hall).2 }) :
    (askHall f : Call σ α).Preserves P := hf

theorem preserves_bind {c : Call σ α} {f : α → Call σ β} (hc : c.Preserves P)
    (hf : ∀ x, (f x).Preserves P) : (c >>= f).Preserves P := by
  intro s hs
  have hs' := hc s hs
  rw [run_bind]
  match hrun : c.run s with
  | (.error fault, s') =>
    rw [hrun] at hs'
    exact hs'
  | (.ok x, s') =>
    rw [hrun] at hs'
    exact hf x s' hs'

/-- To give a name to what a call gives changes nothing of what it does. -/
theorem preserves_return {c : Call σ α} {f : α → β} (hc : c.Preserves P) :
    (do return f (← c) : Call σ β).Preserves P :=
  preserves_bind hc fun x => preserves_pure (f x)

theorem preserves_service {f : Service σ → Call σ α} (hf : ∀ s, (f s).Preserves P) :
    (service >>= f).Preserves P :=
  fun s hs => hf s s hs

/-- A call that goes on from what it sees of the service may count on its store for practice lives
and on the rules of it. -/
theorem preserves_beside {f : Service σ → Call σ α}
    (hf : ∀ s, (f s).Preserves (s.Beside P)) : (service >>= f).Preserves P :=
  fun s hs => (hf s s ⟨hs, rfl, rfl⟩).1

/-- An attempt on the store for practice lives is a contact with it, and takes notes. -/
theorem preserves_onLives {s : Service σ}
    (hjot : ∀ s notes, P s → P { s with hall := s.hall.jot notes }) {c : Contact}
    (hc : ∀ s, P s → P (s.contacted c)) {a : Attempt σ α}
    (ha : ∀ lives,
      (a.run lives).1.2 = s.practice.after (Service.practiceRules s.config) lives c) :
    (onLives a).Preserves (s.Beside P) := by
  rintro s' ⟨hs', hpractice, hconfig⟩
  have hcontacted : P { s' with lives := (a.run s'.lives).1.2 } := by
    rw [ha, ← hpractice, ← hconfig]
    exact hc s' hs'
  have hafter : ((onLives a).run s').2 =
      { s' with lives := (a.run s'.lives).1.2, hall := s'.hall.jot (a.run s'.lives).2 } := by
    simp only [run, onLives]
    split <;> rfl
  rw [hafter]
  exact ⟨hjot _ _ hcontacted, hpractice, hconfig⟩

variable (hP : Service.Stable P)
include hP

theorem preserves_jot (notes : List Note) : (jot notes : Call σ Unit).Preserves P :=
  preserves_changeHall fun s hs => hP.jot s notes hs

end Call

namespace Service

open Call

variable {P : Service σ → Prop}

/-! ## Calls that look -/

theorem preserves_isRunningFor (id userId : String) :
    (isRunningFor id userId : Call σ Bool).Preserves P := by
  refine preserves_service fun s => ?_
  split
  · exact preserves_pure false
  · split
    · exact preserves_pure true
    · exact preserves_fail _

theorem preserves_recorded (id : String) : (recorded id : Call σ Snapshot).Preserves P := by
  refine preserves_service fun s => preserves_bind (preserves_ofBackend _) fun session => ?_
  cases session with
  | none => exact preserves_fail _
  | some session =>
    exact preserves_bind (preserves_ofBackend _) fun _ => preserves_return (preserves_ofBackend _)

theorem preserves_finished (id userId : String) :
    (finished id userId : Call σ Snapshot).Preserves P := by
  have howned : ∀ snapshot : Snapshot,
      (if snapshot.session.userId = userId then pure snapshot else fail .forbidden :
        Call σ Snapshot).Preserves P := by
    intro snapshot
    split
    · exact preserves_pure _
    · exact preserves_fail _
  refine preserves_service fun s => ?_
  split
  · exact preserves_bind (preserves_pure _) howned
  · exact preserves_bind (preserves_recorded id) howned

theorem preserves_questions (snapshot : Snapshot) :
    (questions snapshot : Call σ (List QuestionView)).Preserves P :=
  preserves_service fun _ => preserves_pure _

theorem preserves_latest (limit : Int) : (latest limit : Call σ SessionList).Preserves P :=
  preserves_service fun _ => preserves_return (preserves_ofBackend _)

theorem preserves_blocked : (blocked : Call σ (List EligibilityRecord)).Preserves P :=
  preserves_service fun _ => preserves_pure _

theorem preserves_checkFree (userId : String) :
    (checkFree userId : Call σ Unit).Preserves P := by
  refine preserves_service fun s => ?_
  split
  · exact preserves_fail _
  · exact preserves_pure ()

/-! ## Calls that act -/

variable (hP : Stable P)
include hP

theorem preserves_checkEligible (userId : String) :
    (checkEligible userId : Call σ Unit).Preserves P := by
  refine preserves_service fun s => ?_
  split
  · exact preserves_pure ()
  · exact preserves_bind (preserves_jot hP _) fun _ => preserves_fail _

theorem preserves_tell (id userId : String) {x : Stimulus} (hx : x ≠ .shutdown) :
    (tell id userId x : Call σ (Option Reply)).Preserves P := by
  refine preserves_bind (preserves_isRunningFor id userId) fun running => ?_
  split
  · exact preserves_askHall fun s hs => hP.tell s id x hx hs
  · exact preserves_pure none

theorem preserves_snapshot (id userId : String) :
    (snapshot id userId : Call σ Snapshot).Preserves P := by
  refine preserves_bind (preserves_tell hP id userId nofun) fun reply => ?_
  split
  · exact preserves_ofExcept _
  · exact preserves_finished id userId

theorem preserves_submit (id userId : String) :
    (submit id userId : Call σ Snapshot).Preserves P := by
  refine preserves_bind (preserves_tell hP id userId nofun) fun reply => ?_
  split
  · exact preserves_ofExcept _
  · exact preserves_finished id userId

theorem preserves_change (id userId : String) {x : Stimulus} (hx : x ≠ .shutdown) :
    (change id userId x : Call σ Answer).Preserves P := by
  refine preserves_bind (preserves_tell hP id userId hx) fun reply => ?_
  split
  · exact preserves_ofExcept _
  · exact preserves_fail _
  · exact preserves_bind (preserves_finished id userId) fun _ => preserves_fail _

theorem preserves_signal (id userId : String) (signal : Signal) :
    (Service.signal id userId signal : Call σ SignalOutcome).Preserves P := by
  refine preserves_bind (preserves_tell hP id userId nofun) fun reply => ?_
  split
  · exact preserves_pure _
  · exact preserves_bind (preserves_finished id userId) fun _ =>
      preserves_return (preserves_jot hP _)

theorem preserves_subscribe (id userId : String) (eager : Bool) :
    (subscribe id userId eager : Call σ Nat).Preserves P := by
  refine preserves_bind (preserves_isRunningFor id userId) fun running => ?_
  split
  · exact preserves_bind (preserves_askHall fun s hs => hP.rewire hs _ _) fun _ =>
      preserves_return (preserves_jot hP _)
  · exact preserves_bind (preserves_finished id userId) fun _ => preserves_fail _

/-- Whatever is asked of a session, the property survives. -/
theorem preserves_inquiry (id userId : String) (inquiry : Inquiry) :
    (inquiry.call id userId : Call σ Told).Preserves P := by
  cases inquiry with
  | snapshot => exact preserves_return (preserves_snapshot hP id userId)
  | score =>
    exact preserves_return (preserves_return (preserves_snapshot hP id userId))
  | updateAnswer index code =>
    exact preserves_return (preserves_change hP id userId nofun)
  | recordRun index result =>
    exact preserves_return (preserves_change hP id userId nofun)
  | signal x => exact preserves_return (preserves_signal hP id userId x)
  | submit => exact preserves_return (preserves_submit hP id userId)
  | subscribe eager =>
    exact preserves_return (preserves_subscribe hP id userId eager)

theorem preserves_approve {userId approver : String}
    (happrove : ∀ s : Service σ, P s →
      P (s.gated (s.hall.courier.records.gate.approve userId approver s.hall.time).1)) :
    (approve userId approver : Call σ Bool).Preserves P := by
  refine preserves_bind (preserves_askHall happrove) fun approved => ?_
  split
  · exact preserves_return (preserves_jot hP _)
  · exact preserves_return (preserves_jot hP _)

theorem preserves_livesReport (bucket : Bucket) :
    (livesReport bucket : Call σ LivesReport).Preserves P := by
  refine preserves_beside fun s => preserves_bind ?_ fun state => preserves_bind ?_ fun _ =>
    preserves_pure _
  · exact preserves_onLives hP.jot (hP.contact · (.visit ⟨s.practiceTime, bucket, .current⟩) rfl)
      fun _ => by rw [PracticeStore.after_visit]
  · exact preserves_onLives hP.jot
      (hP.contact · (.visit ⟨s.practiceTime, bucket, .untilNextRestore⟩) rfl)
      fun _ => by rw [PracticeStore.after_visit]

theorem preserves_loseLife (bucket : Bucket) :
    (loseLife bucket : Call σ LivesReport).Preserves P := by
  refine preserves_beside fun s => preserves_bind ?_ fun _ =>
    preserves_livesReport (hP.beside s) bucket
  exact preserves_onLives hP.jot (hP.contact · (.visit ⟨s.practiceTime, bucket, .loseLife⟩) rfl)
    fun _ => by rw [PracticeStore.after_visit]

theorem preserves_resetLives {userId : String} (administrator : String)
    (hreset : ∀ s, P s → P (s.contacted (.reset (.forUser (some userId))))) :
    (resetLives userId administrator : Call σ LivesReport).Preserves P := by
  refine preserves_beside fun s => preserves_bind ?_ fun _ =>
    preserves_bind (preserves_jot (hP.beside s) _) fun _ => preserves_livesReport (hP.beside s) _
  exact preserves_onLives hP.jot hreset fun _ => by rw [Contact.reset, PracticeStore.after_visit]

theorem preserves_health : (health : Call σ Health).Preserves P := by
  have hrecords : (recordsPulse : Call σ Pulse).Preserves P := by
    refine preserves_service fun s => ?_
    split <;> exact preserves_pure _
  have hlives : (livesPulse : Call σ Pulse).Preserves P := by
    intro s hs
    -- the call waits before it asks, and does not ask a store that keeps it waiting too long
    have hwaited := hP.advance s (min s.pingDelay pingLimit) hs
    have hpinged := hP.jot _ (s.practice.ping.run s.lives).2 (hP.contact _ .ping rfl hwaited)
    have hafter : (livesPulse.run s).2 =
        if pingLimit < s.pingDelay then
          { s with hall := s.hall.advance (min s.pingDelay pingLimit) }
        else
          { s with
            lives := (s.practice.ping.run s.lives).1.2
            hall := (s.hall.advance (min s.pingDelay pingLimit)).jot
              (s.practice.ping.run s.lives).2 } := by
      simp only [Call.run, livesPulse]
      split
      · rfl
      · generalize s.practice.ping.run s.lives = pinged
        obtain ⟨⟨result, lives⟩, notes⟩ := pinged
        cases result <;> rfl
    rw [hafter]
    split
    · exact hwaited
    · exact hpinged
  exact preserves_bind hrecords fun _ => preserves_bind hlives fun _ =>
    preserves_service fun _ => preserves_pure _

theorem preserves_shutdown
    (hstop : ∀ s id, P s → P { s with hall := (s.hall.tell id .shutdown).2 }) :
    (shutdown : Call σ Unit).Preserves P := by
  have hstopped : ∀ (ids : List String) (s : Service σ), P s →
      P { s with
        hall := ids.foldl (fun h id => (h.tell id .shutdown).2.jot
          [.debug ("Exam session " ++ id ++ " stopped")]) s.hall } := by
    intro ids
    induction ids with
    | nil => exact fun _ hs => hs
    | cons id ids ih => exact fun s hs => ih _ (hP.jot _ _ (hstop s id hs))
  refine preserves_changeHall fun s hs => ?_
  unfold Hall.shutdown
  dsimp only
  split
  · exact hs
  · exact hstopped _ _ (hP.jot s _ hs)

end Service

end Invigilator
