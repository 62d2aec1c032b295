import Invigilator.Proofs.Service.Handover
import Invigilator.Proofs.Service.Serial
import Invigilator.Proofs.Sitting.Rest
import Mathlib.Data.List.Induction

/-!
# What a submission shows

A submission is answered by the session if it runs, else from the archive, else from the records,
and the last two show what they hold. A session comes to the archive in two ways: it has ended, or
it was suspended by a shutdown while it was in progress. `Registry.Settled` keeps them apart, and
`submit_isTerminal_iff` says when a submission that succeeds shows an exam that is over.
-/

namespace Invigilator

/-! ## Sittings -/

namespace Sitting

/-- The sitting is in order, and its exam in progress. -/
structure InProgress (s : Sitting) : Prop where
  coupled : s.Coupled
  awake : s.suspended = false
  active : s.session.isActive = true

variable {s : Sitting}

theorem InProgress.isRunning (h : s.InProgress) : s.isRunning = true := by
  rw [Sitting.isRunning, h.active, h.awake]
  rfl

/-- Whatever else happens, a sitting goes on or ends. -/
theorem InProgress.step {σ : Type} (h : s.InProgress) (ledger : LivesLedger σ) (scene : Scene)
    {x : Stimulus} (hx : x ≠ .shutdown) (lives : σ) :
    let t := ((Turn.step ledger scene x).after (s, lives)).1
    (t.isRunning = true ∧ t.InProgress) ∨ t.isRunning = false ∧ t.session.isActive = false := by
  intro t
  have hsits : t.Sits s.session.id s.session.userId :=
    Sits.step ⟨rfl, rfl, h.coupled, h.awake⟩ ledger scene hx lives
  cases hrun : t.isRunning with
  | true => exact .inl ⟨rfl, hsits.coupled, hsits.awake, isActive_of_isRunning hrun⟩
  | false => exact .inr ⟨rfl, hsits.ended hrun⟩

/-- A shutdown suspends a sitting, and leaves its exam in progress. -/
theorem InProgress.suspended {σ : Type} (h : s.InProgress) (ledger : LivesLedger σ) (scene : Scene)
    (lives : σ) :
    let t := ((Turn.step ledger scene .shutdown).after (s, lives)).1
    t.isRunning = false ∧ t.session.isActive = true := by
  intro t
  have ht : t = { s.disarmed with suspended := true } := by
    rw [show t = ((Turn.step ledger scene .shutdown).after (s, lives)).1 from rfl,
      Turn.after_step_running ledger scene .shutdown h.isRunning, Turn.shutdown_after]
  rw [ht]
  exact ⟨by simp [Sitting.isRunning], h.active⟩

end Sitting

/-- A session is over when it is active no more. -/
theorem Session.isTerminal_iff (s : Session) :
    s.status.isTerminal = true ↔ s.isActive = false := by
  rw [Session.isActive]
  cases s.status <;> decide

/-- A sitting shows itself to a submission when it is over, or was handed in. -/
theorem Turn.over_of_submit {σ : Type} {s : Sitting × σ} {scene : Scene} {reason : Reason}
    {snapshot : Snapshot}
    (h : (submit scene reason : Turn σ (Except Fault Snapshot)).value s = .ok snapshot) :
    snapshot.session.isActive = false := by
  unfold submit at h
  rw [value_bind, value_sitting, after_sitting] at h
  split at h
  · rename_i hactive
    split at h
    · cases h
    · obtain rfl := Except.ok.inj h
      have hfinished := after_finish s scene reason
      rw [Sitting.endedIf, if_pos hactive] at hfinished
      exact (congrArg (fun t : Sitting × σ => t.1.session.isActive) hfinished).trans
        (Sitting.ended_isActive reason scene.time hactive)
  · rename_i hover
    obtain rfl := Except.ok.inj h
    exact Bool.eq_false_iff.mpr hover

/-! ## The registry -/

namespace Registry

variable {suspended suspended' : String → Prop} {g : Registry Seat} {r : Running Seat}

/-- Whatever runs is in progress. What is archived was suspended or has ended, and runs no more. -/
structure Settled (suspended : String → Prop) (g : Registry Seat) : Prop where
  running : ∀ r ∈ g.active, r.value.sitting.InProgress
  awake : ∀ r ∈ g.active, ¬suspended r.sessionId
  apart : ∀ r ∈ g.active, ∀ e ∈ g.archive.entries, e.1 ≠ r.sessionId
  archived : ∀ e ∈ g.archive.entries, e.2.session.isActive = true ↔ suspended e.1

theorem settled_new (capacity : Nat) (suspended : String → Prop) :
    (Registry.new capacity).Settled suspended where
  running := List.forall_mem_nil _
  awake := List.forall_mem_nil _
  apart := List.forall_mem_nil _
  archived := List.forall_mem_nil _

theorem Settled.update (h : g.Settled suspended) (id : String) {seat : Seat}
    (hseat : seat.sitting.InProgress) : (g.update id seat).Settled suspended := by
  -- every session was there before, and has the new seat or the one it had
  have hwas : ∀ r ∈ (g.update id seat).active, ∃ was ∈ g.active,
      r.sessionId = was.sessionId ∧ (r.value = seat ∨ r.value = was.value) := by
    intro r hr
    obtain ⟨was, hwas, rfl⟩ := List.mem_map.mp hr
    refine ⟨was, hwas, ?_⟩
    split
    · exact ⟨rfl, .inl rfl⟩
    · exact ⟨rfl, .inr rfl⟩
  constructor
  case running =>
    intro r hr
    obtain ⟨was, hmem, -, hvalue | hvalue⟩ := hwas r hr
    · rw [hvalue]
      exact hseat
    · rw [hvalue]
      exact h.running was hmem
  case awake =>
    intro r hr
    obtain ⟨was, hmem, hid, -⟩ := hwas r hr
    exact hid ▸ h.awake was hmem
  case apart =>
    intro r hr
    obtain ⟨was, hmem, hid, -⟩ := hwas r hr
    exact hid ▸ h.apart was hmem
  case archived => exact h.archived

/-- A session is retired: suspended, if its exam is in progress. -/
theorem Settled.retire (h : g.Settled suspended) (hr : r ∈ g.active)
    (hothers : ∀ id, id ≠ r.sessionId → (suspended' id ↔ suspended id)) {snapshot : Snapshot}
    (hsnapshot : snapshot.session.isActive = true ↔ suspended' r.sessionId) :
    (g.retire r.sessionId snapshot).Settled suspended' := by
  have hstays : ∀ t ∈ (g.retire r.sessionId snapshot).active,
      t ∈ g.active ∧ t.sessionId ≠ r.sessionId := by
    intro t ht
    obtain ⟨hmem, hne⟩ := List.mem_filter.mp ht
    exact ⟨hmem, by simpa using hne⟩
  constructor
  case running =>
    intro t ht
    exact h.running t (hstays t ht).1
  case awake =>
    intro t ht
    rw [hothers _ (hstays t ht).2]
    exact h.awake t (hstays t ht).1
  case apart =>
    intro t ht e he
    rcases Archive.mem_insert he with rfl | he
    · exact (hstays t ht).2.symm
    · exact h.apart t (hstays t ht).1 e he
  case archived =>
    intro e he
    rcases Archive.mem_insert he with rfl | he
    · exact hsnapshot
    · rw [hothers _ (h.apart r hr e he)]
      exact h.archived e he

/-- One more session runs, under an id that is new to the registry. -/
theorem Settled.concat (h : g.Settled suspended) {s : Running Seat}
    (hseat : s.value.sitting.InProgress) (hawake : ¬suspended s.sessionId)
    (hnew : ∀ e ∈ g.archive.entries, e.1 ≠ s.sessionId) :
    ({ g with active := g.active ++ [s] } : Registry Seat).Settled suspended := by
  have hall : ∀ {p : Running Seat → Prop}, (∀ r ∈ g.active, p r) → p s →
      ∀ r ∈ g.active ++ [s], p r := by
    intro p hold hlast r hr
    rcases List.mem_append.mp hr with hr | hr
    · exact hold r hr
    · exact List.mem_singleton.mp hr ▸ hlast
  exact ⟨hall h.running hseat, hall h.awake hawake, hall h.apart hnew, h.archived⟩

end Registry

/-! ## The hall -/

namespace Hall

variable {suspended : String → Prop} {h g : Hall}

/-- After a turn at a seat, the session runs on or is retired. -/
theorem registry_settle (h : Hall) (id : String) (seat : Seat) (state : Sitting × Shelf)
    (actions : List Action) :
    (h.settle id seat state actions).registry =
      if state.1.isRunning then
        h.registry.update id { seat with sitting := state.1, lives := state.2 }
      else h.registry.retire id state.1.snapshot := by
  have hdone := ((still_draw h).trans (still_performed h.draw id actions)).registry
  unfold settle
  dsimp only
  rw [work_eq_toil, (still_toil ..).registry]
  split
  · rw [hdone]
  · exact congrArg (Registry.retire · id _) hdone

/-- The registry when a session was told something: the session runs on or is retired. -/
theorem registry_tell {r : Running Seat} (hr : h.registry.find? r.sessionId = some r)
    (x : Stimulus) :
    let t := (Turn.step (ledger r.value) (h.scene r.value) x).after (r.value.sitting, r.value.lives)
    (h.tell r.sessionId x).2.registry =
      if t.1.isRunning then
        h.registry.update r.sessionId { r.value with sitting := t.1, lives := t.2 }
      else h.registry.retire r.sessionId t.1.snapshot := by
  unfold tell
  rw [hr]
  exact registry_settle ..

theorem settled_tell (hs : h.registry.Settled suspended) (id : String) {x : Stimulus}
    (hx : x ≠ .shutdown) : (h.tell id x).2.registry.Settled suspended := by
  cases hfind : h.registry.find? id with
  | none =>
    rw [tell, hfind]
    exact hs
  | some r =>
    have hr := List.mem_of_find?_eq_some hfind
    obtain rfl := Registry.sessionId_of_find? hfind
    rw [registry_tell hfind]
    rcases (hs.running r hr).step (ledger r.value) (h.scene r.value) hx r.value.lives with
      ⟨hrun, hstep⟩ | ⟨hrun, hended⟩
    · rw [if_pos hrun]
      exact hs.update _ hstep
    · -- it stopped without a shutdown, so it has ended and is filed as such
      rw [if_neg (Bool.eq_false_iff.mp hrun)]
      refine hs.retire hr (fun _ _ => .rfl) (iff_of_false (fun hactive => ?_) (hs.awake r hr))
      cases hended.symm.trans hactive

/-- A shutdown comes to a session that runs, or was suspended before. -/
theorem settled_suspend (hs : h.registry.Settled suspended) {id : String}
    (hknown : (h.registry.find? id).isSome = true ∨ suspended id) :
    (h.tell id .shutdown).2.registry.Settled fun other => suspended other ∨ other = id := by
  cases hfind : h.registry.find? id with
  | none =>
    -- a session that does not run now was suspended before, so nobody new is
    rw [hfind] at hknown
    have hbefore : suspended id := hknown.resolve_left nofun
    have hsame : (fun other => suspended other ∨ other = id) = suspended := by
      funext other
      exact propext ⟨fun h => h.elim (fun h => h) fun hid => hid ▸ hbefore, .inl⟩
    rw [tell, hfind, hsame]
    exact hs
  | some r =>
    have hr := List.mem_of_find?_eq_some hfind
    obtain rfl := Registry.sessionId_of_find? hfind
    obtain ⟨hrun, hactive⟩ :=
      (hs.running r hr).suspended (ledger r.value) (h.scene r.value) r.value.lives
    rw [registry_tell hfind, if_neg (Bool.eq_false_iff.mp hrun)]
    refine hs.retire hr (fun other hother => ?_) (iff_of_true hactive (.inr rfl))
    exact ⟨fun h => h.resolve_right hother, .inl⟩

/-- Who else runs is not touched. -/
theorem isSome_find?_tell {id other : String} (hother : other ≠ id) (x : Stimulus) :
    ((h.tell id x).2.registry.find? other).isSome = (h.registry.find? other).isSome := by
  cases hfind : h.registry.find? id with
  | none => rw [tell, hfind]
  | some r =>
    obtain rfl := Registry.sessionId_of_find? hfind
    rw [registry_tell hfind]
    split
    · rw [Registry.find?_update_of_ne hother]
    · exact congrArg Option.isSome ((Registry.find?_release ..).trans (if_neg hother))

theorem settled_suspendAll (ids : List String) (hs : h.registry.Settled suspended)
    (hknown : ∀ id ∈ ids, (h.registry.find? id).isSome = true ∨ suspended id) :
    (ids.foldl (fun h id => (h.tell id .shutdown).2.jot
      [.debug ("Exam session " ++ id ++ " stopped")]) h).registry.Settled
        fun id => suspended id ∨ id ∈ ids := by
  -- the stop of one session leaves the others running, so each still runs when its turn comes
  induction ids generalizing h suspended with
  | nil =>
    have hsame : (fun id => suspended id ∨ id ∈ []) = suspended := by simp
    rw [hsame]
    exact hs
  | cons id ids ih =>
    have hrest := ih (h := (h.tell id .shutdown).2.jot
      [.debug ("Exam session " ++ id ++ " stopped")])
      (settled_suspend hs (hknown id List.mem_cons_self)) fun other hother => by
        by_cases hsame : other = id
        · exact .inr (.inr hsame)
        · refine (hknown other (List.mem_cons_of_mem _ hother)).imp (fun hrun => ?_) .inl
          exact (isSome_find?_tell hsame .shutdown).trans hrun
    have hsame : (fun other => (suspended other ∨ other = id) ∨ other ∈ ids) =
        fun other => suspended other ∨ other ∈ id :: ids := by
      funext other
      rw [List.mem_cons, or_assoc]
    exact hsame ▸ hrest

/-- **A shutdown suspends whatever runs.** -/
theorem settled_shutdown (hs : h.registry.Settled suspended) :
    h.shutdown.registry.Settled fun id => suspended id ∨ (h.registry.find? id).isSome = true := by
  have hruns : ∀ id, id ∈ h.registry.active.map Running.sessionId ↔
      (h.registry.find? id).isSome = true := by
    intro id
    simp [Registry.find?, List.find?_isSome]
  have hall := settled_suspendAll (h := h.jot [.info ("Stopping " ++
    Decimal.text (h.registry.active.map Running.sessionId).length ++ " running exam sessions")])
    (h.registry.active.map Running.sessionId) hs fun id hid => .inl ((hruns id).mp hid)
  simp only [hruns] at hall
  unfold shutdown
  dsimp only
  split
  · rename_i hempty
    rw [List.isEmpty_iff.mp hempty] at hall
    exact hall
  · exact hall

theorem settled_moveTick (hs : h.registry.Settled suspended) (id : String) :
    (h.moveTick id).registry.Settled suspended := by
  unfold moveTick
  split
  · exact hs
  · rename_i r hfind
    exact hs.update id (hs.running r (List.mem_of_find?_eq_some hfind))

theorem settled_advance (hs : h.registry.Settled suspended) (ms : Nat) :
    (h.advance ms).registry.Settled suspended := by
  refine advance_induction (P := fun g => g.registry.Settled suspended) (fun _ _ hg => hg)
    (fun g d hg => ?_) hs ms
  cases d with
  | tick id => exact settled_tell (settled_moveTick hg id) id nofun
  | grace id => exact settled_tell hg id nofun
  | errand id =>
    have hstill : (g.work id).registry = g.registry := by
      rw [work_eq_toil, (still_toil ..).registry]
    exact hstill ▸ hg

/-- The session runs no more, and what is kept of it has its exam in progress: it is archived as it
was when it was suspended, or it has left the archive and its record has not come to an end. -/
inductive Lapsed (suspended : String → Prop) (h : Hall) (id : String) : Prop
  | suspended {final : Snapshot} (gone : h.registry.find? id = none)
    (archived : h.registry.archive.find? id = some final) (was : suspended id)
  | stale {session : Session} (gone : h.registry.find? id = none)
    (absent : h.registry.archive.find? id = none)
    (recorded : h.courier.records.cabinet.session? id = .ok (some session))
    (active : session.isActive = true)

section Lapsed

variable {id : String}

theorem Lapsed.gone (hl : h.Lapsed suspended id) : h.registry.find? id = none := by
  cases hl with
  | suspended gone _ _ => exact gone
  | stale gone _ _ _ => exact gone

theorem lapsed_archived {final : Snapshot} (hgone : h.registry.find? id = none)
    (harchived : h.registry.archive.find? id = some final) :
    h.Lapsed suspended id ↔ suspended id := by
  constructor
  · intro hl
    cases hl with
    | suspended _ _ was => exact was
    | stale _ absent _ _ => cases harchived.symm.trans absent
  · exact .suspended hgone harchived

theorem lapsed_recorded {session : Session} (hgone : h.registry.find? id = none)
    (habsent : h.registry.archive.find? id = none)
    (hrecorded : h.courier.records.cabinet.session? id = .ok (some session)) :
    h.Lapsed suspended id ↔ session.isActive = true := by
  constructor
  · intro hl
    cases hl with
    | suspended _ archived _ => cases habsent.symm.trans archived
    | stale _ _ recorded active =>
      obtain rfl := Option.some.inj (Except.ok.inj (hrecorded.symm.trans recorded))
      exact active
  · exact .stale hgone habsent hrecorded

end Lapsed

/-- The id that the source gives next is not that of a session which was suspended or archived. -/
structure Fresh (suspended : String → Prop) (h : Hall) : Prop where
  awake : ¬suspended (h.source.sessionId h.drawn)
  apart : ∀ e ∈ h.registry.archive.entries, e.1 ≠ h.source.sessionId h.drawn

/-- What is owned was drawn before, so the next id is a new one. -/
theorem Kept.fresh {owns : String → String → Prop} {ids : Nat → String} (hk : h.Kept owns ids)
    (hinjective : Function.Injective ids)
    (howned : ∀ id, suspended id → ∃ userId, owns id userId) : h.Fresh suspended := by
  have hnew : ∀ userId, ¬owns (h.source.sessionId h.drawn) userId := by
    intro userId howns
    obtain ⟨n, hn, hid⟩ := hk.drawn _ _ howns
    rw [hk.source] at hid
    exact Nat.lt_irrefl _ (hinjective hid ▸ hn)
  refine ⟨fun hsuspended => ?_, fun e he hid => ?_⟩
  · obtain ⟨userId, howns⟩ := howned _ hsuspended
    exact hnew userId howns
  · exact hnew _ (hid ▸ hk.archived e he)

theorem settled_launch (hs : h.registry.Settled suspended) {seat : Seat}
    (hseat : seat.sitting.InProgress) (hawake : ¬suspended seat.sitting.session.id)
    (hapart : ∀ e ∈ h.registry.archive.entries, e.1 ≠ seat.sitting.session.id)
    (hlaunch : h.launch seat = .ok g) : g.registry.Settled suspended := by
  obtain rfl := eq_settle_of_launch hlaunch
  have hseated := hs.concat (s := ⟨seat.sitting.session.id, seat.sitting.session.userId, seat⟩)
    hseat hawake hapart
  rw [registry_settle, if_pos hseat.isRunning]
  exact hseated.update _ hseat

end Hall

/-! ## Calls -/

namespace Service

variable {σ : Type} {suspended : String → Prop} {owns : String → String → Prop}
  {ids : Nat → String} {s : Service σ}

theorem stable_settled (suspended : String → Prop) :
    Stable fun s : Service σ => s.hall.registry.Settled suspended where
  jot _ _ hs := hs
  draw _ hs := hs
  relays _ _ hs := hs
  tell _ id _ hx hs := Hall.settled_tell hs id hx
  advance _ ms hs := Hall.settled_advance hs ms
  contact _ _ _ hs := hs
  weather _ _ _ _ hs := hs

/-- A start adds a session that runs, or none. -/
theorem settled_begin (userId : String) (r : StartRequest)
    (hs : s.hall.registry.Settled suspended) (hfresh : s.hall.Fresh suspended) :
    ((begin userId r).run s).2.hall.registry.Settled suspended := by
  obtain ⟨notes, ⟨questions, hchosen⟩ | ⟨topic, available, hchosen⟩⟩ := chooseQuestions_cases r s
  · have hnew := Floor.isNew_newSeat s.config.exam (s.hall.jot notes) userId r.language questions
    rw [begin_eq, Call.run_bind, hchosen]
    dsimp only
    rcases seatWith_cases (fun settings h => newSeat settings h userId r.language questions) userId
        r questions { s with hall := s.hall.jot notes } with
      ⟨existing, -, hrun⟩ | ⟨hall, response, more, hlaunch, hrun, -⟩
    · rw [hrun]
      exact hs
    · rw [hrun]
      have hlaunched : hall.registry.Settled suspended :=
        Hall.settled_launch (h := (s.hall.jot notes).draw) hs
          ⟨hnew.coupled, hnew.awake, hnew.active⟩ (hnew.id_eq ▸ hfresh.awake)
          (hnew.id_eq ▸ hfresh.apart) hlaunch
      exact hlaunched
  · rw [begin_eq, Call.run_bind, hchosen]
    exact hs

/-- The start of a session, with the two questions that come first. -/
theorem settled_start (hinjective : Function.Injective ids) (hs : s.hall.registry.Settled suspended)
    (hk : s.hall.Kept owns ids) (howned : ∀ id, suspended id → ∃ userId, owns id userId)
    (userId : String) (r : StartRequest) :
    ((enrol userId r).run s).2.hall.registry.Settled suspended ∧
      ((start userId r).run s).2.hall.registry.Settled suspended := by
  have henrol : ((enrol userId r).run s).2.hall.registry.Settled suspended := by
    rw [enrol, Call.run_bind, run_checkEligible]
    cases s.hall.courier.records.gate.isEligible userId with
    | true => exact settled_begin userId r hs (hk.fresh hinjective howned)
    | false => exact hs
  refine ⟨henrol, ?_⟩
  rw [start, Call.run_bind, run_checkFree]
  cases s.hall.registry.sessionOf? userId with
  | none => exact henrol
  | some other => exact hs

/-- A submission for a session that does not run is answered with what is kept of it. -/
theorem run_submit_gone {id userId : String} (hgone : s.hall.registry.find? id = none) :
    (submit id userId).run s = (finished id userId).run s := by
  rw [submit, Call.run_bind, tell, Call.run_bind, run_isRunningFor_gone hgone]
  rfl

/-- What is found of a session that does not run is in the archive, or else on record. -/
theorem found_of_finished {id userId : String} {snapshot : Snapshot} {s' : Service σ}
    (hfinished : (finished id userId).run s = (.ok snapshot, s')) :
    s.hall.registry.archive.find? id = some snapshot ∨
      s.hall.registry.archive.find? id = none ∧
        s.hall.courier.records.cabinet.session? id = .ok (some snapshot.session) := by
  -- the archive and the records show a session to its owner only
  have howned : ∀ {final : Snapshot},
      ((if final.session.userId = userId then .ok final else .error .forbidden :
        Except Fault Snapshot), s) = (.ok snapshot, s') → final = snapshot := by
    intro final hsame
    split at hsame
    · exact Except.ok.inj (congrArg Prod.fst hsame)
    · cases hsame
  rw [Floor.run_finished] at hfinished
  cases harchived : s.hall.registry.archive.find? id with
  | some final =>
    rw [harchived] at hfinished
    exact .inl (congrArg some (howned hfinished))
  | none =>
    rw [harchived] at hfinished
    rcases run_recorded_cases s id with
      ⟨final, hrecorded, hsession⟩ | ⟨hrecorded, -⟩ | ⟨fault, hrecorded, -⟩
    · rw [hrecorded] at hfinished
      obtain rfl := howned hfinished
      exact .inr ⟨rfl, hsession⟩
    · rw [hrecorded] at hfinished
      cases hfinished
    · rw [hrecorded] at hfinished
      cases hfinished

/-- A running session answers a submission with a snapshot when it is handed in. -/
theorem over_of_submit_running (hs : s.hall.registry.Settled suspended) {r : Running Seat}
    {id userId : String} (hfind : s.hall.registry.find? id = some r) {snapshot : Snapshot}
    {s' : Service σ} (hsubmit : (submit id userId).run s = (.ok snapshot, s')) :
    snapshot.session.isActive = false := by
  have hrun := (hs.running r (List.mem_of_find?_eq_some hfind)).isRunning
  have hreply : (s.hall.tell id (.submit .user)).1 = some (.snapshot
      ((Turn.submit (s.hall.scene r.value) .user).value (r.value.sitting, r.value.lives))) := by
    unfold Hall.tell
    rw [hfind]
    exact congrArg some (Turn.value_step_running _ _ _ hrun)
  by_cases howner : r.userId = userId
  · have htold : (tell id userId (.submit .user)).run s =
        (.ok (s.hall.tell id (.submit .user)).1,
          { s with hall := (s.hall.tell id (.submit .user)).2 }) := by
      rw [tell, Call.run_bind, run_isRunningFor_owner hfind howner]
      rfl
    rw [submit, Call.run_bind, htold, hreply] at hsubmit
    dsimp only at hsubmit
    rw [Call.run_ofExcept] at hsubmit
    exact Turn.over_of_submit (congrArg Prod.fst hsubmit)
  · -- anybody but the owner is refused
    rw [submit, Call.run_bind, tell, Call.run_bind, run_isRunningFor_stranger hfind howner]
      at hsubmit
    cases hsubmit

end Service

/-! ## Runs -/

namespace House

variable {σ : Type} {ids : Nat → String} {house start : House σ}

theorem run_concat (ds : List (Demand σ)) (d : Demand σ) (house : House σ) :
    (run (ds ++ [d]) house).2 = ((run ds house).2.meet d).2 := by
  induction ds generalizing house with
  | nil => rfl
  | cons e ds ih => exact ih (house.meet e).2

theorem service_meet (house : House σ) (d : Demand σ) :
    (house.meet d).2.service = (d.call.run house.service).2 := rfl

/-- Who has started a session has started it for good. -/
theorem Started.meet {id userId : String} (h : house.Started id userId) (d : Demand σ) :
    (house.meet d).2.Started id userId := List.mem_append_right _ h

/-- The session ran when the service was shut down. -/
def Suspended (start : House σ) (ds : List (Demand σ)) (id : String) : Prop :=
  ∃ before later, ds = before ++ .shutdown :: later ∧
    ((run before start).2.service.hall.registry.find? id).isSome = true

/-- A shutdown suspends whatever runs, and nothing else does. -/
theorem suspended_concat (start : House σ) (ds : List (Demand σ)) (d : Demand σ) (id : String) :
    start.Suspended (ds ++ [d]) id ↔ start.Suspended ds id ∨
      d = .shutdown ∧ ((run ds start).2.service.hall.registry.find? id).isSome = true := by
  constructor
  · -- the last demand is the shutdown itself, or comes after it
    rintro ⟨before, later, hds, hran⟩
    rcases List.eq_nil_or_concat later with rfl | ⟨later, last, rfl⟩
    · obtain ⟨rfl, hd⟩ := List.append_inj' hds rfl
      exact .inr ⟨List.singleton_inj.mp hd, hran⟩
    · rw [List.concat_eq_append, ← List.cons_append, ← List.append_assoc] at hds
      exact .inl ⟨before, later, (List.append_inj' hds rfl).1, hran⟩
  · rintro (⟨before, later, rfl, hran⟩ | ⟨rfl, hran⟩)
    · exact ⟨before, later ++ [d], by simp, hran⟩
    · exact ⟨ds, [], rfl, hran⟩

/-- What a run keeps: what is archived was suspended or has ended, and what was suspended was
started. -/
structure Sorted (ids : Nat → String) (suspended : String → Prop) (house : House σ) : Prop where
  sound : house.Sound ids
  settled : house.service.hall.registry.Settled suspended
  begun : ∀ id, suspended id → ∃ userId, house.Started id userId

variable {suspended : String → Prop}

/-- Nothing but a shutdown suspends a session. -/
theorem Sorted.settled_meet (h : house.Sorted ids suspended) (hinjective : Function.Injective ids)
    {d : Demand σ} (hd : d ≠ .shutdown) :
    (house.meet d).2.service.hall.registry.Settled suspended := by
  have hstable : Service.Stable fun s : Service σ => s.hall.registry.Settled suspended :=
    Service.stable_settled suspended
  rw [service_meet]
  cases d with
  | start userId request =>
    rw [Demand.call, Call.after_return]
    exact (Service.settled_start hinjective h.settled h.sound.kept h.begun userId request).2
  | enrol userId request =>
    rw [Demand.call, Call.after_return]
    exact (Service.settled_start hinjective h.settled h.sound.kept h.begun userId request).1
  | approve userId approver =>
    rw [Demand.call, Call.after_return]
    exact Service.preserves_approve hstable (fun _ hs => hs) _ h.settled
  | resetLives userId administrator =>
    rw [Demand.call, Call.after_return]
    exact Service.preserves_resetLives hstable administrator (fun _ hs => hs) _ h.settled
  | practice lives livesTime pingDelay => exact h.settled
  | shutdown => exact absurd rfl hd
  | _ => exact Demand.preserves_of_isOrdinary hstable rfl _ h.settled

/-- **Whatever is demanded, sessions are archived for one of two reasons.** -/
theorem Sorted.meet (h : house.Sorted ids suspended) (hinjective : Function.Injective ids)
    (d : Demand σ) :
    (house.meet d).2.Sorted ids fun id => suspended id ∨
      d = .shutdown ∧ (house.service.hall.registry.find? id).isSome = true := by
  have hbegun : ∀ id, (suspended id ∨
      d = .shutdown ∧ (house.service.hall.registry.find? id).isSome = true) →
      ∃ userId, (house.meet d).2.Started id userId := by
    rintro id (hsuspended | ⟨-, hruns⟩)
    · obtain ⟨userId, hstarted⟩ := h.begun id hsuspended
      exact ⟨userId, hstarted.meet d⟩
    · obtain ⟨r, hfind⟩ := Option.isSome_iff_exists.mp hruns
      have hstarted := (h.sound.kept.running r (List.mem_of_find?_eq_some hfind)).holder
      rw [Registry.sessionId_of_find? hfind] at hstarted
      exact ⟨r.userId, Started.meet hstarted d⟩
  refine ⟨h.sound.meet d, ?_, hbegun⟩
  by_cases hd : d = .shutdown
  · subst hd
    simp only [true_and]
    exact Hall.settled_shutdown h.settled
  · -- only a shutdown suspends
    have hsame : (fun id => suspended id ∨
        d = .shutdown ∧ (house.service.hall.registry.find? id).isSome = true) = suspended := by
      simp [hd]
    rw [hsame]
    exact h.settled_meet hinjective hd

/-- In every run, what is archived was suspended or has ended. -/
theorem sorted_run (hstart : start.Sorted ids fun _ => False) (hinjective : Function.Injective ids)
    (ds : List (Demand σ)) : (run ds start).2.Sorted ids (start.Suspended ds) := by
  induction ds using List.reverseRecOn with
  | nil =>
    have hnone : start.Suspended [] = fun _ => False := by
      funext id
      simp [Suspended]
    rw [hnone]
    exact hstart
  | append_singleton ds d ih =>
    have hmeet := ih.meet hinjective d
    rw [run_concat]
    simp only [← suspended_concat] at hmeet
    exact hmeet

theorem sorted_opened (config : Config) (catalog : Catalog) (practice : PracticeStore σ) (lives : σ)
    (time : Stamp) (source : Source) :
    (opened (.new config catalog practice lives time source)).Sorted source.sessionId
      fun _ => False where
  sound := sound_opened config catalog practice lives time source
  settled := Registry.settled_new _ _
  begun _ hnone := hnone.elim

/-! ## Submissions -/

variable {id userId : String}

/-- What was suspended runs no more. -/
theorem Sorted.gone (h : house.Sorted ids suspended) (hsuspended : suspended id) :
    house.service.hall.registry.find? id = none := by
  cases hfind : house.service.hall.registry.find? id with
  | none => rfl
  | some r =>
    obtain rfl := Registry.sessionId_of_find? hfind
    exact absurd hsuspended (h.settled.awake r (List.mem_of_find?_eq_some hfind))

/-- What a submission shows of a session, wherever it is, is over or of a session that lapsed. -/
theorem Sorted.over_iff (h : house.Sorted ids suspended) {snapshot : Snapshot} {service : Service σ}
    (hsubmit : (Service.submit id userId).run house.service = (.ok snapshot, service)) :
    snapshot.session.isActive = false ↔ ¬house.service.hall.Lapsed suspended id := by
  cases hfind : house.service.hall.registry.find? id with
  | some r =>
    have hover := Service.over_of_submit_running h.settled hfind hsubmit
    exact iff_of_true hover fun hlapsed => nomatch hfind.symm.trans hlapsed.gone
  | none =>
    rw [← Bool.not_eq_true]
    refine not_congr ?_
    rw [Service.run_submit_gone hfind] at hsubmit
    rcases Service.found_of_finished hsubmit with harchived | ⟨habsent, hrecorded⟩
    · have hkept := h.settled.archived (id, snapshot) (Archive.mem_of_find? harchived)
      exact hkept.trans (Hall.lapsed_archived hfind harchived).symm
    · exact (Hall.lapsed_recorded hfind habsent hrecorded).symm

/-- The owner of a session that was suspended is shown it as it is archived. -/
theorem Sorted.submit_suspended (h : house.Sorted ids suspended)
    (hinjective : Function.Injective ids) (hsuspended : suspended id)
    (howner : house.Started id userId) {final : Snapshot}
    (harchived : house.service.hall.registry.archive.find? id = some final) :
    (Service.submit id userId).run house.service = (.ok final, house.service) ∧
      final.session.isActive = true := by
  have hentry := Archive.mem_of_find? harchived
  have huser : final.session.userId = userId :=
    congrArg Prod.snd (List.inj_on_of_nodup_map (h.sound.distinct hinjective)
      (h.sound.kept.archived (id, final) hentry) howner rfl)
  refine ⟨?_, (h.settled.archived (id, final) hentry).mpr hsuspended⟩
  rw [Service.run_submit_gone (h.gone hsuspended), Floor.run_finished, harchived]
  dsimp only
  rw [if_pos huser]

/-- **A submission that succeeds shows an exam that is over, unless the session has lapsed**: was
suspended by a shutdown, or is on record as in progress. As long as the archive has a session that
was suspended, its owner's submission does succeed, and shows the exam in progress. -/
theorem submit_isTerminal_iff (config : Config) (catalog : Catalog) (practice : PracticeStore σ)
    (lives : σ) (time : Stamp) (source : Source) (hfresh : Function.Injective source.sessionId)
    (ds : List (Demand σ)) (id userId : String) :
    let start : House σ := opened (.new config catalog practice lives time source)
    let final := (run ds start).2
    (∀ snapshot service,
      (Service.submit id userId).run final.service = (.ok snapshot, service) →
        (snapshot.session.status.isTerminal = true ↔
          ¬final.service.hall.Lapsed (start.Suspended ds) id)) ∧
    (start.Suspended ds id → final.Started id userId →
      (final.service.hall.registry.archive.find? id).isSome = true →
        ∃ snapshot, (Service.submit id userId).run final.service = (.ok snapshot, final.service) ∧
          snapshot.session.status = .inProgress) := by
  intro start final
  have hsorted : final.Sorted source.sessionId (start.Suspended ds) :=
    sorted_run (sorted_opened config catalog practice lives time source) hfresh ds
  refine ⟨fun snapshot service hsubmit => ?_, fun hsuspended howner harchived => ?_⟩
  · exact (Session.isTerminal_iff _).trans (hsorted.over_iff hsubmit)
  · obtain ⟨snapshot, hfind⟩ := Option.isSome_iff_exists.mp harchived
    obtain ⟨hrun, hactive⟩ := hsorted.submit_suspended hfresh hsuspended howner hfind
    exact ⟨snapshot, hrun, by simpa [Session.isActive] using hactive⟩

/-- The status of the exam that a submission shows, if it succeeds. -/
def handedIn? (house : House σ) (id userId : String) : Option Status :=
  match ((Service.submit id userId).run house.service).1 with
  | .ok snapshot => some snapshot.session.status
  | .error _ => none

theorem exists_of_handedIn? {status : Status} (h : house.handedIn? id userId = some status) :
    ∃ snapshot service, (Service.submit id userId).run house.service = (.ok snapshot, service) ∧
      snapshot.session.status = status := by
  unfold handedIn? at h
  split at h
  · rename_i snapshot hok
    exact ⟨snapshot, _, Prod.ext hok rfl, Option.some.inj h⟩
  · cases h

/-- Exams may be handed in at once. -/
def lenientConfig : Config :=
  { (default : Config) with exam := { Settings.standard with submitUnlockSeconds := 0 } }

/-- A service with exams that may be handed in at once, and ids that get longer and longer. -/
def lenient : House Shelf :=
  opened (.new lenientConfig threeQuestions .inMemory .empty default Floor.growing)

theorem submit_isTerminal_iff_lenient :
    let id := Floor.growing.sessionId 0
    let started : List (Demand Shelf) := [.start "ada" ⟨.python, none⟩]
    let shut : List (Demand Shelf) := [.start "ada" ⟨.python, none⟩, .shutdown]
    Function.Injective Floor.growing.sessionId ∧
      (∃ snapshot service,
        (Service.submit id "ada").run (run started lenient).2.service = (.ok snapshot, service) ∧
          snapshot.session.status.isTerminal = true ∧
          ¬(run started lenient).2.service.hall.Lapsed (lenient.Suspended started) id) ∧
      ∃ snapshot, (Service.submit id "ada").run (run shut lenient).2.service =
          (.ok snapshot, (run shut lenient).2.service) ∧
        snapshot.session.status = .inProgress := by
  intro id started shut
  have hlenient := fun ds => submit_isTerminal_iff lenientConfig threeQuestions .inMemory .empty
    default Floor.growing Floor.injective_growing ds id "ada"
  refine ⟨Floor.injective_growing, ?_, ?_⟩
  · have hcompleted : (run started lenient).2.handedIn? id "ada" = some .completed := by
      decide +kernel
    obtain ⟨snapshot, service, hsubmit, hstatus⟩ := exists_of_handedIn? hcompleted
    have hterminal : snapshot.session.status.isTerminal = true := by rw [hstatus]; rfl
    have hnot := ((hlenient started).1 snapshot service hsubmit).mp hterminal
    exact ⟨snapshot, service, hsubmit, hterminal, hnot⟩
  · have hsuspended : lenient.Suspended shut id := ⟨started, [], rfl, by decide +kernel⟩
    have hstarters : (run shut lenient).2.starters = [(id, "ada")] := by decide +kernel
    have howner : (run shut lenient).2.Started id "ada" := by
      rw [Started, hstarters]
      exact List.mem_singleton_self _
    have harchived : ((run shut lenient).2.service.hall.registry.archive.find? id).isSome =
        true := by decide +kernel
    exact (hlenient shut).2 hsuspended howner harchived

/-- A submission after a shutdown succeeds, and shows an exam in progress. -/
theorem submit_not_isTerminal_shutdown :
    let id := Floor.growing.sessionId 0
    let final := (run [.start "ada" ⟨.python, none⟩, .shutdown] lenient).2
    ¬∀ snapshot service, (Service.submit id "ada").run final.service = (.ok snapshot, service) →
      snapshot.session.status.isTerminal = true := by
  intro id final hclaim
  have hopen : final.handedIn? id "ada" = some .inProgress := by decide +kernel
  obtain ⟨snapshot, service, hsubmit, hstatus⟩ := exists_of_handedIn? hopen
  have hterminal := hclaim snapshot service hsubmit
  rw [hstatus] at hterminal
  cases hterminal

end House

end Invigilator
