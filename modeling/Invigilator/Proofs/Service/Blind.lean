import Invigilator.Proofs.Exam.Veil
import Invigilator.Proofs.Service.Seat
import Invigilator.Service.Health
import Invigilator.Service.Practice

/-!
# Calls that do not see hidden test cases

A service keeps its questions in the catalog and nowhere else, so to veil a service is to veil
its catalog. A call is blind when it gives the same result on the veiled service and leaves the
veiled state behind. Calls are built from blind pieces; the few that look at the catalog are
blind because of what they look at: levels, ids, views and starter code.
-/

namespace Invigilator

variable {σ α β : Type}

/-- The service with its catalog veiled. -/
def Service.veiled (s : Service σ) : Service σ := { s with catalog := s.catalog.veiled }

namespace Call

/-- The call does not see through the veil. -/
def Blind (c : Call σ α) : Prop :=
  ∀ s : Service σ, c.run s.veiled = ((c.run s).1, (c.run s).2.veiled)

/-! ## Pieces of calls -/

theorem blind_pure (x : α) : (pure x : Call σ α).Blind := fun _ => rfl

theorem blind_fail (fault : Fault) : (fail fault : Call σ α).Blind := fun _ => rfl

theorem blind_changeHall (f : Hall → Hall) : (changeHall f : Call σ Unit).Blind := fun _ => rfl

theorem blind_jot (notes : List Note) : (jot notes : Call σ Unit).Blind := blind_changeHall _

theorem blind_askHall (f : Hall → α × Hall) : (askHall f : Call σ α).Blind := fun _ => rfl

theorem blind_ofExcept (result : Except Fault α) : (ofExcept result : Call σ α).Blind := by
  cases result with
  | ok x => exact blind_pure x
  | error fault => exact blind_fail fault

theorem blind_ofBackend (result : Except BackendFault α) :
    (ofBackend result : Call σ α).Blind := by
  cases result with
  | ok x => exact blind_pure x
  | error fault => exact blind_fail (.backend fault)

theorem blind_onLives (a : Attempt σ α) : (onLives a).Blind := by
  intro s
  have hlives : s.veiled.lives = s.lives := rfl
  simp only [run, onLives, hlives]
  split <;> rfl

theorem blind_bind {c : Call σ α} {f : α → Call σ β} (hc : c.Blind) (hf : ∀ x, (f x).Blind) :
    (c >>= f).Blind := by
  intro s
  rw [run_bind, run_bind, hc s]
  match c.run s with
  | (.error fault, s') => rfl
  | (.ok x, s') => exact hf x s'

theorem blind_return {c : Call σ α} {f : α → β} (hc : c.Blind) :
    (do return f (← c) : Call σ β).Blind :=
  blind_bind hc fun x => blind_pure (f x)

/-- A call that goes on from what it sees of the service is blind if it sees the same through the
veil. -/
theorem blind_service {f : Service σ → Call σ α} (hf : ∀ s, (f s).Blind)
    (hsame : ∀ s : Service σ, f s.veiled = f s) : (service >>= f).Blind := by
  intro s
  change (f s.veiled).run s.veiled = (((f s).run s).1, ((f s).run s).2.veiled)
  rw [hsame]
  exact hf s s

end Call

namespace Service

open Call

/-! ## Exams -/

theorem blind_checkFree (userId : String) : (checkFree userId : Call σ Unit).Blind := by
  refine blind_service (fun s => ?_) fun _ => rfl
  split
  · exact blind_fail _
  · exact blind_pure ()

theorem blind_checkEligible (userId : String) : (checkEligible userId : Call σ Unit).Blind := by
  refine blind_service (fun s => ?_) fun _ => rfl
  split
  · exact blind_pure ()
  · exact blind_bind (blind_jot _) fun _ => blind_fail _

theorem levelCount_veiled (pool : List Question) (d : Difficulty) :
    levelCount (pool.map Question.veiled) d = levelCount pool d := by
  rw [levelCount, Selection.atLevel_veiled, List.length_map, levelCount]

theorem samplingNotes_veiled (pool : List Question) :
    samplingNotes (pool.map Question.veiled) = samplingNotes pool := by
  rw [samplingNotes, List.length_map, Selection.hasAllLevels_veiled, levelCount_veiled,
    levelCount_veiled, levelCount_veiled, samplingNotes]

/-- The questions of an exam are chosen alike, and come veiled from a veiled service. -/
theorem chooseQuestions_veiled (r : StartRequest) (s : Service σ) :
    (chooseQuestions r).run s.veiled =
      (((chooseQuestions r).run s).1.map (Trio.map Question.veiled),
        ((chooseQuestions r).run s).2.veiled) := by
  have hpool : s.veiled.catalog.pool r.language r.wantedTopic =
      (s.catalog.pool r.language r.wantedTopic).map Question.veiled := Catalog.pool_veiled ..
  have hhall : s.veiled.hall = s.hall := rfl
  rw [run_chooseQuestions, run_chooseQuestions, hpool, hhall, samplingNotes_veiled,
    Selection.choose?_veiled, List.length_map]
  cases Selection.choose? (s.catalog.pool r.language r.wantedTopic)
      (s.hall.source.questions s.hall.drawn) <;> rfl

/-- A seat is made of what the questions show. -/
theorem newSeat_veiled (settings : Settings) (h : Hall) (userId : String) (language : Language)
    (questions : Trio Question) :
    newSeat settings h userId language (questions.map Question.veiled) =
      newSeat settings h userId language questions := rfl

theorem blind_begin (userId : String) (r : StartRequest) :
    (begin userId r : Call σ StartResponse).Blind := by
  intro s
  simp only [begin]
  rw [run_bind, run_bind, chooseQuestions_veiled]
  match (chooseQuestions r).run s with
  | (.error fault, s') => rfl
  | (.ok questions, s') =>
    simp only [Except.map, newSeat_veiled, Trio.toList_map, List.map_map, Function.comp_def,
      Question.veiled_id, Question.view_veiled]
    -- what follows the choice does not look at the catalog
    refine blind_service (fun s => ?_) (fun _ => rfl) s'
    split
    · exact blind_fail _
    · exact blind_bind (blind_changeHall _) fun _ => blind_return (blind_jot _)

theorem blind_enrol (userId : String) (r : StartRequest) :
    (enrol userId r : Call σ StartResponse).Blind :=
  blind_bind (blind_checkEligible userId) fun _ => blind_begin userId r

theorem blind_start (userId : String) (r : StartRequest) :
    (start userId r : Call σ StartResponse).Blind :=
  blind_bind (blind_checkFree userId) fun _ => blind_enrol userId r

/-! ## Sessions -/

theorem blind_isRunningFor (id userId : String) : (isRunningFor id userId : Call σ Bool).Blind := by
  refine blind_service (fun s => ?_) fun _ => rfl
  split
  · exact blind_pure false
  · split
    · exact blind_pure true
    · exact blind_fail _

theorem blind_recorded (id : String) : (recorded id : Call σ Snapshot).Blind := by
  refine blind_service (fun s => blind_bind (blind_ofBackend _) fun session => ?_) fun _ => rfl
  cases session with
  | none => exact blind_fail _
  | some session =>
    exact blind_bind (blind_ofBackend _) fun _ => blind_return (blind_ofBackend _)

theorem blind_finished (id userId : String) : (finished id userId : Call σ Snapshot).Blind := by
  have howned : ∀ snapshot : Snapshot,
      (if snapshot.session.userId = userId then pure snapshot else fail .forbidden :
        Call σ Snapshot).Blind := by
    intro snapshot
    split
    · exact blind_pure _
    · exact blind_fail _
  refine blind_service (fun s => ?_) fun _ => rfl
  split
  · exact blind_bind (blind_pure _) howned
  · exact blind_bind (blind_recorded id) howned

theorem blind_tell (id userId : String) (stimulus : Stimulus) :
    (tell id userId stimulus : Call σ (Option Reply)).Blind := by
  refine blind_bind (blind_isRunningFor id userId) fun running => ?_
  split
  · exact blind_askHall _
  · exact blind_pure none

theorem blind_snapshot (id userId : String) : (snapshot id userId : Call σ Snapshot).Blind := by
  refine blind_bind (blind_tell id userId .look) fun reply => ?_
  split
  · exact blind_ofExcept _
  · exact blind_finished id userId

theorem blind_submit (id userId : String) : (submit id userId : Call σ Snapshot).Blind := by
  refine blind_bind (blind_tell id userId (.submit .user)) fun reply => ?_
  split
  · exact blind_ofExcept _
  · exact blind_finished id userId

theorem blind_score (id userId : String) : (score id userId : Call σ Score).Blind :=
  blind_return (blind_snapshot id userId)

/-- The questions of a session are looked up by id, and what is shown of them is their view. -/
theorem blind_questions (snapshot : Snapshot) :
    (questions snapshot : Call σ (List QuestionView)).Blind := by
  refine blind_service (fun _ => blind_pure _) fun s => ?_
  have hbyIds : s.veiled.catalog.byIds snapshot.session.language
        snapshot.session.questionIds.toList =
      (s.catalog.byIds snapshot.session.language snapshot.session.questionIds.toList).map
        Question.veiled := Catalog.byIds_veiled ..
  rw [hbyIds, List.map_map]
  simp only [Function.comp_def, Question.view_veiled]

theorem blind_change (id userId : String) (stimulus : Stimulus) :
    (change id userId stimulus : Call σ Answer).Blind := by
  refine blind_bind (blind_tell id userId stimulus) fun reply => ?_
  split
  · exact blind_ofExcept _
  · exact blind_fail _
  · exact blind_bind (blind_finished id userId) fun _ => blind_fail _

theorem blind_signal (id userId : String) (signal : Signal) :
    (Service.signal id userId signal : Call σ SignalOutcome).Blind := by
  refine blind_bind (blind_tell id userId (.signal signal)) fun reply => ?_
  split
  · exact blind_pure _
  · exact blind_bind (blind_finished id userId) fun _ => blind_return (blind_jot _)

theorem blind_subscribe (id userId : String) (eager : Bool) :
    (subscribe id userId eager : Call σ Nat).Blind := by
  refine blind_bind (blind_isRunningFor id userId) fun running => ?_
  split
  · exact blind_bind (blind_askHall _) fun _ => blind_return (blind_jot _)
  · exact blind_bind (blind_finished id userId) fun _ => blind_fail _

/-! ## Administrators, practice lives and health -/

theorem blind_latest (limit : Int) : (latest limit : Call σ SessionList).Blind :=
  blind_service (fun _ => blind_return (blind_ofBackend _)) fun _ => rfl

theorem blind_blocked : (blocked : Call σ (List EligibilityRecord)).Blind :=
  blind_service (fun _ => blind_pure _) fun _ => rfl

theorem blind_approve (userId approver : String) :
    (approve userId approver : Call σ Bool).Blind := by
  refine blind_bind (blind_askHall _) fun approved => ?_
  split
  · exact blind_return (blind_jot _)
  · exact blind_return (blind_jot _)

theorem blind_livesReport (bucket : Bucket) : (livesReport bucket : Call σ LivesReport).Blind :=
  blind_service
    (fun _ => blind_bind (blind_onLives _) fun _ => blind_return (blind_onLives _))
    fun _ => rfl

theorem blind_loseLife (bucket : Bucket) : (loseLife bucket : Call σ LivesReport).Blind :=
  blind_service
    (fun _ => blind_bind (blind_onLives _) fun _ => blind_livesReport bucket) fun _ => rfl

theorem blind_resetLives (userId administrator : String) :
    (resetLives userId administrator : Call σ LivesReport).Blind :=
  blind_service
    (fun _ => blind_bind (blind_onLives _) fun _ => blind_bind (blind_jot _) fun _ =>
      blind_livesReport _)
    fun _ => rfl

theorem blind_recordsPulse : (recordsPulse : Call σ Pulse).Blind := by
  refine blind_service (fun s => ?_) fun _ => rfl
  split <;> exact blind_pure _

theorem blind_livesPulse : (livesPulse : Call σ Pulse).Blind := by
  intro s
  have hdelay : s.veiled.pingDelay = s.pingDelay := rfl
  have hping : s.veiled.practice.ping.run s.veiled.lives = s.practice.ping.run s.lives := rfl
  simp only [Call.run, livesPulse, hdelay, hping]
  split
  · rfl
  · split <;> rfl

theorem blind_health : (health : Call σ Health).Blind :=
  blind_bind blind_recordsPulse fun _ => blind_bind blind_livesPulse fun _ =>
    blind_service (fun _ => blind_pure _) fun _ => rfl

end Service

end Invigilator
