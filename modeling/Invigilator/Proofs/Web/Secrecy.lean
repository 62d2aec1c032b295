import Invigilator.Digest.Sha256
import Invigilator.Proofs.Service.Blind
import Invigilator.Service.Startup
import Invigilator.Web.Race

/-!
# Hidden test cases stay hidden

Every answer to a request is blind, and so is everything else that can happen to a service. Two
services that differ in the contents of hidden test cases, if at all, are one service once they
are veiled. So whatever happens to both, they answer the same, publish the same and write the
same: what is published, read and attempted is all kept in the hall.
-/

namespace Invigilator.Web

open Call

variable {σ α : Type}

/-! ## Requests -/

theorem blind_readBody (read : Json → Option α) (complain : String → Option Json.Complaint)
    (r : Request) : (readBody read complain r : Call σ α).Blind := by
  unfold readBody
  split
  · exact blind_pure _
  · exact blind_bind (blind_jot _) fun _ => blind_fail _

theorem blind_check (excess : Option String) : (check excess : Call σ Unit).Blind := by
  cases excess with
  | none => exact blind_pure ()
  | some details => exact blind_fail _

theorem blind_authenticate (mac : Mac) (r : Request) :
    (authenticate mac r : Call σ Claims).Blind := by
  unfold authenticate
  split
  · exact blind_fail _
  · refine blind_service (fun s => ?_) fun _ => rfl
    split
    · exact blind_bind (blind_jot _) fun _ => blind_fail _
    · exact blind_return (blind_jot _)

theorem blind_recognize (mac : Mac) (r : Request) :
    (recognize mac r : Call σ (Option Claims)).Blind := by
  unfold recognize
  split
  · exact blind_pure none
  · refine blind_service (fun s => ?_) fun _ => rfl
    split
    · exact blind_return (blind_jot _)
    · exact blind_pure _

theorem blind_authenticateAdministrator (mac : Mac) (r : Request) :
    (authenticateAdministrator mac r : Call σ Claims).Blind := by
  refine blind_bind (blind_authenticate mac r) fun claims => ?_
  split
  · exact blind_pure _
  · exact blind_bind (blind_jot _) fun _ => blind_fail _

theorem blind_letIn (mac : Mac) (r : Request) (guard : Guard) :
    (letIn mac r guard : Call σ Pass).Blind := by
  cases guard with
  | everyone => exact blind_pure _
  | operator => exact blind_pure _
  | anyone => exact blind_return (blind_recognize mac r)
  | user => exact blind_return (blind_authenticate mac r)
  | administrator =>
    exact blind_return (blind_authenticateAdministrator mac r)

theorem blind_withValues {values : Except PathFault α} {answer : α → Call σ Response}
    (h : ∀ values, (answer values).Blind) : (withValues values answer).Blind := by
  cases values with
  | ok values => exact h values
  | error fault => exact blind_pure _

theorem blind_readStart (r : Request) : (readStart r : Call σ StartRequest).Blind :=
  blind_bind (blind_readBody _ _ r) fun _ => blind_return (blind_check _)

/-- Every route answers blindly, whoever asks. -/
theorem blind_dispatch (r : Request) (caller : Option Claims) (route : Route) :
    (dispatch r caller route : Call σ Response).Blind := by
  cases route with
  | health => exact blind_return Service.blind_health
  | metrics => exact blind_service (fun _ => blind_pure _) fun _ => rfl
  | start =>
    exact blind_bind (blind_readStart r) fun start =>
      blind_return (Service.blind_start _ start)
  | exam id =>
    exact blind_withValues fun id => blind_bind (Service.blind_snapshot id _) fun snapshot =>
      blind_return (Service.blind_questions snapshot)
  | answer id index =>
    exact blind_withValues fun _ => blind_bind (blind_readBody _ _ r) fun update =>
      blind_bind (blind_check _) fun _ => blind_return (Service.blind_change _ _ _)
  | run id index =>
    exact blind_withValues fun _ => blind_bind (blind_readBody _ _ r) fun _ =>
      blind_return (Service.blind_change _ _ _)
  | signals id =>
    exact blind_withValues fun id => blind_bind (blind_readBody _ _ r) fun signal =>
      blind_return (Service.blind_signal id _ signal)
  | submit id =>
    exact blind_withValues fun id => blind_return (Service.blind_submit id _)
  | score id =>
    exact blind_withValues fun id => blind_return (Service.blind_score id _)
  | stream id =>
    exact blind_withValues fun id => blind_return (Service.blind_subscribe id _ false)
  | lives => exact blind_return (Service.blind_livesReport _)
  | loseLife => exact blind_return (Service.blind_loseLife _)
  | sessions =>
    unfold dispatch
    dsimp only
    split
    · exact blind_pure _
    · exact blind_return (Service.blind_latest _)
  | blocked => exact blind_return Service.blind_blocked
  | approve id =>
    exact blind_withValues fun id => blind_return (Service.blind_approve id _)
  | resetLives id =>
    exact blind_withValues fun id => blind_return (Service.blind_resetLives id _)

theorem blind_serve (mac : Mac) (r : Request) (route : Route) :
    (serve mac r route : Call σ Response).Blind := by
  refine blind_bind (blind_letIn mac r route.guard) fun pass => ?_
  cases pass with
  | refused => exact blind_pure _
  | caller caller =>
    dsimp only
    split
    · exact blind_dispatch r caller route
    · exact blind_pure _

/-! ## Responses -/

theorem finish_veiled {call : Call σ Response} (h : call.Blind) (s : Service σ) :
    finish call s.veiled = ((finish call s).1, (finish call s).2.veiled) := by
  rw [finish, finish, h s]
  match call.run s with
  | (.ok _, _) | (.error _, _) => rfl

theorem dropBody_veiled (response : Response) (s : Service σ) :
    dropBody response s.veiled = ((dropBody response s).1, (dropBody response s).2.veiled) := by
  unfold dropBody
  cases response.body <;> rfl

theorem route_veiled (mac : Mac) (r : Request) (s : Service σ) :
    route mac r s.veiled = ((route mac r s).1, (route mac r s).2.veiled) := by
  unfold route
  split
  · split <;> rfl
  · split
    · rfl
    · rw [finish_veiled (blind_serve mac r _)]
      dsimp only
      split
      · rw [dropBody_veiled]
      · rfl

theorem receive_veiled (s : Service σ) : receive s.veiled = (receive s).veiled := rfl

theorem respond_veiled (mac : Mac) (r : Request) (s : Service σ) :
    respond mac r s.veiled = ((respond mac r s).1, (respond mac r s).2.veiled) := by
  unfold respond
  rw [receive_veiled, route_veiled]
  rfl

/-! ## Races -/

namespace Race

/-- The race with its service veiled. -/
def veiled (race : Race σ) : Race σ := { race with service := race.service.veiled }

theorem blind_enter (mac : Mac) (r : Request) :
    (enter mac r : Call σ (String × StartRequest)).Blind := by
  refine blind_bind (blind_letIn mac r _) fun pass => ?_
  cases pass with
  | refused => exact blind_fail _
  | caller caller =>
    exact blind_bind (blind_readStart r) fun _ => blind_return (Service.blind_checkFree _)

theorem arrive_veiled (mac : Mac) (r : Request) (race : Race σ) (place : Nat) :
    arrive mac r race.veiled place = (arrive mac r race place).veiled := by
  unfold arrive
  have hentered : (enter mac r).run (receive race.veiled.service) =
      (((enter mac r).run (receive race.service)).1,
        ((enter mac r).run (receive race.service)).2.veiled) :=
    blind_enter mac r (receive race.service)
  rw [hentered]
  match (enter mac r).run (receive race.service) with
  | (.error fault, s) => rfl
  | (.ok (userId, start), s) => rfl

theorem reply_veiled (r : Request) (race : Race σ) (place : Nat) (response : Response)
    (s : Service σ) :
    race.veiled.reply r place response s.veiled = (race.reply r place response s).veiled := rfl

theorem resolve_veiled (r : Request) (race : Race σ) (w : Waiting) :
    resolve r race.veiled w = (resolve r race w).veiled := by
  have henrolled : (do pure (started (← Service.enrol w.userId w.start)) :
      Call σ Response).Blind :=
    blind_return (Service.blind_enrol w.userId w.start)
  have hadvanced : ({ race.veiled.service with
        hall := race.veiled.service.hall.advance (w.due - race.veiled.service.hall.now) } :
        Service σ) =
      Service.veiled { race.service with
        hall := race.service.hall.advance (w.due - race.service.hall.now) } := rfl
  simp only [resolve, hadvanced, finish_veiled henrolled, reply_veiled]

theorem foldl_veiled {β : Type} {f : Race σ → β → Race σ}
    (h : ∀ race b, f race.veiled b = (f race b).veiled) (bs : List β) (race : Race σ) :
    bs.foldl f race.veiled = (bs.foldl f race).veiled := by
  induction bs generalizing race with
  | nil => rfl
  | cons b bs ih => rw [List.foldl_cons, h, ih, List.foldl_cons]

theorem run_veiled (mac : Mac) (r : Request) (delays : List Nat) (s : Service σ) :
    run mac r delays s.veiled =
      ((run mac r delays s).1, (run mac r delays s).2.veiled) := by
  let race : Race σ := ⟨s, [], [], delays⟩
  let arrived := (List.range delays.length).foldl (arrive mac r) race
  have harrived : (List.range delays.length).foldl (arrive mac r) race.veiled = arrived.veiled :=
    foldl_veiled (arrive_veiled mac r) _ race
  have hresolved : ∀ waiting : List Waiting,
      waiting.foldl (resolve r) arrived.veiled = (waiting.foldl (resolve r) arrived).veiled :=
    fun waiting => foldl_veiled (resolve_veiled r) waiting arrived
  unfold run
  dsimp only
  change _ = ((((arrived.waiting.mergeSort _).foldl (resolve r) arrived).answered.mergeSort _).map
    Prod.snd, ((arrived.waiting.mergeSort _).foldl (resolve r) arrived).service.veiled)
  rw [show (⟨s.veiled, [], [], delays⟩ : Race σ) = race.veiled from rfl, harrived, hresolved]
  rfl

end Race

/-! ## Runs -/

/-- Something that happens to a service. -/
inductive Happening (σ : Type) where
  /-- A request comes in. -/
  | request (r : Request)
  /-- As many starts as there are delays come in at the same time. -/
  | race (r : Request) (delays : List Nat)
  /-- A subscriber takes the events that were read for it. -/
  | collect (subscription : Nat)
  /-- What no request brings about. Time passes, subscribers read or go, the service is shut down,
  stores fail and come back: whatever can become of the hall, the store for practice lives, its
  clock and its readiness. -/
  | outside (hall : Hall → Hall) (lives : σ → σ) (livesTime : Option Stamp) (pingDelay : Nat)

/-- What is seen of the service from outside. -/
inductive Seen where
  | answers (responses : List Response)
  /-- Events under their names, with their lines of data. -/
  | stream (lines : List (String × String)) (ended : Bool)
  | nothing

/-- What is seen when something happens, and the service afterwards. -/
def happen (mac : Mac) (s : Service σ) : Happening σ → Seen × Service σ
  | .request r =>
    let (response, s) := respond mac r s
    (.answers [response], s)
  | .race r delays =>
    let (responses, s) := Race.run mac r delays s
    (.answers responses, s)
  | .collect subscription =>
    let ((events, ended), hall) := s.hall.collect subscription
    (.stream (events.map fun e => (e.name, e.data)) ended, { s with hall := hall })
  | .outside hall lives livesTime pingDelay =>
    (.nothing, { s with hall := hall s.hall, lives := lives s.lives, livesTime, pingDelay })

/-- What is seen of a run, and the service afterwards. -/
def run (mac : Mac) : List (Happening σ) → Service σ → List Seen × Service σ
  | [], s => ([], s)
  | x :: rest, s =>
    let (seen, s) := happen mac s x
    let (more, s) := run mac rest s
    (seen :: more, s)

theorem happen_veiled (mac : Mac) (s : Service σ) (x : Happening σ) :
    happen mac s.veiled x = ((happen mac s x).1, (happen mac s x).2.veiled) := by
  cases x with
  | request r => simp only [happen, respond_veiled]
  | race r delays => simp only [happen, Race.run_veiled]
  | collect subscription => rfl
  | outside hall lives livesTime pingDelay => rfl

/-- **A run is blind.** -/
theorem run_veiled (mac : Mac) (happenings : List (Happening σ)) (s : Service σ) :
    run mac happenings s.veiled =
      ((run mac happenings s).1, (run mac happenings s).2.veiled) := by
  induction happenings generalizing s with
  | nil => rfl
  | cons x rest ih => simp only [run, happen_veiled, ih]

end Invigilator.Web
