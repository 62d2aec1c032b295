import Invigilator.Lives.Shelf
import Invigilator.Proofs.Sitting.Turn

/-!
# The history of a sitting

A sitting is opened, and then stimuli come, each in a scene of its own: a `Cue`. The machine is
deterministic, so a list of cues has one history, a list of moments. A moment holds what the
stimulus found and what it left, so a statement about a whole run can point at any two moments
of it, and needs no more state than the machine itself has.

Histories grow at their end (`history_concat`). What holds of every run is proved by induction
over the cues from that end, with `reached` for the state so far.
-/

namespace Invigilator

/-- A stimulus and the scene in which it comes. -/
structure Cue where
  scene : Scene
  stimulus : Stimulus
deriving DecidableEq, Repr, Inhabited

/-- A cue with what it found and what it left. -/
structure Moment (σ : Type) where
  cue : Cue
  before : Sitting × σ
  after : Sitting × σ
  reply : Reply
  actions : List Action

/-- A sitting as it is when it is opened: new, with its clock and its detector started. -/
def Sitting.opened (session : Session) (answers : List Answer) (pace : Pace) (now : Instant) :
    Sitting :=
  ((Sitting.new session answers pace).arm pace.totalSeconds now).1

/-- An opened sitting is watched and timed from the start, and nothing is pending. -/
theorem Sitting.opened_eq (session : Session) (answers : List Answer) (pace : Pace)
    (now : Instant) :
    Sitting.opened session answers pace now =
      { session, answers, violations := [],
        timer := ((Countdown.new pace.submitUnlockSeconds pace.timeCriticalSeconds).start
          pace.totalSeconds).1
        detector := { Detector.new pace.grace with armed := true }
        grace := none, suspended := false } := rfl

namespace Turn

variable {σ : Type} (ledger : LivesLedger σ)

/-- What happens at a cue. -/
def moment (s : Sitting × σ) (c : Cue) : Moment σ :=
  { cue := c, before := s, after := (step ledger c.scene c.stimulus).after s,
    reply := (step ledger c.scene c.stimulus).value s,
    actions := (step ledger c.scene c.stimulus).actions s }

/-- All that happens at some cues, one after the other. -/
def history (s : Sitting × σ) : List Cue → List (Moment σ)
  | [] => []
  | c :: cues => moment ledger s c :: history (moment ledger s c).after cues

/-- Where some cues lead. -/
def reached (s : Sitting × σ) : List Cue → Sitting × σ
  | [] => s
  | c :: cues => reached (moment ledger s c).after cues

/-- Everything that a sitting does from its beginning on. -/
def deeds (s : Sitting × σ) (cues : List Cue) : List Action :=
  (begin : Turn σ Unit).actions s ++ (history ledger s cues).flatMap Moment.actions

@[simp] theorem moment_before (s : Sitting × σ) (c : Cue) : (moment ledger s c).before = s := rfl

@[simp] theorem history_nil (s : Sitting × σ) : history ledger s [] = [] := rfl

@[simp] theorem reached_nil (s : Sitting × σ) : reached ledger s [] = s := rfl

/-- First some cues, then others. -/
theorem reached_append (s : Sitting × σ) (first rest : List Cue) :
    reached ledger s (first ++ rest) = reached ledger (reached ledger s first) rest := by
  induction first generalizing s with
  | nil => rfl
  | cons c cues ih => exact ih (moment ledger s c).after

theorem history_append (s : Sitting × σ) (first rest : List Cue) :
    history ledger s (first ++ rest) =
      history ledger s first ++ history ledger (reached ledger s first) rest := by
  induction first generalizing s with
  | nil => rfl
  | cons c cues ih => exact congrArg (moment ledger s c :: ·) (ih (moment ledger s c).after)

/-- One more cue leads one step on. -/
theorem reached_concat (s : Sitting × σ) (cues : List Cue) (c : Cue) :
    reached ledger s (cues ++ [c]) = (moment ledger (reached ledger s cues) c).after :=
  reached_append ledger s cues [c]

/-- One more cue adds one moment. -/
theorem history_concat (s : Sitting × σ) (cues : List Cue) (c : Cue) :
    history ledger s (cues ++ [c]) =
      history ledger s cues ++ [moment ledger (reached ledger s cues) c] :=
  history_append ledger s cues [c]

@[simp] theorem length_history (s : Sitting × σ) (cues : List Cue) :
    (history ledger s cues).length = cues.length := by
  induction cues generalizing s with
  | nil => rfl
  | cons c cues ih => exact congrArg (· + 1) (ih (moment ledger s c).after)

/-- Every moment of a history is what happened at a cue of a state that was reached. -/
theorem exists_of_mem_history {s : Sitting × σ} {cues : List Cue} {m : Moment σ}
    (h : m ∈ history ledger s cues) :
    ∃ first c rest, cues = first ++ c :: rest ∧ m = moment ledger (reached ledger s first) c := by
  induction cues generalizing s with
  | nil => cases h
  | cons c cues ih =>
    rcases List.mem_cons.mp h with rfl | h
    · exact ⟨[], c, cues, rfl, rfl⟩
    · obtain ⟨first, d, rest, rfl, rfl⟩ := ih h
      exact ⟨c :: first, d, rest, rfl, rfl⟩

/-! ## One step -/

/-- A stimulus reaches a running sitting as it is handled. -/
theorem after_step_running {s : Sitting × σ} (scene : Scene) (x : Stimulus)
    (h : s.1.isRunning = true) :
    (step ledger scene x).after s = (handle ledger scene x).after s := by
  simp only [step, after_bind, ↓after_ite, value_sitting, after_sitting, h, ↓reduceIte, after_note,
    after_pure]
  exact ite_self _

/-- Nothing reaches a sitting that is not running. -/
theorem after_step_over {s : Sitting × σ} (scene : Scene) (x : Stimulus)
    (h : s.1.isRunning = false) : (step ledger scene x).after s = s := by
  simp [step, h]

/-- A running sitting replies as it handles the stimulus. -/
theorem value_step_running (scene : Scene) (x : Stimulus) {s : Sitting × σ}
    (h : s.1.isRunning = true) :
    (step ledger scene x).value s = (handle ledger scene x).value s := by
  by_cases hon : ((handle ledger scene x).after s).1.isRunning = true <;> simp [step, h, hon]

/-- A running sitting acts as it handles the stimulus, and is taken off the gauge if it stops. -/
theorem actions_step_running (scene : Scene) (x : Stimulus) {s : Sitting × σ}
    (h : s.1.isRunning = true) :
    (step ledger scene x).actions s =
      (handle ledger scene x).actions s ++
        if ((handle ledger scene x).after s).1.isRunning then []
        else [.note (.move .sessionsActive (-1))] := by
  simp only [step, actions_bind, actions_sitting, value_sitting, after_sitting, h, ↓reduceIte,
    List.nil_append, ↓actions_ite, actions_pure, actions_note, List.append_nil]

/-- A sitting that does not run has no reply. -/
theorem value_step_over (scene : Scene) (x : Stimulus) {s : Sitting × σ}
    (h : s.1.isRunning = false) : (step ledger scene x).value s = .nothing := by
  simp [step, h]

end Turn

/-! ## A specimen -/

/-- A ledger of so many lives that gives none back, as exams have it. -/
def LivesLedger.lasting {σ : Type} (store : LivesStore σ) (lives : Nat) : LivesLedger σ :=
  ⟨store, ⟨lives, none⟩⟩

def Session.specimen (lives : Nat) : Session :=
  .begin "s-1" "u-1" .python ⟨"a", "b", "c"⟩ lives default

/-- One minute, with ten seconds for each grace period. -/
def Pace.specimen : Pace := ⟨60, 30, 10, 10000, 1000⟩

/-- A sitting to try things on. -/
def Sitting.specimen (lives : Nat) : Sitting := .opened (.specimen lives) [] .specimen 0

/-- A stimulus at a time in milliseconds. -/
def Cue.at (now : Instant) (stimulus : Stimulus) : Cue :=
  ⟨{ (default : Scene) with now := now }, stimulus⟩

end Invigilator
