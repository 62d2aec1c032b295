import Invigilator.Proofs.Service.Seat
import Invigilator.Proofs.Sitting.Answering

/-!
# Commands are all or nothing

A command of the candidate succeeds exactly when nothing speaks against it. When something does,
the command is refused: the sitting and the ledger of its lives stay as they were, and nothing is
written, published or noted. When it succeeds, the answer at its place is changed and nothing else,
that one answer is handed to the scribe, and nobody is told.

This is why the answers of an exam stay a whole sheet in every run: one to each question, at the
place of that question, and none with more tests passed than there are.
-/

namespace Invigilator

/-! ## The sheet -/

/-- The answers of a sitting make up a sheet: one to each of the three questions of the session, in
order, and none with more tests passed than there are. -/
structure Sitting.FullSheet (s : Sitting) : Prop where
  indices : s.answers.map Answer.questionIndex = [0, 1, 2]
  questions : s.answers.map Answer.questionId = s.session.questionIds.toList
  within : ∀ a ∈ s.answers, a.testsPassed ≤ a.testsTotal

theorem Sitting.FullSheet.three {s : Sitting} (h : s.FullSheet) : s.answers.length = 3 := by
  rw [← List.length_map Answer.questionIndex, h.indices]
  rfl

theorem Session.finish_questionIds (s : Session) (reason : Reason) (spent : Nat) (time : Stamp) :
    (s.finish reason spent time).questionIds = s.questionIds := by
  unfold finish
  split <;> rfl

theorem Answer.Revision.questionId {old new : Answer} (h : old.Revision new) :
    new.questionId = old.questionId := by
  cases h <;> rfl

/-- A session keeps its questions. -/
theorem Stretch.questionIds {s t : Sitting} {as : List Action} (h : Stretch s t as) :
    t.session.questionIds = s.session.questionIds := by
  induction h with
  | idle session answers violations still => rw [session]
  | charge scene kind left active => rfl
  | revise active place revision => rfl
  | close reason spent time active => exact Session.finish_questionIds ..
  | andThen first second ih₁ ih₂ => exact ih₂.trans ih₁

/-- Whatever no revision changes in an answer stays as it is in all answers. -/
theorem Stretch.map_answers {β : Type} {f : Answer → β}
    (hf : ∀ {old new : Answer}, old.Revision new → f new = f old) {s t : Sitting}
    {as : List Action} (h : Stretch s t as) : t.answers.map f = s.answers.map f := by
  induction h with
  | idle session answers violations still => rw [answers]
  | charge scene kind left active => rfl
  | @revise s index old new active place revision =>
    have hmapped : (s.answers.map f)[index]? = some (f new) := by
      rw [List.getElem?_map, place, hf revision]
      rfl
    obtain ⟨hindex, hnew⟩ := List.getElem?_eq_some_iff.mp hmapped
    show (s.answers.set index new).map f = s.answers.map f
    rw [List.map_set, ← hnew, List.set_getElem_self]
  | close reason spent time active => rfl
  | andThen first second ih₁ ih₂ => exact ih₂.trans ih₁

namespace Turn

variable {σ : Type} {s : Sitting × σ} (ledger : LivesLedger σ)

/-- A run that is accepted is consistent, and so the counts of every answer stay so. -/
theorem Answering.within {m : Moment σ} (h : Answering m)
    (hbefore : ∀ a ∈ m.before.1.answers, a.testsPassed ≤ a.testsTotal) :
    ∀ a ∈ m.after.1.answers, a.testsPassed ≤ a.testsTotal := by
  cases h with
  | spared answers refused => rwa [answers]
  | edited index code old stimulus place reply answers =>
    rw [answers]
    intro a ha
    rcases List.mem_or_eq_of_mem_set ha with ha | rfl
    · exact hbefore a ha
    · exact hbefore old (List.mem_of_getElem? place)
  | ran index result old stimulus consistent place reply answers =>
    rw [answers]
    intro a ha
    rcases List.mem_or_eq_of_mem_set ha with ha | rfl
    · exact hbefore a ha
    · exact consistent

theorem within_reached (hs : ∀ a ∈ s.1.answers, a.testsPassed ≤ a.testsTotal) (cues : List Cue) :
    ∀ a ∈ (reached ledger s cues).1.answers, a.testsPassed ≤ a.testsTotal := by
  induction cues using List.reverseRecOn with
  | nil => exact hs
  | append_singleton cues c ih =>
    rw [reached_concat]
    exact (answering_moment ledger _ c).within ih

/-- **A full sheet stays full,** whatever comes. -/
theorem fullSheet_reached (hs : s.1.FullSheet) (cues : List Cue) :
    (reached ledger s cues).1.FullSheet := by
  have hstretch := stretch_history ledger s cues
  refine ⟨?_, ?_, within_reached ledger hs.within cues⟩
  · rw [hstretch.map_answers Answer.Revision.questionIndex, hs.indices]
  · rw [hstretch.map_answers Answer.Revision.questionId, hstretch.questionIds, hs.questions]

end Turn

namespace Service

theorem mem_placeholders {questions : Trio Question} {a : Answer}
    (h : a ∈ placeholders questions) : ∃ index q, a = .placeholder index q := by
  unfold placeholders at h
  obtain ⟨⟨q, index⟩, -, rfl⟩ := List.mem_map.mp h
  exact ⟨index, q, rfl⟩

/-- A started exam has a sheet of placeholders. -/
theorem newSeat_fullSheet (settings : Settings) (hall : Hall) (userId : String)
    (language : Language) (questions : Trio Question) :
    (newSeat settings hall userId language questions).1.sitting.FullSheet where
  indices := rfl
  questions := rfl
  within a ha := by
    obtain ⟨index, q, rfl⟩ := mem_placeholders ha
    exact Nat.le_refl 0

end Service

namespace Turn

variable {σ : Type}

/-! ## The frame of a command -/

/-- A command on the answer at a place is all or nothing: it succeeds exactly when it is allowed,
it does nothing when it is refused, and a success revises the answer at that place and writes it. -/
structure Framed (t : Turn σ (Except Fault Answer)) (s : Sitting × σ) (index : Nat)
    (revise : Answer → Answer) (allowed : Prop) (fault : Fault) : Prop where
  ok_iff : (∃ a, t.value s = .ok a) ↔ allowed
  refused : ∀ e, t.value s = .error e → e = fault ∧ t.after s = s ∧ t.actions s = []
  accepted : ∀ a, t.value s = .ok a →
    (∃ old, s.1.answers[index]? = some old ∧ a = revise old) ∧
      t.after s = ({ s.1 with answers := s.1.answers.set index a }, s.2) ∧
      writes (t.actions s) = [.updateAnswer s.1.session.id index a.patch] ∧
      published (t.actions s) = []

theorem Ruling.framed {t : Turn σ (Except Fault Answer)} {s : Sitting × σ} {index : Nat}
    {revise : Answer → Answer} {allowed : Prop} {fault : Fault}
    (h : Ruling t s index revise allowed fault) : Framed t s index revise allowed fault := by
  cases h with
  | refused barred run =>
    have hvalue : t.value s = .error fault := congrArg (·.1.1) run
    constructor
    case ok_iff =>
      refine iff_of_false ?_ barred
      rintro ⟨a, ha⟩
      cases hvalue.symm.trans ha
    case refused =>
      intro e he
      cases hvalue.symm.trans he
      exact ⟨rfl, congrArg (·.1.2) run, congrArg (·.2) run⟩
    case accepted =>
      intro a ha
      cases hvalue.symm.trans ha
  | accepted old permitted place value after written silent =>
    constructor
    case ok_iff => exact iff_of_true ⟨_, value⟩ permitted
    case refused =>
      intro e he
      cases value.symm.trans he
    case accepted =>
      intro a ha
      cases value.symm.trans ha
      exact ⟨⟨old, place, rfl⟩, after, written, silent⟩

/-- Handing in is refused for one reason, and then it does nothing. -/
structure Locked (scene : Scene) (reason : Reason) (s : Sitting × σ) : Prop where
  error_iff : ∀ e, (submit scene reason : Turn σ (Except Fault Snapshot)).value s = .error e ↔
    (s.1.session.isActive = true ∧ reason = .user ∧ s.1.timer.canSubmit = false) ∧
      e = .submitLocked s.1.timer.untilSubmit
  refused : ∀ e, (submit scene reason : Turn σ (Except Fault Snapshot)).value s = .error e →
    (submit scene reason : Turn σ (Except Fault Snapshot)).after s = s ∧
      (submit scene reason : Turn σ (Except Fault Snapshot)).actions s = []

theorem locked_submit (scene : Scene) (reason : Reason) (s : Sitting × σ) :
    Locked scene reason s := by
  by_cases hactive : s.1.session.isActive = true
  · by_cases hlocked : reason = .user ∧ s.1.timer.canSubmit = false
    · have hrun : (submit scene reason : Turn σ (Except Fault Snapshot)).run s =
          ((.error (.submitLocked s.1.timer.untilSubmit), s), []) := by
        simp [submit, run_bind, hactive, hlocked]
      refine ⟨fun e => ?_, fun e _ => ⟨congrArg (·.1.2) hrun, congrArg (·.2) hrun⟩⟩
      rw [value, hrun]
      simp [hactive, hlocked, eq_comm]
    · have hvalue : ∀ e, (submit scene reason : Turn σ (Except Fault Snapshot)).value s ≠
          .error e := by
        simp [submit, hactive, hlocked]
      exact ⟨fun e => iff_of_false (hvalue e) fun h => hlocked h.1.2,
        fun e h => absurd h (hvalue e)⟩
  · have hvalue : ∀ e, (submit scene reason : Turn σ (Except Fault Snapshot)).value s ≠
        .error e := by
      simp [submit, hactive]
    exact ⟨fun e => iff_of_false (hvalue e) fun h => hactive h.1.1, fun e h => absurd h (hvalue e)⟩

/-! ## Commands in a run -/

/-- All commands are all or nothing in a state, and its answers are a full sheet. -/
structure AllOrNothing (s : Sitting × σ) : Prop where
  updateAnswer : ∀ index code, Framed (updateAnswer index code) s index (·.edit code)
    (s.1.session.isActive = true ∧ index < 3) (editFault s.1 index)
  recordRun : ∀ scene index result, Framed (recordRun scene index result) s index
    (·.applyRun result scene.time)
    (s.1.session.isActive = true ∧ index < 3 ∧ result.testsPassed ≤ result.testsTotal)
    (runFault s.1 index result)
  submit : ∀ scene reason, Locked scene reason s
  sheet : s.1.FullSheet

/-- **In every state that an exam reaches, commands are all or nothing, and its answers are a full
sheet.** -/
theorem commands_framed (ledger : LivesLedger σ) (settings : Settings) (hall : Hall)
    (userId : String) (language : Language) (questions : Trio Question) (lives : σ)
    (cues : List Cue) :
    AllOrNothing (reached ledger
      ((Service.newSeat settings hall userId language questions).1.sitting, lives) cues) := by
  have hsheet := fullSheet_reached (s := (_, lives)) ledger
    (Service.newSeat_fullSheet settings hall userId language questions) cues
  constructor
  case updateAnswer =>
    intro index code
    rw [← hsheet.three]
    exact (ruling_updateAnswer _ index code).framed
  case recordRun =>
    intro scene index result
    rw [← hsheet.three]
    exact (ruling_recordRun _ scene index result).framed
  case submit =>
    intro scene reason
    exact locked_submit scene reason _
  case sheet => exact hsheet

end Turn

end Invigilator
