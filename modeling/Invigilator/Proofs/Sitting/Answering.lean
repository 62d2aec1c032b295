import Invigilator.Proofs.Records.Mirror
import Invigilator.Proofs.Sitting.Telling
import Mathlib.Data.List.Induction

/-!
# What becomes of the answers

A candidate changes an answer by a command: new code, or the outcome of a test run. Each command
has its checks, and all of them come before anything is changed. So a command either does nothing
at all, or it revises the answer at its place and writes that one answer. `Ruling` says so of both
commands at once.

Nothing else that happens to a sitting comes near its answers. `Answering` puts the two together:
at each moment of a run the answers stay as they are, or one command was accepted and revised one
of them. What holds of all answers in every run is proved from that by induction over the moments.
-/

namespace Invigilator

open Sitting (isActive_of_isRunning)

namespace Turn

variable {σ : Type} {s : Sitting × σ}

/-! ## Commands -/

/-- How a command on an answer comes out, with the fault that it is refused for. -/
inductive Ruling (t : Turn σ (Except Fault Answer)) (s : Sitting × σ) (index : Nat)
    (revise : Answer → Answer) (allowed : Prop) (fault : Fault) : Prop where
  /-- It is refused, and does nothing. -/
  | refused (barred : ¬allowed) (run : t.run s = ((.error fault, s), []))
  /-- It revises the answer at its place, and writes it. -/
  | accepted (old : Answer) (permitted : allowed) (place : s.1.answers[index]? = some old)
      (value : t.value s = .ok (revise old))
      (after : t.after s = (s.1.revised index (revise old), s.2))
      (written : writes (t.actions s) = [.updateAnswer s.1.session.id index (revise old).patch])
      (silent : published (t.actions s) = [])

/-- Why new code is refused. -/
def editFault (s : Sitting) (index : Nat) : Fault :=
  if s.session.isActive then .invalidQuestionIndex index else .notActive

/-- New code is for an answer of an active session. -/
theorem ruling_updateAnswer (s : Sitting × σ) (index : Nat) (code : String) :
    Ruling (updateAnswer index code) s index (·.edit code)
      (s.1.session.isActive = true ∧ index < s.1.answers.length) (editFault s.1 index) := by
  cases hactive : s.1.session.isActive with
  | false =>
    refine .refused (fun h => Bool.noConfusion h.1) ?_
    simp [updateAnswer, editFault, run_bind, hactive]
  | true =>
    cases hplace : s.1.answers[index]? with
    | none =>
      have hout := List.getElem?_eq_none_iff.mp hplace
      refine .refused (fun h => by omega) ?_
      simp [updateAnswer, editFault, run_bind, hactive, hplace]
    | some old =>
      have hrun : (updateAnswer index code : Turn σ (Except Fault Answer)).run s =
          ((.ok (old.edit code), (s.1.revised index (old.edit code), s.2)),
            [.write (.updateAnswer s.1.session.id index (old.edit code).patch)]) := by
        simp [updateAnswer, storeAnswer, write, run_bind, hactive, hplace, Sitting.revised]
      refine .accepted old ⟨rfl, (List.getElem?_eq_some_iff.mp hplace).1⟩ hplace ?_ ?_ ?_ ?_
      · rw [value, hrun]
      · rw [after, hrun]
      · rw [actions, hrun]; rfl
      · rw [actions, hrun]; rfl

/-- Why the outcome of a run is refused. The counts are looked at before the place. -/
def runFault (s : Sitting) (index : Nat) (result : RunResult) : Fault :=
  if s.session.isActive then
    if result.testsPassed ≤ result.testsTotal then .invalidQuestionIndex index
    else .invalidRunResult result.testsPassed result.testsTotal
  else .notActive

/-- The outcome of a run is for an answer of an active session, and no more tests pass than there
are. -/
theorem ruling_recordRun (s : Sitting × σ) (scene : Scene) (index : Nat) (result : RunResult) :
    Ruling (recordRun scene index result) s index (·.applyRun result scene.time)
      (s.1.session.isActive = true ∧ index < s.1.answers.length ∧
        result.testsPassed ≤ result.testsTotal) (runFault s.1 index result) := by
  cases hactive : s.1.session.isActive with
  | false =>
    refine .refused (fun h => Bool.noConfusion h.1) ?_
    simp [recordRun, runFault, run_bind, hactive]
  | true =>
    cases hconsistent : result.isConsistent with
    | false =>
      have hbad : ¬result.testsPassed ≤ result.testsTotal := of_decide_eq_false hconsistent
      refine .refused (fun h => hbad h.2.2) ?_
      simp [recordRun, runFault, run_bind, hactive, hconsistent, hbad]
    | true =>
      have hgood : result.testsPassed ≤ result.testsTotal := of_decide_eq_true hconsistent
      cases hplace : s.1.answers[index]? with
      | none =>
        have hout := List.getElem?_eq_none_iff.mp hplace
        refine .refused (fun h => by omega) ?_
        simp [recordRun, runFault, run_bind, hactive, hconsistent, hgood, hplace]
      | some old =>
        -- an error of the grader is one more note, and nothing else
        have hvalue : (recordRun scene index result : Turn σ (Except Fault Answer)).value s =
            .ok (old.applyRun result scene.time) := by
          cases herror : result.graderError <;>
            simp [recordRun, storeAnswer, hactive, hconsistent, hplace, herror]
        have hafter : (recordRun scene index result : Turn σ (Except Fault Answer)).after s =
            (s.1.revised index (old.applyRun result scene.time), s.2) := by
          cases herror : result.graderError <;>
            simp [recordRun, storeAnswer, hactive, hconsistent, hplace, herror, Sitting.revised]
        have hwritten : writes ((recordRun scene index result :
            Turn σ (Except Fault Answer)).actions s) =
            [.updateAnswer s.1.session.id index (old.applyRun result scene.time).patch] := by
          cases herror : result.graderError <;>
            simp [recordRun, storeAnswer, hactive, hconsistent, hplace, herror, writes] <;> rfl
        exact .accepted old ⟨rfl, (List.getElem?_eq_some_iff.mp hplace).1, hgood⟩ hplace hvalue
          hafter hwritten (tells_recordRun scene index result)

/-! ## Everything else -/

variable (ledger : LivesLedger σ) (scene : Scene)

theorem answers_endedIf (u : Sitting) (p : Prop) [Decidable p] (reason : Reason) (time : Stamp) :
    (u.endedIf p reason time).answers = u.answers := by
  unfold Sitting.endedIf
  split <;> rfl

/-- An effect of the detector leaves the answers alone. -/
theorem answers_applyEffect (e : Effect) :
    ((applyEffect ledger scene e).after s).1.answers = s.1.answers := by
  cases e with
  | startGrace deadline generation => rfl
  | cancelGrace reason => rfl
  | directive d => rfl
  | autoSubmit =>
    rw [after_applyEffect_autoSubmit]
    exact answers_endedIf ..
  | loseLife kind =>
    rw [after_applyEffect_loseLife]
    by_cases h : s.1.session.isActive = true ∧ 0 < s.1.session.livesRemaining
    · rw [after_applyViolation s ledger scene kind h]
      exact answers_endedIf ..
    · simp [applyViolation, h]

theorem answers_applyEffects (es : List Effect) :
    ((applyEffects ledger scene es).after s).1.answers = s.1.answers := by
  induction es generalizing s with
  | nil => rfl
  | cons e es ih => rw [after_applyEffects_cons, ih, answers_applyEffect]

theorem answers_submit (reason : Reason) :
    ((submit scene reason : Turn σ (Except Fault Snapshot)).after s).1.answers = s.1.answers := by
  by_cases h : s.1.session.isActive = true
  · by_cases hlocked : reason = .user ∧ s.1.timer.canSubmit = false
    · simp [submit, h, hlocked]
    · simp only [submit, after_bind, value_sitting, after_sitting, h, ↓reduceIte, hlocked,
        after_finish, after_pure]
      exact answers_endedIf ..
  · simp [submit, h]

theorem answers_onTick : ((onTick scene : Turn σ Unit).after s).1.answers = s.1.answers := by
  cases htick : s.1.timer.tick.2 with
  | none => simp [onTick, htick]
  | some tick =>
    rw [after_onTick scene htick]
    exact answers_endedIf ..

theorem answers_onGraceElapsed :
    ((onGraceElapsed ledger scene).after s).1.answers = s.1.answers := by
  unfold onGraceElapsed
  rw [after_bind, value_sitting, after_sitting]
  cases s.1.grace with
  | none => rfl
  | some timer =>
    simp only [after_bind, after_change, after_feed, value_feed, after_pure]
    exact answers_applyEffects ledger scene _

/-- What is not a command leaves the answers alone. -/
theorem answers_handle {x : Stimulus} (hupdate : ∀ index code, x ≠ .update index code)
    (hrun : ∀ index result, x ≠ .recordRun index result) :
    ((handle ledger scene x).after s).1.answers = s.1.answers := by
  cases x with
  | signal signal =>
    show ((onSignal ledger scene signal).after s).1.answers = s.1.answers
    rw [after_onSignal, answers_applyEffects]
  | update index code => exact absurd rfl (hupdate index code)
  | recordRun index result => exact absurd rfl (hrun index result)
  | submit reason => exact answers_submit scene reason
  | look => rfl
  | tick => exact answers_onTick scene
  | graceElapsed => exact answers_onGraceElapsed ledger scene
  | shutdown =>
    show ((onShutdown scene : Turn σ Unit).after s).1.answers = s.1.answers
    simp [onShutdown, Sitting.disarmed]

/-! ## One moment -/

/-- What becomes of the answers at a moment. -/
inductive Answering (m : Moment σ) : Prop where
  /-- They stay as they are, and no command was accepted. -/
  | spared (answers : m.after.1.answers = m.before.1.answers)
      (refused : ∀ a, m.reply ≠ .answer (.ok a))
  /-- The code of one was replaced. -/
  | edited (index : Nat) (code : String) (old : Answer)
      (stimulus : m.cue.stimulus = .update index code)
      (place : m.before.1.answers[index]? = some old)
      (reply : m.reply = .answer (.ok (old.edit code)))
      (answers : m.after.1.answers = m.before.1.answers.set index (old.edit code))
  /-- A test run was recorded for one. -/
  | ran (index : Nat) (result : RunResult) (old : Answer)
      (stimulus : m.cue.stimulus = .recordRun index result)
      (consistent : result.testsPassed ≤ result.testsTotal)
      (place : m.before.1.answers[index]? = some old)
      (reply : m.reply = .answer (.ok (old.applyRun result m.cue.scene.time)))
      (answers : m.after.1.answers =
        m.before.1.answers.set index (old.applyRun result m.cue.scene.time))

/-- A command that is refused spares the answers. -/
theorem spared_of_refused {t : Turn σ (Except Fault Answer)} {m : Moment σ} {fault : Fault}
    (hrun : t.run m.before = ((.error fault, m.before), [])) (hafter : m.after = t.after m.before)
    (hreply : m.reply = .answer (t.value m.before)) : Answering m := by
  refine .spared ?_ fun a => ?_
  · rw [hafter, after, hrun]
  · rw [hreply, value, hrun]
    exact fun h => by cases h

/-- **At each moment one answer is revised at most, and by a command that was accepted.** -/
theorem answering_moment (s : Sitting × σ) (c : Cue) : Answering (moment ledger s c) := by
  cases hrun : s.1.isRunning with
  | false =>
    refine .spared (congrArg (·.1.answers) (moment_over ledger c hrun)) fun a => ?_
    rw [show (moment ledger s c).reply = .nothing from value_step_over ledger c.scene _ hrun]
    exact Reply.noConfusion
  | true =>
    have hafter : (moment ledger s c).after = (handle ledger c.scene c.stimulus).after s :=
      after_step_running ledger c.scene c.stimulus hrun
    have hreply : (moment ledger s c).reply = (handle ledger c.scene c.stimulus).value s :=
      value_step_running ledger c.scene c.stimulus hrun
    -- a stimulus that is no command is answered in another way, if at all
    have hother : (∀ index code, c.stimulus ≠ .update index code) →
        (∀ index result, c.stimulus ≠ .recordRun index result) →
        (∀ a, (handle ledger c.scene c.stimulus).value s ≠ .answer (.ok a)) →
        Answering (moment ledger s c) := by
      intro hupdate hrecord hnone
      refine .spared ?_ fun a => hreply ▸ hnone a
      rw [hafter, answers_handle ledger c.scene hupdate hrecord]
      rfl
    cases hx : c.stimulus with
    | update index code =>
      rw [hx] at hafter hreply
      rcases ruling_updateAnswer s index code with
        ⟨-, hrefused⟩ | ⟨old, -, hplace, hvalue, hrevised, -, -⟩
      · exact spared_of_refused hrefused hafter hreply
      · exact .edited index code old hx hplace (hreply.trans (congrArg Reply.answer hvalue))
          (congrArg (·.1.answers) (hafter.trans hrevised))
    | recordRun index result =>
      rw [hx] at hafter hreply
      rcases ruling_recordRun s c.scene index result with
        ⟨-, hrefused⟩ | ⟨old, hpermitted, hplace, hvalue, hrevised, -, -⟩
      · exact spared_of_refused hrefused hafter hreply
      · exact .ran index result old hx hpermitted.2.2 hplace
          (hreply.trans (congrArg Reply.answer hvalue))
          (congrArg (·.1.answers) (hafter.trans hrevised))
    | signal _ | submit _ | look | tick | graceElapsed | shutdown =>
      exact hother (by simp [hx]) (by simp [hx]) (by simp [hx, handle])

end Turn

end Invigilator
