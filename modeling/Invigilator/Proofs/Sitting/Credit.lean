import Invigilator.Exam.Score
import Invigilator.Proofs.Sitting.Commands
import Mathlib.Data.List.Basic

/-!
# Credit for answers

There are two views of a test run. The status of an answer says whether the answer is completed,
and an error of the grader speaks against it. The score goes by the tests that passed and the tests
there are, and by nothing else. Both are views of one run, the latest that was accepted for the
answer: edits and refused runs leave both alone.

So a completed answer has full marks, and an answer with full marks is completed unless the grader
failed in its latest run. That last case is real: an editor may report that all tests passed and in
the same breath that the grader failed.
-/

namespace Invigilator

/-! ## The latest run -/

/-- The run that was accepted at a moment for the answer at a place. -/
def Moment.run? {σ : Type} (index : Nat) (m : Moment σ) : Option RunResult :=
  match m.cue.stimulus, m.reply with
  | .recordRun i result, .answer (.ok _) => if i = index then some result else none
  | _, _ => none

namespace Turn

variable {σ : Type}

/-- The latest run in a history that was accepted for the answer at a place. -/
def latestRun (index : Nat) (h : List (Moment σ)) : Option RunResult :=
  (h.filterMap (Moment.run? index)).getLast?

theorem latestRun_concat (index : Nat) (h : List (Moment σ)) (m : Moment σ) :
    latestRun index (h ++ [m]) = (Moment.run? index m).or (latestRun index h) := by
  rw [latestRun, latestRun, List.filterMap_append]
  cases hm : Moment.run? index m <;> simp [hm]

end Turn

/-! ## What a run makes of an answer -/

namespace Answer

/-- The tests that passed and the tests there are. -/
def marks (a : Answer) : Nat × Nat := (a.testsPassed, a.testsTotal)

/-- All the tests passed, and there were some. -/
def HasFullMarks (a : Answer) : Prop := 0 < a.testsTotal ∧ a.testsPassed = a.testsTotal

/-- An answer says of its latest run, if there was one, which tests passed and whether it is
completed. -/
structure Reports (a : Answer) (latest : Option RunResult) : Prop where
  marks : a.marks = latest.elim (0, 0) fun r => (r.testsPassed, r.testsTotal)
  completed : a.status = .completed ↔ ∃ r, latest = some r ∧ r.allPassed = true

theorem reports_placeholder (index : Nat) (q : Question) : (placeholder index q).Reports none :=
  ⟨rfl, iff_of_false nofun nofun⟩

/-- The first code for an answer does not complete it, and later code leaves its status alone. -/
theorem Reports.edit {a : Answer} {latest : Option RunResult} (h : a.Reports latest)
    (code : String) : (a.edit code).Reports latest := by
  refine ⟨h.marks, Iff.trans ?_ h.completed⟩
  show (if a.status = .unanswered ∧ Text.isAllBlank code = false then .attempted
    else a.status) = AnswerStatus.completed ↔ a.status = .completed
  split
  · rename_i hfirst
    exact iff_of_false nofun (by simp [hfirst.1])
  · rfl

theorem reports_applyRun (a : Answer) (r : RunResult) (time : Stamp) :
    (a.applyRun r time).Reports (some r) := by
  refine ⟨rfl, ?_⟩
  show (if r.allPassed then AnswerStatus.completed else .attempted) = .completed ↔ _
  cases hr : r.allPassed <;> simp [hr]

/-- An answer is completed when it has full marks and the grader did not fail. -/
theorem Reports.completed_iff {a : Answer} {latest : Option RunResult} (h : a.Reports latest) :
    a.status = .completed ↔
      a.HasFullMarks ∧ ∀ r, latest = some r → r.graderError = none := by
  obtain ⟨hpassed, htotal⟩ := Prod.mk.inj h.marks
  rw [h.completed, HasFullMarks, hpassed, htotal]
  cases latest with
  | none => simp
  | some r => simp [RunResult.allPassed, and_comm, and_assoc]

end Answer

/-! ## Runs of a sitting -/

namespace Turn

variable {σ : Type} {s : Sitting × σ} (ledger : LivesLedger σ)

/-- Every answer of a sitting reports its latest run in a history. -/
def Reported (answers : List Answer) (h : List (Moment σ)) : Prop :=
  ∀ (i : Nat) (a : Answer), answers[i]? = some a → a.Reports (latestRun i h)

/-- A moment without an accepted run leaves the latest runs as they were. -/
theorem latestRun_of_not_run {h : List (Moment σ)} {m : Moment σ}
    (hm : ∀ i, Moment.run? i m = none) (i : Nat) :
    latestRun i (h ++ [m]) = latestRun i h := by
  rw [latestRun_concat, hm i, Option.none_or]

/-- One more moment, and the answers still report their latest runs. -/
theorem Answering.reported {h : List (Moment σ)} {m : Moment σ} (hm : Answering m)
    (hbefore : Reported m.before.1.answers h) : Reported m.after.1.answers (h ++ [m]) := by
  intro i a ha
  -- no run is accepted unless the moment is one, so else the latest runs are what they were
  cases hm with
  | spared answers refused =>
    have hnone : ∀ j, Moment.run? j m = none := by
      intro j
      unfold Moment.run?
      split
      · rename_i hreply
        exact absurd hreply (refused _)
      · rfl
    rw [latestRun_of_not_run hnone]
    exact hbefore i a (answers ▸ ha)
  | edited index code old stimulus place reply answers =>
    have hnone : ∀ j, Moment.run? j m = none := fun j => by simp [Moment.run?, stimulus]
    rw [latestRun_of_not_run hnone]
    rw [answers, List.getElem?_set] at ha
    split at ha
    · rename_i hi
      subst hi
      obtain rfl : old.edit code = a := by
        simpa [(List.getElem?_eq_some_iff.mp place).1] using ha
      exact (hbefore index old place).edit code
    · exact hbefore i a ha
  | ran index result old stimulus consistent place reply answers =>
    rw [answers, List.getElem?_set] at ha
    have hrun : Moment.run? i m = if index = i then some result else none := by
      simp [Moment.run?, stimulus, reply]
    rw [latestRun_concat, hrun]
    split at ha
    · rename_i hi
      obtain rfl : old.applyRun result m.cue.scene.time = a := by
        simpa [(List.getElem?_eq_some_iff.mp place).1] using ha
      rw [if_pos hi]
      exact Answer.reports_applyRun old result m.cue.scene.time
    · rename_i hi
      rw [if_neg hi]
      exact hbefore i a ha

/-- **In every run the answers report their latest runs.** -/
theorem reported_reached (hs : Reported s.1.answers ([] : List (Moment σ))) (cues : List Cue) :
    Reported (reached ledger s cues).1.answers (history ledger s cues) := by
  induction cues using List.reverseRecOn with
  | nil => exact hs
  | append_singleton cues c ih =>
    rw [reached_concat, history_concat]
    exact (answering_moment ledger _ c).reported ih

end Turn

theorem Service.newSeat_reported {σ : Type} (settings : Settings) (hall : Hall) (userId : String)
    (language : Language) (questions : Trio Question) :
    Turn.Reported (newSeat settings hall userId language questions).1.sitting.answers
      ([] : List (Moment σ)) := by
  intro i a ha
  obtain ⟨index, q, rfl⟩ := mem_placeholders (List.mem_of_getElem? ha)
  exact Answer.reports_placeholder index q

/-! ## Scores -/

/-- The score of an answer with a place and a weight. -/
def Answer.scored (a : Answer) (place : Nat × Float) : QuestionScore :=
  { questionIndex := place.1, weight := place.2, testsPassed := a.testsPassed,
    testsTotal := a.testsTotal, points := Score.points a.testsPassed a.testsTotal place.2 }

/-- On a full sheet each question is scored by the marks of the answer in its place. -/
theorem Sitting.FullSheet.questions_ofAnswers {s : Sitting} (h : s.FullSheet) (id : String) :
    (Score.ofAnswers id s.answers).questions = s.answers.zipWith Answer.scored Score.weights := by
  obtain ⟨a, b, c, habc⟩ := List.length_eq_three.mp h.three
  have hindices := h.indices
  rw [habc] at hindices ⊢
  obtain ⟨ha, hb, hc⟩ : a.questionIndex = 0 ∧ b.questionIndex = 1 ∧ c.questionIndex = 2 := by
    simpa using hindices
  simp [Score.ofAnswers, Score.weights, Score.counts, Answer.scored, ha, hb, hc]

namespace Turn

variable {σ : Type}

/-- Who has credit for an answer: what the status says of it and what the score says. -/
structure Credited (s : Sitting) (h : List (Moment σ)) : Prop where
  /-- Completed are the answers with full marks, unless the grader failed in their latest run. -/
  completed_iff : ∀ i a, s.answers[i]? = some a →
    (a.status = .completed ↔
      a.HasFullMarks ∧ ∀ r, latestRun i h = some r → r.graderError = none)
  /-- The marks are those of the latest run. -/
  marks : ∀ i a, s.answers[i]? = some a →
    a.marks = (latestRun i h).elim (0, 0) fun r => (r.testsPassed, r.testsTotal)
  /-- The score goes by the marks. -/
  scored : ∀ id, (Score.ofAnswers id s.answers).questions =
    s.answers.zipWith Answer.scored Score.weights
  /-- Credit in full is for completed answers, unless the grader failed in their latest run. -/
  full : ∀ id i a q, s.answers[i]? = some a →
    (Score.ofAnswers id s.answers).questions[i]? = some q →
      (a.status = .completed → 0 < q.testsTotal ∧ q.testsPassed = q.testsTotal) ∧
      (0 < q.testsTotal ∧ q.testsPassed = q.testsTotal →
        a.status = .completed ∨ ∃ r, latestRun i h = some r ∧ r.graderError ≠ none)

theorem Credited.of_reported {s : Sitting} {h : List (Moment σ)} (hsheet : s.FullSheet)
    (hreported : Reported s.answers h) : Credited s h where
  completed_iff i a ha := (hreported i a ha).completed_iff
  marks i a ha := (hreported i a ha).marks
  scored := hsheet.questions_ofAnswers
  full id i a q ha hq := by
    have hcompleted := (hreported i a ha).completed_iff
    -- the question in the place of the answer has its marks
    rw [hsheet.questions_ofAnswers, List.getElem?_zipWith, ha] at hq
    obtain ⟨place, -, rfl⟩ : ∃ place, Score.weights[i]? = some place ∧ a.scored place = q := by
      cases hplace : Score.weights[i]? with
      | none => simp [hplace] at hq
      | some place => exact ⟨place, rfl, by simpa [hplace] using hq⟩
    refine ⟨fun hstatus => (hcompleted.mp hstatus).1, fun hfull => ?_⟩
    by_cases hgraded : ∀ r, latestRun i h = some r → r.graderError = none
    · exact .inl (hcompleted.mpr ⟨hfull, hgraded⟩)
    · push Not at hgraded
      exact .inr hgraded

/-- A started exam in which the one test passed and the grader failed. -/
def failedGrader : Sitting :=
  (reached (.lasting Shelf.store 3)
    ((Service.newSeat .standard (.new default .plain 8) "u-1" .python default).1.sitting, .empty)
    [.at 0 (.recordRun 0 ⟨1, 1, 0, 0, some "judge timeout"⟩)]).1

end Turn

end Invigilator
