import Invigilator.Exam.Answer
import Mathlib.Data.List.Induction

/-!
# What an answer remembers

An answer is worked on in two ways: its code is replaced, or a test run is recorded for it. It keeps
no list of what was done. What it shows is nevertheless a function of that list, and a simple one:
the latest code, the latest run, how many runs there were, and whether anything was ever written.

`summary` is that function, with one field for each field of an answer. One more piece of work makes
of a summary the summary of the longer history (`edit_summary`, `applyRun_summary`), so every answer
is the summary of its history (`afterAll_eq`). The order of the work matters only through what is
latest: a run decides the status for good, and code that comes after it no longer does.
-/

namespace Invigilator

namespace Answer

/-- What can be done to an answer. -/
inductive Work where
  | edit (code : String)
  | run (result : RunResult) (time : Stamp)
deriving DecidableEq, Repr

namespace Work

def code? : Work → Option String
  | edit code => some code
  | run _ _ => none

def run? : Work → Option (RunResult × Stamp)
  | edit _ => none
  | run result time => some (result, time)

end Work

/-- The answer after a piece of work. -/
def undergo (a : Answer) : Work → Answer
  | .edit code => a.edit code
  | .run result time => a.applyRun result time

/-- The answer after some work, one piece after the other. -/
def afterAll (a : Answer) (h : List Work) : Answer := h.foldl undergo a

theorem afterAll_concat (a : Answer) (h : List Work) (w : Work) :
    a.afterAll (h ++ [w]) = (a.afterAll h).undergo w :=
  List.foldl_append

theorem afterAll_append (a : Answer) (h more : List Work) :
    a.afterAll (h ++ more) = (a.afterAll h).afterAll more :=
  List.foldl_append

/-! ## What there is to know of a history -/

/-- The code that was handed in, in order. -/
def codes (h : List Work) : List String := h.filterMap Work.code?

/-- The runs, in order, each with its time. -/
def runs (h : List Work) : List (RunResult × Stamp) := h.filterMap Work.run?

/-- The latest run. -/
def lastRun? (h : List Work) : Option RunResult := (runs h).getLast?.map Prod.fst

/-- Something was written: some code had a character that is not blank. -/
def Written (h : List Work) : Prop :=
  ∃ code ∈ codes h, ∃ c ∈ code.toList, Text.isBlank c = false

instance (h : List Work) : Decidable (Written h) :=
  inferInstanceAs (Decidable (∃ code ∈ codes h, ∃ c ∈ code.toList, Text.isBlank c = false))

/-- The status that a history amounts to. -/
def standing (h : List Work) : AnswerStatus :=
  match lastRun? h with
  | some result => if result.allPassed then .completed else .attempted
  | none => if Written h then .attempted else .unanswered

variable (h : List Work) (code : String) (result : RunResult) (time : Stamp)

@[simp] theorem codes_edit : codes (h ++ [.edit code]) = codes h ++ [code] := by
  simp [codes, Work.code?]

@[simp] theorem codes_run : codes (h ++ [.run result time]) = codes h := by
  simp [codes, Work.code?]

@[simp] theorem runs_edit : runs (h ++ [.edit code]) = runs h := by
  simp [runs, Work.run?]

@[simp] theorem runs_run : runs (h ++ [.run result time]) = runs h ++ [(result, time)] := by
  simp [runs, Work.run?]

theorem runs_append (more : List Work) : runs (h ++ more) = runs h ++ runs more :=
  List.filterMap_append

theorem runs_edits (codes : List String) : runs (codes.map .edit) = [] := by
  simp [runs, Work.run?]

theorem Written.append {h : List Work} (hw : Written h) (more : List Work) :
    Written (h ++ more) := by
  obtain ⟨code, hcode, hc⟩ := hw
  refine ⟨code, ?_, hc⟩
  rw [codes, List.filterMap_append]
  exact List.mem_append_left _ hcode

theorem isAllBlank_eq_false_iff :
    Text.isAllBlank code = false ↔ ∃ c ∈ code.toList, Text.isBlank c = false := by
  simp [Text.isAllBlank]

theorem written_edit :
    Written (h ++ [.edit code]) ↔ Written h ∨ Text.isAllBlank code = false := by
  rw [isAllBlank_eq_false_iff]
  simp [Written, or_and_right, exists_or]

/-! ## The standing of a history -/

/-- A run decides the standing, and without one what was written. -/
theorem standing_cases :
    (∃ r, lastRun? h = some r ∧ r.allPassed = true ∧ standing h = .completed) ∨
      (∃ r, lastRun? h = some r ∧ r.allPassed = false ∧ standing h = .attempted) ∨
      (lastRun? h = none ∧ Written h ∧ standing h = .attempted) ∨
      (lastRun? h = none ∧ ¬Written h ∧ standing h = .unanswered) := by
  unfold standing
  cases lastRun? h with
  | none => by_cases hw : Written h <;> simp [hw]
  | some result => cases hr : result.allPassed <;> simp [hr]

theorem standing_completed_iff :
    standing h = .completed ↔ ∃ r, lastRun? h = some r ∧ r.allPassed = true := by
  rcases standing_cases h with ⟨r, hl, hr, hs⟩ | ⟨r, hl, hr, hs⟩ | ⟨hl, hw, hs⟩ | ⟨hl, hw, hs⟩ <;>
    simp [*]

theorem standing_attempted_iff :
    standing h = .attempted ↔
      (∃ r, lastRun? h = some r ∧ r.allPassed = false) ∨ lastRun? h = none ∧ Written h := by
  rcases standing_cases h with ⟨r, hl, hr, hs⟩ | ⟨r, hl, hr, hs⟩ | ⟨hl, hw, hs⟩ | ⟨hl, hw, hs⟩ <;>
    simp [*]

theorem standing_unanswered_iff :
    standing h = .unanswered ↔ lastRun? h = none ∧ ¬Written h := by
  rcases standing_cases h with ⟨r, hl, hr, hs⟩ | ⟨r, hl, hr, hs⟩ | ⟨hl, hw, hs⟩ | ⟨hl, hw, hs⟩ <;>
    simp [*]

/-- Code lifts the standing from unanswered to attempted, unless it is blank, and does nothing else. -/
theorem standing_edit :
    standing (h ++ [.edit code]) =
      if standing h = .unanswered ∧ Text.isAllBlank code = false then .attempted
      else standing h := by
  have hlast : lastRun? (h ++ [.edit code]) = lastRun? h := by simp [lastRun?]
  cases hrun : lastRun? h with
  | some result =>
    have hnot : ¬standing h = .unanswered := by simp [standing_unanswered_iff, hrun]
    rw [if_neg fun hfirst => hnot hfirst.1, standing, standing, hlast, hrun]
  | none =>
    have hbefore : standing h = if Written h then .attempted else .unanswered := by
      rw [standing, hrun]
    have hafter : standing (h ++ [.edit code]) =
        if Written h ∨ Text.isAllBlank code = false then .attempted else .unanswered := by
      rw [standing, hlast, hrun]
      exact if_congr (written_edit h code) rfl rfl
    rw [hafter, hbefore]
    by_cases hw : Written h <;> simp [hw]

theorem standing_run :
    standing (h ++ [.run result time]) =
      if result.allPassed then .completed else .attempted := by
  simp [standing, lastRun?]

/-! ## The summary of a history -/

/-- The answer that a history amounts to. Runs are counted in 32 bits. -/
def summary (index : Nat) (q : Question) (h : List Work) : Answer :=
  { questionIndex := index
    questionId := q.id
    code := (codes h).getLast?.getD q.starterCode
    status := standing h
    testsPassed := (lastRun? h).elim 0 RunResult.testsPassed
    testsTotal := (lastRun? h).elim 0 RunResult.testsTotal
    compilationErrors := (lastRun? h).elim 0 RunResult.compilationErrors
    runtimeErrors := (lastRun? h).elim 0 RunResult.runtimeErrors
    runCount := (runs h).length % Nat.pow 2 32
    lastRunAt := (runs h).getLast?.map Prod.snd }

variable (index : Nat) (q : Question)

theorem edit_summary : (summary index q h).edit code = summary index q (h ++ [.edit code]) := by
  simp [edit, summary, standing_edit, lastRun?]

theorem applyRun_summary :
    (summary index q h).applyRun result time = summary index q (h ++ [.run result time]) := by
  simp [applyRun, summary, standing_run, lastRun?]

/-- An answer is the summary of its history. -/
theorem afterAll_eq : (placeholder index q).afterAll h = summary index q h := by
  induction h using List.reverseRecOn with
  | nil => rfl
  | append_singleton h w ih =>
    rw [afterAll_concat, ih]
    cases w with
    | edit code => exact edit_summary h code index q
    | run result time => exact applyRun_summary h result time index q

/-! ## The law -/

/-- What a history says of the answer `a` that it leads to. -/
structure Determined (index : Nat) (q : Question) (h : List Work) (a : Answer) : Prop where
  questionIndex : a.questionIndex = index
  questionId : a.questionId = q.id
  /-- The code is the latest, or the starter code. -/
  code : a.code = (codes h).getLast?.getD q.starterCode
  runCount : a.runCount = (runs h).length
  /-- The counters are those of the latest run. -/
  testsPassed : a.testsPassed = (lastRun? h).elim 0 RunResult.testsPassed
  testsTotal : a.testsTotal = (lastRun? h).elim 0 RunResult.testsTotal
  compilationErrors : a.compilationErrors = (lastRun? h).elim 0 RunResult.compilationErrors
  runtimeErrors : a.runtimeErrors = (lastRun? h).elim 0 RunResult.runtimeErrors
  lastRunAt : a.lastRunAt = (runs h).getLast?.map Prod.snd
  completed_iff : a.status = .completed ↔ ∃ r, lastRun? h = some r ∧ r.allPassed = true
  attempted_iff : a.status = .attempted ↔
    (∃ r, lastRun? h = some r ∧ r.allPassed = false) ∨ lastRun? h = none ∧ Written h
  unanswered_iff : a.status = .unanswered ↔ lastRun? h = none ∧ ¬Written h
  /-- Edits behind a run leave the status alone. -/
  settled : runs h ≠ [] → ∀ more : List String,
    (a.afterAll (more.map .edit)).status = a.status
  /-- The status does not go back to unanswered. -/
  lasting : a.status ≠ .unanswered → ∀ more, (a.afterAll more).status ≠ .unanswered

theorem standing_append_edits {h : List Work} (hrun : runs h ≠ []) (more : List String) :
    standing (h ++ more.map .edit) = standing h := by
  have hlast : lastRun? (h ++ more.map .edit) = lastRun? h := by
    rw [lastRun?, runs_append, runs_edits, List.append_nil, lastRun?]
  obtain ⟨result, hresult⟩ : ∃ result, lastRun? h = some result := by
    simp [lastRun?, List.getLast?_eq_some_getLast hrun]
  rw [standing, standing, hlast, hresult]

theorem standing_append_ne_unanswered {h : List Work} (hs : standing h ≠ .unanswered)
    (more : List Work) : standing (h ++ more) ≠ .unanswered := by
  rw [Ne, standing_unanswered_iff, not_and_not_right] at hs ⊢
  intro hnone
  have hruns : runs h ++ runs more = [] := by
    rw [lastRun?, Option.map_eq_none_iff, List.getLast?_eq_none_iff, runs_append] at hnone
    exact hnone
  have hbefore : lastRun? h = none := by simp [lastRun?, (List.append_eq_nil_iff.mp hruns).1]
  exact (hs hbefore).append more

/-- **An answer is determined by its history.** Whatever is done to it and in whatever order, each
of its fields is told by the latest code, the runs and whether anything was written. -/
theorem determined (index : Nat) (q : Question) (h : List Work)
    (hcount : (runs h).length < Nat.pow 2 32) :
    Determined index q h ((placeholder index q).afterAll h) := by
  have heq := afterAll_eq h index q
  have hstatus : ((placeholder index q).afterAll h).status = standing h :=
    congrArg Answer.status heq
  have hlater : ∀ more, (((placeholder index q).afterAll h).afterAll more).status =
      standing (h ++ more) := by
    intro more
    rw [← afterAll_append]
    exact congrArg Answer.status (afterAll_eq (h ++ more) index q)
  exact
    { questionIndex := congrArg Answer.questionIndex heq
      questionId := congrArg Answer.questionId heq
      code := congrArg Answer.code heq
      runCount := (congrArg Answer.runCount heq).trans (Nat.mod_eq_of_lt hcount)
      testsPassed := congrArg Answer.testsPassed heq
      testsTotal := congrArg Answer.testsTotal heq
      compilationErrors := congrArg Answer.compilationErrors heq
      runtimeErrors := congrArg Answer.runtimeErrors heq
      lastRunAt := congrArg Answer.lastRunAt heq
      completed_iff := by rw [hstatus, standing_completed_iff]
      attempted_iff := by rw [hstatus, standing_attempted_iff]
      unanswered_iff := by rw [hstatus, standing_unanswered_iff]
      settled := fun hrun more => by rw [hlater, hstatus, standing_append_edits hrun]
      lasting := fun hleft more => by
        rw [hlater]
        exact standing_append_ne_unanswered (hstatus ▸ hleft) more }

/-- Blank code, a run in which all passed, blank code again: the answer is completed and blank. -/
theorem determined_wiped :
    Determined 1 default
        [.edit " \n", .run ⟨8, 8, 0, 1, none⟩ (.ofSeconds 5), .edit "\u3000"]
        ((placeholder 1 default).afterAll
          [.edit " \n", .run ⟨8, 8, 0, 1, none⟩ (.ofSeconds 5), .edit "\u3000"]) ∧
      ((placeholder 1 default).afterAll
        [.edit " \n", .run ⟨8, 8, 0, 1, none⟩ (.ofSeconds 5), .edit "\u3000"]).status = .completed :=
  have hdetermined := determined 1 default
    [.edit " \n", .run ⟨8, 8, 0, 1, none⟩ (.ofSeconds 5), .edit "\u3000"] (by decide)
  ⟨hdetermined, hdetermined.completed_iff.mpr ⟨_, rfl, rfl⟩⟩

end Answer

end Invigilator
