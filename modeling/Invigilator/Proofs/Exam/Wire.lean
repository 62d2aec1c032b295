import Invigilator.Access.Claims
import Invigilator.Access.Gate
import Invigilator.Exam.Snapshot
import Invigilator.Proofs.Json.Records
import Invigilator.Proofs.Lives.Expiry

/-!
# The wire format is lossless

Records are exchanged and kept as texts, and what is written is read again as it was. There is one
lemma for each kind of record, `carries`, put together from the lemmas for its fields. A record
can be written if its numbers fit the widths of their fields and its moments are such as the
calendar knows: that is `Writable`, and it leaves texts, lists and options as they please. A
record that is tagged is read into memory before its variant is known; there are so few levels in
it, and its numbers are so short, that memory always holds it.

`Kind.ofText?_text` says it of all kinds at once, and that no text stands for two records.
-/

namespace Invigilator

open Json (Carries)

/-! ## Words -/

theorem Language.carries (l : Language) : Carries toJson ofJson? l := by
  cases l <;> exact ⟨trivial, rfl⟩

theorem Difficulty.carries (d : Difficulty) : Carries toJson ofJson? d := by
  cases d <;> exact ⟨trivial, rfl⟩

theorem Status.carries (s : Status) : Carries toJson ofJson? s := by
  cases s <;> exact ⟨trivial, rfl⟩

theorem AnswerStatus.carries (s : AnswerStatus) : Carries toJson ofJson? s := by
  cases s <;> exact ⟨trivial, rfl⟩

theorem ViolationType.carries (v : ViolationType) : Carries toJson ofJson? v := by
  cases v <;> exact ⟨trivial, rfl⟩

theorem EligibilityStatus.carries (s : EligibilityStatus) : Carries toJson ofJson? s := by
  cases s <;> exact ⟨trivial, rfl⟩

/-! ## Questions -/

theorem TestCase.carries (t : TestCase) : Carries toJson ofJson? t where
  plain := ⟨trivial, trivial, trivial⟩
  read_eq := by
    rw [ofJson?, toJson, Json.slots?_object rfl (by decide)]
    rfl

/-- A question whose limits fit their fields. -/
structure Question.Writable (q : Question) : Prop where
  timeLimitMs : q.timeLimitMs < Nat.pow 2 32
  memoryLimitMb : q.memoryLimitMb < Nat.pow 2 32

theorem Question.carries {q : Question} (h : q.Writable) : Carries toJson ofJson? q := by
  have hvisible := Json.carries_listOf fun t (_ : t ∈ q.visibleTestCases) => t.carries
  have hhidden := Json.carries_listOf fun t (_ : t ∈ q.hiddenTestCases) => t.carries
  have htime := Json.carries_nat32 h.timeLimitMs
  have hmemory := Json.carries_nat32 h.memoryLimitMb
  have htext : ∀ o : Option String, ∀ s ∈ o, Carries .text Json.text? s :=
    fun _ s _ => Json.carries_text s
  constructor
  · exact ⟨trivial, q.language.carries.plain, trivial, trivial, q.difficulty.carries.plain,
      Json.plain_option (htext q.topic), trivial, Json.plain_option (htext q.inputFormat),
      Json.plain_option (htext q.outputFormat), Json.plain_option (htext q.constraints),
      hvisible.plain, hhidden.plain, htime.plain, hmemory.plain, trivial⟩
  · rw [ofJson?, toJson, Json.slots?_object rfl (by decide), Option.bind_eq_bind,
      Option.bind_some]
    simp only [List.map_cons, List.map_nil, Json.needed, Json.text?, Json.withDefault,
      Option.bind_eq_bind, Option.bind_some, q.language.carries.read_eq,
      q.difficulty.carries.read_eq, Json.optional_option (htext _) rfl, hvisible.read_eq,
      hhidden.read_eq, htime.read_eq, hmemory.read_eq]

/-! ## Sessions -/

namespace Session

/-- A session whose numbers fit their fields, with moments that the calendar knows. -/
structure Writable (s : Session) : Prop where
  livesRemaining : s.livesRemaining < Nat.pow 2 8
  totalViolations : s.totalViolations < Nat.pow 2 32
  timeSpentSeconds : ∀ n ∈ s.timeSpentSeconds, n < Nat.pow 2 64
  startedAt : s.startedAt.Datable
  completedAt : ∀ time ∈ s.completedAt, time.Datable

theorem carries {s : Session} (h : s.Writable) : Carries toJson ofJson? s := by
  have hquestions := Json.carries_trio fun q (_ : q ∈ s.questionIds.toList) => Json.carries_text q
  have hlives := Json.carries_nat8 h.livesRemaining
  have hviolations := Json.carries_nat32 h.totalViolations
  have hspent := fun n hn => Json.carries_nat64 (h.timeSpentSeconds n hn)
  have hstarted := Json.carries_stamp h.startedAt
  have hcompleted := fun time htime => Json.carries_stamp (h.completedAt time htime)
  constructor
  · exact ⟨trivial, trivial, s.language.carries.plain, hquestions.plain, s.status.carries.plain,
      hlives.plain, hviolations.plain, trivial, Json.plain_option hspent, hstarted.plain,
      Json.plain_option hcompleted, trivial⟩
  · rw [ofJson?, toJson, Json.slots?_object rfl (by decide), Option.bind_eq_bind,
      Option.bind_some]
    simp only [members, List.map_cons, List.map_nil, Json.needed, Json.text?, Json.bool?,
      Option.bind_eq_bind, Option.bind_some, s.language.carries.read_eq,
      s.status.carries.read_eq, hquestions.read_eq, hlives.read_eq, hviolations.read_eq,
      Json.optional_option hspent rfl, hstarted.read_eq, Json.optional_option hcompleted rfl]

end Session

namespace SessionPatch

/-- A patch whose numbers fit their fields, with a moment that the calendar knows. -/
structure Writable (p : SessionPatch) : Prop where
  livesRemaining : ∀ n ∈ p.livesRemaining, n < Nat.pow 2 8
  totalViolations : ∀ n ∈ p.totalViolations, n < Nat.pow 2 32
  timeSpentSeconds : ∀ n ∈ p.timeSpentSeconds, n < Nat.pow 2 64
  completedAt : ∀ time ∈ p.completedAt, time.Datable

/-- The members of a patch, with those that it leaves out. -/
def entries (p : SessionPatch) : List (String × Option Json) :=
  [("status", p.status.map Status.toJson), ("lives_remaining", p.livesRemaining.map .nat),
    ("total_violations", p.totalViolations.map .nat), ("auto_submitted", p.autoSubmitted.map .bool),
    ("time_spent_seconds", p.timeSpentSeconds.map .nat),
    ("completed_at", p.completedAt.map Stamp.toJson)]

theorem carries {p : SessionPatch} (h : p.Writable) : Carries toJson ofJson? p := by
  have hstatus := fun s (_ : s ∈ p.status) => s.carries
  have hlives := fun n hn => Json.carries_nat8 (h.livesRemaining n hn)
  have hviolations := fun n hn => Json.carries_nat32 (h.totalViolations n hn)
  have hauto := fun b (_ : b ∈ p.autoSubmitted) => Json.carries_bool b
  have hspent := fun n hn => Json.carries_nat64 (h.timeSpentSeconds n hn)
  have hcompleted := fun time htime => Json.carries_stamp (h.completedAt time htime)
  constructor
  · refine Json.plainMembers_present p.entries ?_
    simp only [entries, List.forall_mem_cons, List.not_mem_nil, false_implies, implies_true,
      and_true]
    exact ⟨Json.plain_map hstatus, Json.plain_map hlives, Json.plain_map hviolations,
      Json.plain_map hauto, Json.plain_map hspent, Json.plain_map hcompleted⟩
  · have hslots : Json.slots? fields p.toJson = some (p.entries.map Prod.snd) :=
      Json.slots?_entries rfl (by decide)
    rw [ofJson?, hslots]
    simp [entries, Json.optional_map hstatus rfl, Json.optional_map hlives rfl,
      Json.optional_map hviolations rfl, Json.optional_map hauto rfl,
      Json.optional_map hspent rfl, Json.optional_map hcompleted rfl]

end SessionPatch

/-! ## Answers -/

namespace RunResult

/-- A result whose counts fit their fields. -/
structure Writable (r : RunResult) : Prop where
  testsPassed : r.testsPassed < Nat.pow 2 32
  testsTotal : r.testsTotal < Nat.pow 2 32
  compilationErrors : r.compilationErrors < Nat.pow 2 32
  runtimeErrors : r.runtimeErrors < Nat.pow 2 32

theorem carries {r : RunResult} (h : r.Writable) : Carries toJson ofJson? r := by
  have hpassed := Json.carries_nat32 h.testsPassed
  have htotal := Json.carries_nat32 h.testsTotal
  have hcompilation := Json.carries_nat32 h.compilationErrors
  have hruntime := Json.carries_nat32 h.runtimeErrors
  have hgrader := fun s (_ : s ∈ r.graderError) => Json.carries_text s
  constructor
  · exact ⟨hpassed.plain, htotal.plain, hcompilation.plain, hruntime.plain,
      Json.plain_option hgrader, trivial⟩
  · rw [ofJson?, toJson, Json.slots?_object rfl (by decide)]
    simp [Json.needed, Json.withDefault, hpassed.read_eq, htotal.read_eq, hcompilation.read_eq,
      hruntime.read_eq, Json.optional_option hgrader rfl]

end RunResult

namespace Answer

/-- An answer whose numbers fit their fields, with a moment that the calendar knows. -/
structure Writable (a : Answer) : Prop where
  questionIndex : a.questionIndex < Nat.pow 2 64
  testsPassed : a.testsPassed < Nat.pow 2 32
  testsTotal : a.testsTotal < Nat.pow 2 32
  compilationErrors : a.compilationErrors < Nat.pow 2 32
  runtimeErrors : a.runtimeErrors < Nat.pow 2 32
  runCount : a.runCount < Nat.pow 2 32
  lastRunAt : ∀ time ∈ a.lastRunAt, time.Datable

theorem carries {a : Answer} (h : a.Writable) : Carries toJson ofJson? a := by
  have hindex := Json.carries_nat64 h.questionIndex
  have hpassed := Json.carries_nat32 h.testsPassed
  have htotal := Json.carries_nat32 h.testsTotal
  have hcompilation := Json.carries_nat32 h.compilationErrors
  have hruntime := Json.carries_nat32 h.runtimeErrors
  have hruns := Json.carries_nat32 h.runCount
  have hlast := fun time htime => Json.carries_stamp (h.lastRunAt time htime)
  constructor
  · exact ⟨hindex.plain, trivial, trivial, a.status.carries.plain, hpassed.plain, htotal.plain,
      hcompilation.plain, hruntime.plain, hruns.plain, Json.plain_option hlast, trivial⟩
  · rw [ofJson?, toJson, Json.slots?_object rfl (by decide), Option.bind_eq_bind,
      Option.bind_some]
    simp only [members, List.map_cons, List.map_nil, Json.needed, Json.text?,
      Option.bind_eq_bind, Option.bind_some, a.status.carries.read_eq, hindex.read_eq,
      hpassed.read_eq, htotal.read_eq, hcompilation.read_eq, hruntime.read_eq, hruns.read_eq,
      Json.optional_option hlast rfl]

end Answer

namespace AnswerPatch

/-- A patch whose numbers fit their fields, with a moment that the calendar knows. -/
structure Writable (p : AnswerPatch) : Prop where
  testsPassed : ∀ n ∈ p.testsPassed, n < Nat.pow 2 32
  testsTotal : ∀ n ∈ p.testsTotal, n < Nat.pow 2 32
  compilationErrors : ∀ n ∈ p.compilationErrors, n < Nat.pow 2 32
  runtimeErrors : ∀ n ∈ p.runtimeErrors, n < Nat.pow 2 32
  runCount : ∀ n ∈ p.runCount, n < Nat.pow 2 32
  lastRunAt : ∀ time ∈ p.lastRunAt, time.Datable

/-- The members of a patch, with those that it leaves out. -/
def entries (p : AnswerPatch) : List (String × Option Json) :=
  [("code", p.code.map Json.text), ("status", p.status.map AnswerStatus.toJson),
    ("tests_passed", p.testsPassed.map Json.nat), ("tests_total", p.testsTotal.map Json.nat),
    ("compilation_errors", p.compilationErrors.map Json.nat),
    ("runtime_errors", p.runtimeErrors.map Json.nat), ("run_count", p.runCount.map Json.nat),
    ("last_run_at", p.lastRunAt.map Stamp.toJson)]

theorem carries {p : AnswerPatch} (h : p.Writable) : Carries toJson ofJson? p := by
  have hcode := fun s (_ : s ∈ p.code) => Json.carries_text s
  have hstatus := fun s (_ : s ∈ p.status) => s.carries
  have hpassed := fun n hn => Json.carries_nat32 (h.testsPassed n hn)
  have htotal := fun n hn => Json.carries_nat32 (h.testsTotal n hn)
  have hcompilation := fun n hn => Json.carries_nat32 (h.compilationErrors n hn)
  have hruntime := fun n hn => Json.carries_nat32 (h.runtimeErrors n hn)
  have hruns := fun n hn => Json.carries_nat32 (h.runCount n hn)
  have hlast := fun time htime => Json.carries_stamp (h.lastRunAt time htime)
  constructor
  · refine Json.plainMembers_present p.entries ?_
    simp only [entries, List.forall_mem_cons, List.not_mem_nil, false_implies, implies_true,
      and_true]
    exact ⟨Json.plain_map hcode, Json.plain_map hstatus, Json.plain_map hpassed,
      Json.plain_map htotal, Json.plain_map hcompilation, Json.plain_map hruntime,
      Json.plain_map hruns, Json.plain_map hlast⟩
  · have hslots : Json.slots? fields p.toJson = some (p.entries.map Prod.snd) :=
      Json.slots?_entries rfl (by decide)
    rw [ofJson?, hslots]
    simp [entries, Json.optional_map hcode rfl, Json.optional_map hstatus rfl,
      Json.optional_map hpassed rfl, Json.optional_map htotal rfl,
      Json.optional_map hcompilation rfl, Json.optional_map hruntime rfl,
      Json.optional_map hruns rfl, Json.optional_map hlast rfl]

end AnswerPatch

/-! ## Violations and snapshots -/

namespace Violation

/-- A violation whose numbers fit their fields, at a moment that the calendar knows. -/
structure Writable (v : Violation) : Prop where
  heartsBefore : v.heartsBefore < Nat.pow 2 8
  heartsAfter : v.heartsAfter < Nat.pow 2 8
  occurredAt : v.occurredAt.Datable

theorem carries {v : Violation} (h : v.Writable) : Carries toJson ofJson? v := by
  have hbefore := Json.carries_nat8 h.heartsBefore
  have hafter := Json.carries_nat8 h.heartsAfter
  have htime := Json.carries_stamp h.occurredAt
  constructor
  · exact ⟨trivial, trivial, trivial, v.violationType.carries.plain, hbefore.plain, hafter.plain,
      htime.plain, trivial⟩
  · rw [ofJson?, toJson, Json.slots?_object rfl (by decide)]
    simp [members, Json.needed, Json.text?, v.violationType.carries.read_eq, hbefore.read_eq,
      hafter.read_eq, htime.read_eq]

end Violation

namespace TimerStatus

/-- A clock whose times fit their fields. -/
structure Writable (t : TimerStatus) : Prop where
  totalSeconds : t.totalSeconds < Nat.pow 2 64
  elapsedSeconds : t.elapsedSeconds < Nat.pow 2 64
  remainingSeconds : t.remainingSeconds < Nat.pow 2 64
  secondsUntilSubmit : t.secondsUntilSubmit < Nat.pow 2 64

theorem carries {t : TimerStatus} (h : t.Writable) : Carries toJson ofJson? t := by
  have htotal := Json.carries_nat64 h.totalSeconds
  have helapsed := Json.carries_nat64 h.elapsedSeconds
  have hremaining := Json.carries_nat64 h.remainingSeconds
  have hlocked := Json.carries_nat64 h.secondsUntilSubmit
  constructor
  · exact ⟨htotal.plain, helapsed.plain, hremaining.plain, trivial, hlocked.plain, trivial,
      trivial⟩
  · rw [ofJson?, toJson, Json.slots?_object rfl (by decide)]
    simp [Json.needed, Json.bool?, htotal.read_eq, helapsed.read_eq, hremaining.read_eq,
      hlocked.read_eq]

end TimerStatus

namespace Snapshot

/-- A snapshot of records that can be written. -/
structure Writable (s : Snapshot) : Prop where
  session : s.session.Writable
  answers : ∀ a ∈ s.answers, a.Writable
  violations : ∀ v ∈ s.violations, v.Writable
  timer : ∀ t ∈ s.timer, t.Writable

theorem carries {s : Snapshot} (h : s.Writable) : Carries toJson ofJson? s := by
  have hsession := Session.carries h.session
  have hanswers := Json.carries_listOf fun a ha => Answer.carries (h.answers a ha)
  have hviolations := Json.carries_listOf fun v hv => Violation.carries (h.violations v hv)
  have htimer := fun t ht => TimerStatus.carries (h.timer t ht)
  have hpending := fun v (_ : v ∈ s.pendingViolation) => v.carries
  constructor
  · exact ⟨hsession.plain, hanswers.plain, hviolations.plain, Json.plain_option htimer,
      Json.plain_option hpending, trivial⟩
  · rw [ofJson?, toJson, Json.slots?_object rfl (by decide)]
    simp [members, Json.needed, hsession.read_eq, hanswers.read_eq, hviolations.read_eq,
      Json.optional_option htimer rfl, Json.optional_option hpending rfl]

end Snapshot

/-! ## Signals and directives -/

namespace Signal

/-- A tagged record of flat members is read as its variant. -/
theorem ofJson?_tagged {name : String} {members : List (String × Json)}
    (hname : variants.contains name = true) (htype : "type" ∉ members.map Prod.fst)
    (hfits : Json.FitMembers 0 members) :
    ofJson? (.tagged name members) = ofVariant? name (.object members) := by
  have hplace : (Json.Place.text 0).Leaves 1 := by decide
  rw [ofJson?, Json.variant?_tagged hplace hname htype hfits]
  rfl

/-- **Every signal is read as the same variant.** -/
theorem carries (s : Signal) : Carries toJson ofJson? s := by
  -- most variants have no fields, so nothing has to be read but the tag
  have hbare : ∀ name, variants.contains name = true →
      ofJson? (.tagged name []) = ofVariant? name (.object []) :=
    fun name hname => ofJson?_tagged hname List.not_mem_nil trivial
  cases s with
  | fullscreenChange active =>
    refine ⟨⟨trivial, trivial, trivial⟩, ?_⟩
    exact Eq.trans (ofJson?_tagged (by decide) (by simp) ⟨Json.fits_bool 0 active, trivial⟩) rfl
  | visibilityChange hidden =>
    refine ⟨⟨trivial, trivial, trivial⟩, ?_⟩
    exact Eq.trans (ofJson?_tagged (by decide) (by simp) ⟨Json.fits_bool 0 hidden, trivial⟩) rfl
  | keyDown key ctrl command =>
    refine ⟨⟨trivial, trivial, trivial, trivial, trivial⟩, ?_⟩
    exact Eq.trans (ofJson?_tagged (by decide) (by simp)
      ⟨Json.fits_text 0 key, Json.fits_bool 0 ctrl, Json.fits_bool 0 command, trivial⟩) rfl
  | fullscreenDenied => exact ⟨Json.plain_tagged_nil _, hbare _ (by decide)⟩
  | windowBlur => exact ⟨Json.plain_tagged_nil _, hbare _ (by decide)⟩
  | windowFocus => exact ⟨Json.plain_tagged_nil _, hbare _ (by decide)⟩
  | copy => exact ⟨Json.plain_tagged_nil _, hbare _ (by decide)⟩
  | paste => exact ⟨Json.plain_tagged_nil _, hbare _ (by decide)⟩
  | contextMenu => exact ⟨Json.plain_tagged_nil _, hbare _ (by decide)⟩
  | popState => exact ⟨Json.plain_tagged_nil _, hbare _ (by decide)⟩
  | beforeUnload => exact ⟨Json.plain_tagged_nil _, hbare _ (by decide)⟩

end Signal

namespace Directive

/-- A directive whose number fits its field. -/
def Writable : Directive → Prop
  | showWarning _ grace => grace < Nat.pow 2 64
  | preventDefault => True
  | notify _ => True
  | clearWarning => True
  | requestFullscreen => True
  | exitFullscreen => True
  | pushHistoryState => True
  | confirmUnload _ => True

/-- A tagged record of flat members is read as its variant, also some way into a text. -/
theorem ofJsonAt?_tagged {place : Json.Place} {name : String} {members : List (String × Json)}
    (hplace : place.Leaves 1) (hname : variants.contains name = true)
    (htype : "type" ∉ members.map Prod.fst) (hfits : Json.FitMembers 0 members) :
    ofJsonAt? place (.tagged name members) = ofVariant? name (.object members) := by
  rw [ofJsonAt?, Json.variant?_tagged hplace hname htype hfits]
  rfl

/-- **Every directive is read as the same variant,** on its own, in a list of an outcome or in an
event. -/
theorem carriesAt {place : Json.Place} (hplace : place.Leaves 1) {d : Directive}
    (h : d.Writable) : Carries toJson (ofJsonAt? place) d := by
  have hbare : ∀ name, variants.contains name = true →
      ofJsonAt? place (.tagged name []) = ofVariant? name (.object []) :=
    fun name hname => ofJsonAt?_tagged hplace hname List.not_mem_nil trivial
  cases d with
  | notify message =>
    refine ⟨⟨trivial, trivial, trivial⟩, ?_⟩
    exact Eq.trans (ofJsonAt?_tagged hplace (by decide) (by simp)
      ⟨Json.fits_text 0 message, trivial⟩) rfl
  | confirmUnload message =>
    refine ⟨⟨trivial, trivial, trivial⟩, ?_⟩
    exact Eq.trans (ofJsonAt?_tagged hplace (by decide) (by simp)
      ⟨Json.fits_text 0 message, trivial⟩) rfl
  | showWarning message grace =>
    have hgrace := Json.carries_nat64 h
    refine ⟨⟨trivial, trivial, hgrace.plain, trivial⟩, ?_⟩
    refine Eq.trans (ofJsonAt?_tagged hplace (by decide) (by simp)
      ⟨Json.fits_text 0 message, Json.fits_nat 0 h, trivial⟩) ?_
    rw [ofVariant?, Json.slots?_object rfl (by decide)]
    simp [Json.needed, Json.text?, hgrace.read_eq]
  | preventDefault => exact ⟨Json.plain_tagged_nil _, hbare _ (by decide)⟩
  | clearWarning => exact ⟨Json.plain_tagged_nil _, hbare _ (by decide)⟩
  | requestFullscreen => exact ⟨Json.plain_tagged_nil _, hbare _ (by decide)⟩
  | exitFullscreen => exact ⟨Json.plain_tagged_nil _, hbare _ (by decide)⟩
  | pushHistoryState => exact ⟨Json.plain_tagged_nil _, hbare _ (by decide)⟩

theorem carries {d : Directive} (h : d.Writable) : Carries toJson ofJson? d :=
  carriesAt (by decide : (Json.Place.text 0).Leaves 1) h

end Directive

namespace SignalOutcome

/-- An outcome whose numbers fit their fields. -/
structure Writable (o : SignalOutcome) : Prop where
  directives : ∀ d ∈ o.directives, d.Writable
  livesRemaining : o.livesRemaining < Nat.pow 2 8

theorem carries {o : SignalOutcome} (h : o.Writable) : Carries toJson ofJson? o := by
  have hdirectives := Json.carries_listOf fun d hd =>
    Directive.carriesAt (by decide : (Json.Place.text 2).Leaves 1) (h.directives d hd)
  have hlives := Json.carries_nat8 h.livesRemaining
  have hpending := fun v (_ : v ∈ o.pendingViolation) => v.carries
  constructor
  · exact ⟨hdirectives.plain, hlives.plain, Json.plain_option hpending, trivial, trivial⟩
  · rw [ofJson?, toJson, Json.slots?_object rfl (by decide)]
    simp [Json.needed, Json.bool?, hdirectives.read_eq, hlives.read_eq,
      Json.optional_option hpending rfl]

end SignalOutcome

/-! ## Lives, eligibility and claims -/

theorem LivesState.carries {r : LivesState} (h : r.Writable) : Carries toJson ofJson? r :=
  ⟨plain_toJson h, ofJson?_toJson h⟩

namespace EligibilityRecord

/-- A record with moments that the calendar knows. -/
structure Writable (r : EligibilityRecord) : Prop where
  blockedAt : ∀ time ∈ r.blockedAt, time.Datable
  approvedAt : ∀ time ∈ r.approvedAt, time.Datable

theorem carries {r : EligibilityRecord} (h : r.Writable) : Carries toJson ofJson? r := by
  have htext : ∀ o : Option String, ∀ s ∈ o, Carries .text Json.text? s :=
    fun _ s _ => Json.carries_text s
  have hblocked := fun time htime => Json.carries_stamp (h.blockedAt time htime)
  have happroved := fun time htime => Json.carries_stamp (h.approvedAt time htime)
  constructor
  · exact ⟨trivial, r.status.carries.plain, Json.plain_option (htext r.blockedSessionId),
      Json.plain_option hblocked, Json.plain_option (htext r.approvedBy),
      Json.plain_option happroved, trivial⟩
  · rw [ofJson?, toJson, Json.slots?_object rfl (by decide)]
    simp [members, Json.needed, Json.text?, r.status.carries.read_eq,
      Json.optional_option (htext _) rfl, Json.optional_option hblocked rfl,
      Json.optional_option happroved rfl]

end EligibilityRecord

namespace Claims

/-- Claims whose times fit their fields. -/
structure Writable (c : Claims) : Prop where
  exp : c.exp < Nat.pow 2 64
  iat : c.iat < Nat.pow 2 64

theorem carries {c : Claims} (h : c.Writable) : Carries toJson ofJson? c := by
  have hexp := Json.carries_nat64 h.exp
  have hiat := Json.carries_nat64 h.iat
  constructor
  · exact ⟨trivial, trivial, hexp.plain, hiat.plain, trivial⟩
  · rw [ofJson?, toJson, Json.slots?_object rfl (by decide)]
    simp [Json.needed, Json.text?, hexp.read_eq, hiat.read_eq]

end Claims

/-! ## All kinds -/

/-- The kinds of records that are exchanged or kept as texts. -/
inductive Kind where
  | question
  | session
  | sessionPatch
  | answer
  | answerPatch
  | runResult
  | violation
  | snapshot
  | signal
  | directive
  | signalOutcome
  | livesState
  | eligibilityRecord
  | claims
deriving DecidableEq, Repr

namespace Kind

/-- The records of a kind. -/
def Value : Kind → Type
  | question => Question
  | session => Session
  | sessionPatch => SessionPatch
  | answer => Answer
  | answerPatch => AnswerPatch
  | runResult => RunResult
  | violation => Violation
  | snapshot => Snapshot
  | signal => Signal
  | directive => Directive
  | signalOutcome => SignalOutcome
  | livesState => LivesState
  | eligibilityRecord => EligibilityRecord
  | claims => Claims

/-- How a record of a kind is written. -/
def toJson : (k : Kind) → k.Value → Json
  | question => Question.toJson
  | session => Session.toJson
  | sessionPatch => SessionPatch.toJson
  | answer => Answer.toJson
  | answerPatch => AnswerPatch.toJson
  | runResult => RunResult.toJson
  | violation => Violation.toJson
  | snapshot => Snapshot.toJson
  | signal => Signal.toJson
  | directive => Directive.toJson
  | signalOutcome => SignalOutcome.toJson
  | livesState => LivesState.toJson
  | eligibilityRecord => EligibilityRecord.toJson
  | claims => Claims.toJson

/-- How a record of a kind is read. -/
def ofJson? : (k : Kind) → Json → Option k.Value
  | question => Question.ofJson?
  | session => Session.ofJson?
  | sessionPatch => SessionPatch.ofJson?
  | answer => Answer.ofJson?
  | answerPatch => AnswerPatch.ofJson?
  | runResult => RunResult.ofJson?
  | violation => Violation.ofJson?
  | snapshot => Snapshot.ofJson?
  | signal => Signal.ofJson?
  | directive => Directive.ofJson?
  | signalOutcome => SignalOutcome.ofJson?
  | livesState => LivesState.ofJson?
  | eligibilityRecord => EligibilityRecord.ofJson?
  | claims => Claims.ofJson?

/-- The numbers of a record fit their fields, and its moments are such as the calendar knows. -/
def Writable : (k : Kind) → k.Value → Prop
  | question => Question.Writable
  | session => Session.Writable
  | sessionPatch => SessionPatch.Writable
  | answer => Answer.Writable
  | answerPatch => AnswerPatch.Writable
  | runResult => RunResult.Writable
  | violation => Violation.Writable
  | snapshot => Snapshot.Writable
  | signal => fun _ => True
  | directive => Directive.Writable
  | signalOutcome => SignalOutcome.Writable
  | livesState => LivesState.Writable
  | eligibilityRecord => EligibilityRecord.Writable
  | claims => Claims.Writable

theorem carries {k : Kind} {v : k.Value} (h : k.Writable v) : Carries k.toJson k.ofJson? v := by
  cases k with
  | question => exact Question.carries h
  | session => exact Session.carries h
  | sessionPatch => exact SessionPatch.carries h
  | answer => exact Answer.carries h
  | answerPatch => exact AnswerPatch.carries h
  | runResult => exact RunResult.carries h
  | violation => exact Violation.carries h
  | snapshot => exact Snapshot.carries h
  | signal => exact Signal.carries v
  | directive => exact Directive.carries h
  | signalOutcome => exact SignalOutcome.carries h
  | livesState => exact LivesState.carries h
  | eligibilityRecord => exact EligibilityRecord.carries h
  | claims => exact Claims.carries h

/-- The text of a record. -/
def text (k : Kind) (v : k.Value) : String := (k.toJson v).write

/-- The record of a text. -/
def ofText? (k : Kind) (text : String) : Option k.Value := (Json.read? text).bind k.ofJson?

/-- **The wire format is lossless.** A record of any kind is read from its text as it was written,
and no other record of its kind has the same text. -/
theorem ofText?_text (k : Kind) (v : k.Value) (hv : k.Writable v) :
    k.ofText? (k.text v) = some v ∧ ∀ w, k.Writable w → k.text w = k.text v → w = v :=
  ⟨(carries hv).read?_write, fun _ hw hsame => (carries hw).write_inj (carries hv) hsame⟩

/-- A snapshot with odd texts, the widest of numbers and moments with and without fractions. -/
def intricate : Snapshot where
  session :=
    { id := "s\n\"\\\u0000\u2028", userId := "😀 ü", language := .cpp,
      questionIds := ⟨"", "null", "q-3"⟩, status := .completed, livesRemaining := 255,
      totalViolations := Nat.pow 2 32 - 1, autoSubmitted := true,
      timeSpentSeconds := some (Nat.pow 2 64 - 1), startedAt := ⟨2932896, 86399, 999999999⟩,
      completedAt := none }
  answers := [{ (default : Answer) with lastRunAt := some ⟨-719528, 0, 1000⟩ }]
  violations := [{ (default : Violation) with occurredAt := ⟨19675, 59, 120000000⟩ }]
  timer := some ⟨3600, Nat.pow 2 64 - 1, 0, true, 1, false⟩
  pendingViolation := some .windowBlur

theorem writable_intricate : Snapshot.Writable intricate where
  session := ⟨by decide, by decide, by decide, by decide, by decide⟩
  answers := by
    intro a ha
    rw [List.mem_singleton.mp ha]
    exact ⟨by decide, by decide, by decide, by decide, by decide, by decide, by decide⟩
  violations := by
    intro v hv
    rw [List.mem_singleton.mp hv]
    exact ⟨by decide, by decide, by decide⟩
  timer := by
    intro t ht
    obtain rfl := Option.some.inj ht
    exact ⟨by decide, by decide, by decide, by decide⟩

theorem ofText?_text_intricate :
    Writable .snapshot intricate ∧ ofText? .snapshot (text .snapshot intricate) = some intricate ∧
      ∀ w, Writable .snapshot w → text .snapshot w = text .snapshot intricate → w = intricate :=
  ⟨writable_intricate, ofText?_text .snapshot intricate writable_intricate⟩

end Kind

end Invigilator
