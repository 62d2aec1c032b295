import Invigilator.Proofs.Records.Mirror
import Invigilator.Proofs.Sitting.Lives

/-!
# Seats and their lives

An exam that the service starts is a seat: a sitting that is opened with the lives of the policy,
a ledger that gives none back, and a shelf of its own, empty and switched on. So what is known of
the accounts of any sitting holds of it without further assumptions.
-/

namespace Invigilator.Service

variable (settings : Settings) (hall : Hall) (userId : String) (language : Language)
  (questions : Trio Question)

theorem newSeat_sitting :
    (newSeat settings hall userId language questions).1.sitting =
      .opened (.begin (hall.source.sessionId hall.drawn) userId language
        (questions.map Question.id) settings.maxLives hall.time)
        (placeholders questions) (pace settings) hall.now := rfl

@[simp] theorem newSeat_id :
    (newSeat settings hall userId language questions).1.sitting.session.id =
      hall.source.sessionId hall.drawn := by
  rw [newSeat_sitting]
  rfl

@[simp] theorem newSeat_userId :
    (newSeat settings hall userId language questions).1.sitting.session.userId = userId := by
  rw [newSeat_sitting]
  rfl

theorem newSeat_ledger :
    Hall.ledger (newSeat settings hall userId language questions).1 =
      .lasting Shelf.store settings.maxLives := rfl

/-- **The lives of a started exam are in order.** Whatever comes in whatever order, the session, its
ledger and the records of its penalties agree, and the session is disqualified when it has no
life left and only then. Only an order to hand it in as out of lives is left out: the service never
gives one. -/
theorem newSeat_inOrder (cues : List Cue) (hlives : 0 < settings.maxLives)
    (hcues : ∀ c ∈ cues, c.stimulus ≠ .submit .livesExhausted) :
    Turn.InOrder (Hall.ledger (newSeat settings hall userId language questions).1)
      settings.maxLives
      (Turn.reached (Hall.ledger (newSeat settings hall userId language questions).1)
        ((newSeat settings hall userId language questions).1.sitting,
          (newSeat settings hall userId language questions).1.lives) cues) := by
  rw [newSeat_ledger, newSeat_sitting]
  have hheld := Turn.held_opened (.begin (hall.source.sessionId hall.drawn) userId language
    (questions.map Question.id) settings.maxLives hall.time) (placeholders questions)
    (pace settings) hall.now rfl rfl
  have ht : Turn.Tally (.lasting Shelf.store settings.maxLives) Shelf.find? settings.maxLives []
      _ :=
    Turn.tally_opened Shelf.store (.begin (hall.source.sessionId hall.drawn) userId language
      (questions.map Question.id) settings.maxLives hall.time) (placeholders questions)
      (pace settings) hall.now .empty rfl rfl rfl rfl
  refine Turn.inOrder_reached Shelf.store_honest Shelf.store_reliable hheld ht ?_ rfl cues hcues
  exact iff_of_false nofun (Nat.pos_iff_ne_zero.mp hlives)

/-- The three lives of the standard policy go one by one: for copying, for leaving, for pasting. -/
def threeLosses : List Cue :=
  [.at 0 (.signal .copy), .at 1000 (.signal (.fullscreenChange false)), .at 11000 .graceElapsed,
    .at 12000 (.signal .paste), .at 13000 .tick]

theorem newSeat_inOrder_threeLosses :
    (Turn.reached (.lasting Shelf.store 3)
        ((newSeat .standard (.new default .plain 8) "u-1" .python default).1.sitting, .empty)
        threeLosses).1.session.status = .disqualified ∧
      Turn.InOrder (.lasting Shelf.store 3) 3
        (Turn.reached (.lasting Shelf.store 3)
          ((newSeat .standard (.new default .plain 8) "u-1" .python default).1.sitting, .empty)
          threeLosses) :=
  ⟨by decide +kernel, newSeat_inOrder .standard (.new default .plain 8) "u-1" .python default
    threeLosses (by decide) (by decide)⟩

/-! ## Starting -/

section Starting

open Call

variable {σ : Type}

@[simp] theorem run_changeHall (f : Hall → Hall) (s : Service σ) :
    (changeHall f).run s = (.ok (), { s with hall := f s.hall }) := rfl

@[simp] theorem run_askHall (f : Hall → α × Hall) (s : Service σ) :
    (askHall f).run s = (.ok (f s.hall).1, { s with hall := (f s.hall).2 }) := rfl

@[simp] theorem run_jot (notes : List Note) (s : Service σ) :
    (Call.jot notes).run s = (.ok (), { s with hall := s.hall.jot notes }) := rfl

/-- The choice of questions takes notes of the pool, and leaves the rest of the service alone. -/
theorem run_chooseQuestions (r : StartRequest) (s : Service σ) :
    let pool := s.catalog.pool r.language r.wantedTopic
    let hall := s.hall.jot (samplingNotes pool)
    (chooseQuestions r).run s =
      match Selection.choose? pool (s.hall.source.questions s.hall.drawn) with
      | some questions => (.ok questions, { s with hall := hall })
      | none =>
        (.error (.selectionExhausted r.language (r.wantedTopic.getD "any") pool.length),
          { s with
            hall := hall.jot [.warn ("Question pool exhausted: language=" ++ r.language.name ++
              ", topic=" ++ topicText r.wantedTopic ++ ", available=" ++
              Decimal.text pool.length)] }) := by
  simp only [chooseQuestions, service, Call.run, bind, andThen, jot, changeHall]
  cases Selection.choose? (s.catalog.pool r.language r.wantedTopic)
      (s.hall.source.questions s.hall.drawn) <;> rfl

theorem jot_jot (h : Hall) (a b : List Note) : (h.jot a).jot b = h.jot (a ++ b) := by
  simp [Hall.jot]

/-- What comes of the choice of questions, and that it leaves notes at most. -/
theorem chooseQuestions_cases (r : StartRequest) (s : Service σ) :
    ∃ notes, (∃ questions,
        (chooseQuestions r).run s = (.ok questions, { s with hall := s.hall.jot notes })) ∨
      ∃ topic available, (chooseQuestions r).run s =
        (.error (.selectionExhausted r.language topic available),
          { s with hall := s.hall.jot notes }) := by
  rw [run_chooseQuestions]
  cases Selection.choose? (s.catalog.pool r.language r.wantedTopic)
      (s.hall.source.questions s.hall.drawn) with
  | some questions => exact ⟨_, .inl ⟨questions, rfl⟩⟩
  | none => exact ⟨_, .inr ⟨_, _, by rw [jot_jot]⟩⟩

/-- What a start does once its questions are chosen, with whatever seat is made for them. -/
def seatWith (make : Settings → Hall → Seat × List Directive) (userId : String)
    (r : StartRequest) (questions : Trio Question) : Call σ StartResponse := do
  let s ← service
  let settings := s.config.exam
  let (seat, directives) := make settings s.hall
  let id := seat.sitting.session.id
  match s.hall.draw.launch seat with
  | .error existing => fail (.alreadyInProgress existing)
  | .ok hall => do
    changeHall fun _ => hall
    jot [.info ("Exam started: session=" ++ id ++ ", user=" ++ userId ++ ", language=" ++
      r.language.name ++ ", questions=" ++ Text.quotedList (questions.toList.map Question.id))]
    pure
      { sessionId := id, language := r.language,
        questions := questions.toList.map Question.view, livesRemaining := settings.maxLives,
        totalSeconds := settings.durationSeconds,
        secondsUntilSubmit := settings.submitUnlockSeconds, directives := directives }

theorem begin_eq (userId : String) (r : StartRequest) :
    (begin userId r : Call σ StartResponse) = chooseQuestions r >>= fun questions =>
      seatWith (fun settings h => newSeat settings h userId r.language questions) userId r
        questions := rfl

/-- A seat is launched, or its user sits another exam. -/
theorem seatWith_cases (make : Settings → Hall → Seat × List Directive) (userId : String)
    (r : StartRequest) (questions : Trio Question) (s : Service σ) :
    (∃ existing, s.hall.draw.launch (make s.config.exam s.hall).1 = .error existing ∧
      (seatWith make userId r questions).run s = (.error (.alreadyInProgress existing), s)) ∨
    ∃ hall response notes, s.hall.draw.launch (make s.config.exam s.hall).1 = .ok hall ∧
      (seatWith make userId r questions).run s = (.ok response, { s with hall := hall.jot notes }) ∧
        response.sessionId = (make s.config.exam s.hall).1.sitting.session.id ∧
        response.questions = questions.toList.map Question.view := by
  cases hlaunch : s.hall.draw.launch (make s.config.exam s.hall).1 with
  | error existing =>
    refine .inl ⟨existing, rfl, ?_⟩
    rw [seatWith, run_bind, run_service]
    dsimp only
    rw [hlaunch, run_fail]
  | ok hall =>
    refine .inr ⟨hall, ?_⟩
    rw [seatWith, run_bind, run_service]
    dsimp only
    rw [hlaunch]
    dsimp only
    rw [run_bind, run_changeHall]
    dsimp only
    rw [run_bind, run_jot]
    dsimp only
    rw [run_pure]
    exact ⟨_, _, rfl, rfl, rfl, rfl⟩

/-- A start that comes to be decided fails and leaves notes at most, or it launches a seat for the
user, under the id that the source gives next. -/
theorem begin_cases (userId : String) (r : StartRequest) (s : Service σ) :
    ∃ notes, (∃ fault,
        (begin userId r).run s = (.error fault, { s with hall := s.hall.jot notes })) ∨
      ∃ response more seat hall,
        (begin userId r).run s = (.ok response, { s with hall := hall.jot more }) ∧
          (s.hall.jot notes).draw.launch seat = .ok hall ∧
          response.sessionId = s.hall.source.sessionId s.hall.drawn ∧
          seat.sitting.session.id = response.sessionId ∧
          seat.sitting.session.userId = userId := by
  obtain ⟨notes, ⟨questions, hchosen⟩ | ⟨topic, available, hchosen⟩⟩ := chooseQuestions_cases r s
  · refine ⟨notes, ?_⟩
    rw [begin_eq, run_bind, hchosen]
    -- the questions are there, and the seat is set up with them
    rcases seatWith_cases (fun settings h => newSeat settings h userId r.language questions) userId
        r questions { s with hall := s.hall.jot notes } with
      ⟨existing, -, hrun⟩ | ⟨hall, response, more, hlaunch, hrun, hid, -⟩
    · exact .inl ⟨_, hrun⟩
    · have hseatId := newSeat_id s.config.exam (s.hall.jot notes) userId r.language questions
      exact .inr ⟨response, more, _, hall, hrun, hlaunch, hid.trans hseatId, hid.symm,
        newSeat_userId ..⟩
  · refine ⟨notes, .inl ⟨.selectionExhausted r.language topic available, ?_⟩⟩
    rw [begin_eq, run_bind, hchosen]

end Starting

end Invigilator.Service
