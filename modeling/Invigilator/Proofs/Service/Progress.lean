import Invigilator.Proofs.Service.Moves

/-!
# What becomes of inquiries and starts

Two parts of the floor besides the sessions, and the same for them: `Advance` lists what can become
of an inquiry in a move, and `Course` what can become of a start. Each way names what was the case
on the floor when it was taken.
-/

namespace Invigilator

/-- The move is a step of an inquiry, or ends the wait of one. -/
def Move.concernsInquiries : Move → Bool
  | .inquire .. | .lookUp _ | .send _ | .receive _ | .search _ | .read _ | .handle _ | .close _ =>
    true
  | _ => false

/-- The move is a step of a start. -/
def Move.concernsStarts : Move → Bool
  | .enrol .. | .checkFree _ | .askGate _ | .launch _ | .confirm _ => true
  | _ => false

namespace Floor

variable {σ : Type}

/-! ## Inquiries -/

/-- What becomes of an inquiry in a move. -/
inductive Advance (f g : Floor σ) (k : Nat) (q : Query) : QueryStage → Prop where
  | refused {r : Running Seat} (was : q.stage = .looking)
      (found : f.hall.registry.find? q.id = some r) (other : r.userId ≠ q.userId) :
      Advance f g k q (.done (.error .forbidden))
  | missed (was : q.stage = .looking) (gone : f.hall.registry.find? q.id = none) :
      Advance f g k q .searching
  | addressed (was : q.stage = .looking) (told : q.inquiry.stimulus? ≠ none) :
      Advance f g k q .sending
  | subscribed (was : q.stage = .looking) (untold : q.inquiry.stimulus? = none) (number : Nat) :
      Advance f g k q (.done (.ok (.subscription number)))
  | returned (was : q.stage = .sending) {userId : String} (closed : f.At q.id userId .closed) :
      Advance f g k q .unanswered
  | sent (was : q.stage = .sending) {d : Desk} (posted : g.desks q.id = some d)
      (taken : d.stage ≠ .closed) (there : k ∈ d.letters) : Advance f g k q .waiting
  /-- The session takes a turn for it. -/
  | replied (was : q.stage = .waiting) {userId : String} {r : Running Seat} {x : Stimulus}
      {reply : Reply} {result : Except Fault Told} (here : f.At q.id userId .running)
      (found : f.hall.registry.find? q.id = some r) (live : r.value.sitting.isRunning = true)
      (told : q.inquiry.stimulus? = some x) (turned : f.hall.turn q.id x = (some reply, g.hall))
      (read : q.inquiry.ofReply? q.id reply = some result) : Advance f g k q (.replied result)
  | dismissed (was : q.stage = .waiting) {userId : String} (left : f.At q.id userId .released) :
      Advance f g k q .unanswered
  | received {result : Except Fault Told} (was : q.stage = .replied result) :
      Advance f g k q (.done result)
  | resumed (was : q.stage = .unanswered) (on : q.inquiry.goesOn = true) :
      Advance f g k q .searching
  | dropped (was : q.stage = .unanswered) (off : q.inquiry.goesOn = false) :
      Advance f g k q (.done (.error .notActive))
  | found {s : Snapshot} (was : q.stage = .searching)
      (archived : f.hall.registry.archive.find? q.id = some s)
      (owner : s.session.userId = q.userId) : Advance f g k q (.done (q.inquiry.ofFinal q.id s))
  | strange {s : Snapshot} (was : q.stage = .searching)
      (archived : f.hall.registry.archive.find? q.id = some s)
      (other : s.session.userId ≠ q.userId) : Advance f g k q (.done (.error .forbidden))
  | unfiled (was : q.stage = .searching)
      (absent : f.hall.registry.archive.find? q.id = none) : Advance f g k q .reading
  | read (was : q.stage = .reading) (result : Except Fault Told) : Advance f g k q (.done result)

/-- What a move does about one inquiry. -/
inductive Asks (f g : Floor σ) (k : Nat) : Option Query → Option Query → Prop where
  | rests (o : Option Query) : Asks f g k o o
  | comes (id userId : String) (inquiry : Inquiry) :
      Asks f g k none (some ⟨id, userId, inquiry, f.owns id userId, .looking⟩)
  | goesOn {q : Query} {stage : QueryStage} (advance : f.Advance g k q stage) :
      Asks f g k (some q) (some { q with stage })

variable {f g : Floor σ}

theorem asks_of_same (h : g.queries = f.queries) (k : Nat) :
    Asks f g k (f.queries k) (g.queries k) := by
  rw [h]
  exact .rests _

theorem asks_of_stage {k : Nat} {q : Query} {stage : QueryStage} (hq : f.queries k = some q)
    (hg : g.queries = Function.update f.queries k (some { q with stage }))
    (h : f.Advance g k q stage) (other : Nat) :
    Asks f g other (f.queries other) (g.queries other) := by
  by_cases hk : other = k
  · subst hk
    rw [hg, Function.update_self, hq]
    exact .goesOn h
  · rw [hg, Function.update_of_ne hk]
    exact .rests _

theorem exists_of_isLive {id : String} (h : f.isLive id = true) :
    ∃ r, f.hall.registry.find? id = some r ∧ r.value.sitting.isRunning = true := by
  simpa [isLive, Option.any_eq_true] using h

variable (f) (k : Nat)

theorem asks_inquire (id userId : String) (inquiry : Inquiry) (other : Nat) :
    Asks f (f.inquire k id userId inquiry) other (f.queries other)
      ((f.inquire k id userId inquiry).queries other) := by
  cases hq : f.queries k with
  | some q =>
    have hsame : f.inquire k id userId inquiry = f := by rw [inquire, hq]
    rw [hsame]
    exact .rests _
  | none =>
    have hnew : (f.inquire k id userId inquiry).queries = Function.update f.queries k
        (some ⟨id, userId, inquiry, f.owns id userId, .looking⟩) := by rw [inquire, hq]; rfl
    by_cases hk : other = k
    · subst hk
      rw [hnew, Function.update_self, hq]
      exact .comes id userId inquiry
    · rw [hnew, Function.update_of_ne hk]
      exact .rests _

theorem asks_lookUp (other : Nat) :
    Asks f (f.lookUp k) other (f.queries other) ((f.lookUp k).queries other) := by
  unfold lookUp
  split
  · rename_i q hq
    split
    · rename_i hstage
      rcases Service.run_isRunningFor_cases q.id q.userId f.service with
        ⟨hgone, hrun⟩ | ⟨r, hfind, ⟨howner, hrun⟩ | ⟨hother, hrun⟩⟩
      · simp only [hrun]
        exact asks_of_stage hq rfl (.missed hstage hgone) other
      · have hrunning := congrArg Prod.fst hrun
        simp only [hrun]
        split
        · rename_i x htold
          exact asks_of_stage hq rfl (.addressed hstage (by simp [htold])) other
        · rename_i htold
          obtain ⟨relays, notes, hcall⟩ := run_untold htold hrunning
          simp only [hcall]
          exact asks_of_stage hq rfl (.subscribed hstage htold _) other
      · simp only [hrun]
        exact asks_of_stage hq rfl (.refused hstage hfind hother) other
    · exact .rests _
  · exact .rests _

theorem asks_send (other : Nat) :
    Asks f (f.send k) other (f.queries other) ((f.send k).queries other) := by
  unfold send
  split
  · rename_i q hq
    split
    · rename_i hstage
      split
      · exact .rests _
      · rename_i d hd
        split
        · rename_i hclosed
          exact asks_of_stage hq rfl (.returned hstage (at_of_desk hd hclosed)) other
        · rename_i hclosed
          split
          · have hposted : ((f.putDesk q.id { d with letters := d.letters ++ [k] }).stageQuery k q
                .waiting).desks q.id = some { d with letters := d.letters ++ [k] } :=
              Function.update_self ..
            exact asks_of_stage hq rfl (.sent hstage hposted hclosed (by simp)) other
          · exact .rests _
    · exact .rests _
  · exact .rests _

theorem asks_receive (other : Nat) :
    Asks f (f.receive k) other (f.queries other) ((f.receive k).queries other) := by
  unfold receive
  split
  · rename_i q hq
    split
    · rename_i hstage
      exact asks_of_stage hq rfl (.received hstage) other
    · rename_i hstage
      refine asks_of_stage hq rfl ?_ other
      split
      · rename_i hon
        exact .resumed hstage hon
      · rename_i hoff
        exact .dropped hstage (Bool.not_eq_true _ ▸ hoff)
    · exact .rests _
  · exact .rests _

theorem asks_search (other : Nat) :
    Asks f (f.search k) other (f.queries other) ((f.search k).queries other) := by
  unfold search
  split
  · rename_i q hq
    split
    · rename_i hstage
      split
      · rename_i s hs
        unfold findFinal
        split
        · rename_i howner
          exact asks_of_stage hq rfl (.found hstage hs howner) other
        · rename_i hother
          exact asks_of_stage hq rfl (.strange hstage hs hother) other
      · rename_i hnone
        exact asks_of_stage hq rfl (.unfiled hstage hnone) other
    · exact .rests _
  · exact .rests _

theorem asks_read (other : Nat) :
    Asks f (f.read k) other (f.queries other) ((f.read k).queries other) := by
  unfold read
  split
  · rename_i q hq
    split
    · rename_i hstage
      split
      · unfold findFinal
        split <;> exact asks_of_stage hq rfl (.read hstage _) other
      · exact asks_of_stage hq rfl (.read hstage _) other
    · exact .rests _
  · exact .rests _

theorem asks_handle (id : String) (other : Nat) :
    Asks f (f.handle id) other (f.queries other) ((f.handle id).queries other) := by
  unfold handle
  split
  · rename_i d hd
    split
    · rename_i k rest hletters
      split
      · rename_i hlive
        unfold answer
        split
        · exact .rests _
        · rename_i q hq
          split
          · rename_i hstage
            split
            · rename_i hid
              subst hid
              split
              · exact .rests _
              · rename_i x hx
                obtain ⟨r, hfind, hrun⟩ := exists_of_isLive hlive.2
                have hturn := Hall.turn_of_find? hfind x
                -- a session that runs always replies with something the inquiry can read
                obtain ⟨result, hresult⟩ := Inquiry.exists_ofReply? (Hall.ledger r.value)
                  (f.hall.scene r.value) (s := (r.value.sitting, r.value.lives)) hrun hx q.id
                have hput : (f.putDesk q.id { d with letters := rest }).hall.turn q.id x = _ :=
                  hturn
                have hasked : f.queries k = some q := hq
                simp only [hput, Option.bind_some, hresult]
                exact asks_of_stage hasked rfl
                  (.replied hstage (at_of_desk hd hlive.1) hfind hrun hx hturn hresult) other
            · exact .rests _
          · exact .rests _
      · exact .rests _
    · exact .rests _
  · exact .rests _

theorem asks_close (id : String) (other : Nat) :
    Asks f (f.close id) other (f.queries other) ((f.close id).queries other) := by
  unfold close
  split
  · rename_i d hd
    split
    · rename_i hstage
      cases hq : f.queries other with
      | none =>
        simp only [putDesk, hq, Option.map_none]
        exact .rests _
      | some q =>
        simp only [putDesk, hq, Option.map_some]
        unfold dismiss
        -- the desk gives all its letters back, and nobody else's inquiry is touched
        split
        · rename_i hwaiting
          split
          · rename_i hid
            obtain ⟨rfl, -⟩ := hid
            exact .goesOn (.dismissed hwaiting (at_of_desk hd hstage))
          · exact .rests _
        · exact .rests _
    · exact .rests _
  · exact .rests _

/-- Starts and sessions go on without the inquiries, but for the letters. -/
theorem queries_step {m : Move} (h : m.concernsInquiries = false) :
    (f.step m).queries = f.queries := by
  cases m with
  | inquire | lookUp | send | receive | search | read | handle | close => cases h
  | fire due =>
    cases due <;> simp only [step, fire, fireAt]
    all_goals repeat' split
    all_goals rfl
  | enrol | checkFree | askGate | launch | confirm | commence | file | release =>
    simp only [step, enrol, checkFree, askGate, launch, confirm, commence, file, release]
    repeat' split
    all_goals rfl
  | write | approve | pass | listen | switch | trouble => rfl

/-- **What a move does about the inquiries.** -/
theorem asks_step (m : Move) : Asks f (f.step m) k (f.queries k) ((f.step m).queries k) := by
  cases m with
  | inquire i id userId inquiry => exact f.asks_inquire i id userId inquiry k
  | lookUp i => exact f.asks_lookUp i k
  | send i => exact f.asks_send i k
  | receive i => exact f.asks_receive i k
  | search i => exact f.asks_search i k
  | read i => exact f.asks_read i k
  | handle id => exact f.asks_handle id k
  | close id => exact f.asks_close id k
  | enrol | checkFree | askGate | launch | confirm | commence | fire | file | release =>
    exact asks_of_same (f.queries_step rfl) k
  | write | approve | pass | listen | switch | trouble => exact .rests _

variable {f k}

/-- An inquiry on the floor was there before, or came now, or has advanced. -/
theorem query_step {m : Move} {q : Query} (hq : (f.step m).queries k = some q) :
    f.queries k = some q ∨
    (f.queries k = none ∧ q.own = f.owns q.id q.userId ∧ q.stage = .looking) ∨
    ∃ before stage, f.queries k = some before ∧ q = { before with stage } ∧
      f.Advance (f.step m) k before stage := by
  have hasks := f.asks_step k m
  rw [hq] at hasks
  generalize hbefore : f.queries k = before at hasks
  cases hasks with
  | rests => exact .inl rfl
  | comes id userId inquiry => exact .inr (.inl ⟨rfl, rfl, rfl⟩)
  | goesOn advance => exact .inr (.inr ⟨_, _, rfl, rfl, advance⟩)

/-- An inquiry goes on in every move, or stays where it is. -/
theorem query_goes {q : Query} (hq : f.queries k = some q) (m : Move) :
    (f.step m).queries k = some q ∨
    ∃ stage, (f.step m).queries k = some { q with stage } ∧ f.Advance (f.step m) k q stage := by
  have hasks := f.asks_step k m
  rw [hq] at hasks
  generalize hafter : (f.step m).queries k = after at hasks
  cases hasks with
  | rests => exact .inl rfl
  | goesOn advance => exact .inr ⟨_, rfl, advance⟩

variable (f k)

/-! ## Starts -/

/-- What becomes of a start in a move. -/
inductive Course (f g : Floor σ) (m : Move) (k : Nat) (e : Enrolment) : EnrolmentStage → Prop where
  | free (was : e.stage = .checking) : Course f g m k e .asking
  | busy (was : e.stage = .checking) {id : String}
      (sits : f.hall.registry.sessionOf? e.userId = some id) :
      Course f g m k e (.done (.error (.alreadyInProgress id)))
  | admitted (was : e.stage = .asking) (asked : m = .askGate k)
      (eligible : f.hall.courier.records.gate.isEligible e.userId = true) :
      Course f g m k e .entering
  | refused (was : e.stage = .asking) : Course f g m k e (.done (.error .ineligible))
  | launched (was : e.stage = .entering) {response : StartResponse}
      (seated : g.At response.sessionId e.userId .seated) : Course f g m k e (.launched response)
  | failed (was : e.stage = .entering) {fault : Fault}
      (sits : ∀ id, fault = .alreadyInProgress id →
        f.hall.registry.sessionOf? e.userId = some id) : Course f g m k e (.done (.error fault))
  | confirmed {response : StartResponse} (was : e.stage = .launched response) :
      Course f g m k e (.done (.ok response))

/-- What a move does about one start. -/
inductive Starts (f g : Floor σ) (m : Move) (k : Nat) :
    Option Enrolment → Option Enrolment → Prop where
  | rests (o : Option Enrolment) : Starts f g m k o o
  | comes (userId : String) (request : StartRequest) :
      Starts f g m k none (some ⟨userId, request, .checking⟩)
  | goesOn {e : Enrolment} {stage : EnrolmentStage} (course : f.Course g m k e stage) :
      Starts f g m k (some e) (some { e with stage })

variable {f k}

theorem starts_of_same {m : Move} (h : g.enrolments = f.enrolments) (other : Nat) :
    Starts f g m other (f.enrolments other) (g.enrolments other) := by
  rw [h]
  exact .rests _

theorem starts_of_stage {m : Move} {e : Enrolment} {stage : EnrolmentStage}
    (he : f.enrolments k = some e)
    (hg : g.enrolments = Function.update f.enrolments k (some { e with stage }))
    (h : f.Course g m k e stage) (other : Nat) :
    Starts f g m other (f.enrolments other) (g.enrolments other) := by
  by_cases hk : other = k
  · subst hk
    rw [hg, Function.update_self, he]
    exact .goesOn h
  · rw [hg, Function.update_of_ne hk]
    exact .rests _

theorem enrolBy_ok {α : Type} {e : Enrolment} {c : Call σ α} {next : α → EnrolmentStage} {x : α}
    (h : (c.run f.service).1 = .ok x) :
    (f.enrolBy k e c next).enrolments =
      Function.update f.enrolments k (some { e with stage := next x }) := by
  unfold enrolBy
  simp only [h, putEnrolment]

theorem enrolBy_error {α : Type} {e : Enrolment} {c : Call σ α} {next : α → EnrolmentStage}
    {fault : Fault} (h : (c.run f.service).1 = .error fault) :
    (f.enrolBy k e c next).enrolments =
      Function.update f.enrolments k (some { e with stage := .done (.error fault) }) := by
  unfold enrolBy
  simp only [h, putEnrolment]

variable (f k)

theorem starts_enrol {m : Move} (userId : String) (request : StartRequest) (other : Nat) :
    Starts f (f.enrol k userId request) m other (f.enrolments other)
      ((f.enrol k userId request).enrolments other) := by
  cases he : f.enrolments k with
  | some e =>
    have hsame : f.enrol k userId request = f := by rw [enrol, he]
    rw [hsame]
    exact .rests _
  | none =>
    have hnew : (f.enrol k userId request).enrolments = Function.update f.enrolments k
        (some ⟨userId, request, .checking⟩) := by rw [enrol, he]; rfl
    by_cases hk : other = k
    · subst hk
      rw [hnew, Function.update_self, he]
      exact .comes userId request
    · rw [hnew, Function.update_of_ne hk]
      exact .rests _

theorem starts_checkFree {m : Move} (other : Nat) :
    Starts f (f.checkFree k) m other (f.enrolments other) ((f.checkFree k).enrolments other) := by
  unfold checkFree
  split
  · rename_i e he
    split
    · rename_i hstage
      have hrun := congrArg Prod.fst (Service.run_checkFree e.userId f.service)
      cases hsits : f.hall.registry.sessionOf? e.userId with
      | none =>
        rw [hsits] at hrun
        exact starts_of_stage he (enrolBy_ok hrun) (.free hstage) other
      | some id =>
        rw [hsits] at hrun
        exact starts_of_stage he (enrolBy_error hrun) (.busy hstage hsits) other
    · exact .rests _
  · exact .rests _

theorem starts_askGate (other : Nat) :
    Starts f (f.askGate k) (.askGate k) other (f.enrolments other)
      ((f.askGate k).enrolments other) := by
  unfold askGate
  split
  · rename_i e he
    split
    · rename_i hstage
      have hrun := congrArg Prod.fst (Service.run_checkEligible e.userId f.service)
      cases heligible : f.hall.courier.records.gate.isEligible e.userId with
      | true =>
        rw [heligible] at hrun
        exact starts_of_stage he (enrolBy_ok hrun) (.admitted hstage rfl heligible) other
      | false =>
        rw [heligible] at hrun
        exact starts_of_stage he (enrolBy_error hrun) (.refused hstage) other
    · exact .rests _
  · exact .rests _

theorem starts_launch {m : Move} (other : Nat) :
    Starts f (f.launch k) m other (f.enrolments other) ((f.launch k).enrolments other) := by
  unfold launch
  split
  · rename_i e he
    split
    · rename_i hstage
      obtain ⟨notes, ⟨fault, hrun, hsits⟩ | ⟨response, seat, hrun, -, hnew, hid⟩⟩ :=
        admission_cases e.userId e.request f.service
      · have hresult := congrArg Prod.fst hrun
        simp only [hrun]
        exact starts_of_stage he (enrolBy_error hresult) (.failed hstage hsits) other
      · have hresult := congrArg Prod.fst hrun
        simp only [hrun]
        have hstarted : ((f.enrolBy k e (admission e.userId e.request) .launched).putDesk
              response.sessionId ⟨e.userId, .seated, []⟩).enrolments =
            Function.update f.enrolments k (some { e with stage := .launched response }) :=
          enrolBy_ok hresult
        refine starts_of_stage he hstarted (.launched hstage ?_) other
        rw [At, station_putDesk, Function.update_self]
    · exact .rests _
  · exact .rests _

theorem starts_confirm {m : Move} (other : Nat) :
    Starts f (f.confirm k) m other (f.enrolments other) ((f.confirm k).enrolments other) := by
  unfold confirm
  split
  · rename_i e he
    split
    · rename_i response hstage
      exact starts_of_stage he rfl (.confirmed hstage) other
    · exact .rests _
  · exact .rests _

/-- Inquiries and sessions go on without the starts. -/
theorem enrolments_step {m : Move} (h : m.concernsStarts = false) :
    (f.step m).enrolments = f.enrolments := by
  cases m with
  | enrol | checkFree | askGate | launch | confirm => cases h
  | fire due =>
    cases due <;> simp only [step, fire, fireAt]
    all_goals repeat' split
    all_goals rfl
  | inquire | lookUp | send | receive | search | read | commence | handle | file | release
  | close =>
    simp only [step, inquire, lookUp, send, receive, search, read, findFinal, commence, handle,
      answer, file, release, close]
    repeat' split
    all_goals rfl
  | write | approve | pass | listen | switch | trouble => rfl

/-- **What a move does about the starts.** -/
theorem starts_step (m : Move) :
    Starts f (f.step m) m k (f.enrolments k) ((f.step m).enrolments k) := by
  cases m with
  | enrol i userId request => exact f.starts_enrol i userId request k
  | checkFree i => exact f.starts_checkFree i k
  | askGate i => exact f.starts_askGate i k
  | launch i => exact f.starts_launch i k
  | confirm i => exact f.starts_confirm i k
  | inquire | lookUp | send | receive | search | read | commence | handle | fire | file | release
  | close => exact starts_of_same (f.enrolments_step rfl) k
  | write | approve | pass | listen | switch | trouble => exact .rests _

variable {f k}

/-- A start on the floor was there before, or came now, or has gone on. -/
theorem enrolment_step {m : Move} {e : Enrolment} (he : (f.step m).enrolments k = some e) :
    f.enrolments k = some e ∨ (f.enrolments k = none ∧ e.stage = .checking) ∨
    ∃ before stage, f.enrolments k = some before ∧ e = { before with stage } ∧
      f.Course (f.step m) m k before stage := by
  have hstarts := f.starts_step k m
  rw [he] at hstarts
  generalize hbefore : f.enrolments k = before at hstarts
  cases hstarts with
  | rests => exact .inl rfl
  | comes userId request => exact .inr (.inl ⟨rfl, rfl⟩)
  | goesOn course => exact .inr (.inr ⟨_, _, rfl, rfl, course⟩)

/-! ## Runs -/

theorem run_append (f : Floor σ) (first rest : List Move) :
    f.run (first ++ rest) = (f.run first).run rest := List.foldl_append ..

theorem run_concat (f : Floor σ) (moves : List Move) (m : Move) :
    f.run (moves ++ [m]) = (f.run moves).step m := run_append f moves [m]

end Floor

end Invigilator
