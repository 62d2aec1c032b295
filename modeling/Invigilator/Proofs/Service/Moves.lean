import Invigilator.Proofs.Service.Floor

/-!
# What a move does

Said once, so that no invariant of the floor opens the moves again. `Shift` is what a move does to
the sessions: at most one of them goes on by a stage, or takes a turn, and for the rest nothing
happens. `Advance` is what becomes of an inquiry, and `Course` of a start; both name what was the
case on the floor when it happened.
-/

namespace Invigilator

/-! ## The registry -/

namespace Registry

variable {α : Type} (r : Registry α) (id : String)

theorem find?_release (other : String) :
    (r.release id).find? other = if other = id then none else r.find? other := by
  unfold find? release
  rw [List.find?_filter]
  split
  · rename_i h
    rw [List.find?_eq_none]
    rintro s - hs
    simp [h] at hs
  · rename_i h
    congr 1
    funext s
    by_cases hs : s.sessionId = other <;> simp [hs, h]

theorem find?_update (value : α) (other : String) :
    (r.update id value).find? other =
      (r.find? other).map fun s => if s.sessionId = id then { s with value } else s := by
  unfold find? update
  rw [List.find?_map]
  congr 2
  funext s
  dsimp only [Function.comp]
  split <;> rfl

/-- What does not depend on the values is the same of every session that runs. -/
theorem map_active_update {β : Type} {g : Running α → β} (value : α)
    (hg : ∀ s : Running α, g { s with value } = g s) :
    (r.update id value).active.map g = r.active.map g := by
  simp only [update, List.map_map]
  refine List.map_congr_left fun s _ => ?_
  dsimp only [Function.comp]
  split
  · exact hg s
  · rfl

theorem sessionIds_update (value : α) :
    (r.update id value).active.map Running.sessionId = r.active.map Running.sessionId :=
  r.map_active_update id value fun _ => rfl

theorem userIds_update (value : α) :
    (r.update id value).active.map Running.userId = r.active.map Running.userId :=
  r.map_active_update id value fun _ => rfl

theorem update_update (first second : α) :
    (r.update id first).update id second = r.update id second := by
  simp only [update, List.map_map]
  congr 1
  refine List.map_congr_left fun s _ => ?_
  dsimp only [Function.comp]
  by_cases hs : s.sessionId = id <;> simp [hs]

variable {r id}

theorem sessionId_of_find? {s : Running α} (h : r.find? id = some s) : s.sessionId = id := by
  simpa using List.find?_some h

/-- The seat of a session, changed. -/
theorem find?_update_self {s : Running α} (h : r.find? id = some s) (value : α) :
    (r.update id value).find? id = some { s with value } := by
  rw [find?_update, h, Option.map_some, if_pos (sessionId_of_find? h)]

theorem find?_update_of_ne {other : String} (h : other ≠ id) (value : α) :
    (r.update id value).find? other = r.find? other := by
  rw [find?_update]
  cases hother : r.find? other with
  | none => rfl
  | some s => rw [Option.map_some, if_neg (sessionId_of_find? hother ▸ h)]

/-- One more session, under an id that none has. -/
theorem find?_concat {s : Running α} (hnew : r.find? s.sessionId = none) (other : String) :
    ({ r with active := r.active ++ [s] } : Registry α).find? other =
      if other = s.sessionId then some s else r.find? other := by
  unfold find? at hnew ⊢
  rw [List.find?_append]
  split
  · rename_i hid
    rw [hid, hnew]
    simp
  · rename_i hid
    simp [Ne.symm hid]

theorem sessionOf?_eq_none {userId : String} :
    r.sessionOf? userId = none ↔ userId ∉ r.active.map Running.userId := by
  simp [sessionOf?]

/-- The session of a user is one that runs. -/
theorem exists_of_sessionOf? {userId : String} (h : r.sessionOf? userId = some id) :
    ∃ s ∈ r.active, s.sessionId = id ∧ s.userId = userId := by
  obtain ⟨s, hs, hid⟩ := Option.map_eq_some_iff.mp h
  exact ⟨s, List.mem_of_find?_eq_some hs, hid, by simpa using List.find?_some hs⟩

end Registry

/-! ## The hall -/

namespace Hall

/-- Nothing happens to the sessions; ids may be drawn. -/
structure Still (h g : Hall) : Prop where
  registry : g.registry = h.registry
  source : g.source = h.source
  drawn : h.drawn ≤ g.drawn

variable {h g k : Hall}

theorem Still.refl (h : Hall) : h.Still h := ⟨rfl, rfl, Nat.le_refl _⟩

theorem Still.trans (hg : h.Still g) (hk : g.Still k) : h.Still k :=
  ⟨hk.registry.trans hg.registry, hk.source.trans hg.source, Nat.le_trans hg.drawn hk.drawn⟩

theorem still_draw (h : Hall) : h.Still h.draw := ⟨rfl, rfl, Nat.le_succ _⟩

theorem still_hand (h : Hall) (id : String) (w : RecordWrite) : h.Still (h.hand id w) := by
  unfold hand
  dsimp only
  split <;> exact ⟨rfl, rfl, Nat.le_refl _⟩

theorem still_perform (h : Hall) (id : String) (a : Action) : h.Still (h.perform id a) := by
  cases a with
  | publish e => exact ⟨rfl, rfl, Nat.le_refl _⟩
  | write w => exact still_hand h id w
  | note n => exact ⟨rfl, rfl, Nat.le_refl _⟩

theorem still_performed (h : Hall) (id : String) (as : List Action) :
    h.Still (as.foldl (fun h a => h.perform id a) h) := by
  induction as generalizing h with
  | nil => exact .refl h
  | cons a as ih => exact (still_perform h id a).trans (ih _)

theorem still_toil (h : Hall) (id : String) (attempts : Nat) : h.Still (h.toil id attempts) := by
  unfold toil
  dsimp only
  split <;> exact ⟨rfl, rfl, Nat.le_succ _⟩

variable (h) (id : String)

theorem act_registry (seat : Seat) (state : Sitting × Shelf) (as : List Action) :
    (h.act id seat state as).registry =
      h.registry.update id { seat with sitting := state.1, lives := state.2 } :=
  congrArg (Registry.update · id _) ((still_draw h).trans (still_performed h.draw id as)).registry

theorem act_source (seat : Seat) (state : Sitting × Shelf) (as : List Action) :
    (h.act id seat state as).source = h.source :=
  ((still_draw h).trans (still_performed h.draw id as)).source

theorem le_drawn_act (seat : Seat) (state : Sitting × Shelf) (as : List Action) :
    h.drawn ≤ (h.act id seat state as).drawn :=
  ((still_draw h).trans (still_performed h.draw id as)).drawn

variable {h id} {r : Running Seat}

theorem turn_of_find? (hfind : h.registry.find? id = some r) (x : Stimulus) :
    let t := Turn.step (ledger r.value) (h.scene r.value) x
    let s := (r.value.sitting, r.value.lives)
    h.turn id x = (some (t.value s), h.act id r.value (t.after s) (t.actions s)) := by
  unfold turn
  rw [hfind]
  rfl

theorem turn_effect (hfind : h.registry.find? id = some r) (x : Stimulus) :
    let state := (Turn.step (ledger r.value) (h.scene r.value) x).after
      (r.value.sitting, r.value.lives)
    (h.turn id x).2.registry =
        h.registry.update id { r.value with sitting := state.1, lives := state.2 } ∧
      (h.turn id x).2.source = h.source ∧ h.drawn ≤ (h.turn id x).2.drawn := by
  rw [turn_of_find? hfind]
  exact ⟨act_registry .., act_source .., le_drawn_act ..⟩

theorem commence_of_find? (hfind : h.registry.find? id = some r) :
    h.commence id = h.act id r.value (r.value.sitting, r.value.lives)
      ((Turn.begin : Turn Shelf Unit).actions (r.value.sitting, r.value.lives)) := by
  have hbegin := Turn.after_begin (s := (r.value.sitting, r.value.lives))
  unfold commence
  rw [hfind]
  exact congrArg (fun state => h.act id r.value state ((Turn.begin : Turn Shelf Unit).actions
    (r.value.sitting, r.value.lives))) hbegin

/-- A tick of the clock that is set changes nothing of what a turn looks at. -/
theorem exists_moveTick (hfind : h.registry.find? id = some r) :
    ∃ seat, h.moveTick id = { h with registry := h.registry.update id seat } ∧
      seat.sitting = r.value.sitting ∧ seat.lives = r.value.lives ∧
      ledger seat = ledger r.value := by
  unfold moveTick
  rw [hfind]
  exact ⟨_, rfl, rfl, rfl, rfl⟩

end Hall

/-! ## Answers -/

/-- No inquiry shuts a session down. -/
theorem Inquiry.ne_shutdown {inquiry : Inquiry} {x : Stimulus} (hx : inquiry.stimulus? = some x) :
    x ≠ .shutdown := by
  cases inquiry <;> rintro rfl <;> cases hx

/-- Only a subscription tells its session nothing. -/
theorem Inquiry.exists_eq_subscribe {inquiry : Inquiry} (htold : inquiry.stimulus? = none) :
    ∃ eager, inquiry = .subscribe eager := by
  cases inquiry with
  | subscribe eager => exact ⟨eager, rfl⟩
  | snapshot | score | updateAnswer | recordRun | signal | submit => cases htold

/-- A sitting that runs has a reply to whatever it is asked. -/
theorem Inquiry.exists_ofReply? {σ : Type} (ledger : LivesLedger σ) (scene : Scene)
    {s : Sitting × σ} (hrun : s.1.isRunning = true) {inquiry : Inquiry} {x : Stimulus}
    (hx : inquiry.stimulus? = some x) (id : String) :
    ∃ result, inquiry.ofReply? id ((Turn.step ledger scene x).value s) = some result := by
  rw [Turn.value_step_running ledger scene x hrun]
  cases inquiry with
  | subscribe eager => cases hx
  | snapshot | score | updateAnswer | recordRun | signal | submit =>
    obtain rfl := Option.some.inj hx
    exact ⟨_, rfl⟩

/-! ## Starts -/

namespace Service

variable {σ : Type}

theorem run_checkFree (userId : String) (s : Service σ) :
    (checkFree userId).run s =
      (match s.hall.registry.sessionOf? userId with
        | some id => .error (.alreadyInProgress id)
        | none => .ok (), s) := by
  unfold checkFree
  rw [Call.run_bind]
  simp only [run_service]
  cases s.hall.registry.sessionOf? userId <;> rfl

theorem run_checkEligible (userId : String) (s : Service σ) :
    (checkEligible userId).run s =
      if s.hall.courier.records.gate.isEligible userId then (.ok (), s)
      else
        (.error .ineligible,
          { s with
            hall := s.hall.jot
              [.info ("Exam start refused, user " ++ userId ++ " is not eligible")] }) := by
  unfold checkEligible
  rw [Call.run_bind]
  simp only [run_service]
  cases s.hall.courier.records.gate.isEligible userId <;> rfl

/-- Whether a session runs is told to its owner alone, and nothing happens. -/
theorem run_isRunningFor_cases (id userId : String) (s : Service σ) :
    (s.hall.registry.find? id = none ∧ (isRunningFor id userId).run s = (.ok false, s)) ∨
    ∃ r, s.hall.registry.find? id = some r ∧
      ((r.userId = userId ∧ (isRunningFor id userId).run s = (.ok true, s)) ∨
        r.userId ≠ userId ∧ (isRunningFor id userId).run s = (.error .forbidden, s)) := by
  cases hfind : s.hall.registry.find? id with
  | none => exact .inl ⟨rfl, run_isRunningFor_gone hfind⟩
  | some r =>
    refine .inr ⟨r, rfl, ?_⟩
    by_cases hr : r.userId = userId
    · exact .inl ⟨hr, run_isRunningFor_owner hfind hr⟩
    · exact .inr ⟨hr, run_isRunningFor_stranger hfind hr⟩

theorem run_subscribe_owner {id userId : String} {s : Service σ} {r : Running Seat}
    (hfind : s.hall.registry.find? id = some r) (hr : r.userId = userId) (eager : Bool) :
    (subscribe id userId eager).run s =
      (.ok s.hall.relays.length,
        { s with
          hall := (s.hall.subscribe id eager).2.jot [.info
            ("Client connected to exam stream: session=" ++ id ++ ", user=" ++ userId)] }) := by
  simp only [subscribe, Call.run_bind, run_isRunningFor_owner hfind hr, if_true, run_askHall,
    run_jot, Call.run_pure]
  rfl

/-- An approval changes the gate, and says whether the user was blocked. -/
theorem run_approve (userId approver : String) (s : Service σ) :
    let gate := s.hall.courier.records.gate.approve userId approver s.hall.time
    let courier := { s.hall.courier with records.gate := gate.1 }
    ∃ notes, (approve userId approver).run s =
      (.ok gate.2, { s with hall := ({ s.hall with courier } : Hall).jot notes }) := by
  dsimp only
  simp only [approve, Call.run_bind, run_askHall]
  cases (s.hall.courier.records.gate.approve userId approver s.hall.time).2 with
  | true => exact ⟨_, rfl⟩
  | false => exact ⟨_, rfl⟩

end Service

namespace Hall

/-- The hall with one more seat, for a session that does not run yet. -/
def seated (h : Hall) (seat : Seat) : Hall :=
  { h with
    registry := { h.registry with
      active := h.registry.active ++
        [⟨seat.sitting.session.id, seat.sitting.session.userId, seat⟩] } }

/-- A seat is admitted unless its user sits another exam. -/
theorem accept_eq (h : Hall) (seat : Seat) :
    h.accept seat =
      match h.registry.sessionOf? seat.sitting.session.userId with
      | some existing => .error existing
      | none => .ok (h.seated seat) := by
  unfold accept Registry.launch
  dsimp only
  cases h.registry.sessionOf? seat.sitting.session.userId <;> rfl

end Hall

namespace Floor

open Service (newSeat chooseQuestions)

variable {σ : Type}

/-- A seat is admitted, or its user sits another exam. -/
theorem admitWith_cases (make : Settings → Hall → Seat × List Directive) (r : StartRequest)
    (questions : Trio Question) (s : Service σ) :
    (∃ existing, s.hall.registry.sessionOf?
          (make s.config.exam s.hall).1.sitting.session.userId = some existing ∧
      (admitWith make r questions).run s = (.error (.alreadyInProgress existing), s)) ∨
    ∃ response, s.hall.registry.sessionOf?
          (make s.config.exam s.hall).1.sitting.session.userId = none ∧
      (admitWith make r questions).run s =
          (.ok response, { s with hall := s.hall.draw.seated (make s.config.exam s.hall).1 }) ∧
        response.sessionId = (make s.config.exam s.hall).1.sitting.session.id := by
  have haccept := Hall.accept_eq s.hall.draw (make s.config.exam s.hall).1
  have hdrawn : s.hall.draw.registry = s.hall.registry := rfl
  rw [hdrawn] at haccept
  cases hfree : s.hall.registry.sessionOf?
      (make s.config.exam s.hall).1.sitting.session.userId with
  | some existing =>
    rw [hfree] at haccept
    refine .inl ⟨existing, rfl, ?_⟩
    simp only [admitWith, Call.run_bind, Service.run_service, haccept, Call.run_fail]
  | none =>
    rw [hfree] at haccept
    refine .inr ?_
    simp only [admitWith, Call.run_bind, Service.run_service, haccept, Service.run_changeHall,
      Call.run_pure]
    exact ⟨_, trivial, rfl, rfl⟩

/-- What a seat for a new session is: under the id that the source gives next, for its user, and
with everything in order. -/
structure IsNew (h : Hall) (userId : String) (seat : Seat) : Prop where
  id_eq : seat.sitting.session.id = h.source.sessionId h.drawn
  userId_eq : seat.sitting.session.userId = userId
  coupled : seat.sitting.Coupled
  awake : seat.sitting.suspended = false
  active : seat.sitting.session.isActive = true

theorem isNew_newSeat (settings : Settings) (h : Hall) (userId : String) (language : Language)
    (questions : Trio Question) :
    IsNew h userId (newSeat settings h userId language questions).1 where
  id_eq := Service.newSeat_id ..
  userId_eq := Service.newSeat_userId ..
  coupled := by
    rw [Service.newSeat_sitting]
    exact Sitting.coupled_opened _ _ _ rfl
  awake := by
    rw [Service.newSeat_sitting, Sitting.opened_eq]
  active := by
    rw [Service.newSeat_sitting, Sitting.opened_eq]
    rfl

/-- What comes of a start whose questions are answered: it has a seat launched, or it fails and
leaves notes at most; if it fails because of another exam, its user sits that exam. -/
theorem admission_cases (userId : String) (r : StartRequest) (s : Service σ) :
    ∃ notes, (∃ fault,
        (admission userId r).run s = (.error fault, { s with hall := s.hall.jot notes }) ∧
          ∀ id, fault = .alreadyInProgress id → s.hall.registry.sessionOf? userId = some id) ∨
      ∃ response seat,
        (admission userId r).run s =
            (.ok response, { s with hall := (s.hall.jot notes).draw.seated seat }) ∧
          s.hall.registry.sessionOf? userId = none ∧ IsNew s.hall userId seat ∧
          response.sessionId = s.hall.source.sessionId s.hall.drawn := by
  unfold admission
  rw [Call.run_bind]
  obtain ⟨notes, ⟨questions, hchosen⟩ | ⟨topic, available, hchosen⟩⟩ :=
    Service.chooseQuestions_cases r s
  · refine ⟨notes, ?_⟩
    rw [hchosen]
    have hnew := isNew_newSeat s.config.exam (s.hall.jot notes) userId r.language questions
    rcases admitWith_cases (fun settings h => newSeat settings h userId r.language questions) r
        questions { s with hall := s.hall.jot notes } with
      ⟨existing, hbusy, hrun⟩ | ⟨response, hfree, hrun, hid⟩
    · rw [hnew.userId_eq] at hbusy
      refine .inl ⟨_, hrun, fun id hfault => ?_⟩
      rw [← Fault.alreadyInProgress.inj hfault]
      exact hbusy
    · rw [hnew.userId_eq] at hfree
      exact .inr ⟨response, _, hrun, hfree, ⟨hnew.id_eq, hnew.userId_eq, hnew.coupled, hnew.awake,
        hnew.active⟩, hid.trans hnew.id_eq⟩
  · -- no questions could be chosen, which is another fault
    refine ⟨notes, .inl ⟨_, by rw [hchosen], fun id hfault => ?_⟩⟩
    cases hfault

/-! ## Sessions -/

/-- The user and the stage of a desk. -/
def station (f : Floor σ) (id : String) : Option (String × DeskStage) :=
  (f.desks id).map fun d => (d.userId, d.stage)

/-- A session is at a desk, at this stage. -/
abbrev At (f : Floor σ) (id userId : String) (stage : DeskStage) : Prop :=
  f.station id = some (userId, stage)

/-- One desk comes to another stage, and the others stay. -/
abbrev Comes (f g : Floor σ) (id userId : String) (stage : DeskStage) : Prop :=
  g.station = Function.update f.station id (some (userId, stage))

/-- What a move does to the sessions. -/
inductive Shift (f g : Floor σ) : Prop where
  | still (hall : f.hall.Still g.hall) (station : g.station = f.station) (filed : g.filed = f.filed)
  | launched (h : Hall) (userId : String) (seat : Seat) (before : f.hall.Still h)
      (free : f.hall.registry.sessionOf? userId = none) (new : IsNew f.hall userId seat)
      (hall : g.hall = h.draw.seated seat)
      (station : f.Comes g seat.sitting.session.id userId .seated) (filed : g.filed = f.filed)
  | commenced (id userId : String) (here : f.At id userId .seated)
      (hall : g.hall = f.hall.commence id) (station : f.Comes g id userId .running)
      (filed : g.filed = f.filed)
  /-- The session takes a turn, perhaps after its clock was set. -/
  | turned (id userId : String) (h : Hall) (x : Stimulus) (here : f.At id userId .running)
      (live : f.isLive id = true) (set : h = f.hall ∨ h = f.hall.moveTick id)
      (kind : x ≠ .shutdown) (hall : g.hall = (h.turn id x).2) (station : g.station = f.station)
      (filed : g.filed = f.filed)
  | filed (id userId : String) (here : f.At id userId .running) (stopped : f.isLive id = false)
      (hall : g.hall = f.hall.file id) (station : f.Comes g id userId .filed)
      (filed : g.filed = f.filed ++ [id])
  | released (id userId : String) (here : f.At id userId .filed)
      (hall : g.hall = f.hall.release id) (station : f.Comes g id userId .released)
      (filed : g.filed = f.filed)
  | closed (id userId : String) (here : f.At id userId .released) (hall : g.hall = f.hall)
      (station : f.Comes g id userId .closed) (filed : g.filed = f.filed)

theorem Shift.refl (f : Floor σ) : f.Shift f := .still (.refl _) rfl rfl

theorem station_putDesk (f : Floor σ) (id : String) (d : Desk) :
    f.Comes (f.putDesk id d) id d.userId d.stage := by
  funext other
  simp only [station, putDesk]
  by_cases h : other = id
  · subst h
    simp only [Function.update_self, Option.map_some]
  · simp only [Function.update_of_ne h, station]

/-- A desk at which only the letters change. -/
theorem station_putDesk_self {f : Floor σ} {id : String} {d : Desk} (h : f.desks id = some d)
    (letters : List Nat) : (f.putDesk id { d with letters }).station = f.station := by
  have hself : f.station id = some (d.userId, d.stage) := by rw [station, h]; rfl
  rw [station_putDesk, ← hself, Function.update_eq_self]

theorem at_of_desk {f : Floor σ} {id : String} {d : Desk} {stage : DeskStage}
    (h : f.desks id = some d) (hstage : d.stage = stage) : f.At id d.userId stage := by
  rw [At, station, h, ← hstage]
  rfl

theorem shift_enrolBy {α : Type} (f : Floor σ) (k : Nat) (e : Enrolment) {c : Call σ α}
    (next : α → EnrolmentStage) (h : f.hall.Still (c.run f.service).2.hall) :
    f.Shift (f.enrolBy k e c next) := .still h rfl rfl

theorem shift_enrol (f : Floor σ) (k : Nat) (userId : String) (request : StartRequest) :
    f.Shift (f.enrol k userId request) := by
  unfold enrol
  split <;> exact .still (.refl _) rfl rfl

theorem shift_checkFree (f : Floor σ) (k : Nat) : f.Shift (f.checkFree k) := by
  unfold checkFree
  split
  · split
    · refine f.shift_enrolBy k _ _ ?_
      rw [Service.run_checkFree]
      exact .refl _
    · exact .refl f
  · exact .refl f

theorem shift_askGate (f : Floor σ) (k : Nat) : f.Shift (f.askGate k) := by
  unfold askGate
  split
  · split
    · refine f.shift_enrolBy k _ _ ?_
      rw [Service.run_checkEligible]
      split <;> exact ⟨rfl, rfl, Nat.le_refl _⟩
    · exact .refl f
  · exact .refl f

theorem shift_launch (f : Floor σ) (k : Nat) : f.Shift (f.launch k) := by
  unfold launch
  split
  · rename_i e _
    split
    · obtain ⟨notes, ⟨fault, hrun, -⟩ | ⟨response, seat, hrun, hfree, hnew, hid⟩⟩ :=
        admission_cases e.userId e.request f.service
      · simp only [hrun]
        refine f.shift_enrolBy k _ _ ?_
        rw [hrun]
        exact ⟨rfl, rfl, Nat.le_refl _⟩
      · simp only [hrun]
        refine .launched (f.hall.jot notes) e.userId seat ⟨rfl, rfl, Nat.le_refl _⟩ hfree hnew ?_ ?_
          rfl
        · exact congrArg (fun x => x.2.hall) hrun
        · rw [hnew.id_eq, ← hid]
          exact station_putDesk ..
    · exact .refl f
  · exact .refl f

theorem shift_confirm (f : Floor σ) (k : Nat) : f.Shift (f.confirm k) := by
  unfold confirm
  split
  · split
    · exact .still ⟨rfl, rfl, Nat.le_refl _⟩ rfl rfl
    · exact .refl f
  · exact .refl f

theorem shift_inquire (f : Floor σ) (k : Nat) (id userId : String) (inquiry : Inquiry) :
    f.Shift (f.inquire k id userId inquiry) := by
  unfold inquire
  split <;> exact .still (.refl _) rfl rfl

theorem run_untold {inquiry : Inquiry} {id userId : String} {s : Service σ}
    (htold : inquiry.stimulus? = none)
    (hrun : ((Service.isRunningFor id userId).run s).1 = .ok true) :
    ∃ relays notes, (inquiry.call id userId).run s =
      (.ok (.subscription s.hall.relays.length),
        { s with hall := ({ s.hall with relays } : Hall).jot notes }) := by
  obtain ⟨eager, rfl⟩ := Inquiry.exists_eq_subscribe htold
  rcases Service.run_isRunningFor_cases id userId s with
    ⟨-, hgone⟩ | ⟨r, hfind, ⟨howner, -⟩ | ⟨-, hother⟩⟩
  · rw [hgone] at hrun
    cases hrun
  · simp only [Inquiry.call, Call.run_bind, Service.run_subscribe_owner hfind howner eager,
      Call.run_pure, Hall.subscribe, Service.jot_jot]
    exact ⟨_, _, rfl⟩
  · rw [hother] at hrun
    cases hrun

theorem shift_lookUp (f : Floor σ) (k : Nat) : f.Shift (f.lookUp k) := by
  unfold lookUp
  split
  · split
    · split
      · exact .still (.refl _) rfl rfl
      · exact .still (.refl _) rfl rfl
      · split
        · exact .still (.refl _) rfl rfl
        · rename_i q _ _ _ hrun _ htold
          obtain ⟨relays, notes, hcall⟩ := run_untold htold hrun
          refine .still ?_ rfl rfl
          simp only [hcall]
          exact ⟨rfl, rfl, Nat.le_refl _⟩
    · exact .refl f
  · exact .refl f

theorem shift_send (f : Floor σ) (k : Nat) : f.Shift (f.send k) := by
  unfold send
  split
  · split
    · split
      · exact .refl f
      · rename_i d hd
        split
        · exact .still (.refl _) rfl rfl
        · split
          · exact .still (.refl _) (station_putDesk_self hd _) rfl
          · exact .refl f
    · exact .refl f
  · exact .refl f

theorem shift_receive (f : Floor σ) (k : Nat) : f.Shift (f.receive k) := by
  unfold receive
  split
  · split <;> exact .still (.refl _) rfl rfl
  · exact .refl f

theorem shift_findFinal (f : Floor σ) (k : Nat) (q : Query) (s : Snapshot) :
    f.Shift (f.findFinal k q s) := by
  unfold findFinal
  split <;> exact .still ⟨rfl, rfl, Nat.le_refl _⟩ rfl rfl

theorem shift_search (f : Floor σ) (k : Nat) : f.Shift (f.search k) := by
  unfold search
  split
  · split
    · split
      · exact f.shift_findFinal k _ _
      · exact .still (.refl _) rfl rfl
    · exact .refl f
  · exact .refl f

theorem shift_read (f : Floor σ) (k : Nat) : f.Shift (f.read k) := by
  unfold read
  split
  · split
    · split
      · exact f.shift_findFinal k _ _
      · exact .still (.refl _) rfl rfl
    · exact .refl f
  · exact .refl f

theorem shift_commence (f : Floor σ) (id : String) : f.Shift (f.commence id) := by
  unfold commence
  split
  · rename_i d hd
    split
    · rename_i hstage
      exact .commenced id d.userId (at_of_desk hd hstage) rfl (station_putDesk ..) rfl
    · exact .refl f
  · exact .refl f

theorem shift_handle (f : Floor σ) (id : String) : f.Shift (f.handle id) := by
  unfold handle
  split
  · rename_i d hd
    split
    · rename_i k rest hletters
      split
      · rename_i hlive
        have hput : (f.putDesk id { d with letters := rest }).station = f.station :=
          station_putDesk_self hd rest
        -- a letter is answered when its inquiry still waits for it, and only then the session takes
        -- a turn
        unfold answer
        split
        · exact .still (.refl _) hput rfl
        · split
          · split
            · split
              · exact .still (.refl _) hput rfl
              · rename_i x hx
                exact .turned id d.userId f.hall x (at_of_desk hd hlive.1) hlive.2 (.inl rfl)
                  (Inquiry.ne_shutdown hx) rfl hput rfl
            · exact .still (.refl _) hput rfl
          · exact .still (.refl _) hput rfl
      · exact .refl f
    · exact .refl f
  · exact .refl f

theorem shift_fire (f : Floor σ) (due : Hall.Due) : f.Shift (f.fire due) := by
  have hat : ∀ {id : String} {h : Hall} {x : Stimulus}, h = f.hall ∨ h = f.hall.moveTick id →
      x ≠ .shutdown → ∀ g : Hall → Hall, g f.hall = (h.turn id x).2 →
        f.Shift (f.fireAt id due g) := by
    intro id h x hset hx g hg
    unfold fireAt
    split
    · rename_i d hd
      split
      · rename_i hlive
        exact .turned id d.userId h x (at_of_desk hd hlive.1) hlive.2.1 hset hx hg rfl rfl
      · exact .refl f
    · exact .refl f
  cases due with
  | tick id => exact hat (.inr rfl) (by simp) _ rfl
  | grace id => exact hat (.inl rfl) (by simp) _ rfl
  | errand id => exact .refl f

theorem shift_file (f : Floor σ) (id : String) : f.Shift (f.file id) := by
  unfold file
  split
  · rename_i d hd
    split
    · rename_i hover
      exact .filed id d.userId (at_of_desk hd hover.1) hover.2 rfl (station_putDesk ..) rfl
    · exact .refl f
  · exact .refl f

theorem shift_release (f : Floor σ) (id : String) : f.Shift (f.release id) := by
  unfold release
  split
  · rename_i d hd
    split
    · rename_i hstage
      exact .released id d.userId (at_of_desk hd hstage) rfl (station_putDesk ..) rfl
    · exact .refl f
  · exact .refl f

theorem shift_close (f : Floor σ) (id : String) : f.Shift (f.close id) := by
  unfold close
  split
  · rename_i d hd
    split
    · rename_i hstage
      exact .closed id d.userId (at_of_desk hd hstage) rfl (station_putDesk ..) rfl
    · exact .refl f
  · exact .refl f

theorem shift_approve (f : Floor σ) (userId approver : String) :
    f.Shift (f.step (.approve userId approver)) := by
  obtain ⟨notes, hrun⟩ := Service.run_approve userId approver f.service
  refine .still ?_ rfl rfl
  simp only [step, hrun]
  exact ⟨rfl, rfl, Nat.le_refl _⟩

/-- **What a move does to the sessions.** -/
theorem shift_step (f : Floor σ) (m : Move) : f.Shift (f.step m) := by
  cases m with
  | enrol k userId request => exact f.shift_enrol k userId request
  | checkFree k => exact f.shift_checkFree k
  | askGate k => exact f.shift_askGate k
  | launch k => exact f.shift_launch k
  | confirm k => exact f.shift_confirm k
  | inquire k id userId inquiry => exact f.shift_inquire k id userId inquiry
  | lookUp k => exact f.shift_lookUp k
  | send k => exact f.shift_send k
  | receive k => exact f.shift_receive k
  | search k => exact f.shift_search k
  | read k => exact f.shift_read k
  | commence id => exact f.shift_commence id
  | handle id => exact f.shift_handle id
  | fire due => exact f.shift_fire due
  | file id => exact f.shift_file id
  | release id => exact f.shift_release id
  | close id => exact f.shift_close id
  | write id attempts => exact .still (Hall.still_toil f.hall id attempts) rfl rfl
  | approve userId approver => exact f.shift_approve userId approver
  | pass ms => exact .still ⟨rfl, rfl, Nat.le_refl _⟩ rfl rfl
  | listen relays notes => exact .still ⟨rfl, rfl, Nat.le_refl _⟩ rfl rfl
  | switch on => exact .still ⟨rfl, rfl, Nat.le_refl _⟩ rfl rfl
  | trouble losses silences => exact .still ⟨rfl, rfl, Nat.le_refl _⟩ rfl rfl

end Floor

end Invigilator
