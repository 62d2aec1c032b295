import Invigilator.Proofs.Service.Moves

/-!
# Notes are not read

What the service notes for its operators it never reads again. A hall with older notes under its
own goes on like the hall without them, and still has them under its own in the end: that is said
here of the hall (`noted_…`), of the calls that are made on the floor (`Deaf`), and of a whole move
(`Floor.beside_step`), which does not look at the starts of others either.
-/

namespace Invigilator

namespace Hall

/-- The hall with older notes under its own. -/
def noted (h : Hall) (old : List Note) : Hall := { h with notes := h.notes ++ old }

variable (h : Hall) (old : List Note) (id : String)

theorem noted_jot (new : List Note) : (h.noted old).jot new = (h.jot new).noted old := by
  simp only [jot, noted, List.append_assoc]

theorem noted_hand (w : RecordWrite) : (h.noted old).hand id w = (h.hand id w).noted old := by
  have hscribe : (h.noted old).scribe id = h.scribe id := rfl
  unfold hand
  rw [hscribe]
  dsimp only
  split
  · exact noted_jot h old _
  · rfl

theorem noted_onRelays (f : Relay → Relay) :
    (h.noted old).onRelays id f = (h.onRelays id f).noted old :=
  noted_jot { h with relays := _ } old _

theorem noted_publish (e : Event) : (h.noted old).publish id e = (h.publish id e).noted old :=
  noted_onRelays { h with published := e :: h.published } old id _

theorem noted_disconnect : (h.noted old).disconnect id = (h.disconnect id).noted old :=
  noted_onRelays h old id _

theorem noted_perform (a : Action) : (h.noted old).perform id a = (h.perform id a).noted old := by
  cases a with
  | publish e => exact noted_publish h old id e
  | write w => exact noted_hand h old id w
  | note n => exact noted_jot h old [n]

theorem noted_performed (as : List Action) :
    as.foldl (fun h a => h.perform id a) (h.noted old) =
      (as.foldl (fun h a => h.perform id a) h).noted old := by
  induction as generalizing h with
  | nil => rfl
  | cons a as ih => rw [List.foldl_cons, List.foldl_cons, noted_perform, ih]

theorem noted_act (seat : Seat) (state : Sitting × Shelf) (as : List Action) :
    (h.noted old).act id seat state as = (h.act id seat state as).noted old := by
  have hperformed := noted_performed h.draw old id as
  exact congrArg (fun h : Hall => { h with
    registry := h.registry.update id { seat with sitting := state.1, lives := state.2 } })
    hperformed

theorem noted_turn (x : Stimulus) :
    (h.noted old).turn id x = ((h.turn id x).1, (h.turn id x).2.noted old) := by
  have hregistry : (h.noted old).registry = h.registry := rfl
  have hscene : ∀ seat, (h.noted old).scene seat = h.scene seat := fun _ => rfl
  unfold turn
  rw [hregistry]
  cases h.registry.find? id with
  | none => rfl
  | some r =>
    dsimp only
    rw [hscene, noted_act]

theorem noted_commence : (h.noted old).commence id = (h.commence id).noted old := by
  have hregistry : (h.noted old).registry = h.registry := rfl
  unfold commence
  rw [hregistry]
  cases h.registry.find? id with
  | none => rfl
  | some r => exact noted_act h old id _ _ _

theorem noted_moveTick : (h.noted old).moveTick id = (h.moveTick id).noted old := by
  have hregistry : (h.noted old).registry = h.registry := rfl
  unfold moveTick
  rw [hregistry]
  cases h.registry.find? id <;> rfl

theorem noted_file : (h.noted old).file id = (h.file id).noted old := by
  have hregistry : (h.noted old).registry = h.registry := rfl
  unfold file
  rw [hregistry]
  cases h.registry.find? id <;> rfl

theorem noted_release : (h.noted old).release id = (h.release id).noted old :=
  noted_disconnect { h with registry := h.registry.release id } old id

theorem noted_toil (attempts : Nat) :
    (h.noted old).toil id attempts = (h.toil id attempts).noted old := by
  have hwork : ((h.noted old).scribe id).workFor (h.noted old).now (h.noted old).time
      ((h.noted old).source.jitter (h.noted old).drawn) attempts (h.noted old).courier =
    (h.scribe id).workFor h.now h.time (h.source.jitter h.drawn) attempts h.courier := rfl
  unfold toil
  rw [hwork]
  obtain ⟨⟨s, courier⟩, notes⟩ :=
    (h.scribe id).workFor h.now h.time (h.source.jitter h.drawn) attempts h.courier
  have hjot := noted_jot ({ h with courier := courier } : Hall).draw old notes
  dsimp only
  split
  · exact congrArg (fun h : Hall => { h with scribes := h.scribes.filter fun e => e.1 != id }) hjot
  · exact congrArg (fun h : Hall => h.putScribe id s) hjot

theorem noted_work : (h.noted old).work id = (h.work id).noted old :=
  noted_toil h old id ((h.scribe id).queue.length + 2)

theorem noted_settle (seat : Seat) (state : Sitting × Shelf) (as : List Action) :
    (h.noted old).settle id seat state as = (h.settle id seat state as).noted old := by
  have hdraw : (h.noted old).draw = h.draw.noted old := rfl
  unfold settle
  rw [hdraw, noted_performed]
  generalize as.foldl (fun h a => h.perform id a) h.draw = g
  dsimp only
  split
  · exact noted_work { g with registry := g.registry.update id _ } old id
  · have hdisconnect := noted_disconnect
      { g with registry := g.registry.retire id state.1.snapshot } old id
    exact (congrArg (fun g => work g id) hdisconnect).trans (noted_work _ old id)

theorem noted_tell (x : Stimulus) :
    (h.noted old).tell id x = ((h.tell id x).1, (h.tell id x).2.noted old) := by
  have hregistry : (h.noted old).registry = h.registry := rfl
  have hscene : ∀ seat, (h.noted old).scene seat = h.scene seat := fun _ => rfl
  unfold tell
  rw [hregistry]
  cases h.registry.find? id with
  | none => rfl
  | some r =>
    dsimp only
    rw [hscene, noted_settle]

theorem noted_shutdown : (h.noted old).shutdown = h.shutdown.noted old := by
  have hstopped : ∀ (ids : List String) (h : Hall),
      ids.foldl (fun h id =>
          (h.tell id .shutdown).2.jot [.debug ("Exam session " ++ id ++ " stopped")])
        (h.noted old) =
      (ids.foldl (fun h id =>
          (h.tell id .shutdown).2.jot [.debug ("Exam session " ++ id ++ " stopped")]) h).noted
        old := by
    -- one session after the other stops, and none of them reads a note
    intro ids
    induction ids with
    | nil => exact fun _ => rfl
    | cons id ids ih =>
      intro h
      rw [List.foldl_cons, List.foldl_cons, noted_tell, noted_jot, ih]
  have hregistry : (h.noted old).registry = h.registry := rfl
  unfold shutdown
  rw [hregistry]
  dsimp only
  split
  · rfl
  · rw [noted_jot, hstopped]

theorem noted_accept (seat : Seat) :
    (h.noted old).accept seat = (h.accept seat).map fun g => g.noted old := by
  have hregistry : (h.noted old).registry = h.registry := rfl
  rw [accept_eq, accept_eq, hregistry]
  cases h.registry.sessionOf? seat.sitting.session.userId <;> rfl

end Hall

/-! ## Calls -/

variable {σ α β : Type}

/-- The service with older notes under its own. -/
def Service.noted (s : Service σ) (old : List Note) : Service σ :=
  { s with hall := s.hall.noted old }

namespace Call

/-- The call does not read the notes. -/
def Deaf (c : Call σ α) : Prop :=
  ∀ (s : Service σ) (old : List Note), c.run (s.noted old) = ((c.run s).1, (c.run s).2.noted old)

theorem Deaf.result {c : Call σ α} (hc : c.Deaf) (s : Service σ) (old : List Note) :
    (c.run (s.noted old)).1 = (c.run s).1 := by rw [hc s old]

theorem deaf_pure (x : α) : (pure x : Call σ α).Deaf := fun _ _ => rfl

theorem deaf_fail (fault : Fault) : (fail fault : Call σ α).Deaf := fun _ _ => rfl

theorem deaf_ofBackend (result : Except BackendFault α) :
    (ofBackend result : Call σ α).Deaf := by
  cases result with
  | ok x => exact deaf_pure x
  | error fault => exact deaf_fail (.backend fault)

theorem deaf_changeHall {f : Hall → Hall} (hf : ∀ h old, f (h.noted old) = (f h).noted old) :
    (changeHall f : Call σ Unit).Deaf :=
  fun s old => congrArg (fun hall => (Except.ok (), { s with hall := hall })) (hf s.hall old)

theorem deaf_jot (notes : List Note) : (jot notes : Call σ Unit).Deaf :=
  deaf_changeHall fun h old => h.noted_jot old notes

theorem deaf_askHall {f : Hall → α × Hall}
    (hf : ∀ h old, f (h.noted old) = ((f h).1, (f h).2.noted old)) :
    (askHall f : Call σ α).Deaf :=
  fun s old => congrArg (fun r : α × Hall => (Except.ok r.1, { s with hall := r.2 }))
    (hf s.hall old)

theorem deaf_onLives (a : Attempt σ α) : (onLives a : Call σ α).Deaf := by
  intro s old
  have hlives : (s.noted old).lives = s.lives := rfl
  have hhall : (s.noted old).hall = s.hall.noted old := rfl
  unfold onLives run
  dsimp only
  rw [hlives, hhall, Hall.noted_jot]
  split <;> rfl

theorem deaf_bind {c : Call σ α} {f : α → Call σ β} (hc : c.Deaf) (hf : ∀ x, (f x).Deaf) :
    (c >>= f).Deaf := by
  intro s old
  rw [run_bind, run_bind, hc s old]
  match c.run s with
  | (.error fault, s') => rfl
  | (.ok x, s') => exact hf x s' old

/-- A call that goes on from what it sees of the service does not read the notes if it sees the
same with more of them. -/
theorem deaf_service {f : Service σ → Call σ α} (hf : ∀ s, (f s).Deaf)
    (hsame : ∀ (s : Service σ) old, f (s.noted old) = f s) : (service >>= f).Deaf := by
  intro s old
  change (f (s.noted old)).run (s.noted old) = (((f s).run s).1, ((f s).run s).2.noted old)
  rw [hsame]
  exact hf s s old

end Call

namespace Service

open Call

theorem deaf_checkFree (userId : String) : (checkFree userId : Call σ Unit).Deaf := by
  refine deaf_service (fun s => ?_) fun _ _ => rfl
  split
  · exact deaf_fail _
  · exact deaf_pure ()

theorem deaf_checkEligible (userId : String) : (checkEligible userId : Call σ Unit).Deaf := by
  refine deaf_service (fun s => ?_) fun _ _ => rfl
  split
  · exact deaf_pure ()
  · exact deaf_bind (deaf_jot _) fun _ => deaf_fail _

theorem deaf_chooseQuestions (r : StartRequest) :
    (chooseQuestions r : Call σ (Trio Question)).Deaf := by
  refine deaf_service (fun s => deaf_bind (deaf_jot _) fun _ => ?_) fun _ _ => rfl
  split
  · exact deaf_pure _
  · exact deaf_bind (deaf_jot _) fun _ => deaf_fail _

theorem deaf_isRunningFor (id userId : String) : (isRunningFor id userId : Call σ Bool).Deaf := by
  refine deaf_service (fun s => ?_) fun _ _ => rfl
  split
  · exact deaf_pure false
  · split
    · exact deaf_pure true
    · exact deaf_fail _

theorem deaf_recorded (id : String) : (recorded id : Call σ Snapshot).Deaf := by
  refine deaf_service (fun s => deaf_bind (deaf_ofBackend _) fun session => ?_) fun _ _ => rfl
  cases session with
  | none => exact deaf_fail _
  | some session =>
    exact deaf_bind (deaf_ofBackend _) fun _ => deaf_bind (deaf_ofBackend _) fun _ =>
      deaf_pure _

theorem deaf_finished (id userId : String) : (finished id userId : Call σ Snapshot).Deaf := by
  have howned : ∀ snapshot : Snapshot,
      (if snapshot.session.userId = userId then pure snapshot else fail .forbidden :
        Call σ Snapshot).Deaf := by
    intro snapshot
    split
    · exact deaf_pure _
    · exact deaf_fail _
  refine deaf_service (fun s => ?_) fun _ _ => rfl
  split
  · exact deaf_bind (deaf_pure _) howned
  · exact deaf_bind (deaf_recorded id) howned

theorem deaf_subscribe (id userId : String) (eager : Bool) :
    (subscribe id userId eager : Call σ Nat).Deaf := by
  refine deaf_bind (deaf_isRunningFor id userId) fun running => ?_
  split
  · refine deaf_bind (deaf_askHall fun h old => ?_) fun _ =>
      deaf_bind (deaf_jot _) fun _ => deaf_pure _
    exact congrArg (Prod.mk h.relays.length)
      (Hall.noted_jot { h with relays := h.relays ++ [.subscribe id eager] } old _)
  · exact deaf_bind (deaf_finished id userId) fun _ => deaf_fail _

theorem deaf_approve (userId approver : String) : (approve userId approver : Call σ Bool).Deaf := by
  refine deaf_bind (deaf_askHall fun _ _ => rfl) fun approved => ?_
  split
  · exact deaf_bind (deaf_jot _) fun _ => deaf_pure _
  · exact deaf_bind (deaf_jot _) fun _ => deaf_pure _

end Service

/-- The start that a move belongs to. -/
def Move.start? : Move → Option Nat
  | enrol k _ _ => some k
  | checkFree k => some k
  | askGate k => some k
  | launch k => some k
  | confirm k => some k
  | _ => none

namespace Floor

open Call Service

theorem deaf_admitWith {make : Settings → Hall → Seat × List Directive}
    (hmake : ∀ settings h old, make settings (h.noted old) = make settings h)
    (r : StartRequest) (questions : Trio Question) :
    (admitWith make r questions : Call σ StartResponse).Deaf := by
  intro s old
  have hseat : make (s.noted old).config.exam (s.noted old).hall = make s.config.exam s.hall :=
    hmake s.config.exam s.hall old
  have haccept := Hall.noted_accept s.hall.draw old (make s.config.exam s.hall).1
  have hdraw : (s.noted old).hall.draw = s.hall.draw.noted old := rfl
  simp only [admitWith, run_bind, run_service, hseat, hdraw, haccept]
  cases s.hall.draw.accept (make s.config.exam s.hall).1 <;> rfl

theorem deaf_admission (userId : String) (r : StartRequest) :
    (admission userId r : Call σ StartResponse).Deaf :=
  deaf_bind (deaf_chooseQuestions r) fun _ => deaf_admitWith (fun _ _ _ => rfl) r _

/-! ## Moves -/

/-- A start asks its second question, by a call of some kind. -/
def askBy (f : Floor σ) (k : Nat) (c : Enrolment → Call σ Unit) : Floor σ :=
  match f.enrolments k with
  | some e =>
    match e.stage with
    | .asking => f.enrolBy k e (c e) fun _ => .entering
    | _ => f
  | none => f

/-- A start tries to have a seat launched, by a call of some kind. -/
def enterBy (f : Floor σ) (k : Nat) (c : Enrolment → Call σ StartResponse) : Floor σ :=
  match f.enrolments k with
  | some e =>
    match e.stage with
    | .entering =>
      let f' := f.enrolBy k e (c e) .launched
      match ((c e).run f.service).1 with
      | .ok response => f'.putDesk response.sessionId ⟨e.userId, .seated, []⟩
      | .error _ => f'
    | _ => f
  | none => f

theorem askGate_eq (f : Floor σ) (k : Nat) :
    f.askGate k = f.askBy k fun e => checkEligible e.userId := rfl

theorem launch_eq (f : Floor σ) (k : Nat) :
    f.launch k = f.enterBy k fun e => admission e.userId e.request := rfl

/-- The floor with older notes under its own, and with one start wherever it may have come. -/
def beside (f : Floor σ) (k : Nat) (e : Option Enrolment) (old : List Note) : Floor σ :=
  { f with service := f.service.noted old, enrolments := Function.update f.enrolments k e }

section Beside

variable (f : Floor σ) {k : Nat} (e : Option Enrolment) (old : List Note)

theorem beside_onHall {g : Hall → Hall} (hg : ∀ h old, g (h.noted old) = (g h).noted old) :
    (f.beside k e old).onHall g = (f.onHall g).beside k e old :=
  congrArg (fun hall => { f.beside k e old with service := { f.service with hall } })
    (hg f.hall old)

theorem beside_putEnrolment {j : Nat} (hj : j ≠ k) (x : Enrolment) :
    (f.beside k e old).putEnrolment j x = (f.putEnrolment j x).beside k e old :=
  congrArg (fun enrolments => { f.beside k e old with enrolments })
    (Function.update_comm hj.symm e (some x) f.enrolments)

theorem beside_enrolments {j : Nat} (hj : j ≠ k) :
    (f.beside k e old).enrolments j = f.enrolments j := Function.update_of_ne hj ..

theorem beside_enrolBy {j : Nat} (hj : j ≠ k) (x : Enrolment) {c : Call σ α} (hc : c.Deaf)
    (next : α → EnrolmentStage) :
    (f.beside k e old).enrolBy j x c next = (f.enrolBy j x c next).beside k e old := by
  have hrun : c.run (f.beside k e old).service =
      ((c.run f.service).1, (c.run f.service).2.noted old) := hc f.service old
  unfold enrolBy
  rw [hrun]
  exact beside_putEnrolment { f with service := (c.run f.service).2 } e old hj _

theorem beside_enrol {j : Nat} (hj : j ≠ k) (userId : String) (request : StartRequest) :
    (f.beside k e old).enrol j userId request = (f.enrol j userId request).beside k e old := by
  unfold enrol
  rw [beside_enrolments f e old hj]
  split
  · rfl
  · exact beside_putEnrolment f e old hj _

theorem beside_checkFree {j : Nat} (hj : j ≠ k) :
    (f.beside k e old).checkFree j = (f.checkFree j).beside k e old := by
  unfold checkFree
  rw [beside_enrolments f e old hj]
  split
  · split
    · exact beside_enrolBy f e old hj _ (deaf_checkFree _) _
    · rfl
  · rfl

theorem beside_askBy {j : Nat} (hj : j ≠ k) {c : Enrolment → Call σ Unit}
    (hc : ∀ x, (c x).Deaf) : (f.beside k e old).askBy j c = (f.askBy j c).beside k e old := by
  unfold askBy
  rw [beside_enrolments f e old hj]
  split
  · split
    · exact beside_enrolBy f e old hj _ (hc _) _
    · rfl
  · rfl

theorem beside_enterBy {j : Nat} (hj : j ≠ k) {c : Enrolment → Call σ StartResponse}
    (hc : ∀ x, (c x).Deaf) : (f.beside k e old).enterBy j c = (f.enterBy j c).beside k e old := by
  unfold enterBy
  rw [beside_enrolments f e old hj]
  split
  · rename_i x _
    split
    · -- the result of the call decides whether a desk is set up
      have hentered := beside_enrolBy f e old hj x (hc x) .launched
      have hrun : ((c x).run (f.beside k e old).service).1 = ((c x).run f.service).1 :=
        (hc x).result f.service old
      rw [hrun]
      dsimp only
      rw [hentered]
      split <;> rfl
    · rfl
  · rfl

theorem beside_confirm {j : Nat} (hj : j ≠ k) :
    (f.beside k e old).confirm j = (f.confirm j).beside k e old := by
  unfold confirm
  rw [beside_enrolments f e old hj]
  split
  · rename_i x _
    split
    · rename_i response _
      rw [beside_onHall f e old fun h old => h.noted_jot old [startedNote x.userId response]]
      exact beside_putEnrolment _ e old hj _
    · rfl
  · rfl

theorem beside_inquire (j : Nat) (id userId : String) (inquiry : Inquiry) :
    (f.beside k e old).inquire j id userId inquiry =
      (f.inquire j id userId inquiry).beside k e old := by
  have hqueries : (f.beside k e old).queries = f.queries := rfl
  unfold inquire
  rw [hqueries]
  split <;> rfl

theorem beside_lookUp (j : Nat) :
    (f.beside k e old).lookUp j = (f.lookUp j).beside k e old := by
  have hqueries : (f.beside k e old).queries = f.queries := rfl
  unfold lookUp
  rw [hqueries]
  split
  · rename_i q _
    split
    · have hrun : ((isRunningFor q.id q.userId).run (f.beside k e old).service).1 =
          ((isRunningFor q.id q.userId).run f.service).1 :=
        (deaf_isRunningFor q.id q.userId).result f.service old
      rw [hrun]
      split
      · rfl
      · rfl
      · split
        · rfl
        · rename_i htold
          obtain ⟨eager, hinquiry⟩ := Inquiry.exists_eq_subscribe htold
          have hcall : (q.inquiry.call q.id q.userId).run (f.beside k e old).service =
              (((q.inquiry.call q.id q.userId).run f.service).1,
                ((q.inquiry.call q.id q.userId).run f.service).2.noted old) := by
            rw [hinquiry]
            exact deaf_bind (deaf_subscribe q.id q.userId eager) (fun _ => deaf_pure _)
              f.service old
          rw [hcall]
          rfl
    · rfl
  · rfl

theorem beside_send (j : Nat) : (f.beside k e old).send j = (f.send j).beside k e old := by
  have hqueries : (f.beside k e old).queries = f.queries := rfl
  have hdesks : (f.beside k e old).desks = f.desks := rfl
  unfold send
  rw [hqueries]
  split
  · split
    · rw [hdesks]
      split
      · rfl
      · split
        · rfl
        · split <;> rfl
    · rfl
  · rfl

theorem beside_receive (j : Nat) :
    (f.beside k e old).receive j = (f.receive j).beside k e old := by
  have hqueries : (f.beside k e old).queries = f.queries := rfl
  unfold receive
  rw [hqueries]
  split
  · split <;> rfl
  · rfl

theorem beside_findFinal (j : Nat) (q : Query) (s : Snapshot) :
    (f.beside k e old).findFinal j q s = (f.findFinal j q s).beside k e old := by
  unfold findFinal
  split
  · rw [beside_onHall f e old fun h old => h.noted_jot old (q.inquiry.finalNotes q.id)]
    rfl
  · rfl

theorem beside_search (j : Nat) : (f.beside k e old).search j = (f.search j).beside k e old := by
  have hqueries : (f.beside k e old).queries = f.queries := rfl
  have harchive : (f.beside k e old).hall.registry.archive = f.hall.registry.archive := rfl
  unfold search
  rw [hqueries]
  split
  · split
    · rw [harchive]
      split
      · exact beside_findFinal f e old j _ _
      · rfl
    · rfl
  · rfl

theorem beside_read (j : Nat) : (f.beside k e old).read j = (f.read j).beside k e old := by
  have hqueries : (f.beside k e old).queries = f.queries := rfl
  unfold read
  rw [hqueries]
  split
  · rename_i q _
    split
    · have hrun : ((recorded q.id).run (f.beside k e old).service).1 =
          ((recorded q.id).run f.service).1 := (deaf_recorded q.id).result f.service old
      rw [hrun]
      split
      · exact beside_findFinal f e old j _ _
      · rfl
    · rfl
  · rfl

theorem beside_commence (id : String) :
    (f.beside k e old).commence id = (f.commence id).beside k e old := by
  have hdesks : (f.beside k e old).desks = f.desks := rfl
  unfold commence
  rw [hdesks]
  split
  · split
    · rw [beside_onHall f e old fun h old => h.noted_commence old id]
      rfl
    · rfl
  · rfl

theorem beside_answer (id : String) (j : Nat) :
    (f.beside k e old).answer id j = (f.answer id j).beside k e old := by
  have hqueries : (f.beside k e old).queries = f.queries := rfl
  unfold answer
  rw [hqueries]
  split
  · rfl
  · split
    · split
      · split
        · rfl
        · rename_i x _
          have hturn : (f.beside k e old).hall.turn id x =
              ((f.hall.turn id x).1, (f.hall.turn id x).2.noted old) := f.hall.noted_turn old id x
          rw [hturn]
          rfl
      · rfl
    · rfl

theorem beside_handle (id : String) :
    (f.beside k e old).handle id = (f.handle id).beside k e old := by
  have hdesks : (f.beside k e old).desks = f.desks := rfl
  have hlive : (f.beside k e old).isLive id = f.isLive id := rfl
  unfold handle
  rw [hdesks]
  split
  · split
    · rw [hlive]
      split
      · exact beside_answer (f.putDesk id _) e old id _
      · rfl
    · rfl
  · rfl

theorem beside_fireAt (id : String) (due : Hall.Due) {g : Hall → Hall}
    (hg : ∀ h old, g (h.noted old) = (g h).noted old) :
    (f.beside k e old).fireAt id due g = (f.fireAt id due g).beside k e old := by
  have hdesks : (f.beside k e old).desks = f.desks := rfl
  have hlive : (f.beside k e old).isLive id = f.isLive id := rfl
  have hdue : (f.beside k e old).isDue id due = f.isDue id due := rfl
  unfold fireAt
  rw [hdesks]
  split
  · rw [hlive, hdue]
    split
    · exact beside_onHall f e old hg
    · rfl
  · rfl

theorem beside_fire (due : Hall.Due) :
    (f.beside k e old).fire due = (f.fire due).beside k e old := by
  cases due with
  | tick id =>
    exact beside_fireAt f e old id _ fun h old => by rw [Hall.noted_moveTick, Hall.noted_turn]
  | grace id => exact beside_fireAt f e old id _ fun h old => by rw [Hall.noted_turn]
  | errand id => rfl

theorem beside_file (id : String) :
    (f.beside k e old).file id = (f.file id).beside k e old := by
  have hdesks : (f.beside k e old).desks = f.desks := rfl
  have hlive : (f.beside k e old).isLive id = f.isLive id := rfl
  unfold file
  rw [hdesks]
  split
  · rw [hlive]
    split
    · rw [beside_onHall f e old fun h old => h.noted_file old id]
      rfl
    · rfl
  · rfl

theorem beside_release (id : String) :
    (f.beside k e old).release id = (f.release id).beside k e old := by
  have hdesks : (f.beside k e old).desks = f.desks := rfl
  unfold release
  rw [hdesks]
  split
  · split
    · rw [beside_onHall f e old fun h old => h.noted_release old id]
      rfl
    · rfl
  · rfl

theorem beside_close (id : String) :
    (f.beside k e old).close id = (f.close id).beside k e old := by
  have hdesks : (f.beside k e old).desks = f.desks := rfl
  unfold close
  rw [hdesks]
  split
  · split <;> rfl
  · rfl

/-- **A move reads no notes and looks at no start but its own.** -/
theorem beside_step {m : Move} (hm : m.start? ≠ some k) :
    (f.beside k e old).step m = (f.step m).beside k e old := by
  cases m with
  | enrol j userId request =>
    exact beside_enrol f e old (fun hj => hm (congrArg some hj)) userId request
  | checkFree j => exact beside_checkFree f e old fun hj => hm (congrArg some hj)
  | askGate j =>
    change (f.beside k e old).askGate j = (f.askGate j).beside k e old
    rw [askGate_eq, askGate_eq]
    exact beside_askBy f e old (fun hj => hm (congrArg some hj)) fun _ => deaf_checkEligible _
  | launch j =>
    change (f.beside k e old).launch j = (f.launch j).beside k e old
    rw [launch_eq, launch_eq]
    exact beside_enterBy f e old (fun hj => hm (congrArg some hj)) fun _ => deaf_admission _ _
  | confirm j => exact beside_confirm f e old fun hj => hm (congrArg some hj)
  | inquire j id userId inquiry => exact beside_inquire f e old j id userId inquiry
  | lookUp j => exact beside_lookUp f e old j
  | send j => exact beside_send f e old j
  | receive j => exact beside_receive f e old j
  | search j => exact beside_search f e old j
  | read j => exact beside_read f e old j
  | commence id => exact beside_commence f e old id
  | handle id => exact beside_handle f e old id
  | fire due => exact beside_fire f e old due
  | file id => exact beside_file f e old id
  | release id => exact beside_release f e old id
  | close id => exact beside_close f e old id
  | write id attempts =>
    exact beside_onHall f e old (g := (·.toil id attempts)) fun h old =>
      h.noted_toil old id attempts
  | approve userId approver =>
    have hrun := deaf_approve userId approver f.service old
    exact congrArg (fun r => { f.beside k e old with service := r.2 }) hrun
  | pass ms => rfl
  | listen relays notes =>
    exact beside_onHall f e old (g := fun h => ({ h with relays } : Hall).jot notes) fun h old =>
      Hall.noted_jot { h with relays := relays } old notes
  | switch on => rfl
  | trouble losses silences => rfl

end Beside

end Floor

end Invigilator
