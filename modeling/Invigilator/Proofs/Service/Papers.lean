import Invigilator.Proofs.Exam.Catalog
import Invigilator.Proofs.Exam.Selection
import Invigilator.Proofs.Service.Retake
import Invigilator.Proofs.Service.Submission

/-!
# The paper of a session

The paper of a session is what it asks: a language, and the ids of three questions in order. It is
set when the session begins. A turn does not change it, a patch does not, and a hall keeps
nothing of a session but what it was launched with: so wherever a snapshot of the session comes
from, the seat, the archive or the records, it shows the paper of the start (`Within`).

A catalog in which the questions of each language have distinct ids finds the questions of a
paper again, in their order. So the questions of any later snapshot are those that the candidate
was shown at the start.
-/

namespace Invigilator

/-- What a session asks: the language, and the ids of its questions in order. -/
def Session.paper (s : Session) : Language × Trio String := (s.language, s.questionIds)

theorem Stretch.paper_eq {s t : Sitting} {as : List Action} (h : Stretch s t as) :
    t.session.paper = s.session.paper := by
  induction h with
  | idle session _ _ _ => rw [session]
  | charge => rfl
  | revise => rfl
  | close reason spent time _ =>
    rw [Sitting.closed, Session.finish]
    split <;> rfl
  | andThen _ _ ih₁ ih₂ => rw [ih₂, ih₁]

/-- A reply that shows a session shows its paper. -/
theorem Turn.paper_of_reply {σ : Type} {ledger : LivesLedger σ} {scene : Scene} {x : Stimulus}
    {s : Sitting × σ} {shown : Snapshot}
    (h : (step ledger scene x).value s = .snapshot (.ok shown)) :
    shown.session.paper = s.1.session.paper := by
  cases hrun : s.1.isRunning with
  | false =>
    rw [value_step_over ledger scene x hrun] at h
    cases h
  | true =>
    have hturn := (stretches_step ledger scene x (s := s)).paper_eq
    rw [after_step_running ledger scene x hrun] at hturn
    rw [value_step_running ledger scene x hrun] at h
    cases x with
    | look =>
      obtain rfl := Except.ok.inj (Reply.snapshot.inj h)
      rfl
    | submit reason =>
      have hsubmitted : (submit scene reason : Turn σ (Except Fault Snapshot)).value s =
          .ok shown := Reply.snapshot.inj h
      rcases value_submit (s := s) scene reason with ⟨seconds, hlocked⟩ | hleft
      · cases hlocked.symm.trans hsubmitted
      · obtain rfl := Except.ok.inj (hleft.symm.trans hsubmitted)
        exact hturn
    | signal | update | recordRun | tick | graceElapsed | shutdown => cases h

/-! ## What a hall keeps -/

namespace Hall

/-- The hall keeps a paper under the id of a session: at the seat, in the archive, on record, or in
a write that is to create the record. -/
inductive Holds (h : Hall) : String → Language × Trio String → Prop
  | running {r : Running Seat} (hr : r ∈ h.registry.active) :
      Holds h r.sessionId r.value.sitting.session.paper
  | archived {e : String × Snapshot} (he : e ∈ h.registry.archive.entries) :
      Holds h e.1 e.2.session.paper
  | recorded {s : Session} (hs : s ∈ h.courier.records.cabinet.sessions) : Holds h s.id s.paper
  | inHand {id : String} {w : RecordWrite} {s : Session} (hw : w ∈ (h.scribe id).inHand)
      (hs : w.creates = some s) : Holds h s.id s.paper

/-- Whatever papers the hall keeps are among these. -/
def Within (papers : String → Language × Trio String → Prop) (h : Hall) : Prop :=
  ∀ id paper, h.Holds id paper → papers id paper

variable {papers : String → Language × Trio String → Prop} {h : Hall}

/-- The same is kept, as far as papers go. -/
theorem Within.of_same {g : Hall} (hw : h.Within papers)
    (hregistry : g.registry = h.registry)
    (hsessions : g.courier.records.cabinet.sessions = h.courier.records.cabinet.sessions)
    (hscribes : g.scribes = h.scribes) : g.Within papers := by
  rintro id paper (hr | he | hs | ⟨hinHand, hs⟩)
  · exact hw _ _ (.running (hregistry ▸ hr))
  · exact hw _ _ (.archived (hregistry ▸ he))
  · exact hw _ _ (.recorded (hsessions ▸ hs))
  · rw [scribe, hscribes] at hinHand
    exact hw _ _ (.inHand hinHand hs)

theorem Within.jot (hw : h.Within papers) (notes : List Note) : (h.jot notes).Within papers :=
  hw.of_same rfl rfl rfl

theorem Within.draw (hw : h.Within papers) : h.draw.Within papers := hw.of_same rfl rfl rfl

/-- A scribe may be replaced by one that has nothing more to create. -/
theorem Within.putScribe (hw : h.Within papers) (id : String) {s : Scribe}
    (hs : ∀ w ∈ s.inHand, ∀ x, w.creates = some x → papers x.id x.paper) :
    (h.putScribe id s).Within papers := by
  rintro key paper (hr | he | hs' | @⟨other, w, x, hinHand, hx⟩)
  · exact hw _ _ (.running hr)
  · exact hw _ _ (.archived he)
  · exact hw _ _ (.recorded hs')
  · rw [scribe_putScribe] at hinHand
    split at hinHand
    · exact hs w hinHand x hx
    · exact hw _ _ (.inHand hinHand hx)

theorem Within.hand (hw : h.Within papers) (id : String) {w : RecordWrite}
    (hcreates : ∀ x, w.creates = some x → papers x.id x.paper) : (h.hand id w).Within papers := by
  unfold Hall.hand
  dsimp only
  split
  · exact hw.jot _
  · refine hw.putScribe id fun v hv x hx => ?_
    unfold Scribe.hand at hv
    split at hv
    · exact hw _ _ (.inHand hv hx)
    · rw [Scribe.inHand, ← List.append_assoc] at hv
      rcases List.mem_append.mp hv with hv | hv
      · exact hw _ _ (.inHand hv hx)
      · exact hcreates x (List.mem_singleton.mp hv ▸ hx)

/-- A scribe creates the records that it has in hand, and patches those that are there. -/
theorem Within.toil (hw : h.Within papers) (id : String) (attempts : Nat) :
    (h.toil id attempts).Within papers := by
  obtain ⟨hinHand, hrecords⟩ := Scribe.workFor_kept (Q := fun s => papers s.id s.paper)
    (fun _ _ hs => hs) h.now h.time (h.source.jitter h.drawn) attempts
    (fun w hv x hx => hw _ _ (.inHand hv hx)) fun x hx => hw _ _ (.recorded hx)
  rintro key paper (hr | he | hs | @⟨other, w, x, hleft, hx⟩)
  · rw [(still_toil h id attempts).registry] at hr
    exact hw _ _ (.running hr)
  · rw [(still_toil h id attempts).registry] at he
    exact hw _ _ (.archived he)
  · rw [courier_toil] at hs
    exact hrecords _ hs
  · rw [scribe_toil] at hleft
    split at hleft
    · exact hw _ _ (.inHand (hinHand w hleft) hx)
    · exact hw _ _ (.inHand hleft hx)

theorem Within.work (hw : h.Within papers) (id : String) : (h.work id).Within papers :=
  hw.toil id (h.attempts id)

/-- Actions create what records they are to create, and leave the seats and the archive alone. -/
theorem Within.performed (hw : h.Within papers) (id : String) {as : List Action}
    (has : ∀ w, .write w ∈ as → ∀ x, w.creates = some x → papers x.id x.paper) :
    (as.foldl (fun h a => h.perform id a) h).Within papers := by
  induction as generalizing h with
  | nil => exact hw
  | cons a as ih =>
    have hfirst : (h.perform id a).Within papers := by
      cases a with
      | publish e => exact hw.of_same rfl rfl rfl
      | write w => exact hw.hand id (has w List.mem_cons_self)
      | note n => exact hw.jot [n]
    exact ih hfirst fun w hmem => has w (List.mem_cons_of_mem a hmem)

/-! ### The registry -/

theorem Within.update (hw : h.Within papers) {id : String} {seat : Seat}
    (hseat : papers id seat.sitting.session.paper) :
    ({ h with registry := h.registry.update id seat } : Hall).Within papers := by
  rintro key paper (hr | he | hs | ⟨hinHand, hx⟩)
  · obtain ⟨old, hold, rfl⟩ := List.mem_map.mp hr
    split
    · next hsame => exact hsame.symm ▸ hseat
    · exact hw _ _ (.running hold)
  · exact hw _ _ (.archived he)
  · exact hw _ _ (.recorded hs)
  · exact hw _ _ (.inHand hinHand hx)

theorem Within.retire (hw : h.Within papers) {id : String} {final : Snapshot}
    (hfinal : papers id final.session.paper) :
    ({ h with registry := h.registry.retire id final } : Hall).Within papers := by
  rintro key paper (hr | he | hs | ⟨hinHand, hx⟩)
  · exact hw _ _ (.running (List.mem_filter.mp hr).1)
  · rcases Archive.mem_insert he with rfl | he
    · exact hfinal
    · exact hw _ _ (.archived he)
  · exact hw _ _ (.recorded hs)
  · exact hw _ _ (.inHand hinHand hx)

/-- A turn leaves the session with its paper. -/
theorem Within.settle (hw : h.Within papers) {id : String} {seat : Seat} {state : Sitting × Shelf}
    {actions : List Action} (hpaper : papers id state.1.session.paper)
    (hactions : ∀ w, .write w ∈ actions → ∀ x, w.creates = some x → papers x.id x.paper) :
    (h.settle id seat state actions).Within papers := by
  have hdone := hw.draw.performed id hactions
  unfold Hall.settle
  dsimp only
  refine Within.work ?_ id
  split
  · exact hdone.update hpaper
  · exact (hdone.retire hpaper).of_same rfl rfl rfl

theorem paper_of_find? (hw : h.Within papers) {id : String} {r : Running Seat}
    (hfind : h.registry.find? id = some r) : papers id r.value.sitting.session.paper := by
  have hkept := hw _ _ (.running (List.mem_of_find?_eq_some hfind))
  rwa [Registry.sessionId_of_find? hfind] at hkept

/-- **Whatever a session is told, nothing is kept but the papers that were.** -/
theorem Within.tell (hw : h.Within papers) (id : String) (x : Stimulus) :
    (h.tell id x).2.Within papers := by
  unfold Hall.tell
  split
  · exact hw
  · rename_i r hfind
    have hturn := Turn.stretches_step (ledger r.value) (h.scene r.value) x
      (s := (r.value.sitting, r.value.lives))
    have hpaper : papers id ((Turn.step (ledger r.value) (h.scene r.value) x).after
        (r.value.sitting, r.value.lives)).1.session.paper :=
      hturn.paper_eq.symm ▸ paper_of_find? hw hfind
    refine hw.settle hpaper fun w hmem y hy => ?_
    cases (hturn.creates_eq_none w hmem).symm.trans hy

/-- A reply that shows the session shows a paper that is kept under its id. -/
theorem Within.shown (hw : h.Within papers) {id : String} {x : Stimulus} {shown : Snapshot}
    (htold : (h.tell id x).1 = some (.snapshot (.ok shown))) : papers id shown.session.paper := by
  cases hfind : h.registry.find? id with
  | none =>
    rw [Hall.tell, hfind] at htold
    cases htold
  | some r =>
    rw [Hall.tell, hfind] at htold
    have hreply : (Turn.step (ledger r.value) (h.scene r.value) x).value
        (r.value.sitting, r.value.lives) = .snapshot (.ok shown) := Option.some.inj htold
    rw [Turn.paper_of_reply hreply]
    exact paper_of_find? hw hfind

/-- A launch adds the paper of the session that is launched. -/
theorem Within.launch (hw : h.Within papers) {seat : Seat} {g : Hall}
    (hseat : papers seat.sitting.session.id seat.sitting.session.paper)
    (hlaunch : h.launch seat = .ok g) : g.Within papers := by
  obtain rfl := eq_settle_of_launch hlaunch
  have hseated : ({ h with registry := { h.registry with active := h.registry.active ++
      [⟨seat.sitting.session.id, seat.sitting.session.userId, seat⟩] } } :
      Hall).Within papers := by
    rintro key paper (hr | he | hs | ⟨hinHand, hx⟩)
    · rcases List.mem_append.mp hr with hr | hr
      · exact hw _ _ (.running hr)
      · rw [List.mem_singleton.mp hr]
        exact hseat
    · exact hw _ _ (.archived he)
    · exact hw _ _ (.recorded hs)
    · exact hw _ _ (.inHand hinHand hx)
  refine hseated.settle hseat fun w hmem x hx => ?_
  rw [Turn.creates_begin hmem hx]
  exact hseat

theorem Within.fire (hw : h.Within papers) (d : Due) : (h.fire d).Within papers := by
  cases d with
  | tick id =>
    have hmoved : (h.moveTick id).Within papers := by
      unfold moveTick
      split
      · exact hw
      · rename_i r hfind
        exact hw.update (paper_of_find? hw hfind)
    exact hmoved.tell id .tick
  | grace id => exact hw.tell id .graceElapsed
  | errand id => exact hw.work id

theorem Within.advance (hw : h.Within papers) (ms : Nat) : (h.advance ms).Within papers :=
  advance_induction (fun _ _ hg => hg.of_same rfl rfl rfl) (fun _ d hg => hg.fire d) hw ms

/-- What is kept under an id that nobody owns is nothing. -/
theorem Kept.not_holds {owns : String → String → Prop} {ids : Nat → String} (hk : h.Kept owns ids)
    {id : String} (hnone : ∀ userId, ¬owns id userId) (paper : Language × Trio String) :
    ¬h.Holds id paper := by
  rintro (hr | he | hs | @⟨other, w, x, hinHand, hx⟩)
  · exact hnone _ (hk.running _ hr).holder
  · exact hnone _ (hk.archived _ he)
  · exact hnone _ (hk.recorded _ hs)
  · exact hnone _ (hk.scribe other w hinHand x hx)

end Hall

/-! ## Calls -/

/-- A call that ends by wrapping its result has one to wrap. -/
theorem Call.exists_of_run_bind_pure {σ α β : Type} {c : Call σ α} {f : α → β} {s s' : Service σ}
    {y : β} (h : (c >>= fun x => pure (f x)).run s = (.ok y, s')) :
    ∃ x, c.run s = (.ok x, s') ∧ f x = y := by
  rw [run_bind] at h
  match hc : c.run s with
  | (.error fault, t) =>
    rw [hc] at h
    cases h
  | (.ok x, t) =>
    rw [hc] at h
    cases h
    exact ⟨x, rfl, rfl⟩

namespace Service

open Call

variable {σ : Type} {papers : String → Language × Trio String → Prop} {catalog : Catalog}
  {s s' : Service σ} {id userId : String} {r : StartRequest} {response : StartResponse}

/-- The service keeps papers among these, and asks from this catalog. -/
structure Asks (papers : String → Language × Trio String → Prop) (catalog : Catalog)
    (s : Service σ) : Prop where
  within : s.hall.Within papers
  catalog_eq : s.catalog = catalog

theorem Asks.hall (hs : s.Asks papers catalog) {h : Hall} (hw : h.Within papers) :
    ({ s with hall := h } : Service σ).Asks papers catalog := ⟨hw, hs.catalog_eq⟩

theorem stable_asks : Stable fun s : Service σ => s.Asks papers catalog where
  jot _ notes hs := hs.hall (hs.within.jot notes)
  draw _ hs := hs.hall hs.within.draw
  relays _ _ hs := hs.hall (hs.within.of_same rfl rfl rfl)
  tell _ id x _ hs := hs.hall (hs.within.tell id x)
  advance _ ms hs := hs.hall (hs.within.advance ms)
  contact _ _ _ hs := ⟨hs.within, hs.catalog_eq⟩
  weather _ _ _ _ hs := hs.hall (hs.within.of_same rfl rfl rfl)

/-- What no start does adds no paper. -/
theorem preserves_asks {d : Demand σ} (hstart : ∀ userId request, d ≠ .start userId request)
    (henrol : ∀ userId request, d ≠ .enrol userId request) :
    d.call.Preserves fun s => s.Asks papers catalog := by
  have hstable : Stable fun s : Service σ => s.Asks papers catalog := stable_asks
  cases d with
  | start userId request => exact absurd rfl (hstart userId request)
  | enrol userId request => exact absurd rfl (henrol userId request)
  | approve userId approver =>
    have hgated : (approve userId approver : Call σ Bool).Preserves fun s =>
        s.Asks papers catalog :=
      preserves_approve hstable fun _ hs => hs.hall (hs.within.of_same rfl rfl rfl)
    exact preserves_return hgated
  | resetLives userId administrator =>
    have hreset : (resetLives userId administrator : Call σ LivesReport).Preserves fun s =>
        s.Asks papers catalog :=
      preserves_resetLives hstable administrator fun _ hs => ⟨hs.within, hs.catalog_eq⟩
    exact preserves_return hreset
  | shutdown =>
    have hstopped := preserves_shutdown hstable
      fun _ id hs => hs.hall (hs.within.tell id .shutdown)
    exact preserves_return hstopped
  | practice lives livesTime pingDelay => exact fun _ hs => ⟨hs.within, hs.catalog_eq⟩
  | _ => exact Demand.preserves_of_isOrdinary hstable rfl

/-! ### Starting -/

theorem possible_of_chosen {questions : Trio Question}
    (h : (chooseQuestions r).run s = (.ok questions, s')) :
    Selection.Possible (s.catalog.pool r.language r.wantedTopic) questions ∧
      ∃ notes, s' = { s with hall := s.hall.jot notes } := by
  rw [run_chooseQuestions] at h
  split at h
  · next chosen hchoose =>
    cases h
    exact ⟨⟨_, hchoose⟩, _, rfl⟩
  · cases h

/-- A start that succeeds has launched a session with the questions that it shows. -/
theorem launched_of_begin (h : (begin userId r).run s = (.ok response, s')) :
    ∃ questions seat hall notes more,
      Selection.Possible (s.catalog.pool r.language r.wantedTopic) questions ∧
      response.questions = questions.toList.map Question.view ∧
      response.sessionId = s.hall.source.sessionId s.hall.drawn ∧
      seat.sitting.session.id = response.sessionId ∧
      seat.sitting.session.paper = (r.language, questions.map Question.id) ∧
      (s.hall.jot notes).draw.launch seat = .ok hall ∧ s' = { s with hall := hall.jot more } := by
  rw [begin_eq, run_bind] at h
  match hchosen : (chooseQuestions r).run s with
  | (.error fault, s₁) =>
    rw [hchosen] at h
    cases h
  | (.ok questions, s₁) =>
    rw [hchosen] at h
    obtain ⟨hpossible, notes, rfl⟩ := possible_of_chosen hchosen
    rcases seatWith_cases (fun settings h => newSeat settings h userId r.language questions) userId
        r questions { s with hall := s.hall.jot notes } with
      ⟨existing, -, hrun⟩ | ⟨hall, response', more, hlaunch, hrun, hid, hviews⟩
    · cases hrun.symm.trans h
    · cases hrun.symm.trans h
      have hseatId := newSeat_id s.config.exam (s.hall.jot notes) userId r.language questions
      exact ⟨questions, _, hall, notes, more, hpossible, hviews, hid.trans hseatId, hid.symm, rfl,
        hlaunch, rfl⟩

theorem begin_of_enrol (h : (enrol userId r).run s = (.ok response, s')) :
    (begin userId r).run s = (.ok response, s') := by
  rw [enrol, run_bind, run_checkEligible] at h
  by_cases heligible : s.hall.courier.records.gate.isEligible userId = true
  · rwa [if_pos heligible] at h
  · rw [if_neg heligible] at h
    cases h

theorem begin_of_start (h : (start userId r).run s = (.ok response, s')) :
    (begin userId r).run s = (.ok response, s') := by
  rw [start, run_bind, run_checkFree] at h
  cases hfree : s.hall.registry.sessionOf? userId with
  | none =>
    rw [hfree] at h
    exact begin_of_enrol h
  | some other =>
    rw [hfree] at h
    cases h

/-- A start adds a paper under the next id, or none. -/
theorem Asks.begin (hs : s.Asks papers catalog)
    (hnext : ∀ paper, papers (s.hall.source.sessionId s.hall.drawn) paper) (userId : String)
    (r : StartRequest) : ((begin userId r).run s).2.Asks papers catalog := by
  obtain ⟨notes, ⟨fault, hrun⟩ | ⟨response, more, seat, hall, hrun, hlaunch, hid, hseat, -⟩⟩ :=
    begin_cases userId r s
  · rw [hrun]
    exact hs.hall (hs.within.jot notes)
  · have hpaper : papers seat.sitting.session.id seat.sitting.session.paper := by
      rw [hseat, hid]
      exact hnext _
    rw [hrun]
    exact hs.hall (((hs.within.jot notes).draw.launch hpaper hlaunch).jot more)

theorem Asks.enrol (hs : s.Asks papers catalog)
    (hnext : ∀ paper, papers (s.hall.source.sessionId s.hall.drawn) paper) (userId : String)
    (r : StartRequest) : ((enrol userId r).run s).2.Asks papers catalog := by
  rw [Service.enrol, run_bind, run_checkEligible]
  by_cases heligible : s.hall.courier.records.gate.isEligible userId = true
  · rw [if_pos heligible]
    exact hs.begin hnext userId r
  · rw [if_neg heligible]
    exact hs.hall (hs.within.jot _)

theorem Asks.start (hs : s.Asks papers catalog)
    (hnext : ∀ paper, papers (s.hall.source.sessionId s.hall.drawn) paper) (userId : String)
    (r : StartRequest) : ((start userId r).run s).2.Asks papers catalog := by
  rw [Service.start, run_bind, run_checkFree]
  cases s.hall.registry.sessionOf? userId with
  | none => exact hs.enrol hnext userId r
  | some other => exact hs

/-! ### Snapshots -/

theorem Asks.finished (hs : s.Asks papers catalog) {shown : Snapshot}
    (h : (finished id userId).run s = (.ok shown, s')) : papers id shown.session.paper := by
  rcases found_of_finished h with harchived | ⟨-, hrecorded⟩
  · obtain ⟨before, after, hentries, -⟩ := List.lookup_eq_some_iff.mp harchived
    exact hs.within _ _ (.archived (e := (id, shown)) (by simp [hentries]))
  · unfold Cabinet.session? Cabinet.guarded at hrecorded
    split at hrecorded
    · have hfind := Except.ok.inj hrecorded
      have hkept := hs.within _ _ (.recorded (List.mem_of_find?_eq_some hfind))
      have hid : shown.session.id = id := by simpa using List.find?_some hfind
      rwa [hid] at hkept
    · cases hrecorded

/-- A snapshot is what the running session replies, or what is found of one that has finished. -/
theorem Asks.answered (hs : s.Asks papers catalog) {x : Stimulus} {shown : Snapshot}
    {answer : Option Reply → Call σ Snapshot}
    (hsnapshot : ∀ result, answer (some (.snapshot result)) = ofExcept result)
    (hother : ∀ reply, (∀ result, reply ≠ some (.snapshot result)) →
      answer reply = Service.finished id userId)
    (h : (tell id userId x >>= answer).run s = (.ok shown, s')) :
    papers id shown.session.paper := by
  -- the session replies with a snapshot, or the snapshot is looked for among the finished ones
  have hreply : ∀ {t : Service σ} {reply : Option Reply}, t.Asks papers catalog →
      (reply = some (.snapshot (.ok shown)) → papers id shown.session.paper) →
      (answer reply).run t = (.ok shown, s') → papers id shown.session.paper := by
    intro t reply ht hshown hanswer
    by_cases hshows : ∃ result, reply = some (.snapshot result)
    · obtain ⟨result, rfl⟩ := hshows
      rw [hsnapshot, run_ofExcept] at hanswer
      exact hshown (congrArg (some ∘ Reply.snapshot) (congrArg Prod.fst hanswer))
    · rw [hother reply fun result heq => hshows ⟨result, heq⟩] at hanswer
      exact ht.finished hanswer
  rw [run_bind, tell, run_bind] at h
  rcases run_isRunningFor_cases id userId s with
    ⟨hgone, hrun⟩ | ⟨seat, hfind, ⟨howner, hrun⟩ | ⟨hstranger, hrun⟩⟩
  · rw [hrun] at h
    have hnone : (answer none).run s = (.ok shown, s') := h
    refine hreply hs (fun hreplied => ?_) hnone
    cases hreplied
  · rw [hrun] at h
    exact hreply (hs.hall (hs.within.tell id x)) hs.within.shown h
  · rw [hrun] at h
    cases h

/-- **Whatever snapshot of a session is shown, it shows a paper that is kept under its id.** -/
theorem Asks.shown (hs : s.Asks papers catalog) {inquiry : Inquiry} {shown : Snapshot}
    (h : (inquiry.call id userId).run s = (.ok (.snapshot shown), s')) :
    papers id shown.session.paper := by
  have hnever : ∀ {α : Type} {c : Call σ α} {f : α → Told}, (∀ x, f x ≠ .snapshot shown) →
      (c >>= fun x => pure (f x)).run s ≠ (.ok (.snapshot shown), s') := by
    intro α c f hf hrun
    obtain ⟨x, -, hx⟩ := exists_of_run_bind_pure hrun
    exact hf x hx
  have hsame : ∀ {c : Call σ Snapshot},
      (c >>= fun x => pure (Told.snapshot x)).run s = (.ok (.snapshot shown), s') →
        c.run s = (.ok shown, s') := by
    intro c hrun
    obtain ⟨x, hx, hshown⟩ := exists_of_run_bind_pure hrun
    exact Told.snapshot.inj hshown ▸ hx
  -- only two inquiries are answered with a snapshot
  cases inquiry with
  | snapshot =>
    refine hs.answered (fun _ => rfl) (fun reply hreply => ?_) (hsame h)
    split
    · next result => exact absurd rfl (hreply result)
    · rfl
  | submit =>
    refine hs.answered (fun _ => rfl) (fun reply hreply => ?_) (hsame h)
    split
    · next result => exact absurd rfl (hreply result)
    · rfl
  | score | updateAnswer | recordRun | signal | subscribe => exact absurd h (hnever nofun)

end Service

/-! ## Houses -/

/-- What a lookup owes: the questions of the ids that are answered, in the order asked for; none
that the list does not have, or used twice; and the same whatever order the list is in, if its ids
are distinct. -/
structure Catalog.LooksUp (qs : List Question) (ids : List String) : Prop where
  ids_eq : (orderByIds qs ids).map Question.id = answered (supply qs) ids
  part : (orderByIds qs ids).Subperm qs
  order_free : (qs.map Question.id).Nodup →
    ∀ ps : List Question, ps.Perm qs → orderByIds ps ids = orderByIds qs ids

/-- Three different questions of a pool are found again by their ids. -/
theorem Catalog.Distinct.byIds_chosen {c : Catalog} (hc : c.Distinct) {language : Language}
    {topic : Option String} {questions : Trio Question}
    (h : Selection.Possible (c.pool language topic) questions) :
    c.byIds language (questions.map Question.id).toList = questions.toList := by
  have hpool : (c.pool language topic).Sublist (c.filter fun q => q.language == language) :=
    List.monotone_filter_right c fun q hq => (Bool.and_eq_true_iff.mp hq).1
  have hids : ((c.pool language topic).map Question.id).Nodup :=
    (hc language).sublist (hpool.map Question.id)
  refine hc.byIds_eq (h.nodup_ids hids) fun q hq => ?_
  have hmem := List.mem_filter.mp (h.sorts.1.subset hq)
  exact ⟨hmem.1, by simpa using (Bool.and_eq_true_iff.mp hmem.2).1⟩

namespace House

variable {σ : Type} {ids : Nat → String} {house : House σ} {catalog : Catalog} {id : String}
  {paper : Language × Trio String}

/-- The session was started, and whatever is kept of it has its paper. -/
structure Issued (ids : Nat → String) (catalog : Catalog) (id : String)
    (paper : Language × Trio String) (house : House σ) : Prop where
  sound : house.Sound ids
  started : ∃ userId, house.Started id userId
  asks : house.service.Asks (fun other p => other = id → p = paper) catalog

/-- No later session gets the id. -/
theorem Issued.next (h : house.Issued ids catalog id paper) (hinjective : Function.Injective ids)
    (p : Language × Trio String) :
    house.service.hall.source.sessionId house.service.hall.drawn = id → p = paper := by
  intro hid
  obtain ⟨userId, hstarted⟩ := h.started
  obtain ⟨n, hn, hdrawn⟩ := h.sound.kept.drawn id userId hstarted
  rw [h.sound.kept.source, hdrawn] at hid
  exact absurd (hinjective hid) (Nat.ne_of_gt hn)

/-- The papers are the same after a demand, or the next id has one more. -/
theorem asks_meet {papers : String → Language × Trio String → Prop}
    (h : house.service.Asks papers catalog)
    (hnext : ∀ p, papers (house.service.hall.source.sessionId house.service.hall.drawn) p)
    (d : Demand σ) : (house.meet d).2.service.Asks papers catalog := by
  rw [service_meet]
  by_cases hstart : ∃ userId request, d = .start userId request
  · obtain ⟨userId, request, rfl⟩ := hstart
    rw [Demand.call, Call.after_return]
    exact h.start hnext userId request
  by_cases henrol : ∃ userId request, d = .enrol userId request
  · obtain ⟨userId, request, rfl⟩ := henrol
    rw [Demand.call, Call.after_return]
    exact h.enrol hnext userId request
  exact Service.preserves_asks (fun userId request hd => hstart ⟨userId, request, hd⟩)
    (fun userId request hd => henrol ⟨userId, request, hd⟩) _ h

/-- Nothing that is demanded changes the catalog. -/
theorem catalog_run (ds : List (Demand σ)) (house : House σ) :
    (run ds house).2.service.catalog = house.service.catalog := by
  induction ds generalizing house with
  | nil => rfl
  | cons d ds ih =>
    have hany : house.service.Asks (fun _ _ => True) house.service.catalog :=
      ⟨fun _ _ _ => trivial, rfl⟩
    exact (ih (house.meet d).2).trans (asks_meet hany (fun _ => trivial) d).catalog_eq

theorem Issued.meet (h : house.Issued ids catalog id paper) (hinjective : Function.Injective ids)
    (d : Demand σ) : (house.meet d).2.Issued ids catalog id paper where
  sound := h.sound.meet d
  started := h.started.imp fun _ hstarted => hstarted.meet d
  asks := asks_meet h.asks (h.next hinjective) d

theorem Issued.run (h : house.Issued ids catalog id paper) (hinjective : Function.Injective ids)
    (ds : List (Demand σ)) : (run ds house).2.Issued ids catalog id paper := by
  induction ds generalizing house with
  | nil => exact h
  | cons d ds ih => exact ih (h.meet hinjective d)

/-- A session that is started is issued with the paper of the questions that are shown. -/
theorem Sound.issued (h : house.Sound ids) (hinjective : Function.Injective ids) {d : Demand σ}
    {userId : String} {r : StartRequest} {response : StartResponse}
    (hstart : d = .start userId r ∨ d = .enrol userId r)
    (hresult : (house.meet d).1.result = .ok (.started response)) :
    ∃ questions,
      Selection.Possible (house.service.catalog.pool r.language r.wantedTopic) questions ∧
      response.questions = questions.toList.map Question.view ∧
      (house.meet d).2.Issued ids house.service.catalog response.sessionId
        (r.language, questions.map Question.id) := by
  have hstarter : d.starter? (.ok (.started response)) = some (response.sessionId, userId) := by
    rcases hstart with rfl | rfl <;> rfl
  obtain ⟨s', hrun, hbegin⟩ : ∃ s', d.call.run house.service = (.ok (.started response), s') ∧
      (Service.begin userId r).run house.service = (.ok response, s') := by
    have hrun : d.call.run house.service =
        (.ok (.started response), (d.call.run house.service).2) := Prod.ext hresult rfl
    refine ⟨_, hrun, ?_⟩
    rcases hstart with rfl | rfl
    · obtain ⟨x, hx, hsame⟩ := Call.exists_of_run_bind_pure hrun
      exact Service.begin_of_start (Result.started.inj hsame ▸ hx)
    · obtain ⟨x, hx, hsame⟩ := Call.exists_of_run_bind_pure hrun
      exact Service.begin_of_enrol (Result.started.inj hsame ▸ hx)
  obtain ⟨questions, seat, hall, notes, more, hpossible, hviews, hid, hseat, hpaper, hlaunch,
    hs'⟩ := Service.launched_of_begin hbegin
  refine ⟨questions, hpossible, hviews, h.meet d, ⟨userId, ?_⟩, ?_⟩
  · have hstarters : (house.meet d).2.starters =
        (d.starter? (d.call.run house.service).1).toList ++ house.starters := rfl
    rw [Started, hstarters, hrun, hstarter]
    exact List.mem_cons_self
  · -- nothing was kept under the id before, as no id is drawn twice
    have hnew : ∀ v, ¬house.Started response.sessionId v := by
      intro v hstarted
      obtain ⟨n, hn, hdrawn⟩ := h.kept.drawn _ v hstarted
      rw [hid, h.kept.source] at hdrawn
      exact Nat.lt_irrefl _ (hinjective hdrawn ▸ hn)
    have hbefore : house.service.hall.Within fun other p =>
        other = response.sessionId → p = (r.language, questions.map Question.id) := by
      rintro other p hholds rfl
      exact absurd hholds (h.kept.not_holds hnew p)
    rw [service_meet, hrun, hs']
    refine ⟨?_, rfl⟩
    exact ((hbefore.jot notes).draw.launch (fun _ => hpaper) hlaunch).jot more

/-- Whoever is shown a snapshot of the session later, and later still asks for its questions, is
given these. -/
def AsksAgain (house : House σ) (id : String) (questions : List QuestionView) : Prop :=
  ∀ later userId inquiry next shown more,
    (run later house).2.meet (.inquire id userId inquiry) = next →
      next.1.result = .ok (.told (.snapshot shown)) →
        ((run more next.2).2.meet (.questions shown)).1.result = .ok (.questions questions)

theorem Issued.asksAgain {questions : Trio Question} {language : Language}
    (h : house.Issued ids catalog id (language, questions.map Question.id))
    (hinjective : Function.Injective ids)
    (hfound : catalog.byIds language (questions.map Question.id).toList = questions.toList) :
    house.AsksAgain id (questions.toList.map Question.view) := by
  rintro later userId inquiry next shown more rfl hshown
  have hlater := h.run hinjective later
  -- what was shown has the paper of the session
  obtain ⟨told, htold, hsame⟩ := Call.exists_of_run_bind_pure
    (c := inquiry.call id userId) (f := Result.told) (s := (House.run later house).2.service)
    (Prod.ext hshown rfl)
  rw [Result.told.inj hsame] at htold
  have hpaper : shown.session.paper = (language, questions.map Question.id) :=
    hlater.asks.shown htold rfl
  have hlanguage : shown.session.language = language := congrArg Prod.fst hpaper
  have hids : shown.session.questionIds = questions.map Question.id := congrArg Prod.snd hpaper
  have hcatalog := ((hlater.meet hinjective (.inquire id userId inquiry)).run hinjective
    more).asks.catalog_eq
  rw [House.meet, Demand.call]
  simp only [Service.questions, Call.run_bind, Service.run_service, Call.run_pure]
  rw [hcatalog, hlanguage, hids, hfound]

/-- **Questions are found by their ids, and those of a session again and again.** A lookup takes
what each id asks for, in the order asked. So in a service with a catalog that has distinct ids in
every language, whoever is shown a snapshot of a session, wherever a run has led since its start,
and asks for its questions, is given the three that the start gave. -/
theorem questions_by_ids (config : Config) (catalog : Catalog) (practice : PracticeStore σ)
    (lives : σ) (time : Stamp) (source : Source) :
    (∀ qs ids, Catalog.LooksUp qs ids) ∧
    (catalog.Distinct → Function.Injective source.sessionId →
      ∀ (before : List (Demand σ)) (userId : String) (r : StartRequest) (d : Demand σ)
        (response : StartResponse),
        let house := (run before (opened (.new config catalog practice lives time source))).2
        d = .start userId r ∨ d = .enrol userId r →
        (house.meet d).1.result = .ok (.started response) →
          response.questions.length = 3 ∧
            (house.meet d).2.AsksAgain response.sessionId response.questions) := by
  refine ⟨fun qs ids => ⟨Catalog.map_id_orderByIds qs ids, Catalog.orderByIds_subperm qs ids,
    fun hids ps hps => Catalog.orderByIds_congr hids hps ids⟩, ?_⟩
  intro hdistinct hinjective before userId r d response house hstart hresult
  have hsound : house.Sound source.sessionId :=
    (sound_opened config catalog practice lives time source).run before
  have hcatalog : house.service.catalog = catalog := catalog_run before _
  obtain ⟨questions, hpossible, hviews, hissued⟩ := hsound.issued hinjective hstart hresult
  rw [hcatalog] at hpossible hissued
  rw [hviews]
  exact ⟨rfl, hissued.asksAgain hinjective (hdistinct.byIds_chosen hpossible)⟩

/-- The session that a start has started, and the ids of the questions that it shows. -/
def launched? : Except Fault Result → Option (String × List String)
  | .ok (.started response) => some (response.sessionId, response.questions.map QuestionView.id)
  | _ => none

theorem exists_of_launched? {result : Except Fault Result} {asked : List String}
    (h : launched? result = some (id, asked)) :
    ∃ response, result = .ok (.started response) ∧ response.sessionId = id ∧
      response.questions.map QuestionView.id = asked := by
  unfold launched? at h
  split at h
  · next response =>
    obtain ⟨hid, hasked⟩ := Prod.mk.inj (Option.some.inj h)
    exact ⟨response, rfl, hid, hasked⟩
  · cases h

/-- The snapshot that an inquiry shows. -/
def pictured? : Except Fault Result → Option Snapshot
  | .ok (.told (.snapshot shown)) => some shown
  | _ => none

theorem exists_of_pictured? {result : Except Fault Result} (h : (pictured? result).isSome = true) :
    ∃ shown, result = .ok (.told (.snapshot shown)) := by
  unfold pictured? at h
  split at h
  · next shown => exact ⟨shown, rfl⟩
  · cases h

/-- Two candidates start. One hands in, looks at the archived exam, and asks after a shutdown what
it was. -/
theorem questions_by_ids_archived :
    let start : Demand Shelf := .start "ada" ⟨.python, none⟩
    let house := (run [.start "bob" ⟨.python, none⟩] lenient).2
    let id := Floor.growing.sessionId 3
    let shows := (run [.inquire id "ada" .submit] (house.meet start).2).2.meet
      (.inquire id "ada" .snapshot)
    threeQuestions.Distinct ∧ Function.Injective Floor.growing.sessionId ∧
      ∃ response, (house.meet start).1.result = .ok (.started response) ∧
        response.sessionId = id ∧ response.questions.map QuestionView.id = ["e", "m", "h"] ∧
        ∃ shown, shows.1.result = .ok (.told (.snapshot shown)) ∧
          ((run [.shutdown] shows.2).2.meet (.questions shown)).1.result =
            .ok (.questions response.questions) := by
  intro start house id shows
  have hdistinct : threeQuestions.Distinct := by
    intro language
    cases language <;> decide
  have hlaunched : launched? (house.meet start).1.result = some (id, ["e", "m", "h"]) := by
    decide +kernel
  have hpictured : (pictured? shows.1.result).isSome = true := by decide +kernel
  obtain ⟨response, hresult, hid, hasked⟩ := exists_of_launched? hlaunched
  obtain ⟨shown, hshown⟩ := exists_of_pictured? hpictured
  have hagain : (house.meet start).2.AsksAgain response.sessionId response.questions :=
    ((questions_by_ids lenientConfig threeQuestions .inMemory .empty default Floor.growing).2
      hdistinct Floor.injective_growing [.start "bob" ⟨.python, none⟩] "ada" ⟨.python, none⟩ start
      response (.inl rfl) hresult).2
  rw [hid] at hagain
  exact ⟨hdistinct, Floor.injective_growing, response, hresult, hid, hasked, shown, hshown,
    hagain [.inquire id "ada" .submit] "ada" .snapshot shows shown [.shutdown] rfl hshown⟩

end House

end Invigilator
