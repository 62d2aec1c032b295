import Invigilator.Proofs.Records.Filing
import Invigilator.Service.Exams

/-!
# The records mirror the sitting

A sitting and its records never meet: the sitting goes on, and its writes are carried out later.
Still the records say what the sitting is, once the writes of a run are carried out in order.
`Follows` is the statement for a stretch of a run: whatever the gate and the violations on
record, the writes of the stretch are all carried out, and lead from the records of the sitting
before to those of the sitting after. It composes and holds of the three steps of a stretch, so
it holds of every run.

What the service tells of a sitting that is over is read from the records once the archive has
let go of it, so it loses the clock and the pending violation, and nothing else.
-/

namespace Invigilator

/-- The write that an action hands to the scribe. -/
def Action.write? : Action → Option RecordWrite
  | .publish _ => none
  | .write w => some w
  | .note _ => none

/-- The writes among some actions, in order. -/
def writes (as : List Action) : List RecordWrite := as.filterMap Action.write?

theorem writes_append (as bs : List Action) : writes (as ++ bs) = writes as ++ writes bs :=
  List.filterMap_append

theorem writes_idle {as : List Action} (h : ∀ a ∈ as, a.isIdle = true) : writes as = [] := by
  rw [writes, List.filterMap_eq_nil_iff]
  intro a ha
  cases a with
  | publish e => rfl
  | write w => cases h _ ha
  | note n => rfl

/-- A penalty records the violation and then what it did to the session. -/
theorem writes_penalty (s : Sitting) (v : Violation) :
    writes (s.penalty v) = [.recordViolation v,
      .updateSession s.session.id (Turn.penaltyPatch (s.charged v).session)] := rfl

/-- A session takes its leave with one patch; after the last life a block follows it. -/
theorem writes_leave (s : Session) (reason : Reason) (spent : Nat) (time : Stamp) :
    writes (s.leave reason spent time) = .updateSession s.id s.patch ::
      if reason = .livesExhausted then [.blockUser s.userId s.id] else [] := by
  rw [Session.leave]
  split <;> rfl

/-! ## Stretches -/

/-- What the writes of a stretch do to the records. -/
structure Follows (s t : Sitting) (as : List Action) : Prop where
  id_eq : t.session.id = s.session.id
  tidy : s.Tidy → t.Tidy
  /-- The violations grow, and the writes make the records follow. -/
  filed : s.Tidy → ∃ new, t.violations = s.violations ++ new ∧
    ∀ (violations : List Violation) (gate : Gate) (ps : List Posting),
      ps.map Posting.write = writes as →
        ∃ gate', (s.filed violations gate).applyAll ps =
          .ok (t.filed (new.foldl Cabinet.recorded violations) gate')

/-- Two stretches make one. -/
theorem Follows.trans {s t u : Sitting} {as bs : List Action} (h₁ : Follows s t as)
    (h₂ : Follows t u bs) : Follows s u (as ++ bs) := by
  refine ⟨h₂.id_eq.trans h₁.id_eq, fun hs => h₂.tidy (h₁.tidy hs), fun hs => ?_⟩
  obtain ⟨new, hnew, hfirst⟩ := h₁.filed hs
  obtain ⟨more, hmore, hsecond⟩ := h₂.filed (h₁.tidy hs)
  refine ⟨new ++ more, by rw [hmore, hnew, List.append_assoc], fun violations gate ps hps => ?_⟩
  -- the postings divide where the first stretch ends
  rw [writes_append, List.map_eq_append_iff] at hps
  obtain ⟨ps, qs, rfl, hps, hqs⟩ := hps
  obtain ⟨gate', happly⟩ := hfirst violations gate ps hps
  obtain ⟨gate'', happly'⟩ := hsecond (new.foldl Cabinet.recorded violations) gate' qs hqs
  refine ⟨gate'', ?_⟩
  rw [Records.applyAll_append qs happly, happly', List.foldl_append]

/-- A stretch without writes that leaves the records of the sitting alone. -/
theorem Follows.of_unchanged {s t : Sitting} {as : List Action} (hsession : t.session = s.session)
    (hanswers : t.answers = s.answers) (hviolations : t.violations = s.violations)
    (has : writes as = []) : Follows s t as where
  id_eq := congrArg Session.id hsession
  tidy hs := ⟨by rw [hanswers]; exact hs.indexed, by rw [hviolations, hsession]; exact hs.owned⟩
  filed hs := by
    refine ⟨[], by rw [hviolations, List.append_nil], fun violations gate ps hps => ⟨gate, ?_⟩⟩
    rw [has, List.map_eq_nil_iff] at hps
    rw [hps, Records.applyAll_nil, Sitting.filed, Sitting.filed, hsession, hanswers]
    rfl

/-- A penalty records the violation and brings the count of the session up to date. -/
theorem follows_charge {s : Sitting} (scene : Scene) (kind : ViolationType) (left : Nat) :
    Follows s (s.charged (s.violation scene kind left))
      (s.penalty (s.violation scene kind left)) := by
  let v := s.violation scene kind left
  constructor
  case id_eq => rfl
  case tidy =>
    intro hs
    refine ⟨hs.indexed, ?_⟩
    intro w hw
    rcases List.mem_append.mp hw with hw | hw
    · exact hs.owned w hw
    · rw [List.mem_singleton.mp hw]
      rfl
  case filed =>
    intro hs
    refine ⟨[v], rfl, ?_⟩
    intro violations gate ps hps
    change ps.map Posting.write = writes (s.penalty v) at hps
    rw [writes_penalty, List.map_eq_cons_iff] at hps
    obtain ⟨p, ps, rfl, hp, hps⟩ := hps
    rw [List.map_eq_singleton_iff] at hps
    obtain ⟨q, rfl, hq⟩ := hps
    refine ⟨gate, ?_⟩
    have hrecord : (s.filed violations gate).apply p.time p.write =
        .ok (s.filed (Cabinet.recorded violations v) gate) := by
      rw [hp]
      exact Sitting.apply_recordViolation violations gate p.time v
    have hcount : (s.filed (Cabinet.recorded violations v) gate).apply q.time q.write =
        .ok ((s.charged v).filed (Cabinet.recorded violations v) gate) := by
      rw [hq]
      exact Sitting.apply_updateSession _ gate q.time _
    rw [Records.applyAll_cons _ hrecord, Records.applyAll_cons _ hcount]
    rfl

/-- A revised answer is brought up to date in its place. -/
theorem follows_revise {s : Sitting} {index : Nat} {old new : Answer}
    (hplace : s.answers[index]? = some old) (hnew : old.Revision new) :
    Follows s (s.revised index new) [.write (.updateAnswer s.session.id index new.patch)] := by
  constructor
  case id_eq => rfl
  case tidy =>
    intro hs
    refine ⟨?_, hs.owned⟩
    -- a revision keeps the number of its question, so the answers are still in their places
    intro i a ha
    rw [Sitting.revised, List.getElem?_set] at ha
    split at ha
    · rename_i hi
      split at ha
      · obtain rfl := Option.some.inj ha
        rw [hnew.questionIndex, hs.indexed index old hplace, hi]
      · cases ha
    · exact hs.indexed i a ha
  case filed =>
    intro hs
    refine ⟨[], (List.append_nil _).symm, ?_⟩
    intro violations gate ps hps
    rw [writes, List.filterMap_cons, Action.write?, List.filterMap_nil,
      List.map_eq_singleton_iff] at hps
    obtain ⟨p, rfl, hp⟩ := hps
    have hupdate : (s.filed violations gate).apply p.time p.write =
        .ok ((s.revised index new).filed violations gate) := by
      rw [hp, Sitting.apply_updateAnswer violations gate p.time hs hplace, hnew.applyTo]
    exact ⟨gate, Records.applyAll_cons _ hupdate⟩

/-- A session that is closed sends all of it; after the last life its user is blocked besides. -/
theorem follows_close {s : Sitting} (reason : Reason) (spent : Nat) (time : Stamp)
    (h : s.session.isActive = true) :
    Follows s (s.closed reason spent time)
      ((s.closed reason spent time).session.leave reason spent time) := by
  let final := (s.closed reason spent time).session
  have hid : final.id = s.session.id := s.session.finish_id reason spent time
  constructor
  case id_eq => exact hid
  case tidy =>
    intro hs
    refine ⟨hs.indexed, ?_⟩
    intro v hv
    exact (hs.owned v hv).trans hid.symm
  case filed =>
    intro hs
    refine ⟨[], (List.append_nil _).symm, ?_⟩
    intro violations gate ps hps
    have hupdate : ∀ p : Posting, p.write = .updateSession final.id final.patch →
        (s.filed violations gate).apply p.time p.write =
          .ok ((s.closed reason spent time).filed violations gate) := by
      intro p hp
      have hpatch : final.patch.applyTo s.session = final := Session.applyTo_finish reason spent time h
      rw [hp, hid, Sitting.apply_updateSession, hpatch]
      rfl
    rw [writes_leave, List.map_eq_cons_iff] at hps
    obtain ⟨p, ps, rfl, hp, hps⟩ := hps
    by_cases hlast : reason = .livesExhausted
    · rw [if_pos hlast, List.map_eq_singleton_iff] at hps
      obtain ⟨q, rfl, hq⟩ := hps
      refine ⟨gate.block final.userId final.id q.time, ?_⟩
      rw [Records.applyAll_cons _ (hupdate p hp)]
      refine Records.applyAll_cons _ ?_
      rw [hq]
      exact Sitting.apply_blockUser _ gate q.time _ _
    · rw [if_neg hlast, List.map_eq_nil_iff] at hps
      rw [hps]
      exact ⟨gate, Records.applyAll_cons _ (hupdate p hp)⟩

/-- **The records follow every stretch.** -/
theorem Stretch.follows {s t : Sitting} {as : List Action} (h : Stretch s t as) :
    Follows s t as := by
  induction h with
  | idle session answers violations still =>
    exact .of_unchanged session answers violations (writes_idle still)
  | charge scene kind left active => exact follows_charge scene kind left
  | revise active place revision => exact follows_revise place revision
  | close reason spent time active => exact follows_close reason spent time active
  | andThen _ _ first second => exact first.trans second

/-! ## Runs -/

namespace Turn

variable {σ : Type}

/-- The first turn creates the session, and then its answers in their order. -/
theorem writes_begin (s : Sitting × σ) :
    writes ((begin : Turn σ Unit).actions s) =
      .createSession s.1.session :: s.1.answers.map (.createAnswer s.1.session.id) := by
  rw [actions_begin, writes_append, writes_append]
  simp [writes, Action.write?, List.filterMap_map, Function.comp_def]

/-- The first turn creates the records of the sitting in an empty cabinet. -/
theorem applyAll_begin {s : Sitting × σ} (hanswers : Answer.Indexed s.1.answers)
    {ps : List Posting} (hps : ps.map Posting.write = writes ((begin : Turn σ Unit).actions s)) :
    Records.empty.applyAll ps = .ok (s.1.filed [] .empty) := by
  rw [writes_begin, List.map_eq_cons_iff] at hps
  obtain ⟨p, ps, rfl, hp, hps⟩ := hps
  have hsession : Records.empty.apply p.time p.write =
      .ok (({ s.1 with answers := [] } : Sitting).filed [] .empty) := by
    rw [hp]
    rfl
  rw [Records.applyAll_cons _ hsession]
  exact Sitting.applyAll_createAnswers [] .empty [] hanswers hps

variable (ledger : LivesLedger σ)

/-- **Every write of a run is carried out,** and the records are those of the sitting that is
reached, but for violations that share an id. -/
theorem applyAll_deeds {s : Sitting × σ} (hanswers : Answer.Indexed s.1.answers)
    (hviolations : s.1.violations = []) (cues : List Cue) {ps : List Posting}
    (hps : ps.map Posting.write = writes (deeds ledger s cues)) :
    ∃ gate, Records.empty.applyAll ps =
      .ok ((reached ledger s cues).1.filed
        ((reached ledger s cues).1.violations.foldl Cabinet.recorded []) gate) := by
  have hs : s.1.Tidy := ⟨hanswers, by rw [hviolations]; exact List.forall_mem_nil _⟩
  obtain ⟨new, hnew, hrun⟩ := (stretch_history ledger s cues).follows.filed hs
  rw [hviolations, List.nil_append] at hnew
  rw [deeds, writes_append, List.map_eq_append_iff] at hps
  obtain ⟨ps, qs, rfl, hps, hqs⟩ := hps
  obtain ⟨gate, happly⟩ := hrun [] .empty qs hqs
  refine ⟨gate, ?_⟩
  rw [Records.applyAll_append qs (applyAll_begin hanswers hps), happly, hnew]

theorem tidy_reached {s : Sitting × σ} (hs : s.1.Tidy) (cues : List Cue) :
    (reached ledger s cues).1.Tidy :=
  (stretch_history ledger s cues).follows.tidy hs

theorem id_reached (s : Sitting × σ) (cues : List Cue) :
    (reached ledger s cues).1.session.id = s.1.session.id :=
  (stretch_history ledger s cues).follows.id_eq

end Turn

/-! ## Reading -/

/-- The records say of a session what the sitting says. -/
structure Mirrors (r : Records) (s : Sitting) : Prop where
  session : r.cabinet.session? s.session.id = .ok (some s.session)
  /-- All answers, in their order. -/
  answers : r.cabinet.answersOf s.session.id = .ok s.answers
  /-- All violations, in their order. -/
  violations : r.cabinet.violationsOf s.session.id = .ok s.violations

/-- The records of a tidy sitting say what it says. -/
theorem Sitting.Tidy.mirrors {s : Sitting} (hs : s.Tidy) (gate : Gate) :
    Mirrors (s.filed s.violations gate) s where
  session := by
    simp [Cabinet.session?, Cabinet.guarded, filed]
  answers := by
    have hmine : (s.answers.map fun a => (s.session.id, a)).filter
        (fun e => e.1 == s.session.id) = s.answers.map fun a => (s.session.id, a) := by
      rw [List.filter_eq_self]
      intro e he
      obtain ⟨a, -, rfl⟩ := List.mem_map.mp he
      exact BEq.rfl
    -- the answers are filed by question already, so reading them sorted changes nothing
    have hsorted : s.answers.Pairwise fun a b =>
        decide (a.questionIndex ≤ b.questionIndex) = true := by
      rw [List.pairwise_iff_getElem]
      intro i j hi hj hij
      rw [decide_eq_true_iff, hs.indexed i _ (List.getElem?_eq_getElem hi),
        hs.indexed j _ (List.getElem?_eq_getElem hj)]
      exact Nat.le_of_lt hij
    simp only [Cabinet.answersOf, Cabinet.guarded, filed, ↓reduceIte, hmine, List.map_map,
      Function.comp_def, List.map_id', List.mergeSort_of_pairwise hsorted]
  violations := by
    have hmine : s.violations.filter (fun v => v.sessionId == s.session.id) = s.violations := by
      rw [List.filter_eq_self]
      exact fun v hv => beq_iff_eq.mpr (hs.owned v hv)
    simp only [Cabinet.violationsOf, Cabinet.guarded, filed, ↓reduceIte, hmine]

/-! ## What the service tells of a sitting that is over -/

namespace Service

variable {τ : Type}

/-- What the owner of a session that is not running is told of it. -/
structure Recalls (service : Service τ) (s : Sitting) : Prop where
  /-- While the archive holds it, everything. -/
  archived : service.hall.registry.archive.find? s.session.id = some s.snapshot →
    (finished s.session.id s.session.userId).run service = (.ok s.snapshot, service)
  /-- From the records, all but the clock and the pending violation. -/
  evicted : service.hall.registry.archive.find? s.session.id = none →
    (finished s.session.id s.session.userId).run service =
      (.ok { s.snapshot with timer := none, pendingViolation := none }, service)
  /-- The score is the same either way. -/
  scored : service.hall.registry.archive.find? s.session.id = some s.snapshot ∨
      service.hall.registry.archive.find? s.session.id = none →
    (score s.session.id s.session.userId).run service =
      (.ok (Score.ofAnswers s.session.id s.answers), service)

@[simp] theorem run_service (s : Service τ) :
    (Call.service : Call τ (Service τ)).run s = (.ok s, s) := rfl

@[simp] theorem run_ofBackend {α : Type} (x : α) (s : Service τ) :
    (Call.ofBackend (.ok x) : Call τ α).run s = (.ok x, s) := rfl

variable {service : Service τ} {s : Sitting}

/-- A session that is not running is looked up where finished sessions are. -/
theorem run_snapshot {id userId : String} (h : service.hall.registry.find? id = none) :
    (snapshot id userId : Call τ Snapshot).run service = (finished id userId).run service := by
  simp [snapshot, tell, isRunningFor, Call.run_bind, h]

theorem run_recorded (h : Mirrors service.hall.courier.records s) :
    (recorded s.session.id : Call τ Snapshot).run service =
      (.ok { s.snapshot with timer := none, pendingViolation := none }, service) := by
  simp [recorded, Call.run_bind, h.session, h.answers, h.violations, Sitting.snapshot]

/-- What the records say of a sitting is what the service tells of it once it is over. -/
theorem Recalls.of_mirrors (h : Mirrors service.hall.courier.records s)
    (hover : service.hall.registry.find? s.session.id = none) : Recalls service s := by
  have harchived : service.hall.registry.archive.find? s.session.id = some s.snapshot →
      (finished s.session.id s.session.userId : Call τ Snapshot).run service =
        (.ok s.snapshot, service) := by
    intro hfiled
    simp [finished, Call.run_bind, hfiled, Sitting.snapshot]
  have hevicted : service.hall.registry.archive.find? s.session.id = none →
      (finished s.session.id s.session.userId : Call τ Snapshot).run service =
        (.ok { s.snapshot with timer := none, pendingViolation := none }, service) := by
    intro hgone
    simp [finished, Call.run_bind, hgone, run_recorded h, Sitting.snapshot]
  refine ⟨harchived, hevicted, ?_⟩
  rintro (hfiled | hgone)
  · simp [score, Call.run_bind, run_snapshot hover, harchived hfiled, Sitting.snapshot]
  · simp [score, Call.run_bind, run_snapshot hover, hevicted hgone, Sitting.snapshot]

/-- The placeholders of an exam stand at the places of their questions. -/
theorem placeholders_indexed (questions : Trio Question) :
    Answer.Indexed (placeholders questions) := by
  intro i a ha
  obtain ⟨⟨q, n⟩, hq, rfl⟩ := Option.map_eq_some_iff.mp (List.getElem?_map ▸ ha)
  rw [List.getElem?_zipIdx, Option.map_eq_some_iff] at hq
  obtain ⟨q', -, heq⟩ := hq
  obtain rfl : 0 + i = n := congrArg Prod.snd heq
  exact Nat.zero_add i

end Service

namespace Turn

variable {σ : Type} (ledger : LivesLedger σ)

/-- The writes of a run all succeed, and leave records that say what the sitting says. -/
theorem applyAll_mirrors {session : Session} {answers : List Answer} {pace : Pace} {now : Instant}
    {lives : σ} {cues : List Cue} {ps : List Posting} (hanswers : Answer.Indexed answers)
    (hids : ((reached ledger (Sitting.opened session answers pace now, lives)
      cues).1.violations.map Violation.id).Nodup)
    (hps : ps.map Posting.write =
      writes (deeds ledger (Sitting.opened session answers pace now, lives) cues)) :
    ∃ r, Records.empty.applyAll ps = .ok r ∧
      Mirrors r (reached ledger (Sitting.opened session answers pace now, lives) cues).1 := by
  let start : Sitting × σ := (Sitting.opened session answers pace now, lives)
  have htidy : (reached ledger start cues).1.Tidy :=
    tidy_reached ledger ⟨hanswers, List.forall_mem_nil _⟩ cues
  obtain ⟨gate, happly⟩ := applyAll_deeds ledger (s := start) hanswers rfl cues hps
  have hrecorded : (reached ledger start cues).1.violations.foldl Cabinet.recorded [] =
      (reached ledger start cues).1.violations := Cabinet.foldl_recorded [] hids
  rw [hrecorded] at happly
  exact ⟨_, happly, htidy.mirrors gate⟩

/-- **The records mirror the sitting.** Carried out in order, at whatever times, the writes of a run
of any length all succeed, and the records then hold the session, the answers and the violations
of the sitting that was reached. So what the service tells of the session when it is over is the
same from the records as from the archive, but for the clock and the pending violation. -/
theorem records_mirror (session : Session) (answers : List Answer) (pace : Pace) (now : Instant)
    (lives : σ) (cues : List Cue) (postings : List Posting) (hanswers : Answer.Indexed answers)
    (hids : ((reached ledger (Sitting.opened session answers pace now, lives)
      cues).1.violations.map Violation.id).Nodup)
    (hpostings : postings.map Posting.write =
      writes (deeds ledger (Sitting.opened session answers pace now, lives) cues)) :
    ∃ r, Records.empty.applyAll postings = .ok r ∧
      Mirrors r (reached ledger (Sitting.opened session answers pace now, lives) cues).1 ∧
      ∀ (τ : Type) (service : Service τ), service.hall.courier.records = r →
        service.hall.registry.find? session.id = none →
        Service.Recalls service
          (reached ledger (Sitting.opened session answers pace now, lives) cues).1 := by
  obtain ⟨r, happly, hmirrors⟩ := applyAll_mirrors ledger hanswers hids hpostings
  refine ⟨r, happly, hmirrors, fun τ service hrecords hover => .of_mirrors ?_ ?_⟩
  · rw [hrecords]
    exact hmirrors
  · rw [id_reached]
    exact hover

/-- Code is written and tried out, then the last two lives are lost. -/
def lastEffort : List Cue :=
  [.at 0 (.update 1 "print(1)"), .at 1000 (.recordRun 1 ⟨2, 3, 0, 0, none⟩),
    ⟨{ (default : Scene) with now := 2000, violationId := "v-1" }, .signal .copy⟩,
    ⟨{ (default : Scene) with now := 3000, violationId := "v-2" }, .signal .paste⟩,
    .at 4000 (.update 1 "too late")]

/-- An effort that ends with the last life, read back from the records. -/
theorem records_mirror_lastEffort :
    let start : Sitting × Shelf :=
      (.opened (.specimen 2) (Service.placeholders default) .specimen 0, .empty)
    let final := (reached (.lasting Shelf.store 2) start lastEffort).1
    let postings := (writes (deeds (.lasting Shelf.store 2) start lastEffort)).map (Posting.mk default)
    Answer.Indexed (Service.placeholders default) ∧
      final.violations.map Violation.id = ["v-1", "v-2"] ∧ postings.length = 12 ∧
      ∃ r, Records.empty.applyAll postings = .ok r ∧ Mirrors r final ∧
        ∀ (τ : Type) (service : Service τ), service.hall.courier.records = r →
          service.hall.registry.find? "s-1" = none → Service.Recalls service final := by
  have hids : ((reached (.lasting Shelf.store 2)
      (.opened (.specimen 2) (Service.placeholders default) .specimen 0, .empty)
      lastEffort).1.violations.map Violation.id) = ["v-1", "v-2"] := by decide +kernel
  refine ⟨Service.placeholders_indexed default, hids, by decide +kernel, ?_⟩
  exact records_mirror (.lasting Shelf.store 2) (.specimen 2) (Service.placeholders default)
    .specimen 0 .empty lastEffort _ (Service.placeholders_indexed default)
    (by rw [hids]; decide) (by rw [List.map_map]; exact List.map_id' _)

end Turn

end Invigilator
