import Invigilator.Proofs.Records.Delivery
import Invigilator.Proofs.Service.Archive
import Invigilator.Service.Hall

/-!
# Custody

Whatever the hall keeps of a session, it keeps for an owner of it: the seat, the final snapshot in
the archive, the record in the cabinet, and the write on its way there that creates the record.
`Kept` is the invariant, for any notion of ownership that gives ids away as the source does.

Every operation of the hall keeps custody. A turn does because it is a stretch: that changes
neither the id of a session nor its candidate, and creates no record. Only a launch adds
anything to what is owned.
-/

namespace Invigilator

/-! ## Stretches -/

theorem Stretch.id_eq {s t : Sitting} {as : List Action} (h : Stretch s t as) :
    t.session.id = s.session.id := by
  induction h with
  | idle session _ _ _ => rw [session]
  | charge => rfl
  | revise => rfl
  | close reason spent time _ => exact Session.finish_id ..
  | andThen _ _ ih₁ ih₂ => rw [ih₂, ih₁]

theorem Stretch.userId_eq {s t : Sitting} {as : List Action} (h : Stretch s t as) :
    t.session.userId = s.session.userId := by
  induction h with
  | idle session _ _ _ => rw [session]
  | charge => rfl
  | revise => rfl
  | close reason spent time _ =>
    rw [Sitting.closed, Session.finish]
    split <;> rfl
  | andThen _ _ ih₁ ih₂ => rw [ih₂, ih₁]

/-- The write creates the record of a session. -/
def RecordWrite.creates : RecordWrite → Option Session
  | .createSession s => some s
  | .createAnswer .. | .updateSession .. | .updateAnswer .. | .recordViolation _ | .blockUser .. =>
    none

/-- Records are created when a session begins, and not later. -/
theorem Stretch.creates_eq_none {s t : Sitting} {as : List Action} (h : Stretch s t as) :
    ∀ w, Action.write w ∈ as → w.creates = none := by
  -- none of these is the launch, which alone creates the record of a session
  induction h with
  | idle _ _ _ still =>
    intro w hw
    cases still _ hw
  | charge =>
    intro w hw
    simp only [Sitting.penalty, List.mem_cons, List.not_mem_nil, or_false, reduceCtorEq,
      false_or, Action.write.injEq] at hw
    rcases hw with rfl | rfl <;> rfl
  | revise =>
    intro w hw
    rw [Action.write.inj (List.mem_singleton.mp hw)]
    rfl
  | close reason spent time _ =>
    intro w hw
    simp only [Session.leave, List.mem_append, List.mem_cons, List.not_mem_nil, or_false,
      reduceCtorEq, Action.write.injEq] at hw
    rcases hw with rfl | hw
    · rfl
    · split at hw
      · rw [Action.write.inj (List.mem_singleton.mp hw)]
        rfl
      · cases hw
  | andThen _ _ ih₁ ih₂ =>
    intro w hw
    exact (List.mem_append.mp hw).elim (ih₁ w) (ih₂ w)

/-- The record that a session begins with is its own. -/
theorem Turn.creates_begin {σ : Type} {s : Sitting × σ} {w : RecordWrite}
    (hw : .write w ∈ (begin : Turn σ Unit).actions s) {session : Session}
    (hcreates : w.creates = some session) : session = s.1.session := by
  rw [actions_begin] at hw
  simp only [List.mem_append, List.mem_cons, List.not_mem_nil, or_false, List.mem_map,
    Action.write.injEq, reduceCtorEq] at hw
  rcases hw with rfl | ⟨a, -, rfl⟩
  · exact (Option.some.inj hcreates).symm
  · cases hcreates

/-! ## What is kept -/

variable (owns : String → String → Prop)

/-- A write that creates the record of a session creates it for an owner. -/
def RecordWrite.Kept (w : RecordWrite) : Prop := ∀ s, w.creates = some s → owns s.id s.userId

/-- A seat has the session that it runs under, and is kept for an owner. -/
structure Running.Kept (r : Running Seat) : Prop where
  id_eq : r.value.sitting.session.id = r.sessionId
  holder : owns r.sessionId r.userId
  sitter : owns r.sessionId r.value.sitting.session.userId

/-- The hall keeps whatever it keeps of a session for an owner of it. -/
structure Hall.Kept (ids : Nat → String) (h : Hall) : Prop where
  source : h.source.sessionId = ids
  running : ∀ r ∈ h.registry.active, r.Kept owns
  archived : ∀ e ∈ h.registry.archive.entries, owns e.1 e.2.session.userId
  recorded : ∀ s ∈ h.courier.records.cabinet.sessions, owns s.id s.userId
  inHand : ∀ e ∈ h.scribes, ∀ w ∈ e.2.inHand, w.Kept owns
  /-- Only ids that the source has given are owned. -/
  drawn : ∀ id userId, owns id userId → ∃ n < h.drawn, id = ids n

variable {owns : String → String → Prop} {ids : Nat → String} {h : Hall}

/-! ## Scribes -/

section Records

variable {Q : Session → Prop} (hQ : ∀ (p : SessionPatch) (s : Session), Q s → Q (p.applyTo s))
include hQ

/-- What patches leave alone holds of all the sessions on record when one of them is patched. -/
theorem Cabinet.forall_mem_updateFirst {p : SessionPatch} {id : String} {sessions : List Session}
    (hall : ∀ s ∈ sessions, Q s) :
    ∀ s ∈ updateFirst (fun s => s.id == id) p.applyTo sessions, Q s := by
  induction sessions with
  | nil => exact List.forall_mem_nil _
  | cons a rest ih =>
    obtain ⟨ha, hrest⟩ := List.forall_mem_cons.mp hall
    unfold updateFirst
    split
    · exact List.forall_mem_cons.mpr ⟨hQ p a ha, hrest⟩
    · exact List.forall_mem_cons.mpr ⟨ha, ih hrest⟩

/-- So it holds of them when a write is filed, if it holds of a session whose record is created. -/
theorem Cabinet.file_kept {c c' : Cabinet} {w : RecordWrite} (hw : ∀ s, w.creates = some s → Q s)
    (hc : ∀ s ∈ c.sessions, Q s) (hfile : c.file w = .ok c') : ∀ s ∈ c'.sessions, Q s := by
  cases w with
  | createSession session =>
    obtain rfl := Except.ok.inj (guarded_eq_ok.mp hfile).2
    intro s hs
    rcases List.mem_append.mp hs with hs | hs
    · exact hc s (List.mem_filter.mp hs).1
    · rw [List.mem_singleton.mp hs]
      exact hw session rfl
  | createAnswer id a =>
    obtain rfl := Except.ok.inj (guarded_eq_ok.mp hfile).2
    exact hc
  | updateSession id p =>
    obtain ⟨-, hupdate⟩ := guarded_eq_ok.mp hfile
    split at hupdate
    · obtain rfl := Except.ok.inj hupdate
      exact forall_mem_updateFirst hQ hc
    · cases hupdate
  | updateAnswer id i p =>
    obtain ⟨-, hupdate⟩ := guarded_eq_ok.mp hfile
    split at hupdate
    · obtain rfl := Except.ok.inj hupdate
      exact hc
    · cases hupdate
  | recordViolation v =>
    obtain rfl := Except.ok.inj (guarded_eq_ok.mp hfile).2
    exact hc
  | blockUser userId id =>
    obtain rfl := Except.ok.inj hfile
    exact hc

/-- Whatever becomes of an attempt, the records are kept. -/
theorem Records.attempt_kept {r : Records} {w : RecordWrite} (hw : ∀ s, w.creates = some s → Q s)
    (hr : ∀ s ∈ r.cabinet.sessions, Q s) (time : Stamp) (passage : Passage) :
    ∀ s ∈ (r.attempt time passage w).2.cabinet.sessions, Q s := by
  cases hfile : r.cabinet.file w with
  | error fault =>
    have happly : r.apply time w = .error fault := by rw [apply_eq, hfile]; rfl
    cases passage <;> simpa only [attempt, happly] using hr
  | ok c =>
    have happly : r.apply time w = .ok ⟨c, r.gate.file time w⟩ := by rw [apply_eq, hfile]; rfl
    cases passage with
    | lost => exact hr
    | arrives | unacknowledged =>
      simp only [attempt, happly]
      exact Cabinet.file_kept hQ hw hr hfile

end Records

/-- After the report of an attempt the scribe has in hand what it had, or all but the write that it
tried. -/
theorem Scribe.inHand_report {s : Scribe} {e : Errand} (he : s.errand = some e) (now draw : Nat)
    (result : Except BackendFault Unit) :
    (s.report now draw e result).1.inHand = s.inHand ∨
      (s.report now draw e result).1.inHand = s.queue := by
  rcases s.report_cases now draw e result with ⟨hdone, -⟩ | ⟨-, patience, due, -, -, hagain⟩
  · rw [hdone]
    exact .inr rfl
  · rw [hagain, inHand, inHand, he]
    exact .inl rfl

/-- What holds when a scribe goes to work, also after it took up a write and after an attempt, holds
when it comes to a stop. -/
theorem Scribe.workFor_induction {P : Scribe → Courier → Prop} {now : Nat} {time : Stamp}
    {draw : Nat} (take : ∀ s c, P s c → P (s.takeUp now) c)
    (attempt : ∀ s c e, s.errand = some e → P s c →
      P (s.report now draw e (c.carry time e.write).1).1 (c.carry time e.write).2)
    (fuel : Nat) {s : Scribe} {c : Courier} (h : P s c) :
    P (workFor now time draw fuel s c).1.1 (workFor now time draw fuel s c).1.2 := by
  induction fuel generalizing s c with
  | zero => exact h
  | succ fuel ih =>
    unfold workFor
    dsimp only
    split
    · exact take s c h
    · rename_i e he
      split
      · exact ih (attempt _ c e he (take s c h))
      · exact take s c h

/-- A scribe at work has in hand only what it had before, and files only that. -/
theorem Scribe.workFor_kept {Q : Session → Prop}
    (hQ : ∀ (p : SessionPatch) (s : Session), Q s → Q (p.applyTo s)) {s : Scribe} {c : Courier}
    (now : Nat) (time : Stamp) (draw : Nat) (fuel : Nat)
    (hs : ∀ w ∈ s.inHand, ∀ x, w.creates = some x → Q x)
    (hc : ∀ x ∈ c.records.cabinet.sessions, Q x) :
    (∀ w ∈ (workFor now time draw fuel s c).1.1.inHand, w ∈ s.inHand) ∧
      ∀ x ∈ (workFor now time draw fuel s c).1.2.records.cabinet.sessions, Q x := by
  refine workFor_induction (P := fun s' c => (∀ w ∈ s'.inHand, w ∈ s.inHand) ∧
    ∀ x ∈ c.records.cabinet.sessions, Q x) (fun s' c h => ?_)
    (fun s' c e he h => ?_) fuel ⟨fun _ hw => hw, hc⟩
  · rw [inHand_takeUp]
    exact h
  · have hwrite := hs e.write (h.1 e.write (by simp [inHand, he]))
    refine ⟨fun w hw => h.1 w ?_, Records.attempt_kept hQ hwrite h.2 _ _⟩
    rcases inHand_report he now draw (c.carry time e.write).1 with hsame | hqueue
    · rwa [hsame] at hw
    · rw [hqueue] at hw
      exact List.mem_append_right _ hw

/-! ## Operations of the hall -/

namespace Hall

theorem Kept.mono {owns' : String → String → Prop} (hk : h.Kept owns ids)
    (hmore : ∀ id userId, owns id userId → owns' id userId)
    (hdrawn : ∀ id userId, owns' id userId → ∃ n < h.drawn, id = ids n) :
    h.Kept owns' ids where
  source := hk.source
  running r hr := ⟨(hk.running r hr).id_eq, hmore _ _ (hk.running r hr).holder,
    hmore _ _ (hk.running r hr).sitter⟩
  archived e he := hmore _ _ (hk.archived e he)
  recorded s hs := hmore _ _ (hk.recorded s hs)
  inHand e he w hw s hs := hmore _ _ (hk.inHand e he w hw s hs)
  drawn := hdrawn

theorem Kept.jot (hk : h.Kept owns ids) (notes : List Note) : (h.jot notes).Kept owns ids :=
  ⟨hk.source, hk.running, hk.archived, hk.recorded, hk.inHand, hk.drawn⟩

theorem Kept.draw (hk : h.Kept owns ids) : h.draw.Kept owns ids where
  source := hk.source
  running := hk.running
  archived := hk.archived
  recorded := hk.recorded
  inHand := hk.inHand
  drawn id userId howns := by
    obtain ⟨n, hn, hid⟩ := hk.drawn id userId howns
    exact ⟨n, Nat.lt_succ_of_lt hn, hid⟩

/-- Time passes. -/
theorem Kept.moment (hk : h.Kept owns ids) (now : Instant) :
    ({ h with now } : Hall).Kept owns ids :=
  ⟨hk.source, hk.running, hk.archived, hk.recorded, hk.inHand, hk.drawn⟩

/-- Subscribers have no part in it. -/
theorem Kept.relayed (hk : h.Kept owns ids) (relays : List Relay) :
    ({ h with relays } : Hall).Kept owns ids :=
  ⟨hk.source, hk.running, hk.archived, hk.recorded, hk.inHand, hk.drawn⟩

theorem Kept.publish (hk : h.Kept owns ids) (id : String) (e : Event) :
    (h.publish id e).Kept owns ids :=
  ⟨hk.source, hk.running, hk.archived, hk.recorded, hk.inHand, hk.drawn⟩

theorem Kept.disconnect (hk : h.Kept owns ids) (id : String) :
    (h.disconnect id).Kept owns ids :=
  ⟨hk.source, hk.running, hk.archived, hk.recorded, hk.inHand, hk.drawn⟩

/-- The courier may do as it likes, as long as it leaves the sessions on record alone. -/
theorem Kept.couriered (hk : h.Kept owns ids) {c : Courier}
    (hc : c.records.cabinet.sessions = h.courier.records.cabinet.sessions) :
    ({ h with courier := c } : Hall).Kept owns ids where
  source := hk.source
  running := hk.running
  archived := hk.archived
  recorded := by
    rw [hc]
    exact hk.recorded
  inHand := hk.inHand
  drawn := hk.drawn

theorem Kept.scribe (hk : h.Kept owns ids) (id : String) :
    ∀ w ∈ (h.scribe id).inHand, w.Kept owns := by
  unfold Hall.scribe
  cases hlookup : h.scribes.lookup id with
  | none => exact List.forall_mem_nil _
  | some s =>
    obtain ⟨before, after, hscribes, -⟩ := List.lookup_eq_some_iff.mp hlookup
    exact hk.inHand (id, s) (by simp [hscribes])

theorem Kept.putScribe (hk : h.Kept owns ids) (id : String) {s : Scribe}
    (hs : ∀ w ∈ s.inHand, w.Kept owns) : (h.putScribe id s).Kept owns ids where
  source := hk.source
  running := hk.running
  archived := hk.archived
  recorded := hk.recorded
  inHand := List.forall_mem_cons.mpr ⟨hs, fun e he => hk.inHand e (List.mem_filter.mp he).1⟩
  drawn := hk.drawn

theorem Kept.hand (hk : h.Kept owns ids) (id : String) {w : RecordWrite} (hw : w.Kept owns) :
    (h.hand id w).Kept owns ids := by
  unfold Hall.hand
  dsimp only
  split
  · exact hk.jot _
  · refine hk.putScribe id fun v hv => ?_
    unfold Scribe.hand at hv
    split at hv
    · exact hk.scribe id v hv
    · rw [Scribe.inHand, ← List.append_assoc] at hv
      rcases List.mem_append.mp hv with hv | hv
      · exact hk.scribe id v hv
      · rw [List.mem_singleton.mp hv]
        exact hw

/-- A scribe that works keeps what it has in hand, and the records it writes to. -/
theorem Kept.work (hk : h.Kept owns ids) (id : String) : (h.work id).Kept owns ids := by
  obtain ⟨hinHand, hrecords⟩ := Scribe.workFor_kept (Q := fun s => owns s.id s.userId)
    (fun _ _ howned => howned) h.now h.time (h.source.jitter h.drawn)
    ((h.scribe id).queue.length + 2) (hk.scribe id) hk.recorded
  have hscribe := fun w hw => hk.scribe id w (hinHand w hw)
  have hcarried : ({ h with courier := ((h.scribe id).work h.courier h.now h.time
      (h.source.jitter h.drawn)).1.2 } : Hall).Kept owns ids :=
    ⟨hk.source, hk.running, hk.archived, hrecords, hk.inHand, hk.drawn⟩
  unfold Hall.work
  dsimp only
  split
  · have hdone := hcarried.draw.jot ((h.scribe id).work h.courier h.now h.time
      (h.source.jitter h.drawn)).2
    exact ⟨hdone.source, hdone.running, hdone.archived, hdone.recorded,
      fun e he => hdone.inHand e (List.mem_filter.mp he).1, hdone.drawn⟩
  · exact (hcarried.draw.jot _).putScribe id hscribe

theorem Kept.perform (hk : h.Kept owns ids) (id : String) {a : Action}
    (ha : ∀ w, a = .write w → w.Kept owns) : (h.perform id a).Kept owns ids := by
  cases a with
  | publish e => exact hk.publish id e
  | write w => exact hk.hand id (ha w rfl)
  | note n => exact hk.jot [n]

theorem Kept.performed (hk : h.Kept owns ids) (id : String) {as : List Action}
    (has : ∀ w, .write w ∈ as → w.Kept owns) :
    (as.foldl (fun h a => h.perform id a) h).Kept owns ids := by
  induction as generalizing h with
  | nil => exact hk
  | cons a as ih =>
    refine ih (hk.perform id fun w hw => has w ?_) fun w hw => has w (List.mem_cons_of_mem a hw)
    rw [hw]
    exact List.mem_cons_self

/-! ## The registry -/

theorem Kept.file (hk : h.Kept owns ids) {id : String} {snapshot : Snapshot}
    (hsnapshot : owns id snapshot.session.userId) :
    ({ h with registry := h.registry.file id snapshot } : Hall).Kept owns ids where
  source := hk.source
  running := hk.running
  archived e he := by
    rcases Archive.mem_insert he with rfl | he
    · exact hsnapshot
    · exact hk.archived e he
  recorded := hk.recorded
  inHand := hk.inHand
  drawn := hk.drawn

theorem Kept.release (hk : h.Kept owns ids) (id : String) :
    ({ h with registry := h.registry.release id } : Hall).Kept owns ids where
  source := hk.source
  running r hr := hk.running r (List.mem_filter.mp hr).1
  archived := hk.archived
  recorded := hk.recorded
  inHand := hk.inHand
  drawn := hk.drawn

theorem Kept.update (hk : h.Kept owns ids) {id : String} {seat : Seat}
    (hid : seat.sitting.session.id = id) (hsitter : owns id seat.sitting.session.userId) :
    ({ h with registry := h.registry.update id seat } : Hall).Kept owns ids where
  source := hk.source
  running r hr := by
    obtain ⟨old, hold, rfl⟩ := List.mem_map.mp hr
    have hkept := hk.running old hold
    split
    · rename_i hsame
      exact ⟨hid.trans hsame.symm, hkept.holder, by rw [hsame]; exact hsitter⟩
    · exact hkept
  archived := hk.archived
  recorded := hk.recorded
  inHand := hk.inHand
  drawn := hk.drawn

/-- A turn leaves the session with its id and its candidate, and so the hall in order. -/
theorem Kept.settle (hk : h.Kept owns ids) {id : String} {seat : Seat} {state : Sitting × Shelf}
    {actions : List Action} (hid : state.1.session.id = id)
    (hsitter : owns id state.1.session.userId)
    (hactions : ∀ w, .write w ∈ actions → w.Kept owns) :
    (h.settle id seat state actions).Kept owns ids := by
  have hdone := hk.draw.performed id hactions
  unfold Hall.settle
  dsimp only
  refine Kept.work ?_ id
  split
  · exact hdone.update hid hsitter
  · exact ((hdone.file hsitter).release id).disconnect id

theorem Kept.tell (hk : h.Kept owns ids) (id : String) (x : Stimulus) :
    (h.tell id x).2.Kept owns ids := by
  unfold Hall.tell
  split
  · exact hk
  · rename_i r hfind
    obtain ⟨hid, -, hsitter⟩ := hk.running r (List.mem_of_find?_eq_some hfind)
    have hkey : r.sessionId = id := by simpa using List.find?_some hfind
    have hturn := Turn.stretches_step (ledger r.value) (h.scene r.value) x
      (s := (r.value.sitting, r.value.lives))
    dsimp only
    refine hk.settle ?_ ?_ fun w hw s hs => ?_
    · exact (hturn.id_eq.trans hid).trans hkey
    · rw [← hkey]
      exact hturn.userId_eq.symm ▸ hsitter
    · rw [hturn.creates_eq_none w hw] at hs
      cases hs

/-- A launch that goes through adds the seat, and its session begins. -/
theorem eq_settle_of_launch {g : Hall} {seat : Seat} (hlaunch : h.launch seat = .ok g) :
    g = ({ h with registry := { h.registry with active := h.registry.active ++
        [⟨seat.sitting.session.id, seat.sitting.session.userId, seat⟩] } } : Hall).settle
      seat.sitting.session.id seat (seat.sitting, seat.lives)
      ((Turn.begin : Turn Shelf Unit).actions (seat.sitting, seat.lives)) := by
  have hbegun := Turn.after_begin (s := (seat.sitting, seat.lives))
  unfold launch Registry.launch at hlaunch
  dsimp only at hlaunch
  split at hlaunch
  · cases hlaunch
  · rename_i registry hregistry
    obtain rfl := Except.ok.inj hlaunch
    split at hregistry
    · cases hregistry
    · obtain rfl := Except.ok.inj hregistry
      exact congrArg (settle _ _ seat · _) hbegun

/-- What a launch adds to what is owned: the new session, by its candidate. -/
theorem Kept.launch (hk : h.Kept owns ids) {seat : Seat} {h' : Hall}
    (howns : owns seat.sitting.session.id seat.sitting.session.userId)
    (hlaunch : h.launch seat = .ok h') : h'.Kept owns ids := by
  obtain rfl := eq_settle_of_launch hlaunch
  have hseated : ({ h with registry := { h.registry with active := h.registry.active ++
      [⟨seat.sitting.session.id, seat.sitting.session.userId, seat⟩] } } :
      Hall).Kept owns ids := by
    constructor
    case source => exact hk.source
    case running =>
      intro r hr
      rcases List.mem_append.mp hr with hr | hr
      · exact hk.running r hr
      · rw [List.mem_singleton.mp hr]
        exact ⟨rfl, howns, howns⟩
    case archived => exact hk.archived
    case recorded => exact hk.recorded
    case inHand => exact hk.inHand
    case drawn => exact hk.drawn
  refine hseated.settle rfl howns fun w hw s hs => ?_
  rw [Turn.creates_begin hw hs]
  exact howns

/-! ## Time -/

theorem Kept.moveTick (hk : h.Kept owns ids) (id : String) : (h.moveTick id).Kept owns ids := by
  unfold Hall.moveTick
  split
  · exact hk
  · rename_i r hfind
    obtain ⟨hid, -, hsitter⟩ := hk.running r (List.mem_of_find?_eq_some hfind)
    have hkey : r.sessionId = id := by simpa using List.find?_some hfind
    exact hk.update (hid.trans hkey) (hkey ▸ hsitter)

theorem Kept.fire (hk : h.Kept owns ids) (d : Due) : (h.fire d).Kept owns ids := by
  cases d with
  | tick id => exact (hk.moveTick id).tell id .tick
  | grace id => exact hk.tell id .graceElapsed
  | errand id => exact hk.work id

/-- What survives that time stands at another moment, and everything that can be due, survives that
time passes. -/
theorem advance_induction {P : Hall → Prop} (hmoment : ∀ h now, P h → P { h with now })
    (hfire : ∀ h d, P h → P (h.fire d)) {h : Hall} (hh : P h) (ms : Nat) : P (h.advance ms) := by
  have hfor : ∀ (fuel : Nat) (g : Hall) (target : Instant), P g →
      P (advanceFor fuel g target) := by
    intro fuel
    induction fuel with
    | zero => exact fun g target hg => hmoment g target hg
    | succ fuel ih =>
      intro g target hg
      unfold advanceFor
      split
      · exact hmoment g target hg
      · split
        · exact ih _ target (hfire _ _ (hmoment g _ hg))
        · exact hmoment g target hg
  exact hfor _ h _ hh

theorem Kept.advance (hk : h.Kept owns ids) (ms : Nat) : (h.advance ms).Kept owns ids :=
  advance_induction (fun _ now hg => hg.moment now) (fun _ d hg => hg.fire d) hk ms

end Hall

end Invigilator
