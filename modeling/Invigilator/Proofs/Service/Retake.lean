import Invigilator.Proofs.Access.Gate
import Invigilator.Proofs.Service.Handover
import Invigilator.Proofs.Sitting.Finality

/-!
# Retakes wait for their approval

A session that disqualifies its user hands the block to its scribe in the same turn, but a scribe
works when it gets to it, and the gate does not ask what scribes have in hand. So between the
disqualification and the write a start may pass the gate, also one that comes when the end of the
session was shown already.

What holds is said by `Hall.Keeps`: whatever moves, the block is in the hand of the scribe until it
is carried out, an attempt at it never fails, and a user who is barred stays barred. Only an
approval of a retake has a part in it. So from the write on no start of the user passes the gate.
-/

namespace Invigilator

/-! ## Scribes -/

/-- A write that bars a user. -/
def RecordWrite.bars (userId : String) : RecordWrite → Bool
  | .blockUser other _ => other == userId
  | _ => false

/-- The scribe has a write in hand that bars a user. -/
def Scribe.owes (s : Scribe) (userId : String) : Bool := s.inHand.any (·.bars userId)

/-- The gate does not let a user in. -/
def Courier.Bars (c : Courier) (userId : String) : Prop :=
  c.records.gate.isEligible userId = false

variable {userId : String}

theorem Gate.isEligible_file {g : Gate} (h : g.isEligible userId = false) (time : Stamp)
    (w : RecordWrite) : (g.file time w).isEligible userId = false := by
  cases w with
  | blockUser other id =>
    rw [file, isEligible_block]
    split
    · rfl
    · exact h
  | createSession | createAnswer | updateSession | updateAnswer | recordViolation => exact h

/-- An attempt at a write files it at the gate, or leaves the gate alone. -/
theorem Courier.gate_carry (c : Courier) (time : Stamp) (w : RecordWrite) :
    (c.carry time w).2.records.gate = c.records.gate ∨
      (c.carry time w).2.records.gate = c.records.gate.file time w := by
  change (c.records.attempt time (c.passage w) w).2.gate = _ ∨
    (c.records.attempt time (c.passage w) w).2.gate = _
  cases c.passage w with
  | lost => exact .inl rfl
  | arrives | unacknowledged =>
    cases hfile : c.records.cabinet.file w with
    | error fault =>
      have happly : c.records.apply time w = .error fault := by
        rw [Records.apply_eq, hfile]
        rfl
      simp only [Records.attempt, happly, true_or]
    | ok cabinet =>
      have happly : c.records.apply time w = .ok ⟨cabinet, c.records.gate.file time w⟩ := by
        rw [Records.apply_eq, hfile]
        rfl
      simp only [Records.attempt, happly, or_true]

/-- No attempt at a write lets anybody in. -/
theorem Courier.Bars.carry {c : Courier} (h : c.Bars userId) (time : Stamp) (w : RecordWrite) :
    (c.carry time w).2.Bars userId := by
  rcases c.gate_carry time w with hgate | hgate
  · rw [Courier.Bars, hgate]
    exact h
  · rw [Courier.Bars, hgate]
    exact Gate.isEligible_file h time w

/-- The first attempt at a block is the last. -/
theorem Courier.bars_carry (c : Courier) (time : Stamp) {w : RecordWrite}
    (h : w.bars userId = true) : (c.carry time w).2.Bars userId := by
  cases w with
  | blockUser other id =>
    have hgate : (c.carry time (.blockUser other id)).2.records.gate =
        c.records.gate.block other id time := rfl
    rw [Courier.Bars, hgate, Gate.isEligible_block, if_pos (by simpa [RecordWrite.bars] using h)]
  | createSession | createAnswer | updateSession | updateAnswer | recordViolation => cases h

namespace Scribe

theorem owes_iff {s : Scribe} :
    s.owes userId = true ↔ ∃ w ∈ s.inHand, w.bars userId = true := List.any_eq_true

theorem owes_hand {s : Scribe} (h : s.owes userId = true) (w : RecordWrite) :
    (s.hand w).owes userId = true := by
  obtain ⟨v, hv, hbars⟩ := owes_iff.mp h
  refine owes_iff.mpr ⟨v, ?_, hbars⟩
  unfold hand
  split
  · exact hv
  · rw [inHand, ← List.append_assoc]
    exact List.mem_append_left _ hv

/-- A scribe that has not stopped takes what it is handed. -/
theorem owes_hand_bars {s : Scribe} (hawake : s.stopped = false) {w : RecordWrite}
    (h : w.bars userId = true) : (s.hand w).owes userId = true := by
  refine owes_iff.mpr ⟨w, ?_, h⟩
  rw [hand_of_working hawake]
  simp [inHand]

theorem stopped_hand (s : Scribe) (w : RecordWrite) : (s.hand w).stopped = s.stopped := by
  unfold hand
  split <;> rfl

theorem stopped_takeUp (s : Scribe) (now : Nat) : (s.takeUp now).stopped = s.stopped := by
  unfold takeUp
  split <;> rfl

theorem stopped_report (s : Scribe) (now draw : Nat) (e : Errand)
    (result : Except BackendFault Unit) : (s.report now draw e result).1.stopped = s.stopped := by
  unfold report
  split
  · rfl
  · split <;> rfl

end Scribe

/-! ## The hall -/

namespace Hall

/-- No scribe has stopped. -/
def Awake (h : Hall) : Prop := ∀ id, (h.scribe id).stopped = false

/-- Writes are handed over at most, and none is carried out. -/
structure Hands (h g : Hall) : Prop where
  awake : h.Awake → g.Awake
  owes : ∀ id userId, (h.scribe id).owes userId = true → (g.scribe id).owes userId = true
  gate : g.courier.records.gate = h.courier.records.gate

/-- Nothing gets lost that bars a user, and the user is not let in. -/
structure Keeps (userId : String) (h g : Hall) : Prop where
  /-- A block is in hand until it is carried out. -/
  owed : ∀ id, (h.scribe id).owes userId = true →
    (g.scribe id).owes userId = true ∨ g.courier.Bars userId
  barred : h.courier.Bars userId → g.courier.Bars userId

variable {h g k : Hall}

theorem Hands.of_same (hscribes : g.scribes = h.scribes)
    (hgate : g.courier.records.gate = h.courier.records.gate) : h.Hands g where
  awake hawake id := by
    rw [scribe, hscribes]
    exact hawake id
  owes id userId howes := by
    rw [scribe, hscribes]
    exact howes
  gate := hgate

theorem Hands.refl (h : Hall) : h.Hands h := .of_same rfl rfl

theorem Hands.trans (hg : h.Hands g) (hk : g.Hands k) : h.Hands k where
  awake hawake := hk.awake (hg.awake hawake)
  owes id userId howes := hk.owes id userId (hg.owes id userId howes)
  gate := hk.gate.trans hg.gate

theorem Hands.keeps (hg : h.Hands g) : h.Keeps userId g where
  owed id howes := .inl (hg.owes id userId howes)
  barred hbarred := by
    rw [Courier.Bars, hg.gate]
    exact hbarred

theorem Keeps.refl (h : Hall) : h.Keeps userId h := (Hands.refl h).keeps

theorem Keeps.trans (hg : h.Keeps userId g) (hk : g.Keeps userId k) : h.Keeps userId k where
  owed id howes := (hg.owed id howes).elim (hk.owed id) fun hbarred => .inr (hk.barred hbarred)
  barred hbarred := hk.barred (hg.barred hbarred)

theorem scribe_putScribe (h : Hall) (id : String) (s : Scribe) (other : String) :
    (h.putScribe id s).scribe other = if other = id then s else h.scribe other := by
  unfold scribe putScribe
  rw [List.lookup_cons]
  split
  · rename_i hsame
    rw [if_pos (by simpa using hsame)]
    rfl
  · rename_i hother
    have hne : other ≠ id := by simpa using hother
    rw [if_neg hne, lookup_filter hne]

/-- The scribe of a session after its work; those of the others rest. -/
theorem scribe_toil (h : Hall) (id : String) (attempts : Nat) (other : String) :
    (h.toil id attempts).scribe other =
      if other = id then
        ((h.scribe id).workFor h.now h.time (h.source.jitter h.drawn) attempts h.courier).1.1
      else h.scribe other := by
  unfold toil
  dsimp only
  split
  · -- an idle scribe is struck off the list, and who is not on the list is idle
    rename_i hidle
    rw [hidle]
    unfold scribe
    split
    · rename_i hsame
      have hgone : (h.scribes.filter fun e => e.1 != id).lookup other = none := by
        rw [List.lookup_eq_none_iff]
        intro e he
        have hne : e.1 ≠ id := by simpa using (List.mem_filter.mp he).2
        simpa [hsame] using Ne.symm hne
      exact congrArg (·.getD .idle) hgone
    · rename_i hne
      exact congrArg (·.getD .idle) (lookup_filter hne h.scribes)
  · exact scribe_putScribe _ id _ other

theorem courier_toil (h : Hall) (id : String) (attempts : Nat) :
    (h.toil id attempts).courier =
      ((h.scribe id).workFor h.now h.time (h.source.jitter h.drawn) attempts h.courier).1.2 := by
  unfold toil
  dsimp only
  split <;> rfl

theorem Awake.toil (hawake : h.Awake) (id : String) (attempts : Nat) :
    (h.toil id attempts).Awake := by
  intro other
  rw [scribe_toil]
  split
  · refine Scribe.workFor_induction (P := fun s _ => s.stopped = false) (fun s _ hs => ?_)
      (fun s _ e _ hs => ?_) attempts (hawake id)
    · rw [Scribe.stopped_takeUp, hs]
    · rw [Scribe.stopped_report, hs]
  · exact hawake other

/-- A scribe that works carries out a block, or has it in hand still. -/
theorem keeps_toil (h : Hall) (id : String) (attempts : Nat) :
    h.Keeps userId (h.toil id attempts) where
  owed other howes := by
    rw [scribe_toil, courier_toil]
    split
    · rename_i hsame
      subst hsame
      -- a block in hand is in hand after an attempt, or was carried out in it
      refine Scribe.workFor_induction (P := fun s c => s.owes userId = true ∨ c.Bars userId)
        (fun s c hs => ?_) (fun s c e he hs => ?_) attempts (.inl howes)
      · refine hs.imp_left fun hs => ?_
        obtain ⟨w, hw, hbars⟩ := Scribe.owes_iff.mp hs
        exact Scribe.owes_iff.mpr ⟨w, by rwa [Scribe.inHand_takeUp], hbars⟩
      · rcases hs with hs | hbarred
        · -- the block is the write that is tried, or waits behind it
          obtain ⟨w, hw, hbars⟩ := Scribe.owes_iff.mp hs
          have hplace := hw
          rw [Scribe.inHand, he, Option.map_some, Option.toList_some, List.singleton_append,
            List.mem_cons] at hplace
          rcases hplace with rfl | hqueue
          · exact .inr (Courier.bars_carry c _ hbars)
          · refine .inl (Scribe.owes_iff.mpr ⟨w, ?_, hbars⟩)
            rcases Scribe.inHand_report he h.now (h.source.jitter h.drawn)
              (c.carry h.time e.write).1 with hsame | hrest
            · rw [hsame]
              exact hw
            · rw [hrest]
              exact hqueue
        · exact .inr (hbarred.carry _ _)
    · exact .inl howes
  barred hbarred := by
    rw [courier_toil]
    exact Scribe.workFor_induction (P := fun _ c => c.Bars userId) (fun _ _ hc => hc)
      (fun _ _ _ _ hc => hc.carry _ _) attempts hbarred

/-! ### Turns -/

theorem hands_hand (h : Hall) (id : String) (w : RecordWrite) : h.Hands (h.hand id w) := by
  unfold hand
  dsimp only
  split
  · exact .of_same rfl rfl
  · constructor
    case awake =>
      intro hawake other
      rw [scribe_putScribe]
      split
      · rw [Scribe.stopped_hand, hawake id]
      · exact hawake other
    case owes =>
      intro other userId howes
      rw [scribe_putScribe]
      split
      · rename_i hsame
        exact Scribe.owes_hand (hsame ▸ howes) w
      · exact howes
    case gate => rfl

theorem hands_perform (h : Hall) (id : String) (a : Action) :
    h.Hands (h.perform id a) := by
  cases a with
  | publish e => exact .of_same rfl rfl
  | write w => exact h.hands_hand id w
  | note n => exact .of_same rfl rfl

theorem hands_performed (h : Hall) (id : String) (as : List Action) :
    h.Hands (as.foldl (fun h a => h.perform id a) h) := by
  induction as generalizing h with
  | nil => exact .refl h
  | cons a as ih => exact (h.hands_perform id a).trans (ih _)

theorem hands_act (h : Hall) (id : String) (seat : Seat) (state : Sitting × Shelf)
    (as : List Action) : h.Hands (h.act id seat state as) := by
  have hdrawn : h.Hands h.draw := .of_same rfl rfl
  exact (hdrawn.trans (h.draw.hands_performed id as)).trans (.of_same rfl rfl)

theorem hands_turn (h : Hall) (id : String) (x : Stimulus) : h.Hands (h.turn id x).2 := by
  cases hfind : h.registry.find? id with
  | none =>
    rw [turn, hfind]
    exact .refl h
  | some r =>
    rw [turn_of_find? hfind]
    exact h.hands_act ..

theorem hands_commence (h : Hall) (id : String) : h.Hands (h.commence id) := by
  cases hfind : h.registry.find? id with
  | none =>
    rw [commence, hfind]
    exact .refl h
  | some r =>
    rw [commence_of_find? hfind]
    exact h.hands_act ..

theorem hands_moveTick (h : Hall) (id : String) : h.Hands (h.moveTick id) := by
  unfold moveTick
  split <;> exact .of_same rfl rfl

/-- A block among the actions of a turn is in hand after the turn. -/
theorem owes_act {as : List Action} {w : RecordWrite} (hw : .write w ∈ as)
    (hbars : w.bars userId = true) (hawake : h.Awake) (id : String) (seat : Seat)
    (state : Sitting × Shelf) : ((h.act id seat state as).scribe id).owes userId = true := by
  obtain ⟨before, after, rfl⟩ := List.append_of_mem hw
  have hawake' : (before.foldl (fun h a => h.perform id a) h.draw).Awake :=
    (h.draw.hands_performed id before).awake hawake
  unfold act
  rw [List.foldl_append, List.foldl_cons]
  generalize before.foldl (fun h a => h.perform id a) h.draw = g at hawake'
  refine (hands_performed _ id after).owes id userId ?_
  have hhand : g.perform id (.write w) = g.putScribe id ((g.scribe id).hand w) := by
    rw [perform, hand, hawake' id]
    rfl
  rw [hhand, scribe_putScribe, if_pos rfl]
  exact Scribe.owes_hand_bars (hawake' id) hbars

end Hall

/-! ## Disqualifications -/

/-- The session is over, and has disqualified this user. -/
def Session.disqualifies (s : Session) (userId : String) : Bool :=
  s.userId == userId && s.status == .disqualified

/-- The closing actions of a session that disqualifies its user block the user. -/
theorem Session.block_mem_closing {s : Session} (h : s.disqualifies userId = true) :
    Action.write (.blockUser userId s.id) ∈ s.closing := by
  obtain ⟨huser, hstatus⟩ : s.userId = userId ∧ s.status = .disqualified := by
    simpa [disqualifies] using h
  have hover : s.isActive = false := by
    rw [isActive, hstatus]
    rfl
  simp [closing, hover, hstatus, huser]

/-- A turn in which a session comes to disqualify its user blocks the user. -/
theorem Turn.block_mem_actions {σ : Type} (ledger : LivesLedger σ) (scene : Scene) (x : Stimulus)
    {s : Sitting × σ} (hactive : s.1.session.isActive = true)
    (h : ((step ledger scene x).after s).1.session.disqualifies userId = true) :
    ∃ id, Action.write (.blockUser userId id) ∈ (step ledger scene x).actions s := by
  have hclosing := (settling_step ledger scene x).closes hactive
  have hmem := Session.block_mem_closing h
  rw [← hclosing] at hmem
  exact ⟨_, (List.mem_filter.mp hmem).1⟩

/-- The move may change what is on record at the gate. -/
def Move.concernsGate : Move → Bool
  | .write .. | .approve .. => true
  | _ => false

/-- The start has passed the gate, and has not failed. -/
def EnrolmentStage.isPast : EnrolmentStage → Bool
  | checking => false
  | asking => false
  | entering => true
  | launched _ => true
  | done (.ok _) => true
  | done (.error _) => false

namespace Floor

variable {σ : Type} {f g : Floor σ}

/-- A session of a user ended with the disqualification of the user, as its seat or the archive
tells. -/
def disqualified (f : Floor σ) (id userId : String) : Bool :=
  (f.hall.registry.find? id).any (fun r => r.value.sitting.session.disqualifies userId) ||
    f.hall.registry.archive.entries.any fun e => e.1 == id && e.2.session.disqualifies userId

/-- The scribe of a session has the block of a user in hand. -/
def owes (f : Floor σ) (id userId : String) : Bool := (f.hall.scribe id).owes userId

/-- The gate lets a user in. -/
def admits (f : Floor σ) (userId : String) : Bool := f.hall.courier.records.gate.isEligible userId

theorem disqualified_iff {id : String} :
    f.disqualified id userId = true ↔
      (∃ r, f.hall.registry.find? id = some r ∧
        r.value.sitting.session.disqualifies userId = true) ∨
      ∃ s, (id, s) ∈ f.hall.registry.archive.entries ∧ s.session.disqualifies userId = true := by
  simp [disqualified, Option.any_eq_true, List.any_eq_true]

/-- A session that goes on has not disqualified anybody. -/
theorem not_disqualifies_of_active {s : Session} (h : s.isActive = true) :
    ¬ s.disqualifies userId = true := by
  intro hlost
  have hstatus : s.status = .disqualified := by
    simpa using (Bool.and_eq_true_iff.mp hlost).2
  rw [Session.isActive, hstatus] at h
  cases h

/-- A sitting in the hall was there before, or its session has just begun, or took a turn. -/
theorem seat_cases {id : String} {r : Running Seat} (hs : f.Shift g)
    (hfind : g.hall.registry.find? id = some r) :
    (∃ old, f.hall.registry.find? id = some old ∧ old.value.sitting = r.value.sitting) ∨
    r.value.sitting.session.isActive = true ∨
    ∃ h old scene seat x, (h = f.hall ∨ h = f.hall.moveTick id) ∧
      f.hall.registry.find? id = some old ∧ old.value.sitting.isRunning = true ∧
      let t := Turn.step (Hall.ledger old.value) scene x
      let s := (old.value.sitting, old.value.lives)
      g.hall = h.act id seat (t.after s) (t.actions s) ∧ r.value.sitting = (t.after s).1 := by
  cases hs with
  | still hall station filed => exact .inl ⟨r, by rwa [← hall.registry], rfl⟩
  | launched h u seat before free new hall station filed =>
    have hactive : g.hall.registry.active = f.hall.registry.active ++
        [⟨seat.sitting.session.id, seat.sitting.session.userId, seat⟩] := by
      rw [hall, ← before.registry]
      rfl
    -- whoever was found before is still found first
    rw [Registry.find?, hactive, List.find?_append] at hfind
    rcases Option.or_eq_some_iff.mp hfind with hold | ⟨-, hnew⟩
    · exact .inl ⟨r, hold, rfl⟩
    · obtain rfl := List.mem_singleton.mp (List.mem_of_find?_eq_some hnew)
      exact .inr (.inl new.active)
  | commenced other u here hall station filed =>
    cases hfound : f.hall.registry.find? other with
    | none => exact .inl ⟨r, by rwa [hall, Hall.commence, hfound] at hfind, rfl⟩
    | some old =>
      -- the first turn writes records and leaves the seat itself as it was
      rw [hall, Hall.commence_of_find? hfound, Hall.act_registry] at hfind
      by_cases hid : id = other
      · subst hid
        rw [Registry.find?_update_self hfound] at hfind
        obtain rfl := Option.some.inj hfind
        exact .inl ⟨old, hfound, rfl⟩
      · rw [Registry.find?_update_of_ne hid] at hfind
        exact .inl ⟨r, hfind, rfl⟩
  | turned other u h x here live set kind hall station filed =>
    obtain ⟨old, hfound, hrunning⟩ := exists_of_isLive live
    obtain ⟨scene, seat, hact, hregistry⟩ := exists_act (x := x) set hfound
    rw [← hall] at hact hregistry
    rw [hregistry] at hfind
    by_cases hid : id = other
    · subst hid
      rw [Registry.find?_update_self hfound] at hfind
      obtain rfl := Option.some.inj hfind
      exact .inr (.inr ⟨h, old, scene, seat, x, set, hfound, hrunning, hact, rfl⟩)
    · rw [Registry.find?_update_of_ne hid] at hfind
      exact .inl ⟨r, hfind, rfl⟩
  | filed other u here stopped hall station filed =>
    refine .inl ⟨r, ?_, rfl⟩
    rw [hall, Hall.file] at hfind
    split at hfind <;> exact hfind
  | released other u here hall station filed =>
    have hregistry : g.hall.registry = f.hall.registry.release other := by rw [hall]; rfl
    rw [hregistry, Registry.find?_release] at hfind
    split at hfind
    · cases hfind
    · exact .inl ⟨r, hfind, rfl⟩
  | closed other u here hall station filed => exact .inl ⟨r, by rwa [← hall], rfl⟩

/-- A snapshot in the archive was there before, or is that of the session as it stood. -/
theorem entry_cases {id : String} {s : Snapshot} (hs : f.Shift g)
    (he : (id, s) ∈ g.hall.registry.archive.entries) :
    (id, s) ∈ f.hall.registry.archive.entries ∨
      ∃ r, f.hall.registry.find? id = some r ∧ s = r.value.sitting.snapshot := by
  cases hs with
  | still hall station filed => exact .inl (by rwa [← hall.registry])
  | launched h u seat before free new hall station filed =>
    rw [hall] at he
    rw [← before.registry]
    exact .inl he
  | commenced other u here hall station filed =>
    cases hfound : f.hall.registry.find? other with
    | none => exact .inl (by rwa [hall, Hall.commence, hfound] at he)
    | some old =>
      rw [hall, Hall.commence_of_find? hfound, Hall.act_registry] at he
      exact .inl he
  | turned other u h x here live set kind hall station filed =>
    obtain ⟨old, hfound, -⟩ := exists_of_isLive live
    obtain ⟨scene, seat, -, hregistry⟩ := exists_act (x := x) set hfound
    rw [hall, hregistry] at he
    exact .inl he
  | filed other u here stopped hall station filed =>
    cases hfound : f.hall.registry.find? other with
    | none => exact .inl (by rwa [hall, Hall.file, hfound] at he)
    | some old =>
      rw [hall, Hall.file, hfound] at he
      rcases Archive.mem_insert he with hnew | hold
      · obtain ⟨rfl, rfl⟩ := Prod.mk.inj hnew
        exact .inr ⟨old, hfound, rfl⟩
      · exact .inl hold
  | released other u here hall station filed =>
    rw [hall] at he
    exact .inl he
  | closed other u here hall station filed => exact .inl (by rwa [← hall])

/-- **A session that comes to disqualify its user hands the block over in the same move**, which is
a turn of its own. -/
theorem owes_of_disqualified {id : String} (hawake : f.hall.Awake) (hs : f.Shift g)
    (hafter : g.disqualified id userId = true) :
    f.disqualified id userId = true ∨ g.owes id userId = true := by
  have hseat : ∀ r, f.hall.registry.find? id = some r →
      r.value.sitting.session.disqualifies userId = true → f.disqualified id userId = true :=
    fun r hfind hlost => disqualified_iff.mpr (.inl ⟨r, hfind, hlost⟩)
  rcases disqualified_iff.mp hafter with ⟨r, hfind, hlost⟩ | ⟨s, he, hlost⟩
  · rcases seat_cases hs hfind with
      ⟨old, hold, hsame⟩ | hactive | ⟨h, old, scene, seat, x, hset, hold, hrunning, hact, hsitting⟩
    · exact .inl (hseat old hold (hsame ▸ hlost))
    · exact absurd hlost (not_disqualifies_of_active hactive)
    · rw [hsitting] at hlost
      -- the session still ran when it took the turn, so it is this turn that has disqualified the
      -- user
      have hactive : old.value.sitting.session.isActive = true :=
        (Bool.and_eq_true_iff.mp hrunning).1
      obtain ⟨key, hblock⟩ := Turn.block_mem_actions (Hall.ledger old.value) scene x
        (s := (old.value.sitting, old.value.lives)) hactive hlost
      have hawake' : h.Awake := by
        rcases hset with rfl | rfl
        · exact hawake
        · exact (f.hall.hands_moveTick id).awake hawake
      refine .inr ?_
      rw [owes, hact]
      exact Hall.owes_act hblock (by simp [RecordWrite.bars]) hawake' id seat _
  · rcases entry_cases hs he with hold | ⟨r, hfind, rfl⟩
    · exact .inl (disqualified_iff.mpr (.inr ⟨s, hold, hlost⟩))
    · exact .inl (hseat r hfind hlost)

/-! ## Approvals -/

/-- The move is the approval of a retake for the user, and returns that there was one to approve. -/
def approves (f : Floor σ) (userId : String) : Move → Bool
  | .approve other approver =>
    match ((Service.approve other approver).run f.service).1 with
    | .ok approved => other == userId && approved
    | .error _ => false
  | _ => false

/-- A retake of the user is approved in the course of some moves. -/
def approvedIn (f : Floor σ) (userId : String) : List Move → Bool
  | [] => false
  | m :: later => f.approves userId m || (f.step m).approvedIn userId later

theorem approvedIn_append (f : Floor σ) (userId : String) (first rest : List Move) :
    f.approvedIn userId (first ++ rest) =
      (f.approvedIn userId first || (f.run first).approvedIn userId rest) := by
  induction first generalizing f with
  | nil => rfl
  | cons m first ih => rw [List.cons_append, approvedIn, approvedIn, ih, Bool.or_assoc]; rfl

theorem hands_of_call {α : Type} (f : Floor σ) (k : Nat) (e : Enrolment) {c : Call σ α}
    (next : α → EnrolmentStage) (h : f.hall.Hands (c.run f.service).2.hall) :
    f.hall.Hands (f.enrolBy k e c next).hall := h

theorem hands_admission (f : Floor σ) (k : Nat) (e : Enrolment) :
    f.hall.Hands (f.enrolBy k e (admission e.userId e.request) .launched).hall := by
  refine f.hands_of_call k e _ ?_
  obtain ⟨notes, ⟨fault, hrun, -⟩ | ⟨response, seat, hrun, -⟩⟩ :=
    admission_cases e.userId e.request f.service
  · rw [hrun]
    exact .of_same rfl rfl
  · rw [hrun]
    exact .of_same rfl rfl

theorem hands_start (f : Floor σ) {m : Move} (h : m.concernsStarts = true) :
    f.hall.Hands (f.step m).hall := by
  cases m with
  | enrol k u request =>
    simp only [step, enrol]
    split <;> exact .of_same rfl rfl
  | checkFree k =>
    simp only [step, checkFree]
    split
    · split
      · refine f.hands_of_call k _ _ ?_
        rw [Service.run_checkFree]
        exact .refl _
      · exact .refl _
    · exact .refl _
  | askGate k =>
    simp only [step, askGate]
    split
    · split
      · refine f.hands_of_call k _ _ ?_
        rw [Service.run_checkEligible]
        split <;> exact .of_same rfl rfl
      · exact .refl _
    · exact .refl _
  | launch k =>
    simp only [step, launch]
    split
    · rename_i e _
      split
      · have hhands := f.hands_admission k e
        split
        · exact hhands
        · exact hhands
      · exact .refl _
    · exact .refl _
  | confirm k =>
    simp only [step, confirm]
    split
    · split
      · exact .of_same rfl rfl
      · exact .refl _
    · exact .refl _
  | inquire | lookUp | send | receive | search | read | commence | handle | fire | file | release
  | close | write | approve | pass | listen | switch | trouble => cases h

theorem hands_lookUp (f : Floor σ) (k : Nat) : f.hall.Hands (f.lookUp k).hall := by
  unfold lookUp
  split
  · split
    · split
      · exact .of_same rfl rfl
      · exact .of_same rfl rfl
      · split
        · exact .of_same rfl rfl
        · rename_i hrun _ htold
          obtain ⟨relays, notes, hcall⟩ := run_untold htold hrun
          simp only [hcall]
          exact .of_same rfl rfl
    · exact .refl _
  · exact .refl _

theorem hands_handle (f : Floor σ) (id : String) : f.hall.Hands (f.handle id).hall := by
  unfold handle
  split
  · split
    · split
      · unfold answer
        split
        · exact .of_same rfl rfl
        · split
          · split
            · split
              · exact .of_same rfl rfl
              · exact f.hall.hands_turn id _
            · exact .of_same rfl rfl
          · exact .of_same rfl rfl
      · exact .refl _
    · exact .refl _
  · exact .refl _

theorem hands_fire (f : Floor σ) (due : Hall.Due) : f.hall.Hands (f.fire due).hall := by
  have hat : ∀ (id : String) (due : Hall.Due) (g : Hall → Hall),
      f.hall.Hands (g f.hall) → f.hall.Hands (f.fireAt id due g).hall := by
    intro id due g hg
    unfold fireAt
    split
    · split
      · exact hg
      · exact .refl _
    · exact .refl _
  cases due with
  | tick id => exact hat id _ _ ((f.hall.hands_moveTick id).trans (Hall.hands_turn _ id _))
  | grace id => exact hat id _ _ (f.hall.hands_turn id _)
  | errand id => exact .refl _

/-- Only scribes carry out writes, and only approvals go past them. -/
theorem hands_step (f : Floor σ) {m : Move} (h : m.concernsGate = false) :
    f.hall.Hands (f.step m).hall := by
  cases m with
  | enrol | checkFree | askGate | launch | confirm => exact f.hands_start rfl
  | lookUp k => exact f.hands_lookUp k
  | handle id => exact f.hands_handle id
  | fire due => exact f.hands_fire due
  | commence id =>
    simp only [step, commence]
    split
    · split
      · exact f.hall.hands_commence id
      · exact .refl _
    · exact .refl _
  | file id =>
    simp only [step, file]
    split
    · split
      · change f.hall.Hands (f.hall.file id)
        unfold Hall.file
        split <;> exact .of_same rfl rfl
      · exact .refl _
    · exact .refl _
  | inquire | send | receive | search | read | release | close =>
    simp only [step, inquire, send, receive, search, read, findFinal, release, close]
    repeat' split
    all_goals exact .of_same rfl rfl
  | pass | listen | switch | trouble => exact .of_same rfl rfl
  | write | approve => cases h

/-- An approval for somebody else, or of nothing, keeps the user out. -/
theorem keeps_approve (f : Floor σ) {u approver : String}
    (h : f.approves userId (.approve u approver) = false) :
    f.hall.Keeps userId (f.step (.approve u approver)).hall := by
  obtain ⟨notes, hrun⟩ := Service.run_approve u approver f.service
  have hno : u = userId →
      (f.hall.courier.records.gate.approve u approver f.hall.time).2 = false := by
    rintro rfl
    simpa [approves, hrun] using h
  simp only [step, hrun]
  exact ⟨fun _ howes => .inl howes, fun hbarred =>
    Gate.isEligible_approve hbarred u approver f.hall.time hno⟩

/-- **Only an approval lets a user in that is barred, or takes back a block.** -/
theorem keeps_step (f : Floor σ) {m : Move} (h : f.approves userId m = false) :
    f.hall.Keeps userId (f.step m).hall := by
  cases m with
  | write id attempts => exact f.hall.keeps_toil id attempts
  | approve u approver => exact f.keeps_approve h
  | enrol | checkFree | askGate | launch | confirm | inquire | lookUp | send | receive | search
  | read | commence | handle | fire | file | release | close | pass | listen | switch | trouble =>
    exact (f.hands_step rfl).keeps

theorem keeps_run (f : Floor σ) {later : List Move} (h : f.approvedIn userId later = false) :
    f.hall.Keeps userId (f.run later).hall := by
  induction later generalizing f with
  | nil => exact .refl _
  | cons m later ih =>
    rw [approvedIn, Bool.or_eq_false_iff] at h
    exact (f.keeps_step h.1).trans (ih (f.step m) h.2)

/-- No scribe of a floor ever stops. -/
theorem awake_step (f : Floor σ) (hawake : f.hall.Awake) (m : Move) : (f.step m).hall.Awake := by
  cases m with
  | write id attempts => exact hawake.toil id attempts
  | approve u approver =>
    obtain ⟨notes, hrun⟩ := Service.run_approve u approver f.service
    simp only [step, hrun]
    exact hawake
  | enrol | checkFree | askGate | launch | confirm | inquire | lookUp | send | receive | search
  | read | commence | handle | fire | file | release | close | pass | listen | switch | trouble =>
    exact (f.hands_step rfl).awake hawake

theorem awake_run (f : Floor σ) (hawake : f.hall.Awake) (moves : List Move) :
    (f.run moves).hall.Awake := by
  induction moves generalizing f with
  | nil => exact hawake
  | cons m moves ih => exact ih (f.step m) (f.awake_step hawake m)

/-! ## Starts -/

/-- A user who is barred stays so until a retake is approved. -/
theorem barred_run (f : Floor σ) {later : List Move} (hbarred : f.admits userId = false)
    (h : f.approvedIn userId later = false) : (f.run later).admits userId = false :=
  (f.keeps_run h).barred hbarred

/-- No start of a user who is barred passes the gate. -/
theorem notPast_step {m : Move} {k : Nat} {e : Enrolment} (hbarred : f.admits e.userId = false)
    (he : (f.step m).enrolments k = some e) (hpast : e.stage.isPast = true) :
    ∃ was, f.enrolments k = some was ∧ was.userId = e.userId ∧ was.stage.isPast = true := by
  rcases enrolment_step he with hbefore | ⟨-, hnew⟩ | ⟨was, stage, hbefore, rfl, hcourse⟩
  · exact ⟨e, hbefore, rfl, hpast⟩
  · rw [hnew] at hpast
    cases hpast
  · refine ⟨was, hbefore, rfl, ?_⟩
    cases hcourse with
    | admitted asking asked eligible =>
      rw [admits] at hbarred
      exact absurd (hbarred.symm.trans eligible) nofun
    | launched entering seated => rw [entering]; rfl
    | confirmed launched => rw [launched]; rfl
    | free | busy | refused | failed => cases hpast

/-- A start that passed the gate while its user was barred had passed it before. -/
theorem notPast_run {k : Nat} {e : Enrolment} (hbarred : f.admits e.userId = false)
    (later : List Move) (h : f.approvedIn e.userId later = false)
    (he : (f.run later).enrolments k = some e) (hpast : e.stage.isPast = true) :
    ∃ was, f.enrolments k = some was ∧ was.userId = e.userId ∧ was.stage.isPast = true := by
  induction later using List.reverseRecOn generalizing e with
  | nil => exact ⟨e, he, rfl, hpast⟩
  | append_singleton later m ih =>
    rw [approvedIn_append, Bool.or_eq_false_iff] at h
    rw [run_concat] at he
    obtain ⟨was, hwas, huser, hpast'⟩ := notPast_step (f.barred_run hbarred h.1) he hpast
    obtain ⟨first, hfirst, huser', hpast''⟩ :=
      ih (by rwa [huser]) (by rw [huser]; exact h.1) hwas hpast'
    exact ⟨first, hfirst, huser'.trans huser, hpast''⟩

/-- A start of a user who is barred is refused when it asks. -/
theorem refused_askGate {k : Nat} {e : Enrolment} (hbarred : f.admits e.userId = false)
    (he : f.enrolments k = some e) (hstage : e.stage = .asking) :
    (f.askGate k).enrolments k = some { e with stage := .done (.error .ineligible) } := by
  have hrun := congrArg Prod.fst (Service.run_checkEligible e.userId f.service)
  rw [admits] at hbarred
  rw [hbarred] at hrun
  simp only [askGate, he, hstage]
  rw [enrolBy_error hrun, Function.update_self]

/-! ## The wait for an approval -/

/-- What holds of a user from a disqualification on, in the course of moves that approve no
retake. -/
structure Barred (f : Floor σ) (id userId : String) (later : List Move) : Prop where
  /-- The block is in the hand of the scribe from the disqualification on. -/
  handed : f.owes id userId = true
  /-- It stays there until it is carried out. -/
  kept : ∀ before after, later = before ++ after →
    (f.run before).owes id userId = true ∨ (f.run before).admits userId = false
  /-- From then on no start passes the gate that has not passed it yet: it is refused when it
  asks. -/
  refused : ∀ before after, later = before ++ after → (f.run before).owes id userId = false →
    (f.run later).admits userId = false ∧
    ∀ k e, (f.run later).enrolments k = some e → e.userId = userId →
      (∀ was, (f.run before).enrolments k = some was → was.stage.isPast = false) →
        e.stage.isPast = false ∧
        (e.stage = .asking → ((f.run later).step (.askGate k)).enrolments k =
          some { e with stage := .done (.error .ineligible) })

theorem barred_of_owes {id : String} {later : List Move} (howes : f.owes id userId = true)
    (h : f.approvedIn userId later = false) : f.Barred id userId later where
  handed := howes
  kept before after hlater := by
    rw [hlater, approvedIn_append, Bool.or_eq_false_iff] at h
    exact (f.keeps_run h.1).owed id howes
  refused before after hlater hdone := by
    subst hlater
    rw [approvedIn_append, Bool.or_eq_false_iff] at h
    have hbarred : (f.run before).admits userId = false :=
      ((f.keeps_run h.1).owed id howes).resolve_left (ne_true_of_eq_false hdone)
    have hstill : ((f.run before).run after).admits userId = false :=
      (f.run before).barred_run hbarred h.2
    rw [run_append]
    refine ⟨hstill, fun k e he huser hahead => ?_⟩
    subst huser
    refine ⟨?_, fun hstage => refused_askGate hstill he hstage⟩
    by_contra hpast
    obtain ⟨was, hwas, -, hpast'⟩ := notPast_run hbarred after h.2 he (Bool.not_eq_false _ ▸ hpast)
    rw [hahead was hwas] at hpast'
    cases hpast'

/-- **A disqualified user is barred until a retake is approved**, from the moment on when the scribe
of the session has carried out the block. It is handed the block in the move that disqualifies the
user, and has it in hand until then. -/
theorem disqualified_user_barred (config : Config) (catalog : Catalog) (practice : PracticeStore σ)
    (lives : σ) (time : Stamp) (source : Source) (before : List Move) (m : Move)
    (later : List Move) (id userId : String) :
    let start : Floor σ := opened (.new config catalog practice lives time source)
    let f := start.run (before ++ [m])
    (start.run before).disqualified id userId = false → f.disqualified id userId = true →
      f.approvedIn userId later = false → f.Barred id userId later := by
  intro start f hbefore hafter happroved
  have hawake : (start.run before).hall.Awake := awake_run start (fun _ => rfl) before
  have hrun : f = (start.run before).step m := run_concat ..
  have hshift : (start.run before).Shift f := hrun ▸ shift_step _ m
  rcases owes_of_disqualified hawake hshift hafter with hold | howes
  · rw [hbefore] at hold
    cases hold
  · exact barred_of_owes howes happroved

/-- A service whose users have one life. -/
def strict : Service Shelf :=
  .new { (default : Config) with exam := { Settings.standard with maxLives := 1 } }
    House.threeQuestions .inMemory .empty default growing

/-- A user starts an exam, and copies. -/
def firstExam : List Move :=
  let id := growing.sessionId 0
  [.enrol 0 "dave" ⟨.python, none⟩, .checkFree 0, .askGate 0, .launch 0, .confirm 0,
    .commence id, .inquire 0 id "dave" (.signal .copy), .lookUp 0, .send 0]

/-- The end of the exam is filed. -/
def firstEnd : List Move :=
  let id := growing.sessionId 0
  [.receive 0, .file id, .release id, .close id]

/-- The user starts another exam. -/
def secondExam : List Move :=
  [.enrol 1 "dave" ⟨.python, none⟩, .checkFree 1, .askGate 1, .launch 1, .confirm 1]

/-- The session of a start that has succeeded. -/
def started? (f : Floor σ) (k : Nat) : Option String :=
  match (f.enrolments k).map Enrolment.stage with
  | some (.done (.ok response)) => some response.sessionId
  | _ => none

/-- Once its scribe has carried out the block, the second exam is refused. -/
theorem disqualified_user_barred_written :
    let start : Floor Shelf := opened strict
    let id := growing.sessionId 0
    let f := start.run (firstExam ++ [.handle id])
    let later := firstEnd ++ .write id 9 :: secondExam
    (start.run firstExam).disqualified id "dave" = false ∧ f.disqualified id "dave" = true ∧
      f.approvedIn "dave" later = false ∧ f.Barred id "dave" later ∧
      (f.run later).owes id "dave" = false ∧ (f.run later).started? 1 = none := by
  intro start id f later
  have hbefore : (start.run firstExam).disqualified id "dave" = false := by decide +kernel
  have hafter : f.disqualified id "dave" = true := by decide +kernel
  have happroved : f.approvedIn "dave" later = false := by decide +kernel
  refine ⟨hbefore, hafter, happroved, ?_, by decide +kernel, by decide +kernel⟩
  exact disqualified_user_barred _ _ _ _ _ _ firstExam (.handle id) later id "dave" hbefore hafter
    happroved

/-- Before that it succeeds, though the end of the first was shown already. -/
theorem disqualified_user_restarts :
    let start : Floor Shelf := opened strict
    let id := growing.sessionId 0
    let f := start.run (firstExam ++ .handle id :: firstEnd ++
      [.inquire 1 id "dave" .snapshot, .lookUp 1, .search 1])
    f.disqualified id "dave" = true ∧ (f.shown? 1).map Session.status = some .disqualified ∧
      (f.enrolments 1).isNone ∧ f.approvedIn "dave" secondExam = false ∧
      (f.run secondExam).started? 1 = some (growing.sessionId 3) := by
  decide +kernel

end Floor

end Invigilator
