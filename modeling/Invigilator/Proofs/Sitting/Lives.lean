import Invigilator.Proofs.Lives.Outage
import Invigilator.Proofs.Sitting.Change
import Mathlib.Data.List.Induction

/-!
# The accounts of the lives

Lives are kept in three places: in the session, in the ledger, and in the records of the
penalties. What joins them over a run is the list of answers that the ledger gave when it was
asked to take a life: `answers`, one for each penalty.

The ledger counts the lives that it took, and the session counts one for each penalty as long as
the two agree. They part when the ledger fails, for the session goes on counting by itself, and
the difference shows when the ledger answers again: then the session takes its number, which is
behind. So the accounts are in order for exactly those runs in which the ledger, once it has
failed, takes no life any more (`Steady`).
-/

namespace Invigilator

open Sitting (Change)

/-! ## One change -/

namespace Sitting

variable {σ : Type} {ledger : LivesLedger σ} {scene : Scene} {s t : Sitting} {lives lives' : σ}
  {x : Stimulus}

/-- A change that costs no life, if it is one at all. -/
structure Free (s : Sitting) (lives : σ) (x : Stimulus) (t : Sitting) (lives' : σ) : Prop where
  record : t.violations = s.violations
  left : t.session.livesRemaining = s.session.livesRemaining
  total : t.session.totalViolations = s.session.totalViolations
  store : lives' = lives
  id : t.session.id = s.session.id
  active : t.session.isActive = true → s.session.isActive = true
  /-- It does not disqualify, unless that is what is asked for. -/
  status : t.session.status = .disqualified →
    s.session.status = .disqualified ∨ x = .submit .livesExhausted

/-- A change that costs a life, with the record of the penalty. -/
structure Paid (ledger : LivesLedger σ) (scene : Scene) (s : Sitting) (lives : σ) (t : Sitting)
    (lives' : σ) (v : Violation) : Prop where
  alive : 0 < s.session.livesRemaining
  record : t.violations = s.violations ++ [v]
  before : v.heartsBefore = s.session.livesRemaining
  after : v.heartsAfter = Turn.livesLeft ledger scene (s, lives)
  left : t.session.livesRemaining = v.heartsAfter
  total : t.session.totalViolations = s.session.totalViolations + 1
  store : lives' = (Turn.asked ledger scene (s, lives)).2
  id : t.session.id = s.session.id
  /-- The last life disqualifies. -/
  last : v.heartsAfter = 0 → t.session.status = .disqualified
  /-- So does what would have been the last life without the ledger, and nothing else. -/
  status : t.session.status = .disqualified → v.heartsAfter = 0 ∨ s.session.livesRemaining = 1

/-- The end of a session changes the status, and leaves the accounts. -/
theorem ended_accounts {s : Sitting} (reason : Reason) (time : Stamp)
    (h : s.session.isActive = true) :
    (s.ended reason time).session.livesRemaining = s.session.livesRemaining ∧
      (s.ended reason time).session.totalViolations = s.session.totalViolations ∧
      (s.ended reason time).session.id = s.session.id ∧
      (s.ended reason time).session.status = reason.outcome := by
  rw [ended, Session.finish_active h]
  exact ⟨rfl, rfl, rfl, rfl⟩

theorem status_of_active {s : Sitting} (h : s.session.isActive = true) :
    s.session.status ≠ .disqualified := by
  intro hstatus
  rw [Session.isActive, hstatus] at h
  cases h

/-- A penalty that ends the session under a condition. -/
theorem Paid.of_charged {u : Sitting} {v : Violation} {p : Prop} [Decidable p] {time : Stamp}
    (hactive : s.session.isActive = true) (halive : 0 < s.session.livesRemaining)
    (hsession : u.session = s.session) (hrecord : u.violations = s.violations)
    (hbefore : v.heartsBefore = s.session.livesRemaining)
    (hafter : v.heartsAfter = Turn.livesLeft ledger scene (s, lives))
    (hlast : v.heartsAfter = 0 → p) (hends : p → v.heartsAfter = 0 ∨ s.session.livesRemaining = 1) :
    Paid ledger scene s lives ((u.charged v).endedIf p .livesExhausted time)
      (Turn.asked ledger scene (s, lives)).2 v := by
  have hcharged : (u.charged v).session.isActive = true := by
    rw [← hsession] at hactive
    exact hactive
  have hviolations : (u.charged v).violations = s.violations ++ [v] := by rw [← hrecord]; rfl
  have htotal : (u.charged v).session.totalViolations = s.session.totalViolations + 1 := by
    rw [← hsession]; rfl
  have hid : (u.charged v).session.id = s.session.id := by rw [← hsession]; rfl
  by_cases hp : p
  · obtain ⟨hlives, htotal', hid', hstatus⟩ := ended_accounts .livesExhausted time hcharged
    rw [endedIf, if_pos hp]
    exact ⟨halive, hviolations, hbefore, hafter, hlives, htotal'.trans htotal, rfl, hid'.trans hid,
      fun _ => hstatus, fun _ => hends hp⟩
  · rw [endedIf, if_neg hp]
    exact ⟨halive, hviolations, hbefore, hafter, rfl, htotal, rfl, hid,
      fun h => absurd (hlast h) hp, fun h => absurd h (status_of_active hcharged)⟩

/-- A change that leaves the session alone costs no life. -/
theorem Free.of_session {x : Stimulus} (hactive : t.session.isActive = true → s.session.isActive = true)
    (hsession : t.session = s.session) (hrecord : t.violations = s.violations) :
    Free s lives x t lives := by
  constructor
  case record => exact hrecord
  case left => rw [hsession]
  case total => rw [hsession]
  case store => rfl
  case id => rw [hsession]
  case active => exact hactive
  case status =>
    refine fun h => Or.inl ?_
    rw [← hsession]
    exact h

/-- The end of a session for a reason other than its lives costs no life. -/
theorem Free.of_ended {u : Sitting} {x : Stimulus} {reason : Reason} {time : Stamp}
    (hactive : s.session.isActive = true) (hsession : u.session = s.session)
    (hrecord : u.violations = s.violations)
    (hreason : reason = .livesExhausted → x = .submit .livesExhausted) :
    Free s lives x (u.ended reason time) lives := by
  have hgoes : u.session.isActive = true := by rw [hsession, hactive]
  obtain ⟨hleft, htotal, hid, hstatus⟩ := ended_accounts reason time hgoes
  rw [hsession] at hleft htotal hid
  refine ⟨hrecord, hleft, htotal, rfl, hid, fun _ => hactive, fun h => Or.inr (hreason ?_)⟩
  rw [hstatus] at h
  cases reason with
  | livesExhausted => rfl
  | user => cases h
  | timeExpired => cases h

/-- **Every change costs one life, or none.** -/
theorem Change.accounts (h : Change ledger scene s lives x t lives') (hrun : s.isRunning = true) :
    Free s lives x t lives' ∨ ∃ v, Paid ledger scene s lives t lives' v := by
  have hactive := isActive_of_isRunning hrun
  cases h with
  | quiet => exact Or.inl (.of_session id rfl rfl)
  | opened => exact Or.inl (.of_session id rfl rfl)
  | recovered => exact Or.inl (.of_session id rfl rfl)
  | clipped signal kind use alive =>
    exact Or.inr ⟨_, .of_charged hactive alive rfl rfl rfl rfl id Or.inl⟩
  | penalized g pending alive =>
    exact Or.inr ⟨_, .of_charged hactive alive rfl rfl rfl rfl Or.inl id⟩
  | excused => exact Or.inl (.of_session id rfl rfl)
  | expired tick => exact Or.inl (.of_ended hactive rfl rfl nofun)
  | submitted reason => exact Or.inl (.of_ended hactive rfl rfl (congrArg Stimulus.submit))
  | shut => exact Or.inl (.of_session id rfl rfl)

end Sitting

/-! ## The answers of the ledger -/

/-- Once a life was not taken, none is taken any more. -/
def Steady (taken : List Bool) : Prop :=
  taken.Pairwise fun earlier later => later = true → earlier = true

instance (taken : List Bool) : Decidable (Steady taken) :=
  inferInstanceAs (Decidable (taken.Pairwise fun earlier later => later = true → earlier = true))

theorem steady_of_forall {taken : List Bool} (h : ∀ b ∈ taken, b = true) : Steady taken :=
  List.pairwise_of_forall_mem_list fun a ha _ _ _ => h a ha

theorem steady_append_false {taken : List Bool} : Steady (taken ++ [false]) ↔ Steady taken := by
  unfold Steady
  rw [List.pairwise_append]
  constructor
  · intro h
    exact h.1
  · intro h
    refine ⟨h, List.pairwise_singleton _ _, fun earlier _ later hlater hback => ?_⟩
    rw [List.mem_singleton.mp hlater] at hback
    cases hback

theorem steady_append_true {taken : List Bool} :
    Steady (taken ++ [true]) ↔ taken.count true = taken.length := by
  unfold Steady
  rw [List.pairwise_append, List.count_eq_length]
  constructor
  · rintro ⟨-, -, hall⟩ b hb
    exact (hall b hb true (List.mem_singleton_self _) rfl).symm
  · intro hall
    refine ⟨steady_of_forall fun a ha => (hall a ha).symm,
      List.pairwise_singleton _ _, fun a ha _ _ _ => (hall a ha).symm⟩

theorem Steady.of_append {taken more : List Bool} (h : Steady (taken ++ more)) : Steady taken :=
  (List.pairwise_append.mp h).1

/-- The accounts of a session that began with so many lives are in order after a moment, and every
penalty of the moment took one life. -/
structure Moment.Accounted {σ : Type} (m : Nat) (x : Moment σ) : Prop where
  /-- A penalty takes exactly one life. -/
  single : ∀ v, x.after.1.violations = x.before.1.violations ++ [v] →
    v.heartsBefore = x.before.1.session.livesRemaining ∧
      v.heartsAfter + 1 = v.heartsBefore ∧ x.after.1.session.livesRemaining = v.heartsAfter
  /-- No life comes back. -/
  falling : x.after.1.session.livesRemaining ≤ x.before.1.session.livesRemaining
  /-- The lives that are gone are the penalties that were counted. -/
  balance : x.after.1.session.livesRemaining + x.after.1.session.totalViolations = m
  /-- The penalty that takes the last life disqualifies, and nothing else does, unless the stimulus
  says so itself. -/
  last : x.before.1.session.isActive = true → x.cue.stimulus ≠ .submit .livesExhausted →
    (x.after.1.session.status = .disqualified ↔
      ∃ v, x.after.1.violations = x.before.1.violations ++ [v] ∧ v.heartsAfter = 0)

namespace Turn

variable {σ : Type}

/-- Whether the ledger took the life, for every penalty of a history. -/
def answers (ledger : LivesLedger σ) (h : List (Moment σ)) : List Bool :=
  h.flatMap fun m =>
    if m.after.1.violations = m.before.1.violations then []
    else [(asked ledger m.cue.scene m.before).1.isOk]

theorem answers_append (ledger : LivesLedger σ) (h : List (Moment σ)) (m : Moment σ) :
    answers ledger (h ++ [m]) = answers ledger h ++ answers ledger [m] :=
  List.flatMap_append

/-- What is steady was steady before. -/
theorem steady_before {ledger : LivesLedger σ} {h : List (Moment σ)} {m : Moment σ}
    (hsteady : Steady (answers ledger (h ++ [m]))) : Steady (answers ledger h) := by
  rw [answers_append] at hsteady
  exact hsteady.of_append

/-- The lives of a session that the ledger knows of. -/
def known (view : σ → String → Option LivesState) (m : Nat) (s : Sitting × σ) : Nat :=
  Ledger.remaining view m (.session s.1.session.id) s.2

variable {store : LivesStore σ} {view : σ → String → Option LivesState} {m : Nat}

/-- What a penalty does to the accounts, with the ledger and without. -/
theorem paid_cases (hh : store.Honest view) {scene : Scene} {s t : Sitting × σ} {v : Violation}
    (hp : Sitting.Paid (.lasting store m) scene s.1 s.2 t.1 t.2 v) :
    ((asked (.lasting store m) scene s).1.isOk = true ∧ v.heartsAfter = known view m s - 1 ∧
        known view m t = known view m s - 1) ∨
      ((asked (.lasting store m) scene s).1.isOk = false ∧
        v.heartsAfter = s.1.session.livesRemaining - 1 ∧ known view m t = known view m s) := by
  have hknown : known view m t =
      Ledger.remaining view m (.session s.1.session.id) (asked (.lasting store m) scene s).2 := by
    rw [known, hp.id, hp.store]
  have hafter := hp.after
  rw [hknown]
  -- one answer of the ledger settles both the count on record and its own
  obtain ⟨u, ⟨state, hasked, hleft, hremaining⟩ | ⟨⟨fault, hasked⟩, hremaining⟩⟩ :=
    Ledger.loseLife_cases (m := m) hh scene.looked scene.lost (.session s.1.session.id) s.2
  · have hanswer : asked (.lasting store m) scene s = (.ok state, u) := hasked
    rw [livesLeft, hanswer] at hafter
    rw [hanswer]
    exact Or.inl ⟨rfl, hafter.trans hleft, hremaining⟩
  · have hanswer : asked (.lasting store m) scene s = (.error fault, u) := hasked
    rw [livesLeft, hanswer] at hafter
    rw [hanswer]
    exact Or.inr ⟨rfl, hafter, hremaining⟩

/-- A moment costs a running sitting a life, or it costs none. -/
theorem moment_accounts (ledger : LivesLedger σ) {s : Sitting × σ} (hc : s.1.Coupled) (c : Cue) :
    Sitting.Free s.1 s.2 c.stimulus (moment ledger s c).after.1 (moment ledger s c).after.2 ∨
      s.1.isRunning = true ∧ ∃ v, Sitting.Paid ledger c.scene s.1 s.2 (moment ledger s c).after.1
        (moment ledger s c).after.2 v := by
  cases hrun : s.1.isRunning with
  | true =>
    rcases (moment_change ledger c hrun hc).accounts hrun with hfree | hpaid
    · exact Or.inl hfree
    · exact Or.inr ⟨rfl, hpaid⟩
  | false =>
    rw [moment_over ledger c hrun]
    exact Or.inl (.of_session id rfl rfl)

/-! ## What holds with any answers -/

/-- The counts that agree in every run. -/
structure Tally (ledger : LivesLedger σ) (view : σ → String → Option LivesState) (m : Nat)
    (h : List (Moment σ)) (s : Sitting × σ) : Prop where
  coupled : s.1.Coupled
  /-- Every penalty has a record. -/
  total : s.1.session.totalViolations = s.1.violations.length
  /-- For every penalty the ledger was asked once. -/
  asked : (answers ledger h).length = s.1.violations.length
  /-- The ledger has counted the lives that it took. -/
  taken : known view m s + (answers ledger h).count true = m
  /-- The ledger does not run out before the session does. -/
  reach : s.1.session.isActive = true → 0 < s.1.session.livesRemaining → 0 < known view m s

theorem answers_free {ledger : LivesLedger σ} {s : Sitting × σ} {c : Cue}
    (h : List (Moment σ))
    (hfree : (moment ledger s c).after.1.violations = s.1.violations) :
    answers ledger (h ++ [moment ledger s c]) = answers ledger h := by
  have hnone : answers ledger [moment ledger s c] = [] := by
    have hsame : (moment ledger s c).after.1.violations = (moment ledger s c).before.1.violations :=
      hfree
    simp [answers, hsame]
  rw [answers_append, hnone, List.append_nil]

theorem answers_paid {ledger : LivesLedger σ} {s : Sitting × σ} {c : Cue} {v : Violation}
    (h : List (Moment σ))
    (hpaid : (moment ledger s c).after.1.violations = s.1.violations ++ [v]) :
    answers ledger (h ++ [moment ledger s c]) =
      answers ledger h ++ [(Turn.asked ledger c.scene s).1.isOk] := by
  have hone : answers ledger [moment ledger s c] = [(Turn.asked ledger c.scene s).1.isOk] := by
    have hmore : (moment ledger s c).after.1.violations ≠
        (moment ledger s c).before.1.violations := by
      rw [hpaid]
      exact fun hsame => List.cons_ne_nil v [] (List.append_right_eq_self.mp hsame)
    unfold answers
    rw [List.flatMap_singleton, if_neg hmore]
    rfl
  rw [answers_append, hone]

/-- The counts agree after one more moment. -/
theorem Tally.moment (hh : store.Honest view) {h : List (Moment σ)} {s : Sitting × σ}
    (ht : Tally (.lasting store m) view m h s) (c : Cue) :
    Tally (.lasting store m) view m (h ++ [moment (.lasting store m) s c])
      (moment (.lasting store m) s c).after := by
  have hcoupled : (Turn.moment (.lasting store m) s c).after.1.Coupled :=
    coupled_reached (.lasting store m) ht.coupled [c]
  rcases moment_accounts (.lasting store m) ht.coupled c with hfree | ⟨hrun, v, hpaid⟩
  · have hknown : known view m (Turn.moment (.lasting store m) s c).after = known view m s := by
      rw [known, hfree.id, hfree.store]
      rfl
    have hanswers := answers_free h hfree.record
    constructor
    case coupled => exact hcoupled
    case total =>
      rw [hfree.total, hfree.record]
      exact ht.total
    case asked =>
      rw [hanswers, hfree.record]
      exact ht.asked
    case taken =>
      rw [hanswers, hknown]
      exact ht.taken
    case reach =>
      intro hactive halive
      rw [hfree.left] at halive
      rw [hknown]
      exact ht.reach (hfree.active hactive) halive
  · -- the ledger knows of a life as the session has one, so a life taken is one less
    have hreach := ht.reach (Sitting.isActive_of_isRunning hrun) hpaid.alive
    have htaken := ht.taken
    have hanswers := answers_paid h hpaid.record
    constructor
    case coupled => exact hcoupled
    case total =>
      rw [hpaid.total, hpaid.record, List.length_append, ht.total]
      rfl
    case asked =>
      rw [hanswers, hpaid.record, List.length_append, List.length_append, ht.asked]
      rfl
    case taken =>
      rw [hanswers, List.count_append]
      rcases paid_cases hh hpaid with ⟨hok, _, hless⟩ | ⟨hfailed, _, hsame⟩
      · rw [hok, hless, List.count_singleton_self]
        omega
      · rw [hfailed, hsame, List.count_singleton, if_neg (by decide), Nat.add_zero]
        exact htaken
    case reach =>
      intro _ halive
      rw [hpaid.left] at halive
      rcases paid_cases hh hpaid with ⟨_, hafter, hless⟩ | ⟨_, _, hsame⟩
      · omega
      · omega

theorem tally_history (hh : store.Honest view) {s : Sitting × σ}
    (ht : Tally (.lasting store m) view m [] s) (cues : List Cue) :
    Tally (.lasting store m) view m (history (.lasting store m) s cues)
      (reached (.lasting store m) s cues) := by
  induction cues using List.reverseRecOn with
  | nil => exact ht
  | append_singleton cues c ih =>
    rw [history_concat, reached_concat]
    exact ih.moment hh c

/-! ## What holds with steady answers -/

/-- The lives of a session and the records of its penalties are in order. -/
structure Held (m : Nat) (s : Sitting) : Prop where
  balance : s.session.livesRemaining + s.session.totalViolations = m
  /-- Every penalty took one life, and they were taken one after the other. -/
  record : ∀ (i : Nat) v, s.violations[i]? = some v → v.heartsBefore + i = m ∧ v.heartsAfter + i + 1 = m

/-- **A penalty takes one life if the answers are steady, and not otherwise**, as long as the
accounts were in order before. -/
theorem heartsAfter_iff (hh : store.Honest view) {h : List (Moment σ)} {s : Sitting × σ} {c : Cue}
    {v : Violation} (ht : Tally (.lasting store m) view m h s)
    (hbalance : s.1.session.livesRemaining + s.1.session.totalViolations = m)
    (hsteady : Steady (answers (.lasting store m) h)) (hrun : s.1.isRunning = true)
    (hpaid : Sitting.Paid (.lasting store m) c.scene s.1 s.2
      (moment (.lasting store m) s c).after.1 (moment (.lasting store m) s c).after.2 v) :
    v.heartsAfter + 1 = s.1.session.livesRemaining ↔
      Steady (answers (.lasting store m) (h ++ [moment (.lasting store m) s c])) := by
  have hreach := ht.reach (Sitting.isActive_of_isRunning hrun) hpaid.alive
  have halive := hpaid.alive
  have htaken := ht.taken
  have hasked := ht.asked
  have htotal := ht.total
  rw [answers_paid h hpaid.record]
  rcases paid_cases hh hpaid with ⟨hok, hafter, _⟩ | ⟨hfailed, hafter, _⟩
  · -- the session takes the number of the ledger, which is behind by the answers that failed
    rw [hok, steady_append_true]
    omega
  · -- the session counts by itself, and an answer that failed unsettles nothing
    rw [hfailed, steady_append_false]
    exact ⟨fun _ => hsteady, fun _ => by omega⟩

/-- The accounts stay in order with steady answers. -/
theorem Held.moment (hh : store.Honest view) {h : List (Moment σ)} {s : Sitting × σ}
    (hheld : Held m s.1) (ht : Tally (.lasting store m) view m h s) (c : Cue)
    (hsteady : Steady (answers (.lasting store m) (h ++ [moment (.lasting store m) s c]))) :
    Held m (moment (.lasting store m) s c).after.1 := by
  have hbalance := hheld.balance
  rcases moment_accounts (.lasting store m) ht.coupled c with hfree | ⟨hrun, v, hpaid⟩
  · refine ⟨?_, ?_⟩
    · rw [hfree.left, hfree.total]
      exact hbalance
    · rw [hfree.record]
      exact hheld.record
  · have hbefore := steady_before hsteady
    have hone := (heartsAfter_iff hh ht hbalance hbefore hrun hpaid).mpr hsteady
    have htotal := ht.total
    refine ⟨?_, fun i w hw => ?_⟩
    · rw [hpaid.left, hpaid.total]
      omega
    · rw [hpaid.record] at hw
      -- the penalties before are as they were, and the one behind them is new
      rcases Nat.lt_trichotomy i s.1.violations.length with hi | rfl | hi
      · rw [List.getElem?_append_left hi] at hw
        exact hheld.record i w hw
      · rw [List.getElem?_concat_length, Option.some.injEq] at hw
        have hpaidBefore := hpaid.before
        subst hw
        exact ⟨by omega, by omega⟩
      · rw [List.getElem?_eq_none (by simp; omega)] at hw
        cases hw

theorem held_history (hh : store.Honest view) {s : Sitting × σ} (hheld : Held m s.1)
    (ht : Tally (.lasting store m) view m [] s) (cues : List Cue)
    (hsteady : Steady (answers (.lasting store m) (history (.lasting store m) s cues))) :
    Held m (reached (.lasting store m) s cues).1 := by
  induction cues using List.reverseRecOn with
  | nil => exact hheld
  | append_singleton cues c ih =>
    rw [history_concat] at hsteady
    rw [reached_concat]
    have hbefore := steady_before hsteady
    exact (ih hbefore).moment hh (tally_history hh ht cues) c hsteady

/-! ## When the accounts are in order -/

/-- A moment that costs nothing leaves the accounts in order. -/
theorem accounted_free {ledger : LivesLedger σ} {s : Sitting × σ} {c : Cue}
    (hbalance : s.1.session.livesRemaining + s.1.session.totalViolations = m)
    (hfree : Sitting.Free s.1 s.2 c.stimulus (moment ledger s c).after.1
      (moment ledger s c).after.2) :
    (moment ledger s c).Accounted m := by
  have hnone : ∀ v, (moment ledger s c).after.1.violations ≠ s.1.violations ++ [v] := by
    intro v hv
    rw [hfree.record] at hv
    exact List.cons_ne_nil v [] (List.append_right_eq_self.mp hv.symm)
  constructor
  case single => exact fun v hv => absurd hv (hnone v)
  case falling => exact Nat.le_of_eq hfree.left
  case balance =>
    rw [hfree.left, hfree.total]
    exact hbalance
  case last =>
    intro hactive hx
    constructor
    · intro hstatus
      rcases hfree.status hstatus with hbefore | hsubmit
      · exact absurd hbefore (Sitting.status_of_active hactive)
      · exact absurd hsubmit hx
    · rintro ⟨v, hv, _⟩
      exact absurd hv (hnone v)

/-- A penalty leaves the accounts in order if it takes one life, and not otherwise. -/
theorem accounted_paid {ledger : LivesLedger σ} {s : Sitting × σ} {c : Cue} {v : Violation}
    (hbalance : s.1.session.livesRemaining + s.1.session.totalViolations = m)
    (hpaid : Sitting.Paid ledger c.scene s.1 s.2 (moment ledger s c).after.1
      (moment ledger s c).after.2 v) :
    (moment ledger s c).Accounted m ↔ v.heartsAfter + 1 = s.1.session.livesRemaining := by
  have hleft := hpaid.left
  have htotal := hpaid.total
  have hbefore := hpaid.before
  constructor
  · intro h
    have hafter := h.balance
    omega
  · intro hone
    -- a moment adds one penalty at most, so there is no other to account for
    have honly : ∀ w, (moment ledger s c).after.1.violations = s.1.violations ++ [w] → w = v := by
      intro w hw
      rw [hpaid.record] at hw
      exact (List.singleton_inj.mp (List.append_cancel_left hw)).symm
    constructor
    case single =>
      intro w hw
      rw [honly w hw]
      exact ⟨hbefore, by omega, hleft⟩
    case falling =>
      have hless : (moment ledger s c).after.1.session.livesRemaining ≤
          s.1.session.livesRemaining := by omega
      exact hless
    case balance => omega
    case last =>
      intro _ _
      constructor
      · intro hstatus
        refine ⟨v, hpaid.record, ?_⟩
        rcases hpaid.status hstatus with hzero | hlast
        · exact hzero
        · omega
      · rintro ⟨w, hw, hzero⟩
        rw [honly w hw] at hzero
        exact hpaid.last hzero

/-- **The accounts are in order in exactly the runs in which the answers are steady.** -/
theorem accounted_iff (hh : store.Honest view) {s : Sitting × σ} (hheld : Held m s.1)
    (ht : Tally (.lasting store m) view m [] s) (cues : List Cue) :
    (∀ x ∈ history (.lasting store m) s cues, x.Accounted m) ↔
      Steady (answers (.lasting store m) (history (.lasting store m) s cues)) := by
  induction cues using List.reverseRecOn with
  | nil =>
    refine iff_of_true (fun x hx => ?_) .nil
    rw [history_nil] at hx
    cases hx
  | append_singleton cues c ih =>
    have htally := tally_history hh ht cues
    have hsplit : ∀ P : Moment σ → Prop,
        (∀ x ∈ history (.lasting store m) s (cues ++ [c]), P x) ↔
          (∀ x ∈ history (.lasting store m) s cues, P x) ∧
            P (moment (.lasting store m) (reached (.lasting store m) s cues) c) := by
      intro P
      rw [history_concat]
      simp only [List.forall_mem_append, List.forall_mem_singleton]
    rw [hsplit, ih, history_concat]
    -- whichever side is assumed, the answers so far are steady
    by_cases hsteady : Steady (answers (.lasting store m) (history (.lasting store m) s cues))
    · have hbalance := (held_history hh hheld ht cues hsteady).balance
      rcases moment_accounts (.lasting store m) htally.coupled c with hfree | ⟨hrun, v, hpaid⟩
      · rw [answers_free _ hfree.record]
        exact and_iff_left (accounted_free hbalance hfree)
      · rw [accounted_paid hbalance hpaid,
          ← heartsAfter_iff hh htally hbalance hsteady hrun hpaid]
        exact and_iff_right hsteady
    · exact iff_of_false (fun h => hsteady h.1) (fun h => hsteady (steady_before h))

theorem held_opened (session : Session) (answers : List Answer) (pace : Pace) (now : Instant)
    (hleft : session.livesRemaining = m) (htotal : session.totalViolations = 0) :
    Held m (.opened session answers pace now) := by
  rw [Sitting.opened_eq]
  refine ⟨?_, nofun⟩
  dsimp only
  omega

/-- A new session over a store that knows nothing of it has all its lives. -/
theorem tally_opened (store : LivesStore σ) {view : σ → String → Option LivesState}
    (session : Session) (answers : List Answer) (pace : Pace) (now : Instant) (lives : σ)
    (hactive : session.isActive = true) (hleft : session.livesRemaining = m)
    (htotal : session.totalViolations = 0)
    (hnew : view lives (Bucket.session session.id).key = none) :
    Tally (.lasting store m) view m [] (.opened session answers pace now, lives) := by
  have hcoupled := Sitting.coupled_opened answers pace now hactive
  have hknown : known view m (.opened session answers pace now, lives) = m := by
    rw [known, Ledger.remaining, Sitting.opened_eq, hnew]
  constructor
  case coupled => exact hcoupled
  case total => exact htotal
  case asked => rfl
  case taken =>
    rw [hknown]
    rfl
  case reach =>
    intro _ halive
    rw [hknown, ← hleft]
    exact halive

/-- **What outages do to the count of the penalties.** Let any calls of the store fail. The accounts
of a session are in order at every moment of a run if and only if the ledger takes no life any more
once it has failed to take one. -/
theorem accounted_iff_steady (fails : Nat → Bool) (id userId : String) (language : Language)
    (questions : Trio String) (m : Nat) (started : Stamp) (answered : List Answer) (pace : Pace)
    (now : Instant) (cues : List Cue) :
    (∀ x ∈ history (.lasting (Shelf.store.interrupted fails) m)
        (.opened (.begin id userId language questions m started) answered pace now, (.empty, 0)) cues,
      x.Accounted m) ↔
    Steady (answers (.lasting (Shelf.store.interrupted fails) m)
      (history (.lasting (Shelf.store.interrupted fails) m)
        (.opened (.begin id userId language questions m started) answered pace now, (.empty, 0))
        cues)) := by
  have hheld := held_opened (.begin id userId language questions m started) answered pace now rfl rfl
  have ht : Tally (.lasting (Shelf.store.interrupted fails) m) (fun s : Shelf × Nat => s.1.find?) m
      [] _ :=
    tally_opened _ (.begin id userId language questions m started) answered pace now (.empty, 0) rfl
      rfl rfl rfl
  exact accounted_iff (Shelf.store_honest.interrupted fails) hheld ht cues

/-- The first look at the store fails. The session takes the life by itself, the ledger does not
hear of it, and the next penalty costs nothing. -/
theorem not_accounted_after_outage :
    ¬∀ x ∈ history (.lasting (Shelf.store.interrupted (· == 0)) 3)
        (Sitting.specimen 3, (.empty, 0)) [.at 0 (.signal .copy), .at 1000 (.signal .copy)],
      x.Accounted 3 := by
  intro h
  have hbalance := (h _ (List.mem_cons_of_mem _ List.mem_cons_self)).balance
  exact absurd hbalance (by decide +kernel)

/-! ## Without outages -/

/-- A store that is up stays up, and lets the ledger answer every time. -/
theorem answers_up {up : σ → Prop} (hr : store.Reliable up) {s : Sitting × σ}
    (hc : s.1.Coupled) (hup : up s.2) (cues : List Cue) :
    up (reached (.lasting store m) s cues).2 ∧
      ∀ b ∈ answers (.lasting store m) (history (.lasting store m) s cues), b = true := by
  induction cues using List.reverseRecOn with
  | nil => exact ⟨hup, nofun⟩
  | append_singleton cues c ih =>
    obtain ⟨hstays, hall⟩ := ih
    rw [reached_concat, history_concat]
    rcases moment_accounts (.lasting store m) (coupled_reached (.lasting store m) hc cues) c with
      hfree | ⟨_, v, hpaid⟩
    · rw [hfree.store, answers_free _ hfree.record]
      exact ⟨hstays, hall⟩
    · obtain ⟨state, t, hasked, hup'⟩ := Ledger.loseLife_up (m := m) hr c.scene.looked c.scene.lost
        (.session (reached (.lasting store m) s cues).1.session.id) hstays
      have hanswer : asked (.lasting store m) c.scene (reached (.lasting store m) s cues) =
          (.ok state, t) := hasked
      rw [hpaid.store, answers_paid _ hpaid.record]
      refine ⟨?_, fun b hb => ?_⟩
      · have hup'' : up (asked (.lasting store m) c.scene
            (reached (.lasting store m) s cues)).2 := by rwa [hanswer]
        exact hup''
      · rcases List.mem_append.mp hb with hb | hb
        · exact hall b hb
        · rw [List.mem_singleton.mp hb, hanswer]
          rfl

/-- **A session is disqualified when it has no life left, and only then**, as long as the answers
are steady and nobody hands it in as out of lives. -/
theorem disqualified_iff (hh : store.Honest view) {s : Sitting × σ} (hheld : Held m s.1)
    (ht : Tally (.lasting store m) view m [] s)
    (hstart : s.1.session.status = .disqualified ↔ s.1.session.livesRemaining = 0)
    (cues : List Cue) (hcues : ∀ c ∈ cues, c.stimulus ≠ .submit .livesExhausted)
    (hsteady : Steady (answers (.lasting store m) (history (.lasting store m) s cues))) :
    (reached (.lasting store m) s cues).1.session.status = .disqualified ↔
      (reached (.lasting store m) s cues).1.session.livesRemaining = 0 := by
  induction cues using List.reverseRecOn with
  | nil => exact hstart
  | append_singleton cues c ih =>
    rw [history_concat] at hsteady
    have hbefore := steady_before hsteady
    have hknown := ih (fun d hd => hcues d (List.mem_append_left _ hd)) hbefore
    have htally := tally_history hh ht cues
    rw [reached_concat]
    cases hrun : (reached (.lasting store m) s cues).1.isRunning with
    | false =>
      -- nothing reaches a sitting that is over, so the status stays with the lives
      rw [moment_over (.lasting store m) c hrun]
      exact hknown
    | true =>
      have hgoing := Sitting.status_of_active (Sitting.isActive_of_isRunning hrun)
      rcases moment_accounts (.lasting store m) htally.coupled c with hfree | ⟨_, v, hpaid⟩
      · refine iff_of_false (fun hstatus => ?_) (fun hzero => ?_)
        · rcases hfree.status hstatus with hstatus | hsubmit
          · exact hgoing hstatus
          · exact hcues c (List.mem_append_right _ (List.mem_singleton_self c)) hsubmit
        · rw [hfree.left] at hzero
          exact hgoing (hknown.mpr hzero)
      · have hbalance := (held_history hh hheld ht cues hbefore).balance
        have hone := (heartsAfter_iff hh htally hbalance hbefore hrun hpaid).mpr hsteady
        rw [hpaid.left]
        refine ⟨fun hstatus => ?_, hpaid.last⟩
        rcases hpaid.status hstatus with hzero | hlast
        · exact hzero
        · omega

/-- The lives of a session, of its ledger and of its records agree. -/
structure InOrder (ledger : LivesLedger σ) (m : Nat) (s : Sitting × σ) : Prop where
  balance : s.1.session.livesRemaining + s.1.session.totalViolations = m
  total : s.1.violations.length = s.1.session.totalViolations
  /-- Every penalty found what those before it had left, and left one less. -/
  record : ∀ (i : Nat) v, s.1.violations[i]? = some v →
    v.heartsBefore + i = m ∧ v.heartsAfter + i + 1 = m
  /-- Whenever the ledger is asked, it says the same as the session. -/
  ledger : ∀ now, ((Ledger.currentLives ledger.store ledger.rules now
    (.session s.1.session.id)).run s.2).1.1 = .ok s.1.session.livesRemaining
  ends : s.1.session.livesRemaining = 0 ↔ s.1.session.status = .disqualified
  alive : s.1.session.isActive = true → 0 < s.1.session.livesRemaining

/-- With a store that never fails, all accounts agree at every point of a run. -/
theorem inOrder_reached {up : σ → Prop} (hh : store.Honest view) (hr : store.Reliable up)
    {s : Sitting × σ} (hheld : Held m s.1) (ht : Tally (.lasting store m) view m [] s)
    (hstart : s.1.session.status = .disqualified ↔ s.1.session.livesRemaining = 0)
    (hup : up s.2) (cues : List Cue) (hcues : ∀ c ∈ cues, c.stimulus ≠ .submit .livesExhausted) :
    InOrder (.lasting store m) m (reached (.lasting store m) s cues) := by
  obtain ⟨hstays, hall⟩ := answers_up (m := m) hr ht.coupled hup cues
  have hsteady := steady_of_forall hall
  have hheld' := held_history hh hheld ht cues hsteady
  have ht' := tally_history hh ht cues
  have hends := disqualified_iff hh hheld ht hstart cues hcues hsteady
  -- the ledger took a life for every penalty, so it knows of as many as the session
  have hknown : known view m (reached (.lasting store m) s cues) =
      (reached (.lasting store m) s cues).1.session.livesRemaining := by
    have hbalance := hheld'.balance
    have htaken := ht'.taken
    have htotal := ht'.total
    have hasked := ht'.asked
    have hcount := List.count_eq_length.mpr fun b hb => (hall b hb).symm
    omega
  constructor
  case balance => exact hheld'.balance
  case total => exact ht'.total.symm
  case record => exact hheld'.record
  case ledger =>
    intro now
    rw [← hknown]
    exact Ledger.currentLives_up hh hr now _ hstays
  case ends => exact hends.symm
  case alive =>
    intro hactive
    exact Nat.pos_of_ne_zero fun hzero => Sitting.status_of_active hactive (hends.mpr hzero)

end Turn

end Invigilator
