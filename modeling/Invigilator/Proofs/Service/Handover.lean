import Invigilator.Proofs.Service.Answers
import Invigilator.Proofs.Service.Privacy

/-!
# Sessions are handed over

Whoever misses a session among those that run, or gets no answer from it, finds it filed. This is
followed along the run of a single inquiry, from one advance to the next: `Fair` is what holds of
any inquiry of an owner, `Lost` of one that got no answer, and `Late` of one that came after the
end of its session had been told. The order of the floor does the rest.
-/

namespace Invigilator

/-! ## Replies -/

namespace Turn

variable {σ : Type} {s : Sitting × σ}

theorem value_updateAnswer (index : Nat) (code : String) :
    (updateAnswer index code : Turn σ (Except Fault Answer)).value s ≠ .error .sessionNotFound := by
  unfold updateAnswer
  rw [value_bind, value_sitting, after_sitting]
  split
  · split
    · exact nofun
    · exact nofun
  · exact nofun

theorem value_recordRun (scene : Scene) (index : Nat) (result : RunResult) :
    (recordRun scene index result : Turn σ (Except Fault Answer)).value s ≠
      .error .sessionNotFound := by
  unfold recordRun
  rw [value_bind, value_sitting, after_sitting]
  split
  · split
    · split
      · exact nofun
      · split
        · exact nofun
        · exact nofun
    · exact nofun
  · exact nofun

/-- A submission is refused, or answered with what it leaves. -/
theorem value_submit (scene : Scene) (reason : Reason) :
    (∃ seconds, (submit scene reason : Turn σ (Except Fault Snapshot)).value s =
        .error (.submitLocked seconds)) ∨
      (submit scene reason : Turn σ (Except Fault Snapshot)).value s =
        .ok ((submit scene reason : Turn σ (Except Fault Snapshot)).after s).1.snapshot := by
  unfold submit
  rw [value_bind, after_bind, value_sitting, after_sitting]
  split
  · split
    · exact .inl ⟨_, rfl⟩
    · exact .inr rfl
  · exact .inr rfl

end Turn

/-- What a running session replies: never that it is not known, and if it shows a session, then the
one it has come to. -/
theorem Inquiry.reply_current {σ : Type} (ledger : LivesLedger σ) (scene : Scene)
    {s : Sitting × σ} (hrun : s.1.isRunning = true) {inquiry : Inquiry} {x : Stimulus}
    (hx : inquiry.stimulus? = some x) {id : String} {result : Except Fault Told}
    (hresult : inquiry.ofReply? id ((Turn.step ledger scene x).value s) = some result) :
    result ≠ .error .sessionNotFound ∧
      ∀ t, result = .ok (.snapshot t) →
        t.session = ((Turn.step ledger scene x).after s).1.session := by
  rw [Turn.value_step_running ledger scene x hrun] at hresult
  rw [Turn.after_step_running ledger scene x hrun]
  cases inquiry with
  | subscribe eager => cases hx
  | snapshot =>
    obtain rfl := Option.some.inj hx
    have hshown : result = .ok (.snapshot s.1.snapshot) := (Option.some.inj hresult).symm
    refine ⟨by simp [hshown], fun t ht => ?_⟩
    rw [← Told.snapshot.inj (Except.ok.inj (hshown.symm.trans ht))]
    rfl
  | score =>
    obtain rfl := Option.some.inj hx
    have hscored : result = .ok (.score (Score.ofAnswers id s.1.snapshot.answers)) :=
      (Option.some.inj hresult).symm
    simp [hscored]
  | signal signal =>
    obtain rfl := Option.some.inj hx
    have houtcome : result = .ok (.outcome ((Turn.onSignal ledger scene signal).value s)) :=
      (Option.some.inj hresult).symm
    simp [houtcome]
  | updateAnswer index code =>
    obtain rfl := Option.some.inj hx
    have hanswer : result = ((Turn.updateAnswer index code).value s).map .answer :=
      (Option.some.inj hresult).symm
    -- the faults of an answer pass through as they are, and an unknown session is not among them
    have hknown := Turn.value_updateAnswer (s := s) index code
    cases hvalue : (Turn.updateAnswer index code).value s with
    | ok answer => simp [hanswer, hvalue, Except.map]
    | error fault =>
      rw [hvalue] at hknown
      simpa [hanswer, hvalue, Except.map] using hknown
  | recordRun index run =>
    obtain rfl := Option.some.inj hx
    have hanswer : result = ((Turn.recordRun scene index run).value s).map .answer :=
      (Option.some.inj hresult).symm
    have hknown := Turn.value_recordRun (s := s) scene index run
    cases hvalue : (Turn.recordRun scene index run).value s with
    | ok answer => simp [hanswer, hvalue, Except.map]
    | error fault =>
      rw [hvalue] at hknown
      simpa [hanswer, hvalue, Except.map] using hknown
  | submit =>
    obtain rfl := Option.some.inj hx
    have hsubmitted : result = ((Turn.submit scene .user).value s).map .snapshot :=
      (Option.some.inj hresult).symm
    have hafter : (Turn.handle ledger scene (.submit .user)).after s =
        (Turn.submit scene .user : Turn σ (Except Fault Snapshot)).after s := rfl
    -- what a submission replies is the very snapshot that it leaves
    rcases Turn.value_submit (s := s) scene .user with ⟨seconds, hvalue⟩ | hvalue
    · simp [hsubmitted, hvalue, Except.map]
    · rw [hvalue] at hsubmitted
      refine ⟨by simp [hsubmitted, Except.map], fun t ht => ?_⟩
      rw [hafter, ← Told.snapshot.inj (Except.ok.inj (hsubmitted.symm.trans ht))]
      rfl

/-- The inquiry shows the session that it is about. -/
def Inquiry.shows : Inquiry → Bool
  | snapshot => true
  | score => false
  | updateAnswer .. => false
  | recordRun .. => false
  | signal _ => false
  | submit => true
  | subscribe _ => false

theorem Inquiry.told_of_shows {inquiry : Inquiry} (h : inquiry.shows = true) :
    inquiry.stimulus? ≠ none ∧ inquiry.goesOn = true := by
  cases inquiry with
  | snapshot | submit => exact ⟨nofun, rfl⟩
  | score | updateAnswer | recordRun | signal | subscribe => cases h

theorem Inquiry.ofFinal_of_shows {inquiry : Inquiry} (h : inquiry.shows = true) (id : String)
    (s : Snapshot) : inquiry.ofFinal id s = .ok (.snapshot s) := by
  cases inquiry with
  | snapshot | submit => rfl
  | score | updateAnswer | recordRun | signal | subscribe => cases h

/-! ## The inquiries of owners -/

namespace Floor

variable {σ : Type} {ids : Nat → String} {f g : Floor σ}

/-- The user sits this exam. -/
def SitsAt (f : Floor σ) (id userId : String) : Prop :=
  ∃ r ∈ f.hall.registry.active, r.sessionId = id ∧ r.userId = userId

/-- What the result of an inquiry says of the session: if that is not known, it was evicted, and if
a session that has ended is shown, it has come to that. -/
def Owed (f : Floor σ) (id : String) : Except Fault Told → Prop
  | .error .sessionNotFound => f.Evicted id
  | .ok (.snapshot s) => s.session.isActive = false → f.Settled id s.session
  | _ => True

/-- What the stage of an inquiry says of its session. -/
def Fair (f : Floor σ) (id : String) : QueryStage → Prop
  | .looking => True
  | .sending => True
  | .waiting => True
  | .replied result => f.Owed id result
  | .unanswered => id ∈ f.filed
  | .searching => id ∈ f.filed
  | .reading => f.Evicted id
  | .done result => f.Owed id result

theorem owed_of_evicted {id : String} (he : f.Evicted id) (result : Except Fault Told) :
    f.Owed id result := by
  unfold Owed
  split
  · exact he
  · exact fun _ => .inl he
  · trivial

theorem owed_of_known {id : String} {result : Except Fault Told}
    (hknown : result ≠ .error .sessionNotFound)
    (hshown : ∀ s, result = .ok (.snapshot s) → s.session.isActive = false →
      f.Settled id s.session) : f.Owed id result := by
  unfold Owed
  split
  · exact absurd rfl hknown
  · exact hshown _ rfl
  · trivial

namespace Sound

variable (h : f.Sound ids) (hinjective : Function.Injective ids)
include h hinjective

theorem owed_shift (hs : f.Shift g) {id : String} {result : Except Fault Told}
    (howed : f.Owed id result) : g.Owed id result := by
  unfold Owed at howed ⊢
  split at howed
  · exact h.evicted_shift hs howed
  · exact fun hover => h.settled_shift hinjective hs (howed hover)
  · trivial

theorem fair_shift (hs : f.Shift g) {id : String} {stage : QueryStage} (hfair : f.Fair id stage) :
    g.Fair id stage := by
  cases stage with
  | looking | sending | waiting => trivial
  | replied result | done result => exact h.owed_shift hinjective hs hfair
  | unanswered | searching => exact h.filed_subset hs hfair
  | reading => exact h.evicted_shift hs hfair

omit hinjective in
/-- A session that its owner does not find running was filed. -/
theorem filed_of_gone {id userId : String} {stage : DeskStage} (hat : f.At id userId stage)
    (hgone : f.hall.registry.find? id = none) : id ∈ f.filed := by
  refine (h.filed id).mpr ⟨userId, stage, hat, DeskStage.isFiled_of_unregistered ?_⟩
  cases hstage : stage.isRegistered with
  | false => rfl
  | true =>
    obtain ⟨r, hfind, -⟩ := h.exists_find? hat hstage
    rw [hgone] at hfind
    cases hfind

omit hinjective in
/-- A session is among those that run, or in the archive, or evicted. -/
theorem kept {id userId : String} {stage : DeskStage} (hat : f.At id userId stage) :
    f.SitsAt id userId ∨
    (∃ s, f.hall.registry.archive.find? id = some s ∧ s.session.isActive = false ∧
      s.session.userId = userId) ∨ f.Evicted id := by
  cases hregistered : stage.isRegistered with
  | true =>
    obtain ⟨r, hfind, huser⟩ := h.exists_find? hat hregistered
    exact .inl ⟨r, List.mem_of_find?_eq_some hfind, Registry.sessionId_of_find? hfind, huser⟩
  | false =>
    refine .inr ?_
    have hfiled := (h.filed id).mpr
      ⟨userId, stage, hat, DeskStage.isFiled_of_unregistered hregistered⟩
    cases harchived : f.hall.registry.archive.find? id with
    | some s => exact .inl ⟨s, rfl, h.final_of_find? hat harchived⟩
    | none => exact .inr (h.evicted_of_absent hfiled harchived)

/-- What the archive has of a session answers its owner. -/
theorem owed_ofFinal (hs : f.Shift g) {id : String} {s : Snapshot}
    (harchived : f.hall.registry.archive.find? id = some s) (inquiry : Inquiry) :
    g.Owed id (inquiry.ofFinal id s) := by
  have hsettled : g.Settled id s.session :=
    h.settled_shift hinjective hs (.inr (.inl ⟨s, Archive.mem_of_find? harchived, rfl⟩))
  cases inquiry with
  | snapshot | submit => exact fun _ => hsettled
  | score | updateAnswer | recordRun | signal | subscribe => trivial

/-- **An inquiry of an owner stays fair**, whatever becomes of it. -/
theorem fair_advance (hs : f.Shift g) {k : Nat} {q : Query} {stage : QueryStage} {own : DeskStage}
    (hown : f.At q.id q.userId own) (hfair : f.Fair q.id q.stage) (ha : f.Advance g k q stage) :
    g.Fair q.id stage := by
  have hg := h.shift hinjective hs
  cases ha with
  | refused was found other => exact absurd (h.userId_of_find? hown found) other
  | missed was gone => exact h.filed_subset hs (h.filed_of_gone hown gone)
  | addressed was => trivial
  | subscribed was untold number => trivial
  | returned was closed => exact h.filed_subset hs ((h.filed q.id).mpr ⟨_, _, closed, rfl⟩)
  | sent was => trivial
  | @replied was _ r x reply result here found live told turned read =>
    have hturn := Hall.turn_of_find? found x
    have hreply := congrArg Prod.fst (turned.symm.trans hturn)
    rw [Option.some.inj hreply] at read
    obtain ⟨hknown, hshown⟩ := Inquiry.reply_current (Hall.ledger r.value) (f.hall.scene r.value)
      (s := (r.value.sitting, r.value.lives)) live told read
    refine owed_of_known hknown fun s hresult hover => ?_
    -- the session that is shown is the one that the turn has left at the seat
    obtain ⟨hregistry, -⟩ := Hall.turn_effect found x
    rw [turned] at hregistry
    have hseat := Registry.find?_update_self found { r.value with
      sitting := ((Turn.step (Hall.ledger r.value) (f.hall.scene r.value) x).after
        (r.value.sitting, r.value.lives)).1
      lives := ((Turn.step (Hall.ledger r.value) (f.hall.scene r.value) x).after
        (r.value.sitting, r.value.lives)).2 }
    rw [← hregistry] at hseat
    refine .inr (.inr ⟨_, hseat, ?_, (hshown s hresult).symm⟩)
    rw [Sitting.isRunning, ← hshown s hresult, hover, Bool.false_and]
  | dismissed was left => exact h.filed_subset hs ((h.filed q.id).mpr ⟨_, _, left, rfl⟩)
  | received was =>
    rw [was] at hfair
    exact h.owed_shift hinjective hs hfair
  | resumed was on =>
    rw [was] at hfair
    exact h.filed_subset hs hfair
  | dropped was off => trivial
  | found was archived owner => exact h.owed_ofFinal hinjective hs archived q.inquiry
  | strange was archived other => exact absurd (h.final_of_find? hown archived).2 other
  | unfiled was absent =>
    rw [was] at hfair
    exact h.evicted_shift hs (h.evicted_of_absent hfair absent)
  | read was result =>
    rw [was] at hfair
    exact owed_of_evicted (h.evicted_shift hs hfair) result

end Sound

theorem exists_at_of_owns {id userId : String} (h : f.owns id userId = true) :
    ∃ stage, f.At id userId stage := by
  obtain ⟨d, hd, huser⟩ : ∃ d, f.desks id = some d ∧ d.userId = userId := by
    simpa [owns, Option.any_eq_true] using h
  exact ⟨d.stage, huser ▸ at_of_desk hd rfl⟩

theorem owns_of_at {id userId : String} {stage : DeskStage} (h : f.At id userId stage) :
    f.owns id userId = true := by
  obtain ⟨d, hd, hplace⟩ := Option.map_eq_some_iff.mp h
  have huser : d.userId = userId := congrArg Prod.fst hplace
  simp [owns, hd, huser]

/-- Every inquiry that came from an owner has its session on the floor, and is fair. -/
def AllFair (f : Floor σ) : Prop :=
  ∀ k q, f.queries k = some q → q.own = true →
    (∃ stage, f.At q.id q.userId stage) ∧ f.Fair q.id q.stage

namespace Sound

variable (h : f.Sound ids) (hinjective : Function.Injective ids)
include h hinjective

theorem allFair_step (hall : f.AllFair) (m : Move) : (f.step m).AllFair := by
  intro k q hq hown
  have hs := f.shift_step m
  rcases query_step hq with hbefore | ⟨-, howns, hstage⟩ | ⟨before, stage, hbefore, rfl, ha⟩
  · obtain ⟨⟨stage, hat⟩, hfair⟩ := hall k q hbefore hown
    exact ⟨h.at_shift hinjective hs hat, h.fair_shift hinjective hs hfair⟩
  · obtain ⟨stage, hat⟩ := exists_at_of_owns (howns.symm.trans hown)
    rw [hstage]
    exact ⟨h.at_shift hinjective hs hat, trivial⟩
  · obtain ⟨⟨own, hat⟩, hfair⟩ := hall k before hbefore hown
    exact ⟨h.at_shift hinjective hs hat, h.fair_advance hinjective hs (q := before) hat hfair ha⟩

theorem allFair_run (hall : f.AllFair) (moves : List Move) : (f.run moves).AllFair := by
  induction moves generalizing f with
  | nil => exact hall
  | cons m moves ih =>
    exact ih (h.step hinjective m) (h.allFair_step hinjective hall m)

end Sound

/-! ## Inquiries that get no answer -/

/-- What becomes of an inquiry of an owner that got no answer: the final snapshot in the archive
answers it, unless the session is evicted before it looks there. -/
def Lost (f : Floor σ) (q : Query) : QueryStage → Prop
  | .unanswered => True
  | .searching => True
  | .reading => f.Evicted q.id
  | .done result => f.Evicted q.id ∨ ∃ s, f.hall.registry.archive.find? q.id = some s ∧
      s.session.isActive = false ∧ s.session.userId = q.userId ∧ result = q.inquiry.ofFinal q.id s
  | _ => False

/-! ## Inquiries that come late -/

/-- An inquiry after a session that has come to this: as long as the session is not evicted, the
inquiry shows just that, when it is done. -/
def Late (f : Floor σ) (id : String) (session : Session) : QueryStage → Prop
  | .replied _ => f.Evicted id
  | .reading => f.Evicted id
  | .done result => f.Evicted id ∨ ∃ s, result = .ok (.snapshot s) ∧ s.session = session
  | _ => True

namespace Sound

variable (h : f.Sound ids)
include h

theorem lost_shift (hg : g.Sound ids) (hs : f.Shift g) {q : Query} {stage : QueryStage}
    (hlost : f.Lost q stage) : g.Lost q stage := by
  cases stage with
  | unanswered | searching => trivial
  | reading => exact h.evicted_shift hs hlost
  | done result =>
    rcases hlost with hevicted | ⟨s, hfind, hrest⟩
    · exact .inl (h.evicted_shift hs hevicted)
    · exact (h.find?_shift hg hs hfind).symm.imp_right fun hfind' => ⟨s, hfind', hrest⟩
  | looking | sending | waiting | replied => exact hlost.elim

theorem lost_advance (hg : g.Sound ids) (hs : f.Shift g) {k : Nat} {q : Query} {stage : QueryStage}
    {own : DeskStage} (hown : f.At q.id q.userId own) (hfair : f.Fair q.id q.stage)
    (hon : q.inquiry.goesOn = true) (hlost : f.Lost q q.stage) (ha : f.Advance g k q stage) :
    g.Lost q stage := by
  -- only who has missed the desk, or had no answer from it, can be lost
  cases ha with
  | refused was | missed was | addressed was | subscribed was | returned was | sent was
  | replied was | dismissed was | received was =>
    rw [was] at hlost
    exact hlost.elim
  | resumed was on => trivial
  | dropped was off =>
    rw [hon] at off
    cases off
  | @found s was archived owner =>
    obtain ⟨hover, huser⟩ := h.final_of_find? hown archived
    exact (h.find?_shift hg hs archived).symm.imp_right fun hfind => ⟨s, hfind, hover, huser, rfl⟩
  | strange was archived other => exact absurd (h.final_of_find? hown archived).2 other
  | unfiled was absent =>
    rw [was] at hfair
    exact h.evicted_shift hs (h.evicted_of_absent hfair absent)
  | read was result =>
    rw [was] at hlost
    exact .inl (h.evicted_shift hs hlost)

theorem late_shift (hs : f.Shift g) {id : String} {session : Session} {stage : QueryStage}
    (hlate : f.Late id session stage) : g.Late id session stage := by
  cases stage with
  | looking | sending | waiting | unanswered | searching => trivial
  | replied | reading => exact h.evicted_shift hs hlate
  | done result => exact hlate.imp_left (h.evicted_shift hs)

theorem late_advance (hs : f.Shift g) {k : Nat} {q : Query} {stage : QueryStage} {own : DeskStage}
    {session : Session} (hown : f.At q.id q.userId own) (hfair : f.Fair q.id q.stage)
    (hshows : q.inquiry.shows = true) (hsettled : f.Settled q.id session)
    (hlate : f.Late q.id session q.stage) (ha : f.Advance g k q stage) :
    g.Late q.id session stage := by
  obtain ⟨htold, hon⟩ := Inquiry.told_of_shows hshows
  cases ha with
  | missed | addressed | sent | returned | dismissed | resumed => trivial
  | refused was found other => exact absurd (h.userId_of_find? hown found) other
  | subscribed was untold number => exact absurd untold htold
  | replied was here found live told turned read =>
    -- a session that has ended does not reply
    have hstopped := h.not_live_of_settled hsettled here
    rw [isLive, found, Option.any_some, live] at hstopped
    cases hstopped
  | received was =>
    rw [was] at hlate
    exact .inl (h.evicted_shift hs hlate)
  | dropped was off =>
    rw [hon] at off
    cases off
  | @found s was archived owner =>
    have he := Archive.mem_of_find? archived
    rw [Inquiry.ofFinal_of_shows hshows]
    rcases hsettled with hevicted | ⟨t, ht, hsession⟩ | ⟨r, hfind, -, hsession⟩
    · exact .inl (h.evicted_shift hs hevicted)
    · rw [h.entry_unique ht he] at hsession
      exact .inr ⟨s, rfl, hsession⟩
    · exact .inr ⟨s, rfl, (h.frozen q.id s r he hfind).symm.trans hsession⟩
  | strange was archived other => exact absurd (h.final_of_find? hown archived).2 other
  | unfiled was absent =>
    rw [was] at hfair
    exact h.evicted_shift hs (h.evicted_of_absent hfair absent)
  | read was result =>
    rw [was] at hlate
    exact .inl (h.evicted_shift hs hlate)

end Sound

/-- If the owner's inquiry about the session goes under this number, it came late. -/
def Heeds (f : Floor σ) (k : Nat) (id userId : String) (session : Session) : Prop :=
  ∀ q, f.queries k = some q → q.id = id → q.userId = userId → q.inquiry.shows = true →
    q.own = true ∧ f.Late id session q.stage

namespace Sound

variable (h : f.Sound ids) (hinjective : Function.Injective ids)
include h hinjective

theorem lost_run (hall : f.AllFair) {k : Nat} {q : Query} {stage : QueryStage}
    (hq : f.queries k = some { q with stage }) (hown : q.own = true)
    (hon : q.inquiry.goesOn = true) (hlost : f.Lost q stage) (moves : List Move) :
    ∃ later, (f.run moves).queries k = some { q with stage := later } ∧
      (f.run moves).Lost q later := by
  induction moves generalizing f stage with
  | nil => exact ⟨stage, hq, hlost⟩
  | cons m moves ih =>
    have hs := f.shift_step m
    have hg := h.step hinjective m
    have hall' := h.allFair_step hinjective hall m
    rcases query_goes hq m with hsame | ⟨next, hnext, ha⟩
    · exact ih hg hall' hsame (h.lost_shift hg hs hlost)
    · obtain ⟨⟨own, hat⟩, hfair⟩ := hall k _ hq hown
      exact ih hg hall' hnext
        (h.lost_advance hg hs (q := { q with stage }) hat hfair hon hlost ha)

omit hinjective in
theorem heeds_step (hall : f.AllFair) {k : Nat} {id userId : String} {session : Session}
    (hsettled : f.Settled id session) (hat : ∃ stage, f.At id userId stage)
    (hheeds : f.Heeds k id userId session) (m : Move) :
    (f.step m).Heeds k id userId session := by
  intro q hq hid huser hshows
  have hs := f.shift_step m
  rcases query_step hq with hbefore | ⟨-, howns, hstage⟩ | ⟨before, stage, hbefore, rfl, ha⟩
  · obtain ⟨hown, hlate⟩ := hheeds q hbefore hid huser hshows
    exact ⟨hown, h.late_shift hs hlate⟩
  · obtain ⟨stage, hat⟩ := hat
    rw [hid, huser] at howns
    rw [howns, hstage]
    exact ⟨owns_of_at hat, trivial⟩
  · obtain ⟨hown, hlate⟩ := hheeds before hbefore hid huser hshows
    obtain ⟨⟨own, hown'⟩, hfair⟩ := hall k before hbefore hown
    obtain rfl := hid
    exact ⟨hown, h.late_advance hs (q := before) hown' hfair hshows hsettled hlate ha⟩

theorem heeds_run (hall : f.AllFair) {k : Nat} {id userId : String} {session : Session}
    (hsettled : f.Settled id session) (hat : ∃ stage, f.At id userId stage)
    (hheeds : f.Heeds k id userId session) (moves : List Move) :
    (f.run moves).Heeds k id userId session := by
  induction moves generalizing f with
  | nil => exact hheeds
  | cons m moves ih =>
    have hs := f.shift_step m
    have hat' : ∃ stage, (f.step m).At id userId stage :=
      hat.elim fun _ hat => h.at_shift hinjective hs hat
    exact ih (h.step hinjective m) (h.allFair_step hinjective hall m)
      (h.settled_shift hinjective hs hsettled) hat'
      (h.heeds_step hall hsettled hat hheeds m)

end Sound

/-! ## Starts -/

/-- A start that has come to its launch has its session on the floor. -/
def AllSeated (f : Floor σ) : Prop :=
  ∀ k e response, f.enrolments k = some e →
    e.stage = .launched response ∨ e.stage = .done (.ok response) →
      ∃ stage, f.At response.sessionId e.userId stage

namespace Sound

variable (h : f.Sound ids) (hinjective : Function.Injective ids)
include h hinjective

theorem allSeated_step (hall : f.AllSeated) (m : Move) : (f.step m).AllSeated := by
  intro k e response he hstage
  have hs := f.shift_step m
  rcases enrolment_step he with hbefore | ⟨-, hnew⟩ | ⟨before, stage, hbefore, rfl, hcourse⟩
  · obtain ⟨stage, hat⟩ := hall k e response hbefore hstage
    exact h.at_shift hinjective hs hat
  · rw [hnew] at hstage
    rcases hstage with hstage | hstage <;> cases hstage
  · cases hcourse with
    | free | busy | admitted | refused | failed =>
      rcases hstage with hstage | hstage <;> cases hstage
    | launched was seated =>
      rcases hstage with hstage | hstage
      · obtain rfl := EnrolmentStage.launched.inj hstage
        exact ⟨_, seated⟩
      · cases hstage
    | confirmed was =>
      rcases hstage with hstage | hstage
      · cases hstage
      · obtain rfl := Except.ok.inj (EnrolmentStage.done.inj hstage)
        obtain ⟨stage, hat⟩ := hall k before _ hbefore (.inl was)
        exact h.at_shift hinjective hs hat

theorem allSeated_run (hall : f.AllSeated) (moves : List Move) : (f.run moves).AllSeated := by
  induction moves generalizing f with
  | nil => exact hall
  | cons m moves ih => exact ih (h.step hinjective m) (h.allSeated_step hinjective hall m)

end Sound

/-- The start is on the floor, and has no result yet. -/
def UnderWay (f : Floor σ) (k : Nat) : Prop :=
  ∃ e, f.enrolments k = some e ∧ ∀ result, e.stage ≠ .done result

/-- A start is told of another exam only if its user sat that while it was under way. -/
theorem busy_run {k : Nat} (hfree : f.enrolments k = none) (moves : List Move) {e : Enrolment}
    {id : String} (he : (f.run moves).enrolments k = some e)
    (hstage : e.stage = .done (.error (.alreadyInProgress id))) :
    ∃ before after, moves = before ++ after ∧ (f.run before).UnderWay k ∧
      (f.run before).SitsAt id e.userId := by
  -- from the last move back: the answer came in one of them, and at that moment the user sat
  induction moves using List.reverseRecOn with
  | nil =>
    have hnone : f.enrolments k = some e := he
    rw [hfree] at hnone
    cases hnone
  | append_singleton moves m ih =>
    rw [run_concat] at he
    rcases enrolment_step he with hbefore | ⟨-, hnew⟩ | ⟨was, stage, hbefore, rfl, hcourse⟩
    · obtain ⟨before, after, rfl, hmoment⟩ := ih hbefore
      exact ⟨before, after ++ [m], List.append_assoc .., hmoment⟩
    · rw [hnew] at hstage
      cases hstage
    · obtain rfl : stage = .done (.error (.alreadyInProgress id)) := hstage
      refine ⟨moves, [m], rfl, ?_⟩
      cases hcourse with
      | busy checking sits =>
        exact ⟨⟨was, hbefore, by simp [checking]⟩, Registry.exists_of_sessionOf? sits⟩
      | failed entering sits =>
        exact ⟨⟨was, hbefore, by simp [entering]⟩, Registry.exists_of_sessionOf? (sits id rfl)⟩

/-! ## The hand-over -/

/-- What holds of the sessions on a floor, whatever comes after. -/
structure HandsOver (f : Floor σ) : Prop where
  /-- A user sits one exam at most. -/
  single : (f.hall.registry.active.map Running.userId).Nodup
  /-- What a start launches is on the floor. -/
  launched : ∀ k e response, f.enrolments k = some e →
    e.stage = .launched response ∨ e.stage = .done (.ok response) →
      f.owns response.sessionId e.userId = true
  /-- No session on the floor gets lost. -/
  kept : ∀ id userId, f.owns id userId = true →
    f.SitsAt id userId ∨
    (∃ s, f.hall.registry.archive.find? id = some s ∧ s.session.isActive = false ∧
      s.session.userId = userId) ∨ f.Evicted id
  /-- An inquiry that gets no answer is answered with the end of its session, out of the archive. -/
  found : ∀ k q, f.queries k = some q → q.own = true → q.inquiry.goesOn = true →
    q.stage = .unanswered ∨ q.stage = .searching → ∀ later result,
      (f.run later).queries k = some { q with stage := .done result } →
        (f.run later).Evicted q.id ∨
        ∃ s, (f.run later).hall.registry.archive.find? q.id = some s ∧
          s.session.isActive = false ∧ s.session.userId = q.userId ∧
          result = q.inquiry.ofFinal q.id s
  /-- No owner is told that the session is not known, unless it was evicted. -/
  known : ∀ k q, f.queries k = some q → q.own = true →
    q.stage = .done (.error .sessionNotFound) → f.Evicted q.id
  /-- What an owner was shown as the end of a session, every inquiry shows that comes later. -/
  lasting : ∀ k q s, f.queries k = some q → q.own = true →
    q.stage = .done (.ok (.snapshot s)) → s.session.isActive = false →
      ∀ i, f.queries i = none → ∀ later p result, (f.run later).queries i = some p →
        p.id = q.id → p.userId = q.userId → p.inquiry.shows = true → p.stage = .done result →
          (f.run later).Evicted q.id ∨ ∃ t, result = .ok (.snapshot t) ∧ t.session = s.session
  /-- No inquiry about a session that has stopped has to wait for ever. -/
  answered : ∀ k q, f.queries k = some q → q.own = true → f.isLive q.id = false →
    f.Completes k q

theorem Sound.handsOver (h : f.Sound ids) (hinjective : Function.Injective ids)
    (hfair : f.AllFair) (hseated : f.AllSeated) (hposted : f.AllPosted) : f.HandsOver where
  single := h.users
  launched k e response he hstage := by
    obtain ⟨stage, hat⟩ := hseated k e response he hstage
    exact owns_of_at hat
  kept id userId howns := by
    obtain ⟨stage, hat⟩ := exists_at_of_owns howns
    exact h.kept hat
  found k q hq hown hon hstage later result hdone := by
    have hlost : f.Lost q q.stage := by
      rcases hstage with hstage | hstage <;> rw [hstage] <;> trivial
    obtain ⟨stage, hq', hlate⟩ := h.lost_run hinjective hfair hq hown hon hlost later
    obtain rfl : stage = .done result :=
      congrArg Query.stage (Option.some.inj (hq'.symm.trans hdone))
    exact hlate
  known k q hq hown hstage := by
    have howed := (hfair k q hq hown).2
    rw [hstage] at howed
    exact howed
  lasting k q s hq hown hstage hover i hi later p result hp hid huser hshows hdone := by
    obtain ⟨hat, howed⟩ := hfair k q hq hown
    rw [hstage] at howed
    -- the later inquiry has not been made yet, so there is nothing that it does not heed
    have hheeds : f.Heeds i q.id q.userId s.session := fun p hp =>
      absurd (hi.symm.trans hp) nofun
    have hlate := (h.heeds_run hinjective hfair (howed hover) hat hheeds later p hp hid huser
      hshows).2
    rw [hdone] at hlate
    exact hlate
  answered k q hq hown hover := by
    obtain ⟨⟨stage, hat⟩, -⟩ := hfair k q hq hown
    exact h.completes hinjective hposted hq hat hover

/-- **Sessions are handed over**, by every run. A user sits one exam at most, and a start is told of
another only if its user sat that while the start was under way. No session gets lost: an owner who
misses it among those that run finds it filed, always with the same record. -/
theorem sessions_handed_over (config : Config) (catalog : Catalog) (practice : PracticeStore σ)
    (lives : σ) (time : Stamp) (source : Source)
    (hfresh : Function.Injective source.sessionId) (moves : List Move) :
    let start : Floor σ := opened (.new config catalog practice lives time source)
    (start.run moves).HandsOver ∧
      ∀ k e id, (start.run moves).enrolments k = some e →
        e.stage = .done (.error (.alreadyInProgress id)) →
          ∃ before after, moves = before ++ after ∧ (start.run before).UnderWay k ∧
            (start.run before).SitsAt id e.userId := by
  intro start
  have h : start.Sound source.sessionId := sound_opened config catalog practice lives time source
  refine ⟨(h.run hfresh moves).handsOver hfresh ?_ ?_ ?_, fun k e id => busy_run rfl moves⟩
  · exact h.allFair_run hfresh (fun _ _ hq => nomatch hq) moves
  · exact h.allSeated_run hfresh (fun _ _ _ he => nomatch he) moves
  · exact h.allPosted_run hfresh (fun _ _ hq => nomatch hq) moves

/-- Ids that get longer and longer. -/
def growing : Source :=
  { Source.plain with sessionId := fun n => String.ofList (List.replicate n 'x') }

theorem injective_growing : Function.Injective growing.sessionId := by
  intro m n hmn
  have hlength := congrArg String.length hmn
  simpa [growing] using hlength

/-- The session that an inquiry was shown. -/
def shown? {σ : Type} (f : Floor σ) (k : Nat) : Option Session :=
  match (f.queries k).map Query.stage with
  | some (.done (.ok (.snapshot s))) => some s.session
  | _ => none

theorem sessions_handed_over_submitted :
    let settings := { Settings.standard with submitUnlockSeconds := 0 }
    let start : Floor Shelf := opened (.new { (default : Config) with exam := settings }
      House.threeQuestions .inMemory .empty default growing)
    let id := growing.sessionId 0
    let final := start.run [.enrol 0 "ada" ⟨.python, none⟩, .checkFree 0, .askGate 0, .launch 0,
      .commence id, .inquire 0 id "ada" .submit, .lookUp 0, .send 0, .handle id, .receive 0,
      .inquire 1 id "ada" .snapshot, .lookUp 1, .send 1, .file id, .release id, .close id,
      .receive 1, .search 1]
    Function.Injective growing.sessionId ∧ final.HandsOver ∧
      (final.shown? 0).map Session.isActive = some false ∧ final.shown? 1 = final.shown? 0 := by
  intro settings start id final
  refine ⟨injective_growing, (sessions_handed_over _ _ _ _ _ _ injective_growing _).1, ?_, ?_⟩
  · decide +kernel
  · decide +kernel

end Floor

end Invigilator
