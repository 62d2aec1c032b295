import Invigilator.Proofs.Records.Drawer
import Invigilator.Proofs.Records.Losses
import Invigilator.Proofs.Sitting.Finality

/-!
# The last word survives

A patch that is dropped leaves the record behind, and a later one has to make up for it. Two facts
about patches decide that it does. Every patch keeps a stored copy `Behind` the final value: what
patches never carry is the same already, and a time that the final value lacks is not there
either, for a patch can set it and never clear it. And the last patch carries everything else.

Over a run these facts are `Seals` for the session and `Amends` for an answer, each proved by
induction over stretches; the first says besides that nothing of a session follows its completion.
What a place of the cabinet holds in the end is then read off the writes that came through:
something was put into it, and the last of the changes decides.
-/

namespace Invigilator

namespace RecordWrite

/-- A write that creates nothing keeps what every patch of a session keeps. -/
theorem keeps_onSession {w : RecordWrite} {id : String} {P : Session → Prop}
    (hw : w.adds = false) (hP : ∀ (p : SessionPatch) x, P x → P (p.applyTo x)) :
    (w.onSession id).Keeps P := by
  cases w with
  | createSession s => cases hw
  | createAnswer id' a => cases hw
  | updateSession id' p =>
    rw [onSession]
    split
    · exact hP p
    · trivial
  | updateAnswer id' j p => trivial
  | recordViolation v => trivial
  | blockUser userId id' => trivial

end RecordWrite

namespace RecordWrite

/-- A write that creates nothing keeps what its patches of an answer keep. -/
theorem keeps_onAnswer {w : RecordWrite} {id : String} {i : Nat} {P : String × Answer → Prop}
    (hw : w.adds = false)
    (hP : ∀ id' p, w = .updateAnswer id' i p → ∀ e, P e → P (e.1, p.applyTo e.2)) :
    (w.onAnswer id i).Keeps P := by
  cases w with
  | createSession s => cases hw
  | createAnswer id' a => cases hw
  | updateSession id' p => trivial
  | updateAnswer id' j p =>
    rw [onAnswer]
    split
    · rename_i hkey
      obtain ⟨-, rfl⟩ := hkey
      exact hP id' p rfl
    · trivial
  | recordViolation v => trivial
  | blockUser userId id' => trivial

end RecordWrite

/-- Answers at the places of their questions are answers to different questions. -/
theorem Answer.Indexed.nodup {answers : List Answer} (h : Answer.Indexed answers) :
    (answers.map Answer.questionIndex).Nodup := by
  have hrange : answers.map Answer.questionIndex = List.range answers.length := by
    refine List.ext_getElem (by simp) fun i hi _ => ?_
    rw [List.getElem_map, List.getElem_range]
    exact h i _ (List.getElem?_eq_getElem _)
  rw [hrange]
  exact List.nodup_range

/-! ## Copies that lag behind -/

/-- A copy of a session of which no patch is needed but those that carry its final state. -/
structure Session.Behind (old final : Session) : Prop where
  id : old.id = final.id
  userId : old.userId = final.userId
  language : old.language = final.language
  questionIds : old.questionIds = final.questionIds
  startedAt : old.startedAt = final.startedAt

theorem Session.Behind.refl (s : Session) : s.Behind s := ⟨rfl, rfl, rfl, rfl, rfl⟩

theorem Session.Behind.trans {s t u : Session} (h : s.Behind t) (h' : t.Behind u) : s.Behind u :=
  ⟨h.id.trans h'.id, h.userId.trans h'.userId, h.language.trans h'.language,
    h.questionIds.trans h'.questionIds, h.startedAt.trans h'.startedAt⟩

/-- No patch changes what no patch carries. -/
theorem Session.Behind.applyTo {old final : Session} (h : old.Behind final) (p : SessionPatch) :
    (p.applyTo old).Behind final := ⟨h.id, h.userId, h.language, h.questionIds, h.startedAt⟩

/-- The patch of a session that is completed brings any copy up to date. -/
theorem Session.Behind.patch {old final : Session} (h : old.Behind final)
    (hspent : final.timeSpentSeconds.isSome = true) (hcompleted : final.completedAt.isSome = true) :
    final.patch.applyTo old = final := by
  obtain ⟨spent, hspent⟩ := Option.isSome_iff_exists.mp hspent
  obtain ⟨completed, hcompleted⟩ := Option.isSome_iff_exists.mp hcompleted
  cases final
  cases old
  obtain ⟨rfl, rfl, rfl, rfl, rfl⟩ := h
  cases hspent
  cases hcompleted
  rfl

/-- A copy of an answer that is behind it, and has no time of a run that the answer lacks. -/
structure Answer.Behind (old final : Answer) : Prop where
  questionIndex : old.questionIndex = final.questionIndex
  questionId : old.questionId = final.questionId
  lastRunAt : final.lastRunAt = none → old.lastRunAt = none

theorem Answer.Behind.refl (a : Answer) : a.Behind a := ⟨rfl, rfl, id⟩

theorem Answer.Behind.trans {a b c : Answer} (h : a.Behind b) (h' : b.Behind c) : a.Behind c :=
  ⟨h.questionIndex.trans h'.questionIndex, h.questionId.trans h'.questionId,
    fun hnone => h.lastRunAt (h'.lastRunAt hnone)⟩

/-- A run is never forgotten. -/
theorem Answer.Revision.behind {old new : Answer} (h : old.Revision new) : old.Behind new := by
  cases h with
  | edit code => exact ⟨rfl, rfl, id⟩
  | run result time => exact ⟨rfl, rfl, nofun⟩

/-- A patch without a time that the answer lacks leaves the copy behind it. -/
theorem Answer.Behind.applyTo {old final : Answer} (h : old.Behind final) {p : AnswerPatch}
    (hp : final.lastRunAt = none → p.lastRunAt = none) : (p.applyTo old).Behind final where
  questionIndex := h.questionIndex
  questionId := h.questionId
  lastRunAt hnone := by
    change p.lastRunAt.or old.lastRunAt = none
    rw [hp hnone, h.lastRunAt hnone]
    rfl

/-- The patch of an answer brings any copy that is behind it up to date. -/
theorem Answer.Behind.patch {old final : Answer} (h : old.Behind final) :
    final.patch.applyTo old = final := by
  have hlast : final.lastRunAt.or old.lastRunAt = final.lastRunAt := by
    cases hfinal : final.lastRunAt with
    | some time => rfl
    | none => rw [h.lastRunAt hfinal]; rfl
  cases final
  cases old
  obtain ⟨rfl, rfl, -⟩ := h
  simp only [AnswerPatch.applyTo, Answer.patch, Option.getD_some] at hlast ⊢
  rw [hlast]

/-! ## Kinds of writes -/

namespace RecordWrite

/-- The write creates a session. -/
def createsSession : RecordWrite → Bool
  | createSession _ => true
  | createAnswer .. => false
  | updateSession .. => false
  | updateAnswer .. => false
  | recordViolation _ => false
  | blockUser .. => false

/-- The write creates the answer to a question. -/
def createsAnswer (i : Nat) : RecordWrite → Bool
  | createAnswer _ a => a.questionIndex == i
  | createSession _ => false
  | updateSession .. => false
  | updateAnswer .. => false
  | recordViolation _ => false
  | blockUser .. => false

/-- The write completes the record of a session. -/
def completesSession : RecordWrite → Bool
  | updateSession _ p => p.completedAt.isSome
  | createSession _ => false
  | createAnswer .. => false
  | updateAnswer .. => false
  | recordViolation _ => false
  | blockUser .. => false

/-- The write changes the answer to a question. -/
def updatesAnswer (i : Nat) : RecordWrite → Bool
  | updateAnswer _ j _ => j == i
  | createSession _ => false
  | createAnswer .. => false
  | updateSession .. => false
  | recordViolation _ => false
  | blockUser .. => false

end RecordWrite


/-- A write that neither creates nor changes an answer passes its place by. -/
theorem RecordWrite.onAnswer_pass (id : String) {i : Nat} {w : RecordWrite}
    (hw : w.adds = false) (hi : w.updatesAnswer i = false) : w.onAnswer id i = .pass := by
  cases w with
  | createSession s => cases hw
  | createAnswer id' a => cases hw
  | updateSession id' p => rfl
  | updateAnswer id' j p => exact if_neg fun hkey => (beq_eq_false_iff_ne.mp hi) hkey.2
  | recordViolation v => rfl
  | blockUser userId id' => rfl

/-! ## Stretches -/

/-- What a stretch of a run writes about the session. -/
structure Seals (s t : Sitting) (as : List Action) : Prop where
  behind : s.session.Behind t.session
  /-- Records are created before anything else happens. -/
  creates : ∀ w ∈ writes as, w.adds = false
  /-- A session that is over writes nothing. -/
  still : s.session.isActive = false → t.session = s.session ∧ writes as = []
  /-- A session that ends writes all of itself, and no more of itself after that. -/
  ended : s.session.isActive = true → t.session.isActive = false →
    t.session.timeSpentSeconds.isSome = true ∧ t.session.completedAt.isSome = true ∧
      ∃ first rest,
        writes as = first ++ .updateSession t.session.id t.session.patch :: rest ∧
          ∀ w ∈ rest, w.onSession t.session.id = .pass

/-- A stretch without writes that leaves the session alone. -/
theorem Seals.of_unchanged {s t : Sitting} {as : List Action} (hsession : t.session = s.session)
    (has : writes as = []) : Seals s t as where
  behind := by rw [hsession]; exact .refl _
  creates := by rw [has]; exact List.forall_mem_nil _
  still _ := ⟨hsession, has⟩
  ended h h' := by rw [hsession, h] at h'; cases h'

/-- A stretch of an active session that goes on. -/
theorem Seals.of_active {s t : Sitting} {as : List Action} (hbehind : s.session.Behind t.session)
    (hcreates : ∀ w ∈ writes as, w.adds = false) (hs : s.session.isActive = true)
    (ht : t.session.isActive = true) : Seals s t as where
  behind := hbehind
  creates := hcreates
  still h := by rw [hs] at h; cases h
  ended _ h := by rw [ht] at h; cases h

/-- Two stretches make one. -/
theorem Seals.trans {s t u : Sitting} {as bs : List Action} (h₁ : Seals s t as)
    (h₂ : Seals t u bs) : Seals s u (as ++ bs) := by
  constructor
  case behind => exact h₁.behind.trans h₂.behind
  case creates =>
    intro w hw
    rw [writes_append, List.mem_append] at hw
    exact hw.elim (h₁.creates w) (h₂.creates w)
  case still =>
    intro hs
    obtain ⟨hsame, hnone⟩ := h₁.still hs
    obtain ⟨hsame', hnone'⟩ := h₂.still (by rw [hsame]; exact hs)
    rw [writes_append, hnone, hnone']
    exact ⟨hsame'.trans hsame, rfl⟩
  case ended =>
    intro hs hu
    cases ht : t.session.isActive with
    | true =>
      -- the session ends in the second stretch
      obtain ⟨hspent, hcompleted, first, rest, hwrites, hrest⟩ := h₂.ended ht hu
      refine ⟨hspent, hcompleted, writes as ++ first, rest, ?_, hrest⟩
      rw [writes_append, hwrites, List.append_assoc]
    | false =>
      -- it has ended in the first one, and writes nothing in the second
      obtain ⟨hsame, hnone⟩ := h₂.still ht
      obtain ⟨hspent, hcompleted, first, rest, hwrites, hrest⟩ := h₁.ended hs ht
      rw [hsame]
      refine ⟨hspent, hcompleted, first, rest, ?_, hrest⟩
      rw [writes_append, hnone, List.append_nil, hwrites]

/-- A session that is closed is sealed, and only a block can follow. -/
theorem seals_close {s : Sitting} (reason : Reason) (spent : Nat) (time : Stamp)
    (h : s.session.isActive = true) :
    Seals s (s.closed reason spent time)
      ((s.closed reason spent time).session.leave reason spent time) := by
  let final := (s.closed reason spent time).session
  have hfinal : final = s.session.finish reason spent time := rfl
  rw [Session.finish_active h] at hfinal
  have hrest : ∀ w ∈ (if reason = .livesExhausted then
      [RecordWrite.blockUser final.userId final.id] else []),
        w = .blockUser final.userId final.id := by
    intro w hw
    split at hw
    · exact List.mem_singleton.mp hw
    · cases hw
  constructor
  case behind =>
    change s.session.Behind final
    rw [hfinal]
    exact ⟨rfl, rfl, rfl, rfl, rfl⟩
  case creates =>
    intro w hw
    rw [writes_leave, List.mem_cons] at hw
    rcases hw with rfl | hw
    · rfl
    · rw [hrest w hw]
      rfl
  case still =>
    intro hover
    rw [h] at hover
    cases hover
  case ended =>
    intro _ _
    have hspent : final.timeSpentSeconds.isSome = true := by
      rw [hfinal]
      rfl
    have hcompleted : final.completedAt.isSome = true := by
      rw [hfinal]
      rfl
    refine ⟨hspent, hcompleted, [], _, writes_leave .., ?_⟩
    intro w hw
    rw [hrest w hw]
    rfl

/-- **Every stretch seals the session that it ends.** -/
theorem Stretch.seals {s t : Sitting} {as : List Action} (h : Stretch s t as) : Seals s t as := by
  induction h with
  | idle session answers violations still => exact .of_unchanged session (writes_idle still)
  | charge scene kind left active =>
    refine .of_active ⟨rfl, rfl, rfl, rfl, rfl⟩ (fun w hw => ?_) active active
    simp only [writes_penalty, List.mem_cons, List.not_mem_nil, or_false] at hw
    rcases hw with rfl | rfl <;> rfl
  | revise active place revision =>
    refine .of_active (.refl _) (fun w hw => ?_) active active
    rw [List.mem_singleton.mp hw]
    rfl
  | close reason spent time active => exact seals_close reason spent time active
  | andThen _ _ first second => exact first.trans second

/-- What a stretch of a run writes about an answer, if it leads to one. -/
structure Amends (i : Nat) (s : Sitting) (final : Answer) (as : List Action) (a : Answer) :
    Prop where
  place : s.answers[i]? = some a
  behind : a.Behind final
  /-- No patch carries the time of a run that the answer comes to lack. -/
  timely : ∀ id p, .updateAnswer id i p ∈ writes as → final.lastRunAt = none → p.lastRunAt = none
  /-- The last patch carries all of the answer, and without one it is as it was. -/
  last : a = final ∧ (∀ w ∈ writes as, w.updatesAnswer i = false) ∨
    ∃ first rest, writes as = first ++ .updateAnswer s.session.id i final.patch :: rest ∧
      ∀ w ∈ rest, w.updatesAnswer i = false

/-- A stretch that writes nothing about an answer. -/
theorem Amends.of_unchanged {i : Nat} {s : Sitting} {a : Answer} {as : List Action}
    (hplace : s.answers[i]? = some a) (has : ∀ w ∈ writes as, w.updatesAnswer i = false) :
    Amends i s a as a where
  place := hplace
  behind := .refl a
  timely id p hp := by
    have hnone := has _ hp
    rw [RecordWrite.updatesAnswer, BEq.rfl] at hnone
    cases hnone
  last := .inl ⟨rfl, has⟩

/-- Two stretches make one. -/
theorem Amends.trans {i : Nat} {s t : Sitting} {a b c : Answer} {as bs : List Action}
    (h₁ : Amends i s b as a) (h₂ : Amends i t c bs b) (hid : t.session.id = s.session.id) :
    Amends i s c (as ++ bs) a := by
  constructor
  case place => exact h₁.place
  case behind => exact h₁.behind.trans h₂.behind
  case timely =>
    intro id p hp hnone
    rw [writes_append, List.mem_append] at hp
    rcases hp with hp | hp
    · exact h₁.timely id p hp (h₂.behind.lastRunAt hnone)
    · exact h₂.timely id p hp hnone
  case last =>
    rw [writes_append]
    rcases h₂.last with ⟨rfl, hnone⟩ | ⟨first, rest, hwrites, hrest⟩
    · -- the last patch is that of the first stretch, if it has one
      rcases h₁.last with ⟨rfl, hnone'⟩ | ⟨first, rest, hwrites, hrest⟩
      · refine .inl ⟨rfl, fun w hw => ?_⟩
        exact (List.mem_append.mp hw).elim (hnone' w) (hnone w)
      · refine .inr ⟨first, rest ++ writes bs, by rw [hwrites, List.append_assoc]; rfl, ?_⟩
        intro w hw
        exact (List.mem_append.mp hw).elim (hrest w) (hnone w)
    · refine .inr ⟨writes as ++ first, rest, ?_, hrest⟩
      rw [hwrites, hid, List.append_assoc]

theorem amends_revise {i index : Nat} {s : Sitting} {old new final : Answer}
    (hplace : s.answers[index]? = some old) (hnew : old.Revision new)
    (hfinal : (s.revised index new).answers[i]? = some final) :
    ∃ a, Amends i s final [.write (.updateAnswer s.session.id index new.patch)] a := by
  rw [Sitting.revised, List.getElem?_set] at hfinal
  by_cases hi : index = i
  · subst hi
    rw [if_pos rfl, if_pos (List.getElem?_eq_some_iff.mp hplace).1] at hfinal
    obtain rfl := Option.some.inj hfinal
    refine ⟨old, hplace, hnew.behind, fun id p hp hnone => ?_,
      .inr ⟨[], [], rfl, List.forall_mem_nil _⟩⟩
    -- the only patch is that of the answer itself
    obtain ⟨-, -, rfl⟩ := RecordWrite.updateAnswer.inj (List.mem_singleton.mp hp)
    exact hnone
  · rw [if_neg hi] at hfinal
    refine ⟨final, .of_unchanged hfinal fun w hw => ?_⟩
    rw [List.mem_singleton.mp hw]
    exact beq_false_of_ne hi

/-- **Every stretch amends the answers that it leads to.** -/
theorem Stretch.amends {s t : Sitting} {as : List Action} (h : Stretch s t as) {i : Nat}
    {final : Answer} (hfinal : t.answers[i]? = some final) : ∃ a, Amends i s final as a := by
  induction h generalizing final with
  | idle session answers violations still =>
    rw [answers] at hfinal
    refine ⟨final, .of_unchanged hfinal ?_⟩
    rw [writes_idle still]
    exact List.forall_mem_nil _
  | charge scene kind left active =>
    refine ⟨final, .of_unchanged hfinal fun w hw => ?_⟩
    simp only [writes_penalty, List.mem_cons, List.not_mem_nil, or_false] at hw
    rcases hw with rfl | rfl <;> rfl
  | revise active place revision => exact amends_revise place revision hfinal
  | close reason spent time active =>
    refine ⟨final, .of_unchanged hfinal fun w hw => ?_⟩
    rw [writes_leave, List.mem_cons] at hw
    rcases hw with rfl | hw
    · rfl
    · split at hw
      · rw [List.mem_singleton.mp hw]
        rfl
      · cases hw
  | andThen hfirst _ first second =>
    obtain ⟨b, hsecond⟩ := second hfinal
    obtain ⟨a, hbefore⟩ := first hsecond.place
    exact ⟨a, hbefore.trans hsecond hfirst.follows.id_eq⟩

/-! ## Runs with losses -/

section Thinned

variable {picks : Nat → RecordWrite → Bool} {rest : List RecordWrite} {w : RecordWrite}

/-- A write that is picked stands between what is left of those before it and of those after. -/
theorem thinned_split (first : Nat) {pre : List RecordWrite}
    (h : picks (first + pre.length) w = true) :
    thinned picks first (pre ++ w :: rest) =
      thinned picks first pre ++ w :: thinned picks (first + pre.length + 1) rest := by
  rw [thinned_append, thinned_cons, if_pos h]
  rfl

variable {α : Type} {d : Drawer α} {x final : α}

/-- What was put into a place stays there if nothing changes it. -/
theorem Drawer.drawn_thinned_put (pre : List RecordWrite) (hput : d.stroke w = .put x)
    (hrest : ∀ v ∈ rest, d.stroke v = .pass) (hw : picks pre.length w = true) :
    d.drawn [] (thinned picks 0 (pre ++ w :: rest)) = [x] := by
  rw [thinned_split 0 (by rwa [Nat.zero_add]), drawn_append, drawn_cons, hput]
  exact drawn_pass (fun v hv => hrest v (mem_of_mem_thinned _ hv)) _

/-- **The last change decides,** whatever is left of the changes before it. -/
theorem Drawer.drawn_thinned_change {P : α → Prop} {mid : List RecordWrite} {last : RecordWrite}
    {f : α → α} (pre : List RecordWrite) (hput : d.stroke w = .put x) (hx : P x)
    (hmid : ∀ v ∈ mid, (d.stroke v).Keeps P) (hlast : d.stroke last = .change f)
    (hf : ∀ y, P y → f y = final) (hrest : ∀ v ∈ rest, d.stroke v = .pass)
    (hw : picks pre.length w = true) (hpicked : picks (pre.length + 1 + mid.length) last = true) :
    d.drawn [] (thinned picks 0 (pre ++ w :: (mid ++ last :: rest))) = [final] := by
  rw [thinned_split 0 (by rwa [Nat.zero_add]), drawn_append, drawn_cons, hput, Nat.zero_add,
    thinned_split _ hpicked, drawn_append]
  obtain ⟨y, hy, hkept⟩ :=
    drawn_keeps (d := d) (fun v hv => hmid v (mem_of_mem_thinned (pre.length + 1) hv)) hx
  change d.drawn (d.drawn [x] _) _ = [final]
  rw [hy, drawn_cons, hlast, Stroke.on, List.modifyHead_cons, hf y hkept]
  exact drawn_pass (fun v hv => hrest v (mem_of_mem_thinned _ hv)) _

end Thinned

namespace Mailing

variable (fate : Fate) (m : Mailing) (ws : List RecordWrite) (kind : RecordWrite → Bool)

/-- All writes of a kind have come through. -/
def HasCarriedAll : Prop :=
  ∀ first w rest, ws = first ++ w :: rest → kind w = true →
    m.hasCarried fate first.length w = true

/-- The last write of a kind has come through, if there is one. -/
def HasCarriedLast : Prop :=
  ∀ first w rest, ws = first ++ w :: rest → kind w = true → (∀ v ∈ rest, kind v = false) →
    m.hasCarried fate first.length w = true

/-- What the records say of a sitting, also when some of its writes were dropped. -/
structure LastWordStands (s : Sitting) : Prop where
  /-- A session that is over is on record as it ended, once its creation and its completion have
  come through. -/
  session : s.session.isActive = false → m.HasCarriedAll fate ws RecordWrite.createsSession →
    m.HasCarriedAll fate ws RecordWrite.completesSession →
    m.records.cabinet.session? s.session.id = .ok (some s.session)
  /-- An answer is on record as it is, and once, when its creation and its last patch, if there is
  one, have come through. -/
  answer : ∀ i a, s.answers[i]? = some a →
    m.HasCarriedAll fate ws (RecordWrite.createsAnswer i) →
    m.HasCarriedLast fate ws (RecordWrite.updatesAnswer i) →
    ∃ stored, m.records.cabinet.answersOf s.session.id = .ok stored ∧
      stored.filter (fun b => b.questionIndex == i) = [a]

end Mailing

namespace Turn

variable {σ : Type} (ledger : LivesLedger σ) {s : Sitting × σ} {cues : List Cue} {fate : Fate}
  {doings : List Mailing.Doing}

theorem writes_deeds (s : Sitting × σ) (cues : List Cue) :
    writes (deeds ledger s cues) = .createSession s.1.session ::
      (s.1.answers.map (.createAnswer s.1.session.id) ++
        writes ((history ledger s cues).flatMap Moment.actions)) := by
  rw [deeds, writes_append, writes_begin, List.cons_append]

/-- What a place holds after a run with losses. -/
theorem held_run {α : Type} (d : Drawer α) (fate : Fate) (doings : List Mailing.Doing) :
    d.held (Mailing.run fate doings).records.cabinet =
      d.drawn [] ((Mailing.run fate doings).carried fate (Mailing.handed doings)) := by
  rw [← (Mailing.settled_carried fate doings).cabinet, d.held_settled]

theorem available_run (fate : Fate) (doings : List Mailing.Doing) :
    (Mailing.run fate doings).records.cabinet.available = true := by
  rw [← (Mailing.settled_carried fate doings).cabinet]
  exact Records.settled_available _

/-- The place of the session holds its final state. -/
theorem held_session (hhanded : Mailing.handed doings = writes (deeds ledger s cues))
    (hover : (reached ledger s cues).1.session.isActive = false)
    (hcreated : (Mailing.run fate doings).HasCarriedAll fate (Mailing.handed doings)
      RecordWrite.createsSession)
    (hcompleted : (Mailing.run fate doings).HasCarriedAll fate (Mailing.handed doings)
      RecordWrite.completesSession) :
    (Drawer.session (reached ledger s cues).1.session.id).held
      (Mailing.run fate doings).records.cabinet = [(reached ledger s cues).1.session] := by
  let final := (reached ledger s cues).1.session
  have hseals := (stretch_history ledger s cues).seals
  have hid : s.1.session.id = final.id := hseals.behind.id
  have hput : (RecordWrite.createSession s.1.session).onSession final.id = .put s.1.session :=
    if_pos hid
  have hanswers : ∀ w ∈ s.1.answers.map (RecordWrite.createAnswer s.1.session.id),
      w.onSession final.id = .pass := by
    intro w hw
    obtain ⟨a, -, rfl⟩ := List.mem_map.mp hw
    rfl
  rw [writes_deeds] at hhanded
  have hfirst := hcreated [] _ _ hhanded rfl
  rw [held_run, Mailing.carried, hhanded]
  cases hs : s.1.session.isActive with
  | false =>
    -- nothing has happened at all
    obtain ⟨hsame, hnone⟩ := hseals.still hs
    rw [hnone, List.append_nil, hsame]
    rw [← hid] at hput hanswers
    exact Drawer.drawn_thinned_put [] hput hanswers hfirst
  | true =>
    obtain ⟨hspent, hdone, first, rest, hwrites, hrest⟩ := hseals.ended hs hover
    rw [hwrites, ← List.append_assoc] at hhanded ⊢
    have hpicked := hcompleted (.createSession s.1.session :: _) _ _ hhanded hdone
    refine Drawer.drawn_thinned_change (P := fun x => x.Behind final) [] hput
      hseals.behind ?_ (if_pos rfl) (fun y hy => hy.patch hspent hdone) hrest hfirst ?_
    · intro w hw
      rcases List.mem_append.mp hw with hw | hw
      · change (w.onSession final.id).Keeps _
        rw [hanswers w hw]
        trivial
      · -- before its end the session is patched, and not created again
        have hcreates := hseals.creates w (by rw [hwrites]; exact List.mem_append_left _ hw)
        exact RecordWrite.keeps_onSession hcreates fun p x hx => hx.applyTo p
    · rwa [List.length_cons, Nat.add_comm] at hpicked

/-- The creation of an answer stands among those of the others, which have other places. -/
theorem exists_creation (id : String) {answers : List Answer} (hanswers : Answer.Indexed answers)
    {i : Nat} {a : Answer} (ha : answers[i]? = some a) :
    ∃ before behind : List RecordWrite,
      answers.map (.createAnswer id) = before ++ .createAnswer id a :: behind ∧
        a.questionIndex = i ∧ ∀ w ∈ behind, w.onAnswer id i = .pass := by
  have hi : a.questionIndex = i := hanswers i a ha
  obtain ⟨before, behind, rfl⟩ := List.append_of_mem (List.mem_of_getElem? ha)
  refine ⟨_, _, by rw [List.map_append, List.map_cons], hi, fun w hw => ?_⟩
  obtain ⟨b, hb, rfl⟩ := List.mem_map.mp hw
  have hnodup := hanswers.nodup
  rw [List.map_append, List.map_cons, List.nodup_append, List.nodup_cons, hi] at hnodup
  exact if_neg fun hkey => hnodup.2.1.1 (List.mem_map.mpr ⟨b, hb, hkey.2⟩)

/-- The place of an answer holds it as it is in the end. -/
theorem held_answer (hanswers : Answer.Indexed s.1.answers)
    (hhanded : Mailing.handed doings = writes (deeds ledger s cues)) {i : Nat} {final : Answer}
    (hfinal : (reached ledger s cues).1.answers[i]? = some final)
    (hcreated : (Mailing.run fate doings).HasCarriedAll fate (Mailing.handed doings)
      (RecordWrite.createsAnswer i))
    (hupdated : (Mailing.run fate doings).HasCarriedLast fate (Mailing.handed doings)
      (RecordWrite.updatesAnswer i)) :
    (Drawer.answer s.1.session.id i).held (Mailing.run fate doings).records.cabinet =
      [(s.1.session.id, final)] := by
  let id := s.1.session.id
  have hcreates := (stretch_history ledger s cues).seals.creates
  obtain ⟨a, hamends⟩ := (stretch_history ledger s cues).amends hfinal
  obtain ⟨before, behind, hsplit, hindex, hbehind⟩ :=
    exists_creation id hanswers hamends.place
  have hput : (RecordWrite.createAnswer id a).onAnswer id i = .put (id, a) := if_pos ⟨rfl, hindex⟩
  rw [writes_deeds, hsplit, List.append_assoc, List.cons_append, ← List.cons_append] at hhanded
  have hfirst := hcreated _ _ _ hhanded (beq_iff_eq.mpr hindex)
  rw [held_run, Mailing.carried, hhanded]
  rcases hamends.last with ⟨rfl, hnone⟩ | ⟨first, rest, hwrites, hrest⟩
  · refine Drawer.drawn_thinned_put _ hput (fun w hw => ?_) hfirst
    rcases List.mem_append.mp hw with hw | hw
    · exact hbehind w hw
    · exact RecordWrite.onAnswer_pass id (hcreates w hw) (hnone w hw)
  · rw [hwrites, ← List.append_assoc behind] at hhanded ⊢
    have hpicked := hupdated
      (.createSession s.1.session :: before ++ .createAnswer id a :: (behind ++ first))
      (.updateAnswer id i final.patch) rest (by simp [hhanded, id]) BEq.rfl hrest
    refine Drawer.drawn_thinned_change (P := fun e => e.1 = id ∧ e.2.Behind final) _ hput
      ⟨rfl, hamends.behind⟩ (fun w hw => ?_) (if_pos ⟨rfl, rfl⟩) (fun e he => ?_) (fun w hw => ?_)
      hfirst ?_
    · rcases List.mem_append.mp hw with hw | hw
      · change (w.onAnswer id i).Keeps _
        rw [hbehind w hw]
        trivial
      · have hw' : w ∈ writes ((history ledger s cues).flatMap Moment.actions) := by
          rw [hwrites]
          exact List.mem_append_left _ hw
        exact RecordWrite.keeps_onAnswer (hcreates w hw') fun id p hp e he =>
          ⟨he.1, he.2.applyTo (hamends.timely id p (hp ▸ hw'))⟩
    · change (e.1, final.patch.applyTo e.2) = (id, final)
      rw [he.1, he.2.patch]
    · have hw' : w ∈ writes ((history ledger s cues).flatMap Moment.actions) := by
        rw [hwrites]
        exact List.mem_append_right _ (List.mem_cons_of_mem _ hw)
      exact RecordWrite.onAnswer_pass id (hcreates w hw') (hrest w hw)
    · rw [List.length_append, List.length_cons, List.length_cons, ← Nat.add_assoc,
        Nat.add_right_comm] at hpicked
      exact hpicked

/-- **The last word survives.** Whatever the fate of the writes of a run, and at every moment: once
the creation and the completion of the session have come through, it is on record as it ended, and
once the creation of an answer and its last patch have come through, it is on record as it is.
Nothing else has to come through for that. -/
theorem last_word_stands (session : Session) (answers : List Answer) (pace : Pace) (now : Instant)
    (lives : σ) (cues : List Cue) (fate : Fate) (doings : List Mailing.Doing)
    (hanswers : Answer.Indexed answers)
    (hhanded : Mailing.handed doings =
      writes (deeds ledger (Sitting.opened session answers pace now, lives) cues)) :
    (Mailing.run fate doings).LastWordStands fate (Mailing.handed doings)
      (reached ledger (Sitting.opened session answers pace now, lives) cues).1 := by
  have hup := available_run fate doings
  refine ⟨fun hover hcreated hcompleted => ?_, fun i a ha hcreated hupdated => ?_⟩
  · have hheld := held_session ledger hhanded hover hcreated hcompleted
    rw [Cabinet.session?, Cabinet.guarded, if_pos hup, ← List.head?_filter]
    exact congrArg (fun l => Except.ok (List.head? l)) hheld
  · have hheld := held_answer ledger hanswers hhanded ha hcreated hupdated
    rw [id_reached, Cabinet.answersOf, Cabinet.guarded, if_pos hup]
    refine ⟨_, rfl, ?_⟩
    -- sorting changes nothing about which answers belong to the question
    have hsorted := (List.mergeSort_perm (((Mailing.run fate doings).records.cabinet.answers.filter
      fun e => e.1 == session.id).map Prod.snd) fun b c => b.questionIndex ≤ c.questionIndex).filter
        fun b => b.questionIndex == i
    refine List.perm_singleton.mp (hsorted.trans (.of_eq ?_))
    have hmine : (Mailing.run fate doings).records.cabinet.answers.filter (fun e =>
        ((fun b : Answer => b.questionIndex == i) ∘ Prod.snd) e && e.1 == session.id) =
          [(session.id, a)] :=
      (List.filter_congr fun e _ => Bool.and_comm ..).trans hheld
    rw [List.filter_map, List.filter_filter, hmine]
    rfl

/-- Every attempt gets lost at the first edit of the code and at both counts of the penalties; each
other write is carried out at the second attempt, and at the third once more. -/
def careless : Fate
  | 4, _ => .lost
  | 7, _ => .lost
  | 9, _ => .lost
  | _, 0 => .lost
  | _, 1 => .unacknowledged
  | _, _ => .arrives

/-- An effort that ends with the last life: three of its writes are dropped, and its records are
complete in the end. -/
theorem last_word_stands_careless :
    let start : Sitting × Shelf :=
      (.opened (.specimen 2) (Service.placeholders default) .specimen 0, .empty)
    let final := (reached (.lasting Shelf.store 2) start lastEffort).1
    let mailing := Mailing.run careless Mailing.troubledDoings
    Mailing.handed Mailing.troubledDoings =
        writes (deeds (.lasting Shelf.store 2) start lastEffort) ∧
      mailing.scribe.inHand = [] ∧
      ((Mailing.handed Mailing.troubledDoings).zipIdx.filter fun e =>
        !mailing.hasCarried careless e.2 e.1).map Prod.snd = [4, 7, 9] ∧
      final.session.status = .disqualified ∧
      mailing.LastWordStands careless (Mailing.handed Mailing.troubledDoings) final := by
  have hhanded : Mailing.handed Mailing.troubledDoings =
      writes (deeds (.lasting Shelf.store 2)
        ((.opened (.specimen 2) (Service.placeholders default) .specimen 0, .empty) :
          Sitting × Shelf) lastEffort) := by decide +kernel
  refine ⟨hhanded, by decide +kernel, by decide +kernel, by decide +kernel, ?_⟩
  exact last_word_stands (.lasting Shelf.store 2) (.specimen 2) (Service.placeholders default)
    .specimen 0 .empty lastEffort careless Mailing.troubledDoings
    (Service.placeholders_indexed default) hhanded

end Turn

end Invigilator
