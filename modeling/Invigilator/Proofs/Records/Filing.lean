import Invigilator.Proofs.Sitting.Stretch
import Invigilator.Records.Cabinet

/-!
# Filing

Writes are carried out one after the other, each at some moment: that is `applyAll`. The records
that hold one sitting and nothing else are `Sitting.filed`, and each write of that sitting takes
them to the records of a sitting again. So what a list of writes does is read off the sitting
that it leads to, and nobody has to look into the cabinet.

Violations are kept by their ids, so their list is an argument of its own: it is that of the
sitting as long as the ids differ (`foldl_recorded`).
-/

namespace Invigilator

/-- A write, and the moment at which it is carried out. -/
structure Posting where
  time : Stamp
  write : RecordWrite
deriving DecidableEq, Repr, Inhabited

namespace Records

/-- Carries out writes in order; the first that fails stops it. -/
def applyAll (r : Records) : List Posting → Except BackendFault Records
  | [] => .ok r
  | p :: ps => (r.apply p.time p.write).bind fun r => r.applyAll ps

@[simp] theorem applyAll_nil (r : Records) : r.applyAll [] = .ok r := rfl

theorem applyAll_cons {r r' : Records} {p : Posting} (ps : List Posting)
    (h : r.apply p.time p.write = .ok r') : r.applyAll (p :: ps) = r'.applyAll ps := by
  rw [applyAll, h]
  rfl

theorem applyAll_append {r r' : Records} {ps : List Posting} (qs : List Posting)
    (h : r.applyAll ps = .ok r') : r.applyAll (ps ++ qs) = r'.applyAll qs := by
  induction ps generalizing r with
  | nil =>
    cases h
    rfl
  | cons p ps ih =>
    rw [applyAll] at h
    cases hp : r.apply p.time p.write with
    | error e =>
      rw [hp] at h
      cases h
    | ok next =>
      rw [hp] at h
      rw [List.cons_append, applyAll_cons _ hp]
      exact ih h

end Records

namespace Cabinet

/-- An element that is picked, with none picked before it, is the one that changes. -/
theorem updateFirst_eq_set {α : Type} {picks : α → Bool} {change : α → α} {l : List α} {i : Nat}
    {a : α} (ha : l[i]? = some a) (hpicks : picks a = true)
    (hfirst : ∀ j b, j < i → l[j]? = some b → picks b = false) :
    updateFirst picks change l = l.set i (change a) := by
  induction l generalizing i with
  | nil => cases ha
  | cons b rest ih =>
    cases i with
    | zero =>
      obtain rfl : b = a := Option.some.inj ha
      rw [updateFirst, if_pos hpicks, List.set_cons_zero]
    | succ i =>
      have hb : ¬picks b = true := by
        rw [hfirst 0 b (Nat.succ_pos i) rfl]
        exact Bool.false_ne_true
      rw [updateFirst, if_neg hb, List.set_cons_succ]
      exact congrArg (b :: ·) (ih ha fun j c hj hc => hfirst (j + 1) c (Nat.succ_lt_succ hj) hc)

/-- Violations with one more recorded: an earlier one of its id makes room. -/
def recorded (violations : List Violation) (v : Violation) : List Violation :=
  violations.filter (fun w => w.id != v.id) ++ [v]

/-- Violations of different ids are recorded one behind the other. -/
theorem foldl_recorded (old : List Violation) {new : List Violation}
    (h : ((old ++ new).map Violation.id).Nodup) : new.foldl recorded old = old ++ new := by
  induction new generalizing old with
  | nil => exact (List.append_nil old).symm
  | cons v new ih =>
    have hfresh : old.filter (fun w => w.id != v.id) = old := by
      rw [List.filter_eq_self]
      intro w hw
      rw [List.map_append, List.nodup_append] at h
      exact bne_iff_ne.mpr
        (h.2.2 w.id (List.mem_map_of_mem hw) v.id (List.mem_map_of_mem List.mem_cons_self))
    rw [List.foldl_cons, recorded, hfresh, ih _ (by rwa [List.append_assoc]), List.append_assoc]
    rfl

end Cabinet

/-! ## Patches -/

/-- The patch of a finished session carries all that finishing changes. -/
theorem Session.applyTo_finish {s : Session} (reason : Reason) (spent : Nat) (time : Stamp)
    (h : s.isActive = true) :
    (s.finish reason spent time).patch.applyTo s = s.finish reason spent time := by
  rw [Session.finish_active h]
  rfl

/-- The patch of a revised answer carries all that the revision changes. -/
theorem Answer.Revision.applyTo {old new : Answer} (h : old.Revision new) :
    new.patch.applyTo old = new := by
  cases h with
  | edit code =>
    -- an edit leaves the time of the last run as it is, and so does a patch without one
    simp [AnswerPatch.applyTo, Answer.patch, Answer.edit]
  | run result time => rfl

theorem Answer.Revision.questionIndex {old new : Answer} (h : old.Revision new) :
    new.questionIndex = old.questionIndex := by
  cases h <;> rfl

/-! ## One sitting in the records -/

/-- Every answer stands at the place of its question. -/
def Answer.Indexed (answers : List Answer) : Prop :=
  ∀ (i : Nat) (a : Answer), answers[i]? = some a → a.questionIndex = i

namespace Sitting

/-- The parts of the records fit together: answers stand at the places of their questions, and
violations belong to the session. -/
structure Tidy (s : Sitting) : Prop where
  indexed : Answer.Indexed s.answers
  owned : ∀ v ∈ s.violations, v.sessionId = s.session.id

/-- The records that hold a sitting and nothing else, with some list of violations. -/
def filed (s : Sitting) (violations : List Violation) (gate : Gate) : Records :=
  ⟨⟨[s.session], s.answers.map fun a => (s.session.id, a), violations, true⟩, gate⟩

variable {s : Sitting} (violations : List Violation) (gate : Gate) (time : Stamp)

theorem apply_updateSession (patch : SessionPatch) :
    (s.filed violations gate).apply time (.updateSession s.session.id patch) =
      .ok (({ s with session := patch.applyTo s.session } : Sitting).filed violations gate) := by
  simp only [Records.apply, filed, Cabinet.updateSession, Cabinet.guarded, ↓reduceIte,
    List.any_cons, BEq.rfl, Bool.true_or, Cabinet.updateFirst]
  rfl

theorem apply_recordViolation (v : Violation) :
    (s.filed violations gate).apply time (.recordViolation v) =
      .ok (s.filed (Cabinet.recorded violations v) gate) := rfl

theorem apply_blockUser (userId id : String) :
    (s.filed violations gate).apply time (.blockUser userId id) =
      .ok (s.filed violations (gate.block userId id time)) := rfl

theorem isAnswerTo_filed (id : String) (index : Nat) (a : Answer) :
    Cabinet.isAnswerTo id index (id, a) = (a.questionIndex == index) := by
  rw [Cabinet.isAnswerTo, BEq.rfl, Bool.true_and]

theorem apply_updateAnswer (hs : s.Tidy) {index : Nat} {old : Answer}
    (hplace : s.answers[index]? = some old) (patch : AnswerPatch) :
    (s.filed violations gate).apply time (.updateAnswer s.session.id index patch) =
      .ok ((s.revised index (patch.applyTo old)).filed violations gate) := by
  have hentry : (s.answers.map fun a => (s.session.id, a))[index]? = some (s.session.id, old) := by
    rw [List.getElem?_map, hplace]
    rfl
  have hpicks : Cabinet.isAnswerTo s.session.id index (s.session.id, old) = true := by
    rw [isAnswerTo_filed, hs.indexed index old hplace]
    exact BEq.rfl
  have hfirst : ∀ j e, j < index → (s.answers.map fun a => (s.session.id, a))[j]? = some e →
      Cabinet.isAnswerTo s.session.id index e = false := by
    intro j e hj he
    rw [List.getElem?_map, Option.map_eq_some_iff] at he
    obtain ⟨a, ha, rfl⟩ := he
    rw [isAnswerTo_filed, hs.indexed j a ha]
    exact beq_false_of_ne (Nat.ne_of_lt hj)
  have hany : (s.answers.map fun a => (s.session.id, a)).any
      (Cabinet.isAnswerTo s.session.id index) = true :=
    List.any_eq_true.mpr ⟨_, List.mem_of_getElem? hentry, hpicks⟩
  simp only [Records.apply, filed, Cabinet.updateAnswer, Cabinet.guarded, ↓reduceIte, hany,
    Cabinet.updateFirst_eq_set hentry hpicks hfirst, revised, List.map_set]
  rfl

/-- Answers are created one behind the other, as long as their questions differ. -/
theorem applyAll_createAnswers (first : List Answer) {rest : List Answer}
    (hindexed : Answer.Indexed (first ++ rest)) {ps : List Posting}
    (hps : ps.map Posting.write = rest.map (.createAnswer s.session.id)) :
    (({ s with answers := first } : Sitting).filed violations gate).applyAll ps =
      .ok (({ s with answers := first ++ rest } : Sitting).filed violations gate) := by
  induction rest generalizing first ps with
  | nil =>
    rw [List.map_nil, List.map_eq_nil_iff] at hps
    rw [hps, List.append_nil, Records.applyAll_nil]
  | cons a rest ih =>
    rw [List.map_cons, List.map_eq_cons_iff] at hps
    obtain ⟨p, ps, rfl, hp, hps⟩ := hps
    have hlast : (first ++ a :: rest)[first.length]? = some a := by simp
    have ha : a.questionIndex = first.length := hindexed _ a hlast
    -- no answer that is there has the number of the new one, so none is replaced
    have hkept : (first.map fun b => (s.session.id, b)).filter
        (fun e => !Cabinet.isAnswerTo s.session.id a.questionIndex e) =
          first.map fun b => (s.session.id, b) := by
      rw [List.filter_eq_self]
      intro e he
      obtain ⟨b, hb, rfl⟩ := List.mem_map.mp he
      obtain ⟨j, hj, hbj⟩ := List.getElem_of_mem hb
      have hindex : b.questionIndex = j :=
        hindexed j b (by rw [List.getElem?_append_left hj, ← hbj, List.getElem?_eq_getElem hj])
      rw [isAnswerTo_filed, hindex, ha]
      exact congrArg Bool.not (beq_false_of_ne (Nat.ne_of_lt hj))
    have hstep : (({ s with answers := first } : Sitting).filed violations gate).apply p.time
        p.write = .ok (({ s with answers := first ++ [a] } : Sitting).filed violations gate) := by
      rw [hp]
      simp only [Records.apply, filed, Cabinet.createAnswer, Cabinet.guarded, ↓reduceIte, hkept,
        List.map_append]
      rfl
    rw [Records.applyAll_cons _ hstep, ih _ (by simpa using hindexed) hps, List.append_assoc]
    rfl

end Sitting

end Invigilator
