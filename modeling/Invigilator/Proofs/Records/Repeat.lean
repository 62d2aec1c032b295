import Invigilator.Records.Cabinet

/-!
# Writes that are repeated

A write that was carried out without word of it coming back is carried out again. On the cabinet
that changes nothing at all (`file_again`): creating and recording replace what is there, and a
patch says what a field is to be, not how it changes. At the gate the date of a block moves, and
nothing else.

So records are compared by `Alike`, which leaves the dates of blocks aside. A write takes records
that are alike to records that are alike (`Alike.apply`), and repeating it stays among them
(`alike_again`). No query tells such records apart.
-/

namespace Invigilator

/-! ## Patches -/

theorem getD_again {α : Type} (o : Option α) (x : α) : o.getD (o.getD x) = o.getD x := by
  cases o <;> rfl

theorem or_again {α : Type} (o x : Option α) : o.or (o.or x) = o.or x := by
  cases o <;> rfl

theorem SessionPatch.applyTo_again (p : SessionPatch) (s : Session) :
    p.applyTo (p.applyTo s) = p.applyTo s := by
  simp only [applyTo, getD_again, or_again]

theorem AnswerPatch.applyTo_again (p : AnswerPatch) (a : Answer) :
    p.applyTo (p.applyTo a) = p.applyTo a := by
  simp only [applyTo, getD_again, or_again]

/-! ## The cabinet -/

namespace Cabinet

/-- What a write does to the cabinet; a block is no concern of it. -/
def file (c : Cabinet) : RecordWrite → Except BackendFault Cabinet
  | .createSession s => c.createSession s
  | .createAnswer id a => c.createAnswer id a
  | .updateSession id p => c.updateSession id p
  | .updateAnswer id i p => c.updateAnswer id i p
  | .recordViolation v => c.recordViolation v
  | .blockUser .. => .ok c

/-- A call that succeeds was made on a cabinet that is switched on. -/
theorem guarded_eq_ok {α : Type} {c : Cabinet} {call : Except BackendFault α} {x : α} :
    c.guarded call = .ok x ↔ c.available = true ∧ call = .ok x := by
  unfold guarded
  cases c.available <;> simp

/-- An element put in the place of others takes its own place the second time. -/
theorem filter_concat_again {α : Type} {keeps : α → Bool} {x : α} (l : List α)
    (hx : keeps x = false) :
    (l.filter keeps ++ [x]).filter keeps ++ [x] = l.filter keeps ++ [x] := by
  rw [List.filter_append, List.filter_filter]
  simp [hx]

/-- The element that was changed is the first that is picked again. -/
theorem updateFirst_again {α : Type} {picks : α → Bool} {change : α → α}
    (hpicks : ∀ a, picks a = true → picks (change a) = true)
    (hchange : ∀ a, change (change a) = change a) (l : List α) :
    updateFirst picks change (updateFirst picks change l) = updateFirst picks change l := by
  induction l with
  | nil => rfl
  | cons a rest ih =>
    rw [updateFirst]
    split
    · rename_i ha
      rw [updateFirst, if_pos (hpicks a ha), hchange]
    · rename_i ha
      rw [updateFirst, if_neg ha, ih]

theorem any_updateFirst {α : Type} {picks : α → Bool} {change : α → α}
    (hpicks : ∀ a, picks a = true → picks (change a) = true) {l : List α}
    (h : l.any picks = true) : (updateFirst picks change l).any picks = true := by
  induction l with
  | nil => cases h
  | cons a rest ih =>
    rw [updateFirst]
    split
    · rename_i ha
      rw [List.any_cons, hpicks a ha, Bool.true_or]
    · rename_i ha
      rw [List.any_cons, Bool.or_eq_true] at h
      rw [List.any_cons, ih (h.resolve_left ha), Bool.or_true]

/-- **On the cabinet, doing a write twice is the same as doing it once.** -/
theorem file_again {c c' : Cabinet} {w : RecordWrite} (h : c.file w = .ok c') :
    c'.file w = .ok c' := by
  cases w with
  | createSession s =>
    obtain ⟨hup, heq⟩ := guarded_eq_ok.mp h
    obtain rfl := Except.ok.inj heq
    refine guarded_eq_ok.mpr ⟨hup, ?_⟩
    refine congrArg (fun l => Except.ok { c with sessions := l }) (filter_concat_again c.sessions ?_)
    exact bne_self_eq_false s.id
  | createAnswer id a =>
    obtain ⟨hup, heq⟩ := guarded_eq_ok.mp h
    obtain rfl := Except.ok.inj heq
    refine guarded_eq_ok.mpr ⟨hup, ?_⟩
    refine congrArg (fun l => Except.ok { c with answers := l }) (filter_concat_again c.answers ?_)
    simp [isAnswerTo]
  | recordViolation v =>
    obtain ⟨hup, heq⟩ := guarded_eq_ok.mp h
    obtain rfl := Except.ok.inj heq
    refine guarded_eq_ok.mpr ⟨hup, ?_⟩
    refine congrArg (fun l => Except.ok { c with violations := l })
      (filter_concat_again c.violations ?_)
    exact bne_self_eq_false v.id
  | updateSession id p =>
    obtain ⟨hup, heq⟩ := guarded_eq_ok.mp h
    split at heq
    · rename_i hany
      obtain rfl := Except.ok.inj heq
      -- a patch leaves the id alone, so the session it was meant for is found again
      have hpicks : ∀ s : Session, (s.id == id) = true → ((p.applyTo s).id == id) = true :=
        fun _ hs => hs
      refine guarded_eq_ok.mpr ⟨hup, ?_⟩
      rw [if_pos (any_updateFirst hpicks hany),
        updateFirst_again hpicks p.applyTo_again c.sessions]
    · cases heq
  | updateAnswer id i p =>
    obtain ⟨hup, heq⟩ := guarded_eq_ok.mp h
    split at heq
    · rename_i hany
      obtain rfl := Except.ok.inj heq
      have hpicks : ∀ e : String × Answer, isAnswerTo id i e = true →
          isAnswerTo id i (e.1, p.applyTo e.2) = true := fun _ he => he
      have hchange : ∀ e : String × Answer,
          (e.1, p.applyTo (p.applyTo e.2)) = (e.1, p.applyTo e.2) :=
        fun e => congrArg (e.1, ·) (p.applyTo_again e.2)
      refine guarded_eq_ok.mpr ⟨hup, ?_⟩
      rw [if_pos (any_updateFirst hpicks hany), updateFirst_again hpicks hchange c.answers]
    · cases heq
  | blockUser userId id =>
    cases h
    rfl

end Cabinet

/-! ## The gate -/

namespace EligibilityRecord

/-- The record without the date of the block. -/
def undated (r : EligibilityRecord) : EligibilityRecord := { r with blockedAt := none }

end EligibilityRecord

namespace Gate

/-- What is on record at the gate, without the dates of blocks. -/
def undated (g : Gate) : List EligibilityRecord := g.records.map EligibilityRecord.undated

/-- What a write does to the gate: only a block does anything. -/
def file (g : Gate) (time : Stamp) : RecordWrite → Gate
  | .createSession _ => g
  | .createAnswer .. => g
  | .updateSession .. => g
  | .updateAnswer .. => g
  | .recordViolation _ => g
  | .blockUser userId id => g.block userId id time

theorem undated_block (g : Gate) (userId id : String) (time : Stamp) :
    (g.block userId id time).undated =
      (EligibilityRecord.block userId id time).undated ::
        g.undated.filter (fun r => r.userId != userId) := by
  simp only [block, put, undated, List.map_cons, List.filter_map]
  rfl

/-- Who may start does not hang on dates. -/
theorem isEligible_eq (g : Gate) (userId : String) :
    g.isEligible userId =
      !(g.undated.find? fun r => r.userId == userId).any EligibilityRecord.isBlocked := by
  rw [isEligible, find?, undated, List.find?_map, Option.any_map]
  rfl

/-- The date of a write is the only thing that it leaves at the gate of its time. -/
theorem undated_file {g g' : Gate} (h : g.undated = g'.undated) (time time' : Stamp)
    (w : RecordWrite) : (g.file time w).undated = (g'.file time' w).undated := by
  cases w with
  | blockUser userId id =>
    rw [file, file, undated_block, undated_block, h]
    rfl
  | createSession s => exact h
  | createAnswer id a => exact h
  | updateSession id p => exact h
  | updateAnswer id i p => exact h
  | recordViolation v => exact h

/-- A block that is repeated moves the date, and nothing else. -/
theorem undated_file_again (g : Gate) (time time' : Stamp) (w : RecordWrite) :
    ((g.file time w).file time' w).undated = (g.file time w).undated := by
  cases w with
  | blockUser userId id =>
    rw [file, file, undated_block, undated_block, List.filter_cons, List.filter_filter]
    simp [EligibilityRecord.undated, EligibilityRecord.block]
  | createSession s => rfl
  | createAnswer id a => rfl
  | updateSession id p => rfl
  | updateAnswer id i p => rfl
  | recordViolation v => rfl

end Gate

/-! ## The records -/

namespace Records

/-- A write goes to the cabinet and to the gate, and it fails if the cabinet refuses it. -/
theorem apply_eq (r : Records) (time : Stamp) (w : RecordWrite) :
    r.apply time w = (r.cabinet.file w).map fun c => ⟨c, r.gate.file time w⟩ := by
  cases w <;> rfl

/-- Records that differ at most in the dates of blocks. -/
structure Alike (r r' : Records) : Prop where
  cabinet : r.cabinet = r'.cabinet
  gate : r.gate.undated = r'.gate.undated

theorem Alike.refl (r : Records) : Alike r r := ⟨rfl, rfl⟩

theorem Alike.symm {r r' : Records} (h : Alike r r') : Alike r' r := ⟨h.cabinet.symm, h.gate.symm⟩

theorem Alike.trans {r r' r'' : Records} (h : Alike r r') (h' : Alike r' r'') : Alike r r'' :=
  ⟨h.cabinet.trans h'.cabinet, h.gate.trans h'.gate⟩

/-- A write does the same to records that are alike, whenever it is carried out. -/
theorem Alike.apply {r r' next : Records} {time : Stamp} {w : RecordWrite} (h : Alike r r')
    (hw : r.apply time w = .ok next) (time' : Stamp) :
    ∃ next', r'.apply time' w = .ok next' ∧ Alike next next' := by
  rw [apply_eq] at hw
  cases hc : r.cabinet.file w with
  | error e =>
    rw [hc] at hw
    cases hw
  | ok c =>
    rw [hc] at hw
    obtain rfl := Except.ok.inj hw
    refine ⟨⟨c, r'.gate.file time' w⟩, ?_, rfl, Gate.undated_file h.gate time time' w⟩
    rw [apply_eq, ← h.cabinet, hc]
    rfl

/-- A write is refused by records that are alike, whenever it is tried. -/
theorem Alike.refused {r r' : Records} {time : Stamp} {w : RecordWrite} {e : BackendFault}
    (h : Alike r r') (hw : r.apply time w = .error e) (time' : Stamp) :
    r'.apply time' w = .error e := by
  rw [apply_eq] at hw ⊢
  rw [← h.cabinet]
  cases hc : r.cabinet.file w with
  | error e' =>
    rw [hc] at hw
    exact hw
  | ok c =>
    rw [hc] at hw
    cases hw

/-- **A write that is repeated is carried out again, and changes nothing but the date of a
block.** -/
theorem apply_again {r r' : Records} {time : Stamp} {w : RecordWrite}
    (hw : r.apply time w = .ok r') (time' : Stamp) :
    ∃ r'', r'.apply time' w = .ok r'' ∧ Alike r' r'' := by
  rw [apply_eq] at hw
  cases hc : r.cabinet.file w with
  | error e =>
    rw [hc] at hw
    cases hw
  | ok c =>
    rw [hc] at hw
    obtain rfl := Except.ok.inj hw
    refine ⟨⟨c, (r.gate.file time w).file time' w⟩, ?_, rfl,
      (Gate.undated_file_again r.gate time time' w).symm⟩
    rw [apply_eq, Cabinet.file_again hc]
    rfl

/-- No query tells records apart that are alike. -/
structure SameAnswers (r r' : Records) : Prop where
  session : ∀ id, r.cabinet.session? id = r'.cabinet.session? id
  /-- Contents and order. -/
  answers : ∀ id, r.cabinet.answersOf id = r'.cabinet.answersOf id
  /-- Contents and order. -/
  violations : ∀ id, r.cabinet.violationsOf id = r'.cabinet.violationsOf id
  eligible : ∀ userId, r.gate.isEligible userId = r'.gate.isEligible userId

theorem Alike.sameAnswers {r r' : Records} (h : Alike r r') : SameAnswers r r' where
  session id := by rw [h.cabinet]
  answers id := by rw [h.cabinet]
  violations id := by rw [h.cabinet]
  eligible userId := by rw [Gate.isEligible_eq, Gate.isEligible_eq, h.gate]

end Records

end Invigilator
