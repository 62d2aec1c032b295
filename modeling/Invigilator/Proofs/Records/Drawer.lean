import Invigilator.Proofs.Records.Delivery

/-!
# Places of the cabinet

The cabinet holds all records together, and a write looks for its own among them. What it does to
one place, that of a session or of an answer, is a `Stroke`: it puts a record there, it changes
the one that is there, or it passes. A `Drawer` is a place with the strokes of all writes and the
proof that they are what the cabinet does. So a place is understood without the rest of the
cabinet: after some writes it holds what their strokes leave in it (`held_settled`).
-/

namespace Invigilator

/-! ## Strokes -/

/-- What a write does to one place. -/
inductive Stroke (α : Type) where
  | put (x : α)
  | change (f : α → α)
  | pass

namespace Stroke

variable {α : Type}

/-- What a place holds after a stroke. -/
def on : Stroke α → List α → List α
  | put x, _ => [x]
  | change f, l => l.modifyHead f
  | pass, l => l

/-- Nothing is put, and what has a property keeps it. -/
def Keeps (P : α → Prop) : Stroke α → Prop
  | put _ => False
  | change f => ∀ x, P x → P (f x)
  | pass => True

/-- A place has room for one record. -/
theorem length_on_le (st : Stroke α) {l : List α} (h : l.length ≤ 1) : (st.on l).length ≤ 1 := by
  cases st with
  | put x => exact Nat.le_refl 1
  | change f => rwa [on, List.length_modifyHead]
  | pass => exact h

/-- Only what is put fills a place. -/
theorem on_eq_nil_iff {st : Stroke α} {l : List α} :
    st.on l = [] ↔ l = [] ∧ ∀ x, st ≠ put x := by
  cases st with
  | put x => simp [on]
  | change f => cases l <;> simp [on]
  | pass => simp [on]

end Stroke

namespace Cabinet

/-- The cabinet after a write, which it may refuse. -/
def after (c : Cabinet) (w : RecordWrite) : Cabinet :=
  match c.file w with
  | .ok c' => c'
  | .error _ => c

section Filters

variable {α : Type} {picks mine : α → Bool}

/-- Where nothing is picked, nothing changes. -/
theorem updateFirst_eq_self {change : α → α} {l : List α} (h : l.any picks = false) :
    updateFirst picks change l = l := by
  induction l with
  | nil => rfl
  | cons a rest ih =>
    rw [List.any_cons, Bool.or_eq_false_iff] at h
    rw [updateFirst, if_neg (by rw [h.1]; exact Bool.false_ne_true), ih h.2]

/-- Where something is picked, the first of those changes in its place. -/
theorem exists_updateFirst (change : α → α) {l : List α} (h : l.any picks = true) :
    ∃ before a behind, l = before ++ a :: behind ∧ picks a = true ∧
      updateFirst picks change l = before ++ change a :: behind := by
  induction l with
  | nil => cases h
  | cons a rest ih =>
    by_cases ha : picks a = true
    · exact ⟨[], a, rest, rfl, ha, by rw [updateFirst, if_pos ha]; rfl⟩
    · -- then the one that changes is behind
      rw [List.any_cons, Bool.or_eq_true] at h
      obtain ⟨before, b, behind, rfl, hb, hupdate⟩ := ih (h.resolve_left ha)
      exact ⟨a :: before, b, behind, rfl, hb, by rw [updateFirst, if_neg ha, hupdate]; rfl⟩

/-- Among those that are picked, the first is changed. -/
theorem filter_updateFirst (change : α → α) (hchange : ∀ a, picks (change a) = picks a)
    (l : List α) :
    (updateFirst picks change l).filter picks = (l.filter picks).modifyHead change := by
  induction l with
  | nil => rfl
  | cons a rest ih =>
    by_cases ha : picks a = true
    · rw [updateFirst, if_pos ha, List.filter_cons_of_pos ((hchange a).trans ha),
        List.filter_cons_of_pos ha]
      rfl
    · rw [updateFirst, if_neg ha, List.filter_cons_of_neg ha, ih, List.filter_cons_of_neg ha]

/-- Among others, nothing is changed. -/
theorem filter_updateFirst_other (change : α → α) (hchange : ∀ a, mine (change a) = mine a)
    (hother : ∀ a, picks a = true → mine a = false) (l : List α) :
    (updateFirst picks change l).filter mine = l.filter mine := by
  induction l with
  | nil => rfl
  | cons a rest ih =>
    by_cases ha : picks a = true
    · -- what is picked is none of mine, before its change or after
      have hnot : ¬mine a = true := by
        rw [hother a ha]
        exact Bool.false_ne_true
      have hnot' : ¬mine (change a) = true := by rwa [hchange]
      rw [updateFirst, if_pos ha, List.filter_cons_of_neg hnot, List.filter_cons_of_neg hnot']
    · rw [updateFirst, if_neg ha, List.filter_cons, List.filter_cons, ih]

/-- What takes the place of all that are picked is the one that is picked then. -/
theorem filter_concat_mine {keeps : α → Bool} {x : α} (l : List α)
    (hkeeps : ∀ a, mine a = true → keeps a = false) (hx : mine x = true) :
    (l.filter keeps ++ [x]).filter mine = [x] := by
  have hgone : (l.filter keeps).filter mine = [] := by
    rw [List.filter_filter, List.filter_eq_nil_iff]
    intro a _ hboth
    rw [Bool.and_eq_true] at hboth
    rw [hkeeps a hboth.1] at hboth
    cases hboth.2
  rw [List.filter_append, hgone, List.nil_append, List.filter_cons_of_pos hx, List.filter_nil]

/-- What takes the place of others makes no difference. -/
theorem filter_concat_other {keeps : α → Bool} {x : α} (l : List α)
    (hkeeps : ∀ a, mine a = true → keeps a = true) (hx : mine x = false) :
    (l.filter keeps ++ [x]).filter mine = l.filter mine := by
  have hall : (l.filter keeps).filter mine = l.filter mine := by
    rw [List.filter_filter]
    refine List.filter_congr fun a _ => ?_
    cases hmine : mine a with
    | false => rfl
    | true => rw [hkeeps a hmine]; rfl
  rw [List.filter_append, hall, List.filter_cons_of_neg (by rw [hx]; exact Bool.false_ne_true),
    List.filter_nil, List.append_nil]

end Filters

variable {c : Cabinet}

/-- An update that is refused would change nothing. -/
theorem after_updateSession (h : c.available = true) (id : String) (p : SessionPatch) :
    c.after (.updateSession id p) =
      { c with sessions := updateFirst (fun s => s.id == id) p.applyTo c.sessions } := by
  rw [after, file, updateSession, guarded, if_pos h]
  cases hany : c.sessions.any fun s => s.id == id with
  | true => rfl
  | false => rw [updateFirst_eq_self hany]; rfl

theorem after_updateAnswer (h : c.available = true) (id : String) (i : Nat) (p : AnswerPatch) :
    c.after (.updateAnswer id i p) =
      { c with
        answers := updateFirst (isAnswerTo id i) (fun e => (e.1, p.applyTo e.2)) c.answers } := by
  rw [after, file, updateAnswer, guarded, if_pos h]
  cases hany : c.answers.any (isAnswerTo id i) with
  | true => rfl
  | false => rw [updateFirst_eq_self hany]; rfl

theorem after_createSession (h : c.available = true) (s : Session) :
    c.after (.createSession s) =
      { c with sessions := c.sessions.filter (fun t => t.id != s.id) ++ [s] } := by
  rw [after, file, createSession, guarded, if_pos h]

theorem after_createAnswer (h : c.available = true) (id : String) (a : Answer) :
    c.after (.createAnswer id a) =
      { c with
        answers := (c.answers.filter fun e => !isAnswerTo id a.questionIndex e) ++ [(id, a)] } := by
  rw [after, file, createAnswer, guarded, if_pos h]

theorem after_recordViolation (h : c.available = true) (v : Violation) :
    c.after (.recordViolation v) = { c with violations := recorded c.violations v } := by
  rw [after, file, recordViolation, guarded, if_pos h]
  rfl

theorem after_blockUser (userId id : String) : c.after (.blockUser userId id) = c := rfl

theorem after_available (h : c.available = true) (w : RecordWrite) :
    (c.after w).available = true := by
  cases w with
  | createSession s => rw [after_createSession h]; exact h
  | createAnswer id a => rw [after_createAnswer h]; exact h
  | updateSession id p => rw [after_updateSession h]; exact h
  | updateAnswer id i p => rw [after_updateAnswer h]; exact h
  | recordViolation v => rw [after_recordViolation h]; exact h
  | blockUser userId id => rw [after_blockUser]; exact h

end Cabinet

theorem Records.carryOut_cabinet (r : Records) (w : RecordWrite) :
    (r.carryOut w).cabinet = r.cabinet.after w := by
  rw [carryOut, apply_eq, Cabinet.after]
  cases r.cabinet.file w <;> rfl

/-- Nothing switches the cabinet off. -/
theorem Records.settled_available (ws : List RecordWrite) :
    (settled ws).cabinet.available = true := by
  induction ws using List.reverseRecOn with
  | nil => rfl
  | append_singleton ws w ih =>
    rw [settled_concat, carryOut_cabinet]
    exact Cabinet.after_available ih w

namespace RecordWrite

/-- The write adds a record. -/
def adds : RecordWrite → Bool
  | createSession _ => true
  | createAnswer .. => true
  | updateSession .. => false
  | updateAnswer .. => false
  | recordViolation _ => false
  | blockUser .. => false

/-- What a write does to the place of a session. -/
def onSession (id : String) : RecordWrite → Stroke Session
  | createSession s => if s.id = id then .put s else .pass
  | updateSession id' p => if id' = id then .change p.applyTo else .pass
  | createAnswer .. => .pass
  | updateAnswer .. => .pass
  | recordViolation _ => .pass
  | blockUser .. => .pass

/-- What a write does to the place of the answer to a question. -/
def onAnswer (id : String) (i : Nat) : RecordWrite → Stroke (String × Answer)
  | createAnswer id' a => if id' = id ∧ a.questionIndex = i then .put (id', a) else .pass
  | updateAnswer id' j p =>
    if id' = id ∧ j = i then .change fun e => (e.1, p.applyTo e.2) else .pass
  | createSession _ => .pass
  | updateSession .. => .pass
  | recordViolation _ => .pass
  | blockUser .. => .pass

end RecordWrite

namespace Cabinet

variable {c : Cabinet}

theorem isAnswerTo_iff {id : String} {i : Nat} {e : String × Answer} :
    isAnswerTo id i e = true ↔ e.1 = id ∧ e.2.questionIndex = i := by
  rw [isAnswerTo, Bool.and_eq_true, beq_iff_eq, beq_iff_eq]

/-- What belongs to one place belongs to no other. -/
theorem isAnswerTo_other {id id' : String} {i j : Nat} (h : ¬(id' = id ∧ j = i))
    {e : String × Answer} (he : isAnswerTo id' j e = true) : isAnswerTo id i e = false := by
  rw [← Bool.not_eq_true, isAnswerTo_iff]
  obtain ⟨rfl, rfl⟩ := isAnswerTo_iff.mp he
  exact h

theorem sessions_after (h : c.available = true) (id : String) (w : RecordWrite) :
    (c.after w).sessions.filter (fun s => s.id == id) =
      (w.onSession id).on (c.sessions.filter fun s => s.id == id) := by
  cases w with
  | createSession s =>
    rw [after_createSession h, RecordWrite.onSession]
    by_cases hid : s.id = id
    · -- whatever was under the id makes room
      rw [if_pos hid, ← hid]
      refine filter_concat_mine _ (fun t ht => ?_) BEq.rfl
      rw [beq_iff_eq.mp ht]
      exact bne_self_eq_false s.id
    · rw [if_neg hid]
      refine filter_concat_other _ (fun t ht => ?_) (beq_false_of_ne hid)
      rw [beq_iff_eq.mp ht]
      exact bne_iff_ne.mpr (Ne.symm hid)
  | updateSession id' p =>
    rw [after_updateSession h, RecordWrite.onSession]
    by_cases hid : id' = id
    · rw [if_pos hid, hid]
      exact filter_updateFirst p.applyTo (fun _ => rfl) _
    · rw [if_neg hid]
      have hother : ∀ t : Session, (t.id == id') = true → (t.id == id) = false := by
        intro t ht
        rw [beq_iff_eq.mp ht]
        exact beq_false_of_ne hid
      exact filter_updateFirst_other p.applyTo (fun _ => rfl) hother _
  | createAnswer id' a => rw [after_createAnswer h]; rfl
  | updateAnswer id' j p => rw [after_updateAnswer h]; rfl
  | recordViolation v => rw [after_recordViolation h]; rfl
  | blockUser userId id' => rfl

theorem answers_after (h : c.available = true) (id : String) (i : Nat) (w : RecordWrite) :
    (c.after w).answers.filter (isAnswerTo id i) =
      (w.onAnswer id i).on (c.answers.filter (isAnswerTo id i)) := by
  cases w with
  | createAnswer id' a =>
    rw [after_createAnswer h, RecordWrite.onAnswer]
    by_cases hkey : id' = id ∧ a.questionIndex = i
    · rw [if_pos hkey, ← hkey.1, ← hkey.2]
      exact filter_concat_mine _ (fun e he => by rw [he]; rfl) (isAnswerTo_iff.mpr ⟨rfl, rfl⟩)
    · rw [if_neg hkey]
      have hkey' : ¬(id = id' ∧ i = a.questionIndex) := fun h => hkey ⟨h.1.symm, h.2.symm⟩
      refine filter_concat_other _ (fun e he => ?_) ?_
      · rw [isAnswerTo_other hkey' he]
        rfl
      · exact isAnswerTo_other hkey (isAnswerTo_iff.mpr ⟨rfl, rfl⟩)
  | updateAnswer id' j p =>
    rw [after_updateAnswer h, RecordWrite.onAnswer]
    by_cases hkey : id' = id ∧ j = i
    · rw [if_pos hkey, hkey.1, hkey.2]
      exact filter_updateFirst (fun e => (e.1, p.applyTo e.2)) (fun _ => rfl) _
    · rw [if_neg hkey]
      exact filter_updateFirst_other (fun e => (e.1, p.applyTo e.2)) (fun _ => rfl)
        (fun _ he => isAnswerTo_other hkey he) _
  | createSession s => rw [after_createSession h]; rfl
  | updateSession id' p => rw [after_updateSession h]; rfl
  | recordViolation v => rw [after_recordViolation h]; rfl
  | blockUser userId id' => rfl

end Cabinet

/-- A place of the cabinet: what it holds, and what each write does to it. -/
structure Drawer (α : Type) where
  held : Cabinet → List α
  stroke : RecordWrite → Stroke α
  held_empty : held .empty = []
  held_after : ∀ (c : Cabinet) (w : RecordWrite), c.available = true →
    held (c.after w) = (stroke w).on (held c)

namespace Drawer

/-- The place of a session. -/
def session (id : String) : Drawer Session where
  held c := c.sessions.filter fun s => s.id == id
  stroke := RecordWrite.onSession id
  held_empty := rfl
  held_after _ w h := Cabinet.sessions_after h id w

/-- The place of the answer to a question of a session. -/
def answer (id : String) (i : Nat) : Drawer (String × Answer) where
  held c := c.answers.filter (Cabinet.isAnswerTo id i)
  stroke := RecordWrite.onAnswer id i
  held_empty := rfl
  held_after _ w h := Cabinet.answers_after h id i w

variable {α : Type} (d : Drawer α)

/-- What a place holds after some writes. -/
def drawn (l : List α) (ws : List RecordWrite) : List α :=
  ws.foldl (fun l w => (d.stroke w).on l) l

theorem drawn_cons (l : List α) (w : RecordWrite) (ws : List RecordWrite) :
    d.drawn l (w :: ws) = d.drawn ((d.stroke w).on l) ws := rfl

theorem drawn_append (l : List α) (ws more : List RecordWrite) :
    d.drawn l (ws ++ more) = d.drawn (d.drawn l ws) more := List.foldl_append

/-- A place holds what the writes do to it. -/
theorem held_settled (ws : List RecordWrite) :
    d.held (Records.settled ws).cabinet = d.drawn [] ws := by
  induction ws using List.reverseRecOn with
  | nil => exact d.held_empty
  | append_singleton ws w ih =>
    rw [Records.settled_concat, Records.carryOut_cabinet,
      d.held_after _ w (Records.settled_available ws), ih, drawn_append]
    rfl

theorem length_drawn_le {l : List α} (h : l.length ≤ 1) (ws : List RecordWrite) :
    (d.drawn l ws).length ≤ 1 := by
  induction ws generalizing l with
  | nil => exact h
  | cons w ws ih => exact ih ((d.stroke w).length_on_le h)

/-- A place is empty as long as nothing is put there. -/
theorem drawn_eq_nil_iff {l : List α} {ws : List RecordWrite} :
    d.drawn l ws = [] ↔ l = [] ∧ ∀ w ∈ ws, ∀ x, d.stroke w ≠ .put x := by
  induction ws generalizing l with
  | nil => simp [drawn]
  | cons w ws ih => rw [drawn_cons, ih, Stroke.on_eq_nil_iff, List.forall_mem_cons, and_assoc]

variable {d}

/-- Writes that pass a place by leave it alone. -/
theorem drawn_pass {ws : List RecordWrite} (h : ∀ w ∈ ws, d.stroke w = .pass) (l : List α) :
    d.drawn l ws = l := by
  induction ws with
  | nil => rfl
  | cons w ws ih =>
    rw [drawn_cons, h w List.mem_cons_self]
    exact ih fun v hv => h v (List.mem_cons_of_mem _ hv)

/-- Writes that only change a place leave one record in it, with the property that they keep. -/
theorem drawn_keeps {P : α → Prop} {ws : List RecordWrite}
    (h : ∀ w ∈ ws, (d.stroke w).Keeps P) {x : α} (hx : P x) :
    ∃ y, d.drawn [x] ws = [y] ∧ P y := by
  induction ws generalizing x with
  | nil => exact ⟨x, rfl, hx⟩
  | cons w ws ih =>
    have hw := h w List.mem_cons_self
    have hrest : ∀ v ∈ ws, (d.stroke v).Keeps P := fun v hv => h v (List.mem_cons_of_mem _ hv)
    rw [drawn_cons]
    cases hstroke : d.stroke w with
    | put y => rw [hstroke] at hw; exact hw.elim -- what keeps a property puts nothing
    | pass => exact ih hrest hx
    | change f =>
      rw [hstroke] at hw
      exact ih hrest (hw x hx)

end Drawer

end Invigilator
