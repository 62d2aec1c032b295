import Invigilator.Proofs.Records.Mirror
import Invigilator.Proofs.Records.Repeat
import Invigilator.Service.Courier
import Mathlib.Data.List.Induction

/-!
# Writes arrive once in effect

A scribe is handed writes while it works, and every attempt at a write may get lost, or be carried
out without word of it coming back. A `Fate` says what becomes of the attempts at each write; it
is bearable if each write arrives before the scribe loses patience with it.

`OnCourse` is the invariant of a scribe at work. The writes that are done with have left the
records as they would be without any failure; the one under way was carried out or not; the rest
is waiting in order. As repeating a write changes nothing but the date of a block, nothing is
lost, doubled or moved, and once the scribe has nothing left to do the records give the answers
that they would give if nothing had failed.
-/

namespace Invigilator

/-- What becomes of every attempt at every write, both counted from zero. -/
abbrev Fate : Type := Nat → Nat → Records.Passage

namespace Fate

/-- No attempt fails. -/
def flawless : Fate := fun _ _ => .arrives

/-- Each of some writes arrives at an attempt for which the scribe still has patience. -/
def Bearable (fate : Fate) (ws : List RecordWrite) : Prop :=
  ∀ (i : Nat) (w : RecordWrite), ws[i]? = some w →
    ∃ k, k < w.retryPolicy.maxAttempts ∧ fate i k = .arrives

end Fate

theorem RecordWrite.retryPolicy_eq (w : RecordWrite) :
    w.retryPolicy = .standard ∨ w.retryPolicy = .persistent := by
  cases w with
  | updateSession id p =>
    rw [retryPolicy]
    split
    · exact .inr rfl
    · exact .inl rfl
  | createSession s => exact .inl rfl
  | createAnswer id a => exact .inl rfl
  | updateAnswer id i p => exact .inl rfl
  | recordViolation v => exact .inr rfl
  | blockUser userId id => exact .inr rfl

theorem RecordWrite.maxAttempts_pos (w : RecordWrite) : 0 < w.retryPolicy.maxAttempts := by
  rcases w.retryPolicy_eq with h | h <;> rw [h] <;> decide

theorem Fate.bearable_flawless (ws : List RecordWrite) : flawless.Bearable ws :=
  fun _ w _ => ⟨0, w.maxAttempts_pos, rfl⟩

theorem Fate.Bearable.of_append {fate : Fate} {ws more : List RecordWrite}
    (h : fate.Bearable (ws ++ more)) : fate.Bearable ws := by
  intro i w hw
  refine h i w ?_
  rw [List.getElem?_append_left (List.getElem?_eq_some_iff.mp hw).1, hw]

/-! ## Without failures -/

namespace Records

/-- The records after a write, which they may refuse. -/
def carryOut (r : Records) (w : RecordWrite) : Records :=
  match r.apply default w with
  | .ok r' => r'
  | .error _ => r

/-- The records after some writes in order, without any failure on the way. -/
def settled (ws : List RecordWrite) : Records := ws.foldl carryOut .empty

theorem carryOut_ok {r r' : Records} {w : RecordWrite} (h : r.apply default w = .ok r') :
    r.carryOut w = r' := by
  rw [carryOut, h]

theorem carryOut_error {r : Records} {w : RecordWrite} {e : BackendFault}
    (h : r.apply default w = .error e) : r.carryOut w = r := by
  rw [carryOut, h]

theorem settled_concat (ws : List RecordWrite) (w : RecordWrite) :
    settled (ws ++ [w]) = (settled ws).carryOut w := by
  rw [settled, List.foldl_append]
  rfl

/-- Writes that all succeed lead where they lead without failures, but for dates. -/
theorem Alike.foldl_carryOut {a b r : Records} (h : Alike a b) {ps : List Posting}
    (hps : b.applyAll ps = .ok r) : Alike ((ps.map Posting.write).foldl carryOut a) r := by
  induction ps generalizing a b with
  | nil =>
    cases hps
    exact h
  | cons p ps ih =>
    cases hp : b.apply p.time p.write with
    | error e =>
      rw [applyAll, hp] at hps
      cases hps
    | ok next =>
      rw [applyAll_cons ps hp] at hps
      obtain ⟨next', hnext', halike⟩ := h.symm.apply hp default
      rw [List.map_cons, List.foldl_cons, carryOut_ok hnext']
      exact ih halike.symm hps

/-! ## Attempts -/

/-- The records stand where they would stand before a write, or where they would after it. -/
def EitherSide (r : Records) (w : RecordWrite) (now : Records) : Prop :=
  Alike r now ∨ ∃ r', r.apply default w = .ok r' ∧ Alike r' now

/-- A write that is carried out on either side of it leads to the far side. -/
theorem EitherSide.apply {r now next : Records} {w : RecordWrite} {time : Stamp}
    (h : EitherSide r w now) (hw : now.apply time w = .ok next) :
    ∃ r', r.apply default w = .ok r' ∧ Alike r' next := by
  rcases h with hbefore | ⟨r', hr', hafter⟩
  · obtain ⟨r', hr', halike⟩ := hbefore.symm.apply hw default
    exact ⟨r', hr', halike.symm⟩
  · -- it was carried out before, so now it is repeated
    obtain ⟨r'', hr'', hsame⟩ := apply_again hr' time
    obtain ⟨next', hnext', halike⟩ := hafter.apply hr'' time
    rw [hw] at hnext'
    obtain rfl := Except.ok.inj hnext'
    exact ⟨r', hr', hsame.trans halike⟩

/-- A write that is refused is refused on the near side. -/
theorem EitherSide.refused {r now : Records} {w : RecordWrite} {time : Stamp} {e : BackendFault}
    (h : EitherSide r w now) (hw : now.apply time w = .error e) :
    r.apply default w = .error e := by
  rcases h with hbefore | ⟨r', hr', hafter⟩
  · exact hbefore.symm.refused hw default
  · obtain ⟨r'', hr'', -⟩ := apply_again hr' time
    obtain ⟨next, hnext, -⟩ := hafter.apply hr'' time
    rw [hw] at hnext
    cases hnext

/-- What an attempt can come to: the write is done, or it failed and may or may not have been
carried out; an attempt that arrives fails only if the write is refused. -/
theorem EitherSide.attempt {r now : Records} {w : RecordWrite} (h : EitherSide r w now)
    (time : Stamp) (passage : Passage) :
    ((now.attempt time passage w).1 = .ok () ∧
      ∃ r', r.apply default w = .ok r' ∧ Alike r' (now.attempt time passage w).2) ∨
    (∃ fault, (now.attempt time passage w).1 = .error fault) ∧
      EitherSide r w (now.attempt time passage w).2 ∧
      (passage = .arrives → ∃ e, r.apply default w = .error e) := by
  -- what the records say to it now is what they said at first, whether or not it was carried out
  cases hw : now.apply time w with
  | ok next =>
    cases passage with
    | arrives =>
      refine .inl ?_
      simp only [Records.attempt, hw, true_and]
      exact h.apply hw
    | lost => exact .inr ⟨⟨_, rfl⟩, h, nofun⟩
    | unacknowledged =>
      refine .inr ?_
      simp only [Records.attempt, hw]
      exact ⟨⟨_, rfl⟩, .inr (h.apply hw), nofun⟩
  | error e =>
    refine .inr ?_
    cases passage with
    | lost => exact ⟨⟨_, rfl⟩, h, nofun⟩
    | arrives =>
      simp only [Records.attempt, hw]
      exact ⟨⟨_, rfl⟩, h, fun _ => ⟨e, h.refused hw⟩⟩
    | unacknowledged =>
      simp only [Records.attempt, hw]
      exact ⟨⟨_, rfl⟩, h, nofun⟩

end Records

/-! ## A scribe at work -/

/-- The writes that a scribe has to carry out yet, in order. -/
def Scribe.inHand (s : Scribe) : List RecordWrite := (s.errand.map Errand.write).toList ++ s.queue

namespace Scribe

/-- A scribe that works puts what it is handed at the end of its queue. -/
theorem hand_of_working {s : Scribe} (h : s.stopped = false) (w : RecordWrite) :
    s.hand w = { s with queue := s.queue ++ [w] } := by
  simp [hand, h]

/-- A scribe that looks for something to do goes on with the write under way, or takes up the next
one of its queue. -/
theorem takeUp_cases (s : Scribe) (now : Nat) :
    (s.takeUp now = s ∧ (s.errand = none → s.queue = [])) ∨
      ∃ w rest, s.errand = none ∧ s.queue = w :: rest ∧
        s.takeUp now = { s with errand := some ⟨w, w.retryPolicy.start, now⟩, queue := rest } := by
  obtain ⟨errand, queue, stopped⟩ := s
  cases errand with
  | some e => exact .inl ⟨rfl, nofun⟩
  | none =>
    cases queue with
    | nil => exact .inl ⟨rfl, fun _ => rfl⟩
    | cons w rest => exact .inr ⟨w, rest, rfl, rfl, rfl⟩

/-- What a scribe takes up it had in hand before. -/
theorem inHand_takeUp (s : Scribe) (now : Nat) : (s.takeUp now).inHand = s.inHand := by
  rcases s.takeUp_cases now with ⟨hsame, -⟩ | ⟨w, rest, hfree, hqueue, htaken⟩
  · rw [hsame]
  · rw [htaken, inHand, inHand, hfree, hqueue]
    rfl

/-- After an attempt the scribe is done with the write, which got through or was dropped after its
last attempt, or it has the same write for another one. -/
theorem report_cases (s : Scribe) (now draw : Nat) (e : Errand)
    (result : Except BackendFault Unit) :
    ((s.report now draw e result).1 = { s with errand := none } ∧
        (result = .ok () ∨ e.patience.left ≤ 1)) ∨
      (∃ fault, result = .error fault) ∧ ∃ patience due, 1 < e.patience.left ∧
        patience.left = e.patience.left - 1 ∧
        (s.report now draw e result).1 =
          { s with errand := some { e with patience, due } } := by
  cases result with
  | ok _ => exact .inl ⟨rfl, .inl rfl⟩
  | error fault =>
    cases hpatience : e.write.retryPolicy.afterFailure? draw e.patience with
    | none =>
      have hreport : (s.report now draw e (.error fault)).1 = { s with errand := none } := by
        simp only [report, hpatience]
      exact .inl ⟨hreport, .inr (RetryPolicy.afterFailure?_none hpatience)⟩
    | some next =>
      obtain ⟨wait, patience⟩ := next
      obtain ⟨hmore, hleft⟩ := RetryPolicy.afterFailure?_some hpatience
      refine .inr ⟨⟨fault, rfl⟩, patience, now + millisOfWait wait, hmore, hleft, ?_⟩
      simp only [report, hpatience]

end Scribe

/-- A scribe with the records it carries its writes to. -/
structure Mailing where
  scribe : Scribe
  records : Records
  /-- How many writes it is done with. -/
  done : Nat
  /-- How many attempts it has made at the write under way. -/
  tries : Nat
deriving DecidableEq, Repr, Inhabited

namespace Mailing

def new : Mailing := ⟨.idle, .empty, 0, 0⟩

/-- What happens to a scribe: a write is handed to it, or it goes to work at some time. -/
inductive Doing where
  | hand (w : RecordWrite)
  | go (now : Nat) (time : Stamp) (draw : Nat)
deriving DecidableEq, Repr

/-- The write that is handed over. -/
def Doing.write? : Doing → Option RecordWrite
  | .hand w => some w
  | .go .. => none

/-- The writes that are handed over, in order. -/
def handed (doings : List Doing) : List RecordWrite := doings.filterMap Doing.write?

variable (fate : Fate)

/-- An attempt at the write under way, and the report on it. -/
def attempt (m : Mailing) (now : Nat) (time : Stamp) (draw : Nat) (e : Errand) : Mailing :=
  let outcome := m.records.attempt time (fate m.done m.tries) e.write
  let scribe := (m.scribe.report now draw e outcome.1).1
  { scribe := scribe, records := outcome.2
    done := if scribe.errand.isSome then m.done else m.done + 1
    tries := if scribe.errand.isSome then m.tries + 1 else 0 }

/-- The scribe takes up a write if it has none, and tries it if it is due. -/
def go (m : Mailing) (now : Nat) (time : Stamp) (draw : Nat) : Mailing :=
  let m := { m with scribe := m.scribe.takeUp now }
  match m.scribe.errand with
  | none => m
  | some e => if e.due ≤ now then m.attempt fate now time draw e else m

def step (m : Mailing) : Doing → Mailing
  | .hand w => { m with scribe := m.scribe.hand w }
  | .go now time draw => m.go fate now time draw

/-- Everything that happens to a scribe, from its beginning on. -/
def run (doings : List Doing) : Mailing := doings.foldl (step fate) new

/-- The scribe has nothing left to do. -/
def Drained (m : Mailing) : Prop := m.scribe.inHand = []

/-- A scribe of the hall works in this way: as long as something is due, it makes an attempt, with
the passage that the courier has for it, and goes on from there. -/
theorem workFor_go (m : Mailing) (c : Courier) (now : Nat) (time : Stamp) (draw fuel : Nat)
    {e : Errand} (hrecords : m.records = c.records)
    (he : (m.scribe.takeUp now).errand = some e) (hdue : e.due ≤ now) :
    let next := m.go (fun _ _ => c.passage e.write) now time draw
    (c.carry time e.write).2.records = next.records ∧
      (Scribe.workFor now time draw (fuel + 1) m.scribe c).1 =
        (Scribe.workFor now time draw fuel next.scribe (c.carry time e.write).2).1 := by
  simp only [go, he, hdue, if_true, attempt, hrecords, Scribe.workFor, Courier.carry, and_self]

/-! ## One attempt -/

/-- The scribe is done with the write under way, which leaves the records so. -/
def finished (m : Mailing) (records : Records) : Mailing :=
  { scribe := { m.scribe with errand := none }, records, done := m.done + 1, tries := 0 }

/-- The scribe has made an attempt that leaves the records so, and goes on with an errand. -/
def retrying (m : Mailing) (records : Records) (e : Errand) : Mailing :=
  { scribe := { m.scribe with errand := some e }, records, done := m.done, tries := m.tries + 1 }

/-- After an attempt the scribe is done with the write, or is to try it again. -/
theorem attempt_cases (m : Mailing) (now : Nat) (time : Stamp) (draw : Nat) (e : Errand) :
    let outcome := m.records.attempt time (fate m.done m.tries) e.write
    (m.attempt fate now time draw e = m.finished outcome.2 ∧
        (outcome.1 = .ok () ∨ e.patience.left ≤ 1)) ∨
      (∃ fault, outcome.1 = .error fault) ∧ ∃ patience due, 1 < e.patience.left ∧
        patience.left = e.patience.left - 1 ∧
        m.attempt fate now time draw e = m.retrying outcome.2 { e with patience, due } := by
  intro outcome
  rcases m.scribe.report_cases now draw e outcome.1 with
    ⟨hreport, hend⟩ | ⟨hfault, patience, due, hmore, hleft, hreport⟩
  · refine .inl ⟨?_, hend⟩
    rw [attempt, hreport]
    rfl
  · refine .inr ⟨hfault, patience, due, hmore, hleft, ?_⟩
    rw [attempt, hreport]
    rfl

/-! ## The order of the writes -/

/-- A scribe keeps the writes that it has been handed in their order. -/
structure Orderly (ws : List RecordWrite) (m : Mailing) : Prop where
  working : m.scribe.stopped = false
  done_le : m.done ≤ ws.length
  /-- Whatever is not done with is in hand. -/
  inHand : m.scribe.inHand = ws.drop m.done
  resting : m.scribe.errand = none → m.tries = 0
  /-- Every attempt takes from the patience of the scribe. -/
  patient : ∀ e, m.scribe.errand = some e →
    0 < e.patience.left ∧ e.patience.left + m.tries = e.write.retryPolicy.maxAttempts

section Orderly

variable {ws : List RecordWrite} {m : Mailing} {e : Errand}

theorem orderly_new : Orderly [] new where
  working := rfl
  done_le := Nat.le_refl 0
  inHand := rfl
  resting _ := rfl
  patient _ he := nomatch he

/-- Another write goes to the end of the queue, and whatever is under way came before it. -/
theorem Orderly.hand (h : Orderly ws m) (w : RecordWrite) :
    Orderly (ws ++ [w]) (m.step fate (.hand w)) := by
  rw [step, Scribe.hand_of_working h.working]
  constructor
  case working => exact h.working
  case done_le =>
    rw [List.length_append]
    exact Nat.le_add_right_of_le h.done_le
  case inHand =>
    have hbefore := h.inHand
    rw [Scribe.inHand] at hbefore ⊢
    rw [List.drop_append_of_le_length h.done_le, ← hbefore, List.append_assoc]
  case resting => exact h.resting
  case patient => exact h.patient

/-- A write that is taken up has all its attempts before it. -/
theorem Orderly.takeUp (h : Orderly ws m) (now : Nat) :
    Orderly ws { m with scribe := m.scribe.takeUp now } := by
  have hinHand := (m.scribe.inHand_takeUp now).trans h.inHand
  rcases m.scribe.takeUp_cases now with ⟨hsame, -⟩ | ⟨w, rest, hfree, -, htaken⟩
  · rw [hsame]
    exact h
  · rw [htaken] at hinHand ⊢
    constructor
    case working => exact h.working
    case done_le => exact h.done_le
    case inHand => exact hinHand
    case resting =>
      intro hnone
      cases hnone
    case patient =>
      intro e he
      obtain rfl := Option.some.inj he
      have hleft : w.retryPolicy.start.left = w.retryPolicy.maxAttempts :=
        Nat.max_eq_left w.maxAttempts_pos
      rw [h.resting hfree, hleft]
      exact ⟨w.maxAttempts_pos, rfl⟩

/-- The write under way is the next one in order. -/
theorem Orderly.drop_eq (h : Orderly ws m) (he : m.scribe.errand = some e) :
    ws.drop m.done = e.write :: m.scribe.queue := by
  rw [← h.inHand, Scribe.inHand, he]
  rfl

theorem Orderly.lt_length (h : Orderly ws m) (he : m.scribe.errand = some e) :
    m.done < ws.length := by
  have hlength := congrArg List.length (h.drop_eq he)
  rw [List.length_drop, List.length_cons] at hlength
  omega

theorem Orderly.take_succ (h : Orderly ws m) (he : m.scribe.errand = some e) :
    ws.take (m.done + 1) = ws.take m.done ++ [e.write] := by
  have hdrop := h.drop_eq he
  rw [List.drop_eq_getElem_cons (h.lt_length he)] at hdrop
  rw [List.take_succ_eq_append_getElem (h.lt_length he), (List.cons.inj hdrop).1]

theorem Orderly.finished (h : Orderly ws m) (he : m.scribe.errand = some e) (records : Records) :
    Orderly ws (m.finished records) where
  working := h.working
  done_le := h.lt_length he
  inHand := by
    have hdrop := h.drop_eq he
    rw [List.drop_eq_getElem_cons (h.lt_length he)] at hdrop
    exact (List.cons.inj hdrop).2.symm
  resting _ := rfl
  patient _ hsome := nomatch hsome

theorem Orderly.retrying (h : Orderly ws m) (he : m.scribe.errand = some e) {patience : Patience}
    (hmore : 1 < e.patience.left) (hleft : patience.left = e.patience.left - 1)
    (records : Records) (due : Nat) : Orderly ws (m.retrying records { e with patience, due }) where
  working := h.working
  done_le := h.done_le
  inHand := (h.drop_eq he).symm
  resting hnone := nomatch hnone
  patient e' he' := by
    obtain rfl := Option.some.inj he'
    have hspent := (h.patient e he).2
    change 0 < patience.left ∧
      patience.left + (m.tries + 1) = e.write.retryPolicy.maxAttempts
    omega

end Orderly

/-! ## The invariant -/

/-- Where the write under way stands, if the records stood so before it. -/
structure UnderWay (m : Mailing) (r : Records) (e : Errand) : Prop where
  /-- Every attempt takes from the patience of the scribe. -/
  spent : e.patience.left + m.tries = e.write.retryPolicy.maxAttempts
  left_pos : 0 < e.patience.left
  /-- A write that is not refused is yet to arrive. -/
  ahead : ∀ r', r.apply default e.write = .ok r' →
    ∃ k, m.tries ≤ k ∧ k < e.write.retryPolicy.maxAttempts ∧ fate m.done k = .arrives
  side : r.EitherSide e.write m.records

/-- A scribe that has been handed some writes is doing its work. -/
structure OnCourse (ws : List RecordWrite) (m : Mailing) : Prop where
  working : m.scribe.stopped = false
  done_le : m.done ≤ ws.length
  /-- Whatever is not done with is in hand, in order. -/
  inHand : m.scribe.inHand = ws.drop m.done
  resting : m.scribe.errand = none →
    m.tries = 0 ∧ (Records.settled (ws.take m.done)).Alike m.records
  underWay : ∀ e, m.scribe.errand = some e →
    UnderWay fate m (Records.settled (ws.take m.done)) e

variable {fate : Fate} {ws : List RecordWrite} {m : Mailing}

theorem OnCourse.orderly (h : OnCourse fate ws m) : Orderly ws m where
  working := h.working
  done_le := h.done_le
  inHand := h.inHand
  resting hnone := (h.resting hnone).1
  patient e he := ⟨(h.underWay e he).left_pos, (h.underWay e he).spent⟩

/-- A scribe that keeps its writes in order is on course if the records are. -/
theorem Orderly.onCourse (h : Orderly ws m)
    (hresting : m.scribe.errand = none → (Records.settled (ws.take m.done)).Alike m.records)
    (hahead : ∀ e, m.scribe.errand = some e →
      ∀ r', (Records.settled (ws.take m.done)).apply default e.write = .ok r' →
        ∃ k, m.tries ≤ k ∧ k < e.write.retryPolicy.maxAttempts ∧ fate m.done k = .arrives)
    (hside : ∀ e, m.scribe.errand = some e →
      (Records.settled (ws.take m.done)).EitherSide e.write m.records) : OnCourse fate ws m where
  working := h.working
  done_le := h.done_le
  inHand := h.inHand
  resting hnone := ⟨h.resting hnone, hresting hnone⟩
  underWay e he := ⟨(h.patient e he).2, (h.patient e he).1, hahead e he, hside e he⟩

theorem onCourse_new : OnCourse fate [] new :=
  orderly_new.onCourse (fun _ => .refl _) (fun _ he => nomatch he) (fun _ he => nomatch he)

/-- Another write comes behind whatever is done with, or under way. -/
theorem OnCourse.hand (h : OnCourse fate ws m) (w : RecordWrite) :
    OnCourse fate (ws ++ [w]) (m.step fate (.hand w)) := by
  have htake : (ws ++ [w]).take m.done = ws.take m.done := List.take_append_of_le_length h.done_le
  have horderly := h.orderly.hand fate w
  rw [step, Scribe.hand_of_working h.working] at horderly ⊢
  refine horderly.onCourse ?_ ?_ ?_
  all_goals rw [htake]
  · exact fun hnone => (h.resting hnone).2
  · exact fun e he => (h.underWay e he).ahead
  · exact fun e he => (h.underWay e he).side

/-- A write that is taken up has not been carried out, and is yet to arrive. -/
theorem OnCourse.takeUp (h : OnCourse fate ws m) (hfate : fate.Bearable ws) (now : Nat) :
    OnCourse fate ws { m with scribe := m.scribe.takeUp now } := by
  have horderly := h.orderly.takeUp now
  rcases m.scribe.takeUp_cases now with ⟨hsame, -⟩ | ⟨w, rest, hfree, -, htaken⟩
  · rw [hsame]
    exact h
  · obtain ⟨htries, halike⟩ := h.resting hfree
    rw [htaken] at horderly ⊢
    have hw : ws[m.done]? = some w := by
      rw [← List.head?_drop, horderly.drop_eq rfl]
      rfl
    refine horderly.onCourse (fun hnone => nomatch hnone) (fun e he r' _ => ?_) (fun e he => ?_)
    · obtain rfl := Option.some.inj he
      obtain ⟨k, hk, harrives⟩ := hfate m.done w hw
      exact ⟨k, by rw [htries]; exact Nat.zero_le k, hk, harrives⟩
    · obtain rfl := Option.some.inj he
      exact .inl halike

/-- The scribe is done with the write under way, and the records stand behind it. -/
theorem OnCourse.finish {e : Errand} {records : Records} (h : OnCourse fate ws m)
    (he : m.scribe.errand = some e)
    (hrecords : ((Records.settled (ws.take m.done)).carryOut e.write).Alike records) :
    OnCourse fate ws (m.finished records) := by
  refine (h.orderly.finished he records).onCourse (fun _ => ?_) (fun _ hsome => nomatch hsome)
    (fun _ hsome => nomatch hsome)
  change (Records.settled (ws.take (m.done + 1))).Alike records
  rw [h.orderly.take_succ he, Records.settled_concat]
  exact hrecords

/-- When the last attempt fails, the write is one that the records refuse: any other would have an
attempt that arrives ahead of it. -/
theorem UnderWay.refused {r : Records} {e : Errand} (h : UnderWay fate m r e)
    (hlast : e.patience.left ≤ 1)
    (hfailed : fate m.done m.tries = .arrives → ∃ fault, r.apply default e.write = .error fault) :
    ∃ fault, r.apply default e.write = .error fault := by
  cases hw : r.apply default e.write with
  | error fault => exact ⟨fault, rfl⟩
  | ok r' =>
    obtain ⟨k, hk, hlt, hfate⟩ := h.ahead r' hw
    have hspent := h.spent
    obtain rfl : m.tries = k := by omega
    obtain ⟨fault, hfault⟩ := hfailed hfate
    rw [hw] at hfault
    cases hfault

/-- When an attempt has failed, the one that arrives is still ahead, for it was not this one. -/
theorem UnderWay.still_ahead {r r' : Records} {e : Errand} (h : UnderWay fate m r e)
    (hfailed : fate m.done m.tries = .arrives → ∃ fault, r.apply default e.write = .error fault)
    (hr' : r.apply default e.write = .ok r') :
    ∃ k, m.tries + 1 ≤ k ∧ k < e.write.retryPolicy.maxAttempts ∧ fate m.done k = .arrives := by
  obtain ⟨k, hk, hlt, hfate⟩ := h.ahead r' hr'
  refine ⟨k, Nat.lt_of_le_of_ne hk fun htries => ?_, hlt, hfate⟩
  rw [← htries] at hfate
  obtain ⟨fault, hfault⟩ := hfailed hfate
  rw [hr'] at hfault
  cases hfault

/-- **An attempt keeps the scribe on course:** no write is given up that could still arrive. -/
theorem OnCourse.attempt {e : Errand} (h : OnCourse fate ws m) (he : m.scribe.errand = some e)
    (now : Nat) (time : Stamp) (draw : Nat) :
    OnCourse fate ws (m.attempt fate now time draw e) := by
  have hunder := h.underWay e he
  have hside := hunder.side.attempt time (fate m.done m.tries)
  rcases attempt_cases fate m now time draw e with
    ⟨hnext, hend⟩ | ⟨⟨fault, hresult⟩, patience, due, hmore, hleft, hnext⟩
  · rw [hnext]
    refine h.finish he ?_
    rcases hside with ⟨-, r', hr', halike⟩ | ⟨⟨fault, hresult⟩, hside, hfailed⟩
    · -- the write is done and acknowledged
      rw [Records.carryOut_ok hr']
      exact halike
    · -- the write is dropped, and it is one that the records refuse
      have hlast : e.patience.left ≤ 1 := by
        refine hend.resolve_left fun hok => ?_
        rw [hresult] at hok
        cases hok
      obtain ⟨fault', hrefused⟩ := hunder.refused hlast hfailed
      rw [Records.carryOut_error hrefused]
      rcases hside with halike | ⟨r', hr', -⟩
      · exact halike
      · rw [hrefused] at hr'
        cases hr'
  · rw [hnext]
    rcases hside with ⟨hok, -⟩ | ⟨-, hside, hfailed⟩
    · rw [hresult] at hok
      cases hok
    · refine (h.orderly.retrying he hmore hleft _ due).onCourse (fun hnone => nomatch hnone)
        (fun e' he' r' hr' => ?_) (fun e' he' => ?_)
      · obtain rfl := Option.some.inj he'
        exact hunder.still_ahead hfailed hr'
      · obtain rfl := Option.some.inj he'
        exact hside

theorem OnCourse.go (h : OnCourse fate ws m) (hfate : fate.Bearable ws) (now : Nat) (time : Stamp)
    (draw : Nat) : OnCourse fate ws (m.go fate now time draw) := by
  have htaken := h.takeUp hfate now
  rw [Mailing.go]
  split
  · exact htaken
  · rename_i e he
    split
    · exact htaken.attempt he now time draw
    · exact htaken

theorem handed_concat (doings : List Doing) (d : Doing) :
    handed (doings ++ [d]) = handed doings ++ d.write?.toList := by
  rw [handed, List.filterMap_append]
  cases d <;> rfl

theorem run_concat (fate : Fate) (doings : List Doing) (d : Doing) :
    run fate (doings ++ [d]) = (run fate doings).step fate d := by
  rw [run, List.foldl_append]
  rfl

/-- **A scribe stays on course,** whatever it is handed and whenever it goes to work. -/
theorem onCourse_run (doings : List Doing) (hfate : fate.Bearable (handed doings)) :
    OnCourse fate (handed doings) (run fate doings) := by
  -- from the end: a fate that is bearable for all writes is so for those handed over so far
  induction doings using List.reverseRecOn with
  | nil => exact onCourse_new
  | append_singleton doings d ih =>
    rw [handed_concat] at hfate ⊢
    rw [run_concat]
    cases d with
    | hand w => exact (ih hfate.of_append).hand w
    | go now time draw =>
      rw [Doing.write?, Option.toList_none, List.append_nil] at hfate ⊢
      exact (ih hfate).go hfate now time draw

/-- A scribe that has nothing left to do has done all it was handed, as if nothing had failed. -/
theorem OnCourse.alike (h : OnCourse fate ws m) (hdrained : m.Drained) :
    (Records.settled ws).Alike m.records := by
  have hinHand := h.inHand
  rw [hdrained] at hinHand
  have hall : ws.take m.done = ws :=
    List.take_of_length_le (List.drop_eq_nil_iff.mp hinHand.symm)
  have hresting : m.scribe.errand = none := by
    cases herrand : m.scribe.errand with
    | none => rfl
    | some e =>
      rw [Drained, Scribe.inHand, herrand] at hdrained
      cases hdrained
  rw [← hall]
  exact (h.resting hresting).2

/-! ## Coming to an end -/

/-- How many attempts some writes may take. -/
def budget : List RecordWrite → Nat
  | [] => 0
  | w :: rest => w.retryPolicy.maxAttempts + budget rest

/-- How many attempts a scribe may have to make yet. -/
def load (m : Mailing) : Nat :=
  (m.scribe.errand.map fun e => e.patience.left).getD 0 + budget m.scribe.queue

/-- Taking up a write is no attempt. -/
theorem load_takeUp (m : Mailing) (now : Nat) :
    load { m with scribe := m.scribe.takeUp now } = m.load := by
  rcases m.scribe.takeUp_cases now with ⟨hsame, -⟩ | ⟨w, rest, hfree, hqueue, htaken⟩
  · rw [hsame]
  · have hleft : w.retryPolicy.start.left = w.retryPolicy.maxAttempts :=
      Nat.max_eq_left w.maxAttempts_pos
    simp [load, htaken, hfree, hqueue, hleft, budget]

/-- Every attempt counts. -/
theorem load_attempt (fate : Fate) {e : Errand} (he : m.scribe.errand = some e)
    (hleft : 0 < e.patience.left) (now : Nat) (time : Stamp) (draw : Nat) :
    (m.attempt fate now time draw e).load < m.load := by
  have hload : m.load = e.patience.left + budget m.scribe.queue := by
    rw [load, he]
    rfl
  rw [hload]
  rcases attempt_cases fate m now time draw e with
    ⟨hnext, -⟩ | ⟨-, patience, due, hmore, hless, hnext⟩
  · rw [hnext, load]
    exact Nat.add_lt_add_right hleft _
  · have hfewer : patience.left < e.patience.left := by omega
    rw [hnext, load]
    exact Nat.add_lt_add_right hfewer _

/-- A scribe that takes nothing up has nothing in hand. -/
theorem inHand_of_takeUp {s : Scribe} {now : Nat} (h : (s.takeUp now).errand = none) :
    s.inHand = [] := by
  rcases s.takeUp_cases now with ⟨hsame, hempty⟩ | ⟨w, rest, -, -, htaken⟩
  · rw [hsame] at h
    rw [Scribe.inHand, h, hempty h]
    rfl
  · rw [htaken] at h
    cases h

/-- What is under way was so before, or it is taken up now. -/
theorem errand_takeUp {s : Scribe} {now : Nat} {e : Errand}
    (h : (s.takeUp now).errand = some e) : s.errand = some e ∨ s.errand = none ∧ e.due = now := by
  rcases s.takeUp_cases now with ⟨hsame, -⟩ | ⟨w, rest, hfree, -, htaken⟩
  · rw [hsame] at h
    exact .inl h
  · rw [htaken] at h
    obtain rfl := Option.some.inj h
    exact .inr ⟨hfree, rfl⟩

/-- A scribe with something to do makes an attempt when it is due. -/
theorem OnCourse.exists_go (h : OnCourse fate ws m) (hfate : fate.Bearable ws)
    (hbusy : ¬m.Drained) : ∃ now, (m.go fate now default 0).load < m.load := by
  let now := (m.scribe.errand.map Errand.due).getD 0
  have htaken := h.takeUp hfate now
  cases he : (m.scribe.takeUp now).errand with
  | none => exact absurd (inHand_of_takeUp he) hbusy
  | some e =>
    have hdue : e.due ≤ now := by
      rcases errand_takeUp he with herrand | ⟨-, hnow⟩
      · have hnow : now = e.due := by
          change (m.scribe.errand.map Errand.due).getD 0 = e.due
          rw [herrand]
          rfl
        exact Nat.le_of_eq hnow.symm
      · exact Nat.le_of_eq hnow
    have hless := load_attempt fate (m := { m with scribe := m.scribe.takeUp now }) he
      (htaken.underWay e he).left_pos now default 0
    rw [load_takeUp] at hless
    refine ⟨now, ?_⟩
    simp only [Mailing.go, he, hdue, if_true]
    exact hless

/-- Left to work, a scribe comes to an end. -/
theorem OnCourse.exists_drained (h : OnCourse fate ws m) (hfate : fate.Bearable ws) :
    ∃ goings, handed goings = [] ∧ (goings.foldl (step fate) m).Drained := by
  induction hload : m.load using Nat.strongRecOn generalizing m with
  | ind load ih =>
    by_cases hdrained : m.Drained
    · exact ⟨[], rfl, hdrained⟩
    · obtain ⟨now, hless⟩ := h.exists_go hfate hdrained
      rw [hload] at hless
      obtain ⟨goings, hnone, hend⟩ := ih _ hless (h.go hfate now default 0) rfl
      exact ⟨.go now default 0 :: goings, hnone, hend⟩

/-! ## Delivered -/

/-- Writes that all succeed are all in the records once the scribe has nothing left to do. -/
theorem OnCourse.alike_applyAll (h : OnCourse fate ws m) (hdrained : m.Drained)
    {ps : List Posting} {r : Records} (hps : ps.map Posting.write = ws)
    (happly : Records.empty.applyAll ps = .ok r) : m.records.Alike r := by
  have hsettled := (Records.Alike.refl .empty).foldl_carryOut happly
  rw [hps] at hsettled
  exact (h.alike hdrained).symm.trans hsettled

/-- What becomes of the writes that a scribe is handed under some fate. -/
structure Delivered (fate : Fate) (doings : List Doing) : Prop where
  /-- Once the scribe has nothing left to do, the records give the same answers as after any run
  of the same writes in which nothing failed. -/
  flawless : (run fate doings).Drained → ∀ doings', handed doings' = handed doings →
    (run .flawless doings').Drained →
      (run fate doings).records.SameAnswers (run .flawless doings').records
  /-- Those are the answers after carrying each write out once, in order, if all succeed. -/
  complete : (run fate doings).Drained → ∀ ps r, ps.map Posting.write = handed doings →
    Records.empty.applyAll ps = .ok r → (run fate doings).records.SameAnswers r
  /-- The scribe does come to the point where it has nothing left to do. -/
  ends : ∃ goings, handed goings = [] ∧ (run fate (doings ++ goings)).Drained

/-- **Every write arrives once in effect.** Attempts may get lost, or be carried out unnoticed, in
any pattern and at any times: as long as each write arrives before the scribe loses patience with
it, the records end up as if nothing had failed. -/
theorem delivered_once (fate : Fate) (doings : List Doing)
    (hfate : fate.Bearable (handed doings)) : Delivered fate doings := by
  have hcourse := onCourse_run doings hfate
  constructor
  case flawless =>
    intro hdrained doings' hsame hdrained'
    have hflawless := (onCourse_run doings' (Fate.bearable_flawless _)).alike hdrained'
    rw [hsame] at hflawless
    exact ((hcourse.alike hdrained).symm.trans hflawless).sameAnswers
  case complete =>
    intro hdrained ps r hps happly
    exact (hcourse.alike_applyAll hdrained hps happly).sameAnswers
  case ends =>
    obtain ⟨goings, hnone, hend⟩ := hcourse.exists_drained hfate
    refine ⟨goings, hnone, ?_⟩
    rw [run, List.foldl_append]
    exact hend

/-- Of every write, one attempt gets lost, one is carried out unnoticed, one more gets lost. -/
def troubled : Fate
  | _, 0 => .lost
  | _, 1 => .unacknowledged
  | _, 2 => .lost
  | _, _ => .arrives

/-- An effort that ends with the last life: its writes are handed over while the scribe works. -/
def troubledDoings : List Doing :=
  (writes (Turn.deeds (.lasting Shelf.store 2)
    ((.opened (.specimen 2) (Service.placeholders default) .specimen 0, .empty) : Sitting × Shelf)
    Turn.lastEffort)).flatMap (fun w => [.hand w, .go 0 default 0]) ++
  (List.range 48).map fun i => .go (2000 * i) default i

theorem delivered_once_troubled :
    troubled.Bearable (handed troubledDoings) ∧ (handed troubledDoings).length = 12 ∧
      (run troubled troubledDoings).scribe.inHand = [] ∧ Delivered troubled troubledDoings := by
  have hfate : troubled.Bearable (handed troubledDoings) := by
    intro i w _
    refine ⟨3, ?_, rfl⟩
    rcases w.retryPolicy_eq with h | h <;> rw [h] <;> decide
  exact ⟨hfate, by decide +kernel, by decide +kernel, delivered_once troubled troubledDoings hfate⟩

end Mailing

/-! ## The records of a sitting -/

theorem Mirrors.of_alike {r r' : Records} {s : Sitting} (h : Mirrors r s) (halike : r'.Alike r) :
    Mirrors r' s where
  session := by rw [halike.cabinet]; exact h.session
  answers := by rw [halike.cabinet]; exact h.answers
  violations := by rw [halike.cabinet]; exact h.violations

namespace Turn

variable {σ : Type} (ledger : LivesLedger σ)

/-- **The records mirror the sitting in spite of failures,** once its scribe has nothing left to
do. -/
theorem mirrors_run {session : Session} {answers : List Answer} {pace : Pace} {now : Instant}
    {lives : σ} {cues : List Cue} {fate : Fate} {doings : List Mailing.Doing}
    (hanswers : Answer.Indexed answers)
    (hids : ((reached ledger (Sitting.opened session answers pace now, lives)
      cues).1.violations.map Violation.id).Nodup)
    (hhanded : Mailing.handed doings =
      writes (deeds ledger (Sitting.opened session answers pace now, lives) cues))
    (hfate : fate.Bearable (Mailing.handed doings)) (hdrained : (Mailing.run fate doings).Drained) :
    Mirrors (Mailing.run fate doings).records
      (reached ledger (Sitting.opened session answers pace now, lives) cues).1 := by
  let ps := (Mailing.handed doings).map (Posting.mk default)
  have hps : ps.map Posting.write = Mailing.handed doings := by
    rw [List.map_map]
    exact List.map_id' _
  obtain ⟨r, happly, hmirrors⟩ := applyAll_mirrors ledger hanswers hids (hps.trans hhanded)
  exact hmirrors.of_alike
    ((Mailing.onCourse_run doings hfate).alike_applyAll hdrained hps happly)

end Turn

end Invigilator
