import Invigilator.Proofs.Records.Delivery

/-!
# Writes that are lost

A fate need not be bearable. A scribe that loses patience with a write drops it and goes on, and a
write that it dropped may still have been carried out, if only the word of it was lost. So what
counts is whether one of the attempts at a write came through, and those writes are the `carried`
ones. `settled_carried` says of every fate and at every moment that the records are those that the
carried writes lead to, each carried out once and in order, with no failure on the way.

What is said about the records of a run with losses is then said about the records of a list of
writes with gaps, and nothing has to be known of attempts, patience and waits.
-/

namespace Invigilator

/-! ## Attempts that come through -/

namespace Fate

/-- One of the first attempts at a write comes through. -/
def reaches (fate : Fate) (i attempts : Nat) : Bool :=
  (List.range attempts).any fun k => fate i k != .lost

theorem reaches_zero (fate : Fate) (i : Nat) : fate.reaches i 0 = false := rfl

theorem reaches_succ (fate : Fate) (i attempts : Nat) :
    fate.reaches i (attempts + 1) = (fate.reaches i attempts || fate i attempts != .lost) := by
  rw [reaches, List.range_succ, List.any_append, reaches]
  simp

theorem reaches_iff {fate : Fate} {i attempts : Nat} :
    fate.reaches i attempts = true ↔ ∃ k, k < attempts ∧ fate i k ≠ .lost := by
  simp [reaches]

end Fate

namespace Records

/-- The records where they are left by an attempt that is not lost. -/
theorem attempt_lost (r : Records) (time : Stamp) (w : RecordWrite) :
    (r.attempt time .lost w).2 = r := rfl

/-- A write that comes through for the first time is carried out. -/
theorem Alike.attempt {r now : Records} {w : RecordWrite} {passage : Passage} (h : r.Alike now)
    (time : Stamp) (hpassage : passage ≠ .lost) :
    (r.carryOut w).Alike (now.attempt time passage w).2 := by
  cases hw : now.apply time w with
  | ok next =>
    obtain ⟨r', hr', halike⟩ := h.symm.apply hw default
    rw [carryOut_ok hr']
    cases passage with
    | lost => exact absurd rfl hpassage
    | arrives => simpa only [Records.attempt, hw] using halike.symm
    | unacknowledged => simpa only [Records.attempt, hw] using halike.symm
  | error e =>
    rw [carryOut_error (h.symm.refused hw default)]
    cases passage with
    | lost => exact absurd rfl hpassage
    | arrives => simpa only [Records.attempt, hw] using h
    | unacknowledged => simpa only [Records.attempt, hw] using h

/-- Carrying out a write that was carried out already is the same as doing it once. -/
theorem carryOut_again (r : Records) (w : RecordWrite) :
    ((r.carryOut w).carryOut w).Alike (r.carryOut w) := by
  cases hw : r.apply default w with
  | ok r' =>
    obtain ⟨r'', hr'', halike⟩ := apply_again hw default
    rw [carryOut_ok hw, carryOut_ok hr'']
    exact halike.symm
  | error e =>
    rw [carryOut_error hw, carryOut_error hw]
    exact .refl r

/-- A write that came through before leaves no further mark. -/
theorem Alike.attempt_again {r now : Records} {w : RecordWrite} {passage : Passage}
    (h : (r.carryOut w).Alike now) (time : Stamp) :
    (r.carryOut w).Alike (now.attempt time passage w).2 := by
  by_cases hpassage : passage = .lost
  · rw [hpassage, attempt_lost]
    exact h
  · exact (r.carryOut_again w).symm.trans (h.attempt time hpassage)

/-- An attempt is acknowledged only if it arrives. -/
theorem arrives_of_attempt {r : Records} {time : Stamp} {w : RecordWrite} {passage : Passage}
    (h : (r.attempt time passage w).1 = .ok ()) : passage = .arrives := by
  cases passage with
  | arrives => rfl
  | lost => cases h
  | unacknowledged =>
    simp only [Records.attempt] at h
    split at h <;> cases h

end Records

/-! ## Writes with gaps -/

/-- The writes that a test picks, which is given their places too; the first has a number. -/
def thinned (picks : Nat → RecordWrite → Bool) (first : Nat) (ws : List RecordWrite) :
    List RecordWrite :=
  ((ws.zipIdx first).filter fun e => picks e.2 e.1).map Prod.fst

section Thinned

variable {picks picks' : Nat → RecordWrite → Bool} (first : Nat)

theorem thinned_cons (w : RecordWrite) (ws : List RecordWrite) :
    thinned picks first (w :: ws) =
      (if picks first w then [w] else []) ++ thinned picks (first + 1) ws := by
  rw [thinned, List.zipIdx_cons, List.filter_cons]
  split
  · rfl
  · rfl

theorem thinned_append (ws more : List RecordWrite) :
    thinned picks first (ws ++ more) =
      thinned picks first ws ++ thinned picks (first + ws.length) more := by
  induction ws generalizing first with
  | nil => rfl
  | cons w ws ih =>
    have hplace : first + (ws.length + 1) = first + 1 + ws.length := by omega
    rw [List.cons_append, thinned_cons, ih, thinned_cons, List.append_assoc, List.length_cons,
      hplace]

/-- Nothing but the writes themselves is left. -/
theorem mem_of_mem_thinned {ws : List RecordWrite} {w : RecordWrite}
    (h : w ∈ thinned picks first ws) : w ∈ ws := by
  obtain ⟨e, he, rfl⟩ := List.mem_map.mp h
  exact List.fst_mem_of_mem_zipIdx (List.mem_filter.mp he).1

theorem thinned_congr {ws : List RecordWrite}
    (h : ∀ i w, ws[i]? = some w → picks (first + i) w = picks' (first + i) w) :
    thinned picks first ws = thinned picks' first ws := by
  induction ws generalizing first with
  | nil => rfl
  | cons w ws ih =>
    have hrest : thinned picks (first + 1) ws = thinned picks' (first + 1) ws := by
      refine ih (first + 1) fun i w' hw' => ?_
      have hplace : first + (i + 1) = first + 1 + i := by omega
      have hnext := h (i + 1) w' hw'
      rwa [hplace] at hnext
    rw [thinned_cons, thinned_cons, hrest, show picks first w = picks' first w from h 0 w rfl]

theorem thinned_eq_nil {ws : List RecordWrite}
    (h : ∀ i w, ws[i]? = some w → picks (first + i) w = false) : thinned picks first ws = [] := by
  rw [thinned, List.map_eq_nil_iff, List.filter_eq_nil_iff]
  intro e he hpicks
  obtain ⟨hle, hget⟩ := List.mk_mem_zipIdx_iff_le_and_getElem?_sub.mp he
  have hfalse := h (e.2 - first) e.1 hget
  rw [Nat.add_sub_cancel' hle, hpicks] at hfalse
  cases hfalse

end Thinned

/-! ## A scribe that drops writes -/

namespace Mailing

variable (fate : Fate)

/-- How many attempts at a write count: all that there is patience for once the scribe is done
with it, as an attempt that succeeds comes through itself. -/
def attempts (m : Mailing) (i : Nat) (w : RecordWrite) : Nat :=
  if i < m.done then w.retryPolicy.maxAttempts else if i = m.done then m.tries else 0

/-- An attempt at a write has come through so far. -/
def hasCarried (m : Mailing) (i : Nat) (w : RecordWrite) : Bool :=
  fate.reaches i (m.attempts i w)

/-- The writes that have come through so far, in order. -/
def carried (m : Mailing) (ws : List RecordWrite) : List RecordWrite :=
  thinned (m.hasCarried fate) 0 ws

/-- The writes that a scribe does not drop before one of its attempts has come through. -/
def outlasting (ws : List RecordWrite) : List RecordWrite :=
  thinned (fun i w => fate.reaches i w.retryPolicy.maxAttempts) 0 ws

/-- A scribe that has been handed some writes is doing its work, whatever becomes of them. -/
structure AtWork (ws : List RecordWrite) (m : Mailing) : Prop extends Orderly ws m where
  /-- The records are those of the writes that came through. -/
  alike : (Records.settled (m.carried fate ws)).Alike m.records

variable {fate} {ws : List RecordWrite} {m : Mailing}

theorem outlasting_concat (ws : List RecordWrite) (w : RecordWrite) :
    outlasting fate (ws ++ [w]) = outlasting fate ws ++
      if fate.reaches ws.length w.retryPolicy.maxAttempts then [w] else [] := by
  rw [outlasting, thinned_append, thinned_cons, Nat.zero_add]
  exact congrArg _ (List.append_nil _)

/-- What came through is what the scribe is done with, and the write under way if it did. -/
theorem Orderly.carried_eq (h : Orderly ws m) :
    m.carried fate ws = outlasting fate (ws.take m.done) ++
      if fate.reaches m.done m.tries then (m.scribe.errand.map Errand.write).toList else [] := by
  have hfirst : thinned (m.hasCarried fate) 0 (ws.take m.done) =
      outlasting fate (ws.take m.done) := by
    refine thinned_congr 0 fun i w hw => ?_
    have hi : i < m.done := by
      have hlt := (List.getElem?_eq_some_iff.mp hw).1
      rw [List.length_take] at hlt
      omega
    rw [Nat.zero_add, hasCarried, attempts, if_pos hi]
  have hrest : thinned (m.hasCarried fate) m.done (ws.drop m.done) =
      if fate.reaches m.done m.tries then (m.scribe.errand.map Errand.write).toList else [] := by
    rw [← h.inHand, Scribe.inHand]
    -- there has been no attempt yet at anything in the queue
    have hqueue : ∀ first, m.done < first →
        thinned (m.hasCarried fate) first m.scribe.queue = [] := by
      intro first hlt
      refine thinned_eq_nil first fun i w _ => ?_
      have hpast : ¬first + i < m.done ∧ ¬first + i = m.done := by omega
      rw [hasCarried, attempts, if_neg hpast.1, if_neg hpast.2, Fate.reaches_zero]
    cases herrand : m.scribe.errand with
    | none =>
      rw [h.resting herrand, Fate.reaches_zero, if_neg Bool.false_ne_true]
      refine thinned_eq_nil m.done fun i w _ => ?_
      have hbehind : ¬m.done + i < m.done := by omega
      rw [hasCarried, attempts, if_neg hbehind, h.resting herrand, ite_self, Fate.reaches_zero]
    | some e =>
      have hcount : m.hasCarried fate m.done e.write = fate.reaches m.done m.tries := by
        rw [hasCarried, attempts, if_neg (Nat.lt_irrefl _), if_pos rfl]
      rw [Option.map_some, Option.toList_some, List.singleton_append, thinned_cons, hcount,
        hqueue _ (Nat.lt_succ_self _), List.append_nil]
  have hsplit : m.carried fate ws =
      thinned (m.hasCarried fate) 0 (ws.take m.done ++ ws.drop m.done) := by
    rw [List.take_append_drop, carried]
  rw [hsplit, thinned_append, hfirst, List.length_take_of_le h.done_le, Nat.zero_add, hrest]

/-- Another write has had no attempt yet. -/
theorem AtWork.hand (h : AtWork fate ws m) (w : RecordWrite) :
    AtWork fate (ws ++ [w]) (m.step fate (.hand w)) := by
  have horderly := h.toOrderly.hand fate w
  have herrand : (m.scribe.hand w).errand = m.scribe.errand := by
    rw [Scribe.hand_of_working h.working]
  have halike := h.alike
  rw [h.carried_eq, ← herrand] at halike
  refine ⟨horderly, ?_⟩
  rw [horderly.carried_eq]
  change (Records.settled (outlasting fate ((ws ++ [w]).take m.done) ++ _)).Alike m.records
  rw [List.take_append_of_le_length h.done_le]
  exact halike

/-- To take up a write is no attempt at it. -/
theorem AtWork.takeUp (h : AtWork fate ws m) (now : Nat) :
    AtWork fate ws { m with scribe := m.scribe.takeUp now } :=
  ⟨h.toOrderly.takeUp now, h.alike⟩

/-- The records after an attempt, with the write under way counted if it has come through. -/
theorem AtWork.alike_attempt {e : Errand} (h : AtWork fate ws m) (he : m.scribe.errand = some e)
    (time : Stamp) :
    (Records.settled (outlasting fate (ws.take m.done) ++
        if fate.reaches m.done (m.tries + 1) then [e.write] else [])).Alike
      (m.records.attempt time (fate m.done m.tries) e.write).2 := by
  have halike := h.alike
  rw [h.carried_eq, he, Option.map_some, Option.toList_some] at halike
  rw [Fate.reaches_succ]
  cases hbefore : fate.reaches m.done m.tries with
  | true =>
    rw [hbefore, if_pos rfl, Records.settled_concat] at halike
    rw [Bool.true_or, if_pos rfl, Records.settled_concat]
    exact halike.attempt_again time
  | false =>
    rw [hbefore, if_neg Bool.false_ne_true, List.append_nil] at halike
    by_cases hlost : fate m.done m.tries = .lost
    · rw [hlost, Bool.false_or, bne_self_eq_false, if_neg Bool.false_ne_true, List.append_nil]
      exact halike
    · rw [Bool.false_or, bne_iff_ne.mpr hlost, if_pos rfl, Records.settled_concat]
      exact halike.attempt time hlost

/-- The scribe is done with the write under way: it got through, or was dropped. -/
theorem AtWork.finish {e : Errand} {records : Records} (h : AtWork fate ws m)
    (he : m.scribe.errand = some e)
    (hlast : fate.reaches m.done (m.tries + 1) =
      fate.reaches m.done e.write.retryPolicy.maxAttempts)
    (hrecords : (Records.settled (outlasting fate (ws.take m.done) ++
      if fate.reaches m.done (m.tries + 1) then [e.write] else [])).Alike records) :
    AtWork fate ws (m.finished records) := by
  have horderly := h.toOrderly.finished he records
  refine ⟨horderly, ?_⟩
  rw [horderly.carried_eq]
  change (Records.settled (outlasting fate (ws.take (m.done + 1)) ++
    if fate.reaches (m.done + 1) 0 then [] else [])).Alike records
  rw [Fate.reaches_zero, if_neg Bool.false_ne_true, List.append_nil, h.take_succ he,
    outlasting_concat, List.length_take_of_le h.done_le, ← hlast]
  exact hrecords

/-- **An attempt is carried out if it comes through, and else leaves no trace,** whether the
scribe then tries again or drops the write. -/
theorem AtWork.attempt {e : Errand} (h : AtWork fate ws m) (he : m.scribe.errand = some e)
    (now : Nat) (time : Stamp) (draw : Nat) : AtWork fate ws (m.attempt fate now time draw e) := by
  obtain ⟨hleft, hspent⟩ := h.patient e he
  have hrecords := h.alike_attempt he time
  rcases attempt_cases fate m now time draw e with
    ⟨hnext, hend⟩ | ⟨-, patience, due, hmore, hless, hnext⟩
  · rw [hnext]
    refine h.finish he ?_ hrecords
    rcases hend with hok | hlast
    · -- an attempt that succeeds comes through, so no later one would make a difference
      have harrives := Records.arrives_of_attempt hok
      have hthis : fate.reaches m.done (m.tries + 1) = true :=
        Fate.reaches_iff.mpr ⟨m.tries, Nat.lt_succ_self _, by rw [harrives]; decide⟩
      have hall : fate.reaches m.done e.write.retryPolicy.maxAttempts = true :=
        Fate.reaches_iff.mpr ⟨m.tries, by omega, by rw [harrives]; decide⟩
      exact hthis.trans hall.symm
    · have hcount : m.tries + 1 = e.write.retryPolicy.maxAttempts := by omega
      rw [hcount]
  · rw [hnext]
    have horderly := h.toOrderly.retrying he hmore hless
      (m.records.attempt time (fate m.done m.tries) e.write).2 due
    refine ⟨horderly, ?_⟩
    rw [horderly.carried_eq]
    exact hrecords

theorem AtWork.go (h : AtWork fate ws m) (now : Nat) (time : Stamp) (draw : Nat) :
    AtWork fate ws (m.go fate now time draw) := by
  have htaken := h.takeUp now
  rw [Mailing.go]
  split
  · exact htaken
  · rename_i e he
    split
    · exact htaken.attempt he now time draw
    · exact htaken

/-- A scribe is at work, whatever it is handed and whenever it goes to work. -/
theorem atWork_run (fate : Fate) (doings : List Doing) :
    AtWork fate (handed doings) (run fate doings) := by
  induction doings using List.reverseRecOn with
  | nil => exact ⟨orderly_new, .refl _⟩
  | append_singleton doings d ih =>
    rw [handed_concat, run_concat]
    cases d with
    | hand w => exact ih.hand w
    | go now time draw =>
      rw [Doing.write?, Option.toList_none, List.append_nil]
      exact ih.go now time draw

/-- **The records are those of the writes that came through,** at every moment and under every
fate: each is carried out once in effect, in its order, and the others not at all. -/
theorem settled_carried (fate : Fate) (doings : List Doing) :
    (Records.settled ((run fate doings).carried fate (handed doings))).Alike
      (run fate doings).records :=
  (atWork_run fate doings).alike

end Mailing

end Invigilator
