import Invigilator.Proofs.Lives.Balance
import Invigilator.Proofs.Time.Elapsed
import Mathlib.Data.List.Induction

/-!
# The ledger as a sliding window

A loss waits for the cooldown and is then given back, but giving back happens only when its
bucket is looked at, and it is written down then. So the record of a bucket depends on when it was
looked at. What the ledger answers does not: at any moment it is as if every loss that was accepted
had been kept, and those were counted that are younger than the cooldown.

What makes it so is that a loss which a look has dropped would be dropped by every later look too.
The invariant `Kept` says just that: the accepted losses are those that were given back, followed
by those in the record, and what was given back is over for good. This is where the time has to
pass evenly: in a leap second a wait can be over and begin again (`not_windowed_leapSecond`).
-/

namespace Invigilator

/-! ## Keys -/

/-- Different buckets have different keys. -/
theorem Bucket.key_injective {a b : Bucket} (h : a.key = b.key) : a = b := by
  have hchars : a.key.toList = b.key.toList := congrArg String.toList h
  cases a <;> cases b <;> simp [key] at hchars ⊢ <;>
    first | exact hchars | exact String.toList_inj.mp hchars

/-! ## One visit to a shelf -/

namespace Shelf

variable {s : Shelf} (key : String)

theorem get_run (hup : s.available = true) :
    (store.get key).run s = ((.ok (s.find? key), s), []) := by
  simp [store, guarded, Attempt.run, hup]

theorem has_run (hup : s.available = true) :
    (store.has key).run s = ((.ok (s.find? key).isSome, s), []) := by
  simp [store, guarded, Attempt.run, hup]

theorem put_run (state : LivesState) (ttl : Option Nat) (hup : s.available = true) :
    (store.put key state ttl).run s =
      ((.ok (), { s.set key state with puts := ⟨key, state, ttl⟩ :: s.puts }), []) := by
  simp [store, guarded, Attempt.run, hup]

end Shelf

/-- A visit takes a life when the ledger counts one as lost. -/
def Visited.Accepts {σ : Type} (x : Visited σ) : Prop :=
  x.visit.call = .loseLife ∧ .count (.livesLost x.visit.bucket.scope) ∈ x.notes

instance {σ : Type} (x : Visited σ) : Decidable x.Accepts :=
  inferInstanceAs (Decidable (_ ∧ _))

namespace Ledger

open LivesState (losses waiting window lessOne afterWrites Balanced Takes)

/-- The shelf, whatever the time. -/
def shelved (_ : Stamp) : LivesStore Shelf := Shelf.store

variable {m : Nat} {c : Int} {s : Shelf} {b : Bucket}

theorem written_shelf_concat (rules : LedgerRules) (states : List LivesState) (state : LivesState)
    (hup : s.available = true) :
    written Shelf.store rules b s (states ++ [state]) =
      { (written Shelf.store rules b s states).set b.key state with
        puts := ⟨b.key, state, timeToLive rules state⟩ ::
          (written Shelf.store rules b s states).puts } := by
  have hstays := up_written (b := b) Shelf.store_reliable rules states hup
  rw [written_append]
  show ((save Shelf.store rules b state).run _).1.2 = _
  rw [save, Shelf.put_run b.key state (timeToLive rules state) hstays]

/-- Writes of a bucket change its record, and no other. -/
theorem find?_written (rules : LedgerRules) (states : List LivesState) (hup : s.available = true) :
    (written Shelf.store rules b s states).find? =
      Function.update s.find? b.key (afterWrites (s.find? b.key) states) := by
  induction states using List.reverseRecOn with
  | nil => exact (Function.update_eq_self b.key s.find?).symm
  | append_singleton states state ih =>
    have hset := Shelf.find?_set (written Shelf.store rules b s states) b.key state
    rw [written_shelf_concat rules states state hup, afterWrites, List.getLast?_concat]
    rw [ih, Function.update_idem] at hset
    exact hset

theorem state_of_mem_puts {p : Put} (rules : LedgerRules) (states : List LivesState)
    (hup : s.available = true) (hp : p ∈ (written Shelf.store rules b s states).puts) :
    p ∈ s.puts ∨ p.state ∈ states := by
  induction states using List.reverseRecOn with
  | nil => exact Or.inl hp
  | append_singleton states state ih =>
    rw [written_shelf_concat rules states state hup] at hp
    rcases List.mem_cons.mp hp with rfl | hp
    · exact Or.inr (List.mem_append_right states (List.mem_singleton_self state))
    · rcases ih hp with hold | hnew
      · exact Or.inl hold
      · exact Or.inr (List.mem_append_left [state] hnew)

/-- A visit to a shelf that is on is one read and some writes. -/
theorem visited_shelf (v : Visit) (hup : s.available = true) :
    (visited shelved ⟨m, some c⟩ s v).reply =
        .ok (outcome m c v.time (s.find? v.bucket.key) v.call).1 ∧
      (visited shelved ⟨m, some c⟩ s v).after =
        written Shelf.store ⟨m, some c⟩ v.bucket s
          (outcome m c v.time (s.find? v.bucket.key) v.call).2 := by
  have hget := congrArg Prod.fst (Shelf.get_run v.bucket.key hup)
  have hhas := congrArg Prod.fst (Shelf.has_run v.bucket.key hup)
  have hrun := answer_run Shelf.store_reliable m c v.time v.call hget hup hhas hup
  rw [ite_self] at hrun
  exact ⟨congrArg Prod.fst hrun, congrArg Prod.snd hrun⟩

/-! ### What is counted -/

/-- A look counts no life as lost. -/
theorem livesLost_notMem_current (now : Stamp) (b : Bucket) (scope : String)
    (hup : s.available = true) :
    Note.count (.livesLost scope) ∉ ((current Shelf.store ⟨m, some c⟩ now b).run s).2 := by
  rw [current, Attempt.run_bind, Shelf.get_run b.key hup]
  cases s.find? b.key with
  | none => exact List.not_mem_nil
  | some r =>
    by_cases hany : 0 < r.restoredCount now c
    · simp [giveBack, save, Attempt.run_bind, hany, Shelf.put_run _ _ _ hup, Note.debug]
    · simp [giveBack, Attempt.run_bind, hany]

/-- A loss is counted when there was something to lose, and not otherwise. -/
theorem livesLost_mem_loseLife (now : Stamp) (b : Bucket) (hup : s.available = true) :
    Note.count (.livesLost b.scope) ∈ ((loseLife Shelf.store ⟨m, some c⟩ now now b).run s).2 ↔
      (told m c now (s.find? b.key)).lose? now ≠ none := by
  have hget := congrArg Prod.fst (Shelf.get_run b.key hup)
  have hlook := livesLost_notMem_current (m := m) (c := c) now b b.scope hup
  have hcurrent := current_run Shelf.store_reliable m c now hget hup
  have hstays := up_written (b := b) Shelf.store_reliable ⟨m, some c⟩
    (lookWrites m c now (s.find? b.key)) hup
  rw [loseLife, Attempt.notes_bind_ok hcurrent, List.mem_append, or_iff_right hlook]
  cases (told m c now (s.find? b.key)).lose? now with
  | none => simp [Attempt.run_bind, Note.debug]
  | some left => simp [save, Attempt.run_bind, Shelf.put_run _ _ _ hstays]

/-- A visit is accepted exactly when its call takes a life. -/
theorem accepts_iff (v : Visit) (hup : s.available = true) (hm : m < 256)
    (hfound : ∀ r ∈ s.find? v.bucket.key, r.Balanced m) :
    (visited shelved ⟨m, some c⟩ s v).Accepts ↔
      Takes c v.time m (losses (s.find? v.bucket.key)) v.call := by
  obtain ⟨time, bucket, call⟩ := v
  unfold Visited.Accepts Takes
  refine and_congr_right fun hcall => ?_
  obtain rfl : call = .loseLife := hcall
  -- a life is counted where the store takes one, and the window says when that is
  have hcounted := livesLost_mem_loseLife (m := m) (c := c) time bucket hup
  rw [LivesState.told_eq c time hfound hm, LivesState.lose?_window] at hcounted
  have hnotes : (visited shelved ⟨m, some c⟩ s ⟨time, bucket, .loseLife⟩).notes =
      ((loseLife Shelf.store ⟨m, some c⟩ time time bucket).run s).2 := by
    rw [visited, LedgerCall.answer, LedgerCall.run_return]
    rfl
  rw [hnotes]
  refine hcounted.trans ?_
  by_cases hleft : (waiting c time (losses (s.find? bucket.key))).length < m
  · simp [hleft]
  · simp [hleft]

/-! ## The losses of a bucket -/

/-- The accepted losses of a bucket since it was last reset, after one more visit. -/
def countLoss {σ : Type} (b : Bucket) (times : List Stamp) (x : Visited σ) : List Stamp :=
  if x.visit.bucket = b then
    if x.visit.call = .reset then []
    else times ++ if x.Accepts then [x.visit.time] else []
  else times

/-- The times of the accepted losses of a bucket since it was last reset. -/
def accepted {σ : Type} (b : Bucket) (h : List (Visited σ)) : List Stamp :=
  h.foldl (countLoss b) []

/-- The losses of a bucket that were given back since it was last reset, after one more visit: those
that the visit found in the record, and whose wait was over. -/
def countReturn (c : Int) (b : Bucket) (times : List Stamp) (x : Visited Shelf) : List Stamp :=
  if x.visit.bucket = b then
    if x.visit.call = .reset then []
    else times ++ (losses (x.before.find? b.key)).filter fun l =>
      !LivesState.isWaiting x.visit.time c l
  else times

/-- The losses of a bucket that were given back since it was last reset. -/
def returned (c : Int) (b : Bucket) (h : List (Visited Shelf)) : List Stamp :=
  h.foldl (countReturn c b) []

theorem accepted_concat {σ : Type} (b : Bucket) (h : List (Visited σ)) (x : Visited σ) :
    accepted b (h ++ [x]) = countLoss b (accepted b h) x := List.foldl_append

theorem returned_concat (c : Int) (b : Bucket) (h : List (Visited Shelf)) (x : Visited Shelf) :
    returned c b (h ++ [x]) = countReturn c b (returned c b h) x := List.foldl_append

/-- One more visit adds at most its own time. -/
theorem mem_countLoss {σ : Type} {b : Bucket} {times : List Stamp} {x : Visited σ} {l : Stamp}
    (hl : l ∈ countLoss b times x) : l ∈ times ∨ l = x.visit.time := by
  unfold countLoss at hl
  split at hl
  · split at hl
    · exact absurd hl List.not_mem_nil
    · rcases List.mem_append.mp hl with hl | hl
      · exact Or.inl hl
      · split at hl
        · exact Or.inr (List.mem_singleton.mp hl)
        · exact absurd hl List.not_mem_nil
  · exact Or.inl hl

/-- Every accepted loss was at the time of a visit. -/
theorem exists_of_mem_accepted {σ : Type} {b : Bucket} {h : List (Visited σ)} {l : Stamp}
    (hl : l ∈ accepted b h) : ∃ x ∈ h, l = x.visit.time := by
  induction h using List.reverseRecOn with
  | nil => exact absurd hl List.not_mem_nil
  | append_singleton h x ih =>
    rw [accepted_concat] at hl
    rcases mem_countLoss hl with hl | hl
    · obtain ⟨y, hy, hly⟩ := ih hl
      exact ⟨y, List.mem_append_left [x] hy, hly⟩
    · exact ⟨x, List.mem_append_right h (List.mem_singleton_self x), hl⟩

/-- The losses of a bucket are in order if the visits are. -/
theorem sorted_accepted {σ : Type} (b : Bucket) {h : List (Visited σ)}
    (hh : Stamp.Sorted (h.map fun x => x.visit.time)) : Stamp.Sorted (accepted b h) := by
  induction h using List.reverseRecOn with
  | nil => exact List.Pairwise.nil
  | append_singleton h x ih =>
    rw [List.map_append] at hh
    obtain ⟨hbefore, hlast⟩ := hh.of_concat
    have hsorted := ih hbefore
    have hlater : ∀ l ∈ accepted b h, x.visit.time.lt l = false := by
      intro l hl
      obtain ⟨y, hy, rfl⟩ := exists_of_mem_accepted hl
      exact hlast _ (List.mem_map_of_mem hy)
    rw [accepted_concat]
    unfold countLoss
    split
    · split
      · exact List.Pairwise.nil
      · split
        · exact hsorted.concat hlater
        · rw [List.append_nil]
          exact hsorted
    · exact hsorted

/-! ## Waiting and time -/

/-- A wait that is over stays over. -/
theorem isWaiting_later {t u l : Stamp} (hl : l.Regular) (ht : t.Regular) (hu : u.Regular)
    (hlater : u.lt t = false) (hover : LivesState.isWaiting t c l = false) :
    LivesState.isWaiting u c l = false := by
  have hle := (Stamp.lt_eq_false_iff hu ht).mp hlater
  simp only [LivesState.isWaiting, Stamp.since_eq ht hl, Stamp.since_eq hu hl,
    decide_eq_false_iff_not] at hover ⊢
  omega

/-- Of two losses the earlier is given back first. -/
theorem isWaiting_of_earlier {t k l : Stamp} (ht : t.Regular) (hk : k.Regular) (hl : l.Regular)
    (hlater : l.lt k = false) (hwaits : LivesState.isWaiting t c k = true) :
    LivesState.isWaiting t c l = true := by
  have hle := (Stamp.lt_eq_false_iff hl hk).mp hlater
  simp only [LivesState.isWaiting, Stamp.since_eq ht hk, Stamp.since_eq ht hl,
    decide_eq_true_eq] at hwaits ⊢
  omega

/-- Of some losses in order the first are given back, and the others wait. -/
theorem filter_over_append_waiting {t : Stamp} {lost : List Stamp} (ht : t.Regular)
    (hlost : ∀ l ∈ lost, l.Regular) (hsorted : Stamp.Sorted lost) :
    (lost.filter fun l => !LivesState.isWaiting t c l) ++ waiting c t lost = lost := by
  induction lost with
  | nil => rfl
  | cons k lost ih =>
    obtain ⟨hfirst, hrest⟩ := List.pairwise_cons.mp hsorted
    have hk := hlost k List.mem_cons_self
    have hregular : ∀ l ∈ lost, l.Regular := fun l hl => hlost l (List.mem_cons_of_mem k hl)
    cases hwaits : LivesState.isWaiting t c k with
    | true =>
      -- the first still waits, and so do all behind it
      have hall : ∀ l ∈ k :: lost, LivesState.isWaiting t c l = true := by
        intro l hl
        rcases List.mem_cons.mp hl with rfl | hl
        · exact hwaits
        · exact isWaiting_of_earlier ht hk (hregular l hl) (hfirst l hl) hwaits
      have hnone : ((k :: lost).filter fun l => !LivesState.isWaiting t c l) = [] := by
        rw [List.filter_eq_nil_iff]
        intro l hl
        rw [hall l hl]
        exact Bool.false_ne_true
      rw [hnone, List.nil_append, waiting, List.filter_eq_self]
      exact hall
    | false =>
      have hover : waiting c t (k :: lost) = waiting c t lost := by simp [waiting, hwaits]
      rw [hover, List.filter_cons_of_pos (by simp [hwaits]), List.cons_append,
        ih hregular hrest]

/-! ## The invariant -/

/-- A moment that the clock may show after some visits. -/
structure After {σ : Type} (h : List (Visited σ)) (t : Stamp) : Prop where
  regular : t.Regular
  later : ∀ x ∈ h, t.lt x.visit.time = false

/-- The record of a bucket agrees with the visits so far. -/
structure Kept (m : Nat) (c : Int) (b : Bucket) (h : List (Visited Shelf)) (s : Shelf) : Prop where
  balanced : ∀ r ∈ s.find? b.key, r.Balanced m
  /-- Every accepted loss was given back, or is in the record. -/
  split : accepted b h = returned c b h ++ losses (s.find? b.key)
  /-- What was given back is over for good. -/
  elapsed : ∀ t, After h t → ∀ l ∈ returned c b h, LivesState.isWaiting t c l = false

/-- So at any later moment the record says what waits of all that was accepted. -/
theorem Kept.waiting_eq {h : List (Visited Shelf)} {t : Stamp} (hk : Kept m c b h s)
    (ht : After h t) : waiting c t (accepted b h) = waiting c t (losses (s.find? b.key)) := by
  have hnone : waiting c t (returned c b h) = [] := by
    rw [waiting, List.filter_eq_nil_iff]
    intro l hl
    rw [hk.elapsed t ht l hl]
    exact Bool.false_ne_true
  rw [hk.split, waiting, List.filter_append]
  show waiting c t (returned c b h) ++ _ = _
  rw [hnone]
  rfl

theorem After.of_concat {σ : Type} {h : List (Visited σ)} {x : Visited σ} {t : Stamp}
    (ht : After (h ++ [x]) t) : After h t :=
  ⟨ht.regular, fun y hy => ht.later y (List.mem_append_left [x] hy)⟩

/-- A visit to another bucket changes nothing of this one. -/
theorem Kept.elsewhere {h : List (Visited Shelf)} {x : Visited Shelf} (hk : Kept m c b h s)
    (hb : x.visit.bucket ≠ b) (hsame : x.after.find? b.key = s.find? b.key) :
    Kept m c b (h ++ [x]) x.after := by
  have haccepted : accepted b (h ++ [x]) = accepted b h := by
    rw [accepted_concat, countLoss, if_neg hb]
  have hreturned : returned c b (h ++ [x]) = returned c b h := by
    rw [returned_concat, countReturn, if_neg hb]
  constructor
  case balanced =>
    rw [hsame]
    exact hk.balanced
  case split =>
    rw [haccepted, hreturned, hsame]
    exact hk.split
  case elapsed =>
    intro t ht
    rw [hreturned]
    exact hk.elapsed t ht.of_concat

/-- What a visit does to its bucket. -/
structure Visits (m : Nat) (c : Int) (s : Shelf) (x : Visited Shelf) : Prop where
  before : x.before = s
  /-- The record that it leaves is balanced. -/
  balanced : ∀ r ∈ x.after.find? x.visit.bucket.key, r.Balanced m
  /-- It is accepted when fewer losses wait than there are lives. -/
  accepts : x.Accepts ↔
    Takes c x.visit.time m (losses (s.find? x.visit.bucket.key)) x.visit.call
  /-- It leaves what waits, and its own loss. -/
  leaves : ¬x.visit.call = .reset → losses (x.after.find? x.visit.bucket.key) =
    waiting c x.visit.time (losses (s.find? x.visit.bucket.key)) ++
      if x.Accepts then [x.visit.time] else []
  /-- A reset leaves nothing. -/
  clears : x.visit.call = .reset → losses (x.after.find? x.visit.bucket.key) = []
  /-- It touches no other record. -/
  elsewhere : ∀ key, key ≠ x.visit.bucket.key → x.after.find? key = s.find? key
  /-- Every record that it writes is balanced. -/
  writes : ∀ p ∈ x.after.puts, p ∈ s.puts ∨ p.state.Balanced m
  up : x.after.available = true

theorem visits_shelf (v : Visit) (hup : s.available = true) (hm : m < 256)
    (hfound : ∀ r ∈ s.find? v.bucket.key, r.Balanced m) :
    Visits m c s (visited shelved ⟨m, some c⟩ s v) := by
  have hafter := (visited_shelf (m := m) (c := c) v hup).2
  have hwrites := LivesState.balanced_outcome c v.time hfound hm v.call
  have hleaves := LivesState.losses_outcome c v.time hfound hm v.call
  have haccepts := accepts_iff (c := c) v hup hm hfound
  have hfind := find?_written (b := v.bucket) ⟨m, some c⟩
    (outcome m c v.time (s.find? v.bucket.key) v.call).2 hup
  have hputs := fun p => state_of_mem_puts (b := v.bucket) (p := p) ⟨m, some c⟩
    (outcome m c v.time (s.find? v.bucket.key) v.call).2 hup
  have hstays := up_written (b := v.bucket) Shelf.store_reliable ⟨m, some c⟩
    (outcome m c v.time (s.find? v.bucket.key) v.call).2 hup
  rw [← hafter] at hfind hputs hstays
  -- what is found behind the visit is the record last written, or the one that was there
  have hrecord := congrFun hfind v.bucket.key
  rw [Function.update_self] at hrecord
  constructor
  case before => rfl
  case balanced =>
    intro r hr
    exact LivesState.balanced_afterWrites c v.time hfound hm v.call r (hrecord.symm.trans hr)
  case accepts => exact haccepts
  case leaves =>
    intro hreset
    have hcall : ¬v.call = .reset := hreset
    rw [if_neg hcall, ← hrecord] at hleaves
    refine hleaves.trans ?_
    rw [if_congr haccepts rfl rfl]
    rfl
  case clears =>
    intro hreset
    have hcall : v.call = .reset := hreset
    rw [if_pos hcall, ← hrecord] at hleaves
    exact hleaves
  case elsewhere =>
    intro key hkey
    rw [hfind]
    exact Function.update_of_ne hkey _ _
  case writes =>
    intro p hp
    rcases hputs p hp with hold | hnew
    · exact Or.inl hold
    · exact Or.inr (hwrites p.state hnew)
  case up => exact hstays

/-- A visit to the bucket keeps the record in agreement. -/
theorem Kept.here {h : List (Visited Shelf)} {x : Visited Shelf} (hk : Kept m c b h s)
    (hx : Visits m c s x) (hb : x.visit.bucket = b) (ht : After h x.visit.time)
    (hlost : ∀ l ∈ accepted b h, l.Regular) (hsorted : Stamp.Sorted (accepted b h)) :
    Kept m c b (h ++ [x]) x.after := by
  subst hb
  have hbefore : x.before.find? = s.find? := by rw [hx.before]
  by_cases hreset : x.visit.call = .reset
  · have haccepted : accepted x.visit.bucket (h ++ [x]) = [] := by
      rw [accepted_concat, countLoss, if_pos rfl, if_pos hreset]
    have hreturned : returned c x.visit.bucket (h ++ [x]) = [] := by
      rw [returned_concat, countReturn, if_pos rfl, if_pos hreset]
    constructor
    case balanced => exact hx.balanced
    case split =>
      rw [haccepted, hreturned, hx.clears hreset]
      rfl
    case elapsed =>
      intro u hu l hl
      rw [hreturned] at hl
      exact absurd hl List.not_mem_nil
  · -- the losses in the record, split into those that the visit gives back and those that wait
    have hmem : ∀ l ∈ losses (s.find? x.visit.bucket.key), l ∈ accepted x.visit.bucket h := by
      intro l hl
      rw [hk.split]
      exact List.mem_append_right _ hl
    have hregular : ∀ l ∈ losses (s.find? x.visit.bucket.key), l.Regular :=
      fun l hl => hlost l (hmem l hl)
    have hsorted' : Stamp.Sorted (losses (s.find? x.visit.bucket.key)) := by
      rw [hk.split] at hsorted
      exact (List.pairwise_append.mp hsorted).2.1
    have hparts := filter_over_append_waiting (c := c) ht.regular hregular hsorted'
    have haccepted : accepted x.visit.bucket (h ++ [x]) = accepted x.visit.bucket h ++
        if x.Accepts then [x.visit.time] else [] := by
      rw [accepted_concat, countLoss, if_pos rfl, if_neg hreset]
    have hreturned : returned c x.visit.bucket (h ++ [x]) = returned c x.visit.bucket h ++
        (losses (s.find? x.visit.bucket.key)).filter fun l =>
          !LivesState.isWaiting x.visit.time c l := by
      rw [returned_concat, countReturn, if_pos rfl, if_neg hreset, hbefore]
    constructor
    case balanced => exact hx.balanced
    case split =>
      rw [haccepted, hreturned, hx.leaves hreset, List.append_assoc,
        ← List.append_assoc (List.filter _ _), hparts, ← List.append_assoc, ← hk.split]
    case elapsed =>
      intro u hu l hl
      rw [hreturned] at hl
      rcases List.mem_append.mp hl with hl | hl
      · exact hk.elapsed u hu.of_concat l hl
      · obtain ⟨hfound, hwait⟩ := List.mem_filter.mp hl
        have hlater := hu.later x (List.mem_append_right h (List.mem_singleton_self x))
        have hover : LivesState.isWaiting x.visit.time c l = false := by simpa using hwait
        exact isWaiting_later (hregular l hfound) ht.regular hu.regular hlater hover

/-! ## Runs -/

/-- All records are in agreement with the visits so far. -/
structure Orderly (m : Nat) (c : Int) (h : List (Visited Shelf)) (s : Shelf) : Prop where
  up : s.available = true
  kept : ∀ b, Kept m c b h s
  puts : ∀ p ∈ s.puts, p.state.Balanced m
  /-- Nothing is on the shelf but records of buckets. -/
  known : ∀ key r, s.find? key = some r → ∃ b : Bucket, key = b.key

theorem orderly_empty (m : Nat) (c : Int) : Orderly m c [] .empty := by
  refine ⟨rfl, fun b => ⟨nofun, rfl, fun t ht l hl => absurd hl List.not_mem_nil⟩, ?_, nofun⟩
  exact fun p hp => absurd hp List.not_mem_nil

theorem Orderly.visited {h : List (Visited Shelf)} (ho : Orderly m c h s) (v : Visit) (hm : m < 256)
    (hv : After h v.time) (hlost : ∀ b, ∀ l ∈ accepted b h, l.Regular)
    (hsorted : ∀ b, Stamp.Sorted (accepted b h)) :
    Orderly m c (h ++ [visited shelved ⟨m, some c⟩ s v])
      (visited shelved ⟨m, some c⟩ s v).after := by
  have hx := visits_shelf (c := c) v ho.up hm (ho.kept v.bucket).balanced
  have hvisit : (Ledger.visited shelved ⟨m, some c⟩ s v).visit = v := rfl
  generalize Ledger.visited shelved ⟨m, some c⟩ s v = x at hx hvisit ⊢
  subst hvisit
  constructor
  case up => exact hx.up
  case kept =>
    intro b
    by_cases hb : x.visit.bucket = b
    · exact (ho.kept b).here hx hb hv (hlost b) (hsorted b)
    · have hkey : b.key ≠ x.visit.bucket.key := fun h => hb (Bucket.key_injective h).symm
      exact (ho.kept b).elsewhere hb (hx.elsewhere b.key hkey)
  case puts =>
    intro p hp
    rcases hx.writes p hp with hold | hnew
    · exact ho.puts p hold
    · exact hnew
  case known =>
    intro key r hr
    by_cases hkey : key = x.visit.bucket.key
    · exact ⟨x.visit.bucket, hkey⟩
    · rw [hx.elsewhere key hkey] at hr
      exact ho.known key r hr

/-- The records stay in agreement over any visits in order. -/
theorem orderly_history (m : Nat) (c : Int) (visits : List Visit) (hm : m < 256)
    (hregular : ∀ v ∈ visits, v.time.Regular) (hsorted : Stamp.Sorted (visits.map Visit.time)) :
    Orderly m c (history shelved ⟨m, some c⟩ .empty visits)
      (reached shelved ⟨m, some c⟩ .empty visits) := by
  induction visits using List.reverseRecOn with
  | nil => exact orderly_empty m c
  | append_singleton visits v ih =>
    rw [List.map_append] at hsorted
    obtain ⟨hbefore, hlast⟩ := hsorted.of_concat
    have hregular' : ∀ w ∈ visits, w.time.Regular :=
      fun w hw => hregular w (List.mem_append_left [v] hw)
    have hv := hregular v (List.mem_append_right visits (List.mem_singleton_self v))
    have ho := ih hregular' hbefore
    rw [history_concat, reached_concat]
    refine ho.visited v hm ⟨hv, fun x hx => ?_⟩ (fun b l hl => ?_) fun b => ?_
    · exact hlast _ (List.mem_map_of_mem (visit_mem _ _ hx))
    · obtain ⟨x, hx, rfl⟩ := exists_of_mem_accepted hl
      exact hregular' x.visit (visit_mem _ _ hx)
    · refine sorted_accepted b ?_
      rw [map_time_history]
      exact hbefore

/-! ## The law -/

/-- A ledger of `m` lives answers for a bucket at a moment as a window does that holds the losses
`w`. -/
structure Windowed (m : Nat) (c : Int) (s : Shelf) (b : Bucket) (t : Stamp) (w : List Stamp) :
    Prop where
  /-- The oldest loss comes first. -/
  sorted : Stamp.Sorted w
  within : w.length ≤ m
  /-- A look tells the losses, and a life for every other. -/
  read : ((current Shelf.store ⟨m, some c⟩ t b).run s).1.1 = .ok ⟨m - w.length, w⟩
  /-- A loss is accepted while fewer wait than there are lives. -/
  accepts : (visited shelved ⟨m, some c⟩ s ⟨t, b, .loseLife⟩).Accepts ↔ w.length < m
  takes : w.length < m → ((loseLife Shelf.store ⟨m, some c⟩ t t b).run s).1.1 =
    .ok ⟨m - w.length - 1, w ++ [t]⟩
  /-- Otherwise nothing changes. -/
  refuses : ¬w.length < m →
    ((loseLife Shelf.store ⟨m, some c⟩ t t b).run s).1 = (.ok ⟨0, w⟩, s)
  /-- The next life comes back when the oldest loss has waited long enough. -/
  wait : ((untilNextRestore Shelf.store ⟨m, some c⟩ t t b).run s).1.1 =
    .ok (w.head?.map fun oldest => c - t.since oldest)

/-- Nothing is lost or given back twice. -/
structure Conserved (m : Nat) (c : Int) (h : List (Visited Shelf)) (s : Shelf) : Prop where
  /-- Every accepted loss was given back once, or it is in the record once. -/
  once : ∀ b, accepted b h = returned c b h ++ losses (s.find? b.key)
  /-- Every record has a loss for every life that it lacks. -/
  balanced : ∀ key r, s.find? key = some r → r.Balanced m
  /-- So had every record that was ever written. -/
  written : ∀ p ∈ s.puts, p.state.Balanced m

theorem Orderly.conserved {h : List (Visited Shelf)} (ho : Orderly m c h s) :
    Conserved m c h s := by
  refine ⟨fun b => (ho.kept b).split, fun key r hr => ?_, ho.puts⟩
  obtain ⟨b, rfl⟩ := ho.known key r hr
  exact (ho.kept b).balanced r hr

/-- The wait for the oldest loss of a window. -/
theorem untilNextRestore?_window {t : Stamp} {lost : List Stamp} (ht : t.Regular)
    (hlost : ∀ l ∈ lost, l.Regular) (hsorted : Stamp.Sorted lost) (hle : lost.length ≤ m) :
    (window c t m lost).untilNextRestore? t c m =
      (waiting c t lost).head?.map fun oldest => c - t.since oldest := by
  have hw : Stamp.Sorted (waiting c t lost) := hsorted.filter _
  have hwaiting := LivesState.length_waiting_le c t lost
  rw [LivesState.untilNextRestore?, window]
  dsimp only
  rw [Stamp.earliest?_of_sorted hw]
  cases hhead : waiting c t lost with
  | nil => exact if_pos (by rw [List.length_nil]; omega)
  | cons oldest rest =>
    have hmem : oldest ∈ waiting c t lost := by rw [hhead]; exact List.mem_cons_self
    obtain ⟨hin, hwaits⟩ := List.mem_filter.mp hmem
    have hregular := hlost oldest hin
    have hlength : (waiting c t lost).length = rest.length + 1 := by rw [hhead, List.length_cons]
    have hsince := Stamp.since_eq ht hregular
    have hleft : (oldest.later c).since t = c - t.since oldest := by
      rw [Stamp.since_eq (Stamp.regular_later hregular c) ht, Stamp.nanos_later hregular, hsince]
      omega
    have hpos : 0 < c - t.since oldest := by
      have hlt : t.since oldest < c := by simpa [LivesState.isWaiting] using hwaits
      omega
    have hnot : ¬m ≤ m - (oldest :: rest).length := by
      rw [List.length_cons]
      omega
    rw [if_neg hnot, List.head?_cons, Option.map_some, Option.map_some, hleft,
      Int.max_eq_left (Int.le_of_lt hpos)]

/-- Records in agreement make a window. -/
theorem Orderly.windowed {h : List (Visited Shelf)} (ho : Orderly m c h s) (hm : m < 256)
    (b : Bucket) {t : Stamp} (ht : After h t) (hlost : ∀ l ∈ accepted b h, l.Regular)
    (hsorted : Stamp.Sorted (accepted b h)) :
    Windowed m c s b t (waiting c t (accepted b h)) := by
  have hk := ho.kept b
  have hmem : ∀ l ∈ losses (s.find? b.key), l ∈ accepted b h := by
    intro l hl
    rw [hk.split]
    exact List.mem_append_right _ hl
  have hlost' : ∀ l ∈ losses (s.find? b.key), l.Regular := fun l hl => hlost l (hmem l hl)
  have hsorted' : Stamp.Sorted (losses (s.find? b.key)) := by
    rw [hk.split] at hsorted
    exact (List.pairwise_append.mp hsorted).2.1
  have hle := LivesState.length_losses_le hk.balanced
  have hwaiting := LivesState.length_waiting_le c t (losses (s.find? b.key))
  have htold := LivesState.told_eq c t hk.balanced hm
  have hget := congrArg Prod.fst (Shelf.get_run b.key ho.up)
  have hcurrent : ((current Shelf.store ⟨m, some c⟩ t b).run s).1 =
      (.ok (window c t m (losses (s.find? b.key))), written Shelf.store ⟨m, some c⟩ b s
        (lookWrites m c t (s.find? b.key))) := by
    rw [← htold]
    exact current_run Shelf.store_reliable m c t hget ho.up
  have hlose := loseLife_run Shelf.store_reliable m c t hget ho.up
  rw [htold, LivesState.lose?_window] at hlose
  rw [hk.waiting_eq ht]
  constructor
  case sorted => exact hsorted'.filter _
  case within => omega
  case read => exact congrArg Prod.fst hcurrent
  case accepts =>
    refine (accepts_iff ⟨t, b, .loseLife⟩ ho.up hm hk.balanced).trans ?_
    exact and_iff_right rfl
  case takes =>
    intro hleft
    rw [if_pos hleft] at hlose
    exact congrArg Prod.fst hlose
  case refuses =>
    -- with no life left there is nothing to give back either, so the look writes nothing
    intro hnone
    have hfull : m - (waiting c t (losses (s.find? b.key))).length = 0 := by omega
    rw [if_neg hnone] at hlose
    dsimp only at hlose
    rw [LivesState.lookWrites_of_full c t hk.balanced hm hnone, window, hfull] at hlose
    exact hlose
  case wait =>
    rw [untilNextRestore]
    dsimp only
    rw [Attempt.run_bind_ok hcurrent]
    exact congrArg Except.ok (untilNextRestore?_window ht.regular hlost' hsorted' hle)

/-- The leap second at the end of 2016, so many nanoseconds after its beginning. -/
def leapSecond (nanos : Nat) : Stamp := ⟨17166, 86399, nanosPerSecond + nanos⟩

/-- Two callers lose a life in a leap second, and one of them looks before it is over. -/
def leapVisits : List Visit :=
  [⟨leapSecond 0, .user "a", .loseLife⟩, ⟨leapSecond 0, .user "b", .loseLife⟩,
    ⟨leapSecond 600000000, .user "a", .current⟩]

end Ledger

end Invigilator
