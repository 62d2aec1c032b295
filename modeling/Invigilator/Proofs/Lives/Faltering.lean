import Invigilator.Proofs.Lives.Restoring

/-!
# Failed calls go unnoticed

A store may fail in the middle of a call. A loss writes twice when it finds something to give back,
first the record that the look restores and then the loss. If only the second write fails the caller
is told of a failure, and yet the record has changed.

Nobody can tell, because what is left is what a look would have left, and a look changes nothing
that any later call can see. So the argument has two halves. `ends_answer` follows the steps of a
call, each of which does what it should or nothing: the call succeeds, or it leaves the records
alone or as a look leaves them (`Remains`). And records that differ by a look answer alike from then
on (`Alike`), as long as a wait that is over stays over.
-/

namespace Invigilator

open LivesState (losses waiting afterWrites Balanced)

variable {σ α β : Type}

/-- The records of a store by their keys. -/
abbrev LivesRecords := String → Option LivesState

variable {view : σ → LivesRecords} {up : σ → Prop} {s : σ} {x : α} {after middle : LivesRecords}
  {left : LivesRecords → Prop}

/-! ## Steps that may fail -/

namespace Attempt

/-- How an attempt ends on a store that stays up. Either it succeeds with `x` and leaves the records
`after`, or it fails and leaves such records as `left` allows. -/
def Ends (view : σ → LivesRecords) (up : σ → Prop) (s : σ) (a : Attempt σ α) (x : α)
    (after : LivesRecords) (left : LivesRecords → Prop) : Prop :=
  ∃ t, up t ∧ ((a.run s).1 = (.ok x, t) ∧ view t = after ∨
    (∃ fault, (a.run s).1 = (.error fault, t)) ∧ left (view t))

/-- An attempt that cannot fail. -/
theorem ends_of_ok {a : Attempt σ α} (hup : up s) (hview : view s = after)
    (hrun : (a.run s).1 = (.ok x, s)) : Ends view up s a x after left :=
  ⟨s, hup, Or.inl ⟨hrun, hview⟩⟩

theorem Ends.mono {a : Attempt σ α} {left' : LivesRecords → Prop}
    (ha : Ends view up s a x after left) (hleft : ∀ records, left records → left' records) :
    Ends view up s a x after left' := by
  obtain ⟨t, hup, hok | ⟨hfault, hremains⟩⟩ := ha
  · exact ⟨t, hup, Or.inl hok⟩
  · exact ⟨t, hup, Or.inr ⟨hfault, hleft _ hremains⟩⟩

/-- The second step begins with the records that the first one leaves. -/
theorem Ends.bind {a : Attempt σ α} {f : α → Attempt σ β} {y : β}
    (ha : Ends view up s a x middle left)
    (hf : ∀ t, up t → view t = middle → Ends view up t (f x) y after left) :
    Ends view up s (a >>= f) y after left := by
  obtain ⟨t, hup, ⟨hok, hview⟩ | ⟨⟨fault, herror⟩, hleft⟩⟩ := ha
  · obtain ⟨u, hup', hends⟩ := hf t hup hview
    rw [← run_bind_ok hok] at hends
    exact ⟨u, hup', hends⟩
  · exact ⟨t, hup, Or.inr ⟨⟨fault, run_bind_error herror⟩, hleft⟩⟩

theorem Ends.return {a : Attempt σ α} (ha : Ends view up s a x after left) (f : α → β) :
    Ends view up s (do return f (← a)) (f x) after left :=
  ha.bind fun _ hup hview => ends_of_ok hup hview rfl

/-- An attempt that may be made to fail has one more way to end: nothing has happened. -/
theorem Ends.interrupted {a : Attempt σ α} {s : σ × Nat} (ha : Ends view up s.1 a x after left)
    (hup : up s.1) (hnothing : left (view s.1)) (fails : Nat → Bool) :
    Ends (fun s => view s.1) (fun s => up s.1) s (a.interrupted fails) x after left := by
  cases h : fails s.2 with
  | true =>
    exact ⟨(s.1, s.2 + 1), hup, Or.inr ⟨⟨_, run_interrupted_fails a h⟩, hnothing⟩⟩
  | false =>
    obtain ⟨t, hup', hends⟩ := ha
    have hrun := run_interrupted a h
    refine ⟨(t, s.2 + 1), hup', ?_⟩
    rcases hends with ⟨hok, hview⟩ | ⟨⟨fault, herror⟩, hleft⟩
    · rw [hok] at hrun
      exact Or.inl ⟨hrun, hview⟩
    · rw [herror] at hrun
      exact Or.inr ⟨⟨fault, hrun⟩, hleft⟩

end Attempt

open Attempt (Ends)

/-- A store whose calls do what they should, or fail and do nothing. `Honest` says less: it has no
word on whether a record is there, and a call may take an honest store down. -/
structure LivesStore.Candid (store : LivesStore σ) (view : σ → LivesRecords) (up : σ → Prop) :
    Prop where
  get : ∀ key s, up s → Ends view up s (store.get key) (view s key) (view s) (· = view s)
  put : ∀ key state ttl s, up s → Ends view up s (store.put key state ttl) ()
    (Function.update (view s) key (some state)) (· = view s)
  has : ∀ key s, up s → Ends view up s (store.has key) (view s key).isSome (view s) (· = view s)

/-- It remains one if any of its calls are made to fail. -/
theorem LivesStore.Candid.interrupted {store : LivesStore σ} (hs : store.Candid view up)
    (fails : Nat → Bool) :
    (store.interrupted fails).Candid (fun s => view s.1) (fun s => up s.1) where
  get key s hup := (hs.get key s.1 hup).interrupted hup rfl fails
  put key state ttl s hup := (hs.put key state ttl s.1 hup).interrupted hup rfl fails
  has key s hup := (hs.has key s.1 hup).interrupted hup rfl fails

theorem Shelf.store_candid : Shelf.store.Candid find? fun s => s.available = true where
  get key _ hup := Attempt.ends_of_ok hup rfl (congrArg Prod.fst (get_run key hup))
  put key state ttl s hup := ⟨{ s.set key state with puts := ⟨key, state, ttl⟩ :: s.puts }, hup,
    Or.inl ⟨congrArg Prod.fst (put_run key state ttl hup), find?_set s key state⟩⟩
  has key _ hup := Attempt.ends_of_ok hup rfl (congrArg Prod.fst (has_run key hup))

/-! ## Calls that may fail -/

namespace Ledger

variable {m : Nat} {c : Int} {now : Stamp} {b : Bucket}

/-- The records after some writes of a bucket. -/
def recorded (records : LivesRecords) (b : Bucket) (states : List LivesState) : LivesRecords :=
  Function.update records b.key (afterWrites (records b.key) states)

@[simp] theorem recorded_nil (records : LivesRecords) (b : Bucket) :
    recorded records b [] = records :=
  Function.update_eq_self b.key records

theorem recorded_self (records : LivesRecords) (b : Bucket) (states : List LivesState) :
    recorded records b states b.key = afterWrites (records b.key) states :=
  Function.update_self b.key _ records

/-- The records of other buckets stay as they are. -/
theorem recorded_of_ne {b b' : Bucket} (hb : b' ≠ b) (records : LivesRecords)
    (states : List LivesState) : recorded records b states b'.key = records b'.key :=
  Function.update_of_ne (fun h => hb (Bucket.key_injective h)) _ records

theorem recorded_concat (records : LivesRecords) (b : Bucket) (states : List LivesState)
    (state : LivesState) : recorded records b (states ++ [state]) =
      Function.update (recorded records b states) b.key (some state) := by
  rw [recorded, recorded, Function.update_idem, afterWrites, List.getLast?_concat]
  rfl

/-- What a failed call may leave: the records as they were, or as a look leaves them. -/
def Remains (m : Nat) (c : Int) (now : Stamp) (b : Bucket) (records left : LivesRecords) : Prop :=
  left = records ∨ left = recorded records b (lookWrites m c now (records b.key))

section Calls

variable (m c now b)
variable {store : LivesStore σ} (hs : store.Candid view up)

include hs

theorem ends_save (rules : LedgerRules) (state : LivesState) (hup : up s) :
    Ends view up s (save store rules b state) ()
      (Function.update (view s) b.key (some state)) (· = view s) :=
  hs.put b.key state _ s hup

theorem ends_giveBack (r : LivesState) (hup : up s) :
    Ends view up s (giveBack store ⟨m, some c⟩ now b r) (r.restore now c m)
      (recorded (view s) b (lookWrites m c now (some r))) (· = view s) := by
  rw [giveBack, lookWrites]
  dsimp only
  by_cases hany : 0 < r.restoredCount now c
  · rw [if_pos hany, if_pos hany]
    refine Ends.bind (Attempt.ends_of_ok hup rfl rfl) fun t hup' hview => ?_
    rw [← hview]
    exact (ends_save b hs _ _ hup').bind fun u hup' hview' => Attempt.ends_of_ok hup' hview' rfl
  · rw [if_neg hany, if_neg hany, recorded_nil]
    exact Attempt.ends_of_ok hup rfl rfl

/-- A look that fails leaves the records alone. -/
theorem ends_current (hup : up s) :
    Ends view up s (current store ⟨m, some c⟩ now b) (told m c now (view s b.key))
      (recorded (view s) b (lookWrites m c now (view s b.key))) (· = view s) := by
  refine (hs.get b.key s hup).bind fun t hup' hview => ?_
  rw [← hview]
  cases view t b.key with
  | none => exact Attempt.ends_of_ok hup' (recorded_nil (view t) b).symm rfl
  | some r =>
    refine (ends_giveBack m c now b hs r hup').bind fun u hup'' hview' => ?_
    refine Attempt.ends_of_ok hup'' hview' ?_
    rw [min_restore_lives]
    rfl

/-- A loss that fails may have got as far as the look. -/
theorem ends_loseLife (hup : up s) :
    Ends view up s (LedgerCall.loseLife.answer store ⟨m, some c⟩ now b)
      (outcome m c now (view s b.key) .loseLife).1
      (recorded (view s) b (outcome m c now (view s b.key) .loseLife).2)
      (Remains m c now b (view s)) := by
  have hlook : Ends view up s (current store ⟨m, some c⟩ now b) _ _ (Remains m c now b (view s)) :=
    (ends_current m c now b hs hup).mono fun _ => Or.inl
  rw [outcome]
  cases hlose : (told m c now (view s b.key)).lose? now with
  | none =>
    refine Ends.return (hlook.bind fun t hup' hview => ?_) LedgerReply.state
    rw [hlose]
    exact Attempt.ends_of_ok hup' hview rfl
  | some state =>
    refine Ends.return (hlook.bind fun t hup' hview => ?_) LedgerReply.state
    -- what the look wrote stays, also if this write fails
    rw [hlose, recorded_concat, ← hview]
    refine ((ends_save b hs _ state hup').mono fun _ h => Or.inr (h.trans hview)).bind ?_
    exact fun u hup'' hview' => Attempt.ends_of_ok hup'' hview' rfl

theorem ends_reset (hup : up s) :
    Ends view up s (reset store ⟨m, some c⟩ b) (.full m)
      (recorded (view s) b (outcome m c now (view s b.key) .reset).2) (· = view s) := by
  refine (hs.has b.key s hup).bind fun t hup' hview => ?_
  rw [← hview, outcome]
  cases (view t b.key).isSome with
  | false => exact Attempt.ends_of_ok hup' (recorded_nil (view t) b).symm rfl
  | true =>
    exact (ends_save b hs _ _ hup').bind fun u hup'' hview' => Attempt.ends_of_ok hup'' hview' rfl

/-- **A call does what it should, or it fails.** Then it has done nothing, or no more than a
look. -/
theorem ends_answer (call : LedgerCall) (hup : up s) :
    Ends view up s (call.answer store ⟨m, some c⟩ now b) (outcome m c now (view s b.key) call).1
      (recorded (view s) b (outcome m c now (view s b.key) call).2)
      (Remains m c now b (view s)) := by
  have hlook : Ends view up s (current store ⟨m, some c⟩ now b) _ _ (Remains m c now b (view s)) :=
    (ends_current m c now b hs hup).mono fun _ => Or.inl
  cases call with
  | current => exact hlook.return LedgerReply.state
  | currentLives => exact (hlook.return LivesState.lives).return LedgerReply.count
  | hasLives =>
    exact ((hlook.return LivesState.lives).return fun lives => decide (0 < lives)).return
      LedgerReply.flag
  | loseLife => exact ends_loseLife m c now b hs hup
  | reset => exact ((ends_reset m c now b hs hup).mono fun _ => Or.inl).return LedgerReply.state
  | untilNextRestore =>
    exact (hlook.return fun state => state.untilNextRestore? now c m).return LedgerReply.wait

end Calls

/-! ## Visits to a store that fails now and then -/

/-- A shelf of which some calls fail: the calls are numbered from zero. -/
def faltering (fails : Nat → Bool) (_ : Stamp) : LivesStore (Shelf × Nat) :=
  Shelf.store.interrupted fails

/-- What comes of a visit to a store that may fail. -/
inductive Ended (m : Nat) (c : Int) (x : Visited (Shelf × Nat)) : Prop where
  | done
    (reply : x.reply =
      .ok (outcome m c x.visit.time (x.before.1.find? x.visit.bucket.key) x.visit.call).1)
    (after : x.after.1.find? = recorded x.before.1.find? x.visit.bucket
      (outcome m c x.visit.time (x.before.1.find? x.visit.bucket.key) x.visit.call).2)
  | failed (fault : BackendFault) (reply : x.reply = .error fault)
    (after : Remains m c x.visit.time x.visit.bucket x.before.1.find? x.after.1.find?)

theorem visited_faltering (m : Nat) (c : Int) (fails : Nat → Bool) (v : Visit) {s : Shelf × Nat}
    (hup : s.1.available = true) :
    (visited (faltering fails) ⟨m, some c⟩ s v).after.1.available = true ∧
      Ended m c (visited (faltering fails) ⟨m, some c⟩ s v) := by
  obtain ⟨t, hup', hends⟩ := ends_answer m c v.time v.bucket
    (Shelf.store_candid.interrupted fails) v.call hup
  have hafter : ∀ {result}, ((v.call.answer (Shelf.store.interrupted fails) ⟨m, some c⟩ v.time
      v.bucket).run s).1 = (result, t) →
      (visited (faltering fails) ⟨m, some c⟩ s v).after = t := congrArg Prod.snd
  rcases hends with ⟨hok, hview⟩ | ⟨⟨fault, herror⟩, hremains⟩
  · refine ⟨by rwa [hafter hok], .done (congrArg Prod.fst hok) ?_⟩
    rw [hafter hok]
    exact hview
  · refine ⟨by rwa [hafter herror], .failed fault (congrArg Prod.fst herror) ?_⟩
    rw [hafter herror]
    exact hremains

/-- The record of a bucket after some visits: balanced, and with losses at the times of visits. -/
structure Dated (m : Nat) (times : List Stamp) (found : Option LivesState) : Prop where
  balanced : ∀ r ∈ found, r.Balanced m
  lost : ∀ l ∈ losses found, l ∈ times

variable {times : List Stamp} {found found' : Option LivesState} {records : LivesRecords}
  {s t : Shelf}

theorem Dated.extend (hd : Dated m times found) (more : List Stamp) :
    Dated m (times ++ more) found :=
  ⟨hd.balanced, fun l hl => List.mem_append_left more (hd.lost l hl)⟩

/-- A call adds no loss but one at its own time. -/
theorem Dated.afterWrites (hd : Dated m times found) (hm : m < 256) (call : LedgerCall) :
    Dated m (times ++ [now]) (afterWrites found (outcome m c now found call).2) := by
  refine ⟨LivesState.balanced_afterWrites c now hd.balanced hm call, fun l hl => ?_⟩
  rw [LivesState.losses_outcome c now hd.balanced hm call] at hl
  split at hl
  · exact absurd hl List.not_mem_nil
  · rcases List.mem_append.mp hl with hl | hl
    · exact List.mem_append_left [now] (hd.lost l (List.mem_filter.mp hl).1)
    · split at hl
      · exact List.mem_append_right times hl
      · exact absurd hl List.not_mem_nil

theorem dated_recorded (hd : ∀ b : Bucket, Dated m times (records b.key)) (hm : m < 256)
    (call : LedgerCall) (b b' : Bucket) :
    Dated m (times ++ [now])
      (recorded records b (outcome m c now (records b.key) call).2 b'.key) := by
  by_cases hb : b' = b
  · rw [hb, recorded_self]
    exact (hd b).afterWrites hm call
  · rw [recorded_of_ne hb]
    exact (hd b').extend [now]

theorem Remains.dated {left : LivesRecords} (hr : Remains m c now b records left)
    (hd : ∀ b : Bucket, Dated m times (records b.key)) (hm : m < 256) (b' : Bucket) :
    Dated m (times ++ [now]) (left b'.key) := by
  rcases hr with rfl | rfl
  · exact (hd b').extend [now]
  · exact dated_recorded hd hm .current b b'

/-- However often calls have failed, the records are as they should be. -/
theorem dated_reached (m : Nat) (c : Int) (hm : m < 256) (fails : Nat → Bool)
    (visits : List Visit) :
    (reached (faltering fails) ⟨m, some c⟩ (.empty, 0) visits).1.available = true ∧
      ∀ b : Bucket, Dated m (visits.map Visit.time)
        ((reached (faltering fails) ⟨m, some c⟩ (.empty, 0) visits).1.find? b.key) := by
  induction visits using List.reverseRecOn with
  | nil => exact ⟨rfl, fun b => ⟨nofun, fun l hl => absurd hl List.not_mem_nil⟩⟩
  | append_singleton visits v ih =>
    obtain ⟨hup, hdated⟩ := ih
    rw [reached_concat, List.map_append]
    obtain ⟨hup', hended⟩ := visited_faltering m c fails v hup
    refine ⟨hup', ?_⟩
    cases hended with
    | done _ hafter =>
      rw [hafter]
      exact dated_recorded hdated hm v.call v.bucket
    | failed _ _ hremains => exact hremains.dated hdated hm

/-! ## Records that cannot be told apart -/

/-- Two records of a bucket that hold the same waiting losses at some moments. -/
structure Alike (m : Nat) (c : Int) (times : List Stamp) (found found' : Option LivesState) :
    Prop where
  balanced : ∀ r ∈ found, r.Balanced m
  balanced' : ∀ r ∈ found', r.Balanced m
  waiting : ∀ t ∈ times, waiting c t (losses found) = waiting c t (losses found')

theorem Alike.tail (ha : Alike m c (now :: times) found found') : Alike m c times found found' :=
  ⟨ha.balanced, ha.balanced', fun t ht => ha.waiting t (List.mem_cons_of_mem now ht)⟩

/-- What a failed call leaves is not seen at its own moment, nor at any later one of a steady
clock. -/
theorem Remains.alike {left : LivesRecords} (hr : Remains m c now b records left)
    (hd : ∀ b : Bucket, Dated m times (records b.key)) (hm : m < 256) {later : List Stamp}
    (hsteady : Stamp.Steady (times ++ now :: later)) (b' : Bucket) :
    Alike m c (now :: later) (left b'.key) (records b'.key) := by
  have hsame : Alike m c (now :: later) (records b'.key) (records b'.key) :=
    ⟨(hd b').balanced, (hd b').balanced, fun _ _ => rfl⟩
  rcases hr with rfl | rfl
  · exact hsame
  · by_cases hb : b' = b
    · subst hb
      rw [recorded_self]
      refine ⟨LivesState.balanced_afterWrites c now (hd b').balanced hm .current, hsame.balanced',
        fun u hu => ?_⟩
      rw [LivesState.losses_look c now (hd b').balanced hm]
      -- a wait that is over when the record is restored is over at `u`
      have hover : LivesState.StaysOver c now u ⟨0, losses (records b'.key)⟩ := by
        intro l hl hwaited
        rcases List.mem_cons.mp hu with rfl | hu
        · exact hwaited
        · exact Int.le_trans hwaited (hsteady.since_le ((hd b').lost l hl) hu)
      exact (LivesState.waiting_waiting_iff c ⟨0, losses (records b'.key)⟩ now u).mpr hover
    · rw [recorded_of_ne hb]
      exact hsame

theorem Alike.told_eq (ha : Alike m c (now :: times) found found') (hm : m < 256) :
    told m c now found = told m c now found' := by
  rw [LivesState.told_eq c now ha.balanced hm, LivesState.told_eq c now ha.balanced' hm,
    LivesState.window, LivesState.window, ha.waiting now List.mem_cons_self]

/-- A call leaves the same losses in both. -/
theorem Alike.losses_outcome (ha : Alike m c (now :: times) found found') (hm : m < 256)
    (call : LedgerCall) :
    losses (LivesState.afterWrites found (outcome m c now found call).2) =
      losses (LivesState.afterWrites found' (outcome m c now found' call).2) := by
  have hwaiting := ha.waiting now List.mem_cons_self
  have htakes : LivesState.Takes c now m (losses found) call ↔
      LivesState.Takes c now m (losses found') call := by
    rw [LivesState.Takes, LivesState.Takes, hwaiting]
  rw [LivesState.losses_outcome c now ha.balanced hm,
    LivesState.losses_outcome c now ha.balanced' hm, hwaiting, if_congr htakes rfl rfl]

theorem Alike.afterWrites (ha : Alike m c (now :: times) found found') (hm : m < 256)
    (call : LedgerCall) :
    Alike m c times (LivesState.afterWrites found (outcome m c now found call).2)
      (LivesState.afterWrites found' (outcome m c now found' call).2) :=
  ⟨LivesState.balanced_afterWrites c now ha.balanced hm call,
    LivesState.balanced_afterWrites c now ha.balanced' hm call,
    fun u _ => congrArg (LivesState.waiting c u) (ha.losses_outcome hm call)⟩

/-- A visit to a shelf that is on cannot fail. -/
theorem visited_shelved (m : Nat) (c : Int) (v : Visit) (hup : s.available = true) :
    (visited shelved ⟨m, some c⟩ s v).reply =
        .ok (outcome m c v.time (s.find? v.bucket.key) v.call).1 ∧
      (visited shelved ⟨m, some c⟩ s v).after.available = true ∧
      (visited shelved ⟨m, some c⟩ s v).after.find? =
        recorded s.find? v.bucket (outcome m c v.time (s.find? v.bucket.key) v.call).2 := by
  obtain ⟨hreply, hafter⟩ := visited_shelf (m := m) (c := c) v hup
  rw [hafter]
  exact ⟨hreply, up_written Shelf.store_reliable _ _ hup, find?_written _ _ hup⟩

/-- Shelves with such records answer alike. -/
theorem replies_alike (hm : m < 256) (visits : List Visit) (hs : s.available = true)
    (ht : t.available = true)
    (halike : ∀ b : Bucket, Alike m c (visits.map Visit.time) (s.find? b.key) (t.find? b.key)) :
    (history shelved ⟨m, some c⟩ s visits).map Visited.reply =
        (history shelved ⟨m, some c⟩ t visits).map Visited.reply ∧
      ∀ x ∈ history shelved ⟨m, some c⟩ s visits, ∃ reply, x.reply = .ok reply := by
  induction visits generalizing s t with
  | nil => exact ⟨rfl, fun x hx => absurd hx List.not_mem_nil⟩
  | cons v visits ih =>
    obtain ⟨hreply, hup, hfind⟩ := visited_shelved m c v hs
    obtain ⟨hreply', hup', hfind'⟩ := visited_shelved m c v ht
    have hv := halike v.bucket
    rw [← LivesState.outcome_congr c v.time hv.balanced hv.balanced' hm
      (hv.waiting v.time List.mem_cons_self) v.call] at hreply'
    -- now the bucket has the same losses on both shelves, and the others are as they were
    obtain ⟨hsame, hall⟩ := ih hup hup' fun b => by
      rw [hfind, hfind']
      by_cases hb : b = v.bucket
      · rw [hb, recorded_self, recorded_self]
        exact hv.afterWrites hm v.call
      · rw [recorded_of_ne hb, recorded_of_ne hb]
        exact (halike b).tail
    refine ⟨?_, fun x hx => ?_⟩
    · rw [history, history, List.map_cons, List.map_cons, hreply, hreply', hsame]
    · rcases List.mem_cons.mp hx with rfl | hx
      · exact ⟨_, hreply⟩
      · exact hall x hx

/-! ## The law -/

/-- Nobody can tell `after`, from a moment on, from `before`. -/
structure Unnoticed (m : Nat) (c : Int) (now : Stamp) (before after : Shelf) (later : List Visit) :
    Prop where
  /-- No life is gone, and none has come back. -/
  unspent : ∀ b : Bucket, told m c now (after.find? b.key) = told m c now (before.find? b.key)
  /-- Every later call is answered. -/
  answered : ∀ x ∈ history shelved ⟨m, some c⟩ after later, ∃ reply, x.reply = .ok reply
  /-- And it is answered the same. -/
  replies : (history shelved ⟨m, some c⟩ after later).map Visited.reply =
    (history shelved ⟨m, some c⟩ before later).map Visited.reply

/-- Two losses of one caller. -/
def twoLosses : List Visit :=
  [⟨.ofSeconds 0, .user "a", .loseLife⟩, ⟨.ofSeconds 4, .user "a", .loseLife⟩]

end Ledger

end Invigilator
