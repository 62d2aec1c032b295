import Invigilator.Lives.Shelf
import Mathlib.Logic.Function.Basic

/-!
# Ledgers over stores that fail

A store may be out of reach now and then. `Honest` says what can be relied on all the same: a call
that fails changes nothing, and one that does not reads and writes the records for which the
state of the store stands. The shelf is honest, switched on or off, and an honest store stays so
when any of its calls are made to fail (`interrupted`).

A ledger that never gives lives back has only two ways to take one over an honest store:
`loseLife_cases`. Whether it takes the life or fails, it has no memory of the failure; what it
knows is `remaining`, and that is all that later proofs use.
-/

namespace Invigilator

variable {σ α : Type}

/-- A call that fails if its number is among those that do. Then it changes nothing. -/
def Attempt.interrupted (fails : Nat → Bool) (a : Attempt σ α) : Attempt (σ × Nat) α := fun s =>
  if fails s.2 then ((.error Shelf.unavailable, (s.1, s.2 + 1)), [])
  else (((a s.1).1.1, ((a s.1).1.2, s.2 + 1)), (a s.1).2)

namespace Attempt

variable {β : Type} {a : Attempt σ α} {f : α → Attempt σ β} {s t : σ}

theorem run_bind_ok {x : α} (h : (a.run s).1 = (.ok x, t)) :
    ((a >>= f).run s).1 = ((f x).run t).1 := by
  rw [run_bind]
  generalize a.run s = r at h ⊢
  obtain ⟨_, notes⟩ := r
  cases h
  rfl

theorem run_bind_error {fault : BackendFault} (h : (a.run s).1 = (.error fault, t)) :
    ((a >>= f).run s).1 = (.error fault, t) := by
  rw [run_bind]
  generalize a.run s = r at h ⊢
  obtain ⟨_, notes⟩ := r
  cases h
  rfl

end Attempt

namespace LivesStore

/-- A store of which some calls fail: the calls are numbered from zero. -/
def interrupted (store : LivesStore σ) (fails : Nat → Bool) : LivesStore (σ × Nat) where
  get key := (store.get key).interrupted fails
  put key state ttl := (store.put key state ttl).interrupted fails
  has key := (store.has key).interrupted fails

/-- A store does nothing but what it is asked for. -/
structure Honest (store : LivesStore σ) (view : σ → String → Option LivesState) : Prop where
  /-- A look changes no record, and finds what is there if it does not fail. -/
  get : ∀ key s, ∃ t, view t = view s ∧
    (((store.get key).run s).1 = (.ok (view s key), t) ∨
      ∃ fault, ((store.get key).run s).1 = (.error fault, t))
  /-- A write changes only its own record, and none if it fails. -/
  put : ∀ key state ttl s, ∃ t,
    (((store.put key state ttl).run s).1 = (.ok (), t) ∧
        view t = Function.update (view s) key (some state)) ∨
      (∃ fault, ((store.put key state ttl).run s).1 = (.error fault, t)) ∧ view t = view s

/-- No call fails as long as a store is up, and no call takes it down. -/
structure Reliable (store : LivesStore σ) (up : σ → Prop) : Prop where
  get : ∀ key s, up s → ∃ found t, ((store.get key).run s).1 = (.ok found, t) ∧ up t
  put : ∀ key state ttl s, up s → ∃ t, ((store.put key state ttl).run s).1 = (.ok (), t) ∧ up t

end LivesStore

theorem Attempt.run_interrupted_fails {fails : Nat → Bool} (a : Attempt σ α) {s : σ × Nat}
    (h : fails s.2 = true) :
    ((a.interrupted fails).run s).1 = (.error Shelf.unavailable, (s.1, s.2 + 1)) := by
  simp [Attempt.run, Attempt.interrupted, h]

theorem Attempt.run_interrupted {fails : Nat → Bool} (a : Attempt σ α) {s : σ × Nat}
    (h : fails s.2 = false) :
    ((a.interrupted fails).run s).1 = ((a.run s.1).1.1, ((a.run s.1).1.2, s.2 + 1)) := by
  simp [Attempt.run, Attempt.interrupted, h]

/-- Outages do not make a store dishonest. -/
theorem LivesStore.Honest.interrupted {store : LivesStore σ}
    {view : σ → String → Option LivesState} (hh : store.Honest view) (fails : Nat → Bool) :
    (store.interrupted fails).Honest (fun s => view s.1) where
  get key s := by
    cases h : fails s.2 with
    | true =>
      exact ⟨(s.1, s.2 + 1), rfl, Or.inr ⟨_, Attempt.run_interrupted_fails (store.get key) h⟩⟩
    | false =>
      obtain ⟨t, hview, hget⟩ := hh.get key s.1
      have hrun := Attempt.run_interrupted (store.get key) h
      refine ⟨(t, s.2 + 1), hview, ?_⟩
      rcases hget with hget | ⟨fault, hget⟩
      · rw [hget] at hrun
        exact Or.inl hrun
      · rw [hget] at hrun
        exact Or.inr ⟨fault, hrun⟩
  put key state ttl s := by
    cases h : fails s.2 with
    | true =>
      exact ⟨_, Or.inr ⟨⟨_, Attempt.run_interrupted_fails (store.put key state ttl) h⟩, rfl⟩⟩
    | false =>
      obtain ⟨t, hput⟩ := hh.put key state ttl s.1
      have hrun := Attempt.run_interrupted (store.put key state ttl) h
      refine ⟨(t, s.2 + 1), ?_⟩
      rcases hput with ⟨hput, hview⟩ | ⟨⟨fault, hput⟩, hview⟩
      · rw [hput] at hrun
        exact Or.inl ⟨hrun, hview⟩
      · rw [hput] at hrun
        exact Or.inr ⟨⟨fault, hrun⟩, hview⟩

/-- Dropping the records under one key leaves those under another. -/
theorem lookup_filter {α : Type} {key other : String} (h : other ≠ key)
    (records : List (String × α)) :
    (records.filter fun r => r.1 != key).lookup other = records.lookup other := by
  induction records with
  | nil => rfl
  | cons r records ih =>
    obtain ⟨name, state⟩ := r
    by_cases hname : name = key
    · have hother : (other == name) = false := by simpa [hname] using h
      rw [List.filter_cons_of_neg (by simp [hname]), ih, List.lookup_cons, hother]
    · rw [List.filter_cons_of_pos (by simp [hname]), List.lookup_cons, List.lookup_cons, ih]

namespace Shelf

theorem find?_set (s : Shelf) (key : String) (state : LivesState) :
    (s.set key state).find? = Function.update s.find? key (some state) := by
  funext other
  by_cases h : other = key
  · rw [h, Function.update_self]
    simp [find?, set]
  · have hother : (other == key) = false := by simpa using h
    rw [Function.update_of_ne h]
    unfold find? set
    rw [List.lookup_cons, hother]
    exact lookup_filter h s.records

/-- The shelf is honest whether it is switched on or off. -/
theorem store_honest : Shelf.store.Honest find? where
  get key s := by
    refine ⟨s, rfl, ?_⟩
    cases h : s.available with
    | true => exact Or.inl (by simp [store, guarded, Attempt.run, h])
    | false => exact Or.inr ⟨unavailable, by simp [store, guarded, Attempt.run, h]⟩
  put key state ttl s := by
    cases h : s.available with
    | true =>
      refine ⟨{ s.set key state with puts := ⟨key, state, ttl⟩ :: s.puts }, Or.inl ⟨?_, ?_⟩⟩
      · simp [store, guarded, Attempt.run, h]
      · exact find?_set s key state
    | false =>
      exact ⟨s, Or.inr ⟨⟨unavailable, by simp [store, guarded, Attempt.run, h]⟩, rfl⟩⟩

theorem store_reliable : Shelf.store.Reliable (fun s => s.available = true) where
  get key s hup := ⟨s.find? key, s, by simp [store, guarded, Attempt.run, hup], hup⟩
  put key state ttl s hup :=
    ⟨{ s.set key state with puts := ⟨key, state, ttl⟩ :: s.puts },
      by simp [store, guarded, Attempt.run, hup], hup⟩

end Shelf

namespace Ledger

variable {store : LivesStore σ} {view : σ → String → Option LivesState} {up : σ → Prop}
  {m : Nat}

/-- The lives of a bucket that the ledger knows of. -/
def remaining (view : σ → String → Option LivesState) (m : Nat) (bucket : Bucket) (s : σ) : Nat :=
  match view s bucket.key with
  | none => m
  | some state => min state.lives m

theorem remaining_le (view : σ → String → Option LivesState) (m : Nat) (bucket : Bucket) (s : σ) :
    remaining view m bucket s ≤ m := by
  unfold remaining
  split
  · exact Nat.le_refl m
  · exact Nat.min_le_right _ m

theorem remaining_congr {s t : σ} (h : view t = view s) (m : Nat) (bucket : Bucket) :
    remaining view m bucket t = remaining view m bucket s := by
  unfold remaining
  rw [h]

/-- A ledger that gives nothing back tells what it knows, or fails. -/
theorem current_cases (hh : store.Honest view) (now : Stamp) (bucket : Bucket) (s : σ) :
    ∃ t, view t = view s ∧
      ((∃ state, ((current store ⟨m, none⟩ now bucket).run s).1 = (.ok state, t) ∧
          state.lives = remaining view m bucket s) ∨
        ∃ fault, ((current store ⟨m, none⟩ now bucket).run s).1 = (.error fault, t)) := by
  obtain ⟨t, hview, hget | ⟨fault, hget⟩⟩ := hh.get bucket.key s
  · refine ⟨t, hview, Or.inl ?_⟩
    rw [current, Attempt.run_bind_ok hget]
    cases hfound : view s bucket.key with
    | none => exact ⟨_, rfl, by simp [remaining, hfound, LivesState.full]⟩
    | some state => exact ⟨_, rfl, by simp [remaining, hfound]⟩
  · exact ⟨t, hview, Or.inr ⟨fault, Attempt.run_bind_error hget⟩⟩

/-- **A life is taken, or the call fails.** Either way the ledger remembers nothing else. -/
theorem loseLife_cases (hh : store.Honest view) (looked lost : Stamp) (bucket : Bucket) (s : σ) :
    ∃ t, (∃ state, ((loseLife store ⟨m, none⟩ looked lost bucket).run s).1 = (.ok state, t) ∧
          state.lives = remaining view m bucket s - 1 ∧
          remaining view m bucket t = remaining view m bucket s - 1) ∨
      (∃ fault, ((loseLife store ⟨m, none⟩ looked lost bucket).run s).1 = (.error fault, t)) ∧
        remaining view m bucket t = remaining view m bucket s := by
  obtain ⟨t, hview, ⟨state, hcurrent, hlives⟩ | ⟨fault, hcurrent⟩⟩ :=
    current_cases (m := m) hh looked bucket s
  · have hsame := remaining_congr hview m bucket
    rw [loseLife, Attempt.run_bind_ok hcurrent]
    by_cases hnone : state.lives = 0
    · -- there is nothing left to take, and nothing is written
      have hlose : state.lose? lost = none := if_pos hnone
      refine ⟨t, Or.inl ⟨state, ?_, by omega, by omega⟩⟩
      rw [hlose]
      rfl
    · have hlose : state.lose? lost = some ⟨state.lives - 1, state.lostAt ++ [lost]⟩ := if_neg hnone
      have htaken : state.lives - 1 = remaining view m bucket s - 1 := by omega
      rw [hlose]
      obtain ⟨u, ⟨hput, hupdate⟩ | ⟨⟨fault, hput⟩, hkept⟩⟩ := hh.put bucket.key
        ⟨state.lives - 1, state.lostAt ++ [lost]⟩
        (timeToLive ⟨m, none⟩ ⟨state.lives - 1, state.lostAt ++ [lost]⟩) t
      · refine ⟨u, Or.inl ⟨_, (Attempt.run_bind_ok hput).trans rfl, htaken, ?_⟩⟩
        have hle := remaining_le view m bucket s
        rw [remaining, hupdate, Function.update_self]
        dsimp only
        omega
      · refine ⟨u, Or.inr ⟨⟨fault, Attempt.run_bind_error hput⟩, ?_⟩⟩
        rw [remaining_congr hkept, hsame]
  · refine ⟨t, Or.inr ⟨⟨fault, ?_⟩, remaining_congr hview m bucket⟩⟩
    rw [loseLife, Attempt.run_bind_error hcurrent]

/-- A look at a store that is up succeeds. -/
theorem current_up (hr : store.Reliable up) (now : Stamp) (bucket : Bucket) {s : σ}
    (hup : up s) :
    ∃ state t, ((current store ⟨m, none⟩ now bucket).run s).1 = (.ok state, t) ∧ up t := by
  obtain ⟨found, t, hget, hstays⟩ := hr.get bucket.key s hup
  rw [current, Attempt.run_bind_ok hget]
  cases found with
  | none => exact ⟨_, t, rfl, hstays⟩
  | some state => exact ⟨_, t, rfl, hstays⟩

/-- A store that is up lets the ledger take a life. -/
theorem loseLife_up (hr : store.Reliable up) (looked lost : Stamp) (bucket : Bucket) {s : σ}
    (hup : up s) :
    ∃ state t, ((loseLife store ⟨m, none⟩ looked lost bucket).run s).1 = (.ok state, t) ∧ up t := by
  obtain ⟨state, t, hcurrent, hstays⟩ := current_up (m := m) hr looked bucket hup
  rw [loseLife, Attempt.run_bind_ok hcurrent]
  cases hlose : state.lose? lost with
  | none => exact ⟨state, t, rfl, hstays⟩
  | some taken =>
    obtain ⟨u, hput, hkept⟩ := hr.put bucket.key taken (timeToLive ⟨m, none⟩ taken) t hstays
    exact ⟨taken, u, (Attempt.run_bind_ok hput).trans rfl, hkept⟩

/-- Asked for the number of lives, a ledger over a store that is up says what it knows. -/
theorem currentLives_up (hh : store.Honest view) (hr : store.Reliable up) (now : Stamp)
    (bucket : Bucket) {s : σ} (hup : up s) :
    ((currentLives store ⟨m, none⟩ now bucket).run s).1.1 = .ok (remaining view m bucket s) := by
  obtain ⟨state, t, hcurrent, _⟩ := current_up (m := m) hr now bucket hup
  obtain ⟨u, _, ⟨state', hcurrent', hlives⟩ | ⟨fault, hcurrent'⟩⟩ :=
    current_cases (m := m) hh now bucket s
  · rw [currentLives, Attempt.run_bind_ok hcurrent']
    exact congrArg Except.ok hlives
  · rw [hcurrent] at hcurrent'
    cases hcurrent'

end Ledger

end Invigilator
