import Invigilator.Lives.Call
import Invigilator.Proofs.Lives.Outage

/-!
# Visits to the ledger

Buckets are asked one call after the other, each at a moment of its own: a `Visit`. The store may
be a different one at each moment, as a server is on which records expire. The history of some
visits holds what every call found, answered, left and noted.

Whatever the store is, a call reads the record of its bucket once and then writes it, at most
twice, and nothing else: `LedgerCall.outcome` is the answer and the writes as a function of the
record that was found, and `answer_run` says that over a store that does not fail a call is just
that. Later proofs open neither the calls nor the stores.
-/

namespace Invigilator

/-- What a call answers. -/
inductive LedgerReply where
  | state (state : LivesState)
  | count (lives : Nat)
  | flag (b : Bool)
  | wait (nanos : Option Int)
deriving DecidableEq, Repr, Inhabited

namespace LedgerReply

/-- The answer as a value; a wait is told in whole milliseconds, toward zero. -/
def toJson : LedgerReply → Json
  | state s => s.toJson
  | count n => .nat n
  | flag b => .bool b
  | wait ns => .option (fun ns => .int (Int.tdiv ns nanosPerMilli)) ns

end LedgerReply

/-- The notes of two steps, when the first does not fail. -/
theorem Attempt.notes_bind_ok {σ α β : Type} {a : Attempt σ α} {f : α → Attempt σ β} {s t : σ}
    {x : α} (h : (a.run s).1 = (.ok x, t)) :
    ((a >>= f).run s).2 = (a.run s).2 ++ ((f x).run t).2 := by
  rw [run_bind]
  generalize a.run s = r at h ⊢
  obtain ⟨_, notes⟩ := r
  cases h
  rfl

namespace LedgerCall

variable {σ : Type}

/-- Makes a call at a moment. -/
def answer (store : LivesStore σ) (rules : LedgerRules) (now : Stamp) (b : Bucket) :
    LedgerCall → Attempt σ LedgerReply
  | current => do return .state (← Ledger.current store rules now b)
  | currentLives => do return .count (← Ledger.currentLives store rules now b)
  | hasLives => do return .flag (← Ledger.hasLives store rules now b)
  | loseLife => do return .state (← Ledger.loseLife store rules now now b)
  | reset => do return .state (← Ledger.reset store rules b)
  | untilNextRestore => do return .wait (← Ledger.untilNextRestore store rules now now b)

theorem run_return {α β : Type} (a : Attempt σ α) (f : α → β) (s : σ) :
    (do return f (← a) : Attempt σ β).run s =
      (((a.run s).1.1.map f, (a.run s).1.2), (a.run s).2) := by
  rw [Attempt.run_bind]
  generalize a.run s = r
  obtain ⟨⟨result, t⟩, notes⟩ := r
  cases result with
  | error fault => rfl
  | ok x => simp [Except.map]

theorem map_map {ε α β γ : Type} (f : α → β) (g : β → γ) (r : Except ε α) :
    (r.map f).map g = r.map (fun x => g (f x)) := by
  cases r <;> rfl

/-- What is answered is what is told as a value. -/
theorem make_run (store : LivesStore σ) (rules : LedgerRules) (now : Stamp) (b : Bucket)
    (call : LedgerCall) (s : σ) :
    (call.make store rules now b).run s =
      ((((call.answer store rules now b).run s).1.1.map LedgerReply.toJson,
        ((call.answer store rules now b).run s).1.2),
        ((call.answer store rules now b).run s).2) := by
  cases call with
  | current => rw [make, answer, run_return, run_return, map_map]; rfl
  | currentLives => rw [make, answer, run_return, run_return, map_map]; rfl
  | hasLives => rw [make, answer, run_return, run_return, map_map]; rfl
  | loseLife => rw [make, answer, run_return, run_return, map_map]; rfl
  | reset => rw [make, answer, run_return, run_return, map_map]; rfl
  | untilNextRestore => rw [make, answer, run_return, run_return, map_map]; rfl

end LedgerCall

/-! ## Visits -/

/-- A call on a bucket at a moment. -/
structure Visit where
  time : Stamp
  bucket : Bucket
  call : LedgerCall
deriving DecidableEq, Repr, Inhabited

/-- A visit with what it found, what it left and what it was answered. -/
structure Visited (σ : Type) where
  visit : Visit
  before : σ
  after : σ
  reply : Except BackendFault LedgerReply
  notes : List Note

namespace Ledger

variable {σ : Type} (stores : Stamp → LivesStore σ) (rules : LedgerRules)

/-- What happens at a visit. -/
def visited (s : σ) (v : Visit) : Visited σ :=
  let r := (v.call.answer (stores v.time) rules v.time v.bucket).run s
  { visit := v, before := s, after := r.1.2, reply := r.1.1, notes := r.2 }

/-- All that happens at some visits, one after the other. -/
def history (s : σ) : List Visit → List (Visited σ)
  | [] => []
  | v :: visits => visited stores rules s v :: history (visited stores rules s v).after visits

/-- Where some visits lead. -/
def reached (s : σ) : List Visit → σ
  | [] => s
  | v :: visits => reached (visited stores rules s v).after visits

@[simp] theorem history_nil (s : σ) : history stores rules s [] = [] := rfl

@[simp] theorem reached_nil (s : σ) : reached stores rules s [] = s := rfl

/-- One more visit leads one step on. -/
theorem reached_concat (s : σ) (visits : List Visit) (v : Visit) :
    reached stores rules s (visits ++ [v]) =
      (visited stores rules (reached stores rules s visits) v).after := by
  induction visits generalizing s with
  | nil => rfl
  | cons w visits ih => exact ih (visited stores rules s w).after

/-- One more visit adds one entry. -/
theorem history_concat (s : σ) (visits : List Visit) (v : Visit) :
    history stores rules s (visits ++ [v]) =
      history stores rules s visits ++
        [visited stores rules (reached stores rules s visits) v] := by
  induction visits generalizing s with
  | nil => rfl
  | cons w visits ih =>
    exact congrArg (visited stores rules s w :: ·) (ih (visited stores rules s w).after)

@[simp] theorem map_visit_history (s : σ) (visits : List Visit) :
    (history stores rules s visits).map Visited.visit = visits := by
  induction visits generalizing s with
  | nil => rfl
  | cons v visits ih => exact congrArg (v :: ·) (ih (visited stores rules s v).after)

theorem map_time_history (s : σ) (visits : List Visit) :
    (history stores rules s visits).map (fun x => x.visit.time) = visits.map Visit.time := by
  have hmap := congrArg (List.map Visit.time) (map_visit_history stores rules s visits)
  rwa [List.map_map] at hmap

theorem visit_mem {s : σ} {visits : List Visit} {x : Visited σ}
    (hx : x ∈ history stores rules s visits) : x.visit ∈ visits := by
  have hmem := List.mem_map_of_mem (f := Visited.visit) hx
  rwa [map_visit_history] at hmem

end Ledger

/-! ## A call as one read and some writes -/

namespace Ledger

/-- The state of a bucket as it is told at a moment, from the record that was found. -/
def told (m : Nat) (c : Int) (now : Stamp) : Option LivesState → LivesState
  | none => .full m
  | some r => r.restore now c m

/-- What a look writes: the record, if it gave something back. -/
def lookWrites (m : Nat) (c : Int) (now : Stamp) : Option LivesState → List LivesState
  | none => []
  | some r => if 0 < r.restoredCount now c then [r.restore now c m] else []

/-- What a call answers and which records it writes, from the record that was found. -/
def outcome (m : Nat) (c : Int) (now : Stamp) (found : Option LivesState) :
    LedgerCall → LedgerReply × List LivesState
  | .current => (.state (told m c now found), lookWrites m c now found)
  | .currentLives => (.count (told m c now found).lives, lookWrites m c now found)
  | .hasLives => (.flag (0 < (told m c now found).lives), lookWrites m c now found)
  | .loseLife =>
    match (told m c now found).lose? now with
    | none => (.state (told m c now found), lookWrites m c now found)
    | some left => (.state left, lookWrites m c now found ++ [left])
  | .reset => (.state (.full m), if found.isSome then [.full m] else [])
  | .untilNextRestore =>
    (.wait ((told m c now found).untilNextRestore? now c m), lookWrites m c now found)

variable {σ : Type} {store : LivesStore σ} {up : σ → Prop} {m : Nat} {c : Int} {now : Stamp}
  {b : Bucket} {s u v : σ} {found : Option LivesState}

/-- A store after some writes of a bucket. -/
def written (store : LivesStore σ) (rules : LedgerRules) (b : Bucket) (s : σ)
    (states : List LivesState) : σ :=
  states.foldl (fun s state => ((save store rules b state).run s).1.2) s

theorem written_append (rules : LedgerRules) (first rest : List LivesState) :
    written store rules b s (first ++ rest) =
      written store rules b (written store rules b s first) rest :=
  List.foldl_append

/-- A store that is up takes a write and stays up. -/
theorem save_run (hr : store.Reliable up) (rules : LedgerRules) (state : LivesState) (hup : up u) :
    ((save store rules b state).run u).1 = (.ok (), written store rules b u [state]) ∧
      up (written store rules b u [state]) := by
  obtain ⟨t, hput, hstays⟩ := hr.put b.key state (timeToLive rules state) u hup
  have hsave : ((save store rules b state).run u).1 = (.ok (), t) := hput
  have hwritten : written store rules b u [state] = t := congrArg Prod.snd hsave
  rw [hwritten]
  exact ⟨hsave, hstays⟩

theorem up_written (hr : store.Reliable up) (rules : LedgerRules) (states : List LivesState)
    (hup : up u) : up (written store rules b u states) := by
  induction states generalizing u with
  | nil => exact hup
  | cons state states ih => exact ih (save_run hr rules state hup).2

/-- The lives of a record that a look restores are within the rules. -/
theorem min_restore_lives (r : LivesState) (now : Stamp) (c : Int) (m : Nat) :
    min (r.restore now c m).lives m = (r.restore now c m).lives := by
  unfold LivesState.restore
  dsimp only
  omega

/-- What is given back is written. -/
theorem giveBack_run (hr : store.Reliable up) (r : LivesState) (hup : up u) :
    ((giveBack store ⟨m, some c⟩ now b r).run u).1 =
      (.ok (r.restore now c m),
        written store ⟨m, some c⟩ b u (lookWrites m c now (some r))) := by
  by_cases hany : 0 < r.restoredCount now c
  · have hsave := (save_run (b := b) hr ⟨m, some c⟩ (r.restore now c m) hup).1
    simp only [giveBack, lookWrites, hany, ↓reduceIte]
    rw [Attempt.run_bind_ok (x := ()) (t := u) rfl, Attempt.run_bind_ok hsave]
    rfl
  · simp [giveBack, lookWrites, written, hany]

/-- A look tells what the record says, and writes it if it gave something back. -/
theorem current_run (hr : store.Reliable up) (m : Nat) (c : Int) (now : Stamp)
    (hget : ((store.get b.key).run s).1 = (.ok found, u)) (hup : up u) :
    ((current store ⟨m, some c⟩ now b).run s).1 =
      (.ok (told m c now found),
        written store ⟨m, some c⟩ b u (lookWrites m c now found)) := by
  rw [current, Attempt.run_bind_ok hget]
  cases found with
  | none => rfl
  | some r =>
    dsimp only
    rw [Attempt.run_bind_ok (giveBack_run hr r hup), min_restore_lives]
    rfl

/-- A loss is one more write, unless there is nothing left to lose. -/
theorem loseLife_run (hr : store.Reliable up) (m : Nat) (c : Int) (now : Stamp)
    (hget : ((store.get b.key).run s).1 = (.ok found, u)) (hup : up u) :
    ((loseLife store ⟨m, some c⟩ now now b).run s).1 =
      match (told m c now found).lose? now with
      | none => (.ok (told m c now found),
          written store ⟨m, some c⟩ b u (lookWrites m c now found))
      | some left => (.ok left,
          written store ⟨m, some c⟩ b u (lookWrites m c now found ++ [left])) := by
  rw [loseLife, Attempt.run_bind_ok (current_run hr m c now hget hup)]
  cases hlose : (told m c now found).lose? now with
  | none => rfl
  | some left =>
    dsimp only
    have hlooked := up_written (b := b) hr ⟨m, some c⟩ (lookWrites m c now found) hup
    rw [written_append, Attempt.run_bind_ok (save_run hr ⟨m, some c⟩ left hlooked).1]
    rfl

/-- A reset writes the full record over one that is there. -/
theorem reset_run (hr : store.Reliable up)
    (hhas : ((store.has b.key).run s).1 = (.ok found.isSome, u)) (hup : up u) :
    ((reset store ⟨m, some c⟩ b).run s).1 =
      (.ok (.full m),
        written store ⟨m, some c⟩ b u (if found.isSome then [.full m] else [])) := by
  rw [reset, Attempt.run_bind_ok hhas]
  cases hfound : found.isSome with
  | false => rfl
  | true =>
    simp only [↓reduceIte]
    rw [Attempt.run_bind_ok (save_run hr ⟨m, some c⟩ (.full m) hup).1]
    rfl

/-- **A call over a store that does not fail is one read and some writes.** The states after
the two ways to read may differ. -/
theorem answer_run (hr : store.Reliable up) (m : Nat) (c : Int) (now : Stamp) (call : LedgerCall)
    (hget : ((store.get b.key).run s).1 = (.ok found, u)) (hup : up u)
    (hhas : ((store.has b.key).run s).1 = (.ok found.isSome, v)) (hup' : up v) :
    ((call.answer store ⟨m, some c⟩ now b).run s).1 =
      (.ok (outcome m c now found call).1,
        written store ⟨m, some c⟩ b (if call = .reset then v else u)
          (outcome m c now found call).2) := by
  have hcurrent := current_run hr m c now hget hup
  cases call with
  | current =>
    rw [LedgerCall.answer, LedgerCall.run_return, hcurrent]
    rfl
  | currentLives =>
    rw [LedgerCall.answer, LedgerCall.run_return, currentLives, Attempt.run_bind_ok hcurrent]
    rfl
  | hasLives =>
    rw [LedgerCall.answer, LedgerCall.run_return, hasLives, currentLives,
      Attempt.run_bind_ok ((Attempt.run_bind_ok hcurrent).trans rfl)]
    rfl
  | loseLife =>
    rw [LedgerCall.answer, LedgerCall.run_return, loseLife_run hr m c now hget hup, outcome]
    cases (told m c now found).lose? now <;> rfl
  | reset =>
    rw [LedgerCall.answer, LedgerCall.run_return, reset_run hr hhas hup']
    rfl
  | untilNextRestore =>
    rw [LedgerCall.answer, LedgerCall.run_return, untilNextRestore]
    dsimp only
    rw [Attempt.run_bind_ok hcurrent]
    rfl

end Ledger

end Invigilator
