import Invigilator.Proofs.Lives.Visits

/-!
# Records that add up

A ledger with a cooldown keeps its records balanced: lives and waiting losses are as many as
there are lives in all. On such a record neither the count of eight bits nor the limits on the lives
play a part, and a look at it is `window`: the losses that still wait, and a life for every other.
What a call leaves behind is then a matter of the losses alone (`losses_outcome`).
-/

namespace Invigilator.LivesState

variable {m : Nat} (c : Int) (now : Stamp) {found : Option LivesState} {r : LivesState}

/-- The losses that a bucket's record, if there is one, still holds. -/
def losses : Option LivesState → List Stamp
  | none => []
  | some r => r.lostAt

/-- The losses that wait at a moment. -/
def waiting (lost : List Stamp) : List Stamp := lost.filter (isWaiting now c)

/-- The state of a bucket of `m` lives at a moment, by its losses. -/
def window (m : Nat) (lost : List Stamp) : LivesState :=
  ⟨m - (waiting c now lost).length, waiting c now lost⟩

/-- For every life that a record lacks it holds a loss. -/
def Balanced (m : Nat) (r : LivesState) : Prop := r.lives + r.lostAt.length = m

instance (m : Nat) (r : LivesState) : Decidable (r.Balanced m) :=
  inferInstanceAs (Decidable (r.lives + r.lostAt.length = m))

theorem length_waiting_le (lost : List Stamp) : (waiting c now lost).length ≤ lost.length :=
  List.length_filter_le _ lost

theorem length_losses_le (hfound : ∀ r ∈ found, r.Balanced m) : (losses found).length ≤ m := by
  cases found with
  | none => exact Nat.zero_le m
  | some r =>
    have hr : r.lives + r.lostAt.length = m := hfound r rfl
    show r.lostAt.length ≤ m
    omega

theorem balanced_full : (full m).Balanced m := rfl

theorem balanced_window (lost : List Stamp) (hle : lost.length ≤ m) :
    (window c now m lost).Balanced m := by
  have hwaiting := length_waiting_le c now lost
  show m - (waiting c now lost).length + (waiting c now lost).length = m
  omega

/-! ## Looking -/

/-- A look never finds more waiting than there are lives, so the count of eight bits is exact. -/
theorem restoredCount_eq (hr : r.Balanced m) (hm : m < 256) :
    r.restoredCount now c = r.lostAt.length - (waiting c now r.lostAt).length := by
  have hsum : r.lives + r.lostAt.length = m := hr
  have hsmall : r.lostAt.length - (waiting c now r.lostAt).length < Nat.pow 2 8 := by
    show _ < 256
    omega
  exact Nat.mod_eq_of_lt hsmall

/-- Restoring a balanced record leaves the window. -/
theorem restore_eq (hr : r.Balanced m) (hm : m < 256) :
    r.restore now c m = window c now m r.lostAt := by
  have hsum : r.lives + r.lostAt.length = m := hr
  have hle := length_waiting_le c now r.lostAt
  have hcount := restoredCount_eq c now hr hm
  have hlives : min (if 0 < r.lostAt.length - (waiting c now r.lostAt).length then
      min (min (r.lives + (r.lostAt.length - (waiting c now r.lostAt).length)) 255) m
      else r.lives) m = m - (waiting c now r.lostAt).length := by
    split <;> omega
  unfold restore window
  rw [hcount]
  dsimp only
  rw [hlives]
  rfl

/-- What a look tells of a balanced record is the window. -/
theorem told_eq (hfound : ∀ r ∈ found, r.Balanced m) (hm : m < 256) :
    Ledger.told m c now found = window c now m (losses found) := by
  cases found with
  | none => rfl
  | some r => exact restore_eq c now (hfound r rfl) hm

/-- A look that gives nothing back finds the window in the record. -/
theorem window_of_restoredCount (hr : r.Balanced m) (hm : m < 256)
    (hnone : ¬0 < r.restoredCount now c) : window c now m r.lostAt = r := by
  have hsum : r.lives + r.lostAt.length = m := hr
  have hle := length_waiting_le c now r.lostAt
  rw [restoredCount_eq c now hr hm] at hnone
  have hsame : waiting c now r.lostAt = r.lostAt := by
    have hlength : (waiting c now r.lostAt).length = r.lostAt.length := by omega
    exact List.filter_sublist.eq_of_length hlength
  have hlives : m - r.lostAt.length = r.lives := by omega
  rw [window, hsame, hlives]

/-- The record that some writes leave. -/
def afterWrites (found : Option LivesState) (states : List LivesState) : Option LivesState :=
  states.getLast?.or found

/-- After a look the record, if there is one, is the window. -/
theorem afterWrites_look (hfound : ∀ r ∈ found, r.Balanced m) (hm : m < 256) :
    afterWrites found (Ledger.lookWrites m c now found) =
      found.map fun _ => window c now m (losses found) := by
  cases found with
  | none => rfl
  | some r =>
    by_cases hany : 0 < r.restoredCount now c
    · rw [Ledger.lookWrites, if_pos hany, restore_eq c now (hfound r rfl) hm]
      rfl
    · rw [Ledger.lookWrites, if_neg hany]
      exact congrArg some (window_of_restoredCount c now (hfound r rfl) hm hany).symm

theorem losses_look (hfound : ∀ r ∈ found, r.Balanced m) (hm : m < 256) :
    losses (afterWrites found (Ledger.lookWrites m c now found)) =
      waiting c now (losses found) := by
  rw [afterWrites_look c now hfound hm]
  cases found <;> rfl

theorem balanced_lookWrites (hfound : ∀ r ∈ found, r.Balanced m) (hm : m < 256) :
    ∀ r ∈ Ledger.lookWrites m c now found, r.Balanced m := by
  cases found with
  | none => exact fun r hr => absurd hr List.not_mem_nil
  | some r =>
    have hle : r.lostAt.length ≤ m := length_losses_le hfound
    intro r' hr'
    by_cases hany : 0 < r.restoredCount now c
    · rw [Ledger.lookWrites, if_pos hany, restore_eq c now (hfound r rfl) hm] at hr'
      rw [List.mem_singleton.mp hr']
      exact balanced_window c now r.lostAt hle
    · rw [Ledger.lookWrites, if_neg hany] at hr'
      exact absurd hr' List.not_mem_nil

/-- A look that finds as many waiting as there are lives writes nothing. -/
theorem lookWrites_of_full (hfound : ∀ r ∈ found, r.Balanced m) (hm : m < 256)
    (hnone : ¬(waiting c now (losses found)).length < m) :
    Ledger.lookWrites m c now found = [] := by
  cases found with
  | none => rfl
  | some r =>
    have hle : r.lostAt.length ≤ m := length_losses_le hfound
    have hall : ¬(waiting c now r.lostAt).length < m := hnone
    have hcount := restoredCount_eq c now (hfound r rfl) hm
    have hnothing : ¬0 < r.restoredCount now c := by omega
    rw [Ledger.lookWrites, if_neg hnothing]

/-! ## Losing -/

/-- A call takes a life: it is there to do so, and fewer losses wait than there are lives. -/
def Takes (m : Nat) (lost : List Stamp) (call : LedgerCall) : Prop :=
  call = .loseLife ∧ (waiting c now lost).length < m

instance (m : Nat) (lost : List Stamp) (call : LedgerCall) : Decidable (Takes c now m lost call) :=
  inferInstanceAs (Decidable (_ ∧ _))

/-- The window with one more loss. -/
def lessOne (m : Nat) (lost : List Stamp) : LivesState :=
  ⟨m - (waiting c now lost).length - 1, waiting c now lost ++ [now]⟩

theorem balanced_lessOne {lost : List Stamp} (hleft : (waiting c now lost).length < m) :
    (lessOne c now m lost).Balanced m := by
  show m - (waiting c now lost).length - 1 + (waiting c now lost ++ [now]).length = m
  rw [List.length_append, List.length_singleton]
  omega

/-- Taking a life from the window adds a loss, as long as fewer wait than there are lives. -/
theorem lose?_window (lost : List Stamp) :
    (window c now m lost).lose? now =
      if (waiting c now lost).length < m then some (lessOne c now m lost) else none := by
  unfold lose? window
  by_cases hleft : (waiting c now lost).length < m
  · have hpos : ¬m - (waiting c now lost).length = 0 := by omega
    rw [if_pos hleft, if_neg hpos]
    rfl
  · have hzero : m - (waiting c now lost).length = 0 := by omega
    rw [if_neg hleft, if_pos hzero]

/-- A call that is there to take a life takes one from the window, or looks. -/
theorem outcome_loseLife (hfound : ∀ r ∈ found, r.Balanced m) (hm : m < 256) :
    Ledger.outcome m c now found .loseLife =
      if (waiting c now (losses found)).length < m then
        (.state (lessOne c now m (losses found)),
          Ledger.lookWrites m c now found ++ [lessOne c now m (losses found)])
      else (.state (window c now m (losses found)), []) := by
  rw [Ledger.outcome, told_eq c now hfound hm, lose?_window]
  by_cases hleft : (waiting c now (losses found)).length < m
  · rw [if_pos hleft, if_pos hleft]
  · rw [if_neg hleft, if_neg hleft, lookWrites_of_full c now hfound hm hleft]

/-! ## Any call -/

/-- Whatever is written is balanced. -/
theorem balanced_outcome (hfound : ∀ r ∈ found, r.Balanced m) (hm : m < 256) (call : LedgerCall) :
    ∀ r ∈ (Ledger.outcome m c now found call).2, r.Balanced m := by
  have hlook := balanced_lookWrites c now hfound hm
  cases call with
  | current => exact hlook
  | currentLives => exact hlook
  | hasLives => exact hlook
  | untilNextRestore => exact hlook
  | loseLife =>
    rw [outcome_loseLife c now hfound hm]
    by_cases hleft : (waiting c now (losses found)).length < m
    · rw [if_pos hleft]
      intro r hr
      rcases List.mem_append.mp hr with hr | hr
      · exact hlook r hr
      · rw [List.mem_singleton.mp hr]
        exact balanced_lessOne c now hleft
    · rw [if_neg hleft]
      exact fun r hr => absurd hr List.not_mem_nil
  | reset =>
    cases found with
    | none => exact fun r hr => absurd hr List.not_mem_nil
    | some r =>
      intro r' hr'
      rw [List.mem_singleton.mp hr']
      exact balanced_full

/-- So the record that a call leaves is balanced. -/
theorem balanced_afterWrites (hfound : ∀ r ∈ found, r.Balanced m) (hm : m < 256)
    (call : LedgerCall) :
    ∀ r ∈ afterWrites found (Ledger.outcome m c now found call).2, r.Balanced m := by
  intro r hr
  rcases Option.or_eq_some_iff.mp hr with hnew | ⟨-, hold⟩
  · exact balanced_outcome c now hfound hm call r (List.mem_of_getLast? hnew)
  · exact hfound r hold

/-- What a call answers depends on the losses that wait, and on nothing else in the record. -/
theorem outcome_congr {other : Option LivesState} (hfound : ∀ r ∈ found, r.Balanced m)
    (hother : ∀ r ∈ other, r.Balanced m) (hm : m < 256)
    (hsame : waiting c now (losses found) = waiting c now (losses other)) (call : LedgerCall) :
    (Ledger.outcome m c now found call).1 = (Ledger.outcome m c now other call).1 := by
  have htold : Ledger.told m c now found = Ledger.told m c now other := by
    rw [told_eq c now hfound hm, told_eq c now hother hm, window, window, hsame]
  cases call with
  | current => exact congrArg LedgerReply.state htold
  | currentLives => exact congrArg (fun r => LedgerReply.count r.lives) htold
  | hasLives => exact congrArg (fun r => LedgerReply.flag (0 < r.lives)) htold
  | untilNextRestore =>
    exact congrArg (fun r => LedgerReply.wait (r.untilNextRestore? now c m)) htold
  | loseLife =>
    rw [Ledger.outcome, Ledger.outcome, htold]
    cases (Ledger.told m c now other).lose? now <;> rfl
  | reset => rfl

/-- A call that takes a life writes the window with one more loss last. -/
theorem writes_of_takes (hfound : ∀ r ∈ found, r.Balanced m) (hm : m < 256) {call : LedgerCall}
    (htakes : Takes c now m (losses found) call) : (Ledger.outcome m c now found call).2 =
      Ledger.lookWrites m c now found ++ [lessOne c now m (losses found)] := by
  obtain ⟨rfl, hleft⟩ := htakes
  rw [outcome_loseLife c now hfound hm, if_pos hleft]

/-- Where there is no record, no other call writes one. -/
theorem writes_none (hm : m < 256) {call : LedgerCall} (hkeeps : ¬Takes c now m [] call) :
    (Ledger.outcome m c now none call).2 = [] := by
  cases call with
  | loseLife =>
    have hnone : ¬(waiting c now (losses none)).length < m := fun hleft => hkeeps ⟨rfl, hleft⟩
    have hnothing : ∀ r ∈ (none : Option LivesState), r.Balanced m := fun r hr => nomatch hr
    rw [outcome_loseLife c now hnothing hm, if_neg hnone]
  | current => rfl
  | currentLives => rfl
  | hasLives => rfl
  | untilNextRestore => rfl
  | reset => rfl

/-- **What a call leaves in the record.** A reset leaves no loss. Every other call leaves those that
still wait, and behind them its own if it took a life. -/
theorem losses_outcome (hfound : ∀ r ∈ found, r.Balanced m) (hm : m < 256) (call : LedgerCall) :
    losses (afterWrites found (Ledger.outcome m c now found call).2) =
      if call = .reset then []
      else waiting c now (losses found) ++
        if Takes c now m (losses found) call then [now] else [] := by
  have hlook := losses_look c now hfound hm
  cases call with
  | current => simpa [Takes, Ledger.outcome] using hlook
  | currentLives => simpa [Takes, Ledger.outcome] using hlook
  | hasLives => simpa [Takes, Ledger.outcome] using hlook
  | untilNextRestore => simpa [Takes, Ledger.outcome] using hlook
  | loseLife =>
    have hother : ¬LedgerCall.loseLife = .reset := LedgerCall.noConfusion
    rw [outcome_loseLife c now hfound hm, if_neg hother]
    by_cases hleft : (waiting c now (losses found)).length < m
    · have htakes : Takes c now m (losses found) .loseLife := ⟨rfl, hleft⟩
      rw [if_pos hleft, if_pos htakes, afterWrites, List.getLast?_concat]
      rfl
    · have htakes : ¬Takes c now m (losses found) .loseLife := fun h => hleft h.2
      rw [if_neg hleft, if_neg htakes, List.append_nil, ← hlook,
        lookWrites_of_full c now hfound hm hleft]
  | reset => cases found <;> rfl

end Invigilator.LivesState
