import Invigilator.Proofs.Lives.Window

/-!
# Giving back what is pruned

A look at a record prunes the losses whose wait is over and gives a life back for each of them. The
number of lives that come back is counted in eight bits. A record that the ledger wrote itself never
has that many losses (`restoredCount_eq`), but a record from elsewhere may, and then the count
starts again at zero: 256 losses are pruned, and no life comes back for them.

So what a look gives back is the number of overdue losses modulo 256 (`restore_eq_of_overdue`), and
everything else is arithmetic on that. Looking twice is as good as looking once unless the count
starts again between the two looks and the lives that are lost by it are missed.
-/

namespace Invigilator

namespace LivesState

variable {m : Nat} (c : Int) (now : Stamp) (r : LivesState)

/-- How many of a record's losses have waited long enough. -/
def overdue (c : Int) (now : Stamp) (r : LivesState) : Nat :=
  r.lostAt.countP fun l => c ≤ now.since l

theorem not_isWaiting_iff (l : Stamp) : isWaiting now c l = false ↔ c ≤ now.since l := by
  simp [isWaiting]

theorem overdue_eq : r.overdue c now = r.lostAt.length - (waiting c now r.lostAt).length := by
  have hsum := r.lostAt.length_eq_countP_add_countP (isWaiting now c)
  have hover : r.lostAt.countP (fun l => ¬isWaiting now c l = true) = r.overdue c now :=
    List.countP_congr fun l _ => by simp [isWaiting]
  rw [waiting, ← List.countP_eq_length_filter]
  omega

theorem restoredCount_eq_overdue : r.restoredCount now c = r.overdue c now % 256 := by
  rw [overdue_eq]
  rfl

/-- A look gives back as many lives as losses are overdue, modulo 256, but not more than there are
in all. -/
theorem restore_eq_of_overdue (hm : m < 256) :
    r.restore now c m = ⟨min m (r.lives + r.overdue c now % 256), waiting c now r.lostAt⟩ := by
  have hlives : min (if 0 < r.overdue c now % 256 then
      min (min (r.lives + r.overdue c now % 256) 255) m else r.lives) m =
      min m (r.lives + r.overdue c now % 256) := by
    split <;> omega
  unfold restore
  rw [restoredCount_eq_overdue]
  dsimp only
  rw [hlives]
  rfl

/-! ## One look -/

/-- A look gives back what it prunes. -/
structure GivesBack (m : Nat) (c : Int) (now : Stamp) (r : LivesState) : Prop where
  /-- It prunes the losses that have waited long enough, and keeps the others in order. -/
  prunes : (r.restore now c m).lostAt = r.lostAt.filter fun l => now.since l < c
  /-- It tells how many they are. -/
  counts : r.restoredCount now c = r.overdue c now
  /-- There is a life for each of them. -/
  lives : (r.restore now c m).lives = min m (r.lives + r.overdue c now)

theorem givesBack_iff_overdue (hm : m < 256) : r.GivesBack m c now ↔ r.overdue c now < 256 := by
  have hcount := restoredCount_eq_overdue c now r
  constructor
  · intro h
    have hexact := h.counts
    omega
  · intro hfew
    have hmod : r.overdue c now % 256 = r.overdue c now := Nat.mod_eq_of_lt hfew
    refine ⟨rfl, hcount.trans hmod, ?_⟩
    rw [restore_eq_of_overdue c now r hm, hmod]

/-! ## Two looks -/

variable (t u : Stamp)

/-- A wait that is over at one moment is over at the other. -/
def StaysOver (c : Int) (t u : Stamp) (r : LivesState) : Prop :=
  ∀ l ∈ r.lostAt, c ≤ t.since l → c ≤ u.since l

/-- Outside leap seconds it is, as long as the clock does not go back. -/
theorem staysOver_of_regular (hlost : ∀ l ∈ r.lostAt, l.Regular) (ht : t.Regular) (hu : u.Regular)
    (hlater : u.lt t = false) : r.StaysOver c t u := by
  intro l hl hover
  rw [← not_isWaiting_iff] at hover ⊢
  exact Ledger.isWaiting_later (hlost l hl) ht hu hlater hover

/-- Then the losses that wait at both moments are those that wait at the second, and only then. -/
theorem waiting_waiting_iff :
    waiting c u (waiting c t r.lostAt) = waiting c u r.lostAt ↔ r.StaysOver c t u := by
  constructor
  · intro hsame l hl hover
    by_contra hwaits
    -- a loss whose wait begins again is pruned by the first look alone
    have hmem : l ∈ waiting c u r.lostAt :=
      List.mem_filter.mpr ⟨hl, by simpa [isWaiting] using hwaits⟩
    rw [← hsame] at hmem
    have hwaited := (List.mem_filter.mp (List.mem_filter.mp hmem).1).2
    rw [(not_isWaiting_iff c t l).mpr hover] at hwaited
    exact Bool.false_ne_true hwaited
  · intro hstays
    unfold waiting
    rw [List.filter_filter]
    refine List.filter_congr fun l hl => ?_
    cases hwaited : isWaiting t c l with
    | true => exact Bool.and_true _
    | false =>
      have hover := hstays l hl ((not_isWaiting_iff c t l).mp hwaited)
      rw [(not_isWaiting_iff c u l).mpr hover, Bool.false_and]

/-- The second look finds those overdue that have become so since the first. -/
theorem overdue_restore (hstays : r.StaysOver c t u) :
    (r.restore t c m).overdue c u + r.overdue c t = r.overdue c u := by
  have hsame := (waiting_waiting_iff c r t u).mpr hstays
  have hfirst := length_waiting_le c t r.lostAt
  have hsecond := length_waiting_le c u (waiting c t r.lostAt)
  have hleft : (r.restore t c m).lostAt = waiting c t r.lostAt := rfl
  rw [overdue_eq, overdue_eq, overdue_eq, hleft]
  rw [hsame] at hsecond ⊢
  omega

/-- Two looks leave what one look leaves, unless a wait begins again between them, or the count
starts again and the lives that are lost by it are missed. -/
theorem restore_restore_iff (hm : m < 256) :
    (r.restore t c m).restore u c m = r.restore u c m ↔
      r.StaysOver c t u ∧
        (r.overdue c t % 256 ≤ r.overdue c u % 256 ∨ m ≤ r.lives + r.overdue c u % 256) := by
  rw [restore_eq_of_overdue c u r hm, restore_eq_of_overdue c u _ hm, mk.injEq, and_comm]
  refine (and_congr_left' (waiting_waiting_iff c r t u)).trans (and_congr_right fun hstays => ?_)
  have hsum := overdue_restore (m := m) c r t u hstays
  have hfirst : (r.restore t c m).lives = min m (r.lives + r.overdue c t % 256) := by
    rw [restore_eq_of_overdue c t r hm]
  rw [hfirst, ← hsum]
  omega

/-! ## The law -/

/-- **A look gives back what it prunes if and only if fewer than 256 losses are overdue.** And two
looks leave what the second alone would leave, if and only if no wait that was over at the first is
under way again at the second, and the number of overdue losses does not start again from zero
between them, or enough lives are left for that not to matter. -/
theorem givesBack_iff (r : LivesState) (m : Nat) (c : Int) (hm : m < 256) :
    (∀ now, r.GivesBack m c now ↔ r.overdue c now < 256) ∧
      (∀ t u, (r.restore t c m).restore u c m = r.restore u c m ↔
        r.StaysOver c t u ∧
          (r.overdue c t % 256 ≤ r.overdue c u % 256 ∨ m ≤ r.lives + r.overdue c u % 256)) ∧
      ∀ t u, (∀ l ∈ r.lostAt, l.Regular) → t.Regular → u.Regular → u.lt t = false →
        r.StaysOver c t u :=
  ⟨fun now => givesBack_iff_overdue c now r hm, fun t u => restore_restore_iff c r t u hm,
    staysOver_of_regular c r⟩

/-- A record with more lives than there are in all, and losses out of order. -/
theorem givesBack_untidy :
    3 < 256 ∧ (⟨250, [.ofSeconds 90, .ofSeconds 0, .ofSeconds 0]⟩ : LivesState).GivesBack 3
      600000000000 (.ofSeconds 600) :=
  ⟨by decide, ((givesBack_iff ⟨250, [.ofSeconds 90, .ofSeconds 0, .ofSeconds 0]⟩ 3 600000000000
    (by decide)).1 (.ofSeconds 600)).mpr (by decide)⟩

/-- No life is left, and 256 losses are overdue. A look prunes them all and gives none back. -/
theorem not_givesBack_256 :
    (⟨0, List.replicate 256 (.ofSeconds 0)⟩ : LivesState).restore (.ofSeconds 600) 600000000000 3 =
        ⟨0, []⟩ ∧
      ¬(⟨0, List.replicate 256 (.ofSeconds 0)⟩ : LivesState).GivesBack 3 600000000000
        (.ofSeconds 600) := by
  have hall : (⟨0, List.replicate 256 (.ofSeconds 0)⟩ : LivesState).overdue 600000000000
      (.ofSeconds 600) = 256 := by decide +kernel
  refine ⟨by decide +kernel, ?_⟩
  rw [givesBack_iff_overdue _ _ _ (by decide), hall]
  decide

end LivesState

end Invigilator
