import Invigilator.Proofs.Lives.Expiry
import Invigilator.Service.State

/-!
# How long a life stays away

A configuration says for how many seconds a lost life stays away, and any number of 64 bits is
accepted. The ledger takes the number for a signed one, and no span of time has more seconds than
`longestSpan`. So there are three ranges. Up to the longest span the ledger waits exactly as long as
it is told, and its answers count every loss that is younger (`keepsAway_of_le`). Beyond it no
service opens, until the sign comes into play: then the wait is negative, and every look gives all
lives back, those that were lost a moment ago too (`givesBackAtOnce`).
-/

namespace Invigilator

/-! ## The wait in the configuration -/

namespace Settings

theorem asInt64_of_lt {n : Nat} (h : n < Nat.pow 2 63) : asInt64 n = n :=
  Int.bmod_eq_of_le (by omega) (by simp at h ⊢; omega)

/-- A number in the upper half of a word is taken for a negative one. -/
theorem bmod_neg {n word : Nat} (hlarge : word ≤ 2 * n) (hword : n < word) :
    Int.bmod n word < 0 := by
  have hsmall : (n : Int) % word = n :=
    Int.emod_eq_of_lt (Int.natCast_nonneg n) (Int.ofNat_lt.mpr hword)
  have hnot : ¬(n : Int) < ((word : Int) + 1) / 2 := by omega
  rw [Int.bmod, hsmall, if_neg hnot]
  exact Int.sub_neg_of_lt (Int.ofNat_lt.mpr hword)

theorem asInt64_neg {n : Nat} (hlarge : Nat.pow 2 63 ≤ n) (hword : n < Nat.pow 2 64) :
    asInt64 n < 0 := by
  have hhalf : Nat.pow 2 64 = 2 * Nat.pow 2 63 := by decide
  have hupper : Nat.pow 2 64 ≤ 2 * n := by
    rw [hhalf]
    exact Nat.mul_le_mul_left 2 hlarge
  exact bmod_neg hupper hword

variable {s : Settings}

/-- A wait that is no longer than the longest span is taken as it is. -/
theorem restoreCooldownSeconds_of_le (h : s.lifeRestoreSeconds ≤ longestSpan) :
    s.restoreCooldownSeconds = s.lifeRestoreSeconds := by
  have hlongest : longestSpan < Nat.pow 2 63 := by decide
  exact asInt64_of_lt (Nat.lt_of_le_of_lt h hlongest)

theorem hasRestoreSpan_of_le (h : s.lifeRestoreSeconds ≤ longestSpan) :
    s.hasRestoreSpan = true := by
  rw [hasRestoreSpan, restoreCooldownSeconds_of_le h, Int.natAbs_natCast]
  exact decide_eq_true h

/-- A longer one that is still a span of time is taken for a negative number. -/
theorem restoreCooldownSeconds_neg (hlong : longestSpan < s.lifeRestoreSeconds)
    (hword : s.lifeRestoreSeconds < Nat.pow 2 64) (hspan : s.hasRestoreSpan = true) :
    s.restoreCooldownSeconds < 0 := by
  have hle : s.restoreCooldownSeconds.natAbs ≤ longestSpan := of_decide_eq_true hspan
  rcases Nat.lt_or_ge s.lifeRestoreSeconds (Nat.pow 2 63) with hsmall | hlarge
  · rw [restoreCooldownSeconds, asInt64_of_lt hsmall, Int.natAbs_natCast] at hle
    omega
  · exact asInt64_neg hlarge hword

/-- The lives of an accepted policy are counted in eight bits. -/
theorem maxLives_lt (haccepted : s.refusal? = none) : s.maxLives < 256 := by
  unfold refusal? at haccepted
  split at haccepted
  · cases haccepted
  · next h =>
    have hmost : mostLives = 3 := rfl
    omega

end Settings

/-! ## What the ledger makes of it -/

namespace Service

open Ledger (Windowed reached history shelved accepted wholeSeconds)

/-- The service opens with such a configuration. -/
def Opens (config : Config) : Prop :=
  ∀ {σ : Type} (catalog : Catalog) (practice : PracticeStore σ) (lives : σ) (opened : Stamp)
    (source : Source), (open? config catalog practice lives opened source).isSome

/-- On any clock that runs on, the ledger of practice lives answers as a window that holds those
accepted losses of a bucket which are `counted` at the moment. -/
def Answers (config : Config) (wait : Int) (counted : Stamp → Stamp → Bool) : Prop :=
  ∀ visits : List Visit, (∀ v ∈ visits, v.time.Regular) →
    Stamp.Sorted (visits.map Visit.time) →
    ∀ (b : Bucket) (t : Stamp), t.Regular → (∀ v ∈ visits, t.lt v.time = false) →
      Windowed config.exam.maxLives wait (reached shelved (practiceRules config) .empty visits) b t
        ((accepted b (history shelved (practiceRules config) .empty visits)).filter (counted t))

/-- The configuration is kept to: no life comes back before its wait is over. -/
structure KeepsAway (config : Config) : Prop where
  opens : Opens config
  /-- The ledger waits as many seconds as the configuration says. -/
  wait : (practiceRules config).cooldown = some (wholeSeconds config.exam.lifeRestoreSeconds)
  /-- Whatever the record and the clock, a look gives a loss back only after so many seconds. -/
  patient : ∀ (r : LivesState) (now l : Stamp), l ∈ r.lostAt →
    l ∉ (r.restore now (wholeSeconds config.exam.lifeRestoreSeconds) config.exam.maxLives).lostAt →
    wholeSeconds config.exam.lifeRestoreSeconds ≤ now.since l
  /-- So at any moment the losses count from which less time has passed. -/
  answers : Answers config (wholeSeconds config.exam.lifeRestoreSeconds) fun now l =>
    now.lt (l.later (wholeSeconds config.exam.lifeRestoreSeconds))

/-- No life stays away: the wait is negative, and no loss is ever counted. -/
def GivesBackAtOnce (config : Config) : Prop :=
  ∃ wait < 0, (practiceRules config).cooldown = some wait ∧ Answers config wait fun _ _ => false

variable {config : Config}

theorem opens_iff : Opens config ↔ config.exam.hasRestoreSpan = true := by
  constructor
  · intro h
    have hopened := h [] ⟨Shelf.store, pure ()⟩ .empty default .plain
    by_contra hspan
    rw [open?, if_neg hspan] at hopened
    cases hopened
  · intro h σ catalog practice lives opened source
    rw [open?, if_pos h]
    rfl

/-- The ledger is a window, whatever its wait. -/
theorem answers_of_waiting {wait : Int} (hm : config.exam.maxLives < 256)
    (hwait : (practiceRules config).cooldown = some wait) {counted : Stamp → Stamp → Bool}
    (hcounted : ∀ now l : Stamp, now.Regular → l.Regular → now.lt l = false →
      LivesState.isWaiting now wait l = counted now l) : Answers config wait counted := by
  intro visits hregular hsorted b t ht hlater
  have hrules : practiceRules config = ⟨config.exam.maxLives, some wait⟩ := by
    rw [← hwait]
    rfl
  rw [hrules]
  have ho := Ledger.orderly_history config.exam.maxLives wait visits hm hregular hsorted
  have hlost : ∀ l ∈ accepted b (history shelved ⟨config.exam.maxLives, some wait⟩ .empty visits),
      l.Regular ∧ t.lt l = false := by
    intro l hl
    obtain ⟨x, hx, rfl⟩ := Ledger.exists_of_mem_accepted hl
    have hvisit := Ledger.visit_mem _ _ hx
    exact ⟨hregular x.visit hvisit, hlater x.visit hvisit⟩
  have hin : Stamp.Sorted
      (accepted b (history shelved ⟨config.exam.maxLives, some wait⟩ .empty visits)) := by
    refine Ledger.sorted_accepted b ?_
    rw [Ledger.map_time_history]
    exact hsorted
  have hwindow := ho.windowed hm b
    ⟨ht, fun x hx => hlater x.visit (Ledger.visit_mem _ _ hx)⟩ (fun l hl => (hlost l hl).1) hin
  rwa [LivesState.waiting, List.filter_congr fun l hl =>
    hcounted t l ht (hlost l hl).1 (hlost l hl).2] at hwindow

/-- **Up to the longest span the configuration is kept to.** -/
theorem keepsAway_of_le (hm : config.exam.maxLives < 256)
    (hle : config.exam.lifeRestoreSeconds ≤ Settings.longestSpan) : KeepsAway config := by
  have hwait : (practiceRules config).cooldown =
      some (wholeSeconds config.exam.lifeRestoreSeconds) := by
    rw [practiceRules, Settings.restoreCooldownSeconds_of_le hle, wholeSeconds, Int.natCast_mul]
  refine ⟨opens_iff.mpr (Settings.hasRestoreSpan_of_le hle), hwait, fun r now l hl hgone => ?_,
    answers_of_waiting hm hwait fun now l hnow hl hlater => ?_⟩
  · by_contra hyoung
    refine hgone (List.mem_filter.mpr ⟨hl, ?_⟩)
    rw [LivesState.isWaiting, decide_eq_true_eq]
    omega
  · rw [Bool.eq_iff_iff, LivesState.isWaiting, decide_eq_true_eq, Stamp.since_eq hnow hl,
      Stamp.lt_iff hnow (Stamp.regular_later hl _), Stamp.nanos_later hl]
    omega

/-- **Beyond it no service opens, or no life stays away.** -/
theorem givesBackAtOnce (hm : config.exam.maxLives < 256)
    (hword : config.exam.lifeRestoreSeconds < Nat.pow 2 64)
    (hlong : Settings.longestSpan < config.exam.lifeRestoreSeconds) (hopens : Opens config) :
    GivesBackAtOnce config := by
  have hneg := Settings.restoreCooldownSeconds_neg hlong hword (opens_iff.mp hopens)
  have hnanos : config.exam.restoreCooldownSeconds * (nanosPerSecond : Int) < 0 :=
    Int.mul_neg_of_neg_of_pos hneg (by decide)
  refine ⟨_, hnanos, rfl, answers_of_waiting hm rfl fun now l hnow hl hlater => ?_⟩
  have hpast := (Stamp.lt_eq_false_iff hnow hl).mp hlater
  rw [LivesState.isWaiting, decide_eq_false_iff_not, Stamp.since_eq hnow hl]
  omega

end Service

/-! ## Configurations that are loaded -/

namespace Config

theorem number?_lt {limit n : Nat} {text : String} (h : number? limit text = some n) :
    n < limit := by
  obtain ⟨-, hlt⟩ := Option.filter_eq_some_iff.mp h
  exact of_decide_eq_true hlt

theorem examNumber?_lt {limit standard n : Nat} {setting : Option Setting}
    (hstandard : standard < limit) (h : examNumber? limit standard setting = some n) :
    n < limit := by
  cases setting with
  | none => exact Option.some.inj h ▸ hstandard
  | some s =>
    obtain ⟨text, -, htext⟩ := Option.bind_eq_some_iff.mp h
    exact number?_lt htext

theorem lifeRestoreSeconds_lt {env : Environs} {exam : Settings} (h : exam? env = some exam) :
    exam.lifeRestoreSeconds < Nat.pow 2 64 := by
  unfold exam? at h
  split at h
  · cases h
    decide
  · obtain ⟨slots, -, h⟩ := Option.bind_eq_some_iff.mp h
    split at h
    · simp only [Option.bind_eq_bind, Option.bind_eq_some_iff] at h
      obtain ⟨_, -, _, -, _, -, _, -, restore, hrestore, _, -, _, -, _, -, hexam⟩ := h
      obtain rfl := Option.some.inj hexam
      exact examNumber?_lt (by decide) hrestore
    · cases h

/-- What is loaded has been accepted. -/
theorem load_accepted {env : Environs} {config : Config} (h : (load env).1 = .ok config) :
    config.exam.refusal? = none ∧ config.exam.lifeRestoreSeconds < Nat.pow 2 64 := by
  unfold load checkedExam at h
  split at h
  · cases h
  · cases hexam : exam? env with
    | none => rw [hexam] at h; cases h
    | some exam =>
      cases haccepted : exam.refusal? with
      | some refusal => simp only [hexam, haccepted] at h; cases h
      | none =>
        simp only [hexam, haccepted] at h
        obtain rfl := Except.ok.inj h
        exact ⟨haccepted, lifeRestoreSeconds_lt hexam⟩

end Config

end Invigilator
