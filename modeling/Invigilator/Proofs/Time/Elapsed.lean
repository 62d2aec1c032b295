import Invigilator.Time.Stamp

/-!
# Time that passes evenly

Outside leap seconds a moment is as good as a count of nanoseconds: differences subtract, later
moments have larger counts, and going on by some time adds to the count. So whatever is said about
waiting is arithmetic there. Inside a leap second none of this can be relied on, because the
difference from it to another moment depends on the day of that moment.
-/

namespace Invigilator.Stamp

/-- A moment of an ordinary second. -/
structure Regular (s : Stamp) : Prop where
  second : s.second < 86400
  nano : s.nano < nanosPerSecond

instance (s : Stamp) : Decidable s.Regular :=
  decidable_of_iff (s.second < 86400 ∧ s.nano < nanosPerSecond)
    ⟨fun h => ⟨h.1, h.2⟩, fun h => ⟨h.second, h.nano⟩⟩

/-- The nanoseconds from 1970-01-01T00:00:00Z to a moment. -/
def nanos (s : Stamp) : Int := (s.day * 86400 + s.second) * nanosPerSecond + s.nano

variable {a b s : Stamp}

theorem Regular.isLeap (h : s.Regular) : s.isLeap = false := by
  have hnano := h.nano
  have hnot : ¬nanosPerSecond ≤ s.nano := by omega
  simpa [Stamp.isLeap] using hnot

/-- Between regular moments the difference is that of the counts. -/
theorem since_eq (ha : a.Regular) (hb : b.Regular) : a.since b = a.nanos - b.nanos := by
  have hplain : secondsBetween a b = (a.second : Int) - b.second := by
    simp [secondsBetween, ha.isLeap, hb.isLeap]
  rw [since, hplain]
  simp only [nanos, nanosPerSecond]
  omega

/-- One regular moment is before another when its count is smaller. -/
theorem lt_iff (ha : a.Regular) (hb : b.Regular) : a.lt b = true ↔ a.nanos < b.nanos := by
  have hsecond := ha.second
  have hsecond' := hb.second
  have hnano := ha.nano
  have hnano' := hb.nano
  simp only [lt, nanos, nanosPerSecond, Bool.or_eq_true, Bool.and_eq_true, decide_eq_true_eq,
    beq_iff_eq] at *
  omega

theorem lt_eq_false_iff (ha : a.Regular) (hb : b.Regular) :
    a.lt b = false ↔ b.nanos ≤ a.nanos := by
  rw [← Bool.not_eq_true, lt_iff ha hb]
  omega

/-! ## Moments made from counts -/

theorem regular_ofParts (day second nanos : Int) : (ofParts day second nanos).Regular := by
  constructor
  · simp only [ofParts]
    omega
  · simp only [ofParts, nanosPerSecond]
    omega

theorem nanos_ofParts (day second nanos : Int) :
    (ofParts day second nanos).nanos = (day * 86400 + second) * nanosPerSecond + nanos := by
  simp only [ofParts, Stamp.nanos, nanosPerSecond]
  omega

/-- To go on from a regular moment is to add to its count. -/
theorem later_eq (hs : s.Regular) (n : Int) : s.later n = ofParts s.day s.second (s.nano + n) := by
  rw [later, hs.isLeap]
  rfl

theorem regular_later (hs : s.Regular) (n : Int) : (s.later n).Regular := by
  rw [later_eq hs]
  exact regular_ofParts s.day s.second (s.nano + n)

theorem nanos_later (hs : s.Regular) (n : Int) : (s.later n).nanos = s.nanos + n := by
  rw [later_eq hs, nanos_ofParts, nanos]
  omega

/-! ## Moments in order -/

/-- Moments in order, none before the one in front of it. -/
def Sorted (times : List Stamp) : Prop := times.Pairwise fun a b => b.lt a = false

instance (times : List Stamp) : Decidable (Sorted times) :=
  inferInstanceAs (Decidable (times.Pairwise fun a b => b.lt a = false))

theorem Sorted.concat {times : List Stamp} {t : Stamp} (h : Sorted times)
    (ht : ∀ s ∈ times, t.lt s = false) : Sorted (times ++ [t]) := by
  refine List.pairwise_append.mpr ⟨h, List.pairwise_singleton _ t, fun s hs u hu => ?_⟩
  rw [List.mem_singleton.mp hu]
  exact ht s hs

/-- What is put together in order was in order before, and the last is not before the others. -/
theorem Sorted.of_concat {times : List Stamp} {t : Stamp} (h : Sorted (times ++ [t])) :
    Sorted times ∧ ∀ s ∈ times, t.lt s = false := by
  obtain ⟨hbefore, -, hlast⟩ := List.pairwise_append.mp h
  exact ⟨hbefore, fun s hs => hlast s hs t (List.mem_singleton_self t)⟩

/-- Of moments in order the first is the earliest. -/
theorem earliest?_of_sorted {times : List Stamp} (h : Sorted times) :
    earliest? times = times.head? := by
  cases times with
  | nil => rfl
  | cons s rest =>
    have hfold : rest.foldl earlier s = s := by
      induction rest with
      | nil => rfl
      | cons t rest ih =>
        obtain ⟨hfirst, hrest⟩ := List.pairwise_cons.mp h
        have hkeeps : earlier s t = s := by
          rw [earlier, hfirst t List.mem_cons_self]
          rfl
        rw [List.foldl_cons, hkeeps]
        refine ih (List.pairwise_cons.mpr ⟨fun u hu => ?_, (List.pairwise_cons.mp hrest).2⟩)
        exact hfirst u (List.mem_cons_of_mem t hu)
    exact congrArg some hfold

/-! ## Clocks that run on -/

/-- Readings of a clock that runs on: the time since a reading does not fall from one later reading
to another. -/
def Steady : List Stamp → Prop
  | [] => True
  | s :: times => (times.Pairwise fun t u => t.since s ≤ u.since s) ∧ Steady times

instance decidableSteady : ∀ times, Decidable (Steady times)
  | [] => inferInstanceAs (Decidable True)
  | _ :: times =>
    have := decidableSteady times
    inferInstanceAs (Decidable (_ ∧ _))

theorem Steady.since_le {before after : List Stamp} {l t u : Stamp}
    (h : Steady (before ++ t :: after)) (hl : l ∈ before) (hu : u ∈ after) :
    t.since l ≤ u.since l := by
  induction before with
  | nil => exact absurd hl List.not_mem_nil
  | cons s before ih =>
    obtain ⟨hsince, hrest⟩ := h
    rcases List.mem_cons.mp hl with rfl | hl
    · exact (List.pairwise_cons.mp (List.pairwise_append.mp hsince).2.1).1 u hu
    · exact ih hrest hl

/-- Outside leap seconds it is enough that the moments are in order. -/
theorem Sorted.steady {times : List Stamp} (h : Sorted times) (hregular : ∀ s ∈ times, s.Regular) :
    Steady times := by
  induction times with
  | nil => trivial
  | cons s times ih =>
    obtain ⟨-, hrest⟩ := List.pairwise_cons.mp h
    have hs := hregular s List.mem_cons_self
    have hlater : ∀ t ∈ times, t.Regular := fun t ht => hregular t (List.mem_cons_of_mem s ht)
    refine ⟨hrest.imp_of_mem fun {t u} ht hu hle => ?_, ih hrest hlater⟩
    have hnanos := (lt_eq_false_iff (hlater u hu) (hlater t ht)).mp hle
    rw [since_eq (hlater t ht) hs, since_eq (hlater u hu) hs]
    omega

end Invigilator.Stamp
