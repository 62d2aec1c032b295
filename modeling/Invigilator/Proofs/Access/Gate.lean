import Invigilator.Access.Gate
import Mathlib.Data.List.Induction
import Mathlib.Data.List.Nodup
import Mathlib.Data.String.Basic

/-!
# The gate over its history

The gate keeps one record for each user and forgets what was in it before. Still what it says is
a matter of its whole history: a user is barred exactly if they were blocked and no retake was
approved since. `Since` is the form of such a criterion, something that came and nothing of some
kind behind it, and one more call changes it in one way only (`since_concat`). So by induction
from the last call backwards the record of a barred user is that of their latest block, whatever
approvals came between earlier ones (`remembers_taken`).

Calls on other users never matter, since each call touches the record of its own user
(`find?_take_other`), and neither do the moments at which the calls come (`Alike`).
-/

namespace Invigilator

/-! ## One call -/

namespace Gate

variable {g : Gate} {userId : String}

theorem userId_of_find? {r : EligibilityRecord} (h : g.find? userId = some r) :
    r.userId = userId := by
  simpa using List.find?_some h

theorem find?_put (g : Gate) (r : EligibilityRecord) (userId : String) :
    (g.put r).find? userId = if r.userId = userId then some r else g.find? userId := by
  unfold find? put
  by_cases h : r.userId = userId
  · simp [h]
  · rw [if_neg h, List.find?_cons_of_neg (by simpa using h), List.find?_filter]
    congr 1
    funext old
    by_cases hold : old.userId = userId <;> simp [hold, Ne.symm h]

/-- A block bars the user, and nobody is let in by it. -/
theorem isEligible_block (g : Gate) (other id : String) (time : Stamp) (userId : String) :
    (g.block other id time).isEligible userId =
      if other = userId then false else g.isEligible userId := by
  have hfind : (g.block other id time).find? userId =
      if other = userId then some (.block other id time) else g.find? userId := find?_put ..
  rw [isEligible, hfind]
  split
  · rfl
  · rfl

/-- Only an approval that finds the user blocked lets the user in. -/
theorem isEligible_approve (h : g.isEligible userId = false) (other approver : String)
    (time : Stamp) (hno : other = userId → (g.approve other approver time).2 = false) :
    (g.approve other approver time).1.isEligible userId = false := by
  unfold approve at hno ⊢
  split
  · rename_i r hfind
    rw [hfind] at hno
    split
    · rename_i hblocked
      -- an approval that finds somebody blocked says so, so it was of somebody else
      have hother : other ≠ userId := by
        intro hsame
        simp [hblocked, hsame] at hno
      have hrecord : (r.approve approver time).userId ≠ userId := by
        rw [EligibilityRecord.approve, userId_of_find? hfind]
        exact hother
      rw [isEligible, find?_put, if_neg hrecord]
      exact h
    · exact h
  · exact h

/-- The record that is put is that of its user. -/
theorem find?_put_own {r : EligibilityRecord} (h : r.userId = userId) :
    (g.put r).find? userId = some r := by
  rw [find?_put, if_pos h]

theorem isEligible_eq_false_iff :
    g.isEligible userId = false ↔ ∃ r, g.find? userId = some r ∧ r.isBlocked = true := by
  rw [isEligible, Bool.not_eq_false', Option.any_eq_true]

/-- A blocked user is let in. -/
theorem approve_blocked {r : EligibilityRecord} (hfind : g.find? userId = some r)
    (hblocked : r.isBlocked = true) (approver : String) (time : Stamp) :
    g.approve userId approver time = (g.put (r.approve approver time), true) := by
  rw [approve, hfind]
  exact if_pos hblocked

/-- For a user who is let in already an approval does nothing. -/
theorem approve_eligible (h : g.isEligible userId = true) (approver : String) (time : Stamp) :
    g.approve userId approver time = (g, false) := by
  unfold approve
  cases hfind : g.find? userId with
  | none => rfl
  | some r =>
    have hopen : ¬r.isBlocked = true := by
      intro hblocked
      rw [isEligible_eq_false_iff.mpr ⟨r, hfind, hblocked⟩] at h
      cases h
    exact if_neg hopen

/-- An approval says whether the user was barred. -/
theorem approve_snd (g : Gate) (userId approver : String) (time : Stamp) :
    (g.approve userId approver time).2 = !g.isEligible userId := by
  cases h : g.isEligible userId with
  | true => rw [approve_eligible h]; rfl
  | false =>
    obtain ⟨r, hfind, hblocked⟩ := isEligible_eq_false_iff.mp h
    rw [approve_blocked hfind hblocked]
    rfl

/-- After an approval the user is let in. -/
theorem isEligible_approve_self (g : Gate) (userId approver : String) (time : Stamp) :
    (g.approve userId approver time).1.isEligible userId = true := by
  cases h : g.isEligible userId with
  | true => rw [approve_eligible h, h]
  | false =>
    obtain ⟨r, hfind, hblocked⟩ := isEligible_eq_false_iff.mp h
    have huser := userId_of_find? hfind
    have hown : (g.put (r.approve approver time)).find? userId = some (r.approve approver time) :=
      find?_put_own huser
    rw [approve_blocked hfind hblocked, isEligible, hown]
    rfl

/-- No user has two records. -/
def Keyed (g : Gate) : Prop := (g.records.map fun r => r.userId).Nodup

theorem Keyed.put (hg : g.Keyed) (r : EligibilityRecord) : (g.put r).Keyed := by
  rw [Keyed, Gate.put, List.map_cons, List.nodup_cons]
  constructor
  · intro hmem
    obtain ⟨old, hold, hsame⟩ := List.mem_map.mp hmem
    exact bne_iff_ne.mp (List.mem_filter.mp hold).2 hsame
  · exact hg.sublist (List.filter_sublist.map _)

theorem Keyed.approve (hg : g.Keyed) (userId approver : String) (time : Stamp) :
    (g.approve userId approver time).1.Keyed := by
  cases h : g.isEligible userId with
  | true => rwa [approve_eligible h]
  | false =>
    obtain ⟨r, hfind, hblocked⟩ := isEligible_eq_false_iff.mp h
    rw [approve_blocked hfind hblocked]
    exact hg.put _

/-- The record that is found for a user is the one that there is. -/
theorem Keyed.find?_eq_some_iff (hg : g.Keyed) {r : EligibilityRecord} :
    g.find? userId = some r ↔ r ∈ g.records ∧ r.userId = userId := by
  constructor
  · exact fun h => ⟨List.mem_of_find?_eq_some h, userId_of_find? h⟩
  · rintro ⟨hmem, rfl⟩
    have hsome : (g.find? r.userId).isSome = true :=
      List.find?_isSome.mpr ⟨r, hmem, beq_iff_eq.mpr rfl⟩
    obtain ⟨r', hfind⟩ := Option.isSome_iff_exists.mp hsome
    have hsame := List.inj_on_of_nodup_map hg (List.mem_of_find?_eq_some hfind) hmem
      (userId_of_find? hfind)
    rw [hfind, hsame]

/-- The list of blocked users has every one of them. -/
theorem Keyed.mem_blocked_iff (hg : g.Keyed) {r : EligibilityRecord} :
    r ∈ g.blocked ↔ g.find? r.userId = some r ∧ r.isBlocked = true := by
  rw [blocked, List.mem_mergeSort, List.mem_filter, hg.find?_eq_some_iff]
  simp

/-- Who is in the list of blocked users is barred. -/
theorem Keyed.listed_iff (hg : g.Keyed) (userId : String) :
    (∃ r ∈ g.blocked, r.userId = userId) ↔ g.isEligible userId = false := by
  rw [isEligible_eq_false_iff]
  constructor
  · rintro ⟨r, hr, rfl⟩
    exact ⟨r, hg.mem_blocked_iff.mp hr⟩
  · rintro ⟨r, hfind, hblocked⟩
    obtain rfl := userId_of_find? hfind
    exact ⟨r, hg.mem_blocked_iff.mpr ⟨hfind, hblocked⟩, rfl⟩

/-- The list of blocked users goes up, and has none of them twice. -/
theorem Keyed.blocked_ascending (hg : g.Keyed) :
    g.blocked.Pairwise fun a b => a.userId < b.userId := by
  have hsorted : g.blocked.Pairwise fun a b => decide (a.userId ≤ b.userId) = true := by
    refine List.pairwise_mergeSort (fun a b c hab hbc => ?_) (fun a b => ?_) _
    · exact decide_eq_true (String.le_trans (of_decide_eq_true hab) (of_decide_eq_true hbc))
    · rw [Bool.or_eq_true, decide_eq_true_iff, decide_eq_true_iff]
      exact String.le_total _ _
  have happart : g.blocked.Pairwise fun a b => a.userId ≠ b.userId := by
    have hnodup : (g.blocked.map fun r => r.userId).Nodup :=
      ((List.mergeSort_perm _ _).map _).nodup_iff.mpr (hg.sublist (List.filter_sublist.map _))
    exact List.pairwise_map.mp hnodup
  exact (hsorted.and happart).imp fun h => lt_of_le_of_ne (of_decide_eq_true h.1) h.2

end Gate

/-! ## Histories -/

/-- A call that changes the gate. -/
inductive GateCall where
  | block (userId sessionId : String) (time : Stamp)
  | approve (userId approver : String) (time : Stamp)
deriving DecidableEq, Repr, Inhabited

namespace GateCall

/-- Whom a call is about. -/
def userId : GateCall → String
  | block userId _ _ => userId
  | approve userId _ _ => userId

/-- When a call comes. -/
def time : GateCall → Stamp
  | block _ _ time => time
  | approve _ _ time => time

/-- A call is a block of a user. -/
def Blocks (userId : String) (c : GateCall) : Prop := ∃ id time, c = .block userId id time

/-- A call is the approval of a retake of a user. -/
def Approves (userId : String) (c : GateCall) : Prop := ∃ who time, c = .approve userId who time

theorem Blocks.userId_eq {userId : String} {c : GateCall} (h : c.Blocks userId) :
    c.userId = userId := by
  obtain ⟨id, time, rfl⟩ := h
  rfl

theorem Approves.userId_eq {userId : String} {c : GateCall} (h : c.Approves userId) :
    c.userId = userId := by
  obtain ⟨who, time, rfl⟩ := h
  rfl

end GateCall

/-- Something has come, and nothing of a kind behind it. -/
def Since {α : Type} (P : α → Prop) (xs : List α) (x : α) : Prop :=
  ∃ before after, xs = before ++ x :: after ∧ ∀ y ∈ after, ¬P y

section Since

variable {α : Type} {P : α → Prop} {xs : List α}

theorem not_since_nil (x : α) : ¬Since P [] x := by
  rintro ⟨before, after, h, -⟩
  exact absurd h.symm (List.append_ne_nil_of_right_ne_nil before (List.cons_ne_nil x after))

/-- What comes last is what has come, or it leaves what has come before it. -/
theorem since_concat {x y : α} : Since P (xs ++ [y]) x ↔ y = x ∨ (Since P xs x ∧ ¬P y) := by
  constructor
  · rintro ⟨before, after, hsplit, hafter⟩
    rcases List.eq_nil_or_concat' after with rfl | ⟨after, z, rfl⟩
    · exact .inl (List.append_singleton_inj.mp hsplit).2
    · rw [← List.cons_append, ← List.append_assoc] at hsplit
      obtain ⟨rfl, rfl⟩ := List.append_singleton_inj.mp hsplit
      rw [List.forall_mem_append, List.forall_mem_singleton] at hafter
      exact .inr ⟨⟨before, after, rfl, hafter.1⟩, hafter.2⟩
  · rintro (rfl | ⟨⟨before, after, rfl, hafter⟩, hy⟩)
    · exact ⟨xs, [], rfl, List.forall_mem_nil _⟩
    · refine ⟨before, after ++ [y], by rw [List.append_assoc, List.cons_append], ?_⟩
      rw [List.forall_mem_append, List.forall_mem_singleton]
      exact ⟨hafter, hy⟩

/-- The latest of a kind is one. -/
theorem Since.unique {x y : α} (hx : Since P xs x) (hy : Since P xs y) (hPx : P x) (hPy : P y) :
    x = y := by
  induction xs using List.reverseRecOn with
  | nil => exact absurd hx (not_since_nil x)
  | append_singleton xs z ih =>
    rcases since_concat.mp hx with rfl | ⟨hx, hz⟩
    · rcases since_concat.mp hy with rfl | ⟨-, hz⟩
      · rfl
      · exact absurd hPx hz
    · rcases since_concat.mp hy with rfl | ⟨hy, -⟩
      · exact absurd hPy hz
      · exact ih hx hy

end Since

namespace Gate

variable {g : Gate} {userId : String} {calls : List GateCall}

/-- The gate after a call, and what an approval is answered. -/
def take (g : Gate) : GateCall → Gate × Option Bool
  | .block userId id time => (g.block userId id time, none)
  | .approve userId who time =>
    ((g.approve userId who time).1, some (g.approve userId who time).2)

/-- The gate after some calls. -/
def taken (g : Gate) : List GateCall → Gate
  | [] => g
  | c :: calls => (g.take c).1.taken calls

/-- The answers to some calls, in order. -/
def answers (g : Gate) : List GateCall → List (Option Bool)
  | [] => []
  | c :: calls => (g.take c).2 :: (g.take c).1.answers calls

theorem taken_append (g : Gate) (first rest : List GateCall) :
    g.taken (first ++ rest) = (g.taken first).taken rest := by
  induction first generalizing g with
  | nil => rfl
  | cons c first ih => exact ih (g.take c).1

theorem taken_concat (g : Gate) (calls : List GateCall) (c : GateCall) :
    g.taken (calls ++ [c]) = ((g.taken calls).take c).1 := taken_append g calls [c]

/-- What a call is answered depends on the calls before it. -/
theorem answers_getElem? (g : Gate) (before : List GateCall) (c : GateCall)
    (after : List GateCall) :
    (g.answers (before ++ c :: after))[before.length]? = some ((g.taken before).take c).2 := by
  induction before generalizing g with
  | nil => rfl
  | cons b before ih => exact ih (g.take b).1

theorem Keyed.take (hg : g.Keyed) (c : GateCall) : (g.take c).1.Keyed := by
  cases c with
  | block userId id time => exact hg.put _
  | approve userId who time => exact hg.approve userId who time

theorem keyed_taken (calls : List GateCall) : (empty.taken calls).Keyed := by
  induction calls using List.reverseRecOn with
  | nil => exact List.nodup_nil
  | append_singleton calls c ih =>
    rw [taken_concat]
    exact ih.take c

/-- **A call on another user leaves the record of this one.** -/
theorem find?_take_other (g : Gate) {c : GateCall} (hc : c.userId ≠ userId) :
    (g.take c).1.find? userId = g.find? userId := by
  cases c with
  | block other id time => exact (find?_put g _ userId).trans (if_neg hc)
  | approve other who time =>
    cases h : g.isEligible other with
    | true => rw [take, approve_eligible h]
    | false =>
      obtain ⟨r, hfind, hblocked⟩ := isEligible_eq_false_iff.mp h
      have huser := userId_of_find? hfind
      have hrecord : (r.approve who time).userId ≠ userId := fun h => hc (huser.symm.trans h)
      rw [take, approve_blocked hfind hblocked]
      exact (find?_put g _ userId).trans (if_neg hrecord)

/-- What the gate does with a call is a matter of the record of the user. -/
theorem find?_take_congr {g' : Gate} (c : GateCall)
    (h : g.find? c.userId = g'.find? c.userId) :
    (g.take c).1.find? c.userId = (g'.take c).1.find? c.userId := by
  cases c with
  | block other id time =>
    -- a block takes the place of the record, whatever that was
    have hown : ∀ g : Gate, (g.block other id time).find? other = some (.block other id time) :=
      fun _ => find?_put_own rfl
    exact (hown g).trans (hown g').symm
  | approve other who time =>
    have helig : g.isEligible other = g'.isEligible other := by
      rw [isEligible, isEligible]
      exact congrArg (fun r : Option EligibilityRecord => !r.any (·.isBlocked)) h
    -- an approval writes only where it finds the user blocked
    cases hg : g.isEligible other with
    | true =>
      rw [take, take, approve_eligible hg, approve_eligible (helig ▸ hg)]
      exact h
    | false =>
      obtain ⟨r, hfind, hblocked⟩ := isEligible_eq_false_iff.mp hg
      have hfind' : g'.find? other = some r := h.symm.trans hfind
      have huser := userId_of_find? hfind
      have hown : ∀ g : Gate, (g.put (r.approve who time)).find? other =
          some (r.approve who time) := fun _ => find?_put_own huser
      rw [take, take, approve_blocked hfind hblocked, approve_blocked hfind' hblocked]
      exact (hown g).trans (hown g').symm

/-- **Only the calls on a user matter to their record.** -/
theorem find?_taken_own (calls : List GateCall) (userId : String) :
    (empty.taken (calls.filter fun c => c.userId == userId)).find? userId =
      (empty.taken calls).find? userId := by
  induction calls using List.reverseRecOn with
  | nil => rfl
  | append_singleton calls c ih =>
    rw [taken_concat, List.filter_append]
    -- a call on another user is left out on one side, and passes the record by on the other
    by_cases hc : c.userId = userId
    · have hown : [c].filter (fun c => c.userId == userId) = [c] :=
        List.filter_cons_of_pos (beq_iff_eq.mpr hc)
      rw [hown, taken_concat]
      subst hc
      exact find?_take_congr c ih
    · have hother : [c].filter (fun c => c.userId == userId) = [] :=
        List.filter_cons_of_neg (mt beq_iff_eq.mp hc)
      rw [hother, List.append_nil, find?_take_other _ hc, ih]

/-! ## What is remembered -/

/-- What the gate says of a user after some calls. -/
structure Remembers (g : Gate) (calls : List GateCall) (userId : String) : Prop where
  /-- A user is barred if a block came and no approval since. -/
  barred : g.isEligible userId = false ↔
    ∃ id time, Since (·.Approves userId) calls (.block userId id time)
  /-- The record of a barred user is that of their latest block. -/
  latest : ∀ r, g.find? userId = some r → r.isBlocked = true →
    ∃ id time, r = .block userId id time ∧ Since (·.Blocks userId) calls (.block userId id time)

/-- A call on another user leaves what is remembered of this one. -/
theorem Remembers.take_other (h : g.Remembers calls userId) {c : GateCall}
    (hc : c.userId ≠ userId) : (g.take c).1.Remembers (calls ++ [c]) userId := by
  have hfind := g.find?_take_other hc
  have hblock : ¬c.Blocks userId := fun hb => hc hb.userId_eq
  have happrove : ¬c.Approves userId := fun ha => hc ha.userId_eq
  have hsince : ∀ {P : GateCall → Prop}, ¬P c → ∀ id time,
      Since P (calls ++ [c]) (.block userId id time) ↔ Since P calls (.block userId id time) := by
    -- so the same block is the latest on either side of it
    intro P hP id time
    rw [since_concat]
    exact ⟨fun h => (h.resolve_left fun heq => hblock ⟨id, time, heq⟩).1, fun h => .inr ⟨h, hP⟩⟩
  constructor
  · rw [isEligible, hfind, ← isEligible, h.barred]
    exact exists_congr fun id => exists_congr fun time => (hsince happrove id time).symm
  · rw [hfind]
    intro r hr hblocked
    obtain ⟨id, time, rfl, hlatest⟩ := h.latest r hr hblocked
    exact ⟨id, time, rfl, (hsince hblock id time).mpr hlatest⟩

/-- A call on a user is remembered. -/
theorem Remembers.take_own (h : g.Remembers calls userId) {c : GateCall}
    (hc : c.userId = userId) : (g.take c).1.Remembers (calls ++ [c]) userId := by
  subst hc
  cases c with
  | block userId id time =>
    have hfind : (g.block userId id time).find? userId = some (.block userId id time) :=
      find?_put_own rfl
    constructor
    · -- the block that has just come is the latest
      refine iff_of_true ?_ ⟨id, time, since_concat.mpr (.inl rfl)⟩
      exact isEligible_eq_false_iff.mpr ⟨_, hfind, rfl⟩
    · intro r hr _
      have hr : (g.block userId id time).find? userId = some r := hr
      rw [hfind, Option.some.injEq] at hr
      exact ⟨id, time, hr.symm, since_concat.mpr (.inl rfl)⟩
  | approve userId who time =>
    have hopen : ¬(g.approve userId who time).1.isEligible userId = false := by
      rw [isEligible_approve_self]
      decide
    constructor
    · -- an approval has come since any block
      refine iff_of_false hopen ?_
      rintro ⟨id, time', hsince⟩
      rcases since_concat.mp hsince with heq | ⟨-, hnot⟩
      · cases heq
      · exact hnot ⟨who, time, rfl⟩
    · intro r hr hblocked
      exact absurd (isEligible_eq_false_iff.mpr ⟨r, hr, hblocked⟩) hopen

/-- **The gate remembers of every user what its history says.** -/
theorem remembers_taken (calls : List GateCall) (userId : String) :
    (empty.taken calls).Remembers calls userId := by
  induction calls using List.reverseRecOn with
  | nil =>
    refine ⟨iff_of_false nofun ?_, nofun⟩
    rintro ⟨id, time, hsince⟩
    exact not_since_nil _ hsince
  | append_singleton calls c ih =>
    rw [taken_concat]
    by_cases hc : c.userId = userId
    · exact ih.take_own hc
    · exact ih.take_other hc

/-- A record is in the list of blocked users if it is that of the latest block of a user who is
barred. -/
theorem mem_blocked_taken_iff (calls : List GateCall) (r : EligibilityRecord) :
    r ∈ (empty.taken calls).blocked ↔ ∃ userId id time, r = .block userId id time ∧
      Since (·.Blocks userId) calls (.block userId id time) ∧
        (empty.taken calls).isEligible userId = false := by
  rw [(keyed_taken calls).mem_blocked_iff]
  constructor
  · rintro ⟨hfind, hblocked⟩
    obtain ⟨id, time, hr, hlatest⟩ := (remembers_taken calls r.userId).latest r hfind hblocked
    exact ⟨r.userId, id, time, hr, hlatest, isEligible_eq_false_iff.mpr ⟨r, hfind, hblocked⟩⟩
  · rintro ⟨userId, id, time, rfl, hlatest, hbarred⟩
    obtain ⟨r, hfind, hblocked⟩ := isEligible_eq_false_iff.mp hbarred
    -- two blocks with no other after them are one
    obtain ⟨id', time', rfl, hlatest'⟩ :=
      (remembers_taken calls userId).latest r hfind hblocked
    cases hlatest.unique hlatest' ⟨id, time, rfl⟩ ⟨id', time', rfl⟩
    exact ⟨hfind, rfl⟩

/-- What a gate says after some calls is what its history says. -/
structure Chronicles (calls : List GateCall) : Prop where
  /-- A user is barred if a block came and no approval since. -/
  barred_iff : ∀ userId, (empty.taken calls).isEligible userId = false ↔
    ∃ id time, Since (·.Approves userId) calls (.block userId id time)
  /-- An approval is told whether the user was barred when it came. -/
  answered : ∀ before userId who time after, calls = before ++ .approve userId who time :: after →
    (empty.answers calls)[before.length]? = some (some !(empty.taken before).isEligible userId)
  /-- The list of blocked users has those who are barred, all of them. -/
  listed_iff : ∀ userId, (∃ r ∈ (empty.taken calls).blocked, r.userId = userId) ↔
    (empty.taken calls).isEligible userId = false
  /-- The records in it are those of their latest blocks. -/
  mem_blocked_iff : ∀ r, r ∈ (empty.taken calls).blocked ↔ ∃ userId id time,
    r = .block userId id time ∧ Since (·.Blocks userId) calls (.block userId id time) ∧
      (empty.taken calls).isEligible userId = false
  /-- It goes up by users, and has none of them twice. -/
  ascending : (empty.taken calls).blocked.Pairwise fun a b => a.userId < b.userId
  /-- Only the calls on a user matter to their record. -/
  apart : ∀ userId, (empty.taken (calls.filter fun c => c.userId == userId)).find? userId =
    (empty.taken calls).find? userId

/-- **The gate is what its history makes it.** -/
theorem chronicles (calls : List GateCall) : Chronicles calls where
  barred_iff userId := (remembers_taken calls userId).barred
  answered before userId who time after hsplit := by
    rw [hsplit, answers_getElem?, take, approve_snd]
  listed_iff := (keyed_taken calls).listed_iff
  mem_blocked_iff := mem_blocked_taken_iff calls
  ascending := (keyed_taken calls).blocked_ascending
  apart := find?_taken_own calls

end Gate

/-! ## Moments -/

/-- A record without its moments. -/
def EligibilityRecord.untimed (r : EligibilityRecord) : EligibilityRecord :=
  { r with blockedAt := none, approvedAt := none }

/-- A call, whenever it comes. -/
def GateCall.untimed : GateCall → GateCall
  | block userId id _ => block userId id default
  | approve userId who _ => approve userId who default

namespace Gate

/-- Two gates have the same records, but for the moments in them. -/
def Alike (g g' : Gate) : Prop :=
  g.records.map EligibilityRecord.untimed = g'.records.map EligibilityRecord.untimed

namespace Alike

variable {g g' : Gate}

theorem find? (h : g.Alike g') (userId : String) :
    (g.find? userId).map EligibilityRecord.untimed =
      (g'.find? userId).map EligibilityRecord.untimed := by
  have hfind : ∀ g : Gate, (g.find? userId).map EligibilityRecord.untimed =
      (g.records.map EligibilityRecord.untimed).find? fun r => r.userId == userId := by
    intro g
    rw [List.find?_map]
    rfl
  rw [hfind, hfind, h]

theorem isEligible (h : g.Alike g') (userId : String) :
    g.isEligible userId = g'.isEligible userId := by
  have hopen : ∀ g : Gate, g.isEligible userId =
      !((g.find? userId).map EligibilityRecord.untimed).any (·.isBlocked) := by
    intro g
    rw [Option.any_map]
    rfl
  rw [hopen, hopen, h.find? userId]

theorem put (h : g.Alike g') {r r' : EligibilityRecord} (hr : r.untimed = r'.untimed) :
    (g.put r).Alike (g'.put r') := by
  have huser : r.untimed.userId = r'.untimed.userId := by rw [hr]
  replace huser : r.userId = r'.userId := huser
  have hothers : ∀ g : Gate,
      (g.records.filter fun old => old.userId != r.userId).map EligibilityRecord.untimed =
        (g.records.map EligibilityRecord.untimed).filter fun old => old.userId != r.userId := by
    intro g
    rw [List.filter_map]
    rfl
  rw [Alike, Gate.put, Gate.put, ← huser, List.map_cons, List.map_cons, hr, hothers, hothers, h]

/-- **Gates that are alike stay so at calls that are alike, and answer the same.** -/
theorem take (h : g.Alike g') {c c' : GateCall} (hc : c.untimed = c'.untimed) :
    (g.take c).1.Alike (g'.take c').1 ∧ (g.take c).2 = (g'.take c').2 := by
  cases c with
  | block userId id time =>
    cases c' with
    | approve => cases hc
    | block userId' id' time' =>
      cases hc
      exact ⟨h.put rfl, rfl⟩
  | approve userId who time =>
    cases c' with
    | block => cases hc
    | approve userId' who' time' =>
      cases hc
      have hsame := h.isEligible userId
      refine ⟨?_, by rw [Gate.take, Gate.take, approve_snd, approve_snd, hsame]⟩
      cases hopen : g.isEligible userId with
      | true =>
        rw [Gate.take, Gate.take, approve_eligible hopen, approve_eligible (hsame ▸ hopen)]
        exact h
      | false =>
        obtain ⟨r, hfind, hblocked⟩ := isEligible_eq_false_iff.mp hopen
        obtain ⟨r', hfind', hblocked'⟩ := isEligible_eq_false_iff.mp (hsame ▸ hopen)
        have hr := h.find? userId
        rw [hfind, hfind', Option.map_some, Option.map_some, Option.some.injEq] at hr
        have happroved :=
          congrArg (fun r : EligibilityRecord => (r.approve who default).untimed) hr
        rw [Gate.take, Gate.take, approve_blocked hfind hblocked, approve_blocked hfind' hblocked']
        exact h.put happroved

/-- The lists of blocked users are the same, but for moments. -/
theorem blocked (h : g.Alike g') :
    g.blocked.map EligibilityRecord.untimed = g'.blocked.map EligibilityRecord.untimed := by
  have hsorted : ∀ g : Gate, g.blocked.map EligibilityRecord.untimed =
      ((g.records.map EligibilityRecord.untimed).filter (·.isBlocked)).mergeSort
        fun a b => a.userId ≤ b.userId := by
    intro g
    rw [List.filter_map]
    exact List.map_mergeSort fun _ _ _ _ => rfl
  rw [hsorted, hsorted, h]

/-- **The moments of calls make no difference.** -/
theorem taken (h : g.Alike g') {calls calls' : List GateCall}
    (hcalls : calls.map GateCall.untimed = calls'.map GateCall.untimed) :
    (g.taken calls).Alike (g'.taken calls') ∧ g.answers calls = g'.answers calls' := by
  induction calls generalizing g g' calls' with
  | nil =>
    rw [List.map_nil, eq_comm, List.map_eq_nil_iff] at hcalls
    subst hcalls
    exact ⟨h, rfl⟩
  | cons c calls ih =>
    rw [List.map_cons, eq_comm, List.map_eq_cons_iff] at hcalls
    obtain ⟨c', rest, rfl, hc, hrest⟩ := hcalls
    obtain ⟨hnext, hanswer⟩ := h.take hc.symm
    obtain ⟨hend, hanswers⟩ := ih hnext hrest.symm
    refine ⟨hend, ?_⟩
    rw [answers, answers, hanswer, hanswers]

end Alike

end Gate

end Invigilator
