import Invigilator.Proofs.Service.Invariant
import Invigilator.Proofs.Service.Retake
import Invigilator.Proofs.Service.Seat

/-!
# Approvals and resets

Two things are for administrators to decide: that a user who is kept out may start again, and that
practice lives come back before their time. `Service.Within` says what has become of a service in
which both were done for some users at most. Candidates, scribes and clocks change a great deal,
but the gate only gets tighter by it, and the practice lives are only looked at and lost.
-/

namespace Invigilator

/-! ## The gate -/

namespace Gate

variable {g g' g'' : Gate}

/-- Who was kept out is kept out still, and no approval is new. -/
structure Tighter (g g' : Gate) : Prop where
  approvals : ∀ r ∈ g'.records, r.status = .approved → r ∈ g.records
  barred : ∀ userId, g.isEligible userId = false → g'.isEligible userId = false

theorem Tighter.refl (g : Gate) : g.Tighter g := ⟨fun _ hr _ => hr, fun _ h => h⟩

theorem Tighter.trans (h : g.Tighter g') (h' : g'.Tighter g'') : g.Tighter g'' where
  approvals r hr happroved := h.approvals r (h'.approvals r hr happroved) happroved
  barred userId hbarred := h'.barred userId (h.barred userId hbarred)

theorem Tighter.of_eq (h : g' = g) : g.Tighter g' := h ▸ .refl g

theorem mem_put {r r' : EligibilityRecord} (h : r' ∈ (g.put r).records) :
    r' = r ∨ r' ∈ g.records :=
  (List.mem_cons.mp h).imp_right List.mem_of_mem_filter

/-- What is filed at the gate is a block, if anything. -/
theorem tighter_file (g : Gate) (time : Stamp) (w : RecordWrite) : g.Tighter (g.file time w) where
  approvals r hr happroved := by
    cases w with
    | blockUser userId id =>
      rcases mem_put hr with rfl | hr
      · cases happroved
      · exact hr
    | createSession | createAnswer | updateSession | updateAnswer | recordViolation => exact hr
  barred _ hbarred := isEligible_file hbarred time w

end Gate

/-! ## The hall -/

namespace Hall

variable {h g : Hall}

/-- The gate of the hall. -/
abbrev gate (h : Hall) : Gate := h.courier.records.gate

theorem tighter_work (h : Hall) (id : String) : h.gate.Tighter (h.work id).gate := by
  rw [show h.work id = h.toil id ((h.scribe id).queue.length + 2) from rfl, gate, gate,
    courier_toil]
  refine Scribe.workFor_induction (P := fun _ c => h.gate.Tighter c.records.gate)
    (fun _ _ hc => hc) (fun _ c e _ hc => hc.trans ?_) _ (.refl _)
  rcases c.gate_carry h.time e.write with hgate | hgate
  · exact .of_eq hgate
  · rw [hgate]
    exact c.records.gate.tighter_file h.time e.write

/-- A turn hands writes over, and the scribe carries out what it can. -/
theorem tighter_settle (h : Hall) (id : String) (seat : Seat) (state : Sitting × Shelf)
    (actions : List Action) : h.gate.Tighter (h.settle id seat state actions).gate := by
  have hdone := (h.draw.hands_performed id actions).gate
  unfold settle
  dsimp only
  refine .trans (.of_eq ?_) (tighter_work _ id)
  split
  · exact hdone
  · exact hdone

theorem tighter_tell (h : Hall) (id : String) (x : Stimulus) :
    h.gate.Tighter (h.tell id x).2.gate := by
  unfold tell
  split
  · exact .refl _
  · exact h.tighter_settle ..

theorem tighter_launch {seat : Seat} (hlaunch : h.launch seat = .ok g) :
    h.gate.Tighter g.gate := by
  unfold launch at hlaunch
  dsimp only at hlaunch
  split at hlaunch
  · cases hlaunch
  · rename_i registry _
    obtain rfl := Except.ok.inj hlaunch
    exact tighter_settle { h with registry } _ _ _ _

theorem tighter_advance (h : Hall) (ms : Nat) : h.gate.Tighter (h.advance ms).gate := by
  refine advance_induction (P := fun g => h.gate.Tighter g.gate) (fun _ _ hg => hg)
    (fun g d hg => hg.trans ?_) (.refl _) ms
  cases d with
  | tick id => exact .trans (.of_eq (g.hands_moveTick id).gate) (tighter_tell _ id .tick)
  | grace id => exact g.tighter_tell id .graceElapsed
  | errand id => exact g.tighter_work id

end Hall

/-! ## The service -/

namespace Service

variable {σ : Type} {mayApprove : String → String → Prop} {mayReset : String → Prop}
  {s s' : Service σ}

/-- The store for practice lives after some contacts. -/
def livesAfter (s : Service σ) (contacts : List Contact) : σ :=
  contacts.foldl (s.practice.after (practiceRules s.config)) s.lives

/-- What has become of a service in which only such retakes were approved, by a user for another,
and only for such users lives were given back. -/
structure Within (mayApprove : String → String → Prop) (mayReset : String → Prop)
    (s s' : Service σ) : Prop where
  practice : s'.practice = s.practice
  config : s'.config = s.config
  /-- An approval that is on record is an old one, or names who was allowed to give it. -/
  approvals : ∀ r ∈ s'.hall.gate.records, r.status = .approved → r ∈ s.hall.gate.records ∨
    ∃ approver, mayApprove r.userId approver ∧ r.approvedBy = some approver
  /-- Nobody is let in but by an approval. -/
  admissions : ∀ userId, s.hall.gate.isEligible userId = false →
    s'.hall.gate.isEligible userId = true → ∃ approver, mayApprove userId approver
  /-- All that happened to the practice lives is that they were looked at and lost, and given
  back where that was allowed. -/
  lives : ∃ contacts, s'.lives = s.livesAfter contacts ∧
    ∀ c ∈ contacts, ∀ bucket, c.resets? = some bucket →
      ∃ userId, mayReset userId ∧ bucket = .forUser (some userId)

namespace Within

theorem refl (s : Service σ) : Within mayApprove mayReset s s where
  practice := rfl
  config := rfl
  approvals _ hr _ := .inl hr
  admissions userId hbarred heligible := by
    rw [hbarred] at heligible
    cases heligible
  lives := ⟨[], rfl, List.forall_mem_nil _⟩

/-- What is within bounds is within wider ones. -/
theorem mono (h : Within mayApprove mayReset s s') {mayApprove' : String → String → Prop}
    {mayReset' : String → Prop} (happrove : ∀ u a, mayApprove u a → mayApprove' u a)
    (hreset : ∀ u, mayReset u → mayReset' u) : Within mayApprove' mayReset' s s' where
  practice := h.practice
  config := h.config
  approvals r hr happroved := (h.approvals r hr happroved).imp_right fun ⟨approver, hmay, hby⟩ =>
    ⟨approver, happrove _ _ hmay, hby⟩
  admissions userId hbarred heligible :=
    (h.admissions userId hbarred heligible).imp fun _ => happrove _ _
  lives := by
    obtain ⟨contacts, hlives, hresets⟩ := h.lives
    refine ⟨contacts, hlives, fun c hc bucket hbucket => ?_⟩
    obtain ⟨userId, hmay, hbucket⟩ := hresets c hc bucket hbucket
    exact ⟨userId, hreset userId hmay, hbucket⟩

/-- The hall changes, and its gate gets tighter. -/
theorem tighter (h : Within mayApprove mayReset s s') {hall : Hall}
    (ht : s'.hall.gate.Tighter hall.gate) : Within mayApprove mayReset s { s' with hall } where
  practice := h.practice
  config := h.config
  approvals r hr happroved := h.approvals r (ht.approvals r hr happroved) happroved
  admissions userId hbarred heligible := by
    refine h.admissions userId hbarred ?_
    by_contra hbefore
    rw [ht.barred userId (Bool.not_eq_true _ ▸ hbefore)] at heligible
    cases heligible
  lives := h.lives

theorem contact (h : Within mayApprove mayReset s s') {c : Contact}
    (hc : ∀ bucket, c.resets? = some bucket →
      ∃ userId, mayReset userId ∧ bucket = .forUser (some userId)) :
    Within mayApprove mayReset s (s'.contacted c) where
  practice := h.practice
  config := h.config
  approvals := h.approvals
  admissions := h.admissions
  lives := by
    obtain ⟨contacts, hlives, hresets⟩ := h.lives
    refine ⟨contacts ++ [c], ?_, fun c' hc' => ?_⟩
    · rw [livesAfter, List.foldl_concat, ← livesAfter, ← hlives, contacted, h.practice, h.config]
    · rcases List.mem_append.mp hc' with hc' | hc'
      · exact hresets c' hc'
      · exact List.mem_singleton.mp hc' ▸ hc

/-- A retake is approved that may be. -/
theorem approve (h : Within mayApprove mayReset s s') {userId approver : String}
    (hmay : mayApprove userId approver) (time : Stamp) :
    Within mayApprove mayReset s (s'.gated (s'.hall.gate.approve userId approver time).1) where
  practice := h.practice
  config := h.config
  approvals r hr happroved := by
    change r ∈ (s'.hall.gate.approve userId approver time).1.records at hr
    unfold Gate.approve at hr
    split at hr
    · rename_i was hfind
      split at hr
      · rcases Gate.mem_put hr with rfl | hr
        · exact .inr ⟨approver, (Gate.userId_of_find? hfind).symm ▸ hmay, rfl⟩
        · exact h.approvals r hr happroved
      · exact h.approvals r hr happroved
    · exact h.approvals r hr happroved
  admissions other hbarred heligible := by
    by_cases hbefore : s'.hall.gate.isEligible other = true
    · exact h.admissions other hbarred hbefore
    · -- an approval makes nobody eligible but the user that it is for
      by_cases hsame : userId = other
      · exact ⟨approver, hsame ▸ hmay⟩
      · have hstill := Gate.isEligible_approve (Bool.not_eq_true _ ▸ hbefore) userId approver time
          fun h => absurd h hsame
        exact absurd (heligible.symm.trans hstill) nofun
  lives := h.lives

end Within

/-- **Most that happens is within any bounds.** -/
theorem stable_within (s : Service σ) : Stable (Within mayApprove mayReset s) where
  jot _ _ h := h.tighter (.refl _)
  draw _ h := h.tighter (.refl _)
  relays _ _ h := h.tighter (.refl _)
  tell s' id x _ h := h.tighter (s'.hall.tighter_tell id x)
  advance s' ms h := h.tighter (s'.hall.tighter_advance ms)
  contact _ c hc h := h.contact fun bucket hreset => by
    rw [hc] at hreset
    cases hreset
  weather _ _ _ _ h := h.tighter (.refl _)

theorem within_begin (s : Service σ) (userId : String) (r : StartRequest) :
    (begin userId r : Call σ StartResponse).Preserves (Within mayApprove mayReset s) := by
  intro s' h
  obtain ⟨notes, ⟨fault, hrun⟩ | ⟨response, more, seat, hall, hrun, hlaunch, -⟩⟩ :=
    begin_cases userId r s'
  · rw [hrun]
    exact h.tighter (.refl _)
  · rw [hrun]
    have ht : ((s'.hall.jot notes).draw).gate.Tighter hall.gate := Hall.tighter_launch hlaunch
    exact h.tighter ht

theorem within_enrol (s : Service σ) (userId : String) (r : StartRequest) :
    (enrol userId r : Call σ StartResponse).Preserves (Within mayApprove mayReset s) :=
  Call.preserves_bind (preserves_checkEligible (stable_within s) userId) fun _ =>
    within_begin s userId r

theorem within_start (s : Service σ) (userId : String) (r : StartRequest) :
    (start userId r : Call σ StartResponse).Preserves (Within mayApprove mayReset s) :=
  Call.preserves_bind (preserves_checkFree userId) fun _ => within_enrol s userId r

end Service

end Invigilator
