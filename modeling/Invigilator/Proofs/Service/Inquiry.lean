import Invigilator.Proofs.Records.Mirror

/-!
# What is asked of sessions

The seven calls that name a session and its candidate, as one type. Each looks for the session
among those that run, and if it is not there in the archive, and if it has left that in the
records; and each looks at the owner of what it finds before it does anything else.

A stranger to a session is somebody who owns nothing of what is kept under its id. Whatever a
stranger asks, the answer is a refusal, and nothing has happened.
-/

namespace Invigilator

/-- What can be asked of a session. -/
inductive Inquiry where
  | snapshot
  | score
  | updateAnswer (index : Nat) (code : String)
  | recordRun (index : Nat) (result : RunResult)
  | signal (signal : Signal)
  | submit
  | subscribe (eager : Bool)
deriving DecidableEq, Repr, Inhabited

/-- What can be told of a session. -/
inductive Told where
  | snapshot (snapshot : Snapshot)
  | score (score : Score)
  | answer (answer : Answer)
  | outcome (outcome : SignalOutcome)
  | subscription (number : Nat)
deriving Inhabited

/-- The call that an inquiry makes. -/
def Inquiry.call {σ : Type} (id userId : String) : Inquiry → Call σ Told
  | .snapshot => do return .snapshot (← Service.snapshot id userId)
  | .score => do return .score (← Service.score id userId)
  | .updateAnswer index code => do return .answer (← Service.updateAnswer id userId index code)
  | .recordRun index result => do return .answer (← Service.recordRun id userId index result)
  | .signal x => do return .outcome (← Service.signal id userId x)
  | .submit => do return .snapshot (← Service.submit id userId)
  | .subscribe eager => do return .subscription (← Service.subscribe id userId eager)

/-- The user owns nothing of what is kept under the id of a session. -/
structure Hall.Stranger (h : Hall) (id userId : String) : Prop where
  running : ∀ r, h.registry.find? id = some r → r.userId ≠ userId
  archived : ∀ snapshot, h.registry.archive.find? id = some snapshot →
    snapshot.session.userId ≠ userId
  recorded : ∀ session ∈ h.courier.records.cabinet.sessions, session.id = id →
    session.userId ≠ userId

/-- Why strangers are refused: for what is found under the id of the session, or because nothing
is. -/
def Hall.refusal (h : Hall) (id : String) : Fault :=
  if (h.registry.find? id).isSome || (h.registry.archive.find? id).isSome then .forbidden
  else
    match h.courier.records.cabinet.session? id with
    | .error fault => .backend fault
    | .ok none => .sessionNotFound
    | .ok (some _) => .forbidden

namespace Service

variable {σ : Type} {s : Service σ} {id userId : String}

theorem run_isRunningFor_gone (h : s.hall.registry.find? id = none) :
    (isRunningFor id userId).run s = (.ok false, s) := by
  simp only [isRunningFor, Call.run, Call.service, bind, Call.andThen, h]
  rfl

theorem run_isRunningFor_stranger {r : Running Seat} (h : s.hall.registry.find? id = some r)
    (hr : r.userId ≠ userId) : (isRunningFor id userId).run s = (.error .forbidden, s) := by
  simp only [isRunningFor, Call.run, Call.service, bind, Call.andThen, h, if_neg hr]
  rfl

theorem run_isRunningFor_owner {r : Running Seat} (h : s.hall.registry.find? id = some r)
    (hr : r.userId = userId) : (isRunningFor id userId).run s = (.ok true, s) := by
  simp only [isRunningFor, Call.run, Call.service, bind, Call.andThen, h, if_pos hr]
  rfl

/-- What the records say of a session is read whole, or there is nothing to read, or the cabinet
is switched off. -/
theorem run_recorded_cases (s : Service σ) (id : String) :
    (∃ snapshot, (recorded id).run s = (.ok snapshot, s) ∧
      s.hall.courier.records.cabinet.session? id = .ok (some snapshot.session)) ∨
    ((recorded id).run s = (.error .sessionNotFound, s) ∧
      s.hall.courier.records.cabinet.session? id = .ok none) ∨
    ∃ fault, (recorded id).run s = (.error (.backend fault), s) ∧
      s.hall.courier.records.cabinet.session? id = .error fault := by
  cases havailable : s.hall.courier.records.cabinet.available with
  | false =>
    refine .inr (.inr ⟨Cabinet.unavailable, ?_, ?_⟩)
    · simp [recorded, Call.run_bind, Cabinet.session?, Cabinet.guarded, havailable]
      rfl
    · simp [Cabinet.session?, Cabinet.guarded, havailable]
  | true =>
    cases hfind : s.hall.courier.records.cabinet.sessions.find? fun s => s.id == id with
    | none =>
      refine .inr (.inl ⟨?_, ?_⟩)
      · simp [recorded, Call.run_bind, Cabinet.session?, Cabinet.guarded, havailable, hfind]
      · simp [Cabinet.session?, Cabinet.guarded, havailable, hfind]
    | some session =>
      have hsession : s.hall.courier.records.cabinet.session? id = .ok (some session) := by
        simp [Cabinet.session?, Cabinet.guarded, havailable, hfind]
      obtain ⟨answers, hanswers⟩ : ∃ answers,
          s.hall.courier.records.cabinet.answersOf id = .ok answers := ⟨_, if_pos havailable⟩
      obtain ⟨violations, hviolations⟩ : ∃ violations,
          s.hall.courier.records.cabinet.violationsOf id = .ok violations :=
        ⟨_, if_pos havailable⟩
      refine .inl ⟨{ session, answers, violations, timer := none, pendingViolation := none }, ?_,
        hsession⟩
      simp [recorded, Call.run_bind, hsession, hanswers, hviolations]

/-- Where a session is not running, a stranger is refused for what the archive or the records hold
of it. -/
theorem run_finished_stranger (h : s.hall.Stranger id userId)
    (hgone : s.hall.registry.find? id = none) :
    (finished id userId).run s = (.error (s.hall.refusal id), s) := by
  cases harchived : s.hall.registry.archive.find? id with
  | some snapshot =>
    have hrefusal : s.hall.refusal id = .forbidden := by simp [Hall.refusal, harchived]
    simp [finished, Call.run_bind, harchived, h.archived snapshot harchived, hrefusal]
  | none =>
    rcases run_recorded_cases s id with
      ⟨snapshot, hrun, hsession⟩ | ⟨hrun, hsession⟩ | ⟨fault, hrun, hsession⟩
    · have hrefusal : s.hall.refusal id = .forbidden := by
        simp [Hall.refusal, hgone, harchived, hsession]
      -- what the cabinet finds is one of its sessions, and none of them is the stranger's
      have hfound : s.hall.courier.records.cabinet.sessions.find? (fun s => s.id == id) =
          some snapshot.session := by
        unfold Cabinet.session? Cabinet.guarded at hsession
        split at hsession
        · exact Except.ok.inj hsession
        · cases hsession
      have howner : snapshot.session.userId ≠ userId :=
        h.recorded _ (List.mem_of_find?_eq_some hfound) (by simpa using List.find?_some hfound)
      simp [finished, Call.run_bind, harchived, hrun, howner, hrefusal]
    · have hrefusal : s.hall.refusal id = .sessionNotFound := by
        simp [Hall.refusal, hgone, harchived, hsession]
      simp [finished, Call.run_bind, harchived, hrun, hrefusal]
    · have hrefusal : s.hall.refusal id = .backend fault := by
        simp [Hall.refusal, hgone, harchived, hsession]
      simp [finished, Call.run_bind, harchived, hrun, hrefusal]

end Service

namespace Inquiry

variable {σ : Type} {s : Service σ} {id userId : String}

/-- Who is refused is refused before anything else. -/
theorem run_refused {fault : Fault}
    (h : (Service.isRunningFor id userId).run s = (.error fault, s)) (inquiry : Inquiry) :
    (inquiry.call id userId).run s = (.error fault, s) := by
  cases inquiry <;>
    simp only [Inquiry.call, Service.snapshot, Service.score, Service.updateAnswer,
      Service.recordRun, Service.change, Service.signal, Service.submit, Service.subscribe,
      Service.tell, Call.run_bind, h]

/-- Where the session does not run, who is refused its end is told nothing else. -/
theorem run_refused_end {fault : Fault}
    (h : (Service.isRunningFor id userId).run s = (.ok false, s))
    (hfinished : (Service.finished id userId).run s = (.error fault, s)) (inquiry : Inquiry) :
    (inquiry.call id userId).run s = (.error fault, s) := by
  cases inquiry <;>
    simp [Inquiry.call, Service.snapshot, Service.score, Service.updateAnswer, Service.recordRun,
      Service.change, Service.signal, Service.submit, Service.subscribe, Service.tell,
      Call.run_bind, h, hfinished]

/-- **A stranger to a session is refused, and nothing happens.** -/
theorem refused (h : s.hall.Stranger id userId) (inquiry : Inquiry) :
    (inquiry.call id userId).run s = (.error (s.hall.refusal id), s) := by
  cases hfind : s.hall.registry.find? id with
  | some r =>
    have hrefusal : s.hall.refusal id = .forbidden := by simp [Hall.refusal, hfind]
    rw [hrefusal]
    exact run_refused (Service.run_isRunningFor_stranger hfind (h.running r hfind)) inquiry
  | none =>
    exact run_refused_end (Service.run_isRunningFor_gone hfind)
      (Service.run_finished_stranger h hfind) inquiry

end Inquiry

end Invigilator
