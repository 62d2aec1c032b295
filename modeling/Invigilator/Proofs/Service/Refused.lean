import Invigilator.Proofs.Service.Handover
import Invigilator.Proofs.Service.Notes

/-!
# A refused start leaves no trace

A start goes a long way before it is known whether a session comes of it: it asks two backends,
chooses questions, and makes a whole seat, which may be turned away at the door because of another
start of the same user. Whatever it is that refuses it, the floor is as if the start had never been
made, but for lines in the log (`forget_refused`).

That is said of a run and of the same run without the deeds of the start. The deeds of a start that
never gets a seat change nothing that is not forgotten (`forget_own`), and what is forgotten makes
no difference to the deeds of others (`forget_act`), since nobody reads notes and nobody looks at
the starts of others.

Backends are other programs here, which may fail or reply what they like to a start.
-/

namespace Invigilator

/-- A note is about exams, and not a line of the log or an operation of a backend. -/
def Note.isMeasure : Note → Bool
  | line .. => false
  | count (.httpRequests ..) => false
  | count (.storeOperations ..) => false
  | count (.sessions _) => true
  | count (.violations _) => true
  | count (.gracePeriods _) => true
  | count (.livesLost _) => true
  | move .. => true

/-- None of some notes is about exams. -/
def Note.Modest (notes : List Note) : Prop := ∀ n ∈ notes, n.isMeasure = false

instance (notes : List Note) : Decidable (Note.Modest notes) :=
  inferInstanceAs (Decidable (∀ n ∈ notes, n.isMeasure = false))

/-! ## Backends that reply as they like -/

namespace Service

open Call

variable {σ : Type}

/-- The second question to a start, with the reply of the backend that knows the answer. -/
def checkEligibleBy (reply : Except BackendFault Bool) (userId : String) : Call σ Unit := do
  if ← ofBackend reply then pure ()
  else
    jot [.info ("Exam start refused, user " ++ userId ++ " is not eligible")]
    fail .ineligible

/-- The choice of questions, with the reply of the backend that keeps them. -/
def chooseQuestionsBy (reply : Except BackendFault (List Question)) (r : StartRequest) :
    Call σ (Trio Question) := do
  let pool ← ofBackend reply
  let s ← service
  jot (samplingNotes pool)
  match Selection.choose? pool (s.hall.source.questions s.hall.drawn) with
  | some questions => pure questions
  | none =>
    jot [.warn ("Question pool exhausted: language=" ++ r.language.name ++ ", topic=" ++
      topicText r.wantedTopic ++ ", available=" ++ Decimal.text pool.length)]
    fail (.selectionExhausted r.language (r.wantedTopic.getD "any") pool.length)

/-- The gate of the service is one that never fails. -/
theorem run_checkEligible_eq (userId : String) (s : Service σ) :
    (checkEligible userId).run s =
      (checkEligibleBy (.ok (s.hall.courier.records.gate.isEligible userId)) userId).run s := rfl

theorem deaf_checkEligibleBy (reply : Except BackendFault Bool) (userId : String) :
    (checkEligibleBy reply userId : Call σ Unit).Deaf := by
  refine deaf_bind (deaf_ofBackend reply) fun eligible => ?_
  split
  · exact deaf_pure ()
  · exact deaf_bind (deaf_jot _) fun _ => deaf_fail _

theorem deaf_chooseQuestionsBy (reply : Except BackendFault (List Question)) (r : StartRequest) :
    (chooseQuestionsBy reply r : Call σ (Trio Question)).Deaf := by
  refine deaf_bind (deaf_ofBackend reply) fun pool => deaf_service (fun s => ?_) fun _ _ => rfl
  refine deaf_bind (deaf_jot _) fun _ => ?_
  split
  · exact deaf_pure _
  · exact deaf_bind (deaf_jot _) fun _ => deaf_fail _

end Service

/-! ## Calls that leave next to nothing -/

namespace Call

variable {σ α β : Type}

/-- The call leaves notes at most, and none about exams. -/
def Quiet (c : Call σ α) : Prop :=
  ∀ s, ∃ notes, Note.Modest notes ∧ (c.run s).2 = { s with hall := s.hall.jot notes }

/-- The call leaves notes at most if it fails. -/
def Discreet (c : Call σ α) : Prop :=
  ∀ s fault, (c.run s).1 = .error fault →
    ∃ notes, Note.Modest notes ∧ (c.run s).2 = { s with hall := s.hall.jot notes }

theorem quiet_same {c : Call σ α} (h : ∀ s, (c.run s).2 = s) : c.Quiet :=
  fun s => ⟨[], List.forall_mem_nil _, h s⟩

theorem quiet_jot {notes : List Note} (h : Note.Modest notes) : (jot notes : Call σ Unit).Quiet :=
  fun _ => ⟨notes, h, rfl⟩

theorem quiet_ofBackend (result : Except BackendFault α) : (ofBackend result : Call σ α).Quiet := by
  cases result <;> exact quiet_same fun _ => rfl

theorem quiet_bind {c : Call σ α} {f : α → Call σ β} (hc : c.Quiet) (hf : ∀ x, (f x).Quiet) :
    (c >>= f).Quiet := by
  intro s
  obtain ⟨notes, hnotes, hs⟩ := hc s
  rw [run_bind]
  generalize c.run s = r at hs
  obtain ⟨_ | x, s'⟩ := r
  · exact ⟨notes, hnotes, hs⟩
  · obtain ⟨more, hmore, hs'⟩ := hf x s'
    refine ⟨notes ++ more, List.forall_mem_append.mpr ⟨hnotes, hmore⟩, hs'.trans ?_⟩
    obtain rfl : s' = { s with hall := s.hall.jot notes } := hs
    rw [← Service.jot_jot]

/-- Only the last of some calls may leave more than notes when it succeeds. -/
theorem discreet_bind {c : Call σ α} {f : α → Call σ β} (hc : c.Quiet)
    (hf : ∀ x, (f x).Discreet) : (c >>= f).Discreet := by
  intro s fault
  obtain ⟨notes, hnotes, hs⟩ := hc s
  rw [run_bind]
  generalize c.run s = r at hs
  obtain ⟨_ | x, s'⟩ := r
  · exact fun _ => ⟨notes, hnotes, hs⟩
  · intro hfault
    obtain ⟨more, hmore, hs'⟩ := hf x s' fault hfault
    refine ⟨notes ++ more, List.forall_mem_append.mpr ⟨hnotes, hmore⟩, hs'.trans ?_⟩
    obtain rfl : s' = { s with hall := s.hall.jot notes } := hs
    rw [← Service.jot_jot]

end Call

namespace Service

open Call

variable {σ : Type}

theorem quiet_checkFree (userId : String) : (checkFree userId : Call σ Unit).Quiet :=
  quiet_same fun s => by rw [run_checkFree]

theorem quiet_checkEligibleBy (reply : Except BackendFault Bool) (userId : String) :
    (checkEligibleBy reply userId : Call σ Unit).Quiet := by
  refine quiet_bind (quiet_ofBackend reply) fun eligible => ?_
  split
  · exact quiet_same fun _ => rfl
  · exact quiet_bind (quiet_jot (List.forall_mem_singleton.mpr rfl)) fun _ =>
      quiet_same fun _ => rfl

theorem quiet_checkEligible (userId : String) : (checkEligible userId : Call σ Unit).Quiet := by
  intro s
  rw [run_checkEligible_eq]
  exact quiet_checkEligibleBy _ userId s

theorem modest_samplingNotes (pool : List Question) : Note.Modest (samplingNotes pool) := by
  unfold samplingNotes
  split
  · exact List.forall_mem_singleton.mpr rfl
  · exact List.forall_mem_nil _

theorem quiet_chooseQuestionsBy (reply : Except BackendFault (List Question)) (r : StartRequest) :
    (chooseQuestionsBy reply r : Call σ (Trio Question)).Quiet := by
  refine quiet_bind (quiet_ofBackend reply) fun pool => quiet_bind (quiet_same fun _ => rfl)
    fun s => quiet_bind (quiet_jot (modest_samplingNotes pool)) fun _ => ?_
  split
  · exact quiet_same fun _ => rfl
  · exact quiet_bind (quiet_jot (List.forall_mem_singleton.mpr rfl)) fun _ =>
      quiet_same fun _ => rfl

end Service

namespace Floor

open Call Service

variable {σ : Type}

/-- What a start does when its two questions are answered, with the reply of the backend that keeps
the questions. -/
def admissionBy (reply : Except BackendFault (List Question)) (userId : String)
    (r : StartRequest) : Call σ StartResponse := do
  let questions ← chooseQuestionsBy reply r
  admitWith (fun settings h => newSeat settings h userId r.language questions) r questions

/-- The catalog of the service is one that never fails. -/
theorem run_admission_eq (userId : String) (r : StartRequest) (s : Service σ) :
    (admission userId r).run s =
      (admissionBy (.ok (s.catalog.pool r.language r.wantedTopic)) userId r).run s := rfl

theorem deaf_admissionBy (reply : Except BackendFault (List Question)) (userId : String)
    (r : StartRequest) : (admissionBy reply userId r : Call σ StartResponse).Deaf :=
  deaf_bind (deaf_chooseQuestionsBy reply r) fun _ => deaf_admitWith (fun _ _ _ => rfl) r _

/-- A seat that is turned away at the door leaves nothing. -/
theorem discreet_admitWith (make : Settings → Hall → Seat × List Directive) (r : StartRequest)
    (questions : Trio Question) :
    (admitWith make r questions : Call σ StartResponse).Discreet := by
  intro s fault hfault
  rcases admitWith_cases make r questions s with ⟨existing, -, hrun⟩ | ⟨response, -, hrun, -⟩
  · exact ⟨[], List.forall_mem_nil _, congrArg Prod.snd hrun⟩
  · rw [hrun] at hfault
    cases hfault

theorem discreet_admissionBy (reply : Except BackendFault (List Question)) (userId : String)
    (r : StartRequest) : (admissionBy reply userId r : Call σ StartResponse).Discreet :=
  discreet_bind (quiet_chooseQuestionsBy reply r) fun _ => discreet_admitWith _ _ _

theorem discreet_admission (userId : String) (r : StartRequest) :
    (admission userId r : Call σ StartResponse).Discreet := by
  intro s
  rw [run_admission_eq]
  exact discreet_admissionBy _ userId r s

end Floor

/-! ## Deeds -/

/-- Something that is done on the floor, or befalls it. -/
inductive Deed (σ : Type) where
  | move (m : Move)
  /-- A backend replies to the second question of a start, and notes what it did for that. -/
  | gate (k : Nat) (reply : Except BackendFault Bool) (notes : List Note)
  /-- A backend replies to a start with the questions it has, and notes what it did for that. -/
  | pool (k : Nat) (reply : Except BackendFault (List Question)) (notes : List Note)
  /-- Somebody is at the store for practice lives. -/
  | practise (a : Attempt σ Unit)
  /-- Every session is shut down. -/
  | shutdown

namespace Deed

variable {σ : Type}

/-- The start that a deed belongs to. -/
def start? : Deed σ → Option Nat
  | move m => m.start?
  | gate k _ _ => some k
  | pool k _ _ => some k
  | practise _ => none
  | shutdown => none

/-- What a backend notes of a start is not about exams. -/
def Modest : Deed σ → Prop
  | gate _ _ notes => Note.Modest notes
  | pool _ _ notes => Note.Modest notes
  | move _ | practise _ | shutdown => True

instance : DecidablePred (@Modest σ)
  | gate _ _ notes => inferInstanceAs (Decidable (Note.Modest notes))
  | pool _ _ notes => inferInstanceAs (Decidable (Note.Modest notes))
  | move _ => .isTrue trivial
  | practise _ => .isTrue trivial
  | shutdown => .isTrue trivial

end Deed

namespace EnrolmentStage

/-- A seat has been launched for a start. -/
def isSeated : EnrolmentStage → Bool
  | checking => false
  | asking => false
  | entering => false
  | launched _ => true
  | done (.ok _) => true
  | done (.error _) => false

end EnrolmentStage

namespace Floor

open Call Service

variable {σ : Type}

/-- The floor after a deed. -/
def act (f : Floor σ) : Deed σ → Floor σ
  | .move m => f.step m
  | .gate k reply notes => f.askBy k fun e => do
    jot notes
    checkEligibleBy reply e.userId
  | .pool k reply notes => f.enterBy k fun e => do
    jot notes
    admissionBy reply e.userId e.request
  | .practise a => { f with service := ((onLives a).run f.service).2 }
  | .shutdown => f.onHall Hall.shutdown

/-- The floor after some deeds, in order. -/
def acted (f : Floor σ) (deeds : List (Deed σ)) : Floor σ := deeds.foldl act f

theorem acted_concat (f : Floor σ) (deeds : List (Deed σ)) (d : Deed σ) :
    f.acted (deeds ++ [d]) = (f.acted deeds).act d := List.foldl_append

/-- Why a start was refused. -/
def refused? (f : Floor σ) (k : Nat) : Option Fault :=
  match (f.enrolments k).map Enrolment.stage with
  | some (.done (.error fault)) => some fault
  | _ => none

/-- A start has a seat launched. -/
def isSeated (f : Floor σ) (k : Nat) : Bool := (f.enrolments k).any fun e => e.stage.isSeated

/-- The floor without a start, and without the notes that are not about exams. -/
def forget (f : Floor σ) (k : Nat) : Floor σ :=
  { f with
    service := { f.service with
      hall := { f.service.hall with notes := f.service.hall.notes.filter Note.isMeasure } }
    enrolments := Function.update f.enrolments k none }

/-- The floor without a start, and without any notes. -/
def bare (f : Floor σ) (k : Nat) : Floor σ :=
  { f with
    service := { f.service with hall := { f.service.hall with notes := [] } }
    enrolments := Function.update f.enrolments k none }

/-- A floor is a bare one with a start and with notes. -/
theorem bare_beside (f : Floor σ) (k : Nat) :
    (f.bare k).beside k (f.enrolments k) f.hall.notes = f := by
  have hsame : Function.update (Function.update f.enrolments k none) k (f.enrolments k) =
      f.enrolments := by rw [Function.update_idem, Function.update_eq_self]
  exact congrArg (fun enrolments => { f with enrolments }) hsame

theorem beside_bare (f : Floor σ) (k : Nat) (e : Option Enrolment) (old : List Note) :
    (f.beside k e old).bare k = f.bare k := by
  have hsame : Function.update (Function.update f.enrolments k e) k none =
      Function.update f.enrolments k none := Function.update_idem ..
  exact congrArg (fun enrolments => { f.bare k with enrolments }) hsame

theorem bare_forget (f : Floor σ) (k : Nat) : (f.forget k).bare k = f.bare k := by
  have hsame : Function.update (Function.update f.enrolments k none) k none =
      Function.update f.enrolments k none := Function.update_idem ..
  exact congrArg (fun enrolments => { f.bare k with enrolments }) hsame

/-- Floors are the same, but for what is forgotten, if they are bare the same and have the same
notes about exams. -/
theorem forget_eq_iff {f g : Floor σ} {k : Nat} : f.forget k = g.forget k ↔
    f.bare k = g.bare k ∧
      f.hall.notes.filter Note.isMeasure = g.hall.notes.filter Note.isMeasure := by
  constructor
  · intro h
    refine ⟨?_, congrArg (fun f : Floor σ => f.hall.notes) h⟩
    rw [← bare_forget f, ← bare_forget g, h]
  · rintro ⟨hbare, hnotes⟩
    have hforget : ∀ f : Floor σ, f.forget k = { f.bare k with
        service := { (f.bare k).service with
          hall := { (f.bare k).hall with notes := f.hall.notes.filter Note.isMeasure } } } :=
      fun _ => rfl
    rw [hforget f, hforget g, hbare, hnotes]

theorem beside_act (f : Floor σ) {k : Nat} (e : Option Enrolment) (old : List Note) {d : Deed σ}
    (hd : d.start? ≠ some k) : (f.beside k e old).act d = (f.act d).beside k e old := by
  cases d with
  | move m => exact beside_step f e old hd
  | gate j reply notes =>
    exact beside_askBy f e old (fun hj => hd (congrArg some hj)) fun x =>
      deaf_bind (deaf_jot notes) fun _ => deaf_checkEligibleBy reply x.userId
  | pool j reply notes =>
    exact beside_enterBy f e old (fun hj => hd (congrArg some hj)) fun x =>
      deaf_bind (deaf_jot notes) fun _ => deaf_admissionBy reply x.userId x.request
  | practise a =>
    have hrun := deaf_onLives a f.service old
    exact congrArg (fun r => { f.beside k e old with service := r.2 }) hrun
  | shutdown => exact beside_onHall f e old fun h old => h.noted_shutdown old

/-- The deeds of others do not touch a start. -/
theorem enrolments_act (f : Floor σ) {k : Nat} {d : Deed σ} (hd : d.start? ≠ some k) :
    (f.act d).enrolments k = f.enrolments k := by
  have hact := beside_act (f.bare k) (f.enrolments k) f.hall.notes hd
  rw [bare_beside] at hact
  rw [hact]
  exact Function.update_self ..

/-- **What is forgotten makes no difference to the deeds of others.** -/
theorem forget_act {f g : Floor σ} {k : Nat} (h : f.forget k = g.forget k) {d : Deed σ}
    (hd : d.start? ≠ some k) : (f.act d).forget k = (g.act d).forget k := by
  obtain ⟨hbare, hnotes⟩ := forget_eq_iff.mp h
  have hf := beside_act (f.bare k) (f.enrolments k) f.hall.notes hd
  have hg := beside_act (g.bare k) (g.enrolments k) g.hall.notes hd
  rw [bare_beside] at hf hg
  -- both floors come from one bare floor, so they differ in its notes only
  rw [← hbare] at hg
  rw [hf, hg]
  refine forget_eq_iff.mpr ⟨?_, ?_⟩
  · rw [beside_bare, beside_bare]
  · change (_ ++ f.hall.notes).filter _ = (_ ++ g.hall.notes).filter _
    rw [List.filter_append, List.filter_append, hnotes]

/-! ### The deeds of a start -/

variable {f : Floor σ} {k : Nat}

theorem forget_putEnrolment (f : Floor σ) (k : Nat) (e : Enrolment) :
    (f.putEnrolment k e).forget k = f.forget k := by
  have hsame : Function.update (Function.update f.enrolments k (some e)) k none =
      Function.update f.enrolments k none := Function.update_idem ..
  exact congrArg (fun enrolments => { f.forget k with enrolments }) hsame

/-- A start that comes to another stage by a call that leaves notes at most is forgotten. -/
theorem forget_enrolBy {α : Type} (e : Enrolment) {c : Call σ α} (next : α → EnrolmentStage)
    (hc : ∃ notes, Note.Modest notes ∧
      (c.run f.service).2 = { f.service with hall := f.service.hall.jot notes }) :
    (f.enrolBy k e c next).forget k = f.forget k := by
  obtain ⟨notes, hnotes, hrun⟩ := hc
  have hnone : notes.reverse.filter Note.isMeasure = [] :=
    List.filter_eq_nil_iff.mpr fun n hn => by
      rw [hnotes n (List.mem_reverse.mp hn)]
      exact Bool.false_ne_true
  have hjot : (f.onHall (·.jot notes)).forget k = f.forget k := by
    refine forget_eq_iff.mpr ⟨rfl, ?_⟩
    change (notes.reverse ++ f.hall.notes).filter _ = _
    rw [List.filter_append, hnone, List.nil_append]
  unfold enrolBy
  rw [forget_putEnrolment, hrun]
  exact hjot

/-- What a deed of a start may do to a floor. -/
inductive Bid (f : Floor σ) (k : Nat) : Floor σ → Prop where
  /-- It is not its turn. -/
  | idle : Bid f k f
  /-- The start had no seat, and there is nothing that is not forgotten. -/
  | vain {g : Floor σ} (hunseated : f.isSeated k = false) (hforget : g.forget k = f.forget k) :
    Bid f k g
  | seated {g : Floor σ} (hseated : g.isSeated k = true) : Bid f k g

theorem isSeated_of_stage {e : Enrolment} (he : f.enrolments k = some e) :
    f.isSeated k = e.stage.isSeated := by
  unfold isSeated
  rw [he]
  rfl

theorem isSeated_putEnrolment (f : Floor σ) (k : Nat) (e : Enrolment) :
    (f.putEnrolment k e).isSeated k = e.stage.isSeated :=
  isSeated_of_stage (Function.update_self ..)

theorem bid_enrol (userId : String) (request : StartRequest) :
    f.Bid k (f.enrol k userId request) := by
  unfold enrol
  split
  · exact .idle
  · rename_i hnone
    have hunseated : f.isSeated k = false := by
      unfold isSeated
      rw [hnone]
      rfl
    exact .vain hunseated (forget_putEnrolment f k _)

theorem bid_checkFree : f.Bid k (f.checkFree k) := by
  unfold checkFree
  split
  · rename_i e he
    split
    · rename_i hstage
      exact .vain ((isSeated_of_stage he).trans (congrArg _ hstage))
        (forget_enrolBy e _ (quiet_checkFree e.userId f.service))
    · exact .idle
  · exact .idle

theorem bid_askBy {c : Enrolment → Call σ Unit} (hc : ∀ e, (c e).Quiet) :
    f.Bid k (f.askBy k c) := by
  unfold askBy
  split
  · rename_i e he
    split
    · rename_i hstage
      exact .vain ((isSeated_of_stage he).trans (congrArg _ hstage))
        (forget_enrolBy e _ (hc e f.service))
    · exact .idle
  · exact .idle

/-- A start that tries to get a seat gets one, or fails and leaves notes at most. -/
theorem bid_enterBy {c : Enrolment → Call σ StartResponse} (hc : ∀ e, (c e).Discreet) :
    f.Bid k (f.enterBy k c) := by
  unfold enterBy
  split
  · rename_i e he
    split
    · rename_i hstage
      dsimp only
      split
      · rename_i response hrun
        refine .seated ?_
        -- the desk that is set up is no part of the start
        change (f.enrolBy k e (c e) .launched).isSeated k = true
        unfold enrolBy
        generalize (c e).run f.service = r at hrun
        obtain ⟨result, s⟩ := r
        obtain rfl : result = .ok response := hrun
        exact isSeated_putEnrolment ..
      · rename_i fault hrun
        exact .vain ((isSeated_of_stage he).trans (congrArg _ hstage))
          (forget_enrolBy e _ (hc e f.service fault hrun))
    · exact .idle
  · exact .idle

theorem bid_confirm : f.Bid k (f.confirm k) := by
  unfold confirm
  split
  · split
    · exact .seated (isSeated_putEnrolment ..)
    · exact .idle
  · exact .idle

theorem bid_act {d : Deed σ} (hd : d.start? = some k) (hmodest : d.Modest) :
    f.Bid k (f.act d) := by
  cases d with
  | gate j reply notes =>
    obtain rfl := Option.some.inj hd
    exact bid_askBy fun _ => quiet_bind (quiet_jot hmodest) fun _ => quiet_checkEligibleBy _ _
  | pool j reply notes =>
    obtain rfl := Option.some.inj hd
    exact bid_enterBy fun _ => discreet_bind (quiet_jot hmodest) fun _ =>
      discreet_admissionBy _ _ _
  | practise a => cases hd
  | shutdown => cases hd
  | move m =>
    cases m with
    | enrol j userId request =>
      obtain rfl := Option.some.inj hd
      exact bid_enrol userId request
    | checkFree j =>
      obtain rfl := Option.some.inj hd
      exact bid_checkFree
    | askGate j =>
      obtain rfl := Option.some.inj hd
      exact bid_askBy fun e => quiet_checkEligible e.userId
    | launch j =>
      obtain rfl := Option.some.inj hd
      exact bid_enterBy fun e => discreet_admission e.userId e.request
    | confirm j =>
      obtain rfl := Option.some.inj hd
      exact bid_confirm
    | _ => cases hd

theorem isSeated_of_refused {fault : Fault} (h : f.refused? k = some fault) :
    f.isSeated k = false := by
  unfold refused? at h
  cases he : f.enrolments k with
  | none =>
    rw [he] at h
    cases h
  | some e =>
    rw [he, Option.map_some] at h
    rw [isSeated_of_stage he]
    split at h
    · rename_i hstage
      rw [Option.some.inj hstage]
      rfl
    · cases h

/-- **The deeds of a start that gets no seat are forgotten.** -/
theorem forget_own {d : Deed σ} (hd : d.start? = some k) (hmodest : d.Modest)
    (hunseated : (f.act d).isSeated k = false) : (f.act d).forget k = f.forget k := by
  generalize hg : f.act d = g at hunseated ⊢
  have hbid : f.Bid k g := hg ▸ bid_act hd hmodest
  cases hbid with
  | idle => rfl
  | vain _ hforget => exact hforget
  | seated hseated => exact absurd (hunseated.symm.trans hseated) Bool.false_ne_true

/-- A seat that was launched for a start stays launched for it. -/
theorem isSeated_act {d : Deed σ} (hmodest : d.Modest) (h : f.isSeated k = true) :
    (f.act d).isSeated k = true := by
  by_cases hd : d.start? = some k
  · generalize hg : f.act d = g
    have hbid : f.Bid k g := hg ▸ bid_act hd hmodest
    cases hbid with
    | idle => exact h
    | vain hunseated _ => exact absurd (hunseated.symm.trans h) Bool.false_ne_true
    | seated hseated => exact hseated
  · unfold isSeated at h ⊢
    rwa [enrolments_act f hd]

theorem isSeated_acted {deeds : List (Deed σ)} (hmodest : ∀ d ∈ deeds, d.Modest)
    (h : f.isSeated k = true) : (f.acted deeds).isSeated k = true := by
  induction deeds generalizing f with
  | nil => exact h
  | cons d deeds ih =>
    exact ih (fun d hd => hmodest d (List.mem_cons_of_mem _ hd))
      (isSeated_act (hmodest d List.mem_cons_self) h)

/-- **Without the deeds of a start that has no seat yet, the floor is the same.** -/
theorem forget_acted (f : Floor σ) {k : Nat} {deeds : List (Deed σ)}
    (hmodest : ∀ d ∈ deeds, d.Modest) (hunseated : (f.acted deeds).isSeated k = false) :
    (f.acted deeds).forget k =
      (f.acted (deeds.filter fun d => d.start? != some k)).forget k := by
  induction deeds using List.reverseRecOn with
  | nil => rfl
  | append_singleton deeds d ih =>
    obtain ⟨hbefore, hlast⟩ := List.forall_mem_append.mp hmodest
    have hd : d.Modest := List.forall_mem_singleton.mp hlast
    rw [acted_concat] at hunseated ⊢
    have hunseated' : (f.acted deeds).isSeated k = false := by
      by_contra hseated
      rw [isSeated_act hd (Bool.of_not_eq_false hseated)] at hunseated
      cases hunseated
    have hforget := ih hbefore hunseated'
    rw [List.filter_append]
    by_cases hown : d.start? = some k
    · -- the run without the start has no such deed
      have hnone : [d].filter (fun d => d.start? != some k) = [] :=
        List.filter_cons_of_neg (by rw [hown, bne_self_eq_false]; exact Bool.false_ne_true)
      rw [hnone, List.append_nil, forget_own hown hd hunseated, hforget]
    · have hkept : [d].filter (fun d => d.start? != some k) = [d] :=
        List.filter_cons_of_pos (bne_iff_ne.mpr hown)
      rw [hkept, acted_concat]
      exact forget_act hforget hown

/-- **A refused start leaves no trace.** A start that is refused in the end makes no difference at
any time before: the run without it has the same sessions and the same archive, the same writes
handed in and done, the same people blocked, the same events published and the same notes about
exams. -/
theorem forget_refused (service : Service σ) (k : Nat) (deeds : List (Deed σ)) (fault : Fault)
    (hmodest : ∀ d ∈ deeds, d.Modest)
    (hrefused : ((opened service).acted deeds).refused? k = some fault) :
    ∀ before after, deeds = before ++ after →
      ((opened service).acted before).forget k =
        ((opened service).acted (before.filter fun d => d.start? != some k)).forget k := by
  rintro before after rfl
  obtain ⟨hbefore, hafter⟩ := List.forall_mem_append.mp hmodest
  refine forget_acted _ hbefore ?_
  have hunseated := isSeated_of_refused hrefused
  rw [acted, List.foldl_append] at hunseated
  -- a start that had a seat then would have it in the end
  by_contra hseated
  have hend := isSeated_acted (f := (opened service).acted before) hafter
    (Bool.of_not_eq_false hseated)
  exact absurd (hunseated.symm.trans hend) Bool.false_ne_true

/-- A service that asks three questions of each user. -/
def busy : Service Shelf :=
  .new { (default : Config) with exam := .standard } House.threeQuestions .inMemory .empty default
    growing

/-- A user makes three starts, two of them at once; the backends have something against all of the
others who would start. -/
def rush : List (Deed Shelf) :=
  let python : StartRequest := ⟨.python, none⟩
  [.move (.enrol 0 "dave" python), .move (.checkFree 0), .move (.askGate 0),
    .move (.enrol 1 "dave" python), .move (.checkFree 1), .move (.askGate 1),
    .move (.launch 0), .move (.launch 1), .move (.confirm 0),
    .move (.enrol 2 "dave" python), .move (.checkFree 2),
    .move (.enrol 3 "erin" python), .move (.checkFree 3), .gate 3 (.ok false) [],
    .move (.commence (growing.sessionId 0)),
    .move (.enrol 4 "frank" python), .move (.checkFree 4), .move (.askGate 4), .pool 4 (.ok []) [],
    .move (.enrol 5 "grace" python), .move (.checkFree 5),
    .gate 5 (.error (.plain "connection refused")) [.warn "no connection"]]

/-- Whatever starts are refused for, the run is the same without them. -/
theorem forget_refused_rush :
    let f := (opened busy).acted rush
    (∀ d ∈ rush, d.Modest) ∧
      [1, 2, 3, 4, 5].map f.refused? =
        [some (.alreadyInProgress (growing.sessionId 0)),
          some (.alreadyInProgress (growing.sessionId 0)), some .ineligible,
          some (.selectionExhausted .python "any" 0),
          some (.backend (.plain "connection refused"))] ∧
      f.hall.registry.active.map (·.userId) = ["dave"] ∧
      ∀ k ∈ [1, 2, 3, 4, 5],
        f.forget k = ((opened busy).acted (rush.filter fun d => d.start? != some k)).forget k := by
  intro f
  have hmodest : ∀ d ∈ rush, d.Modest := by decide
  have hsome : ∀ k ∈ [1, 2, 3, 4, 5], (f.refused? k).isSome = true := by decide +kernel
  refine ⟨hmodest, by decide +kernel, by decide +kernel, fun k hk => ?_⟩
  obtain ⟨fault, hfault⟩ := Option.isSome_iff_exists.mp (hsome k hk)
  exact forget_refused busy k rush fault hmodest hfault rush [] (List.append_nil _).symm

end Floor

end Invigilator
