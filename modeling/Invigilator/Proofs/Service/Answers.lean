import Invigilator.Proofs.Service.Order

/-!
# Nobody waits for ever

An inquiry can be kept waiting by the session it is about, but only while that runs. Its letter lies
at the desk (`Posted`), so the desk answers it or, when it is closed, gives it back; and an inquiry
without a letter out can always take its next step.
-/

namespace Invigilator

/-- The move takes letters from a desk or brings one there, or sets a desk up. -/
def Move.concernsLetters : Move → Bool
  | .launch _ | .send _ | .handle _ | .close _ => true
  | _ => false

namespace Floor

variable {σ : Type} {ids : Nat → String} {f g : Floor σ}

/-! ## Letters -/

/-- The letters that a desk can still read. -/
def letters (f : Floor σ) (id : String) : List Nat :=
  match f.desks id with
  | some d => if d.stage = .closed then [] else d.letters
  | none => []

theorem letters_of_desk {id : String} {d : Desk} (hd : f.desks id = some d)
    (hopen : d.stage ≠ .closed) : f.letters id = d.letters := by
  rw [letters, hd]
  exact if_neg hopen

theorem exists_desk_of_mem_letters {id : String} {k : Nat} (hk : k ∈ f.letters id) :
    ∃ d, f.desks id = some d ∧ d.stage ≠ .closed ∧ k ∈ d.letters := by
  unfold letters at hk
  split at hk
  · rename_i d hd
    split at hk
    · cases hk
    · rename_i hopen
      exact ⟨d, hd, hopen, hk⟩
  · cases hk

theorem letters_putDesk (f : Floor σ) (id : String) (d : Desk) (other : String) :
    (f.putDesk id d).letters other =
      if other = id then (if d.stage = .closed then [] else d.letters) else f.letters other := by
  unfold letters putDesk
  by_cases hid : other = id
  · subst hid
    simp only [Function.update_self, if_true]
  · simp only [Function.update_of_ne hid, if_neg hid]

/-- A desk that comes to another stage, and is not closed, keeps its letters. -/
theorem letters_putDesk_stage {id : String} {d : Desk} (hd : f.desks id = some d)
    (hopen : d.stage ≠ .closed) {stage : DeskStage} (hstage : stage ≠ .closed) :
    (f.putDesk id { d with stage }).letters = f.letters := by
  funext other
  rw [letters_putDesk]
  split
  · rename_i hid
    rw [hid, letters_of_desk hd hopen]
  · rfl

theorem desks_fireAt (f : Floor σ) (id : String) (due : Hall.Due) (change : Hall → Hall) :
    (f.fireAt id due change).desks = f.desks := by
  unfold fireAt
  repeat' split
  all_goals rfl

/-- Moves that are not about letters leave them where they are. -/
theorem letters_step {m : Move} (h : m.concernsLetters = false) :
    (f.step m).letters = f.letters := by
  cases m with
  | launch | send | handle | close => cases h
  | fire due =>
    have hdesks : (f.fire due).desks = f.desks := by
      cases due with
      | tick id => exact desks_fireAt ..
      | grace id => exact desks_fireAt ..
      | errand id => rfl
    funext id
    simp only [step, letters, hdesks]
  | commence id =>
    simp only [step, commence]
    split
    · rename_i d hd
      split
      · rename_i hstage
        exact letters_putDesk_stage (f := f.onHall (·.commence id)) hd (by simp [hstage]) (by simp)
      · rfl
    · rfl
  | file id =>
    simp only [step, file]
    split
    · rename_i d hd
      split
      · rename_i hstage
        exact letters_putDesk_stage (f := f.onHall (·.file id)) hd (by simp [hstage.1]) (by simp)
      · rfl
    · rfl
  | release id =>
    simp only [step, release]
    split
    · rename_i d hd
      split
      · rename_i hstage
        exact letters_putDesk_stage (f := f.onHall (·.release id)) hd (by simp [hstage]) (by simp)
      · rfl
    · rfl
  | enrol | checkFree | askGate | confirm | inquire | lookUp | receive | search | read =>
    simp only [step, enrol, checkFree, askGate, confirm, inquire, lookUp, receive, search, read,
      findFinal]
    repeat' split
    all_goals rfl
  | write | approve | pass | listen | switch | trouble => rfl

/-- An inquiry that has something to tell, or has told it; and if it waits, its letter is there. -/
structure Posted (f : Floor σ) (k : Nat) (q : Query) : Prop where
  told : q.stage = .sending ∨ q.stage = .waiting → q.inquiry.stimulus? ≠ none
  there : q.stage = .waiting → k ∈ f.letters q.id

/-- A desk that reads a letter has the others left. -/
theorem letters_handle {id : String} {d : Desk} (hd : f.desks id = some d) {i : Nat}
    {rest : List Nat} (hletters : d.letters = i :: rest) (hrunning : d.stage = .running)
    (hlive : f.isLive id = true) (other : String) :
    (f.handle id).letters other = if other = id then rest else f.letters other := by
  have hanswer : ∀ g : Floor σ, (g.answer id i).letters = g.letters := by
    intro g
    unfold answer
    repeat' split
    all_goals rfl
  unfold handle
  simp only [hd, hletters]
  rw [if_pos ⟨hrunning, hlive⟩, hanswer, letters_putDesk]
  simp [hrunning]

/-- A letter that is read is answered. -/
theorem not_waiting_of_handle {id : String} {d : Desk} (hd : f.desks id = some d) {i : Nat}
    {rest : List Nat} (hletters : d.letters = i :: rest) (hrunning : d.stage = .running)
    (hlive : f.isLive id = true) {q : Query} (hq : f.queries i = some q)
    (hwaiting : q.stage = .waiting) (hid : q.id = id) (htold : q.inquiry.stimulus? ≠ none) :
    (f.handle id).queries i ≠ some q := by
  obtain ⟨x, hx⟩ := Option.ne_none_iff_exists'.mp htold
  have hasked : (f.putDesk id { d with letters := rest }).queries i = some q := hq
  unfold handle
  simp only [hd, hletters]
  rw [if_pos ⟨hrunning, hlive⟩, answer, hasked]
  simp only [hwaiting, hid, if_true, hx, stageQuery, putQuery, Function.update_self]
  intro hsame
  have hstage := congrArg Query.stage (Option.some.inj hsame)
  rw [hwaiting] at hstage
  dsimp only at hstage
  split at hstage <;> cases hstage

/-- A launch sets up a desk of its own, where no letter can be yet. -/
theorem mem_letters_launch (h : f.Sound ids) (hinjective : Function.Injective ids) {i k : Nat}
    {id : String} (hk : k ∈ f.letters id) : k ∈ (f.launch i).letters id := by
  unfold launch
  split
  · rename_i e he
    split
    · obtain ⟨notes, ⟨fault, hrun, -⟩ | ⟨response, seat, hrun, -, hnew, hid⟩⟩ :=
        admission_cases e.userId e.request f.service
      · simp only [hrun]
        exact hk
      · obtain ⟨d, hd, -, -⟩ := exists_desk_of_mem_letters hk
        have hat : f.At id d.userId d.stage := Option.map_eq_some_iff.mpr ⟨d, hd, rfl⟩
        have hother := h.ne_new hinjective hnew hat
        rw [hnew.id_eq, ← hid] at hother
        simp only [hrun]
        rw [letters_putDesk, if_neg hother]
        exact hk
    · exact hk
  · exact hk

theorem mem_letters_send {i k : Nat} {id : String} (hk : k ∈ f.letters id) :
    k ∈ (f.send i).letters id := by
  have hsent : ∀ {other : String} {d : Desk}, f.desks other = some d → d.stage ≠ .closed →
      k ∈ (f.putDesk other { d with letters := d.letters ++ [i] }).letters id := by
    intro other d hd hopen
    rw [letters_putDesk]
    split
    · rename_i hid
      rw [hid, letters_of_desk hd hopen] at hk
      exact List.mem_append_left _ hk
    · exact hk
  unfold send
  split
  · split
    · split
      · exact hk
      · rename_i d hd
        split
        · exact hk
        · rename_i hopen
          split
          · exact hsent hd hopen
          · exact hk
    · exact hk
  · exact hk

/-- A desk that cannot read a letter leaves the floor as it is. -/
theorem handle_eq_self {id : String} (hidle : ∀ d i rest, f.desks id = some d →
    d.letters = i :: rest → d.stage = .running → f.isLive id = false) : f.handle id = f := by
  unfold handle
  split
  · rename_i d hd
    split
    · rename_i i rest hletters
      refine if_neg fun hreads => ?_
      rw [hidle d i rest hd hletters hreads.1] at hreads
      cases hreads.2
    · rfl
  · rfl

/-- The letter a desk reads is the only one it loses, and that inquiry does not wait any longer. -/
theorem mem_letters_handle {k : Nat} {q : Query} (hq : f.queries k = some q)
    (hposted : f.Posted k q) (hwaiting : q.stage = .waiting) {id : String}
    (hstays : (f.handle id).queries k = some q) : k ∈ (f.handle id).letters q.id := by
  have hk := hposted.there hwaiting
  -- a desk that reads nothing changes nothing, and one that reads loses its first letter
  by_cases hreads : ∃ d i rest, f.desks id = some d ∧ d.letters = i :: rest ∧
      d.stage = .running ∧ f.isLive id = true
  · obtain ⟨d, i, rest, hd, hletters, hrunning, hlive⟩ := hreads
    rw [letters_handle hd hletters hrunning hlive]
    split
    · rename_i hid
      rw [hid, letters_of_desk hd (by simp [hrunning]), hletters] at hk
      -- if that was the letter of this inquiry, it has its answer now
      refine (List.mem_cons.mp hk).resolve_left ?_
      rintro rfl
      exact not_waiting_of_handle hd hletters hrunning hlive hq hwaiting hid
        (hposted.told (.inr hwaiting)) hstays
    · exact hk
  · have hidle : f.handle id = f := handle_eq_self fun d i rest hd hletters hrunning =>
      Bool.eq_false_iff.mpr fun hlive => hreads ⟨d, i, rest, hd, hletters, hrunning, hlive⟩
    rw [hidle]
    exact hk

/-- A desk that closes gives its letters back, so none of their inquiries waits any longer. -/
theorem mem_letters_close {k : Nat} {q : Query} (hq : f.queries k = some q)
    (hwaiting : q.stage = .waiting) (hk : k ∈ f.letters q.id) {id : String}
    (hstays : (f.close id).queries k = some q) : k ∈ (f.close id).letters q.id := by
  unfold close at hstays ⊢
  split
  · rename_i d hd
    split
    · rename_i hreleased
      have hopen : d.stage ≠ .closed := by simp [hreleased]
      simp only [hd, hreleased, if_true, hq, Option.map_some, Option.some.injEq] at hstays
      have hother : q.id ≠ id := by
        intro hid
        rw [hid, letters_of_desk hd hopen] at hk
        have hstage := congrArg Query.stage hstays
        simp [dismiss, hwaiting, hid, hk] at hstage
      have hput := letters_putDesk f id { d with stage := .closed, letters := [] } q.id
      rw [if_neg hother] at hput
      exact (congrArg (k ∈ ·) hput).mpr hk
    · exact hk
  · exact hk

/-- The letter of an inquiry that waits before and after a move has not been lost in it. -/
theorem mem_letters_step (h : f.Sound ids) (hinjective : Function.Injective ids) {k : Nat}
    {q : Query} (hq : f.queries k = some q) (hposted : f.Posted k q) (hwaiting : q.stage = .waiting)
    {m : Move} (hstays : (f.step m).queries k = some q) : k ∈ (f.step m).letters q.id := by
  have hk := hposted.there hwaiting
  cases m with
  | launch i => exact mem_letters_launch h hinjective hk
  | send i => exact mem_letters_send hk
  | handle id => exact mem_letters_handle hq hposted hwaiting hstays
  | close id => exact mem_letters_close hq hwaiting hk hstays
  | enrol | checkFree | askGate | confirm | inquire | lookUp | receive | search | read | commence
  | fire | file | release | write | approve | pass | listen | switch | trouble =>
    rw [letters_step rfl]
    exact hk

/-- Every inquiry on the floor is posted. -/
def AllPosted (f : Floor σ) : Prop := ∀ k q, f.queries k = some q → f.Posted k q

namespace Sound

variable (h : f.Sound ids) (hinjective : Function.Injective ids)
include h hinjective

theorem allPosted_step (hall : f.AllPosted) (m : Move) : (f.step m).AllPosted := by
  intro k q hq
  rcases query_step hq with hbefore | ⟨-, -, hstage⟩ | ⟨before, stage, hbefore, rfl, ha⟩
  · have hposted := hall k q hbefore
    exact ⟨hposted.told, fun hwaiting =>
      mem_letters_step h hinjective hbefore hposted hwaiting hq⟩
  · refine ⟨fun hsent => ?_, fun hwaiting => ?_⟩
    · rw [hstage] at hsent
      rcases hsent with hsent | hsent <;> cases hsent
    · rw [hstage] at hwaiting
      cases hwaiting
  · have hposted := hall k before hbefore
    cases ha with
    | addressed was told => exact ⟨fun _ => told, nofun⟩
    | @sent was d posted taken there =>
      refine ⟨fun _ => hposted.told (.inl was), fun _ => ?_⟩
      rw [letters_of_desk posted taken]
      exact there
    | refused | missed | subscribed | returned | replied | dismissed | received | resumed | dropped
    | found | strange | unfiled | read => exact ⟨by simp, nofun⟩

theorem allPosted_run (hall : f.AllPosted) (moves : List Move) : (f.run moves).AllPosted := by
  induction moves generalizing f with
  | nil => exact hall
  | cons m moves ih => exact ih (h.step hinjective m) (h.allPosted_step hinjective hall m)

end Sound

/-! ## The end of an inquiry -/

/-- The inquiry can be brought to its end from here. -/
def Completes (f : Floor σ) (k : Nat) (q : Query) : Prop :=
  ∃ moves result, (f.run moves).queries k = some { q with stage := .done result }

variable {k : Nat} {q : Query}

/-- One move on the way; the inquiry may have gone on in it. -/
theorem completes_of_step (hq : f.queries k = some q) (m : Move)
    (hnext : ∀ stage, (f.step m).queries k = some { q with stage } →
      (f.step m).Completes k { q with stage }) : f.Completes k q := by
  have hgoes : ∃ stage, (f.step m).queries k = some { q with stage } := by
    rcases query_goes hq m with hsame | ⟨stage, hstage, -⟩
    · exact ⟨q.stage, hsame⟩
    · exact ⟨stage, hstage⟩
  obtain ⟨stage, hstage⟩ := hgoes
  obtain ⟨moves, result, hdone⟩ := hnext stage hstage
  exact ⟨m :: moves, result, hdone⟩

/-- One move that brings the inquiry to another stage. -/
theorem completes_of_stage (m : Move) (stage : QueryStage)
    (h : (f.step m).Completes k { q with stage }) : f.Completes k q := by
  obtain ⟨moves, result, hdone⟩ := h
  exact ⟨m :: moves, result, hdone⟩

theorem completes_of_done (hq : f.queries k = some q) {result : Except Fault Told}
    (hstage : q.stage = .done result) : f.Completes k q :=
  ⟨[], result, by rw [← hstage]; exact hq⟩

theorem queries_stageQuery (f : Floor σ) (k : Nat) (q : Query) (stage : QueryStage) :
    (f.stageQuery k q stage).queries k = some { q with stage } := Function.update_self ..

theorem queries_findFinal (f : Floor σ) (k : Nat) (q : Query) (s : Snapshot) :
    ∃ result, (f.findFinal k q s).queries k = some { q with stage := .done result } := by
  unfold findFinal
  split
  · exact ⟨_, queries_stageQuery ..⟩
  · exact ⟨_, queries_stageQuery ..⟩

theorem completes_of_reading (hq : f.queries k = some q) (hstage : q.stage = .reading) :
    f.Completes k q := by
  have hread : ∃ result, (f.read k).queries k = some { q with stage := .done result } := by
    unfold read
    simp only [hq, hstage]
    split
    · exact queries_findFinal ..
    · exact ⟨_, queries_stageQuery ..⟩
  obtain ⟨result, hdone⟩ := hread
  exact ⟨[.read k], result, hdone⟩

theorem completes_of_searching (hq : f.queries k = some q) (hstage : q.stage = .searching) :
    f.Completes k q := by
  cases harchived : f.hall.registry.archive.find? q.id with
  | some s =>
    obtain ⟨result, hdone⟩ := queries_findFinal f k q s
    refine ⟨[.search k], result, ?_⟩
    rw [← hdone]
    simp only [run, List.foldl, step, search, hq, hstage, harchived]
  | none =>
    refine completes_of_stage (.search k) .reading (completes_of_reading ?_ rfl)
    simp only [step, search, hq, hstage, harchived]
    exact queries_stageQuery ..

theorem completes_of_unanswered (hq : f.queries k = some q) (hstage : q.stage = .unanswered) :
    f.Completes k q := by
  have hreceived : (f.step (.receive k)).queries k = some { q with
      stage := if q.inquiry.goesOn then .searching else .done (.error .notActive) } := by
    simp only [step, receive, hq, hstage]
    exact queries_stageQuery ..
  cases hon : q.inquiry.goesOn with
  | true =>
    rw [hon] at hreceived
    exact completes_of_stage (.receive k) .searching (completes_of_searching hreceived rfl)
  | false =>
    rw [hon] at hreceived
    exact completes_of_stage (.receive k) _ (completes_of_done hreceived rfl)

theorem completes_of_replied (hq : f.queries k = some q) {result : Except Fault Told}
    (hstage : q.stage = .replied result) : f.Completes k q := by
  refine ⟨[.receive k], result, ?_⟩
  simp only [run, List.foldl, step, receive, hq, hstage]
  exact queries_stageQuery ..

/-- An inquiry about a session whose desk is closed need not wait for anybody. -/
theorem Sound.completes_of_closed (h : f.Sound ids) (hposted : f.Posted k q)
    (hq : f.queries k = some q) {userId : String} (hat : f.At q.id userId .closed) :
    f.Completes k q := by
  obtain ⟨d, hd, hplace⟩ := Option.map_eq_some_iff.mp hat
  have hclosed : d.stage = .closed := congrArg Prod.snd hplace
  cases hstage : q.stage with
  | looking =>
    refine completes_of_stage (.lookUp k) .searching (completes_of_searching ?_ rfl)
    have hgone : (Service.isRunningFor q.id q.userId).run f.service = (.ok false, f.service) :=
      Service.run_isRunningFor_gone (h.find?_eq_none hat rfl)
    simp only [Floor.step, lookUp, hq, hstage, hgone]
    exact queries_stageQuery ..
  | sending =>
    refine completes_of_stage (.send k) .unanswered (completes_of_unanswered ?_ rfl)
    simp only [Floor.step, send, hq, hstage, hd, if_pos hclosed]
    exact queries_stageQuery ..
  | waiting =>
    have hletter := hposted.there hstage
    -- a closed desk has no letters, so nobody waits for it
    rw [letters, hd] at hletter
    simp [hclosed] at hletter
  | replied result => exact completes_of_replied hq hstage
  | unanswered => exact completes_of_unanswered hq hstage
  | searching => exact completes_of_searching hq hstage
  | reading => exact completes_of_reading hq hstage
  | done result => exact completes_of_done hq hstage

/-! ### The way to a closed desk -/

variable {id userId : String}

theorem exists_desk_of_at {stage : DeskStage} (hat : f.At id userId stage) :
    ∃ d, f.desks id = some d ∧ d.userId = userId ∧ d.stage = stage := by
  obtain ⟨d, hd, hplace⟩ := Option.map_eq_some_iff.mp hat
  exact ⟨d, hd, congrArg Prod.fst hplace, congrArg Prod.snd hplace⟩

theorem at_putDesk (f : Floor σ) (id : String) (d : Desk) :
    (f.putDesk id d).At id d.userId d.stage := by
  rw [At, station_putDesk, Function.update_self]

theorem at_close (hat : f.At id userId .released) : (f.step (.close id)).At id userId .closed := by
  obtain ⟨d, hd, rfl, hstage⟩ := exists_desk_of_at hat
  simp only [step, close, hd, if_pos hstage]
  exact at_putDesk f id { d with stage := .closed, letters := [] }

theorem at_release (hat : f.At id userId .filed) :
    (f.step (.release id)).At id userId .released := by
  obtain ⟨d, hd, rfl, hstage⟩ := exists_desk_of_at hat
  simp only [step, release, hd, if_pos hstage]
  exact at_putDesk _ id { d with stage := .released }

theorem at_file (hat : f.At id userId .running) (hover : f.isLive id = false) :
    (f.step (.file id)).At id userId .filed := by
  obtain ⟨d, hd, rfl, hstage⟩ := exists_desk_of_at hat
  have hends : d.stage = .running ∧ f.isLive id = false := ⟨hstage, hover⟩
  simp only [step, file, hd, if_pos hends]
  exact at_putDesk _ id { d with stage := .filed }

theorem at_commence (hat : f.At id userId .seated) :
    (f.step (.commence id)).At id userId .running := by
  obtain ⟨d, hd, rfl, hstage⟩ := exists_desk_of_at hat
  simp only [step, commence, hd, if_pos hstage]
  exact at_putDesk _ id { d with stage := .running }

/-- The first turn of a session does not end it, or revive it. -/
theorem Sound.isLive_commence (h : f.Sound ids) (hat : f.At id userId .seated) :
    (f.step (.commence id)).isLive id = f.isLive id := by
  obtain ⟨r, hfind, -⟩ := h.exists_find? hat rfl
  obtain ⟨d, hd, rfl, hstage⟩ := exists_desk_of_at hat
  have hregistry : (f.step (.commence id)).hall.registry =
      f.hall.registry.update id
        { r.value with sitting := r.value.sitting, lives := r.value.lives } := by
    simp only [Floor.step, commence, hd, if_pos hstage]
    exact (congrArg Hall.registry (Hall.commence_of_find? hfind)).trans (Hall.act_registry ..)
  rw [isLive, isLive, hregistry, Registry.find?_update_self hfind, hfind]

/-- **An inquiry about a session that has stopped can be brought to its end**: the desk needs no
more turns until it is closed. -/
theorem Sound.completes (h : f.Sound ids) (hinjective : Function.Injective ids)
    (hall : f.AllPosted) (hq : f.queries k = some q) {stage : DeskStage}
    (hat : f.At q.id userId stage) (hover : f.isLive q.id = false) : f.Completes k q := by
  have hreleased : ∀ {f : Floor σ} {q : Query}, f.Sound ids → f.AllPosted →
      f.queries k = some q → f.At q.id userId .released → f.Completes k q :=
    fun {f q} h hall hq hat => completes_of_step hq (.close q.id) fun _ hnext =>
      (h.step hinjective _).completes_of_closed (h.allPosted_step hinjective hall _ k _ hnext)
        hnext (at_close hat)
  have hfiled : ∀ {f : Floor σ} {q : Query}, f.Sound ids → f.AllPosted →
      f.queries k = some q → f.At q.id userId .filed → f.Completes k q :=
    fun {f q} h hall hq hat => completes_of_step hq (.release q.id) fun _ hnext =>
      hreleased (h.step hinjective _) (h.allPosted_step hinjective hall _) hnext (at_release hat)
  have hrunning : ∀ {f : Floor σ} {q : Query}, f.Sound ids → f.AllPosted →
      f.queries k = some q → f.At q.id userId .running → f.isLive q.id = false →
        f.Completes k q :=
    fun {f q} h hall hq hat hover => completes_of_step hq (.file q.id) fun _ hnext =>
      hfiled (h.step hinjective _) (h.allPosted_step hinjective hall _) hnext (at_file hat hover)
  cases stage with
  | seated =>
    refine completes_of_step hq (.commence q.id) fun stage hnext =>
      hrunning (h.step hinjective _) (h.allPosted_step hinjective hall _) hnext
        (at_commence hat) ?_
    exact (h.isLive_commence hat).trans hover
  | running => exact hrunning h hall hq hat hover
  | filed => exact hfiled h hall hq hat
  | released => exact hreleased h hall hq hat
  | closed => exact h.completes_of_closed (hall k q hq) hq hat

end Floor

end Invigilator
