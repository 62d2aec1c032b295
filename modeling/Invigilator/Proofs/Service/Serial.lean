import Invigilator.Proofs.Service.Order
import Invigilator.Proofs.Service.Privacy

/-!
# One call after the other

The floor takes apart what the service does in one go. So the service has to be found on it again:
while nobody else gets a turn, the moves of a call add up to the call. A floor is `Quiet` when
every session is between two calls; from there the moves of a call lead to just the service that
the call leaves, with the same result, and the floor is quiet again.
-/

namespace Invigilator

/-! ## The hall -/

theorem Registry.retire_update {α : Type} (r : Registry α) (id : String) (value : α)
    (snapshot : Snapshot) :
    ((r.update id value).file id snapshot).release id = r.retire id snapshot := by
  unfold update file release retire file release
  dsimp only
  rw [List.filter_map]
  congr 1
  have hsame : (fun s : Running α => s.sessionId != id) ∘
      (fun s => if s.sessionId = id then { s with value } else s) = fun s => s.sessionId != id := by
    funext s
    dsimp only [Function.comp]
    split <;> rfl
  rw [hsame]
  refine (List.map_congr_left fun s hs => ?_).trans (List.map_id _)
  have hne : s.sessionId ≠ id := by simpa using List.of_mem_filter hs
  exact if_neg hne

/-- The sessions are the same after one seat has changed. -/
theorem Registry.exists_of_find?_update {α : Type} {r : Registry α} {id : String} {value : α}
    {other : String} {s : Running α} (h : (r.update id value).find? other = some s) :
    ∃ t, r.find? other = some t ∧ t.userId = s.userId ∧ (other ≠ id → t = s) := by
  rw [find?_update] at h
  obtain ⟨t, ht, hs⟩ := Option.map_eq_some_iff.mp h
  refine ⟨t, ht, ?_, fun hid => ?_⟩
  · rw [← hs]
    split <;> rfl
  · rw [if_neg (sessionId_of_find? ht ▸ hid)] at hs
    exact hs

namespace Hall

/-- Enough attempts for a scribe to come to an end or to a wait. -/
def attempts (h : Hall) (id : String) : Nat := (h.scribe id).queue.length + 2

theorem work_eq_toil (h : Hall) (id : String) : h.work id = h.toil id (h.attempts id) := rfl

variable {h : Hall} {id : String} {r : Running Seat}

/-- A turn that the service lets a session take: when it is the last, the session is filed and
released, and then its scribe works. -/
def tellEnd (h : Hall) (id : String) : Hall :=
  if (h.registry.find? id).any fun r => r.value.sitting.isRunning then h
  else (h.file id).release id

theorem settle_eq (hfind : h.registry.find? id = some r) (state : Sitting × Shelf)
    (actions : List Action) :
    h.settle id r.value state actions = ((h.act id r.value state actions).tellEnd id).work id := by
  have hseat : (h.act id r.value state actions).registry.find? id =
      some { r with value := { r.value with sitting := state.1, lives := state.2 } } := by
    rw [act_registry]
    exact Registry.find?_update_self hfind _
  refine congrArg (work · id) ?_
  rw [tellEnd, hseat, Option.any_some]
  by_cases hrun : state.1.isRunning = true
  · rw [if_pos hrun, if_pos hrun]
    rfl
  · rw [if_neg hrun, if_neg hrun, file, hseat]
    -- the seat that is filed goes, so it does not matter that it was changed
    have hretire := Registry.retire_update
      (actions.foldl (fun h a => h.perform id a) h.draw).registry id
      { r.value with sitting := state.1, lives := state.2 } state.1.snapshot
    unfold release act
    dsimp only
    rw [hretire]

theorem tell_eq (hfind : h.registry.find? id = some r) (x : Stimulus) :
    h.tell id x = ((h.turn id x).1, (((h.turn id x).2).tellEnd id).work id) := by
  rw [turn_of_find? hfind]
  unfold tell
  rw [hfind]
  exact congrArg (Prod.mk _) (settle_eq hfind _ _)

/-- A launch is a seat that is set up, the first turn, and the work of the scribe. -/
theorem launch_eq (seat : Seat) (hfree : h.registry.sessionOf? seat.sitting.session.userId = none)
    (hnew : h.registry.find? seat.sitting.session.id = none)
    (hrun : seat.sitting.isRunning = true) :
    h.launch seat = .ok (((h.seated seat).commence seat.sitting.session.id).work
      seat.sitting.session.id) := by
  have hfind : (h.seated seat).registry.find? seat.sitting.session.id =
      some ⟨seat.sitting.session.id, seat.sitting.session.userId, seat⟩ :=
    (Registry.find?_concat (s := ⟨_, _, seat⟩) hnew _).trans (if_pos rfl)
  have hcommence := commence_of_find? hfind
  have hlaunched : h.launch seat = .ok ((h.seated seat).settle seat.sitting.session.id seat
      ((Turn.begin : Turn Shelf Unit).after (seat.sitting, seat.lives))
      ((Turn.begin : Turn Shelf Unit).actions (seat.sitting, seat.lives))) := by
    unfold launch Registry.launch
    dsimp only
    rw [hfree]
    rfl
  rw [hlaunched, Turn.after_begin, settle_eq hfind, ← hcommence, tellEnd, hcommence, act_registry,
    Registry.find?_update_self hfind, Option.any_some, if_pos hrun, ← hcommence]

theorem launch_busy {seat : Seat} {existing : String}
    (hbusy : h.registry.sessionOf? seat.sitting.session.userId = some existing) :
    h.launch seat = .error existing := by
  unfold launch Registry.launch
  dsimp only
  rw [hbusy]

end Hall

/-! ## Calls -/

theorem Call.run_ofExcept {σ α : Type} (result : Except Fault α) (s : Service σ) :
    (ofExcept result).run s = (result, s) := by
  cases result <;> rfl

namespace Inquiry

variable {σ : Type} {s : Service σ} {id userId : String} {inquiry : Inquiry}

/-- A session that does not run answers with its end. -/
theorem run_gone (h : (Service.isRunningFor id userId).run s = (.ok false, s))
    (inquiry : Inquiry) :
    (inquiry.call id userId).run s =
      match (Service.finished id userId).run s with
      | (.error fault, s) => (.error fault, s)
      | (.ok final, s) =>
        (inquiry.ofFinal id final, { s with hall := s.hall.jot (inquiry.finalNotes id) }) := by
  rcases hfinished : (Service.finished id userId).run s with ⟨fault | final, s'⟩ <;>
    cases inquiry <;>
    simp [Inquiry.call, Service.snapshot, Service.score, Service.updateAnswer, Service.recordRun,
      Service.change, Service.signal, Service.submit, Service.subscribe, Service.tell,
      Call.run_bind, h, hfinished, ofFinal, finalNotes, Hall.jot]

/-- A session that runs answers as its turn has it. -/
theorem run_told (h : (Service.isRunningFor id userId).run s = (.ok true, s)) {x : Stimulus}
    (hx : inquiry.stimulus? = some x) {reply : Reply} {hall : Hall}
    (htell : s.hall.tell id x = (some reply, hall)) {result : Except Fault Told}
    (hresult : inquiry.ofReply? id reply = some result) :
    (inquiry.call id userId).run s = (result, { s with hall }) := by
  have hasked : (Service.tell id userId x).run s = (.ok (some reply), { s with hall }) := by
    simp only [Service.tell, Call.run_bind, h, if_true, Service.run_askHall, htell]
  cases inquiry with
  | subscribe eager => cases hx
  | snapshot | score | submit =>
    obtain rfl := Option.some.inj hx
    cases reply with
    | snapshot given =>
      obtain rfl := Option.some.inj hresult
      cases given <;>
        simp [Inquiry.call, Service.snapshot, Service.score, Service.submit, Call.run_bind, hasked,
          Call.run_ofExcept, Except.map]
    | answer | outcome | nothing => cases hresult
  | updateAnswer | recordRun =>
    obtain rfl := Option.some.inj hx
    cases reply with
    | answer given =>
      obtain rfl := Option.some.inj hresult
      cases given <;>
        simp [Inquiry.call, Service.updateAnswer, Service.recordRun, Service.change, Call.run_bind,
          hasked, Call.run_ofExcept, Except.map]
    | snapshot | outcome | nothing => cases hresult
  | signal =>
    obtain rfl := Option.some.inj hx
    cases reply with
    | outcome given =>
      obtain rfl := Option.some.inj hresult
      simp [Inquiry.call, Service.signal, Call.run_bind, hasked]
    | snapshot | answer | nothing => cases hresult

end Inquiry

/-! ## Moves in a row -/

namespace Floor

variable {σ : Type} {ids : Nat → String} (f : Floor σ) (k : Nat) (id : String)

@[simp] theorem putQuery_putQuery (p q : Query) :
    (f.putQuery k p).putQuery k q = f.putQuery k q := by
  simp only [putQuery, Function.update_idem]

@[simp] theorem putDesk_putDesk (d e : Desk) : (f.putDesk id d).putDesk id e = f.putDesk id e := by
  simp only [putDesk, Function.update_idem]

theorem putDesk_self {f : Floor σ} {id : String} {d : Desk} (hd : f.desks id = some d) :
    f.putDesk id d = f := by
  rw [putDesk, ← hd, Function.update_eq_self]

theorem putQuery_putDesk (q : Query) (d : Desk) :
    (f.putQuery k q).putDesk id d = (f.putDesk id d).putQuery k q := rfl

/-- A letter is sent, read and answered. -/
theorem run_letter {f : Floor σ} {k : Nat} {id userId : String} {inquiry : Inquiry} {own : Bool}
    {x : Stimulus} {reply : Reply} {hall : Hall} {result : Except Fault Told}
    (hdesk : f.desks id = some ⟨userId, .running, []⟩) (hlive : f.isLive id = true)
    (hx : inquiry.stimulus? = some x) (hturn : f.hall.turn id x = (some reply, hall))
    (hresult : inquiry.ofReply? id reply = some result) :
    (f.putQuery k ⟨id, userId, inquiry, own, .sending⟩).run [.send k, .handle id, .receive k] =
      (f.onHall fun _ => hall).putQuery k ⟨id, userId, inquiry, own, .done result⟩ := by
  have hsent : (f.putQuery k ⟨id, userId, inquiry, own, .sending⟩).step (.send k) =
      (f.putDesk id ⟨userId, .running, [k]⟩).putQuery k ⟨id, userId, inquiry, own, .waiting⟩ := by
    simp [step, send, putQuery, stageQuery, putDesk, hdesk, letterLimit]
  have hread : ((f.putDesk id ⟨userId, .running, [k]⟩).putQuery k
        ⟨id, userId, inquiry, own, .waiting⟩).step (.handle id) =
      (f.onHall fun _ => hall).putQuery k ⟨id, userId, inquiry, own, .replied result⟩ := by
    have hback : (f.putDesk id ⟨userId, .running, [k]⟩).putDesk id ⟨userId, .running, []⟩ = f := by
      rw [putDesk_putDesk, putDesk_self hdesk]
    have hopen : ((f.putDesk id ⟨userId, .running, [k]⟩).putQuery k
        ⟨id, userId, inquiry, own, .waiting⟩).desks id = some ⟨userId, .running, [k]⟩ :=
      Function.update_self ..
    have hruns : ((f.putDesk id ⟨userId, .running, [k]⟩).putQuery k
        ⟨id, userId, inquiry, own, .waiting⟩).isLive id = true := hlive
    simp only [step, handle, hopen, hruns, and_self, if_true, putQuery_putDesk, hback]
    simp [answer, putQuery, stageQuery, onHall, hx, hturn, hresult]
  rw [run, List.foldl, hsent, List.foldl, hread]
  simp [step, receive, putQuery, stageQuery]

/-- A session that has stopped is filed and released, and its desk is closed. -/
theorem run_end {f : Floor σ} {id userId : String}
    (hdesk : f.desks id = some ⟨userId, .running, []⟩) (hover : f.isLive id = false) :
    f.run [.file id, .release id, .close id] =
      { (f.onHall fun h => (h.file id).release id).putDesk id ⟨userId, .closed, []⟩ with
        filed := f.filed ++ [id] } := by
  have hnobody : (fun k => (f.queries k).map (dismiss id [] k)) = f.queries := by
    funext k
    refine (congrArg (Option.map · (f.queries k)) ?_).trans (congrFun Option.map_id _)
    funext q
    unfold dismiss
    split <;> simp
  simp [run, step, file, release, close, putDesk, onHall, hdesk, hover, hnobody]

/-! ## Between two calls -/

/-- Every session that is registered runs, and has no letters to read. -/
structure Quiet (f : Floor σ) : Prop where
  desks : ∀ id r, f.hall.registry.find? id = some r → f.desks id = some ⟨r.userId, .running, []⟩
  live : ∀ id r, f.hall.registry.find? id = some r → r.value.sitting.isRunning = true

/-- Some moves lead from one floor to the other. -/
def Leads (f g : Floor σ) : Prop := ∃ moves, f.run moves = g

variable {f} {k} {id} {g h : Floor σ}

theorem Leads.trans (hfg : f.Leads g) (hgh : g.Leads h) : f.Leads h := by
  obtain ⟨first, rfl⟩ := hfg
  obtain ⟨rest, rfl⟩ := hgh
  exact ⟨first ++ rest, run_append f first rest⟩

theorem leads_step (f : Floor σ) (m : Move) : f.Leads (f.step m) := ⟨[m], rfl⟩

theorem leads_of_run {m : List Move} (hrun : f.run m = g) : f.Leads g := ⟨m, hrun⟩

/-- Inquiries and starts are where they were. -/
structure Beside (f g : Floor σ) : Prop where
  queries : g.queries = f.queries
  enrolments : g.enrolments = f.enrolments

/-- Some moves lead to a quiet floor with this service, and nothing else has happened there. -/
def Reaches (f : Floor σ) (s : Service σ) : Prop :=
  ∃ g, f.Leads g ∧ g.Quiet ∧ g.service = s ∧ f.Beside g

theorem Reaches.of_leads {s : Service σ} (hleads : f.Leads g) (hbeside : f.Beside g)
    (hreaches : g.Reaches s) : f.Reaches s := by
  obtain ⟨e, hrest, hquiet, hservice, hbeside'⟩ := hreaches
  exact ⟨e, hleads.trans hrest, hquiet, hservice, hbeside'.queries.trans hbeside.queries,
    hbeside'.enrolments.trans hbeside.enrolments⟩

theorem Reaches.trans {s t : Service σ} (hfirst : f.Reaches s)
    (hnext : ∀ g, f.Leads g → g.Quiet → g.service = s → g.Reaches t) : f.Reaches t := by
  obtain ⟨g, hleads, hquiet, hservice, hbeside⟩ := hfirst
  exact (hnext g hleads hquiet hservice).of_leads hleads hbeside

theorem Quiet.of_registry (hquiet : f.Quiet) (hregistry : g.hall.registry = f.hall.registry)
    (hdesks : g.desks = f.desks) : g.Quiet where
  desks := by
    rw [hregistry, hdesks]
    exact hquiet.desks
  live := by
    rw [hregistry]
    exact hquiet.live

/-- The scribe of a session works for as long as it can. -/
theorem Quiet.reaches_work (hquiet : f.Quiet) (id : String) :
    f.Reaches { f.service with hall := f.hall.work id } := by
  have hstill := Hall.still_toil f.hall id (f.hall.attempts id)
  exact ⟨_, leads_step f (.write id (f.hall.attempts id)), hquiet.of_registry hstill.registry rfl,
    rfl, rfl, rfl⟩

/-- After the turn of a session, the session is ended if it has to, and its scribe works. -/
theorem reaches_settled {r : Running Seat}
    (hdesks : ∀ other r, f.hall.registry.find? other = some r →
      f.desks other = some ⟨r.userId, .running, []⟩)
    (hlive : ∀ other r, other ≠ id → f.hall.registry.find? other = some r →
      r.value.sitting.isRunning = true)
    (hfind : f.hall.registry.find? id = some r) :
    f.Reaches { f.service with hall := (f.hall.tellEnd id).work id } := by
  cases hrun : r.value.sitting.isRunning with
  | true =>
    have hquiet : f.Quiet := by
      refine ⟨hdesks, fun other s hother => ?_⟩
      by_cases hid : other = id
      · subst hid
        obtain rfl := Option.some.inj (hfind.symm.trans hother)
        exact hrun
      · exact hlive other s hid hother
    rw [Hall.tellEnd, hfind, Option.any_some, if_pos hrun]
    exact hquiet.reaches_work id
  | false =>
    -- the session that has stopped goes, so whoever is left has run all the while
    have hover : f.isLive id = false := by rw [isLive, hfind, Option.any_some, hrun]
    have hended := run_end (hdesks id r hfind) hover
    have hgone : ∀ other s, ((f.hall.file id).release id).registry.find? other = some s →
        other ≠ id ∧ f.hall.registry.find? other = some s := by
      intro other s hother
      have hregistry : ((f.hall.file id).release id).registry =
          (f.hall.registry.file id r.value.sitting.snapshot).release id := by
        rw [Hall.file, hfind]
        rfl
      rw [hregistry, Registry.find?_release] at hother
      split at hother
      · cases hother
      · rename_i hid
        exact ⟨hid, hother⟩
    rw [Hall.tellEnd, hfind, Option.any_some, hrun]
    refine Reaches.of_leads (leads_of_run hended) ⟨rfl, rfl⟩ (Quiet.reaches_work ⟨?_, ?_⟩ id)
    · intro other s hother
      obtain ⟨hid, hfound⟩ := hgone other s hother
      exact (Function.update_of_ne hid ..).trans (hdesks other s hfound)
    · intro other s hother
      obtain ⟨hid, hfound⟩ := hgone other s hother
      exact hlive other s hid hfound

/-- The same when the session has just had a turn on a quiet floor. -/
theorem Quiet.reaches_turned (hquiet : f.Quiet) {r : Running Seat} {seat : Seat}
    (hfind : f.hall.registry.find? id = some r)
    (hregistry : g.hall.registry = f.hall.registry.update id seat) (hdesks : g.desks = f.desks) :
    g.Reaches { g.service with hall := (g.hall.tellEnd id).work id } := by
  have hsame : ∀ other s, g.hall.registry.find? other = some s → ∃ t,
      f.hall.registry.find? other = some t ∧ t.userId = s.userId ∧ (other ≠ id → t = s) := by
    intro other s hother
    rw [hregistry] at hother
    exact Registry.exists_of_find?_update hother
  refine reaches_settled (fun other s hother => ?_) (fun other s hid hother => ?_)
    ((congrArg (Registry.find? · id) hregistry).trans (Registry.find?_update_self hfind seat))
  · obtain ⟨t, ht, huser, -⟩ := hsame other s hother
    rw [hdesks, ← huser]
    exact hquiet.desks other t ht
  · obtain ⟨t, ht, -, heq⟩ := hsame other s hother
    exact heq hid ▸ hquiet.live other t ht

/-! ## Inquiries -/

/-- The inquiry is made from a quiet floor: some moves do what the call does, and lead to a quiet
floor again. -/
def Makes (f : Floor σ) (k : Nat) (id userId : String) (inquiry : Inquiry) (g : Floor σ) : Prop :=
  f.Leads g ∧ g.Quiet ∧ g.service = ((inquiry.call id userId).run f.service).2 ∧
    g.queries = Function.update f.queries k
      (some ⟨id, userId, inquiry, f.owns id userId,
        .done ((inquiry.call id userId).run f.service).1⟩) ∧
    g.enrolments = f.enrolments

theorem Quiet.makes (hquiet : f.Quiet) {userId : String} {inquiry : Inquiry}
    {result : Except Fault Told} {service : Service σ}
    (hcall : (inquiry.call id userId).run f.service = (result, service))
    (hregistry : service.hall.registry = f.hall.registry)
    (hleads : f.Leads (({ f with service } : Floor σ).putQuery k
      ⟨id, userId, inquiry, f.owns id userId, .done result⟩)) :
    ∃ g, f.Makes k id userId inquiry g :=
  ⟨_, hleads, hquiet.of_registry hregistry rfl, by rw [hcall]; rfl, by rw [hcall]; rfl, rfl⟩

/-- What the service finds of a session that does not run. -/
theorem run_finished (id userId : String) (s : Service σ) :
    (Service.finished id userId).run s =
      match s.hall.registry.archive.find? id with
      | some final =>
        (if final.session.userId = userId then .ok final else .error .forbidden, s)
      | none =>
        match ((Service.recorded id).run s).1 with
        | .ok final =>
          (if final.session.userId = userId then .ok final else .error .forbidden, s)
        | .error fault => (.error fault, s) := by
  unfold Service.finished
  simp only [Call.run_bind, Service.run_service]
  cases s.hall.registry.archive.find? id with
  | some final =>
    dsimp only
    rw [Call.run_bind, Call.run_pure]
    dsimp only
    split <;> rfl
  | none =>
    dsimp only
    rw [Call.run_bind]
    rcases Service.run_recorded_cases s id with ⟨final, hrun, -⟩ | ⟨hrun, -⟩ | ⟨fault, hrun, -⟩
    · rw [hrun]
      dsimp only
      split <;> rfl
    · rw [hrun]
    · rw [hrun]

/-- A search that finds the end of a session ends as the call does. -/
theorem Quiet.makes_found (hquiet : f.Quiet) {userId : String} {inquiry : Inquiry}
    {final : Snapshot} (stage : QueryStage) (hgone : f.hall.registry.find? id = none)
    (hfinished : (Service.finished id userId).run f.service =
      (if final.session.userId = userId then .ok final else .error .forbidden, f.service))
    (hleads : f.Leads ((f.putQuery k ⟨id, userId, inquiry, f.owns id userId, stage⟩).findFinal k
      ⟨id, userId, inquiry, f.owns id userId, stage⟩ final)) :
    ∃ g, f.Makes k id userId inquiry g := by
  have hrunning : (Service.isRunningFor id userId).run f.service = (.ok false, f.service) :=
    Service.run_isRunningFor_gone hgone
  have hcall := Inquiry.run_gone hrunning inquiry
  rw [hfinished] at hcall
  unfold findFinal at hleads
  by_cases howner : final.session.userId = userId
  · rw [if_pos howner] at hcall hleads
    refine hquiet.makes hcall rfl ?_
    have hsame := (f.onHall (·.jot (inquiry.finalNotes id))).putQuery_putQuery k
      ⟨id, userId, inquiry, f.owns id userId, stage⟩
      ⟨id, userId, inquiry, f.owns id userId, .done (inquiry.ofFinal id final)⟩
    exact hsame ▸ hleads
  · rw [if_neg howner] at hcall hleads
    refine hquiet.makes hcall rfl ?_
    have hsame := f.putQuery_putQuery k ⟨id, userId, inquiry, f.owns id userId, stage⟩
      ⟨id, userId, inquiry, f.owns id userId, .done (.error .forbidden)⟩
    exact hsame ▸ hleads

section Inquiries

variable (hquiet : f.Quiet) (hfree : f.queries k = none) (userId : String) (inquiry : Inquiry)
include hquiet hfree

omit hquiet in
theorem leads_inquire (id : String) :
    f.Leads (f.putQuery k ⟨id, userId, inquiry, f.owns id userId, .looking⟩) := by
  refine leads_of_run (m := [.inquire k id userId inquiry]) ?_
  simp only [run, List.foldl, step, inquire, hfree]

theorem Quiet.makes_gone (hgone : f.hall.registry.find? id = none) :
    ∃ g, f.Makes k id userId inquiry g := by
  have hrunning : (Service.isRunningFor id userId).run f.service = (.ok false, f.service) :=
    Service.run_isRunningFor_gone hgone
  have hmissed : f.Leads (f.putQuery k ⟨id, userId, inquiry, f.owns id userId, .searching⟩) := by
    refine (leads_inquire hfree userId inquiry id).trans (leads_of_run (m := [.lookUp k]) ?_)
    simp [run, step, lookUp, putQuery, stageQuery, hrunning]
  have hfinished := run_finished id userId f.service
  cases harchived : f.hall.registry.archive.find? id with
  | some final =>
    rw [harchived] at hfinished
    refine hquiet.makes_found .searching hgone hfinished
      (hmissed.trans (leads_of_run (m := [.search k]) ?_))
    simp [run, step, search, putQuery, harchived]
  | none =>
    rw [harchived] at hfinished
    have hread : f.Leads (f.putQuery k ⟨id, userId, inquiry, f.owns id userId, .reading⟩) := by
      refine hmissed.trans (leads_of_run (m := [.search k]) ?_)
      simp [run, step, search, putQuery, stageQuery, harchived]
    cases hrecorded : ((Service.recorded id).run f.service).1 with
    | ok final =>
      rw [hrecorded] at hfinished
      refine hquiet.makes_found .reading hgone hfinished
        (hread.trans (leads_of_run (m := [.read k]) ?_))
      simp [run, step, read, putQuery, hrecorded]
    | error fault =>
      rw [hrecorded] at hfinished
      have hcall := Inquiry.run_gone hrunning inquiry
      rw [hfinished] at hcall
      refine hquiet.makes hcall rfl (hread.trans (leads_of_run (m := [.read k]) ?_))
      simp [run, step, read, putQuery, stageQuery, hrecorded]

theorem Quiet.makes_refused
    (hrefused : (Service.isRunningFor id userId).run f.service = (.error .forbidden, f.service)) :
    ∃ g, f.Makes k id userId inquiry g := by
  refine hquiet.makes (Inquiry.run_refused hrefused inquiry) rfl
    ((leads_inquire hfree userId inquiry id).trans (leads_of_run (m := [.lookUp k]) ?_))
  simp [run, step, lookUp, putQuery, stageQuery, hrefused]

theorem Quiet.makes_owner {r : Running Seat} (hfind : f.hall.registry.find? id = some r)
    (howner : r.userId = userId) : ∃ g, f.Makes k id userId inquiry g := by
  have hrunning := Service.run_isRunningFor_owner hfind howner
  cases hx : inquiry.stimulus? with
  | none =>
    obtain ⟨relays, notes, hcall⟩ := run_untold hx (congrArg Prod.fst hrunning)
    refine hquiet.makes hcall rfl
      ((leads_inquire hfree userId inquiry id).trans (leads_of_run (m := [.lookUp k]) ?_))
    simp [run, step, lookUp, putQuery, stageQuery, hrunning, hx, hcall]
  | some x =>
    have hsend : f.Leads (f.putQuery k ⟨id, userId, inquiry, f.owns id userId, .sending⟩) := by
      refine (leads_inquire hfree userId inquiry id).trans (leads_of_run (m := [.lookUp k]) ?_)
      simp [run, step, lookUp, putQuery, stageQuery, hrunning, hx]
    have hlive := hquiet.live id r hfind
    have hdesk : f.desks id = some ⟨userId, .running, []⟩ := howner ▸ hquiet.desks id r hfind
    have hlives : f.isLive id = true := by rw [isLive, hfind, Option.any_some, hlive]
    obtain ⟨result, hresult⟩ := Inquiry.exists_ofReply? (Hall.ledger r.value)
      (f.hall.scene r.value) (s := (r.value.sitting, r.value.lives)) hlive hx id
    obtain ⟨hregistry, -⟩ := Hall.turn_effect hfind x
    have hturn : f.hall.turn id x =
        (some ((Turn.step (Hall.ledger r.value) (f.hall.scene r.value) x).value
          (r.value.sitting, r.value.lives)), (f.hall.turn id x).2) := by
      rw [Hall.turn_of_find? hfind]
    -- the call takes the turn, the end and the work in one go, the floor one after the other
    have htell := Hall.tell_eq hfind x
    generalize (f.hall.turn id x).2 = after at hregistry hturn htell
    rw [hturn] at htell
    have hcall := Inquiry.run_told hrunning hx htell hresult
    have hletter := hsend.trans (leads_of_run (run_letter hdesk hlives hx hturn hresult))
    obtain ⟨g, hleads, hg, hservice, hbeside⟩ := hquiet.reaches_turned
      (g := (f.onHall fun _ => after).putQuery k
        ⟨id, userId, inquiry, f.owns id userId, .done result⟩) hfind hregistry rfl
    refine ⟨g, hletter.trans hleads, hg, ?_, ?_, hbeside.enrolments⟩
    · rw [hservice, hcall]
      rfl
    · rw [hbeside.queries, hcall]
      rfl

/-- **On a quiet floor, the moves of an inquiry add up to its call**, and leave a quiet floor. -/
theorem Quiet.exists_makes (id : String) : ∃ g, f.Makes k id userId inquiry g := by
  rcases Service.run_isRunningFor_cases id userId f.service with
    ⟨hgone, -⟩ | ⟨r, hfind, ⟨howner, -⟩ | ⟨-, hrefused⟩⟩
  · exact hquiet.makes_gone hfree userId inquiry hgone
  · exact hquiet.makes_owner hfree userId inquiry hfind howner
  · exact hquiet.makes_refused hfree userId inquiry hrefused

end Inquiries

/-! ## Starts -/

/-- What is left of a start when its seat is set up: its first turn, the work of its scribe, and the
note that it has succeeded. -/
def started (userId : String) (response : StartResponse) (h : Hall) : Hall :=
  ((h.commence response.sessionId).work response.sessionId).jot [startedNote userId response]

theorem run_seatWith (make : Settings → Hall → Seat × List Directive) (userId : String)
    (r : StartRequest) (questions : Trio Question) (s : Service σ)
    (hnew : s.hall.registry.find? (make s.config.exam s.hall).1.sitting.session.id = none)
    (hrun : (make s.config.exam s.hall).1.sitting.isRunning = true) :
    (Service.seatWith make userId r questions).run s =
      match (admitWith make r questions).run s with
      | (.error fault, s) => (.error fault, s)
      | (.ok response, s) => (.ok response, { s with hall := started userId response s.hall }) := by
  rw [Service.seatWith, admitWith, Call.run_bind, Call.run_bind, Service.run_service]
  dsimp only
  have hdrawn : s.hall.draw.registry = s.hall.registry := rfl
  rw [Hall.accept_eq, hdrawn]
  cases hfree : s.hall.registry.sessionOf? (make s.config.exam s.hall).1.sitting.session.userId with
  | some existing =>
    rw [Hall.launch_busy (hdrawn ▸ hfree), Call.run_fail]
  | none =>
    have hviews : QuestionView.id ∘ Question.view = Question.id := rfl
    rw [Hall.launch_eq _ (hdrawn ▸ hfree) (hdrawn ▸ hnew) hrun]
    dsimp only
    rw [Call.run_bind, Call.run_bind, Service.run_changeHall, Service.run_changeHall]
    dsimp only
    rw [Call.run_bind, Service.run_jot]
    dsimp only
    rw [Call.run_pure, Call.run_pure]
    dsimp only
    rw [started, startedNote, List.map_map, hviews]

/-- A start whose two questions are answered is an admission, and what is left after that. -/
theorem run_begin (userId : String) (r : StartRequest) (s : Service σ)
    (hnew : s.hall.registry.find? (s.hall.source.sessionId s.hall.drawn) = none) :
    (Service.begin userId r).run s =
      match (admission userId r).run s with
      | (.error fault, s) => (.error fault, s)
      | (.ok response, s) => (.ok response, { s with hall := started userId response s.hall }) := by
  rw [Service.begin_eq, admission, Call.run_bind, Call.run_bind]
  obtain ⟨notes, ⟨questions, hchosen⟩ | ⟨topic, available, hchosen⟩⟩ :=
    Service.chooseQuestions_cases r s
  · rw [hchosen]
    have hseat := isNew_newSeat s.config.exam (s.hall.jot notes) userId r.language questions
    refine run_seatWith _ userId r questions _ ?_ ?_
    · exact (congrArg s.hall.registry.find? hseat.id_eq).trans hnew
    · rw [Sitting.isRunning, hseat.active, hseat.awake]
      rfl
  · rw [hchosen]

/-- The start is made from a quiet floor: some moves do what the call does, and lead to a quiet
floor again. -/
def Begins (f : Floor σ) (k : Nat) (userId : String) (r : StartRequest) (g : Floor σ) : Prop :=
  f.Leads g ∧ g.Quiet ∧ g.service = ((Service.start userId r).run f.service).2 ∧
    g.enrolments = Function.update f.enrolments k
      (some ⟨userId, r, .done ((Service.start userId r).run f.service).1⟩) ∧
    g.queries = f.queries

theorem Quiet.begins (hquiet : f.Quiet) {userId : String} {r : StartRequest}
    {result : Except Fault StartResponse} {service : Service σ}
    (hcall : (Service.start userId r).run f.service = (result, service))
    (hregistry : service.hall.registry = f.hall.registry)
    (hleads : f.Leads (({ f with service } : Floor σ).putEnrolment k
      ⟨userId, r, .done result⟩)) :
    ∃ g, f.Begins k userId r g :=
  ⟨_, hleads, hquiet.of_registry hregistry rfl, by rw [hcall]; rfl, by rw [hcall]; rfl, rfl⟩

theorem registry_started (userId : String) (response : StartResponse) (h : Hall) :
    (started userId response h).registry = (h.commence response.sessionId).registry := by
  rw [started, Hall.work_eq_toil]
  exact (Hall.still_toil ..).registry

/-- The first turn leaves the seats as they are. -/
theorem find?_started {userId : String} {response : StartResponse} {h : Hall} {r : Running Seat}
    (hfind : h.registry.find? response.sessionId = some r) (other : String) :
    (started userId response h).registry.find? other = h.registry.find? other := by
  rw [registry_started, Hall.commence_of_find? hfind, Hall.act_registry]
  by_cases hid : other = response.sessionId
  · subst hid
    exact (Registry.find?_update_self hfind r.value).trans hfind.symm
  · exact Registry.find?_update_of_ne hid _

/-- After the launch, the session begins to run, and the start is told so. -/
theorem run_launched {f : Floor σ} {k : Nat} {userId : String} {r : StartRequest}
    {response : StartResponse} :
    ((f.putEnrolment k ⟨userId, r, .launched response⟩).putDesk response.sessionId
        ⟨userId, .seated, []⟩).run
      [.commence response.sessionId,
        .write response.sessionId
          ((f.hall.commence response.sessionId).attempts response.sessionId), .confirm k] =
      ((f.onHall (started userId response)).putEnrolment k
        ⟨userId, r, .done (.ok response)⟩).putDesk response.sessionId ⟨userId, .running, []⟩ := by
  simp [run, step, commence, confirm, putDesk, putEnrolment, onHall, started, Hall.work_eq_toil]

/-- No session runs under the id that is given next. -/
theorem Sound.find?_next (h : f.Sound ids) (hinjective : Function.Injective ids) :
    f.hall.registry.find? (f.hall.source.sessionId f.hall.drawn) = none := by
  cases hfind : f.hall.registry.find? (f.hall.source.sessionId f.hall.drawn) with
  | none => rfl
  | some r =>
    obtain ⟨stage, hat, -⟩ := h.at_of_find? hfind
    obtain ⟨n, hn, hid⟩ := h.drawn _ _ _ hat
    rw [h.source] at hid
    exact absurd hn (by rw [hinjective hid]; exact Nat.lt_irrefl n)

/-- One more session that runs, at a desk of its own. -/
theorem Quiet.of_seated (hquiet : f.Quiet) {userId : String} {seat : Seat}
    (hfind : ∀ other, g.hall.registry.find? other =
      if other = id then some ⟨id, userId, seat⟩ else f.hall.registry.find? other)
    (hdesks : g.desks = Function.update f.desks id (some ⟨userId, .running, []⟩))
    (hrun : seat.sitting.isRunning = true) : g.Quiet where
  desks other r hr := by
    rw [hfind] at hr
    rw [hdesks]
    split at hr
    · rename_i hid
      subst hid
      obtain rfl := Option.some.inj hr
      exact Function.update_self ..
    · rename_i hid
      rw [Function.update_of_ne hid]
      exact hquiet.desks other r hr
  live other r hr := by
    rw [hfind] at hr
    split at hr
    · obtain rfl := Option.some.inj hr
      exact hrun
    · exact hquiet.live other r hr

/-- A start whose two questions are answered. -/
theorem Quiet.exists_enters (hquiet : f.Quiet) (hsound : f.Sound ids)
    (hinjective : Function.Injective ids) {userId : String} {r : StartRequest}
    (hstart : (Service.start userId r).run f.service = (Service.begin userId r).run f.service)
    (hentering : f.Leads (f.putEnrolment k ⟨userId, r, .entering⟩)) :
    ∃ g, f.Begins k userId r g := by
  have hbegin := run_begin userId r f.service (hsound.find?_next hinjective)
  rw [← hstart] at hbegin
  obtain ⟨notes, ⟨fault, hrun, -⟩ | ⟨response, seat, hrun, hfree, hseat, hid⟩⟩ :=
    admission_cases userId r f.service
  · rw [hrun] at hbegin
    refine hquiet.begins hbegin rfl (hentering.trans (leads_of_run (m := [.launch k]) ?_))
    simp [run, step, launch, putEnrolment, enrolBy, hrun]
  · rw [hrun] at hbegin
    have hidSeat : seat.sitting.session.id = response.sessionId := hseat.id_eq.trans hid.symm
    let e : Floor σ :=
      { f with service := { f.service with hall := (f.hall.jot notes).draw.seated seat } }
    have hlaunched : f.Leads ((e.putEnrolment k ⟨userId, r, .launched response⟩).putDesk
        response.sessionId ⟨userId, .seated, []⟩) := by
      refine hentering.trans (leads_of_run (m := [.launch k]) ?_)
      simp [run, step, launch, putEnrolment, enrolBy, hrun, e]
    have hstill : f.hall.Still (f.hall.jot notes) := ⟨rfl, rfl, Nat.le_refl _⟩
    obtain ⟨-, -, hfind⟩ := hsound.registry_launched (g := e) hinjective hstill hseat rfl
    rw [hidSeat] at hfind
    have hhere : e.hall.registry.find? response.sessionId =
        some ⟨response.sessionId, userId, seat⟩ := (hfind _).trans (if_pos rfl)
    have hrunning : seat.sitting.isRunning = true := by
      rw [Sitting.isRunning, hseat.active, hseat.awake]
      rfl
    have hafter : ∀ other, (started userId response e.hall).registry.find? other =
        if other = response.sessionId then some ⟨response.sessionId, userId, seat⟩
        else f.hall.registry.find? other :=
      fun other => (find?_started hhere other).trans (hfind other)
    have hdone := hlaunched.trans (leads_of_run run_launched)
    refine ⟨_, hdone, hquiet.of_seated hafter rfl hrunning, ?_, ?_, rfl⟩
    · rw [hbegin]
      rfl
    · rw [hbegin]
      rfl

/-- **On a quiet floor, the moves of a start add up to its call**, and leave a quiet floor. -/
theorem Quiet.exists_begins (hquiet : f.Quiet) (hsound : f.Sound ids)
    (hinjective : Function.Injective ids) (hfree : f.enrolments k = none) (userId : String)
    (r : StartRequest) : ∃ g, f.Begins k userId r g := by
  have hchecking : f.Leads (f.putEnrolment k ⟨userId, r, .checking⟩) := by
    refine leads_of_run (m := [.enrol k userId r]) ?_
    simp only [run, List.foldl, step, enrol, hfree]
  have hcheck := Service.run_checkFree userId f.service
  cases hsits : f.hall.registry.sessionOf? userId with
  | some existing =>
    rw [hsits] at hcheck
    have hcall : (Service.start userId r).run f.service =
        (.error (.alreadyInProgress existing), f.service) := by
      rw [Service.start, Call.run_bind, hcheck]
    refine hquiet.begins hcall rfl (hchecking.trans (leads_of_run (m := [.checkFree k]) ?_))
    simp [run, step, checkFree, putEnrolment, enrolBy, hcheck]
  | none =>
    rw [hsits] at hcheck
    have hasking : f.Leads (f.putEnrolment k ⟨userId, r, .asking⟩) := by
      refine hchecking.trans (leads_of_run (m := [.checkFree k]) ?_)
      simp [run, step, checkFree, putEnrolment, enrolBy, hcheck]
    have hgate := Service.run_checkEligible userId f.service
    cases heligible : f.hall.courier.records.gate.isEligible userId with
    | false =>
      rw [if_neg (by simp [heligible])] at hgate
      have hcall : (Service.start userId r).run f.service =
          (.error .ineligible, { f.service with
            hall := f.hall.jot
              [.info ("Exam start refused, user " ++ userId ++ " is not eligible")] }) := by
        rw [Service.start, Call.run_bind, hcheck]
        dsimp only
        rw [Service.enrol, Call.run_bind, hgate]
      refine hquiet.begins hcall rfl (hasking.trans (leads_of_run (m := [.askGate k]) ?_))
      simp [run, step, askGate, putEnrolment, enrolBy, hgate]
    | true =>
      rw [if_pos heligible] at hgate
      have hentering : f.Leads (f.putEnrolment k ⟨userId, r, .entering⟩) := by
        refine hasking.trans (leads_of_run (m := [.askGate k]) ?_)
        simp [run, step, askGate, putEnrolment, enrolBy, hgate]
      have hstart : (Service.start userId r).run f.service =
          (Service.begin userId r).run f.service := by
        rw [Service.start, Call.run_bind, hcheck]
        dsimp only
        rw [Service.enrol, Call.run_bind, hgate]
      exact hquiet.exists_enters hsound hinjective hstart hentering

end Floor

/-! ## Time -/

namespace Hall

variable (h : Hall) (id : String)

theorem now_performed (as : List Action) :
    (as.foldl (fun h a => h.perform id a) h).now = h.now := by
  induction as generalizing h with
  | nil => rfl
  | cons a as ih =>
    refine (ih (h.perform id a)).trans ?_
    cases a with
    | publish | note => rfl
    | write w =>
      simp only [perform, hand]
      split <;> rfl

theorem now_act (seat : Seat) (state : Sitting × Shelf) (as : List Action) :
    (h.act id seat state as).now = h.now := now_performed h.draw id as

theorem now_turn (x : Stimulus) : (h.turn id x).2.now = h.now := by
  unfold turn
  split
  · rfl
  · exact now_act ..

theorem now_moveTick : (h.moveTick id).now = h.now := by
  unfold moveTick
  split <;> rfl

theorem now_work : (h.work id).now = h.now := by
  unfold work
  dsimp only
  split <;> rfl

theorem now_tellEnd : (h.tellEnd id).now = h.now := by
  unfold tellEnd
  split
  · rfl
  · change (h.file id).now = h.now
    unfold file
    split <;> rfl

theorem now_tell (x : Stimulus) : (h.tell id x).2.now = h.now := by
  cases hfind : h.registry.find? id with
  | none =>
    unfold tell
    rw [hfind]
  | some r => rw [tell_eq hfind, now_work, now_tellEnd, now_turn]

theorem now_fire (due : Due) : (h.fire due).now = h.now := by
  cases due with
  | tick id => exact (now_tell ..).trans (now_moveTick ..)
  | grace id => exact now_tell ..
  | errand id => exact now_work ..

/-- What is due at a session is due at its seat. -/
theorem duesOf_id {r : Running Seat} {t : Instant} {due : Due} (h : (t, due) ∈ duesOf r) :
    due = .tick r.sessionId ∨ due = .grace r.sessionId := by
  have htick : ∀ e ∈ (if r.value.sitting.timer.isRunning then
      [(r.value.nextTick, Due.tick r.sessionId)] else []), e.2 = .tick r.sessionId := by
    intro e he
    split at he
    · rw [List.mem_singleton.mp he]
    · cases he
  unfold duesOf at h
  dsimp only at h
  split at h
  · exact .inl (htick _ h)
  · rcases List.mem_cons.mp h with hgrace | hrest
    · exact .inr (congrArg Prod.snd hgrace)
    · exact .inl (htick _ hrest)

theorem mem_nextDue? {h : Hall} {d : Instant × Due} (hnext : h.nextDue? = some d) : d ∈ h.dues := by
  have hfold : ∀ (rest : List (Instant × Due)) (first : Instant × Due),
      rest.foldl sooner first ∈ first :: rest := by
    intro rest
    induction rest with
    | nil => exact fun first => List.mem_singleton_self first
    | cons e rest ih =>
      intro first
      rcases List.mem_cons.mp (ih (sooner first e)) with hmem | hmem
      · rw [List.foldl_cons, hmem, sooner]
        split <;> simp
      · exact List.mem_cons_of_mem _ (List.mem_cons_of_mem _ hmem)
  unfold nextDue? at hnext
  split at hnext
  · cases hnext
  · rename_i first rest hdues
    rw [hdues, ← Option.some.inj hnext]
    exact hfold rest first

end Hall

namespace Floor

variable {σ : Type} {ids : Nat → String} {f g : Floor σ}

/-- A session that runs is found under its id. -/
theorem Sound.find?_of_mem (h : f.Sound ids) {r : Running Seat}
    (hr : r ∈ f.hall.registry.active) : f.hall.registry.find? r.sessionId = some r := by
  cases hfind : f.hall.registry.find? r.sessionId with
  | none => exact absurd (List.find?_eq_none.mp hfind r hr) (by simp)
  | some s =>
    have hid := Registry.sessionId_of_find? hfind
    rw [List.inj_on_of_nodup_map h.sessions (List.mem_of_find?_eq_some hfind) hr hid]

/-- A session takes a turn that is due, at a desk that has nothing else to do. -/
theorem Quiet.reaches_fireAt (hquiet : f.Quiet) {id : String} {r : Running Seat}
    (hfind : f.hall.registry.find? id = some r) {t : Instant} {due : Hall.Due}
    (hdue : (t, due) ∈ Hall.duesOf r) (ht : t ≤ f.hall.now) {change : Hall → Hall} {seat : Seat}
    (hregistry : (change f.hall).registry = f.hall.registry.update id seat)
    (hfire : f.step (.fire due) = f.fireAt id due change) :
    f.Reaches { f.service with hall := ((change f.hall).tellEnd id).work id } := by
  have hready : f.isLive id = true ∧ f.isDue id due = true := by
    refine ⟨?_, ?_⟩
    · rw [isLive, hfind, Option.any_some, hquiet.live id r hfind]
    · rw [isDue, hfind, Option.any_some, List.any_eq_true]
      exact ⟨(t, due), hdue, by simp [ht]⟩
  have hturned : f.step (.fire due) = f.onHall change := by
    rw [hfire, fireAt, hquiet.desks id r hfind]
    exact if_pos ⟨rfl, hready⟩
  exact (hquiet.reaches_turned (g := f.onHall change) hfind hregistry rfl).of_leads
    (leads_of_run (m := [.fire due]) hturned) ⟨rfl, rfl⟩

/-- **What is due happens on a quiet floor as in the hall.** -/
theorem Quiet.reaches_fire (hquiet : f.Quiet) (hsound : f.Sound ids) {t : Instant}
    {due : Hall.Due} (hdue : (t, due) ∈ f.hall.dues) (ht : t ≤ f.hall.now) :
    f.Reaches { f.service with hall := f.hall.fire due } := by
  rcases List.mem_append.mp hdue with hseat | herrand
  · obtain ⟨r, hr, hdue⟩ := List.mem_flatMap.mp hseat
    have hfind := hsound.find?_of_mem hr
    rcases Hall.duesOf_id hdue with rfl | rfl
    · obtain ⟨seat, hmoved, -⟩ := Hall.exists_moveTick hfind
      have hfound : (f.hall.moveTick r.sessionId).registry.find? r.sessionId =
          some { r with value := seat } := by
        rw [hmoved]
        exact Registry.find?_update_self hfind seat
      obtain ⟨hregistry, -⟩ := Hall.turn_effect hfound .tick
      have htell : f.hall.fire (.tick r.sessionId) =
          ((((f.hall.moveTick r.sessionId).turn r.sessionId .tick).2).tellEnd r.sessionId).work
            r.sessionId := congrArg Prod.snd (Hall.tell_eq hfound .tick)
      have hset := congrArg Hall.registry hmoved
      rw [hset, Registry.update_update] at hregistry
      have hfire : f.step (.fire (.tick r.sessionId)) = f.fireAt r.sessionId (.tick r.sessionId)
          fun h => ((h.moveTick r.sessionId).turn r.sessionId .tick).2 := rfl
      have hfired := hquiet.reaches_fireAt hfind hdue ht hregistry hfire
      rw [htell]
      exact hfired
    · obtain ⟨hregistry, -⟩ := Hall.turn_effect hfind .graceElapsed
      have htell : f.hall.fire (.grace r.sessionId) =
          (((f.hall.turn r.sessionId .graceElapsed).2).tellEnd r.sessionId).work r.sessionId :=
        congrArg Prod.snd (Hall.tell_eq hfind .graceElapsed)
      have hfire : f.step (.fire (.grace r.sessionId)) = f.fireAt r.sessionId (.grace r.sessionId)
          fun h => (h.turn r.sessionId .graceElapsed).2 := rfl
      have hfired := hquiet.reaches_fireAt hfind hdue ht hregistry hfire
      rw [htell]
      exact hfired
  · obtain ⟨⟨id, scribe⟩, -, herrand⟩ := List.mem_filterMap.mp herrand
    obtain ⟨due', -, hsame⟩ := Option.map_eq_some_iff.mp herrand
    obtain rfl : Hall.Due.errand id = due := congrArg Prod.snd hsame
    exact hquiet.reaches_work id

/-- Time passes up to a moment, while nothing is due. -/
theorem Quiet.reaches_passed (hquiet : f.Quiet) {t : Instant} (ht : f.hall.now ≤ t) :
    f.Reaches { f.service with hall := { f.hall with now := t } } := by
  refine ⟨_, leads_step f (.pass (t - f.hall.now)), hquiet.of_registry rfl rfl, ?_, rfl, rfl⟩
  simp only [step, onHall, Nat.add_sub_of_le ht]

theorem Sound.leads (h : f.Sound ids) (hinjective : Function.Injective ids) (hleads : f.Leads g) :
    g.Sound ids := by
  obtain ⟨moves, rfl⟩ := hleads
  exact h.run hinjective moves

/-- **Time passes on a quiet floor as in the hall.** -/
theorem Quiet.reaches_advance (hinjective : Function.Injective ids) (fuel : Nat) {target : Instant}
    {f : Floor σ} (hquiet : f.Quiet) (hsound : f.Sound ids) (htarget : f.hall.now ≤ target) :
    f.Reaches { f.service with hall := Hall.advanceFor fuel f.hall target } := by
  induction fuel generalizing f with
  | zero => exact hquiet.reaches_passed htarget
  | succ fuel ih =>
    unfold Hall.advanceFor
    split
    · exact hquiet.reaches_passed htarget
    · rename_i t due hnext
      split
      · rename_i ht
        -- the clock moves to what is due next, that happens, and the rest of the time passes
        refine (hquiet.reaches_passed (Nat.le_max_left f.hall.now t)).trans
          fun e hleads he hservice => ?_
        have hhall : e.hall = { f.hall with now := max f.hall.now t } :=
          congrArg Service.hall hservice
        have hdue : (t, due) ∈ e.hall.dues := by
          rw [hhall]
          exact Hall.mem_nextDue? hnext
        have hnow : t ≤ e.hall.now := by
          rw [hhall]
          exact Nat.le_max_right ..
        have hesound := hsound.leads hinjective hleads
        refine (he.reaches_fire hesound hdue hnow).trans fun g hleads' hg hservice' => ?_
        have hhall' : g.hall = ({ f.hall with now := max f.hall.now t } : Hall).fire due := by
          rw [← hhall]
          exact congrArg Service.hall hservice'
        have hlater : g.hall.now ≤ target := by
          rw [hhall', Hall.now_fire]
          exact Nat.max_le.mpr ⟨htarget, ht⟩
        have hrest := ih hg (hesound.leads hinjective hleads') hlater
        rw [hhall', hservice', hservice] at hrest
        exact hrest
      · exact hquiet.reaches_passed htarget

end Floor

/-! ## Demands in a row -/

/-- The demands that the floor takes apart, and those that are moves of it. -/
def Demand.isExams {σ : Type} : Demand σ → Bool
  | .start .. | .inquire .. | .approve .. | .advance _ | .switch _ | .trouble .. => true
  | _ => false

/-- To give a name to what a call gives changes nothing of what it does. -/
theorem Call.after_return {σ α β : Type} (c : Call σ α) (f : α → β) (s : Service σ) :
    ((do return f (← c) : Call σ β).run s).2 = (c.run s).2 := by
  rw [run_bind]
  rcases c.run s with ⟨fault | x, s'⟩
  · rfl
  · rfl

namespace Floor

variable {σ : Type} {ids : Nat → String} {f : Floor σ}

/-- No inquiry or start has come yet under this number, or a later one. -/
def Spare (f : Floor σ) (n : Nat) : Prop :=
  ∀ k, n ≤ k → f.queries k = none ∧ f.enrolments k = none

/-- **On a quiet floor, the moves of a demand add up to it**, and leave a quiet floor. -/
theorem Quiet.exists_meets (hquiet : f.Quiet) (hsound : f.Sound ids)
    (hinjective : Function.Injective ids) {n : Nat} (hspare : f.Spare n) {d : Demand σ}
    (hd : d.isExams = true) :
    ∃ g, f.Leads g ∧ g.Quiet ∧ g.service = (d.call.run f.service).2 ∧ g.Spare (n + 1) := by
  have hlater : f.Spare (n + 1) := fun k hk => hspare k (Nat.le_of_succ_le hk)
  cases d with
  | start userId r =>
    have hcall := Call.after_return (Service.start userId r) Result.started f.service
    obtain ⟨g, hleads, hg, hservice, henrolments, hqueries⟩ :=
      hquiet.exists_begins hsound hinjective (hspare n (Nat.le_refl n)).2 userId r
    refine ⟨g, hleads, hg, hservice.trans hcall.symm, fun k hk => ?_⟩
    rw [hqueries, henrolments, Function.update_of_ne (by omega)]
    exact hlater k hk
  | inquire id userId inquiry =>
    have hcall := Call.after_return (inquiry.call id userId) Result.told f.service
    obtain ⟨g, hleads, hg, hservice, hqueries, henrolments⟩ :=
      hquiet.exists_makes (hspare n (Nat.le_refl n)).1 userId inquiry id
    refine ⟨g, hleads, hg, hservice.trans hcall.symm, fun k hk => ?_⟩
    rw [hqueries, henrolments, Function.update_of_ne (by omega)]
    exact hlater k hk
  | approve userId approver =>
    have hcall := Call.after_return (Service.approve userId approver) Result.approved f.service
    obtain ⟨notes, happroved⟩ := Service.run_approve userId approver f.service
    refine ⟨_, leads_step f (.approve userId approver), hquiet.of_registry ?_ rfl, hcall.symm,
      hlater⟩
    simp only [Floor.step, happroved]
    rfl
  | advance ms =>
    have hcall : ((Demand.advance ms : Demand σ).call.run f.service).2 =
        { f.service with hall := f.hall.advance ms } := by
      simp only [Demand.call, Call.run_bind, Service.run_changeHall, Call.run_pure]
    obtain ⟨g, hleads, hg, hservice, hbeside⟩ :=
      hquiet.reaches_advance hinjective (f.hall.eventBound ms) hsound (Nat.le_add_right _ ms)
    rw [← Hall.advance] at hservice
    refine ⟨g, hleads, hg, hservice.trans hcall.symm, fun k hk => ?_⟩
    rw [hbeside.queries, hbeside.enrolments]
    exact hlater k hk
  | switch on =>
    exact ⟨_, leads_step f (.switch on), hquiet.of_registry rfl rfl, rfl, hlater⟩
  | trouble losses silences =>
    exact ⟨_, leads_step f (.trouble losses silences), hquiet.of_registry rfl rfl, rfl, hlater⟩
  | enrol | questions | latest | blocked | livesReport | loseLife | resetLives | health | shutdown
  | follow | leave | collect | count | practice => cases hd

/-- The floor of a new service is quiet. -/
theorem quiet_opened (config : Config) (catalog : Catalog) (practice : PracticeStore σ) (lives : σ)
    (time : Stamp) (source : Source) :
    (opened (.new config catalog practice lives time source)).Quiet where
  desks _ _ hfind := nomatch hfind
  live _ _ hfind := nomatch hfind

/-- Whatever is asked of the service in a row, there are moves from a quiet floor that leave just
the service that this leaves. -/
theorem Quiet.exists_run (hinjective : Function.Injective ids) {demands : List (Demand σ)}
    (hexams : ∀ d ∈ demands, d.isExams = true) {f : Floor σ} (hquiet : f.Quiet)
    (hsound : f.Sound ids) {n : Nat} (hspare : f.Spare n) {house : House σ}
    (hsame : f.service = house.service) :
    ∃ moves, (f.run moves).service = (House.run demands house).2.service := by
  induction demands generalizing f house n with
  | nil => exact ⟨[], hsame⟩
  | cons d demands ih =>
    obtain ⟨g, hleads, hg, hservice, hspare'⟩ :=
      hquiet.exists_meets hsound hinjective hspare (hexams d List.mem_cons_self)
    have hmet : g.service = (house.meet d).2.service := by
      rw [hservice, hsame, House.meet]
    obtain ⟨moves, hmoves⟩ := ih (fun d hd => hexams d (List.mem_cons_of_mem _ hd)) hg
      (hsound.leads hinjective hleads) hspare' hmet
    obtain ⟨first, rfl⟩ := hleads
    exact ⟨first ++ moves, by rw [run_append, hmoves]; rfl⟩

/-- **The floor has every run of the service**: what is asked of a new service in a row is asked of
it by the moves of some run. -/
theorem exists_serial (config : Config) (catalog : Catalog) (practice : PracticeStore σ) (lives : σ)
    (time : Stamp) (source : Source) (hfresh : Function.Injective source.sessionId)
    (demands : List (Demand σ)) (hexams : ∀ d ∈ demands, d.isExams = true) :
    let service := Service.new config catalog practice lives time source
    ∃ moves, ((opened service).run moves).service =
      (House.run demands (House.opened service)).2.service :=
  (quiet_opened config catalog practice lives time source).exists_run hfresh hexams
    (sound_opened config catalog practice lives time source) (n := 0) (fun _ _ => ⟨rfl, rfl⟩) rfl

end Floor

end Invigilator
