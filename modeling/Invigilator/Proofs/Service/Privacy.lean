import Invigilator.Proofs.Service.Blind
import Invigilator.Proofs.Service.Custody
import Invigilator.Proofs.Service.Invariant
import Invigilator.Proofs.Service.Seat
import Invigilator.Service.Startup
import Mathlib.Data.List.Nodup

/-!
# Sessions are private to their owners

A house is a service with a ghost: the list of sessions that were started, each with the user who
started it. Custody says that whatever the service keeps of a session it keeps for one of those.
So a user who has started none under an id is a stranger to it, in every state that a run leads
to, wherever in its life the session is: running, archived, only on record, suspended.

What a stranger asks changes nothing, so a run is the same without it: `run_private` strikes the
questions of strangers from a run and finds every other answer, and the service itself, as they
were.
-/

namespace Invigilator

/-! ## Runs -/

/-- Something that is asked of the service, or that befalls it. -/
inductive Demand (σ : Type) where
  | start (userId : String) (request : StartRequest)
  /-- A start whose first question was answered before. -/
  | enrol (userId : String) (request : StartRequest)
  | inquire (id userId : String) (inquiry : Inquiry)
  | questions (snapshot : Snapshot)
  | latest (limit : Int)
  | blocked
  | approve (userId approver : String)
  | livesReport (bucket : Bucket)
  | loseLife (bucket : Bucket)
  | resetLives (userId administrator : String)
  | health
  | shutdown
  /-- Time passes. -/
  | advance (ms : Nat)
  | follow (number : Nat)
  | leave (number : Nat)
  | collect (number : Nat)
  /-- A request is counted, under an id of its own. -/
  | count (notes : List Note)
  /-- The cabinet is switched on or off. -/
  | switch (on : Bool)
  /-- So many of the next writes get lost, or are not acknowledged. -/
  | trouble (losses silences : Nat)
  /-- The store for practice lives changes, or its clock, or how fast it is. -/
  | practice (lives : σ → σ) (livesTime : Option Stamp) (pingDelay : Nat)

/-- What comes of a demand. -/
inductive Result where
  | started (response : StartResponse)
  | told (told : Told)
  | questions (questions : List QuestionView)
  | sessions (sessions : Service.SessionList)
  | blocked (records : List EligibilityRecord)
  | approved (approved : Bool)
  | lives (report : LivesReport)
  | health (health : Service.Health)
  | events (events : List Event) (ended : Bool)
  | nothing

/-- The call that meets a demand. -/
def Demand.call {σ : Type} : Demand σ → Call σ Result
  | .start userId request => do return .started (← Service.start userId request)
  | .enrol userId request => do return .started (← Service.enrol userId request)
  | .inquire id userId inquiry => do return .told (← inquiry.call id userId)
  | .questions snapshot => do return .questions (← Service.questions snapshot)
  | .latest limit => do return .sessions (← Service.latest limit)
  | .blocked => do return .blocked (← Service.blocked)
  | .approve userId approver => do return .approved (← Service.approve userId approver)
  | .livesReport bucket => do return .lives (← Service.livesReport bucket)
  | .loseLife bucket => do return .lives (← Service.loseLife bucket)
  | .resetLives userId administrator => do
    return .lives (← Service.resetLives userId administrator)
  | .health => do return .health (← Service.health)
  | .shutdown => do
    Service.shutdown
    return .nothing
  | .advance ms => do
    Call.changeHall fun h => h.advance ms
    return .nothing
  | .follow number => do
    Call.changeHall fun h => h.follow number
    return .nothing
  | .leave number => do
    Call.changeHall fun h => h.leave number
    return .nothing
  | .collect number => do
    let (events, ended) ← Call.askHall fun h => h.collect number
    return .events events ended
  | .count notes => do
    Call.changeHall fun h => h.draw.jot notes
    return .nothing
  | .switch on => do
    Call.changeHall fun h => { h with courier := h.courier.setAvailable on }
    return .nothing
  | .trouble losses silences => do
    Call.changeHall fun h => { h with courier := { h.courier with losses, silences } }
    return .nothing
  | .practice lives livesTime pingDelay => fun s =>
    (.ok .nothing, { s with lives := lives s.lives, livesTime, pingDelay })

/-- A service, and the sessions that were started in it, each with the user who started it. -/
structure House (σ : Type) where
  service : Service σ
  starters : List (String × String)

/-- What a demand was, whether a stranger asked, and what came of it. -/
structure Heard (σ : Type) where
  demand : Demand σ
  strange : Bool
  result : Except Fault Result

/-- The session that a demand started, and for whom. -/
def Demand.starter? {σ : Type} : Demand σ → Except Fault Result → Option (String × String)
  | .start userId _, .ok (.started response) => some (response.sessionId, userId)
  | .enrol userId _, .ok (.started response) => some (response.sessionId, userId)
  | _, _ => none

/-! ## Ordinary demands -/

/-- Whether a demand does nothing but what stable properties survive. -/
def Demand.isOrdinary {σ : Type} : Demand σ → Bool
  | .start .. | .enrol .. | .approve .. | .resetLives .. | .shutdown | .practice .. => false
  | _ => true

/-- Stable properties survive ordinary demands. -/
theorem Demand.preserves_of_isOrdinary {σ : Type} {P : Service σ → Prop} (hP : Service.Stable P)
    {d : Demand σ} (hd : d.isOrdinary = true) : d.call.Preserves P := by
  have hdone : ∀ {f : Hall → Hall}, (∀ s, P s → P { s with hall := f s.hall }) →
      (do Call.changeHall f; return Result.nothing : Call σ Result).Preserves P :=
    fun hf => Call.preserves_return (Call.preserves_changeHall hf)
  cases d with
  | inquire id userId inquiry =>
    exact Call.preserves_return (Service.preserves_inquiry hP id userId inquiry)
  | questions snapshot =>
    exact Call.preserves_return (Service.preserves_questions snapshot)
  | latest limit =>
    exact Call.preserves_return (Service.preserves_latest limit)
  | blocked => exact Call.preserves_return Service.preserves_blocked
  | livesReport bucket =>
    exact Call.preserves_return (Service.preserves_livesReport hP bucket)
  | loseLife bucket =>
    exact Call.preserves_return (Service.preserves_loseLife hP bucket)
  | health => exact Call.preserves_return (Service.preserves_health hP)
  | advance ms => exact hdone fun s hs => hP.advance s ms hs
  | follow number => exact hdone fun s hs => hP.onRelay hs number _
  | leave number => exact hdone fun s hs => hP.onRelay hs number _
  | collect number =>
    exact Call.preserves_return (Call.preserves_askHall fun s hs => hP.collect hs number)
  | count notes => exact hdone fun s hs => hP.jot _ notes (hP.draw s hs)
  | switch on => exact hdone fun s hs => hP.weather s on _ _ hs
  | trouble losses silences =>
    exact hdone fun s hs =>
      hP.weather s s.hall.courier.records.cabinet.available losses silences hs
  | start | enrol | approve | resetLives | shutdown | practice => cases hd

namespace House

variable {σ : Type}

/-- The house of a service in which nothing has happened yet. -/
def opened (service : Service σ) : House σ := ⟨service, []⟩

/-- Whether a question about a session comes from a user who has started none under its id. -/
def isStrange (house : House σ) : Demand σ → Bool
  | .inquire id userId _ => !house.starters.contains (id, userId)
  | _ => false

/-- Meets a demand. -/
def meet (house : House σ) (d : Demand σ) : Heard σ × House σ :=
  let (result, service) := d.call.run house.service
  (⟨d, house.isStrange d, result⟩,
    { service, starters := (d.starter? result).toList ++ house.starters })

/-- Meets demands one after the other. -/
def run : List (Demand σ) → House σ → List (Heard σ) × House σ
  | [], house => ([], house)
  | d :: ds, house =>
    let (heard, house) := house.meet d
    let (more, house) := run ds house
    (heard :: more, house)

theorem run_cons (d : Demand σ) (ds : List (Demand σ)) (house : House σ) :
    run (d :: ds) house =
      ((house.meet d).1 :: (run ds (house.meet d).2).1, (run ds (house.meet d).2).2) := rfl

/-- The user has started a session under the id. -/
def Started (house : House σ) (id userId : String) : Prop := (id, userId) ∈ house.starters

/-! ## Custody -/

variable {owns : String → String → Prop} {ids : Nat → String}

theorem stable_kept : Service.Stable fun s : Service σ => s.hall.Kept owns ids where
  jot _ notes hk := hk.jot notes
  draw _ hk := hk.draw
  relays _ relays hk := hk.relayed relays
  tell _ id x _ hk := hk.tell id x
  advance _ ms hk := hk.advance ms
  contact _ _ _ hk := hk
  weather _ _ _ _ hk := hk.couriered rfl

/-- What no start does keeps custody, of whatever is owned. -/
theorem preserves_kept {d : Demand σ}
    (hstart : ∀ userId request, d ≠ .start userId request)
    (henrol : ∀ userId request, d ≠ .enrol userId request) :
    d.call.Preserves fun s => s.hall.Kept owns ids := by
  have hstable : Service.Stable fun s : Service σ => s.hall.Kept owns ids := stable_kept
  cases d with
  | start userId request => exact absurd rfl (hstart userId request)
  | enrol userId request => exact absurd rfl (henrol userId request)
  | approve userId approver =>
    exact Call.preserves_return (Service.preserves_approve hstable fun _ hk => hk.couriered rfl)
  | resetLives userId administrator =>
    exact Call.preserves_return (Service.preserves_resetLives hstable administrator fun _ hk => hk)
  | shutdown =>
    exact Call.preserves_return
      (Service.preserves_shutdown hstable fun _ id hk => hk.tell id .shutdown)
  | practice lives livesTime pingDelay => exact fun _ hk => hk
  | _ => exact Demand.preserves_of_isOrdinary hstable rfl

/-- A start leaves custody as it was, or adds the session that it launched. -/
def Starts (userId : String) (c : Call σ StartResponse) : Prop :=
  ∀ (owns : String → String → Prop) (ids : Nat → String) (s : Service σ), s.hall.Kept owns ids →
    (∃ fault s', c.run s = (.error fault, s') ∧ s'.hall.Kept owns ids) ∨
    ∃ response s', c.run s = (.ok response, s') ∧
      (Function.Injective ids → ∀ v, ¬owns response.sessionId v) ∧
      s'.hall.Kept (fun id v => (id = response.sessionId ∧ v = userId) ∨ owns id v) ids

theorem starts_begin (userId : String) (r : StartRequest) :
    Starts userId (Service.begin userId r : Call σ StartResponse) := by
  intro owns ids s hk
  obtain ⟨notes, ⟨fault, hrun⟩ | ⟨response, more, seat, hall, hrun, hlaunch, hid, hseat, huser⟩⟩ :=
    Service.begin_cases userId r s
  · exact .inl ⟨fault, _, hrun, hk.jot notes⟩
  · refine .inr ⟨response, _, hrun, fun hinjective v howned => ?_, ?_⟩
    · -- what is owned was drawn before, and no id is drawn twice
      obtain ⟨n, hn, hdrawn⟩ := hk.drawn _ _ howned
      rw [hid, hk.source] at hdrawn
      exact Nat.lt_irrefl _ (hinjective hdrawn ▸ hn)
    · have hgrown : (s.hall.jot notes).draw.Kept
          (fun id v => (id = response.sessionId ∧ v = userId) ∨ owns id v) ids := by
        refine (hk.jot notes).draw.mono (fun _ _ => .inr) fun id v howned => ?_
        rcases howned with ⟨rfl, -⟩ | howned
        · exact ⟨s.hall.drawn, Nat.lt_succ_self _, by rw [hid, hk.source]⟩
        · exact (hk.jot notes).draw.drawn id v howned
      refine (hgrown.launch ?_ hlaunch).jot more
      exact .inl ⟨hseat, huser⟩

/-- What comes before a start and leaves the hall in order may as well be part of it. -/
theorem starts_bind {α : Type} {userId : String} {c : Call σ α} {f : α → Call σ StartResponse}
    (hc : ∀ (owns : String → String → Prop) (ids : Nat → String),
      c.Preserves fun s => s.hall.Kept owns ids)
    (hf : ∀ x, Starts userId (f x)) : Starts userId (c >>= f) := by
  intro owns ids s hk
  have hkept := hc owns ids s hk
  rw [Call.run_bind]
  match hrun : c.run s with
  | (.error fault, s') =>
    rw [hrun] at hkept
    exact .inl ⟨fault, s', rfl, hkept⟩
  | (.ok x, s') =>
    rw [hrun] at hkept
    exact hf x owns ids s' hkept

theorem starts_enrol (userId : String) (r : StartRequest) :
    Starts userId (Service.enrol userId r : Call σ StartResponse) :=
  starts_bind (fun _ _ => Service.preserves_checkEligible stable_kept userId) fun _ =>
    starts_begin userId r

theorem starts_start (userId : String) (r : StartRequest) :
    Starts userId (Service.start userId r : Call σ StartResponse) :=
  starts_bind (fun _ _ => Service.preserves_checkFree userId) fun _ => starts_enrol userId r

/-- What is kept is kept for those who started it, and no id is given twice. -/
structure Sound (ids : Nat → String) (house : House σ) : Prop where
  kept : house.service.hall.Kept house.Started ids
  distinct : Function.Injective ids → (house.starters.map Prod.fst).Nodup

variable {house : House σ}

theorem sound_opened (config : Config) (catalog : Catalog) (practice : PracticeStore σ) (lives : σ)
    (time : Stamp) (source : Source) :
    Sound source.sessionId (opened (.new config catalog practice lives time source)) where
  kept :=
    { source := rfl
      running := List.forall_mem_nil _
      archived := List.forall_mem_nil _
      recorded := List.forall_mem_nil _
      inHand := List.forall_mem_nil _
      drawn := fun _ _ hstarted => nomatch hstarted }
  distinct _ := List.nodup_nil

theorem Sound.started {d : Demand σ} {userId : String} {c : Call σ StartResponse}
    (h : house.Sound ids) (hcall : d.call = do return .started (← c)) (hc : Starts userId c)
    (hstarter : ∀ response,
      d.starter? (.ok (.started response)) = some (response.sessionId, userId))
    (hfault : ∀ fault, d.starter? (.error fault) = none) : (house.meet d).2.Sound ids := by
  unfold meet
  rw [hcall, Call.run_bind]
  rcases hc _ ids house.service h.kept with
    ⟨fault, s', hrun, hkept⟩ | ⟨response, s', hrun, hnew, hkept⟩
  · rw [hrun]
    dsimp only
    rw [hfault]
    exact ⟨hkept, h.distinct⟩
  · rw [hrun]
    simp only [Call.run_pure, hstarter]
    refine ⟨?_, fun hinjective => ?_⟩
    · have hsame : (fun id v => (id = response.sessionId ∧ v = userId) ∨ house.Started id v) =
          fun id v => (id, v) ∈ (response.sessionId, userId) :: house.starters := by
        funext id v
        simp [Started]
      rw [hsame] at hkept
      exact hkept
    · refine List.nodup_cons.mpr ⟨fun hmem => ?_, h.distinct hinjective⟩
      obtain ⟨⟨id, v⟩, hstarted, rfl⟩ := List.mem_map.mp hmem
      exact hnew hinjective v hstarted

/-- **Whatever is demanded, the house stays in order.** -/
theorem Sound.meet (h : house.Sound ids) (d : Demand σ) : (house.meet d).2.Sound ids := by
  by_cases hstart : ∃ userId request, d = .start userId request
  · obtain ⟨userId, request, rfl⟩ := hstart
    exact h.started rfl (starts_start userId request) (fun _ => rfl) fun _ => rfl
  by_cases henrol : ∃ userId request, d = .enrol userId request
  · obtain ⟨userId, request, rfl⟩ := henrol
    exact h.started rfl (starts_enrol userId request) (fun _ => rfl) fun _ => rfl
  -- nothing else starts a session
  have hnone : ∀ result, d.starter? result = none := by
    intro result
    cases d with
    | start userId request => exact absurd ⟨userId, request, rfl⟩ hstart
    | enrol userId request => exact absurd ⟨userId, request, rfl⟩ henrol
    | _ => rfl
  have hkept := preserves_kept (fun userId request hd => hstart ⟨userId, request, hd⟩)
    (fun userId request hd => henrol ⟨userId, request, hd⟩) house.service h.kept
  unfold House.meet
  simp only [hnone]
  exact ⟨hkept, h.distinct⟩

theorem Sound.run (h : house.Sound ids) (ds : List (Demand σ)) : (run ds house).2.Sound ids := by
  induction ds generalizing house with
  | nil => exact h
  | cons d ds ih => exact ih (h.meet d)

/-! ## Strangers -/

/-- A user who has started nothing under the id of a session is a stranger to it. -/
theorem Sound.stranger (h : house.Sound ids) {id userId : String}
    (hother : ∀ owner, house.Started id owner → owner ≠ userId) :
    house.service.hall.Stranger id userId where
  running r hfind := by
    have hkept := h.kept.running r (List.mem_of_find?_eq_some hfind)
    have hkey : r.sessionId = id := by simpa using List.find?_some hfind
    exact hother _ (hkey ▸ hkept.holder)
  archived snapshot hfind := by
    obtain ⟨before, after, hentries, -⟩ := List.lookup_eq_some_iff.mp hfind
    exact hother _ (h.kept.archived (id, snapshot) (by simp [hentries]))
  recorded session hsession hkey := by
    exact hother _ (hkey ▸ h.kept.recorded session hsession)

/-- **What a stranger asks is refused, and the house is as it was.** -/
theorem Sound.meet_strange (h : house.Sound ids) {d : Demand σ} (hd : house.isStrange d = true) :
    ∃ fault, house.meet d = (⟨d, true, .error fault⟩, house) := by
  cases d with
  | inquire id userId inquiry =>
    have hother : ∀ owner, house.Started id owner → owner ≠ userId := by
      rintro owner hstarted rfl
      simp only [isStrange, Bool.not_eq_true', List.contains_eq_mem, decide_eq_false_iff_not] at hd
      exact hd hstarted
    have hrun : (Demand.inquire id userId inquiry).call.run house.service =
        (.error (house.service.hall.refusal id), house.service) := by
      rw [Demand.call, Call.run_bind, Inquiry.refused (h.stranger hother) inquiry]
    refine ⟨house.service.hall.refusal id, ?_⟩
    unfold House.meet
    rw [hrun, hd]
    rfl
  | _ => cases hd

/-- A run without the questions of strangers gives all the other answers, and ends alike. -/
theorem Sound.run_private (h : house.Sound ids) (ds : List (Demand σ)) :
    let heard := (House.run ds house).1.filter fun x => !x.strange
    House.run (heard.map Heard.demand) house = (heard, (House.run ds house).2) := by
  induction ds generalizing house with
  | nil => rfl
  | cons d ds ih =>
    have hnext := ih (h.meet d)
    cases hd : house.isStrange d with
    | true =>
      -- the strange question is left out, and the house was as before when it was met
      obtain ⟨fault, hmeet⟩ := h.meet_strange hd
      rw [hmeet] at hnext
      rw [run_cons, hmeet]
      exact hnext
    | false =>
      have hflag : (house.meet d).1.strange = false := hd
      have hdemand : (house.meet d).1.demand = d := rfl
      rw [run_cons]
      simp only [List.filter_cons, hflag, Bool.not_false, if_true, List.map_cons, hdemand]
      rw [run_cons, hnext]

/-- **Sessions are private to their owners.** Wherever a run has led, whatever a user asks of a
session that somebody else started is refused, for one of three reasons, and leaves the service as
it was; if no id is given twice, a session has one owner. And a run without such questions gives
all the other answers and ends in the same service: what was published, written and kept is the
same. -/
theorem sessions_private (config : Config) (catalog : Catalog) (practice : PracticeStore σ)
    (lives : σ) (time : Stamp) (source : Source) (demands : List (Demand σ)) :
    let start : House σ := opened (.new config catalog practice lives time source)
    let final := (run demands start).2
    let heard := (run demands start).1.filter fun x => !x.strange
    (∀ id userId inquiry, (∀ owner, final.Started id owner → owner ≠ userId) →
      (Inquiry.call id userId inquiry).run final.service =
        (.error (final.service.hall.refusal id), final.service)) ∧
    (Function.Injective source.sessionId →
      ∀ id u v, final.Started id u → final.Started id v → u = v) ∧
    run (heard.map Heard.demand) start = (heard, final) := by
  intro start final heard
  have hstart : start.Sound source.sessionId :=
    sound_opened config catalog practice lives time source
  have hfinal : final.Sound source.sessionId := hstart.run demands
  refine ⟨fun id userId inquiry hother => ?_, fun hinjective id u v hu hv => ?_, ?_⟩
  · exact Inquiry.refused (hfinal.stranger hother) inquiry
  · have hdistinct := hfinal.distinct hinjective
    exact congrArg Prod.snd (List.inj_on_of_nodup_map hdistinct hu hv rfl)
  · exact hstart.run_private demands

/-- One question of each level. -/
def threeQuestions : Catalog :=
  [{ (default : Question) with id := "e", language := .python, difficulty := .easy },
    { (default : Question) with id := "m", language := .python, difficulty := .medium },
    { (default : Question) with id := "h", language := .python, difficulty := .hard }]

theorem sessions_private_running :
    let start : House Shelf :=
      opened (.new { (default : Config) with exam := .standard } threeQuestions .inMemory .empty
        default .plain)
    let id := Source.plain.sessionId 0
    let final := (run [.start "ada" ⟨.python, none⟩] start).2
    final.Started id "ada" ∧ (∀ owner, final.Started id owner → owner ≠ "bob") ∧
      (Inquiry.call id "bob" .snapshot).run final.service = (.error .forbidden, final.service) := by
  intro start id final
  have hstarters : final.starters = [(id, "ada")] := by decide +kernel
  have hrunning : (final.service.hall.registry.find? id).isSome = true := by decide +kernel
  have hother : ∀ owner, final.Started id owner → owner ≠ "bob" := by
    intro owner howner
    rw [Started, hstarters, List.mem_singleton] at howner
    rw [(Prod.mk.inj howner).2]
    decide
  have hrefusal : final.service.hall.refusal id = .forbidden := by
    rw [Hall.refusal, hrunning, Bool.true_or, if_pos rfl]
  refine ⟨by rw [Started, hstarters]; exact List.mem_singleton_self _, hother, ?_⟩
  have hrefused := (sessions_private { (default : Config) with exam := .standard } threeQuestions
    .inMemory .empty default .plain [.start "ada" ⟨.python, none⟩]).1 id "bob" .snapshot hother
  rwa [hrefusal] at hrefused

end House

end Invigilator
