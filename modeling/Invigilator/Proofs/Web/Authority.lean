import Invigilator.Proofs.Service.Privacy
import Invigilator.Proofs.Service.Warrant
import Invigilator.Web.Race

/-!
# Nothing without authority

A request gets as far as the answer to its route only past a guard, and below the paths of exams
and of the administration every route has one. Who is not let in changes nothing but the log and
the count of draws. Who is let in may cause a great deal, but a retake is approved and practice
lives are given back by an administrator's own request alone: `Warranted` says so of everything that
can happen to a service, and `guarded_run` of every run.
-/

namespace Invigilator

/-! ## Paths -/

namespace Text

theorem after?_eq_some_iff {start text rest : List Char} :
    after? start text = some rest ↔ text = start ++ rest := by
  induction start generalizing text with
  | nil => simp [after?]
  | cons c start ih =>
    cases text with
    | nil => simp [after?]
    | cons d text =>
      by_cases h : c = d
      · subst h
        simp [after?, ih]
      · simp [after?, h, Ne.symm h]

theorem splitOn_ne_nil (separator : Char) (text : List Char) : splitOn separator text ≠ [] := by
  cases text with
  | nil => nofun
  | cons c rest =>
    rw [splitOn]
    split
    · nofun
    · split <;> nofun

/-- The parts of two texts with a separator in between are the parts of both. -/
theorem splitOn_append (separator : Char) (front back : List Char) :
    splitOn separator (front ++ separator :: back) =
      splitOn separator front ++ splitOn separator back := by
  induction front with
  | nil => simp [splitOn]
  | cons c front ih =>
    rw [List.cons_append, splitOn, splitOn]
    split
    · rw [ih, List.cons_append]
    · rw [ih]
      cases hparts : splitOn separator front with
      | nil => exact absurd hparts (splitOn_ne_nil separator front)
      | cons part parts => rfl

end Text

/-- Nothing of the service has changed but the log and the count of draws. -/
def Service.Untouched {σ : Type} (s s' : Service σ) : Prop :=
  s' = { s with hall := { s.hall with drawn := s'.hall.drawn, notes := s'.hall.notes } }

/-- A demand that nobody makes: time passes, subscribers read or go, the service is shut down,
stores fail and come back. -/
def Demand.isOutside {σ : Type} : Demand σ → Bool
  | .advance _ | .follow _ | .leave _ | .collect _ | .switch _ | .trouble .. | .shutdown
  | .practice .. => true
  | _ => false

namespace Web

open Call

variable {σ α : Type}

/-- The path is that of a part of the service, or lies below it. -/
def Under (base : String) (path : List Char) : Prop :=
  path = base.toList ∨ ∃ rest, path = base.toList ++ '/' :: rest

/-- The segments of a path that lies below another begin with those of that. -/
theorem Under.segments {base : String} {path : List Char} (h : Under base path) :
    ∃ rest, (Text.splitOn '/' path).map String.ofList =
      (Text.splitOn '/' base.toList).map String.ofList ++ rest := by
  rcases h with rfl | ⟨rest, rfl⟩
  · exact ⟨[], (List.append_nil _).symm⟩
  · exact ⟨(Text.splitOn '/' rest).map String.ofList, by rw [Text.splitOn_append, List.map_append]⟩

namespace Route

theorem guard_ofExamSegments {segments : List String} {route : Route}
    (h : ofExamSegments? segments = some route) : route.guard = .user := by
  unfold ofExamSegments? at h
  repeat' split at h
  all_goals cases h <;> rfl

theorem guard_ofAdminSegments {segments : List String} {route : Route}
    (h : ofAdminSegments? segments = some route) : route.guard = .administrator := by
  unfold ofAdminSegments? at h
  split at h
  all_goals cases h <;> rfl

/-- **Every route below the exams is for users.** -/
theorem guard_of_exams {path : List Char} {route : Route} (hpath : ofPath? path = some route)
    (hunder : Under "/api/v1/exams" path) : route.guard = .user := by
  obtain ⟨rest, hsegments⟩ := hunder.segments
  rw [ofPath?, hsegments] at hpath
  exact guard_ofExamSegments hpath

/-- **Every route below the administration is for administrators.** -/
theorem guard_of_admin {path : List Char} {route : Route} (hpath : ofPath? path = some route)
    (hunder : Under "/admin" path) : route.guard = .administrator := by
  obtain ⟨rest, hsegments⟩ := hunder.segments
  rw [ofPath?, hsegments] at hpath
  exact guard_ofAdminSegments hpath

end Route

/-! ## Guards -/

/-- The request carries a bearer token that is valid now, and states the claims. -/
def Bears (mac : Mac) (s : Service σ) (r : Request) (claims : Claims) : Prop :=
  ∃ token, r.headers.plain? "authorization" = some ("Bearer " ++ token) ∧
    claimsOf mac s token = .ok claims

theorem authorization?_eq_some_iff {word rest : String} {r : Request} :
    authorization? word r = some rest ↔
      r.headers.plain? "authorization" = some (word ++ " " ++ rest) := by
  rw [authorization?, Option.bind_eq_some_iff]
  constructor
  · rintro ⟨value, hvalue, hrest⟩
    obtain ⟨cs, hcs, rfl⟩ := Option.map_eq_some_iff.mp hrest
    have htext : value = word ++ " " ++ String.ofList cs := by
      rw [← String.toList_inj, Text.after?_eq_some_iff.mp hcs]
      simp only [String.toList_append, String.toList_ofList]
    rw [hvalue, htext]
  · intro hvalue
    refine ⟨_, hvalue, Option.map_eq_some_iff.mpr ⟨rest.toList, ?_, String.ofList_toList⟩⟩
    rw [Text.after?_eq_some_iff, String.toList_append]

theorem bears_iff {mac : Mac} {s : Service σ} {r : Request} {claims : Claims} :
    Bears mac s r claims ↔
      ∃ token, authorization? "Bearer" r = some token ∧ claimsOf mac s token = .ok claims := by
  have hword : "Bearer " = "Bearer" ++ " " := by decide
  rw [Bears, hword]
  simp only [authorization?_eq_some_iff]

theorem Bears.unique {mac : Mac} {s : Service σ} {r : Request} {claims claims' : Claims}
    (h : Bears mac s r claims) (h' : Bears mac s r claims') : claims' = claims := by
  obtain ⟨token, htoken, hclaims⟩ := bears_iff.mp h
  obtain ⟨token', htoken', hclaims'⟩ := bears_iff.mp h'
  obtain rfl := Option.some.inj (htoken.symm.trans htoken')
  exact (Except.ok.inj (hclaims.symm.trans hclaims')).symm

/-- A request authenticates with the token that it bears. -/
theorem authenticate_cases (mac : Mac) (r : Request) (s : Service σ) :
    ∃ notes, (∃ claims, Bears mac s r claims ∧
        (authenticate mac r).run s = (.ok claims, { s with hall := s.hall.jot notes })) ∨
      (∀ claims, ¬Bears mac s r claims) ∧
        (authenticate mac r).run s =
          (.error .unauthenticated, { s with hall := s.hall.jot notes }) := by
  simp only [bears_iff]
  unfold authenticate
  cases htoken : authorization? "Bearer" r with
  | none =>
    refine ⟨[], .inr ⟨?_, rfl⟩⟩
    rintro claims ⟨_, hnone, -⟩
    cases hnone
  | some token =>
    cases hclaims : claimsOf mac s token with
    | error fault =>
      refine ⟨[.warn ("JWT validation failed: " ++ fault.message)], .inr ⟨?_, ?_⟩⟩
      · rintro claims ⟨_, hsame, hvalid⟩
        obtain rfl := Option.some.inj hsame
        cases hclaims.symm.trans hvalid
      · rw [run_bind, Service.run_service]
        dsimp only
        rw [hclaims]
        rfl
    | ok claims =>
      refine ⟨[.debug ("Authenticated user: " ++ claims.sub ++ " (role: " ++ claims.role ++ ")")],
        .inl ⟨claims, ⟨token, rfl, hclaims⟩, ?_⟩⟩
      rw [run_bind, Service.run_service]
      dsimp only
      rw [hclaims]
      rfl

/-- The role of administrators, as a token states it. -/
theorem isAdmin_iff {claims : Claims} : claims.isAdmin = true ↔ claims.role = "admin" := by
  rw [Claims.isAdmin, beq_iff_eq, Claims.adminRole]

/-- An administrator authenticates like everyone, and has the role besides. -/
theorem authenticateAdministrator_cases (mac : Mac) (r : Request) (s : Service σ) :
    ∃ notes, (∃ claims, Bears mac s r claims ∧ claims.role = "admin" ∧
        (authenticateAdministrator mac r).run s =
          (.ok claims, { s with hall := s.hall.jot notes })) ∨
      (∀ claims, ¬Bears mac s r claims) ∧
        (authenticateAdministrator mac r).run s =
          (.error .unauthenticated, { s with hall := s.hall.jot notes }) ∨
      ∃ claims, Bears mac s r claims ∧ claims.role ≠ "admin" ∧
        (authenticateAdministrator mac r).run s =
          (.error .forbidden, { s with hall := s.hall.jot notes }) := by
  obtain ⟨notes, ⟨claims, hbears, hrun⟩ | ⟨hno, hrun⟩⟩ := authenticate_cases mac r s
  · cases hadmin : claims.isAdmin with
    | true =>
      refine ⟨notes, .inl ⟨claims, hbears, isAdmin_iff.mp hadmin, ?_⟩⟩
      rw [authenticateAdministrator, run_bind, hrun]
      dsimp only
      rw [if_pos hadmin, run_pure]
    | false =>
      refine ⟨notes ++ [.warn ("Access denied for " ++ claims.sub ++ ": admin role required")],
        .inr (.inr ⟨claims, hbears, fun hrole => ?_, ?_⟩)⟩
      · rw [isAdmin_iff.mpr hrole] at hadmin
        cases hadmin
      · rw [authenticateAdministrator, run_bind, hrun]
        dsimp only
        rw [if_neg (Bool.eq_false_iff.mp hadmin), run_bind, Service.run_jot, Service.jot_jot]
        rfl
  · refine ⟨notes, .inr (.inl ⟨hno, ?_⟩)⟩
    rw [authenticateAdministrator, run_bind, hrun]

variable {mac : Mac} {r : Request} {s s' : Service σ} {claims : Claims}

/-- Who bears no valid token is not let in where one is asked for. -/
theorem run_letIn_unauthenticated {guard : Guard} (hguard : guard = .user ∨ guard = .administrator)
    (hno : ∀ claims, ¬Bears mac s r claims) :
    ∃ notes, (letIn mac r guard).run s =
      (.error .unauthenticated, { s with hall := s.hall.jot notes }) := by
  rcases hguard with rfl | rfl
  · obtain ⟨notes, ⟨claims, hbears, -⟩ | ⟨-, hrun⟩⟩ := authenticate_cases mac r s
    · exact absurd hbears (hno claims)
    · exact ⟨notes, by rw [letIn, run_bind, hrun]⟩
  · obtain ⟨notes, ⟨claims, hbears, -⟩ | ⟨-, hrun⟩ | ⟨claims, hbears, -⟩⟩ :=
      authenticateAdministrator_cases mac r s
    · exact absurd hbears (hno claims)
    · exact ⟨notes, by rw [letIn, run_bind, hrun]⟩
    · exact absurd hbears (hno claims)

/-- Who bears a valid token of another role is not let in where administrators are. -/
theorem run_letIn_forbidden (hbears : Bears mac s r claims) (hrole : claims.role ≠ "admin") :
    ∃ notes, (letIn mac r .administrator).run s =
      (.error .forbidden, { s with hall := s.hall.jot notes }) := by
  obtain ⟨notes, ⟨claims', hbears', hrole', -⟩ | ⟨hno, -⟩ | ⟨-, -, -, hrun⟩⟩ :=
    authenticateAdministrator_cases mac r s
  · exact absurd (hbears.unique hbears' ▸ hrole') hrole
  · exact absurd hbears (hno claims)
  · exact ⟨notes, by rw [letIn, run_bind, hrun]⟩

/-- Who is let in as an administrator bears a valid token of that role. -/
theorem bears_of_letIn {caller : Option Claims}
    (h : (letIn mac r .administrator).run s = (.ok (.caller caller), s')) :
    ∃ claims, caller = some claims ∧ Bears mac s r claims ∧ claims.role = "admin" := by
  rw [letIn, run_bind] at h
  obtain ⟨notes, ⟨claims, hbears, hrole, hrun⟩ | ⟨-, hrun⟩ | ⟨-, -, -, hrun⟩⟩ :=
    authenticateAdministrator_cases mac r s
  · rw [hrun] at h
    obtain ⟨hcaller, -⟩ := Prod.mk.inj h
    exact ⟨claims, (Pass.caller.inj (Except.ok.inj hcaller)).symm, hbears, hrole⟩
  · rw [hrun] at h
    cases h
  · rw [hrun] at h
    cases h

/-! ## Refusals -/

/-- A request whose guard refuses it is answered with the refusal, and that is all. -/
theorem respond_refused {route : Route} {fault : Fault} {notes : List Note}
    (hroute : Route.ofPath? r.target.path = some route) (hmethod : r.method ≠ "OPTIONS")
    (hletIn : (letIn mac r route.guard).run (receive s) =
      (.error fault, { receive s with hall := (receive s).hall.jot notes })) :
    (respond mac r s).1.status = fault.status ∧ s.Untouched (respond mac r s).2 := by
  have hserve : (serve mac r route).run (receive s) =
      (.error fault, { receive s with hall := (receive s).hall.jot notes }) := by
    rw [serve, run_bind, hletIn]
  have hrouted : ∃ headers, Web.route mac r (receive s) =
      ((if r.method = "HEAD" then (Response.ofFault fault).withoutBody
        else Response.ofFault fault).withHeaders headers,
        { receive s with
          hall := ((receive s).hall.jot notes).jot (faultNotes fault) }) := by
    refine ⟨allowHeader r route, ?_⟩
    simp only [Web.route, hroute, if_neg hmethod, finish, hserve]
    split <;> rfl
  obtain ⟨headers, hrouted⟩ := hrouted
  rw [respond, hrouted]
  refine ⟨?_, rfl⟩
  dsimp only [send, Response.withHeaders]
  split <;> rfl

/-! ## What a caller may cause -/

section Caller

variable {P : Service σ → Prop} (hP : Service.Stable P)
include hP

theorem preserves_readBody (read : Json → Option α) (complain : String → Option Json.Complaint)
    (r : Request) : (readBody read complain r : Call σ α).Preserves P := by
  unfold readBody
  split
  · exact preserves_pure _
  · exact preserves_bind (preserves_jot hP _) fun _ => preserves_fail _

omit hP in
theorem preserves_check (excess : Option String) : (check excess : Call σ Unit).Preserves P := by
  cases excess with
  | none => exact preserves_pure ()
  | some details => exact preserves_fail _

theorem preserves_readStart (r : Request) : (readStart r : Call σ StartRequest).Preserves P :=
  preserves_bind (preserves_readBody hP _ _ r) fun _ => preserves_return (preserves_check _)

theorem preserves_authenticate (mac : Mac) (r : Request) :
    (authenticate mac r : Call σ Claims).Preserves P := by
  intro s hs
  obtain ⟨notes, ⟨claims, -, hrun⟩ | ⟨-, hrun⟩⟩ := authenticate_cases mac r s
  · rw [hrun]
    exact hP.jot s notes hs
  · rw [hrun]
    exact hP.jot s notes hs

theorem preserves_recognize (mac : Mac) (r : Request) :
    (recognize mac r : Call σ (Option Claims)).Preserves P := by
  unfold recognize
  split
  · exact preserves_pure none
  · refine preserves_service fun s => ?_
    split
    · exact preserves_return (preserves_jot hP _)
    · exact preserves_pure _

theorem preserves_letIn (mac : Mac) (r : Request) (guard : Guard) :
    (letIn mac r guard : Call σ Pass).Preserves P := by
  cases guard with
  | everyone => exact preserves_pure _
  | operator => exact preserves_pure _
  | anyone => exact preserves_return (preserves_recognize hP mac r)
  | user => exact preserves_return (preserves_authenticate hP mac r)
  | administrator =>
    refine preserves_return (preserves_bind (preserves_authenticate hP mac r) fun claims => ?_)
    split
    · exact preserves_pure _
    · exact preserves_bind (preserves_jot hP _) fun _ => preserves_fail _

omit hP in
theorem preserves_withValues {values : Except PathFault α} {answer : α → Call σ Response}
    (h : ∀ x, values = .ok x → (answer x).Preserves P) : (withValues values answer).Preserves P := by
  cases values with
  | ok x => exact h x rfl
  | error fault => exact preserves_pure _

omit hP in
/-- A call for the user whose id is in the path. -/
theorem preserves_withUser {value : Value} {answer : String → Call σ Response}
    (h : ∀ id, valueOf? value = some id → (answer id).Preserves P) :
    (withUser value answer).Preserves P := by
  refine preserves_withValues fun id hid => h id ?_
  unfold text at hid
  split at hid
  · rename_i hvalue
    rw [hvalue, Except.ok.inj hid]
  · cases hid

/-- Whatever a route is asked, a stable property survives, if it survives a start, and the approval
or the reset that the route is for. -/
theorem preserves_dispatch {route : Route} {caller : Option Claims}
    (hstart : ∀ userId request, (Service.start userId request : Call σ StartResponse).Preserves P)
    (happrove : ∀ value userId, route = .approve value → valueOf? value = some userId →
      (Service.approve userId ((caller.map Claims.sub).getD "") : Call σ Bool).Preserves P)
    (hreset : ∀ value userId, route = .resetLives value → valueOf? value = some userId →
      (Service.resetLives userId ((caller.map Claims.sub).getD "") :
        Call σ LivesReport).Preserves P) :
    (dispatch r caller route).Preserves P := by
  cases route with
  | health => exact preserves_return (Service.preserves_health hP)
  | metrics => exact preserves_service fun _ => preserves_pure _
  | start =>
    exact preserves_bind (preserves_readStart hP r) fun request =>
      preserves_return (hstart _ request)
  | exam id =>
    exact preserves_withValues fun id _ =>
      preserves_bind (Service.preserves_snapshot hP id _) fun snapshot =>
        preserves_return (Service.preserves_questions snapshot)
  | answer id index =>
    exact preserves_withValues fun _ _ => preserves_bind (preserves_readBody hP _ _ r) fun update =>
      preserves_bind (preserves_check _) fun _ =>
        preserves_return (Service.preserves_change hP _ _ nofun)
  | run id index =>
    exact preserves_withValues fun _ _ => preserves_bind (preserves_readBody hP _ _ r) fun _ =>
      preserves_return (Service.preserves_change hP _ _ nofun)
  | signals id =>
    exact preserves_withValues fun id _ => preserves_bind (preserves_readBody hP _ _ r)
      fun signal => preserves_return (Service.preserves_signal hP id _ signal)
  | submit id =>
    exact preserves_withValues fun id _ => preserves_return (Service.preserves_submit hP id _)
  | score id =>
    exact preserves_withValues fun id _ =>
      preserves_return (preserves_return (Service.preserves_snapshot hP id _))
  | stream id =>
    exact preserves_withValues fun id _ =>
      preserves_return (Service.preserves_subscribe hP id _ false)
  | lives =>
    exact preserves_return (Service.preserves_livesReport hP _)
  | loseLife => exact preserves_return (Service.preserves_loseLife hP _)
  | sessions =>
    unfold dispatch
    dsimp only
    split
    · exact preserves_pure _
    · exact preserves_return (Service.preserves_latest _)
  | blocked => exact preserves_return Service.preserves_blocked
  | approve value =>
    exact preserves_withUser fun id hid => preserves_return (happrove value id rfl hid)
  | resetLives value =>
    exact preserves_withUser fun id hid => preserves_return (hreset value id rfl hid)

end Caller

/-! ## What a request may cause -/

/-- An administrator orders something for a user. -/
structure Request.Orders (r : Request) (mac : Mac) (s : Service σ) (order : Value → Route)
    (userId : String) (claims : Claims) : Prop where
  path : ∃ value, Route.ofPath? r.target.path = some (order value) ∧ valueOf? value = some userId
  method : r.method = "POST"
  bears : Bears mac (receive s) r claims
  role : claims.role = "admin"

/-- What may come of a service when a request comes in. -/
abbrev Request.Warrants (r : Request) (mac : Mac) (s : Service σ) : Service σ → Prop :=
  Service.Within
    (fun userId approver => ∃ claims, r.Orders mac s .approve userId claims ∧ approver = claims.sub)
    (fun userId => ∃ claims, r.Orders mac s .resetLives userId claims) s

theorem warranted_serve {route : Route} (hroute : Route.ofPath? r.target.path = some route)
    (h : r.Warrants mac s (receive s)) :
    r.Warrants mac s ((serve mac r route).run (receive s)).2 := by
  have hletIn := preserves_letIn (Service.stable_within s) mac r route.guard (receive s) h
  rw [serve, run_bind]
  match hrun : (letIn mac r route.guard).run (receive s) with
  | (.error fault, s') =>
    rw [hrun] at hletIn
    exact hletIn
  | (.ok .refused, s') =>
    rw [hrun] at hletIn
    exact hletIn
  | (.ok (.caller caller), s') =>
    rw [hrun] at hletIn
    dsimp only
    split
    · -- who got through to an approval or a reset was let in as an administrator
      rename_i hallowed
      refine preserves_dispatch (Service.stable_within s) (Service.within_start s) ?_ ?_ s' hletIn
      · rintro value userId rfl hvalue
        obtain ⟨claims, rfl, hbears, hrole⟩ := bears_of_letIn hrun
        have hmethod : r.method = "POST" := by simpa [Route.allowed, Route.method] using hallowed
        exact Service.preserves_approve (Service.stable_within s) fun _ h =>
          h.approve ⟨claims, ⟨⟨value, hroute, hvalue⟩, hmethod, hbears, hrole⟩, rfl⟩ _
      · rintro value userId rfl hvalue
        obtain ⟨claims, rfl, hbears, hrole⟩ := bears_of_letIn hrun
        have hmethod : r.method = "POST" := by simpa [Route.allowed, Route.method] using hallowed
        exact Service.preserves_resetLives (Service.stable_within s) _ fun _ h =>
          h.contact fun bucket hbucket => ⟨userId,
            ⟨claims, ⟨value, hroute, hvalue⟩, hmethod, hbears, hrole⟩,
            (Option.some.inj hbucket).symm⟩
    · exact hletIn

section Stable

variable {P : Service σ → Prop} (hP : Service.Stable P)
include hP

theorem stable_receive (hs : P s) : P (receive s) := hP.jot _ _ (hP.draw s hs)

theorem stable_finish {call : Call σ Response} (h : P (call.run s).2) : P (finish call s).2 := by
  unfold finish
  split
  · rename_i hrun
    rw [hrun] at h
    exact h
  · rename_i hrun
    rw [hrun] at h
    exact hP.jot _ _ h

theorem stable_dropBody (response : Response) (hs : P s) : P (dropBody response s).2 := by
  unfold dropBody
  dsimp only
  split
  · exact hP.onRelay hs _ _
  · exact hs

theorem stable_send (r : Request) (response : Response) (hs : P s) : P (send r s response).2 :=
  hP.jot _ _ (hP.draw s hs)

/-- A request leaves what its route leaves. -/
theorem stable_respond (hs : P s)
    (hserve : ∀ route, Route.ofPath? r.target.path = some route →
      P ((serve mac r route).run (receive s)).2) : P (respond mac r s).2 := by
  have hreceived := stable_receive hP hs
  unfold respond Web.route
  refine stable_send hP r _ ?_
  split
  · split <;> exact hreceived
  · rename_i route hroute
    split
    · exact hreceived
    · have hfinished := stable_finish hP (hserve route hroute)
      dsimp only
      split
      · exact stable_dropBody hP _ hfinished
      · exact hfinished

end Stable

/-- **A request causes nothing that it has no warrant for.** -/
theorem warranted_respond (mac : Mac) (r : Request) (s : Service σ) :
    r.Warrants mac s (respond mac r s).2 :=
  stable_respond (Service.stable_within s) (.refl s) fun _ hroute =>
    warranted_serve hroute (stable_receive (Service.stable_within s) (.refl s))

/-! ## Races -/

namespace Race

variable {P : Service σ → Prop}

theorem stable_reply (hP : Service.Stable P) (r : Request) (race : Race σ) (place : Nat)
    (response : Response) (hs : P s) : P (race.reply r place response s).service :=
  stable_send hP r response hs

theorem stable_arrive (hP : Service.Stable P) (mac : Mac) (r : Request) {race : Race σ}
    (place : Nat) (hs : P race.service) : P (arrive mac r race place).service := by
  have henter : (enter mac r).Preserves P := by
    refine preserves_bind (preserves_letIn hP mac r _) fun pass => ?_
    cases pass with
    | refused => exact preserves_fail _
    | caller caller =>
      exact preserves_bind (preserves_readStart hP r) fun _ =>
        preserves_return (Service.preserves_checkFree _)
  have hentered := henter _ (stable_receive hP hs)
  unfold arrive
  split
  · rename_i fault s' hrun
    rw [hrun] at hentered
    exact stable_reply hP r race place _ (stable_finish hP (preserves_fail fault s' hentered))
  · rename_i hrun
    rw [hrun] at hentered
    exact hentered

theorem stable_resolve (hP : Service.Stable P)
    (henrol : ∀ userId request, (Service.enrol userId request : Call σ StartResponse).Preserves P)
    (r : Request) {race : Race σ} (w : Waiting) (hs : P race.service) :
    P (resolve r race w).service := by
  have henrolled : (do pure (started (← Service.enrol w.userId w.start)) :
      Call σ Response).Preserves P := preserves_return (henrol _ _)
  exact stable_reply hP r race w.place _ (stable_finish hP (henrolled _ (hP.advance _ _ hs)))

/-- Starts that come in together do no more than a start. -/
theorem stable_run (hP : Service.Stable P)
    (henrol : ∀ userId request, (Service.enrol userId request : Call σ StartResponse).Preserves P)
    (mac : Mac) (r : Request) (delays : List Nat) (hs : P s) : P (run mac r delays s).2 := by
  have hfold : ∀ {β : Type} {f : Race σ → β → Race σ},
      (∀ race b, P race.service → P (f race b).service) →
        ∀ (bs : List β) (race : Race σ), P race.service → P (bs.foldl f race).service := by
    intro β f hf bs
    induction bs with
    | nil => exact fun _ h => h
    | cons b bs ih => exact fun race h => ih _ (hf race b h)
  exact hfold (fun _ w => stable_resolve hP henrol r w) _ _
    (hfold (fun _ place => stable_arrive hP mac r place) _ _ hs)

end Race

/-! ## Runs -/

/-- Something that happens to a service: a request comes in, or as many starts as there are delays
come in together, or it happens from outside. -/
inductive Occurrence (σ : Type) where
  | request (r : Request)
  | race (r : Request) (delays : List Nat)
  | outside (d : Demand σ) (h : d.isOutside = true)

/-- The service when something has happened. -/
def occur (mac : Mac) (s : Service σ) : Occurrence σ → Service σ
  | .request r => (respond mac r s).2
  | .race r delays => (Race.run mac r delays s).2
  | .outside d _ => (d.call.run s).2

/-- The service after a run. -/
def after (mac : Mac) (xs : List (Occurrence σ)) (s : Service σ) : Service σ :=
  xs.foldl (occur mac) s

namespace Occurrence

/-- What becomes of the store for practice lives by itself. -/
def befalls : Occurrence σ → σ → σ
  | outside (.practice lives _ _) _ => lives
  | _ => id

/-- It is an administrator's request for something to be done for a user. -/
def Orders (x : Occurrence σ) (mac : Mac) (s : Service σ) (order : Value → Route)
    (userId : String) (claims : Claims) : Prop :=
  ∃ r, x = .request r ∧ r.Orders mac s order userId claims

/-- What may come of a service when this happens. -/
abbrev Warrants (x : Occurrence σ) (mac : Mac) (s : Service σ) : Service σ → Prop :=
  Service.Within
    (fun userId approver => ∃ claims, x.Orders mac s .approve userId claims ∧ approver = claims.sub)
    (fun userId => ∃ claims, x.Orders mac s .resetLives userId claims)
    { s with lives := x.befalls s.lives }

end Occurrence

/-- **Nothing happens without a warrant.** -/
theorem warranted_occur (mac : Mac) (s : Service σ) (x : Occurrence σ) :
    x.Warrants mac s (occur mac s x) := by
  cases x with
  | request r =>
    refine (warranted_respond mac r s).mono ?_ ?_
    · rintro userId approver ⟨claims, horders, rfl⟩
      exact ⟨claims, ⟨r, rfl, horders⟩, rfl⟩
    · rintro userId ⟨claims, horders⟩
      exact ⟨claims, r, rfl, horders⟩
  | race r delays =>
    exact Race.stable_run (Service.stable_within s) (Service.within_enrol s) mac r delays (.refl s)
  | outside d h =>
    cases d with
    | shutdown =>
      exact Service.preserves_shutdown (Service.stable_within s)
        (fun s' id hs => hs.tighter (s'.hall.tighter_tell id .shutdown)) s (.refl s)
    | practice lives livesTime pingDelay =>
      -- the store became another one by itself; what is compared is what the service did after that
      have hbefallen : (Occurrence.outside (.practice lives livesTime pingDelay) h).Warrants mac s
          { s with lives := lives s.lives } := .refl _
      exact ⟨hbefallen.practice, hbefallen.config, hbefallen.approvals, hbefallen.admissions,
        hbefallen.lives⟩
    | advance | follow | leave | collect | switch | trouble =>
      exact Demand.preserves_of_isOrdinary (Service.stable_within s) rfl s (.refl s)
    | start | enrol | inquire | questions | latest | blocked | approve | livesReport | loseLife
    | resetLives | health | count => cases h

theorem after_concat (mac : Mac) (xs : List (Occurrence σ)) (x : Occurrence σ) (s : Service σ) :
    after mac (xs ++ [x]) s = occur mac (after mac xs s) x := List.foldl_concat ..

/-- Every approval on record was given in the run, by an administrator's request. -/
theorem approval_ordered (mac : Mac) (xs : List (Occurrence σ)) {start : Service σ}
    (hnew : start.hall.gate.records = []) {record : EligibilityRecord}
    (hrecord : record ∈ (after mac xs start).hall.gate.records)
    (happroved : record.status = .approved) :
    ∃ before x later claims, xs = before ++ x :: later ∧
      x.Orders mac (after mac before start) .approve record.userId claims ∧
      record.approvedBy = some claims.sub := by
  -- from the end of the run: the record was there before the last occurrence, or that ordered it
  induction xs using List.reverseRecOn with
  | nil =>
    rw [show after mac [] start = start from rfl, hnew] at hrecord
    cases hrecord
  | append_singleton xs x ih =>
    rw [after_concat] at hrecord
    rcases (warranted_occur mac (after mac xs start) x).approvals record hrecord happroved with
      hold | ⟨approver, ⟨claims, horders, rfl⟩, hby⟩
    · obtain ⟨before, y, later, claims, hxs, horders, hby⟩ := ih hold
      exact ⟨before, y, later ++ [x], claims, by rw [hxs, List.append_assoc, List.cons_append],
        horders, hby⟩
    · exact ⟨xs, x, [], claims, rfl, horders, hby⟩

/-- What guards do for a service, whatever has happened to it. -/
structure Guarded (mac : Mac) (s : Service σ) : Prop where
  /-- No request gets to an exam or to the administration without a valid token. -/
  unauthenticated : ∀ r route, Route.ofPath? r.target.path = some route → r.method ≠ "OPTIONS" →
    Under "/api/v1/exams" r.target.path ∨ Under "/admin" r.target.path →
    (∀ claims, ¬Bears mac (receive s) r claims) →
      (respond mac r s).1.status = 401 ∧ s.Untouched (respond mac r s).2
  /-- No request gets to the administration with a token of another role. -/
  forbidden : ∀ r route claims, Route.ofPath? r.target.path = some route → r.method ≠ "OPTIONS" →
    Under "/admin" r.target.path → Bears mac (receive s) r claims → claims.role ≠ "admin" →
      (respond mac r s).1.status = 403 ∧ s.Untouched (respond mac r s).2
  /-- A preflight is answered before it gets to a route. -/
  preflight : ∀ r : Request, r.method = "OPTIONS" → s.Untouched (respond mac r s).2
  /-- Nobody is let in again and no lives are given back but by an administrator's request. -/
  warranted : ∀ x : Occurrence σ, x.Warrants mac s (occur mac s x)

theorem guarded (mac : Mac) (s : Service σ) : Guarded mac s where
  unauthenticated r route hroute hmethod hunder hno := by
    have hguard : route.guard = .user ∨ route.guard = .administrator :=
      hunder.imp (Route.guard_of_exams hroute) (Route.guard_of_admin hroute)
    obtain ⟨notes, hletIn⟩ := run_letIn_unauthenticated hguard hno
    exact respond_refused hroute hmethod hletIn
  forbidden r route claims hroute hmethod hunder hbears hrole := by
    obtain ⟨notes, hletIn⟩ := run_letIn_forbidden hbears hrole
    exact respond_refused hroute hmethod (Route.guard_of_admin hroute hunder ▸ hletIn)
  preflight r hmethod := by
    obtain ⟨response, hrouted⟩ : ∃ response, Web.route mac r (receive s) = (response, receive s) := by
      unfold Web.route
      split
      · exact ⟨_, if_pos hmethod⟩
      · exact ⟨_, if_pos hmethod⟩
    rw [respond, hrouted]
    rfl
  warranted := warranted_occur mac s

/-- **No state change without authority.** In every state that a run leads to, a request for an exam
or for the administration that bears no valid token is answered with 401, and one for the
administration with a token of another role with 403; the service stays as it was, but for the log
and the count of draws. Whatever happens, the gate lets nobody in again and no lives are given back
but for the user whom an administrator's own request is about. So every approval that is on record
was given in the run by such a request, and names who sent it. -/
theorem guarded_run (mac : Mac) (config : Config) (catalog : Catalog) (practice : PracticeStore σ)
    (lives : σ) (time : Stamp) (source : Source) (xs : List (Occurrence σ)) :
    let start : Service σ := .new config catalog practice lives time source
    let s := after mac xs start
    Guarded mac s ∧
      ∀ record ∈ s.hall.gate.records, record.status = .approved →
        ∃ before x later claims, xs = before ++ x :: later ∧
          x.Orders mac (after mac before start) .approve record.userId claims ∧
          record.approvedBy = some claims.sub :=
  ⟨guarded mac _, fun _ hrecord happroved => approval_ordered mac xs rfl hrecord happroved⟩

/-- A function that tags everything alike. -/
def plainMac : Mac := fun _ _ => .replicate 32 0

/-- A request to reset the practice lives of a user. -/
def reset (headers : Headers) : Request :=
  { method := "POST", target := ⟨"/admin/lives/dave/reset".toList, []⟩, headers, body := "" }

/-- The token of a candidate. -/
def candidateToken : String := Token.issue plainMac "" ⟨"dave", "candidate", 0, 0⟩

/-- Nobody's reset is refused, and so is a candidate's. -/
theorem guarded_run_reset :
    let s : Service Shelf := .new default [] .inMemory .empty default .plain
    let unsigned := reset []
    let signed := reset [("Authorization", "Bearer " ++ candidateToken)]
    (respond plainMac unsigned s).1.status = 401 ∧ s.Untouched (respond plainMac unsigned s).2 ∧
      (respond plainMac signed s).1.status = 403 ∧ s.Untouched (respond plainMac signed s).2 := by
  intro s unsigned signed
  have hguarded : Guarded plainMac s :=
    (guarded_run plainMac default [] .inMemory .empty default .plain []).1
  have hroute : Route.ofPath? unsigned.target.path = some (.resetLives "dave".toList) := by decide
  have hunder : Under "/admin" unsigned.target.path := .inr ⟨"lives/dave/reset".toList, by decide⟩
  have hno : ∀ claims, ¬Bears plainMac (receive s) unsigned claims := by
    rintro claims ⟨token, htoken, -⟩
    have hnone : unsigned.headers.plain? "authorization" = none := by decide
    cases hnone.symm.trans htoken
  have hbears : Bears plainMac (receive s) signed ⟨"dave", "candidate", 0, 0⟩ := by
    refine ⟨candidateToken, ?_, by decide +kernel⟩
    have hplain : isPlainValue ("Bearer " ++ candidateToken) = true := by decide +kernel
    exact Option.filter_eq_some_iff.mpr ⟨rfl, hplain⟩
  obtain ⟨hunauthenticated, huntouched⟩ :=
    hguarded.unauthenticated unsigned _ hroute (by decide) (.inr hunder) hno
  obtain ⟨hforbidden, huntouched'⟩ :=
    hguarded.forbidden signed _ _ hroute (by decide) hunder hbears (by decide)
  exact ⟨hunauthenticated, huntouched, hforbidden, huntouched'⟩

end Web

end Invigilator
