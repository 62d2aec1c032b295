import Invigilator.Proofs.Service.Custody
import Invigilator.Proofs.Service.Progress
import Mathlib.Data.List.Nodup

/-!
# The floor in order

A session that ends is filed before it is released, and its desk is closed last. `Sound` says what
that order is for: the registry has exactly the sessions whose desks have not come to the release,
the archive has the last ones of those that were filed, and what it has of a session is the end of
it.

`Sound` is kept by every shift, and so by every move. On a sound floor what is over stays over: a
session that has ended is `Settled`, with its record for good, and remains so.
-/

namespace Invigilator

namespace DeskStage

/-- The session is among those that run. -/
def isRegistered : DeskStage → Bool
  | seated => true
  | running => true
  | filed => true
  | released => false
  | closed => false

/-- The final snapshot was filed. -/
def isFiled : DeskStage → Bool
  | seated => false
  | running => false
  | filed => true
  | released => true
  | closed => true

theorem isRegistered_of_unfiled {stage : DeskStage} (h : stage.isFiled = false) :
    stage.isRegistered = true := by
  cases stage <;> first | rfl | cases h

theorem isFiled_of_unregistered {stage : DeskStage} (h : stage.isRegistered = false) :
    stage.isFiled = true := by
  cases stage <;> first | rfl | cases h

end DeskStage

/-! ## Sittings -/

namespace Sitting

/-- Only a shutdown suspends a sitting. -/
theorem Change.suspended_eq {σ : Type} {ledger : LivesLedger σ} {scene : Scene} {s t : Sitting}
    {lives lives' : σ} {x : Stimulus} (h : Change ledger scene s lives x t lives')
    (hx : x ≠ .shutdown) : t.suspended = s.suspended := by
  cases h with
  | quiet | opened | recovered | excused | expired | submitted => rfl
  | clipped | penalized =>
    unfold endedIf
    split <;> rfl
  | shut => exact absurd rfl hx

/-- The sitting of a session by its candidate, in order and not suspended. -/
structure Sits (s : Sitting) (id userId : String) : Prop where
  id_eq : s.session.id = id
  userId_eq : s.session.userId = userId
  coupled : s.Coupled
  awake : s.suspended = false

variable {s : Sitting} {id userId : String}

theorem Sits.step {σ : Type} (h : s.Sits id userId) (ledger : LivesLedger σ) (scene : Scene)
    {x : Stimulus} (hx : x ≠ .shutdown) (lives : σ) :
    ((Turn.step ledger scene x).after (s, lives)).1.Sits id userId := by
  have hstretch := Turn.stretches_step ledger scene x (s := (s, lives))
  have hkept : ((Turn.step ledger scene x).after (s, lives)).1.Coupled ∧
      ((Turn.step ledger scene x).after (s, lives)).1.suspended = false := by
    cases hrun : s.isRunning with
    | false =>
      rw [Turn.after_step_over ledger scene x hrun]
      exact ⟨h.coupled, h.awake⟩
    | true =>
      have hchange := Turn.handle_change ledger scene (s := (s, lives)) x hrun h.coupled
      rw [Turn.after_step_running ledger scene x hrun]
      exact ⟨hchange.coupled hrun h.coupled, (hchange.suspended_eq hx).trans h.awake⟩
  exact ⟨hstretch.id_eq.trans h.id_eq, hstretch.userId_eq.trans h.userId_eq, hkept.1, hkept.2⟩

/-- A sitting that stopped without being suspended has ended. -/
theorem Sits.ended (h : s.Sits id userId) (hover : s.isRunning = false) :
    s.session.isActive = false := by
  simpa [isRunning, h.awake] using hover

end Sitting

/-! ## The floor in order -/

namespace Floor

variable {σ : Type} {ids : Nat → String} {f g : Floor σ}

/-- As many sessions as the archive holds were filed after this one. -/
def Evicted (f : Floor σ) (id : String) : Prop :=
  id ∈ f.filed.take (f.filed.length - f.hall.registry.archive.capacity)

/-- Whose session is among those that run, by its desk. -/
def registrant (f : Floor σ) (id : String) : Option String :=
  (f.station id).bind fun place => if place.2.isRegistered then some place.1 else none

/-- The registry and the archive are as the desks say. -/
structure Sound (ids : Nat → String) (f : Floor σ) : Prop where
  source : f.hall.source.sessionId = ids
  drawn : ∀ id userId stage, f.At id userId stage → ∃ n < f.hall.drawn, id = ids n
  sessions : (f.hall.registry.active.map Running.sessionId).Nodup
  users : (f.hall.registry.active.map Running.userId).Nodup
  registered : ∀ id, (f.hall.registry.find? id).map Running.userId = f.registrant id
  seats : ∀ id r, f.hall.registry.find? id = some r → r.value.sitting.Sits id r.userId
  /-- Exactly those are filed whose desks have come so far. -/
  filed : ∀ id, id ∈ f.filed ↔ ∃ userId stage, f.At id userId stage ∧ stage.isFiled = true
  once : f.filed.Nodup
  /-- The archive holds the last ones of those that were filed. -/
  held : f.hall.registry.archive.Holds (f.filed.rtake f.hall.registry.archive.capacity)
  finals : ∀ id s, (id, s) ∈ f.hall.registry.archive.entries →
    s.session.isActive = false ∧ ∃ stage, f.At id s.session.userId stage
  /-- A session that is filed and not released yet does not change any more. -/
  frozen : ∀ id s r, (id, s) ∈ f.hall.registry.archive.entries →
    f.hall.registry.find? id = some r → r.value.sitting.session = s.session

theorem registrant_of_at {id userId : String} {stage : DeskStage} (h : f.At id userId stage) :
    f.registrant id = if stage.isRegistered then some userId else none := by
  rw [registrant, h, Option.bind_some]

theorem registrant_of_comes {id userId : String} {stage : DeskStage} (h : f.Comes g id userId stage)
    (other : String) : g.registrant other =
      if other = id then (if stage.isRegistered then some userId else none)
      else f.registrant other := by
  by_cases hid : other = id
  · subst hid
    rw [if_pos rfl, registrant, h, Function.update_self, Option.bind_some]
  · rw [if_neg hid, registrant, h, Function.update_of_ne hid, registrant]

/-- After one desk came to another stage, it is there, and the others are where they were. -/
theorem at_of_comes {id userId : String} {stage : DeskStage} (h : f.Comes g id userId stage)
    {other u : String} {st : DeskStage} :
    g.At other u st ↔ (other = id ∧ u = userId ∧ st = stage) ∨ (other ≠ id ∧ f.At other u st) := by
  rw [At, h]
  by_cases hid : other = id
  · subst hid
    simp [eq_comm]
  · simp [hid]

namespace Sound

variable (h : f.Sound ids) {id userId : String} {stage : DeskStage}
include h

theorem exists_find? (hat : f.At id userId stage) (hstage : stage.isRegistered = true) :
    ∃ r, f.hall.registry.find? id = some r ∧ r.userId = userId := by
  have hregistered := h.registered id
  rw [registrant_of_at hat, if_pos hstage] at hregistered
  exact Option.map_eq_some_iff.mp hregistered

theorem find?_eq_none (hat : f.At id userId stage) (hstage : stage.isRegistered = false) :
    f.hall.registry.find? id = none := by
  have hregistered := h.registered id
  rw [registrant_of_at hat, hstage] at hregistered
  exact Option.map_eq_none_iff.mp hregistered

theorem at_of_find? {r : Running Seat} (hfind : f.hall.registry.find? id = some r) :
    ∃ stage, f.At id r.userId stage ∧ stage.isRegistered = true := by
  have hregistered := h.registered id
  rw [hfind, Option.map_some, registrant] at hregistered
  obtain ⟨⟨userId, stage⟩, hat, hplace⟩ := Option.bind_eq_some_iff.mp hregistered.symm
  dsimp only at hplace
  split at hplace
  · rename_i hstage
    obtain rfl := Option.some.inj hplace
    exact ⟨stage, hat, hstage⟩
  · cases hplace

/-- What was filed is in the archive still, or was evicted. -/
theorem archived_or_evicted (hid : id ∈ f.filed) :
    (∃ s, (id, s) ∈ f.hall.registry.archive.entries) ∨ f.Evicted id := by
  have hheld : f.filed.drop (f.filed.length - f.hall.registry.archive.capacity) =
      f.hall.registry.archive.entries.map Prod.fst := h.held.keys.symm
  rw [← List.take_append_drop (f.filed.length - f.hall.registry.archive.capacity) f.filed,
    List.mem_append, hheld] at hid
  rcases hid with hid | hid
  · exact .inr hid
  · obtain ⟨⟨id, s⟩, he, rfl⟩ := List.mem_map.mp hid
    exact .inl ⟨s, he⟩

theorem nodup_keys : (f.hall.registry.archive.entries.map Prod.fst).Nodup := by
  rw [h.held.keys]
  exact h.held.nodup

theorem mem_filed {s : Snapshot} (he : (id, s) ∈ f.hall.registry.archive.entries) :
    id ∈ f.filed := by
  have hkey := List.mem_map_of_mem (f := Prod.fst) he
  rw [h.held.keys] at hkey
  exact List.mem_of_mem_drop hkey

/-- The archive has one snapshot of a session. -/
theorem entry_unique {s t : Snapshot} (hs : (id, s) ∈ f.hall.registry.archive.entries)
    (ht : (id, t) ∈ f.hall.registry.archive.entries) : s = t :=
  congrArg Prod.snd (List.inj_on_of_nodup_map h.nodup_keys hs ht rfl)

end Sound

/-! ## What a shift keeps -/

/-- A turn is one of the seat that is found, also after its clock was set. -/
theorem exists_act {h : Hall} {id : String} {x : Stimulus} {r : Running Seat}
    (hset : h = f.hall ∨ h = f.hall.moveTick id) (hfind : f.hall.registry.find? id = some r) :
    ∃ scene seat,
      let t := Turn.step (Hall.ledger r.value) scene x
      let s := (r.value.sitting, r.value.lives)
      (h.turn id x).2 = h.act id seat (t.after s) (t.actions s) ∧
        (h.turn id x).2.registry = f.hall.registry.update id
          { seat with sitting := (t.after s).1, lives := (t.after s).2 } := by
  rcases hset with rfl | rfl
  · refine ⟨f.hall.scene r.value, r.value, ?_⟩
    have hturn := Hall.turn_of_find? hfind x
    dsimp only at hturn ⊢
    rw [hturn]
    exact ⟨rfl, Hall.act_registry ..⟩
  · obtain ⟨seat, hmoved, hsitting, hlives, hledger⟩ := Hall.exists_moveTick hfind
    have hset := congrArg Hall.registry hmoved
    have hfound : (f.hall.moveTick id).registry.find? id = some { r with value := seat } := by
      rw [hset]
      exact Registry.find?_update_self hfind seat
    refine ⟨(f.hall.moveTick id).scene seat, seat, ?_⟩
    have hturn := Hall.turn_of_find? hfound x
    dsimp only at hturn ⊢
    rw [hsitting, hlives, hledger] at hturn
    rw [hturn]
    refine ⟨rfl, ?_⟩
    rw [Hall.act_registry, hset, Registry.update_update]

/-- A turn changes one seat. -/
theorem turn_registry {h : Hall} {id : String} {x : Stimulus} {r : Running Seat}
    (hset : h = f.hall ∨ h = f.hall.moveTick id) (hfind : f.hall.registry.find? id = some r) :
    ∃ scene seat,
      (h.turn id x).2.registry = f.hall.registry.update id seat ∧
        (h.turn id x).2.source = f.hall.source ∧ f.hall.drawn ≤ (h.turn id x).2.drawn ∧
        seat.sitting = ((Turn.step (Hall.ledger r.value) scene x).after
          (r.value.sitting, r.value.lives)).1 := by
  obtain ⟨scene, seat, hact, hregistry⟩ := exists_act (x := x) hset hfind
  have hsame : h.source = f.hall.source ∧ h.drawn = f.hall.drawn := by
    rcases hset with rfl | rfl
    · exact ⟨rfl, rfl⟩
    · obtain ⟨_, hmoved, -⟩ := Hall.exists_moveTick hfind
      exact ⟨by rw [hmoved], by rw [hmoved]⟩
  refine ⟨scene, _, hregistry, ?_, ?_, rfl⟩
  · rw [hact, Hall.act_source, hsame.1]
  · rw [hact, ← hsame.2]
    exact Hall.le_drawn_act ..

namespace Sound

variable (h : f.Sound ids)
include h

theorem of_same (hregistry : g.hall.registry = f.hall.registry)
    (hstation : g.station = f.station) (hfiled : g.filed = f.filed)
    (hsource : g.hall.source = f.hall.source) (hdrawn : f.hall.drawn ≤ g.hall.drawn) :
    g.Sound ids where
  source := by rw [hsource, h.source]
  drawn id userId stage hat := by
    rw [At, hstation] at hat
    obtain ⟨n, hn, hid⟩ := h.drawn id userId stage hat
    exact ⟨n, Nat.lt_of_lt_of_le hn hdrawn, hid⟩
  sessions := by rw [hregistry]; exact h.sessions
  users := by rw [hregistry]; exact h.users
  registered id := by rw [hregistry, registrant, hstation]; exact h.registered id
  seats := by rw [hregistry]; exact h.seats
  filed id := by
    rw [hfiled]
    simp only [At, hstation]
    exact h.filed id
  once := by rw [hfiled]; exact h.once
  held := by rw [hregistry, hfiled]; exact h.held
  finals := by
    rw [hregistry]
    simp only [At, hstation]
    exact h.finals
  frozen := by rw [hregistry]; exact h.frozen

theorem userId_of_find? {id userId : String} {stage : DeskStage} {r : Running Seat}
    (here : f.At id userId stage) (hfind : f.hall.registry.find? id = some r) :
    r.userId = userId := by
  obtain ⟨stage', hat, -⟩ := h.at_of_find? hfind
  exact congrArg Prod.fst (Option.some.inj (hat.symm.trans here))

theorem notMem_filed {id userId : String} {stage : DeskStage} (here : f.At id userId stage)
    (hstage : stage.isFiled = false) : id ∉ f.filed := by
  intro hid
  obtain ⟨u, stage', hat, hfiled⟩ := (h.filed id).mp hid
  obtain rfl := congrArg Prod.snd (Option.some.inj (hat.symm.trans here))
  rw [hstage] at hfiled
  cases hfiled

/-- Of a desk that comes to another stage on the same side of the filing. -/
theorem filed_of_comes {id userId : String} {was stage : DeskStage} (here : f.At id userId was)
    (hstation : f.Comes g id userId stage) (hstage : stage.isFiled = was.isFiled)
    (hfiled : g.filed = f.filed) (other : String) :
    other ∈ g.filed ↔ ∃ u st, g.At other u st ∧ st.isFiled = true := by
  rw [hfiled, h.filed other]
  simp only [at_of_comes hstation]
  by_cases hid : other = id
  · subst hid
    constructor
    · rintro ⟨u, st, hat, hst⟩
      obtain rfl := congrArg Prod.snd (Option.some.inj (hat.symm.trans here))
      exact ⟨userId, stage, .inl ⟨rfl, rfl, rfl⟩, hstage.trans hst⟩
    · rintro ⟨u, st, ⟨-, rfl, rfl⟩ | ⟨hne, -⟩, hst⟩
      · exact ⟨_, _, here, hstage.symm.trans hst⟩
      · exact absurd rfl hne
  · simp [hid]

theorem drawn_of_comes {id userId : String} {was stage : DeskStage} (here : f.At id userId was)
    (hstation : f.Comes g id userId stage) (hdrawn : f.hall.drawn ≤ g.hall.drawn) (other u : String)
    (st : DeskStage) (hat : g.At other u st) : ∃ n < g.hall.drawn, other = ids n := by
  have hbefore : ∃ st', f.At other u st' := by
    rcases (at_of_comes hstation).mp hat with ⟨rfl, rfl, rfl⟩ | ⟨-, hat⟩
    · exact ⟨was, here⟩
    · exact ⟨st, hat⟩
  obtain ⟨st', hat'⟩ := hbefore
  obtain ⟨n, hn, hid⟩ := h.drawn other u st' hat'
  exact ⟨n, Nat.lt_of_lt_of_le hn hdrawn, hid⟩

theorem finals_of_comes {id userId : String} {was stage : DeskStage} (here : f.At id userId was)
    (hstation : f.Comes g id userId stage)
    (harchive : g.hall.registry.archive = f.hall.registry.archive) (other : String) (s : Snapshot)
    (he : (other, s) ∈ g.hall.registry.archive.entries) :
    s.session.isActive = false ∧ ∃ st, g.At other s.session.userId st := by
  rw [harchive] at he
  obtain ⟨hover, st, hat⟩ := h.finals other s he
  refine ⟨hover, ?_⟩
  by_cases hid : other = id
  · subst hid
    have hsame := congrArg Prod.fst (Option.some.inj (hat.symm.trans here))
    exact ⟨stage, (at_of_comes hstation).mpr (.inl ⟨rfl, hsame, rfl⟩)⟩
  · exact ⟨st, (at_of_comes hstation).mpr (.inr ⟨hid, hat⟩)⟩

/-- A seat changes, and its desk may come to another stage before the session is filed. -/
theorem of_renewed {id userId : String} {was stage : DeskStage} {r : Running Seat} {seat : Seat}
    (here : f.At id userId was) (hstation : f.Comes g id userId stage)
    (hwas : was.isFiled = false) (hstage : stage.isFiled = false)
    (hfind : f.hall.registry.find? id = some r)
    (hregistry : g.hall.registry = f.hall.registry.update id seat) (hfiled : g.filed = f.filed)
    (hsource : g.hall.source = f.hall.source) (hdrawn : f.hall.drawn ≤ g.hall.drawn)
    (hsits : r.value.sitting.Sits id r.userId → seat.sitting.Sits id r.userId) :
    g.Sound ids where
  source := by rw [hsource, h.source]
  drawn := h.drawn_of_comes here hstation hdrawn
  sessions := by rw [hregistry, Registry.sessionIds_update]; exact h.sessions
  users := by rw [hregistry, Registry.userIds_update]; exact h.users
  registered other := by
    rw [registrant_of_comes hstation, hregistry]
    split
    · rename_i hid
      subst hid
      have huser := h.userId_of_find? here hfind
      rw [Registry.find?_update_self hfind, DeskStage.isRegistered_of_unfiled hstage, if_pos rfl]
      exact congrArg some huser
    · rename_i hid
      rw [Registry.find?_update_of_ne hid]
      exact h.registered other
  seats other r' hfind' := by
    rw [hregistry] at hfind'
    by_cases hid : other = id
    · subst hid
      rw [Registry.find?_update_self hfind] at hfind'
      obtain rfl := Option.some.inj hfind'
      exact hsits (h.seats _ r hfind)
    · rw [Registry.find?_update_of_ne hid] at hfind'
      exact h.seats other r' hfind'
  filed := h.filed_of_comes here hstation (hstage.trans hwas.symm) hfiled
  once := by rw [hfiled]; exact h.once
  held := by rw [hregistry, hfiled]; exact h.held
  finals := h.finals_of_comes here hstation (by rw [hregistry]; rfl)
  frozen other s r' he hfind' := by
    rw [hregistry] at he hfind'
    by_cases hid : other = id
    · subst hid
      exact absurd (h.mem_filed he) (h.notMem_filed here hwas)
    · rw [Registry.find?_update_of_ne hid] at hfind'
      exact h.frozen other s r' he hfind'

/-- The id of a new session has no desk yet. -/
theorem station_new (hinjective : Function.Injective ids) {userId : String} {seat : Seat}
    (hnew : IsNew f.hall userId seat) : f.station seat.sitting.session.id = none := by
  cases hstation : f.station seat.sitting.session.id with
  | none => rfl
  | some place =>
    obtain ⟨n, hn, hid⟩ := h.drawn _ _ _ hstation
    rw [hnew.id_eq, h.source] at hid
    exact absurd hn (by rw [hinjective hid]; exact Nat.lt_irrefl n)

/-- A session with a desk is not the new one. -/
theorem ne_new (hinjective : Function.Injective ids) {userId : String} {seat : Seat}
    (hnew : IsNew f.hall userId seat) {id owner : String} {stage : DeskStage}
    (hat : f.At id owner stage) : id ≠ seat.sitting.session.id := by
  rintro rfl
  rw [At, h.station_new hinjective hnew] at hat
  cases hat

/-- A launch adds the new seat, and only that. -/
theorem registry_launched (hinjective : Function.Injective ids) {userId : String} {seat : Seat}
    {k : Hall} (hstill : f.hall.Still k) (hnew : IsNew f.hall userId seat)
    (hhall : g.hall = k.draw.seated seat) :
    f.hall.registry.find? seat.sitting.session.id = none ∧
      g.hall.registry = { f.hall.registry with
        active := f.hall.registry.active ++ [⟨seat.sitting.session.id, userId, seat⟩] } ∧
      ∀ other, g.hall.registry.find? other =
        if other = seat.sitting.session.id then some ⟨seat.sitting.session.id, userId, seat⟩
        else f.hall.registry.find? other := by
  have hgone : f.hall.registry.find? seat.sitting.session.id = none := by
    have hregistered := h.registered seat.sitting.session.id
    rw [registrant, h.station_new hinjective hnew] at hregistered
    exact Option.map_eq_none_iff.mp hregistered
  have hregistry : g.hall.registry = { f.hall.registry with
      active := f.hall.registry.active ++ [⟨seat.sitting.session.id, userId, seat⟩] } := by
    rw [hhall]
    simp only [Hall.seated, Hall.draw, hstill.registry, hnew.userId_eq]
  refine ⟨hgone, hregistry, ?_⟩
  rw [hregistry]
  exact Registry.find?_concat hgone

theorem of_launched (hinjective : Function.Injective ids) {userId : String} {seat : Seat} {k : Hall}
    (hstill : f.hall.Still k) (hfree : f.hall.registry.sessionOf? userId = none)
    (hnew : IsNew f.hall userId seat) (hhall : g.hall = k.draw.seated seat)
    (hstation : f.Comes g seat.sitting.session.id userId .seated) (hfiled : g.filed = f.filed) :
    g.Sound ids := by
  obtain ⟨hgone, hregistry, hfind⟩ := h.registry_launched hinjective hstill hnew hhall
  have hdrawn : f.hall.drawn < g.hall.drawn := by
    rw [hhall]
    exact Nat.lt_succ_of_le hstill.drawn
  have harchive : g.hall.registry.archive = f.hall.registry.archive := by rw [hregistry]
  have hstays : ∀ {id owner : String} {stage : DeskStage}, f.At id owner stage →
      g.At id owner stage :=
    fun hat => (at_of_comes hstation).mpr (.inr ⟨h.ne_new hinjective hnew hat, hat⟩)
  constructor
  case source =>
    rw [hhall]
    exact (congrArg Source.sessionId hstill.source).trans h.source
  case drawn =>
    intro other u st hat
    rcases (at_of_comes hstation).mp hat with ⟨rfl, -, -⟩ | ⟨-, hat⟩
    · exact ⟨f.hall.drawn, hdrawn, by rw [hnew.id_eq, h.source]⟩
    · obtain ⟨n, hn, hid⟩ := h.drawn other u st hat
      exact ⟨n, Nat.lt_trans hn hdrawn, hid⟩
  case sessions =>
    rw [hregistry, List.map_append, List.map_singleton, ← List.concat_eq_append]
    refine h.sessions.concat fun hmem => ?_
    obtain ⟨r, hr, hid⟩ := List.mem_map.mp hmem
    exact absurd (beq_iff_eq.mpr hid) (List.find?_eq_none.mp hgone r hr)
  case users =>
    rw [hregistry, List.map_append, List.map_singleton, ← List.concat_eq_append]
    exact h.users.concat (Registry.sessionOf?_eq_none.mp hfree)
  case registered =>
    intro other
    rw [registrant_of_comes hstation, hfind]
    split
    · rfl
    · exact h.registered other
  case seats =>
    intro other r hr
    rw [hfind] at hr
    split at hr
    · rename_i hid
      subst hid
      obtain rfl := Option.some.inj hr
      exact ⟨rfl, hnew.userId_eq, hnew.coupled, hnew.awake⟩
    · exact h.seats other r hr
  case filed =>
    -- the new desk is not at a filed stage, and no other desk moves
    intro other
    rw [hfiled, h.filed other]
    constructor
    · rintro ⟨u, st, hat, hst⟩
      exact ⟨u, st, hstays hat, hst⟩
    · rintro ⟨u, st, hat, hst⟩
      rcases (at_of_comes hstation).mp hat with ⟨-, -, rfl⟩ | ⟨-, hat⟩
      · cases hst
      · exact ⟨u, st, hat, hst⟩
  case once =>
    rw [hfiled]
    exact h.once
  case held =>
    rw [harchive, hfiled]
    exact h.held
  case finals =>
    intro other s he
    rw [harchive] at he
    obtain ⟨hover, st, hat⟩ := h.finals other s he
    exact ⟨hover, st, hstays hat⟩
  case frozen =>
    intro other s r he hr
    rw [harchive] at he
    obtain ⟨-, st, hat⟩ := h.finals other s he
    rw [hfind, if_neg (h.ne_new hinjective hnew hat)] at hr
    exact h.frozen other s r he hr

theorem of_filed {id userId : String} (here : f.At id userId .running)
    (hover : f.isLive id = false) (hhall : g.hall = f.hall.file id)
    (hstation : f.Comes g id userId .filed) (hfiled : g.filed = f.filed ++ [id]) :
    g.Sound ids := by
  obtain ⟨r, hfind, huser⟩ := h.exists_find? here rfl
  have hfresh := h.notMem_filed here rfl
  have hstopped : r.value.sitting.isRunning = false := by
    rw [isLive, hfind] at hover
    exact hover
  have hsits := h.seats id r hfind
  have hfile : g.hall = { f.hall with
      registry := f.hall.registry.file id r.value.sitting.snapshot } := by
    rw [hhall, Hall.file, hfind]
  have harchive : g.hall.registry.archive =
      f.hall.registry.archive.insert id r.value.sitting.snapshot := by rw [hfile]; rfl
  have hactive : g.hall.registry.active = f.hall.registry.active := by rw [hfile]; rfl
  have hsame : ∀ other, g.hall.registry.find? other = f.hall.registry.find? other := by
    intro other
    rw [hfile]
    rfl
  have hentry : ∀ e, e ∈ g.hall.registry.archive.entries →
      e = (id, r.value.sitting.snapshot) ∨ e ∈ f.hall.registry.archive.entries := by
    intro e he
    rw [harchive] at he
    exact Archive.mem_insert he
  constructor
  case source =>
    rw [hfile]
    exact h.source
  case drawn =>
    exact h.drawn_of_comes here hstation (Nat.le_of_eq (by rw [hfile]))
  case sessions =>
    rw [hactive]
    exact h.sessions
  case users =>
    rw [hactive]
    exact h.users
  case registered =>
    intro other
    rw [registrant_of_comes hstation, hsame]
    split
    · rename_i hid
      subst hid
      rw [h.registered, registrant_of_at here]
      rfl
    · exact h.registered other
  case seats =>
    intro other r' hr'
    rw [hsame] at hr'
    exact h.seats other r' hr'
  case filed =>
    intro other
    rw [hfiled, List.mem_append, List.mem_singleton, h.filed other]
    simp only [at_of_comes hstation]
    constructor
    · rintro (⟨u, st, hat, hst⟩ | rfl)
      · refine ⟨u, st, .inr ⟨?_, hat⟩, hst⟩
        rintro rfl
        exact hfresh ((h.filed other).mpr ⟨u, st, hat, hst⟩)
      · exact ⟨userId, .filed, .inl ⟨rfl, rfl, rfl⟩, rfl⟩
    · rintro ⟨u, st, ⟨rfl, -, -⟩ | ⟨-, hat⟩, hst⟩
      · exact .inr rfl
      · exact .inl ⟨u, st, hat, hst⟩
  case once =>
    rw [hfiled, ← List.concat_eq_append]
    exact h.once.concat hfresh
  case held =>
    rw [harchive, hfiled]
    exact h.held.concat hfresh _
  case finals =>
    intro other s he
    rcases hentry _ he with hnew | he
    · obtain ⟨rfl, rfl⟩ := Prod.mk.inj hnew
      refine ⟨hsits.ended hstopped, .filed, (at_of_comes hstation).mpr (.inl ⟨rfl, ?_, rfl⟩)⟩
      exact hsits.userId_eq.trans huser
    · obtain ⟨hended, st, hat⟩ := h.finals other s he
      refine ⟨hended, st, (at_of_comes hstation).mpr (.inr ⟨?_, hat⟩)⟩
      rintro rfl
      exact hfresh (h.mem_filed he)
  case frozen =>
    intro other s r' he hr'
    rw [hsame] at hr'
    rcases hentry _ he with hnew | he
    · obtain ⟨rfl, rfl⟩ := Prod.mk.inj hnew
      obtain rfl := Option.some.inj (hr'.symm.trans hfind)
      rfl
    · exact h.frozen other s r' he hr'

theorem of_released {id userId : String} (here : f.At id userId .filed)
    (hhall : g.hall = f.hall.release id) (hstation : f.Comes g id userId .released)
    (hfiled : g.filed = f.filed) : g.Sound ids := by
  have hregistry : g.hall.registry = f.hall.registry.release id := by rw [hhall]; rfl
  have hfind : ∀ other r, g.hall.registry.find? other = some r →
      other ≠ id ∧ f.hall.registry.find? other = some r := by
    intro other r hr
    rw [hregistry, Registry.find?_release] at hr
    split at hr
    · cases hr
    · rename_i hid
      exact ⟨hid, hr⟩
  constructor
  case source =>
    rw [hhall]
    exact h.source
  case drawn =>
    exact h.drawn_of_comes here hstation (Nat.le_of_eq (by rw [hhall]; rfl))
  case sessions =>
    rw [hregistry]
    exact h.sessions.sublist (List.filter_sublist.map _)
  case users =>
    rw [hregistry]
    exact h.users.sublist (List.filter_sublist.map _)
  case registered =>
    intro other
    rw [registrant_of_comes hstation, hregistry, Registry.find?_release]
    split
    · rfl
    · exact h.registered other
  case seats =>
    intro other r hr
    exact h.seats other r (hfind other r hr).2
  case filed =>
    exact h.filed_of_comes here hstation rfl hfiled
  case once =>
    rw [hfiled]
    exact h.once
  case held =>
    rw [hregistry, hfiled]
    exact h.held
  case finals =>
    exact h.finals_of_comes here hstation (by rw [hregistry]; rfl)
  case frozen =>
    intro other s r he hr
    rw [hregistry] at he
    exact h.frozen other s r he (hfind other r hr).2

theorem of_closed {id userId : String} (here : f.At id userId .released) (hhall : g.hall = f.hall)
    (hstation : f.Comes g id userId .closed) (hfiled : g.filed = f.filed) : g.Sound ids where
  source := by rw [hhall]; exact h.source
  drawn := h.drawn_of_comes here hstation (Nat.le_of_eq (by rw [hhall]))
  sessions := by rw [hhall]; exact h.sessions
  users := by rw [hhall]; exact h.users
  registered other := by
    rw [registrant_of_comes hstation, hhall]
    split
    · rename_i hid
      subst hid
      rw [h.find?_eq_none here rfl]
      rfl
    · exact h.registered other
  seats := by rw [hhall]; exact h.seats
  filed := h.filed_of_comes here hstation rfl hfiled
  once := by rw [hfiled]; exact h.once
  held := by rw [hhall, hfiled]; exact h.held
  finals := h.finals_of_comes here hstation (by rw [hhall])
  frozen := by rw [hhall]; exact h.frozen

/-- **Whatever a move does to the sessions, the floor stays in order.** -/
theorem shift (hinjective : Function.Injective ids) (hs : f.Shift g) : g.Sound ids := by
  cases hs with
  | still hall station filed =>
    exact h.of_same hall.registry station filed hall.source hall.drawn
  | launched k userId seat before free new hall station filed =>
    exact h.of_launched hinjective before free new hall station filed
  | commenced id userId here hall station filed =>
    obtain ⟨r, hfind, -⟩ := h.exists_find? here rfl
    have hact := Hall.commence_of_find? hfind
    rw [← hall] at hact
    refine h.of_renewed here station rfl rfl hfind ?_ filed ?_ ?_ fun hsits => hsits
    · exact (congrArg Hall.registry hact).trans (Hall.act_registry ..)
    · exact (congrArg Hall.source hact).trans (Hall.act_source ..)
    · exact hact ▸ Hall.le_drawn_act ..
  | turned id userId k x here live set kind hall station filed =>
    obtain ⟨r, hfind, -⟩ := exists_of_isLive live
    obtain ⟨scene, seat, hregistry, hsource, hdrawn, hsitting⟩ := turn_registry (x := x) set hfind
    rw [← hall] at hregistry hsource hdrawn
    have hstays : f.Comes g id userId .running := by
      rw [Comes, station, ← here, Function.update_eq_self]
    refine h.of_renewed here hstays rfl rfl hfind hregistry filed hsource hdrawn fun hsits => ?_
    rw [hsitting]
    exact hsits.step _ scene kind _
  | filed id userId here stopped hall station filed =>
    exact h.of_filed here stopped hall station filed
  | released id userId here hall station filed => exact h.of_released here hall station filed
  | closed id userId here hall station filed => exact h.of_closed here hall station filed

theorem step (hinjective : Function.Injective ids) (m : Move) : (f.step m).Sound ids :=
  h.shift hinjective (f.shift_step m)

theorem run (hinjective : Function.Injective ids) (moves : List Move) :
    (f.run moves).Sound ids := by
  induction moves generalizing f with
  | nil => exact h
  | cons m moves ih => exact ih (h.step hinjective m)

end Sound

/-- The floor of a new service is in order. -/
theorem sound_opened (config : Config) (catalog : Catalog) (practice : PracticeStore σ) (lives : σ)
    (time : Stamp) (source : Source) :
    (opened (.new config catalog practice lives time source)).Sound source.sessionId where
  source := rfl
  drawn _ _ _ hat := nomatch hat
  sessions := List.nodup_nil
  users := List.nodup_nil
  registered _ := rfl
  seats _ _ hfind := nomatch hfind
  filed _ := ⟨nofun, nofun⟩
  once := List.nodup_nil
  held := (List.rtake_nil _).symm ▸ Archive.holds_new _
  finals _ _ he := nomatch he
  frozen _ _ _ he := nomatch he

/-! ## What is over stays over -/

/-- What a session has come to: it has ended, and this is its record for good. It may have left the
archive since. -/
def Settled (f : Floor σ) (id : String) (session : Session) : Prop :=
  f.Evicted id ∨
    (∃ s, (id, s) ∈ f.hall.registry.archive.entries ∧ s.session = session) ∨
    ∃ r, f.hall.registry.find? id = some r ∧ r.value.sitting.isRunning = false ∧
      r.value.sitting.session = session

theorem Evicted.mem_filed {id : String} (he : f.Evicted id) : id ∈ f.filed :=
  List.mem_of_mem_take he

namespace Sound

variable (h : f.Sound ids) {id userId : String} {stage : DeskStage}
include h

/-- The archive stays, or one more session is filed: one that has stopped. -/
theorem archive_cases (hs : f.Shift g) :
    (g.hall.registry.archive = f.hall.registry.archive ∧ g.filed = f.filed) ∨
    ∃ id userId r, f.At id userId .running ∧ f.hall.registry.find? id = some r ∧
      g.hall.registry.archive =
        f.hall.registry.archive.insert id r.value.sitting.snapshot ∧
      g.filed = f.filed ++ [id] := by
  cases hs with
  | still hall station filed => exact .inl ⟨by rw [hall.registry], filed⟩
  | launched k userId seat before free new hall station filed =>
    refine .inl ⟨?_, filed⟩
    rw [hall, Hall.seated, Hall.draw, before.registry]
  | commenced id userId here hall station filed =>
    obtain ⟨r, hfind, -⟩ := h.exists_find? here rfl
    refine .inl ⟨?_, filed⟩
    rw [hall, Hall.commence_of_find? hfind, Hall.act_registry]
    rfl
  | turned id userId k x here live set kind hall station filed =>
    obtain ⟨r, hfind, -⟩ := exists_of_isLive live
    obtain ⟨scene, seat, hregistry, -⟩ := turn_registry (x := x) set hfind
    refine .inl ⟨?_, filed⟩
    rw [hall, hregistry]
    rfl
  | filed id userId here stopped hall station filed =>
    obtain ⟨r, hfind, -⟩ := h.exists_find? here rfl
    refine .inr ⟨id, userId, r, here, hfind, ?_, filed⟩
    rw [hall, Hall.file, hfind]
    rfl
  | released id userId here hall station filed => exact .inl ⟨by rw [hall]; rfl, filed⟩
  | closed id userId here hall station filed => exact .inl ⟨by rw [hall], filed⟩

theorem filed_subset (hs : f.Shift g) (hid : id ∈ f.filed) : id ∈ g.filed := by
  rcases h.archive_cases hs with ⟨-, hfiled⟩ | ⟨_, _, _, -, -, -, hfiled⟩
  · rwa [hfiled]
  · rw [hfiled]
    exact List.mem_append_left _ hid

theorem evicted_shift (hs : f.Shift g) (he : f.Evicted id) : g.Evicted id := by
  rcases h.archive_cases hs with ⟨harchive, hfiled⟩ | ⟨_, _, r, -, -, harchive, hfiled⟩
  · rw [Evicted, harchive, hfiled]
    exact he
  · rw [Evicted, harchive, hfiled]
    have hcapacity : ∀ key snapshot, (f.hall.registry.archive.insert key snapshot).capacity =
        f.hall.registry.archive.capacity := fun _ _ => rfl
    rw [hcapacity, List.length_append, List.length_singleton]
    refine (List.take_subset_take_left _ (Nat.sub_le_sub_right (Nat.le_succ _) _)) ?_
    rw [List.take_append_of_le_length (Nat.sub_le ..)]
    exact he

/-- What the archive has of a session it keeps, until the session is evicted. -/
theorem entry_shift (hg : g.Sound ids) (hs : f.Shift g) {s : Snapshot}
    (he : (id, s) ∈ f.hall.registry.archive.entries) :
    (id, s) ∈ g.hall.registry.archive.entries ∨ g.Evicted id := by
  rcases hg.archived_or_evicted (h.filed_subset hs (h.mem_filed he)) with ⟨t, ht⟩ | hevicted
  · -- what is in the archive now was in it before, for nobody is filed twice
    refine .inl ?_
    rcases h.archive_cases hs with ⟨harchive, -⟩ | ⟨other, u, r, here, -, harchive, -⟩
    · rwa [harchive]
    · rw [harchive] at ht
      rcases Archive.mem_insert ht with hnew | hold
      · obtain ⟨rfl, -⟩ := Prod.mk.inj hnew
        exact absurd (h.mem_filed he) (h.notMem_filed here rfl)
      · rw [harchive, h.entry_unique he hold]
        exact ht
  · exact .inr hevicted

/-- What can be looked up in the archive can be looked up later, until it is evicted. -/
theorem find?_shift (hg : g.Sound ids) (hs : f.Shift g) {id : String} {s : Snapshot}
    (hfind : f.hall.registry.archive.find? id = some s) :
    g.hall.registry.archive.find? id = some s ∨ g.Evicted id := by
  refine (h.entry_shift hg hs (Archive.mem_of_find? hfind)).imp_left fun he => ?_
  cases hlater : g.hall.registry.archive.find? id with
  | none =>
    exact absurd (List.mem_map_of_mem (f := Prod.fst) he) (Archive.notMem_of_find?_eq_none hlater)
  | some t => rw [hg.entry_unique he (Archive.mem_of_find? hlater)]

/-- What an owner looks for and does not find in the archive was evicted. -/
theorem evicted_of_absent {id : String} (hid : id ∈ f.filed)
    (habsent : f.hall.registry.archive.find? id = none) : f.Evicted id := by
  refine (h.archived_or_evicted hid).resolve_left ?_
  rintro ⟨s, he⟩
  exact Archive.notMem_of_find?_eq_none habsent (List.mem_map_of_mem (f := Prod.fst) he)

/-- What is found in the archive has ended, and is found for its owner. -/
theorem final_of_find? {id userId : String} {stage : DeskStage} (hat : f.At id userId stage)
    {s : Snapshot} (hfind : f.hall.registry.archive.find? id = some s) :
    s.session.isActive = false ∧ s.session.userId = userId := by
  obtain ⟨hover, stage', hat'⟩ := h.finals id s (Archive.mem_of_find? hfind)
  exact ⟨hover, congrArg Prod.fst (Option.some.inj (hat'.symm.trans hat))⟩

/-- A session that has stopped takes no turn. -/
theorem not_live_of_settled {session : Session} (hsettled : f.Settled id session)
    (here : f.At id userId .running) : f.isLive id = false := by
  have hfresh := h.notMem_filed here rfl
  rcases hsettled with hevicted | ⟨s, he, -⟩ | ⟨r, hfind, hover, -⟩
  · exact absurd hevicted.mem_filed hfresh
  · exact absurd (h.mem_filed he) hfresh
  · rw [isLive, hfind]
    exact hover

/-- A session that leaves the registry is in the archive as it was filed, or evicted. -/
theorem settled_released (hs : f.Shift g) (here : f.At id userId .filed)
    (hregistry : g.hall.registry = f.hall.registry.release id) {r : Running Seat}
    (hfind : f.hall.registry.find? id = some r) : g.Settled id r.value.sitting.session := by
  rcases h.archived_or_evicted ((h.filed id).mpr ⟨userId, _, here, rfl⟩) with ⟨s, he⟩ | hevicted
  · refine .inr (.inl ⟨s, ?_, (h.frozen id s r he hfind).symm⟩)
    rw [hregistry]
    exact he
  · exact .inl (h.evicted_shift hs hevicted)

/-- A session that has stopped stays as it is in the registry, or leaves that for the archive. -/
theorem settled_stopped (hinjective : Function.Injective ids) (hs : f.Shift g) {r : Running Seat}
    (hfind : f.hall.registry.find? id = some r) (hover : r.value.sitting.isRunning = false) :
    g.Settled id r.value.sitting.session := by
  have hstays : g.hall.registry.find? id = some r → g.Settled id r.value.sitting.session :=
    fun hfind' => .inr (.inr ⟨r, hfind', hover, rfl⟩)
  have hshift := hs
  cases hs with
  | still hall station filed => exact hstays (by rw [hall.registry]; exact hfind)
  | launched k u seat before free new hall station filed =>
    obtain ⟨-, -, hfound⟩ := h.registry_launched hinjective before new hall
    obtain ⟨_, hat, -⟩ := h.at_of_find? hfind
    exact hstays (by rw [hfound, if_neg (h.ne_new hinjective new hat), hfind])
  | commenced other u here hall station filed =>
    obtain ⟨first, hfirst, -⟩ := h.exists_find? here rfl
    have hregistry := congrArg Hall.registry hall
    rw [Hall.commence_of_find? hfirst, Hall.act_registry] at hregistry
    by_cases hid : id = other
    · subst hid
      obtain rfl := Option.some.inj (hfirst.symm.trans hfind)
      rw [Settled, hregistry]
      exact .inr (.inr ⟨_, Registry.find?_update_self hfind _, hover, rfl⟩)
    · exact hstays (by rw [hregistry, Registry.find?_update_of_ne hid, hfind])
  | turned other u k x here live set kind hall station filed =>
    obtain ⟨first, hfirst, -⟩ := exists_of_isLive live
    obtain ⟨scene, seat, hregistry, -⟩ := turn_registry (x := x) set hfirst
    by_cases hid : id = other
    · -- only a session that runs takes a turn
      subst hid
      rw [isLive, hfind] at live
      exact absurd live (by simp [hover])
    · exact hstays (by rw [hall, hregistry, Registry.find?_update_of_ne hid, hfind])
  | filed other u here stopped hall station filed =>
    obtain ⟨first, hfirst, -⟩ := h.exists_find? here rfl
    refine hstays ?_
    rw [hall, Hall.file, hfirst]
    exact hfind
  | released other u here hall station filed =>
    have hregistry : g.hall.registry = f.hall.registry.release other := by rw [hall]; rfl
    by_cases hid : id = other
    · subst hid
      exact h.settled_released hshift here hregistry hfind
    · exact hstays (by rw [hregistry, Registry.find?_release, if_neg hid, hfind])
  | closed other u here hall station filed => exact hstays (by rw [hall]; exact hfind)

theorem settled_shift (hinjective : Function.Injective ids) (hs : f.Shift g) {session : Session}
    (hsettled : f.Settled id session) : g.Settled id session := by
  rcases hsettled with hevicted | ⟨s, he, hsession⟩ | ⟨r, hfind, hover, rfl⟩
  · exact .inl (h.evicted_shift hs hevicted)
  · rcases h.entry_shift (h.shift hinjective hs) hs he with he' | hevicted
    · exact .inr (.inl ⟨s, he', hsession⟩)
    · exact .inl hevicted
  · exact h.settled_stopped hinjective hs hfind hover

/-- A desk stays, and stays with its user. -/
theorem at_shift (hinjective : Function.Injective ids) (hs : f.Shift g)
    (hat : f.At id userId stage) : ∃ stage', g.At id userId stage' := by
  have hcomes : ∀ {other u : String} {was now : DeskStage}, f.At other u was →
      f.Comes g other u now → ∃ stage', g.At id userId stage' := by
    intro other u was now here hstation
    by_cases hid : id = other
    · subst hid
      have huser := congrArg Prod.fst (Option.some.inj (hat.symm.trans here))
      exact ⟨now, (at_of_comes hstation).mpr (.inl ⟨rfl, huser, rfl⟩)⟩
    · exact ⟨stage, (at_of_comes hstation).mpr (.inr ⟨hid, hat⟩)⟩
  cases hs with
  | still hall station filed => exact ⟨stage, by rw [At, station]; exact hat⟩
  | launched k u seat before free new hall station filed =>
    exact ⟨stage, (at_of_comes station).mpr (.inr ⟨h.ne_new hinjective new hat, hat⟩)⟩
  | commenced other u here hall station filed => exact hcomes here station
  | turned other u k x here live set kind hall station filed =>
    exact ⟨stage, by rw [At, station]; exact hat⟩
  | filed other u here stopped hall station filed => exact hcomes here station
  | released other u here hall station filed => exact hcomes here station
  | closed other u here hall station filed => exact hcomes here station

end Sound

end Floor

end Invigilator
