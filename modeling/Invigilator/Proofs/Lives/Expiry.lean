import Invigilator.Lives.Redis
import Invigilator.Proofs.Json.Parsing
import Invigilator.Proofs.Lives.Window
import Invigilator.Proofs.Time.Reading

/-!
# Records that expire

On a server a record with losses is written with a time to live, the cooldown, so it may be gone
when its bucket is next looked at. Nobody can tell. Every loss in the record is as old as the
record or older, so when the record goes the last of them has waited long enough, and a bucket
without a record is told the same as one whose losses are all over.

The invariant `Standing` has the two cases: the server still holds the record that the shelf
holds, until some deadline, or it holds none and no loss of the shelf's record is waiting any
more. A visit sees no difference between them, and leads from the first to the second when the
deadline has passed and back when it writes.
-/

namespace Invigilator

/-! ## Records are read as they were written -/

namespace LivesState

/-- A record whose text stands for it. -/
structure Writable (r : LivesState) : Prop where
  lives : r.lives < 256
  lostAt : ∀ l ∈ r.lostAt, l.Datable

theorem plainItems_stamps (stamps : List Stamp) : Json.PlainItems (stamps.map Stamp.toJson) := by
  induction stamps with
  | nil => trivial
  | cons s stamps ih => exact ⟨trivial, ih⟩

theorem plain_toJson {r : LivesState} (hr : r.Writable) : r.toJson.Plain := by
  have hlives := hr.lives
  refine ⟨?_, plainItems_stamps r.lostAt, trivial⟩
  show r.lives < _
  exact Nat.lt_trans hlives (by decide)

theorem mapM_ofJson? {stamps : List Stamp} (h : ∀ l ∈ stamps, l.Datable) :
    (stamps.map Stamp.toJson).mapM Stamp.ofJson? = some stamps := by
  induction stamps with
  | nil => rfl
  | cons s stamps ih =>
    have hread : Stamp.ofJson? s.toJson = some s := Stamp.read?_write (h s List.mem_cons_self)
    have hrest := ih fun l hl => h l (List.mem_cons_of_mem s hl)
    rw [List.map_cons, List.mapM_cons, hread, hrest]
    rfl

theorem ofJson?_toJson {r : LivesState} (hr : r.Writable) : ofJson? r.toJson = some r := by
  have hslots : Json.slots? [.plain "lives", .defaulted "lost_at"] r.toJson =
      some [some (.nat r.lives), some (.listOf Stamp.toJson r.lostAt)] := by
    simp [Json.slots?, Json.slotOfMembers, toJson, Json.Field.plain, Json.Field.defaulted]
  have hlives : Json.nat8? (.nat r.lives) = some r.lives := if_pos hr.lives
  have hlost : Json.listOf? Stamp.ofJson? (.listOf Stamp.toJson r.lostAt) = some r.lostAt :=
    mapM_ofJson? hr.lostAt
  rw [ofJson?, hslots]
  simp [Json.needed, Json.withDefault, hlives, hlost]

end LivesState

namespace Redis

/-- **A record is read as it was written.** -/
theorem readState?_payload {r : LivesState} (hr : r.Writable) :
    readState? (payload r) = some r := by
  rw [readState?, payload, Json.read?_write (LivesState.plain_toJson hr)]
  exact LivesState.ofJson?_toJson hr

/-! ## A server on which texts expire -/

/-- What a server replies to a question for a text. -/
def found : Option String → Reply
  | none => .nil
  | some text => .bulk text

variable {σ : Type}

/-- A server whose texts may run out. It is told the time in nanoseconds since 1970, and `held` says
which text it has under a key at a time, as things stand. -/
structure Expiring (server : Int → Server σ) (held : σ → Int → String → Option String) : Prop where
  get : ∀ t key s, ∃ s', server t ["GET", key] s = (found (held s t key), s') ∧
    ∀ u, t ≤ u → held s' u = held s u
  has : ∀ t key s, ∃ s',
    server t ["EXISTS", key] s = (.integer (if (held s t key).isSome then 1 else 0), s') ∧
    ∀ u, t ≤ u → held s' u = held s u
  /-- A text without a time to live stays. -/
  set : ∀ t key text s, ∃ s', server t ["SET", key, text] s = (.status, s') ∧
    ∀ u, t ≤ u → held s' u = Function.update (held s u) key (some text)
  /-- A text with one is gone when so many seconds have passed. -/
  setFor : ∀ t key text n s, 0 < n → ∃ s',
    server t ["SET", key, text, "EX", Decimal.text n] s = (.status, s') ∧
    ∀ u, t ≤ u → held s' u =
      Function.update (held s u) key (if u < t + n * nanosPerSecond then some text else none)

/-! ### Such a server in memory -/

/-- The texts of a server, each with the time at which it is gone, if there is one. -/
abbrev Texts := String → Option (String × Option Int)

/-- The text under a key at a time. -/
def Texts.at? (s : Texts) (u : Int) (key : String) : Option String :=
  match s key with
  | none => none
  | some (text, none) => some text
  | some (text, some gone) => if u < gone then some text else none

/-- What the server does with a command at a time. -/
def Texts.answer (t : Int) : Server Texts
  | ["GET", key], s => (found (s.at? t key), s)
  | ["EXISTS", key], s => (.integer (if (s.at? t key).isSome then 1 else 0), s)
  | ["SET", key, text], s => (.status, Function.update s key (some (text, none)))
  | ["SET", key, text, "EX", seconds], s =>
    match Decimal.read? seconds.toList with
    | some n => (.status, Function.update s key (some (text, some (t + n * nanosPerSecond))))
    | none => (.error "value is not an integer or out of range", s)
  | _, s => (.error "unknown command", s)

theorem Texts.at?_update (s : Texts) (key text : String) (gone : Option Int) (u : Int) :
    Texts.at? (Function.update s key (some (text, gone))) u =
      Function.update (Texts.at? s u) key
        (match gone with
          | none => some text
          | some gone => if u < gone then some text else none) := by
  funext key'
  by_cases hkey : key' = key
  · subst hkey
    rw [Texts.at?, Function.update_self, Function.update_self]
    cases gone <;> rfl
  · rw [Texts.at?, Function.update_of_ne hkey, Function.update_of_ne hkey]
    rfl

theorem Texts.expiring : Expiring Texts.answer Texts.at? where
  get t key s := ⟨s, rfl, fun _ _ => rfl⟩
  has t key s := ⟨s, rfl, fun _ _ => rfl⟩
  set t key text s := ⟨_, rfl, fun u _ => Texts.at?_update s key text none u⟩
  setFor t key text n s _ := by
    have hread : Decimal.read? (Decimal.text n).toList = some n := by
      rw [Decimal.text, String.toList_ofList, Decimal.read?_digits]
    refine ⟨Function.update s key (some (text, some (t + n * nanosPerSecond))), ?_, fun u _ =>
      Texts.at?_update s key text (some (t + n * nanosPerSecond)) u⟩
    show (match Decimal.read? (Decimal.text n).toList with
      | some n => (Reply.status, Function.update s key (some (text, some (t + n * nanosPerSecond))))
      | none => (Reply.error "value is not an integer or out of range", s)) = _
    rw [hread]

/-! ### The store over such a server -/

/-- A text that was written at a time, at a later time. -/
def lasting (ttl : Option Nat) (written : Int) (text : String) (u : Int) : Option String :=
  match ttl with
  | none => some text
  | some n => if u < written + (max n 1 : Nat) * nanosPerSecond then some text else none

section Calls

variable {server : Int → Server σ} {held : σ → Int → String → Option String} {t : Int}

theorem run_tracked {α : Type} (backend operation : String) (a : Attempt σ α) (s : σ) :
    ((a.tracked backend operation).run s).1 = (a.run s).1 := by
  unfold Attempt.run Attempt.tracked
  generalize a s = r
  obtain ⟨⟨_ | _, _⟩, _⟩ := r <;> rfl

/-- A reply that can be read is. -/
theorem ask_run {α : Type} {server : Server σ} {command : Command} {reply : Reply}
    {read : Reply → Option α} {x : α} {s s' : σ} (context : String)
    (hserver : server command s = (reply, s')) (hread : read reply = some x)
    (hreply : ∀ text, reply ≠ .error text) :
    ((ask server context command read).run s).1 = (.ok x, s') := by
  cases reply with
  | error text => exact absurd rfl (hreply text)
  | nil => simp [ask, Attempt.run, hserver, hread]
  | status => simp [ask, Attempt.run, hserver, hread]
  | bulk text => simp [ask, Attempt.run, hserver, hread]
  | integer n => simp [ask, Attempt.run, hserver, hread]

theorem readText?_found (text : Option String) : readText? (found text) = some text := by
  cases text <;> rfl

theorem found_ne_error (text : Option String) (e : String) : found text ≠ .error e := by
  cases text <;> exact Reply.noConfusion

theorem readExists?_integer (b : Bool) :
    readExists? (.integer (if b = true then 1 else 0)) = some b := by
  cases b <;> rfl

/-- A look at the server reads the text that it holds. -/
theorem get_run (he : Expiring server held) (t : Int) (key : String) (s : σ) : ∃ s',
    (((store (server t)).get key).run s).1 =
      (.ok ((held s t (recordKey key)).bind readState?), s') ∧
    ∀ u, t ≤ u → held s' u = held s u := by
  obtain ⟨s', hserver, hsame⟩ := he.get t (recordKey key) s
  refine ⟨s', ?_, hsame⟩
  have hask : ((Attempt.tracked "redis" "get" (ask (server t) "Failed to read lives from Redis"
      ["GET", recordKey key] readText?)).run s).1 = (.ok (held s t (recordKey key)), s') := by
    rw [run_tracked]
    exact ask_run _ hserver (readText?_found _) (found_ne_error _)
  show ((get (server t) key).run s).1 = _
  rw [get, Attempt.run_bind_ok hask]
  cases held s t (recordKey key) with
  | none => rfl
  | some text =>
    rw [Option.bind_some]
    dsimp only
    cases readState? text <;> rfl

theorem has_run (he : Expiring server held) (t : Int) (key : String) (s : σ) : ∃ s',
    (((store (server t)).has key).run s).1 = (.ok (held s t (recordKey key)).isSome, s') ∧
    ∀ u, t ≤ u → held s' u = held s u := by
  obtain ⟨s', hserver, hsame⟩ := he.has t (recordKey key) s
  exact ⟨s', ask_run _ hserver (readExists?_integer _) nofun, hsame⟩

/-- A write leaves the text of the record, for as long as it is to live. -/
theorem put_run (he : Expiring server held) (t : Int) (key : String) (r : LivesState)
    (ttl : Option Nat) (s : σ) : ∃ s',
    (((store (server t)).put key r ttl).run s).1 = (.ok (), s') ∧
    ∀ u, t ≤ u → held s' u =
      Function.update (held s u) (recordKey key) (lasting ttl t (payload r) u) := by
  have hput : ∀ s', server t (setCommand key r ttl) s = (.status, s') →
      (((store (server t)).put key r ttl).run s).1 = (.ok (), s') := by
    intro s' hserver
    show ((Attempt.tracked "redis" "set" (ask (server t) _ (setCommand key r ttl) _)).run s).1 = _
    rw [run_tracked]
    exact ask_run _ hserver rfl nofun
  cases ttl with
  | none =>
    obtain ⟨s', hserver, hheld⟩ := he.set t (recordKey key) (payload r) s
    exact ⟨s', hput s' hserver, hheld⟩
  | some n =>
    have hpos : 0 < max n 1 := Nat.lt_of_lt_of_le Nat.one_pos (Nat.le_max_right n 1)
    obtain ⟨s', hserver, hheld⟩ := he.setFor t (recordKey key) (payload r) (max n 1) s hpos
    exact ⟨s', hput s' hserver, hheld⟩

theorem store_reliable (he : Expiring server held) (t : Int) :
    (store (server t)).Reliable fun _ => True where
  get key s _ := by
    obtain ⟨s', hrun, -⟩ := get_run he t key s
    exact ⟨_, s', hrun, trivial⟩
  put key state ttl s _ := by
    obtain ⟨s', hrun, -⟩ := put_run he t key state ttl s
    exact ⟨s', hrun, trivial⟩

theorem recordKey_injective {a b : String} (h : recordKey a = recordKey b) : a = b :=
  (String.append_right_inj "lives:").mp h

end Calls

end Redis

namespace Ledger

open LivesState (losses waiting window lessOne afterWrites Balanced Takes)
open Redis (lasting payload readState? recordKey)

/-! ## One record -/

variable {m k : Nat} {t now : Stamp} {shelf : Option LivesState} {r : LivesState} {w : Int}
  {held : Int → Option String}

/-- A time of so many seconds, in nanoseconds. -/
def wholeSeconds (k : Nat) : Int := (k * nanosPerSecond : Nat)

/-- A record with losses is to live as long as the last of them waits, and at least a second. -/
theorem timeToLive_wholeSeconds (m k : Nat) (r : LivesState) :
    timeToLive ⟨m, some (wholeSeconds k)⟩ r =
      if r.lostAt.isEmpty then none else some (max k 1) := by
  have hseconds : Int.tdiv (wholeSeconds k) nanosPerSecond = k := by
    rw [wholeSeconds, Int.natCast_mul, Int.mul_tdiv_cancel _ (by decide)]
  have hmax : (max (k : Int) 1).toNat = max k 1 := by omega
  unfold timeToLive
  dsimp only
  rw [hseconds, hmax]

/-- A loss that the clock has shown by a moment. -/
structure Shown (t l : Stamp) : Prop where
  regular : l.Regular
  datable : l.Datable
  past : l.nanos ≤ t.nanos

/-- A record is balanced, and its losses are in the past. -/
structure Sound (m : Nat) (t : Stamp) (shelf : Option LivesState) : Prop where
  balanced : ∀ r ∈ shelf, r.Balanced m
  shown : ∀ l ∈ losses shelf, Shown t l

theorem sound_none (m : Nat) (t : Stamp) : Sound m t none where
  balanced _ hr := nomatch hr
  shown _ hl := absurd hl List.not_mem_nil

theorem Sound.later (hs : Sound m t shelf) (hle : t.nanos ≤ now.nanos) : Sound m now shelf := by
  refine ⟨hs.balanced, fun l hl => ?_⟩
  obtain ⟨hregular, hdatable, hpast⟩ := hs.shown l hl
  exact ⟨hregular, hdatable, Int.le_trans hpast hle⟩

theorem Sound.writable (hs : Sound m t (some r)) (hm : m < 256) : r.Writable := by
  have hsum : r.lives + r.lostAt.length = m := hs.balanced r rfl
  exact ⟨by omega, fun l hl => (hs.shown l hl).datable⟩

/-- A call keeps the losses in the past. -/
theorem Sound.visited {c : Int} (hs : Sound m now shelf) (hm : m < 256) (hregular : now.Regular)
    (hdatable : now.Datable) (call : LedgerCall) :
    Sound m now (afterWrites shelf (outcome m c now shelf call).2) := by
  refine ⟨LivesState.balanced_afterWrites c now hs.balanced hm call, fun l hl => ?_⟩
  rw [LivesState.losses_outcome c now hs.balanced hm call] at hl
  split at hl
  · exact absurd hl List.not_mem_nil
  rcases List.mem_append.mp hl with hl | hl
  · exact hs.shown l (List.mem_filter.mp hl).1
  split at hl
  · rw [List.mem_singleton.mp hl]
    exact ⟨hregular, hdatable, Int.le_refl _⟩
  · exact absurd hl List.not_mem_nil

/-- The server holds the record that was written at a time, as long as it is to live. -/
structure Stands (m k : Nat) (t : Stamp) (r : LivesState) (w : Int) (held : Int → Option String) :
    Prop where
  past : w ≤ t.nanos
  /-- No loss is younger than the record. -/
  older : ∀ l ∈ r.lostAt, l.nanos ≤ w
  held : ∀ u, t.nanos ≤ u →
    held u = lasting (timeToLive ⟨m, some (wholeSeconds k)⟩ r) w (payload r) u

/-- The server holds nothing any more, and no loss waits any more. -/
structure Gone (k : Nat) (t : Stamp) (shelf : Option LivesState) (held : Int → Option String) :
    Prop where
  held : ∀ u, t.nanos ≤ u → held u = none
  elapsed : ∀ u : Stamp, u.Regular → t.nanos ≤ u.nanos →
    waiting (wholeSeconds k) u (losses shelf) = []

/-- What the server holds of a record, from a moment on. -/
def Standing (m k : Nat) (t : Stamp) (shelf : Option LivesState) (held : Int → Option String) :
    Prop :=
  Gone k t shelf held ∨ ∃ r w, shelf = some r ∧ Stands m k t r w held

theorem Standing.later (hst : Standing m k t shelf held) (hle : t.nanos ≤ now.nanos) :
    Standing m k now shelf held := by
  rcases hst with ⟨hheld, hover⟩ | ⟨r, w, hr, hpast, holder, hheld⟩
  · exact Or.inl ⟨fun u hu => hheld u (Int.le_trans hle hu),
      fun u hu hle' => hover u hu (Int.le_trans hle hle')⟩
  · exact Or.inr ⟨r, w, hr, Int.le_trans hpast hle, holder,
      fun u hu => hheld u (Int.le_trans hle hu)⟩

/-- Only what is held from the moment on matters. -/
theorem Standing.congr {held' : Int → Option String} (hst : Standing m k t shelf held)
    (hsame : ∀ u, t.nanos ≤ u → held' u = held u) : Standing m k t shelf held' := by
  rcases hst with ⟨hheld, hover⟩ | ⟨r, w, hr, hpast, holder, hheld⟩
  · exact Or.inl ⟨fun u hu => (hsame u hu).trans (hheld u hu), hover⟩
  · exact Or.inr ⟨r, w, hr, hpast, holder, fun u hu => (hsame u hu).trans (hheld u hu)⟩

/-- **When a record goes, its losses are over.** So at any moment the record is there, or it is gone
and not missed. -/
theorem Standing.look (hst : Standing m k now shelf held) (hs : Sound m now shelf) :
    (held now.nanos = none ∧ Gone k now shelf held) ∨
      ∃ r w, shelf = some r ∧ held now.nanos = some (payload r) ∧ Stands m k now r w held := by
  rcases hst with hgone | ⟨r, w, rfl, hstands⟩
  · exact Or.inl ⟨hgone.held now.nanos (Int.le_refl _), hgone⟩
  have hnow := hstands.held now.nanos (Int.le_refl _)
  have httl := timeToLive_wholeSeconds m k r
  by_cases hempty : r.lostAt.isEmpty = true
  · -- without losses it has no time to live
    rw [if_pos hempty] at httl
    rw [httl] at hnow
    exact Or.inr ⟨r, w, rfl, hnow, hstands⟩
  · rw [if_neg hempty] at httl
    rw [httl] at hnow
    by_cases hlives : now.nanos < w + (max (max k 1) 1 : Nat) * nanosPerSecond
    · exact Or.inr ⟨r, w, rfl, hnow.trans (if_pos hlives), hstands⟩
    · refine Or.inl ⟨hnow.trans (if_neg hlives), fun u hu => ?_, fun u hu hle => ?_⟩
      · have hlater := hstands.held u hu
        rw [httl] at hlater
        exact hlater.trans (if_neg (by omega))
      · -- every loss is as old as the record, or older
        rw [waiting, List.filter_eq_nil_iff]
        intro l hl
        have hold := hstands.older l hl
        have hcooled : wholeSeconds k ≤ (max (max k 1) 1 : Nat) * nanosPerSecond := by
          rw [wholeSeconds]
          exact_mod_cast Nat.mul_le_mul_right nanosPerSecond (by omega)
        simp only [LivesState.isWaiting, Stamp.since_eq hu (hs.shown l hl).regular, decide_eq_true_eq]
        omega

/-! ## One visit -/

/-- What the server holds of a bucket after some writes at a moment. -/
def heldAfter (rules : LedgerRules) (now : Stamp) (held : Int → Option String)
    (states : List LivesState) (u : Int) : Option String :=
  match states.getLast? with
  | none => held u
  | some r => lasting (timeToLive rules r) now.nanos (payload r) u

/-- A record that is written stands. -/
theorem Stands.ofWrite (hs : Sound m now (some r)) (held : Int → Option String)
    {states : List LivesState} (hlast : states.getLast? = some r) :
    Stands m k now r now.nanos (heldAfter ⟨m, some (wholeSeconds k)⟩ now held states) := by
  refine ⟨Int.le_refl _, fun l hl => (hs.shown l hl).past, fun u _ => ?_⟩
  rw [heldAfter, hlast]

/-- Without a write nothing changes. -/
theorem heldAfter_nil (rules : LedgerRules) (now : Stamp) (held : Int → Option String) :
    heldAfter rules now held [] = held := rfl

/-- A call that finds no record where the shelf has one whose losses are over answers the same, and
writes the same if it takes a life. -/
theorem Gone.visited (hgone : Gone k now shelf held) (hs : Sound m now shelf) (hm : m < 256)
    (hregular : now.Regular) (hdatable : now.Datable) (call : LedgerCall) :
    (outcome m (wholeSeconds k) now none call).1 = (outcome m (wholeSeconds k) now shelf call).1 ∧
      Standing m k now (afterWrites shelf (outcome m (wholeSeconds k) now shelf call).2)
        (heldAfter ⟨m, some (wholeSeconds k)⟩ now held
          (outcome m (wholeSeconds k) now none call).2) := by
  have hafter := hs.visited hm hregular hdatable call (c := wholeSeconds k)
  have hover := hgone.elapsed now hregular (Int.le_refl _)
  have hnothing := (sound_none m now).balanced
  have hsame : waiting (wholeSeconds k) now (losses none) =
      waiting (wholeSeconds k) now (losses shelf) := hover.symm
  refine ⟨LivesState.outcome_congr _ now hnothing hs.balanced hm hsame call, ?_⟩
  by_cases htakes : Takes (wholeSeconds k) now m (losses shelf) call
  · -- the life is taken from a full bucket on both sides
    have htakes' : Takes (wholeSeconds k) now m (losses none) call := by
      rw [Takes, hsame]
      exact htakes
    have hless : lessOne (wholeSeconds k) now m (losses none) =
        lessOne (wholeSeconds k) now m (losses shelf) := by
      rw [lessOne, lessOne, hsame]
    rw [LivesState.writes_of_takes _ now hs.balanced hm htakes, afterWrites,
      List.getLast?_concat, Option.some_or] at hafter ⊢
    refine Or.inr ⟨_, _, rfl, Stands.ofWrite hafter held ?_⟩
    rw [LivesState.writes_of_takes _ now hnothing hm htakes', List.getLast?_concat, hless]
  · -- the server is written nothing, and what the shelf is left with has no loss
    have hkeeps : ¬Takes (wholeSeconds k) now m [] call := by
      intro h
      refine htakes ?_
      rw [Takes, ← hsame]
      exact h
    have hleaves := LivesState.losses_outcome (wholeSeconds k) now hs.balanced hm call
    rw [if_neg htakes, hover, List.append_nil, ite_self] at hleaves
    rw [LivesState.writes_none _ now hm hkeeps, heldAfter_nil]
    refine Or.inl ⟨hgone.held, fun u _ _ => ?_⟩
    rw [hleaves]
    rfl

/-- A call that finds the record of the shelf writes what the shelf gets. -/
theorem Stands.visited (hstands : Stands m k now r w held) (hs : Sound m now (some r))
    (hm : m < 256) (hregular : now.Regular) (hdatable : now.Datable) (call : LedgerCall) :
    Standing m k now (afterWrites (some r) (outcome m (wholeSeconds k) now (some r) call).2)
      (heldAfter ⟨m, some (wholeSeconds k)⟩ now held
        (outcome m (wholeSeconds k) now (some r) call).2) := by
  have hafter := hs.visited hm hregular hdatable call (c := wholeSeconds k)
  cases hlast : (outcome m (wholeSeconds k) now (some r) call).2.getLast? with
  | none =>
    rw [List.getLast?_eq_none_iff.mp hlast]
    exact Or.inr ⟨r, w, rfl, hstands⟩
  | some r' =>
    rw [afterWrites, hlast, Option.some_or] at hafter ⊢
    exact Or.inr ⟨r', now.nanos, rfl, Stands.ofWrite hafter held hlast⟩

/-- **A call on the server is a call on the shelf.** It answers the same, and the records stay in
agreement, whether the server still has the record or not. -/
theorem Standing.visited (hst : Standing m k now shelf held) (hs : Sound m now shelf)
    (hm : m < 256) (hregular : now.Regular) (hdatable : now.Datable) (call : LedgerCall) :
    ((held now.nanos).bind readState?).isSome = (held now.nanos).isSome ∧
    (outcome m (wholeSeconds k) now ((held now.nanos).bind readState?) call).1 =
      (outcome m (wholeSeconds k) now shelf call).1 ∧
    Standing m k now
      (afterWrites shelf (outcome m (wholeSeconds k) now shelf call).2)
      (heldAfter ⟨m, some (wholeSeconds k)⟩ now held
        (outcome m (wholeSeconds k) now ((held now.nanos).bind readState?) call).2) := by
  rcases hst.look hs with ⟨hnone, hgone⟩ | ⟨r, w, rfl, hsome, hstands⟩
  · rw [hnone]
    exact ⟨rfl, hgone.visited hs hm hregular hdatable call⟩
  · have hread : (held now.nanos).bind readState? = some r := by
      rw [hsome]
      exact Redis.readState?_payload (hs.writable hm)
    rw [hread, hsome]
    exact ⟨rfl, rfl, hstands.visited hs hm hregular hdatable call⟩

/-! ## Runs -/

section Runs

variable {σ : Type} {server : Int → Redis.Server σ} {texts : σ → Int → String → Option String}
  {s : Shelf} {v : σ} {b : Bucket}

/-- The server as a store for lives, at any time. -/
def served (server : Int → Redis.Server σ) (t : Stamp) : LivesStore σ :=
  Redis.store (server t.nanos)

/-- Writes of a bucket change the text under its key, and no other. -/
theorem texts_written (he : Redis.Expiring server texts) (rules : LedgerRules)
    (states : List LivesState) (v : σ) {u : Int} (hu : now.nanos ≤ u) :
    texts (written (served server now) rules b v states) u =
      Function.update (texts v u) (recordKey b.key)
        (heldAfter rules now (fun u => texts v u (recordKey b.key)) states u) := by
  induction states using List.reverseRecOn with
  | nil => exact (Function.update_eq_self (recordKey b.key) (texts v u)).symm
  | append_singleton states r ih =>
    obtain ⟨v', hput, htexts⟩ := Redis.put_run he now.nanos b.key r (timeToLive rules r)
      (written (served server now) rules b v states)
    have hwritten : written (served server now) rules b v (states ++ [r]) = v' := by
      rw [written_append]
      exact congrArg Prod.snd hput
    rw [hwritten, htexts u hu, ih, Function.update_idem, heldAfter, List.getLast?_concat]

/-- A visit to the server is one read and some writes. -/
theorem visited_served (he : Redis.Expiring server texts) (m : Nat) (c : Int) (x : Visit)
    (hhas : ((texts v x.time.nanos (recordKey x.bucket.key)).bind readState?).isSome =
      (texts v x.time.nanos (recordKey x.bucket.key)).isSome) :
    ∃ v', (∀ u, x.time.nanos ≤ u → texts v' u = texts v u) ∧
      (visited (served server) ⟨m, some c⟩ v x).reply =
        .ok (outcome m c x.time ((texts v x.time.nanos (recordKey x.bucket.key)).bind readState?)
          x.call).1 ∧
      (visited (served server) ⟨m, some c⟩ v x).after =
        written (served server x.time) ⟨m, some c⟩ x.bucket v'
          (outcome m c x.time ((texts v x.time.nanos (recordKey x.bucket.key)).bind readState?)
            x.call).2 := by
  obtain ⟨v₁, hget, hsame⟩ := Redis.get_run he x.time.nanos x.bucket.key v
  obtain ⟨v₂, hknown, hsame'⟩ := Redis.has_run he x.time.nanos x.bucket.key v
  rw [← hhas] at hknown
  have hrun := answer_run (Redis.store_reliable he x.time.nanos) m c x.time x.call hget trivial
    hknown trivial
  refine ⟨if x.call = .reset then v₂ else v₁, fun u hu => ?_, congrArg Prod.fst hrun,
    congrArg Prod.snd hrun⟩
  split
  · exact hsame' u hu
  · exact hsame u hu

/-- The texts on the server, from a moment on, are in agreement with the records on the shelf. -/
structure Agrees (m k : Nat) (t : Stamp) (records : String → Option LivesState)
    (texts : Int → String → Option String) : Prop where
  sound : ∀ b : Bucket, Sound m t (records b.key)
  standing : ∀ b : Bucket, Standing m k t (records b.key) fun u => texts u (recordKey b.key)

variable {records : String → Option LivesState} {held : Int → String → Option String}

theorem Agrees.later (ha : Agrees m k t records held) (hle : t.nanos ≤ now.nanos) :
    Agrees m k now records held :=
  ⟨fun b => (ha.sound b).later hle, fun b => (ha.standing b).later hle⟩

/-- Before the first visit nothing is held, and nothing is lost. -/
theorem agrees_empty (hempty : ∀ u key, held u key = none) (m k : Nat) (t : Stamp) :
    Agrees m k t Shelf.empty.find? held :=
  ⟨fun _ => sound_none m t, fun _ => Or.inl ⟨fun u _ => hempty u _, fun _ _ _ => rfl⟩⟩

/-- What concerns one bucket leaves the others in agreement. -/
theorem Agrees.update (ha : Agrees m k t records held) (b : Bucket) {found : Option LivesState}
    {text : Int → Option String} {held' : Int → String → Option String}
    (hsound : Sound m t found) (hstanding : Standing m k t found text)
    (hheld : ∀ u, t.nanos ≤ u → held' u = Function.update (held u) (recordKey b.key) (text u)) :
    Agrees m k t (Function.update records b.key found) held' := by
  constructor
  · intro b'
    by_cases hb : b' = b
    · rw [hb, Function.update_self]
      exact hsound
    · rw [Function.update_of_ne fun h => hb (Bucket.key_injective h)]
      exact ha.sound b'
  · intro b'
    by_cases hb : b' = b
    · rw [hb, Function.update_self]
      refine hstanding.congr fun u hu => ?_
      rw [hheld u hu, Function.update_self]
    · rw [Function.update_of_ne fun h => hb (Bucket.key_injective h)]
      refine (ha.standing b').congr fun u hu => ?_
      have hkey : recordKey b'.key ≠ recordKey b.key :=
        fun h => hb (Bucket.key_injective (Redis.recordKey_injective h))
      rw [hheld u hu, Function.update_of_ne hkey]

/-- **One visit.** The server answers what the shelf answers, and they stay in agreement. -/
theorem Agrees.visited (he : Redis.Expiring server texts) (x : Visit) (hup : s.available = true)
    (ha : Agrees m k x.time s.find? (texts v)) (hm : m < 256) (hregular : x.time.Regular)
    (hdatable : x.time.Datable) :
    (∃ reply, (Ledger.visited (served server) ⟨m, some (wholeSeconds k)⟩ v x).reply = .ok reply ∧
      (Ledger.visited shelved ⟨m, some (wholeSeconds k)⟩ s x).reply = .ok reply) ∧
    (Ledger.visited shelved ⟨m, some (wholeSeconds k)⟩ s x).after.available = true ∧
    Agrees m k x.time (Ledger.visited shelved ⟨m, some (wholeSeconds k)⟩ s x).after.find?
      (texts (Ledger.visited (served server) ⟨m, some (wholeSeconds k)⟩ v x).after) := by
  have hsound := ha.sound x.bucket
  obtain ⟨hhas, hreply, hstanding⟩ :=
    (ha.standing x.bucket).visited hsound hm hregular hdatable x.call
  obtain ⟨v', hsame, hreply₁, hafter₁⟩ := visited_served he m (wholeSeconds k) x hhas
  obtain ⟨hreply₂, hafter₂⟩ := visited_shelf (m := m) (c := wholeSeconds k) x hup
  rw [hreply] at hreply₁
  rw [hafter₁, hafter₂, find?_written _ _ hup]
  refine ⟨⟨_, hreply₁, hreply₂⟩, up_written Shelf.store_reliable _ _ hup, ?_⟩
  refine ha.update x.bucket (hsound.visited hm hregular hdatable x.call) hstanding fun u hu => ?_
  rw [texts_written he _ _ v' hu, heldAfter, heldAfter, hsame u hu]

/-- Visits in order are answered the same, from a server and a shelf in agreement. -/
theorem replies_eq (he : Redis.Expiring server texts) (hm : m < 256) (visits : List Visit)
    (hregular : ∀ x ∈ visits, x.time.Regular) (hdatable : ∀ x ∈ visits, x.time.Datable)
    (hsorted : Stamp.Sorted (visits.map Visit.time)) (hup : s.available = true)
    (ha : ∀ x ∈ visits, Agrees m k x.time s.find? (texts v)) :
    (history (served server) ⟨m, some (wholeSeconds k)⟩ v visits).map Visited.reply =
        (history shelved ⟨m, some (wholeSeconds k)⟩ s visits).map Visited.reply ∧
      ∀ x ∈ history (served server) ⟨m, some (wholeSeconds k)⟩ v visits,
        ∃ reply, x.reply = .ok reply := by
  -- from the first visit on: the agreement that it leaves is there at all later ones
  induction visits generalizing s v with
  | nil => exact ⟨rfl, fun x hx => absurd hx List.not_mem_nil⟩
  | cons x visits ih =>
    obtain ⟨hfirst, hrest⟩ := List.pairwise_cons.mp hsorted
    have hx := List.mem_cons_self (a := x) (l := visits)
    obtain ⟨⟨reply, hserved, hshelved⟩, hup', ha'⟩ :=
      (ha x hx).visited he x hup hm (hregular x hx) (hdatable x hx)
    have hlater : ∀ y ∈ visits, x.time.nanos ≤ y.time.nanos := by
      intro y hy
      have hnot := hfirst y.time (List.mem_map_of_mem hy)
      exact (Stamp.lt_eq_false_iff (hregular y (List.mem_cons_of_mem x hy)) (hregular x hx)).mp hnot
    obtain ⟨hsame, hall⟩ := ih (fun y hy => hregular y (List.mem_cons_of_mem x hy))
      (fun y hy => hdatable y (List.mem_cons_of_mem x hy)) hrest hup'
      (fun y hy => ha'.later (hlater y hy))
    refine ⟨?_, fun y hy => ?_⟩
    · rw [history, history, List.map_cons, List.map_cons, hserved, hshelved, hsame]
    · rcases List.mem_cons.mp hy with rfl | hy
      · exact ⟨reply, hserved⟩
      · exact hall y hy

end Runs

end Ledger

end Invigilator
