import Invigilator.Proofs.Lives.Expiry

/-!
# Buckets do not meddle

All buckets of a ledger share one store, and every call on a bucket, a mere look too, may write. Yet
nobody's calls can be noticed from another bucket. There are two reasons. The keys of different
buckets are different, whatever their ids are, so that no id can be chosen to reach the record of
another bucket. And a call works with the key of its bucket and with no other.

The second is `Attempt.KeepsTo`: what comes of an attempt depends on nothing but what is held under
its key, and it changes nothing elsewhere. It is a matter of the store for the single calls on it
(`LivesStore.KeepsApart`) and passes on to whatever is put together from them, hence to every call
of the ledger (`keepsTo_answer`). What is held may be anything, also records that the ledger would
never write, and texts that are no records.
-/

namespace Invigilator

variable {σ π α β : Type} {part : σ → String → π} {key : String}

/-! ## Attempts on one key -/

namespace Attempt

/-- An attempt has to do with one key alone. `part` is what a state holds under a key. -/
structure KeepsTo (part : σ → String → π) (key : String) (a : Attempt σ α) : Prop where
  /-- What it results in, notes and leaves under the key depends on what is held there. -/
  same : ∀ s t, part s key = part t key →
    (a.run s).1.1 = (a.run t).1.1 ∧ (a.run s).2 = (a.run t).2 ∧
      part (a.run s).1.2 key = part (a.run t).1.2 key
  /-- What is held under another key stays as it is. -/
  elsewhere : ∀ s other, other ≠ key → part (a.run s).1.2 other = part s other

/-- An attempt that changes nothing and depends on nothing keeps to any key. -/
theorem keepsTo_pure (x : α) : KeepsTo part key (pure x : Attempt σ α) :=
  ⟨fun _ _ h => ⟨rfl, rfl, h⟩, fun _ _ _ => rfl⟩

theorem keepsTo_note (notes : List Note) : KeepsTo part key (note notes : Attempt σ Unit) :=
  ⟨fun _ _ h => ⟨rfl, rfl, h⟩, fun _ _ _ => rfl⟩

theorem KeepsTo.bind {a : Attempt σ α} {f : α → Attempt σ β} (ha : a.KeepsTo part key)
    (hf : ∀ x, (f x).KeepsTo part key) : (a >>= f).KeepsTo part key where
  same s t h := by
    obtain ⟨hresult, hnotes, hleft⟩ := ha.same s t h
    rw [run_bind, run_bind]
    generalize a.run s = r at hresult hnotes hleft
    generalize a.run t = r' at hresult hnotes hleft
    obtain ⟨⟨result, s'⟩, notes⟩ := r
    obtain ⟨⟨result', t'⟩, notes'⟩ := r'
    cases hresult
    cases hnotes
    cases result with
    | error fault => exact ⟨rfl, rfl, hleft⟩
    | ok x =>
      obtain ⟨hresult, hnotes, hleft⟩ := (hf x).same s' t' hleft
      exact ⟨hresult, congrArg (notes ++ ·) hnotes, hleft⟩
  elsewhere s other hother := by
    have hfirst := ha.elsewhere s other hother
    rw [run_bind]
    generalize a.run s = r at hfirst
    obtain ⟨⟨result, s'⟩, notes⟩ := r
    cases result with
    | error fault => exact hfirst
    | ok x => exact ((hf x).elsewhere s' other hother).trans hfirst

theorem KeepsTo.tracked {a : Attempt σ α} (ha : a.KeepsTo part key) (backend operation : String) :
    (a.tracked backend operation).KeepsTo part key where
  same s t h := by
    obtain ⟨hresult, hnotes, hleft⟩ := ha.same s t h
    unfold run Attempt.tracked at *
    generalize a s = r at hresult hnotes hleft ⊢
    generalize a t = r' at hresult hnotes hleft ⊢
    obtain ⟨⟨result, s'⟩, notes⟩ := r
    obtain ⟨⟨result', t'⟩, notes'⟩ := r'
    cases hresult
    cases hnotes
    cases result <;> exact ⟨rfl, rfl, hleft⟩
  elsewhere s other hother := by
    have hfirst := ha.elsewhere s other hother
    unfold run Attempt.tracked at *
    generalize a s = r at hfirst ⊢
    obtain ⟨⟨result, s'⟩, notes⟩ := r
    cases result <;> exact hfirst

end Attempt

/-- A store whose calls each have to do with one key alone. -/
structure LivesStore.KeepsApart (store : LivesStore σ) (part : σ → String → π) : Prop where
  get : ∀ key, (store.get key).KeepsTo part key
  put : ∀ key state ttl, (store.put key state ttl).KeepsTo part key
  has : ∀ key, (store.has key).KeepsTo part key

/-! ## Calls of the ledger -/

namespace Ledger

variable {store : LivesStore σ} (hs : store.KeepsApart part) (rules : LedgerRules) (now : Stamp)
  (b : Bucket)

include hs

theorem keepsTo_save (state : LivesState) : (save store rules b state).KeepsTo part b.key :=
  hs.put b.key state _

theorem keepsTo_giveBack (state : LivesState) :
    (giveBack store rules now b state).KeepsTo part b.key := by
  unfold giveBack
  cases rules.cooldown with
  | none => exact Attempt.keepsTo_pure state
  | some c =>
    dsimp only
    split
    · exact (Attempt.keepsTo_note _).bind fun _ =>
        (keepsTo_save hs rules b _).bind fun _ => Attempt.keepsTo_pure _
    · exact Attempt.keepsTo_pure _

theorem keepsTo_current : (current store rules now b).KeepsTo part b.key := by
  refine (hs.get b.key).bind fun found => ?_
  cases found with
  | none => exact Attempt.keepsTo_pure _
  | some state =>
    exact (keepsTo_giveBack hs rules now b state).bind fun _ => Attempt.keepsTo_pure _

theorem keepsTo_currentLives : (currentLives store rules now b).KeepsTo part b.key :=
  (keepsTo_current hs rules now b).bind fun _ => Attempt.keepsTo_pure _

theorem keepsTo_hasLives : (hasLives store rules now b).KeepsTo part b.key :=
  (keepsTo_currentLives hs rules now b).bind fun _ => Attempt.keepsTo_pure _

theorem keepsTo_loseLife (lost : Stamp) : (loseLife store rules now lost b).KeepsTo part b.key := by
  refine (keepsTo_current hs rules now b).bind fun state => ?_
  cases state.lose? lost with
  | none => exact (Attempt.keepsTo_note _).bind fun _ => Attempt.keepsTo_pure _
  | some left =>
    exact (keepsTo_save hs rules b left).bind fun _ =>
      (Attempt.keepsTo_note _).bind fun _ => Attempt.keepsTo_pure _

theorem keepsTo_untilNextRestore (asked : Stamp) :
    (untilNextRestore store rules now asked b).KeepsTo part b.key := by
  unfold untilNextRestore
  cases rules.cooldown with
  | none => exact Attempt.keepsTo_pure none
  | some c => exact (keepsTo_current hs rules now b).bind fun _ => Attempt.keepsTo_pure _

theorem keepsTo_reset : (reset store rules b).KeepsTo part b.key := by
  refine (hs.has b.key).bind fun found => ?_
  cases found with
  | false => exact (Attempt.keepsTo_note _).bind fun _ => Attempt.keepsTo_pure _
  | true =>
    exact (keepsTo_save hs rules b _).bind fun _ =>
      (Attempt.keepsTo_note _).bind fun _ => Attempt.keepsTo_pure _

/-- **A call has to do with the key of its bucket alone.** -/
theorem keepsTo_answer (call : LedgerCall) :
    (call.answer store rules now b).KeepsTo part b.key := by
  cases call with
  | current => exact (keepsTo_current hs rules now b).bind fun _ => Attempt.keepsTo_pure _
  | currentLives => exact (keepsTo_currentLives hs rules now b).bind fun _ => Attempt.keepsTo_pure _
  | hasLives => exact (keepsTo_hasLives hs rules now b).bind fun _ => Attempt.keepsTo_pure _
  | loseLife => exact (keepsTo_loseLife hs rules now b now).bind fun _ => Attempt.keepsTo_pure _
  | reset => exact (keepsTo_reset hs rules b).bind fun _ => Attempt.keepsTo_pure _
  | untilNextRestore =>
    exact (keepsTo_untilNextRestore hs rules now b now).bind fun _ => Attempt.keepsTo_pure _

end Ledger

/-! ## Stores that keep keys apart -/

/-- What a shelf has under a key, and whether it is on. -/
def Shelf.cell (s : Shelf) (key : String) : Option LivesState × Bool := (s.find? key, s.available)

theorem Shelf.keepsTo_guarded {call : Attempt Shelf α} (hcall : call.KeepsTo Shelf.cell key) :
    (guarded call).KeepsTo Shelf.cell key where
  same s t h := by
    have hswitch : s.available = t.available := congrArg Prod.snd h
    unfold Attempt.run guarded
    rw [← hswitch]
    cases s.available with
    | true => exact hcall.same s t h
    | false => exact ⟨rfl, rfl, h⟩
  elsewhere s other hother := by
    unfold Attempt.run guarded
    cases s.available with
    | true => exact hcall.elsewhere s other hother
    | false => rfl

theorem Shelf.store_keepsApart : Shelf.store.KeepsApart Shelf.cell where
  get key := by
    refine keepsTo_guarded ⟨fun s t h => ⟨?_, rfl, h⟩, fun _ _ _ => rfl⟩
    exact congrArg (fun p => Except.ok p.1) h
  put key state ttl := by
    refine keepsTo_guarded ⟨fun s t h => ⟨rfl, rfl, ?_⟩, fun s other hother => ?_⟩
    · have hswitch : s.available = t.available := congrArg Prod.snd h
      have hs := congrFun (find?_set s key state) key
      have ht := congrFun (find?_set t key state) key
      rw [Function.update_self] at hs ht
      exact Prod.ext (hs.trans ht.symm) hswitch
    · have hkept := congrFun (find?_set s key state) other
      rw [Function.update_of_ne hother] at hkept
      exact Prod.ext hkept rfl
  has key := by
    refine keepsTo_guarded ⟨fun s t h => ⟨?_, rfl, h⟩, fun _ _ _ => rfl⟩
    exact congrArg (fun p => Except.ok p.1.isSome) h

namespace Redis

/-- The commands that a store sends about a key. -/
inductive Concerns (key : String) : Command → Prop where
  | get : Concerns key ["GET", key]
  | has : Concerns key ["EXISTS", key]
  | set (text : String) : Concerns key ["SET", key, text]
  | setFor (text seconds : String) : Concerns key ["SET", key, text, "EX", seconds]

/-- A server for which a command has to do with its key alone. -/
structure KeepsApart (server : Server σ) (part : σ → String → π) : Prop where
  same : ∀ {key command}, Concerns key command → ∀ s t, part s key = part t key →
    (server command s).1 = (server command t).1 ∧
      part (server command s).2 key = part (server command t).2 key
  elsewhere : ∀ {key command}, Concerns key command → ∀ s other, other ≠ key →
    part (server command s).2 other = part s other

theorem keepsTo_ask {server : Server σ} (hserver : KeepsApart server part) {key : String}
    {command : Command} (hcommand : Concerns (recordKey key) command) (context : String)
    (read : Reply → Option α) :
    (ask server context command read).KeepsTo (fun s key => part s (recordKey key)) key where
  same s t h := by
    obtain ⟨hreply, hleft⟩ := hserver.same hcommand s t h
    unfold Attempt.run ask
    generalize server command s = r at hreply hleft ⊢
    generalize server command t = r' at hreply hleft ⊢
    obtain ⟨reply, s'⟩ := r
    obtain ⟨reply', t'⟩ := r'
    cases hreply
    cases reply with
    | error text => exact ⟨rfl, rfl, hleft⟩
    | nil | status | bulk _ | integer _ =>
      dsimp only
      split <;> exact ⟨rfl, rfl, hleft⟩
  elsewhere s other hother := by
    have hkept := hserver.elsewhere hcommand s (recordKey other) fun h =>
      hother (recordKey_injective h)
    unfold Attempt.run ask
    generalize server command s = r at hkept ⊢
    obtain ⟨reply, s'⟩ := r
    cases reply with
    | error text => exact hkept
    | nil | status | bulk _ | integer _ =>
      dsimp only
      split <;> exact hkept

/-- A store over such a server keeps keys apart, whatever texts are on the server. -/
theorem store_keepsApart {server : Server σ} (hserver : KeepsApart server part) :
    (store server).KeepsApart fun s key => part s (recordKey key) where
  get key := by
    refine ((keepsTo_ask hserver .get _ _).tracked _ _).bind fun text => ?_
    cases text with
    | none => exact Attempt.keepsTo_pure none
    | some text =>
      dsimp only
      cases readState? text with
      | some state => exact Attempt.keepsTo_pure (some state)
      | none => exact (Attempt.keepsTo_note _).bind fun _ => Attempt.keepsTo_pure none
  put key state ttl := by
    refine Attempt.KeepsTo.tracked ?_ _ _
    cases ttl with
    | none => exact keepsTo_ask hserver (.set _) _ _
    | some seconds => exact keepsTo_ask hserver (.setFor _ _) _ _
  has key := keepsTo_ask hserver .has _ _

theorem Texts.at?_congr {s s' : Texts} {key : String} (h : s key = s' key) (t : Int) :
    s.at? t key = s'.at? t key := by
  rw [Texts.at?, Texts.at?, h]

/-- A server on which texts run out is one. -/
theorem Texts.keepsApart (t : Int) : KeepsApart (Texts.answer t) fun s key => s key where
  same := by
    intro key command hcommand s s' h
    cases hcommand with
    | get => exact ⟨congrArg found (at?_congr h t), h⟩
    | has => exact ⟨by simp only [answer, at?_congr h t], h⟩
    | set text => exact ⟨rfl, by simp only [answer, Function.update_self]⟩
    | setFor text seconds =>
      simp only [answer]
      cases Decimal.read? seconds.toList with
      | none => exact ⟨rfl, h⟩
      | some n => exact ⟨rfl, by simp only [Function.update_self]⟩
  elsewhere := by
    intro key command hcommand s other hother
    cases hcommand with
    | get | has => rfl
    | set text => exact Function.update_of_ne hother _ _
    | setFor text seconds =>
      simp only [answer]
      cases Decimal.read? seconds.toList with
      | none => rfl
      | some n => exact Function.update_of_ne hother _ _

end Redis

/-! ## Visits -/

namespace Ledger

/-- What the visits to a bucket were answered and noted. -/
def answered (b : Bucket) (h : List (Visited σ)) :
    List (Visit × Except BackendFault LedgerReply × List Note) :=
  (h.filter fun x => x.visit.bucket = b).map fun x => (x.visit, x.reply, x.notes)

/-- The visits without those to a bucket. -/
def without (a : Bucket) (visits : List Visit) : List Visit := visits.filter fun v => v.bucket ≠ a

variable {stores : Stamp → LivesStore σ}

theorem answered_cons (b : Bucket) (x : Visited σ) (h : List (Visited σ)) :
    answered b (x :: h) =
      if x.visit.bucket = b then (x.visit, x.reply, x.notes) :: answered b h else answered b h := by
  by_cases hb : x.visit.bucket = b <;> simp [answered, hb]

/-- States that differ in what is held for one bucket answer the visits to another alike, whether
the first is visited in between or not. -/
theorem answered_without (hs : ∀ t, (stores t).KeepsApart part) (rules : LedgerRules)
    {a b : Bucket} (hab : b ≠ a) (visits : List Visit) {s t : σ}
    (h : ∀ key, key ≠ a.key → part s key = part t key) :
    answered b (history stores rules s visits) =
      answered b (history stores rules t (without a visits)) := by
  induction visits generalizing s t with
  | nil => rfl
  | cons v visits ih =>
    have hcall := keepsTo_answer (hs v.time) rules v.time v.bucket v.call
    by_cases hv : v.bucket = a
    · have hdrop : without a (v :: visits) = without a visits := by simp [without, hv]
      have hnot : ¬(visited stores rules s v).visit.bucket = b := fun hb => hab (hb.symm.trans hv)
      rw [hdrop, history, answered_cons, if_neg hnot]
      refine ih fun key hkey => ?_
      exact (hcall.elsewhere s key (hv ▸ hkey)).trans (h key hkey)
    · have hkeep : without a (v :: visits) = v :: without a visits := by simp [without, hv]
      have hkey : v.bucket.key ≠ a.key := fun hk => hv (Bucket.key_injective hk)
      obtain ⟨hreply, hnotes, hleft⟩ := hcall.same s t (h _ hkey)
      -- the visit comes out the same, and leaves everything but the one record alike
      have hrest := ih (s := (visited stores rules s v).after)
        (t := (visited stores rules t v).after) fun key hother => by
          by_cases hown : key = v.bucket.key
          · rw [hown]
            exact hleft
          · have hleft' := hcall.elsewhere s key hown
            have hright' := hcall.elsewhere t key hown
            exact hleft'.trans ((h key hother).trans hright'.symm)
      have hsame : ((visited stores rules s v).reply, (visited stores rules s v).notes) =
          ((visited stores rules t v).reply, (visited stores rules t v).notes) :=
        Prod.ext hreply hnotes
      rw [hkeep, history, history, answered_cons, answered_cons, hrest, hsame]
      rfl

/-- Deleting the visits to a bucket makes no difference to another. -/
def Isolated (stores : Stamp → LivesStore σ) (rules : LedgerRules) (s : σ) : Prop :=
  ∀ a b : Bucket, b ≠ a → ∀ visits,
    answered b (history stores rules s visits) =
      answered b (history stores rules s (without a visits))

/-- **Buckets are isolated.** Their keys are different, in memory and on a server, and nothing that
is done with one bucket changes an answer to another, whatever is in the store and whenever what is
asked. -/
theorem buckets_isolated (rules : LedgerRules) :
    Function.Injective Bucket.key ∧
      Function.Injective (fun b : Bucket => Redis.recordKey b.key) ∧
      (∀ s : Shelf, Isolated shelved rules s) ∧
      ∀ {σ π : Type} (server : Stamp → Redis.Server σ) (part : σ → String → π),
        (∀ t, Redis.KeepsApart (server t) part) →
          ∀ s, Isolated (fun t => Redis.store (server t)) rules s := by
  refine ⟨fun _ _ h => Bucket.key_injective h,
    fun _ _ h => Bucket.key_injective (Redis.recordKey_injective h), ?_, ?_⟩
  · intro s a b hab visits
    exact answered_without (fun _ => Shelf.store_keepsApart) rules hab visits fun _ _ => rfl
  · intro σ π server part hserver s a b hab visits
    exact answered_without (fun t => Redis.store_keepsApart (hserver t)) rules hab visits
      fun _ _ => rfl

/-- The caller without a name and one who is called so, on a server whose text is no record. -/
theorem buckets_isolated_namesake :
    (∀ t : Stamp, Redis.KeepsApart (Redis.Texts.answer t.nanos) fun s key => s key) ∧
      Bucket.anonymous ≠ .user "anonymous" ∧
      answered .anonymous (history (served Redis.Texts.answer) ⟨3, some 10000000000⟩
          (fun key => if key = "lives:anonymous" then some ("lost", none) else none)
          [⟨.ofSeconds 0, .user "anonymous", .loseLife⟩, ⟨.ofSeconds 1, .anonymous, .loseLife⟩,
            ⟨.ofSeconds 2, .user "anonymous", .reset⟩, ⟨.ofSeconds 11, .anonymous, .current⟩]) =
        answered .anonymous (history (served Redis.Texts.answer) ⟨3, some 10000000000⟩
          (fun key => if key = "lives:anonymous" then some ("lost", none) else none)
          [⟨.ofSeconds 1, .anonymous, .loseLife⟩, ⟨.ofSeconds 11, .anonymous, .current⟩]) :=
  ⟨fun t => Redis.Texts.keepsApart t.nanos, by decide,
    (buckets_isolated ⟨3, some 10000000000⟩).2.2.2 (fun t => Redis.Texts.answer t.nanos)
      (fun s key => s key) (fun t => Redis.Texts.keepsApart t.nanos) _ (.user "anonymous")
      .anonymous (by decide) _⟩

end Ledger

end Invigilator
