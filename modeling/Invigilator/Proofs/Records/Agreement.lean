import Invigilator.Proofs.Lives.Outage
import Invigilator.Proofs.Records.Documents
import Invigilator.Proofs.Records.Table

/-!
# The cabinet and the database agree

Records can be kept in the cabinet or in a document database, and it makes no difference. What the
cabinet does to a record, field by field, the database is told to do to a document, member by
member: `SessionPatch.set_members` and `AnswerPatch.set_members` say that setting the members of
a patch in the document of a record gives the document of the patched record. With that, every
write keeps the three tables the same on either side (`Agreed.file`), and so does a whole run
(`Agreed.forM`). What is read back is then the same too (`Documents.reads_agree`).
-/

namespace Invigilator

open Cabinet (updateFirst)
open Documents (Document Named document mem_of_document lookup_map membersFit fits)
open Redis (run_tracked)

/-! ## Patches -/

/-- Members that are left out are not found, and the others are. -/
theorem Json.lookup_present (entries : List (String × Option Json))
    (hnames : (entries.map Prod.fst).Nodup) (name : String) :
    (Json.present entries).lookup name = (entries.lookup name).join := by
  induction entries with
  | nil => rfl
  | cons e entries ih =>
    obtain ⟨name', j⟩ := e
    obtain ⟨hfresh, hrest⟩ := List.nodup_cons.mp hnames
    cases j with
    | some j =>
      change ((name', j) :: present entries).lookup name = _
      rw [List.lookup_cons, List.lookup_cons, ih hrest]
      cases name == name' <;> rfl
    | none =>
      change (present entries).lookup name = _
      rw [List.lookup_cons, ih hrest]
      by_cases hname : name = name'
      · -- no later entry has the name, so nothing takes the place of what is left out
        have hnone : entries.lookup name = none := List.lookup_eq_none_iff.mpr fun e he =>
          bne_iff_ne.mpr fun heq => hfresh (List.mem_map.mpr ⟨e, he, heq.symm.trans hname⟩)
        rw [hnone, hname, BEq.rfl]
        rfl
      · rw [beq_false_of_ne hname]

/-- What is left of different names differs. -/
theorem Json.named_present {entries : List (String × Option Json)}
    (hnames : (entries.map Prod.fst).Nodup) : Named (Json.present entries) := by
  refine hnames.sublist ?_
  clear hnames
  induction entries with
  | nil => exact List.Sublist.refl []
  | cons e entries ih =>
    obtain ⟨name, _ | j⟩ := e
    · exact ih.cons name
    · exact ih.cons_cons name

/-- A member before a patch, and what the patch makes it if it does not leave it out. -/
abbrev Patched : Type := String × Json × Option Json

/-- Setting the members that a patch has makes every member what it is after the patch. -/
theorem Documents.set_present (rows : List Patched) (hnames : (rows.map Prod.fst).Nodup) :
    (document (rows.map fun m => (m.1, m.2.1))).set
        (Json.present (rows.map fun m => (m.1, m.2.2))) =
      document (rows.map fun m => (m.1, m.2.2.getD m.2.1)) := by
  funext name
  have hnew : ((rows.map fun m => (m.1, m.2.2)).map Prod.fst).Nodup := by
    rw [List.map_map]
    exact hnames
  rw [Document.set, document, document, Json.lookup_present _ hnew,
    lookup_map (fun _ (m : Json × Option Json) => m.1),
    lookup_map (fun _ (m : Json × Option Json) => m.2),
    lookup_map (fun _ (m : Json × Option Json) => m.2.getD m.1)]
  rcases rows.lookup name with _ | ⟨old, _ | new⟩ <;> rfl

theorem getD_map_option {α : Type} (write : α → Json) (new old : Option α) :
    (new.map write).getD (.option write old) = .option write (new.or old) := by
  cases new <;> rfl

theorem SessionPatch.named_members (p : SessionPatch) : Named p.members :=
  Json.named_present (by decide : (SessionPatch.fields.map Json.Field.name).Nodup)

theorem AnswerPatch.named_members (p : AnswerPatch) : Named p.members :=
  Json.named_present (by decide : (AnswerPatch.fields.map Json.Field.name).Nodup)

/-- **The database does to the document of a session what a patch does to the session.** -/
theorem SessionPatch.set_members (p : SessionPatch) (s : Session) :
    (document s.members).set p.members = document (p.applyTo s).members := by
  have hset := Documents.set_present
    [("id", .text s.id, none), ("user_id", .text s.userId, none),
      ("language", s.language.toJson, none), ("question_ids", s.questionIds.toJson .text, none),
      ("status", s.status.toJson, p.status.map Status.toJson),
      ("lives_remaining", .nat s.livesRemaining, p.livesRemaining.map .nat),
      ("total_violations", .nat s.totalViolations, p.totalViolations.map .nat),
      ("auto_submitted", .bool s.autoSubmitted, p.autoSubmitted.map .bool),
      ("time_spent_seconds", .option .nat s.timeSpentSeconds, p.timeSpentSeconds.map .nat),
      ("started_at", s.startedAt.toJson, none),
      ("completed_at", .option Stamp.toJson s.completedAt, p.completedAt.map Stamp.toJson)]
    (by decide : (Session.fields.map Json.Field.name).Nodup)
  simp only [List.map_cons, List.map_nil, Option.getD_none, Option.getD_map, getD_map_option]
    at hset
  exact hset

/-- **The database does to the document of an answer what a patch does to the answer.** -/
theorem AnswerPatch.set_members (p : AnswerPatch) (e : String × Answer) :
    (document (Documents.answerMembers e)).set p.members =
      document (Documents.answerMembers (e.1, p.applyTo e.2)) := by
  have hset := Documents.set_present
    [("session_id", .text e.1, none), ("question_index", .nat e.2.questionIndex, none),
      ("question_id", .text e.2.questionId, none), ("code", .text e.2.code, p.code.map .text),
      ("status", e.2.status.toJson, p.status.map AnswerStatus.toJson),
      ("tests_passed", .nat e.2.testsPassed, p.testsPassed.map .nat),
      ("tests_total", .nat e.2.testsTotal, p.testsTotal.map .nat),
      ("compilation_errors", .nat e.2.compilationErrors, p.compilationErrors.map .nat),
      ("runtime_errors", .nat e.2.runtimeErrors, p.runtimeErrors.map .nat),
      ("run_count", .nat e.2.runCount, p.runCount.map .nat),
      ("last_run_at", .option Stamp.toJson e.2.lastRunAt, p.lastRunAt.map Stamp.toJson)]
    (by decide : (("session_id" :: Answer.fields.map Json.Field.name)).Nodup)
  simp only [List.map_cons, List.map_nil, Option.getD_none, Option.getD_map, getD_map_option]
    at hset
  exact hset

theorem getD_of_forall {α : Type} {P : α → Prop} {o : Option α} {x : α} (ho : ∀ a ∈ o, P a)
    (hx : P x) : P (o.getD x) := by
  cases o with
  | none => exact hx
  | some a => exact ho a rfl

theorem or_of_forall {α : Type} {P : α → Prop} {o o' : Option α} (ho : ∀ a ∈ o, P a)
    (ho' : ∀ a ∈ o', P a) : ∀ a ∈ o.or o', P a := by
  cases o with
  | none => exact ho'
  | some a => exact ho

theorem SessionPatch.Writable.applyTo {p : SessionPatch} {s : Session} (hp : p.Writable)
    (hs : s.Writable) : (p.applyTo s).Writable where
  livesRemaining := getD_of_forall hp.livesRemaining hs.livesRemaining
  totalViolations := getD_of_forall hp.totalViolations hs.totalViolations
  timeSpentSeconds := or_of_forall hp.timeSpentSeconds hs.timeSpentSeconds
  startedAt := hs.startedAt
  completedAt := or_of_forall hp.completedAt hs.completedAt

theorem AnswerPatch.Writable.applyTo {p : AnswerPatch} {a : Answer} (hp : p.Writable)
    (ha : a.Writable) : (p.applyTo a).Writable where
  questionIndex := ha.questionIndex
  testsPassed := getD_of_forall hp.testsPassed ha.testsPassed
  testsTotal := getD_of_forall hp.testsTotal ha.testsTotal
  compilationErrors := getD_of_forall hp.compilationErrors ha.compilationErrors
  runtimeErrors := getD_of_forall hp.runtimeErrors ha.runtimeErrors
  runCount := getD_of_forall hp.runCount ha.runCount
  lastRunAt := or_of_forall hp.lastRunAt ha.lastRunAt

namespace Documents

theorem membersFit_iff {members : List (String × Json)} :
    membersFit members = true ↔ ∀ m ∈ members, fits m.2 = true := by
  induction members with
  | nil => exact iff_of_true rfl (List.forall_mem_nil _)
  | cons m members ih => rw [membersFit, Bool.and_eq_true, ih, List.forall_mem_cons]

/-- What is set fits if the members before it and the new ones do. -/
theorem membersFit_of_set {old new after : List (String × Json)} (hnamed : Named after)
    (hset : (document old).set new = document after) (hold : membersFit old = true)
    (hnew : membersFit new = true) : membersFit after = true := by
  rw [membersFit_iff] at *
  intro m hm
  have hlookup : document after m.1 = some m.2 := lookup_of_mem hnamed hm
  rw [← hset, Document.set, Option.or_eq_some_iff] at hlookup
  -- what stands under a name afterwards is new, or stood there before
  rcases hlookup with h | ⟨-, h⟩
  · exact hnew _ (mem_of_document h)
  · exact hold _ (mem_of_document h)

/-! ## The three tables -/

/-- A question's number is the same whether it is sought or written. -/
theorem indexNumber_eq {index : Nat} (h : fits (.nat index) = true) :
    indexNumber index = .nat index := by
  have hlargest : (index : Int) ≤ largest := of_decide_eq_true h
  have hmax : largest = 9223372036854775807 := by decide
  exact congrArg Json.int (Int.bmod_eq_of_le (by omega) (by simp; omega))

theorem some_text_inj {s s' : String} : some (Json.text s) = some (.text s') ↔ s = s' := by
  rw [Option.some.injEq, Json.text.injEq]

theorem some_nat_inj {n n' : Nat} : some (Json.nat n) = some (.nat n') ↔ n = n' := by
  rw [Option.some.injEq, Json.nat, Json.nat, Json.int.injEq, Int.ofNat_inj]

/-- Sessions, by their ids. -/
def sessionTable : Table Session String where
  members := Session.members
  key s := s.id
  filter id := [("id", .text id)]
  Storable s := s.Writable ∧ membersFit s.members = true
  named _ := (by decide : (Session.fields.map Json.Field.name).Nodup)
  fits _ h := h.2
  simple id := List.forall_mem_singleton.mpr (.inl ⟨id, rfl⟩)
  matches_iff s s' _ _ := by
    rw [Matches, List.forall_mem_singleton]
    exact some_text_inj

/-- Answers, by the session and the question they belong to. -/
def answerTable : Table (String × Answer) (String × Nat) where
  members := answerMembers
  key e := (e.1, e.2.questionIndex)
  filter k := answerFilter k.1 k.2
  Storable e := e.2.Writable ∧ membersFit (answerMembers e) = true
  named _ := (by decide : ("session_id" :: Answer.fields.map Json.Field.name).Nodup)
  fits _ h := h.2
  simple k := by
    intro m hm
    rw [answerFilter, List.mem_cons, List.mem_singleton] at hm
    rcases hm with rfl | rfl
    · exact .inl ⟨_, rfl⟩
    · exact .inr ⟨_, rfl⟩
  matches_iff e e' _ h := by
    have hindex : fits (.nat e'.2.questionIndex) = true :=
      membersFit_iff.mp h.2 _ (List.mem_cons_of_mem _ List.mem_cons_self)
    rw [Matches, answerFilter, indexNumber_eq hindex, List.forall_mem_cons,
      List.forall_mem_singleton, Prod.mk.injEq]
    exact and_congr some_text_inj some_nat_inj

/-- Violations, by their ids. -/
def violationTable : Table Violation String where
  members := Violation.members
  key v := v.id
  filter id := [("id", .text id)]
  Storable v := v.Writable ∧ membersFit v.members = true
  named _ := (by decide : (Violation.fields.map Json.Field.name).Nodup)
  fits _ h := h.2
  simple id := List.forall_mem_singleton.mpr (.inl ⟨id, rfl⟩)
  matches_iff v v' _ _ := by
    rw [Matches, List.forall_mem_singleton]
    exact some_text_inj

/-! ## Commands -/

/-- What a write does to the documents of sittings; a block is no concern of them. -/
def file {σ : Type} (server : Server σ) : RecordWrite → Attempt σ Unit
  | .createSession s => do
    let _ ← createSession server s
    pure ()
  | .createAnswer id a => createAnswer server id a
  | .updateSession id p => updateSession server id p
  | .updateAnswer id i p => updateAnswer server id i p
  | .recordViolation v => recordViolation server v
  | .blockUser .. => pure ()

section Commands

variable {σ : Type} {server : Server σ} {held : σ → String → Multiset Document}
variable {α κ : Type} {t : Table α κ} {s : σ} {collection : String} {rows : List α}

/-- A reply that can be read is. -/
theorem ask_run {β : Type} {command : Command} {reply : Reply} {read : Reply → Except String β}
    {x : β} {s' : σ} (context : String) (hserver : server command s = (reply, s'))
    (hreply : ∀ text, reply ≠ .refused text) (hread : read reply = .ok x) :
    ((ask server context command read).run s).1 = (.ok x, s') := by
  cases reply with
  | refused text => exact absurd rfl (hreply text)
  | documents docs => simp [ask, Attempt.run, hserver, hread]
  | modified n => simp [ask, Attempt.run, hserver, hread]
  | done => simp [ask, Attempt.run, hserver, hread]

/-- So is a count of documents. -/
theorem askCount_run {command : Command} {n : Int} {s' : σ} (context : String)
    (hserver : server command s = (.modified n, s')) (hn : 0 ≤ n) :
    ((ask server context command countOf).run s).1 = (.ok n, s') :=
  ask_run context hserver nofun (if_neg (Int.not_lt.mpr hn))

/-- The document of a record is put in its place. -/
theorem replaceOne_run (hkeeping : Keeping server held) (hkept : t.Kept rows (held s collection))
    {x : α} (hx : t.Storable x) {keeps : α → Bool}
    (hkeeps : ∀ a, keeps a = true ↔ t.key a ≠ t.key x) (context : String) : ∃ s',
    ((replaceOne server context collection (t.filter (t.key x)) (t.members x)).run s).1 =
        (.ok (), s') ∧
      t.Kept (rows.filter keeps ++ [x]) (held s' collection) ∧
        ∀ c, c ≠ collection → held s' c = held s c := by
  obtain ⟨n, s', after, hserver, hn, hheld, hchanged⟩ :=
    hkeeping.replace s collection (t.filter (t.key x)) (t.members x) (t.simple _) (t.named x)
  refine ⟨s', ?_, ?_, ?_⟩
  · rw [replaceOne, if_pos (t.fits x hx),
      Attempt.run_bind_ok (askCount_run context hserver hn)]
    rfl
  · rw [hheld, Function.update_self]
    exact hkept.put hx hkeeps hchanged
  · intro c hc
    rw [hheld, Function.update_of_ne hc]

/-- The members of a patch are set in the document of the record that is patched. A patch that
changes nothing is not sent. -/
theorem patch_run (hkeeping : Keeping server held) (hkept : t.Kept rows (held s collection))
    {k : κ} (hk : ∃ b ∈ rows, t.key b = k) {picks : α → Bool}
    (hpicks : ∀ a, picks a = true ↔ t.key a = k) (change : α → α) {new : List (String × Json)}
    (hnamed : Named new) (hfits : membersFit new = true) (hkey : ∀ a, t.key (change a) = t.key a)
    (hdoc : ∀ a, (t.doc a).set new = t.doc (change a))
    (hstorable : ∀ a, t.Storable a → t.Storable (change a))
    (encodeContext operation context : String) :
    ∃ s', (Attempt.run (do
        let members ← encode encodeContext new
        if members.isEmpty then pure ()
        else
          let _ ← counted operation
            (setMembers server context collection (t.filter k) members false)
          pure ()) s).1 = (.ok (), s') ∧
      t.Kept (updateFirst picks change rows) (held s' collection) ∧
        ∀ c, c ≠ collection → held s' c = held s c := by
  have hencode : ((encode encodeContext new).run s).1 = (.ok new, s) := by
    rw [encode, if_pos hfits]
    rfl
  rw [Attempt.run_bind_ok hencode]
  -- there is nothing to set, so the record is as it was, and nothing is sent
  by_cases hempty : new = []
  · subst hempty
    exact ⟨s, rfl, hkept.change hk hpicks hkey hdoc hstorable (changed_set_nil _ _),
      fun _ _ => rfl⟩
  · rw [List.isEmpty_eq_false_iff.mpr hempty, if_neg Bool.false_ne_true]
    -- the database sets the members in one document of the record, and in no other collection
    obtain ⟨n, s', after, hserver, hn, hheld, hchanged⟩ :=
      hkeeping.set s collection (t.filter k) new (t.simple k) hnamed
    have hset := askCount_run context hserver hn
    refine ⟨s', ?_, ?_, ?_⟩
    · have hcounted := (run_tracked "mongodb" operation _ s).trans hset
      exact Attempt.run_bind_ok hcounted
    · rw [hheld, Function.update_self]
      exact hkept.change hk hpicks hkey hdoc hstorable hchanged
    · intro c hc
      rw [hheld, Function.update_of_ne hc]

/-- A search finds the documents of the records that are asked for, in some order. -/
theorem find_run (hkeeping : Keeping server held) (hkept : t.Kept rows (held s collection))
    {filter : Filter} (hsimple : Simple filter) (sort : Option (String × Int))
    (limit : Option Int) {mine : α → Bool}
    (hmine : ∀ a ∈ rows, Matches filter (t.doc a) ↔ mine a = true) : ∃ docs s' found,
    server (.find collection filter sort limit) s = (.documents docs, s') ∧
      List.Perm found (rows.filter mine) ∧ Ordered sort (found.map t.doc) ∧
        List.Forall₂ (fun a j => Shows (t.doc a) j) (cut limit found) docs := by
  obtain ⟨docs, s', hserver, -, hfound⟩ := hkeeping.find s collection filter sort limit hsimple
  obtain ⟨found, h⟩ := hkept.find hfound hmine
  exact ⟨docs, s', found, hserver, h⟩

/-- A look-up by key finds the record of that key. There is one at most, so it does not matter which
document the database comes upon first. -/
theorem findOne_run (hkeeping : Keeping server held) (hkept : t.Kept rows (held s collection))
    {filter : Filter} (hsimple : Simple filter) {mine : α → Bool} {k : κ}
    (hkey : ∀ a, mine a = true ↔ t.key a = k)
    (hmine : ∀ a ∈ rows, Matches filter (t.doc a) ↔ mine a = true) {read : Json → Option α}
    (hread : ∀ a, t.Storable a → ∀ j, Shows (t.doc a) j → read j = some a) (context : String) :
    ∃ s', ((findOne server context read collection filter).run s).1 =
      (.ok (rows.find? mine), s') := by
  obtain ⟨docs, s', found, hserver, hperm, -, hshown⟩ :=
    find_run hkeeping hkept hsimple none (some 1) hmine
  refine ⟨s', ask_run _ hserver nofun ?_⟩
  rw [hkept.filter_eq hkey] at hperm
  cases hfind : rows.find? mine with
  | none =>
    rw [hfind, Option.toList_none, List.perm_nil] at hperm
    subst hperm
    obtain rfl := List.forall₂_nil_left_iff.mp hshown
    rfl
  | some a =>
    rw [hfind, Option.toList_some, List.perm_singleton] at hperm
    subst hperm
    obtain ⟨j, _, hj, hnil, rfl⟩ := List.forall₂_cons_left_iff.mp hshown
    obtain rfl := List.forall₂_nil_left_iff.mp hnil
    have hstorable := hkept.storable a (List.mem_of_find?_eq_some hfind)
    simp only [documentsOf, hread a hstorable j hj]

/-- Documents that can all be read are. -/
theorem mapM_shown {β : Type} {read : Json → Option β} {value : α → β} {found : List α}
    {docs : List Json} (hshown : List.Forall₂ (fun a j => Shows (t.doc a) j) found docs)
    (hread : ∀ a ∈ found, ∀ j, Shows (t.doc a) j → read j = some (value a)) :
    docs.mapM read = some (found.map value) := by
  induction hshown with
  | nil => rfl
  | @cons a j found docs hj _ ih =>
    rw [List.mapM_cons, hread a List.mem_cons_self j hj,
      ih fun b hb => hread b (List.mem_cons_of_mem a hb)]
    rfl

/-- A list of documents that can all be read is read. -/
theorem findAll_run {β : Type} {command : Command} {docs : List Json} {s' : σ}
    {read : Json → Option β} {found : List β} (queryContext collectContext : String)
    (hserver : server command s = (.documents docs, s')) (hread : docs.mapM read = some found) :
    ((findAll server queryContext collectContext read command).run s).1 = (.ok found, s') := by
  have hask : ((ask server queryContext command documentsOf).run s).1 = (.ok docs, s') :=
    ask_run queryContext hserver nofun rfl
  rw [findAll, Attempt.run_bind_ok hask, hread]
  rfl

/-- Without a limit all the records that are asked for are read, in the order asked for. -/
theorem findAll_kept (hkeeping : Keeping server held) (hkept : t.Kept rows (held s collection))
    {filter : Filter} (hsimple : Simple filter) (sort : Option (String × Int)) {mine : α → Bool}
    (hmine : ∀ a ∈ rows, Matches filter (t.doc a) ↔ mine a = true) {β : Type}
    {read : Json → Option β} {value : α → β}
    (hread : ∀ a, t.Storable a → ∀ j, Shows (t.doc a) j → read j = some (value a))
    (queryContext collectContext : String) :
    ∃ (found : List α) (s' : σ), ((findAll server queryContext collectContext read
        (.find collection filter sort none)).run s).1 = (.ok (found.map value), s') ∧
      found.Perm (rows.filter mine) ∧ Ordered sort (found.map t.doc) := by
  obtain ⟨docs, s', found, hserver, hperm, hordered, hshown⟩ :=
    find_run hkeeping hkept hsimple sort none hmine
  have hdocs : docs.mapM read = some (found.map value) := by
    refine mapM_shown hshown fun a ha j hj => hread a (hkept.storable a ?_) j hj
    exact (List.mem_filter.mp (hperm.mem_iff.mp ha)).1
  exact ⟨found, s', findAll_run _ _ hserver hdocs, hperm, hordered⟩

end Commands

/-! ## Writing -/

end Documents

namespace RecordWrite

/-- A write whose numbers fit, with moments that the calendar knows. -/
def Storable : RecordWrite → Prop
  | createSession s => s.Writable ∧ membersFit s.members = true
  | createAnswer id a => a.Writable ∧ membersFit (Documents.answerMembers (id, a)) = true
  | updateSession _ p => p.Writable ∧ membersFit p.members = true
  | updateAnswer _ _ p => p.Writable ∧ membersFit p.members = true
  | recordViolation v => v.Writable ∧ membersFit v.members = true
  | blockUser .. => True

/-- What a write updates has been created by one of the writes before it. -/
def GroundedIn (before : List RecordWrite) : RecordWrite → Prop
  | updateSession id _ => ∃ s, createSession s ∈ before ∧ s.id = id
  | updateAnswer id i _ => ∃ a, createAnswer id a ∈ before ∧ a.questionIndex = i
  | createSession _ => True
  | createAnswer .. => True
  | recordViolation _ => True
  | blockUser .. => True

/-- Whatever is updated has been created before. -/
def Grounded (ws : List RecordWrite) : Prop :=
  ∀ before w behind, ws = before ++ w :: behind → w.GroundedIn before

theorem grounded_nil : Grounded [] := by
  intro before w behind h
  exact absurd h.symm (List.append_ne_nil_of_right_ne_nil before (List.cons_ne_nil w behind))

/-- A run stays grounded when a write of what was created is added. -/
theorem Grounded.concat {ws : List RecordWrite} (h : Grounded ws) {w : RecordWrite}
    (hw : w.GroundedIn ws) : Grounded (ws ++ [w]) := by
  intro before v behind hsplit
  rcases List.eq_nil_or_concat' behind with rfl | ⟨behind, v', rfl⟩
  · obtain ⟨rfl, rfl⟩ := List.append_singleton_inj.mp hsplit
    exact hw
  · rw [← List.cons_append, ← List.append_assoc] at hsplit
    exact h before v behind (List.append_singleton_inj.mp hsplit).1

/-- What was created is in the cabinet. -/
structure Filled (created : List RecordWrite) (c : Cabinet) : Prop where
  session : ∀ s, createSession s ∈ created → (Drawer.session s.id).held c ≠ []
  answer : ∀ id a, createAnswer id a ∈ created → (Drawer.answer id a.questionIndex).held c ≠ []

theorem filled_nil (c : Cabinet) : Filled [] c :=
  ⟨fun _ h => (List.not_mem_nil h).elim, fun _ _ h => (List.not_mem_nil h).elim⟩

/-- What is put into a place stays there, changed or replaced. -/
theorem Filled.concat {created : List RecordWrite} {c : Cabinet} (h : Filled created c)
    (hup : c.available = true) (w : RecordWrite) : Filled (created ++ [w]) (c.after w) := by
  have hplace : ∀ {α : Type} (d : Drawer α), d.held c ≠ [] ∨ (∃ x, d.stroke w = .put x) →
      d.held (c.after w) ≠ [] := by
    intro α d hfilled
    -- what is in a place is changed there or replaced, but not taken away
    rw [d.held_after c w hup]
    cases hstroke : d.stroke w with
    | put x => exact List.cons_ne_nil x []
    | pass => exact hfilled.resolve_right (by rw [hstroke]; exact fun ⟨_, h⟩ => nomatch h)
    | change f =>
      have hfull := hfilled.resolve_right (by rw [hstroke]; exact fun ⟨_, h⟩ => nomatch h)
      rw [Stroke.on]
      exact fun hnil => hfull (List.modifyHead_eq_nil_iff.mp hnil)
  constructor
  · intro s hs
    refine hplace (Drawer.session s.id) ?_
    rcases List.mem_append.mp hs with hs | hs
    · exact .inl (h.session s hs)
    · rw [← List.mem_singleton.mp hs]
      exact .inr ⟨s, if_pos rfl⟩
  · intro id a ha
    refine hplace (Drawer.answer id a.questionIndex) ?_
    rcases List.mem_append.mp ha with ha | ha
    · exact .inl (h.answer id a ha)
    · rw [← List.mem_singleton.mp ha]
      exact .inr ⟨(id, a), if_pos ⟨rfl, rfl⟩⟩

variable {created : List RecordWrite} {c : Cabinet}

theorem Filled.exists_session (h : Filled created c) {id : String} {p : SessionPatch}
    (hgrounded : (updateSession id p).GroundedIn created) : ∃ s ∈ c.sessions, s.id = id := by
  obtain ⟨r, hr, rfl⟩ := hgrounded
  obtain ⟨s, hs⟩ := List.exists_mem_of_ne_nil _ (h.session r hr)
  obtain ⟨hmem, hid⟩ := List.mem_filter.mp hs
  exact ⟨s, hmem, beq_iff_eq.mp hid⟩

theorem Filled.exists_answer (h : Filled created c) {id : String} {i : Nat} {p : AnswerPatch}
    (hgrounded : (updateAnswer id i p).GroundedIn created) :
    ∃ e ∈ c.answers, (e.1, e.2.questionIndex) = (id, i) := by
  obtain ⟨a, ha, rfl⟩ := hgrounded
  obtain ⟨e, he⟩ := List.exists_mem_of_ne_nil _ (h.answer id a ha)
  obtain ⟨hmem, hkey⟩ := List.mem_filter.mp he
  exact ⟨e, hmem, Prod.ext_iff.mpr (Cabinet.isAnswerTo_iff.mp hkey)⟩

/-- The cabinet carries out what is grounded. -/
theorem Filled.file_eq (h : Filled created c) (hup : c.available = true) {w : RecordWrite}
    (hgrounded : w.GroundedIn created) : c.file w = .ok (c.after w) := by
  have hok : ∃ c', c.file w = .ok c' := by
    cases w with
    | createSession s => exact ⟨_, if_pos hup⟩
    | createAnswer id a => exact ⟨_, if_pos hup⟩
    | recordViolation v => exact ⟨_, if_pos hup⟩
    | blockUser userId id => exact ⟨c, rfl⟩
    | updateSession id p =>
      obtain ⟨s, hs, hid⟩ := h.exists_session hgrounded
      have hany : c.sessions.any (fun s => s.id == id) = true :=
        List.any_eq_true.mpr ⟨s, hs, beq_iff_eq.mpr hid⟩
      exact ⟨_, (if_pos hup).trans (if_pos hany)⟩
    | updateAnswer id i p =>
      obtain ⟨e, he, hkey⟩ := h.exists_answer hgrounded
      have hany : c.answers.any (Cabinet.isAnswerTo id i) = true :=
        List.any_eq_true.mpr ⟨e, he, Cabinet.isAnswerTo_iff.mpr (Prod.ext_iff.mp hkey)⟩
      exact ⟨_, (if_pos hup).trans (if_pos hany)⟩
  obtain ⟨c', hc'⟩ := hok
  rw [Cabinet.after, hc']

end RecordWrite

namespace Documents

/-- A cabinet and the collections of a database keep the same tables. -/
structure Agreed (c : Cabinet) (held : String → Multiset Document) : Prop where
  available : c.available = true
  sessions_kept : sessionTable.Kept c.sessions (held sessions)
  answers_kept : answerTable.Kept c.answers (held answers)
  violations_kept : violationTable.Kept c.violations (held violations)

namespace Agreed

variable {c : Cabinet} {before after : String → Multiset Document}

/-- They agree as well when both have got other sessions, kept the same way. -/
theorem withSessions (h : Agreed c before) {rows : List Session}
    (hkept : sessionTable.Kept rows (after sessions))
    (hothers : ∀ name, name ≠ sessions → after name = before name) :
    Agreed { c with sessions := rows } after :=
  ⟨h.available, hkept, by rw [hothers _ (by decide)]; exact h.answers_kept,
    by rw [hothers _ (by decide)]; exact h.violations_kept⟩

theorem withAnswers (h : Agreed c before) {rows : List (String × Answer)}
    (hkept : answerTable.Kept rows (after answers))
    (hothers : ∀ name, name ≠ answers → after name = before name) :
    Agreed { c with answers := rows } after :=
  ⟨h.available, by rw [hothers _ (by decide)]; exact h.sessions_kept, hkept,
    by rw [hothers _ (by decide)]; exact h.violations_kept⟩

theorem withViolations (h : Agreed c before) {rows : List Violation}
    (hkept : violationTable.Kept rows (after violations))
    (hothers : ∀ name, name ≠ violations → after name = before name) :
    Agreed { c with violations := rows } after :=
  ⟨h.available, by rw [hothers _ (by decide)]; exact h.sessions_kept,
    by rw [hothers _ (by decide)]; exact h.answers_kept, hkept⟩

end Agreed

theorem isAnswerTo_iff_key {id : String} {i : Nat} (e : String × Answer) :
    Cabinet.isAnswerTo id i e = true ↔ answerTable.key e = (id, i) := by
  rw [Cabinet.isAnswerTo_iff, answerTable, Prod.mk.injEq]

section Writing

variable {σ : Type} {server : Server σ} {held : σ → String → Multiset Document}

/-- **A write keeps the cabinet and the database the same.** -/
theorem Agreed.file (hkeeping : Keeping server held) {c : Cabinet} {s : σ}
    (h : Agreed c (held s)) {created : List RecordWrite} (hfilled : RecordWrite.Filled created c)
    {w : RecordWrite} (hstorable : w.Storable) (hgrounded : w.GroundedIn created) :
    ∃ s', ((file server w).run s).1 = (.ok (), s') ∧ Agreed (c.after w) (held s') := by
  cases w with
  | createSession r =>
    -- a session is counted inside the call that replies with its id
    have hkeeps : ∀ t : Session, (t.id != r.id) = true ↔ t.id ≠ r.id := fun _ => bne_iff_ne
    obtain ⟨s', hrun, hkept, hothers⟩ :=
      replaceOne_run hkeeping h.sessions_kept hstorable hkeeps "Failed to insert exam session"
    refine ⟨s', ?_, ?_⟩
    · have hcounted := (run_tracked "mongodb" "create_session" _ s).trans hrun
      have hcreate : ((createSession server r).run s).1 = (.ok r.id, s') :=
        Attempt.run_bind_ok hcounted
      exact Attempt.run_bind_ok hcreate
    · rw [Cabinet.after_createSession h.available]
      exact h.withSessions hkept hothers
  | createAnswer id a =>
    have hkeeps : ∀ e : String × Answer, (!Cabinet.isAnswerTo id a.questionIndex e) = true ↔
        answerTable.key e ≠ (id, a.questionIndex) := fun e => by
      rw [Bool.not_eq_true', ← Bool.not_eq_true, not_congr (isAnswerTo_iff_key e)]
    obtain ⟨s', hrun, hkept, hothers⟩ := replaceOne_run hkeeping h.answers_kept
      (x := (id, a)) hstorable hkeeps "Failed to insert answer placeholder"
    refine ⟨s', (run_tracked ..).trans hrun, ?_⟩
    rw [Cabinet.after_createAnswer h.available]
    exact h.withAnswers hkept hothers
  | recordViolation v =>
    have hkeeps : ∀ u : Violation, (u.id != v.id) = true ↔ u.id ≠ v.id := fun _ => bne_iff_ne
    obtain ⟨s', hrun, hkept, hothers⟩ :=
      replaceOne_run hkeeping h.violations_kept hstorable hkeeps "Failed to insert violation"
    refine ⟨s', (run_tracked ..).trans hrun, ?_⟩
    rw [Cabinet.after_recordViolation h.available]
    exact h.withViolations hkept hothers
  | updateSession id p =>
    have hpatched : ∀ t : Session, sessionTable.Storable t → sessionTable.Storable (p.applyTo t) :=
      fun t ht => ⟨hstorable.1.applyTo ht.1,
        membersFit_of_set (sessionTable.named _) (p.set_members t) ht.2 hstorable.2⟩
    obtain ⟨s', hrun, hkept, hothers⟩ := patch_run hkeeping h.sessions_kept
      (hfilled.exists_session hgrounded) (fun _ => beq_iff_eq) p.applyTo p.named_members hstorable.2
      (fun _ => rfl) p.set_members hpatched "Failed to encode session patch" "update_session"
      "Failed to update exam session"
    refine ⟨s', hrun, ?_⟩
    rw [Cabinet.after_updateSession h.available]
    exact h.withSessions hkept hothers
  | updateAnswer id i p =>
    have hpatched : ∀ e : String × Answer, answerTable.Storable e →
        answerTable.Storable (e.1, p.applyTo e.2) :=
      fun e he => ⟨hstorable.1.applyTo he.1,
        membersFit_of_set (answerTable.named _) (p.set_members e) he.2 hstorable.2⟩
    obtain ⟨s', hrun, hkept, hothers⟩ := patch_run hkeeping h.answers_kept
      (hfilled.exists_answer hgrounded) isAnswerTo_iff_key (fun e => (e.1, p.applyTo e.2))
      p.named_members hstorable.2 (fun _ => rfl) p.set_members hpatched
      "Failed to encode answer patch" "update_answer"
      "Failed to update answer"
    refine ⟨s', hrun, ?_⟩
    rw [Cabinet.after_updateAnswer h.available]
    exact h.withAnswers hkept hothers
  | blockUser userId id => exact ⟨s, rfl, h⟩

/-- **A run keeps the cabinet and the database the same.** -/
theorem Agreed.forM (hkeeping : Keeping server held) {ws : List RecordWrite} :
    ∀ {created : List RecordWrite} {c : Cabinet} {s : σ}, Agreed c (held s) →
      RecordWrite.Filled created c → (∀ w ∈ ws, w.Storable) →
      RecordWrite.Grounded (created ++ ws) →
      ∃ c' s', ws.foldlM Cabinet.file c = .ok c' ∧
        ((ws.forM (Documents.file server)).run s).1 = (.ok (), s') ∧ Agreed c' (held s') := by
  induction ws with
  | nil => exact fun h _ _ _ => ⟨_, _, rfl, rfl, h⟩
  | cons w ws ih =>
    intro created c s h hfilled hstorable hgrounded
    have hw := hgrounded created w ws rfl
    have hstorew := hstorable w List.mem_cons_self
    obtain ⟨s₁, hrun₁, h₁⟩ := h.file hkeeping hfilled hstorew hw
    rw [List.append_cons] at hgrounded
    -- what was filed so far is grounds for what comes
    obtain ⟨c', s', hfold, hrun, h'⟩ := ih h₁ (hfilled.concat h.available w)
      (fun v hv => hstorable v (List.mem_cons_of_mem w hv)) hgrounded
    refine ⟨c', s', ?_, ?_, h'⟩
    · rw [List.foldlM_cons, hfilled.file_eq h.available hw]
      exact hfold
    · rw [← hrun]
      exact Attempt.run_bind_ok hrun₁

end Writing

/-! ## Reading -/

section Reading

variable {σ : Type} {server : Server σ} {held : σ → String → Multiset Document}
variable {c : Cabinet} {s : σ}

theorem matches_text {name text : String} {d : Document} :
    Matches [(name, .text text)] d ↔ d name = some (.text text) := by
  rw [Matches, List.forall_mem_singleton]

theorem simple_text (name text : String) : Simple [(name, .text text)] :=
  List.forall_mem_singleton.mpr (.inl ⟨text, rfl⟩)

theorem Agreed.session?_eq (hkeeping : Keeping server held) (h : Agreed c (held s)) (id : String) :
    ((session? server id).run s).1.1 = c.session? id := by
  have hkey : ∀ r : Session, (r.id == id) = true ↔ sessionTable.key r = id := fun _ => beq_iff_eq
  have hmine : ∀ r ∈ c.sessions, Matches [("id", .text id)] (sessionTable.doc r) ↔
      (r.id == id) = true := fun r _ => (matches_text.trans some_text_inj).trans (hkey r).symm
  obtain ⟨s', hresult⟩ := findOne_run hkeeping h.sessions_kept (simple_text "id" id) hkey hmine
    (fun r hr j hj => readSession?_shown hr.1 hr.2 hj) "Failed to query exam session"
  rw [Cabinet.session?, Cabinet.guarded, if_pos h.available]
  exact congrArg Prod.fst ((run_tracked ..).trans hresult)

/-- Answers in order are those that sorting gives, if their indices tell them apart. -/
theorem eq_mergeSort {found kept : List Answer} (hperm : found.Perm kept)
    (hordered : found.Pairwise fun a b => decide (a.questionIndex ≤ b.questionIndex) = true)
    (happart : ∀ a ∈ found, ∀ b ∈ found, a.questionIndex = b.questionIndex → a = b) :
    found = kept.mergeSort fun a b => decide (a.questionIndex ≤ b.questionIndex) := by
  have hsorted : (kept.mergeSort fun a b => decide (a.questionIndex ≤ b.questionIndex)).Pairwise
      fun a b => decide (a.questionIndex ≤ b.questionIndex) = true := by
    refine List.pairwise_mergeSort (fun a b c hab hbc => ?_) (fun a b => ?_) kept
    · exact decide_eq_true (Nat.le_trans (of_decide_eq_true hab) (of_decide_eq_true hbc))
    · rw [Bool.or_eq_true, decide_eq_true_iff, decide_eq_true_iff]
      exact Nat.le_total _ _
  have hsame : found.Perm
      (kept.mergeSort fun a b => decide (a.questionIndex ≤ b.questionIndex)) :=
    hperm.trans (List.mergeSort_perm _ _).symm
  refine hsame.eq_of_pairwise (fun a b ha hb hab hba => ?_) hordered hsorted
  exact happart a ha b (hsame.mem_iff.mpr hb)
    (Nat.le_antisymm (of_decide_eq_true hab) (of_decide_eq_true hba))

theorem Agreed.answersOf_eq (hkeeping : Keeping server held) (h : Agreed c (held s))
    (id : String) : ((answersOf server id).run s).1.1 = c.answersOf id := by
  have hmine : ∀ e ∈ c.answers, Matches [("session_id", .text id)] (answerTable.doc e) ↔
      (e.1 == id) = true := fun e _ =>
    (matches_text.trans some_text_inj).trans beq_iff_eq.symm
  obtain ⟨found, s', hrun, hperm, hordered⟩ := findAll_kept hkeeping h.answers_kept
    (simple_text "session_id" id) (some ("question_index", 1)) hmine
    (fun e he j hj => readAnswer?_shown he.1 he.2 hj) "Failed to query answers"
    "Failed to collect answers"
  have hmem : ∀ e ∈ found, e ∈ c.answers ∧ (e.1 == id) = true :=
    fun e he => List.mem_filter.mp (hperm.mem_iff.mp he)
  have hsorted : (found.map Prod.snd).Pairwise fun a b : Answer =>
      decide (a.questionIndex ≤ b.questionIndex) = true := by
    have hdocs := hordered "question_index" 1 rfl
    rw [List.pairwise_map] at hdocs ⊢
    refine hdocs.imp fun {e e'} hle => decide_eq_true ?_
    have hle := hle e.2.questionIndex e'.2.questionIndex rfl rfl
    rw [Int.one_mul, Int.one_mul] at hle
    exact Int.ofNat_le.mp hle
  have happart : ∀ a ∈ found.map Prod.snd, ∀ b ∈ found.map Prod.snd,
      a.questionIndex = b.questionIndex → a = b := by
    intro a ha b hb hindex
    obtain ⟨e, he, rfl⟩ := List.mem_map.mp ha
    obtain ⟨e', he', rfl⟩ := List.mem_map.mp hb
    obtain ⟨hkept, hid⟩ := hmem e he
    obtain ⟨hkept', hid'⟩ := hmem e' he'
    -- they belong to one session, so their indices are all there is to their keys
    have hkey : answerTable.key e = answerTable.key e' := Prod.ext
      ((beq_iff_eq.mp hid).trans (beq_iff_eq.mp hid').symm) hindex
    rw [List.inj_on_of_nodup_map h.answers_kept.nodup hkept hkept' hkey]
  rw [Cabinet.answersOf, Cabinet.guarded, if_pos h.available,
    ← eq_mergeSort (hperm.map Prod.snd) hsorted happart]
  exact congrArg Prod.fst hrun

theorem Agreed.violationsOf_perm (hkeeping : Keeping server held) (h : Agreed c (held s))
    (id : String) : ∃ found kept, ((violationsOf server id).run s).1.1 = .ok found ∧
      c.violationsOf id = .ok kept ∧ found.Perm kept := by
  have hmine : ∀ v ∈ c.violations, Matches [("session_id", .text id)] (violationTable.doc v) ↔
      (v.sessionId == id) = true := fun v _ =>
    (matches_text.trans some_text_inj).trans beq_iff_eq.symm
  obtain ⟨found, s', hrun, hperm, -⟩ := findAll_kept hkeeping h.violations_kept
    (simple_text "session_id" id) none hmine
    (fun v hv j hj => readViolation?_shown hv.1 hv.2 hj) "Failed to query violations"
    "Failed to collect violations"
  rw [List.map_id'] at hrun
  refine ⟨found, _, congrArg Prod.fst hrun, ?_, hperm⟩
  rw [Cabinet.violationsOf, Cabinet.guarded, if_pos h.available]

end Reading

/-- What is read is the same on either side. Violations may come in another order. -/
structure SameReads {σ : Type} (server : Server σ) (s : σ) (c : Cabinet) : Prop where
  session : ∀ id, ∃ found, ((session? server id).run s).1.1 = .ok found ∧
    c.session? id = .ok found
  answers : ∀ id, ∃ found, ((answersOf server id).run s).1.1 = .ok found ∧
    c.answersOf id = .ok found
  violations : ∀ id, ∃ found kept, ((violationsOf server id).run s).1.1 = .ok found ∧
    c.violationsOf id = .ok kept ∧ found.Perm kept

/-- No key stands for two records, in the cabinet or in the database. -/
structure Keyed (c : Cabinet) (held : String → Multiset Document) : Prop where
  sessions : (c.sessions.map fun s => s.id).Nodup
  answers : (c.answers.map fun e => (e.1, e.2.questionIndex)).Nodup
  violations : (c.violations.map fun v => v.id).Nodup
  sessionDocuments : ((held Documents.sessions).map fun d => d "id").Nodup
  answerDocuments :
    ((held Documents.answers).map fun d => (d "session_id", d "question_index")).Nodup
  violationDocuments : ((held Documents.violations).map fun d => d "id").Nodup

section

variable {σ : Type} {server : Server σ} {held : σ → String → Multiset Document}

theorem Agreed.sameReads (hkeeping : Keeping server held) {c : Cabinet} {s : σ}
    (h : Agreed c (held s)) : SameReads server s c where
  session id := ⟨_, (h.session?_eq hkeeping id).trans (if_pos h.available), if_pos h.available⟩
  answers id := ⟨_, (h.answersOf_eq hkeeping id).trans (if_pos h.available), if_pos h.available⟩
  violations := h.violationsOf_perm hkeeping

theorem Agreed.keyed {c : Cabinet} {held : String → Multiset Document} (h : Agreed c held) :
    Keyed c held where
  sessions := h.sessions_kept.nodup
  answers := h.answers_kept.nodup
  violations := h.violations_kept.nodup
  sessionDocuments := h.sessions_kept.nodup_map fun _ _ heq => some_text_inj.mp heq
  answerDocuments := h.answers_kept.nodup_map fun _ _ heq =>
    have heq := Prod.ext_iff.mp heq
    Prod.ext (some_text_inj.mp heq.1) (some_nat_inj.mp heq.2)
  violationDocuments := h.violations_kept.nodup_map fun _ _ heq => some_text_inj.mp heq

/-- **The cabinet and the database are the same store.** Of a database that keeps its documents
and has none yet, whatever is created, recorded, and updated once it is there, in any order and
as often as one likes, is read back as from the cabinet, and neither keeps two records of one
key. -/
theorem reads_agree (hkeeping : Keeping server held) {s : σ}
    (hempty : ∀ collection ∈ [sessions, answers, violations], held s collection = 0)
    {ws : List RecordWrite} (hstorable : ∀ w ∈ ws, w.Storable)
    (hgrounded : RecordWrite.Grounded ws) :
    ∃ c s', ws.foldlM Cabinet.file .empty = .ok c ∧
      ((ws.forM (file server)).run s).1 = (.ok (), s') ∧
      SameReads server s' c ∧ Keyed c (held s') := by
  have hstart : Agreed .empty (held s) :=
    ⟨rfl, (hempty sessions (by decide)) ▸ Table.kept_nil,
      (hempty answers (by decide)) ▸ Table.kept_nil,
      (hempty violations (by decide)) ▸ Table.kept_nil⟩
  obtain ⟨c, s', hfold, hrun, h⟩ := hstart.forM hkeeping (RecordWrite.filled_nil .empty)
    hstorable hgrounded
  exact ⟨c, s', hfold, hrun, h.sameReads hkeeping, h.keyed⟩

end

namespace Untidy

def session : Session := { (default : Session) with id := "s-1", livesRemaining := 3 }

def answer (index : Nat) : Answer := { (default : Answer) with questionIndex := index }

def loss : SessionPatch := { SessionPatch.empty with livesRemaining := some 2 }

def edit : AnswerPatch := { AnswerPatch.empty with code := some "fn main", runCount := some 1 }

def violation : Violation := { (default : Violation) with id := "v-1", sessionId := "s-1" }

/-- The writes of one sitting, out of order, with repetitions and a patch that changes nothing. -/
def writes : List RecordWrite :=
  [.createAnswer "s-1" (answer 2), .createSession session, .createAnswer "s-1" (answer 1),
    .updateSession "s-1" loss, .recordViolation violation, .updateSession "s-1" .empty,
    .recordViolation violation, .updateAnswer "s-1" 2 edit, .createSession session,
    .updateSession "s-1" loss]

theorem storable : ∀ w ∈ writes, w.Storable := by
  have hsession : (RecordWrite.createSession session).Storable :=
    ⟨⟨by decide, by decide, by decide, by decide, by decide⟩, rfl⟩
  have hanswer : ∀ i ∈ [1, 2], (RecordWrite.createAnswer "s-1" (answer i)).Storable := by
    simp only [List.forall_mem_cons, List.not_mem_nil, false_implies, implies_true, and_true]
    exact ⟨⟨⟨by decide, by decide, by decide, by decide, by decide, by decide, by decide⟩, rfl⟩,
      ⟨by decide, by decide, by decide, by decide, by decide, by decide, by decide⟩, rfl⟩
  have hloss : (RecordWrite.updateSession "s-1" loss).Storable :=
    ⟨⟨by decide, by decide, by decide, by decide⟩, rfl⟩
  have hviolation : (RecordWrite.recordViolation violation).Storable :=
    ⟨⟨by decide, by decide, by decide⟩, rfl⟩
  simp only [writes, List.forall_mem_cons, List.not_mem_nil, false_implies, implies_true,
    and_true]
  exact ⟨hanswer 2 (by decide), hsession, hanswer 1 (by decide), hloss, hviolation,
    ⟨⟨nofun, nofun, nofun, nofun⟩, rfl⟩, hviolation,
    ⟨⟨nofun, nofun, nofun, nofun, by decide, nofun⟩, rfl⟩, hsession, hloss⟩

theorem grounded : RecordWrite.Grounded writes :=
  RecordWrite.grounded_nil
    |>.concat (w := .createAnswer "s-1" (answer 2)) trivial
    |>.concat (w := .createSession session) trivial
    |>.concat (w := .createAnswer "s-1" (answer 1)) trivial
    |>.concat (w := .updateSession "s-1" loss) ⟨session, by decide, rfl⟩
    |>.concat (w := .recordViolation violation) trivial
    |>.concat (w := .updateSession "s-1" .empty) ⟨session, by decide, rfl⟩
    |>.concat (w := .recordViolation violation) trivial
    |>.concat (w := .updateAnswer "s-1" 2 edit) ⟨answer 2, by decide, rfl⟩
    |>.concat (w := .createSession session) trivial
    |>.concat (w := .updateSession "s-1" loss) ⟨session, by decide, rfl⟩

end Untidy

theorem reads_agree_untidy :
    (∀ w ∈ Untidy.writes, w.Storable) ∧ RecordWrite.Grounded Untidy.writes ∧
      ∃ c s', Untidy.writes.foldlM Cabinet.file .empty = .ok c ∧
        ((Untidy.writes.forM (file Folders.answer)).run fun _ => []).1 = (.ok (), s') ∧
        SameReads Folders.answer s' c ∧ Keyed c (Folders.held s') :=
  ⟨Untidy.storable, Untidy.grounded,
    reads_agree Folders.keeping (fun _ _ => rfl) Untidy.storable Untidy.grounded⟩

end Documents

end Invigilator
