import Invigilator.Proofs.Access.Gate
import Invigilator.Proofs.Records.Agreement

/-!
# The gate in a database

The gate can be kept in a document database as well, and there a record is never read before it is
changed. A block sets every member of the record, also those that are null, so nothing is left of
an approval before it; an approval asks for a document of the user that says `blocked`, and whether
the user was barred is read off the number of documents that were changed. For that more must be
known of the database than that it keeps its documents: an update that may add a document does so
if none is meant, and an update counts the documents that it made different (`Counting`).

The records of the gate and the documents then keep one table (`eligibilityTable`), through every
call: that is `takeAll_run`. So the database answers as the gate in memory does, and lists the same
records, in some order.
-/

namespace Invigilator.Documents

open Redis (run_tracked)

/-! ## A database that counts -/

/-- What setting some members does to a collection, and how many documents it makes different. -/
inductive Updated (filter : Filter) (members : List (String × Json)) (upsert : Bool) :
    Multiset Document → Int → Multiset Document → Prop where
  | changed {d : Document} {rest : Multiset Document} (meant : Matches filter d)
      (different : d.set members ≠ d) :
      Updated filter members upsert (d ::ₘ rest) 1 (d.set members ::ₘ rest)
  | same {d : Document} {rest : Multiset Document} (meant : Matches filter d)
      (unchanged : d.set members = d) :
      Updated filter members upsert (d ::ₘ rest) 0 (d ::ₘ rest)
  /-- A document that is added has what the filter asks for, and what is set. -/
  | added {before : Multiset Document} (unmeant : ∀ d ∈ before, ¬Matches filter d)
      (asked : upsert = true) :
      Updated filter members upsert before 0 ((document filter).set members ::ₘ before)
  | passed {before : Multiset Document} (unmeant : ∀ d ∈ before, ¬Matches filter d)
      (unasked : upsert = false) : Updated filter members upsert before 0 before

namespace Updated

variable {filter : Filter} {members : List (String × Json)} {upsert : Bool}
variable {before after : Multiset Document} {n : Int}

theorem nonneg (h : Updated filter members upsert before n after) : 0 ≤ n := by
  cases h <;> decide

/-- An update that adds nothing is one that sets. -/
theorem changed_of_set (h : Updated filter members false before n after) :
    Changed filter (fun d => d.set members) before before after := by
  cases h with
  | changed meant different => exact .one meant
  | @same d rest meant unchanged =>
    have hone : Changed filter (fun d => d.set members) (d ::ₘ rest) (d ::ₘ rest)
        (d.set members ::ₘ rest) := .one meant
    rwa [unchanged] at hone
  | added unmeant asked => cases asked
  | passed unmeant unasked => exact .none unmeant

end Updated

/-- A database that keeps its documents, and counts those that an update makes different. -/
structure Counting {σ : Type} (server : Server σ) (held : σ → String → Multiset Document) : Prop
    extends Keeping server held where
  update : ∀ s collection filter members upsert, Simple filter → Named filter → Named members →
    ∃ n s' after,
      server (.update collection filter (.set members) upsert) s = (.modified n, s') ∧
        held s' = Function.update (held s) collection after ∧
        Updated filter members upsert (held s collection) n after

/-! ## Such a database in memory -/

mutual

/-- Whether two values are the same. -/
def same : Json → Json → Bool
  | .null, .null => true
  | .bool a, .bool b => a == b
  | .int m, .int n => m == n
  | .real l, .real l' => l == l'
  | .text s, .text t => s == t
  | .torn a, .torn b => a = b
  | .list as, .list bs => sameItems as bs
  | .object ms, .object ns => sameMembers ms ns
  | _, _ => false

def sameItems : List Json → List Json → Bool
  | [], [] => true
  | a :: as, b :: bs => same a b && sameItems as bs
  | _, _ => false

def sameMembers : List (String × Json) → List (String × Json) → Bool
  | [], [] => true
  | (name, a) :: ms, (name', b) :: ns => name == name' && same a b && sameMembers ms ns
  | _, _ => false

end

mutual

theorem same_iff : ∀ a b : Json, same a b = true ↔ a = b
  | .null, b => by cases b <;> simp [same]
  | .bool _, b => by cases b <;> simp [same]
  | .int _, b => by cases b <;> simp [same]
  | .real _, b => by cases b <;> simp [same]
  | .text _, b => by cases b <;> simp [same]
  | .torn _, b => by cases b <;> simp [same]
  | .list as, b => by cases b <;> simp [same, sameItems_iff as]
  | .object ms, b => by cases b <;> simp [same, sameMembers_iff ms]

theorem sameItems_iff : ∀ as bs : List Json, sameItems as bs = true ↔ as = bs
  | [], bs => by cases bs <;> simp [sameItems]
  | a :: as, bs => by cases bs <;> simp [sameItems, same_iff a, sameItems_iff as]

theorem sameMembers_iff : ∀ ms ns : List (String × Json), sameMembers ms ns = true ↔ ms = ns
  | [], ns => by cases ns <;> simp [sameMembers]
  | (name, a) :: ms, ns => by
    cases ns <;> simp [sameMembers, Prod.ext_iff, same_iff a, sameMembers_iff ms]

end

namespace Folders

/-- Whether a document in memory has some members already. -/
def hasAll (members : List (String × Json)) (leaf : Leaf) : Bool :=
  members.all fun m => (leaf.members.lookup m.1).any (same m.2)

/-- To set what is there already changes nothing. -/
theorem hasAll_iff {members : List (String × Json)} (h : Named members) {leaf : Leaf} :
    hasAll members leaf = true ↔
      (document leaf.members).set members = document leaf.members := by
  rw [hasAll, List.all_eq_true]
  constructor
  · intro hall
    funext name
    rw [Document.set, document]
    cases hnew : members.lookup name with
    | none => rfl
    | some j =>
      have hany := hall _ (mem_of_document hnew)
      rw [Option.any_eq_true] at hany
      obtain ⟨j', hj', hsame⟩ := hany
      rw [(same_iff j j').mp hsame, Option.some_or]
      exact hj'.symm
  · intro hset m hm
    have hname := congrFun hset m.1
    rw [Document.set, lookup_of_mem h hm, Option.some_or] at hname
    rw [Option.any_eq_true]
    exact ⟨m.2, hname.symm, (same_iff m.2 m.2).mpr rfl⟩

/-- A collection after an update, and how many documents it made different. -/
def countedUpdate (filter : Filter) (members : List (String × Json)) (upsert : Bool)
    (leaves : List Leaf) : Int × List Leaf :=
  match leaves.find? (isMeant filter) with
  | some leaf =>
    (if hasAll members leaf then 0 else 1,
      Cabinet.updateFirst (isMeant filter) (setLeaf members) leaves)
  | none =>
    if h : upsert = true ∧ (filter.map Prod.fst).Nodup then
      (0, setLeaf members ⟨filter, h.2⟩ :: leaves)
    else (0, leaves)

/-- What the database does with a command when it counts what an update makes different, and adds a
document where one is asked for. -/
def answerCounted : Server Folders
  | .update collection filter (.set members) upsert, s =>
    let (n, leaves) := countedUpdate filter members upsert (s collection)
    (.modified n, Function.update s collection leaves)
  | command, s => answer command s

/-- The first document that is meant is the one that is changed. -/
theorem updateFirst_of_find? {picks : Leaf → Bool} (change : Leaf → Leaf) {leaves : List Leaf}
    {leaf : Leaf} (h : leaves.find? picks = some leaf) :
    ∃ before behind, leaves = before ++ leaf :: behind ∧
      Cabinet.updateFirst picks change leaves = before ++ change leaf :: behind := by
  induction leaves with
  | nil => cases h
  | cons a rest ih =>
    by_cases ha : picks a = true
    · rw [List.find?_cons_of_pos ha, Option.some.injEq] at h
      subst h
      exact ⟨[], rest, rfl, if_pos ha⟩
    · rw [List.find?_cons_of_neg ha] at h
      obtain ⟨before, behind, rfl, hupdate⟩ := ih h
      exact ⟨a :: before, behind, rfl, by rw [Cabinet.updateFirst, if_neg ha, hupdate]; rfl⟩

/-- An update in memory does to the collection what it should, and counts it. -/
theorem updated_countedUpdate {filter : Filter} {members : List (String × Json)} {upsert : Bool}
    (leaves : List Leaf) (hfilter : Simple filter) (hnamed : upsert = true → Named filter)
    (hmembers : Named members) :
    Updated filter members upsert
      ((leaves.map fun leaf => document leaf.members : List Document) : Multiset Document)
      (countedUpdate filter members upsert leaves).1
      (((countedUpdate filter members upsert leaves).2.map fun leaf => document leaf.members :
        List Document) : Multiset Document) := by
  unfold countedUpdate
  cases hfind : leaves.find? (isMeant filter) with
  | some leaf =>
    obtain ⟨before, behind, hsplit, hupdate⟩ := updateFirst_of_find? (setLeaf members) hfind
    have hmeant : Matches filter (document leaf.members) :=
      (isMeant_iff hfilter).mp (List.find?_some hfind)
    dsimp only
    -- the document that is meant counts as changed only if something in it is different now
    rw [hupdate, coe_middle, hsplit, coe_middle, document_set hmembers]
    by_cases hall : hasAll members leaf = true
    · have hsame := (hasAll_iff hmembers).mp hall
      rw [if_pos hall, hsame]
      exact .same hmeant hsame
    · rw [if_neg hall]
      exact .changed hmeant fun hsame => hall ((hasAll_iff hmembers).mpr hsame)
  | none =>
    have hunmeant : ∀ d ∈ ((leaves.map fun leaf => document leaf.members : List Document) :
        Multiset Document), ¬Matches filter d := by
      intro d hd
      obtain ⟨leaf, hleaf, rfl⟩ := List.mem_map.mp (Multiset.mem_coe.mp hd)
      rw [← isMeant_iff hfilter]
      exact List.find?_eq_none.mp hfind leaf hleaf
    cases upsert with
    | true =>
      have hadds : true = true ∧ (filter.map Prod.fst).Nodup := ⟨rfl, hnamed rfl⟩
      dsimp only
      rw [dif_pos hadds, List.map_cons, document_set hmembers]
      exact .added hunmeant rfl
    | false => exact .passed hunmeant rfl

/-- So does the command for it. -/
theorem answerCounted_update (s : Folders) (collection : String) {filter : Filter}
    {members : List (String × Json)} {upsert : Bool} (hfilter : Simple filter)
    (hnamed : upsert = true → Named filter) (hmembers : Named members) :
    ∃ n s' after,
      answerCounted (.update collection filter (.set members) upsert) s = (.modified n, s') ∧
        held s' = Function.update (held s) collection after ∧
        Updated filter members upsert (held s collection) n after :=
  ⟨_, _, _, rfl, held_update s collection _,
    updated_countedUpdate (s collection) hfilter hnamed hmembers⟩

/-- **The database in memory counts.** -/
theorem counting : Counting answerCounted held where
  replace := keeping.replace
  find := keeping.find
  set s collection filter members hfilter hmembers := by
    obtain ⟨n, s', after, hserver, hheld, hupdated⟩ :=
      answerCounted_update s collection hfilter (Bool.false_ne_true.elim ·) hmembers
    exact ⟨n, s', after, hserver, hupdated.nonneg, hheld, hupdated.changed_of_set⟩
  update s collection filter members upsert hfilter hnamed hmembers :=
    answerCounted_update s collection hfilter (fun _ => hnamed) hmembers

end Folders

/-! ## Documents of the gate -/

/-- The members of a record in its document. An approval is stamped with its offset. -/
def eligibilityMembers (r : EligibilityRecord) : List (String × Json) :=
  [("user_id", .text r.userId), ("status", r.status.toJson),
    ("blocked_session_id", .option .text r.blockedSessionId),
    ("blocked_at", .option Stamp.toJson r.blockedAt),
    ("approved_by", .option .text r.approvedBy),
    ("approved_at", .option (fun time => .text time.writeWithOffset) r.approvedAt)]

/-- A record with moments that the calendar knows. -/
structure Dated (r : EligibilityRecord) : Prop where
  blockedAt : ∀ time ∈ r.blockedAt, time.Datable
  approvedAt : ∀ time ∈ r.approvedAt, time.Datable

/-- Records of the gate, by their users. -/
def eligibilityTable : Table EligibilityRecord String where
  members := eligibilityMembers
  key r := r.userId
  filter userId := [("user_id", .text userId)]
  Storable := Dated
  named _ := (by decide : (EligibilityRecord.fields.map Json.Field.name).Nodup)
  fits r _ := by
    obtain ⟨userId, status, session, blockedAt, approver, approvedAt⟩ := r
    cases session <;> cases blockedAt <;> cases approver <;> cases approvedAt <;> rfl
  simple userId := simple_text "user_id" userId
  matches_iff r r' _ _ := matches_text.trans some_text_inj

/-- **A record of the gate is read from its document,** with either way to write a moment. -/
theorem readEligibility?_shown {r : EligibilityRecord} (h : Dated r) {j : Json}
    (hj : Shows (document (eligibilityMembers r)) j) : readEligibility? j = some r := by
  have hstored : ∀ m ∈ eligibilityMembers r, Documents.stored m.2 = m.2 := by
    have hoption : ∀ {α : Type} (o : Option α) (write : α → String),
        Documents.stored (.option (fun a => .text (write a)) o) =
          .option (fun a => .text (write a)) o := by
      intro α o write
      cases o <;> rfl
    simp only [eligibilityMembers, List.forall_mem_cons, List.not_mem_nil, false_implies,
      implies_true, and_true]
    exact ⟨rfl, rfl, hoption r.blockedSessionId id, stored_option_stamp r.blockedAt,
      hoption r.approvedBy id, hoption r.approvedAt Stamp.writeWithOffset⟩
  have hread := hj.stored "user_id" rfl (by decide) fun _ _ hm => hstored _ (mem_of_document hm)
  replace hread := hread.changeMember "status" plainWord fun _ hm => by cases hm; rfl
  have hown : ∀ f ∈ EligibilityRecord.fields, f.name ≠ ownName := by decide
  have htext := fun (o : Option String) s (_ : s ∈ o) => Json.carries_text s
  have hblocked := fun time htime => Json.carries_stamp (h.blockedAt time htime)
  have happroved : ∀ time ∈ r.approvedAt, Json.Carries
      (fun time : Stamp => .text time.writeWithOffset) Stamp.ofJson? time :=
    fun time htime => ⟨trivial, Stamp.read?_writeWithOffset (h.approvedAt time htime)⟩
  have hslots : (EligibilityRecord.fields.map fun f => document (eligibilityMembers r) f.name) =
      (eligibilityMembers r).map fun m => some m.2 := rfl
  rw [readEligibility?, EligibilityRecord.ofJson?, hread.slots? _ hown, hslots]
  simp [eligibilityMembers, Json.needed, Json.text?, r.status.carries.read_eq,
    Json.optional_option (htext r.blockedSessionId) rfl, Json.optional_option hblocked rfl,
    Json.optional_option (htext r.approvedBy) rfl, Json.optional_option happroved rfl]

/-! ## Calls -/

/-- What a call sends to the database, and what an approval is answered. -/
def take {σ : Type} (server : Server σ) : GateCall → Attempt σ (Option Bool)
  | .block userId id time => do
    block server userId id time
    pure none
  | .approve userId who time => do
    let found ← approve server userId who time
    pure (some found)

/-- Some calls, one after the other. -/
def takeAll {σ : Type} (server : Server σ) : List GateCall → Attempt σ (List (Option Bool))
  | [] => pure []
  | c :: calls => do
    let answer ← take server c
    let rest ← takeAll server calls
    pure (answer :: rest)

/-- Where all members are set, nothing is left of what was there before. -/
theorem set_of_subset {old new : List (String × Json)}
    (h : old.map Prod.fst ⊆ new.map Prod.fst) : (document old).set new = document new := by
  funext name
  rw [Document.set, document, document]
  cases hnew : new.lookup name with
  | some j => rfl
  | none =>
    rw [Option.none_or, List.lookup_eq_none_iff]
    intro m hm
    refine bne_iff_ne.mpr fun hname => ?_
    obtain ⟨m', hm', hname'⟩ := List.mem_map.mp (h (List.mem_map_of_mem hm))
    rw [List.lookup_eq_none_iff] at hnew
    exact absurd (hname.trans hname'.symm) (bne_iff_ne.mp (hnew m' hm'))

/-- No approval is stamped in what a block writes. -/
theorem members_block (userId id : String) (time : Stamp) :
    (EligibilityRecord.block userId id time).members =
      eligibilityMembers (.block userId id time) := by
  simp only [EligibilityRecord.members, eligibilityMembers, EligibilityRecord.block, Json.option]

/-- A block sets every member that a record has. -/
theorem set_block (r : EligibilityRecord) (userId id : String) (time : Stamp) :
    (eligibilityTable.doc r).set (eligibilityMembers (.block userId id time)) =
      eligibilityTable.doc (.block userId id time) := by
  have hset : (document (eligibilityMembers r)).set (eligibilityMembers (.block userId id time)) =
      document (eligibilityMembers (.block userId id time)) :=
    set_of_subset fun _ hname => hname
  exact hset

/-- What an approval sets. -/
def approvalMembers (who : String) (time : Stamp) : List (String × Json) :=
  [("status", EligibilityStatus.approved.toJson), ("approved_by", .text who),
    ("approved_at", .text time.writeWithOffset)]

theorem set_approval (r : EligibilityRecord) (who : String) (time : Stamp) :
    (eligibilityTable.doc r).set (approvalMembers who time) =
      eligibilityTable.doc (r.approve who time) := by
  let stamped : Stamp → Json := fun time => .text time.writeWithOffset
  have hset := set_present
    [("user_id", .text r.userId, none),
      ("status", r.status.toJson, some EligibilityStatus.approved.toJson),
      ("blocked_session_id", .option .text r.blockedSessionId, none),
      ("blocked_at", .option Stamp.toJson r.blockedAt, none),
      ("approved_by", .option .text r.approvedBy, some (.text who)),
      ("approved_at", .option stamped r.approvedAt, some (stamped time))]
    (by decide : (EligibilityRecord.fields.map Json.Field.name).Nodup)
  exact hset

theorem dated_block (userId id : String) {time : Stamp} (h : time.Datable) :
    Dated (.block userId id time) where
  blockedAt _ ht := Option.some.inj ht ▸ h
  approvedAt := nofun

theorem Dated.approve {r : EligibilityRecord} (hr : Dated r) (who : String) {time : Stamp}
    (h : time.Datable) : Dated (r.approve who time) where
  blockedAt := hr.blockedAt
  approvedAt _ ht := Option.some.inj ht ▸ h

/-- The documents of barred users are those that an approval asks for. -/
theorem matches_barred {r : EligibilityRecord} {userId : String} :
    Matches [("user_id", .text userId), ("status", EligibilityStatus.blocked.toJson)]
      (eligibilityTable.doc r) ↔ r.userId = userId ∧ r.isBlocked = true := by
  have hstatus : eligibilityTable.doc r "status" = some (.text r.status.name) := rfl
  rw [Matches, List.forall_mem_cons, List.forall_mem_singleton]
  refine and_congr some_text_inj ?_
  rw [hstatus, EligibilityRecord.isBlocked]
  cases r.status <;> simp [EligibilityStatus.toJson, EligibilityStatus.name]

section Calls

variable {σ : Type} {server : Server σ} {held : σ → String → Multiset Document}
variable {g : Gate} {collection after : Multiset Document} {s : σ}

/-- The records of a gate are those in a collection. -/
abbrev KeptBy (g : Gate) (collection : Multiset Document) : Prop :=
  eligibilityTable.Kept g.records collection

/-- A record is put on either side. -/
theorem KeptBy.put (h : KeptBy g collection) {r : EligibilityRecord} (hr : Dated r)
    (hchanged : Changed [("user_id", .text r.userId)] (fun _ => eligibilityTable.doc r)
      (eligibilityTable.doc r ::ₘ collection) collection after) : KeptBy (g.put r) after := by
  have hkeeps : ∀ old : EligibilityRecord, (old.userId != r.userId) = true ↔
      eligibilityTable.key old ≠ eligibilityTable.key r := fun _ => bne_iff_ne
  have hkept := Table.Kept.put h (x := r) hr hkeeps hchanged
  exact hkept.perm (List.perm_append_singleton r _)

/-- A block makes the document of a user that of the block, or adds it. -/
theorem KeptBy.block {n : Int} (h : KeptBy g collection) (userId id : String) {time : Stamp}
    (htime : time.Datable)
    (hupdated : Updated [("user_id", .text userId)] (eligibilityMembers (.block userId id time))
      true collection n after) : KeptBy (g.block userId id time) after := by
  have hr := dated_block userId id htime
  have hput : Changed [("user_id", .text userId)]
      (fun _ => eligibilityTable.doc (.block userId id time))
      (eligibilityTable.doc (.block userId id time) ::ₘ collection) collection after →
        KeptBy (g.block userId id time) after := h.put hr
  generalize hc : collection = c at hupdated hput
  cases hupdated with
  | changed meant different =>
    obtain ⟨-, a, -, -, -, rfl, -⟩ := h.exists_meant ⟨_, hr, rfl⟩ hc meant
    rw [set_block] at hput ⊢
    exact hput (.one meant)
  | same meant unchanged =>
    obtain ⟨-, a, -, -, -, rfl, -⟩ := h.exists_meant ⟨_, hr, rfl⟩ hc meant
    rw [set_block] at unchanged
    refine hput ?_
    rw [unchanged]
    exact .one meant
  | added unmeant asked =>
    have hdoc : (document [("user_id", .text userId)]).set
        (eligibilityMembers (.block userId id time)) =
          eligibilityTable.doc (.block userId id time) := by
      refine set_of_subset fun name hname => ?_
      rw [List.mem_singleton.mp hname]
      exact List.mem_cons_self
    rw [hdoc] at hput ⊢
    exact hput (.none unmeant)
  | passed unmeant unasked => cases unasked

/-- An approval finds the document of a barred user and changes it, or none. -/
theorem KeptBy.approve {n : Int} (h : KeptBy g collection) (userId who : String) {time : Stamp}
    (htime : time.Datable)
    (hupdated : Updated [("user_id", .text userId), ("status", EligibilityStatus.blocked.toJson)]
      (approvalMembers who time) false collection n after) :
    decide (0 < n) = (g.approve userId who time).2 ∧
      KeptBy (g.approve userId who time).1 after := by
  have hkeyed : g.Keyed := h.nodup
  -- a document that is meant is that of the user, who is barred
  have hmine : ∀ {d : Document} {rest : Multiset Document}, collection = d ::ₘ rest →
      Matches [("user_id", .text userId), ("status", EligibilityStatus.blocked.toJson)] d →
      ∃ a ∈ g.records, d = eligibilityTable.doc a ∧ g.find? userId = some a ∧
        a.isBlocked = true := by
    intro d rest hc meant
    have huser : Matches [("user_id", .text userId)] d :=
      List.forall_mem_singleton.mpr (meant _ List.mem_cons_self)
    obtain ⟨before, a, behind, hrows, hkey, rfl, -⟩ :=
      h.exists_meant ⟨_, dated_block userId "" htime, rfl⟩ hc huser
    have hmem : a ∈ g.records := hrows ▸ List.mem_append_right _ List.mem_cons_self
    exact ⟨a, hmem, rfl, hkeyed.find?_eq_some_iff.mpr ⟨hmem, hkey⟩, (matches_barred.mp meant).2⟩
  generalize hc : collection = c at hupdated
  cases hupdated with
  | @changed _ rest meant different =>
    obtain ⟨a, hmem, rfl, hfind, hblocked⟩ := hmine hc meant
    have huser := Gate.userId_of_find? hfind
    have hchanged : Changed [("user_id", .text (a.approve who time).userId)]
        (fun _ => eligibilityTable.doc (a.approve who time))
        (eligibilityTable.doc (a.approve who time) ::ₘ collection) collection
        (eligibilityTable.doc (a.approve who time) ::ₘ rest) := by
      rw [hc]
      exact .one (matches_text.mpr rfl)
    rw [Gate.approve_blocked hfind hblocked, set_approval]
    exact ⟨rfl, h.put ((h.storable a hmem).approve who htime) hchanged⟩
  | same meant unchanged =>
    -- the status at least is another one afterwards
    have hstatus : some (Json.text "approved") = some (.text "blocked") :=
      (congrFun unchanged "status").trans (meant _ (List.mem_cons_of_mem _ List.mem_cons_self))
    exact absurd (some_text_inj.mp hstatus) (by decide)
  | added unmeant asked => cases asked
  | passed unmeant unasked =>
    have hopen : g.isEligible userId = true := by
      rw [← Bool.not_eq_false]
      intro hbarred
      obtain ⟨r, hfind, hblocked⟩ := Gate.isEligible_eq_false_iff.mp hbarred
      have hmem : eligibilityTable.doc r ∈ collection := by
        rw [h.docs_eq]
        exact Multiset.mem_coe.mpr (List.mem_map_of_mem (List.mem_of_find?_eq_some hfind))
      exact unmeant _ (hc ▸ hmem) (matches_barred.mpr ⟨Gate.userId_of_find? hfind, hblocked⟩)
    rw [Gate.approve_eligible hopen]
    exact ⟨rfl, hc ▸ h⟩

/-- The database does with a block what the gate does. -/
theorem block_run (hcounting : Counting server held) (h : KeptBy g (held s eligibility))
    (userId id : String) {time : Stamp} (htime : time.Datable) :
    ∃ s', ((block server userId id time).run s).1 = (.ok (), s') ∧
      KeptBy (g.block userId id time) (held s' eligibility) := by
  have hfits : membersFit (eligibilityMembers (.block userId id time)) = true :=
    eligibilityTable.fits _ (dated_block userId id htime)
  obtain ⟨n, s', after, hserver, hheld, hupdated⟩ :=
    hcounting.update s eligibility [("user_id", .text userId)] _ true
      (simple_text "user_id" userId) (List.nodup_singleton _)
      (eligibilityTable.named (.block userId id time))
  have hencode : ((encode "Failed to encode eligibility record"
      (eligibilityMembers (.block userId id time))).run s).1 =
        (.ok (eligibilityMembers (.block userId id time)), s) := by
    rw [encode, if_pos hfits]
    rfl
  have hset := askCount_run "Failed to block user" hserver hupdated.nonneg
  have hcounted := (run_tracked "mongodb" "eligibility_block" _ s).trans hset
  refine ⟨s', ?_, ?_⟩
  · rw [block, members_block, Attempt.run_bind_ok hencode]
    exact Attempt.run_bind_ok hcounted
  · rw [hheld, Function.update_self]
    exact h.block userId id htime hupdated

/-- What the database counts for an approval is what the gate answers. -/
theorem approve_run (hcounting : Counting server held) (h : KeptBy g (held s eligibility))
    (userId who : String) {time : Stamp} (htime : time.Datable) :
    ∃ s', ((approve server userId who time).run s).1 =
        (.ok (g.approve userId who time).2, s') ∧
      KeptBy (g.approve userId who time).1 (held s' eligibility) := by
  have hsimple : Simple
      [("user_id", .text userId), ("status", EligibilityStatus.blocked.toJson)] := by
    rw [Simple, List.forall_mem_cons, List.forall_mem_singleton]
    exact ⟨.inl ⟨userId, rfl⟩, .inl ⟨_, rfl⟩⟩
  obtain ⟨n, s', after, hserver, hheld, hupdated⟩ :=
    hcounting.update s eligibility _ (approvalMembers who time) false hsimple
      (by decide : ["user_id", "status"].Nodup)
      (by decide : ["status", "approved_by", "approved_at"].Nodup)
  obtain ⟨hanswer, hkept⟩ := h.approve userId who htime hupdated
  have hset := askCount_run "Failed to approve retake" hserver hupdated.nonneg
  have hcounted := (run_tracked "mongodb" "eligibility_approve" _ s).trans hset
  refine ⟨s', ?_, ?_⟩
  · rw [← hanswer]
    exact Attempt.run_bind_ok hcounted
  · rw [hheld, Function.update_self]
    exact hkept

/-- **The database does with a call what the gate does, and answers the same.** -/
theorem take_run (hcounting : Counting server held) (h : KeptBy g (held s eligibility))
    {c : GateCall} (htime : c.time.Datable) :
    ∃ s', ((take server c).run s).1 = (.ok (g.take c).2, s') ∧
      KeptBy (g.take c).1 (held s' eligibility) := by
  cases c with
  | block userId id time =>
    obtain ⟨s', hblock, hkept⟩ := block_run hcounting h userId id htime
    exact ⟨s', Attempt.run_bind_ok hblock, hkept⟩
  | approve userId who time =>
    obtain ⟨s', happrove, hkept⟩ := approve_run hcounting h userId who htime
    exact ⟨s', Attempt.run_bind_ok happrove, hkept⟩

/-- **So it is with any number of calls.** -/
theorem takeAll_run (hcounting : Counting server held) {calls : List GateCall} :
    ∀ {g : Gate} {s : σ}, KeptBy g (held s eligibility) → (∀ c ∈ calls, c.time.Datable) →
      ∃ s', ((takeAll server calls).run s).1 = (.ok (g.answers calls), s') ∧
        KeptBy (g.taken calls) (held s' eligibility) := by
  induction calls with
  | nil => exact fun h _ => ⟨_, rfl, h⟩
  | cons c calls ih =>
    intro g s h htimes
    obtain ⟨s₁, hrun₁, h₁⟩ := take_run hcounting h (htimes c List.mem_cons_self)
    obtain ⟨s', hrun, h'⟩ := ih h₁ fun c hc => htimes c (List.mem_cons_of_mem _ hc)
    refine ⟨s', ?_, h'⟩
    rw [takeAll, Attempt.run_bind_ok hrun₁, Attempt.run_bind_ok hrun]
    rfl

/-! ## What is read -/

theorem KeptBy.isEligible_run (hkeeping : Keeping server held) (h : KeptBy g (held s eligibility))
    (userId : String) :
    ((isEligible server userId).run s).1.1 = .ok (g.isEligible userId) := by
  have hkey : ∀ r : EligibilityRecord, (r.userId == userId) = true ↔
      eligibilityTable.key r = userId := fun _ => beq_iff_eq
  have hmine : ∀ r ∈ g.records, Matches [("user_id", .text userId)] (eligibilityTable.doc r) ↔
      (r.userId == userId) = true :=
    fun r _ => (matches_text.trans some_text_inj).trans (hkey r).symm
  obtain ⟨s', hresult⟩ := findOne_run hkeeping h (simple_text "user_id" userId) hkey hmine
    (fun r hr j hj => readEligibility?_shown hr hj) "Failed to query exam eligibility"
  have hcounted := (run_tracked "mongodb" "eligibility_get" _ s).trans hresult
  exact congrArg Prod.fst (Attempt.run_bind_ok hcounted)

theorem KeptBy.blocked_run (hkeeping : Keeping server held) (h : KeptBy g (held s eligibility)) :
    ∃ found, ((blocked server).run s).1.1 = .ok found ∧ found.Perm g.blocked := by
  have hmine : ∀ r ∈ g.records,
      Matches [("status", EligibilityStatus.blocked.toJson)] (eligibilityTable.doc r) ↔
        r.isBlocked = true := by
    intro r _
    have hboth : Matches [("user_id", .text r.userId),
        ("status", EligibilityStatus.blocked.toJson)] (eligibilityTable.doc r) ↔ _ := matches_barred
    rw [Matches, List.forall_mem_cons] at hboth
    exact ⟨fun hm => (hboth.mp ⟨rfl, hm⟩).2, fun hb => (hboth.mpr ⟨rfl, hb⟩).2⟩
  obtain ⟨found, s', hrun, hperm, -⟩ := findAll_kept hkeeping h (simple_text "status" "blocked")
    none hmine (fun r hr j hj => readEligibility?_shown hr hj) "Failed to query blocked users"
    "Failed to collect blocked users"
  rw [List.map_id'] at hrun
  exact ⟨found, congrArg Prod.fst hrun, hperm.trans (List.mergeSort_perm _ _).symm⟩

/-- What is read is the same on either side, moments aside. Blocked users may come in another
order. -/
structure SameRulings (server : Server σ) (s : σ) (g : Gate) : Prop where
  isEligible : ∀ userId, ((isEligible server userId).run s).1.1 = .ok (g.isEligible userId)
  blocked : ∃ found, ((blocked server).run s).1.1 = .ok found ∧
    (found.map EligibilityRecord.untimed).Perm (g.blocked.map EligibilityRecord.untimed)

/-- **The gate goes by its history, in memory and in a database.** After any calls on any users the
gate in memory says what its history says. A database that counts, and has no records of the gate
yet, answers the same calls the same, whenever they come, and is read the same afterwards. -/
theorem rulings_agree (hcounting : Counting server held) (hempty : held s eligibility = 0)
    {calls calls' : List GateCall}
    (hsame : calls.map GateCall.untimed = calls'.map GateCall.untimed)
    (hdatable : ∀ c ∈ calls', c.time.Datable) :
    Gate.Chronicles calls ∧
      ∃ s', ((takeAll server calls').run s).1 = (.ok (Gate.empty.answers calls), s') ∧
        SameRulings server s' (Gate.empty.taken calls) := by
  have hstart : KeptBy .empty (held s eligibility) := by
    rw [hempty]
    exact Table.kept_nil
  obtain ⟨s', hrun, hkept⟩ := takeAll_run hcounting hstart hdatable
  have halike : Gate.empty.Alike .empty := rfl
  obtain ⟨hend, hanswers⟩ := halike.taken hsame
  refine ⟨Gate.chronicles calls, s', ?_, ?_, ?_⟩
  · rw [hanswers]
    exact hrun
  · intro userId
    rw [hend.isEligible userId]
    exact hkept.isEligible_run hcounting.toKeeping userId
  · obtain ⟨found, hfound, hperm⟩ := hkept.blocked_run hcounting.toKeeping
    refine ⟨found, hfound, ?_⟩
    rw [hend.blocked]
    exact hperm.map _

end Calls

/-- Two users are blocked twice each; one of them is let in between and the other at the end, and a
third approval comes for a user who was never blocked. -/
theorem rulings_agree_twoUsers :
    let noon : Stamp := ⟨20000, 43200, 0⟩
    let later : Stamp := ⟨20000, 43201, 500⟩
    let calls : Stamp → List GateCall := fun time =>
      [.block "ana" "s-1" time, .block "bo" "s-2" time, .approve "ana" "root" time,
        .approve "cy" "root" time, .block "ana" "s-3" time, .block "bo" "s-4" time,
        .approve "bo" "root" time]
    (calls noon).map GateCall.untimed = (calls later).map GateCall.untimed ∧
      (∀ c ∈ calls later, c.time.Datable) ∧
      Gate.empty.answers (calls noon) =
        [none, none, some true, some false, none, none, some true] ∧
      (Gate.empty.taken (calls noon)).isEligible "ana" = false ∧
      (Gate.empty.taken (calls noon)).isEligible "bo" = true ∧
      Gate.Chronicles (calls noon) ∧
      ∃ s', ((takeAll Folders.answerCounted (calls later)).run fun _ => []).1 =
          (.ok (Gate.empty.answers (calls noon)), s') ∧
        SameRulings Folders.answerCounted s' (Gate.empty.taken (calls noon)) := by
  intro noon later calls
  have hsame : (calls noon).map GateCall.untimed = (calls later).map GateCall.untimed := rfl
  have hdatable : ∀ c ∈ calls later, c.time.Datable := by decide
  refine ⟨hsame, hdatable, by decide, by decide, by decide, ?_⟩
  exact rulings_agree Folders.counting rfl hsame hdatable

end Invigilator.Documents
