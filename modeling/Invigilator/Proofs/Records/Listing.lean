import Invigilator.Proofs.Records.Agreement
import Invigilator.Proofs.Time.Sorting
import Mathlib.Data.List.Pairwise

/-!
# The latest sessions

The latest sessions are asked for by their start times, latest first, and no more of them than a
limit. The cabinet compares the moments themselves. A document holds the text of the moment, and a
database that sorts by it compares texts byte by byte (`Sorting`). So the two lists are the same as
far as written moments sort as the moments do, and that is told by `Stamp.Covers`: if no start time
covers another, the lists agree for every limit; if one does, the two sessions change places.

`Folders.answerTexts` is the database in memory, sorting by texts.
-/

namespace Invigilator.Documents

open Token (bytesOf)

/-! ## A database that sorts by texts -/

/-- Documents come in the order that was asked for: up or down by a member that is a text. -/
def Bytewise (sort : Option (String × Int)) (ds : List Document) : Prop :=
  ∀ name direction, sort = some (name, direction) →
    ds.Pairwise fun d e => ∀ s t, d name = some (.text s) → e name = some (.text t) →
      if 0 < direction then bytesOf s ≤ bytesOf t else bytesOf t ≤ bytesOf s

/-- What a search finds in a collection, in the order of the texts. -/
structure FoundBytewise (filter : Filter) (sort : Option (String × Int)) (limit : Option Int)
    (collection : Multiset Document) (docs : List Json) : Prop where
  exists_found : ∃ found rest : List Document, collection = found ++ rest ∧
    (∀ d ∈ found, Matches filter d) ∧ (∀ d ∈ rest, ¬Matches filter d) ∧ Bytewise sort found ∧
      List.Forall₂ Shows (cut limit found) docs

/-- A database that finds what is meant and compares texts byte by byte. -/
structure Sorting {σ : Type} (server : Server σ) (held : σ → String → Multiset Document) :
    Prop where
  find : ∀ s collection filter sort limit, Simple filter →
    ∃ docs s', server (.find collection filter sort limit) s = (.documents docs, s') ∧
      held s' = held s ∧ FoundBytewise filter sort limit (held s collection) docs

namespace Folders

/-- The bytes of the text under a name, for sorting. -/
def textAt (name : String) (leaf : Leaf) : List UInt8 :=
  match leaf.members.lookup name with
  | some (.text s) => bytesOf s
  | _ => []

theorem textAt_eq {name s : String} {leaf : Leaf}
    (h : document leaf.members name = some (.text s)) : textAt name leaf = bytesOf s := by
  rw [document] at h
  rw [textAt, h]

/-- Whether a document may come before another. -/
def comesBefore (name : String) (direction : Int) (a b : Leaf) : Bool :=
  if 0 < direction then textAt name a ≤ textAt name b else textAt name b ≤ textAt name a

/-- Documents in the order of their texts. -/
def sortedByTexts (sort : Option (String × Int)) (leaves : List Leaf) : List Leaf :=
  match sort with
  | none => leaves
  | some (name, direction) => leaves.mergeSort (comesBefore name direction)

/-- What the database does with a command when it sorts by texts. -/
def answerTexts : Server Folders
  | .find collection filter sort limit, s =>
    (.documents ((cut limit (sortedByTexts sort ((s collection).filter (isMeant filter)))).map
      fun leaf => .object leaf.members), s)
  | command, s => answer command s

theorem sortedByTexts_perm (sort : Option (String × Int)) (leaves : List Leaf) :
    (sortedByTexts sort leaves).Perm leaves := by
  cases sort with
  | none => exact .refl _
  | some s => exact List.mergeSort_perm _ _

theorem comesBefore_iff {name : String} {direction : Int} {a b : Leaf} :
    comesBefore name direction a b = true ↔
      if 0 < direction then textAt name a ≤ textAt name b else textAt name b ≤ textAt name a := by
  unfold comesBefore
  split <;> exact decide_eq_true_iff

/-- Sorting orders the documents by their texts. -/
theorem bytewise_sortedByTexts (sort : Option (String × Int)) (leaves : List Leaf) :
    Bytewise sort ((sortedByTexts sort leaves).map fun leaf => document leaf.members) := by
  rintro name direction rfl
  have hsorted : (sortedByTexts (some (name, direction)) leaves).Pairwise fun a b =>
      comesBefore name direction a b = true := by
    refine List.pairwise_mergeSort (fun a b c hab hbc => ?_) (fun a b => ?_) leaves
    · -- downwards the two texts change places
      rw [comesBefore_iff] at *
      by_cases hup : 0 < direction
      · rw [if_pos hup] at *
        exact List.le_trans hab hbc
      · rw [if_neg hup] at *
        exact List.le_trans hbc hab
    · rw [Bool.or_eq_true, comesBefore_iff, comesBefore_iff]
      split
      · exact List.le_total _ _
      · exact List.le_total _ _
  rw [List.pairwise_map]
  refine hsorted.imp fun {a b} hab s t hs ht => ?_
  rwa [comesBefore_iff, textAt_eq hs, textAt_eq ht] at hab

/-- **The database in memory sorts by texts.** -/
theorem sorting : Sorting answerTexts held where
  find s collection filter sort limit hfilter := by
    obtain ⟨hsplit, hin, hout⟩ := split_leaves hfilter (s collection) (sortedByTexts_perm sort _)
    refine ⟨_, s, rfl, rfl, ⟨_, _, hsplit, hin, hout, bytewise_sortedByTexts sort _, ?_⟩⟩
    exact forall₂_shows limit _

/-- A database in memory that holds some sessions. -/
def ofSessions (rows : List Session) : Folders := fun collection =>
  if collection = sessions then rows.map fun r => ⟨r.members, sessionTable.named r⟩ else []

theorem kept_ofSessions {rows : List Session} (hnodup : (rows.map fun r => r.id).Nodup)
    (hstorable : ∀ r ∈ rows, sessionTable.Storable r) :
    sessionTable.Kept rows (held (ofSessions rows) sessions) where
  docs_eq := by
    rw [held, ofSessions, if_pos rfl, List.map_map]
    rfl
  nodup := hnodup
  storable := hstorable

end Folders

/-! ## Lists of sessions -/

/-- Sessions of years that are written in four digits, no two of which began at one moment. -/
structure Timely (rows : List Session) : Prop where
  apart : (rows.map fun r => r.startedAt).Nodup
  plain : ∀ r ∈ rows, r.startedAt.Plain

/-- No start time covers another. -/
def Uncovered (rows : List Session) : Prop :=
  ∀ a ∈ rows, ∀ b ∈ rows, ¬a.startedAt.Covers b.startedAt

instance (rows : List Session) : Decidable (Uncovered rows) :=
  inferInstanceAs (Decidable (∀ _ ∈ rows, _))

/-- Sessions by their start times, latest first. -/
def newestFirst (rows : List Session) : List Session :=
  rows.mergeSort fun a b => !Stamp.lt a.startedAt b.startedAt

/-- The start time of a session as its document holds it. -/
theorem document_startedAt (s : Session) :
    document s.members "started_at" = some (.text s.startedAt.write) := rfl

variable {rows found : List Session}

theorem newestFirst_perm (rows : List Session) : (newestFirst rows).Perm rows :=
  List.mergeSort_perm _ _

theorem pairwise_newestFirst (rows : List Session) :
    (newestFirst rows).Pairwise fun a b => ¬a.startedAt.lt b.startedAt = true := by
  have hsorted : (newestFirst rows).Pairwise fun a b =>
      (!Stamp.lt a.startedAt b.startedAt) = true := by
    refine List.pairwise_mergeSort (fun a b c hab hbc => ?_) (fun a b => ?_) rows
    · rw [Bool.not_eq_true', ← Bool.not_eq_true] at *
      exact Stamp.not_lt_trans hab hbc
    · rw [Bool.or_eq_true, Bool.not_eq_true', Bool.not_eq_true', ← Bool.not_eq_true,
        ← Bool.not_eq_true]
      by_cases h : a.startedAt.lt b.startedAt = true
      · exact .inr (Stamp.lt_asymm h)
      · exact .inl h
  exact hsorted.imp fun h => by rwa [Bool.not_eq_true', ← Bool.not_eq_true] at h

/-- Sessions whose start times tell them apart come latest first in one order only. -/
theorem Timely.eq_newestFirst (h : Timely rows) (hperm : found.Perm rows)
    (hlatest : found.Pairwise fun a b => ¬a.startedAt.lt b.startedAt = true) :
    found = newestFirst rows := by
  refine List.Perm.eq_of_pairwise (fun a b ha hb hab hba => ?_) hlatest
    (pairwise_newestFirst rows) (hperm.trans (newestFirst_perm rows).symm)
  -- where neither is earlier, both began at one moment
  have hsame : a.startedAt = b.startedAt := Decidable.byContradiction fun hne =>
    (Stamp.lt_or_lt hne).elim hab hba
  exact List.inj_on_of_nodup_map h.apart (hperm.mem_iff.mp ha)
    ((newestFirst_perm rows).mem_iff.mp hb) hsame

/-- Sessions in the order of their texts, the greatest first. -/
def ByTexts (rows : List Session) : Prop :=
  rows.Pairwise fun a b => bytesOf b.startedAt.write ≤ bytesOf a.startedAt.write

/-- The order of the texts is that of the moments where no moment covers another. -/
theorem Timely.eq_of_uncovered (h : Timely rows) (hperm : found.Perm rows)
    (htexts : ByTexts found) (huncovered : Uncovered rows) : found = newestFirst rows := by
  refine h.eq_newestFirst hperm (htexts.imp_of_mem fun {a b} ha hb hle hlt => ?_)
  have ha' := hperm.mem_iff.mp ha
  have hb' := hperm.mem_iff.mp hb
  exact hle ((Stamp.write_lt_write_iff (h.plain a ha') (h.plain b hb') hlt).mpr
    (huncovered a ha' b hb'))

/-- Only there: a moment that covers another has the greater text. -/
theorem Timely.uncovered_of_eq (h : Timely rows) (hperm : found.Perm rows)
    (htexts : ByTexts found) (heq : found = newestFirst rows) : Uncovered rows := by
  intro a ha b hb hcovers
  have hlt := hcovers.lt
  have hnot : ¬bytesOf a.startedAt.write < bytesOf b.startedAt.write := fun hless =>
    (Stamp.write_lt_write_iff (h.plain a ha) (h.plain b hb) hlt).mp hless hcovers
  -- two sessions of the list stand in one order or in the other
  let Behind : Session → Session → Prop := fun x y =>
    ¬x.startedAt.lt y.startedAt = true ∧ bytesOf y.startedAt.write ≤ bytesOf x.startedAt.write
  have hlatest : found.Pairwise fun x y => ¬x.startedAt.lt y.startedAt = true :=
    heq ▸ pairwise_newestFirst rows
  have hbehind : found.Pairwise fun x y => Behind x y ∨ Behind y x :=
    (hlatest.and htexts).imp .inl
  have : Std.Symm fun x y => Behind x y ∨ Behind y x := ⟨fun _ _ => Or.symm⟩
  have hne : a ≠ b := fun hsame => Stamp.lt_asymm hlt (hsame ▸ hlt)
  rcases hbehind.forall (hperm.mem_iff.mpr ha) (hperm.mem_iff.mpr hb) hne with hba | hab
  · exact hba.1 hlt
  · -- neither text is the greater, though the moments differ
    have hsame := Token.bytesOf_inj.mp (List.le_antisymm hab.2 hnot)
    have hstart := (Stamp.write_inj (h.plain a ha) (h.plain b hb)).mp hsame
    exact Stamp.lt_asymm hlt (hstart ▸ hlt)

/-! ## Asking for the latest sessions -/

section

variable {σ : Type} {server : Server σ} {held : σ → String → Multiset Document}
variable {s : σ} {c : Cabinet}

/-- The database replies with the sessions in the order of their texts, as many as were asked
for. -/
theorem latest_run (hsorting : Sorting server held)
    (hkept : sessionTable.Kept rows (held s sessions)) (limit : Int) :
    ∃ found s', ((latest server limit).run s).1 =
        (.ok (found.take (Cabinet.clampLimit limit)), s') ∧
      found.Perm rows ∧ ByTexts found := by
  obtain ⟨docs, s', hserver, -, hfound⟩ := hsorting.find s sessions [] (some ("started_at", -1))
    (some (Cabinet.clampLimit limit)) fun _ h => (List.not_mem_nil h).elim
  obtain ⟨ds, ds', hsplit, hin, hout, hordered, hshown⟩ := hfound.exists_found
  -- the filter asks for nothing, so every session is meant
  let all : Session → Bool := fun _ => true
  have hall : ∀ r ∈ rows, Matches [] (sessionTable.doc r) ↔ all r = true := fun _ _ =>
    iff_of_true (fun _ h => (List.not_mem_nil h).elim) rfl
  obtain ⟨found, hperm, rfl⟩ := hkept.exists_rows hsplit hin hout hall
  rw [List.filter_true] at hperm
  rw [cut_map, List.forall₂_map_left_iff, cut, Int.toNat_natCast] at hshown
  have hread : docs.mapM readSession? =
      some ((found.take (Cabinet.clampLimit limit)).map fun r => r) := by
    refine mapM_shown hshown fun r hr j hj => ?_
    have hstorable := hkept.storable r (hperm.mem_iff.mp (List.mem_of_mem_take hr))
    exact readSession?_shown hstorable.1 hstorable.2 hj
  rw [List.map_id'] at hread
  refine ⟨found, s', findAll_run _ _ hserver hread, hperm, ?_⟩
  have htexts := hordered "started_at" (-1) rfl
  rw [List.pairwise_map] at htexts
  exact htexts.imp fun h => h _ _ (document_startedAt _) (document_startedAt _)

theorem cabinet_latest_eq (hup : c.available = true) (limit : Int) :
    c.latest limit = .ok ((newestFirst c.sessions).take (Cabinet.clampLimit limit)) :=
  if_pos hup

/-- Where no start time covers another, the lists agree for every limit. -/
theorem latest_eq_of_uncovered (hsorting : Sorting server held) (hup : c.available = true)
    (hkept : sessionTable.Kept c.sessions (held s sessions)) (htimely : Timely c.sessions)
    (huncovered : Uncovered c.sessions) (limit : Int) :
    ((latest server limit).run s).1.1 = c.latest limit := by
  obtain ⟨found, s', hrun, hperm, htexts⟩ := latest_run hsorting hkept limit
  rw [hrun, cabinet_latest_eq hup, htimely.eq_of_uncovered hperm htexts huncovered]

/-- Where the limit leaves no session out, they agree only then. -/
theorem uncovered_of_latest_eq (hsorting : Sorting server held) (hup : c.available = true)
    (hkept : sessionTable.Kept c.sessions (held s sessions)) (htimely : Timely c.sessions)
    {limit : Int} (hlimit : c.sessions.length ≤ Cabinet.clampLimit limit)
    (hsame : ((latest server limit).run s).1.1 = c.latest limit) : Uncovered c.sessions := by
  obtain ⟨found, s', hrun, hperm, htexts⟩ := latest_run hsorting hkept limit
  -- nothing is cut off on either side
  have hfound := hperm.length_eq
  have hnewest := (newestFirst_perm c.sessions).length_eq
  rw [hrun, cabinet_latest_eq hup, List.take_of_length_le (by omega),
    List.take_of_length_le (by omega)] at hsame
  exact htimely.uncovered_of_eq hperm htexts (Except.ok.inj hsame)

/-- **Texts of start times sort as the moments, and the two lists of the latest sessions agree, if
and only if no start time covers another.** For two sessions of years with four digits: the text
that the document of the earlier holds is the smaller, byte by byte, exactly if its start time does
not cover the other. And a database that sorts by these texts lists the sessions that it keeps as
the cabinet does: for every limit if no start time covers another, and for a limit that leaves none
out only then. -/
theorem latest_agrees_iff (hsorting : Sorting server held) (hup : c.available = true)
    (hkept : sessionTable.Kept c.sessions (held s sessions)) (htimely : Timely c.sessions) :
    (∀ a b : Session, a.startedAt.Plain → b.startedAt.Plain →
      a.startedAt.lt b.startedAt = true → ∃ t u,
        document a.members "started_at" = some (.text t) ∧
          document b.members "started_at" = some (.text u) ∧
            (bytesOf t < bytesOf u ↔ ¬a.startedAt.Covers b.startedAt)) ∧
      (Uncovered c.sessions → ∀ limit, ((latest server limit).run s).1.1 = c.latest limit) ∧
        ∀ limit, c.sessions.length ≤ Cabinet.clampLimit limit →
          (((latest server limit).run s).1.1 = c.latest limit ↔ Uncovered c.sessions) := by
  refine ⟨fun a b ha hb hlt => ?_, ?_, fun limit hlimit => ?_⟩
  · exact ⟨_, _, document_startedAt a, document_startedAt b, Stamp.write_lt_write_iff ha hb hlt⟩
  · exact latest_eq_of_uncovered hsorting hup hkept htimely
  · exact ⟨uncovered_of_latest_eq hsorting hup hkept htimely hlimit,
      fun h => latest_eq_of_uncovered hsorting hup hkept htimely h limit⟩

end

namespace Close

/-- A session that began on a whole second. -/
def whole : Session := { (default : Session) with id := "s-1", startedAt := ⟨19675, 80000, 0⟩ }

/-- A session that began half a second later. -/
def half : Session :=
  { (default : Session) with id := "s-2", startedAt := ⟨19675, 80000, 500000000⟩ }

/-- A session that began a second later. -/
def next : Session := { (default : Session) with id := "s-3", startedAt := ⟨19675, 80001, 0⟩ }

def cabinet (rows : List Session) : Cabinet := { Cabinet.empty with sessions := rows }

theorem plain : ∀ r ∈ [whole, half, next], r.startedAt.Plain := by decide

theorem storable : ∀ r ∈ [whole, half, next], sessionTable.Storable r := by
  simp only [List.forall_mem_cons, List.not_mem_nil, false_implies, implies_true, and_true]
  exact ⟨⟨⟨by decide, by decide, by decide, by decide, by decide⟩, rfl⟩,
    ⟨⟨by decide, by decide, by decide, by decide, by decide⟩, rfl⟩,
    ⟨by decide, by decide, by decide, by decide, by decide⟩, rfl⟩

theorem timely (rows : List Session) (hrows : rows ⊆ [whole, half, next])
    (happart : (rows.map fun r => r.startedAt).Nodup) : Timely rows :=
  ⟨happart, fun r hr => plain r (hrows hr)⟩

theorem kept (rows : List Session) (hrows : rows ⊆ [whole, half, next])
    (hids : (rows.map fun r => r.id).Nodup) :
    sessionTable.Kept (cabinet rows).sessions (Folders.held (Folders.ofSessions rows) sessions) :=
  Folders.kept_ofSessions hids fun r hr => storable r (hrows hr)

end Close

/-- Sessions a second apart are listed alike, sessions half a second apart are not. -/
theorem latest_agrees_iff_next :
    (∃ t u, document Close.whole.members "started_at" = some (.text t) ∧
        document Close.next.members "started_at" = some (.text u) ∧ bytesOf t < bytesOf u) ∧
      (∀ limit,
        ((latest Folders.answerTexts limit).run (.ofSessions [Close.whole, Close.next])).1.1 =
          (Close.cabinet [Close.whole, Close.next]).latest limit) ∧
      ((latest Folders.answerTexts 10).run (.ofSessions [Close.whole, Close.half])).1.1 ≠
        (Close.cabinet [Close.whole, Close.half]).latest 10 := by
  obtain ⟨htexts, hnext, -⟩ := latest_agrees_iff Folders.sorting rfl
    (Close.kept [Close.whole, Close.next] (by decide) (by decide))
    (Close.timely _ (by decide) (by decide))
  obtain ⟨-, -, hhalf⟩ := latest_agrees_iff Folders.sorting rfl
    (Close.kept [Close.whole, Close.half] (by decide) (by decide))
    (Close.timely _ (by decide) (by decide))
  refine ⟨?_, hnext (by decide), fun hsame => ?_⟩
  · obtain ⟨t, u, ht, hu, hiff⟩ :=
      htexts Close.whole Close.next (by decide) (by decide) (by decide)
    exact ⟨t, u, ht, hu, hiff.mpr (by decide)⟩
  · exact absurd ((hhalf 10 (by decide)).mp hsame) (by decide)

/-- Of two sessions half a second apart the earlier has the greater text, and the database lists it
first. -/
theorem latest_disagrees :
    Close.whole.startedAt.Plain ∧ Close.half.startedAt.Plain ∧
      Close.whole.startedAt.lt Close.half.startedAt = true ∧
      document Close.whole.members "started_at" = some (.text Close.whole.startedAt.write) ∧
      document Close.half.members "started_at" = some (.text Close.half.startedAt.write) ∧
      ¬bytesOf Close.whole.startedAt.write < bytesOf Close.half.startedAt.write ∧
      ((latest Folders.answerTexts 10).run (.ofSessions [Close.whole, Close.half])).1.1 ≠
        (Close.cabinet [Close.whole, Close.half]).latest 10 := by
  have hwhole : Close.whole.startedAt.Plain := by decide
  have hhalf : Close.half.startedAt.Plain := by decide
  have hlt : Close.whole.startedAt.lt Close.half.startedAt = true := by decide
  refine ⟨hwhole, hhalf, hlt, rfl, rfl, ?_, fun hsame => ?_⟩
  · rw [Stamp.write_lt_write_iff hwhole hhalf hlt]
    decide
  · have huncovered := uncovered_of_latest_eq Folders.sorting rfl
      (Close.kept _ (by decide) (by decide)) (Close.timely _ (by decide) (by decide)) (by decide)
      hsame
    exact absurd huncovered (by decide)

end Invigilator.Documents
