import Invigilator.Proofs.Records.Drawer
import Invigilator.Records.Documents
import Mathlib.Data.Multiset.ZeroCons

/-!
# A database that keeps its documents

What is known of the database is what its manual says of three commands. A replacement puts a new
document in the place of one that the filter means, or adds it if there is none; an update sets
the members that it names, and no others, of one that is meant; a search finds all that are meant,
in the order that was asked for and in any if none was. That is `Keeping`, over whatever state the
database has, with `held` for the documents in it.

Documents have no order in a collection, and no order of members, so a collection is a multiset of
functions from names to values. A reply may show members in any order, together with the member
`_id` by which the database knows its documents, and which is no part of them.

`Folders` is such a database in memory.
-/

namespace Invigilator.Documents

/-- What a document has under each name. -/
abbrev Document : Type := String → Option Json

/-- The names of some members differ. -/
def Named (members : List (String × Json)) : Prop := (members.map Prod.fst).Nodup

/-- The document with some members. -/
def document (members : List (String × Json)) : Document := fun name => members.lookup name

/-- Members that are changed by their names are looked up as before. -/
theorem lookup_map {α β : Type} (change : String → α → β) (members : List (String × α))
    (name : String) :
    (members.map fun m => (m.1, change m.1 m.2)).lookup name =
      (members.lookup name).map (change name) := by
  induction members with
  | nil => rfl
  | cons m members ih =>
    rw [List.map_cons, List.lookup_cons, List.lookup_cons, ih]
    cases hname : name == m.1 with
    | false => rfl
    | true => rw [beq_iff_eq.mp hname]; rfl

/-- Where names differ, every member is found under its own. -/
theorem lookup_of_mem {members : List (String × Json)} (h : Named members) {m : String × Json}
    (hm : m ∈ members) : members.lookup m.1 = some m.2 := by
  obtain ⟨before, behind, rfl⟩ := List.append_of_mem hm
  rw [Named, List.map_append, List.map_cons, List.nodup_append] at h
  refine List.lookup_eq_some_iff.mpr ⟨before, behind, rfl, fun m' hm' => bne_iff_ne.mpr ?_⟩
  exact (h.2.2 m'.1 (List.mem_map_of_mem hm') m.1 List.mem_cons_self).symm

namespace Document

/-- The document with some members set, and everything else as it was. -/
def set (d : Document) (members : List (String × Json)) : Document :=
  fun name => (members.lookup name).or (d name)

end Document

/-- The name under which the database keeps what it knows a document by. -/
def ownName : String := "_id"

/-- A value of a reply shows a document. -/
def Shows (d : Document) (j : Json) : Prop :=
  ∃ members, j = .object members ∧ Named members ∧
    ∀ name, name ≠ ownName → members.lookup name = d name

/-- A filter that asks for texts and whole numbers. -/
def Simple (filter : Filter) : Prop :=
  ∀ m ∈ filter, (∃ s, m.2 = .text s) ∨ ∃ n, m.2 = .int n

/-- A document is meant by a filter. -/
def Matches (filter : Filter) (d : Document) : Prop := ∀ m ∈ filter, d m.1 = some m.2

/-- Documents come in the order that was asked for: up or down by a member that is a number. -/
def Ordered (sort : Option (String × Int)) (ds : List Document) : Prop :=
  ∀ name direction, sort = some (name, direction) →
    ds.Pairwise fun a b => ∀ m n : Int, a name = some (.int m) → b name = some (.int n) →
      direction * m ≤ direction * n

/-- No more than so many. -/
def cut {α : Type} (limit : Option Int) (as : List α) : List α :=
  match limit with
  | none => as
  | some n => as.take n.toNat

theorem cut_map {α β : Type} (limit : Option Int) (f : α → β) (as : List α) :
    cut limit (as.map f) = (cut limit as).map f := by
  cases limit with
  | none => rfl
  | some n => exact List.map_take.symm

/-- What a change of a document that is meant does to a collection. -/
inductive Changed (filter : Filter) (change : Document → Document) (otherwise : Multiset Document) :
    Multiset Document → Multiset Document → Prop where
  | one {d : Document} {rest : Multiset Document} (meant : Matches filter d) :
      Changed filter change otherwise (d ::ₘ rest) (change d ::ₘ rest)
  | none {before : Multiset Document} (unmeant : ∀ d ∈ before, ¬Matches filter d) :
      Changed filter change otherwise before otherwise

/-- To set nothing is to change nothing. -/
theorem changed_set_nil (filter : Filter) (collection : Multiset Document) :
    Changed filter (fun d => d.set []) collection collection collection := by
  by_cases hmeant : ∃ d ∈ collection, Matches filter d
  · obtain ⟨d, hd, hmeant⟩ := hmeant
    obtain ⟨rest, rfl⟩ := Multiset.exists_cons_of_mem hd
    exact .one hmeant
  · exact .none fun d hd hmatches => hmeant ⟨d, hd, hmatches⟩

/-- What a search finds in a collection. -/
structure Found (filter : Filter) (sort : Option (String × Int)) (limit : Option Int)
    (collection : Multiset Document) (docs : List Json) : Prop where
  exists_found : ∃ found rest : List Document, collection = found ++ rest ∧
    (∀ d ∈ found, Matches filter d) ∧ (∀ d ∈ rest, ¬Matches filter d) ∧ Ordered sort found ∧
      List.Forall₂ Shows (cut limit found) docs

/-- A database that keeps its documents. -/
structure Keeping {σ : Type} (server : Server σ) (held : σ → String → Multiset Document) :
    Prop where
  /-- A replacement takes the place of a document that is meant, or is added. -/
  replace : ∀ s collection filter members, Simple filter → Named members →
    ∃ n s' after, server (.update collection filter (.replace members) true) s = (.modified n, s') ∧
      0 ≤ n ∧ held s' = Function.update (held s) collection after ∧
      Changed filter (fun _ => document members) (document members ::ₘ held s collection)
        (held s collection) after
  /-- An update sets the members that it names of a document that is meant. -/
  set : ∀ s collection filter members, Simple filter → Named members →
    ∃ n s' after, server (.update collection filter (.set members) false) s = (.modified n, s') ∧
      0 ≤ n ∧ held s' = Function.update (held s) collection after ∧
      Changed filter (fun d => d.set members) (held s collection) (held s collection) after
  /-- A search finds what is meant. -/
  find : ∀ s collection filter sort limit, Simple filter →
    ∃ docs s', server (.find collection filter sort limit) s = (.documents docs, s') ∧
      held s' = held s ∧ Found filter sort limit (held s collection) docs

/-! ## Such a database in memory -/

/-- A document in memory. -/
structure Leaf where
  members : List (String × Json)
  named : Named members

/-- The collections of a database in memory. -/
abbrev Folders : Type := String → List Leaf

namespace Folders

/-- The documents of a collection. -/
def held (s : Folders) (collection : String) : Multiset Document :=
  (s collection).map fun leaf => document leaf.members

/-- Two values are the same text or the same whole number. -/
def sameScalar : Json → Json → Bool
  | .text s, .text t => s == t
  | .int m, .int n => m == n
  | _, _ => false

/-- A document in memory is meant by a filter. -/
def isMeant (filter : Filter) (leaf : Leaf) : Bool :=
  filter.all fun m => (leaf.members.lookup m.1).any (sameScalar m.2)

theorem sameScalar_iff {a b : Json} (ha : (∃ s, a = .text s) ∨ ∃ n, a = .int n) :
    sameScalar a b = true ↔ b = a := by
  rcases ha with ⟨s, rfl⟩ | ⟨n, rfl⟩
  · cases b with
    | text t => rw [sameScalar, beq_iff_eq, Json.text.injEq, eq_comm]
    | _ => exact iff_of_false Bool.false_ne_true nofun
  · cases b with
    | int m => rw [sameScalar, beq_iff_eq, Json.int.injEq, eq_comm]
    | _ => exact iff_of_false Bool.false_ne_true nofun

theorem isMeant_iff {filter : Filter} (hfilter : Simple filter) {leaf : Leaf} :
    isMeant filter leaf = true ↔ Matches filter (document leaf.members) := by
  rw [isMeant, List.all_eq_true]
  refine forall₂_congr fun m hm => ?_
  rw [Option.any_eq_true]
  constructor
  · rintro ⟨j, hj, hsame⟩
    rw [document, hj, (sameScalar_iff (hfilter m hm)).mp hsame]
  · intro hj
    exact ⟨m.2, hj, (sameScalar_iff (hfilter m hm)).mpr rfl⟩

/-- Some members with others set: in their places if they are there, behind the rest if not. -/
def merged (members new : List (String × Json)) : List (String × Json) :=
  members.map (fun m => (m.1, (new.lookup m.1).getD m.2)) ++
    new.filter fun m => (members.lookup m.1).isNone

theorem lookup_merged (members new : List (String × Json)) (name : String) :
    (merged members new).lookup name = (new.lookup name).or (members.lookup name) := by
  -- members that are there already are left out of the ones to be added
  have hnew : ∀ ms : List (String × Json),
      (ms.filter fun m => (members.lookup m.1).isNone).lookup name =
        if (members.lookup name).isNone then ms.lookup name else none := by
    intro ms
    induction ms with
    | nil => simp
    | cons m ms ih =>
      by_cases hm : (members.lookup m.1).isNone = true
      · rw [List.filter_cons, if_pos hm, List.lookup_cons, List.lookup_cons, ih]
        cases hname : name == m.1 with
        | false => rfl
        | true => rw [beq_iff_eq.mp hname]; exact (if_pos hm).symm
      · rw [List.filter_cons, if_neg hm, List.lookup_cons, ih]
        cases hname : name == m.1 with
        | false => rfl
        | true => rw [beq_iff_eq.mp hname, if_neg hm, if_neg hm]
  rw [merged, List.lookup_append, lookup_map (fun n j => (new.lookup n).getD j), hnew]
  cases members.lookup name <;> cases new.lookup name <;> rfl

theorem named_merged {members new : List (String × Json)} (hmembers : Named members)
    (hnew : Named new) : Named (merged members new) := by
  have hold : (members.map fun m => (m.1, (new.lookup m.1).getD m.2)).map Prod.fst =
      members.map Prod.fst := by
    rw [List.map_map]
    rfl
  rw [Named, merged, List.map_append, hold, List.nodup_append]
  refine ⟨hmembers, hnew.sublist (List.filter_sublist.map _), ?_⟩
  rintro a ha b hb rfl
  -- a name that is added is one that was not there
  obtain ⟨m, hm, rfl⟩ := List.mem_map.mp hb
  have hnone := (List.mem_filter.mp hm).2
  rw [Option.isNone_iff_eq_none, List.lookup_eq_none_iff] at hnone
  obtain ⟨m', hm', hname⟩ := List.mem_map.mp ha
  have hne := hnone m' hm'
  rw [hname] at hne
  exact absurd hne (by simp)

/-- The number under a name, for sorting. -/
def numberAt (name : String) (leaf : Leaf) : Int :=
  match leaf.members.lookup name with
  | some (.int n) => n
  | _ => 0

/-- Documents in the order that is asked for. -/
def sorted (sort : Option (String × Int)) (leaves : List Leaf) : List Leaf :=
  match sort with
  | none => leaves
  | some (name, direction) =>
    leaves.mergeSort fun a b => direction * numberAt name a ≤ direction * numberAt name b

/-- A document that is meant is changed; where there is none, another list takes over. -/
def exchange (filter : Filter) (change : Leaf → Leaf) (otherwise : List Leaf)
    (leaves : List Leaf) : List Leaf :=
  if leaves.any (isMeant filter) then Cabinet.updateFirst (isMeant filter) change leaves
  else otherwise

/-- A document with some members set, if their names differ. -/
def setLeaf (members : List (String × Json)) (leaf : Leaf) : Leaf :=
  if h : (members.map Prod.fst).Nodup then ⟨merged leaf.members members, named_merged leaf.named h⟩
  else leaf

/-- What the database does with a command. Members whose names do not differ are refused. -/
def answer : Server Folders
  | .find collection filter sort limit, s =>
    (.documents ((cut limit (sorted sort ((s collection).filter (isMeant filter)))).map
      fun leaf => .object leaf.members), s)
  | .update collection filter (.replace members) upsert, s =>
    if h : (members.map Prod.fst).Nodup then
      let leaf : Leaf := ⟨members, h⟩
      let leaves := s collection
      (.modified (if leaves.any (isMeant filter) then 1 else 0),
        Function.update s collection
          (exchange filter (fun _ => leaf) (if upsert then leaves ++ [leaf] else leaves) leaves))
    else (.refused "names repeat", s)
  | .update collection filter (.set members) _, s =>
    (.modified (if (s collection).any (isMeant filter) then 1 else 0),
      Function.update s collection
        (exchange filter (setLeaf members) (s collection) (s collection)))
  | .ping, s => (.done, s)

theorem held_update (s : Folders) (collection : String) (leaves : List Leaf) :
    held (Function.update s collection leaves) =
      Function.update (held s) collection
        ((leaves.map fun leaf => document leaf.members : List Document) : Multiset Document) := by
  funext c
  by_cases hc : c = collection
  · subst hc
    rw [held, Function.update_self, Function.update_self]
  · rw [held, Function.update_of_ne hc, Function.update_of_ne hc, held]

/-- One document among others, taken out of their order. -/
theorem coe_middle (before behind : List Leaf) (leaf : Leaf) :
    (((before ++ leaf :: behind).map fun leaf => document leaf.members : List Document) :
        Multiset Document) =
      document leaf.members ::ₘ
        ((before ++ behind).map fun leaf => document leaf.members : List Document) := by
  rw [Multiset.cons_coe, Multiset.coe_eq_coe]
  exact List.perm_middle.map fun leaf : Leaf => document leaf.members

/-- An exchange in memory is a change of the collection. -/
theorem changed_exchange {filter : Filter} (hfilter : Simple filter) {change : Leaf → Leaf}
    {change' : Document → Document} (otherwise leaves : List Leaf)
    (hchange : ∀ leaf, document (change leaf).members = change' (document leaf.members)) :
    Changed filter change'
      ((otherwise.map fun leaf => document leaf.members : List Document) : Multiset Document)
      ((leaves.map fun leaf => document leaf.members : List Document) : Multiset Document)
      (((exchange filter change otherwise leaves).map fun leaf => document leaf.members :
        List Document) : Multiset Document) := by
  rw [exchange]
  by_cases hany : leaves.any (isMeant filter) = true
  · obtain ⟨before, leaf, behind, rfl, hmeant, hupdate⟩ := Cabinet.exists_updateFirst change hany
    rw [if_pos hany, hupdate, coe_middle, coe_middle, hchange]
    exact .one ((isMeant_iff hfilter).mp hmeant)
  · rw [if_neg hany]
    refine .none fun d hd => ?_
    obtain ⟨leaf, hleaf, rfl⟩ := List.mem_map.mp (Multiset.mem_coe.mp hd)
    rw [← isMeant_iff hfilter]
    intro hmeant
    exact hany (List.any_eq_true.mpr ⟨leaf, hleaf, hmeant⟩)

theorem document_set {members : List (String × Json)} (hmembers : Named members) (leaf : Leaf) :
    document (setLeaf members leaf).members = (document leaf.members).set members := by
  have hset : (setLeaf members leaf).members = merged leaf.members members :=
    congrArg Leaf.members (dif_pos hmembers)
  rw [hset]
  exact funext fun name => lookup_merged leaf.members members name

/-- Sorting orders the documents and leaves them what they are. -/
theorem ordered_sorted (sort : Option (String × Int)) (leaves : List Leaf) :
    Ordered sort ((sorted sort leaves).map fun leaf => document leaf.members) := by
  rintro name direction rfl
  have hsorted : (sorted (some (name, direction)) leaves).Pairwise fun a b =>
      decide (direction * numberAt name a ≤ direction * numberAt name b) = true :=
    List.pairwise_mergeSort (fun a b c hab hbc => by
      rw [decide_eq_true_iff] at hab hbc ⊢
      exact Int.le_trans hab hbc) (fun a b => by
      rw [Bool.or_eq_true, decide_eq_true_iff, decide_eq_true_iff]
      exact Int.le_total _ _) leaves
  rw [List.pairwise_map]
  refine hsorted.imp fun {a b} hab m n hm hn => ?_
  rw [decide_eq_true_iff, numberAt, numberAt] at hab
  rw [document] at hm hn
  rwa [hm, hn] at hab

theorem sorted_perm (sort : Option (String × Int)) (leaves : List Leaf) :
    (sorted sort leaves).Perm leaves := by
  cases sort with
  | none => exact .refl _
  | some s => exact List.mergeSort_perm _ _

theorem shows_leaf (leaf : Leaf) : Shows (document leaf.members) (.object leaf.members) :=
  ⟨leaf.members, rfl, leaf.named, fun _ _ => rfl⟩

/-- The leaves that are meant, in any order, and the others make up the collection. -/
theorem split_leaves {filter : Filter} (hfilter : Simple filter) (leaves : List Leaf)
    {meant : List Leaf} (hperm : meant.Perm (leaves.filter (isMeant filter))) :
    ((leaves.map fun leaf => document leaf.members : List Document) : Multiset Document) =
        ((meant.map fun leaf => document leaf.members) ++
          (leaves.filter fun leaf => !isMeant filter leaf).map fun leaf => document leaf.members :
          List Document) ∧
      (∀ d ∈ meant.map fun leaf => document leaf.members, Matches filter d) ∧
        ∀ d ∈ (leaves.filter fun leaf => !isMeant filter leaf).map fun leaf =>
          document leaf.members, ¬Matches filter d := by
  -- what is meant and what is not are all there is, in another order
  refine ⟨?_, ?_, ?_⟩
  · rw [Multiset.coe_eq_coe, ← List.map_append]
    refine List.Perm.map _ ?_
    exact ((List.filter_append_perm (isMeant filter) leaves).symm).trans
      (hperm.symm.append_right _)
  · intro d hd
    obtain ⟨leaf, hleaf, rfl⟩ := List.mem_map.mp hd
    exact (isMeant_iff hfilter).mp (List.mem_filter.mp (hperm.mem_iff.mp hleaf)).2
  · intro d hd
    obtain ⟨leaf, hleaf, rfl⟩ := List.mem_map.mp hd
    have hnot := (List.mem_filter.mp hleaf).2
    rw [← isMeant_iff hfilter]
    intro hmeant
    rw [hmeant] at hnot
    cases hnot

/-- What is replied shows the leaves. -/
theorem forall₂_shows (limit : Option Int) (leaves : List Leaf) :
    List.Forall₂ Shows (cut limit (leaves.map fun leaf => document leaf.members))
      ((cut limit leaves).map fun leaf => .object leaf.members) := by
  rw [cut_map, List.forall₂_map_left_iff, List.forall₂_map_right_iff, List.forall₂_same]
  exact fun leaf _ => shows_leaf leaf

/-- **The database in memory keeps its documents.** -/
theorem keeping : Keeping answer held where
  replace s collection filter members hfilter hmembers := by
    refine ⟨_, _, _, dif_pos hmembers, ?_, held_update s collection _, ?_⟩
    · split <;> decide
    · have hadded : document members ::ₘ held s collection =
          (((s collection ++ [(⟨members, hmembers⟩ : Leaf)]).map fun leaf => document leaf.members :
            List Document) : Multiset Document) := by
        rw [coe_middle, List.append_nil]
        rfl
      rw [hadded]
      exact changed_exchange hfilter _ (s collection) fun _ => rfl
  set s collection filter members hfilter hmembers := by
    refine ⟨_, _, _, rfl, ?_, held_update s collection _, ?_⟩
    · split <;> decide
    · exact changed_exchange hfilter _ (s collection) fun leaf => document_set hmembers leaf
  find s collection filter sort limit hfilter := by
    obtain ⟨hsplit, hin, hout⟩ := split_leaves hfilter (s collection) (sorted_perm sort _)
    refine ⟨_, s, rfl, rfl, ⟨_, _, hsplit, hin, hout, ordered_sorted sort _, ?_⟩⟩
    exact forall₂_shows limit _

end Folders

end Invigilator.Documents
