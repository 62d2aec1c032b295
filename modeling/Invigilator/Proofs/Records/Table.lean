import Invigilator.Proofs.Records.Database
import Mathlib.Data.Multiset.MapFold

/-!
# Tables

A list of records in memory and a collection of documents may keep the same table: the documents
are those of the records, no two records have the same key, and a filter made from a key means the
records with that key. That is `Kept`. A record that is put takes the place of the one with its
key on either side, a change reaches the same record on either side, and a search finds the
documents of the records that are asked for, whatever order they come in.
-/

namespace Invigilator.Documents

open Cabinet (updateFirst)

/-- The form of a table: what is written of a record, and how it is found. -/
structure Table (α κ : Type) where
  members : α → List (String × Json)
  key : α → κ
  filter : κ → Filter
  /-- Records whose numbers a document can hold. -/
  Storable : α → Prop
  named : ∀ a, Named (members a)
  fits : ∀ a, Storable a → membersFit (members a) = true
  simple : ∀ k, Simple (filter k)
  matches_iff : ∀ a b, Storable a → Storable b →
    (Matches (filter (key b)) (document (members a)) ↔ key a = key b)

namespace Table

variable {α κ : Type} (t : Table α κ)

/-- The document of a record. -/
def doc (a : α) : Document := document (t.members a)

/-- The collection of some records. -/
def docs (rows : List α) : Multiset Document :=
  ((rows.map t.doc : List Document) : Multiset Document)

/-- A collection keeps some records. -/
structure Kept (rows : List α) (collection : Multiset Document) : Prop where
  docs_eq : collection = t.docs rows
  nodup : (rows.map t.key).Nodup
  storable : ∀ a ∈ rows, t.Storable a

variable {t}

theorem docs_middle (before behind : List α) (a : α) :
    t.docs (before ++ a :: behind) = t.doc a ::ₘ t.docs (before ++ behind) := by
  rw [docs, docs, Multiset.cons_coe, Multiset.coe_eq_coe]
  exact List.perm_middle.map t.doc

theorem kept_nil : t.Kept [] 0 := ⟨rfl, List.nodup_nil, fun _ ha => (List.not_mem_nil ha).elim⟩

namespace Kept

variable {rows : List α} {collection : Multiset Document} {k : κ}

/-- The order of the records is of no account. -/
theorem perm (h : t.Kept rows collection) {rows' : List α} (hperm : rows.Perm rows') :
    t.Kept rows' collection where
  docs_eq := by
    rw [h.docs_eq, docs, docs, Multiset.coe_eq_coe]
    exact hperm.map t.doc
  nodup := (hperm.map t.key).nodup_iff.mp h.nodup
  storable a ha := h.storable a (hperm.mem_iff.mpr ha)

/-- Where one record has a key, the others have not. -/
theorem key_ne {before behind : List α} {a : α}
    (h : ((before ++ a :: behind).map t.key).Nodup) :
    ∀ b ∈ before ++ behind, t.key b ≠ t.key a := by
  rw [List.map_append, List.map_cons, List.nodup_middle, ← List.map_append] at h
  intro b hb heq
  exact (List.nodup_cons.mp h).1 (heq ▸ List.mem_map_of_mem hb)

/-- All records but the one with a key. -/
theorem filter_others {before behind : List α} {a : α}
    (h : ((before ++ a :: behind).map t.key).Nodup) {keeps : α → Bool}
    (hkeeps : ∀ b, keeps b = true ↔ t.key b ≠ t.key a) :
    (before ++ a :: behind).filter keeps = before ++ behind := by
  have ha : ¬keeps a = true := fun hk => (hkeeps a).mp hk rfl
  rw [List.filter_append, List.filter_cons_of_neg ha, ← List.filter_append, List.filter_eq_self]
  exact fun b hb => (hkeeps b).mpr (key_ne h b hb)

/-- A document that is meant is that of the one record with the key. -/
theorem exists_meant (h : t.Kept rows collection) (hk : ∃ b, t.Storable b ∧ t.key b = k)
    {d : Document} {rest : Multiset Document} (hd : collection = d ::ₘ rest)
    (hmeant : Matches (t.filter k) d) :
    ∃ before a behind, rows = before ++ a :: behind ∧ t.key a = k ∧ d = t.doc a ∧
      rest = t.docs (before ++ behind) := by
  have hmem : d ∈ t.docs rows := by
    rw [← h.docs_eq, hd]
    exact Multiset.mem_cons_self d rest
  obtain ⟨a, ha, rfl⟩ := List.mem_map.mp (Multiset.mem_coe.mp hmem)
  obtain ⟨b, hb, rfl⟩ := hk
  obtain ⟨before, behind, rfl⟩ := List.append_of_mem ha
  refine ⟨before, a, behind, rfl, (t.matches_iff a b (h.storable a ha) hb).mp hmeant, rfl, ?_⟩
  rw [h.docs_eq, docs_middle, Multiset.cons_inj_right] at hd
  exact hd.symm

/-- **A record that is put takes the place of the one with its key.** -/
theorem put (h : t.Kept rows collection) {x : α} (hx : t.Storable x) {keeps : α → Bool}
    (hkeeps : ∀ a, keeps a = true ↔ t.key a ≠ t.key x) {after : Multiset Document}
    (hchanged : Changed (t.filter (t.key x)) (fun _ => t.doc x) (t.doc x ::ₘ collection)
      collection after) :
    t.Kept (rows.filter keeps ++ [x]) after where
  docs_eq := by
    rw [docs_middle, List.append_nil]
    generalize hc : collection = c at hchanged
    cases hchanged with
    | one hmeant =>
      obtain ⟨before, a, behind, rfl, hkey, rfl, rfl⟩ := h.exists_meant ⟨x, hx, rfl⟩ hc hmeant
      rw [filter_others h.nodup fun b => hkey ▸ hkeeps b]
    | none hunmeant =>
      -- nothing makes room, since the key is new
      have hfilter : rows.filter keeps = rows := by
        refine List.filter_eq_self.mpr fun a ha => (hkeeps a).mpr fun hkey => ?_
        refine hunmeant (t.doc a) ?_ ((t.matches_iff a x (h.storable a ha) hx).mpr hkey)
        rw [← hc, h.docs_eq]
        exact Multiset.mem_coe.mpr (List.mem_map_of_mem ha)
      rw [hfilter, ← hc, h.docs_eq]
  nodup := by
    rw [List.map_append, List.map_singleton, List.nodup_append]
    refine ⟨h.nodup.sublist (List.filter_sublist.map t.key), List.nodup_singleton _, ?_⟩
    intro k hk k' hk' heq
    obtain ⟨a, ha, rfl⟩ := List.mem_map.mp hk
    rw [List.mem_singleton.mp hk'] at heq
    exact (hkeeps a).mp (List.mem_filter.mp ha).2 heq
  storable := by
    intro a ha
    rcases List.mem_append.mp ha with ha | ha
    · exact h.storable a (List.mem_filter.mp ha).1
    · rw [List.mem_singleton.mp ha]
      exact hx

/-- **A change reaches the record with the key,** which is there. -/
theorem change (h : t.Kept rows collection) (hk : ∃ b ∈ rows, t.key b = k) {picks : α → Bool}
    (hpicks : ∀ a, picks a = true ↔ t.key a = k) {change : α → α}
    {new : List (String × Json)} (hkey : ∀ a, t.key (change a) = t.key a)
    (hdoc : ∀ a, (t.doc a).set new = t.doc (change a))
    (hstorable : ∀ a, t.Storable a → t.Storable (change a)) {after : Multiset Document}
    (hchanged : Changed (t.filter k) (fun d => d.set new) collection collection after) :
    t.Kept (updateFirst picks change rows) after := by
  obtain ⟨b, hb, hbk⟩ := hk
  have hany : rows.any picks = true := List.any_eq_true.mpr ⟨b, hb, (hpicks b).mpr hbk⟩
  obtain ⟨before, a, behind, rfl, ha, hupdate⟩ := Cabinet.exists_updateFirst change hany
  rw [hpicks] at ha
  rw [hupdate]
  refine ⟨?_, ?_, ?_⟩
  · rw [docs_middle]
    generalize hc : collection = c at hchanged
    cases hchanged with
    | one hmeant =>
      obtain ⟨before', a', behind', hrows, ha', rfl, rfl⟩ :=
        h.exists_meant ⟨b, h.storable b hb, hbk⟩ hc hmeant
      -- keys tell records apart, so the document that is meant is that of the record
      have hmem' : a' ∈ before ++ a :: behind := hrows ▸ List.mem_append_right _ List.mem_cons_self
      obtain rfl : a' = a := List.inj_on_of_nodup_map h.nodup hmem'
        (List.mem_append_right _ List.mem_cons_self) (ha'.trans ha.symm)
      rw [h.docs_eq, docs_middle, Multiset.cons_inj_right] at hc
      rw [hdoc, hc]
    | none hunmeant =>
      have hmem : t.doc b ∈ collection := by
        rw [h.docs_eq]
        exact Multiset.mem_coe.mpr (List.mem_map_of_mem hb)
      rw [hc] at hmem
      have hmeant := (t.matches_iff b b (h.storable b hb) (h.storable b hb)).mpr rfl
      exact absurd (hbk ▸ hmeant) (hunmeant (t.doc b) hmem)
  · have hnodup := h.nodup
    rw [List.map_append, List.map_cons] at hnodup ⊢
    rwa [hkey]
  · intro c hc
    rw [List.mem_append, List.mem_cons] at hc
    rcases hc with hc | rfl | hc
    · exact h.storable c (List.mem_append_left _ hc)
    · exact hstorable a (h.storable a (List.mem_append_right _ List.mem_cons_self))
    · exact h.storable c (List.mem_append_right _ (List.mem_cons_of_mem a hc))

/-- No more than one record has a key. -/
theorem filter_eq (h : t.Kept rows collection) {mine : α → Bool}
    (hmine : ∀ a, mine a = true ↔ t.key a = k) : rows.filter mine = (rows.find? mine).toList := by
  cases hfind : rows.find? mine with
  | none =>
    rw [List.find?_eq_none] at hfind
    exact List.filter_eq_nil_iff.mpr hfind
  | some a =>
    obtain ⟨ha, before, behind, rfl, hbefore⟩ := List.find?_eq_some_iff_append.mp hfind
    have hothers : ∀ b ∈ before ++ behind, ¬mine b = true := by
      intro b hb hmeant
      exact key_ne h.nodup b hb (((hmine b).mp hmeant).trans ((hmine a).mp ha).symm)
    rw [List.filter_append, List.filter_cons_of_pos ha,
      List.filter_eq_nil_iff.mpr fun b hb => hothers b (List.mem_append_left behind hb),
      List.filter_eq_nil_iff.mpr fun b hb => hothers b (List.mem_append_right before hb)]
    rfl

/-- No two documents have the same key. -/
theorem nodup_map (h : t.Kept rows collection) {β : Type} {read : Document → β}
    (hread : ∀ a b, read (t.doc a) = read (t.doc b) → t.key a = t.key b) :
    (collection.map read).Nodup := by
  rw [h.docs_eq, docs, Multiset.map_coe, Multiset.coe_nodup, List.map_map, List.Nodup,
    List.pairwise_map]
  exact (List.pairwise_map.mp h.nodup).imp fun hne heq => hne (hread _ _ heq)

/-- **Where the documents that are meant are told from the others, they are those of the records
that are asked for,** in some order. -/
theorem exists_rows (h : t.Kept rows collection) {filter : Filter} {ds ds' : List Document}
    (hsplit : collection = ds ++ ds') (hin : ∀ d ∈ ds, Matches filter d)
    (hout : ∀ d ∈ ds', ¬Matches filter d) {mine : α → Bool}
    (hmine : ∀ a ∈ rows, Matches filter (t.doc a) ↔ mine a = true) :
    ∃ found : List α, found.Perm (rows.filter mine) ∧ found.map t.doc = ds := by
  rw [h.docs_eq, docs, Multiset.coe_eq_coe] at hsplit
  -- the documents in the order of the search are those of the records in some order
  let IsDoc : Document → α → Prop := fun d a => d = t.doc a
  have hsame : List.Forall₂ IsDoc (rows.map t.doc) rows :=
    List.forall₂_map_left_iff.mpr (List.forall₂_same.mpr fun a _ => (rfl : t.doc a = t.doc a))
  obtain ⟨rows', hall, hperm⟩ := List.perm_comp_forall₂ hsplit.symm hsame
  have hdocs : rows'.map t.doc = ds ++ ds' := by
    rw [← List.forall₂_map_right_iff, List.forall₂_eq_eq_eq] at hall
    exact hall.symm
  obtain ⟨found, rest, rfl, rfl, rfl⟩ := List.map_eq_append_iff.mp hdocs
  have hmem : ∀ a ∈ found ++ rest, a ∈ rows := fun a ha => hperm.mem_iff.mp ha
  refine ⟨found, ?_, rfl⟩
  have hfound' : found.filter mine = found := List.filter_eq_self.mpr fun a ha =>
    (hmine a (hmem a (List.mem_append_left rest ha))).mp (hin _ (List.mem_map_of_mem ha))
  have hrest : rest.filter mine = [] := List.filter_eq_nil_iff.mpr fun a ha hmeant =>
    hout _ (List.mem_map_of_mem ha)
      ((hmine a (hmem a (List.mem_append_right found ha))).mpr hmeant)
  have hfilter := hperm.filter mine
  rwa [List.filter_append, hfound', hrest, List.append_nil] at hfilter

/-- **A search finds the documents of the records that are asked for,** in some order. -/
theorem find (h : t.Kept rows collection) {filter : Filter} {sort : Option (String × Int)}
    {limit : Option Int} {js : List Json} (hfound : Found filter sort limit collection js)
    {mine : α → Bool}
    (hmine : ∀ a ∈ rows, Matches filter (t.doc a) ↔ mine a = true) :
    ∃ found : List α, found.Perm (rows.filter mine) ∧ Ordered sort (found.map t.doc) ∧
      List.Forall₂ (fun a j => Shows (t.doc a) j) (cut limit found) js := by
  obtain ⟨ds, ds', hsplit, hin, hout, hordered, hshown⟩ := hfound.exists_found
  obtain ⟨found, hperm, rfl⟩ := h.exists_rows hsplit hin hout hmine
  rw [cut_map, List.forall₂_map_left_iff] at hshown
  exact ⟨found, hperm, hordered, hshown⟩

end Kept

end Table

end Invigilator.Documents
