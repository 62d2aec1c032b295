import Invigilator.Service.Registry
import Mathlib.Data.List.DropRight
import Mathlib.Data.List.Nodup

/-!
# The archive keeps the newest sessions

An archive is a table of snapshots and a queue of sessions, and filing touches both: the table takes
the snapshot, a session that is not held goes to the end of the queue, and whoever stands at the
front when there is no room leaves table and queue. If the two came apart, a session would leave the
queue and stay in the table for ever, or stand in the queue twice and push another one out.

They stay in step: `Holds` names the sessions that both have. What these are is told by the order of
entry alone (`entered`). A session enters when it is filed while it is not among the last that
entered, so one that has left may enter again; the archive holds the last ones, and shows of each
what was filed for it last (`keeps_newest`).
-/

namespace Invigilator.Archive

/-! ## The table -/

section

variable {id other : String} {snapshot : Snapshot} {entries : List (String × Snapshot)}

theorem mem_place {e : String × Snapshot} (he : e ∈ place id snapshot entries) :
    e = (id, snapshot) ∨ e ∈ entries := by
  induction entries with
  | nil => exact .inl (List.mem_singleton.mp he)
  | cons first rest ih =>
    unfold place at he
    split at he
    · exact (List.mem_cons.mp he).imp_right (List.mem_cons_of_mem first)
    · rcases List.mem_cons.mp he with rfl | hrest
      · exact .inr List.mem_cons_self
      · exact (ih hrest).imp_right (List.mem_cons_of_mem first)

theorem lookup_place_self (id : String) (snapshot : Snapshot)
    (entries : List (String × Snapshot)) :
    (place id snapshot entries).lookup id = some snapshot := by
  induction entries with
  | nil => simp [place]
  | cons e rest ih =>
    rw [place]
    by_cases he : e.1 = id
    · simp [he]
    · rw [if_neg he, List.lookup_cons, beq_false_of_ne (Ne.symm he), ih]

theorem lookup_place_of_ne (snapshot : Snapshot) (entries : List (String × Snapshot))
    (h : other ≠ id) : (place id snapshot entries).lookup other = entries.lookup other := by
  induction entries with
  | nil => rw [place, List.lookup_cons, beq_false_of_ne h]
  | cons e rest ih =>
    rw [place]
    by_cases he : e.1 = id
    · rw [if_pos he, List.lookup_cons, List.lookup_cons, he, beq_false_of_ne h]
    · rw [if_neg he, List.lookup_cons, List.lookup_cons, ih]

/-- A session keeps its place in the table, and a new one gets the last. -/
theorem keys_place (id : String) (snapshot : Snapshot) (entries : List (String × Snapshot)) :
    (place id snapshot entries).map Prod.fst =
      if id ∈ entries.map Prod.fst then entries.map Prod.fst
      else entries.map Prod.fst ++ [id] := by
  induction entries with
  | nil => rfl
  | cons e rest ih =>
    rw [place]
    by_cases he : e.1 = id
    · simp [he]
    · rw [if_neg he, List.map_cons, ih]
      by_cases hrest : id ∈ rest.map Prod.fst <;> simp [hrest, Ne.symm he]

theorem lookup_remove (entries : List (String × Snapshot)) (h : other ≠ id) :
    (remove id entries).lookup other = entries.lookup other := by
  induction entries with
  | nil => rfl
  | cons e rest ih =>
    rw [remove] at ih
    by_cases he : e.1 = id
    · have hne : (other == e.1) = false := beq_false_of_ne fun hsame => h (hsame.trans he)
      rw [remove, List.filter_cons_of_neg (by simp [he]), ih, List.lookup_cons, hne]
    · rw [remove, List.filter_cons_of_pos (by simp [he]), List.lookup_cons, List.lookup_cons, ih]

/-- Where a session is in the table once, nothing but its entry is taken out. -/
theorem remove_cons {e : String × Snapshot} (h : e.1 ∉ entries.map Prod.fst) :
    remove e.1 (e :: entries) = entries := by
  rw [remove, List.filter_cons_of_neg (by simp), List.filter_eq_self]
  intro f hf
  exact bne_iff_ne.mpr fun hsame => h (hsame ▸ List.mem_map_of_mem hf)

end

/-! ## Making room -/

section

variable {capacity : Nat} {order : List String} {entries : List (String × Snapshot)}

theorem rtake_cons_of_lt {x : String} (h : capacity < (x :: order).length) :
    (x :: order).rtake capacity = order.rtake capacity := by
  rw [List.length_cons] at h
  rw [List.rtake, List.rtake, List.length_cons, Nat.succ_sub (Nat.le_of_lt_succ h),
    List.drop_succ_cons]

theorem rtake_of_length_le (h : order.length ≤ capacity) : order.rtake capacity = order := by
  rw [List.rtake, Nat.sub_eq_zero_of_le h, List.drop_zero]

/-- Those that entered last stay in the queue. -/
theorem makeRoom_order (capacity : Nat) (order : List String)
    (entries : List (String × Snapshot)) :
    (makeRoom capacity order entries).1 = order.rtake capacity := by
  induction order generalizing entries with
  | nil => exact (List.rtake_nil capacity).symm
  | cons oldest order ih =>
    rw [makeRoom]
    split
    · rename_i hfull
      rw [ih, rtake_cons_of_lt hfull]
    · rename_i hroom
      exact (rtake_of_length_le (Nat.le_of_not_lt hroom)).symm

/-- Who leaves the queue leaves the table with it, and nobody else does. -/
theorem makeRoom_keys (hkeys : entries.map Prod.fst = order) (hnodup : order.Nodup) :
    (makeRoom capacity order entries).2.map Prod.fst = order.rtake capacity := by
  induction order generalizing entries with
  | nil =>
    rw [makeRoom, hkeys]
    exact (List.rtake_nil capacity).symm
  | cons oldest order ih =>
    rw [makeRoom]
    split
    · rename_i hfull
      obtain ⟨e, rest, rfl, rfl, rfl⟩ := List.map_eq_cons_iff.mp hkeys
      obtain ⟨hnew, hrest⟩ := List.nodup_cons.mp hnodup
      rw [remove_cons hnew, ih rfl hrest, rtake_cons_of_lt hfull]
    · rename_i hroom
      rw [hkeys, rtake_of_length_le (Nat.le_of_not_lt hroom)]

theorem makeRoom_subset (capacity : Nat) (order : List String)
    (entries : List (String × Snapshot)) : (makeRoom capacity order entries).2 ⊆ entries := by
  induction order generalizing entries with
  | nil => exact fun _ he => he
  | cons oldest order ih =>
    rw [makeRoom]
    split
    · exact fun e he => (List.mem_filter.mp (ih _ he)).1
    · exact fun _ he => he

/-- What is shown of those that stay does not change. -/
theorem lookup_makeRoom (hnodup : order.Nodup) {id : String} (hid : id ∈ order.rtake capacity) :
    (makeRoom capacity order entries).2.lookup id = entries.lookup id := by
  induction order generalizing entries with
  | nil => rfl
  | cons oldest order ih =>
    obtain ⟨hnew, hrest⟩ := List.nodup_cons.mp hnodup
    rw [makeRoom]
    split
    · rename_i hfull
      rw [rtake_cons_of_lt hfull] at hid
      have hne : id ≠ oldest := fun hsame => hnew (hsame ▸ List.mem_of_mem_drop hid)
      rw [ih hrest hid, lookup_remove entries hne]
    · rfl

end

/-! ## Table and queue in step -/

/-- The sessions that an archive holds: its queue, and those of its table, each once. -/
structure Holds (a : Archive) (ids : List String) : Prop where
  order : a.order = ids
  keys : a.entries.map Prod.fst = ids
  nodup : ids.Nodup

theorem holds_new (capacity : Nat) : (new capacity).Holds [] := ⟨rfl, rfl, List.nodup_nil⟩

theorem mem_of_find? {a : Archive} {id : String} {s : Snapshot} (h : a.find? id = some s) :
    (id, s) ∈ a.entries := by
  obtain ⟨before, after, hentries, -⟩ := List.lookup_eq_some_iff.mp h
  rw [hentries]
  exact List.mem_append_right _ List.mem_cons_self

theorem notMem_of_find?_eq_none {a : Archive} {id : String} (h : a.find? id = none) :
    id ∉ a.entries.map Prod.fst := by
  intro hmem
  obtain ⟨⟨id, s⟩, he, rfl⟩ := List.mem_map.mp hmem
  have hne := List.lookup_eq_none_iff.mp h (id, s) he
  simp at hne

/-- What is in an archive was put there now, or was there before. -/
theorem mem_insert {a : Archive} {id : String} {snapshot : Snapshot} {e : String × Snapshot}
    (he : e ∈ (a.insert id snapshot).entries) : e = (id, snapshot) ∨ e ∈ a.entries :=
  mem_place (makeRoom_subset _ _ _ he)

namespace Holds

variable {a : Archive} {ids : List String} {id : String}

theorem find?_eq_none_iff (h : a.Holds ids) : a.find? id = none ↔ id ∉ ids := by
  refine ⟨fun hnone => h.keys ▸ notMem_of_find?_eq_none hnone, fun hid => ?_⟩
  rw [← h.keys] at hid
  refine List.lookup_eq_none_iff.mpr fun e he => ?_
  exact bne_iff_ne.mpr fun hsame => hid (hsame ▸ List.mem_map_of_mem he)

/-- The queue behind which room is made. -/
theorem queue_eq (h : a.Holds ids) :
    (if (a.find? id).isNone then a.order ++ [id] else a.order) =
      if id ∈ ids then ids else ids ++ [id] := by
  rw [h.order]
  by_cases hid : id ∈ ids
  · have hsome : ¬(a.find? id).isNone = true := by
      rw [Option.isNone_iff_eq_none, h.find?_eq_none_iff, not_not]
      exact hid
    rw [if_neg hsome, if_pos hid]
  · rw [if_pos (Option.isNone_iff_eq_none.mpr (h.find?_eq_none_iff.mpr hid)), if_neg hid]

theorem nodup_queue (h : a.Holds ids) : (if id ∈ ids then ids else ids ++ [id]).Nodup := by
  split
  · exact h.nodup
  · rename_i hid
    rw [← List.concat_eq_append]
    exact h.nodup.concat hid

/-- **Filing keeps table and queue in step.** -/
theorem insert (h : a.Holds ids) (id : String) (snapshot : Snapshot) :
    (a.insert id snapshot).Holds
      ((if id ∈ ids then ids else ids ++ [id]).rtake a.capacity) where
  order := by rw [Archive.insert, makeRoom_order, h.queue_eq]
  keys := by
    have hkeys : (place id snapshot a.entries).map Prod.fst =
        if id ∈ ids then ids else ids ++ [id] := by rw [keys_place, h.keys]
    rw [Archive.insert, h.queue_eq]
    exact makeRoom_keys hkeys h.nodup_queue
  nodup := h.nodup_queue.sublist (List.drop_sublist _ _)

/-- Of the sessions that are held then, filing changes what is shown of its own. -/
theorem find?_insert (h : a.Holds ids) {other : String} {snapshot : Snapshot}
    (hother : other ∈ (a.insert id snapshot).order) :
    (a.insert id snapshot).find? other = if other = id then some snapshot else a.find? other := by
  rw [(h.insert id snapshot).order] at hother
  rw [find?, Archive.insert, h.queue_eq]
  refine (lookup_makeRoom h.nodup_queue hother).trans ?_
  split
  · rename_i hsame
    exact hsame ▸ lookup_place_self id snapshot a.entries
  · rename_i hne
    exact lookup_place_of_ne snapshot a.entries hne

end Holds

/-! ## The order of entry -/

/-- The last ones of a list do not depend on how many stood in front of them. -/
theorem rtake_concat_rtake (capacity : Nat) (log : List String) (id : String) :
    (log.rtake capacity ++ [id]).rtake capacity = (log ++ [id]).rtake capacity := by
  cases capacity with
  | zero => rw [List.rtake_zero, List.rtake_zero]
  | succ room =>
    rw [List.rtake_concat_succ, List.rtake_concat_succ, List.rtake_eq_reverse_take_reverse,
      List.rtake_eq_reverse_take_reverse, List.rtake_eq_reverse_take_reverse, List.reverse_reverse,
      List.take_take, Nat.min_eq_left (Nat.le_succ room)]

/-- A session enters behind those that have entered, unless it is among the last of them. -/
def enter (capacity : Nat) (log : List String) (id : String) : List String :=
  if id ∈ log.rtake capacity then log else log ++ [id]

/-- The sessions in the order in which they entered, when they are filed one after the other. -/
def entered (capacity : Nat) (ids : List String) : List String := ids.foldl (enter capacity) []

/-- If an archive holds the last that entered, it does so after one more was filed. -/
theorem Holds.enter {a : Archive} {log : List String} (h : a.Holds (log.rtake a.capacity))
    (id : String) (snapshot : Snapshot) :
    (a.insert id snapshot).Holds ((Archive.enter a.capacity log id).rtake a.capacity) := by
  have hinsert := h.insert id snapshot
  rw [Archive.enter]
  split at hinsert
  · rename_i hheld
    rw [if_pos hheld]
    rwa [rtake_of_length_le (by rw [List.rtake, List.length_drop]; omega)] at hinsert
  · rename_i hnew
    rw [if_neg hnew]
    rwa [rtake_concat_rtake] at hinsert

/-- A session that has never entered does so. -/
theorem Holds.concat {a : Archive} {log : List String} (h : a.Holds (log.rtake a.capacity))
    {id : String} (hid : id ∉ log) (snapshot : Snapshot) :
    (a.insert id snapshot).Holds ((log ++ [id]).rtake a.capacity) := by
  have hnew : id ∉ log.rtake a.capacity := fun hmem => hid (List.mem_of_mem_drop hmem)
  have henter := h.enter id snapshot
  rwa [Archive.enter, if_neg hnew] at henter

/-- An archive in which snapshots were filed. -/
def filing (capacity : Nat) (filed : List (String × Snapshot)) : Archive :=
  filed.foldl (fun a e => a.insert e.1 e.2) (new capacity)

theorem filing_concat (capacity : Nat) (filed : List (String × Snapshot))
    (e : String × Snapshot) :
    filing capacity (filed ++ [e]) = (filing capacity filed).insert e.1 e.2 := by
  rw [filing, List.foldl_append]
  rfl

theorem filing_capacity (capacity : Nat) (filed : List (String × Snapshot)) :
    (filing capacity filed).capacity = max capacity 1 := by
  induction filed using List.reverseRecOn with
  | nil => rfl
  | append_singleton filed e ih => rwa [filing_concat]

theorem holds_filing (capacity : Nat) (filed : List (String × Snapshot)) :
    (filing capacity filed).Holds
      ((entered (max capacity 1) (filed.map Prod.fst)).rtake (max capacity 1)) := by
  induction filed using List.reverseRecOn with
  | nil => exact (List.rtake_nil _).symm ▸ holds_new capacity
  | append_singleton filed e ih =>
    rw [← filing_capacity capacity filed] at ih ⊢
    rw [filing_concat, List.map_append, entered, List.foldl_append]
    exact ih.enter e.1 e.2

/-- Of a session that is held, what was filed last is shown. -/
theorem find?_filing (capacity : Nat) (filed : List (String × Snapshot)) {id : String}
    (hid : id ∈ (filing capacity filed).order) :
    (filing capacity filed).find? id = filed.reverse.lookup id := by
  induction filed using List.reverseRecOn with
  | nil => rfl
  | append_singleton filed e ih =>
    have hheld := holds_filing capacity filed
    rw [filing_concat] at hid ⊢
    rw [hheld.find?_insert hid, List.reverse_concat, List.lookup_cons]
    by_cases hsame : id = e.1
    · rw [if_pos hsame, beq_iff_eq.mpr hsame]
    · -- another session that is held now was held before
      rw [if_neg hsame, beq_false_of_ne hsame, ih]
      have hbefore := List.mem_of_mem_drop ((hheld.insert e.1 e.2).order ▸ hid)
      rw [hheld.order]
      split at hbefore
      · exact hbefore
      · exact (List.mem_append.mp hbefore).resolve_right fun h => hsame (List.mem_singleton.mp h)

/-- **The archive keeps exactly the newest sessions.** Whatever is filed in an archive with room for
so many sessions, one at least: its queue has nobody twice and has the sessions of its table, which
has nobody twice either and is not too large. They are the last ones in order of entry, and of each
the archive shows what was filed for it last; of others it shows nothing. Filing one of them leaves
the order as it is, and filing another one, whether it has been there or not, lets it enter. -/
theorem keeps_newest (capacity : Nat) (filed : List (String × Snapshot)) :
    let a := filing capacity filed
    let room := max capacity 1
    a.order.Nodup ∧ (a.entries.map Prod.fst).Nodup ∧
      (∀ id, id ∈ a.order ↔ id ∈ a.entries.map Prod.fst) ∧ a.size ≤ room ∧
      a.order = (entered room (filed.map Prod.fst)).rtake room ∧
      (∀ id, a.find? id = if id ∈ a.order then filed.reverse.lookup id else none) ∧
      ∀ id snapshot, (a.insert id snapshot).find? id = some snapshot ∧
        (a.insert id snapshot).order =
          if id ∈ a.order then a.order else (a.order ++ [id]).rtake room := by
  intro a room
  have hheld : a.Holds ((entered room (filed.map Prod.fst)).rtake room) :=
    holds_filing capacity filed
  have hcapacity : a.capacity = room := filing_capacity capacity filed
  have hroom : a.order.length ≤ room := by
    rw [hheld.order, List.rtake, List.length_drop]
    omega
  refine ⟨hheld.order ▸ hheld.nodup, hheld.keys ▸ hheld.nodup, fun id => ?_, ?_, hheld.order,
    fun id => ?_, fun id snapshot => ?_⟩
  · rw [hheld.order, hheld.keys]
  · rw [size, ← List.length_map Prod.fst, hheld.keys, ← hheld.order]
    exact hroom
  · split
    · rename_i hid
      exact find?_filing capacity filed hid
    · rename_i hid
      exact hheld.find?_eq_none_iff.mpr (hheld.order ▸ hid)
  · -- what has just been filed is in order now, and can be looked up
    have horder : (a.insert id snapshot).order =
        if id ∈ a.order then a.order else (a.order ++ [id]).rtake room := by
      rw [(hheld.insert id snapshot).order, ← hheld.order, hcapacity]
      split
      · exact rtake_of_length_le hroom
      · rfl
    refine ⟨?_, horder⟩
    have hid : id ∈ (a.insert id snapshot).order := by
      rw [horder]
      split
      · assumption
      · -- there is room for one at least
        obtain ⟨others, hothers⟩ : ∃ n, room = n + 1 := ⟨room - 1, by omega⟩
        rw [hothers, List.rtake_concat_succ]
        exact List.mem_append_right _ (List.mem_singleton.mpr rfl)
    rw [hheld.find?_insert hid, if_pos rfl]

end Invigilator.Archive
