import Invigilator.Proofs.Records.Listing
import Mathlib.Data.List.Dedup

/-!
# The newest sessions on record

The cabinet lists the sessions that it has in the order of their start times and cuts the list off.
What it has is owed to the writes: a session may be created more than once and changed in between,
and a change of a session that was never created is refused. So it is told here by the places of the
cabinet what there is to list (`mem_sessions_iff`, `length_sessions`), and then that the cut leaves
the newest of it (`newest_take`).
-/

namespace Invigilator

namespace RecordWrite

/-- The id that a session is created under. -/
def createdId? : RecordWrite → Option String
  | createSession s => some s.id
  | createAnswer .. => none
  | updateSession .. => none
  | updateAnswer .. => none
  | recordViolation _ => none
  | blockUser .. => none

/-- Only the creation of a session puts something in its place. -/
theorem onSession_ne_put_iff {id : String} {w : RecordWrite} :
    (∀ s, w.onSession id ≠ .put s) ↔ w.createdId? ≠ some id := by
  cases w with
  | createSession s =>
    rw [onSession, createdId?, Ne, Option.some_inj]
    split <;> simp_all
  | updateSession id' p =>
    rw [onSession, createdId?]
    split <;> simp
  | createAnswer _ _ => simp [onSession, createdId?]
  | updateAnswer _ _ _ => simp [onSession, createdId?]
  | recordViolation _ => simp [onSession, createdId?]
  | blockUser _ _ => simp [onSession, createdId?]

end RecordWrite

namespace Records

/-- A session as some writes have left it: created under its id, with every change since. -/
def Stored (ws : List RecordWrite) (s : Session) : Prop := (Drawer.session s.id).drawn [] ws = [s]

/-- The ids that sessions are created under, each once. -/
def createdIds (ws : List RecordWrite) : List String := (ws.filterMap RecordWrite.createdId?).dedup

/-- A list of the newest sessions that some writes have left, up to a number of them. -/
structure Newest (ws : List RecordWrite) (most : Nat) (l : List Session) : Prop where
  length_eq : l.length = min most (createdIds ws).length
  nodup : (l.map Session.id).Nodup
  latestFirst : l.Pairwise fun a b => ¬a.startedAt.lt b.startedAt = true
  stored : ∀ s ∈ l, Stored ws s
  newest : ∀ s ∈ l, ∀ t, Stored ws t → t ∉ l → ¬s.startedAt.lt t.startedAt = true

variable {ws : List RecordWrite}

/-! ## What is on record -/

/-- What the cabinet has under an id. -/
theorem sessions_filter (ws : List RecordWrite) (id : String) :
    (settled ws).cabinet.sessions.filter (fun s => s.id == id) =
      (Drawer.session id).drawn [] ws := (Drawer.session id).held_settled ws

theorem length_drawn_session_le (ws : List RecordWrite) (id : String) :
    ((Drawer.session id).drawn [] ws).length ≤ 1 :=
  (Drawer.session id).length_drawn_le (l := []) (Nat.zero_le 1) ws

/-- **The cabinet has the sessions that the writes have left,** and no others. -/
theorem mem_sessions_iff {s : Session} : s ∈ (settled ws).cabinet.sessions ↔ Stored ws s := by
  have hmem : s ∈ (settled ws).cabinet.sessions ↔ s ∈ (Drawer.session s.id).drawn [] ws := by
    rw [← sessions_filter, List.mem_filter]
    exact (and_iff_left BEq.rfl).symm
  have hone := length_drawn_session_le ws s.id
  rw [hmem, Stored]
  refine ⟨fun h => ?_, fun h => h ▸ List.mem_singleton_self s⟩
  obtain ⟨t, ht⟩ := List.length_eq_one_iff.mp (Nat.le_antisymm hone (List.length_pos_of_mem h))
  rw [ht, List.mem_singleton] at h
  rw [ht, h]

/-- No two sessions have one id. -/
theorem nodup_sessions (ws : List RecordWrite) :
    ((settled ws).cabinet.sessions.map Session.id).Nodup := by
  refine List.nodup_iff_count_le_one.mpr fun id => ?_
  rw [List.count_eq_countP, List.countP_map, List.countP_eq_length_filter]
  exact (congrArg List.length (sessions_filter ws id)).trans_le (length_drawn_session_le ws id)

/-- There is nothing under an id that no session was created under. -/
theorem drawn_session_eq_nil_iff {id : String} :
    (Drawer.session id).drawn [] ws = [] ↔ ∀ w ∈ ws, w.createdId? ≠ some id := by
  rw [Drawer.drawn_eq_nil_iff, and_iff_right rfl]
  exact forall₂_congr fun _ _ => RecordWrite.onSession_ne_put_iff

theorem mem_ids_iff {id : String} :
    id ∈ (settled ws).cabinet.sessions.map Session.id ↔ id ∈ createdIds ws := by
  refine not_iff_not.mp ?_
  calc id ∉ (settled ws).cabinet.sessions.map Session.id
      ↔ (settled ws).cabinet.sessions.filter (fun s => s.id == id) = [] := by
        rw [List.filter_eq_nil_iff]
        simp
    _ ↔ (Drawer.session id).drawn [] ws = [] := by rw [sessions_filter]
    _ ↔ ∀ w ∈ ws, w.createdId? ≠ some id := drawn_session_eq_nil_iff
    _ ↔ id ∉ createdIds ws := by simp [createdIds]

theorem length_sessions (ws : List RecordWrite) :
    (settled ws).cabinet.sessions.length = (createdIds ws).length := by
  have hperm := (List.perm_ext_iff_of_nodup (nodup_sessions ws) (List.nodup_dedup _)).mpr
    fun _ => mem_ids_iff
  rw [← List.length_map Session.id]
  exact hperm.length_eq

/-! ## The newest of it -/

/-- What is cut off a list that is in order comes behind all that is left. -/
theorem rel_of_mem_take_of_mem_drop {α : Type} {R : α → α → Prop} {l : List α}
    (h : l.Pairwise R) (k : Nat) {a b : α} (ha : a ∈ l.take k) (hb : b ∈ l.drop k) : R a b := by
  rw [← List.take_append_drop k l] at h
  exact (List.pairwise_append.mp h).2.2 a ha b hb

/-- **The first of the sorted sessions are the newest.** -/
theorem newest_take (ws : List RecordWrite) (most : Nat) :
    Newest ws most ((Documents.newestFirst (settled ws).cabinet.sessions).take most) := by
  have hperm := Documents.newestFirst_perm (settled ws).cabinet.sessions
  have hsorted := Documents.pairwise_newestFirst (settled ws).cabinet.sessions
  have htake := List.take_sublist most (Documents.newestFirst (settled ws).cabinet.sessions)
  constructor
  case length_eq => rw [List.length_take, hperm.length_eq, length_sessions]
  case nodup =>
    exact ((hperm.map Session.id).nodup_iff.mpr (nodup_sessions ws)).sublist
      (htake.map Session.id)
  case latestFirst => exact hsorted.sublist htake
  case stored =>
    intro s hs
    exact mem_sessions_iff.mp (hperm.mem_iff.mp (htake.subset hs))
  case newest =>
    intro s hs t ht hleft
    have hall := hperm.mem_iff.mpr (mem_sessions_iff.mpr ht)
    rw [← List.take_append_drop most (Documents.newestFirst _), List.mem_append] at hall
    exact rel_of_mem_take_of_mem_drop hsorted most hs (hall.resolve_left hleft)

end Records

end Invigilator
