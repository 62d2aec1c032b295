import Invigilator.Proofs.Exam.Wire
import Invigilator.Proofs.Records.Database

/-!
# Documents are read as they were written
-/

namespace Invigilator.Documents

/-! ## What a document shows -/

/-- A slot holds what stands under the name of its field. -/
theorem slotOfMembers_eq {members : List (String × Json)} (h : Named members) (f : Json.Field) :
    Json.slotOfMembers members f = some (members.lookup f.name) := by
  rw [Json.slotOfMembers]
  induction members with
  | nil => rfl
  | cons m members ih =>
    obtain ⟨hfresh, hrest⟩ := List.nodup_cons.mp h
    rw [List.filter_cons, List.lookup_cons]
    by_cases hname : m.1 = f.name
    · have hnone : members.filter (fun m => m.1 == f.name) = [] := by
        rw [List.filter_eq_nil_iff]
        intro m' hm' hname'
        rw [beq_iff_eq, ← hname] at hname'
        exact hfresh (hname' ▸ List.mem_map_of_mem hm')
      rw [hnone, hname, BEq.rfl, if_pos rfl]
    · rw [beq_false_of_ne hname, beq_false_of_ne (Ne.symm hname), if_neg Bool.false_ne_true]
      exact ih hrest

/-- What a document with some members has is one of them. -/
theorem mem_of_document {members : List (String × Json)} {name : String} {j : Json}
    (h : document members name = some j) : (name, j) ∈ members := by
  obtain ⟨before, behind, rfl, -⟩ := List.lookup_eq_some_iff.mp h
  exact List.mem_append_right before List.mem_cons_self

namespace Shows

variable {d : Document} {j : Json}

/-- Members show their own document. -/
theorem self {members : List (String × Json)} (h : Named members) :
    Shows (document members) (.object members) := ⟨members, rfl, h, fun _ _ => rfl⟩

/-- The slots of a record are filled from the document, in whatever order it is shown. -/
theorem slots? (h : Shows d j) (fields : List Json.Field)
    (hfields : ∀ f ∈ fields, f.name ≠ ownName) :
    Json.slots? fields j = some (fields.map fun f => d f.name) := by
  obtain ⟨members, rfl, hnamed, hlookup⟩ := h
  change fields.mapM (Json.slotOfMembers members) = _
  induction fields with
  | nil => rfl
  | cons f fields ih =>
    rw [List.mapM_cons, slotOfMembers_eq hnamed, hlookup f.name (hfields f List.mem_cons_self),
      ih fun g hg => hfields g (List.mem_cons_of_mem f hg)]
    rfl

/-- A change that alters no member of a document shows it still. What the database knows the
document by may change. -/
theorem map {members : List (String × Json)} (h : Shows d (.object members))
    (change : String → Json → Json) (hfix : ∀ name j, d name = some j → change name j = j) :
    Shows d (.object (members.map fun m => (m.1, change m.1 m.2))) := by
  obtain ⟨_, ⟨⟩, hnamed, hlookup⟩ := h
  refine ⟨_, rfl, ?_, fun name hname => ?_⟩
  · rw [Named, List.map_map]
    exact hnamed
  · rw [lookup_map, hlookup name hname]
    cases hd : d name with
    | none => rfl
    | some j => rw [Option.map_some, hfix name j hd]

theorem changeMember (h : Shows d j) (name : String) (change : Json → Json)
    (hfix : ∀ j, d name = some j → change j = j) : Shows d (changeMember name change j) := by
  obtain ⟨members, rfl, -⟩ := id h
  have hmap : Documents.changeMember name change (.object members) =
      .object (members.map fun m => (m.1, if m.1 = name then change m.2 else m.2)) := by
    rw [Documents.changeMember]
    refine congrArg Json.object (List.map_congr_left fun m _ => ?_)
    split <;> rfl
  have hshown := h.map (fun n j => if n = name then change j else j) fun n j hj => by
    by_cases hn : n = name
    · rw [if_pos hn, hfix j (hn ▸ hj)]
    · rw [if_neg hn]
  rwa [hmap]

/-- The database holds a document as it was written. A document that has a member is not taken
for a number that names its width. -/
theorem stored (h : Shows d j) (name : String) (hname : (d name).isSome = true)
    (hown : name ≠ ownName ∧ name ≠ "$numberInt" ∧ name ≠ "$numberLong")
    (hfix : ∀ name j, d name = some j → stored j = j) : Shows d (stored j) := by
  obtain ⟨members, rfl, -, hlookup⟩ := id h
  have hnumber : number? members = none := by
    -- an object that names a width has no other member
    rw [← hlookup name hown.1] at hname
    unfold number?
    split
    · rw [List.lookup_cons, beq_false_of_ne hown.2.1] at hname
      cases hname
    · rw [List.lookup_cons, beq_false_of_ne hown.2.2] at hname
      cases hname
    · rfl
  have hmembers : ∀ ms : List (String × Json),
      storedMembers ms = ms.map fun m => (m.1, Documents.stored m.2) := by
    intro ms
    induction ms with
    | nil => rfl
    | cons m ms ih => rw [storedMembers, ih]; rfl
  have hstored : Documents.stored (.object members) =
      .object (members.map fun m => (m.1, Documents.stored m.2)) := by
    rw [Documents.stored, hnumber, hmembers]
  rw [hstored]
  exact h.map _ hfix

end Shows

/-! ## Records -/

theorem stored_nat {n : Nat} (h : fits (.nat n) = true) : stored (.nat n) = .nat n := by
  have hn : (n : Int) ≤ largest := of_decide_eq_true h
  have hlow : -Int.pow 2 63 ≤ (n : Int) := Int.le_trans (by decide) (Int.natCast_nonneg n)
  exact if_pos ⟨hlow, hn⟩

theorem stored_option_nat {o : Option Nat} (h : fits (.option .nat o) = true) :
    stored (.option .nat o) = .option .nat o := by
  cases o with
  | none => rfl
  | some n => exact stored_nat h

theorem stored_option_stamp (o : Option Stamp) :
    stored (.option Stamp.toJson o) = .option Stamp.toJson o := by
  cases o <;> rfl

/-- **A session is read from its document.** -/
theorem readSession?_shown {s : Session} (h : s.Writable) (hfits : membersFit s.members = true)
    {j : Json} (hj : Shows (document s.members) j) : readSession? j = some s := by
  have hstored : ∀ m ∈ s.members, Documents.stored m.2 = m.2 := by
    simp only [membersFit, Session.members, Bool.and_eq_true] at hfits
    obtain ⟨-, -, -, -, -, hlives, hviolations, -, hspent, -⟩ := hfits
    simp only [Session.members, List.forall_mem_cons, List.not_mem_nil, false_implies,
      implies_true, and_true]
    exact ⟨rfl, rfl, rfl, rfl, rfl, stored_nat hlives, stored_nat hviolations, rfl,
      stored_option_nat hspent, rfl, stored_option_stamp s.completedAt⟩
  have hread := hj.stored "id" rfl (by decide) fun _ _ hm => hstored _ (mem_of_document hm)
  replace hread := hread.changeMember "question_ids" (cutTo 3) fun _ hm => by cases hm; rfl
  replace hread := hread.changeMember "status" plainWord fun _ hm => by cases hm; rfl
  replace hread := hread.changeMember "language" plainWord fun _ hm => by cases hm; rfl
  have hown : ∀ f ∈ Session.fields, f.name ≠ ownName := by decide
  have hself : Shows (document s.members) s.toJson :=
    .self (by decide : (Session.fields.map Json.Field.name).Nodup)
  rw [readSession?, Session.ofJson?, hread.slots? _ hown, ← hself.slots? _ hown,
    ← Session.ofJson?]
  exact (Session.carries h).read_eq

/-- **A violation is read from its document.** -/
theorem readViolation?_shown {v : Violation} (h : v.Writable)
    (hfits : membersFit v.members = true) {j : Json} (hj : Shows (document v.members) j) :
    readViolation? j = some v := by
  have hstored : ∀ m ∈ v.members, Documents.stored m.2 = m.2 := by
    simp only [membersFit, Violation.members, Bool.and_eq_true] at hfits
    obtain ⟨-, -, -, -, hbefore, hafter, -⟩ := hfits
    simp only [Violation.members, List.forall_mem_cons, List.not_mem_nil, false_implies,
      implies_true, and_true]
    exact ⟨rfl, rfl, rfl, rfl, stored_nat hbefore, stored_nat hafter, rfl⟩
  have hread := hj.stored "id" rfl (by decide) fun _ _ hm => hstored _ (mem_of_document hm)
  replace hread := hread.changeMember "violation_type" plainWord fun _ hm => by cases hm; rfl
  have hown : ∀ f ∈ Violation.fields, f.name ≠ ownName := by decide
  have hself : Shows (document v.members) v.toJson :=
    .self (by decide : (Violation.fields.map Json.Field.name).Nodup)
  rw [readViolation?, Violation.ofJson?, hread.slots? _ hown, ← hself.slots? _ hown,
    ← Violation.ofJson?]
  exact (Violation.carries h).read_eq

/-- The members of an answer in its document, with the session it belongs to in front. -/
def answerMembers (e : String × Answer) : List (String × Json) :=
  ("session_id", .text e.1) :: e.2.members

/-- **An answer is read from its document,** which says whose it is besides. -/
theorem readAnswer?_shown {e : String × Answer} (h : e.2.Writable)
    (hfits : membersFit (answerMembers e) = true) {j : Json}
    (hj : Shows (document (answerMembers e)) j) : readAnswer? j = some e.2 := by
  have hstored : ∀ m ∈ answerMembers e, Documents.stored m.2 = m.2 := by
    simp only [membersFit, answerMembers, Answer.members, Bool.and_eq_true] at hfits
    obtain ⟨-, hindex, -, -, -, hpassed, htotal, hcompilation, hruntime, hruns, -⟩ := hfits
    simp only [answerMembers, Answer.members, List.forall_mem_cons, List.not_mem_nil,
      false_implies, implies_true, and_true]
    exact ⟨rfl, stored_nat hindex, rfl, rfl, rfl, stored_nat hpassed, stored_nat htotal,
      stored_nat hcompilation, stored_nat hruntime, stored_nat hruns,
      stored_option_stamp e.2.lastRunAt⟩
  have hread := hj.stored "session_id" rfl (by decide) fun _ _ hm => hstored _ (mem_of_document hm)
  replace hread := hread.changeMember "status" unfoldedWord fun _ hm => by cases hm; rfl
  have hown : ∀ f ∈ Answer.fields, f.name ≠ ownName := by decide
  have hslots : Json.slots? Answer.fields e.2.toJson =
      some (Answer.fields.map fun f => document (answerMembers e) f.name) :=
    Json.slots?_object rfl (by decide)
  have hanswer : Answer.ofJson? (Documents.changeMember "status" unfoldedWord
      (Documents.stored j)) = some e.2 := by
    rw [Answer.ofJson?, hread.slots? _ hown, ← hslots, ← Answer.ofJson?]
    exact (Answer.carries h).read_eq
  rw [readAnswer?, hread.slots? [.plain "session_id"] (by decide)]
  exact hanswer

end Invigilator.Documents
