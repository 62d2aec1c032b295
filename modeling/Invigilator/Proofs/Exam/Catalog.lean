import Invigilator.Exam.Catalog
import Mathlib.Data.List.Nodup
import Mathlib.Data.List.Perm.Subperm
import Mathlib.Logic.Function.Basic

/-!
# Questions by their ids

A lookup takes the question that answers an id out of the list, and the last one moves to its
place, so the next id is searched for among questions in another order. Which ids are answered
does not depend on that: an id is, as long as a question that carries it is left (`answered`).
Nor does the answer, when no two questions have one id.
-/

namespace Invigilator.Catalog

open List

/-! ## What is left -/

/-- How many questions carry an id. -/
def supply (qs : List Question) (id : String) : Nat := (qs.map Question.id).count id

theorem supply_cons (q : Question) (qs : List Question) :
    supply (q :: qs) = Function.update (supply qs) q.id (supply qs q.id + 1) := by
  funext id
  rw [supply, map_cons, count_cons, Function.update_apply]
  by_cases hid : id = q.id
  · rw [hid, if_pos (beq_self_eq_true _), if_pos rfl, supply]
  · rw [if_neg (by simpa using Ne.symm hid), if_neg hid, supply, Nat.add_zero]

theorem supply_congr {qs ps : List Question} (h : qs ~ ps) : supply qs = supply ps :=
  funext fun id => (h.map Question.id).count_eq id

/-- What is taken away and what is left are the list, in some order. -/
theorem perm_swapRemove {qs : List Question} {i : Nat} {q : Question} (h : qs[i]? = some q) :
    qs ~ q :: swapRemove qs i := by
  obtain ⟨hi, rfl⟩ := List.getElem?_eq_some_iff.mp h
  rcases eq_nil_or_concat qs with rfl | ⟨init, final, rfl⟩
  · exact absurd hi (Nat.not_lt_zero i)
  rw [concat_eq_append] at hi
  simp only [concat_eq_append]
  rw [swapRemove, getLast?_concat, dropLast_concat]
  dsimp only
  split
  · next hlast =>
    have hi : i = init.length := by simpa using hlast
    subst hi
    simp
  · next hlast =>
    have hinit : i < init.length := by
      simp only [length_append, length_singleton] at hi hlast
      omega
    rw [getElem_append_left hinit]
    -- the last question stands where the one that is taken stood
    calc init ++ [final] ~ final :: init := perm_append_singleton final init
      _ ~ final :: init[i] :: init.eraseIdx i := (getElem_cons_eraseIdx_perm hinit).symm.cons _
      _ ~ init[i] :: final :: init.eraseIdx i := Perm.swap ..
      _ ~ init[i] :: init.set i final := (set_perm_cons_eraseIdx hinit final).symm.cons _

/-- The next question that is found: the first that carries the id, if any does. -/
theorem orderByIds_cons (qs : List Question) (id : String) (ids : List String) :
    (supply qs id = 0 ∧ orderByIds qs (id :: ids) = orderByIds qs ids) ∨
      ∃ q rest, q.id = id ∧ qs ~ q :: rest ∧
        orderByIds qs (id :: ids) = q :: orderByIds rest ids := by
  rw [orderByIds]
  split
  · next hnone =>
    refine .inl ⟨count_eq_zero.mpr fun hmem => ?_, rfl⟩
    obtain ⟨q, hq, rfl⟩ := mem_map.mp hmem
    exact absurd (findIdx?_eq_none_iff.mp hnone q hq) (by simp)
  · next i hfind =>
    obtain ⟨hi, hid, -⟩ := findIdx?_eq_some_iff_getElem.mp hfind
    have hq : qs[i]? = some qs[i] := List.getElem?_eq_getElem hi
    rw [hq]
    exact .inr ⟨qs[i], swapRemove qs i, by simpa using hid, perm_swapRemove hq, rfl⟩

/-! ## Which ids are answered -/

/-- Whether an id is answered where it stands: as the `k`-th of its kind, if `k` questions carry
it. -/
def isAnswered (supply : String → Nat) (ids : List String) (e : String × Nat) : Bool :=
  decide ((ids.take (e.2 + 1)).count e.1 ≤ supply e.1)

/-- The ids that are answered, in the order they are asked for. -/
def answered (supply : String → Nat) (ids : List String) : List String :=
  (ids.zipIdx.filter (isAnswered supply ids)).map Prod.fst

/-- Behind the first id, one question less is left to answer it. -/
theorem isAnswered_cons {supply : String → Nat} {id : String} {ids : List String}
    {e : String × Nat} (he : e ∈ ids.zipIdx) :
    isAnswered supply (id :: ids) (e.1, e.2 + 1) =
      isAnswered (Function.update supply id (supply id - 1)) ids e := by
  have hpos : 0 < (ids.take (e.2 + 1)).count e.1 := by
    refine count_pos_iff.mpr (mem_of_getElem? (i := e.2) ?_)
    rw [getElem?_take_of_lt (Nat.lt_succ_self e.2)]
    exact mem_zipIdx_iff_getElem?.mp he
  rw [isAnswered, isAnswered, take_succ_cons, count_cons, Function.update_apply]
  by_cases hid : e.1 = id
  · subst hid
    simp only [beq_self_eq_true, if_true, decide_eq_decide]
    omega
  · rw [if_neg (by simpa using Ne.symm hid), if_neg hid, Nat.add_zero]

/-- The first id is answered if a question carries it. -/
theorem answered_cons (supply : String → Nat) (id : String) (ids : List String) :
    answered supply (id :: ids) =
      (if 0 < supply id then [id] else []) ++
        answered (Function.update supply id (supply id - 1)) ids := by
  have hfirst : isAnswered supply (id :: ids) (id, 0) = decide (0 < supply id) := by
    simp [isAnswered, Nat.lt_iff_add_one_le]
  have hothers : (ids.zipIdx 1).filter (isAnswered supply (id :: ids)) =
      (ids.zipIdx.filter (isAnswered (Function.update supply id (supply id - 1)) ids)).map
        fun e => (e.1, e.2 + 1) := by
    rw [show ids.zipIdx 1 = ids.zipIdx.map fun e => (e.1, e.2 + 1) from zipIdx_succ, filter_map]
    exact congrArg _ (filter_congr fun e he => isAnswered_cons he)
  rw [answered, zipIdx_cons, filter_cons, hfirst, hothers]
  by_cases hpos : 0 < supply id
  · simp [hpos, answered, Function.comp_def]
  · simp [hpos, answered, Function.comp_def]

/-- **The questions found are those of the ids answered, in the order asked for.** -/
theorem map_id_orderByIds (qs : List Question) (ids : List String) :
    (orderByIds qs ids).map Question.id = answered (supply qs) ids := by
  induction ids generalizing qs with
  | nil => rfl
  | cons id ids ih =>
    rw [answered_cons]
    rcases orderByIds_cons qs id ids with ⟨hnone, hfound⟩ | ⟨q, rest, rfl, hperm, hfound⟩
    · have hsame : Function.update (supply qs) id (supply qs id - 1) = supply qs :=
        Function.update_eq_self_iff.mpr (by omega)
      rw [hfound, hsame, if_neg (by omega), nil_append, ih]
    · have hqs : supply qs = Function.update (supply rest) q.id (supply rest q.id + 1) :=
        (supply_congr hperm).trans (supply_cons q rest)
      have hless : Function.update (supply qs) q.id (supply qs q.id - 1) = supply rest := by
        rw [hqs, Function.update_self, Function.update_idem]
        exact Function.update_eq_self_iff.mpr (Nat.add_sub_cancel ..)
      have hpos : 0 < supply qs q.id := by
        rw [hqs, Function.update_self]
        exact Nat.succ_pos _
      rw [hfound, hless, if_pos hpos, map_cons, ih, singleton_append]

/-- What is found is part of the list, no question used twice. -/
theorem orderByIds_subperm (qs : List Question) (ids : List String) : orderByIds qs ids <+~ qs := by
  induction ids generalizing qs with
  | nil => exact nil_subperm
  | cons id ids ih =>
    rcases orderByIds_cons qs id ids with ⟨-, hfound⟩ | ⟨q, rest, -, hperm, hfound⟩
    · exact hfound ▸ ih qs
    · rw [hfound]
      exact hperm.subperm_left.mpr ((subperm_cons q).mpr (ih rest))

/-- Questions with ids of their own are told by them. -/
theorem eq_of_map_id_eq {qs found other : List Question} (hids : (qs.map Question.id).Nodup)
    (hfound : found ⊆ qs) (hother : other ⊆ qs)
    (heq : found.map Question.id = other.map Question.id) : found = other := by
  induction found generalizing other with
  | nil => exact (map_eq_nil_iff.mp heq.symm).symm
  | cons p found ih =>
    obtain ⟨q, others, rfl, hpq, hrest⟩ := map_eq_cons_iff.mp heq.symm
    obtain ⟨hp, hfound⟩ := cons_subset.mp hfound
    obtain ⟨hq, hother⟩ := cons_subset.mp hother
    rw [inj_on_of_nodup_map hids hq hp hpq, ih hfound hother hrest.symm]

/-- The order in which the questions come does not matter when their ids are distinct. -/
theorem orderByIds_congr {qs ps : List Question} (hids : (qs.map Question.id).Nodup)
    (h : ps ~ qs) (ids : List String) : orderByIds ps ids = orderByIds qs ids := by
  refine eq_of_map_id_eq hids (fun q hq => h.mem_iff.mp ((orderByIds_subperm ps ids).subset hq))
    (orderByIds_subperm qs ids).subset ?_
  rw [map_id_orderByIds, map_id_orderByIds, supply_congr h]

/-! ## What a catalog gives back -/

/-- No two questions of one language have one id. -/
def Distinct (c : Catalog) : Prop :=
  ∀ language : Language, ((c.filter fun q => q.language == language).map Question.id).Nodup

/-- Ids that are all different are all answered, if they are carried at all. -/
theorem answered_eq_self {supply : String → Nat} {ids : List String} (hids : ids.Nodup)
    (hsupply : ∀ id ∈ ids, 0 < supply id) : answered supply ids = ids := by
  induction ids generalizing supply with
  | nil => rfl
  | cons id ids ih =>
    obtain ⟨hnew, hids⟩ := nodup_cons.mp hids
    obtain ⟨hfirst, hothers⟩ := forall_mem_cons.mp hsupply
    have hleft : ∀ other ∈ ids, 0 < Function.update supply id (supply id - 1) other := by
      intro other hother
      have hne : other ≠ id := fun heq => hnew (heq ▸ hother)
      rw [Function.update_of_ne hne]
      exact hothers other hother
    rw [answered_cons, if_pos hfirst, singleton_append, ih hids hleft]

/-- **Questions of a catalog are found again by their ids, in their order.** -/
theorem Distinct.byIds_eq {c : Catalog} (hc : c.Distinct) {language : Language}
    {qs : List Question} (hids : (qs.map Question.id).Nodup)
    (hqs : ∀ q ∈ qs, q ∈ c ∧ q.language = language) :
    c.byIds language (qs.map Question.id) = qs := by
  have hsub : c.filter (fun q => q.language == language && (qs.map Question.id).contains q.id) <+
      c.filter fun q => q.language == language :=
    monotone_filter_right c fun q hq => (Bool.and_eq_true_iff.mp hq).1
  have hnodup := (hc language).sublist (hsub.map Question.id)
  have hin : qs ⊆
      c.filter fun q => q.language == language && (qs.map Question.id).contains q.id := by
    intro q hq
    obtain ⟨hmem, hlanguage⟩ := hqs q hq
    refine mem_filter.mpr ⟨hmem, ?_⟩
    simpa [hlanguage] using ⟨q, hq, rfl⟩
  refine eq_of_map_id_eq hnodup (orderByIds_subperm ..).subset hin ?_
  rw [byIds, map_id_orderByIds]
  refine answered_eq_self hids fun id hid => ?_
  obtain ⟨q, hq, rfl⟩ := mem_map.mp hid
  exact count_pos_iff.mpr (mem_map_of_mem (hin hq))

end Invigilator.Catalog
