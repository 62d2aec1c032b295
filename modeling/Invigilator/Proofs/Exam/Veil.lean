import Invigilator.Exam.Answer
import Invigilator.Exam.Catalog
import Invigilator.Exam.Selection
import Mathlib.Data.List.Forall2
import Mathlib.Data.List.InsertIdx

/-!
# What a question hides

A question is veiled when the contents of its hidden test cases are erased; how many there are
stays. Two questions with the same face are the same once they are veiled. Choosing questions
looks at levels, looking them up looks at ids, and neither sees through the veil; what a
candidate gets to see, the view and the starter code, is the same with it and without.
-/

namespace Invigilator

namespace Question

/-- The question with the contents of its hidden test cases erased. -/
def veiled (q : Question) : Question :=
  { q with hiddenTestCases := q.hiddenTestCases.map fun _ => default }

/-- Two questions that differ in the contents of their hidden test cases, if at all. -/
structure SameFace (p q : Question) : Prop where
  open_eq : { p with hiddenTestCases := [] } = { q with hiddenTestCases := [] }
  count_eq : p.hiddenTestCases.length = q.hiddenTestCases.length

instance (p q : Question) : Decidable (SameFace p q) :=
  decidable_of_iff (_ ∧ _) ⟨fun h => ⟨h.1, h.2⟩, fun h => ⟨h.open_eq, h.count_eq⟩⟩

theorem SameFace.veiled_eq {p q : Question} (h : SameFace p q) : p.veiled = q.veiled := by
  obtain ⟨hopen, hcount⟩ := h
  cases p
  cases q
  simp_all [veiled, List.map_const']

@[simp] theorem veiled_id (q : Question) : q.veiled.id = q.id := rfl

@[simp] theorem veiled_language (q : Question) : q.veiled.language = q.language := rfl

@[simp] theorem veiled_difficulty (q : Question) : q.veiled.difficulty = q.difficulty := rfl

/-- A candidate sees the same. -/
@[simp] theorem view_veiled (q : Question) : q.veiled.view = q.view := by
  simp [view, veiled]

end Question

@[simp] theorem Answer.placeholder_veiled (index : Nat) (q : Question) :
    Answer.placeholder index q.veiled = Answer.placeholder index q := rfl

@[simp] theorem Trio.toList_map {α β : Type} (f : α → β) (t : Trio α) :
    (t.map f).toList = t.toList.map f := rfl

@[simp] theorem Trio.map_map {α β γ : Type} (g : β → γ) (f : α → β) (t : Trio α) :
    (t.map f).map g = t.map (g ∘ f) := rfl

/-! ## Catalogs -/

namespace Catalog

/-- Two catalogs that differ in the contents of hidden test cases, if at all. -/
abbrev SameFace (c d : Catalog) : Prop := List.Forall₂ Question.SameFace c d

/-- The catalog with all its questions veiled. -/
def veiled (c : Catalog) : Catalog := c.map Question.veiled

theorem SameFace.veiled_eq {c d : Catalog} (h : c.SameFace d) : c.veiled = d.veiled := by
  induction h with
  | nil => rfl
  | cons hq _ ih => exact congrArg₂ (· :: ·) hq.veiled_eq ih

theorem pool_veiled (c : Catalog) (language : Language) (topic : Option String) :
    c.veiled.pool language topic = (c.pool language topic).map Question.veiled :=
  List.filter_map

theorem swapRemove_map (f : Question → Question) (qs : List Question) (i : Nat) :
    swapRemove (qs.map f) i = (swapRemove qs i).map f := by
  rw [swapRemove, swapRemove, List.getLast?_map]
  cases qs.getLast? with
  | none => rfl
  | some final =>
    rw [Option.map_some, List.length_map, ← List.map_dropLast]
    dsimp only
    split
    · rfl
    · exact (List.map_set ..).symm

theorem orderByIds_veiled (qs : List Question) (ids : List String) :
    orderByIds (qs.map Question.veiled) ids = (orderByIds qs ids).map Question.veiled := by
  induction ids generalizing qs with
  | nil => rfl
  | cons id ids ih =>
    have hindex : (qs.map Question.veiled).findIdx? (fun q => q.id == id) =
        qs.findIdx? fun q => q.id == id := List.findIdx?_map ..
    simp only [orderByIds, hindex, List.getElem?_map, swapRemove_map, ih]
    cases qs.findIdx? fun q => q.id == id with
    | none => rfl
    | some i =>
      dsimp only
      cases qs[i]? <;> rfl

theorem byIds_veiled (c : Catalog) (language : Language) (ids : List String) :
    c.veiled.byIds language ids = (c.byIds language ids).map Question.veiled := by
  have hfilter : c.veiled.filter (fun q => q.language == language && ids.contains q.id) =
      (c.filter fun q => q.language == language && ids.contains q.id).map Question.veiled :=
    List.filter_map
  rw [byIds, hfilter, orderByIds_veiled]
  rfl

end Catalog

/-! ## Selection -/

namespace Selection

theorem atLevel_veiled (pool : List Question) (d : Difficulty) :
    atLevel (pool.map Question.veiled) d = (atLevel pool d).map Question.veiled :=
  List.filter_map

theorem hasAllLevels_veiled (pool : List Question) :
    hasAllLevels (pool.map Question.veiled) = hasAllLevels pool := by
  simp [hasAllLevels, atLevel_veiled]

theorem insertByDifficulty_veiled (q : Question) (qs : List Question) :
    insertByDifficulty q.veiled (qs.map Question.veiled) =
      (insertByDifficulty q qs).map Question.veiled := by
  induction qs with
  | nil => rfl
  | cons p qs ih =>
    simp only [List.map_cons, insertByDifficulty, Question.veiled_difficulty, ih]
    split <;> rfl

theorem sortByDifficulty_veiled (qs : List Question) :
    sortByDifficulty (qs.map Question.veiled) = (sortByDifficulty qs).map Question.veiled := by
  have hfold : ∀ sorted : List Question,
      (qs.map Question.veiled).foldl (fun sorted q => insertByDifficulty q sorted)
          (sorted.map Question.veiled) =
        (qs.foldl (fun sorted q => insertByDifficulty q sorted) sorted).map Question.veiled := by
    induction qs with
    | nil => exact fun _ => rfl
    | cons q qs ih =>
      intro sorted
      rw [List.map_cons, List.foldl_cons, List.foldl_cons, insertByDifficulty_veiled, ih]
  exact hfold []

theorem pick?_map {α β : Type} (f : α → β) (i : Nat) (as : List α) :
    pick? i (as.map f) = (pick? i as).map f := by
  rw [pick?, List.length_map, List.getElem?_map]
  rfl

theorem takeOut?_map {α β : Type} (f : α → β) (i : Nat) (as : List α) :
    takeOut? i (as.map f) = (takeOut? i as).map fun (a, rest) => (f a, rest.map f) := by
  rw [takeOut?, takeOut?, List.length_map, List.getElem?_map, List.eraseIdx_map]
  cases as[i % as.length]? <;> rfl

theorem oneOfEach?_veiled (pool : List Question) (draw : Draw) :
    oneOfEach? (pool.map Question.veiled) draw =
      (oneOfEach? pool draw).map (Trio.map Question.veiled) := by
  simp only [oneOfEach?, atLevel_veiled, pick?_map]
  cases pick? draw.first (atLevel pool .easy) <;>
    cases pick? draw.second (atLevel pool .medium) <;>
      cases pick? draw.third (atLevel pool .hard) <;> rfl

theorem ofList?_map {α β : Type} (f : α → β) (as : List α) :
    Trio.ofList? (as.map f) = (Trio.ofList? as).map (Trio.map f) := by
  match as with
  | [] | [_] | [_, _] | [_, _, _] | _ :: _ :: _ :: _ :: _ => rfl

theorem sample?_veiled (pool : List Question) (draw : Draw) :
    sample? (pool.map Question.veiled) draw =
      (sample? pool draw).map (Trio.map Question.veiled) := by
  simp only [sample?, takeOut?_map]
  cases takeOut? draw.first pool with
  | none => rfl
  | some first =>
    simp only [Option.map_some, Option.bind_eq_bind, Option.bind_some, takeOut?_map]
    cases takeOut? draw.second first.2 with
    | none => rfl
    | some second =>
      simp only [Option.map_some, Option.bind_some, takeOut?_map]
      cases takeOut? draw.third second.2 with
      | none => rfl
      | some third =>
        have hsorted := sortByDifficulty_veiled [first.1, second.1, third.1]
        simp only [List.map_cons, List.map_nil] at hsorted
        simp only [Option.map_some, Option.bind_some, hsorted, ofList?_map]

/-- **The choice of questions does not see through the veil.** -/
theorem choose?_veiled (pool : List Question) (draw : Draw) :
    choose? (pool.map Question.veiled) draw =
      (choose? pool draw).map (Trio.map Question.veiled) := by
  rw [choose?, choose?, List.length_map, hasAllLevels_veiled, oneOfEach?_veiled, sample?_veiled]
  split
  · rfl
  · split <;> rfl

end Selection

end Invigilator
