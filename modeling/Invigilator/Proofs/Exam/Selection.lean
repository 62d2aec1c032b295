import Invigilator.Exam.Selection
import Mathlib.Data.List.Nodup
import Mathlib.Data.List.Perm.Subperm

/-!
# What chance can select

The random source picks any element of a list that is not empty, and shuffles a list into any
order. `Selects` says what a selection can then be, pick by pick and shuffle by shuffle; the
draws of `choose?`, positions counted modulo the choices left, give neither more nor less
(`exists_draw_iff`).

Two notions carry the rest. A *stable sort* keeps the questions of each level in the order they
came in, and a list has only one. Questions that stand at different positions of a pool are the
pool's with no entry used twice, whichever order they are drawn in.
-/

namespace Invigilator

namespace Selection

open List

/-! ## Sorting by difficulty -/

/-- No question stands behind a harder one. -/
def Ascending (qs : List Question) : Prop :=
  qs.Pairwise fun p q => p.difficulty.rank ≤ q.difficulty.rank

/-- The same questions, the easier first, and those of one level in the order they had. -/
structure IsStableSort (qs sorted : List Question) : Prop where
  perm : sorted ~ qs
  ascending : Ascending sorted
  stable : ∀ d, atLevel sorted d = atLevel qs d

theorem mem_atLevel {pool : List Question} {d : Difficulty} {q : Question} :
    q ∈ atLevel pool d ↔ q ∈ pool ∧ q.difficulty = d := by
  simp [atLevel]

theorem atLevel_append (ps qs : List Question) (d : Difficulty) :
    atLevel (ps ++ qs) d = atLevel ps d ++ atLevel qs d :=
  filter_append ..

/-- Nothing of a level stands among questions that are all harder. -/
theorem atLevel_of_harder {qs : List Question} {d : Difficulty}
    (h : ∀ q ∈ qs, d.rank < q.difficulty.rank) : atLevel qs d = [] := by
  refine filter_eq_nil_iff.mpr fun q hq heq => ?_
  have hlt := h q hq
  rw [beq_iff_eq.mp heq] at hlt
  exact Nat.lt_irrefl _ hlt

/-- A list in ascending order is its easy, its medium and its hard questions. -/
theorem Ascending.eq_levels {qs : List Question} (h : Ascending qs) :
    qs = atLevel qs .easy ++ (atLevel qs .medium ++ atLevel qs .hard) := by
  induction qs with
  | nil => rfl
  | cons q qs ih =>
    obtain ⟨hfirst, hrest⟩ := pairwise_cons.mp h
    -- nothing behind the first question is easier than it
    have harder : ∀ d : Difficulty, d.rank < q.difficulty.rank → atLevel qs d = [] :=
      fun d hd => atLevel_of_harder fun p hp => Nat.lt_of_lt_of_le hd (hfirst p hp)
    have hq : ∀ d, atLevel (q :: qs) d =
        if q.difficulty == d then q :: atLevel qs d else atLevel qs d := fun _ => filter_cons
    rw [hq, hq, hq]
    cases hlevel : q.difficulty with
    | easy => exact congrArg (q :: ·) (ih hrest)
    | medium =>
      have heasy : atLevel qs .easy = [] := harder .easy (by rw [hlevel]; decide)
      have hqs := ih hrest
      rw [heasy] at hqs ⊢
      exact congrArg (q :: ·) hqs
    | hard =>
      have heasy : atLevel qs .easy = [] := harder .easy (by rw [hlevel]; decide)
      have hmedium : atLevel qs .medium = [] := harder .medium (by rw [hlevel]; decide)
      have hqs := ih hrest
      rw [heasy, hmedium] at hqs ⊢
      exact congrArg (q :: ·) hqs

/-- A list has one stable sort. -/
theorem IsStableSort.unique {qs s t : List Question} (hs : IsStableSort qs s)
    (ht : IsStableSort qs t) : s = t := by
  rw [hs.ascending.eq_levels, ht.ascending.eq_levels]
  simp only [hs.stable, ht.stable]

theorem perm_insertByDifficulty (q : Question) (qs : List Question) :
    insertByDifficulty q qs ~ q :: qs := by
  induction qs with
  | nil => exact Perm.refl _
  | cons p qs ih =>
    rw [insertByDifficulty]
    split
    · exact Perm.refl _
    · exact (ih.cons p).trans (Perm.swap q p qs)

theorem Ascending.insert {qs : List Question} (h : Ascending qs) (q : Question) :
    Ascending (insertByDifficulty q qs) := by
  induction qs with
  | nil => exact pairwise_singleton ..
  | cons p qs ih =>
    obtain ⟨hfirst, hrest⟩ := pairwise_cons.mp h
    rw [insertByDifficulty]
    split
    · next hlt =>
      refine pairwise_cons.mpr ⟨fun r hr => ?_, h⟩
      rcases mem_cons.mp hr with rfl | hr
      · omega
      · have := hfirst r hr
        omega
    · next hle =>
      refine pairwise_cons.mpr ⟨fun r hr => ?_, ih hrest⟩
      rcases mem_cons.mp ((perm_insertByDifficulty q qs).mem_iff.mp hr) with rfl | hr
      · omega
      · exact hfirst r hr

/-- The question put into a sorted list goes behind all of its level. -/
theorem atLevel_insertByDifficulty {qs : List Question} (h : Ascending qs) (q : Question)
    (d : Difficulty) : atLevel (insertByDifficulty q qs) d = atLevel (qs ++ [q]) d := by
  induction qs with
  | nil => rfl
  | cons p qs ih =>
    obtain ⟨hfirst, hrest⟩ := pairwise_cons.mp h
    rw [insertByDifficulty]
    split
    · next hlt =>
      -- it comes to stand before questions that are all harder, so its level has no others there
      have harder : ∀ r ∈ p :: qs, q.difficulty.rank < r.difficulty.rank := by
        intro r hr
        rcases mem_cons.mp hr with rfl | hr
        · exact hlt
        · exact Nat.lt_of_lt_of_le hlt (hfirst r hr)
      by_cases hd : q.difficulty = d
      · subst hd
        rw [atLevel_append, atLevel_of_harder harder, nil_append]
        exact (atLevel_append [q] (p :: qs) _).trans
          (by rw [atLevel_of_harder harder, append_nil])
      · have hq : atLevel [q] d = [] := filter_eq_nil_iff.mpr (by simpa using hd)
        rw [atLevel_append, hq, append_nil]
        exact (atLevel_append [q] (p :: qs) d).trans (by rw [hq, nil_append])
    · have := congrArg (atLevel [p] d ++ ·) (ih hrest)
      simpa only [← atLevel_append, singleton_append, cons_append, nil_append] using this

/-- Sorting by difficulty is a stable sort, also from questions that are sorted already. -/
theorem isStableSort_foldl (qs : List Question) :
    ∀ {done sorted : List Question}, IsStableSort done sorted →
      IsStableSort (done ++ qs)
        (qs.foldl (fun sorted q => insertByDifficulty q sorted) sorted) := by
  -- the questions are put in one after the other, each behind what is sorted so far
  induction qs with
  | nil => intro done sorted h; simpa using h
  | cons q qs ih =>
    intro done sorted h
    have hput : IsStableSort (done ++ [q]) (insertByDifficulty q sorted) :=
      { perm := (perm_insertByDifficulty q sorted).trans
          ((h.perm.cons q).trans (perm_append_singleton q done).symm)
        ascending := h.ascending.insert q
        stable := fun d => by
          rw [atLevel_insertByDifficulty h.ascending, atLevel_append, h.stable, ← atLevel_append] }
    rw [append_cons]
    exact ih hput

theorem isStableSort_sortByDifficulty (qs : List Question) :
    IsStableSort qs (sortByDifficulty qs) :=
  isStableSort_foldl qs ⟨Perm.refl _, Pairwise.nil, fun _ => rfl⟩

theorem isStableSort_iff {qs sorted : List Question} :
    IsStableSort qs sorted ↔ sortByDifficulty qs = sorted :=
  ⟨(isStableSort_sortByDifficulty qs).unique, fun h => h ▸ isStableSort_sortByDifficulty qs⟩

/-! ## Entries at different positions -/

/-- What stands at three pairwise different positions of a list. -/
structure Placed {α : Type} (as : List α) (i j k : Nat) (a b c : α) : Prop where
  apart : [i, j, k].Nodup
  first : as[i]? = some a
  second : as[j]? = some b
  third : as[k]? = some c

section Entries

variable {α β : Type}

/-- Part of an image is the image of a part. -/
theorem exists_subperm_of_map (f : α → β) {ts : List β} :
    ∀ {as : List α}, ts <+~ as.map f → ∃ us, us <+~ as ∧ us.map f = ts := by
  induction ts with
  | nil => exact fun _ => ⟨[], nil_subperm, rfl⟩
  | cons t ts ih =>
    intro as h
    obtain ⟨a, ha, rfl⟩ := mem_map.mp (h.subset mem_cons_self)
    obtain ⟨before, after, rfl⟩ := append_of_mem ha
    have hout : before ++ a :: after ~ a :: (before ++ after) := perm_middle
    have hrest : ts <+~ (before ++ after).map f :=
      (subperm_cons (f a)).mp ((hout.map f).subperm_left.mp h)
    obtain ⟨us, hus, rfl⟩ := ih hrest
    exact ⟨a :: us, hout.subperm_left.mpr ((subperm_cons a).mpr hus), rfl⟩

theorem map_getElem?_range (as : List α) :
    (range as.length).map (fun i => as[i]?) = as.map some := by
  refine ext_getElem (by simp) fun i _ _ => ?_
  simp

/-- Three elements are a list's, none used twice, when they stand at different positions. -/
theorem subperm_iff_placed {as : List α} {a b c : α} :
    [a, b, c] <+~ as ↔ ∃ i j k, Placed as i j k a b c := by
  -- elements are told apart by their positions, for the list may have some of them twice
  have himage : [a, b, c] <+~ as ↔
      [some a, some b, some c] <+~ (range as.length).map fun i => as[i]? := by
    rw [map_getElem?_range]
    have hinj : Function.Injective (some : α → Option α) := fun _ _ => Option.some.inj
    have hsome : [a, b, c].map some <+~ as.map some ↔ [a, b, c] <+~ as := map_subperm_map_iff hinj
    exact hsome.symm
  rw [himage]
  constructor
  · intro h
    obtain ⟨us, hus, heq⟩ := exists_subperm_of_map _ h
    obtain ⟨i, j, k, rfl⟩ := length_eq_three.mp ((length_map _).symm.trans (congrArg length heq))
    simp only [map_cons, map_nil, cons.injEq, and_true] at heq
    obtain ⟨is, hperm, hsub⟩ := hus
    exact ⟨i, j, k, hperm.nodup_iff.mp (nodup_range.sublist hsub), heq.1, heq.2.1, heq.2.2⟩
  · rintro ⟨i, j, k, h⟩
    have hin : [i, j, k] ⊆ range as.length := by
      intro n hn
      simp only [mem_cons, not_mem_nil, or_false] at hn
      rcases hn with rfl | rfl | rfl
      · exact mem_range.mpr (List.getElem?_eq_some_iff.mp h.first).1
      · exact mem_range.mpr (List.getElem?_eq_some_iff.mp h.second).1
      · exact mem_range.mpr (List.getElem?_eq_some_iff.mp h.third).1
    obtain ⟨is, hperm, hsub⟩ := subperm_of_subset h.apart hin
    refine ⟨is.map fun i => as[i]?, ?_, hsub.map _⟩
    have himages := hperm.map fun i => as[i]?
    rwa [map_cons, map_cons, map_cons, map_nil, h.first, h.second, h.third] at himages

/-! ## Draws -/

theorem pick?_eq_none_iff {i : Nat} {as : List α} : pick? i as = none ↔ as = [] := by
  rw [pick?, List.getElem?_eq_none_iff, ← length_eq_zero_iff]
  constructor
  · intro h
    by_contra hpos
    exact absurd (Nat.mod_lt i (Nat.pos_of_ne_zero hpos)) (Nat.not_lt.mpr h)
  · intro h
    omega

/-- Any element can be picked, and nothing else. -/
theorem exists_pick?_iff {as : List α} {a : α} : (∃ i, pick? i as = some a) ↔ a ∈ as := by
  constructor
  · rintro ⟨i, h⟩
    exact mem_of_getElem? h
  · intro h
    obtain ⟨i, hi, rfl⟩ := mem_iff_getElem.mp h
    exact ⟨i, by rw [pick?, Nat.mod_eq_of_lt hi, List.getElem?_eq_getElem hi]⟩

/-- What is taken out and what is left are the list. -/
theorem perm_of_takeOut? {i : Nat} {as rest : List α} {a : α}
    (h : takeOut? i as = some (a, rest)) : as ~ a :: rest := by
  rw [takeOut?] at h
  split at h
  · cases h
  · next b hb =>
    obtain ⟨hi, rfl⟩ := List.getElem?_eq_some_iff.mp hb
    cases h
    exact (getElem_cons_eraseIdx_perm hi).symm

theorem exists_takeOut? {as : List α} (h : as ≠ []) (i : Nat) :
    ∃ a rest, takeOut? i as = some (a, rest) := by
  rw [takeOut?]
  split
  · next hnone => exact absurd (pick?_eq_none_iff.mp hnone) h
  · exact ⟨_, _, rfl⟩

theorem exists_takeOut?_of_mem {as : List α} {a : α} (h : a ∈ as) :
    ∃ i rest, takeOut? i as = some (a, rest) := by
  obtain ⟨i, hi⟩ := exists_pick?_iff.mpr h
  exact ⟨i, as.eraseIdx (i % as.length), by rw [takeOut?, ← pick?, hi]⟩

/-- To use an entry and then others is to take it out and use others of what is left. -/
theorem cons_subperm_iff_takeOut? {a : α} {ts as : List α} :
    a :: ts <+~ as ↔ ∃ i rest, takeOut? i as = some (a, rest) ∧ ts <+~ rest := by
  constructor
  · intro h
    obtain ⟨i, rest, htake⟩ := exists_takeOut?_of_mem (h.subset mem_cons_self)
    exact ⟨i, rest, htake, (subperm_cons a).mp ((perm_of_takeOut? htake).subperm_left.mp h)⟩
  · rintro ⟨i, rest, htake, hrest⟩
    exact (perm_of_takeOut? htake).subperm_left.mpr ((subperm_cons a).mpr hrest)

/-- To shuffle a list and keep the first entries is to use so many of its entries. -/
theorem subperm_iff_shuffled {ts as : List α} :
    ts <+~ as ↔ ∃ shuffled, shuffled ~ as ∧ shuffled.take ts.length = ts := by
  constructor
  · rintro ⟨us, hus, hsub⟩
    obtain ⟨rest, hrest⟩ := hsub.exists_perm_append
    exact ⟨ts ++ rest, (hus.symm.append_right rest).trans hrest.symm, take_left⟩
  · rintro ⟨shuffled, hperm, htake⟩
    rw [← htake]
    exact hperm.subperm_left.mp (take_sublist _ _).subperm

end Entries

/-- The three questions that a draw takes out of a pool, one after another. -/
def Draws (pool : List Question) (draw : Draw) (a b c : Question) : Prop :=
  ∃ afterFirst afterSecond afterThird,
    takeOut? draw.first pool = some (a, afterFirst) ∧
    takeOut? draw.second afterFirst = some (b, afterSecond) ∧
    takeOut? draw.third afterSecond = some (c, afterThird)

theorem exists_draws_iff {pool : List Question} {a b c : Question} :
    (∃ draw, Draws pool draw a b c) ↔ [a, b, c] <+~ pool := by
  constructor
  · rintro ⟨⟨i, j, k⟩, first, second, third, hi, hj, hk⟩
    exact cons_subperm_iff_takeOut?.mpr ⟨i, first, hi,
      cons_subperm_iff_takeOut?.mpr ⟨j, second, hj,
        cons_subperm_iff_takeOut?.mpr ⟨k, third, hk, nil_subperm⟩⟩⟩
  · intro h
    obtain ⟨i, first, hi, hrest⟩ := cons_subperm_iff_takeOut?.mp h
    obtain ⟨j, second, hj, hrest⟩ := cons_subperm_iff_takeOut?.mp hrest
    obtain ⟨k, third, hk, -⟩ := cons_subperm_iff_takeOut?.mp hrest
    exact ⟨⟨i, j, k⟩, first, second, third, hi, hj, hk⟩

/-- A pool of three questions or more never runs out. -/
theorem exists_draws {pool : List Question} (h : 3 ≤ pool.length) (draw : Draw) :
    ∃ a b c, Draws pool draw a b c := by
  have hleft : ∀ {as rest : List Question} {q : Question} {i : Nat},
      takeOut? i as = some (q, rest) → as.length = rest.length + 1 :=
    fun htake => (perm_of_takeOut? htake).length_eq
  obtain ⟨a, first, hi⟩ :=
    exists_takeOut? (ne_nil_of_length_pos (l := pool) (by omega)) draw.first
  have hfirst := hleft hi
  obtain ⟨b, second, hj⟩ :=
    exists_takeOut? (ne_nil_of_length_pos (l := first) (by omega)) draw.second
  have hsecond := hleft hj
  obtain ⟨c, third, hk⟩ :=
    exists_takeOut? (ne_nil_of_length_pos (l := second) (by omega)) draw.third
  exact ⟨a, b, c, first, second, third, hi, hj, hk⟩

theorem Draws.sample?_eq {pool : List Question} {draw : Draw} {a b c : Question}
    (h : Draws pool draw a b c) :
    sample? pool draw = Trio.ofList? (sortByDifficulty [a, b, c]) := by
  obtain ⟨first, second, third, hi, hj, hk⟩ := h
  simp only [sample?, hi, hj, hk, Option.bind_eq_bind, Option.bind_some]

theorem ofList?_eq_some_iff {as : List α} {t : Trio α} :
    Trio.ofList? as = some t ↔ as = t.toList := by
  constructor
  · intro h
    match as, h with
    | [_, _, _], h => exact (Option.some.inj h) ▸ rfl
  · rintro rfl
    exact t.ofList?_toList

theorem exists_ofList? {as : List α} (h : as.length = 3) : ∃ t, Trio.ofList? as = some t := by
  obtain ⟨a, b, c, rfl⟩ := length_eq_three.mp h
  exact ⟨⟨a, b, c⟩, rfl⟩

theorem exists_sorted (a b c : Question) :
    ∃ t, Trio.ofList? (sortByDifficulty [a, b, c]) = some t :=
  exists_ofList? (isStableSort_sortByDifficulty _).perm.length_eq

/-! ## The three ways -/

theorem hasAllLevels_iff {pool : List Question} :
    hasAllLevels pool = true ↔ ∀ d, atLevel pool d ≠ [] := by
  simp only [hasAllLevels, all_cons, all_nil, Bool.and_true, Bool.and_eq_true, Bool.not_eq_true',
    isEmpty_eq_false_iff]
  constructor
  · rintro ⟨he, hm, hh⟩ d
    cases d with
    | easy => exact he
    | medium => exact hm
    | hard => exact hh
  · exact fun h => ⟨h _, h _, h _⟩

/-- One question of each level: three questions of the pool, none used twice. -/
theorem levels_subperm {pool : List Question} {easy medium hard : Question}
    (he : easy ∈ atLevel pool .easy) (hm : medium ∈ atLevel pool .medium)
    (hh : hard ∈ atLevel pool .hard) : [easy, medium, hard] <+~ pool := by
  obtain ⟨heasy, he⟩ := mem_atLevel.mp he
  obtain ⟨hmedium, hm⟩ := mem_atLevel.mp hm
  obtain ⟨hhard, hh⟩ := mem_atLevel.mp hh
  refine subperm_of_subset (Nodup.of_map Question.difficulty ?_) ?_
  · simp [he, hm, hh]
  · simp [heasy, hmedium, hhard]

theorem three_le_length {pool : List Question} (h : ∀ d, atLevel pool d ≠ []) :
    3 ≤ pool.length := by
  obtain ⟨easy, he⟩ := exists_mem_of_ne_nil _ (h .easy)
  obtain ⟨medium, hm⟩ := exists_mem_of_ne_nil _ (h .medium)
  obtain ⟨hard, hh⟩ := exists_mem_of_ne_nil _ (h .hard)
  exact (levels_subperm he hm hh).length_le

theorem choose?_few {pool : List Question} (h : pool.length < 3) (draw : Draw) :
    choose? pool draw = none :=
  if_pos h

theorem choose?_levelled {pool : List Question} (h : ∀ d, atLevel pool d ≠ []) (draw : Draw) :
    choose? pool draw = oneOfEach? pool draw := by
  rw [choose?, if_neg (Nat.not_lt.mpr (three_le_length h)), if_pos (hasAllLevels_iff.mpr h)]

theorem choose?_sampled {pool : List Question} {d : Difficulty} (hlength : 3 ≤ pool.length)
    (h : atLevel pool d = []) (draw : Draw) : choose? pool draw = sample? pool draw := by
  have hlack : ¬ hasAllLevels pool = true := fun hall => hasAllLevels_iff.mp hall d h
  rw [choose?, if_neg (Nat.not_lt.mpr hlength), if_neg hlack]

theorem oneOfEach?_eq_some_iff {pool : List Question} {draw : Draw} {t : Trio Question} :
    oneOfEach? pool draw = some t ↔
      pick? draw.first (atLevel pool .easy) = some t.first ∧
      pick? draw.second (atLevel pool .medium) = some t.second ∧
      pick? draw.third (atLevel pool .hard) = some t.third := by
  simp only [oneOfEach?, Option.bind_eq_bind, Option.bind_eq_some_iff, Option.some.injEq]
  constructor
  · rintro ⟨easy, he, medium, hm, hard, hh, rfl⟩
    exact ⟨he, hm, hh⟩
  · rintro ⟨he, hm, hh⟩
    exact ⟨_, he, _, hm, _, hh, rfl⟩

theorem exists_oneOfEach?_iff {pool : List Question} {t : Trio Question} :
    (∃ draw, oneOfEach? pool draw = some t) ↔
      t.first ∈ atLevel pool .easy ∧ t.second ∈ atLevel pool .medium ∧
        t.third ∈ atLevel pool .hard := by
  simp only [oneOfEach?_eq_some_iff, ← exists_pick?_iff]
  constructor
  · rintro ⟨draw, he, hm, hh⟩
    exact ⟨⟨_, he⟩, ⟨_, hm⟩, ⟨_, hh⟩⟩
  · rintro ⟨⟨i, he⟩, ⟨j, hm⟩, ⟨k, hh⟩⟩
    exact ⟨⟨i, j, k⟩, he, hm, hh⟩

theorem exists_oneOfEach? {pool : List Question} (h : ∀ d, atLevel pool d ≠ []) (draw : Draw) :
    ∃ t, oneOfEach? pool draw = some t := by
  have hpick : ∀ d i, ∃ q, pick? i (atLevel pool d) = some q := fun d i =>
    Option.ne_none_iff_exists'.mp (mt pick?_eq_none_iff.mp (h d))
  obtain ⟨easy, he⟩ := hpick .easy draw.first
  obtain ⟨medium, hm⟩ := hpick .medium draw.second
  obtain ⟨hard, hh⟩ := hpick .hard draw.third
  exact ⟨⟨easy, medium, hard⟩, oneOfEach?_eq_some_iff.mpr ⟨he, hm, hh⟩⟩

/-- Sorting one question of each level changes nothing. -/
theorem sorted_levels {pool : List Question} {easy medium hard : Question}
    (he : easy ∈ atLevel pool .easy) (hm : medium ∈ atLevel pool .medium)
    (hh : hard ∈ atLevel pool .hard) :
    Trio.ofList? (sortByDifficulty [easy, medium, hard]) = some ⟨easy, medium, hard⟩ := by
  have he := (mem_atLevel.mp he).2
  have hm := (mem_atLevel.mp hm).2
  have hh := (mem_atLevel.mp hh).2
  simp [sortByDifficulty, insertByDifficulty, he, hm, hh, Difficulty.rank, Trio.ofList?]

theorem exists_sample?_iff {pool : List Question} (hlength : 3 ≤ pool.length)
    {r : Option (Trio Question)} :
    (∃ draw, sample? pool draw = r) ↔
      ∃ a b c, [a, b, c] <+~ pool ∧ Trio.ofList? (sortByDifficulty [a, b, c]) = r := by
  constructor
  · rintro ⟨draw, rfl⟩
    obtain ⟨a, b, c, h⟩ := exists_draws hlength draw
    exact ⟨a, b, c, exists_draws_iff.mp ⟨draw, h⟩, h.sample?_eq.symm⟩
  · rintro ⟨a, b, c, hsub, rfl⟩
    obtain ⟨draw, h⟩ := exists_draws_iff.mpr hsub
    exact ⟨draw, h.sample?_eq⟩

/-! ## What chance decides -/

/--
A selection under a random source that picks any element of a list that is not empty and
shuffles a list into any order. Picks and shuffles are sorted by difficulty alike.
-/
inductive Selects (pool : List Question) : Option (Trio Question) → Prop
  | few : pool.length < 3 → Selects pool none
  | levelled {easy medium hard : Question} :
      3 ≤ pool.length → easy ∈ atLevel pool .easy → medium ∈ atLevel pool .medium →
      hard ∈ atLevel pool .hard →
      Selects pool (Trio.ofList? (sortByDifficulty [easy, medium, hard]))
  | sampled {d : Difficulty} {shuffled : List Question} :
      3 ≤ pool.length → atLevel pool d = [] → shuffled ~ pool →
      Selects pool (Trio.ofList? (sortByDifficulty (shuffled.take 3)))

/-- **The draws give what the random source can give.** -/
theorem exists_draw_iff (pool : List Question) (r : Option (Trio Question)) :
    (∃ draw, choose? pool draw = r) ↔ Selects pool r := by
  constructor
  · rintro ⟨draw, rfl⟩
    by_cases hfew : pool.length < 3
    · rw [choose?_few hfew]
      exact .few hfew
    have hlength : 3 ≤ pool.length := Nat.not_lt.mp hfew
    -- one of each level, if there are all three; otherwise any three
    by_cases hall : ∀ d, atLevel pool d ≠ []
    · rw [choose?_levelled hall]
      obtain ⟨t, ht⟩ := exists_oneOfEach? hall draw
      obtain ⟨he, hm, hh⟩ := exists_oneOfEach?_iff.mp ⟨draw, ht⟩
      rw [ht, ← sorted_levels he hm hh]
      exact .levelled hlength he hm hh
    · obtain ⟨d, hd⟩ := not_forall.mp hall
      have hlack : atLevel pool d = [] := not_not.mp hd
      rw [choose?_sampled hlength hlack]
      obtain ⟨a, b, c, hsub, hr⟩ := (exists_sample?_iff hlength).mp ⟨draw, rfl⟩
      obtain ⟨shuffled, hperm, htake⟩ := subperm_iff_shuffled.mp hsub
      rw [← hr, ← htake]
      exact .sampled hlength hlack hperm
  · rintro (hfew | @⟨easy, medium, hard, hlength, he, hm, hh⟩ |
      @⟨d, shuffled, hlength, hlack, hperm⟩)
    · exact ⟨default, choose?_few hfew _⟩
    · -- a draw is made up that takes the questions which were selected
      rw [sorted_levels he hm hh]
      obtain ⟨draw, h⟩ := exists_oneOfEach?_iff (t := ⟨easy, medium, hard⟩).mpr ⟨he, hm, hh⟩
      refine ⟨draw, (choose?_levelled (fun d => ?_) draw).trans h⟩
      cases d with
      | easy => exact ne_nil_of_mem he
      | medium => exact ne_nil_of_mem hm
      | hard => exact ne_nil_of_mem hh
    · simp only [choose?_sampled hlength hlack]
      have hthree : (shuffled.take 3).length = 3 := by
        rw [length_take, hperm.length_eq]
        omega
      obtain ⟨a, b, c, htake⟩ := length_eq_three.mp hthree
      have hsub : [a, b, c] <+~ pool := subperm_iff_shuffled.mpr ⟨shuffled, hperm, htake⟩
      rw [htake]
      exact (exists_sample?_iff hlength).mpr ⟨a, b, c, hsub, rfl⟩

/-! ## The possible selections -/

/-- A selection that some draw gives. -/
def Possible (pool : List Question) (t : Trio Question) : Prop :=
  ∃ draw, choose? pool draw = some t

/--
What is owed of the selections from a pool: none for want of three questions, and then alone; all
choices of one question of each level, if it has them; all stable sorts of what stands at three
different positions, if not. Whatever is selected comes from three different positions, the
easier before the harder.
-/
structure Exact (pool : List Question) : Prop where
  none_iff : ∀ draw, choose? pool draw = none ↔ pool.length < 3
  levelled : (∀ d, ∃ q ∈ pool, q.difficulty = d) → ∀ t, Possible pool t ↔
    (t.first ∈ pool ∧ t.first.difficulty = .easy) ∧
    (t.second ∈ pool ∧ t.second.difficulty = .medium) ∧
    (t.third ∈ pool ∧ t.third.difficulty = .hard)
  sampled : ¬ (∀ d, ∃ q ∈ pool, q.difficulty = d) → ∀ t, Possible pool t ↔
    ∃ i j k a b c, Placed pool i j k a b c ∧ IsStableSort [a, b, c] t.toList
  placed : ∀ t, Possible pool t → ∃ i j k, Placed pool i j k t.first t.second t.third
  ascending : ∀ t, Possible pool t → Ascending t.toList
  distinct : (pool.map Question.id).Nodup → ∀ t, Possible pool t → (t.toList.map Question.id).Nodup
  chance : ∀ r, (∃ draw, choose? pool draw = r) ↔ Selects pool r

theorem choose?_eq_none_iff (pool : List Question) (draw : Draw) :
    choose? pool draw = none ↔ pool.length < 3 := by
  refine ⟨fun h => ?_, fun h => choose?_few h draw⟩
  by_contra hfew
  have hlength : 3 ≤ pool.length := Nat.not_lt.mp hfew
  -- with three questions or more there is a selection either way
  by_cases hall : ∀ d, atLevel pool d ≠ []
  · obtain ⟨t, ht⟩ := exists_oneOfEach? hall draw
    rw [choose?_levelled hall, ht] at h
    cases h
  · obtain ⟨d, hd⟩ := not_forall.mp hall
    obtain ⟨a, b, c, hdraws⟩ := exists_draws hlength draw
    obtain ⟨t, ht⟩ := exists_sorted a b c
    rw [choose?_sampled hlength (not_not.mp hd), hdraws.sample?_eq, ht] at h
    cases h

theorem forall_atLevel_ne_nil_iff {pool : List Question} :
    (∀ d, atLevel pool d ≠ []) ↔ ∀ d, ∃ q ∈ pool, q.difficulty = d := by
  refine forall_congr' fun d => ⟨fun h => ?_, ?_⟩
  · obtain ⟨q, hq⟩ := exists_mem_of_ne_nil _ h
    exact ⟨q, mem_atLevel.mp hq⟩
  · rintro ⟨q, hq⟩
    exact ne_nil_of_mem (mem_atLevel.mpr hq)

theorem possible_levelled {pool : List Question} (h : ∀ d, ∃ q ∈ pool, q.difficulty = d)
    (t : Trio Question) :
    Possible pool t ↔ (t.first ∈ pool ∧ t.first.difficulty = .easy) ∧
      (t.second ∈ pool ∧ t.second.difficulty = .medium) ∧
      (t.third ∈ pool ∧ t.third.difficulty = .hard) := by
  simp only [Possible, choose?_levelled (forall_atLevel_ne_nil_iff.mpr h), exists_oneOfEach?_iff,
    mem_atLevel]

theorem possible_sampled {pool : List Question} (h : ¬ ∀ d, ∃ q ∈ pool, q.difficulty = d)
    (t : Trio Question) :
    Possible pool t ↔
      ∃ i j k a b c, Placed pool i j k a b c ∧ IsStableSort [a, b, c] t.toList := by
  obtain ⟨d, hd⟩ := not_forall.mp (mt forall_atLevel_ne_nil_iff.mp h)
  have hlack : atLevel pool d = [] := not_not.mp hd
  have hsorts : (∃ i j k a b c, Placed pool i j k a b c ∧ IsStableSort [a, b, c] t.toList) ↔
      ∃ a b c, [a, b, c] <+~ pool ∧ Trio.ofList? (sortByDifficulty [a, b, c]) = some t := by
    simp only [subperm_iff_placed, ofList?_eq_some_iff, isStableSort_iff]
    constructor
    · rintro ⟨i, j, k, a, b, c, hplaced, hsort⟩
      exact ⟨a, b, c, ⟨i, j, k, hplaced⟩, hsort⟩
    · rintro ⟨a, b, c, ⟨i, j, k, hplaced⟩, hsort⟩
      exact ⟨i, j, k, a, b, c, hplaced, hsort⟩
  rw [hsorts]
  constructor
  · rintro ⟨draw, hdraw⟩
    have hlength : 3 ≤ pool.length := by
      by_contra hfew
      rw [choose?_few (Nat.not_le.mp hfew)] at hdraw
      cases hdraw
    rw [choose?_sampled hlength hlack] at hdraw
    exact (exists_sample?_iff hlength).mp ⟨draw, hdraw⟩
  · rintro ⟨a, b, c, hsub, hsort⟩
    obtain ⟨draw, hdraw⟩ := (exists_sample?_iff hsub.length_le).mpr ⟨a, b, c, hsub, hsort⟩
    exact ⟨draw, (choose?_sampled hsub.length_le hlack draw).trans hdraw⟩

/-- A selection sorts what stands at three positions, whichever way it is made. -/
theorem Possible.sorts {pool : List Question} {t : Trio Question} (h : Possible pool t) :
    t.toList <+~ pool ∧ Ascending t.toList := by
  by_cases hall : ∀ d, ∃ q ∈ pool, q.difficulty = d
  · obtain ⟨he, hm, hh⟩ := (possible_levelled hall t).mp h
    refine ⟨levels_subperm (mem_atLevel.mpr he) (mem_atLevel.mpr hm) (mem_atLevel.mpr hh), ?_⟩
    simp [Ascending, Trio.toList, he.2, hm.2, hh.2, Difficulty.rank]
  · obtain ⟨i, j, k, a, b, c, hplaced, hsort⟩ := (possible_sampled hall t).mp h
    exact ⟨hsort.perm.subperm.trans (subperm_iff_placed.mpr ⟨i, j, k, hplaced⟩), hsort.ascending⟩

/-- No question is selected twice from a pool with distinct ids. -/
theorem Possible.nodup_ids {pool : List Question} {t : Trio Question} (h : Possible pool t)
    (hids : (pool.map Question.id).Nodup) : (t.toList.map Question.id).Nodup := by
  obtain ⟨us, hus, hsub⟩ := h.sorts.1
  exact (hus.map Question.id).nodup_iff.mp (hids.sublist (hsub.map _))

/-- **A selection gives exactly the allowed outcomes.** -/
theorem selection_exact (pool : List Question) : Exact pool where
  none_iff := choose?_eq_none_iff pool
  levelled := possible_levelled
  sampled := possible_sampled
  placed _ h := subperm_iff_placed.mp h.sorts.1
  ascending _ h := h.sorts.2
  distinct hids _ h := h.nodup_ids hids
  chance := exists_draw_iff pool

end Selection

end Invigilator
