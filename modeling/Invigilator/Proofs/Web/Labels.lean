import Invigilator.Proofs.Web.Authority
import Mathlib.Data.List.Dedup
import Mathlib.Data.List.Perm.Subperm

/-!
# Labels of routes

A request is counted under the label of its path. A label is meant to tell the route of the
request and nothing of the values in the path: then there are no more labels than routes.

A route with its values is told by its path, and by nothing else (`ofPath?_path`,
`path_of_ofPath?`). The label of a path is itself a path: that of the route with its values
relabelled (`toList_pathLabel_of_plain`), unless a value is one of the words behind which a user's
id stands; then it leads nowhere (`ofPath?_pathLabel_of_not_plain`). What is left of a value is a
mark only if the value looks like what the label guesses at. So requests share the label of their
route exactly if their values are guessed right (`pathLabel_eq_iff`), and a route has as many
labels as it has ids that are not (`labels_unbounded`).
-/

namespace Invigilator

namespace Text

theorem splitOn_eq (separator : Char) (text : List Char) :
    splitOn separator text = text.splitOn separator := by
  induction text with
  | nil => rfl
  | cons c text ih =>
    rw [splitOn, List.splitOn_cons_eq_if_modifyHead, ih]
    simp only [beq_iff_eq]
    split
    · rfl
    · cases hparts : text.splitOn separator with
      | nil => exact absurd (ih.trans hparts) (splitOn_ne_nil separator text)
      | cons part parts => rfl

theorem splitOn_intercalate {separator : Char} {parts : List (List Char)} (hparts : parts ≠ [])
    (h : ∀ part ∈ parts, separator ∉ part) :
    splitOn separator ([separator].intercalate parts) = parts := by
  rw [splitOn_eq, List.splitOn_intercalate separator h hparts]

theorem intercalate_splitOn (separator : Char) (text : List Char) :
    [separator].intercalate (splitOn separator text) = text := by
  rw [splitOn_eq, List.intercalate_splitOn]

end Text

namespace Web

/-! ## Segments -/

/-- The label that stands for an id or a number. -/
def idMark : Value := "\x7bid\x7d".toList

/-- The label that stands for a user's id. -/
def userMark : Value := "\x7buser_id\x7d".toList

/-- What the label guesses to be an id. The mark itself passes for one. -/
def IdLike (v : Value) : Prop := looksLikeId v ∨ isNumber v ∨ v = idMark

/-- What the label guesses to be the id of a user, and takes for nothing else. -/
def UserLike (v : Value) : Prop :=
  looksLikeId v = false ∧ isNumber v = false ∧ v ∉ notUsers ∧ v ∉ userParents

instance (v : Value) : Decidable (IdLike v) := inferInstanceAs (Decidable (_ ∨ _ ∨ _))

instance (v : Value) : Decidable (UserLike v) := inferInstanceAs (Decidable (_ ∧ _ ∧ _ ∧ _))

theorem segmentLabel_eq_idMark_iff {v : Value} : segmentLabel none v = idMark ↔ IdLike v := by
  unfold segmentLabel IdLike
  by_cases hid : looksLikeId v = true
  · simp [hid, idMark]
  · by_cases hnumber : isNumber v = true
    · simp [hnumber, idMark]
    · simp [hid, hnumber]

theorem segmentLabel_eq_userMark_iff {v : Value} :
    segmentLabel (some "lives".toList) v = userMark ↔
      looksLikeId v = false ∧ isNumber v = false ∧ v ∉ notUsers := by
  have hlives : userParents.contains "lives".toList = true := by decide
  have hmark : idMark ≠ userMark := by decide
  have hnot : userMark ∉ notUsers := by decide
  rw [segmentLabel, Option.any_some, hlives, Bool.true_and]
  change (if _ then idMark else if _ then userMark else v) = userMark ↔ _
  by_cases hid : (looksLikeId v || isNumber v) = true
  · rw [if_pos hid]
    refine iff_of_false hmark ?_
    rintro ⟨hid', hnumber', -⟩
    rw [hid', hnumber'] at hid
    cases hid
  · -- neither an id nor a number, so it is taken for a user, unless it is a word of the paths
    rw [if_neg hid]
    rw [Bool.or_eq_true, not_or, Bool.not_eq_true, Bool.not_eq_true] at hid
    by_cases hv : v ∈ notUsers
    · rw [if_neg (by simp only [hv, List.contains_iff_mem.mpr, Bool.not_true]; nofun)]
      exact iff_of_false (fun heq => hnot (heq ▸ hv)) fun h => h.2.2 hv
    · rw [if_pos (by simpa using hv)]
      exact iff_of_true rfl ⟨hid.1, hid.2, hv⟩

/-- Only the words behind which a user's id stands matter to the segment behind. -/
theorem segmentLabel_behind {parent v : Value} (h : parent ∉ userParents) :
    segmentLabel (some parent) v = segmentLabel none v := by
  simp [segmentLabel, h]

theorem segmentLabel_behind_userParent {parent v : Value} (h : parent ∈ userParents) :
    segmentLabel (some parent) v = segmentLabel (some "lives".toList) v := by
  have hparent : userParents.contains parent = true := List.contains_iff_mem.mpr h
  have hlives : userParents.contains "lives".toList = true := by decide
  rw [segmentLabel, segmentLabel, Option.any_some, Option.any_some, hparent, hlives]

/-- A label is one of the marks, or it is the segment itself. -/
theorem segmentLabel_of_all {P : Value → Prop} {v : Value} (hid : P idMark) (huser : P userMark)
    (hv : P v) (parent : Option Value) : P (segmentLabel parent v) := by
  unfold segmentLabel
  split
  · exact hid
  · split
    · exact huser
    · exact hv

theorem segmentLabel_ne_nil {parent : Option Value} {v : Value} (h : v ≠ []) :
    segmentLabel parent v ≠ [] :=
  segmentLabel_of_all (P := fun v => v ≠ []) (by decide) (by decide) h parent

theorem slash_notMem_segmentLabel {parent : Option Value} {v : Value} (h : '/' ∉ v) :
    '/' ∉ segmentLabel parent v :=
  segmentLabel_of_all (P := fun v => '/' ∉ v) (by decide) (by decide) h parent

theorem slash_notMem_segmentLabels {parent : Option Value} {segments : List Value}
    (h : ∀ v ∈ segments, '/' ∉ v) : ∀ v ∈ segmentLabels parent segments, '/' ∉ v := by
  induction segments generalizing parent with
  | nil => nofun
  | cons segment rest ih =>
    rw [segmentLabels, List.forall_mem_cons]
    rw [List.forall_mem_cons] at h
    exact ⟨slash_notMem_segmentLabel h.1, ih h.2⟩

theorem IdLike.not_userParent {v : Value} (h : IdLike v) : v ∉ userParents := by
  intro hparent
  rcases (by simpa [userParents] using hparent : v = _ ∨ v = _) with rfl | rfl <;>
    exact absurd h (by decide)

namespace Route

/-! ## Paths of routes -/

/-- The segments of a path below the exams. -/
def inExams (rest : List Value) : List Value :=
  "".toList :: "api".toList :: "v1".toList :: "exams".toList :: rest

/-- The segments of a path below the administration. -/
def inAdmin (rest : List Value) : List Value := "".toList :: "admin".toList :: rest

/-- The segments of the path to a route. -/
def segments : Route → List Value
  | health => ["".toList, "health".toList]
  | metrics => ["".toList, "metrics".toList]
  | start => inExams []
  | exam id => inExams [id]
  | answer id index => inExams [id, "answers".toList, index]
  | run id index => inExams [id, "answers".toList, index, "runs".toList]
  | signals id => inExams [id, "signals".toList]
  | submit id => inExams [id, "submit".toList]
  | score id => inExams [id, "score".toList]
  | stream id => inExams [id, "stream".toList]
  | lives => ["".toList, "api".toList, "v1".toList, "lives".toList]
  | loseLife => ["".toList, "api".toList, "v1".toList, "lives".toList, "lose".toList]
  | sessions => inAdmin ["exams".toList]
  | blocked => inAdmin ["eligibility".toList, "blocked".toList]
  | approve user => inAdmin ["eligibility".toList, user, "approve".toList]
  | resetLives user => inAdmin ["lives".toList, user, "reset".toList]

/-- The path to a route. -/
def path (r : Route) : List Char := ['/'].intercalate r.segments

/-- The values in the path to a route. -/
def values : Route → List Value
  | exam v | signals v | submit v | score v | stream v | approve v | resetLives v => [v]
  | answer id index | run id index => [id, index]
  | health | metrics | start | lives | loseLife | sessions | blocked => []

/-- The values can stand in a path: none of them is empty or has a slash in it. -/
def Fits (r : Route) : Prop := ∀ v ∈ r.values, v ≠ [] ∧ '/' ∉ v

instance (r : Route) : Decidable r.Fits := inferInstanceAs (Decidable (∀ v ∈ r.values, _))

theorem segments_ne_nil (r : Route) : r.segments ≠ [] := by
  cases r <;> exact List.cons_ne_nil _ _

theorem Fits.slash_notMem {r : Route} (h : r.Fits) : ∀ v ∈ r.segments, '/' ∉ v := by
  cases r <;> simp_all [Fits, values, segments, inExams, inAdmin]

theorem Fits.splitOn_path {r : Route} (h : r.Fits) : Text.splitOn '/' r.path = r.segments :=
  Text.splitOn_intercalate r.segments_ne_nil h.slash_notMem

/-- **The path to a route leads there.** -/
theorem ofPath?_path {r : Route} (h : r.Fits) : ofPath? r.path = some r := by
  rw [ofPath?, h.splitOn_path]
  cases r <;> simp_all [Fits, values, segments, inExams, inAdmin, ofExamSegments?,
    ofAdminSegments?]

theorem segments_of_ofExamSegments? {segments : List String} {r : Route}
    (h : ofExamSegments? segments = some r) :
    r.segments = inExams (segments.map String.toList) := by
  unfold ofExamSegments? at h
  repeat' split at h
  all_goals cases h
  all_goals rfl

theorem segments_of_ofAdminSegments? {segments : List String} {r : Route}
    (h : ofAdminSegments? segments = some r) :
    r.segments = inAdmin (segments.map String.toList) := by
  unfold ofAdminSegments? at h
  split at h
  all_goals cases h
  all_goals rfl

/-- **A path that leads to a route is the path to it.** -/
theorem path_of_ofPath? {path : List Char} {r : Route} (h : ofPath? path = some r) :
    path = r.path := by
  have hparts {names : List String}
      (hnames : (Text.splitOn '/' path).map String.ofList = names) :
      Text.splitOn '/' path = names.map String.toList := by
    have hid : String.toList ∘ String.ofList = id := funext fun _ => String.toList_ofList
    rw [← hnames, List.map_map, hid, List.map_id]
  have hsegments : Text.splitOn '/' path = r.segments := by
    unfold ofPath? at h
    split at h
    case h_3 rest hnames => rw [hparts hnames, segments_of_ofExamSegments? h]; rfl
    case h_6 rest hnames => rw [hparts hnames, segments_of_ofAdminSegments? h]; rfl
    all_goals cases h
    all_goals exact hparts ‹_›
  rw [Route.path, ← hsegments, Text.intercalate_splitOn]

/-! ## Routes with other values -/

/-- The route with other values. -/
def withValues (id user : Value → Value) : Route → Route
  | exam v => .exam (id v)
  | answer v index => .answer (id v) (id index)
  | run v index => .run (id v) (id index)
  | signals v => .signals (id v)
  | submit v => .submit (id v)
  | score v => .score (id v)
  | stream v => .stream (id v)
  | approve v => .approve (user v)
  | resetLives v => .resetLives (user v)
  | health => .health
  | metrics => .metrics
  | start => .start
  | lives => .lives
  | loseLife => .loseLife
  | sessions => .sessions
  | blocked => .blocked

/-- The route with a mark for each value. -/
def template : Route → Route := withValues (fun _ => idMark) fun _ => userMark

/-- The route with the label of each value. -/
def relabelled : Route → Route :=
  withValues (segmentLabel none) (segmentLabel (some "lives".toList))

theorem template_withValues (id user : Value → Value) (r : Route) :
    (r.withValues id user).template = r.template := by
  cases r <;> rfl

theorem template_template (r : Route) : r.template.template = r.template :=
  template_withValues _ _ r

theorem template_relabelled (r : Route) : r.relabelled.template = r.template :=
  template_withValues _ _ r

theorem fits_withValues {id user : Value → Value} {r : Route}
    (hid : ∀ v, v ≠ [] ∧ '/' ∉ v → id v ≠ [] ∧ '/' ∉ id v)
    (huser : ∀ v, v ≠ [] ∧ '/' ∉ v → user v ≠ [] ∧ '/' ∉ user v) (h : r.Fits) :
    (r.withValues id user).Fits := by
  cases r <;> simp_all [Fits, values, withValues]

theorem Fits.template {r : Route} (h : r.Fits) : r.template.Fits :=
  fits_withValues (fun _ _ => by decide) (fun _ _ => by decide) h

theorem Fits.relabelled {r : Route} (h : r.Fits) : r.relabelled.Fits :=
  fits_withValues (fun _ hv => ⟨segmentLabel_ne_nil hv.1, slash_notMem_segmentLabel hv.2⟩)
    (fun _ hv => ⟨segmentLabel_ne_nil hv.1, slash_notMem_segmentLabel hv.2⟩) h

/-! ## The path that a label is -/

/-- The labels of the segments of a path to a route. -/
def labels (r : Route) : List Value := segmentLabels none r.segments

theorem toList_pathLabel {r : Route} (h : r.Fits) :
    (pathLabel r.path).toList = ['/'].intercalate r.labels := by
  rw [pathLabel, String.toList_ofList, h.splitOn_path, labels]

/-- The words of a path to the exams are their own labels. -/
theorem segmentLabels_inExams (rest : List Value) :
    segmentLabels none (inExams rest) = inExams (segmentLabels (some "exams".toList) rest) := rfl

theorem segmentLabels_inAdmin (rest : List Value) :
    segmentLabels none (inAdmin rest) = inAdmin (segmentLabels (some "admin".toList) rest) := rfl

/-- No value in front of another segment is a word behind which a user's id stands. -/
def Plain : Route → Prop
  | answer v _ | signals v | submit v | score v | stream v | approve v | resetLives v =>
    v ∉ userParents
  | run v index => v ∉ userParents ∧ index ∉ userParents
  | exam _ | health | metrics | start | lives | loseLife | sessions | blocked => True

theorem labels_relabelled {r : Route} (h : r.Plain) : r.labels = r.relabelled.segments := by
  have hexams : "exams".toList ∉ userParents := by decide
  have hanswers : "answers".toList ∉ userParents := by decide
  have heligibility : "eligibility".toList ∈ userParents := by decide
  cases r with
  | health | metrics | start | lives | loseLife | sessions | blocked => rfl
  | exam v =>
    rw [labels, segments, segmentLabels_inExams, segmentLabels, segmentLabel_behind hexams]
    rfl
  | signals v | submit v | score v | stream v =>
    rw [labels, segments, segmentLabels_inExams, segmentLabels, segmentLabels,
      segmentLabel_behind hexams, segmentLabel_behind h]
    rfl
  | answer v index =>
    rw [labels, segments, segmentLabels_inExams, segmentLabels, segmentLabels, segmentLabels,
      segmentLabel_behind hexams, segmentLabel_behind h, segmentLabel_behind hanswers]
    rfl
  | run v index =>
    rw [labels, segments, segmentLabels_inExams, segmentLabels, segmentLabels, segmentLabels,
      segmentLabels, segmentLabel_behind hexams, segmentLabel_behind h.1,
      segmentLabel_behind hanswers, segmentLabel_behind h.2]
    rfl
  | approve v =>
    rw [labels, segments, segmentLabels_inAdmin, segmentLabels, segmentLabels, segmentLabels,
      segmentLabel_behind_userParent heligibility, segmentLabel_behind h]
    rfl
  | resetLives v =>
    rw [labels, segments, segmentLabels_inAdmin, segmentLabels, segmentLabels, segmentLabels,
      segmentLabel_behind h]
    rfl

theorem ofPath?_inExams {path : List Char} {rest : List Value}
    (h : Text.splitOn '/' path = inExams rest) :
    ofPath? path = ofExamSegments? (rest.map String.ofList) := by
  rw [ofPath?, h]; rfl

theorem ofPath?_inAdmin {path : List Char} {rest : List Value}
    (h : Text.splitOn '/' path = inAdmin rest) :
    ofPath? path = ofAdminSegments? (rest.map String.ofList) := by
  rw [ofPath?, h]; rfl

theorem ofExamSegments?_four {a b c d : String} (h : d ≠ "runs") :
    ofExamSegments? [a, b, c, d] = none := by
  unfold ofExamSegments?
  split <;> simp_all

theorem ofAdminSegments?_three {a b c : String} (h : c ≠ "approve" ∧ c ≠ "reset") :
    ofAdminSegments? [a, b, c] = none := by
  unfold ofAdminSegments?
  split <;> simp_all

theorem splitOn_pathLabel {r : Route} (h : r.Fits) :
    Text.splitOn '/' (pathLabel r.path).toList = r.labels := by
  rw [toList_pathLabel h]
  refine Text.splitOn_intercalate ?_ (slash_notMem_segmentLabels h.slash_notMem)
  rw [labels]
  obtain ⟨segment, rest, hsegments⟩ := List.exists_cons_of_ne_nil r.segments_ne_nil
  rw [hsegments, segmentLabels]
  exact List.cons_ne_nil _ _

/-- **The label of a path is the path of the route with its values relabelled.** -/
theorem toList_pathLabel_of_plain {r : Route} (h : r.Fits) (hplain : r.Plain) :
    (pathLabel r.path).toList = r.relabelled.path := by
  rw [toList_pathLabel h, labels_relabelled hplain, Route.path]

/-- The label of any other path leads nowhere: a word in it is taken for a user's id. -/
theorem ofPath?_pathLabel_of_not_plain {r : Route} (h : r.Fits) (hplain : ¬r.Plain) :
    ofPath? (pathLabel r.path).toList = none := by
  have hsplit := splitOn_pathLabel h
  cases r with
  | exam _ | health | metrics | start | lives | loseLife | sessions | blocked =>
    exact absurd trivial hplain
  | signals v | submit v | score v | stream v | answer v index =>
    -- the word behind the id is taken for a user, and no route has a user there
    have hv : v ∈ userParents := not_not.mp hplain
    rw [labels, segments, segmentLabels_inExams, segmentLabels, segmentLabels,
      segmentLabel_behind_userParent hv] at hsplit
    rw [ofPath?_inExams hsplit]
    rfl
  | run v index =>
    rw [labels, segments, segmentLabels_inExams, segmentLabels, segmentLabels, segmentLabels,
      segmentLabels] at hsplit
    rw [ofPath?_inExams hsplit]
    -- either of the two words behind the values may be taken so
    rcases not_and_or.mp hplain with hv | hindex
    · rw [segmentLabel_behind_userParent (not_not.mp hv)]
      rfl
    · rw [segmentLabel_behind_userParent (not_not.mp hindex)]
      exact ofExamSegments?_four (by decide)
  | approve v | resetLives v =>
    have hv : v ∈ userParents := not_not.mp hplain
    rw [labels, segments, segmentLabels_inAdmin, segmentLabels, segmentLabels, segmentLabels,
      segmentLabel_behind_userParent hv] at hsplit
    rw [ofPath?_inAdmin hsplit]
    exact ofAdminSegments?_three (by decide)

/-! ## Values that are guessed right -/

/-- The label guesses the values of the route right. -/
def Regular : Route → Prop
  | exam v | signals v | submit v | score v | stream v => IdLike v
  | answer v index | run v index => IdLike v ∧ IdLike index
  | approve v | resetLives v => UserLike v
  | health | metrics | start | lives | loseLife | sessions | blocked => True

instance : (r : Route) → Decidable r.Regular
  | exam v | signals v | submit v | score v | stream v => inferInstanceAs (Decidable (IdLike v))
  | answer v index | run v index => inferInstanceAs (Decidable (IdLike v ∧ IdLike index))
  | approve v | resetLives v => inferInstanceAs (Decidable (UserLike v))
  | health | metrics | start | lives | loseLife | sessions | blocked =>
    inferInstanceAs (Decidable True)

theorem regular_iff {r : Route} : r.Regular ↔ r.Plain ∧ r.relabelled = r.template := by
  cases r with
  | health | metrics | start | lives | loseLife | sessions | blocked =>
    exact ⟨fun _ => ⟨trivial, rfl⟩, fun _ => trivial⟩
  | exam v => simp [Regular, Plain, relabelled, template, withValues, segmentLabel_eq_idMark_iff]
  | signals v | submit v | score v | stream v =>
    simp only [Regular, Plain, relabelled, template, withValues, signals.injEq, submit.injEq,
      score.injEq, stream.injEq, segmentLabel_eq_idMark_iff]
    exact ⟨fun h => ⟨h.not_userParent, h⟩, And.right⟩
  | answer v index =>
    simp only [Regular, Plain, relabelled, template, withValues, answer.injEq,
      segmentLabel_eq_idMark_iff]
    exact ⟨fun h => ⟨h.1.not_userParent, h⟩, And.right⟩
  | run v index =>
    simp only [Regular, Plain, relabelled, template, withValues, run.injEq,
      segmentLabel_eq_idMark_iff]
    exact ⟨fun h => ⟨⟨h.1.not_userParent, h.2.not_userParent⟩, h⟩, And.right⟩
  | approve v | resetLives v =>
    simp only [Regular, Plain, relabelled, template, withValues, approve.injEq,
      resetLives.injEq, segmentLabel_eq_userMark_iff, UserLike]
    tauto

theorem toList_pathLabel_of_regular {r : Route} (h : r.Fits) (hregular : r.Regular) :
    (pathLabel r.path).toList = r.template.path := by
  obtain ⟨hplain, htemplate⟩ := regular_iff.mp hregular
  rw [toList_pathLabel_of_plain h hplain, htemplate]

/-- The routes with a mark for each value. -/
def templates : List Route :=
  [.health, .metrics, .start, .exam idMark, .answer idMark idMark, .run idMark idMark,
    .signals idMark, .submit idMark, .score idMark, .stream idMark, .lives, .loseLife, .sessions,
    .blocked, .approve userMark, .resetLives userMark]

theorem template_mem_templates (r : Route) : r.template ∈ templates := by
  cases r <;> simp [template, withValues, templates]

/-- **The label of a route whose values are guessed right is shared by exactly the requests to the
same route whose values are guessed right.** -/
theorem pathLabel_eq_iff {r r' : Route} (h : r.Fits) (h' : r'.Fits) (hregular : r.Regular) :
    pathLabel r'.path = pathLabel r.path ↔ r'.template = r.template ∧ r'.Regular := by
  constructor
  · intro hlabel
    have hpath : (pathLabel r'.path).toList = r.template.path := by
      rw [hlabel, toList_pathLabel_of_regular h hregular]
    have hroute : ofPath? (pathLabel r'.path).toList = some r.template := by
      rw [hpath, ofPath?_path h.template]
    -- a label that leads somewhere was not spoilt by a word that is taken for a user
    have hplain : r'.Plain := by
      by_contra hnot
      rw [ofPath?_pathLabel_of_not_plain h' hnot] at hroute
      cases hroute
    have hrelabelled : r'.relabelled = r.template := by
      rw [toList_pathLabel_of_plain h' hplain, ofPath?_path h'.relabelled] at hroute
      exact Option.some.inj hroute
    have htemplate : r'.template = r.template := by
      rw [← template_relabelled r', hrelabelled, template_template]
    exact ⟨htemplate, regular_iff.mpr ⟨hplain, hrelabelled.trans htemplate.symm⟩⟩
  · rintro ⟨htemplate, hregular'⟩
    rw [← String.toList_inj, toList_pathLabel_of_regular h' hregular',
      toList_pathLabel_of_regular h hregular, htemplate]

/-- There are at most as many labels as routes, if all values are guessed right. -/
theorem length_labels_le {routes : List Route} (h : ∀ r ∈ routes, r.Fits ∧ r.Regular) :
    (routes.map fun r => pathLabel r.path).dedup.length ≤ templates.length := by
  have hsubset : (routes.map fun r => pathLabel r.path).dedup ⊆
      templates.map fun r => String.ofList r.path := by
    intro label hlabel
    obtain ⟨r, hr, rfl⟩ := List.mem_map.mp (List.mem_dedup.mp hlabel)
    obtain ⟨hfits, hregular⟩ := h r hr
    refine List.mem_map.mpr ⟨r.template, template_mem_templates r, ?_⟩
    rw [← toList_pathLabel_of_regular hfits hregular, String.ofList_toList]
  have hlength := ((List.nodup_dedup _).subperm hsubset).length_le
  rwa [List.length_map] at hlength

/-- **Requests whose values are guessed right have one label for each route.** Their label is
shared with exactly the requests to the same route whose values are guessed right too, and they
have at most as many labels as there are routes. -/
theorem one_label_per_route {routes : List Route} (h : ∀ r ∈ routes, r.Fits ∧ r.Regular) :
    (∀ r ∈ routes, ∀ r' : Route, r'.Fits →
      (pathLabel r'.path = pathLabel r.path ↔ r'.template = r.template ∧ r'.Regular)) ∧
    (routes.map fun r => pathLabel r.path).dedup.length ≤ templates.length :=
  ⟨fun r hr _ h' => pathLabel_eq_iff (h r hr).1 h' (h r hr).2, length_labels_le h⟩

/-- The paths to a question of an exam, and to the practice lives of a user. -/
theorem one_label_per_route_sample :
    let routes := [answer "550e8400-e29b-41d4-a716-446655440000".toList "2".toList,
      resetLives "bob".toList]
    (∀ r ∈ routes, r.Fits ∧ r.Regular) ∧
    (∀ r ∈ routes, ∀ r' : Route, r'.Fits →
      (pathLabel r'.path = pathLabel r.path ↔ r'.template = r.template ∧ r'.Regular)) ∧
    (routes.map fun r => pathLabel r.path).dedup.length ≤ templates.length := by
  have h : ∀ r ∈ [answer "550e8400-e29b-41d4-a716-446655440000".toList "2".toList,
      resetLives "bob".toList], r.Fits ∧ r.Regular := by decide
  exact ⟨h, one_label_per_route h⟩

/-- Two ids that are not guessed have two labels, and behind the id `lives` two routes share
one. -/
theorem not_one_label_per_route :
    ((exam "abc".toList).Fits ∧ (exam "abd".toList).Fits ∧
      (exam "abc".toList).template = (exam "abd".toList).template ∧
      pathLabel (exam "abc".toList).path ≠ pathLabel (exam "abd".toList).path) ∧
    (score "lives".toList).Fits ∧ (submit "lives".toList).Fits ∧
      (score "lives".toList).template ≠ (submit "lives".toList).template ∧
      pathLabel (score "lives".toList).path = pathLabel (submit "lives".toList).path := by
  decide

/-! ## Values that are not guessed -/

theorem segmentLabel_of_not_idLike {v : Value} (h : ¬IdLike v) : segmentLabel none v = v := by
  rw [IdLike, not_or, not_or, Bool.not_eq_true, Bool.not_eq_true] at h
  rw [segmentLabel, h.1, h.2.1]
  rfl

/-- An id that is not guessed is left in the label. -/
theorem toList_pathLabel_exam {v : Value} (h : (exam v).Fits) (hv : ¬IdLike v) :
    (pathLabel (exam v).path).toList = (exam v).path := by
  rw [toList_pathLabel_of_plain h trivial, relabelled, withValues, segmentLabel_of_not_idLike hv]

/-- An id of a letter that is no digit. -/
def lettered (k : Nat) : Value := List.replicate (k + 1) 'x'

theorem fits_lettered (k : Nat) : (exam (lettered k)).Fits := by
  intro v hv
  obtain rfl : v = lettered k := List.mem_singleton.mp hv
  refine ⟨List.cons_ne_nil _ _, fun hslash => ?_⟩
  exact absurd (List.eq_of_mem_replicate hslash) (by decide)

/-- The first letter gives it away. -/
theorem not_idLike_lettered (k : Nat) : ¬IdLike (lettered k) := by
  have hdigit : Decimal.isDigit 'x' = false := by decide
  have hhex : hexValue? 120 = none := by decide
  have hid : looksLikeId (lettered k) = false := by
    simp [looksLikeId, lettered, List.replicate_succ, hhex]
  have hnumber : isNumber (lettered k) = false := by
    simp [isNumber, lettered, List.replicate_succ, hdigit]
  rintro (h | h | h)
  · exact absurd (hid.symm.trans h) (by decide)
  · exact absurd (hnumber.symm.trans h) (by decide)
  · exact absurd (List.cons.inj h).1 (by decide)

/-- **There are as many labels of one route as there are ids.** -/
theorem labels_unbounded (n : Nat) : ∃ routes : List Route, routes.length = n ∧
    (∀ r ∈ routes, r.Fits ∧ r.template = .exam idMark) ∧
    (routes.map fun r => pathLabel r.path).Nodup := by
  have hinjective : Function.Injective fun k => pathLabel (exam (lettered k)).path := by
    intro k l hlabel
    have hpath : (exam (lettered k)).path = (exam (lettered l)).path := by
      rw [← toList_pathLabel_exam (fits_lettered k) (not_idLike_lettered k),
        ← toList_pathLabel_exam (fits_lettered l) (not_idLike_lettered l)]
      exact congrArg String.toList hlabel
    have hroute := congrArg ofPath? hpath
    rw [ofPath?_path (fits_lettered k), ofPath?_path (fits_lettered l)] at hroute
    -- letters alone are no id, so the labels differ as the values do, in their length
    have hlength := congrArg List.length (exam.inj (Option.some.inj hroute))
    rw [lettered, lettered, List.length_replicate, List.length_replicate] at hlength
    exact Nat.succ.inj hlength
  refine ⟨(List.range n).map fun k => exam (lettered k), ?_, ?_, ?_⟩
  · rw [List.length_map, List.length_range]
  · intro r hr
    obtain ⟨k, -, rfl⟩ := List.mem_map.mp hr
    exact ⟨fits_lettered k, rfl⟩
  · rw [List.map_map]
    exact List.nodup_range.map hinjective

end Route

end Web

end Invigilator
