/-!
# Cutting text

Texts taken apart at their front or at a separator. Nothing is lost but the separator: putting
the parts together with it gives the text again (`cutAt_eq_some`, `cutAtLast_eq_some`). A text is
cut where it was put together if the part on the near side has no separator in it
(`cutAt_append`, `cutAtLast_append`).
-/

namespace Invigilator.Text

/-- Whether a text starts with another, and what follows it there. -/
def after? : (start text : List Char) → Option (List Char)
  | [], rest => some rest
  | _ :: _, [] => none
  | a :: start, b :: rest => if a = b then after? start rest else none

/-- The parts of a text between the occurrences of a separator; there is always at least one. -/
def splitOn (separator : Char) : List Char → List (List Char)
  | [] => [[]]
  | c :: rest =>
    if c = separator then [] :: splitOn separator rest
    else
      match splitOn separator rest with
      | [] => [[c]]
      | part :: parts => (c :: part) :: parts

/-- The parts of a text at its first separator, or `none` if it has none. -/
def cutAt (separator : Char) : List Char → Option (List Char × List Char)
  | [] => none
  | c :: rest =>
    if c = separator then some ([], rest)
    else (cutAt separator rest).map fun (before, behind) => (c :: before, behind)

/-- The parts of a text at its last separator, or `none` if it has none. -/
def cutAtLast (separator : Char) (cs : List Char) : Option (List Char × List Char) :=
  (cutAt separator cs.reverse).map fun (behind, before) => (before.reverse, behind.reverse)

/-- The part of a text in front of the first occurrence of another, or all of it. -/
def before (mark : List Char) : List Char → List Char
  | [] => []
  | c :: rest => if (after? mark (c :: rest)).isSome then [] else c :: before mark rest

theorem cutAt_eq_some {separator : Char} {cs before behind : List Char}
    (h : cutAt separator cs = some (before, behind)) : cs = before ++ separator :: behind := by
  induction cs generalizing before behind with
  | nil => simp [cutAt] at h
  | cons c rest ih =>
    rw [cutAt] at h
    split at h
    · next hc => simp only [Option.some.injEq, Prod.mk.injEq] at h; simp [← h.1, ← h.2, hc]
    · obtain ⟨⟨b, r⟩, hb, he⟩ := Option.map_eq_some_iff.1 h
      simp only [Prod.mk.injEq] at he
      simp [ih hb, ← he.1, ← he.2]

theorem cutAtLast_eq_some {separator : Char} {cs before behind : List Char}
    (h : cutAtLast separator cs = some (before, behind)) :
    cs = before ++ separator :: behind := by
  obtain ⟨⟨b, r⟩, hb, he⟩ := Option.map_eq_some_iff.1 h
  simp only [Prod.mk.injEq] at he
  have := congrArg List.reverse (cutAt_eq_some hb)
  simpa [← he.1, ← he.2] using this

/-- A text is cut at its first separator. -/
theorem notMem_of_cutAt {separator : Char} {cs before behind : List Char}
    (h : cutAt separator cs = some (before, behind)) : separator ∉ before := by
  induction cs generalizing before behind with
  | nil => cases h
  | cons c rest ih =>
    rw [cutAt] at h
    split at h
    · cases h
      exact List.not_mem_nil
    · rename_i hc
      obtain ⟨⟨b, r⟩, hb, he⟩ := Option.map_eq_some_iff.1 h
      cases he
      exact List.not_mem_cons_of_ne_of_not_mem (Ne.symm hc) (ih hb)

theorem cutAt_append {separator : Char} {before : List Char} (behind : List Char)
    (h : separator ∉ before) :
    cutAt separator (before ++ separator :: behind) = some (before, behind) := by
  induction before with
  | nil => rw [List.nil_append, cutAt, if_pos rfl]
  | cons c before ih =>
    obtain ⟨hc, hbefore⟩ := List.ne_and_not_mem_of_not_mem_cons h
    rw [List.cons_append, cutAt, if_neg (Ne.symm hc), ih hbefore]
    rfl

/-- A text is cut at its last separator. -/
theorem notMem_of_cutAtLast {separator : Char} {cs before behind : List Char}
    (h : cutAtLast separator cs = some (before, behind)) : separator ∉ behind := by
  obtain ⟨⟨b, r⟩, hb, he⟩ := Option.map_eq_some_iff.1 h
  cases he
  exact fun hmem => notMem_of_cutAt hb (List.mem_reverse.mp hmem)

theorem cutAtLast_append {separator : Char} (before : List Char) {behind : List Char}
    (h : separator ∉ behind) :
    cutAtLast separator (before ++ separator :: behind) = some (before, behind) := by
  have hreverse : (before ++ separator :: behind).reverse =
      behind.reverse ++ separator :: before.reverse := by simp
  rw [cutAtLast, hreverse, cutAt_append _ fun hmem => h (List.mem_reverse.mp hmem)]
  simp

end Invigilator.Text
