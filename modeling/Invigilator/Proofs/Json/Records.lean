import Invigilator.Exam.Trio
import Invigilator.Proofs.Json.Parsing
import Invigilator.Proofs.Time.Reading

/-!
# Records are read as they were written

What comes back from a text is decided field by field. `Carries` says of one value that its writer
and its reader agree on it: what is written can stand in a text, and is read as the value it was
written for. It is proved here of all that fields are made of, and passed on by lists, options and
trios.

A record adds the names. As they differ, every field finds its own member and no other
(`slots?_object`), also where a patch leaves members out (`slots?_entries`); a tagged record finds
its variant besides, for which it has to be held in memory (`variant?_tagged`).
-/

namespace Invigilator.Json

/-- A value that its writer and its reader agree on. -/
structure Carries {α : Type} (write : α → Json) (read : Json → Option α) (a : α) : Prop where
  plain : (write a).Plain
  read_eq : read (write a) = some a

/-- **A value that is carried comes back from its text.** -/
theorem Carries.read?_write {α : Type} {write : α → Json} {read : Json → Option α} {a : α}
    (h : Carries write read a) : (read? (write a).write).bind read = some a := by
  rw [Json.read?_write h.plain]
  exact h.read_eq

/-- Values that are carried have texts of their own. -/
theorem Carries.write_inj {α : Type} {write : α → Json} {read : Json → Option α} {a b : α}
    (ha : Carries write read a) (hb : Carries write read b)
    (h : (write a).write = (write b).write) : a = b := by
  have hsame := ha.read?_write
  rw [h, hb.read?_write] at hsame
  exact (Option.some.inj hsame).symm

/-! ## What fields are made of -/

theorem carries_text (s : String) : Carries .text text? s := ⟨trivial, rfl⟩

theorem carries_bool (b : Bool) : Carries .bool bool? b := ⟨trivial, rfl⟩

/-- Whole numbers are carried below a limit that no text is too short for. -/
theorem carries_natBelow {limit n : Nat} (h : n < limit) (hlimit : limit ≤ Nat.pow 2 64) :
    Carries .nat (natBelow? limit) n where
  plain := Nat.lt_of_lt_of_le h (Nat.le_trans hlimit (by decide))
  read_eq := if_pos h

theorem carries_nat8 {n : Nat} (h : n < Nat.pow 2 8) : Carries .nat nat8? n :=
  carries_natBelow h (by decide)

theorem carries_nat32 {n : Nat} (h : n < Nat.pow 2 32) : Carries .nat nat32? n :=
  carries_natBelow h (by decide)

theorem carries_nat64 {n : Nat} (h : n < Nat.pow 2 64) : Carries .nat nat64? n :=
  carries_natBelow h (Nat.le_refl _)

theorem carries_stamp {s : Stamp} (h : s.Datable) : Carries Stamp.toJson Stamp.ofJson? s :=
  ⟨trivial, Stamp.read?_write h⟩

section Containers

variable {α : Type} {write : α → Json} {read : Json → Option α}

/-- A list is carried if its items are. -/
theorem carries_listOf {as : List α} (h : ∀ a ∈ as, Carries write read a) :
    Carries (.listOf write) (listOf? read) as := by
  induction as with
  | nil => exact ⟨trivial, rfl⟩
  | cons a as ih =>
    obtain ⟨hplain, hread⟩ := ih fun b hb => h b (List.mem_cons_of_mem a hb)
    have ha := h a List.mem_cons_self
    refine ⟨⟨ha.plain, hplain⟩, ?_⟩
    change ((a :: as).map write).mapM read = _
    change (as.map write).mapM read = _ at hread
    rw [List.map_cons, List.mapM_cons, ha.read_eq, hread]
    rfl

theorem carries_trio {t : Trio α} (h : ∀ a ∈ t.toList, Carries write read a) :
    Carries (Trio.toJson write) (Trio.ofJson? read) t := by
  obtain ⟨hplain, hread⟩ := carries_listOf h
  refine ⟨hplain, ?_⟩
  change (listOf? read (.listOf write t.toList)).bind Trio.ofList? = some t
  rw [hread]
  exact Trio.ofList?_toList t

/-- An option is carried, written as null if it is empty, where null stands for no value. -/
theorem optional_option {o : Option α} (h : ∀ a ∈ o, Carries write read a)
    (hnull : read .null = none) : optional read (some (.option write o)) = some o := by
  cases o with
  | none => rfl
  | some a =>
    have hread := (h a rfl).read_eq
    rw [Json.option]
    cases hj : write a with
    | null => rw [hj, hnull] at hread; cases hread
    | _ => rw [optional, ← hj, hread, Option.map_some]; exact nofun

/-- An option is carried that is left out if it is empty. -/
theorem optional_map {o : Option α} (h : ∀ a ∈ o, Carries write read a)
    (hnull : read .null = none) : optional read (o.map write) = some o := by
  cases o with
  | none => rfl
  | some a => exact optional_option h hnull

theorem plain_option {o : Option α} (h : ∀ a ∈ o, Carries write read a) :
    (Json.option write o).Plain := by
  cases o with
  | none => trivial
  | some a => exact (h a rfl).plain

theorem plain_map {o : Option α} (h : ∀ a ∈ o, Carries write read a) :
    ∀ j ∈ o.map write, j.Plain := by
  intro j hj
  obtain ⟨a, ha, rfl⟩ := Option.map_eq_some_iff.mp hj
  exact (h a ha).plain

end Containers

/-! ## Fields and their members -/

/-- The members of a record, some of which may be left out. -/
def present (entries : List (String × Option Json)) : List (String × Json) :=
  entries.filterMap fun (name, j) => j.map fun j => (name, j)

theorem present_cons (e : String × Option Json) (entries : List (String × Option Json)) :
    present (e :: entries) = (e.2.map (e.1, ·)).toList ++ present entries := by
  obtain ⟨name, j⟩ := e
  cases j <;> rfl

/-- No member has a name that is not there. -/
theorem filter_present_eq_nil {entries : List (String × Option Json)} {name : String}
    (h : name ∉ entries.map Prod.fst) : (present entries).filter (fun m => m.1 == name) = [] := by
  rw [List.filter_eq_nil_iff]
  intro m hm hname
  obtain ⟨⟨name', j⟩, he, hj⟩ := List.mem_filterMap.mp hm
  obtain ⟨j', -, rfl⟩ := Option.map_eq_some_iff.mp hj
  exact h (List.mem_map.mpr ⟨_, he, beq_iff_eq.mp hname⟩)

/-- A name that is there once has its own member, or none. -/
theorem filter_present {entries : List (String × Option Json)}
    (h : (entries.map Prod.fst).Nodup) {name : String} {j : Option Json}
    (hmem : (name, j) ∈ entries) :
    (present entries).filter (fun m => m.1 == name) = (j.map (name, ·)).toList := by
  induction entries with
  | nil => cases hmem
  | cons e entries ih =>
    rw [List.map_cons, List.nodup_cons] at h
    rw [present_cons, List.filter_append]
    rcases List.mem_cons.mp hmem with rfl | hmem
    · -- the name is not there again behind
      rw [filter_present_eq_nil h.1, List.append_nil]
      cases j with
      | none => rfl
      | some j => exact List.filter_cons_of_pos BEq.rfl
    · have hother : e.1 ≠ name := by
        rintro rfl
        exact h.1 (List.mem_map.mpr ⟨_, hmem, rfl⟩)
      have hfirst : (e.2.map (e.1, ·)).toList.filter (fun m => m.1 == name) = [] := by
        cases e.2 with
        | none => rfl
        | some j' => exact List.filter_cons_of_neg (by rw [beq_false_of_ne hother]; decide)
      rw [hfirst, List.nil_append]
      exact ih h.2 hmem

/-- **Every field finds what was written under its name,** and nothing where it was left out. -/
theorem slots?_entries {fields : List Field} {entries : List (String × Option Json)}
    (hnames : fields.map Field.name = entries.map Prod.fst)
    (hnodup : (fields.map Field.name).Nodup) :
    slots? fields (.object (present entries)) = some (entries.map Prod.snd) := by
  rw [hnames] at hnodup
  -- the induction is on the fields still to be filled, with the members of all of them at hand
  suffices hmapM : ∀ (fs : List Field) (es : List (String × Option Json)),
      fs.map Field.name = es.map Prod.fst → (∀ e ∈ es, e ∈ entries) →
        fs.mapM (slotOfMembers (present entries)) = some (es.map Prod.snd) from
    hmapM fields entries hnames fun _ he => he
  intro fs
  induction fs with
  | nil =>
    intro es hes _
    rw [List.map_nil, eq_comm, List.map_eq_nil_iff] at hes
    rw [hes]
    rfl
  | cons f fs ih =>
    intro es hes hsub
    obtain ⟨⟨name, j⟩, es, rfl, hname, hrest⟩ := List.map_eq_cons_iff.mp hes.symm
    have hslot : slotOfMembers (present entries) f = some j := by
      have hname' : name = f.name := hname
      rw [slotOfMembers, ← hname', filter_present hnodup (hsub _ List.mem_cons_self)]
      cases j <;> rfl
    rw [List.mapM_cons, hslot, ih es hrest.symm fun e he => hsub e (List.mem_cons_of_mem _ he)]
    rfl

/-- Every field finds its own member. -/
theorem slots?_object {fields : List Field} {members : List (String × Json)}
    (hnames : fields.map Field.name = members.map Prod.fst)
    (hnodup : (fields.map Field.name).Nodup) :
    slots? fields (.object members) = some (members.map fun m => some m.2) := by
  let entries := members.map fun m => (m.1, some m.2)
  have hpresent : present entries = members := by
    change (members.map _).filterMap _ = members
    rw [List.filterMap_map]
    exact List.filterMap_some
  have hentries : slots? fields (.object (present entries)) = some (entries.map Prod.snd) :=
    slots?_entries (by rw [hnames, List.map_map]; rfl) hnodup
  rw [hpresent, List.map_map] at hentries
  exact hentries

/-- A record with members left out is plain if those that are there are. -/
theorem plainMembers_present (entries : List (String × Option Json))
    (h : ∀ e ∈ entries, ∀ j ∈ e.2, j.Plain) : PlainMembers (present entries) := by
  induction entries with
  | nil => trivial
  | cons e entries ih =>
    have hrest := ih fun e' he' => h e' (List.mem_cons_of_mem e he')
    rw [present_cons]
    cases hj : e.2 with
    | none => exact hrest
    | some j => exact ⟨h e List.mem_cons_self j hj, hrest⟩

/-! ## Tagged records -/

theorem plain_tagged_nil (name : String) : (tagged name []).Plain := ⟨trivial, trivial⟩

/-- A value that memory holds wherever so many levels of nesting are left. -/
def Fits (depth : Nat) (j : Json) : Prop := ∀ levels, depth ≤ levels → j.grip levels = .held

theorem fits_text (depth : Nat) (s : String) : (text s).Fits depth := fun _ _ => rfl

theorem fits_bool (depth : Nat) (b : Bool) : (bool b).Fits depth := fun _ _ => rfl

theorem fits_nat (depth : Nat) {n : Nat} (h : n < Nat.pow 2 64) : (nat n).Fits depth :=
  fun _ _ => if_pos h

def FitMembers (depth : Nat) : List (String × Json) → Prop
  | [] => True
  | (_, j) :: rest => j.Fits depth ∧ FitMembers depth rest

theorem gripMembers_held {depth levels : Nat} {members : List (String × Json)}
    (h : FitMembers depth members) (hlevels : depth ≤ levels) :
    gripMembers levels members = .held := by
  induction members with
  | nil => rfl
  | cons m members ih =>
    rw [gripMembers, h.1 levels hlevels]
    exact ih h.2

/-- A tagged record is one level deeper than its members. -/
theorem fits_tagged {depth : Nat} (name : String) {members : List (String × Json)}
    (h : FitMembers depth members) : (tagged name members).Fits (depth + 1) := by
  intro levels hlevels
  obtain ⟨levels, rfl⟩ := Nat.exists_eq_add_of_lt hlevels
  have hall : FitMembers depth (("type", text name) :: members) := ⟨fits_text depth name, h⟩
  exact gripMembers_held hall (by omega)

/-- A place with so many levels of nesting left. -/
def Place.Leaves (depth : Nat) : Place → Prop
  | text outer => outer + depth ≤ depthLimit
  | memory => True

instance (depth : Nat) (place : Place) : Decidable (place.Leaves depth) :=
  match place with
  | .text _ => inferInstanceAs (Decidable (_ ≤ _))
  | .memory => inferInstanceAs (Decidable True)

theorem holds_of_fits {place : Place} {depth : Nat} {j : Json} (hplace : place.Leaves depth)
    (h : j.Fits depth) : place.holds j = true := by
  cases place with
  | text outer => exact decide_eq_true (h _ (Nat.le_sub_of_add_le' hplace))
  | memory => rfl

/-- **A tagged record finds its variant,** and the members that were written for it. -/
theorem variant?_tagged {place : Place} {depth : Nat} {variants : List String} {name : String}
    {members : List (String × Json)} (hplace : place.Leaves (depth + 1))
    (hname : variants.contains name = true) (htype : "type" ∉ members.map Prod.fst)
    (hfits : FitMembers depth members) :
    variant? place variants (tagged name members) = some (name, .object members) := by
  have hholds := holds_of_fits hplace (fits_tagged name hfits)
  have hother : ∀ m ∈ members, m.1 ≠ "type" :=
    fun m hm hsame => htype (List.mem_map.mpr ⟨m, hm, hsame⟩)
  have htag : (("type", text name) :: members).filter (fun m => m.1 == "type") =
      [("type", text name)] := by
    rw [List.filter_cons, if_pos BEq.rfl, List.filter_eq_nil_iff.mpr]
    intro m hm hmtype
    exact hother m hm (beq_iff_eq.mp hmtype)
  have hrest : (("type", text name) :: members).filter (fun m => m.1 != "type") = members := by
    rw [List.filter_cons, bne_self_eq_false, if_neg Bool.false_ne_true, List.filter_eq_self]
    exact fun m hm => bne_iff_ne.mpr (hother m hm)
  unfold variant?
  rw [if_pos hholds]
  simp only [tagged, htag, hrest, tag?, hname, if_true, Option.map_some]

end Invigilator.Json
