import Invigilator.Proofs.Access.Token
import Invigilator.Proofs.Records.Roster
import Invigilator.Proofs.Text.Numerals
import Invigilator.Proofs.Web.Labels
import Invigilator.Service.Startup

/-!
# The list for administrators

Administrators are shown the newest sessions, with how many of those shown have each status. A limit
can be asked for, any number of 64 signed bits (`limit_numeral`). It is bounded twice on its way, by
the route and then by the cabinet, and from below by both; the smaller of the two bounds is the one
that counts.
-/

namespace Invigilator.Web

variable {σ : Type}

/-! ## Asking for a limit -/

theorem percentDecode_of_notMem {bytes : List UInt8} (h : 37 ∉ bytes) :
    percentDecode bytes = bytes := by
  fun_induction percentDecode bytes with
  | case1 a b rest x y hx hy ih => exact absurd List.mem_cons_self h
  | case2 a b rest hnone ih => exact absurd List.mem_cons_self h
  | case3 b rest hplain ih => rw [ih fun hmem => h (List.mem_cons_of_mem b hmem)]
  | case4 => rfl

/-- A character that means itself in a query. -/
def IsOwn (c : Char) : Prop := Token.IsAscii c ∧ c ≠ '%' ∧ c ≠ '+'

instance (c : Char) : Decidable (IsOwn c) := inferInstanceAs (Decidable (_ ∧ _))

theorem queryText_of_own {cs : List Char} (h : ∀ c ∈ cs, IsOwn c) :
    queryText cs = String.ofList cs := by
  have hblank : cs.map (fun c => if c = '+' then ' ' else c) = cs :=
    (List.map_congr_left fun c hc => if_neg (h c hc).2.2).trans (List.map_id' cs)
  have hbytes : 37 ∉ cs.flatMap String.utf8EncodeChar := by
    intro hmem
    obtain ⟨c, hc, hbyte⟩ := List.mem_flatMap.mp hmem
    obtain ⟨hascii, hpercent, -⟩ := h c hc
    have hone : String.utf8EncodeChar c = [UInt8.ofNat c.toNat] := if_pos hascii
    rw [hone, List.mem_singleton] at hbyte
    have hcode := congrArg UInt8.toNat hbyte
    rw [Token.toNat_byte hascii] at hcode
    exact hpercent (Char.toNat_inj.mp hcode.symm)
  have hpieces : (Utf8.pieces (cs.flatMap String.utf8EncodeChar)).map
      (fun c? => c?.getD '\ufffd') = cs := by
    rw [Utf8.pieces_utf8EncodeChar, List.map_map]
    exact List.map_id cs
  rw [queryText, hblank, Token.bytesOf_ofList, percentDecode_of_notMem hbytes, Utf8.replaced,
    hpieces]

/-- A query with one value. -/
def oneValue (name : String) (value : List Char) : List Char := name.toList ++ '=' :: value

theorem valuesOf_oneValue {name : String} {value : List Char}
    (hname : ∀ c ∈ name.toList, IsOwn c ∧ c ≠ '=' ∧ c ≠ '&')
    (hvalue : ∀ c ∈ value, IsOwn c ∧ c ≠ '&') :
    valuesOf name (oneValue name value) = [String.ofList value] := by
  have hone : '&' ∉ oneValue name value := by
    intro hmem
    rcases List.mem_append.mp hmem with hmem | hmem
    · exact (hname _ hmem).2.2 rfl
    · exact (hvalue _ ((List.mem_cons.mp hmem).resolve_left (by decide))).2 rfl
  have hsplit : Text.splitOn '&' (oneValue name value) = [oneValue name value] := by
    have hparts := Text.splitOn_intercalate (List.cons_ne_nil _ [])
      (List.forall_mem_singleton.mpr hone)
    rwa [List.intercalate_singleton] at hparts
  have hcut : Text.cutAt '=' (oneValue name value) = some (name.toList, value) :=
    Text.cutAt_append value fun hmem => (hname _ hmem).2.1 rfl
  have hkey : queryText name.toList = name := by
    rw [queryText_of_own fun c hc => (hname c hc).1, String.ofList_toList]
  have hread : queryText value = String.ofList value :=
    queryText_of_own fun c hc => (hvalue c hc).1
  simp [valuesOf, hsplit, hcut, hkey, hread]

/-- Digits are added up as long as they stay within the limit. -/
theorem addDigits_eq {most : Nat} {fault : NumberFault} {ds : List Char} {n : Nat}
    (hds : ∀ c ∈ ds, Decimal.isDigit c = true)
    (hmost : ds.foldl (fun n c => n * 10 + Decimal.digitValue c) n ≤ most) :
    addDigits most fault n ds = .ok (ds.foldl (fun n c => n * 10 + Decimal.digitValue c) n) := by
  -- no number on the way is larger than the last one
  have hgrows : ∀ (ds : List Char) (n : Nat),
      n ≤ ds.foldl (fun n c => n * 10 + Decimal.digitValue c) n := by
    intro ds
    induction ds with
    | nil => exact Nat.le_refl
    | cons c ds ih => exact fun n => Nat.le_trans (by omega) (ih (n * 10 + Decimal.digitValue c))
  induction ds generalizing n with
  | nil => rfl
  | cons c ds ih =>
    obtain ⟨hc, hrest⟩ := List.forall_mem_cons.mp hds
    have hnext : n * 10 + Decimal.digitValue c ≤ most := (hgrows ds _).trans hmost
    rw [addDigits, if_pos hc]
    exact (if_pos hnext).trans (ih hrest hmost)

theorem addDigits_digits {most n : Nat} {fault : NumberFault} (h : n ≤ most) :
    addDigits most fault 0 (Decimal.digits n) = .ok n := by
  have hvalue : (Decimal.digits n).foldl (fun n c => n * 10 + Decimal.digitValue c) 0 = n :=
    Decimal.value_digits n
  rw [addDigits_eq (Decimal.isDigit_of_mem_digits n) (hvalue.trans_le h), hvalue]

theorem signed_of_digit {c : Char} (hc : Decimal.isDigit c = true) (rest : List Char) :
    signed (String.ofList (c :: rest)) =
      (addDigits (Nat.pow 2 63 - 1) .tooLarge 0 (c :: rest)).map Int.ofNat := by
  rw [signed, String.toList_ofList]
  dsimp only
  split
  · rename_i hnil
    cases hnil
  · rename_i hsign
    cases hsign
    cases hc
  · rename_i hsign
    cases hsign
    cases hc
  · rfl

theorem signed_minus {ds : List Char} (hds : ds ≠ []) :
    signed (String.ofList ('-' :: ds)) =
      (addDigits (Nat.pow 2 63) .tooSmall 0 ds).map fun n => -(n : Int) := by
  rw [signed, String.toList_ofList]
  exact if_neg (mt List.isEmpty_iff.mp hds)

/-- Every number of 64 signed bits is read from its numeral. -/
theorem signed_intDigits {n : Int} (hlow : -Int.pow 2 63 ≤ n) (hhigh : n < Int.pow 2 63) :
    signed (String.ofList (Decimal.intDigits n)) = .ok n := by
  have hpow : Int.pow 2 63 = (Nat.pow 2 63 : Nat) := rfl
  cases n with
  | ofNat n =>
    rw [Int.ofNat_eq_natCast] at hhigh
    have hread : addDigits (Nat.pow 2 63 - 1) .tooLarge 0 (Decimal.digits n) = .ok n :=
      addDigits_digits (by omega)
    have hdigits := Decimal.isDigit_of_mem_digits n
    rw [Decimal.intDigits]
    -- a numeral begins with a digit, and so with no sign
    cases hnumeral : Decimal.digits n with
    | nil => exact absurd hnumeral (Decimal.digits_ne_nil n)
    | cons c rest =>
      rw [hnumeral] at hread hdigits
      rw [signed_of_digit (hdigits c List.mem_cons_self), hread]
      rfl
  | negSucc n =>
    rw [Int.negSucc_eq] at hlow
    have hread : addDigits (Nat.pow 2 63) .tooSmall 0 (Decimal.digits (n + 1)) = .ok (n + 1) :=
      addDigits_digits (by omega)
    rw [Decimal.intDigits, signed_minus (Decimal.digits_ne_nil _), hread]
    rfl

/-- **Every number of 64 signed bits can be asked for.** -/
theorem limit_numeral {n : Int} (hlow : -Int.pow 2 63 ≤ n) (hhigh : n < Int.pow 2 63) :
    limit (oneValue "limit" (Decimal.intDigits n)) = .ok (some n) := by
  have hdigit : ∀ c, Decimal.isDigit c = true → IsOwn c ∧ c ≠ '&' := by
    intro c hc
    have hcode : 48 ≤ c.toNat ∧ c.toNat ≤ 57 := by simpa [Decimal.isDigit] using hc
    refine ⟨⟨by unfold Token.IsAscii; omega, ?_, ?_⟩, ?_⟩ <;>
    · rintro rfl
      exact absurd hc (by decide)
  have hown : ∀ c ∈ Decimal.intDigits n, IsOwn c ∧ c ≠ '&' := by
    cases n with
    | ofNat n => exact fun c hc => hdigit c (Decimal.isDigit_of_mem_digits n c hc)
    | negSucc n =>
      exact List.forall_mem_cons.mpr
        ⟨by decide, fun c hc => hdigit c (Decimal.isDigit_of_mem_digits (n + 1) c hc)⟩
  have hall : "limit".toList.all (fun c => IsOwn c ∧ c ≠ '=' ∧ c ≠ '&') = true := by decide
  have hname : ∀ c ∈ "limit".toList, IsOwn c ∧ c ≠ '=' ∧ c ≠ '&' := fun c hc =>
    of_decide_eq_true (List.all_eq_true.mp hall c hc)
  rw [limit, valuesOf_oneValue hname hown]
  dsimp only
  rw [signed_intDigits hlow hhigh]
  rfl

/-! ## What is listed -/

/-- Of the two bounds of a limit the smaller counts. -/
theorem clampLimit_bounded (limit : Int) :
    Cabinet.clampLimit (max 1 (min limit mostLimit)) = (max 1 (min limit 200)).toNat := by
  have hroute : mostLimit = 500 := rfl
  have hcabinet : Cabinet.listLimit = 200 := rfl
  rw [Cabinet.clampLimit, hroute, hcabinet]
  omega

theorem count_eq_countP (sessions : List Session) (status : Status) :
    (Service.SessionList.mk sessions).count status =
      sessions.countP fun t => t.status == status := List.countP_eq_length_filter.symm

/-- Every session has one of three statuses. -/
theorem length_eq_countP (sessions : List Session) :
    sessions.length = sessions.countP (fun t => t.status == .inProgress) +
      sessions.countP (fun t => t.status == .completed) +
      sessions.countP (fun t => t.status == .disqualified) := by
  induction sessions with
  | nil => rfl
  | cons t rest ih =>
    rw [List.length_cons, List.countP_cons, List.countP_cons, List.countP_cons]
    cases t.status <;> simp only [reduceCtorEq, beq_iff_eq, if_true, if_false] <;> omega

/-- What is listed of the cabinet as some writes have left it. -/
theorem run_latest {ws : List RecordWrite} {s : Service σ}
    (hcabinet : s.hall.courier.records.cabinet = (Records.settled ws).cabinet) (limit : Int) :
    (Service.latest limit).run s =
      (.ok ⟨(Documents.newestFirst (Records.settled ws).cabinet.sessions).take
        (Cabinet.clampLimit limit)⟩, s) := by
  simp [Service.latest, Call.run_bind, hcabinet,
    Documents.cabinet_latest_eq (Records.settled_available ws)]

/-- A list of sessions for administrators, with how many of them have each status. -/
def roster (listed : List Session) (inProgress completed disqualified : Nat) : Json :=
  .object [
    ("stats", .object [("total", .nat listed.length), ("in_progress", .nat inProgress),
      ("completed", .nat completed), ("disqualified", .nat disqualified)]),
    ("sessions", .listOf Session.toJson listed)]

/-- **Administrators are shown the newest sessions on record.** Whatever was created, once or again,
and whatever was changed since: a request for any limit, or for none, is answered with as many
sessions as there are up to the limit, which counts as one at least and as 200 at most. They have
different ids and come latest first. Each is shown with all its changes, and none that is left out
began later than one that is shown. The totals are of those shown: each is the number that have the
status, and together they make up the number of all. -/
theorem newest_sessions_listed (ws : List RecordWrite) (s : Service σ) (r : Request)
    (caller : Option Claims) (limit : Option Int)
    (hcabinet : s.hall.courier.records.cabinet = (Records.settled ws).cabinet)
    (hlimit : Web.limit r.target.query = .ok limit) :
    ∃ (listed : List Session) (inProgress completed disqualified : Nat),
      (dispatch r caller .sessions).run s =
        (.ok (.json 200 (roster listed inProgress completed disqualified)), s) ∧
      Records.Newest ws (max 1 (min (limit.getD 50) 200)).toNat listed ∧
      listed.length = inProgress + completed + disqualified ∧
      inProgress = listed.countP (fun t => t.status == .inProgress) ∧
      completed = listed.countP (fun t => t.status == .completed) ∧
      disqualified = listed.countP (fun t => t.status == .disqualified) := by
  have hnewest := Records.newest_take ws
    (Cabinet.clampLimit (max 1 (min (limit.getD defaultLimit) mostLimit)))
  rw [clampLimit_bounded] at hnewest
  refine ⟨_, _, _, _, ?_, hnewest, length_eq_countP _, rfl, rfl, rfl⟩
  simp [dispatch, hlimit, Call.run_bind, run_latest hcabinet, clampLimit_bounded, roster,
    Service.SessionList.toJson, count_eq_countP]

/-- A service whose cabinet is as some writes have left it. -/
def keeping (ws : List RecordWrite) : Service Shelf :=
  let s : Service Shelf := .new default [] .inMemory .empty default .plain
  { s with hall := { s.hall with courier := { s.hall.courier with records := .settled ws } } }

/-- Sessions are created and changed, one of them is created again, and one that is changed was
never created. -/
def comings : List RecordWrite :=
  let ended : SessionPatch := { (default : SessionPatch) with status := some .completed }
  [.createSession Documents.Close.next, .createSession Documents.Close.whole,
    .updateSession "s-3" ended, .createSession Documents.Close.half,
    .createSession Documents.Close.next, .updateSession "s-4" ended, .updateSession "s-2" ended]

/-- The lowest limit that can be asked for counts as one. -/
theorem newest_sessions_listed_lowestLimit :
    let query := oneValue "limit" (Decimal.intDigits (-Int.pow 2 63))
    let r : Request := ⟨"GET", ⟨"/admin/exams".toList, query⟩, [], ""⟩
    (keeping comings).hall.courier.records.cabinet = (Records.settled comings).cabinet ∧
      limit r.target.query = .ok (some (-Int.pow 2 63)) ∧
      ∃ (listed : List Session) (inProgress completed disqualified : Nat),
        (dispatch r none .sessions).run (keeping comings) =
          (.ok (.json 200 (roster listed inProgress completed disqualified)), keeping comings) ∧
        Records.Newest comings 1 listed ∧
        listed.length = inProgress + completed + disqualified ∧
        inProgress = listed.countP (fun t => t.status == .inProgress) ∧
        completed = listed.countP (fun t => t.status == .completed) ∧
        disqualified = listed.countP (fun t => t.status == .disqualified) := by
  intro query r
  have hlimit : limit r.target.query = .ok (some (-Int.pow 2 63)) :=
    limit_numeral (Int.le_refl _) (by decide)
  exact ⟨rfl, hlimit, newest_sessions_listed comings _ r none _ rfl hlimit⟩

end Invigilator.Web
