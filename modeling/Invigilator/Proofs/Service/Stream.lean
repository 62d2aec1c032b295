import Invigilator.Proofs.Service.Relay
import Mathlib.Data.List.Induction

/-!
# A subscriber that falls behind

A subscriber reads at its own pace, one event at a time: `Relay.poll`. To read everything that waits
is to poll until nothing does (`read_eq_follow`), so what is proved here of polls holds of every way
to read.

Events have places, in the order in which they were published after the subscription. Where a relay
stands is one place, the first that it has neither relayed nor missed, and what waits are the events
from there on. The place moves on when the subscriber takes an event, and when 256 events wait and
one more comes. That is the only way to miss one. `Tracks` says so of every course of publications
and polls.

So a subscriber can miss the end of a session only if 256 events come behind it.
-/

namespace Invigilator

/-- Behind an end come fewer than so many events. -/
def Event.EndsWithin (n : Nat) (events : List Event) : Prop :=
  ∀ before e after, events = before ++ e :: after → e.isLast = true → after.length < n

/-- Where no end comes before the last events, fewer than those come behind an end. -/
theorem Event.endsWithin_append {n : Nat} {first rest : List Event}
    (hfirst : ∀ e ∈ first, e.isLast = false) (hrest : rest.length ≤ n) :
    EndsWithin n (first ++ rest) := by
  intro before e after hsplit he
  rcases List.append_eq_append_iff.mp hsplit with ⟨more, -, hmore⟩ | ⟨more, hbefore, hafter⟩
  · rw [hmore, List.length_append, List.length_cons] at hrest
    omega
  · cases more with
    | nil =>
      rw [← (show e :: after = rest from hafter), List.length_cons] at hrest
      omega
    | cons d more =>
      obtain ⟨rfl, -⟩ := List.cons.inj hafter
      rw [hfirst e (hbefore ▸ List.mem_append_right _ List.mem_cons_self)] at he
      cases he

theorem Event.EndsWithin.of_append {n : Nat} {before during after : List Event}
    (h : EndsWithin n (before ++ during ++ after)) : EndsWithin n during := by
  intro first e rest hsplit he
  have hlength := h (before ++ first) e (rest ++ after) (by simp [hsplit]) he
  rw [List.length_append] at hlength
  omega

namespace Relay

/-! ## Reading one by one -/

/-- What happens to a subscription. -/
inductive Occurrence where
  | published (event : Event)
  /-- The subscriber asks for an event. -/
  | polled
  /-- The sitting is gone, and publishes no more. -/
  | gone
deriving DecidableEq

def Occurrence.event? : Occurrence → Option Event
  | published e => some e
  | polled => none
  | gone => none

/-- The subscriber takes one event, if one waits. -/
def poll (r : Relay) : Relay :=
  if r.closed then r
  else
    match r.unread with
    | [] =>
      if r.connected then { r with missed := 0 }
      else ({ r with missed := 0 } : Relay).close "Exam event channel closed" |>.1
    | e :: rest =>
      let r := { r with missed := 0, unread := rest, relayed := e :: r.relayed }
      if e.isLast then (r.close "Exam stream closed").1 else r

/-- What becomes of a relay when something happens. -/
def meet (r : Relay) : Occurrence → Relay
  | .published e => r.receive e
  | .polled => r.poll
  | .gone => { r with connected := false }

/-- What becomes of a relay in the course of things. -/
def follow (r : Relay) (course : List Occurrence) : Relay := course.foldl meet r

theorem follow_append (r : Relay) (first rest : List Occurrence) :
    r.follow (first ++ rest) = (r.follow first).follow rest :=
  List.foldl_append

theorem receive_closed {r : Relay} (h : r.closed = true) (e : Event) : r.receive e = r := if_pos h

theorem receive_open {r : Relay} (h : r.closed = false) (e : Event) :
    r.receive e =
      { r with
        unread := (r.unread ++ [e]).drop (r.unread.length + 1 - capacity)
        missed := r.missed + (r.unread.length + 1 - capacity) } := by
  simp [receive, h]

theorem poll_closed {r : Relay} (h : r.closed = true) : r.poll = r := if_pos h

/-- Where nothing waits, a stream whose sitting is gone is closed. -/
theorem poll_nil {r : Relay} (h : r.closed = false) (hwaits : r.unread = []) :
    r.poll = { r with missed := 0, closed := !r.connected } := by
  cases hconnected : r.connected <;> simp [poll, close, h, hwaits, hconnected]

/-- The event that waits longest is taken, and the stream is closed behind the end. -/
theorem poll_cons {r : Relay} {e : Event} {rest : List Event} (h : r.closed = false)
    (hwaits : r.unread = e :: rest) :
    r.poll =
      { r with
        missed := 0, unread := if e.isLast then [] else rest, relayed := e :: r.relayed
        closed := e.isLast } := by
  cases hlast : e.isLast <;> simp [poll, close, h, hwaits, hlast]

theorem follow_polls_closed {r : Relay} (h : r.closed = true) (n : Nat) :
    r.follow (List.replicate n .polled) = r := by
  induction n with
  | zero => rfl
  | succ n ih =>
    rw [List.replicate_succ]
    show r.poll.follow (List.replicate n .polled) = r
    rw [poll_closed h, ih]

theorem follow_polls_open {r : Relay} (events : List Event) (h : r.closed = false) :
    ({ r with unread := events } : Relay).follow (List.replicate (events.length + 1) .polled) =
      (({ r with missed := 0 } : Relay).relayAll events).1 := by
  induction events generalizing r with
  | nil =>
    show ({ r with unread := [] } : Relay).poll = _
    -- with nothing left to read, a poll only ends a subscription whose sitting is gone
    rw [poll_nil (r := { r with unread := [] }) h rfl]
    cases r.connected <;> simp [relayAll, close, h]
  | cons e events ih =>
    rw [List.length_cons, List.replicate_succ, relayAll]
    show ({ r with unread := e :: events } : Relay).poll.follow _ = _
    cases hlast : e.isLast with
    | true =>
      have hpoll : ({ r with unread := e :: events } : Relay).poll =
          { r with missed := 0, unread := [], relayed := e :: r.relayed, closed := true } := by
        rw [poll_cons (r := { r with unread := e :: events }) h rfl, hlast, if_pos rfl]
      rw [hpoll, follow_polls_closed rfl]
      rfl
    | false =>
      have hpoll : ({ r with unread := e :: events } : Relay).poll =
          { r with missed := 0, unread := events, relayed := e :: r.relayed } := by
        rw [poll_cons (r := { r with unread := e :: events }) h rfl, hlast,
          if_neg Bool.false_ne_true, ← h]
      rw [hpoll]
      exact ih (r := { r with missed := 0, relayed := e :: r.relayed }) h

/-- **To read everything that waits is to take the events one by one.** -/
theorem read_eq_follow (r : Relay) :
    r.read.1 = r.follow (List.replicate (r.unread.length + 1) .polled) := by
  cases h : r.closed with
  | true => rw [follow_polls_closed h, read, if_pos h]
  | false =>
    rw [read, if_neg (by rw [h]; exact Bool.false_ne_true)]
    exact (follow_polls_open r.unread h).symm

/-! ## Courses -/

/-- What is published in a course. -/
def told (course : List Occurrence) : List Event := course.filterMap Occurrence.event?

theorem told_append (first rest : List Occurrence) :
    told (first ++ rest) = told first ++ told rest :=
  List.filterMap_append

/-- A sitting that is gone publishes nothing. -/
def Orderly (course : List Occurrence) : Prop :=
  ∀ first e rest, course = first ++ .published e :: rest → .gone ∉ first

theorem Orderly.of_append {first rest : List Occurrence} (h : Orderly (first ++ rest)) :
    Orderly first :=
  fun before e after hsplit => h before e (after ++ rest) (by simp [hsplit])

/-- The event at a place is the oldest of those that wait, and no more can wait. -/
def Brims (r : Relay) (events : List Event) (k : Nat) : Prop :=
  r.unread = events.drop k ∧ events.length = k + capacity

/-- The last that the subscriber has heard is the end. -/
def HeardEnd (r : Relay) : Prop := ∃ e, r.collect.1.getLast? = some e ∧ e.isLast = true

/-- Where a relay stands among the events that were published: the places of what the subscriber
has heard, the places that are lost, and the first place that is neither. -/
structure Tracks (r : Relay) (events : List Event) (lost : Nat → Prop) (places : List Nat)
    (next : Nat) : Prop where
  sorted : places.Pairwise (· < ·)
  passed : ∀ p ∈ places, p < next
  next_le : next ≤ events.length
  heard : r.relayed.reverse.map some = places.map fun p => events[p]?
  missed : ∀ k < next, k ∉ places → lost k
  /-- What waits is all that was published from the next place on. -/
  underway : r.closed = false → r.unread = events.drop next ∧ r.unread.length ≤ capacity
  /-- The end may be the last that was heard, and is nothing before that. -/
  endsLast : Event.EndsLast r.relayed.reverse
  /-- Behind the end the stream is closed. -/
  open_of : r.closed = false → ∀ e ∈ r.relayed, e.isLast = false
  /-- Otherwise it is closed when the sitting is gone and nothing waits. -/
  ended : r.closed = true → r.HeardEnd ∨ r.connected = false ∧ next = events.length

section Steps

variable {r : Relay} {events : List Event} {lost : Nat → Prop} {places : List Nat} {next : Nat}

theorem Tracks.mono (h : Tracks r events lost places next) {lost' : Nat → Prop}
    (hlost : ∀ k, lost k → lost' k) : Tracks r events lost' places next :=
  { h with missed := fun k hk hnot => hlost k (h.missed k hk hnot) }

/-- What waits reaches from the next place to the last. -/
theorem Tracks.length_unread (h : Tracks r events lost places next) (hopen : r.closed = false) :
    next + r.unread.length = events.length := by
  rw [(h.underway hopen).1, List.length_drop]
  exact Nat.add_sub_cancel' h.next_le

theorem tracks_subscribe (session : String) (eager : Bool) :
    Tracks (subscribe session eager) [] (fun _ => False) [] 0 where
  sorted := .nil
  passed := List.forall_mem_nil _
  next_le := Nat.le_refl 0
  heard := rfl
  missed k hk := absurd hk (Nat.not_lt_zero k)
  underway _ := ⟨rfl, Nat.zero_le _⟩
  endsLast := Event.untilLast_eq_self_iff.mp rfl
  open_of _ := List.forall_mem_nil _
  ended h := Bool.noConfusion h

/-- An event is published. It may push out the oldest of those that wait. -/
theorem Tracks.receive (h : Tracks r events lost places next) (hconnected : r.connected = true)
    (e : Event) :
    ∃ next', Tracks (r.receive e) (events ++ [e]) (fun k => lost k ∨ r.Brims events k) places
      next' := by
  have hlength : (events ++ [e]).length = events.length + 1 := List.length_append
  have hnext := h.next_le
  -- the places that were passed are places of the same events
  have hheard : r.relayed.reverse.map some = places.map fun p => (events ++ [e])[p]? := by
    rw [h.heard]
    refine List.map_congr_left fun p hp => ?_
    rw [List.getElem?_append_left (Nat.lt_of_lt_of_le (h.passed p hp) hnext)]
  cases hclosed : r.closed with
  | true =>
    rw [receive_closed hclosed]
    refine ⟨next, { h with
      next_le := by omega
      heard := hheard
      missed := fun k hk hnot => .inl (h.missed k hk hnot)
      underway := fun hopen => ?_
      ended := fun _ => ?_ }⟩
    · rw [hclosed] at hopen
      cases hopen
    · rcases h.ended hclosed with hend | ⟨hgone, -⟩
      · exact .inl hend
      · rw [hconnected] at hgone
        cases hgone
  | false =>
    obtain ⟨hunread, hfits⟩ := h.underway hclosed
    have hwaiting := h.length_unread hclosed
    rw [receive_open hclosed]
    -- as many events are pushed out as are too many
    generalize hexcess : r.unread.length + 1 - capacity = excess
    refine ⟨next + excess, {
      sorted := h.sorted
      passed := fun p hp => Nat.lt_of_lt_of_le (h.passed p hp) (Nat.le_add_right next _)
      next_le := by omega
      heard := hheard
      missed := fun k hk hnot => ?_
      underway := fun _ => ⟨?_, ?_⟩
      endsLast := h.endsLast
      open_of := fun _ => h.open_of hclosed
      ended := fun hover => ?_ }⟩
    · by_cases hold : k < next
      · exact .inl (h.missed k hold hnot)
      · -- one event at most is pushed out, and only if no more can wait
        obtain ⟨rfl, hfull⟩ : k = next ∧ events.length = next + capacity := by omega
        exact .inr ⟨hunread, hfull⟩
    · show (r.unread ++ [e]).drop _ = _
      rw [hunread, ← List.drop_append_of_le_length hnext, List.drop_drop]
    · show ((r.unread ++ [e]).drop _).length ≤ capacity
      rw [List.length_drop, List.length_append, List.length_singleton]
      omega
    · cases hclosed.symm.trans hover

/-- The subscriber takes the event at the place where it stands, if there is one. -/
theorem Tracks.poll (h : Tracks r events lost places next) :
    ∃ places' next', Tracks r.poll events lost places' next' := by
  cases hclosed : r.closed with
  | true =>
    rw [poll_closed hclosed]
    exact ⟨places, next, h⟩
  | false =>
    obtain ⟨hunread, hfits⟩ := h.underway hclosed
    cases hwaits : r.unread with
    | nil =>
      rw [hwaits] at hunread
      -- nothing waits, so the relay stands behind the last event
      have hdone : next = events.length :=
        Nat.le_antisymm h.next_le (List.drop_eq_nil_iff.mp hunread.symm)
      rw [poll_nil hclosed hwaits]
      exact ⟨places, next, { h with
        underway := fun _ => h.underway hclosed
        open_of := fun _ => h.open_of hclosed
        ended := fun hover => .inr ⟨by simpa using hover, hdone⟩ }⟩
    | cons e rest =>
      have hnone := h.open_of hclosed
      rw [hwaits] at hunread hfits
      -- what is taken is the event at the place where the relay stands
      have hplace : events[next]? = some e := by
        rw [← List.head?_drop, ← hunread]
        rfl
      have hrest : rest = events.drop (next + 1) := by
        rw [← List.tail_drop, ← hunread]
        rfl
      rw [poll_cons hclosed hwaits]
      refine ⟨places ++ [next], next + 1, {
        sorted := ?_
        passed := fun p hp => ?_
        next_le := (List.getElem?_eq_some_iff.mp hplace).1
        heard := ?_
        missed := fun k hk hnot => ?_
        underway := fun hopen => ?_
        endsLast := ?_
        open_of := fun hopen => List.forall_mem_cons.mpr ⟨hopen, hnone⟩
        ended := fun hover => .inl ⟨e, by simp [collect], hover⟩ }⟩
      · -- the new place is behind all those that were passed
        refine List.pairwise_append.mpr ⟨h.sorted, List.pairwise_singleton .., fun p hp q hq => ?_⟩
        rw [List.mem_singleton.mp hq]
        exact h.passed p hp
      · rcases List.mem_append.mp hp with hp | hp
        · exact Nat.lt_succ_of_lt (h.passed p hp)
        · rw [List.mem_singleton.mp hp]
          exact Nat.lt_succ_self next
      · rw [List.reverse_cons, List.map_append, List.map_append, h.heard, List.map_singleton,
          List.map_singleton, hplace]
      · simp only [List.mem_append, List.mem_singleton, not_or] at hnot
        exact h.missed k (by omega) hnot.1
      · rw [show e.isLast = false from hopen, if_neg Bool.false_ne_true]
        exact ⟨hrest, Nat.le_of_succ_le hfits⟩
      · -- what was relayed before has no end in it, so the end can only be the event that was taken
        rw [List.reverse_cons, ← Event.untilLast_eq_self_iff, Event.untilLast_append _ fun d hd =>
          hnone d (List.mem_reverse.mp hd), Event.untilLast, Event.untilLast, ite_self]

/-- The sitting is gone. -/
theorem Tracks.disconnect (h : Tracks r events lost places next) :
    Tracks { r with connected := false } events lost places next :=
  { h with ended := fun hclosed => (h.ended hclosed).imp id fun hover => ⟨rfl, hover.2⟩ }

end Steps

/-! ## Subscriptions -/

/-- What is published goes before, and what is quiet comes behind. -/
theorem orderly_append {live quiet : List Occurrence} (hlive : .gone ∉ live)
    (hquiet : told quiet = []) : Orderly (live ++ quiet) := by
  intro first e rest hsplit
  rcases List.append_eq_append_iff.mp hsplit with ⟨more, rfl, hmore⟩ | ⟨more, hfirst, -⟩
  · rw [hmore, told_append] at hquiet
    exact absurd (List.append_eq_nil_iff.mp hquiet).2 (List.cons_ne_nil e _)
  · rw [hfirst] at hlive
    exact fun hgone => hlive (List.mem_append_left _ hgone)

theorem told_map_published (events : List Event) : told (events.map .published) = events := by
  induction events with
  | nil => rfl
  | cons e events ih => exact congrArg (e :: ·) ih

variable (session : String) (eager : Bool)

/-- A subscription in the course of things. -/
def listening (course : List Occurrence) : Relay := (subscribe session eager).follow course

/-- The event at a place was pushed out: it had waited longest of as many as can wait, and one more
came. -/
def PushedOut (course : List Occurrence) (k : Nat) : Prop :=
  ∃ first e rest, course = first ++ .published e :: rest ∧
    (listening session eager first).Brims (told first) k

variable {session eager} {course : List Occurrence}

theorem listening_append (first rest : List Occurrence) :
    listening session eager (first ++ rest) = (listening session eager first).follow rest :=
  follow_append _ first rest

theorem PushedOut.append {k : Nat} (h : PushedOut session eager course k)
    (rest : List Occurrence) : PushedOut session eager (course ++ rest) k := by
  obtain ⟨first, e, after, rfl, hbrims⟩ := h
  exact ⟨first, e, after ++ rest, by simp, hbrims⟩

/-- An event that is pushed out has as many behind it as can wait. -/
theorem PushedOut.lt_length {k : Nat} (h : PushedOut session eager course k) :
    k + capacity < (told course).length := by
  obtain ⟨first, e, rest, rfl, -, hlength⟩ := h
  rw [told_append, List.length_append, hlength]
  exact Nat.lt_add_of_pos_right (Nat.succ_pos _)

theorem connected_follow {r : Relay} (hr : r.connected = true) (h : .gone ∉ course) :
    (r.follow course).connected = true := by
  induction course generalizing r with
  | nil => exact hr
  | cons o course ih =>
    refine ih ?_ fun hmem => h (List.mem_cons_of_mem _ hmem)
    cases o with
    | published e =>
      show (r.receive e).connected = true
      unfold receive
      split
      · exact hr
      · exact hr
    | polled =>
      show r.poll.connected = true
      cases hclosed : r.closed with
      | true => rwa [poll_closed hclosed]
      | false =>
        cases hwaits : r.unread with
        | nil => rwa [poll_nil hclosed hwaits]
        | cons e rest => rwa [poll_cons hclosed hwaits]
    | gone => exact absurd List.mem_cons_self h

/-- **In every course a subscription stands at some place,** and what it has missed was pushed
out. -/
theorem exists_tracks (session : String) (eager : Bool) (horderly : Orderly course) :
    ∃ places next, Tracks (listening session eager course) (told course)
      (PushedOut session eager course) places next := by
  induction course using List.reverseRecOn with
  | nil => exact ⟨[], 0, (tracks_subscribe session eager).mono fun _ => False.elim⟩
  | append_singleton course o ih =>
    obtain ⟨places, next, htracks⟩ := ih horderly.of_append
    rw [listening_append, told_append]
    have hmono : ∀ k, PushedOut session eager course k →
        PushedOut session eager (course ++ [o]) k := fun k hk => hk.append [o]
    cases o with
    | published e =>
      -- a sitting publishes while it is there, so the relay is not cut off yet
      have hconnected : (listening session eager course).connected = true :=
        connected_follow rfl (horderly course e [] rfl)
      obtain ⟨next', hnext'⟩ := htracks.receive hconnected e
      refine ⟨places, next', hnext'.mono ?_⟩
      rintro k (hk | hk)
      · exact hmono k hk
      · exact ⟨course, e, [], rfl, hk⟩
    | polled =>
      obtain ⟨places', next', hpoll⟩ := htracks.poll
      rw [show told course ++ told [.polled] = told course from List.append_nil _]
      exact ⟨places', next', hpoll.mono hmono⟩
    | gone =>
      rw [show told course ++ told [.gone] = told course from List.append_nil _]
      exact ⟨places, next, htracks.disconnect.mono hmono⟩

/-! ## To the end -/

theorem closed_follow {r : Relay} (h : r.closed = true) (course : List Occurrence) :
    (r.follow course).closed = true := by
  induction course generalizing r with
  | nil => exact h
  | cons o course ih =>
    refine ih ?_
    cases o with
    | published e => exact (congrArg closed (receive_closed h e)).trans h
    | polled => exact (congrArg closed (poll_closed h)).trans h
    | gone => exact h

/-- A stream that is open was never closed. -/
theorem open_of_follow {r : Relay} {course : List Occurrence}
    (h : (r.follow course).closed = false) : r.closed = false := by
  cases hclosed : r.closed with
  | true => exact (closed_follow hclosed course).symm.trans h
  | false => rfl

/-- A publication leaves one event more to wait at most, and a poll one less. -/
theorem length_unread_meet {r : Relay} (h : r.closed = false) (o : Occurrence) :
    (r.meet o).unread.length ≤ (told [o]).length + (r.unread.length - [o].count .polled) := by
  cases o with
  | published e =>
    show (r.receive e).unread.length ≤ 1 + r.unread.length
    rw [receive_open h, List.length_drop, List.length_append, List.length_singleton, Nat.add_comm 1]
    exact Nat.sub_le _ _
  | polled =>
    show r.poll.unread.length ≤ 0 + (r.unread.length - 1)
    cases hwaits : r.unread with
    | nil =>
      rw [poll_nil h hwaits, hwaits]
      exact Nat.le_refl 0
    | cons e rest =>
      rw [poll_cons h hwaits]
      cases e.isLast <;> simp
  | gone =>
    show r.unread.length ≤ 0 + r.unread.length
    omega

/-- As long as the stream is open, there waits at the end no more than was published, and what was
left of the beginning by so many polls. -/
theorem length_unread_follow {r : Relay} (course : List Occurrence)
    (hopen : (r.follow course).closed = false) :
    (r.follow course).unread.length ≤
      (told course).length + (r.unread.length - course.count .polled) := by
  induction course generalizing r with
  | nil => exact Nat.le_add_left _ _
  | cons o course ih =>
    have hfirst := length_unread_meet (open_of_follow hopen) o
    have hrest : ((r.meet o).follow course).unread.length ≤
        (told course).length + ((r.meet o).unread.length - course.count .polled) := ih hopen
    have htold : told (o :: course) = told [o] ++ told course := told_append [o] course
    have hcount : ([o] ++ course).count .polled = [o].count .polled + course.count .polled :=
      List.count_append
    rw [htold, List.length_append]
    show ((r.meet o).follow course).unread.length ≤ _ + (_ - ([o] ++ course).count .polled)
    omega

/-- An event that was heard is among those that the subscriber has read. -/
theorem Tracks.mem_relayed {r : Relay} {events : List Event} {lost : Nat → Prop}
    {places : List Nat} {next : Nat} (h : Tracks r events lost places next) {p : Nat} {e : Event}
    (hp : p ∈ places) (he : events[p]? = some e) : e ∈ r.relayed := by
  have hmem : some e ∈ r.relayed.reverse.map some := by
    rw [h.heard, ← he]
    exact List.mem_map_of_mem hp
  simpa using hmem

/-- An end that was heard is the last that was heard. -/
theorem heardEnd_of_mem {r : Relay} (h : Event.EndsLast r.collect.1) {e : Event}
    (he : e ∈ r.relayed) (hlast : e.isLast = true) : r.HeardEnd := by
  obtain ⟨before, after, hsplit⟩ := List.append_of_mem (List.mem_reverse.mpr he)
  obtain rfl := h before e after hsplit hlast
  exact ⟨e, by rw [collect, hsplit, List.getLast?_concat], hlast⟩

/-- A subscription that is still open has few events to read when it has asked often enough: those
that were published since. -/
theorem length_unread_listening {first rest : List Occurrence} (horderly : Orderly first)
    (hopen : (listening session eager (first ++ rest)).closed = false)
    (hpolls : capacity ≤ rest.count .polled) :
    (listening session eager (first ++ rest)).unread.length ≤ (told rest).length := by
  obtain ⟨places, next, htracks⟩ := exists_tracks session eager horderly
  rw [listening_append] at hopen ⊢
  have hfits := (htracks.underway (open_of_follow hopen)).2
  have hleft := length_unread_follow rest hopen
  omega

/-- An end with few events behind it is not pushed out, and a subscriber that goes on reading comes
to it. -/
theorem heardEnd_of_polled {first rest : List Occurrence} (horderly : Orderly (first ++ rest))
    (hends : Event.EndsWithin capacity (told (first ++ rest)))
    (hend : (told first).any Event.isLast = true) (hpolls : capacity ≤ rest.count .polled) :
    (listening session eager (first ++ rest)).HeardEnd := by
  obtain ⟨places, next, htracks⟩ := exists_tracks session eager horderly
  obtain ⟨e, he, hlast⟩ := List.any_eq_true.mp hend
  obtain ⟨before, after, hsplit⟩ := List.append_of_mem he
  have htold : told (first ++ rest) = before ++ e :: (after ++ told rest) := by
    rw [told_append, hsplit, List.append_assoc, List.cons_append]
  have hplace : (told (first ++ rest))[before.length]? = some e := by simp [htold]
  have hlength : (told (first ++ rest)).length =
      before.length + 1 + (after.length + (told rest).length) := by
    rw [htold, List.length_append, List.length_cons, List.length_append]
    omega
  -- fewer events follow the end than can wait, so it was not pushed out
  have hkept : ¬PushedOut session eager (first ++ rest) before.length := fun hpushed => by
    have hlong := hpushed.lt_length
    have hshort := hends before e (after ++ told rest) htold hlast
    rw [List.length_append] at hshort
    omega
  -- the relay stands behind the end, unless it is through: there were polls for all that waited
  have hpassed : (listening session eager (first ++ rest)).HeardEnd ∨ before.length < next := by
    cases hclosed : (listening session eager (first ++ rest)).closed with
    | true => exact (htracks.ended hclosed).imp id fun hover => by omega
    | false =>
      have hleft := length_unread_listening horderly.of_append hclosed hpolls
      have hwaiting := htracks.length_unread hclosed
      exact .inr (by omega)
  rcases hpassed with hdone | hpassed
  · exact hdone
  · have hheard : before.length ∈ places :=
      Decidable.byContradiction fun hnot => hkept (htracks.missed _ hpassed hnot)
    exact heardEnd_of_mem htracks.endsLast (htracks.mem_relayed hheard hplace) hlast

/-- What a subscription hears in a course of things. -/
structure Streamed (session : String) (eager : Bool) (course : List Occurrence) : Prop where
  /-- It hears events that were published, in order and none twice. What it does not hear was
  pushed out, or still waits behind all that was heard, or came behind the end. -/
  faithful : ∃ places : List Nat, places.Pairwise (· < ·) ∧
    (listening session eager course).collect.1.map some =
      places.map (fun p => (told course)[p]?) ∧
    ∀ k < (told course).length, k ∉ places → PushedOut session eager course k ∨
      (∀ p ∈ places, p < k) ∧
        ((told course).length ≤ k + (listening session eager course).unread.length ∨
          (listening session eager course).HeardEnd)
  /-- It hears nothing behind an end. -/
  endsLast : Event.EndsLast (listening session eager course).collect.1
  /-- Once an end is published, so many polls bring it. -/
  finishes : ∀ first rest, course = first ++ rest → (told first).any Event.isLast = true →
    capacity ≤ rest.count .polled → (listening session eager course).HeardEnd

/-- **A subscription is faithful in every orderly course,** and it comes to the end if only few
events are published behind that. -/
theorem streamed_of_endsWithin (horderly : Orderly course)
    (hends : Event.EndsWithin capacity (told course)) : Streamed session eager course := by
  obtain ⟨places, next, htracks⟩ := exists_tracks session eager horderly
  refine ⟨⟨places, htracks.sorted, htracks.heard, fun k hk hnot => ?_⟩, htracks.endsLast, ?_⟩
  · by_cases hpassed : k < next
    · exact .inl (htracks.missed k hpassed hnot)
    · refine .inr ⟨fun p hp => Nat.lt_of_lt_of_le (htracks.passed p hp) (Nat.le_of_not_lt hpassed),
        ?_⟩
      cases hclosed : (listening session eager course).closed with
      | true =>
        rcases htracks.ended hclosed with hdone | ⟨-, hover⟩
        · exact .inr hdone
        · omega
      | false =>
        have hwaiting := htracks.length_unread hclosed
        exact .inl (by omega)
  · rintro first rest rfl hend hpolls
    exact heardEnd_of_polled horderly hends hend hpolls

end Relay

end Invigilator
