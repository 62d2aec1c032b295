import Invigilator.Exam.Question
import Invigilator.Exam.Trio

/-!
# Selection of questions

One easy, one medium and one hard question when the pool has all three; otherwise any three, in
order of difficulty. What chance decides is an argument: `choose` takes the indices that the
random source gave, and `outcomes` lists what all indices can give.
-/

namespace Invigilator.Selection

/-- What the random source decides: positions, each taken modulo the number of choices. -/
structure Draw where
  first : Nat
  second : Nat
  third : Nat
deriving DecidableEq, Repr, Inhabited

/-- The questions of a pool at a level. -/
def atLevel (pool : List Question) (d : Difficulty) : List Question :=
  pool.filter fun q => q.difficulty == d

/-- Whether a pool has a question of each level. -/
def hasAllLevels (pool : List Question) : Bool :=
  [Difficulty.easy, .medium, .hard].all fun d => !(atLevel pool d).isEmpty

/-- Puts a question behind all that are not harder. -/
def insertByDifficulty (q : Question) : List Question → List Question
  | [] => [q]
  | p :: rest =>
    if q.difficulty.rank < p.difficulty.rank then q :: p :: rest
    else p :: insertByDifficulty q rest

/-- Sorts by difficulty; questions of one level keep their order. -/
def sortByDifficulty (qs : List Question) : List Question :=
  qs.foldl (fun sorted q => insertByDifficulty q sorted) []

/-- Takes the element at a position, counted modulo the length, out of a list. -/
def takeOut? (i : Nat) (as : List α) : Option (α × List α) :=
  match as[i % as.length]? with
  | none => none
  | some a => some (a, as.eraseIdx (i % as.length))

/-- The element at a position, counted modulo the length. -/
def pick? (i : Nat) (as : List α) : Option α := as[i % as.length]?

/-- One question of each level. -/
def oneOfEach? (pool : List Question) (draw : Draw) : Option (Trio Question) := do
  let easy ← pick? draw.first (atLevel pool .easy)
  let medium ← pick? draw.second (atLevel pool .medium)
  let hard ← pick? draw.third (atLevel pool .hard)
  some ⟨easy, medium, hard⟩

/-- Three different entries of the pool in the order drawn, sorted by difficulty. -/
def sample? (pool : List Question) (draw : Draw) : Option (Trio Question) := do
  let (a, rest) ← takeOut? draw.first pool
  let (b, rest) ← takeOut? draw.second rest
  let (c, _) ← takeOut? draw.third rest
  Trio.ofList? (sortByDifficulty [a, b, c])

/-- The questions of an exam, or `none` if the pool has fewer than three. -/
def choose? (pool : List Question) (draw : Draw) : Option (Trio Question) :=
  if pool.length < 3 then none
  else if hasAllLevels pool then oneOfEach? pool draw
  else sample? pool draw

/-! ## All outcomes -/

/-- The draws that reach every choice of a pool of so many questions. -/
def draws (n : Nat) : List Draw :=
  (List.range n).flatMap fun i =>
    (List.range n).flatMap fun j => (List.range n).map fun k => ⟨i, j, k⟩

/-- Every selection that some draw gives; repeats are kept. -/
def outcomes (pool : List Question) : List (Trio Question) :=
  (draws pool.length).filterMap (choose? pool)

/-- The order of texts, item by item. -/
def idsBelow : List String → List String → Bool
  | [], _ => true
  | _ :: _, [] => false
  | a :: as, b :: bs => a < b || (a == b && idsBelow as bs)

/-- The ids of every selection that some draw gives, sorted and each once. -/
def outcomeIds (pool : List Question) : List (List String) :=
  (((outcomes pool).map fun t => t.toList.map Question.id).mergeSort idsBelow).eraseReps

end Invigilator.Selection
