/-
# EdgeFrame.Assign.Hungarian -- `HungarianAlgorithm::Solve`

The assignment solver of the tracker, in exact arithmetic over an ordered field.
The flat arrays of the source, addressed by `row + nOfRows * col`, are functions of
`row` and `col`; a scan that ends in `break` is a `find?`. The mutual recursion
`step2b -> step3 -> step5 -> step3 / step4 -> step2a -> step2b` only ever calls in
tail position, so it is one loop, `step3`, whose fuel counts the passes of the
`while (zerosFound)` scan.

What the source leaves to luck is an `Abort` here: a scan that finds no prime
would write behind the array, a search for `h` without an uncovered element would
subtract `DBL_MAX`, and a loop might not end. `EdgeFrame.Assign.Progress` proves
that none of the three happens.
-/
import EdgeFrame.Abort
import Mathlib

namespace EdgeFrame.Assign

variable {K : Type} [Field K] [LinearOrder K] {m n : Nat}

/-- `DBL_EPSILON`. -/
def DBL_EPSILON : K := 1 / 2 ^ 52

/-- `fabs(x) < DBL_EPSILON`. -/
def isZero (x : K) : Bool := decide (|x| < DBL_EPSILON)

/-- The working arrays that the steps pass to each other. -/
structure Work (m n : Nat) (K : Type) where
  distMatrix : Fin m → Fin n → K
  starMatrix : Fin m → Fin n → Bool
  primeMatrix : Fin m → Fin n → Bool
  coveredColumns : Fin n → Bool
  coveredRows : Fin m → Bool

/-- Writing one entry of a matrix. -/
def setEntry {α : Type} (M : Fin m → Fin n → α) (row : Fin m) (col : Fin n) (v : α) :
    Fin m → Fin n → α :=
  fun r c => if r = row ∧ c = col then v else M r c

/-- The first column with an entry in `row`. -/
def findInRow (M : Fin m → Fin n → Bool) (row : Fin m) : Option (Fin n) :=
  (List.finRange n).find? fun c => M row c

/-- The first row with an entry in `col`. -/
def findInColumn (M : Fin m → Fin n → Bool) (col : Fin n) : Option (Fin m) :=
  (List.finRange m).find? fun r => M r col

/-! ## Preliminary steps -/

/-- The smallest of a list of values; the loops of the source start from its first element. -/
def minValue : List K → K
  | [] => 0
  | x :: xs => xs.foldl (fun h value => if value < h then value else h) x

/-- Subtract the smallest element of each row. -/
def reduceRows (d : Fin m → Fin n → K) : Fin m → Fin n → K :=
  fun r c => d r c - minValue ((List.finRange n).map fun c' => d r c')

/-- Subtract the smallest element of each column. -/
def reduceColumns (d : Fin m → Fin n → K) : Fin m → Fin n → K :=
  fun r c => d r c - minValue ((List.finRange m).map fun r' => d r' c)

/-- Steps 1 and 2a for one row: star its first zero in an uncovered column. -/
def starRow (s : Work m n K) (row : Fin m) : Work m n K :=
  match (List.finRange n).find? fun c => isZero (s.distMatrix row c) && !s.coveredColumns c with
  | none => s
  | some col => { s with
      starMatrix := setEntry s.starMatrix row col true
      coveredColumns := Function.update s.coveredColumns col true }

/-- Steps 1 and 2a for one column: star its first zero in an uncovered row. -/
def starColumn (s : Work m n K) (col : Fin n) : Work m n K :=
  match (List.finRange m).find? fun r => isZero (s.distMatrix r col) && !s.coveredRows r with
  | none => s
  | some row => { s with
      starMatrix := setEntry s.starMatrix row col true
      coveredColumns := Function.update s.coveredColumns col true
      coveredRows := Function.update s.coveredRows row true }

/-- The arrays as `calloc` leaves them. -/
def Work.init (d : Fin m → Fin n → K) : Work m n K where
  distMatrix := d
  starMatrix _ _ := false
  primeMatrix _ _ := false
  coveredColumns _ := false
  coveredRows _ := false

/-- The preliminary steps: the shorter side is reduced and starred. -/
def preliminary (d : Fin m → Fin n → K) : Work m n K :=
  if m ≤ n then
    (List.finRange m).foldl starRow (Work.init (reduceRows d))
  else
    { (List.finRange n).foldl starColumn (Work.init (reduceColumns d)) with
      coveredRows := fun _ => false }

/-! ## The steps -/

/-- `step2a`: cover every column containing a starred zero. -/
def step2a (s : Work m n K) : Work m n K :=
  { s with coveredColumns := fun col =>
      s.coveredColumns col || (findInColumn s.starMatrix col).isSome }

/-- `nOfCoveredColumns` of `step2b`. -/
def nOfCoveredColumns (s : Work m n K) : Nat := (List.finRange n).countP s.coveredColumns

/-- What a pass of the scan in `step3` leads to. -/
inductive Scan (m n : Nat) (K : Type) where
  /-- a primed zero without a star in its row: on to `step4` -/
  | step4 (s : Work m n K) (row : Fin m) (col : Fin n)
  /-- the pass is over; the flag is `zerosFound` -/
  | passed (s : Work m n K) (zerosFound : Bool)

/-- One pass of `step3` over the columns in the list. -/
def scanColumns : List (Fin n) → Work m n K → Bool → Scan m n K
  | [], s, zerosFound => .passed s zerosFound
  | col :: cols, s, zerosFound =>
    if s.coveredColumns col then scanColumns cols s zerosFound
    else
      match (List.finRange m).find? fun r => !s.coveredRows r && isZero (s.distMatrix r col) with
      | none => scanColumns cols s zerosFound
      | some row =>
        let s := { s with primeMatrix := setEntry s.primeMatrix row col true }
        match findInRow s.starMatrix row with
        | none => .step4 s row col
        | some starCol =>
          scanColumns cols { s with
            coveredRows := Function.update s.coveredRows row true
            coveredColumns := Function.update s.coveredColumns starCol false } true

/-- The `while (starRow < nOfRows)` loop of `step4`, from the column `starCol`. -/
def step4Path (star prime : Fin m → Fin n → Bool) :
    Nat → (Fin m → Fin n → Bool) → Fin n → Except Abort (Fin m → Fin n → Bool)
  | 0, _, _ => .error .outOfFuel
  | fuel + 1, newStar, starCol =>
    match findInColumn star starCol with
    | none => .ok newStar
    | some starRow =>
      match findInRow prime starRow with
      | none => .error .noPrime
      | some primeCol =>
        step4Path star prime fuel
          (setEntry (setEntry newStar starRow starCol false) starRow primeCol true) primeCol

/-- `step4`: flip the stars along the path that starts at the primed zero. -/
def step4 (s : Work m n K) (row : Fin m) (col : Fin n) : Except Abort (Work m n K) := do
  let newStar ← step4Path s.starMatrix s.primeMatrix (m + 1) (setEntry s.starMatrix row col true) col
  return { s with
    starMatrix := newStar
    primeMatrix := fun _ _ => false
    coveredRows := fun _ => false }

/-- The elements that are in no covered row and no covered column. -/
def uncovered (s : Work m n K) : List K :=
  ((List.finRange m).filter fun r => !s.coveredRows r).flatMap fun r =>
    ((List.finRange n).filter fun c => !s.coveredColumns c).map fun c => s.distMatrix r c

/-- `step5`: shift the smallest uncovered element `h`. The search starts from `DBL_MAX`, which every
value replaces; only an empty search would leave it in place. -/
def step5 (s : Work m n K) : Except Abort (Work m n K) :=
  match uncovered s with
  | [] => .error .noUncovered
  | v :: vs =>
    let h := minValue (v :: vs)
    .ok { s with distMatrix := fun r c =>
      let d := if s.coveredRows r then s.distMatrix r c + h else s.distMatrix r c
      if s.coveredColumns c then d else d - h }

/-- `buildassignmentvector`: the first starred column of each row, `none` for -1. -/
def buildassignmentvector (star : Fin m → Fin n → Bool) : Fin m → Option (Fin n) :=
  fun row => findInRow star row

/-- `step2b` with what follows it: finished, or on to `step3`. -/
def step2b (step3 : Work m n K → Except Abort (Fin m → Option (Fin n))) (s : Work m n K) :
    Except Abort (Fin m → Option (Fin n)) :=
  if nOfCoveredColumns s = min m n then .ok (buildassignmentvector s.starMatrix) else step3 s

/-- `step3` and everything it calls, one unit of fuel for each pass of its scan. -/
def step3 : Nat → Work m n K → Except Abort (Fin m → Option (Fin n))
  | 0, _ => .error .outOfFuel
  | fuel + 1, s =>
    match scanColumns (List.finRange n) s false with
    | .step4 s row col => do
      let s ← step4 s row col
      step2b (step3 fuel) (step2a s)
    | .passed s true => step3 fuel s
    | .passed s false => do
      let s ← step5 s
      step3 fuel s

/-- Passes of the scan that are enough for a matrix of this size. -/
def passes (m n : Nat) : Nat := (min m n + 1) * (2 * m + 3)

/-- `assignmentoptimal`. -/
def assignmentoptimal (d : Fin m → Fin n → K) : Except Abort (Fin m → Option (Fin n)) :=
  step2b (step3 (passes m n)) (preliminary d)

/-- `computeassignmentcost`. -/
def computeassignmentcost (d : Fin m → Fin n → K) (assignment : Fin m → Option (Fin n)) : K :=
  (List.finRange m).foldl (fun cost row =>
    match assignment row with
    | none => cost
    | some col => cost + d row col) 0

/-- `HungarianAlgorithm::Solve`: the assignment and its cost. -/
def Solve (d : Fin m → Fin n → K) : Except Abort (K × (Fin m → Option (Fin n))) := do
  let assignment ← assignmentoptimal d
  return (computeassignmentcost d assignment, assignment)

end EdgeFrame.Assign
