import CircuitDllm.Lib.Matching
import CircuitDllm.Lib.Tiling
import CircuitDllm.Mesh.Topology
import Mathlib.Algebra.Order.BigOperators.Group.List
import Mathlib.Data.Int.Log
import Mathlib.Data.Rat.Floor
import Mathlib.Tactic.Positivity

/-
  Planning the stages of a mesh (engine/topology.py).

  `planStages` takes the fewest balanced stages a fleet can
  staff, `planWeightedSplit` sizes a given number of stages
  by their throughput, and `Topology.forFleet` builds the
  mesh from both.  The weights are floats; how the split
  multiplies and divides them is a parameter.

  Main declarations:
    * `planStages`
    * `FloatArith`, `FloatArith.exact`, `FloatArith.double`
    * `planWeightedSplit`, `planPipelineLayout`
    * `Topology.forFleet`
-/

------------------------------------------------------------
-- Errors
------------------------------------------------------------

namespace CircuitDllm

/- What a planner can raise. -/
inductive PlanError where
  | layerBudget
  | replication
  | cannotCover
      (layerBudget : Int)
      (caps : List Int)
      (replication : Int)
  | noWeights
  | nonpositiveWeight
  | totalTooSmall (total : Int) (n : Nat) (minSize : Int)
  /- int() of an infinite quotient, or of no number -/
  | notFinite
  /- more layers left over than there are stages -/
  | index
  | weightsLength (k got : Nat)
  /- raised by the constructor of the topology -/
  | layout (e : MeshError)
deriving DecidableEq, Repr

end CircuitDllm

------------------------------------------------------------
-- The Fewest Stages
------------------------------------------------------------

namespace CircuitDllm

open Matching

/- [per + 1] * rem + [per] * (k - rem) -/
def stageSizes (layerBudget : Int) (k : Nat) : List Int :=
  let per := layerBudget / k
  let rem := layerBudget % k
  List.replicate rem.toNat (per + 1) ++
    List.replicate (k - rem).toNat per

/- The sorted demands fit under the sorted capacities. -/
def fits
    (sizes : List Int)
    (replication : Int)
    (caps : List Int) :
    Bool :=
  let demands :=
    descending
      (List.replicate replication.toNat sizes).flatten
  Under demands caps

/- The smallest k whose balanced stages fit the fleet. -/
def planStages
    (layerBudget : Int)
    (capacities : List Int)
    (replication : Int) :
    Except PlanError Nat :=
  if layerBudget < 1 then .error .layerBudget
  else if replication < 1 then .error .replication
  else
    let caps := descending capacities
    -- per = 0 ends the loop
    let ks :=
      (List.range' 1 layerBudget.toNat).takeWhile
        (fun (k : Nat) => layerBudget / (k : Int) ≠ 0)
    match ks.find? (fun k =>
        fits (stageSizes layerBudget k) replication caps) with
    | some k => .ok k
    | none =>
      .error (.cannotCover layerBudget caps replication)

end CircuitDllm

------------------------------------------------------------
-- The Weighted Split
------------------------------------------------------------

namespace CircuitDllm

/- int() of a fraction: toward zero. -/
def truncate (q : ℚ) : Int :=
  if 0 ≤ q then ⌊q⌋ else ⌈q⌉

/-
  The arithmetic of the split: total * x / sum(w) as it comes
  out, or none where it is infinite or no number.  What the
  split subtracts afterwards, a float less its whole part, is
  exact.
-/
structure FloatArith where
  quotient : Int → List ℚ → ℚ → Option ℚ
  nonneg :
    ∀ {total weights x q}, 0 ≤ total →
      (∀ w ∈ weights, 0 < w) → x ∈ weights →
        quotient total weights x = some q → 0 ≤ q

/- That of the rationals. -/
def FloatArith.exact : FloatArith where
  quotient total weights x := some (total * x / weights.sum)
  nonneg := by
    intro total weights x q hTotal hPositive hMem hQuotient
    cases hQuotient
    have hCast : (0 : ℚ) ≤ total := by exact_mod_cast hTotal
    have hWeight := hPositive x hMem
    have hSum : 0 ≤ weights.sum :=
      List.sum_nonneg (fun w hW => (hPositive w hW).le)
    positivity

/- The nearest integer, the even one of two. -/
def roundHalfEven (q : ℚ) : Int :=
  let k := ⌊q⌋
  if q - k < 1 / 2 then k
  else if 1 / 2 < q - k then k + 1
  else k + k % 2

/- The distance between doubles of this size. -/
def ulp (q : ℚ) : ℚ :=
  (2 : ℚ) ^ max (Int.log 2 q - 52) (-1074)

/- The nearest double, none where it is infinite. -/
def toDouble (q : ℚ) : Option ℚ :=
  let d := roundHalfEven (q / ulp q) * ulp q
  if d < 2 ^ 1024 then some d else none

/- sum(w), from the left. -/
def doubleSum (weights : List ℚ) : Option ℚ :=
  weights.foldlM (fun sum x => toDouble (sum + x)) 0

/- total * x / W in doubles. -/
def doubleQuotient
    (total : Int)
    (weights : List ℚ)
    (x : ℚ) :
    Option ℚ :=
  match toDouble total with
  | none => none
  | some float =>
    match toDouble (float * x), doubleSum weights with
    | none, _ => none
    -- divided by an infinite sum
    | some _, none => some 0
    | some product, some sum => toDouble (product / sum)

theorem roundHalfEven_nonneg
    {q : ℚ}
    (hNonneg : 0 ≤ q) :
    0 ≤ roundHalfEven q := by
  have hFloor := Int.floor_nonneg.mpr hNonneg
  rw [roundHalfEven]
  split_ifs <;> omega

theorem toDouble_nonneg
    {q d : ℚ}
    (hNonneg : 0 ≤ q)
    (hDouble : toDouble q = some d) :
    0 ≤ d := by
  have hUlp : 0 ≤ ulp q := zpow_nonneg (by norm_num) _
  have hRound : (0 : ℚ) ≤ roundHalfEven (q / ulp q) := by
    exact_mod_cast
      roundHalfEven_nonneg (div_nonneg hNonneg hUlp)
  rw [toDouble] at hDouble
  split_ifs at hDouble
  cases hDouble
  exact mul_nonneg hRound hUlp

theorem doubleSum_nonneg
    {weights : List ℚ}
    (hPositive : ∀ w ∈ weights, 0 < w)
    {sum : ℚ}
    (hSum : doubleSum weights = some sum) :
    0 ≤ sum := by
  suffices hFrom :
      ∀ {start : ℚ}, 0 ≤ start →
        weights.foldlM (fun sum x => toDouble (sum + x))
            start = some sum →
          0 ≤ sum by
    exact hFrom le_rfl hSum
  clear hSum
  induction weights with
  | nil =>
      intro start hStart hFold
      cases hFold
      exact hStart
  | cons w weights ih =>
      intro start hStart hFold
      rcases List.forall_mem_cons.mp hPositive with
        ⟨hHead, hTail⟩
      rw [List.foldlM_cons, Option.bind_eq_bind,
        Option.bind_eq_some_iff] at hFold
      rcases hFold with ⟨next, hNext, hFold⟩
      have hSum := add_nonneg hStart hHead.le
      exact ih hTail (toDouble_nonneg hSum hNext) hFold

/- That of the doubles. -/
def FloatArith.double : FloatArith where
  quotient := doubleQuotient
  nonneg := by
    intro total weights x q hTotal hPositive hMem hQuotient
    have hCast : (0 : ℚ) ≤ total := by exact_mod_cast hTotal
    rw [doubleQuotient] at hQuotient
    split at hQuotient
    · cases hQuotient
    · rename_i float hFloat
      have hProduct :=
        mul_nonneg (toDouble_nonneg hCast hFloat)
          (hPositive x hMem).le
      split at hQuotient
      · cases hQuotient
      · cases hQuotient
        exact le_rfl
      · rename_i product sum hTimes hSum
        exact
          toDouble_nonneg
            (div_nonneg (toDouble_nonneg hProduct hTimes)
              (doubleSum_nonneg hPositive hSum))
            hQuotient

/- The ideal size of every stage. -/
def FloatArith.quotients
    (arith : FloatArith)
    (total : Int)
    (weights : List ℚ) :
    Option (List ℚ) :=
  weights.mapM (arith.quotient total weights)

/- total * x / W of every weight. -/
def idealSizes (total : Int) (weights : List ℚ) : List ℚ :=
  weights.map (fun x => total * x / weights.sum)

/- The stages by what rounding took from them, stably. -/
def remainderOrder
    (ideal : List ℚ)
    (sizes : List Int) :
    List Nat :=
  let key (i : Nat) : ℚ := ideal.getD i 0 - sizes.getD i 0
  (List.range ideal.length).insertionSort
    (fun i j => key j ≤ key i)

/- Hand one layer to each of the listed stages. -/
def handOut (order : List Nat) (sizes : List Int) :
    List Int :=
  order.foldl (fun sizes i => sizes.modify i (· + 1)) sizes

/- The layers that rounding down leaves. -/
def remainder (total : Int) (ideal : List ℚ) : Int :=
  total - (ideal.map truncate).sum

/- Largest-remainder rounding of the ideal sizes. -/
def roundedSizes (total : Int) (ideal : List ℚ) :
    List Int :=
  let sizes := ideal.map truncate
  let order := remainderOrder ideal sizes
  handOut (order.take (remainder total ideal).toNat) sizes

/- The smallest and the largest slice, the first of each. -/
def extremes (sizes : List Int) : Option (Nat × Nat) :=
  -- the order of the integers that computes
  letI : Preorder Int := Int.instLinearOrder.toPreorder
  let places := List.range sizes.length
  match places.argmin (fun i => sizes.getD i 0),
      places.argmax (fun i => sizes.getD i 0) with
  | some lo, some hi => some (lo, hi)
  | _, _ => none

/- One layer from the largest slice to the smallest. -/
def moveLayer (lo hi : Nat) (sizes : List Int) : List Int :=
  (sizes.modify lo (· + 1)).modify hi (· - 1)

/- Steal until no slice is below min_size or the guard ends. -/
def steal (minSize : Int) : Nat → List Int → List Int
| 0, sizes => sizes
| guard + 1, sizes =>
    match extremes sizes with
    | none => sizes
    | some (lo, hi) =>
      if minSize ≤ sizes.getD lo 0 then sizes
      else if sizes.getD hi 0 - 1 < minSize then sizes
      else steal minSize guard (moveLayer lo hi sizes)

/- Integer slices of `total` in proportion to the weights. -/
def planWeightedSplit
    (arith : FloatArith)
    (total : Int)
    (weights : List ℚ)
    (minSize : Int) :
    Except PlanError (List Int) :=
  let n := weights.length
  if n < 1 then .error .noWeights
  else if ∃ w ∈ weights, w ≤ 0 then .error .nonpositiveWeight
  else if total < n * minSize then
    .error (.totalTooSmall total n minSize)
  else
    match arith.quotients total weights with
    | none => .error .notFinite
    | some ideal =>
      -- order[i] of a list with an entry for each stage
      if n < remainder total ideal then .error .index
      else
        .ok (steal minSize (10 * n) (roundedSizes total ideal))

/- The layer ranges of a full pipeline, from layer 0. -/
def planPipelineLayout
    (arith : FloatArith)
    (numLayers : Int)
    (weights : List ℚ)
    (minSize : Int) :
    Except PlanError (List (Int × Int)) :=
  match planWeightedSplit arith numLayers weights minSize with
  | .error e => .error e
  | .ok sizes => .ok (Tiling.ranges 0 sizes)

end CircuitDllm

------------------------------------------------------------
-- A Topology for a Fleet
------------------------------------------------------------

namespace CircuitDllm

namespace Topology

/- The slot sizes the weights of the fleet ask for. -/
def fleetSizes
    (arith : FloatArith)
    (layerBudget : Int)
    (k : Nat)
    (weights : Option (List ℚ)) :
    Except PlanError (Option (List Int)) :=
  match weights with
  | none => .ok none
  | some ws =>
    if ws.length ≠ k then
      .error (.weightsLength k ws.length)
    else
      match planWeightedSplit arith layerBudget ws 1 with
      | .error e => .error e
      | .ok sizes => .ok (some sizes)

/-
  The fewest stages the capacities can staff.  The layout
  gives everything but the stages and their sizes.
-/
def forFleet
    (arith : FloatArith)
    (l : Layout)
    (capacities : List Int)
    (weights : Option (List ℚ)) :
    Except PlanError Topology :=
  let layerBudget := l.numLayers - l.coordinatorEnd
  match planStages layerBudget capacities l.replication with
  | .error e => .error e
  | .ok k =>
    match fleetSizes arith layerBudget k weights with
    | .error e => .error e
    | .ok sizes =>
      match create
          { l with numStages := k, slotSizes := sizes } with
      | .error e => .error (.layout e)
      | .ok t => .ok t

end Topology

end CircuitDllm
