import CircuitDllm.Mesh.WeightedSplit
import Mathlib.Data.List.TakeWhile
import Mathlib.Order.Bounds.Basic

/-
  Which layouts a fleet can staff.

  A mesh is staffed when every slot has `replication` nodes
  of its own that can hold it.  Staffing is a matching of
  slots to capacities, so the planner's comparison of the
  largest with the largest decides it.

  Main declarations:
    * `Topology.Staffable`, `fits_iff_staffable`
    * `planStages_eq_ok_iff`
    * `planStages_exact`
    * `forFleet_staffable_iff`
-/

------------------------------------------------------------
-- Staffing
------------------------------------------------------------

namespace CircuitDllm

open Matching

/-
  `replication` nodes for each slot, no node twice, each
  with the capacity for its slot.
-/
def Topology.Staffable
    (t : Topology)
    (replication : Nat)
    (capacities : List Int) : Prop :=
  ∃ node : Fin t.slots.length × Fin replication →
      Fin capacities.length,
    Function.Injective node ∧
      ∀ place : Fin t.slots.length × Fin replication,
        (t.slots.get place.1).size ≤
          capacities.get (node place)

theorem Topology.staffable_iff_reach
    {t : Topology}
    {replication : Nat}
    {capacities : List Int} :
    t.Staffable replication capacities ↔
      ∀ a,
        replication * reach a (t.slots.map Slot.size) ≤
          reach a capacities :=
  assignable_iff_reach Slot.size t.slots replication
    capacities

/- The planner's check decides whether there are nodes. -/
theorem fits_iff_staffable
    {t : Topology}
    {replication : Int}
    {capacities : List Int} :
    fits (t.slots.map Slot.size) replication
        (descending capacities) = true ↔
      t.Staffable replication.toNat capacities := by
  rw [fits, decide_eq_true_iff]
  exact (assignable_iff_under Slot.size t.slots
    replication.toNat capacities).symm

end CircuitDllm

------------------------------------------------------------
-- Balanced Stages
------------------------------------------------------------

namespace CircuitDllm

open Matching

/- The constructor's balanced slots can be staffed. -/
def BalancedStaffing
    (layerBudget : Int)
    (k : Nat)
    (replication : Nat)
    (capacities : List Int) : Prop :=
  ∃ (l : Layout) (t : Topology),
    l.slotSizes = none ∧
      l.numStages = k ∧
      l.numLayers - l.coordinatorEnd = layerBudget ∧
      Topology.create l = .ok t ∧
      t.Staffable replication capacities

/- What the constructor lays out without given sizes. -/
theorem map_size_create
    {l : Layout}
    {t : Topology}
    (hDefault : l.slotSizes = none)
    (hCreate : Topology.create l = .ok t) :
    t.slots.map Slot.size =
      balancedSizes (l.numLayers - l.coordinatorEnd)
        l.numStages.toNat := by
  rcases Topology.create_eq_ok_iff.mp hCreate with
    ⟨sizes, hSizes, hSlots, -⟩
  rw [hSlots, map_size_layoutSlots]
  rcases Topology.sizesOf_eq_ok_iff.mp hSizes with
    ⟨-, -, -, ⟨-, hEq⟩ | ⟨hSome, -⟩⟩
  · exact hEq
  · rw [hDefault] at hSome
    cases hSome

variable {layerBudget replication : Int}
variable {capacities : List Int}

/- A layout with no layers on the coordinator will do. -/
theorem exists_create_balanced
    (hBudget : 1 ≤ layerBudget)
    {k : Nat}
    (hStages : 1 ≤ k) :
    ∃ (l : Layout) (t : Topology),
      l.slotSizes = none ∧
        l.numStages = k ∧
        l.numLayers - l.coordinatorEnd = layerBudget ∧
        Topology.create l = .ok t ∧
        t.slots.map Slot.size = balancedSizes layerBudget k := by
  let l : Layout :=
    { numLayers := layerBudget
      coordinatorEnd := 0
      numStages := k
      modelFp := "" }
  have hSizes : Topology.sizesOf l =
      .ok (balancedSizes layerBudget k) := by
    refine Topology.sizesOf_eq_ok_iff.mpr ⟨?_, ?_, ?_, ?_⟩
    · change (1 : Int) ≤ k
      omega
    · exact le_rfl
    · change 0 < layerBudget
      omega
    · refine Or.inl ⟨rfl, ?_⟩
      simp [l]
  rcases Topology.exists_create hSizes with ⟨t, hCreate⟩
  refine ⟨l, t, rfl, rfl, by simp [l], hCreate, ?_⟩
  rw [map_size_create rfl hCreate]
  simp [l]

theorem balancedStaffing_iff_reach
    (hBudget : 1 ≤ layerBudget)
    {k copies : Nat}
    (hStages : 1 ≤ k) :
    BalancedStaffing layerBudget k copies capacities ↔
      ∀ a,
        copies * reach a (balancedSizes layerBudget k) ≤
          reach a capacities := by
  constructor
  · rintro ⟨l, t, hDefault, hCount, hLayers, hCreate, hStaff⟩
    have hSizes := map_size_create hDefault hCreate
    rw [hLayers, hCount, Int.toNat_natCast] at hSizes
    rw [← hSizes]
    exact Topology.staffable_iff_reach.mp hStaff
  · intro hReach
    rcases exists_create_balanced hBudget hStages with
      ⟨l, t, hDefault, hCount, hLayers, hCreate, hSizes⟩
    refine ⟨l, t, hDefault, hCount, hLayers, hCreate, ?_⟩
    rw [Topology.staffable_iff_reach, hSizes]
    exact hReach

theorem fits_stageSizes_iff
    (hBudget : 1 ≤ layerBudget)
    {k : Nat}
    (hStages : 1 ≤ k) :
    fits (stageSizes layerBudget k) replication
        (descending capacities) = true ↔
      BalancedStaffing layerBudget k replication.toNat
        capacities := by
  rcases exists_create_balanced hBudget hStages with
    ⟨l, t, -, -, -, -, hSizes⟩
  rw [stageSizes_eq_balancedSizes hStages, ← hSizes,
    fits_iff_staffable, Topology.staffable_iff_reach, hSizes,
    balancedStaffing_iff_reach hBudget hStages]

/-
  More stages than layers only add empty slots: a layer to
  each of `layerBudget` slots is easier to staff.
-/
theorem reach_budget_le
    (a : Int)
    {n k : Nat}
    (hMore : n < k) :
    reach a (stageSizes n n) ≤ reach a (stageSizes n k) := by
  have hLt : (n : Int) < k := by omega
  have hMoreSizes : stageSizes n k =
      List.replicate n 1 ++ List.replicate (k - n) 0 := by
    rw [stageSizes, Int.ediv_eq_zero_of_lt (by omega) hLt,
      Int.emod_eq_of_lt (by omega) hLt, zero_add,
      Int.toNat_natCast]
    congr 2
    omega
  rcases Nat.eq_zero_or_pos n with rfl | hPos
  · simp [stageSizes]
  · have hBudgetSizes : stageSizes n n =
        List.replicate n 1 := by
      rw [stageSizes, Int.ediv_self (by omega), Int.emod_self]
      simp
    rw [hMoreSizes, hBudgetSizes, reach, reach,
      List.countP_append]
    exact Nat.le_add_right _ _

theorem balancedStaffing_budget
    (hBudget : 1 ≤ layerBudget)
    {k copies : Nat}
    (hMore : layerBudget < k)
    (hStaff :
      BalancedStaffing layerBudget k copies capacities) :
    BalancedStaffing layerBudget layerBudget.toNat copies
      capacities := by
  obtain ⟨n, rfl⟩ := Int.eq_ofNat_of_zero_le
    (by omega : 0 ≤ layerBudget)
  have hMore : n < k := by omega
  rw [balancedStaffing_iff_reach hBudget (by omega)] at hStaff
  rw [balancedStaffing_iff_reach hBudget (by omega)]
  intro a
  have hLe := reach_budget_le a hMore
  rw [stageSizes_eq_balancedSizes (by omega),
    stageSizes_eq_balancedSizes (by omega)] at hLe
  rw [Int.toNat_natCast]
  exact le_trans (Nat.mul_le_mul_left _ hLe) (hStaff a)

end CircuitDllm

------------------------------------------------------------
-- The Planner
------------------------------------------------------------

namespace CircuitDllm

open Matching

variable {layerBudget replication : Int}
variable {capacities : List Int}

/- The loop never breaks: a stage count has its layers. -/
theorem takeWhile_stages
    (hBudget : 1 ≤ layerBudget) :
    (List.range' 1 layerBudget.toNat).takeWhile
        (fun (k : Nat) => layerBudget / (k : Int) ≠ 0) =
      List.range' 1 layerBudget.toNat := by
  rw [List.takeWhile_eq_self_iff]
  intro k hMem
  have hRange := List.mem_range'_1.mp hMem
  have hPer : 1 ≤ layerBudget / (k : Int) :=
    (Int.le_ediv_iff_mul_le (by omega)).mpr (by omega)
  simp only [ne_eq, decide_eq_true_eq]
  omega

/- The first stage count that fits the sorted fleet. -/
def firstFit
    (layerBudget replication : Int)
    (capacities : List Int) :
    Option Nat :=
  (List.range' 1 layerBudget.toNat).find? (fun k =>
    fits (stageSizes layerBudget k) replication
      (descending capacities))

theorem planStages_eq
    (hBudget : 1 ≤ layerBudget)
    (hReplication : 1 ≤ replication) :
    planStages layerBudget capacities replication =
      (firstFit layerBudget replication capacities).elim
        (.error (.cannotCover layerBudget
          (descending capacities) replication))
        .ok := by
  rw [planStages, if_neg (by omega), if_neg (by omega)]
  simp only [takeWhile_stages hBudget]
  rw [← firstFit]
  cases firstFit layerBudget replication capacities <;> rfl

theorem firstFit_eq_some_iff
    (hBudget : 1 ≤ layerBudget)
    (k : Nat) :
    firstFit layerBudget replication capacities = some k ↔
      1 ≤ k ∧ k ≤ layerBudget ∧
        BalancedStaffing layerBudget k replication.toNat
          capacities ∧
        ∀ j : Nat, 1 ≤ j → j < k →
          ¬ BalancedStaffing layerBudget j replication.toNat
            capacities := by
  rw [firstFit, List.find?_range'_eq_some, List.mem_range'_1]
  constructor
  · rintro ⟨hFits, hRange, hBefore⟩
    refine ⟨hRange.1, by omega, ?_, ?_⟩
    · exact (fits_stageSizes_iff hBudget hRange.1).mp hFits
    · intro j hOne hLt hStaff
      have hNot := hBefore j hOne hLt
      rw [(fits_stageSizes_iff hBudget hOne).mpr hStaff]
        at hNot
      cases hNot
  · rintro ⟨hOne, hLe, hStaff, hBefore⟩
    refine ⟨?_, by omega, ?_⟩
    · exact (fits_stageSizes_iff hBudget hOne).mpr hStaff
    · intro j hJ hLt
      rw [Bool.not_eq_true', ← Bool.not_eq_true,
        fits_stageSizes_iff hBudget hJ]
      exact hBefore j hJ hLt

theorem firstFit_eq_none_iff
    (hBudget : 1 ≤ layerBudget) :
    firstFit layerBudget replication capacities = none ↔
      ∀ k : Nat, 1 ≤ k → k ≤ layerBudget →
        ¬ BalancedStaffing layerBudget k replication.toNat
          capacities := by
  rw [firstFit, List.find?_range'_eq_none]
  constructor
  · intro hNone k hOne hLe hStaff
    have hNot := hNone k hOne (by omega)
    rw [(fits_stageSizes_iff hBudget hOne).mpr hStaff]
      at hNot
    cases hNot
  · intro hNone k hOne hLt
    rw [Bool.not_eq_true', ← Bool.not_eq_true,
      fits_stageSizes_iff hBudget hOne]
    exact hNone k hOne (by omega)

theorem planStages_eq_ok_iff
    (hBudget : 1 ≤ layerBudget)
    (hReplication : 1 ≤ replication)
    (k : Nat) :
    planStages layerBudget capacities replication = .ok k ↔
      1 ≤ k ∧ k ≤ layerBudget ∧
        BalancedStaffing layerBudget k replication.toNat
          capacities ∧
        ∀ j : Nat, 1 ≤ j → j < k →
          ¬ BalancedStaffing layerBudget j replication.toNat
            capacities := by
  rw [← firstFit_eq_some_iff hBudget,
    planStages_eq hBudget hReplication]
  cases firstFit layerBudget replication capacities <;> simp

theorem planStages_eq_error_iff
    (hBudget : 1 ≤ layerBudget)
    (hReplication : 1 ≤ replication) :
    (∃ e, planStages layerBudget capacities replication =
        .error e) ↔
      ∀ k : Nat, 1 ≤ k → k ≤ layerBudget →
        ¬ BalancedStaffing layerBudget k replication.toNat
          capacities := by
  rw [← firstFit_eq_none_iff hBudget,
    planStages_eq hBudget hReplication]
  cases firstFit layerBudget replication capacities <;> simp

/-
  The planned stage count is the least the fleet can staff,
  and it fails when no count up to the budget can be.
-/
theorem planStages_exact
    {layerBudget replication : Int}
    (hBudget : 1 ≤ layerBudget)
    (hReplication : 1 ≤ replication)
    (capacities : List Int) :
    (∀ k, planStages layerBudget capacities replication =
        .ok k ↔
      IsLeast {k | 1 ≤ k ∧
        BalancedStaffing layerBudget k replication.toNat
          capacities} k) ∧
    ((∃ e, planStages layerBudget capacities replication =
        .error e) ↔
      ∀ k : Nat, 1 ≤ k → k ≤ layerBudget →
        ¬ BalancedStaffing layerBudget k replication.toNat
          capacities) := by
  refine ⟨?_, planStages_eq_error_iff hBudget hReplication⟩
  intro k
  rw [planStages_eq_ok_iff hBudget hReplication]
  constructor
  · rintro ⟨hOne, -, hStaff, hBefore⟩
    refine ⟨⟨hOne, hStaff⟩, ?_⟩
    rintro j ⟨hJ, hOther⟩
    by_contra hLess
    exact hBefore j hJ (not_le.mp hLess) hOther
  · rintro ⟨⟨hOne, hStaff⟩, hLeast⟩
    refine ⟨hOne, ?_, hStaff, ?_⟩
    · by_contra hMore
      have hBudgetStaff := balancedStaffing_budget hBudget
        (not_le.mp hMore) hStaff
      have hLe : k ≤ layerBudget.toNat :=
        hLeast ⟨by omega, hBudgetStaff⟩
      omega
    · intro j hJ hLess hOther
      have hLe : k ≤ j := hLeast ⟨hJ, hOther⟩
      omega

/- Two nodes of five layers staff ten layers in two stages. -/
theorem planStages_exact_two :
    planStages 10 [5, 5] 1 = .ok 2 ∧
      IsLeast {k | 1 ≤ k ∧
        BalancedStaffing 10 k (1 : Int).toNat [5, 5]} 2 :=
  have hPlan : planStages 10 [5, 5] 1 = .ok 2 := by
    decide +kernel
  ⟨hPlan,
    ((planStages_exact (by decide) (by decide)
      [5, 5]).1 2).mp hPlan⟩

end CircuitDllm

------------------------------------------------------------
-- Fleets
------------------------------------------------------------

namespace CircuitDllm

open Apportion Matching

variable {layerBudget replication : Int}
variable {capacities : List Int} {weights : List ℚ}

/- What the planner checked before it planned. -/
theorem planStages_checks
    {k : Nat}
    (hPlan : planStages layerBudget capacities replication =
      .ok k) :
    1 ≤ layerBudget ∧ 1 ≤ replication := by
  rw [planStages] at hPlan
  split_ifs at hPlan with hBudget hReplication
  exact ⟨not_lt.mp hBudget, not_lt.mp hReplication⟩

theorem planWeightedSplit_eq_ok
    {arith : FloatArith}
    {total minSize : Int}
    {sizes : List Int}
    (hPlan : planWeightedSplit arith total weights minSize =
      .ok sizes) :
    weights ≠ [] ∧ (∀ w ∈ weights, 0 < w) ∧
      weights.length * minSize ≤ total ∧
      ∃ ideal,
        arith.quotients total weights = some ideal ∧
          remainder total ideal ≤ weights.length ∧
            sizes =
              steal minSize (10 * weights.length)
                (roundedSizes total ideal) := by
  rw [planWeightedSplit] at hPlan
  split_ifs at hPlan with hLength hWeights hTotal
  push Not at hWeights
  split at hPlan
  · cases hPlan
  · rename_i ideal hIdeal
    split_ifs at hPlan with hRest
    refine
      ⟨?_, hWeights, not_lt.mp hTotal, ideal, hIdeal,
        not_lt.mp hRest, (Except.ok.inj hPlan).symm⟩
    rintro rfl
    simp at hLength

/- What a partial function gives on a whole list. -/
theorem forall₂_of_mapM
    {α β : Type*}
    {f : α → Option β} :
    ∀ {xs : List α} {ys : List β},
      xs.mapM f = some ys →
        List.Forall₂ (fun x y => f x = some y) xs ys
| [], ys, hMap => by
    cases hMap
    exact .nil
| x :: xs, ys, hMap => by
    rw [List.mapM_cons, Option.bind_eq_bind,
      Option.bind_eq_some_iff] at hMap
    rcases hMap with ⟨y, hHead, hMap⟩
    rw [Option.bind_eq_bind, Option.bind_eq_some_iff] at hMap
    rcases hMap with ⟨rest, hTail, hMap⟩
    cases hMap
    exact .cons hHead (forall₂_of_mapM hTail)

/- There is a quotient for every stage, none negative. -/
theorem quotients_spec
    {arith : FloatArith}
    {total : Int}
    {ideal : List ℚ}
    (hTotal : 0 ≤ total)
    (hPositive : ∀ w ∈ weights, 0 < w)
    (hIdeal : arith.quotients total weights = some ideal) :
    ideal.length = weights.length ∧ ∀ q ∈ ideal, 0 ≤ q := by
  have hForall := forall₂_of_mapM hIdeal
  refine ⟨hForall.length_eq.symm, fun q hMem => ?_⟩
  rcases List.mem_iff_getElem.mp hMem with ⟨i, hI, rfl⟩
  have hLt : i < weights.length := by
    rw [hForall.length_eq]
    exact hI
  exact
    arith.nonneg hTotal hPositive (List.getElem_mem hLt)
      (hForall.get hLt hI)

/- A stage is short of one layer at most. -/
theorem short_one_le
    {sizes : List Int}
    (hNonneg : ∀ s ∈ sizes, 0 ≤ s) :
    short 1 sizes ≤ sizes.length := by
  induction sizes with
  | nil => simp [short]
  | cons s sizes ih =>
      rcases List.forall_mem_cons.mp hNonneg with
        ⟨hHead, hTail⟩
      have hRest := ih hTail
      rw [short, List.map_cons, List.sum_cons, ← short,
        List.length_cons]
      push_cast
      omega

/-
  The nodes that reach a height are enough for the slices
  that do: these are the largest-remainder shares of the
  quotients that reach it, cut off from the top by the layers
  that go to stages with none.
-/
def WeightsFit
    (layerBudget replication : Int)
    (capacities : List Int)
    (ideal : List ℚ) : Prop :=
  ∀ d : Int, 2 ≤ d →
    replication * levelled 1 d (shares layerBudget ideal) ≤
      reach d capacities

/- A planned fleet has nodes enough for one layer each. -/
theorem planned_reach_one
    {k : Nat}
    (hPlan : planStages layerBudget capacities replication =
      .ok k) :
    replication.toNat * k ≤ reach 1 capacities := by
  rcases planStages_checks hPlan with ⟨hBudget, hReplication⟩
  rcases (planStages_eq_ok_iff hBudget hReplication k).mp
    hPlan with ⟨hOne, hLe, hStaff, -⟩
  rw [balancedStaffing_iff_reach hBudget hOne] at hStaff
  have hAll :
      reach 1 (balancedSizes layerBudget k) = k := by
    rw [reach, List.countP_eq_length.mpr, length_balancedSizes]
    intro size hMem
    exact decide_eq_true
      ((balancedSizes_pos_iff hOne).mpr hLe size hMem)
  have hAt := hStaff 1
  rw [hAll] at hAt
  exact hAt

theorem reach_le_reach
    {a b : Int}
    (hLe : a ≤ b)
    (xs : List Int) :
    reach b xs ≤ reach a xs := by
  refine List.countP_mono_left ?_
  intro x hMem hReach
  simp only [decide_eq_true_eq] at hReach ⊢
  omega

/- Shares of quotients that are not negative. -/
theorem quotient_shares_nonneg
    {total : Int}
    {ideal : List ℚ}
    (hNonneg : ∀ q ∈ ideal, 0 ≤ q) :
    ∀ s ∈ shares total ideal, 0 ≤ s := by
  intro s hMem
  rcases List.mem_map.mp hMem with ⟨i, hIn, rfl⟩
  have hLt : i < ideal.length := List.mem_range.mp hIn
  have hIdeal : 0 ≤ ideal.getD i 0 := by
    rw [List.getD_eq_getElem _ _ hLt]
    exact hNonneg _ (List.getElem_mem hLt)
  have hFloor := Int.floor_nonneg.mpr hIdeal
  rw [share]
  split_ifs <;> omega

/-
  Slices of the whole total come from quotients with no more
  rounded away than there is.
-/
theorem leftover_nonneg_of_sum
    {total : Int}
    {ideal : List ℚ}
    (hNonneg : ∀ q ∈ ideal, 0 ≤ q)
    (hRoom : (ideal.length : Int) ≤ total)
    {guard : Nat}
    (hSum :
      (steal 1 guard (roundedSizes total ideal)).sum = total) :
    0 ≤ leftover total ideal := by
  by_contra hOver
  rw [← remainder_eq_leftover hNonneg] at hOver
  have hNone : (remainder total ideal).toNat = 0 := by omega
  have hSizes :
      roundedSizes total ideal = ideal.map truncate := by
    simp [roundedSizes, hNone, handOut]
  have hMore : total < (ideal.map truncate).sum := by
    rw [remainder] at hOver
    omega
  have hRoomy : Roomy 1 (ideal.map truncate) := by
    rw [Roomy, List.length_map]
    omega
  rw [hSizes, sum_steal hRoomy] at hSum
  omega

/- The heights of slices that sum to the total. -/
theorem reach_weighted
    {ideal : List ℚ}
    (hNonneg : ∀ q ∈ ideal, 0 ≤ q)
    (hRoom : (ideal.length : Int) ≤ layerBudget)
    (hUnits : 0 ≤ leftover layerBudget ideal)
    (hRest : leftover layerBudget ideal ≤ ideal.length)
    {d : Int}
    (hHeight : 2 ≤ d) :
    (reach d
        (steal 1 (10 * ideal.length)
          (shares layerBudget ideal)) : Int) =
      levelled 1 d (shares layerBudget ideal) := by
  have hLength :
      (shares layerBudget ideal).length = ideal.length := by
    simp [shares]
  have hShort :
      short 1 (shares layerBudget ideal) ≤
        (shares layerBudget ideal).length :=
    short_one_le (quotient_shares_nonneg hNonneg)
  have hRoomy : Roomy 1 (shares layerBudget ideal) := by
    rw [Roomy, sum_shares_of_leftover hUnits hRest, hLength]
    omega
  refine reach_steal hRoomy ?_ (by omega)
  rw [hLength] at hShort
  push_cast
  omega

theorem staffable_weighted_iff
    {arith : FloatArith}
    {t : Topology}
    {k : Nat}
    (hPlan : planStages layerBudget capacities replication =
      .ok k)
    (hLength : weights.length = k)
    (hSplit : planWeightedSplit arith layerBudget weights 1 =
      .ok (t.slots.map Slot.size))
    (hSum : (t.slots.map Slot.size).sum = layerBudget)
    {ideal : List ℚ}
    (hIdeal :
      arith.quotients layerBudget weights = some ideal) :
    t.Staffable replication.toNat capacities ↔
      WeightsFit layerBudget replication capacities ideal := by
  rcases planStages_checks hPlan with ⟨hBudget, hReplication⟩
  have hCopies : (replication.toNat : Int) = replication := by
    omega
  rcases planWeightedSplit_eq_ok hSplit with
    ⟨_, hPositive, hRoom, ideal', hIdeal', hRest, hSizes⟩
  obtain rfl : ideal = ideal' :=
    Option.some.inj (hIdeal.symm.trans hIdeal')
  rcases quotients_spec (by omega) hPositive hIdeal with
    ⟨hStages, hNonneg⟩
  rw [← hStages] at hRoom hRest hSizes
  rw [mul_one] at hRoom
  rw [remainder_eq_leftover hNonneg] at hRest
  have hUnits : 0 ≤ leftover layerBudget ideal := by
    rw [hSizes] at hSum
    exact leftover_nonneg_of_sum hNonneg hRoom hSum
  rw [roundedSizes_eq_shares hNonneg hUnits] at hSizes
  have hReached (d : Int) (hHeight : 2 ≤ d) :=
    reach_weighted hNonneg hRoom hUnits hRest hHeight
  rw [Topology.staffable_iff_reach, hSizes]
  constructor
  · intro hReach d hHeight
    rw [← hReached d hHeight, ← hCopies]
    exact_mod_cast hReach d
  · intro hFit d
    rcases lt_or_ge d 2 with hLow | hHigh
    · have hCount :
          reach d
            (steal 1 (10 * ideal.length)
              (shares layerBudget ideal)) ≤ k := by
        refine le_trans List.countP_le_length ?_
        simp [shares, hStages, hLength]
      calc replication.toNat *
            reach d
              (steal 1 (10 * ideal.length)
                (shares layerBudget ideal))
          ≤ replication.toNat * k :=
            Nat.mul_le_mul_left _ hCount
        _ ≤ reach 1 capacities := planned_reach_one hPlan
        _ ≤ reach d capacities :=
            reach_le_reach (by omega) capacities
    · have hAt := hFit d hHigh
      rw [← hReached d hHigh, ← hCopies] at hAt
      exact_mod_cast hAt

/- A mesh in balanced slots has the planned staffing. -/
theorem staffable_balanced
    {l : Layout}
    {t : Topology}
    {k : Nat}
    (hPlan : planStages (l.numLayers - l.coordinatorEnd)
      capacities replication = .ok k)
    (hCreate : Topology.create
      { l with numStages := k, slotSizes := none } = .ok t) :
    t.Staffable replication.toNat capacities := by
  rcases planStages_checks hPlan with ⟨hBudget, hReplication⟩
  rcases (planStages_eq_ok_iff hBudget hReplication k).mp
    hPlan with ⟨hOne, -, hStaff, -⟩
  have hSizes := map_size_create rfl hCreate
  rw [Topology.staffable_iff_reach, hSizes]
  exact (balancedStaffing_iff_reach hBudget hOne).mp hStaff

/- How a mesh is built for a fleet. -/
theorem forFleet_eq_ok
    {arith : FloatArith}
    {l : Layout}
    {weights : Option (List ℚ)}
    {t : Topology}
    (hFleet : Topology.forFleet arith l capacities weights =
      .ok t) :
    ∃ k sizes,
      planStages (l.numLayers - l.coordinatorEnd) capacities
          l.replication = .ok k ∧
        Topology.fleetSizes arith
          (l.numLayers - l.coordinatorEnd) k weights =
            .ok sizes ∧
        Topology.create
          { l with numStages := k, slotSizes := sizes } =
            .ok t := by
  rw [Topology.forFleet] at hFleet
  split at hFleet
  · cases hFleet
  · rename_i k hPlan
    split at hFleet
    · cases hFleet
    · rename_i sizes hSizes
      refine ⟨k, sizes, hPlan, hSizes, ?_⟩
      split at hFleet
      · cases hFleet
      · rename_i made hCreate
        rw [hCreate]
        exact congrArg Except.ok (Except.ok.inj hFleet)

theorem fleetSizes_eq_ok
    {arith : FloatArith}
    {k : Nat}
    {sizes : Option (List Int)}
    (hSizes : Topology.fleetSizes arith layerBudget k
      (some weights) = .ok sizes) :
    weights.length = k ∧
      ∃ given, sizes = some given ∧
        planWeightedSplit arith layerBudget weights 1 =
          .ok given := by
  rw [Topology.fleetSizes] at hSizes
  split_ifs at hSizes with hLength
  split at hSizes
  · cases hSizes
  · rename_i given hSplit
    rw [Except.ok.injEq] at hSizes
    exact ⟨not_not.mp hLength, given, hSizes.symm, hSplit⟩

/- Given sizes that pass the checks are the slots' sizes. -/
theorem map_size_create_given
    {l : Layout}
    {given : List Int}
    {t : Topology}
    (hGiven : l.slotSizes = some given)
    (hCreate : Topology.create l = .ok t) :
    t.slots.map Slot.size = given ∧
      given.sum = l.numLayers - l.coordinatorEnd := by
  rcases Topology.create_eq_ok_iff.mp hCreate with
    ⟨sizes, hSizes, hSlots, -⟩
  rw [hSlots, map_size_layoutSlots]
  rcases Topology.sizesOf_eq_ok_iff.mp hSizes with
    ⟨-, -, -, ⟨hNone, -⟩ | ⟨hSome, hChecks⟩⟩
  · rw [hGiven] at hNone
    cases hNone
  · rw [hGiven] at hSome
    obtain rfl := Option.some.inj hSome
    exact ⟨rfl, hChecks.2.1⟩

/-
  A fleet can staff the mesh built for it, unless weights
  ask for slices that are too large for too many nodes,
  however their quotients are rounded.
-/
theorem forFleet_staffable_iff
    {arith : FloatArith}
    {l : Layout}
    {capacities : List Int}
    {weights : Option (List ℚ)}
    {t : Topology}
    (hFleet : Topology.forFleet arith l capacities weights =
      .ok t) :
    t.Staffable l.replication.toNat capacities ↔
      ∀ ws ideal,
        weights = some ws →
          arith.quotients (l.numLayers - l.coordinatorEnd) ws =
              some ideal →
            WeightsFit (l.numLayers - l.coordinatorEnd)
              l.replication capacities ideal := by
  rcases forFleet_eq_ok hFleet with
    ⟨k, sizes, hPlan, hSizes, hCreate⟩
  cases weights with
  | none =>
      obtain rfl : none = sizes := Except.ok.inj hSizes
      refine iff_of_true (staffable_balanced hPlan hCreate) ?_
      intro ws ideal hSome
      cases hSome
  | some ws =>
      rcases fleetSizes_eq_ok hSizes with
        ⟨hLength, given, rfl, hSplit⟩
      rcases map_size_create_given rfl hCreate with
        ⟨hSlots, hGiven⟩
      rcases planWeightedSplit_eq_ok hSplit with
        ⟨_, _, _, ideal, hIdeal, _, _⟩
      have hSum : (t.slots.map Slot.size).sum =
          l.numLayers - l.coordinatorEnd := by
        rw [hSlots]
        exact hGiven
      rw [← hSlots] at hSplit
      rw [staffable_weighted_iff hPlan hLength hSplit hSum
        hIdeal]
      constructor
      · intro hFit ws' ideal' hSome hIdeal'
        obtain rfl := Option.some.inj hSome
        obtain rfl := Option.some.inj (hIdeal.symm.trans hIdeal')
        exact hFit
      · intro hAll
        exact hAll ws ideal rfl hIdeal

/- Ten layers in slices of five for two nodes of five. -/
theorem forFleet_staffable_iff_two :
    ∃ t : Topology,
      Topology.forFleet FloatArith.double
          { numLayers := 10, coordinatorEnd := 0
            numStages := 1, modelFp := "", replication := 1 }
          [5, 5] (some [1, 1]) = .ok t ∧
        t.slots.map Slot.size = [5, 5] ∧
        (t.Staffable (1 : Int).toNat [5, 5] ↔
          ∀ ws ideal,
            some ([1, 1] : List ℚ) = some ws →
              FloatArith.double.quotients (10 - 0) ws =
                  some ideal →
                WeightsFit (10 - 0) 1 [5, 5] ideal) := by
  have hSizes :
      (Topology.forFleet FloatArith.double
          { numLayers := 10, coordinatorEnd := 0
            numStages := 1, modelFp := "", replication := 1 }
          [5, 5] (some [1, 1])).toOption.map
        (fun t => t.slots.map Slot.size) = some [5, 5] := by
    decide +kernel
  cases hFleet : Topology.forFleet FloatArith.double
      { numLayers := 10, coordinatorEnd := 0
        numStages := 1, modelFp := "", replication := 1 }
      [5, 5] (some [1, 1]) with
  | error e => simp [hFleet, Except.toOption] at hSizes
  | ok t =>
      refine ⟨t, rfl, ?_, forFleet_staffable_iff hFleet⟩
      simpa [hFleet, Except.toOption] using hSizes

/- Too few nodes reach the height of too many slices. -/
theorem exists_not_staffable
    {arith : FloatArith}
    {l : Layout}
    {weights : List ℚ}
    {sizes : List Int}
    (a : Int)
    (hSizes :
      (Topology.forFleet arith l capacities
          (some weights)).toOption.map
        (fun t => t.slots.map Slot.size) = some sizes)
    (hFew : reach a capacities < reach a sizes) :
    ∃ t : Topology,
      Topology.forFleet arith l capacities (some weights) =
          .ok t ∧
        ¬ t.Staffable 1 capacities := by
  cases hFleet : Topology.forFleet arith l capacities
      (some weights) with
  | error e => simp [hFleet, Except.toOption] at hSizes
  | ok t =>
      refine ⟨t, rfl, ?_⟩
      have hSlots : t.slots.map Slot.size = sizes := by
        simpa [hFleet, Except.toOption] using hSizes
      rw [Topology.staffable_iff_reach, hSlots]
      intro hReach
      have hEnough := hReach a
      omega

/-
  Two nodes of five layers get slices of nine and one.  Of
  three quotients whose fractions are equal among rationals,
  the doubles favour the slice that no node can hold.
-/
theorem not_staffable_two :
    (∃ t : Topology,
      Topology.forFleet FloatArith.double
          { numLayers := 10, coordinatorEnd := 0
            numStages := 1, modelFp := "", replication := 1 }
          [5, 5] (some [9, 1]) = .ok t ∧
        ¬ t.Staffable 1 [5, 5]) ∧
    ∃ t : Topology,
      Topology.forFleet FloatArith.double
          { numLayers := 28, coordinatorEnd := 0
            numStages := 1, modelFp := "", replication := 1 }
          [19, 10, 10] (some [2, 7, 1]) = .ok t ∧
        ¬ t.Staffable 1 [19, 10, 10] := by
  constructor
  · have hSizes :
        (Topology.forFleet FloatArith.double
            { numLayers := 10, coordinatorEnd := 0
              numStages := 1, modelFp := "", replication := 1 }
            [5, 5] (some [9, 1])).toOption.map
          (fun t => t.slots.map Slot.size) =
            some [9, 1] := by
      decide +kernel
    exact exists_not_staffable 9 hSizes (by decide)
  · have hSizes :
        (Topology.forFleet FloatArith.double
            { numLayers := 28, coordinatorEnd := 0
              numStages := 1, modelFp := "", replication := 1 }
            [19, 10, 10] (some [2, 7, 1])).toOption.map
          (fun t => t.slots.map Slot.size) =
            some [5, 20, 3] := by
      decide +kernel
    exact exists_not_staffable 20 hSizes (by decide)

end CircuitDllm
