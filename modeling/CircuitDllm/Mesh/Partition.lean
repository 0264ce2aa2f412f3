import CircuitDllm.Lib.Apportion
import CircuitDllm.Mesh.Plan
import Mathlib.Algebra.Order.BigOperators.Group.List

/-
  The slots a constructor lays out.

  Slots of given sizes tile the stage layers; the balanced
  sizes sum to the budget, the larger ones first, and none
  of them is empty when there are enough layers to go round.

  Main declarations:
    * `tiles_layoutRanges`
    * `sum_balancedSizes`, `pairwise_balancedSizes`
    * `stageSizes_eq_balancedSizes`
    * `Topology.create_eq_ok_iff`
    * `Topology.Partitioned`, `Topology.partitioned_iff`
-/

------------------------------------------------------------
-- Slots as Ranges
------------------------------------------------------------

namespace CircuitDllm

open Tiling

/- The layers of a slot. -/
def Slot.range (slot : Slot) : Int × Int :=
  (slot.start, slot.stop)

theorem map_range_layoutSlots
    (start : Int)
    (index : Nat)
    (sizes : List Int) :
    (layoutSlots start index sizes).map Slot.range =
      ranges start sizes := by
  induction sizes generalizing start index with
  | nil => rfl
  | cons size sizes ih =>
      simp [layoutSlots, ranges, Slot.range, ih]

@[simp] theorem map_size_layoutSlots
    (start : Int)
    (index : Nat)
    (sizes : List Int) :
    (layoutSlots start index sizes).map Slot.size =
      sizes := by
  have hSize : Slot.size = Tiling.size ∘ Slot.range := rfl
  rw [hSize, ← List.map_map, map_range_layoutSlots,
    map_size_ranges]

theorem tiles_layoutRanges
    (start : Int)
    (index : Nat)
    {sizes : List Int}
    (hSizes : ∀ size ∈ sizes, 0 ≤ size) :
    Tiling.Tiles start (start + sizes.sum)
      ((layoutSlots start index sizes).map Slot.range) := by
  rw [map_range_layoutSlots]
  exact tiles_ranges start hSizes

end CircuitDllm

------------------------------------------------------------
-- Balanced Sizes
------------------------------------------------------------

namespace CircuitDllm

variable {budget : Int} {numStages : Nat}

@[simp] theorem length_balancedSizes :
    (balancedSizes budget numStages).length =
      numStages := by
  simp [balancedSizes]

/- divmod: per * num_stages + rem is the budget. -/
theorem sum_balancedSizes (hStages : 1 ≤ numStages) :
    (balancedSizes budget numStages).sum = budget := by
  have hPos : (0 : Int) < numStages := by omega
  have hRem := Int.emod_nonneg budget hPos.ne'
  have hLt := Int.emod_lt_of_pos budget hPos
  have hDiv := Int.mul_ediv_add_emod budget numStages
  obtain ⟨rem, hEq⟩ := Int.eq_ofNat_of_zero_le hRem
  rw [balancedSizes, List.sum_map_add, hEq]
  simp only [Nat.cast_lt]
  rw [Apportion.sum_ite_eq_countP, Apportion.countP_lt_range,
    List.map_const', List.sum_replicate, List.length_range,
    nsmul_eq_mul, min_eq_left (by omega), ← hEq, hDiv]

theorem mem_balancedSizes
    {size : Int}
    (hMem : size ∈ balancedSizes budget numStages) :
    size = budget / numStages ∨
      size = budget / numStages + 1 := by
  rcases List.mem_map.mp hMem with ⟨i, hIn, rfl⟩
  split_ifs <;> simp

theorem pairwise_balancedSizes :
    (balancedSizes budget numStages).Pairwise
      (fun a b => b ≤ a ∧ a ≤ b + 1) := by
  rw [balancedSizes, List.pairwise_map]
  refine List.pairwise_lt_range.imp ?_
  intro i j hLt
  split_ifs <;> omega

theorem balancedSizes_nonneg (hBudget : 0 ≤ budget) :
    ∀ size ∈ balancedSizes budget numStages, 0 ≤ size := by
  intro size hMem
  have hPer : 0 ≤ budget / (numStages : Int) :=
    Int.ediv_nonneg hBudget (by omega)
  rcases mem_balancedSizes hMem with rfl | rfl <;> omega

/- All have a layer exactly when there are enough of them. -/
theorem balancedSizes_pos_iff
    (hStages : 1 ≤ numStages) :
    (∀ size ∈ balancedSizes budget numStages, 1 ≤ size) ↔
      (numStages : Int) ≤ budget := by
  have hPos : (0 : Int) < numStages := by omega
  constructor
  · intro hAll
    have hSum := List.card_nsmul_le_sum
      (balancedSizes budget numStages) 1 hAll
    rw [sum_balancedSizes hStages, length_balancedSizes,
      nsmul_eq_mul, mul_one] at hSum
    exact hSum
  · intro hEnough size hMem
    have hPer : 1 ≤ budget / (numStages : Int) :=
      (Int.le_ediv_iff_mul_le hPos).mpr (by omega)
    rcases mem_balancedSizes hMem with rfl | rfl <;> omega

/- The planner writes the same sizes down. -/
theorem stageSizes_eq_balancedSizes
    (hStages : 1 ≤ numStages) :
    stageSizes budget numStages =
      balancedSizes budget numStages := by
  have hPos : (0 : Int) < numStages := by omega
  have hRem := Int.emod_nonneg budget hPos.ne'
  have hLt := Int.emod_lt_of_pos budget hPos
  obtain ⟨rem, hEq⟩ := Int.eq_ofNat_of_zero_le hRem
  have hSplit : numStages = rem + (numStages - rem) := by
    omega
  have hToNat : (numStages - rem : Int).toNat =
      numStages - rem := by
    omega
  rw [stageSizes, balancedSizes, hEq, hToNat, Int.toNat_natCast]
  conv_rhs => rw [hSplit, List.range_add, List.map_append]
  congr 1
  · refine (List.eq_replicate_iff.mpr ⟨by simp, ?_⟩).symm
    intro size hMem
    rcases List.mem_map.mp hMem with ⟨i, hIn, rfl⟩
    have hIn : i < rem := List.mem_range.mp hIn
    rw [← hSplit, if_pos (by omega)]
  · refine (List.eq_replicate_iff.mpr ⟨by simp, ?_⟩).symm
    intro size hMem
    rcases List.mem_map.mp hMem with ⟨i, hIn, rfl⟩
    rcases List.mem_map.mp hIn with ⟨j, hJ, rfl⟩
    rw [← hSplit, if_neg (by omega), add_zero]

end CircuitDllm

------------------------------------------------------------
-- The Partition
------------------------------------------------------------

namespace CircuitDllm

namespace Topology

open Tiling

/- What the constructor refuses, and what it lays out. -/
theorem create_eq_ok_iff {l : Layout} {t : Topology} :
    create l = .ok t ↔
      ∃ sizes, sizesOf l = .ok sizes ∧
        t.slots = layoutSlots l.coordinatorEnd 0 sizes ∧
        t = { t with
          numLayers := l.numLayers
          coordinatorEnd := l.coordinatorEnd
          modelFp := l.modelFp
          replication := l.replication
          deadAfterS := l.deadAfterS
          coordinatorRegion := l.coordinatorRegion
          routeByLatency := l.routeByLatency
          rtts := .empty
          nodes := .empty } := by
  rw [create]
  cases hSizes : sizesOf l with
  | error e => simp
  | ok sizes =>
      rcases t with ⟨_, _, _, _, _, _, _, _, _, _, _⟩
      simp only [Except.ok.injEq, exists_eq_left', mk.injEq]
      tauto

theorem exists_create
    {l : Layout}
    {sizes : List Int}
    (hSizes : sizesOf l = .ok sizes) :
    ∃ t, create l = .ok t := by
  rw [create, hSizes]
  exact ⟨_, rfl⟩

/- The sizes that pass the checks. -/
theorem sizesOf_eq_ok_iff {l : Layout} {sizes : List Int} :
    sizesOf l = .ok sizes ↔
      1 ≤ l.numStages ∧ 0 ≤ l.coordinatorEnd ∧
        l.coordinatorEnd < l.numLayers ∧
        ((l.slotSizes = none ∧
            sizes = balancedSizes
              (l.numLayers - l.coordinatorEnd)
              l.numStages.toNat) ∨
          (l.slotSizes = some sizes ∧
            (sizes.length : Int) = l.numStages ∧
            sizes.sum = l.numLayers - l.coordinatorEnd ∧
            ∀ size ∈ sizes, 1 ≤ size)) := by
  rw [sizesOf]
  by_cases hStages : l.numStages < 1
  · rw [if_pos hStages]
    refine iff_of_false (by simp) ?_
    rintro ⟨hOne, -⟩
    omega
  · by_cases hEnd : 0 ≤ l.coordinatorEnd ∧
        l.coordinatorEnd < l.numLayers
    · have hOne : 1 ≤ l.numStages := by omega
      simp only [hStages, hEnd, hOne, not_true_eq_false,
        if_false, true_and, and_self]
      cases l.slotSizes with
      | none => simp [eq_comm]
      | some given =>
          simp only [Option.some.injEq, reduceCtorEq,
            false_and, false_or]
          split_ifs with hBad
          · refine iff_of_false (by simp) ?_
            rintro ⟨rfl, hLen, hSum, hAll⟩
            rcases hBad with hLen' | hSum' | hSmall
            · exact hLen' hLen
            · exact hSum' hSum
            · rcases hSmall with ⟨size, hMem, hLt⟩
              have hGe := hAll size hMem
              omega
          · push Not at hBad
            rcases hBad with ⟨hLen, hSum, hAll⟩
            simp only [Except.ok.injEq]
            constructor
            · rintro rfl
              exact ⟨rfl, hLen, hSum, hAll⟩
            · rintro ⟨rfl, hRest⟩
              rfl
    · simp only [hStages, hEnd, if_false, not_false_eq_true,
        if_true, reduceCtorEq, false_iff]
      tauto

/-
  Non-empty slots in order, numbered by their place, that
  cut the stage layers exactly; without given sizes they
  differ by at most one layer, the larger ones first.
-/
structure Partitioned (l : Layout) (t : Topology) :
    Prop where
  nonempty : ∀ slot ∈ t.slots, slot.start < slot.stop
  indexed : ∀ i : Fin t.slots.length,
    (t.slots.get i).index = i
  tiles :
    Tiling.Tiles l.coordinatorEnd l.numLayers
      (t.slots.map Slot.range)
  count : (t.slots.length : Int) = l.numStages
  balanced : l.slotSizes = none →
    (t.slots.map Slot.size).Pairwise
      (fun a b => b ≤ a ∧ a ≤ b + 1)

theorem index_get
    (t : Topology)
    (i : Fin t.slots.length) :
    (t.slots.get i).index = i := by
  have hAt : (t.slots.map (·.index))[i.val]? =
      (List.range t.slots.length)[i.val]? := by
    rw [t.indexed]
  simpa using hAt

/- Sizes that pass the checks tile the stage layers. -/
theorem sizesOf_sound
    {l : Layout}
    {sizes : List Int}
    (hSizes : sizesOf l = .ok sizes) :
    (∀ size ∈ sizes, 0 ≤ size) ∧
      (sizes.length : Int) = l.numStages ∧
      l.coordinatorEnd + sizes.sum = l.numLayers := by
  rcases sizesOf_eq_ok_iff.mp hSizes with
    ⟨hStages, hStart, hEnd, hNone | hSome⟩
  · rcases hNone with ⟨-, rfl⟩
    refine ⟨balancedSizes_nonneg (by omega), ?_, ?_⟩
    · rw [length_balancedSizes]
      omega
    · rw [sum_balancedSizes (by omega)]
      omega
  · rcases hSome with ⟨-, hLen, hSum, hAll⟩
    refine ⟨?_, hLen, by omega⟩
    intro size hMem
    have hOne := hAll size hMem
    omega

/- Slots are non-empty when their sizes are positive. -/
theorem nonempty_iff
    {t : Topology}
    {start : Int}
    {sizes : List Int}
    (hSlots : t.slots = layoutSlots start 0 sizes) :
    (∀ slot ∈ t.slots, slot.start < slot.stop) ↔
      ∀ size ∈ sizes, 1 ≤ size := by
  have hMap : sizes = t.slots.map Slot.size := by
    rw [hSlots, map_size_layoutSlots]
  rw [hMap, List.forall_mem_map]
  apply forall₂_congr
  intro slot hMem
  rw [Slot.size]
  omega

/-
  Everything but the emptiness of slots holds of every
  layout the constructor accepts.
-/
theorem partitioned_of_nonempty
    {l : Layout}
    {t : Topology}
    (hCreate : create l = .ok t)
    (hNonempty : ∀ slot ∈ t.slots, slot.start < slot.stop) :
    t.Partitioned l := by
  rcases create_eq_ok_iff.mp hCreate with
    ⟨sizes, hSizes, hSlots, -⟩
  rcases sizesOf_sound hSizes with ⟨hAll, hLen, hSum⟩
  refine ⟨hNonempty, t.index_get, ?_, ?_, ?_⟩
  · rw [hSlots, ← hSum]
    exact tiles_layoutRanges l.coordinatorEnd 0 hAll
  · rw [hSlots, length_layoutSlots, hLen]
  · intro hDefault
    rw [hSlots, map_size_layoutSlots]
    rcases sizesOf_eq_ok_iff.mp hSizes with
      ⟨-, -, -, ⟨-, rfl⟩ | ⟨hSome, -⟩⟩
    · exact pairwise_balancedSizes
    · rw [hDefault] at hSome
      cases hSome

theorem create_nonempty_iff
    {l : Layout}
    {t : Topology}
    (hCreate : create l = .ok t) :
    (∀ slot ∈ t.slots, slot.start < slot.stop) ↔
      l.slotSizes ≠ none ∨
        l.numStages ≤ l.numLayers - l.coordinatorEnd := by
  rcases create_eq_ok_iff.mp hCreate with
    ⟨sizes, hSizes, hSlots, -⟩
  rw [nonempty_iff hSlots]
  rcases sizesOf_eq_ok_iff.mp hSizes with
    ⟨hStages, hStart, hEnd, ⟨hNone, rfl⟩ | hSome⟩
  · rw [balancedSizes_pos_iff (by omega), hNone]
    simp only [ne_eq, not_true_eq_false, false_or]
    omega
  · rcases hSome with ⟨hGiven, -, -, hAll⟩
    exact iff_of_true hAll (Or.inl (by simp [hGiven]))

theorem partitioned_iff
    {l : Layout}
    {t : Topology}
    (hCreate : create l = .ok t) :
    t.Partitioned l ↔
      l.slotSizes ≠ none ∨
        l.numStages ≤ l.numLayers - l.coordinatorEnd := by
  rw [← create_nonempty_iff hCreate]
  exact ⟨Partitioned.nonempty,
    partitioned_of_nonempty hCreate⟩

end Topology

end CircuitDllm
