import CircuitDllm.Lib.Apportion
import CircuitDllm.Mesh.Partition
import Mathlib.Algebra.BigOperators.Ring.List
import Mathlib.Data.List.GetD

/-
  What the weighted split returns.

  Rounding is the largest-remainder apportionment of the
  ideal sizes.  Every theft moves a layer from a slice above
  min_size to one below it, so the layers short fall by one
  each time, until the guard of ten thefts a stage ends it.

  Main declarations:
    * `roundedSizes_eq_shares`
    * `short`, `excess`, `short_steal`, `reach_steal`
    * `SplitCorrect`, `splitCorrect_iff`
-/

------------------------------------------------------------
-- Rounding
------------------------------------------------------------

namespace CircuitDllm

open Apportion

theorem truncate_eq_floor {q : ℚ} (hNonneg : 0 ≤ q) :
    truncate q = ⌊q⌋ :=
  if_pos hNonneg

@[simp] theorem length_handOut
    (order : List Nat)
    (sizes : List Int) :
    (handOut order sizes).length = sizes.length := by
  induction order generalizing sizes with
  | nil => rfl
  | cons i order ih =>
      rw [handOut, List.foldl_cons, ← handOut, ih,
        List.length_modify]

theorem getD_modify
    (f : Int → Int)
    {sizes : List Int}
    {j : Nat}
    (hIndex : j < sizes.length)
    (i : Nat) :
    (sizes.modify i f).getD j 0 =
      if i = j then f (sizes.getD j 0)
      else sizes.getD j 0 := by
  simp only [List.getD_eq_getElem?_getD, List.getElem?_modify,
    List.getElem?_eq_getElem hIndex, Option.getD_some]
  split_ifs <;> rfl

/- A stage gets a layer for every time it is listed. -/
theorem getD_handOut
    (order : List Nat)
    {sizes : List Int}
    {j : Nat}
    (hIndex : j < sizes.length) :
    (handOut order sizes).getD j 0 =
      sizes.getD j 0 + order.count j := by
  induction order generalizing sizes with
  | nil => simp [handOut]
  | cons i order ih =>
      rw [handOut, List.foldl_cons, ← handOut,
        ih (by simpa using hIndex), getD_modify _ hIndex,
        List.count_cons]
      by_cases hEq : i = j
      · simp only [hEq, if_true, beq_self_eq_true]
        push_cast
        ring
      · simp [hEq]

section Rounding

variable {total : Int} {ideal : List ℚ}

/- What int() took from a quota is its fractional part. -/
theorem key_eq_part
    (hNonneg : ∀ q ∈ ideal, 0 ≤ q)
    (i : Nat) :
    ideal.getD i 0 - ((ideal.map truncate).getD i 0 : ℚ) =
      part ideal i := by
  rcases lt_or_ge i ideal.length with hLt | hGe
  · have hMem : ideal[i] ∈ ideal := List.getElem_mem hLt
    simp [part, List.getD_eq_getElem?_getD, hLt,
      truncate_eq_floor (hNonneg _ hMem)]
  · simp [part, List.getD_eq_getElem?_getD, hGe]

theorem remainderOrder_eq_order
    (hNonneg : ∀ q ∈ ideal, 0 ≤ q) :
    remainderOrder ideal (ideal.map truncate) =
      order ideal := by
  simp only [remainderOrder, key_eq_part hNonneg, order]

/- What is left over. -/
theorem remainder_eq_leftover
    (hNonneg : ∀ q ∈ ideal, 0 ≤ q) :
    remainder total ideal = leftover total ideal := by
  have hFloors : ideal.map truncate = ideal.map Int.floor := by
    refine List.map_congr_left ?_
    intro q hMem
    exact truncate_eq_floor (hNonneg q hMem)
  rw [remainder, hFloors, leftover]

/- The code's rounding is the apportionment. -/
theorem roundedSizes_eq_shares
    (hNonneg : ∀ q ∈ ideal, 0 ≤ q)
    (hUnits : 0 ≤ leftover total ideal) :
    roundedSizes total ideal = shares total ideal := by
  have hFloors : ideal.map truncate = ideal.map Int.floor := by
    refine List.map_congr_left ?_
    intro q hMem
    exact truncate_eq_floor (hNonneg q hMem)
  refine List.ext_getElem ?_ ?_
  · simp [roundedSizes, shares]
  · intro i hLeft hRight
    have hIndex : i < ideal.length := by
      simpa [shares] using hRight
    have hLen : i < (ideal.map Int.floor).length := by
      simpa using hIndex
    have hSizes : roundedSizes total ideal =
        handOut
          ((order ideal).take (leftover total ideal).toNat)
          (ideal.map Int.floor) := by
      rw [roundedSizes, remainderOrder_eq_order hNonneg,
        remainder_eq_leftover hNonneg, hFloors]
    have hCount := getD_handOut
      ((order ideal).take (leftover total ideal).toNat) hLen
    rw [← hSizes, List.getD_eq_getElem _ _ hLeft] at hCount
    rw [hCount]
    have hNodup :
        ((order ideal).take
          (leftover total ideal).toNat).Nodup :=
      nodup_order.sublist (List.take_sublist _ _)
    have hServed :
        (i ∈ (order ideal).take
          (leftover total ideal).toNat) ↔
          (rank ideal i : Int) < leftover total ideal := by
      rw [mem_take_order_iff hIndex]
      omega
    rw [hNodup.count]
    simp only [hServed, shares, List.getElem_map,
      List.getElem_range, share]
    simp [List.getD_eq_getElem?_getD, hIndex]

end Rounding

section Ideal

variable {total : Int} {weights : List ℚ}

theorem sum_pos_of_weights
    (hSome : weights ≠ [])
    (hPositive : ∀ w ∈ weights, 0 < w) :
    0 < weights.sum :=
  List.sum_pos _ hPositive hSome

theorem sum_idealSizes
    (hSome : weights ≠ [])
    (hPositive : ∀ w ∈ weights, 0 < w) :
    (idealSizes total weights).sum = total := by
  have hSum := sum_pos_of_weights hSome hPositive
  rw [idealSizes]
  simp only [mul_div_assoc]
  rw [List.sum_map_mul_left]
  simp only [div_eq_mul_inv]
  rw [List.sum_map_mul_right, List.map_id',
    mul_inv_cancel₀ hSum.ne', mul_one]

theorem idealSizes_nonneg
    (hTotal : 0 ≤ total)
    (hSome : weights ≠ [])
    (hPositive : ∀ w ∈ weights, 0 < w) :
    ∀ q ∈ idealSizes total weights, 0 ≤ q := by
  have hSum := sum_pos_of_weights hSome hPositive
  intro q hMem
  rcases List.mem_map.mp hMem with ⟨w, hIn, rfl⟩
  have hWeight := hPositive w hIn
  have hCast : (0 : ℚ) ≤ total := by exact_mod_cast hTotal
  positivity

@[simp] theorem length_idealSizes :
    (idealSizes total weights).length = weights.length := by
  simp [idealSizes]

/- Exact quotients are the ideal sizes. -/
theorem quotients_exact :
    FloatArith.exact.quotients total weights =
      some (idealSizes total weights) := by
  rw [FloatArith.quotients, idealSizes]
  exact List.mapM_pure

end Ideal

end CircuitDllm

------------------------------------------------------------
-- One Theft
------------------------------------------------------------

namespace CircuitDllm

variable {minSize : Int} {sizes : List Int} {lo hi : Nat}

/- The layers missing below `minSize`. -/
def short (minSize : Int) (sizes : List Int) : Int :=
  (sizes.map (fun s => max 0 (minSize - s))).sum

/- The layers above `level`. -/
def excess (level : Int) (sizes : List Int) : Int :=
  (sizes.map (fun s => max 0 (s - level))).sum

/- `extremes` returns a smallest and a largest slice. -/
structure Extremes (lo hi : Nat) (sizes : List Int) :
    Prop where
  lo_lt : lo < sizes.length
  hi_lt : hi < sizes.length
  lo_le : ∀ s ∈ sizes, sizes.getD lo 0 ≤ s
  le_hi : ∀ s ∈ sizes, s ≤ sizes.getD hi 0

theorem extremes_of_eq_some
    (hFound : extremes sizes = some (lo, hi)) :
    Extremes lo hi sizes := by
  rw [extremes] at hFound
  cases hLo : (List.range sizes.length).argmin
      (fun i => sizes.getD i 0) with
  | none => simp only [hLo, reduceCtorEq] at hFound
  | some low =>
      cases hHi : (List.range sizes.length).argmax
          (fun i => sizes.getD i 0) with
      | none => simp only [hLo, hHi, reduceCtorEq] at hFound
      | some high =>
          simp only [hLo, hHi, Option.some.injEq,
            Prod.mk.injEq] at hFound
          rcases hFound with ⟨rfl, rfl⟩
          have hAt : ∀ s ∈ sizes, ∃ i ∈ List.range sizes.length,
              sizes.getD i 0 = s := by
            intro s hMem
            rcases List.getElem_of_mem hMem with
              ⟨i, hLt, rfl⟩
            exact ⟨i, List.mem_range.mpr hLt,
              List.getD_eq_getElem _ _ hLt⟩
          refine ⟨?_, ?_, ?_, ?_⟩
          · exact List.mem_range.mp (List.argmin_mem hLo)
          · exact List.mem_range.mp (List.argmax_mem hHi)
          · intro s hMem
            rcases hAt s hMem with ⟨i, hIn, rfl⟩
            exact List.le_of_mem_argmin hIn hLo
          · intro s hMem
            rcases hAt s hMem with ⟨i, hIn, rfl⟩
            exact List.le_of_mem_argmax hIn hHi

theorem extremes_ne_none (hSome : sizes ≠ []) :
    extremes sizes ≠ none := by
  have hRange : List.range sizes.length ≠ [] := by
    simpa using hSome
  rw [extremes]
  cases hLo : (List.range sizes.length).argmin
      (fun i => sizes.getD i 0) with
  | none => exact absurd (List.argmin_eq_none.mp hLo) hRange
  | some low =>
      cases hHi : (List.range sizes.length).argmax
          (fun i => sizes.getD i 0) with
      | none =>
          exact absurd (List.argmax_eq_none.mp hHi) hRange
      | some high => simp

/- A sum over the slices after one of them changed. -/
theorem sum_map_modify
    (f g : Int → Int)
    {i : Nat}
    (hIndex : i < sizes.length) :
    ((sizes.modify i f).map g).sum =
      (sizes.map g).sum - g (sizes.getD i 0) +
        g (f (sizes.getD i 0)) := by
  induction sizes generalizing i with
  | nil => simp at hIndex
  | cons s sizes ih =>
      cases i with
      | zero =>
          simp only [List.modify_zero_cons, List.map_cons,
            List.sum_cons, List.getD_cons_zero]
          ring
      | succ i =>
          simp only [List.modify_succ_cons, List.map_cons,
            List.sum_cons, List.getD_cons_succ]
          rw [ih (by simpa using hIndex)]
          ring

@[simp] theorem length_moveLayer (sizes : List Int) :
    (moveLayer lo hi sizes).length = sizes.length := by
  simp [moveLayer]

theorem sum_map_moveLayer
    (g : Int → Int)
    (hLo : lo < sizes.length)
    (hHi : hi < sizes.length)
    (hNe : lo ≠ hi) :
    ((moveLayer lo hi sizes).map g).sum =
      (sizes.map g).sum -
        g (sizes.getD lo 0) + g (sizes.getD lo 0 + 1) -
        g (sizes.getD hi 0) + g (sizes.getD hi 0 - 1) := by
  rw [moveLayer, sum_map_modify _ _ (by simpa using hHi),
    sum_map_modify _ _ hLo, getD_modify _ hHi, if_neg hNe]

theorem sum_moveLayer
    (hLo : lo < sizes.length)
    (hHi : hi < sizes.length)
    (hNe : lo ≠ hi) :
    (moveLayer lo hi sizes).sum = sizes.sum := by
  have hMoved := sum_map_moveLayer id hLo hHi hNe
  simp only [List.map_id_fun, id_eq] at hMoved
  rw [hMoved]
  ring

/- Members of the slices after a theft. -/
theorem mem_moveLayer
    {s : Int}
    (hNe : lo ≠ hi)
    (hMem : s ∈ moveLayer lo hi sizes) :
    s ∈ sizes ∨ s = sizes.getD lo 0 + 1 ∨
      s = sizes.getD hi 0 - 1 := by
  rcases List.getElem_of_mem hMem with ⟨i, hLt, rfl⟩
  have hIndex : i < sizes.length := by simpa using hLt
  have hValue : (moveLayer lo hi sizes).getD i 0 =
      if hi = i then
        (if lo = i then sizes.getD i 0 + 1
          else sizes.getD i 0) - 1
      else if lo = i then sizes.getD i 0 + 1
      else sizes.getD i 0 := by
    rw [moveLayer, getD_modify _ (by simpa using hIndex),
      getD_modify _ hIndex]
  have hOld : sizes.getD i 0 ∈ sizes := by
    rw [List.getD_eq_getElem _ _ hIndex]
    exact List.getElem_mem hIndex
  rw [List.getD_eq_getElem _ _ hLt] at hValue
  rw [hValue]
  by_cases hFrom : hi = i
  · subst hFrom
    simp [hNe]
  · by_cases hTo : lo = i
    · subst hTo
      simp [hFrom]
    · rw [if_neg hFrom, if_neg hTo]
      exact Or.inl hOld

/- There are layers enough for every slice. -/
def Roomy (minSize : Int) (sizes : List Int) : Prop :=
  sizes.length * minSize ≤ sizes.sum

/-
  While a slice is below `minSize` another one is above it:
  otherwise the slices would sum to less than there is.
-/
theorem Extremes.lt_hi
    (hExtremes : Extremes lo hi sizes)
    (hRoomy : Roomy minSize sizes)
    (hBelow : sizes.getD lo 0 < minSize) :
    minSize < sizes.getD hi 0 := by
  by_contra hFull
  have hLe : ∀ s ∈ sizes, s ≤ minSize := by
    intro s hMem
    have hTop := hExtremes.le_hi s hMem
    omega
  have hLow : sizes.getD lo 0 ∈ sizes := by
    rw [List.getD_eq_getElem _ _ hExtremes.lo_lt]
    exact List.getElem_mem hExtremes.lo_lt
  have hLt : sizes.sum < sizes.length • minSize := by
    have hStrict := List.sum_lt_sum (l := sizes)
      id (fun _ => minSize) hLe ⟨_, hLow, hBelow⟩
    simpa using hStrict
  rw [nsmul_eq_mul] at hLt
  exact absurd hRoomy (not_le.mpr hLt)

end CircuitDllm

------------------------------------------------------------
-- The Thefts
------------------------------------------------------------

namespace CircuitDllm

open Matching

variable {minSize : Int} {sizes : List Int} {lo hi : Nat}

theorem short_nonneg (minSize : Int) (sizes : List Int) :
    0 ≤ short minSize sizes := by
  refine List.sum_nonneg ?_
  intro x hMem
  rcases List.mem_map.mp hMem with ⟨s, -, rfl⟩
  exact le_max_left _ _

theorem short_eq_zero_iff :
    short minSize sizes = 0 ↔ ∀ s ∈ sizes, minSize ≤ s := by
  induction sizes with
  | nil => simp [short]
  | cons s sizes ih =>
      have hTail := short_nonneg minSize sizes
      rw [List.forall_mem_cons, ← ih, short, List.map_cons,
        List.sum_cons, ← short]
      omega

/- Layers at a height, counted by the layers above it. -/
theorem reach_eq_excess (d : Int) (sizes : List Int) :
    (reach d sizes : Int) =
      excess (d - 1) sizes - excess d sizes := by
  induction sizes with
  | nil => simp [excess]
  | cons s sizes ih =>
      rw [reach_cons, excess, excess, List.map_cons,
        List.map_cons, List.sum_cons, List.sum_cons,
        ← excess, ← excess]
      split_ifs <;> push_cast <;> omega

theorem excess_nonneg (level : Int) (sizes : List Int) :
    0 ≤ excess level sizes := by
  refine List.sum_nonneg ?_
  intro x hMem
  rcases List.mem_map.mp hMem with ⟨s, -, rfl⟩
  exact le_max_left _ _

/- Nothing is above the largest slice. -/
theorem excess_eq_zero
    {level : Int}
    (hTop : ∀ s ∈ sizes, s ≤ level) :
    excess level sizes = 0 := by
  refine List.sum_eq_zero ?_
  intro x hMem
  rcases List.mem_map.mp hMem with ⟨s, hIn, rfl⟩
  have hLe := hTop s hIn
  omega

section Theft

variable (hExtremes : Extremes lo hi sizes)
variable (hBelow : sizes.getD lo 0 < minSize)
variable (hAbove : minSize < sizes.getD hi 0)

include hExtremes hBelow hAbove

theorem Extremes.ne : lo ≠ hi := by
  rintro rfl
  omega

/- A theft brings one layer below `minSize`. -/
theorem short_moveLayer :
    short minSize (moveLayer lo hi sizes) =
      short minSize sizes - 1 := by
  have hNe := hExtremes.ne hBelow hAbove
  rw [short, sum_map_moveLayer _ hExtremes.lo_lt
    hExtremes.hi_lt hNe, ← short]
  omega

/- And takes it from above every level up to the largest. -/
theorem excess_moveLayer
    {level : Int}
    (hLevel : minSize ≤ level) :
    excess level (moveLayer lo hi sizes) =
      excess level sizes -
        if level < sizes.getD hi 0 then 1 else 0 := by
  have hNe := hExtremes.ne hBelow hAbove
  rw [excess, sum_map_moveLayer _ hExtremes.lo_lt
    hExtremes.hi_lt hNe, ← excess]
  split_ifs <;> omega

theorem roomy_moveLayer (hRoomy : Roomy minSize sizes) :
    Roomy minSize (moveLayer lo hi sizes) := by
  have hNe := hExtremes.ne hBelow hAbove
  rw [Roomy, length_moveLayer,
    sum_moveLayer hExtremes.lo_lt hExtremes.hi_lt hNe]
  exact hRoomy

end Theft

/- How many slices end at height `d` or above. -/
def levelled (minSize d : Int) (sizes : List Int) : Int :=
  max 0
    (min (reach d sizes)
      (excess (d - 1) sizes - short minSize sizes))

/- The largest slice loses the layer: its height decides. -/
theorem levelled_moveLayer
    (hExtremes : Extremes lo hi sizes)
    (hBelow : sizes.getD lo 0 < minSize)
    (hAbove : minSize < sizes.getD hi 0)
    {d : Int}
    (hHeight : minSize < d) :
    levelled minSize d (moveLayer lo hi sizes) =
      levelled minSize d sizes := by
  have hShort := short_moveLayer hExtremes hBelow hAbove
  have hUnder := excess_moveLayer hExtremes hBelow hAbove
    (by omega : minSize ≤ d - 1)
  have hOver := excess_moveLayer hExtremes hBelow hAbove
    (by omega : minSize ≤ d)
  have hPositive : short minSize sizes ≠ 0 := by
    rw [Ne, short_eq_zero_iff]
    intro hAll
    have hLow : sizes.getD lo 0 ∈ sizes := by
      rw [List.getD_eq_getElem _ _ hExtremes.lo_lt]
      exact List.getElem_mem hExtremes.lo_lt
    have hGe := hAll _ hLow
    omega
  have hNonneg := short_nonneg minSize sizes
  have hOverNonneg := excess_nonneg d sizes
  rw [levelled, levelled, reach_eq_excess, reach_eq_excess,
    hShort, hUnder, hOver]
  rcases lt_or_ge (sizes.getD hi 0) d with hLess | hMore
  · rw [if_neg (by omega), if_neg (by omega)]
    have hTop : excess (d - 1) sizes = 0 := by
      refine excess_eq_zero ?_
      intro s hMem
      have hLe := hExtremes.le_hi s hMem
      omega
    omega
  · rw [if_pos (by omega)]
    split_ifs with hHigher
    · omega
    · have hTop : excess d sizes = 0 := by
        refine excess_eq_zero ?_
        intro s hMem
        have hLe := hExtremes.le_hi s hMem
        omega
      omega

end CircuitDllm

------------------------------------------------------------
-- The Run of Thefts
------------------------------------------------------------

namespace CircuitDllm

open Matching

variable {minSize : Int} {sizes : List Int}

theorem steal_done
    (hAll : ∀ s ∈ sizes, minSize ≤ s)
    (guard : Nat) :
    steal minSize guard sizes = sizes := by
  cases guard with
  | zero => rfl
  | succ guard =>
      rw [steal]
      cases hFound : extremes sizes with
      | none => rfl
      | some places =>
          have hExtremes := extremes_of_eq_some hFound
          have hLow : sizes.getD places.1 0 ∈ sizes := by
            rw [List.getD_eq_getElem _ _ hExtremes.lo_lt]
            exact List.getElem_mem hExtremes.lo_lt
          exact if_pos (hAll _ hLow)

/- The early exit is never taken while a slice is short. -/
theorem steal_succ
    (hRoomy : Roomy minSize sizes)
    (hShort : ¬ ∀ s ∈ sizes, minSize ≤ s)
    (guard : Nat) :
    ∃ lo hi,
      Extremes lo hi sizes ∧
        sizes.getD lo 0 < minSize ∧
        minSize < sizes.getD hi 0 ∧
        steal minSize (guard + 1) sizes =
          steal minSize guard (moveLayer lo hi sizes) := by
  have hSome : sizes ≠ [] := by
    rintro rfl
    simp at hShort
  obtain ⟨⟨lo, hi⟩, hFound⟩ :=
    Option.ne_none_iff_exists'.mp (extremes_ne_none hSome)
  have hExtremes := extremes_of_eq_some hFound
  have hBelow : sizes.getD lo 0 < minSize := by
    by_contra hEnough
    refine hShort ?_
    intro s hMem
    have hLe := hExtremes.lo_le s hMem
    omega
  have hAbove := hExtremes.lt_hi hRoomy hBelow
  refine ⟨lo, hi, hExtremes, hBelow, hAbove, ?_⟩
  rw [steal, hFound]
  simp only
  rw [if_neg (by omega), if_neg (by omega)]

/- What every theft preserves, the run preserves. -/
theorem steal_induction
    {P : List Int → Prop}
    (hStep : ∀ sizes lo hi,
      Extremes lo hi sizes →
      sizes.getD lo 0 < minSize →
      minSize < sizes.getD hi 0 →
      P sizes → P (moveLayer lo hi sizes))
    (hRoomy : Roomy minSize sizes)
    (hStart : P sizes)
    (guard : Nat) :
    P (steal minSize guard sizes) := by
  induction guard generalizing sizes with
  | zero => exact hStart
  | succ guard ih =>
      by_cases hAll : ∀ s ∈ sizes, minSize ≤ s
      · rw [steal_done hAll]
        exact hStart
      · rcases steal_succ hRoomy hAll guard with
          ⟨lo, hi, hExtremes, hBelow, hAbove, hNext⟩
        rw [hNext]
        refine ih ?_ ?_
        · exact roomy_moveLayer hExtremes hBelow hAbove hRoomy
        · exact hStep sizes lo hi hExtremes hBelow hAbove hStart

/- Each theft brings a layer, until the guard is used up. -/
theorem short_steal
    (hRoomy : Roomy minSize sizes)
    (guard : Nat) :
    short minSize (steal minSize guard sizes) =
      max 0 (short minSize sizes - guard) := by
  have hNonneg := short_nonneg minSize sizes
  induction guard generalizing sizes with
  | zero =>
      rw [steal]
      omega
  | succ guard ih =>
      by_cases hAll : ∀ s ∈ sizes, minSize ≤ s
      · rw [steal_done hAll, short_eq_zero_iff.mpr hAll]
        omega
      · rcases steal_succ hRoomy hAll guard with
          ⟨lo, hi, hExtremes, hBelow, hAbove, hNext⟩
        have hMoved := short_moveLayer hExtremes hBelow hAbove
        rw [hNext, ih (roomy_moveLayer hExtremes hBelow hAbove
          hRoomy) (short_nonneg _ _), hMoved]
        push_cast
        omega

theorem steal_enough_iff
    (hRoomy : Roomy minSize sizes)
    (guard : Nat) :
    (∀ s ∈ steal minSize guard sizes, minSize ≤ s) ↔
      short minSize sizes ≤ guard := by
  rw [← short_eq_zero_iff, short_steal hRoomy]
  omega

@[simp] theorem length_steal
    (minSize : Int)
    (guard : Nat)
    (sizes : List Int) :
    (steal minSize guard sizes).length = sizes.length := by
  induction guard generalizing sizes with
  | zero => rfl
  | succ guard ih =>
      rw [steal]
      cases extremes sizes with
      | none => rfl
      | some places =>
          simp only
          split_ifs
          · rfl
          · rfl
          · rw [ih, length_moveLayer]

theorem sum_steal
    (hRoomy : Roomy minSize sizes)
    (guard : Nat) :
    (steal minSize guard sizes).sum = sizes.sum := by
  refine steal_induction (P := fun xs => xs.sum = sizes.sum)
    ?_ hRoomy rfl guard
  intro xs lo hi hExtremes hBelow hAbove hSum
  rw [sum_moveLayer hExtremes.lo_lt hExtremes.hi_lt
    (hExtremes.ne hBelow hAbove), hSum]

/- Slices never get negative. -/
theorem steal_nonneg
    (hRoomy : Roomy minSize sizes)
    (hNonneg : ∀ s ∈ sizes, 0 ≤ s)
    (guard : Nat) :
    ∀ s ∈ steal minSize guard sizes, 0 ≤ s := by
  refine steal_induction (P := fun xs => ∀ s ∈ xs, 0 ≤ s)
    ?_ hRoomy hNonneg guard
  intro xs lo hi hExtremes hBelow hAbove hAll s hMem
  have hLow := hAll (xs.getD lo 0) (by
    rw [List.getD_eq_getElem _ _ hExtremes.lo_lt]
    exact List.getElem_mem hExtremes.lo_lt)
  rcases mem_moveLayer (hExtremes.ne hBelow hAbove) hMem with
    hOld | hTo | hFrom
  · exact hAll s hOld
  · omega
  · omega

/-
  When the guard suffices, the heights of the slices are
  those of the start cut off from the top.
-/
theorem reach_steal
    (hRoomy : Roomy minSize sizes)
    {guard : Nat}
    (hGuard : short minSize sizes ≤ guard)
    {d : Int}
    (hHeight : minSize < d) :
    (reach d (steal minSize guard sizes) : Int) =
      levelled minSize d sizes := by
  have hKept :
      levelled minSize d (steal minSize guard sizes) =
        levelled minSize d sizes := by
    refine steal_induction (P := fun xs =>
      levelled minSize d xs = levelled minSize d sizes)
      ?_ hRoomy rfl guard
    intro xs lo hi hExtremes hBelow hAbove hSame
    rw [levelled_moveLayer hExtremes hBelow hAbove hHeight,
      hSame]
  have hDone : short minSize (steal minSize guard sizes) =
      0 := by
    rw [short_steal hRoomy]
    omega
  have hReach :=
    reach_eq_excess d (steal minSize guard sizes)
  have hAbove :=
    excess_nonneg d (steal minSize guard sizes)
  rw [← hKept, levelled, hDone]
  omega

end CircuitDllm

------------------------------------------------------------
-- Equal Weights
------------------------------------------------------------

namespace CircuitDllm

open Apportion

variable {total : Int} {weights : List ℚ}

/- Equal weights have equal ideal sizes. -/
theorem idealSizes_equal
    (hSome : weights ≠ [])
    (hPositive : ∀ w ∈ weights, 0 < w)
    (hEqual : ∀ v ∈ weights, ∀ w ∈ weights, v = w) :
    idealSizes total weights =
      List.replicate weights.length
        ((total : ℚ) / (weights.length : Nat)) := by
  obtain ⟨v, hV⟩ := List.exists_mem_of_ne_nil weights hSome
  have hReplicate : weights =
      List.replicate weights.length v :=
    List.eq_replicate_iff.mpr
      ⟨rfl, fun w hW => hEqual w hW v hV⟩
  have hSum : weights.sum = weights.length * v := by
    conv_lhs => rw [hReplicate]
    rw [List.sum_replicate, nsmul_eq_mul]
  have hLength : (weights.length : ℚ) ≠ 0 := by
    simpa using hSome
  refine List.eq_replicate_iff.mpr ⟨by simp, ?_⟩
  intro q hMem
  rcases List.mem_map.mp hMem with ⟨w, hW, rfl⟩
  obtain rfl : w = v := hEqual w hW v hV
  have hPos := hPositive w hV
  rw [hSum]
  field_simp

/- Equal quotas are served in the order of the stages. -/
theorem rank_replicate
    (q : ℚ)
    {i n : Nat}
    (hIndex : i < n) :
    rank (List.replicate n q) i = i := by
  have hPart : ∀ j < n, part (List.replicate n q) j =
      Int.fract q := by
    intro j hLt
    simp [part, List.getD_eq_getElem?_getD, hLt]
  rw [rank, List.length_replicate]
  calc (List.range n).countP
        (fun j => Before (List.replicate n q) j i)
      = (List.range n).countP (fun j => j < i) := by
        refine List.countP_congr ?_
        intro j hMem
        have hLt := List.mem_range.mp hMem
        simp [Before, hPart j hLt, hPart i hIndex]
    _ = i := by
        rw [countP_lt_range, min_eq_left hIndex.le]

theorem shares_replicate (n : Nat) :
    shares total (List.replicate n ((total : ℚ) / n)) =
      balancedSizes total n := by
  have hFloor : ⌊(total : ℚ) / n⌋ = total / (n : Int) :=
    Rat.floor_intCast_div_natCast total n
  have hLeft :
      leftover total (List.replicate n ((total : ℚ) / n)) =
        total % (n : Int) := by
    rw [leftover, List.map_replicate, List.sum_replicate,
      hFloor, nsmul_eq_mul, Int.emod_def]
  rw [shares, balancedSizes, List.length_replicate]
  refine List.map_congr_left ?_
  intro i hMem
  have hLt := List.mem_range.mp hMem
  rw [share, rank_replicate _ hLt, hLeft]
  simp [List.getD_eq_getElem?_getD, hLt, hFloor]

end CircuitDllm

------------------------------------------------------------
-- The Split
------------------------------------------------------------

namespace CircuitDllm

open Apportion Tiling

/-
  The split succeeds with slices of the total, none below
  `minSize`; where rounding suffices they are floors or
  ceilings of the ideal sizes, equal weights give the
  constructor's balanced sizes, and a pipeline is tiled by
  ranges of these sizes.
-/
def SplitCorrect
    (total : Int)
    (weights : List ℚ)
    (minSize : Int) : Prop :=
  ∃ sizes,
    planWeightedSplit .exact total weights minSize = .ok sizes ∧
    sizes.length = weights.length ∧
    sizes.sum = total ∧
    (∀ s ∈ sizes, minSize ≤ s) ∧
    ((∀ r ∈ shares total (idealSizes total weights),
        minSize ≤ r) →
      ∀ i < weights.length,
        sizes.getD i 0 =
            ⌊(idealSizes total weights).getD i 0⌋ ∨
          sizes.getD i 0 =
            ⌈(idealSizes total weights).getD i 0⌉) ∧
    ((∀ v ∈ weights, ∀ w ∈ weights, v = w) →
      minSize = 1 →
      sizes = balancedSizes total weights.length) ∧
    ∃ ranges,
      planPipelineLayout .exact total weights minSize = .ok ranges ∧
        ranges.map Tiling.size = sizes ∧
        Tiles 0 total ranges

section Split

variable {total minSize : Int} {weights : List ℚ}
variable (hSome : weights ≠ [])
variable (hPositive : ∀ w ∈ weights, 0 < w)
variable (hMin : 1 ≤ minSize)
variable (hTotal : weights.length * minSize ≤ total)

include hMin hTotal in
theorem total_nonneg : 0 ≤ total := by
  have hProduct : (0 : Int) ≤ weights.length * minSize :=
    mul_nonneg (by omega) (by omega)
  omega

include hSome hPositive hTotal in
theorem roomy_shares :
    Roomy minSize (shares total (idealSizes total weights)) := by
  rw [Roomy, sum_shares (sum_idealSizes hSome hPositive)]
  simpa [shares] using hTotal

include hSome hPositive hMin hTotal

theorem planWeightedSplit_eq :
    planWeightedSplit .exact total weights minSize =
      .ok (steal minSize (10 * weights.length)
        (shares total (idealSizes total weights))) := by
  have hNonneg := total_nonneg hMin hTotal
  have hOne : ¬ weights.length < 1 := by
    have hLength := List.length_pos_of_ne_nil hSome
    omega
  have hWeights : ¬ ∃ w ∈ weights, w ≤ 0 := by
    rintro ⟨w, hMem, hLe⟩
    exact absurd (hPositive w hMem) (not_lt.mpr hLe)
  have hIdeal := idealSizes_nonneg hNonneg hSome hPositive
  have hSum : (idealSizes total weights).sum = total :=
    sum_idealSizes hSome hPositive
  have hUnits :
      ¬ (weights.length : Int) <
        remainder total (idealSizes total weights) := by
    have hLe := leftover_le_length hSum
    rw [length_idealSizes] at hLe
    rw [remainder_eq_leftover hIdeal]
    omega
  rw [planWeightedSplit]
  simp only [hOne, hWeights, not_lt.mpr hTotal, if_false,
    quotients_exact, hUnits]
  rw [roundedSizes_eq_shares hIdeal (leftover_nonneg hSum)]

theorem apportioned_nonneg :
    ∀ s ∈ shares total (idealSizes total weights), 0 ≤ s := by
  have hNonneg := total_nonneg hMin hTotal
  intro s hMem
  rcases List.mem_map.mp hMem with ⟨i, hIn, rfl⟩
  have hLt : i < (idealSizes total weights).length :=
    List.mem_range.mp hIn
  have hIdeal : 0 ≤ (idealSizes total weights).getD i 0 := by
    rw [List.getD_eq_getElem _ _ hLt]
    exact idealSizes_nonneg hNonneg hSome hPositive _
      (List.getElem_mem hLt)
  have hFloor := Int.floor_nonneg.mpr hIdeal
  rw [share]
  split_ifs <;> omega

omit hMin in
/- Enough layers for all: rounding equal weights suffices. -/
theorem steal_equal
    (hEqual : ∀ v ∈ weights, ∀ w ∈ weights, v = w)
    (hOne : minSize = 1)
    (guard : Nat) :
    steal minSize guard
        (shares total (idealSizes total weights)) =
      balancedSizes total weights.length := by
  have hLength := List.length_pos_of_ne_nil hSome
  rw [idealSizes_equal hSome hPositive hEqual,
    shares_replicate]
  refine steal_done ?_ guard
  rw [hOne]
  refine (balancedSizes_pos_iff hLength).mpr ?_
  rw [hOne, mul_one] at hTotal
  exact hTotal

/- All but the lower bound hold whatever the guard does. -/
theorem splitCorrect_of_enough
    (hEnough : ∀ s ∈ steal minSize (10 * weights.length)
      (shares total (idealSizes total weights)),
      minSize ≤ s) :
    SplitCorrect total weights minSize := by
  have hPlan :=
    planWeightedSplit_eq hSome hPositive hMin hTotal
  have hRoomy := roomy_shares hSome hPositive hTotal
  have hIdeal : (idealSizes total weights).sum = total :=
    sum_idealSizes hSome hPositive
  have hSum :
      (steal minSize (10 * weights.length)
        (shares total (idealSizes total weights))).sum =
          total := by
    rw [sum_steal hRoomy, sum_shares hIdeal]
  refine ⟨_, hPlan, ?_, hSum, hEnough, ?_, ?_, ?_⟩
  · simp [shares]
  · intro hRounded i hLt
    rw [steal_done hRounded]
    have hAt :
        (shares total (idealSizes total weights)).getD i 0 =
          share total (idealSizes total weights) i := by
      simp [shares, List.getD_eq_getElem?_getD, hLt]
    rw [hAt]
    exact share_floor_or_ceil hIdeal i
  · intro hEqual hOne
    exact steal_equal hSome hPositive hTotal hEqual hOne _
  · refine ⟨_, ?_, map_size_ranges 0 _, ?_⟩
    · rw [planPipelineLayout, hPlan]
    · have hTiles := tiles_ranges 0 (steal_nonneg hRoomy
        (apportioned_nonneg hSome hPositive hMin hTotal)
        (10 * weights.length))
      rw [hSum, zero_add] at hTiles
      exact hTiles

end Split

/-
  The split keeps its promise exactly when the layers that
  rounding leaves short are no more than ten a stage.
-/
theorem splitCorrect_iff
    {total minSize : Int}
    {weights : List ℚ}
    (hSome : weights ≠ [])
    (hPositive : ∀ w ∈ weights, 0 < w)
    (hMin : 1 ≤ minSize)
    (hTotal : weights.length * minSize ≤ total) :
    SplitCorrect total weights minSize ↔
      short minSize (shares total (idealSizes total weights)) ≤
        10 * weights.length := by
  have hRoomy := roomy_shares hSome hPositive hTotal
  have hEnough :=
    steal_enough_iff hRoomy (10 * weights.length)
  push_cast at hEnough
  rw [← hEnough]
  constructor
  · rintro ⟨sizes, hPlan, -, -, hAll, -⟩
    rw [planWeightedSplit_eq hSome hPositive hMin hTotal,
      Except.ok.injEq] at hPlan
    rw [hPlan]
    exact hAll
  · exact splitCorrect_of_enough hSome hPositive hMin hTotal

/- Eighty layers over an L40S and an L4. -/
theorem splitCorrect_iff_two :
    SplitCorrect 80 [864, 300] 1 ↔
      short 1 (shares 80 (idealSizes 80 [864, 300])) ≤
        10 * ([864, 300] : List ℚ).length :=
  splitCorrect_iff (by simp) (by simp) (by decide)
    (by decide)

/- Twenty thefts leave a slice seventy-nine layers short. -/
theorem not_splitCorrect_two :
    ([1, 1000] : List ℚ) ≠ [] ∧
      (∀ w ∈ ([1, 1000] : List ℚ), 0 < w) ∧
      (1 : Int) ≤ 100 ∧
      (([1, 1000] : List ℚ).length : Int) * 100 ≤ 1000 ∧
      ¬ SplitCorrect 1000 [1, 1000] 100 := by
  have hPlan : planWeightedSplit .exact 1000 [1, 1000] 100 =
      .ok [21, 979] := by
    decide +kernel
  refine ⟨by simp, by simp, by decide, by decide, ?_⟩
  rintro ⟨sizes, hOther, -, -, hAll, -⟩
  rw [hPlan, Except.ok.injEq] at hOther
  subst hOther
  simpa using hAll 21 (by simp)

end CircuitDllm
