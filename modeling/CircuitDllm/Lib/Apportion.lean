import Mathlib.Data.List.Sort
import Mathlib.Data.Rat.Floor
import Mathlib.Algebra.Order.BigOperators.Group.List
import Mathlib.Algebra.BigOperators.Group.List.Lemmas

/-
  Largest-remainder apportionment.

  Quotas that sum to a whole number are rounded down, and
  the units left over go to the largest fractional parts,
  the first of equal ones.  Every share is then the floor or
  the ceiling of its quota, and the shares sum to the total.

  Main declarations:
    * `Apportion.share`, `Apportion.shares`
    * `Apportion.order`, `Apportion.mem_take_order_iff`
    * `Apportion.share_floor_or_ceil`
    * `Apportion.sum_shares`
-/

------------------------------------------------------------
-- Counting
------------------------------------------------------------

namespace Apportion

/- Summing an indicator counts. -/
theorem sum_ite_eq_countP
    {p : Nat → Prop}
    [DecidablePred p]
    (xs : List Nat) :
    (xs.map (fun j => if p j then (1 : Int) else 0)).sum =
      xs.countP (fun j => p j) := by
  induction xs with
  | nil => rfl
  | cons x xs ih =>
      rw [List.map_cons, List.sum_cons, ih, List.countP_cons]
      by_cases hHolds : p x
      · simp only [hHolds, if_true, decide_true]
        push_cast
        ring
      · simp [hHolds]

theorem countP_lt_range (m n : Nat) :
    (List.range n).countP (fun i => i < m) = min m n := by
  induction n with
  | zero => simp
  | succ n ih =>
      rw [List.range_succ, List.countP_append, ih,
        List.countP_singleton]
      by_cases hLt : n < m
      · simp only [hLt, decide_true, if_true]
        omega
      · simp only [hLt, decide_false, Bool.false_eq_true,
          if_false]
        omega

end Apportion

------------------------------------------------------------
-- Stable Sorting
------------------------------------------------------------

namespace Apportion

variable {A : Type} {r s : A → A → Prop} [DecidableRel r]

theorem pairwise_orderedInsert
    (hTotal : ∀ a b, r a b ∨ r b a)
    (hTrans : ∀ a b c, r a b → r b c → r a c)
    {a : A}
    {xs : List A}
    (hSorted : xs.Pairwise (fun a b => r a b ∧ (r b a → s a b)))
    (hFirst : ∀ x ∈ xs, s a x) :
    (xs.orderedInsert r a).Pairwise
      (fun a b => r a b ∧ (r b a → s a b)) := by
  induction xs with
  | nil => simp
  | cons x xs ih =>
      rcases List.pairwise_cons.mp hSorted with
        ⟨hHead, hTail⟩
      rw [List.orderedInsert_cons]
      split_ifs with hLe
      · refine List.pairwise_cons.mpr ⟨?_, hSorted⟩
        intro y hMem
        refine ⟨?_, fun _ => hFirst y hMem⟩
        rcases List.mem_cons.mp hMem with rfl | hIn
        · exact hLe
        · exact hTrans a x y hLe (hHead y hIn).1
      · have hRest : ∀ y ∈ xs, s a y := fun y hIn =>
          hFirst y (List.mem_cons_of_mem x hIn)
        refine List.pairwise_cons.mpr ⟨?_, ih hTail hRest⟩
        intro y hMem
        rcases (List.mem_orderedInsert r).mp hMem with
          rfl | hIn
        · have hBack : r x y := (hTotal y x).resolve_left hLe
          exact ⟨hBack, fun hOther => absurd hOther hLe⟩
        · exact hHead y hIn

/- Insertion sort keeps the order of equal entries. -/
theorem pairwise_insertionSort_stable
    (hTotal : ∀ a b, r a b ∨ r b a)
    (hTrans : ∀ a b c, r a b → r b c → r a c)
    {xs : List A}
    (hOrder : xs.Pairwise s) :
    (xs.insertionSort r).Pairwise
      (fun a b => r a b ∧ (r b a → s a b)) := by
  induction xs with
  | nil => simp
  | cons x xs ih =>
      rcases List.pairwise_cons.mp hOrder with
        ⟨hHead, hTail⟩
      rw [List.insertionSort_cons]
      refine pairwise_orderedInsert hTotal hTrans (ih hTail) ?_
      intro y hMem
      exact hHead y ((List.mem_insertionSort r).mp hMem)

/-
  In a list sorted by a strict order, the first `k` entries
  are those with fewer than `k` entries before them.
-/
theorem mem_take_iff_countP
    {xs : List A}
    {before : A → A → Prop}
    [DecidableRel before]
    (hAsymm : ∀ a b, before a b → ¬ before b a)
    (hSorted : xs.Pairwise before)
    {x : A}
    (hMem : x ∈ xs)
    (k : Nat) :
    x ∈ xs.take k ↔
      xs.countP (fun y => before y x) < k := by
  induction xs generalizing k with
  | nil => simp at hMem
  | cons head xs ih =>
      rcases List.pairwise_cons.mp hSorted with
        ⟨hHead, hTail⟩
      cases k with
      | zero => simp
      | succ k =>
          rw [List.take_succ_cons, List.mem_cons,
            List.countP_cons]
          by_cases hFirst : x = head
          · subst hFirst
            have hSelf : ¬ before x x := fun hLoop =>
              hAsymm x x hLoop hLoop
            have hNone :
                xs.countP (fun y => before y x) = 0 := by
              refine List.countP_eq_zero.mpr ?_
              intro y hIn
              simpa using hAsymm x y (hHead y hIn)
            simp [hSelf, hNone]
          · have hIn : x ∈ xs :=
              (List.mem_cons.mp hMem).resolve_left hFirst
            have hBefore : before head x := hHead x hIn
            rw [ih hTail hIn k]
            simp [hFirst, hBefore]

end Apportion

------------------------------------------------------------
-- Shares
------------------------------------------------------------

namespace Apportion

/- What rounding down takes from a quota. -/
def part (quotas : List ℚ) (i : Nat) : ℚ :=
  Int.fract (quotas.getD i 0)

/- A larger part goes first, an earlier one among equals. -/
def Before (quotas : List ℚ) (i j : Nat) : Prop :=
  part quotas j < part quotas i ∨
    part quotas i = part quotas j ∧ i < j

instance (quotas : List ℚ) : DecidableRel (Before quotas) :=
  fun _ _ => inferInstanceAs (Decidable (_ ∨ _ ∧ _))

/- How many quotas are served before this one. -/
def rank (quotas : List ℚ) (j : Nat) : Nat :=
  (List.range quotas.length).countP
    (fun i => Before quotas i j)

/- The units that rounding down leaves. -/
def leftover (total : Int) (quotas : List ℚ) : Int :=
  total - (quotas.map Int.floor).sum

def share (total : Int) (quotas : List ℚ) (i : Nat) : Int :=
  ⌊quotas.getD i 0⌋ +
    if rank quotas i < leftover total quotas then 1 else 0

def shares (total : Int) (quotas : List ℚ) : List Int :=
  (List.range quotas.length).map (share total quotas)

/- The quotas in the order they are served. -/
def order (quotas : List ℚ) : List Nat :=
  (List.range quotas.length).insertionSort
    (fun i j => part quotas j ≤ part quotas i)

variable {total : Int} {quotas : List ℚ}

theorem perm_order :
    (order quotas).Perm (List.range quotas.length) :=
  List.perm_insertionSort _ _

@[simp] theorem length_order :
    (order quotas).length = quotas.length := by
  simp [order]

theorem nodup_order : (order quotas).Nodup :=
  perm_order.nodup_iff.mpr List.nodup_range

theorem pairwise_order :
    (order quotas).Pairwise (Before quotas) := by
  have hStable := pairwise_insertionSort_stable
    (r := fun i j => part quotas j ≤ part quotas i)
    (s := (· < ·))
    (fun i j => le_total _ _)
    (fun i j k hFirst hSecond => le_trans hSecond hFirst)
    (List.pairwise_lt_range (n := quotas.length))
  refine hStable.imp ?_
  rintro i j ⟨hLe, hTie⟩
  rcases lt_or_eq_of_le hLe with hLt | hEq
  · exact Or.inl hLt
  · exact Or.inr ⟨hEq.symm, hTie (le_of_eq hEq.symm)⟩

theorem before_asymm
    (i j : Nat)
    (hBefore : Before quotas i j) :
    ¬ Before quotas j i := by
  rintro (hLess | ⟨hEq, hLt⟩)
  · rcases hBefore with hMore | ⟨hSame, hFirst⟩
    · exact lt_asymm hLess hMore
    · exact absurd hSame hLess.ne
  · rcases hBefore with hMore | ⟨hSame, hFirst⟩
    · exact absurd hEq hMore.ne
    · omega

/- The first `k` served are those of rank below `k`. -/
theorem mem_take_order_iff
    {j : Nat}
    (hIndex : j < quotas.length)
    (k : Nat) :
    j ∈ (order quotas).take k ↔ rank quotas j < k := by
  have hMem : j ∈ order quotas :=
    perm_order.mem_iff.mpr (List.mem_range.mpr hIndex)
  rw [mem_take_iff_countP before_asymm pairwise_order hMem k,
    rank, perm_order.countP_eq]

end Apportion

------------------------------------------------------------
-- The Units Left Over
------------------------------------------------------------

namespace Apportion

variable {total : Int} {quotas : List ℚ}

theorem sum_floor_add_fract (quotas : List ℚ) :
    (((quotas.map Int.floor).sum : Int) : ℚ) +
      (quotas.map Int.fract).sum = quotas.sum := by
  induction quotas with
  | nil => simp
  | cons q quotas ih =>
      have hSplit := Int.floor_add_fract q
      rw [List.map_cons, List.map_cons, List.sum_cons,
        List.sum_cons, List.sum_cons, Int.cast_add]
      linarith

theorem leftover_eq_sum_fract
    (hSum : quotas.sum = total) :
    ((leftover total quotas : Int) : ℚ) =
      (quotas.map Int.fract).sum := by
  have hSplit := sum_floor_add_fract quotas
  rw [leftover, Int.cast_sub, ← hSum, ← hSplit]
  ring

theorem leftover_nonneg (hSum : quotas.sum = total) :
    0 ≤ leftover total quotas := by
  have hParts : 0 ≤ (quotas.map Int.fract).sum := by
    refine List.sum_nonneg ?_
    intro x hMem
    rcases List.mem_map.mp hMem with ⟨q, -, rfl⟩
    exact Int.fract_nonneg q
  rw [← leftover_eq_sum_fract hSum] at hParts
  exact_mod_cast hParts

/- Parts below one sum to no more than their number. -/
theorem sum_fract_le (quotas : List ℚ) :
    (quotas.map Int.fract).sum ≤
      (quotas.countP (fun q => 0 < Int.fract q) : ℚ) := by
  induction quotas with
  | nil => simp
  | cons q quotas ih =>
      rw [List.map_cons, List.sum_cons, List.countP_cons]
      rcases (Int.fract_nonneg q).eq_or_lt with hZero | hPos
      · simp only [← hZero, zero_add, lt_self_iff_false]
        simpa using ih
      · have hLt := Int.fract_lt_one q
        simp only [hPos, decide_true, if_true]
        push_cast
        linarith

theorem leftover_le_countP (hSum : quotas.sum = total) :
    leftover total quotas ≤
      quotas.countP (fun q => 0 < Int.fract q) := by
  have hLe := sum_fract_le quotas
  rw [← leftover_eq_sum_fract hSum] at hLe
  exact_mod_cast hLe

theorem leftover_le_length (hSum : quotas.sum = total) :
    leftover total quotas ≤ quotas.length := by
  have hLe := leftover_le_countP hSum
  have hCount := quotas.countP_le_length
    (p := fun q => 0 < Int.fract q)
  omega

/- Counting entries by their index. -/
theorem countP_range_getD
    (p : ℚ → Bool)
    (quotas : List ℚ) :
    (List.range quotas.length).countP
        (fun i => p (quotas.getD i 0)) =
      quotas.countP p := by
  have hList : quotas =
      (List.range quotas.length).map
        (fun i => quotas.getD i 0) := by
    refine List.ext_getElem (by simp) ?_
    intro i hLeft hRight
    simp [List.getD_eq_getElem?_getD, hLeft]
  conv_rhs => rw [hList]
  rw [List.countP_map]
  rfl

/- A whole quota is behind every other one. -/
theorem countP_le_rank
    {j : Nat}
    (hWhole : part quotas j = 0) :
    quotas.countP (fun q => 0 < Int.fract q) ≤
      rank quotas j := by
  rw [← countP_range_getD, rank]
  refine List.countP_mono_left ?_
  intro i hMem hPos
  have hPos : 0 < part quotas i := by
    simpa [part] using hPos
  refine decide_eq_true (Or.inl ?_)
  rw [hWhole]
  exact hPos

/- Only a quota with a fractional part gets another unit. -/
theorem part_pos_of_rank_lt
    (hSum : quotas.sum = total)
    {j : Nat}
    (hServed : (rank quotas j : Int) < leftover total quotas) :
    0 < part quotas j := by
  refine (Int.fract_nonneg _).lt_of_ne ?_
  intro hWhole
  have hRank := countP_le_rank hWhole.symm
  have hLe := leftover_le_countP hSum
  omega

theorem share_floor_or_ceil
    (hSum : quotas.sum = total)
    (i : Nat) :
    share total quotas i = ⌊quotas.getD i 0⌋ ∨
      share total quotas i = ⌈quotas.getD i 0⌉ := by
  rw [share]
  split_ifs with hServed
  · have hPart := part_pos_of_rank_lt hSum hServed
    refine Or.inr ((Int.ceil_eq_iff).mpr ⟨?_, ?_⟩).symm
    · rw [part, Int.fract] at hPart
      push_cast
      linarith
    · push_cast
      exact (Int.lt_floor_add_one _).le
  · exact Or.inl (add_zero _)

/- As many as there are units are served. -/
theorem countP_rank_lt
    {k : Nat}
    (hLe : k ≤ quotas.length) :
    (List.range quotas.length).countP
      (fun j => rank quotas j < k) = k := by
  let served := (order quotas).take k
  have hServed :
      (order quotas).countP (fun j => rank quotas j < k) =
        (order quotas).countP (fun j => j ∈ served) := by
    refine List.countP_congr ?_
    intro j hMem
    have hIndex : j < quotas.length :=
      List.mem_range.mp (perm_order.mem_iff.mp hMem)
    simpa using (mem_take_order_iff hIndex k).symm
  have hDisjoint := List.disjoint_take_drop
    (@nodup_order quotas) (le_refl k)
  have hDropped :
      ((order quotas).drop k).countP
        (fun j => j ∈ served) = 0 := by
    refine List.countP_eq_zero.mpr ?_
    intro j hRest
    simpa using fun hIn => hDisjoint hIn hRest
  have hTaken :
      served.countP (fun j => j ∈ served) = k := by
    rw [List.countP_eq_length.mpr (by simp)]
    simp [served, hLe]
  rw [← perm_order.countP_eq, hServed]
  conv_lhs => rw [← List.take_append_drop k (order quotas)]
  rw [List.countP_append, hDropped, hTaken, Nat.add_zero]

/- Where there is a quota for every unit left over. -/
theorem sum_shares_of_leftover
    (hNonneg : 0 ≤ leftover total quotas)
    (hLe : leftover total quotas ≤ quotas.length) :
    (shares total quotas).sum = total := by
  have hFloors :
      (List.range quotas.length).map
          (fun i => ⌊quotas.getD i 0⌋) =
        quotas.map Int.floor := by
    refine List.ext_getElem (by simp) ?_
    intro i hLeft hRight
    have hIndex : i < quotas.length := by simpa using hRight
    simp [List.getD_eq_getElem?_getD, hIndex]
  obtain ⟨units, hUnits⟩ := Int.eq_ofNat_of_zero_le hNonneg
  have hServed :
      ((List.range quotas.length).map (fun i =>
        if (rank quotas i : Int) < leftover total quotas then
          (1 : Int) else 0)).sum = leftover total quotas := by
    rw [hUnits] at hLe ⊢
    simp only [Nat.cast_lt]
    rw [sum_ite_eq_countP, countP_rank_lt (by omega)]
  have hSplit : shares total quotas =
      (List.range quotas.length).map (fun i =>
        ⌊quotas.getD i 0⌋ +
          if (rank quotas i : Int) < leftover total quotas
          then 1 else 0) := rfl
  rw [hSplit, List.sum_map_add, hFloors, hServed, leftover]
  ring

theorem sum_shares (hSum : quotas.sum = total) :
    (shares total quotas).sum = total :=
  sum_shares_of_leftover (leftover_nonneg hSum)
    (leftover_le_length hSum)

end Apportion
