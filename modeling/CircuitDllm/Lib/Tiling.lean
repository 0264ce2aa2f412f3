import Mathlib.Algebra.Order.Ring.Int
import Mathlib.Algebra.BigOperators.Group.List.Basic

/-
  Ranges [start, stop) that follow one another.

  A tiling cuts an interval of the integers into ranges in
  order, without gap or overlap; sizes laid out one after
  the other give one.

  Main declarations:
    * `Tiling.Tiles`, `Tiling.Tiles.existsUnique`
    * `Tiling.tiles_iff_covered`, `Tiling.tiles_iff_adjacent`
    * `Tiling.ranges`, `Tiling.tiles_ranges`
    * `Tiling.pairwise_ranges`
-/

------------------------------------------------------------
-- Tilings
------------------------------------------------------------

namespace Tiling

/- Consecutive ranges from `start` to `stop`. -/
def Tiles (start stop : Int) : List (Int × Int) → Prop
| [] => start = stop
| r :: rs => r.1 = start ∧ r.1 ≤ r.2 ∧ Tiles r.2 stop rs

instance decidableTiles (start stop : Int) :
    ∀ rs : List (Int × Int), Decidable (Tiles start stop rs)
| [] => inferInstanceAs (Decidable (start = stop))
| r :: rs =>
    let _ := decidableTiles r.2 stop rs
    inferInstanceAs
      (Decidable (r.1 = start ∧ r.1 ≤ r.2 ∧
        Tiles r.2 stop rs))

/- Membership in a half-open range. -/
def Within (x : Int) (r : Int × Int) : Prop :=
  r.1 ≤ x ∧ x < r.2

instance (x : Int) (r : Int × Int) :
    Decidable (Within x r) :=
  inferInstanceAs (Decidable (_ ∧ _))

theorem Tiles.le
    {start stop : Int}
    {rs : List (Int × Int)}
    (hTiles : Tiles start stop rs) :
    start ≤ stop := by
  induction rs generalizing start with
  | nil => exact le_of_eq hTiles
  | cons r rs ih =>
      rcases hTiles with ⟨hStart, hLe, hRest⟩
      have hTail := ih hRest
      omega

theorem Tiles.bounds
    {start stop : Int}
    {rs : List (Int × Int)}
    (hTiles : Tiles start stop rs)
    {r : Int × Int}
    (hMem : r ∈ rs) :
    start ≤ r.1 ∧ r.1 ≤ r.2 ∧ r.2 ≤ stop := by
  induction rs generalizing start with
  | nil => simp at hMem
  | cons head rs ih =>
      rcases hTiles with ⟨hStart, hLe, hRest⟩
      have hStop := hRest.le
      rcases List.mem_cons.mp hMem with rfl | hIn
      · omega
      · have hTail := ih hRest hIn
        omega

/-
  By induction on the ranges: the first holds what lies
  before its end, the others what lies after it.
-/
theorem Tiles.existsUnique
    {start stop : Int}
    {rs : List (Int × Int)}
    (hTiles : Tiles start stop rs)
    {x : Int}
    (hWithin : Within x (start, stop)) :
    ∃! i : Fin rs.length, Within x (rs.get i) := by
  induction rs generalizing start with
  | nil =>
      rcases hWithin with ⟨hLow, hHigh⟩
      have hEq : start = stop := hTiles
      simp only at hLow hHigh
      omega
  | cons r rs ih =>
      rcases hTiles with ⟨hStart, hLe, hRest⟩
      rcases hWithin with ⟨hLow, hHigh⟩
      rcases lt_or_ge x r.2 with hFirst | hLater
      · refine ⟨⟨0, by simp⟩, ⟨?_, hFirst⟩, ?_⟩
        · rw [← hStart] at hLow
          exact hLow
        · intro i hIn
          rcases i with ⟨_ | i, hLt⟩
          · rfl
          · have hLt : i < rs.length := by simpa using hLt
            have hBounds :=
              hRest.bounds (List.get_mem rs ⟨i, hLt⟩)
            have hGe : (rs.get ⟨i, hLt⟩).1 ≤ x := hIn.1
            omega
      · rcases ih hRest ⟨hLater, hHigh⟩ with
          ⟨i, hIn, hUnique⟩
        refine ⟨i.succ, hIn, ?_⟩
        intro j hOther
        rcases j with ⟨_ | j, hLt⟩
        · have hHead : x < r.2 := hOther.2
          omega
        · have hEq := hUnique ⟨j, by simpa using hLt⟩ hOther
          rw [← hEq]
          rfl

theorem Tiles.append
    {start middle stop : Int}
    {rs ss : List (Int × Int)}
    (hLeft : Tiles start middle rs)
    (hRight : Tiles middle stop ss) :
    Tiles start stop (rs ++ ss) := by
  induction rs generalizing start with
  | nil =>
      obtain rfl : start = middle := hLeft
      exact hRight
  | cons r rs ih =>
      rcases hLeft with ⟨hStart, hLe, hRest⟩
      exact ⟨hStart, hLe, ih hRest⟩

end Tiling

------------------------------------------------------------
-- Exact Covers
------------------------------------------------------------

namespace Tiling

variable {start stop : Int} {rs : List (Int × Int)}

/- Every place lies in exactly one of the ranges. -/
def Covered (start stop : Int) (rs : List (Int × Int)) :
    Prop :=
  ∀ x, Within x (start, stop) → rs.countP (Within x) = 1

theorem Tiles.covered
    (hTiles : Tiles start stop rs) :
    Covered start stop rs := by
  intro x hWithin
  induction rs generalizing start with
  | nil =>
      rcases hWithin with ⟨hLow, hHigh⟩
      have hEq : start = stop := hTiles
      simp only at hLow hHigh
      omega
  | cons r rs ih =>
      rcases hTiles with ⟨hStart, hLe, hRest⟩
      rcases hWithin with ⟨hLow, hHigh⟩
      rw [List.countP_cons]
      rcases lt_or_ge x r.2 with hFirst | hLater
      · have hHere : Within x r := by
          rw [← hStart] at hLow
          exact ⟨hLow, hFirst⟩
        have hNone : rs.countP (Within x) = 0 := by
          apply List.countP_eq_zero.mpr
          intro s hMem
          have hBounds := hRest.bounds hMem
          simp only [decide_eq_true_eq]
          intro hThere
          have hGe : s.1 ≤ x := hThere.1
          omega
        simp [hHere, hNone]
      · have hElse : ¬ Within x r := by
          intro hHere
          have hLt : x < r.2 := hHere.2
          omega
        simp [hElse, ih hRest ⟨hLater, hHigh⟩]

/-
  Ranges in the order of their starts that cover every place
  once follow one another.
-/
theorem tiles_of_covered
    (hLe : start ≤ stop)
    (hSorted : rs.Pairwise (fun r s => r.1 ≤ s.1))
    (hSome : ∀ r ∈ rs, r.1 < r.2)
    (hInside : ∀ r ∈ rs, start ≤ r.1 ∧ r.2 ≤ stop)
    (hCovered : Covered start stop rs) :
    Tiles start stop rs := by
  induction rs generalizing start with
  | nil =>
      by_contra hNe
      have hGap : start ≠ stop := hNe
      have hCount := hCovered start
        ⟨le_refl _, lt_of_le_of_ne hLe hGap⟩
      simp at hCount
  | cons r rs ih =>
      rcases List.pairwise_cons.mp hSorted with
        ⟨hFirst, hOrder⟩
      rcases List.forall_mem_cons.mp hSome with
        ⟨hHead, hTail⟩
      rcases List.forall_mem_cons.mp hInside with
        ⟨hIn, hRest⟩
      have hStart : r.1 = start := by
        -- the range that covers the start is not before r
        have hCount := hCovered start ⟨le_refl _, by omega⟩
        have hPos : 0 < (r :: rs).countP (Within start) := by
          omega
        rcases List.countP_pos_iff.mp hPos with
          ⟨s, hMem, hHere⟩
        have hLow : s.1 ≤ start :=
          (of_decide_eq_true hHere).1
        rcases List.mem_cons.mp hMem with rfl | hLater
        · omega
        · have hNext := hFirst s hLater
          omega
      have hAfter : ∀ s ∈ rs, r.2 ≤ s.1 ∧ s.2 ≤ stop := by
        intro s hMem
        refine ⟨?_, (hRest s hMem).2⟩
        by_contra hOverlap
        -- the start of s would be covered twice
        have hBounds := hRest s hMem
        have hNonempty := hTail s hMem
        have hCount := hCovered s.1 ⟨hBounds.1, by omega⟩
        have hInR : Within s.1 r := ⟨hFirst s hMem, by omega⟩
        have hInS : Within s.1 s := ⟨le_refl _, hNonempty⟩
        have hPos : 0 < rs.countP (Within s.1) :=
          List.countP_pos_iff.mpr
            ⟨s, hMem, decide_eq_true hInS⟩
        rw [List.countP_cons, if_pos (decide_eq_true hInR)]
          at hCount
        omega
      refine ⟨hStart, le_of_lt hHead, ?_⟩
      refine ih hIn.2 hOrder hTail hAfter ?_
      intro x hWithin
      have hLow : r.2 ≤ x := hWithin.1
      have hCount := hCovered x ⟨by omega, hWithin.2⟩
      have hElse : ¬ Within x r := by
        intro hHere
        have hLt : x < r.2 := hHere.2
        omega
      rw [List.countP_cons] at hCount
      simpa [hElse] using hCount

theorem tiles_iff_covered
    (hLe : start ≤ stop)
    (hSorted : rs.Pairwise (fun r s => r.1 ≤ s.1))
    (hSome : ∀ r ∈ rs, r.1 < r.2)
    (hInside : ∀ r ∈ rs, start ≤ r.1 ∧ r.2 ≤ stop) :
    Tiles start stop rs ↔ Covered start stop rs := by
  refine ⟨Tiles.covered, ?_⟩
  intro hCovered
  exact tiles_of_covered hLe hSorted hSome hInside hCovered

/- A tiling is checked at its ends and between neighbours. -/
theorem tiles_iff_adjacent
    (hNonempty : rs ≠ [])
    (hValid : ∀ r ∈ rs, r.1 ≤ r.2) :
    Tiles start stop rs ↔
      rs.head?.map (·.1) = some start ∧
        (∀ pair ∈ rs.zip rs.tail, pair.2.1 = pair.1.2) ∧
        rs.getLast?.map (·.2) = some stop := by
  induction rs generalizing start with
  | nil => exact absurd rfl hNonempty
  | cons r rs ih =>
      rcases List.forall_mem_cons.mp hValid with
        ⟨hHead, hTail⟩
      cases rs with
      | nil => simp [Tiles, hHead]
      | cons s rs =>
          have hNext := @ih r.2 (List.cons_ne_nil _ _) hTail
          rw [Tiles, hNext]
          simp only [List.head?_cons, Option.map_some,
            Option.some.injEq, List.tail_cons,
            List.zip_cons_cons, List.forall_mem_cons, hHead,
            true_and, List.getLast?_cons_cons]
          simp only [and_assoc]

end Tiling

------------------------------------------------------------
-- Sizes Laid Out
------------------------------------------------------------

namespace Tiling

/- Ranges of the given sizes, one after the other. -/
def ranges (start : Int) : List Int → List (Int × Int)
| [] => []
| size :: sizes =>
    (start, start + size) :: ranges (start + size) sizes

def size (r : Int × Int) : Int := r.2 - r.1

@[simp] theorem map_size_ranges
    (start : Int)
    (sizes : List Int) :
    (ranges start sizes).map size = sizes := by
  induction sizes generalizing start with
  | nil => rfl
  | cons first sizes ih => simp [ranges, size, ih]

@[simp] theorem length_ranges
    (start : Int)
    (sizes : List Int) :
    (ranges start sizes).length = sizes.length := by
  induction sizes generalizing start with
  | nil => rfl
  | cons first sizes ih => simp [ranges, ih]

theorem tiles_ranges
    (start : Int)
    {sizes : List Int}
    (hSizes : ∀ size ∈ sizes, 0 ≤ size) :
    Tiles start (start + sizes.sum) (ranges start sizes) := by
  induction sizes generalizing start with
  | nil => simp [ranges, Tiles]
  | cons first sizes ih =>
      rcases List.forall_mem_cons.mp hSizes with
        ⟨hFirst, hRest⟩
      refine ⟨rfl, le_add_of_nonneg_right hFirst, ?_⟩
      rw [List.sum_cons, ← add_assoc]
      exact ih (start + first) hRest

/- Ranges of positive sizes start one after the other. -/
theorem pairwise_ranges
    (start : Int)
    {sizes : List Int}
    (hSizes : ∀ size ∈ sizes, 1 ≤ size) :
    (ranges start sizes).Pairwise
      (fun r s => r.1 < s.1) := by
  induction sizes generalizing start with
  | nil => exact List.Pairwise.nil
  | cons first sizes ih =>
      rcases List.forall_mem_cons.mp hSizes with
        ⟨hFirst, hRest⟩
      refine List.pairwise_cons.mpr ⟨?_, ih _ hRest⟩
      intro r hMem
      have hTiles := tiles_ranges (start + first)
        (fun size hIn => le_trans zero_le_one (hRest size hIn))
      have hBounds := hTiles.bounds hMem
      change start < r.1
      omega

end Tiling
