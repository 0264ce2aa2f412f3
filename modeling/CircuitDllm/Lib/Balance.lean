import Mathlib.Algebra.Order.BigOperators.Group.Finset
import Mathlib.Algebra.Group.Action.Defs

/-
  Greedy balancing.

  Units are put on places one at a time, each on a place
  that is least loaded at that moment.  The loads of any two
  places then never differ by more than one, also when a
  unit is taken from its place just before it is put again.

  Main declarations:
    * `Balanced`
    * `Balanced.add`, `Balanced.move`
    * `Balanced.le_of_total`
-/

namespace CircuitDllm

/- No place has over one unit more than another. -/
def Balanced {α : Type} (places : Set α) (load : α → Nat) :
    Prop :=
  ∀ i ∈ places, ∀ j ∈ places, load i ≤ load j + 1

namespace Balanced

variable {α : Type} {places : Set α}
variable {load mid load' : α → Nat}

theorem congr
    (hBal : Balanced places load)
    (hSame : ∀ i ∈ places, load' i = load i) :
    Balanced places load' := by
  intro i hI j hJ
  rw [hSame i hI, hSame j hJ]
  exact hBal i hI j hJ

theorem of_zero (hZero : ∀ i ∈ places, load i = 0) :
    Balanced places load := by
  intro i hI j hJ
  rw [hZero i hI]
  exact Nat.zero_le _

theorem mono
    (hBal : Balanced places load)
    {fewer : Set α}
    (hSub : fewer ⊆ places) :
    Balanced fewer load :=
  fun i hI j hJ => hBal i (hSub hI) j (hSub hJ)

/-
  A unit leaves place `j` and one is put on the place `m`
  that is least loaded then.
-/
theorem move
    (hBal : Balanced places load)
    {j m : α}
    (hM : m ∈ places)
    (hJ : j ∈ places)
    (hLeave : load j ≤ mid j + 1)
    (hLeft : mid j ≤ load j)
    (hStay : ∀ i ∈ places, i ≠ j → mid i = load i)
    (hLeast : ∀ i ∈ places, mid m ≤ mid i)
    (hPut : load' m = mid m + 1)
    (hSame : ∀ i ∈ places, i ≠ m → load' i = mid i) :
    Balanced places load' := by
  have hOld : ∀ i ∈ places, i = j ∨ mid i = load i := by
    intro i hI
    by_cases hEq : i = j
    · exact Or.inl hEq
    · exact Or.inr (hStay i hI hEq)
  intro a hA b hB
  have hAB := hBal a hA b hB
  have hAM := hBal a hA m hM
  have hJB := hBal j hJ b hB
  have hLowB := hLeast b hB
  by_cases hAm : a = m
  · by_cases hBm : b = m
    · rw [hAm, hBm]
      exact Nat.le_succ _
    · -- the place that got the unit was least loaded
      rw [hAm, hPut, hSame b hB hBm]
      omega
  · rw [hSame a hA hAm]
    by_cases hBm : b = m
    · rw [hBm, hPut]
      grind
    · rw [hSame b hB hBm]
      grind

/- A unit is put on a place that is least loaded. -/
theorem add
    (hBal : Balanced places load)
    {m : α}
    (hM : m ∈ places)
    (hLeast : ∀ i ∈ places, load m ≤ load i)
    (hPut : load' m = load m + 1)
    (hSame : ∀ i ∈ places, i ≠ m → load' i = load i) :
    Balanced places load' := by
  apply hBal.move hM hM (Nat.le_succ _) (Nat.le_refl _)
  · intro i _ _
    rfl
  · exact hLeast
  · exact hPut
  · exact hSame

/- With `r` units for each place no place has fewer. -/
theorem le_of_total
    {places : Finset α}
    (hBal : Balanced places load)
    {r : Nat}
    (hTotal : places.card * r ≤ ∑ i ∈ places, load i)
    {i : α}
    (hI : i ∈ places) :
    r ≤ load i := by
  by_contra hLess
  have hBelow : ∑ k ∈ places, load k < ∑ _k ∈ places, r := by
    refine Finset.sum_lt_sum ?_ ⟨i, hI, by omega⟩
    intro k hK
    have hNear := hBal k hK i hI
    omega
  rw [Finset.sum_const, smul_eq_mul] at hBelow
  omega

end Balanced

end CircuitDllm
