import Mathlib.Combinatorics.Hall.Basic
import Mathlib.Data.Fintype.Prod
import Mathlib.Data.List.OfFn
import Mathlib.Data.List.Sort
import Mathlib.Algebra.Ring.Nat

/-
  Demands matched to capacities.

  An assignment gives every demand a place of its own whose
  capacity covers it.  Places nest by capacity, so Hall's
  condition has to be checked at the thresholds only: no
  more demands than places may reach any of them.  For
  descending lists that is the comparison of the largest
  with the largest.

  Main declarations:
    * `Matching.Assignable`, `Matching.assignable_iff_card`
    * `Matching.Under`, `Matching.under_iff_reach`
    * `Matching.assignable_iff_reach`
    * `Matching.assignable_iff_under`
-/

------------------------------------------------------------
-- Assignments
------------------------------------------------------------

namespace Matching

open Finset

variable {I K A : Type} [LinearOrder A]

/- Every demand has a place of its own that covers it. -/
def Assignable (demand : I → A) (capacity : K → A) : Prop :=
  ∃ f : I → K,
    Function.Injective f ∧ ∀ i, demand i ≤ capacity (f i)

variable [Fintype I] [Fintype K]

/- An assignment maps what reaches `a` into what does. -/
theorem Assignable.card_le
    {demand : I → A}
    {capacity : K → A}
    (hAssign : Assignable demand capacity)
    (a : A) :
    #{i | a ≤ demand i} ≤ #{k | a ≤ capacity k} := by
  rcases hAssign with ⟨f, hInj, hCovers⟩
  apply card_le_card_of_injOn f
  · intro i hReach
    have hDemand : a ≤ demand i := by simpa using hReach
    simpa using le_trans hDemand (hCovers i)
  · exact hInj.injOn

/-
  The neighbours of a set of demands are the places that
  reach the least of them.
-/
theorem assignable_of_card_le
    {demand : I → A}
    {capacity : K → A}
    (hCard : ∀ a,
      #{i | a ≤ demand i} ≤ #{k | a ≤ capacity k}) :
    Assignable demand capacity := by
  classical
  have hHall : ∀ s : Finset I,
      #s ≤ #(s.biUnion
        (fun i => {k | demand i ≤ capacity k})) := by
    intro s
    rcases s.eq_empty_or_nonempty with rfl | hNonempty
    · simp
    · rcases exists_min_image s demand hNonempty with
        ⟨least, hMem, hLeast⟩
      calc #s
          ≤ #{i | demand least ≤ demand i} := by
            apply card_le_card
            intro i hIn
            simpa using hLeast i hIn
        _ ≤ #{k | demand least ≤ capacity k} :=
            hCard (demand least)
        _ ≤ _ := by
            apply card_le_card
            intro k hReach
            exact mem_biUnion.mpr ⟨least, hMem, hReach⟩
  rcases (all_card_le_biUnion_card_iff_exists_injective
    _).mp hHall with ⟨f, hInj, hIn⟩
  refine ⟨f, hInj, ?_⟩
  intro i
  simpa using hIn i

theorem assignable_iff_card
    {demand : I → A}
    {capacity : K → A} :
    Assignable demand capacity ↔
      ∀ a,
        #{i | a ≤ demand i} ≤ #{k | a ≤ capacity k} :=
  ⟨Assignable.card_le, assignable_of_card_le⟩

end Matching

------------------------------------------------------------
-- Descending Lists
------------------------------------------------------------

namespace Matching

variable {A : Type} [LinearOrder A]

/- How many entries are at least `a`. -/
def reach (a : A) (xs : List A) : Nat :=
  xs.countP (fun x => a ≤ x)

/- Entry by entry, the first list lies under the second. -/
def Under (demands capacities : List A) : Prop :=
  demands.length ≤ capacities.length ∧
    ∀ p ∈ demands.zip capacities, p.1 ≤ p.2

instance (demands capacities : List A) :
    Decidable (Under demands capacities) :=
  inferInstanceAs (Decidable (_ ∧ _))

@[simp] theorem reach_nil (a : A) : reach a [] = 0 := rfl

theorem reach_cons (a x : A) (xs : List A) :
    reach a (x :: xs) =
      reach a xs + if a ≤ x then 1 else 0 := by
  simp [reach, List.countP_cons]

theorem reach_perm
    {xs ys : List A}
    (hPerm : xs.Perm ys)
    (a : A) :
    reach a xs = reach a ys :=
  hPerm.countP_eq _

theorem reach_replicate_flatten
    (a : A)
    (copies : Nat)
    (xs : List A) :
    reach a (List.replicate copies xs).flatten =
      copies * reach a xs := by
  induction copies with
  | zero => simp
  | succ copies ih =>
      rw [List.replicate_succ, List.flatten_cons, reach,
        List.countP_append, ← reach, ← reach, ih,
        Nat.succ_mul, Nat.add_comm]

theorem under_cons
    {d c : A}
    {ds cs : List A} :
    Under (d :: ds) (c :: cs) ↔ d ≤ c ∧ Under ds cs := by
  simp only [Under, List.length_cons, List.zip_cons_cons,
    List.forall_mem_cons]
  constructor
  · rintro ⟨hLen, hHead, hRest⟩
    exact ⟨hHead, by omega, hRest⟩
  · rintro ⟨hHead, hLen, hRest⟩
    exact ⟨by omega, hHead, hRest⟩

/- Dropping entries of a descending list above its head. -/
theorem reach_eq_zero
    {a x : A}
    {xs : List A}
    (hSorted : (x :: xs).Pairwise (· ≥ ·))
    (hAbove : x < a) :
    reach a xs = 0 := by
  apply List.countP_eq_zero.mpr
  intro y hMem
  have hLe : y ≤ x := List.rel_of_pairwise_cons hSorted hMem
  simpa using lt_of_le_of_lt hLe hAbove

theorem reach_le_of_under
    {ds cs : List A}
    (hUnder : Under ds cs)
    (a : A) :
    reach a ds ≤ reach a cs := by
  induction ds generalizing cs with
  | nil => simp
  | cons d ds ih =>
      cases cs with
      | nil => simp [Under] at hUnder
      | cons c cs =>
          rcases under_cons.mp hUnder with ⟨hHead, hRest⟩
          have hTail := ih hRest
          have hStep : a ≤ d → a ≤ c :=
            fun hReach => le_trans hReach hHead
          rw [reach_cons, reach_cons]
          split_ifs <;> first | omega | tauto

/- By induction on the demands: the largest go together. -/
theorem under_of_reach_le
    {ds cs : List A}
    (hDemands : ds.Pairwise (· ≥ ·))
    (hCapacities : cs.Pairwise (· ≥ ·))
    (hReach : ∀ a, reach a ds ≤ reach a cs) :
    Under ds cs := by
  induction ds generalizing cs with
  | nil => simp [Under]
  | cons d ds ih =>
      have hPos : 0 < reach d cs := by
        have hAt := hReach d
        rw [reach_cons, if_pos le_rfl] at hAt
        omega
      rcases List.countP_pos_iff.mp hPos with
        ⟨place, hMem, hCovers⟩
      cases cs with
      | nil => simp at hMem
      | cons c cs =>
          have hHead : d ≤ c := by
            have hCovers : d ≤ place := by simpa using hCovers
            rcases List.mem_cons.mp hMem with rfl | hIn
            · exact hCovers
            · exact le_trans hCovers
                (List.rel_of_pairwise_cons hCapacities hIn)
          refine under_cons.mpr ⟨hHead, ?_⟩
          refine ih hDemands.of_cons hCapacities.of_cons ?_
          intro a
          rcases le_or_gt a d with hLe | hGt
          · have hAt := hReach a
            rw [reach_cons, reach_cons, if_pos hLe,
              if_pos (le_trans hLe hHead)] at hAt
            omega
          · rw [reach_eq_zero hDemands hGt]
            omega

theorem under_iff_reach
    {ds cs : List A}
    (hDemands : ds.Pairwise (· ≥ ·))
    (hCapacities : cs.Pairwise (· ≥ ·)) :
    Under ds cs ↔ ∀ a, reach a ds ≤ reach a cs :=
  ⟨reach_le_of_under,
    under_of_reach_le hDemands hCapacities⟩

/- Largest first. -/
def descending (xs : List A) : List A :=
  xs.insertionSort (· ≥ ·)

theorem pairwise_descending (xs : List A) :
    (descending xs).Pairwise (· ≥ ·) :=
  List.pairwise_insertionSort _ xs

theorem perm_descending (xs : List A) :
    (descending xs).Perm xs :=
  List.perm_insertionSort _ xs

theorem under_descending_iff
    {ds cs : List A} :
    Under (descending ds) (descending cs) ↔
      ∀ a, reach a ds ≤ reach a cs := by
  rw [under_iff_reach (pairwise_descending ds)
    (pairwise_descending cs)]
  simp only [reach_perm (perm_descending _)]

end Matching

------------------------------------------------------------
-- Lists as Demands and Capacities
------------------------------------------------------------

namespace Matching

open Finset

variable {A : Type} [LinearOrder A]

variable {B : Type}

theorem card_reach (f : B → A) (a : A) (xs : List B) :
    #{i : Fin xs.length | a ≤ f (xs.get i)} =
      reach a (xs.map f) := by
  have hList : xs.map f = List.ofFn (fun i => f (xs.get i)) := by
    rw [← Function.comp_def f xs.get, ← List.map_ofFn,
      List.ofFn_get]
  rw [reach, hList, ← Multiset.coe_countP,
    ← Fin.univ_val_map, Multiset.countP_map]
  rfl

/- `copies` places for every entry. -/
theorem card_reach_copies
    (f : B → A)
    (a : A)
    (xs : List B)
    (copies : Nat) :
    #{p : Fin xs.length × Fin copies | a ≤ f (xs.get p.1)} =
      copies * reach a (xs.map f) := by
  have hProduct :
      (univ.filter (fun p : Fin xs.length × Fin copies =>
          a ≤ f (xs.get p.1))) =
        (univ.filter (fun i => a ≤ f (xs.get i))) ×ˢ
          univ := by
    ext p
    simp
  rw [hProduct, card_product, card_reach, card_univ,
    Fintype.card_fin, Nat.mul_comm]

/- Distinct places for `copies` of every demand. -/
theorem assignable_iff_reach
    (f : B → A)
    (demands : List B)
    (copies : Nat)
    (capacities : List A) :
    Assignable
        (fun p : Fin demands.length × Fin copies =>
          f (demands.get p.1))
        capacities.get ↔
      ∀ a,
        copies * reach a (demands.map f) ≤
          reach a capacities := by
  have hPlaces (a : A) :
      #{k | a ≤ capacities.get k} = reach a capacities := by
    simpa using card_reach id a capacities
  rw [assignable_iff_card]
  simp only [hPlaces, card_reach_copies]

/- They exist when the sorted lists lie one under the other. -/
theorem assignable_iff_under
    (f : B → A)
    (demands : List B)
    (copies : Nat)
    (capacities : List A) :
    Assignable
        (fun p : Fin demands.length × Fin copies =>
          f (demands.get p.1))
        capacities.get ↔
      Under
        (descending
          (List.replicate copies (demands.map f)).flatten)
        (descending capacities) := by
  rw [assignable_iff_reach, under_descending_iff]
  simp only [reach_replicate_flatten]

end Matching
