import Mathlib.Data.Set.Card
import Mathlib.Logic.Relation

/-
  Walks along a relation.

  A walk ends wherever it is taken if it never comes to a
  place that it can come back to.  Where only finitely many
  places can be reached nothing else keeps it going.

  Main declarations:
    * `Walk.Ends`, `Walk.Circles`
    * `Walk.ends_iff`, `Walk.eq_of_deadEnds`
-/

namespace Walk

open Relation

variable {α : Type} (R : α → α → Prop)

/- No walk from `a` goes on for ever. -/
def Ends (a : α) : Prop :=
  Acc (fun b a => R a b) a

/- A walk from `a` comes to a place that leads to itself. -/
def Circles (a : α) : Prop :=
  ∃ b, ReflTransGen R a b ∧ TransGen R b b

variable {R} {a b : α}

theorem Ends.step (hEnds : Ends R a) (hStep : R a b) :
    Ends R b :=
  hEnds.inv hStep

theorem Ends.intro (hNext : ∀ b, R a b → Ends R b) :
    Ends R a :=
  Acc.intro a hNext

theorem Ends.reach
    (hEnds : Ends R a)
    (hReach : ReflTransGen R a b) :
    Ends R b := by
  induction hReach with
  | refl => exact hEnds
  | tail _ hStep ih => exact ih.step hStep

/- A place that leads to itself is left for ever. -/
theorem Ends.irrefl (hEnds : Ends R a) : ¬ TransGen R a a := by
  induction hEnds with
  | intro a _ ih =>
      intro hCycle
      rcases TransGen.head'_iff.mp hCycle with
        ⟨b, hStep, hBack⟩
      exact ih b hStep (TransGen.tail' hBack hStep)

theorem Ends.not_circles (hEnds : Ends R a) :
    ¬ Circles R a := by
  rintro ⟨b, hReach, hCycle⟩
  exact (hEnds.reach hReach).irrefl hCycle

/- Each step leaves a place that is not reached again. -/
theorem ends_of_not_circles
    (hFinite : {b | ReflTransGen R a b}.Finite)
    (hNot : ¬ Circles R a) :
    Ends R a := by
  induction hCard : {b | ReflTransGen R a b}.ncard
    using Nat.strongRecOn generalizing a with
  | ind n ih =>
      apply Ends.intro
      intro b hStep
      have hSubset :
          {c | ReflTransGen R b c} ⊆
            {c | ReflTransGen R a c} :=
        fun c hReach => ReflTransGen.head hStep hReach
      have hLess :
          {c | ReflTransGen R b c} ⊂
            {c | ReflTransGen R a c} := by
        refine ⟨hSubset, fun hBack => hNot ?_⟩
        have hReturn : ReflTransGen R b a :=
          hBack ReflTransGen.refl
        exact ⟨a, .refl, TransGen.head' hStep hReturn⟩
      have hSmall :=
        Set.ncard_lt_ncard hLess hFinite
      rw [hCard] at hSmall
      refine ih _ hSmall (hFinite.subset hSubset) ?_ rfl
      rintro ⟨c, hReach, hCycle⟩
      exact hNot ⟨c, ReflTransGen.head hStep hReach, hCycle⟩

theorem ends_iff
    (hFinite : {b | ReflTransGen R a b}.Finite) :
    Ends R a ↔ ¬ Circles R a :=
  ⟨Ends.not_circles, ends_of_not_circles hFinite⟩

/- Where only one way is open, only one place is an end. -/
theorem eq_of_deadEnds
    (hUnique : Relator.RightUnique R)
    {c : α}
    (hToB : ReflTransGen R a b)
    (hToC : ReflTransGen R a c)
    (hB : ∀ d, ¬ R b d)
    (hC : ∀ d, ¬ R c d) :
    b = c := by
  rcases ReflTransGen.total_of_right_unique hUnique hToB hToC
    with hOn | hOn
  · rcases ReflTransGen.cases_head hOn with hEq | ⟨d, hStep, -⟩
    · exact hEq
    · exact absurd hStep (hB d)
  · rcases ReflTransGen.cases_head hOn with hEq | ⟨d, hStep, -⟩
    · exact hEq.symm
    · exact absurd hStep (hC d)

end Walk
