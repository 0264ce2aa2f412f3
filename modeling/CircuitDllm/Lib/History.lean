import Mathlib.Data.List.Induction

/-
  Runs of a step function and what has happened in them.

  `trail` lists the operations of a run, each with the state
  it met.  `Since` speaks of what happened after the last
  event of a kind, `Answered` of events that must be
  followed by a later one.  `From` is `Since` that also
  looks at the last event of the kind itself.

  Main declarations:
    * `History.trail`, `History.induction`
    * `History.Since`, `History.From`, `History.Answered`
-/

------------------------------------------------------------
-- Runs
------------------------------------------------------------

namespace CircuitDllm

namespace History

variable {S O : Type}

/- The operations of a run with the states they met. -/
def trail (step : S → O → S) : S → List O → List (S × O)
| _, [] => []
| s, o :: os => (s, o) :: trail step (step s o) os

theorem trail_append
    (step : S → O → S)
    (s : S)
    (os os' : List O) :
    trail step s (os ++ os') =
      trail step s os ++
        trail step (os.foldl step s) os' := by
  induction os generalizing s with
  | nil => rfl
  | cons o os ih => simp [trail, ih]

/- A run of operations that stand for others. -/
theorem trail_map
    {O' : Type}
    (step : S → O → S)
    (f : O' → O)
    (s : S)
    (os : List O') :
    trail step s (os.map f) =
      (trail (fun s o => step s (f o)) s os).map
        (fun e => (e.1, f e.2)) := by
  induction os generalizing s with
  | nil => rfl
  | cons o os ih => simp [trail, ih]

/- The operations of the trail are those of the run. -/
theorem mem_of_trail
    {step : S → O → S}
    {s : S}
    {os : List O}
    {e : S × O}
    (hMem : e ∈ trail step s os) :
    e.2 ∈ os := by
  induction os generalizing s with
  | nil => exact absurd hMem List.not_mem_nil
  | cons o os ih =>
      rcases List.mem_cons.mp hMem with rfl | hRest
      · exact List.mem_cons_self
      · exact List.mem_cons_of_mem _ (ih hRest)

/- What came before an operation of the trail. -/
theorem split_of_trail
    {step : S → O → S}
    {s : S}
    {os : List O}
    {e : S × O}
    (hMem : e ∈ trail step s os) :
    ∃ before after,
      os = before ++ e.2 :: after ∧
        before.foldl step s = e.1 := by
  induction os generalizing s with
  | nil => exact absurd hMem List.not_mem_nil
  | cons o os ih =>
      rcases List.mem_cons.mp hMem with rfl | hRest
      · exact ⟨[], os, rfl, rfl⟩
      · rcases ih hRest with ⟨before, after, hEq, hState⟩
        exact ⟨o :: before, after, by rw [hEq]; rfl, hState⟩

/- What one step preserves holds after every run. -/
theorem induction
    (step : S → O → S)
    (holds : List (S × O) → S → Prop)
    {s₀ : S}
    (hInit : holds [] s₀)
    (hStep :
      ∀ past s o,
        holds past s →
          holds (past ++ [(s, o)]) (step s o))
    (os : List O) :
    holds (trail step s₀ os) (os.foldl step s₀) := by
  induction os using List.reverseRecOn with
  | nil => exact hInit
  | append_singleton os o ih =>
      rw [trail_append, List.foldl_append]
      exact hStep _ _ _ ih

/- The same under a condition on every step of the run. -/
theorem induction_of
    (step : S → O → S)
    (allowed : S × O → Prop)
    (holds : List (S × O) → S → Prop)
    {s₀ : S}
    (hInit : holds [] s₀)
    (hStep :
      ∀ past s o,
        allowed (s, o) → holds past s →
          holds (past ++ [(s, o)]) (step s o))
    {os : List O}
    (hAllowed : ∀ e ∈ trail step s₀ os, allowed e) :
    holds (trail step s₀ os) (os.foldl step s₀) := by
  induction os using List.reverseRecOn with
  | nil => exact hInit
  | append_singleton os o ih =>
      rw [trail_append] at hAllowed ⊢
      rw [List.foldl_append]
      refine hStep _ _ _ (hAllowed _ ?_) (ih fun e hE => ?_)
      · exact List.mem_append_right _ (by simp [trail])
      · exact hAllowed e (List.mem_append_left _ hE)

end History

end CircuitDllm

------------------------------------------------------------
-- The Past of a Run
------------------------------------------------------------

namespace CircuitDllm

namespace History

variable {E : Type}

/- `holds` of what came after the last `start`. -/
def Since
    (start : E → Prop)
    (holds : List E → Prop)
    (past : List E) : Prop :=
  ∃ before e after,
    past = before ++ e :: after ∧ start e ∧
      (∀ e' ∈ after, ¬ start e') ∧ holds after

/- Every `ask` was followed by an `answer`. -/
def Answered
    (ask answer : E → Prop)
    (past : List E) : Prop :=
  ∀ before e after,
    past = before ++ e :: after → ask e →
      ∃ e' ∈ after, answer e'

variable {start : E → Prop} {holds holds' : List E → Prop}

theorem none_snoc
    {after : List E}
    {e : E}
    (hNone : ∀ e' ∈ after, ¬ start e')
    (hNot : ¬ start e) :
    ∀ e' ∈ after ++ [e], ¬ start e' := by
  intro e' hMem
  rcases List.mem_append.mp hMem with hOld | hNew
  · exact hNone e' hOld
  · rw [List.mem_singleton] at hNew
    rw [hNew]
    exact hNot

/- A new start: nothing has happened since. -/
theorem since_start
    (past : List E)
    {e : E}
    (hStart : start e)
    (hHolds : holds []) :
    Since start holds (past ++ [e]) :=
  ⟨past, e, [], rfl, hStart, by simp, hHolds⟩

/- One more event that is no start. -/
theorem Since.snoc
    {past : List E}
    (hSince : Since start holds past)
    {e : E}
    (hNot : ¬ start e)
    (hHolds :
      ∀ after, holds after → holds' (after ++ [e])) :
    Since start holds' (past ++ [e]) := by
  rcases hSince with
    ⟨before, e₀, after, rfl, hStart, hNone, hAfter⟩
  exact
    ⟨before, e₀, after ++ [e], by simp, hStart,
      none_snoc hNone hNot, hHolds after hAfter⟩

/- `holds` of the last `start` and of what came after it. -/
def From
    (start : E → Prop)
    (holds : E → List E → Prop)
    (past : List E) : Prop :=
  ∃ before e after,
    past = before ++ e :: after ∧ start e ∧
      (∀ e' ∈ after, ¬ start e') ∧ holds e after

variable {relates relates' : E → List E → Prop}

theorem from_start
    (past : List E)
    {e : E}
    (hStart : start e)
    (hHolds : relates e []) :
    From start relates (past ++ [e]) :=
  ⟨past, e, [], rfl, hStart, by simp, hHolds⟩

theorem From.snoc
    {past : List E}
    (hFrom : From start relates past)
    {e : E}
    (hNot : ¬ start e)
    (hHolds :
      ∀ e₀ after, relates e₀ after →
        relates' e₀ (after ++ [e])) :
    From start relates' (past ++ [e]) := by
  rcases hFrom with
    ⟨before, e₀, after, rfl, hStart, hNone, hAfter⟩
  exact
    ⟨before, e₀, after ++ [e], by simp, hStart,
      none_snoc hNone hNot, hHolds e₀ after hAfter⟩

theorem From.imp
    {past : List E}
    (hFrom : From start relates past)
    (hImp : ∀ e after, relates e after → relates' e after) :
    From start relates' past := by
  rcases hFrom with
    ⟨before, e, after, hPast, hStart, hNone, hAfter⟩
  exact
    ⟨before, e, after, hPast, hStart, hNone,
      hImp e after hAfter⟩

/-
  An event without a later start came after the last start,
  or is that start.
-/
theorem From.of_split
    {past : List E}
    (hFrom : From start relates past)
    {before after : List E}
    {e : E}
    (hPast : past = before ++ e :: after)
    (hNot : ¬ start e)
    (hLater : ∀ e' ∈ after, ¬ start e') :
    ∃ e₀ since, relates e₀ since ∧ e ∈ since := by
  rcases hFrom with
    ⟨before₀, e₀, since, hPast₀, hStart, _, hHolds⟩
  refine ⟨e₀, since, hHolds, ?_⟩
  rw [hPast] at hPast₀
  rcases List.append_eq_append_iff.mp hPast₀ with
    ⟨mid, hBefore, hRest⟩ | ⟨mid, hBefore, hRest⟩
  · -- the start would come later than the event
    cases mid with
    | nil =>
        rw [List.nil_append] at hRest
        rw [(List.cons.inj hRest).1] at hNot
        exact absurd hStart hNot
    | cons x mid =>
        have hTail := (List.cons.inj hRest).2
        have hMem : e₀ ∈ after := by
          rw [hTail]
          simp
        exact absurd hStart (hLater e₀ hMem)
  · cases mid with
    | nil =>
        rw [List.nil_append] at hRest
        rw [← (List.cons.inj hRest).1] at hNot
        exact absurd hStart hNot
    | cons x mid =>
        rw [(List.cons.inj hRest).2]
        simp

/- What came after the last start is one list. -/
theorem after_unique
    {before before' after after' : List E}
    {e e' : E}
    (hEq : before ++ e :: after = before' ++ e' :: after')
    (hStart : start e)
    (hStart' : start e')
    (hNone : ∀ x ∈ after, ¬ start x)
    (hNone' : ∀ x ∈ after', ¬ start x) :
    after' = after := by
  rcases List.append_eq_append_iff.mp hEq with
    ⟨mid, _, hRest⟩ | ⟨mid, _, hRest⟩
  · cases mid with
    | nil => exact (List.cons.inj hRest).2.symm
    | cons x mid =>
        have hTail := (List.cons.inj hRest).2
        refine absurd hStart' (hNone e' ?_)
        rw [hTail]
        simp
  · cases mid with
    | nil => exact (List.cons.inj hRest).2
    | cons x mid =>
        have hTail := (List.cons.inj hRest).2
        refine absurd hStart (hNone' e ?_)
        rw [hTail]
        simp

variable {ask answer : E → Prop}

/- An event of a longer past is the new one, or older. -/
theorem last_or_before
    {past before after : List E}
    {e e' : E}
    (hEq : past ++ [e] = before ++ e' :: after) :
    (before = past ∧ e' = e) ∨
      ∃ init,
        after = init ++ [e] ∧ past = before ++ e' :: init := by
  rcases List.eq_nil_or_concat after with rfl | ⟨init, l, hL⟩
  · rcases List.append_inj' hEq rfl with ⟨hPast, hLast⟩
    exact Or.inl ⟨hPast.symm, (List.cons.inj hLast).1.symm⟩
  · rw [List.concat_eq_append] at hL
    have hSplit :
        past ++ [e] = (before ++ e' :: init) ++ [l] := by
      simpa [hL] using hEq
    rcases List.append_inj' hSplit rfl with ⟨hPast, hLast⟩
    rw [(List.cons.inj hLast).1]
    exact Or.inr ⟨init, hL, hPast⟩

theorem answered_nil : Answered ask answer [] := by
  intro before e after hEq _
  exact absurd hEq (by simp)

theorem Answered.snoc
    {past : List E}
    (hAnswered : Answered ask answer past)
    {e : E}
    (hNot : ¬ ask e) :
    Answered ask answer (past ++ [e]) := by
  intro before e' after hEq hAsk
  rcases last_or_before hEq with ⟨_, rfl⟩ | ⟨init, hAfter, hPast⟩
  · exact absurd hAsk hNot
  · rcases hAnswered before e' init hPast hAsk with
      ⟨x, hX, hAnswer⟩
    rw [hAfter]
    exact ⟨x, List.mem_append_left _ hX, hAnswer⟩

/- An answer now answers everything asked so far. -/
theorem answered_of_answer
    (past : List E)
    {e : E}
    (hAnswer : answer e)
    (hNot : ¬ ask e) :
    Answered ask answer (past ++ [e]) := by
  intro before e' after hEq hAsk
  rcases last_or_before hEq with ⟨_, rfl⟩ | ⟨init, hAfter, _⟩
  · exact absurd hAsk hNot
  · rw [hAfter]
    exact ⟨e, by simp, hAnswer⟩

end History

end CircuitDllm
