import Mathlib.Data.List.Basic

/-
  Calls whose statements can raise.

  A block is what a call has still to do, with the
  statements of its except clauses.  `Block.Due` says that
  something is done before the call is over, whichever of
  its statements raises and whatever the fault is.

  Main declarations:
    * `Unwind.Block`, `Unwind.Next`, `Unwind.Block.advance`
    * `Unwind.Block.Due`, `Unwind.Block.due_advance`
-/

------------------------------------------------------------
-- Blocks
------------------------------------------------------------

namespace CircuitDllm

namespace Unwind

variable {S F : Type}

/- The rest of a call, and what its except clauses do. -/
structure Block (S F : Type) where
  todo : List S := []
  clause : F → List S := fun _ => []

/- How a call goes on after a statement. -/
inductive Next (S F : Type) where
  /- with these first, and then the rest -/
  | go (first : List S)
  | done
  | raise (fault : F)

/- The call after its first statement. -/
def Block.advance (b : Block S F) : Next S F → Block S F
| .go first => { b with todo := first ++ b.todo.tail }
| .done => {}
| .raise fault => { todo := b.clause fault }

/- Every statement of a call, its clauses included. -/
def Block.All (P : S → Prop) (b : Block S F) : Prop :=
  (∀ st ∈ b.todo, P st) ∧ ∀ f, ∀ st ∈ b.clause f, P st

end Unwind

end CircuitDllm

------------------------------------------------------------
-- What Is Due
------------------------------------------------------------

namespace CircuitDllm

namespace Unwind

variable {S F : Type}

/-
  Which statements do what is due, after which ones nothing
  of the call may follow, and which ones may raise.
-/
structure Duty (S : Type) where
  pays : S → Prop
  ends : S → Prop
  raises : S → Prop

namespace Duty

variable (d : Duty S)

/- It is done in a list, or by what catches a fault. -/
def In (caught : Prop) : List S → Prop
| [] => False
| st :: rest =>
    d.pays st ∨
      (¬ d.ends st ∧ (d.raises st → caught) ∧ In caught rest)

variable {d}

theorem In.mono
    {caught caught' : Prop}
    (hCaught : caught → caught')
    {sts : List S}
    (hIn : d.In caught sts) :
    d.In caught' sts := by
  induction sts with
  | nil => exact hIn
  | cons st sts ih =>
      rcases hIn with hPays | ⟨hEnds, hRaises, hRest⟩
      · exact Or.inl hPays
      · refine Or.inr ⟨hEnds, fun hRaise => ?_, ih hRest⟩
        exact hCaught (hRaises hRaise)

/- What comes first may raise if that is caught. -/
theorem In.append
    {caught : Prop}
    {first rest : List S}
    (hFirst :
      ∀ st ∈ first,
        d.pays st ∨ (¬ d.ends st ∧ (d.raises st → caught)))
    (hIn : d.In caught rest) :
    d.In caught (first ++ rest) := by
  induction first with
  | nil => exact hIn
  | cons st first ih =>
      have hTail := ih fun st' hMem =>
        hFirst st' (List.mem_cons_of_mem st hMem)
      rcases hFirst st List.mem_cons_self with
        hPays | ⟨hEnds, hRaises⟩
      · exact Or.inl hPays
      · exact Or.inr ⟨hEnds, hRaises, hTail⟩

/- It is done if no fault can come before. -/
theorem in_of_mem
    {caught : Prop}
    {st : S}
    {first rest : List S}
    (hMem : st ∈ first)
    (hPays : d.pays st)
    (hQuiet : ∀ st ∈ first, ¬ d.ends st ∧ ¬ d.raises st) :
    d.In caught (first ++ rest) := by
  induction first with
  | nil => exact absurd hMem List.not_mem_nil
  | cons st' first ih =>
      rcases List.mem_cons.mp hMem with rfl | hIn
      · exact Or.inl hPays
      · rcases hQuiet st' List.mem_cons_self with
          ⟨hEnds, hRaises⟩
        refine Or.inr
          ⟨hEnds, fun hRaise => absurd hRaise hRaises, ?_⟩
        exact ih hIn fun st'' hMem' =>
          hQuiet st'' (List.mem_cons_of_mem st' hMem')

end Duty

namespace Block

variable (d : Duty S)

/- Every except clause does it. -/
def Caught (b : Block S F) : Prop :=
  ∀ f, d.In False (b.clause f)

/- The call does it before it is over. -/
def Due (b : Block S F) : Prop :=
  d.In (b.Caught d) b.todo

variable {d}

/- A list that pays without a fault pays in any block. -/
theorem due_of_in
    {b : Block S F}
    (hIn : d.In False b.todo) :
    b.Due d :=
  hIn.mono False.elim

/-
  A statement that does not do it leaves it due, if those
  it puts first end the call, or raise, only if it does.
-/
theorem due_advance
    {b : Block S F}
    {st : S}
    {rest : List S}
    (hTodo : b.todo = st :: rest)
    (hDue : b.Due d)
    (hPays : ¬ d.pays st)
    {n : Next S F}
    (hGo :
      ∀ first, n = .go first → ∀ st' ∈ first,
        (d.ends st' → d.ends st) ∧
          (d.raises st' → d.raises st))
    (hDone : n = .done → d.ends st)
    (hRaise : ∀ f, n = .raise f → d.raises st) :
    (b.advance n).Due d := by
  unfold Due at hDue
  rw [hTodo] at hDue
  rcases hDue with hYes | ⟨hEnds, hRaises, hRest⟩
  · exact absurd hYes hPays
  cases n with
  | go first =>
      unfold Due advance
      rw [hTodo, List.tail_cons]
      apply Duty.In.append _ hRest
      intro st' hMem
      rcases hGo first rfl st' hMem with ⟨hEnd, hRaise'⟩
      exact Or.inr
        ⟨fun h => hEnds (hEnd h), fun h => hRaises (hRaise' h)⟩
  | done => exact absurd (hDone rfl) hEnds
  | raise f =>
      apply due_of_in
      exact hRaises (hRaise f rfl) f

theorem all_advance
    {P : S → Prop}
    {b : Block S F}
    (hAll : b.All P)
    {n : Next S F}
    (hGo : ∀ first, n = .go first → ∀ st ∈ first, P st) :
    (b.advance n).All P := by
  rcases hAll with ⟨hTodo, hClause⟩
  cases n with
  | go first =>
      refine ⟨fun st hMem => ?_, hClause⟩
      rcases List.mem_append.mp hMem with hFirst | hRest
      · exact hGo first rfl st hFirst
      · exact hTodo st (List.mem_of_mem_tail hRest)
  | done =>
      exact ⟨fun st hMem => absurd hMem List.not_mem_nil,
        fun f st hMem => absurd hMem List.not_mem_nil⟩
  | raise f =>
      refine ⟨hClause f, fun f' st hMem => ?_⟩
      exact absurd hMem List.not_mem_nil

end Block

end Unwind

end CircuitDllm
