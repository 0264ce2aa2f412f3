import CircuitDllm.Lib.Select

/-
  The tree attention mask (engine/tensors.py).

  A mask row is one flag a cache column, set where the mask
  is 0 and clear where it is large negative.  `Chain` lists
  a node's ancestors from the root down to the node itself;
  `buildTreeMask_eq` says that row i allows the prefix and
  the chain of i, nothing else.

  Main declarations:
    * `buildTreeMask`
    * `Chain`
    * `buildTreeMask_eq`
-/

------------------------------------------------------------
-- Building the Mask
------------------------------------------------------------

namespace CircuitDllm

/- How an ancestor walk can fail to end. -/
inductive MaskError where
  /- a list or a tensor was indexed out of range -/
  | index
  /- the walk is still going after the given steps -/
  | running
deriving DecidableEq, Repr

/-
  The place an index names in a sequence; negative indices
  count from the end.
-/
def wrapIndex (length : Nat) (a : Int) : Option Nat :=
  if 0 ≤ a then
    if a < length then some a.toNat else none
  else
    if -length ≤ a then some (a + length).toNat else none

/-
  while a != -1: allow the column of `a`, go to its parent.
-/
def maskWalk
    (parents : List Int)
    (prefixLen : Nat) :
    Nat → Int → List Bool → Except MaskError (List Bool)
| 0, a, row =>
    if a = -1 then .ok row else .error .running
| steps + 1, a, row =>
    if a = -1 then .ok row
    else
      match wrapIndex row.length (prefixLen + a) with
      | none => .error .index
      | some column =>
        let row := row.set column true
        match (wrapIndex parents.length a).bind
            (fun place => parents[place]?) with
        | none => .error .index
        | some a => maskWalk parents prefixLen steps a row

/- The row of node `i`: the prefix, then the walk from i. -/
def maskRow
    (parents : List Int)
    (prefixLen steps i : Nat) :
    Except MaskError (List Bool) :=
  maskWalk parents prefixLen steps i
    (List.replicate prefixLen true ++
      List.replicate parents.length false)

/-
  One row a node, in order.  `steps` bounds each ancestor
  walk; a walk that ends does not depend on it.
-/
def buildTreeMask
    (parents : List Int)
    (prefixLen steps : Nat) :
    Except MaskError (List (List Bool)) :=
  (List.range parents.length).mapM
    (maskRow parents prefixLen steps)

end CircuitDllm

------------------------------------------------------------
-- Ancestor Chains
------------------------------------------------------------

namespace CircuitDllm

/-
  Node 0 is the root and every other node's parent comes
  before it.
-/
structure ParentsWf (parents : List Int) : Prop where
  root : parents[0]? = some (-1)
  before :
    ∀ (i : Nat) (a : Int),
      parents[i + 1]? = some a → 0 ≤ a ∧ a ≤ i

/- The ancestors of a node, the root first, itself last. -/
inductive Chain
    (parents : List Int) :
    Nat → List Nat → Prop where
| root {i} :
    parents[i]? = some (-1) →
    Chain parents i [i]
| step {i p chain} :
    parents[i]? = some ((p : Nat) : Int) →
    Chain parents p chain →
    Chain parents i (chain ++ [i])

/- A parent comes before its child. -/
theorem ParentsWf.parent_lt
    {parents : List Int}
    (hWf : ParentsWf parents)
    {i p : Nat}
    (hParent : parents[i]? = some ((p : Nat) : Int)) :
    p < i := by
  cases i with
  | zero =>
      rw [hWf.root] at hParent
      have hEq := Option.some.inj hParent
      omega
  | succ i =>
      have hBefore := hWf.before i p hParent
      omega

namespace Chain

variable {parents : List Int} {i : Nat} {chain : List Nat}

theorem lt_length
    (hChain : Chain parents i chain) :
    i < parents.length := by
  cases hChain with
  | root hRoot =>
      exact (List.getElem?_eq_some_iff.mp hRoot).1
  | step hParent _ =>
      exact (List.getElem?_eq_some_iff.mp hParent).1

/- A chain ends in its node. -/
theorem eq_snoc
    (hChain : Chain parents i chain) :
    ∃ init, chain = init ++ [i] := by
  cases hChain with
  | root _ => exact ⟨[], rfl⟩
  | step _ _ => exact ⟨_, rfl⟩

theorem le_of_mem
    (hWf : ParentsWf parents)
    (hChain : Chain parents i chain) :
    ∀ j ∈ chain, j ≤ i := by
  induction hChain with
  | root _ => simp
  | step hParent _ ih =>
      have hLt := hWf.parent_lt hParent
      intro j hj
      rcases List.mem_append.mp hj with hMem | hMem
      · have := ih j hMem
        omega
      · simp at hMem
        omega

/- A chain lists its nodes in increasing order. -/
theorem sorted
    (hWf : ParentsWf parents)
    (hChain : Chain parents i chain) :
    chain.Pairwise (· < ·) := by
  induction hChain with
  | root _ => simp
  | step hParent hRest ih =>
      have hLt := hWf.parent_lt hParent
      rw [List.pairwise_append]
      refine ⟨ih, by simp, ?_⟩
      intro j hj k hk
      have := hRest.le_of_mem hWf j hj
      simp at hk
      omega

theorem length_le
    (hWf : ParentsWf parents)
    (hChain : Chain parents i chain) :
    chain.length ≤ i + 1 := by
  induction hChain with
  | root _ => simp
  | step hParent _ ih =>
      have hLt := hWf.parent_lt hParent
      simp
      omega

/- Every node of a well-formed tree has a chain. -/
theorem of_lt
    (hWf : ParentsWf parents)
    (i : Nat)
    (hi : i < parents.length) :
    ∃ chain, Chain parents i chain := by
  induction i using Nat.strongRecOn with
  | ind i ih =>
      cases i with
      | zero => exact ⟨[0], .root hWf.root⟩
      | succ i =>
          have hEntry := List.getElem?_eq_getElem hi
          rcases hWf.before i _ hEntry with ⟨hNonneg, hLe⟩
          rcases Int.eq_ofNat_of_zero_le hNonneg with
            ⟨p, hp⟩
          rw [hp] at hEntry hLe
          rcases ih p (by omega) (by omega) with
            ⟨chain, hChain⟩
          exact ⟨_, .step hEntry hChain⟩

end Chain

end CircuitDllm

------------------------------------------------------------
-- The Mask Is Exact
------------------------------------------------------------

namespace CircuitDllm

variable {parents : List Int}

theorem wrapIndex_natCast
    {length i : Nat}
    (hi : i < length) :
    wrapIndex length (i : Int) = some i := by
  simp [wrapIndex, hi]

@[simp] theorem maskWalk_root
    (parents : List Int)
    (prefixLen steps : Nat)
    (row : List Bool) :
    maskWalk parents prefixLen steps (-1) row = .ok row := by
  cases steps <;> simp [maskWalk]

/- One step of the walk at a node. -/
theorem maskWalk_node
    {prefixLen steps i : Nat}
    {a : Int}
    {row : List Bool}
    (hParent : parents[i]? = some a)
    (hRow : prefixLen + i < row.length) :
    maskWalk parents prefixLen (steps + 1) (i : Int) row =
      maskWalk parents prefixLen steps a
        (row.set (prefixLen + i) true) := by
  have hi : i < parents.length :=
    (List.getElem?_eq_some_iff.mp hParent).1
  have hColumn :
      wrapIndex row.length ((prefixLen : Int) + i) =
        some (prefixLen + i) := by
    exact_mod_cast wrapIndex_natCast hRow
  have hNode : (i : Int) ≠ -1 := by omega
  rw [maskWalk, if_neg hNode, hColumn]
  simp [wrapIndex_natCast hi, hParent]

theorem set_map_range
    (f : Nat → Bool)
    (n k : Nat) :
    ((List.range n).map f).set k true =
      (List.range n).map (fun c => f c || decide (c = k)) := by
  apply List.ext_getElem
  · simp
  · intro c hLeft hRight
    rw [List.getElem_set]
    by_cases hEq : k = c
    · simp [hEq]
    · have hNe : c ≠ k := fun h => hEq h.symm
      simp [hEq, hNe]

/- The walk from a node allows exactly its chain. -/
theorem maskWalk_chain
    (prefixLen : Nat)
    {i : Nat}
    {chain : List Nat}
    (hChain : Chain parents i chain)
    (f : Nat → Bool)
    (steps : Nat)
    (hSteps : chain.length ≤ steps) :
    maskWalk parents prefixLen steps i
        ((List.range (prefixLen + parents.length)).map f) =
      .ok
        ((List.range (prefixLen + parents.length)).map
          (fun c =>
            f c ||
              decide (c ∈ chain.map (prefixLen + ·)))) := by
  induction hChain generalizing f steps with
  | @root i hRoot =>
      rcases Nat.exists_eq_add_of_le' hSteps with
        ⟨steps, rfl⟩
      have hi := (Chain.root hRoot).lt_length
      rw [List.length_singleton,
        maskWalk_node hRoot (by simpa using hi),
        maskWalk_root, set_map_range]
      simp
  | @step i p chain hParent hRest ih =>
      rw [List.length_append, List.length_singleton]
        at hSteps
      rcases Nat.exists_eq_add_of_le' hSteps with
        ⟨steps, rfl⟩
      have hi := (Chain.step hParent hRest).lt_length
      rw [show steps + (chain.length + 1) =
          (steps + chain.length) + 1 by omega,
        maskWalk_node hParent (by simpa using hi),
        set_map_range, ih _ _ (by omega)]
      congr 2
      funext c
      rw [Bool.or_assoc, List.map_append]
      congr 1
      rw [Bool.eq_iff_iff]
      simp [or_comm]

/- The columns a node's row allows. -/
def allowedColumns
    (prefixLen : Nat)
    (chain : List Nat) :
    List Nat :=
  List.range prefixLen ++ chain.map (prefixLen + ·)

/- The row of a node allows the prefix and its chain. -/
theorem maskRow_eq
    (prefixLen : Nat)
    {i : Nat}
    {chain : List Nat}
    (hChain : Chain parents i chain)
    (steps : Nat)
    (hSteps : chain.length ≤ steps) :
    maskRow parents prefixLen steps i =
      .ok
        ((List.range (prefixLen + parents.length)).map
          (fun c =>
            decide
              (c ∈ allowedColumns prefixLen chain))) := by
  have hStart :
      List.replicate prefixLen true ++
          List.replicate parents.length false =
        (List.range (prefixLen + parents.length)).map
          (fun c => decide (c < prefixLen)) := by
    apply List.ext_getElem
    · simp
    · intro c hLeft hRight
      rw [List.getElem_append]
      by_cases hc : c < prefixLen <;> simp [hc]
  rw [maskRow, hStart, maskWalk_chain prefixLen hChain _ _
    hSteps]
  congr 2
  funext c
  simp only [allowedColumns, List.mem_append,
    List.mem_range, Bool.decide_or]

theorem mapM_eq_map
    {A B E : Type}
    (f : A → Except E B)
    (g : A → B)
    (xs : List A)
    (hOk : ∀ x ∈ xs, f x = .ok (g x)) :
    xs.mapM f = .ok (xs.map g) := by
  induction xs with
  | nil => rfl
  | cons x xs ih =>
      have hHead := hOk x (by simp)
      have hTail :=
        ih (fun y hy => hOk y (List.mem_cons_of_mem x hy))
      rw [List.mapM_cons, hHead, hTail]
      rfl

/-
  On a well-formed tree every walk ends, and row i allows
  exactly the prefix and the chain of i.
-/
theorem buildTreeMask_eq
    (hWf : ParentsWf parents)
    (prefixLen steps : Nat)
    (hSteps : parents.length ≤ steps) :
    ∃ rows,
      buildTreeMask parents prefixLen steps = .ok rows ∧
        rows.length = parents.length ∧
        ∀ i chain,
          Chain parents i chain →
          rows[i]? =
            some
              ((List.range
                  (prefixLen + parents.length)).map
                (fun c =>
                  decide
                    (c ∈
                      allowedColumns prefixLen chain))) := by
  have hRow :
      ∀ i, i < parents.length →
        ∃ row, maskRow parents prefixLen steps i =
          .ok row := by
    intro i hi
    rcases Chain.of_lt hWf i hi with ⟨chain, hChain⟩
    have hLength := hChain.length_le hWf
    exact ⟨_, maskRow_eq prefixLen hChain steps (by omega)⟩
  let row := fun i =>
    (maskRow parents prefixLen steps i).toOption.getD []
  have hRows :
      buildTreeMask parents prefixLen steps =
        .ok ((List.range parents.length).map row) := by
    apply mapM_eq_map
    intro i hi
    rcases hRow i (List.mem_range.mp hi) with ⟨_, hOk⟩
    simp [row, hOk, Except.toOption]
  refine ⟨_, hRows, by simp, ?_⟩
  intro i chain hChain
  have hi := hChain.lt_length
  have hLength := hChain.length_le hWf
  have hOk :=
    maskRow_eq prefixLen hChain steps (by omega)
  simp [row, hi, hOk, Except.toOption]

end CircuitDllm
