import CircuitDllm.Lib.Walk
import CircuitDllm.TreeDecode.Mask
import CircuitDllm.Wire.Tensor
import Mathlib.Data.Finset.Lattice.Fold

/-
  Tree masks from the wire (engine/tensors.py, the tree
  frame of engine/stage_worker.py).

  A worker takes the parent pointers of a tree from a frame
  and follows them as they are, with the negative indices of
  Python: the mask comes out or the array is rejected unless
  a node's pointers lead into a cycle.

  Main declarations:
    * `treeActivationMask`
    * `buildTreeMask_ends_iff`
    * `additiveMask_exact`
    * `treeMaskOk_iff`
-/

------------------------------------------------------------
-- Following Pointers
------------------------------------------------------------

namespace CircuitDllm

open Relation

variable {parents : List Int}

/- a = parents[a], for an `a` the loop goes on with -/
def Next (parents : List Int) (a b : Int) : Prop :=
  a ≠ -1 ∧
    ∃ place,
      wrapIndex parents.length a = some place ∧
        parents[place]? = some b

/- parents[a] raises an IndexError. -/
def Strays (parents : List Int) (a : Int) : Prop :=
  a ≠ -1 ∧ wrapIndex parents.length a = none

/- The pointers from node `i` lead into a cycle. -/
def Loops (parents : List Int) (i : Nat) : Prop :=
  Walk.Circles (Next parents) i

/- The pointers from node `i` lead out of the array. -/
def Leaves (parents : List Int) (i : Nat) : Prop :=
  ∃ a, ReflTransGen (Next parents) i a ∧ Strays parents a

theorem wrapIndex_lt
    {length place : Nat}
    {a : Int}
    (hPlace : wrapIndex length a = some place) :
    place < length := by
  unfold wrapIndex at hPlace
  split_ifs at hPlace with hSign hRange hRange
  · cases hPlace
    omega
  · cases hPlace
    omega

/- A pointer with a place in the array has one in the row. -/
theorem wrapIndex_column
    {length place : Nat}
    {a : Int}
    (prefixLen : Nat)
    (hPlace : wrapIndex length a = some place) :
    wrapIndex (prefixLen + length) (prefixLen + a) ≠ none := by
  unfold wrapIndex at hPlace ⊢
  split_ifs at hPlace ⊢ <;> first | omega | simp

theorem Next.of_place
    {a : Int}
    {place : Nat}
    (hNode : a ≠ -1)
    (hPlace : wrapIndex parents.length a = some place) :
    ∃ b, Next parents a b := by
  have hLt := wrapIndex_lt hPlace
  exact ⟨parents[place], hNode, place, hPlace,
    List.getElem?_eq_getElem hLt⟩

/- The walk goes on or raises. -/
theorem next_or_strays
    {a : Int}
    (hNode : a ≠ -1) :
    (∃ b, Next parents a b) ∨ Strays parents a := by
  cases hPlace : wrapIndex parents.length a with
  | none => exact .inr ⟨hNode, hPlace⟩
  | some place => exact .inl (Next.of_place hNode hPlace)

theorem next_rightUnique :
    Relator.RightUnique (Next parents) := by
  rintro a b c ⟨-, place, hPlace, hB⟩ ⟨-, place', hPlace', hC⟩
  rw [hPlace] at hPlace'
  cases hPlace'
  rw [hB] at hC
  exact Option.some.inj hC

theorem Next.not_root {b : Int} : ¬ Next parents (-1) b :=
  fun hNext => hNext.1 rfl

theorem Strays.not_next
    {a b : Int}
    (hStrays : Strays parents a) :
    ¬ Next parents a b := by
  rintro ⟨-, place, hPlace, -⟩
  rw [hStrays.2] at hPlace
  cases hPlace

/- A value after the first is an entry of the array. -/
theorem finite_reach (a : Int) :
    {b | ReflTransGen (Next parents) a b}.Finite := by
  refine (parents.finite_toSet.insert a).subset ?_
  intro b hReach
  rcases ReflTransGen.cases_tail hReach with rfl | ⟨c, -, hNext⟩
  · exact Set.mem_insert _ _
  · rcases hNext with ⟨-, place, -, hEntry⟩
    exact Set.mem_insert_of_mem _
      (List.mem_of_getElem? hEntry)

theorem ends_iff_not_loops (i : Nat) :
    Walk.Ends (Next parents) (i : Int) ↔ ¬ Loops parents i :=
  Walk.ends_iff (finite_reach _)

/- A walk that comes to the root does not leave the array. -/
theorem Leaves.not_reach_root
    {i : Nat}
    (hLeaves : Leaves parents i) :
    ¬ ReflTransGen (Next parents) i (-1) := by
  rcases hLeaves with ⟨a, hReach, hStrays⟩
  intro hRoot
  exact hStrays.1
    (Walk.eq_of_deadEnds next_rightUnique hReach hRoot
      (fun _ => hStrays.not_next) (fun _ => Next.not_root))

end CircuitDllm

------------------------------------------------------------
-- When a Walk Ends
------------------------------------------------------------

namespace CircuitDllm

open Relation

variable {parents : List Int} {prefixLen : Nat}
variable {a b : Int} {row : List Bool}

/- One step of the walk. -/
theorem maskWalk_next
    (hRow : row.length = prefixLen + parents.length)
    (hNext : Next parents a b) :
    ∃ row', row'.length = prefixLen + parents.length ∧
      ∀ steps,
        maskWalk parents prefixLen (steps + 1) a row =
          maskWalk parents prefixLen steps b row' := by
  rcases hNext with ⟨hNode, place, hPlace, hEntry⟩
  have hColumn := wrapIndex_column prefixLen hPlace
  rw [← hRow] at hColumn
  rcases Option.ne_none_iff_exists'.mp hColumn with
    ⟨column, hColumn⟩
  refine ⟨row.set column true, ?_, ?_⟩
  · rw [List.length_set, hRow]
  · intro steps
    rw [maskWalk, if_neg hNode, hColumn]
    simp only [hPlace, Option.bind_some, hEntry]

theorem maskWalk_strays
    (hStrays : Strays parents a)
    (steps : Nat) :
    maskWalk parents prefixLen (steps + 1) a row =
      .error .index := by
  rw [maskWalk, if_neg hStrays.1]
  split
  · rfl
  · simp only [hStrays.2, Option.bind_none]

/- Where a walk that returns or raises has come to. -/
def ComesTo (parents : List Int) (a : Int) :
    Except MaskError (List Bool) → Prop
| .ok _ => ReflTransGen (Next parents) a (-1)
| .error .index =>
    ∃ b, ReflTransGen (Next parents) a b ∧ Strays parents b
| .error .running => True

theorem ComesTo.head
    {result : Except MaskError (List Bool)}
    (hNext : Next parents a b)
    (hResult : ComesTo parents b result) :
    ComesTo parents a result := by
  match result, hResult with
  | .ok _, hRoot => exact ReflTransGen.head hNext hRoot
  | .error .index, ⟨c, hReach, hStrays⟩ =>
      exact ⟨c, ReflTransGen.head hNext hReach, hStrays⟩
  | .error .running, _ => trivial

theorem maskWalk_comesTo
    (hRow : row.length = prefixLen + parents.length)
    (steps : Nat) :
    ComesTo parents a
      (maskWalk parents prefixLen steps a row) := by
  induction steps generalizing a row with
  | zero =>
      by_cases hRoot : a = -1
      · subst hRoot
        rw [maskWalk_root]
        exact ReflTransGen.refl
      · rw [maskWalk, if_neg hRoot]
        trivial
  | succ steps ih =>
      by_cases hRoot : a = -1
      · subst hRoot
        rw [maskWalk_root]
        exact ReflTransGen.refl
      · rcases next_or_strays hRoot with ⟨b, hNext⟩ | hStrays
        · rcases maskWalk_next hRow hNext with
            ⟨row', hRow', hStep⟩
          rw [hStep]
          exact (ih hRow').head hNext
        · rw [maskWalk_strays hStrays]
          exact ⟨a, .refl, hStrays⟩

/- Enough steps see the end of a walk that has one. -/
theorem maskWalk_of_ends
    (hEnds : Walk.Ends (Next parents) a) :
    ∃ bound, ∀ steps row,
      bound ≤ steps →
        row.length = prefixLen + parents.length →
          maskWalk parents prefixLen steps a row ≠
            .error .running := by
  induction hEnds with
  | intro a _ ih =>
      by_cases hRoot : a = -1
      · refine ⟨0, ?_⟩
        intro steps row _ _
        rw [hRoot, maskWalk_root]
        simp
      · rcases next_or_strays hRoot with ⟨b, hNext⟩ | hStrays
        · rcases ih b hNext with ⟨bound, hBound⟩
          refine ⟨bound + 1, ?_⟩
          intro steps row hSteps hRow
          rcases Nat.exists_eq_add_of_le' hSteps with
            ⟨more, rfl⟩
          rcases maskWalk_next hRow hNext with
            ⟨row', hRow', hStep⟩
          rw [← Nat.add_assoc, hStep]
          exact hBound _ row' (Nat.le_add_left _ _) hRow'
        · refine ⟨1, ?_⟩
          intro steps row hSteps _
          rcases Nat.exists_eq_add_of_le' hSteps with
            ⟨more, rfl⟩
          rw [maskWalk_strays hStrays]
          simp

theorem ends_of_maskWalk
    (hRow : row.length = prefixLen + parents.length)
    {steps : Nat}
    (hEnd :
      maskWalk parents prefixLen steps a row ≠
        .error .running) :
    Walk.Ends (Next parents) a := by
  induction steps generalizing a row with
  | zero =>
      have hRoot : a = -1 := by
        by_contra hNode
        exact hEnd (by rw [maskWalk, if_neg hNode])
      subst hRoot
      exact Walk.Ends.intro
        (fun b hNext => absurd hNext Next.not_root)
  | succ steps ih =>
      apply Walk.Ends.intro
      intro b hNext
      rcases maskWalk_next hRow hNext with ⟨row', hRow', hStep⟩
      rw [hStep] at hEnd
      exact ih hRow' hEnd

end CircuitDllm

------------------------------------------------------------
-- When the Mask Comes Out
------------------------------------------------------------

namespace CircuitDllm

variable {parents : List Int} {prefixLen : Nat}

theorem mapM_ok
    {A B E : Type}
    {f : A → Except E B}
    {xs : List A}
    {ys : List B}
    (hOk : xs.mapM f = .ok ys) :
    ∀ x ∈ xs, ∃ y, f x = .ok y := by
  induction xs generalizing ys with
  | nil => simp
  | cons x xs ih =>
      rw [List.mapM_cons] at hOk
      cases hHead : f x with
      | error e => simp [hHead, bind, Except.bind] at hOk
      | ok y =>
          cases hTail : xs.mapM f with
          | error e =>
              simp [hHead, hTail, bind, Except.bind] at hOk
          | ok ys =>
              exact List.forall_mem_cons.mpr
                ⟨⟨y, hHead⟩, ih hTail⟩

/- The first element that fails is the one that shows. -/
theorem mapM_error
    {A B E : Type}
    {f : A → Except E B}
    {xs : List A}
    {e : E}
    (hError : xs.mapM f = .error e) :
    ∃ before x after,
      xs = before ++ x :: after ∧ f x = .error e ∧
        ∀ y ∈ before, ∃ z, f y = .ok z := by
  induction xs with
  | nil => cases hError
  | cons x xs ih =>
      rw [List.mapM_cons] at hError
      cases hHead : f x with
      | error e' =>
          simp only [hHead, bind, Except.bind] at hError
          cases hError
          exact ⟨[], x, xs, rfl, hHead, by simp⟩
      | ok y =>
          cases hTail : xs.mapM f with
          | ok ys =>
              simp [hHead, hTail, bind, Except.bind, pure,
                Except.pure] at hError
          | error e' =>
              simp only [hHead, hTail, bind, Except.bind]
                at hError
              cases hError
              rcases ih hTail with
                ⟨before, x', after, rfl, hAt, hBefore⟩
              exact ⟨x :: before, x', after, rfl, hAt,
                List.forall_mem_cons.mpr
                  ⟨⟨y, hHead⟩, hBefore⟩⟩

theorem maskRow_comesTo
    (parents : List Int)
    (prefixLen steps i : Nat) :
    ComesTo parents i
      (maskRow parents prefixLen steps i) :=
  maskWalk_comesTo (by simp) steps

theorem maskRow_loops
    {i : Nat}
    (hLoops : Loops parents i)
    (prefixLen steps : Nat) :
    maskRow parents prefixLen steps i = .error .running := by
  by_contra hEnd
  have hEnds := ends_of_maskWalk (by simp) hEnd
  exact (ends_iff_not_loops i).mp hEnds hLoops

/- One bound does for the rows of all nodes. -/
theorem maskRow_bound
    (parents : List Int)
    (prefixLen : Nat) :
    ∃ bound, ∀ i < parents.length,
      ¬ Loops parents i →
        ∀ steps, bound ≤ steps →
          maskRow parents prefixLen steps i ≠
            .error .running := by
  have hRow : ∀ i : Nat, ¬ Loops parents i →
      ∃ bound, ∀ steps, bound ≤ steps →
        maskRow parents prefixLen steps i ≠
          .error .running := by
    intro i hNot
    rcases maskWalk_of_ends ((ends_iff_not_loops i).mpr hNot)
      with ⟨bound, hBound⟩
    exact ⟨bound, fun steps hSteps =>
      hBound steps _ hSteps (by simp)⟩
  choose! bound hBound using hRow
  refine ⟨(Finset.range parents.length).sup bound, ?_⟩
  intro i hi hNot steps hSteps
  have hLe := Finset.le_sup (f := bound)
    (Finset.mem_range.mpr hi)
  exact hBound i hNot steps (Nat.le_trans hLe hSteps)

/- The rows before the one that fails are built. -/
theorem buildTreeMask_error
    {steps : Nat}
    {e : MaskError}
    (hError :
      buildTreeMask parents prefixLen steps = .error e) :
    ∃ i < parents.length,
      maskRow parents prefixLen steps i = .error e ∧
        ∀ h < i, ∃ row,
          maskRow parents prefixLen steps h = .ok row := by
  rcases mapM_error hError with
    ⟨before, i, after, hRange, hRow, hBefore⟩
  have hi : i < parents.length := by
    rw [← List.mem_range, hRange]
    simp
  have hPlace : before.length = i := by
    have hAt := congrArg (fun is => is[before.length]?) hRange
    simp only [List.getElem?_append_right (Nat.le_refl _),
      Nat.sub_self, List.getElem?_cons_zero] at hAt
    have hLt := (List.getElem?_eq_some_iff.mp hAt).1
    rw [List.getElem?_range (by simpa using hLt)] at hAt
    exact Option.some.inj hAt
  refine ⟨i, hi, hRow, ?_⟩
  intro h hLess
  apply hBefore
  have hAt := congrArg (fun is => is[h]?) hRange
  simp only [List.getElem?_range (Nat.lt_trans hLess hi),
    List.getElem?_append_left (hPlace ▸ hLess)] at hAt
  exact List.mem_of_getElem? hAt.symm

/-
  A node whose pointers lead into a cycle comes after one
  whose pointers lead out of the array.
-/
def NoLoopFirst (parents : List Int) : Prop :=
  ∀ i < parents.length,
    Loops parents i → ∃ h < i, Leaves parents h

/- The mask comes out or the array is rejected. -/
theorem buildTreeMask_ends_iff
    (parents : List Int)
    (prefixLen : Nat) :
    (∃ bound, ∀ steps, bound ≤ steps →
      buildTreeMask parents prefixLen steps ≠
        .error .running) ↔
      NoLoopFirst parents := by
  constructor
  · rintro ⟨steps, hEnd⟩ i hi hLoops
    have hEnd := hEnd steps (Nat.le_refl _)
    have hRunning := maskRow_loops hLoops prefixLen steps
    cases hMask : buildTreeMask parents prefixLen steps with
    | ok rows =>
        rcases mapM_ok hMask i (List.mem_range.mpr hi) with
          ⟨row, hRow⟩
        rw [hRunning] at hRow
        cases hRow
    | error e =>
        rcases buildTreeMask_error hMask with
          ⟨h, -, hRow, hBefore⟩
        have hFirst := maskRow_comesTo parents prefixLen steps h
        rw [hRow] at hFirst
        cases e with
        | running => exact absurd hMask hEnd
        | index =>
            refine ⟨h, ?_, hFirst⟩
            rcases Nat.lt_trichotomy h i with
              hLess | rfl | hMore
            · exact hLess
            · rw [hRunning] at hRow
              cases hRow
            · rcases hBefore i hMore with ⟨row, hOk⟩
              rw [hRunning] at hOk
              cases hOk
  · intro hNoLoop
    rcases maskRow_bound parents prefixLen with
      ⟨bound, hBound⟩
    refine ⟨bound, ?_⟩
    intro steps hSteps hMask
    rcases buildTreeMask_error hMask with
      ⟨i, hi, hRow, hBefore⟩
    have hLoops : Loops parents i := by
      by_contra hNot
      exact hBound i hi hNot steps hSteps hRow
    rcases hNoLoop i hi hLoops with ⟨h, hLess, hLeaves⟩
    rcases hBefore h hLess with ⟨row, hOk⟩
    have hFirst := maskRow_comesTo parents prefixLen steps h
    rw [hOk] at hFirst
    exact hLeaves.not_reach_root hFirst

end CircuitDllm

------------------------------------------------------------
-- The Mask Is Exact
------------------------------------------------------------

namespace CircuitDllm

open Relation

variable {M : Type} [Zero M] {parents : List Int}

/- A row of the mask: 0 where attended, `neg` elsewhere. -/
def additiveRow (neg : M) (row : List Bool) : List M :=
  row.map (fun attended => if attended then 0 else neg)

/- The mask as build_tree_mask fills it; neg is finfo's min. -/
def additiveMask
    (neg : M)
    (parents : List Int)
    (prefixLen steps : Nat) :
    Except MaskError (List (List M)) :=
  (buildTreeMask parents prefixLen steps).map
    (List.map (additiveRow neg))

theorem additiveMask_running
    (neg : M)
    (parents : List Int)
    (prefixLen steps : Nat) :
    additiveMask neg parents prefixLen steps =
        .error .running ↔
      buildTreeMask parents prefixLen steps =
        .error .running := by
  unfold additiveMask
  cases buildTreeMask parents prefixLen steps with
  | ok rows => simp [Except.map]
  | error e => simp [Except.map]

/- Node `p` is the parent of node `i`. -/
def IsParent (parents : List Int) (i p : Nat) : Prop :=
  parents[i]? = some (p : Int)

/-
  Column `c` is in the prefix, or it is the column of node
  `i` or of an ancestor of it.
-/
def Attends
    (parents : List Int)
    (prefixLen i c : Nat) : Prop :=
  c < prefixLen ∨
    ∃ j, c = prefixLen + j ∧
      (j = i ∨ TransGen (IsParent parents) i j)

/- A chain lists its node and the ancestors of it. -/
theorem Chain.mem_iff
    {i j : Nat}
    {chain : List Nat}
    (hChain : Chain parents i chain) :
    j ∈ chain ↔
      j = i ∨ TransGen (IsParent parents) i j := by
  rw [← reflTransGen_iff_eq_or_transGen]
  induction hChain with
  | @root i hRoot =>
      rw [List.mem_singleton, ReflTransGen.cases_head_iff]
      constructor
      · rintro rfl
        exact .inl rfl
      · rintro (hEq | ⟨p, hParent, -⟩)
        · exact hEq.symm
        · rw [IsParent, hRoot] at hParent
          have hEntry := Option.some.inj hParent
          omega
  | @step i p chain hParent _ ih =>
      rw [List.mem_append, List.mem_singleton, ih,
        ReflTransGen.cases_head_iff (a := i)]
      constructor
      · rintro (hReach | rfl)
        · exact .inr ⟨p, hParent, hReach⟩
        · exact .inl rfl
      · rintro (hEq | ⟨p', hParent', hReach⟩)
        · exact .inr hEq.symm
        · rw [IsParent, hParent] at hParent'
          have hEntry := Option.some.inj hParent'
          have hSame : p = p' := by omega
          exact .inl (hSame ▸ hReach)

theorem mem_allowedColumns
    {i c prefixLen : Nat}
    {chain : List Nat}
    (hChain : Chain parents i chain) :
    c ∈ allowedColumns prefixLen chain ↔
      Attends parents prefixLen i c := by
  simp only [allowedColumns, List.mem_append, List.mem_range,
    List.mem_map, hChain.mem_iff, Attends]
  constructor
  · rintro (hPrefix | ⟨j, hMem, rfl⟩)
    · exact .inl hPrefix
    · exact .inr ⟨j, rfl, hMem⟩
  · rintro (hPrefix | ⟨j, rfl, hMem⟩)
    · exact .inl hPrefix
    · exact .inr ⟨j, hMem, rfl⟩

/- The mask has 0 at the attended columns, neg elsewhere. -/
structure MaskExact
    (neg : M)
    (parents : List Int)
    (prefixLen : Nat)
    (mask : List (List M)) : Prop where
  rows : mask.length = parents.length
  columns :
    ∀ row ∈ mask, row.length = prefixLen + parents.length
  attended :
    ∀ i < parents.length,
      ∀ c < prefixLen + parents.length,
        Attends parents prefixLen i c →
          mask[i]?.bind (fun row => row[c]?) = some 0
  masked :
    ∀ i < parents.length,
      ∀ c < prefixLen + parents.length,
        ¬ Attends parents prefixLen i c →
          mask[i]?.bind (fun row => row[c]?) = some neg

theorem additiveMask_exact
    (neg : M)
    (hWf : ParentsWf parents)
    (prefixLen steps : Nat)
    (hSteps : parents.length ≤ steps) :
    ∃ mask,
      additiveMask neg parents prefixLen steps = .ok mask ∧
        MaskExact neg parents prefixLen mask := by
  rcases buildTreeMask_eq hWf prefixLen steps hSteps with
    ⟨rows, hRows, hLength, hRow⟩
  have hEntry : ∀ i < parents.length,
      ∀ c < prefixLen + parents.length,
        ∃ attended : Bool,
          (attended = true ↔ Attends parents prefixLen i c) ∧
            (rows.map (additiveRow neg))[i]?.bind
                (fun row => row[c]?) =
              some (if attended then 0 else neg) := by
    intro i hi c hc
    rcases Chain.of_lt hWf i hi with ⟨chain, hChain⟩
    refine ⟨decide (c ∈ allowedColumns prefixLen chain), ?_, ?_⟩
    · rw [decide_eq_true_iff, mem_allowedColumns hChain]
    · simp [hRow i chain hChain, additiveRow, hc]
  refine ⟨rows.map (additiveRow neg), ?_, ?_, ?_, ?_, ?_⟩
  · rw [additiveMask, hRows]
    rfl
  · rw [List.length_map, hLength]
  · intro row hMem
    rcases List.mem_map.mp hMem with ⟨flags, hFlags, rfl⟩
    rcases List.getElem_of_mem hFlags with ⟨i, hi, rfl⟩
    rcases Chain.of_lt hWf i (hLength ▸ hi) with
      ⟨chain, hChain⟩
    have hAt := hRow i chain hChain
    rw [List.getElem?_eq_getElem hi] at hAt
    rw [additiveRow, List.length_map, Option.some.inj hAt]
    simp
  · intro i hi c hc hAttends
    rcases hEntry i hi c hc with ⟨attended, hIff, hAt⟩
    rw [hAt, if_pos (hIff.mpr hAttends)]
  · intro i hi c hc hNot
    rcases hEntry i hi c hc with ⟨attended, hIff, hAt⟩
    rw [hAt, if_neg (fun h => hNot (hIff.mp h))]

end CircuitDllm

------------------------------------------------------------
-- Frames
------------------------------------------------------------

namespace CircuitDllm

namespace Wire

/- torch.finfo has the dtype. -/
def DType.isFloat : DType → Bool
| .float32 => true
| .float16 => true
| .bfloat16 => true
| _ => false

/- The elements of a buffer, `width` bytes each. -/
def elements (width : Nat) : Nat → Bytes → List Bytes
| 0, _ => []
| n + 1, bs => bs.take width :: elements width n (bs.drop width)

/-
  int(x) of an element; `truncate` is that of a float, which
  raises at infinities and NaN.
-/
def intOf
    (truncate : DType → Bytes → Option Int) :
    DType → Bytes → Option Int
| .int32, bs =>
    some (BitVec.ofNat 32 (unpack bs.reverse)).toInt
| .int64, bs =>
    some (BitVec.ofNat 64 (unpack bs.reverse)).toInt
| .uint8, bs => some (unpack bs.reverse)
| dtype, bs => truncate dtype bs

/- [int(x) for x in parents.tolist()] -/
def intList
    (truncate : DType → Bytes → Option Int)
    (t : Tensor) : Option (List Int) :=
  match t.shape with
  | [n] =>
    (elements t.dtype.width n t.bytes).mapM
      (intOf truncate t.dtype)
  -- a number is no list, a list no number
  | _ => none

end Wire

/- What stops a tree frame before the stage runs. -/
inductive TreeFrameError where
  | tensor (e : Wire.TensorError)
  /- the parents are not a list of numbers -/
  | parents
  /- finfo of a dtype that is not floating -/
  | finfo
  | mask (e : MaskError)
deriving DecidableEq, Repr

section

variable {M : Type} [Zero M]
variable (finfoMin : Wire.DType → M)
variable (truncate : Wire.DType → Wire.Bytes → Option Int)

/- A TREE_ACTIVATION frame, as far as its mask. -/
def treeActivationMask
    (payload : Wire.Bytes)
    (steps : Nat) :
    Except TreeFrameError (List (List M)) :=
  match Wire.unpackTreeActivation payload with
  | .error e => .error (.tensor e)
  | .ok frame =>
    let (hidden, _, treeParents) := frame.tensors
    match Wire.intList truncate treeParents with
    | none => .error .parents
    | some parents =>
      if hidden.dtype.isFloat then
        (additiveMask (finfoMin hidden.dtype) parents
          frame.position steps).mapError .mask
      else .error .finfo

/-
  The frame has these parents after a prefix this long, its
  hidden is of this dtype.
-/
def CarriesTree
    (payload : Wire.Bytes)
    (dtype : Wire.DType)
    (prefixLen : Nat)
    (parents : List Int) : Prop :=
  ∃ frame,
    Wire.unpackTreeActivation payload = .ok frame ∧
      frame.tensors.1.dtype = dtype ∧
      frame.position = prefixLen ∧
      Wire.intList truncate frame.tensors.2.2 = some parents

variable {truncate}

theorem CarriesTree.treeActivationMask_eq
    {payload : Wire.Bytes}
    {dtype : Wire.DType}
    {prefixLen : Nat}
    {parents : List Int}
    (hCarries :
      CarriesTree truncate payload dtype prefixLen parents)
    (steps : Nat) :
    treeActivationMask finfoMin truncate payload steps =
      if dtype.isFloat then
        (additiveMask (finfoMin dtype) parents prefixLen
          steps).mapError .mask
      else .error .finfo := by
  rcases hCarries with ⟨frame, hUnpack, rfl, rfl, hParents⟩
  simp only [treeActivationMask, hUnpack, hParents]

end

end CircuitDllm

------------------------------------------------------------
-- Every Array Comes in a Frame
------------------------------------------------------------

namespace CircuitDllm

namespace Wire

theorem elements_flatMap
    {A : Type}
    {f : A → Bytes}
    {width : Nat}
    (hWidth : ∀ x, (f x).length = width)
    (xs : List A) :
    elements width xs.length (xs.flatMap f) = xs.map f := by
  induction xs with
  | nil => rfl
  | cons x xs ih =>
      rw [List.flatMap_cons, List.length_cons, elements,
        List.take_left' (hWidth x), List.drop_left' (hWidth x),
        ih, List.map_cons]

/- The bytes of an int32 in memory. -/
def int32Bytes (value : BitVec 32) : Bytes :=
  (pack value.toNat).reverse

theorem length_int32Bytes (value : BitVec 32) :
    (int32Bytes value).length = 4 := by
  rw [int32Bytes, List.length_reverse, length_pack]

theorem length_flatMap_int32Bytes (values : List (BitVec 32)) :
    (values.flatMap int32Bytes).length = values.length * 4 := by
  induction values with
  | nil => rfl
  | cons value values ih =>
      rw [List.flatMap_cons, List.length_append, ih,
        length_int32Bytes, List.length_cons]
      omega

/- A one-dimensional int32 tensor. -/
def int32Tensor (values : List (BitVec 32)) : Tensor where
  dtype := .int32
  shape := [values.length]
  bytes := values.flatMap int32Bytes
  length_eq := by
    rw [length_flatMap_int32Bytes, numel, List.foldl_cons,
      List.foldl_nil, Nat.one_mul, DType.width]

variable (truncate : DType → Bytes → Option Int)

theorem intOf_int32Bytes (value : BitVec 32) :
    intOf truncate .int32 (int32Bytes value) =
      some value.toInt := by
  rw [intOf, int32Bytes, List.reverse_reverse,
    unpack_pack value.isLt, BitVec.ofNat_toNat,
    BitVec.setWidth_eq]

theorem intList_int32Tensor (values : List (BitVec 32)) :
    intList truncate (int32Tensor values) =
      some (values.map BitVec.toInt) := by
  have hElements :=
    elements_flatMap length_int32Bytes values
  have hValues :
      intOf truncate .int32 ∘ int32Bytes =
        fun value => some value.toInt :=
    funext (intOf_int32Bytes truncate)
  rw [intList, int32Tensor]
  simp only [DType.width, hElements, List.mapM_map, hValues]
  exact List.mapM_pure

theorem packable_int32Tensor
    {values : List (BitVec 32)}
    (hNonempty : values ≠ [])
    (hSize : packedLength (int32Tensor values) < 2 ^ 32) :
    (int32Tensor values).Packable := by
  have hPos := List.length_pos_iff.mpr hNonempty
  have hSized : (int32Tensor values).Sized :=
    ⟨by simp [int32Tensor], by simp [int32Tensor],
      by simpa [int32Tensor, numel] using hPos⟩
  exact hSized.packable (by simp [int32Tensor, DType.code])
    hSize

end Wire

/-
  Any int32 values, as many as a frame has room for, after
  any prefix that has four bytes.
-/
theorem carries_int32
    (truncate : Wire.DType → Wire.Bytes → Option Int)
    {values : List (BitVec 32)}
    (hNonempty : values ≠ [])
    (hSize :
      Wire.packedLength (Wire.int32Tensor values) < 2 ^ 32)
    {prefixLen : Nat}
    (hPrefix : prefixLen < 2 ^ 32) :
    ∃ payload,
      CarriesTree truncate payload .float32 prefixLen
        (values.map BitVec.toInt) := by
  have hParents :=
    Wire.packable_int32Tensor hNonempty hSize
  have hOther :
      (Wire.zeros .float32 [1, 1, 1]).Packable :=
    ⟨⟨by decide, by decide, by decide⟩, by decide, by decide⟩
  rcases Wire.unpackThree_packThree .treeActivationTooShort
      0 prefixLen 0 ⟨hOther, by decide⟩ ⟨hOther, by decide⟩
      ⟨hParents, hSize⟩ with ⟨payload, -, hUnpack⟩
  refine ⟨payload, _, hUnpack, rfl, ?_, ?_⟩
  · exact Wire.mask32_of_lt hPrefix
  · exact Wire.intList_int32Tensor truncate values

end CircuitDllm

------------------------------------------------------------
-- No Frame Hangs the Handler
------------------------------------------------------------

namespace CircuitDllm

variable {M : Type} [Zero M]
variable {truncate : Wire.DType → Wire.Bytes → Option Int}

/- What is wanted of the mask of an array of parents. -/
structure TreeMaskOk
    (finfoMin : Wire.DType → M)
    (truncate : Wire.DType → Wire.Bytes → Option Int)
    (prefixLen : Nat)
    (parents : List Int) : Prop where
  /- build_tree_mask returns or raises -/
  ends :
    ∃ bound, ∀ steps, bound ≤ steps →
      buildTreeMask parents prefixLen steps ≠
        .error .running
  /- and so does the handler of a frame that has them -/
  answered :
    ∀ payload dtype,
      CarriesTree truncate payload dtype prefixLen parents →
        ∃ bound, ∀ steps, bound ≤ steps →
          treeActivationMask finfoMin truncate payload steps ≠
            .error (.mask .running)
  /- the mask of a tree is its ancestor relation -/
  exact_of_wf :
    ParentsWf parents →
      ∀ dtype steps,
        parents.length ≤ steps →
          ∃ mask,
            additiveMask (finfoMin dtype) parents prefixLen
                steps = .ok mask ∧
              MaskExact (finfoMin dtype) parents prefixLen mask

theorem CarriesTree.running_iff
    {payload : Wire.Bytes}
    {dtype : Wire.DType}
    {prefixLen : Nat}
    {parents : List Int}
    (finfoMin : Wire.DType → M)
    (hCarries :
      CarriesTree truncate payload dtype prefixLen parents)
    (steps : Nat) :
    treeActivationMask finfoMin truncate payload steps =
        .error (.mask .running) ↔
      dtype.isFloat = true ∧
        buildTreeMask parents prefixLen steps =
          .error .running := by
  rw [hCarries.treeActivationMask_eq,
    ← additiveMask_running (finfoMin dtype)]
  cases dtype.isFloat with
  | false => simp
  | true =>
      cases additiveMask (finfoMin dtype) parents prefixLen
          steps with
      | ok mask => simp [Except.mapError]
      | error e => simp [Except.mapError]

/-
  The walks over an array end, or it is rejected, exactly if
  no cycle is come to first.
-/
theorem treeMaskOk_iff
    (finfoMin : Wire.DType → M)
    (truncate : Wire.DType → Wire.Bytes → Option Int)
    (prefixLen : Nat)
    (parents : List Int) :
    TreeMaskOk finfoMin truncate prefixLen parents ↔
      NoLoopFirst parents := by
  constructor
  · intro hOk
    exact (buildTreeMask_ends_iff parents prefixLen).mp
      hOk.ends
  · intro hNoLoop
    rcases (buildTreeMask_ends_iff parents prefixLen).mpr
        hNoLoop with ⟨bound, hBound⟩
    refine ⟨⟨bound, hBound⟩, ?_, ?_⟩
    · intro payload dtype hCarries
      refine ⟨bound, ?_⟩
      intro steps hSteps hRunning
      have hMask :=
        ((hCarries.running_iff finfoMin steps).mp hRunning).2
      exact hBound steps hSteps hMask
    · intro hWf dtype steps hSteps
      exact additiveMask_exact _ hWf prefixLen steps hSteps

/- A frame whose only node is its own parent. -/
theorem ownParent_hangs :
    ¬ ∀ (payload : Wire.Bytes) (dtype : Wire.DType)
        (prefixLen : Nat) (values : List (BitVec 32)),
      CarriesTree (fun _ _ => none) payload dtype prefixLen
          (values.map BitVec.toInt) →
        TreeMaskOk (fun _ => (-1 : Int)) (fun _ _ => none)
          prefixLen (values.map BitVec.toInt) := by
  intro hAll
  have hNonempty : [0#32] ≠ [] := List.cons_ne_nil _ _
  rcases carries_int32 (fun _ _ => none) hNonempty (by decide)
      (by decide : 7 < 2 ^ 32) with ⟨payload, hCarries⟩
  have hOk := hAll payload .float32 7 [0#32] hCarries
  have hNext : Next [0] 0 0 := ⟨by decide, 0, rfl, rfl⟩
  have hLoops : Loops [0] 0 := ⟨0, .refl, .single hNext⟩
  have hNoLoop := (buildTreeMask_ends_iff [0] 7).mp hOk.ends
  rcases hNoLoop 0 (by decide) hLoops with ⟨h, hLess, -⟩
  exact Nat.not_lt_zero h hLess

end CircuitDllm
