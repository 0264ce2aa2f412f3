import CircuitDllm.TreeDecode.Loop
import Mathlib.Algebra.Order.Ring.Int
import Mathlib.Data.List.Sort

/-
  The two builders of draft trees (engine/coordinator.py).

  One expands the best node of a heap and runs the draft on
  the whole context of it.  The other expands a beam depth by
  depth, in one draft forward each, and keeps by hand the KV
  slots that the ancestors of a beam entry were written to.

  The first checks the number of nodes before each one it
  adds; the second takes the children of the root without.

  Main declarations:
    * `DraftModel`, `TopK`, `TreeRequest`
    * `buildTree`, `buildTreeBatched`
    * `TreeShape`
    * `BeamRun`, `BeamInv`
    * `draftTrees_iff`
-/

------------------------------------------------------------
-- What the Builders Are Given
------------------------------------------------------------

namespace CircuitDllm

/-
  log_softmax of the draft's last row, on the entries that
  row attends to: tokens with their positions, in the order
  of their slots.
-/
structure DraftModel (P : Type) where
  vocab : Nat
  logProbs : List (Nat × Nat) → List P
  length_eq : ∀ entries, (logProbs entries).length = vocab

/- torch.topk: values with their indices. -/
structure TopK (P : Type) where
  topk : List P → Nat → List (P × Nat)
  length_eq :
    ∀ lp k, k ≤ lp.length → (topk lp k).length = k

/- One call of a builder, as a request may ask for it. -/
structure TreeRequest (P : Type) where
  draft : DraftModel P
  top : TopK P
  baseIds : List Nat
  head : Nat
  nNodes : Nat
  branch : Nat
  maxDepth : Nat
  beam : Nat
  one_le_nNodes : 1 ≤ nNodes
  one_le_branch : 1 ≤ branch
  one_le_maxDepth : 1 ≤ maxDepth
  one_le_beam : 1 ≤ beam
  branch_le : branch ≤ draft.vocab

namespace TreeRequest

variable {P : Type} (q : TreeRequest P)

/- The `branch` best continuations of a context. -/
def best (entries : List (Nat × Nat)) : List (P × Nat) :=
  q.top.topk (q.draft.logProbs entries) q.branch

theorem length_best (entries : List (Nat × Nat)) :
    (q.best entries).length = q.branch := by
  apply q.top.length_eq
  rw [q.draft.length_eq]
  exact q.branch_le

end TreeRequest

end CircuitDllm

------------------------------------------------------------
-- Best First
------------------------------------------------------------

namespace CircuitDllm

variable {P : Type} [Add P] [Zero P] [LT P] [DecidableLT P]

/- A node with the tokens below the head and its score. -/
structure BestNode (P : Type) extends TreeNode Nat where
  suffix : List Nat
  clp : P

/- (-clp, idx) < (-clp', idx') -/
def popsBefore (x y : P × Nat) : Bool :=
  y.1 < x.1 ∨ (¬ x.1 < y.1 ∧ x.2 < y.2)

/- heapq.heappop: the least entry and the others. -/
def heapPop :
    List (P × Nat) → Option ((P × Nat) × List (P × Nat))
| [] => none
| x :: fr =>
    match heapPop fr with
    | none => some (x, [])
    | some (y, rest) =>
      if popsBefore y x then some (y, x :: rest)
      else some (x, y :: rest)

/- The state of the best-first loop. -/
structure BestState (P : Type) where
  nodes : List (BestNode P)
  fr : List (P × Nat)

/- The children of node `idx`, as long as there is room. -/
def growChildren
    (nNodes idx : Nat)
    (nd : BestNode P) :
    List (P × Nat) → BestState P → BestState P
| [], s => s
| (value, ct) :: tb, s =>
    if nNodes ≤ s.nodes.length then s
    else
      let clp := nd.clp + value
      growChildren nNodes idx nd tb
        { nodes :=
            s.nodes ++
              [{ tok := ct
                 parent := idx
                 depth := nd.depth + 1
                 suffix := nd.suffix ++ [ct]
                 clp := clp }]
          fr := (clp, s.nodes.length) :: s.fr }

namespace TreeRequest

variable (q : TreeRequest P)

/- One turn of the loop: the best node is expanded. -/
def bestRound (s : BestState P) : BestState P :=
  match heapPop s.fr with
  | none => s
  | some ((_, idx), fr) =>
    match s.nodes[idx]? with
    | none => { s with fr := fr }
    | some nd =>
      if q.maxDepth ≤ nd.depth then { s with fr := fr }
      else
        growChildren q.nNodes idx nd
          (q.best (q.baseIds ++ q.head :: nd.suffix).zipIdx)
          { s with fr := fr }

/- while len(nodes) < n_nodes and fr -/
def bestLoop : Nat → BestState P → Option (BestState P)
| 0, s =>
    if s.nodes.length < q.nNodes ∧ s.fr ≠ [] then none
    else some s
| fuel + 1, s =>
    if s.nodes.length < q.nNodes ∧ s.fr ≠ [] then
      bestLoop fuel (q.bestRound s)
    else some s

def bestStart : BestState P where
  nodes :=
    [{ tok := q.head
       parent := -1
       depth := 0
       suffix := []
       clp := 0 }]
  fr := [(0, 0)]

/- _build_tree -/
def buildTree : Option (List (TreeNode Nat)) :=
  (q.bestLoop q.nNodes q.bestStart).map
    (fun s => s.nodes.map (·.toTreeNode))

end TreeRequest

end CircuitDllm

------------------------------------------------------------
-- By Depth, in Batches
------------------------------------------------------------

namespace CircuitDllm

variable {P : Type} [Add P] [LT P] [DecidableLT P]

/- A node to expand, with the slots of its ancestors. -/
structure BeamEntry (P : Type) where
  node : Nat
  anc : List Nat
  clp : P

/- A child that may join the tree. -/
structure Candidate (P : Type) where
  clp : P
  par : Nat
  parSlot : Nat
  parAnc : List Nat
  tok : Nat

/- The state of the loop; the KV is (token, position). -/
structure BeamState (P : Type) where
  nodes : List (TreeNode Nat)
  kv : List (Nat × Nat)
  frontier : List (BeamEntry P)
  depth : Nat

/- nodes[i]["tok"] -/
def tokAt (nodes : List (TreeNode Nat)) (i : Nat) : Nat :=
  match nodes[i]? with
  | some node => node.tok
  | none => 0

/-
  Every candidate joins the tree while there is room; the
  first `beam` of them keep expanding.
-/
def joinCandidates
    (nNodes beam depth : Nat) :
    List (Candidate P) →
      List (TreeNode Nat) × List (BeamEntry P) →
      List (TreeNode Nat) × List (BeamEntry P)
| [], s => s
| c :: nxt, (nodes, frontier) =>
    if nNodes ≤ nodes.length then (nodes, frontier)
    else
      joinCandidates nNodes beam depth nxt
        (nodes ++ [⟨c.tok, c.par, depth + 1⟩],
          if frontier.length < beam then
            frontier ++
              [⟨nodes.length, c.parAnc ++ [c.parSlot], c.clp⟩]
          else frontier)

namespace TreeRequest

variable (q : TreeRequest P)

/- base_ids and the head. -/
def context : List Nat := q.baseIds ++ [q.head]

/- sorted((value, 0, index), reverse=True) -/
def rootCandidates : List (P × Nat) :=
  (q.best q.context.zipIdx).mergeSort (fun a b =>
    ¬ (a.1 < b.1 ∨ (¬ b.1 < a.1 ∧ a.2 < b.2)))

/- The children of the root: `beam` of them at most. -/
def beamStart : BeamState P :=
  let cand := q.rootCandidates.take q.beam
  { nodes :=
      ⟨q.head, -1, 0⟩ :: cand.map (fun c => ⟨c.2, 0, 1⟩)
    kv := q.context.zipIdx
    frontier := (cand.zipIdx 1).map (fun c => ⟨c.2, [], c.1.1⟩)
    depth := 1 }

/- The mask row of the k-th entry: prefix, ancestors, self. -/
def attends
    (s : BeamState P)
    (k : Nat)
    (f : BeamEntry P)
    (slot : Nat) :
    Bool :=
  slot < q.context.length ∨ slot ∈ f.anc ∨
    slot = s.kv.length + k

/- The KV once the frontier is written. -/
def written (s : BeamState P) : List (Nat × Nat) :=
  s.kv ++
    s.frontier.map (fun f =>
      (tokAt s.nodes f.node, q.context.length - 1 + s.depth))

/- What the k-th row of the draft forward attends to. -/
def attended
    (s : BeamState P)
    (k : Nat)
    (f : BeamEntry P) :
    List (Nat × Nat) :=
  Select.keep
    ((List.range (q.written s).length).map (q.attends s k f))
    (q.written s)

/- The children of the frontier, best first. -/
def candidates (s : BeamState P) : List (Candidate P) :=
  (s.frontier.zipIdx.flatMap (fun (f, k) =>
    (q.best (q.attended s k f)).map (fun (value, tok) =>
      ⟨f.clp + value, f.node, s.kv.length + k, f.anc, tok⟩)))
    |>.mergeSort (fun a b => ¬ a.clp < b.clp)

/- One turn of the loop: one draft forward. -/
def beamRound (s : BeamState P) : BeamState P :=
  let (nodes, frontier) :=
    joinCandidates q.nNodes q.beam s.depth (q.candidates s)
      (s.nodes, [])
  { nodes := nodes
    kv := q.written s
    frontier := frontier
    depth := s.depth + 1 }

/- while frontier and len(nodes) < n_nodes and ... -/
def Goes (s : BeamState P) : Prop :=
  s.frontier ≠ [] ∧ s.nodes.length < q.nNodes ∧
    s.depth < q.maxDepth

instance (s : BeamState P) : Decidable (q.Goes s) := by
  unfold Goes
  infer_instance

def beamLoop : Nat → BeamState P → BeamState P
| 0, s => s
| fuel + 1, s =>
    if q.Goes s then beamLoop fuel (q.beamRound s) else s

/- _build_tree_batched; every turn goes one depth down. -/
def buildTreeBatched : List (TreeNode Nat) :=
  (q.beamLoop q.maxDepth q.beamStart).nodes

end TreeRequest

end CircuitDllm

------------------------------------------------------------
-- Well-Formed Trees
------------------------------------------------------------

namespace CircuitDllm

/- What stands at a place stays there when the list grows. -/
theorem getElem?_append_of_some
    {α : Type}
    {xs : List α}
    {i : Nat}
    {x : α}
    (hAt : xs[i]? = some x)
    (more : List α) :
    (xs ++ more)[i]? = some x := by
  rw [List.getElem?_append_left
    (List.getElem?_eq_some_iff.mp hAt).1]
  exact hAt

/-
  The head is node 0 and the only one without a parent; every
  other node comes after its parent, one level deeper, and
  not below `maxDepth`.
-/
structure TreeShape
    (head maxDepth : Nat)
    (nodes : List (TreeNode Nat)) :
    Prop where
  root : nodes[0]? = some ⟨head, -1, 0⟩
  child :
    ∀ i node, nodes[i + 1]? = some node →
      ∃ (p : Nat) (parent : TreeNode Nat),
        node.parent = (p : Int) ∧ p ≤ i ∧
          nodes[p]? = some parent ∧
          node.depth = parent.depth + 1 ∧
          node.depth ≤ maxDepth

namespace TreeShape

variable {head maxDepth : Nat} {nodes : List (TreeNode Nat)}

theorem single (head maxDepth : Nat) :
    TreeShape head maxDepth [⟨head, -1, 0⟩] where
  root := rfl
  child := by
    intro i node hNode
    simp at hNode

/- A node below one that is there. -/
theorem append
    (hShape : TreeShape head maxDepth nodes)
    {p : Nat}
    {parent : TreeNode Nat}
    (hParent : nodes[p]? = some parent)
    (hDepth : parent.depth < maxDepth)
    (tok : Nat) :
    TreeShape head maxDepth
      (nodes ++ [⟨tok, p, parent.depth + 1⟩]) where
  root := getElem?_append_of_some hShape.root _
  child := by
    have hLt : p < nodes.length :=
      (List.getElem?_eq_some_iff.mp hParent).1
    intro i node hNode
    rcases Nat.lt_or_ge (i + 1) nodes.length with hOld | hNew
    · rw [List.getElem?_append_left hOld] at hNode
      rcases hShape.child i node hNode with
        ⟨p', parent', hEq, hLe, hAt, hRest⟩
      exact ⟨p', parent', hEq, hLe,
        getElem?_append_of_some hAt _, hRest⟩
    · rw [List.getElem?_append_right hNew] at hNode
      rcases List.getElem?_eq_some_iff.mp hNode with
        ⟨hSmall, hEq⟩
      rw [List.length_singleton] at hSmall
      have hZero : i + 1 - nodes.length = 0 := by omega
      simp only [hZero, List.getElem_cons_zero] at hEq
      rw [← hEq]
      exact ⟨p, parent, rfl, by omega,
        getElem?_append_of_some hParent _, rfl, hDepth⟩

/- Every node has a depth up to the bound. -/
theorem depth_le
    (hShape : TreeShape head maxDepth nodes)
    {i : Nat}
    {node : TreeNode Nat}
    (hNode : nodes[i]? = some node) :
    node.depth ≤ maxDepth := by
  cases i with
  | zero =>
      rw [hShape.root] at hNode
      rw [← Option.some.inj hNode]
      exact Nat.zero_le _
  | succ i =>
      rcases hShape.child i node hNode with
        ⟨_, _, -, -, -, -, hLe⟩
      exact hLe

end TreeShape

end CircuitDllm

------------------------------------------------------------
-- The Best-First Tree
------------------------------------------------------------

namespace CircuitDllm

variable {P : Type} [Add P] [LT P] [DecidableLT P]

omit [Add P] in
/- What a pop takes and leaves. -/
theorem heapPop_some
    {fr rest : List (P × Nat)}
    {x : P × Nat}
    (hPop : heapPop fr = some (x, rest)) :
    fr.length = rest.length + 1 ∧ x ∈ fr ∧
      ∀ y ∈ rest, y ∈ fr := by
  induction fr generalizing x rest with
  | nil => cases hPop
  | cons e fr ih =>
      rw [heapPop] at hPop
      cases hInner : heapPop fr with
      | none =>
          rw [hInner] at hPop
          cases hPop
          cases fr with
          | nil => simp
          | cons e' fr =>
              rw [heapPop] at hInner
              split at hInner
              · cases hInner
              · split at hInner <;> cases hInner
      | some got =>
          rcases got with ⟨y, left⟩
          rcases ih hInner with ⟨hLength, hMem, hRest⟩
          rw [hInner] at hPop
          simp only at hPop
          split at hPop
          · cases hPop
            refine ⟨?_, List.mem_cons_of_mem _ hMem, ?_⟩
            · rw [List.length_cons, List.length_cons, hLength]
            · intro z hZ
              rcases List.mem_cons.mp hZ with rfl | hZ
              · exact List.mem_cons_self
              · exact List.mem_cons_of_mem _ (hRest z hZ)
          · cases hPop
            refine ⟨?_, List.mem_cons_self, ?_⟩
            · rw [List.length_cons, List.length_cons, hLength]
            · intro z hZ
              rcases List.mem_cons.mp hZ with rfl | hZ
              · exact List.mem_cons_of_mem _ hMem
              · exact List.mem_cons_of_mem _ (hRest z hZ)

omit [Add P] in
theorem heapPop_ne_none
    {fr : List (P × Nat)}
    (hSome : fr ≠ []) :
    heapPop fr ≠ none := by
  cases fr with
  | nil => exact absurd rfl hSome
  | cons e fr =>
      rw [heapPop]
      split
      · exact Option.some_ne_none _
      · split <;> exact Option.some_ne_none _

/- The nodes as generate_tree_stream reads them. -/
def BestState.tree (s : BestState P) : List (TreeNode Nat) :=
  s.nodes.map (·.toTreeNode)

/- The loop's invariant, after `popped` pops. -/
structure BestInv
    (head maxDepth nNodes popped : Nat)
    (s : BestState P) :
    Prop where
  shape : TreeShape head maxDepth s.tree
  length_le : s.nodes.length ≤ nNodes
  queued : ∀ e ∈ s.fr, e.2 < s.nodes.length
  count : popped + s.fr.length = s.nodes.length

omit [LT P] [DecidableLT P] in
/- Children of a node that is there keep the invariant. -/
theorem BestInv.grow
    {head maxDepth nNodes popped idx : Nat}
    {nd : BestNode P}
    (hDepth : nd.depth < maxDepth)
    (tb : List (P × Nat))
    {s : BestState P}
    (hInv : BestInv head maxDepth nNodes popped s)
    (hNode : s.nodes[idx]? = some nd) :
    BestInv head maxDepth nNodes popped
      (growChildren nNodes idx nd tb s) := by
  induction tb generalizing s with
  | nil => exact hInv
  | cons e tb ih =>
      rcases e with ⟨value, ct⟩
      rw [growChildren]
      split
      · exact hInv
      · rename_i hRoom
        have hAt : s.tree[idx]? = some nd.toTreeNode := by
          rw [BestState.tree, List.getElem?_map, hNode]
          rfl
        have hLt := (List.getElem?_eq_some_iff.mp hNode).1
        apply ih
        · refine ⟨?_, ?_, ?_, ?_⟩
          · have hShape := hInv.shape.append hAt hDepth ct
            simpa [BestState.tree] using hShape
          · simp only [List.length_append,
              List.length_singleton]
            omega
          · intro e hE
            simp only [List.length_append,
              List.length_singleton]
            rcases List.mem_cons.mp hE with rfl | hOld
            · exact Nat.lt_succ_self _
            · have hQueued := hInv.queued e hOld
              omega
          · have hCount := hInv.count
            simp only [List.length_append, List.length_cons,
              List.length_nil]
            omega
        · rw [List.getElem?_append_left hLt]
          exact hNode

theorem bestRound_inv
    (q : TreeRequest P)
    {popped : Nat}
    {s : BestState P}
    (hInv : BestInv q.head q.maxDepth q.nNodes popped s)
    (hSome : s.fr ≠ []) :
    BestInv q.head q.maxDepth q.nNodes (popped + 1)
      (q.bestRound s) := by
  unfold TreeRequest.bestRound
  cases hPop : heapPop s.fr with
  | none => exact absurd hPop (heapPop_ne_none hSome)
  | some got =>
      rcases got with ⟨⟨clp, idx⟩, fr⟩
      rcases heapPop_some hPop with ⟨hLength, hMem, hRest⟩
      have hPopped :
          BestInv q.head q.maxDepth q.nNodes (popped + 1)
            { s with fr := fr } := by
        refine ⟨hInv.shape, hInv.length_le, ?_, ?_⟩
        · intro e hE
          exact hInv.queued e (hRest e hE)
        · have hCount := hInv.count
          simp only
          omega
      have hLt : idx < s.nodes.length := hInv.queued _ hMem
      simp only [List.getElem?_eq_getElem hLt]
      split
      · exact hPopped
      · rename_i hDepth
        apply hPopped.grow (Nat.lt_of_not_le hDepth)
        exact List.getElem?_eq_getElem hLt

/- As many turns as nodes are enough. -/
theorem bestLoop_returns
    (q : TreeRequest P)
    {popped fuel : Nat}
    {s : BestState P}
    (hInv : BestInv q.head q.maxDepth q.nNodes popped s)
    (hFuel : q.nNodes ≤ popped + fuel) :
    ∃ s' popped', q.bestLoop fuel s = some s' ∧
      BestInv q.head q.maxDepth q.nNodes popped' s' := by
  induction fuel generalizing popped s with
  | zero =>
      refine ⟨s, popped, ?_, hInv⟩
      rw [TreeRequest.bestLoop, if_neg]
      rintro ⟨hRoom, -⟩
      have hCount := hInv.count
      omega
  | succ fuel ih =>
      rw [TreeRequest.bestLoop]
      split
      · rename_i hGoes
        exact ih (bestRound_inv q hInv hGoes.2) (by omega)
      · exact ⟨s, popped, rfl, hInv⟩

variable [Zero P]

/- The best-first builder keeps every promise. -/
theorem buildTree_shape (q : TreeRequest P) :
    ∃ nodes, q.buildTree = some nodes ∧
      TreeShape q.head q.maxDepth nodes ∧
      nodes.length ≤ q.nNodes := by
  have hStart :
      BestInv q.head q.maxDepth q.nNodes 0 q.bestStart := by
    refine ⟨TreeShape.single _ _, q.one_le_nNodes, ?_, rfl⟩
    intro e hE
    rw [List.mem_singleton.mp hE]
    exact Nat.one_pos
  have hFuel : q.nNodes ≤ 0 + q.nNodes := by omega
  rcases bestLoop_returns q hStart hFuel with
    ⟨s, popped, hLoop, hInv⟩
  refine ⟨s.tree, ?_, hInv.shape, ?_⟩
  · rw [TreeRequest.buildTree, hLoop]
    rfl
  · rw [BestState.tree, List.length_map]
    exact hInv.length_le

end CircuitDllm

------------------------------------------------------------
-- The Beam
------------------------------------------------------------

namespace CircuitDllm

/- The token of a node and its position in the draft. -/
def nodeEntry
    (contextLen : Nat)
    (nodes : List (TreeNode Nat))
    (i : Nat) :
    Nat × Nat :=
  match nodes[i]? with
  | some node => (node.tok, contextLen - 1 + node.depth)
  | none => (0, 0)

/-
  `owners` lists the nodes whose tokens were written after
  the context, slot by slot.
-/
def WrittenAt
    (contextLen : Nat)
    (owners : List Nat)
    (slot i : Nat) :
    Prop :=
  contextLen ≤ slot ∧ owners[slot - contextLen]? = some i

/- The parent pointers of a node list. -/
def parentsOf (nodes : List (TreeNode Nat)) : List Int :=
  nodes.map (·.parent)

/- Chains do not change when nodes are added. -/
theorem Chain.append
    {parents : List Int}
    {i : Nat}
    {chain : List Nat}
    (hChain : Chain parents i chain)
    (more : List Int) :
    Chain (parents ++ more) i chain := by
  induction hChain with
  | root hRoot =>
      apply Chain.root
      exact getElem?_append_of_some hRoot more
  | step hParent _ ih =>
      refine Chain.step ?_ ih
      exact getElem?_append_of_some hParent more

theorem WrittenAt.append
    {contextLen slot i : Nat}
    {owners : List Nat}
    (hWritten : WrittenAt contextLen owners slot i)
    (more : List Nat) :
    WrittenAt contextLen (owners ++ more) slot i :=
  ⟨hWritten.1, getElem?_append_of_some hWritten.2 more⟩

/- A node is written to one slot. -/
theorem WrittenAt.inj
    {contextLen slot slot' i : Nat}
    {owners : List Nat}
    (hNodup : owners.Nodup)
    (hLeft : WrittenAt contextLen owners slot i)
    (hRight : WrittenAt contextLen owners slot' i) :
    slot = slot' := by
  rcases List.getElem?_eq_some_iff.mp hLeft.2 with
    ⟨hLt, hAt⟩
  rcases List.getElem?_eq_some_iff.mp hRight.2 with
    ⟨hLt', hAt'⟩
  have hSame :=
    (List.Nodup.getElem_inj_iff hNodup).mp
      (hAt.trans hAt'.symm)
  have hLow := hLeft.1
  have hLow' := hRight.1
  omega

/- The slots are exactly those the path was written to. -/
theorem mem_slots_iff
    {contextLen : Nat}
    {owners slots path : List Nat}
    (hNodup : owners.Nodup)
    (hSlots :
      List.Forall₂ (WrittenAt contextLen owners) slots path)
    (slot : Nat) :
    slot ∈ slots ↔
      ∃ i ∈ path, WrittenAt contextLen owners slot i := by
  induction hSlots with
  | nil => simp
  | cons hWritten _ ih =>
      rw [List.mem_cons, List.exists_mem_cons_iff, ih]
      refine or_congr ⟨?_, ?_⟩ Iff.rfl
      · rintro rfl
        exact hWritten
      · intro hOther
        exact hOther.inj hNodup hWritten

theorem WrittenAt.bounds
    {contextLen slot i : Nat}
    {owners : List Nat}
    (hWritten : WrittenAt contextLen owners slot i) :
    contextLen ≤ slot ∧ slot < contextLen + owners.length := by
  have hLow := hWritten.1
  have hBound := (List.getElem?_eq_some_iff.mp hWritten.2).1
  omega

variable {P : Type} [Add P] [LT P] [DecidableLT P]

/-
  The slots of an entry are those of the nodes between the
  root and the entry's own node, in order.
-/
structure EntryOk
    (contextLen depth : Nat)
    (nodes : List (TreeNode Nat))
    (owners : List Nat)
    (f : BeamEntry P) :
    Prop where
  path :
    ∃ node between,
      nodes[f.node]? = some node ∧ node.depth = depth ∧
        Chain (parentsOf nodes) f.node
          (0 :: (between ++ [f.node])) ∧
        List.Forall₂ (WrittenAt contextLen owners) f.anc
          between
  increasing : f.anc.Pairwise (· < ·)

/- The loop's invariant. -/
structure BeamInv
    (q : TreeRequest P)
    (s : BeamState P)
    (owners : List Nat) :
    Prop where
  shape : TreeShape q.head q.maxDepth s.nodes
  depth_pos : 1 ≤ s.depth
  depth_le : s.depth ≤ q.maxDepth
  kv :
    s.kv =
      q.context.zipIdx ++
        owners.map (nodeEntry q.context.length s.nodes)
  owners_depth :
    ∀ i ∈ owners, ∃ node,
      s.nodes[i]? = some node ∧ node.depth < s.depth
  owners_nodup : owners.Nodup
  frontier_nodup : (s.frontier.map (·.node)).Nodup
  frontier :
    ∀ f ∈ s.frontier,
      EntryOk q.context.length s.depth s.nodes owners f

/- The states of the loop, and the nodes written so far. -/
inductive BeamRun (q : TreeRequest P) :
    BeamState P → List Nat → Prop where
| start : BeamRun q q.beamStart []
| round {s owners} :
    BeamRun q s owners → q.Goes s →
      BeamRun q (q.beamRound s)
        (owners ++ s.frontier.map (·.node))

omit [Add P] in
/- The root's children. -/
theorem beamStart_inv (q : TreeRequest P) :
    BeamInv q q.beamStart [] := by
  generalize hCand : q.rootCandidates.take q.beam = cand
  have hStart :
      q.beamStart =
        { nodes :=
            ⟨q.head, -1, 0⟩ :: cand.map (fun c => ⟨c.2, 0, 1⟩)
          kv := q.context.zipIdx
          frontier :=
            (cand.zipIdx 1).map (fun c => ⟨c.2, [], c.1.1⟩)
          depth := 1 } := by
    rw [TreeRequest.beamStart, hCand]
  rw [hStart]
  refine ⟨⟨rfl, ?_⟩, Nat.le_refl 1, q.one_le_maxDepth, ?_, ?_,
    List.nodup_nil, ?_, ?_⟩
  · intro i node hNode
    rw [List.getElem?_cons_succ, List.getElem?_map] at hNode
    rcases Option.map_eq_some_iff.mp hNode with ⟨c, -, rfl⟩
    exact
      ⟨0, _, rfl, Nat.zero_le _, rfl, rfl, q.one_le_maxDepth⟩
  · simp
  · simp
  · have hNodes :
        ((cand.zipIdx 1).map (fun c =>
            (⟨c.2, [], c.1.1⟩ : BeamEntry P))).map (·.node) =
          List.range' 1 cand.length := by
      rw [List.map_map, ← List.zipIdx_map_snd]
      rfl
    rw [hNodes]
    exact List.nodup_range'
  · intro f hF
    rcases List.mem_map.mp hF with ⟨⟨c, i⟩, hMem, rfl⟩
    rcases List.mem_zipIdx hMem with ⟨hLow, hHigh, hC⟩
    have hNode :
        ((⟨q.head, -1, 0⟩ ::
            cand.map (fun c => ⟨c.2, 0, 1⟩) :
              List (TreeNode Nat)))[i]? =
          some ⟨c.2, 0, 1⟩ := by
      obtain ⟨j, rfl⟩ : ∃ j, i = j + 1 := ⟨i - 1, by omega⟩
      rw [List.getElem?_cons_succ, List.getElem?_map,
        List.getElem?_eq_getElem (by omega), hC]
      rfl
    refine ⟨⟨_, [], hNode, rfl, ?_, List.Forall₂.nil⟩,
      List.Pairwise.nil⟩
    have hParent :
        (parentsOf
            (⟨q.head, -1, 0⟩ ::
              cand.map (fun c => ⟨c.2, 0, 1⟩)))[i]? =
          some ((0 : Nat) : Int) := by
      rw [parentsOf, List.getElem?_map, hNode]
      rfl
    exact Chain.step hParent (Chain.root rfl)

/- What a candidate carries of the entry it comes from. -/
def OfEntry (s : BeamState P) (c : Candidate P) : Prop :=
  ∃ k f, s.frontier[k]? = some f ∧ c.par = f.node ∧
    c.parSlot = s.kv.length + k ∧ c.parAnc = f.anc

theorem ofEntry_of_mem
    {q : TreeRequest P}
    {s : BeamState P}
    {c : Candidate P}
    (hMem : c ∈ q.candidates s) :
    OfEntry s c := by
  rw [TreeRequest.candidates, List.mem_mergeSort] at hMem
  rcases List.mem_flatMap.mp hMem with ⟨⟨f, k⟩, hF, hC⟩
  rcases List.mem_map.mp hC with ⟨⟨value, tok⟩, -, rfl⟩
  have hAt := List.mem_zipIdx_iff_getElem?.mp hF
  exact ⟨k, f, hAt, rfl, rfl, rfl⟩

/- The tree and the next frontier while candidates join. -/
structure JoinInv
    (q : TreeRequest P)
    (s : BeamState P)
    (nodes : List (TreeNode Nat))
    (frontier : List (BeamEntry P)) :
    Prop where
  grown : ∃ more, nodes = s.nodes ++ more
  shape : TreeShape q.head q.maxDepth nodes
  length_le : nodes.length ≤ q.nNodes
  entries :
    ∀ e ∈ frontier, ∃ tok k f,
      s.frontier[k]? = some f ∧
        nodes[e.node]? = some ⟨tok, f.node, s.depth + 1⟩ ∧
        e.anc = f.anc ++ [s.kv.length + k]
  increasing : (frontier.map (·.node)).Pairwise (· < ·)

omit [Add P] [LT P] [DecidableLT P] in
theorem JoinInv.node_lt
    {q : TreeRequest P}
    {s : BeamState P}
    {nodes : List (TreeNode Nat)}
    {frontier : List (BeamEntry P)}
    (hJoin : JoinInv q s nodes frontier)
    {i : Nat}
    (hMem : i ∈ frontier.map (·.node)) :
    i < nodes.length := by
  rcases List.mem_map.mp hMem with ⟨e, hE, rfl⟩
  rcases hJoin.entries e hE with ⟨_, _, _, -, hAt, -⟩
  exact (List.getElem?_eq_some_iff.mp hAt).1

omit [Add P] [LT P] [DecidableLT P] in
/- One candidate more. -/
theorem JoinInv.add
    {q : TreeRequest P}
    {s : BeamState P}
    {nodes : List (TreeNode Nat)}
    {frontier : List (BeamEntry P)}
    (hJoin : JoinInv q s nodes frontier)
    (hRoom : nodes.length < q.nNodes)
    {c : Candidate P}
    (hC : OfEntry s c)
    {parent : TreeNode Nat}
    (hParent : s.nodes[c.par]? = some parent)
    (hDepth : parent.depth = s.depth)
    (hMax : s.depth < q.maxDepth) :
    JoinInv q s (nodes ++ [⟨c.tok, c.par, s.depth + 1⟩])
      (if frontier.length < q.beam then
        frontier ++
          [⟨nodes.length, c.parAnc ++ [c.parSlot], c.clp⟩]
      else frontier) := by
  rcases hC with ⟨k, f, hF, hPar, hSlot, hAnc⟩
  rcases hJoin.grown with ⟨more, hMore⟩
  have hOld : nodes[c.par]? = some parent := by
    rw [hMore]
    exact getElem?_append_of_some hParent more
  have hKept : ∀ e ∈ frontier, ∃ tok k f,
      s.frontier[k]? = some f ∧
        (nodes ++ [⟨c.tok, c.par, s.depth + 1⟩])[e.node]? =
          some ⟨tok, f.node, s.depth + 1⟩ ∧
        e.anc = f.anc ++ [s.kv.length + k] := by
    intro e hE
    rcases hJoin.entries e hE with
      ⟨tok, k', f', hF', hAt, hAnc'⟩
    exact ⟨tok, k', f', hF', getElem?_append_of_some hAt _,
      hAnc'⟩
  have hShape :
      TreeShape q.head q.maxDepth
        (nodes ++ [⟨c.tok, c.par, s.depth + 1⟩]) := by
    rw [← hDepth] at hMax ⊢
    exact hJoin.shape.append hOld hMax c.tok
  refine ⟨?_, hShape, ?_, ?_, ?_⟩
  · rw [hMore, List.append_assoc]
    exact ⟨_, rfl⟩
  · rw [List.length_append, List.length_singleton]
    exact hRoom
  · split
    · intro e hE
      rcases List.mem_append.mp hE with hE | hE
      · exact hKept e hE
      · rw [List.mem_singleton.mp hE]
        refine ⟨c.tok, k, f, hF, ?_, ?_⟩
        · simp only [List.getElem?_concat_length, hPar]
        · simp only [hAnc, hSlot]
    · exact hKept
  · split
    · rw [List.map_append, List.pairwise_append]
      refine ⟨hJoin.increasing, List.pairwise_singleton _ _, ?_⟩
      intro i hI j hJ
      rw [List.mem_singleton.mp hJ]
      exact hJoin.node_lt hI
    · exact hJoin.increasing

omit [Add P] [LT P] [DecidableLT P] in
/- All of them, as long as there is room. -/
theorem JoinInv.join
    {q : TreeRequest P}
    {s : BeamState P}
    {owners : List Nat}
    (hInv : BeamInv q s owners)
    (hMax : s.depth < q.maxDepth)
    {nxt : List (Candidate P)}
    (hNxt : ∀ c ∈ nxt, OfEntry s c)
    {nodes : List (TreeNode Nat)}
    {frontier : List (BeamEntry P)}
    (hJoin : JoinInv q s nodes frontier) :
    JoinInv q s
      (joinCandidates q.nNodes q.beam s.depth nxt
        (nodes, frontier)).1
      (joinCandidates q.nNodes q.beam s.depth nxt
        (nodes, frontier)).2 := by
  induction nxt generalizing nodes frontier with
  | nil => exact hJoin
  | cons c nxt ih =>
      rcases List.forall_mem_cons.mp hNxt with ⟨hC, hRest⟩
      rw [joinCandidates]
      split
      · exact hJoin
      · rename_i hRoom
        have hOf := hC
        rcases hC with ⟨k, f, hF, hPar, -, -⟩
        have hMem := List.mem_of_getElem? hF
        rcases (hInv.frontier f hMem).path with
          ⟨node, _, hNode, hDepth, -, -⟩
        rw [← hPar] at hNode
        apply ih hRest
        exact
          hJoin.add (Nat.lt_of_not_le hRoom) hOf hNode hDepth
            hMax

theorem beamRound_join
    {q : TreeRequest P}
    {s : BeamState P}
    {owners : List Nat}
    (hInv : BeamInv q s owners)
    (hGoes : q.Goes s) :
    JoinInv q s (q.beamRound s).nodes (q.beamRound s).frontier := by
  have hStart : JoinInv q s s.nodes [] := by
    refine ⟨⟨[], (List.append_nil _).symm⟩, hInv.shape,
      Nat.le_of_lt hGoes.2.1, ?_, List.Pairwise.nil⟩
    intro e hE
    cases hE
  exact
    hStart.join hInv hGoes.2.2
      (fun c hC => ofEntry_of_mem hC)

omit [Add P] [LT P] [DecidableLT P] in
/- The length of the KV names the next slot. -/
theorem BeamInv.length_kv
    {q : TreeRequest P}
    {s : BeamState P}
    {owners : List Nat}
    (hInv : BeamInv q s owners) :
    s.kv.length = q.context.length + owners.length := by
  rw [hInv.kv, List.length_append, List.length_zipIdx,
    List.length_map]

omit [Add P] [LT P] [DecidableLT P] in
/- The k-th entry of the frontier is written next. -/
theorem BeamInv.writtenAt
    {q : TreeRequest P}
    {s : BeamState P}
    {owners : List Nat}
    (hInv : BeamInv q s owners)
    {k : Nat}
    {f : BeamEntry P}
    (hF : s.frontier[k]? = some f) :
    WrittenAt q.context.length
      (owners ++ s.frontier.map (·.node))
      (s.kv.length + k) f.node := by
  have hSlot :
      s.kv.length + k - q.context.length =
        owners.length + k := by
    rw [hInv.length_kv]
    omega
  refine ⟨?_, ?_⟩
  · rw [hInv.length_kv]
    omega
  · rw [hSlot, List.getElem?_append_right (by omega),
      Nat.add_sub_cancel_left, List.getElem?_map, hF]
    rfl

/- The entry of a node does not change when nodes are added. -/
theorem nodeEntry_append
    {contextLen i : Nat}
    {nodes : List (TreeNode Nat)}
    {node : TreeNode Nat}
    (hNode : nodes[i]? = some node)
    (more : List (TreeNode Nat)) :
    nodeEntry contextLen (nodes ++ more) i =
      nodeEntry contextLen nodes i := by
  rw [nodeEntry, nodeEntry, hNode,
    getElem?_append_of_some hNode more]

omit [Add P] [LT P] [DecidableLT P] in
/- What a forward writes. -/
theorem BeamInv.written
    {q : TreeRequest P}
    {s : BeamState P}
    {owners : List Nat}
    (hInv : BeamInv q s owners) :
    q.written s =
      q.context.zipIdx ++
        (owners ++ s.frontier.map (·.node)).map
          (nodeEntry q.context.length s.nodes) := by
  rw [TreeRequest.written, hInv.kv, List.map_append,
    List.append_assoc, List.map_map]
  congr 2
  apply List.map_congr_left
  intro f hF
  rcases (hInv.frontier f hF).path with
    ⟨node, _, hNode, hDepth, -, -⟩
  simp only [Function.comp_apply, tokAt, nodeEntry, hNode,
    hDepth]

omit [Add P] [LT P] [DecidableLT P] in
/- The slot an entry is written to comes after its others. -/
theorem BeamInv.slots_increasing
    {q : TreeRequest P}
    {s : BeamState P}
    {owners : List Nat}
    (hInv : BeamInv q s owners)
    {k : Nat}
    {f : BeamEntry P}
    (hF : s.frontier[k]? = some f) :
    (f.anc ++ [s.kv.length + k]).Pairwise (· < ·) := by
  have hEntry := hInv.frontier f (List.mem_of_getElem? hF)
  rcases hEntry.path with ⟨_, between, -, -, -, hSlots⟩
  rw [List.pairwise_append]
  refine ⟨hEntry.increasing, List.pairwise_singleton _ _, ?_⟩
  intro slot hSlot last hLast
  rw [List.mem_singleton.mp hLast, hInv.length_kv]
  rcases (mem_slots_iff hInv.owners_nodup hSlots slot).mp
      hSlot with ⟨i, -, hWritten⟩
  have hBound := hWritten.bounds.2
  omega

omit [Add P] [LT P] [DecidableLT P] in
/- An entry that joined is one level below its parent's. -/
theorem BeamInv.entry
    {q : TreeRequest P}
    {s : BeamState P}
    {owners : List Nat}
    (hInv : BeamInv q s owners)
    {nodes : List (TreeNode Nat)}
    {frontier : List (BeamEntry P)}
    (hJoin : JoinInv q s nodes frontier)
    {e : BeamEntry P}
    (hE : e ∈ frontier) :
    EntryOk q.context.length (s.depth + 1) nodes
      (owners ++ s.frontier.map (·.node)) e := by
  rcases hJoin.entries e hE with ⟨tok, k, f, hF, hAt, hAnc⟩
  rcases hJoin.grown with ⟨more, hMore⟩
  have hEntry := hInv.frontier f (List.mem_of_getElem? hF)
  rcases hEntry.path with
    ⟨node, between, -, -, hChain, hSlots⟩
  have hSelf := hInv.writtenAt hF
  refine ⟨⟨_, between ++ [f.node], hAt, rfl, ?_, ?_⟩, ?_⟩
  · have hParent :
        (parentsOf nodes)[e.node]? =
          some ((f.node : Nat) : Int) := by
      rw [parentsOf, List.getElem?_map, hAt]
      rfl
    have hGrown :
        Chain (parentsOf nodes) f.node
          (0 :: (between ++ [f.node])) := by
      rw [hMore, parentsOf, List.map_append]
      exact hChain.append _
    exact Chain.step hParent hGrown
  · rw [hAnc]
    apply List.rel_append
    · exact hSlots.imp (fun _ _ hWritten => hWritten.append _)
    · exact List.Forall₂.cons hSelf List.Forall₂.nil
  · rw [hAnc]
    exact hInv.slots_increasing hF

theorem BeamInv.round
    {q : TreeRequest P}
    {s : BeamState P}
    {owners : List Nat}
    (hInv : BeamInv q s owners)
    (hGoes : q.Goes s) :
    BeamInv q (q.beamRound s)
      (owners ++ s.frontier.map (·.node)) := by
  have hJoin := beamRound_join hInv hGoes
  rcases hJoin.grown with ⟨more, hMore⟩
  have hDepth : (q.beamRound s).depth = s.depth + 1 := rfl
  have hOwners : ∀ i ∈ owners ++ s.frontier.map (·.node),
      ∃ node, s.nodes[i]? = some node ∧
        node.depth < s.depth + 1 := by
    intro i hI
    rcases List.mem_append.mp hI with hOld | hNew
    · rcases hInv.owners_depth i hOld with ⟨node, hAt, hLt⟩
      exact ⟨node, hAt, Nat.lt_succ_of_lt hLt⟩
    · rcases List.mem_map.mp hNew with ⟨f, hF, rfl⟩
      rcases (hInv.frontier f hF).path with
        ⟨node, _, hAt, hEq, -, -⟩
      exact ⟨node, hAt, hEq ▸ Nat.lt_succ_self _⟩
  refine ⟨hJoin.shape, ?_, ?_, ?_, ?_, ?_, ?_, ?_⟩
  · rw [hDepth]
    omega
  · rw [hDepth]
    exact hGoes.2.2
  · have hWritten : (q.beamRound s).kv = q.written s := rfl
    rw [hWritten, hInv.written]
    congr 1
    apply List.map_congr_left
    intro i hI
    rcases hOwners i hI with ⟨node, hAt, -⟩
    rw [hMore, nodeEntry_append hAt]
  · intro i hI
    rcases hOwners i hI with ⟨node, hAt, hLt⟩
    refine ⟨node, ?_, hLt⟩
    rw [hMore]
    exact getElem?_append_of_some hAt _
  · rw [List.nodup_append]
    refine ⟨hInv.owners_nodup, hInv.frontier_nodup, ?_⟩
    rintro i hOld j hNew rfl
    rcases hInv.owners_depth i hOld with ⟨node, hAt, hLt⟩
    rcases List.mem_map.mp hNew with ⟨f, hF, hEq⟩
    rcases (hInv.frontier f hF).path with
      ⟨node', _, hAt', hSame, -, -⟩
    rw [hEq, hAt] at hAt'
    cases hAt'
    omega
  · exact hJoin.increasing.imp Nat.ne_of_lt
  · intro e hE
    exact hInv.entry hJoin hE

theorem BeamRun.inv
    {q : TreeRequest P}
    {s : BeamState P}
    {owners : List Nat}
    (hRun : BeamRun q s owners) :
    BeamInv q s owners := by
  induction hRun with
  | start => exact beamStart_inv q
  | round _ hGoes ih => exact ih.round hGoes

/- The builder's tree is the one of a state of the loop. -/
theorem beamLoop_run
    {q : TreeRequest P}
    {fuel : Nat}
    {s : BeamState P}
    {owners : List Nat}
    (hRun : BeamRun q s owners)
    (hFuel : q.maxDepth ≤ s.depth + fuel) :
    ∃ owners', BeamRun q (q.beamLoop fuel s) owners' ∧
      ¬ q.Goes (q.beamLoop fuel s) := by
  induction fuel generalizing s owners with
  | zero =>
      refine ⟨owners, hRun, ?_⟩
      rintro ⟨-, -, hDepth⟩
      rw [TreeRequest.beamLoop] at hDepth
      omega
  | succ fuel ih =>
      rw [TreeRequest.beamLoop]
      split
      · rename_i hGoes
        apply ih (hRun.round hGoes)
        have hDepth : (q.beamRound s).depth = s.depth + 1 := rfl
        omega
      · rename_i hDone
        exact ⟨owners, hRun, hDone⟩

theorem buildTreeBatched_run (q : TreeRequest P) :
    ∃ s owners, BeamRun q s owners ∧ ¬ q.Goes s ∧
      q.buildTreeBatched = s.nodes := by
  rcases beamLoop_run (BeamRun.start (q := q))
      (Nat.le_add_left q.maxDepth 1) with
    ⟨owners, hRun, hDone⟩
  exact ⟨_, owners, hRun, hDone, rfl⟩

end CircuitDllm

------------------------------------------------------------
-- What a Forward Attends To
------------------------------------------------------------

namespace CircuitDllm

variable {P : Type} [Add P] [LT P] [DecidableLT P]

/-
  In the draft forward of a state, the k-th entry has the
  slots of its proper ancestors below the root, and its row
  attends to the context, to them and to itself.
-/
def AttendsPath
    (q : TreeRequest P)
    (s : BeamState P)
    (owners : List Nat)
    (k : Nat)
    (f : BeamEntry P) :
    Prop :=
  ∃ between,
    Chain (parentsOf s.nodes) f.node
        (0 :: (between ++ [f.node])) ∧
      (∀ slot, slot ∈ f.anc ↔
        ∃ i ∈ between,
          WrittenAt q.context.length owners slot i) ∧
      (∀ slot, q.attends s k f slot = true ↔
        slot < q.context.length ∨
          ∃ i ∈ between ++ [f.node],
            WrittenAt q.context.length
              (owners ++ s.frontier.map (·.node)) slot i) ∧
      q.attended s k f =
        q.context.zipIdx ++
          (between ++ [f.node]).map
            (nodeEntry q.context.length s.nodes)

/- The slots of a path hold the entries of its nodes. -/
theorem pick_written
    {contextLen : Nat}
    {owners slots path : List Nat}
    {held : List (Nat × Nat)}
    (hHeld : held.length = contextLen)
    (entry : Nat → Nat × Nat)
    (hSlots :
      List.Forall₂ (WrittenAt contextLen owners) slots path) :
    Select.pick (held ++ owners.map entry) slots =
      some (path.map entry) := by
  induction hSlots with
  | nil => rfl
  | cons hWritten _ ih =>
      apply Select.pick_cons ?_ ih
      rw [List.getElem?_append_right (hHeld ▸ hWritten.1), hHeld,
        List.getElem?_map, hWritten.2]
      rfl

omit [Add P] [LT P] [DecidableLT P] in
theorem attends_iff
    (q : TreeRequest P)
    (s : BeamState P)
    (k : Nat)
    (f : BeamEntry P)
    (slot : Nat) :
    q.attends s k f slot = true ↔
      slot < q.context.length ∨
        slot ∈ f.anc ++ [s.kv.length + k] := by
  simp [TreeRequest.attends]

omit [Add P] [LT P] [DecidableLT P] in
/- The slots a row attends to, in increasing order. -/
theorem attends_flags
    (q : TreeRequest P)
    (s : BeamState P)
    (k : Nat)
    (f : BeamEntry P) :
    (List.range (q.written s).length).map (q.attends s k f) =
      (List.range (q.written s).length).map (fun i =>
        decide (i ∈ List.range q.context.length ++
          (f.anc ++ [s.kv.length + k]))) := by
  apply List.map_congr_left
  intro slot _
  apply Bool.eq_iff_iff.mpr
  rw [decide_eq_true_eq]
  simp only [attends_iff, List.mem_append, List.mem_range]

omit [Add P] [LT P] [DecidableLT P] in
/- A row sees the context and what its path was written to. -/
theorem BeamInv.attended_eq
    {q : TreeRequest P}
    {s : BeamState P}
    {owners : List Nat}
    (hInv : BeamInv q s owners)
    (hNodup : (owners ++ s.frontier.map (·.node)).Nodup)
    {k : Nat}
    {f : BeamEntry P}
    (hF : s.frontier[k]? = some f)
    {path : List Nat}
    (hPath :
      List.Forall₂
        (WrittenAt q.context.length
          (owners ++ s.frontier.map (·.node)))
        (f.anc ++ [s.kv.length + k]) path) :
    q.attended s k f =
      q.context.zipIdx ++
        path.map (nodeEntry q.context.length s.nodes) := by
  have hPick :
      Select.pick (q.written s)
          (List.range q.context.length ++
            (f.anc ++ [s.kv.length + k])) =
        some
          (q.context.zipIdx ++
            path.map (nodeEntry q.context.length s.nodes)) := by
    rw [hInv.written]
    apply Select.pick_append
    · have hPrefix := Select.pick_prefix q.context.zipIdx
        ((owners ++ s.frontier.map (·.node)).map
          (nodeEntry q.context.length s.nodes))
      rw [List.length_zipIdx] at hPrefix
      exact hPrefix
    · exact pick_written List.length_zipIdx _ hPath
  have hBounds : ∀ slot ∈ f.anc ++ [s.kv.length + k],
      q.context.length ≤ slot ∧
        slot < (q.written s).length := by
    intro slot hSlot
    rcases (mem_slots_iff hNodup hPath slot).mp hSlot with
      ⟨i, -, hWritten⟩
    rw [hInv.written, List.length_append,
      List.length_zipIdx, List.length_map]
    exact hWritten.bounds
  have hSorted :
      (List.range q.context.length ++
        (f.anc ++ [s.kv.length + k])).Pairwise (· < ·) := by
    rw [List.pairwise_append]
    refine ⟨List.pairwise_lt_range, ?_, ?_⟩
    · exact hInv.slots_increasing hF
    · intro i hI slot hSlot
      have hLow := (hBounds slot hSlot).1
      have hHigh := List.mem_range.mp hI
      omega
  have hKept :=
    Select.keep_flags (q.written s) _ hSorted (by
      intro slot hSlot
      rcases List.mem_append.mp hSlot with hOld | hNew
      · have hHigh := List.mem_range.mp hOld
        rw [hInv.written, List.length_append,
          List.length_zipIdx]
        omega
      · exact (hBounds slot hNew).2)
  rw [hPick] at hKept
  rw [TreeRequest.attended, attends_flags]
  exact (Option.some.inj hKept).symm

omit [Add P] [LT P] [DecidableLT P] in
/- The rows of a draft forward. -/
theorem BeamInv.attendsPath
    {q : TreeRequest P}
    {s : BeamState P}
    {owners : List Nat}
    (hInv : BeamInv q s owners)
    (hNodup : (owners ++ s.frontier.map (·.node)).Nodup)
    {k : Nat}
    {f : BeamEntry P}
    (hF : s.frontier[k]? = some f) :
    AttendsPath q s owners k f := by
  have hEntry := hInv.frontier f (List.mem_of_getElem? hF)
  rcases hEntry.path with
    ⟨node, between, -, -, hChain, hSlots⟩
  have hSelf := hInv.writtenAt hF
  -- the slots of the path, in the KV after the write
  have hPath :
      List.Forall₂
        (WrittenAt q.context.length
          (owners ++ s.frontier.map (·.node)))
        (f.anc ++ [s.kv.length + k]) (between ++ [f.node]) := by
    apply List.rel_append
    · exact hSlots.imp (fun _ _ hWritten => hWritten.append _)
    · exact List.Forall₂.cons hSelf List.Forall₂.nil
  refine ⟨between, hChain,
    mem_slots_iff hInv.owners_nodup hSlots, ?_,
    hInv.attended_eq hNodup hF hPath⟩
  intro slot
  rw [attends_iff, mem_slots_iff hNodup hPath]

end CircuitDllm

------------------------------------------------------------
-- The Contract
------------------------------------------------------------

namespace CircuitDllm

variable {P : Type} [Add P] [LT P] [DecidableLT P]

omit [Add P] in
/- The root and all of its children that are kept. -/
theorem length_beamStart (q : TreeRequest P) :
    q.beamStart.nodes.length = 1 + min q.branch q.beam := by
  simp only [TreeRequest.beamStart, List.length_cons,
    List.length_map, List.length_take,
    TreeRequest.rootCandidates, List.length_mergeSort,
    q.length_best]
  omega

/- Nothing is taken off the tree. -/
theorem BeamRun.length_ge
    {q : TreeRequest P}
    {s : BeamState P}
    {owners : List Nat}
    (hRun : BeamRun q s owners) :
    1 + min q.branch q.beam ≤ s.nodes.length := by
  induction hRun with
  | start => exact Nat.le_of_eq (length_beamStart q).symm
  | round hRun hGoes ih =>
      rcases (beamRound_join hRun.inv hGoes).grown with
        ⟨more, hMore⟩
      rw [hMore, List.length_append]
      exact Nat.le_add_right_of_le ih

/- A round stays within the bound. -/
theorem BeamRun.length_le
    {q : TreeRequest P}
    (hRoom : 1 + min q.branch q.beam ≤ q.nNodes)
    {s : BeamState P}
    {owners : List Nat}
    (hRun : BeamRun q s owners) :
    s.nodes.length ≤ q.nNodes := by
  cases hRun with
  | start =>
      rw [length_beamStart]
      exact hRoom
  | round hRun hGoes =>
      exact (beamRound_join hRun.inv hGoes).length_le

theorem buildTreeBatched_shape (q : TreeRequest P) :
    TreeShape q.head q.maxDepth q.buildTreeBatched := by
  rcases buildTreeBatched_run q with ⟨s, _, hRun, -, hTree⟩
  rw [hTree]
  exact hRun.inv.shape

variable [Zero P]

/- What generate_tree_stream relies on, for both builders. -/
structure DraftTreesOk (q : TreeRequest P) : Prop where
  naive :
    ∃ nodes, q.buildTree = some nodes ∧
      TreeShape q.head q.maxDepth nodes ∧
      nodes.length ≤ q.nNodes
  batched : TreeShape q.head q.maxDepth q.buildTreeBatched
  batched_length : q.buildTreeBatched.length ≤ q.nNodes
  forwards :
    ∀ s owners, BeamRun q s owners → q.Goes s →
      ∀ (k : Nat) (f : BeamEntry P), s.frontier[k]? = some f →
        AttendsPath q s owners k f

/-
  All of it holds exactly when there is room for the root and
  the children it gets without a look at n_nodes.
-/
theorem draftTrees_iff (q : TreeRequest P) :
    DraftTreesOk q ↔
      1 + min q.branch q.beam ≤ q.nNodes := by
  rcases buildTreeBatched_run q with
    ⟨last, lastOwners, hLast, -, hTree⟩
  refine ⟨?_, ?_⟩
  · intro hOk
    have hLength := hOk.batched_length
    rw [hTree] at hLength
    exact Nat.le_trans hLast.length_ge hLength
  · intro hRoom
    refine
      ⟨buildTree_shape q, buildTreeBatched_shape q, ?_, ?_⟩
    · rw [hTree]
      exact hLast.length_le hRoom
    · intro s owners hRun hGoes k f hF
      have hNext := (hRun.round hGoes).inv
      exact hRun.inv.attendsPath hNext.owners_nodup hF

/- A vocabulary of two, and the k first in descending order. -/
def pairDraft : DraftModel Int where
  vocab := 2
  logProbs _ := [-1, -2]
  length_eq _ := rfl

def sortTop : TopK Int where
  topk lp k :=
    ((lp.zipIdx).mergeSort (fun a b => b.1 ≤ a.1)).take k
  length_eq := by
    intro lp k hLe
    rw [List.length_take, List.length_mergeSort,
      List.length_zipIdx, Nat.min_eq_left hLe]

/- One node is asked for, the root has two children. -/
def oneNode : TreeRequest Int where
  draft := pairDraft
  top := sortTop
  baseIds := [0]
  head := 1
  nNodes := 1
  branch := 2
  maxDepth := 1
  beam := 2
  one_le_nNodes := Nat.le_refl 1
  one_le_branch := by decide
  one_le_maxDepth := Nat.le_refl 1
  one_le_beam := by decide
  branch_le := Nat.le_refl 2

theorem oneNode_overfull :
    ¬ ∀ q : TreeRequest Int, DraftTreesOk q := by
  intro hAll
  have hLength := (hAll oneNode).batched_length
  rcases buildTreeBatched_run oneNode with
    ⟨s, owners, hRun, -, hTree⟩
  rw [hTree] at hLength
  have hThree : 3 ≤ s.nodes.length := hRun.length_ge
  have hOne : s.nodes.length ≤ 1 := hLength
  omega

end CircuitDllm
