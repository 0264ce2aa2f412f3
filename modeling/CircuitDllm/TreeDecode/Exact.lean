import Mathlib.Algebra.Ring.Nat
import CircuitDllm.SpecDecode.Exact
import CircuitDllm.TreeDecode.Loop

/-
  Tree drafting returns the greedy tokens.

  Along the chain of a tree node every stage sees what
  linear decoding of the prefix and the chain's tokens would
  show it, because the mask admits exactly these entries and
  their positions count up along the chain.  So the pick at
  a node is the next token after its chain, the accepted
  path is a greedy run, and compacting to the path leaves
  the linear caches.

  Main declarations:
    * `runTreeStage_linear`
    * `relayTree_linear`
    * `acceptWalk_greedy`
    * `treeRound_inv`
    * `treeDecode_exact`
-/

------------------------------------------------------------
-- One Stage
------------------------------------------------------------

namespace CircuitDllm

variable {H : Type} {parents : List Int}

/- Positions count up along every chain. -/
def CountsUp
    (parents : List Int)
    (treePositions : List Nat)
    (pos : Nat) : Prop :=
  ∀ i chain,
    Chain parents i chain →
    Select.pick treePositions chain =
      some (List.range' pos chain.length)

theorem allowedColumns_sorted
    (hWf : ParentsWf parents)
    {i : Nat}
    {chain : List Nat}
    (hChain : Chain parents i chain)
    (pos : Nat) :
    (allowedColumns pos chain).Pairwise (· < ·) := by
  rw [allowedColumns, List.pairwise_append]
  refine ⟨List.pairwise_lt_range, ?_, ?_⟩
  · rw [List.pairwise_map]
    exact (hChain.sorted hWf).imp (by omega)
  · intro a ha b hb
    rcases List.mem_map.mp hb with ⟨j, _, rfl⟩
    have hLt := List.mem_range.mp ha
    omega

theorem allowedColumns_lt
    (hWf : ParentsWf parents)
    {i : Nat}
    {chain : List Nat}
    (hChain : Chain parents i chain)
    (pos : Nat) :
    ∀ c ∈ allowedColumns pos chain,
      c < pos + parents.length := by
  intro c hc
  rcases List.mem_append.mp hc with hMem | hMem
  · have := List.mem_range.mp hMem
    omega
  · rcases List.mem_map.mp hMem with ⟨j, hj, rfl⟩
    have hLe := hChain.le_of_mem hWf j hj
    have hLt := hChain.lt_length
    omega

/- Values can be picked along every chain. -/
theorem Chain.exists_pick
    {A : Type}
    (hWf : ParentsWf parents)
    {i : Nat}
    {chain : List Nat}
    (hChain : Chain parents i chain)
    (xs : List A)
    (hLen : xs.length = parents.length) :
    ∃ vals, Select.pick xs chain = some vals := by
  apply Select.exists_pick
  intro j hj
  have hLe := hChain.le_of_mem hWf j hj
  have hLt := hChain.lt_length
  omega

/- What a chain picks from the cached tree is linear. -/
theorem pick_allowedColumns
    (xs hidden : List H)
    (treePositions : List Nat)
    {chain : List Nat}
    {vals : List H}
    (hCount :
      Select.pick treePositions chain =
        some (List.range' xs.length chain.length))
    (hVals : Select.pick hidden chain = some vals) :
    Select.pick
        (StageKV.linear xs ++ hidden.zip treePositions)
        (allowedColumns xs.length chain) =
      some (StageKV.linear (xs ++ vals)) := by
  have hFed :
      Select.pick (hidden.zip treePositions) chain =
        some (vals.zipIdx xs.length) := by
    rw [Select.pick_zip hVals hCount,
      List.zipIdx_eq_zip_range',
      Select.length_of_pick hVals]
  have hHeld :
      Select.pick
          (StageKV.linear xs ++ hidden.zip treePositions)
          (List.range xs.length) =
        some (StageKV.linear xs) := by
    have h :=
      Select.pick_prefix (StageKV.linear xs)
        (hidden.zip treePositions)
    rwa [StageKV.length_linear] at h
  have hShift :
      Select.pick
          (StageKV.linear xs ++ hidden.zip treePositions)
          (chain.map (xs.length + ·)) =
        some (vals.zipIdx xs.length) := by
    have h :=
      Select.pick_shift (StageKV.linear xs)
        (hidden.zip treePositions) chain
    rw [StageKV.length_linear] at h
    rw [h, hFed]
  rw [StageKV.linear_append]
  exact Select.pick_append hHeld hShift

/-
  One stage under the tree mask: along every chain it
  outputs what linear decoding outputs, and keeping the
  chain leaves the linear cache.
-/
theorem runTreeStage_linear
    (stage : Stage H)
    (hWf : ParentsWf parents)
    (xs hidden : List H)
    (treePositions : List Nat)
    (hHidden : hidden.length = parents.length)
    (hPositions : treePositions.length = parents.length)
    (hCount : CountsUp parents treePositions xs.length) :
    ∃ hidden' kv',
      runTreeStage stage xs.length hidden treePositions
          parents (StageKV.linear xs) =
        .ok (hidden', kv') ∧
      hidden'.length = parents.length ∧
      ∀ i chain,
        Chain parents i chain →
        ∀ vals,
          Select.pick hidden chain = some vals →
          Select.pick hidden' chain =
              some
                ((stage.outputs (xs ++ vals)).drop
                  xs.length) ∧
            kv'.keepTreePath xs.length chain =
              some (StageKV.linear (xs ++ vals)) := by
  rcases buildTreeMask_eq hWf xs.length parents.length le_rfl with
    ⟨rows, hMask, hRows, hRow⟩
  let kv' := StageKV.linear xs ++ hidden.zip treePositions
  have hKvLen : kv'.length = xs.length + parents.length := by
    simp [kv', hHidden, hPositions]
  have hParents : 0 < parents.length :=
    (List.getElem?_eq_some_iff.mp hWf.root).1
  have hAttend :
      ∀ i chain vals,
        Chain parents i chain →
        Select.pick hidden chain = some vals →
        (rows.map
            (fun row => stage (Select.keep row kv')))[i]? =
          some (stage (StageKV.linear (xs ++ vals))) := by
    intro i chain vals hChain hVals
    have hKeep :=
      Select.keep_flags kv'
        (allowedColumns xs.length chain)
        (allowedColumns_sorted hWf hChain xs.length)
        (by
          rw [hKvLen]
          exact allowedColumns_lt hWf hChain xs.length)
    rw [pick_allowedColumns xs hidden treePositions
      (hCount i chain hChain) hVals, hKvLen] at hKeep
    rw [List.getElem?_map, hRow i chain hChain]
    simp only [Option.map_some]
    rw [← Option.some.inj hKeep]
  refine
    ⟨rows.map (fun row => stage (Select.keep row kv')),
      kv', ?_, by simpa using hRows, ?_⟩
  · simp [runTreeStage, hMask, Stage.forwardTree, kv']
  · intro i chain hChain vals hVals
    constructor
    · induction hChain generalizing vals with
      | @root i hRoot =>
          have hOut := hAttend i [i] vals (.root hRoot) hVals
          rw [Select.pick_singleton] at hVals
          rcases Option.map_eq_some_iff.mp hVals with
            ⟨h, _, rfl⟩
          rw [Select.pick_singleton, hOut,
            Stage.outputs_snoc]
          simp
      | @step i p chain hParent hRest ih =>
          have hOut :=
            hAttend i _ vals (.step hParent hRest) hVals
          rcases Select.pick_append_eq_some hVals with
            ⟨init, last, rfl, hInit, hLast⟩
          rw [Select.pick_singleton] at hLast
          rcases Option.map_eq_some_iff.mp hLast with
            ⟨h, _, rfl⟩
          rw [← List.append_assoc, Stage.outputs_snoc,
            List.drop_append_of_le_length (by simp)]
          apply Select.pick_append (ih init hInit)
          rw [Select.pick_singleton, hOut]
          simp
    · have hNonempty : kv'.getSeqLength ≠ 0 := by
        rw [StageKV.getSeqLength, hKvLen]
        omega
      rw [StageKV.keepTreePath, if_neg hNonempty]
      exact
        pick_allowedColumns xs hidden treePositions
          (hCount i chain hChain) hVals

end CircuitDllm

------------------------------------------------------------
-- All Stages
------------------------------------------------------------

namespace CircuitDllm

variable {H : Type} {parents : List Int}

/-
  The relay of a tree after a linear history: along every
  chain the final hidden states and the kept caches are
  those of linear decoding.
-/
theorem relayTree_linear
    (stages : List (Stage H))
    (hWf : ParentsWf parents)
    (xs hidden : List H)
    (treePositions : List Nat)
    (hHidden : hidden.length = parents.length)
    (hPositions : treePositions.length = parents.length)
    (hCount : CountsUp parents treePositions xs.length) :
    ∃ hidden' kvs',
      relayTree stages (linearKVs stages xs) xs.length hidden
          treePositions parents =
        .ok (hidden', kvs') ∧
      hidden'.length = parents.length ∧
      ∀ i chain,
        Chain parents i chain →
        ∀ vals,
          Select.pick hidden chain = some vals →
          Select.pick hidden' chain =
              some
                ((linearHidden stages (xs ++ vals)).drop
                  xs.length) ∧
            kvTreeKeep xs.length chain kvs' =
              .ok (linearKVs stages (xs ++ vals)) := by
  induction stages generalizing xs hidden with
  | nil =>
      refine ⟨hidden, [], rfl, hHidden, ?_⟩
      intro i chain _ vals hVals
      exact ⟨by simpa [linearHidden] using hVals, rfl⟩
  | cons stage stages ih =>
      rcases runTreeStage_linear stage hWf xs hidden
          treePositions hHidden hPositions hCount with
        ⟨hidden₁, kv₁, hStage, hLen₁, hChains₁⟩
      have hXs :
          (stage.outputs xs).length = xs.length := by simp
      rcases ih (stage.outputs xs) hidden₁ hLen₁
          (by rwa [hXs]) with
        ⟨hidden₂, kvs₂, hRest, hLen₂, hChains₂⟩
      rw [hXs] at hRest
      refine
        ⟨hidden₂, kv₁ :: kvs₂, ?_, hLen₂, ?_⟩
      · simp only [relayTree, linearKVs, hStage, hRest]
      · intro i chain hChain vals hVals
        rcases hChains₁ i chain hChain vals hVals with
          ⟨hPick₁, hKeep₁⟩
        rcases hChains₂ i chain hChain _ hPick₁ with
          ⟨hPick₂, hKeep₂⟩
        have hWhole :
            stage.outputs xs ++
                (stage.outputs (xs ++ vals)).drop xs.length =
              stage.outputs (xs ++ vals) := by
          rw [Stage.outputs_append,
            List.drop_left' (by simp)]
        rw [hWhole, hXs] at hPick₂ hKeep₂
        refine ⟨hPick₂, ?_⟩
        unfold kvTreeKeep at hKeep₂ ⊢
        cases hMap :
            kvs₂.mapM
              (fun kv =>
                kv.keepTreePath xs.length chain) with
        | none => simp [hMap] at hKeep₂
        | some kept =>
            rw [hMap] at hKeep₂
            have hKept := Except.ok.inj hKeep₂
            simp [List.mapM_cons, hKeep₁, hMap, hKept,
              linearKVs]

end CircuitDllm

------------------------------------------------------------
-- Draft Trees
------------------------------------------------------------

namespace CircuitDllm

namespace DraftTree

variable {Tok : Type} {head : Tok} (tree : DraftTree head)

/- The parent pointers sent with the tree. -/
def parents : List Int :=
  tree.nodes.map (·.parent)

@[simp] theorem length_parents :
    tree.parents.length = tree.nodes.length := by
  simp [parents]

theorem parentsWf : ParentsWf tree.parents where
  root := by simp [parents, tree.root]
  before i a hParent := by
    rw [parents, List.getElem?_map] at hParent
    rcases Option.map_eq_some_iff.mp hParent with
      ⟨node, hNode, rfl⟩
    rcases tree.child i node hNode with ⟨p, _, hp, hLe, _⟩
    omega

/- A node's depth counts its ancestors. -/
theorem depth_chain
    {i : Nat}
    {chain : List Nat}
    (hChain : Chain tree.parents i chain) :
    ∃ node,
      tree.nodes[i]? = some node ∧
        node.depth + 1 = chain.length := by
  induction hChain with
  | @root i hRoot =>
      rw [parents, List.getElem?_map] at hRoot
      rcases Option.map_eq_some_iff.mp hRoot with
        ⟨node, hNode, hParent⟩
      cases i with
      | zero =>
          rw [tree.root] at hNode
          rcases Option.some.inj hNode with rfl
          exact ⟨_, tree.root, rfl⟩
      | succ i =>
          rcases tree.child i node hNode with ⟨p, _, hp, _⟩
          omega
  | @step i p chain hParent _ ih =>
      rcases ih with ⟨parent, hAt, hDepth⟩
      rw [parents, List.getElem?_map] at hParent
      rcases Option.map_eq_some_iff.mp hParent with
        ⟨node, hNode, hp⟩
      cases i with
      | zero =>
          rw [tree.root] at hNode
          rcases Option.some.inj hNode with rfl
          simp only at hp
          omega
      | succ i =>
          rcases tree.child i node hNode with
            ⟨q, parent', hq, _, hAt', hDepth'⟩
          obtain rfl : q = p := by omega
          rw [hAt] at hAt'
          rcases Option.some.inj hAt' with rfl
          exact ⟨node, hNode, by simp; omega⟩

/- Depth positions count up along every chain. -/
theorem countsUp (pos : Nat) :
    CountsUp tree.parents
      (tree.nodes.map (fun node => pos + node.depth))
      pos := by
  intro i chain hChain
  induction hChain with
  | @root i hRoot =>
      rcases tree.depth_chain (.root hRoot) with
        ⟨node, hNode, hDepth⟩
      rw [Select.pick_singleton, List.getElem?_map, hNode]
      simp at hDepth
      simp [hDepth]
  | @step i p chain hParent hRest ih =>
      rcases tree.depth_chain (.step hParent hRest) with
        ⟨node, hNode, hDepth⟩
      simp at hDepth
      rw [List.length_append, List.length_singleton,
        List.range'_1_concat]
      apply Select.pick_append ih
      rw [Select.pick_singleton, List.getElem?_map, hNode]
      simp [hDepth]

end DraftTree

end CircuitDllm

------------------------------------------------------------
-- The Accepted Path
------------------------------------------------------------

namespace CircuitDllm

variable {Tok : Type} [DecidableEq Tok]

/- A matching child is a child with the picked token. -/
theorem matchingChild_eq_some
    {nodes : List (TreeNode Tok)}
    {cur c : Nat}
    {pred : Tok}
    (hChild : matchingChild nodes cur pred = some c) :
    ∃ node,
      nodes[c]? = some node ∧
        node.parent = (cur : Int) ∧ node.tok = pred := by
  have hFound := List.find?_some hChild
  cases hNode : nodes[c]? with
  | none => simp [hNode] at hFound
  | some node =>
      exact ⟨node, rfl, by simpa [hNode] using hFound⟩

/-
  When every pick is the next token after its node's chain,
  the walk from a node follows the greedy run after it.
-/
theorem acceptWalk_greedy
    {head : Tok}
    (tree : DraftTree head)
    (f : List Tok → Tok)
    (held picks : List Tok)
    (hPicks :
      ∀ i chain ids,
        Chain tree.parents i chain →
        Select.pick (tree.nodes.map (·.tok)) chain =
          some ids →
        picks[i]? = some (f (held ++ ids)))
    {cur : Nat}
    {chain : List Nat}
    (hChain : Chain tree.parents cur chain)
    {ids : List Tok}
    (hIds :
      Select.pick (tree.nodes.map (·.tok)) chain = some ids)
    (fuel : Nat)
    (hFuel : tree.nodes.length ≤ cur + fuel) :
    ∃ path accepted bonus,
      acceptWalk tree.nodes picks fuel cur =
        .ok (path, bonus) ∧
      (∃ last, Chain tree.parents last (chain ++ path)) ∧
      Select.pick (tree.nodes.map (·.tok)) path =
        some accepted ∧
      accepted ++ [bonus] =
        Causal.greedy f (held ++ ids)
          (path.length + 1) := by
  induction fuel generalizing cur chain ids with
  | zero =>
      have hLt := hChain.lt_length
      rw [tree.length_parents] at hLt
      omega
  | succ fuel ih =>
      have hPick := hPicks cur chain ids hChain hIds
      cases hNext :
          matchingChild tree.nodes cur
            (f (held ++ ids)) with
      | none =>
          refine
            ⟨[], [], f (held ++ ids), ?_, ⟨cur, ?_⟩, rfl,
              rfl⟩
          · simp only [acceptWalk, hPick, hNext]
          · simpa using hChain
      | some nx =>
          rcases matchingChild_eq_some hNext with
            ⟨node, hNode, hParent, hTok⟩
          have hEdge :
              tree.parents[nx]? = some (cur : Int) := by
            simp [DraftTree.parents, hNode, hParent]
          have hLt := tree.parentsWf.parent_lt hEdge
          have hIds' :
              Select.pick (tree.nodes.map (·.tok))
                  (chain ++ [nx]) =
                some (ids ++ [f (held ++ ids)]) := by
            apply Select.pick_append hIds
            simp [Select.pick_singleton, hNode, hTok]
          rcases ih (.step hEdge hChain) hIds' (by omega) with
            ⟨path, accepted, bonus, hWalk, hLast, hAccepted,
             hGreedy⟩
          refine
            ⟨nx :: path, f (held ++ ids) :: accepted, bonus,
              ?_, ?_, ?_, ?_⟩
          · simp only [acceptWalk, hPick, hNext, hWalk]
          · simpa using hLast
          · apply Select.pick_cons _ hAccepted
            simp [hNode, hTok]
          · have hStep :=
              Causal.greedy_add f (held ++ ids) 1
                (path.length + 1)
            rw [List.cons_append, hGreedy, List.length_cons,
              Nat.add_comm (path.length + 1) 1, hStep]
            simp [Causal.greedy]

/- The accepted path and its tokens are a greedy run. -/
theorem acceptTree_greedy
    {head : Tok}
    (tree : DraftTree head)
    (f : List Tok → Tok)
    (held picks : List Tok)
    (hPicks :
      ∀ i chain ids,
        Chain tree.parents i chain →
        Select.pick (tree.nodes.map (·.tok)) chain =
          some ids →
        picks[i]? = some (f (held ++ ids))) :
    ∃ accept last,
      acceptTree tree.nodes picks = .ok accept ∧
      Chain tree.parents last accept.path ∧
      accept.committed =
        Causal.greedy f (held ++ [head])
          accept.path.length ∧
      accept.committed.getLast? = some accept.bonus ∧
      Select.pick (tree.nodes.map (·.tok)) accept.path =
        some (head :: accept.committed.dropLast) := by
  have hRoot : Chain tree.parents 0 [0] :=
    .root tree.parentsWf.root
  have hIds :
      Select.pick (tree.nodes.map (·.tok)) [0] =
        some [head] := by
    simp [Select.pick_singleton, tree.root]
  rcases acceptWalk_greedy tree f held picks hPicks hRoot hIds
      tree.nodes.length (by omega) with
    ⟨path, accepted, bonus, hWalk, ⟨last, hLast⟩, hAccepted,
     hGreedy⟩
  obtain ⟨found, hFound⟩ :
      ∃ found, Select.pick tree.nodes path = some found := by
    apply Select.exists_pick
    intro j hj
    have hLe :=
      hLast.le_of_mem tree.parentsWf j
        (List.mem_append_right _ hj)
    have hLt := hLast.lt_length
    rw [tree.length_parents] at hLt
    omega
  have hToks : found.map (·.tok) = accepted := by
    have hMap := Select.pick_map (·.tok) hFound
    rw [hAccepted] at hMap
    exact (Option.some.inj hMap).symm
  refine
    ⟨⟨accepted ++ [bonus], 0 :: path, bonus⟩, last, ?_,
      hLast, hGreedy, by simp, ?_⟩
  · simp only [acceptTree, hWalk, hFound, hToks]
  · simpa using Select.pick_append hIds hAccepted

end CircuitDllm

------------------------------------------------------------
-- One Round
------------------------------------------------------------

namespace CircuitDllm

variable {Tok H : Type} [DecidableEq Tok] [Inhabited Tok]

/-
  What holds after every round, `out` being everything
  committed: it is a greedy run, and the caches are those of
  linear decoding up to its last token.
-/
structure TreeInv
    (model : Model Tok H)
    (prompt out : List Tok)
    (s : TreeState Tok H) : Prop where
  greedy_eq :
    out = Causal.greedy model.next prompt out.length
  head_eq : out.getLast? = some s.head
  pos_eq : s.pos = (prompt ++ out.dropLast).length
  kvs_eq : s.kvs = model.linearKVs (prompt ++ out.dropLast)

/- The pick at a node is the next token after its chain. -/
omit [DecidableEq Tok] in
theorem picks_of_chains
    (model : Model Tok H)
    {head : Tok}
    (tree : DraftTree head)
    (held : List Tok)
    (hidden : List H)
    (hHidden :
      ∀ i chain,
        Chain tree.parents i chain →
        ∀ vals,
          Select.pick
              (tree.nodes.map
                (fun node => model.embed node.tok)) chain =
            some vals →
          Select.pick hidden chain =
            some
              ((linearHidden model.stages
                (held.map model.embed ++ vals)).drop
                  held.length)) :
    ∀ i chain ids,
      Chain tree.parents i chain →
      Select.pick (tree.nodes.map (·.tok)) chain =
        some ids →
      (hidden.map model.lmHead)[i]? =
        some (model.next (held ++ ids)) := by
  intro i chain ids hChain hIds
  have hVals := Select.pick_map model.embed hIds
  rw [List.map_map] at hVals
  have hPick :=
    Select.pick_map model.lmHead
      (hHidden i chain hChain _ hVals)
  rw [← List.map_append, List.map_drop] at hPick
  rw [show
      (linearHidden model.stages
        ((held ++ ids).map model.embed)).map model.lmHead =
        model.linearArgmaxes (held ++ ids) from rfl,
    Model.argmaxes_eq_feed_next] at hPick
  rcases hChain.eq_snoc with ⟨init, hInit⟩
  have hIdsNe : ids ≠ [] := by
    have hLen := Select.length_of_pick hIds
    rw [hInit] at hLen
    intro hNil
    simp [hNil] at hLen
  rw [hInit] at hPick
  rcases Select.pick_append_eq_some hPick with
    ⟨ys, ys', hSplit, _, hLast⟩
  rw [Select.pick_singleton] at hLast
  rcases Option.map_eq_some_iff.mp hLast with
    ⟨tok, hTok, rfl⟩
  have hFeed :=
    Causal.getLast?_feed model.next held ids hIdsNe
  rw [hSplit] at hFeed
  rw [hTok]
  simpa using hFeed

/- The state after greedy tokens were committed. -/
omit [DecidableEq Tok] in
theorem TreeInv.commit
    {model : Model Tok H}
    {prompt out committed produced : List Tok}
    {s : TreeState Tok H}
    (hInv : TreeInv model prompt out s)
    {bonus : Tok}
    (hSome : committed ≠ [])
    (hCommitted :
      committed =
        Causal.greedy model.next (prompt ++ out)
          committed.length)
    (hBonus : committed.getLast? = some bonus)
    (stats : SpecStats) :
    TreeInv model prompt (out ++ committed)
      ⟨linearKVs model.stages
          ((prompt ++ out.dropLast).map model.embed ++
            (s.head :: committed.dropLast).map model.embed),
        produced, bonus, s.pos + committed.length, stats⟩ := by
  have hOut : out = out.dropLast ++ [s.head] :=
    (List.dropLast_append_getLast? s.head hInv.head_eq).symm
  have hDropLast :
      prompt ++ (out ++ committed).dropLast =
        (prompt ++ out.dropLast) ++
          s.head :: committed.dropLast := by
    rw [List.dropLast_append_of_ne_nil hSome]
    conv_lhs => rw [hOut]
    simp
  have hPos := List.length_pos_iff.mpr hSome
  refine ⟨?_, ?_, ?_, ?_⟩
  · rw [List.length_append, Causal.greedy_add,
      ← hInv.greedy_eq]
    exact congrArg (out ++ ·) hCommitted
  · rw [List.getLast?_append, hBonus]
    rfl
  · rw [hDropLast]
    simp only [List.length_append, List.length_cons,
      List.length_dropLast, hInv.pos_eq]
    omega
  · simp only [hDropLast, Model.linearKVs, List.map_append]

/-
  A round commits the next greedy tokens and keeps the
  invariant.
-/
theorem treeRound_inv
    (model : Model Tok H)
    (drafter : TreeDrafter Tok)
    (prompt : List Tok)
    (nNew : Nat)
    (eos : Tok → Bool)
    {out : List Tok}
    {s : TreeState Tok H}
    (hInv : TreeInv model prompt out s) :
    ∃ committed returned s',
      treeRound model drafter prompt nNew eos s =
        .ok (committed, returned, s') ∧
      yieldCommitted eos nNew s.produced committed =
        (s'.produced, returned) ∧
      committed ≠ [] ∧
      TreeInv model prompt (out ++ committed) s' := by
  rcases s with ⟨kvs, produced, head, pos, stats⟩
  have hHead := hInv.head_eq
  have hPos := hInv.pos_eq
  have hKvs := hInv.kvs_eq
  simp only at hHead hPos hKvs
  have hOut : out = out.dropLast ++ [head] :=
    (List.dropLast_append_getLast? head hHead).symm
  let held := prompt ++ out.dropLast
  let tree :=
    drafter stats.rounds (prompt ++ produced.dropLast) head
  have hHeldLen : (held.map model.embed).length = pos := by
    simp [held, hPos]
  obtain ⟨hidden, kvs₁, hRelay, _, hChains⟩ :=
    relayTree_linear model.stages tree.parentsWf
      (held.map model.embed)
      (tree.nodes.map (fun node => model.embed node.tok))
      (tree.nodes.map (fun node => pos + node.depth))
      (by simp) (by simp)
      (by
        rw [hHeldLen]
        exact tree.countsUp pos)
  rw [hHeldLen] at hRelay hChains
  have hPicks :=
    picks_of_chains model tree held hidden
      (fun i chain hChain vals hVals => by
        have hPick := (hChains i chain hChain vals hVals).1
        rwa [← hHeldLen, List.length_map] at hPick)
  rcases acceptTree_greedy tree model.next held
      (hidden.map model.lmHead) hPicks with
    ⟨accept, last, hAccept, hPath, hCommitted, hBonus,
     hPathIds⟩
  have hPathPos : 0 < accept.path.length := by
    rcases hPath.eq_snoc with ⟨init, hInit⟩
    simp [hInit]
  have hLen : accept.committed.length = accept.path.length := by
    rw [hCommitted, Causal.length_greedy]
  have hHeld : held ++ [head] = prompt ++ out := by
    rw [List.append_assoc, ← hOut]
  have hVals := Select.pick_map model.embed hPathIds
  rw [List.map_map] at hVals
  rcases hChains last accept.path hPath _ hVals with
    ⟨_, hKeep⟩
  have hSome : accept.committed ≠ [] := by
    rw [← List.length_pos_iff]
    omega
  rw [hHeld, ← hLen] at hCommitted
  cases hYield :
      yieldCommitted eos nNew produced accept.committed with
  | mk produced' returned =>
      refine
        ⟨accept.committed, returned,
          ⟨linearKVs model.stages
              (held.map model.embed ++
                (head :: accept.committed.dropLast).map
                  model.embed),
            produced', accept.bonus,
            pos + accept.path.length,
            { stats with
              rounds := stats.rounds + 1
              accepted :=
                stats.accepted + (accept.path.length - 1)
              proposed :=
                stats.proposed + (tree.nodes.length - 1) }⟩,
          ?_, hYield, hSome, ?_⟩
      · have hRelay' :
            relayTree model.stages kvs pos
                (tree.nodes.map
                  (fun node => model.embed node.tok))
                (tree.nodes.map
                  (fun node => pos + node.depth))
                (tree.nodes.map (·.parent)) =
              .ok (hidden, kvs₁) := by
          rw [hKvs]
          exact hRelay
        simp only [treeRound]
        rw [show
          drafter stats.rounds
            (prompt ++ produced.dropLast) head = tree
          from rfl, hRelay']
        simp only [hAccept, hKeep, hYield]
      · rw [← hLen]
        exact hInv.commit hSome hCommitted hBonus _

end CircuitDllm

------------------------------------------------------------
-- Tree Drafting Is Greedy Decoding
------------------------------------------------------------

namespace CircuitDllm

variable {Tok H : Type} [DecidableEq Tok] [Inhabited Tok]

/- The prefill leaves the invariant for the first token. -/
omit [DecidableEq Tok] in
theorem treeStart_inv
    (model : Model Tok H)
    (prompt : List Tok)
    (hPrompt : prompt ≠ []) :
    ∃ s,
      treeStart model prompt = .ok s ∧
        s.produced = [model.next prompt] ∧
        s.head = model.next prompt ∧
        TreeInv model prompt [model.next prompt] s := by
  rcases model.runStages_next [] prompt hPrompt with
    ⟨hidden, hRun, hPick⟩
  refine
    ⟨⟨model.linearKVs prompt, [model.next prompt],
      model.next prompt, prompt.length,
      { window := some [] }⟩, ?_, rfl, rfl, ?_⟩
  · rw [List.length_nil] at hRun
    simp only [treeStart, model.fresh_eq_linearKVs, hRun,
      hPick]
    rfl
  · constructor
    · rfl
    · rfl
    · simp
    · simp

/-
  The states after a round: everything committed so far, and
  whether the stream returned in the round.
-/
inductive TreeRounds
    (model : Model Tok H)
    (drafter : TreeDrafter Tok)
    (prompt : List Tok)
    (nNew : Nat)
    (eos : Tok → Bool) :
    List Tok → Bool → TreeState Tok H → Prop where
| start {s} :
    treeStart model prompt = .ok s →
    TreeRounds model drafter prompt nNew eos [s.head] false s
| round {out committed returned s s'} :
    TreeRounds model drafter prompt nNew eos out false s →
    s.produced.length < nNew →
    treeRound model drafter prompt nNew eos s =
      .ok (committed, returned, s') →
    TreeRounds model drafter prompt nNew eos
      (out ++ committed) returned s'

omit [Inhabited Tok] in
theorem TreeRounds.inv
    [Inhabited Tok]
    {model : Model Tok H}
    {drafter : TreeDrafter Tok}
    {prompt : List Tok}
    {nNew : Nat}
    {eos : Tok → Bool}
    (hPrompt : prompt ≠ [])
    {out : List Tok}
    {returned : Bool}
    {s : TreeState Tok H}
    (hRounds :
      TreeRounds model drafter prompt nNew eos out returned
        s) :
    TreeInv model prompt out s := by
  induction hRounds with
  | start hStart =>
      rcases treeStart_inv model prompt hPrompt with
        ⟨s, hOk, _, hHead, hInv⟩
      rw [hOk] at hStart
      rcases Except.ok.inj hStart with rfl
      rwa [hHead]
  | round _ _ hRound ih =>
      rcases treeRound_inv model drafter prompt nNew eos ih with
        ⟨committed, returned, s', hOk, _, _, hInv⟩
      rw [hOk] at hRound
      rcases Except.ok.inj hRound with ⟨rfl, rfl, rfl⟩
      exact hInv

/- The loop produces the greedy run cut before EOS. -/
theorem treeLoop_greedy
    (model : Model Tok H)
    (drafter : TreeDrafter Tok)
    (prompt : List Tok)
    (nNew : Nat)
    (eos : Tok → Bool)
    (fuel : Nat)
    {s : TreeState Tok H}
    (hInv : TreeInv model prompt s.produced s)
    (hOut : ∀ tok ∈ s.produced, eos tok = false)
    (hLen : s.produced.length ≤ nNew)
    (hFuel : nNew ≤ s.produced.length + fuel) :
    ∃ s',
      treeLoop model drafter prompt nNew eos fuel s =
          (.ok (), s') ∧
        s'.produced =
          (Causal.greedy model.next prompt nNew).takeWhile
            (fun tok => !eos tok) := by
  have hFull :
      s.produced.length = nNew →
        s.produced =
          (Causal.greedy model.next prompt nNew).takeWhile
            (fun tok => !eos tok) := by
    rintro rfl
    rw [← hInv.greedy_eq, eq_comm,
      List.takeWhile_eq_self_iff]
    simpa using hOut
  induction fuel generalizing s with
  | zero =>
      refine ⟨s, ?_, hFull (by omega)⟩
      rw [treeLoop, if_neg (by omega)]
  | succ fuel ih =>
      by_cases hLt : s.produced.length < nNew
      · rcases treeRound_inv model drafter prompt nNew eos hInv with
          ⟨committed, returned, s₁, hRound, hYield,
           hNonempty, hInv₁⟩
        have hGrow : 0 < committed.length :=
          List.length_pos_iff.mpr hNonempty
        rcases yieldCommitted_spec eos nNew s.produced
            committed hOut hLen with
          ⟨hGo, hNoEos, hLen₁⟩ | ⟨hStopped, hStop⟩
        · rw [hYield] at hGo
          rcases Prod.mk.inj hGo with ⟨hProduced, rfl⟩
          rw [← hProduced] at hInv₁ hNoEos hLen₁
          have hLen₂ := congrArg List.length hProduced
          rw [List.length_append] at hLen₂
          obtain ⟨s', hLoop, hCut⟩ :=
            ih hInv₁ hNoEos hLen₁ (by omega)
              (by
                intro hEq
                rw [← hEq, ← hInv₁.greedy_eq, eq_comm,
                  List.takeWhile_eq_self_iff]
                simpa using hNoEos)
          refine ⟨s', ?_, hCut⟩
          simp only [treeLoop, hLt, if_true, hRound, hLoop]
        · rw [hYield] at hStopped
          rcases Prod.mk.inj hStopped with ⟨hProduced, rfl⟩
          refine ⟨s₁, ?_, ?_⟩
          · simp only [treeLoop, hLt, if_true, hRound]
          · rw [hInv₁.greedy_eq] at hProduced hStop
            rw [Causal.length_greedy] at hStop
            rw [hProduced]
            exact
              cut_greedy model.next prompt eos nNew _ hStop
      · refine ⟨s, ?_, hFull (by omega)⟩
        rw [treeLoop, if_neg hLt]

/-
  Whatever trees are drafted, the stream produces the greedy
  tokens up to the limit or the first EOS, and after every
  round the caches are those of linear decoding.
-/
theorem treeDecode_exact
    (model : Model Tok H)
    (drafter : TreeDrafter Tok)
    (prompt : List Tok)
    (nNew : Nat)
    (eos : Tok → Bool)
    (hPrompt : prompt ≠ [])
    (hNew : 1 ≤ nNew) :
    generateTreeStream model drafter prompt nNew eos =
        ((Causal.greedy model.next prompt nNew).takeWhile
          (fun tok => !eos tok), .ok ()) ∧
      ∀ out returned s,
        TreeRounds model drafter prompt nNew eos out returned
          s →
        out = Causal.greedy model.next prompt out.length ∧
          s.kvs =
            model.linearKVs (prompt ++ out.dropLast) := by
  constructor
  · rcases treeStart_inv model prompt hPrompt with
      ⟨s, hStart, hProduced, hHead, hInv⟩
    by_cases hEos : eos (model.next prompt) = true
    · rcases Nat.exists_eq_add_of_le hNew with ⟨n, rfl⟩
      simp [generateTreeStream, hStart, hHead, hEos,
        Nat.add_comm 1 n, Causal.greedy]
    · rw [← hProduced] at hInv
      rcases treeLoop_greedy model drafter prompt nNew eos nNew
          hInv (by simpa [hProduced] using hEos)
          (by simpa [hProduced] using hNew) (by omega) with
        ⟨s', hLoop, hCut⟩
      simp [generateTreeStream, hStart, hHead, hEos, hLoop,
        hCut]
  · intro out returned s hRounds
    have hInv := hRounds.inv hPrompt
    exact ⟨hInv.greedy_eq, hInv.kvs_eq⟩

/- Two branches below the head, one of them deeper. -/
def forkTree (head : Nat) : DraftTree head where
  nodes := [⟨head, -1, 0⟩, ⟨1, 0, 1⟩, ⟨2, 0, 1⟩, ⟨1, 1, 2⟩]
  root := rfl
  child := by
    intro i node hNode
    match i with
    | 0 =>
        rcases Option.some.inj hNode with rfl
        exact ⟨0, _, rfl, by omega, rfl, rfl⟩
    | 1 =>
        rcases Option.some.inj hNode with rfl
        exact ⟨0, _, rfl, by omega, rfl, rfl⟩
    | 2 =>
        rcases Option.some.inj hNode with rfl
        exact ⟨1, _, rfl, by omega, rfl, rfl⟩
    | i + 3 => simp at hNode

/- Two stages that sum what they attend to. -/
def summingModel : Model Nat Nat where
  embed tok := tok
  stages :=
    [fun kv => (kv.map (·.1)).sum,
      fun kv => (kv.map (fun e => e.1 + e.2)).sum]
  lmHead h := h % 3

theorem treeDecode_exact_fork :
    generateTreeStream summingModel (fun _ _ => forkTree)
        [1, 2] 4 (fun tok => tok == 7) =
      ((Causal.greedy summingModel.next [1, 2] 4).takeWhile
        (fun tok => !(tok == 7)), .ok ()) :=
  (treeDecode_exact summingModel (fun _ _ => forkTree)
    [1, 2] 4 (fun tok => tok == 7) (by decide)
    (by decide)).1

end CircuitDllm
