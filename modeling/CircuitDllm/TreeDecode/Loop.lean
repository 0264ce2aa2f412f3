import CircuitDllm.SpecDecode.Loop
import CircuitDllm.TreeDecode.Mask

/-
  Tree-drafting decode (engine/coordinator.py).

  A round drafts a tree below the last committed token,
  verifies all of its nodes in one relay under the tree
  mask, commits the accepted path and compacts every stage's
  cache to it.  The tree a round drafts is any well-formed
  one: `DraftTree` carries its own shape.

  Main declarations:
    * `DraftTree`
    * `relayTree`
    * `acceptTree`
    * `generateTreeStream`
-/

------------------------------------------------------------
-- Draft Trees
------------------------------------------------------------

namespace CircuitDllm

/- One drafted node; -1 is the parent of the root. -/
structure TreeNode (Tok : Type) where
  tok : Tok
  parent : Int
  depth : Nat
deriving DecidableEq, Repr

/-
  A drafted tree: `head` is its root, and every other node
  comes after its parent, one level deeper.
-/
structure DraftTree {Tok : Type} (head : Tok) where
  nodes : List (TreeNode Tok)
  root : nodes[0]? = some ⟨head, -1, 0⟩
  child :
    ∀ i node, nodes[i + 1]? = some node →
      ∃ (p : Nat) (parent : TreeNode Tok),
        node.parent = (p : Int) ∧ p ≤ i ∧
          nodes[p]? = some parent ∧
          node.depth = parent.depth + 1

end CircuitDllm

------------------------------------------------------------
-- Tree Relay
------------------------------------------------------------

namespace CircuitDllm

variable {H : Type}

/-
  One forward under a tree mask: the new entries are cached
  in node order, and row i of the mask picks what node i
  attends to.
-/
def Stage.forwardTree
    (stage : Stage H)
    (rows : List (List Bool))
    (hidden : List H)
    (treePositions : List Nat)
    (kv : StageKV H) :
    List H × StageKV H :=
  let kv := kv ++ hidden.zip treePositions
  (rows.map (fun row => stage (Select.keep row kv)), kv)

/-
  One stage's answer to a tree activation.  The mask is as
  wide as `pos` and the tree, so a cache of another length
  is refused.
-/
def runTreeStage
    (stage : Stage H)
    (pos : Nat)
    (hidden : List H)
    (treePositions : List Nat)
    (treeParents : List Int)
    (kv : StageKV H) :
    Except SpecError (List H × StageKV H) :=
  match buildTreeMask treeParents pos
      treeParents.length with
  | .error .index => .error .index
  | .error .running => .error .fuel
  | .ok rows =>
    if kv.getSeqLength = pos then
      .ok
        (stage.forwardTree rows hidden treePositions kv)
    else .error .position

/- The tree relayed through all stages, local one first. -/
def relayTree :
    List (Stage H) → List (StageKV H) → Nat → List H →
      List Nat → List Int →
      Except SpecError (List H × List (StageKV H))
| stage :: stages, kv :: kvs, pos, hidden,
    treePositions, treeParents =>
    match runTreeStage stage pos hidden treePositions
        treeParents kv with
    | .error e => .error e
    | .ok (hidden, kv) =>
      match relayTree stages kvs pos hidden treePositions
          treeParents with
      | .error e => .error e
      | .ok (hidden, kvs) => .ok (hidden, kv :: kvs)
| _, kvs, _, hidden, _, _ => .ok (hidden, kvs)

/- Compact every stage's cache to the accepted path. -/
def kvTreeKeep
    (pos : Nat)
    (path : List Nat)
    (kvs : List (StageKV H)) :
    Except SpecError (List (StageKV H)) :=
  match kvs.mapM (fun kv => kv.keepTreePath pos path) with
  | none => .error .index
  | some kvs => .ok kvs

end CircuitDllm

------------------------------------------------------------
-- Accepting a Path
------------------------------------------------------------

namespace CircuitDllm

variable {Tok : Type} [DecidableEq Tok]

/- The first child of `cur` that carries `pred`. -/
def matchingChild
    (nodes : List (TreeNode Tok))
    (cur : Nat)
    (pred : Tok) :
    Option Nat :=
  (List.range nodes.length).find? (fun c =>
    match nodes[c]? with
    | some node => node.parent = cur ∧ node.tok = pred
    | none => false)

/-
  The walk from `cur` along children that match the pick of
  the node above them: the nodes below `cur`, and the pick
  at the last one.
-/
def acceptWalk
    (nodes : List (TreeNode Tok))
    (picks : List Tok) :
    Nat → Nat → Except SpecError (List Nat × Tok)
| 0, _ => .error .fuel
| fuel + 1, cur =>
    match picks[cur]? with
    | none => .error .index
    | some pred =>
      match matchingChild nodes cur pred with
      | none => .ok ([], pred)
      | some nx =>
        match acceptWalk nodes picks fuel nx with
        | .error e => .error e
        | .ok (path, bonus) => .ok (nx :: path, bonus)

/- What a tree round accepts. -/
structure TreeAccept (Tok : Type) where
  committed : List Tok
  path : List Nat
  bonus : Tok
deriving DecidableEq, Repr

/- The root is always accepted. -/
def acceptTree
    (nodes : List (TreeNode Tok))
    (picks : List Tok) :
    Except SpecError (TreeAccept Tok) :=
  match acceptWalk nodes picks nodes.length 0 with
  | .error e => .error e
  | .ok (path, bonus) =>
    match Select.pick nodes path with
    | none => .error .index
    | some accepted =>
      .ok
        { committed := accepted.map (·.tok) ++ [bonus]
          path := 0 :: path
          bonus := bonus }

end CircuitDllm

------------------------------------------------------------
-- The Decode Loop
------------------------------------------------------------

namespace CircuitDllm

variable {Tok H : Type} [DecidableEq Tok]

/- The state carried from round to round. -/
structure TreeState (Tok H : Type) where
  kvs : List (StageKV H)
  produced : List Tok
  head : Tok
  pos : Nat
  stats : SpecStats

/-
  A drafter: the tree of each round, from the round's
  number, the tokens before the head, and the head.
-/
abbrev TreeDrafter (Tok : Type) :=
  Nat → List Tok → (head : Tok) → DraftTree head

/-
  One round.  Returns the committed tokens and whether the
  stream returned while producing them.
-/
def treeRound
    (model : Model Tok H)
    (drafter : TreeDrafter Tok)
    (prompt : List Tok)
    (nNew : Nat)
    (eos : Tok → Bool)
    (s : TreeState Tok H) :
    Except SpecError (List Tok × Bool × TreeState Tok H) :=
  let base := prompt ++ s.produced.dropLast
  let nodes :=
    (drafter s.stats.rounds base s.head).nodes
  match relayTree model.stages s.kvs s.pos
      (nodes.map (fun node => model.embed node.tok))
      (nodes.map (fun node => s.pos + node.depth))
      (nodes.map (·.parent)) with
  | .error e => .error e
  | .ok (hidden, kvs) =>
    match acceptTree nodes (hidden.map model.lmHead) with
    | .error e => .error e
    | .ok accept =>
      match kvTreeKeep s.pos accept.path kvs with
      | .error e => .error e
      | .ok kvs =>
        let (produced, returned) :=
          yieldCommitted eos nNew s.produced
            accept.committed
        .ok
          (accept.committed, returned,
            { kvs := kvs
              produced := produced
              head := accept.bonus
              pos := s.pos + accept.path.length
              stats :=
                { s.stats with
                  rounds := s.stats.rounds + 1
                  accepted :=
                    s.stats.accepted +
                      (accept.path.length - 1)
                  proposed :=
                    s.stats.proposed +
                      (nodes.length - 1) } })

/-
  while len(produced) < n_new.  Every round that does not
  return produces a token.
-/
def treeLoop
    (model : Model Tok H)
    (drafter : TreeDrafter Tok)
    (prompt : List Tok)
    (nNew : Nat)
    (eos : Tok → Bool) :
    Nat → TreeState Tok H →
      Except SpecError Unit × TreeState Tok H
| 0, s =>
    (if s.produced.length < nNew then .error .fuel
      else .ok (), s)
| fuel + 1, s =>
    if s.produced.length < nNew then
      match treeRound model drafter prompt nNew eos s with
      | .error e => (.error e, s)
      | .ok (_, true, s) => (.ok (), s)
      | .ok (_, false, s) =>
        treeLoop model drafter prompt nNew eos fuel s
    else (.ok (), s)

/- The state after the prompt's prefill. -/
def treeStart
    (model : Model Tok H)
    (prompt : List Tok) :
    Except SpecError (TreeState Tok H) :=
  let (hidden, kvs) :=
    runStages model.stages (model.stages.map (fun _ => []))
      (prompt.map model.embed) 0
  match (hidden.map model.lmHead).getLast? with
  | none => .error .index
  | some head =>
    .ok
      { kvs := kvs
        produced := [head]
        head := head
        pos := prompt.length
        stats := { window := some [] } }

/- The produced tokens, and how the stream ended. -/
def generateTreeStream
    (model : Model Tok H)
    (drafter : TreeDrafter Tok)
    (prompt : List Tok)
    (nNew : Nat)
    (eos : Tok → Bool) :
    List Tok × Except SpecError Unit :=
  match treeStart model prompt with
  | .error e => ([], .error e)
  | .ok start =>
    if eos start.head then ([], .ok ())
    else
      match treeLoop model drafter prompt nNew eos nNew
          start with
      | (ended, s) => (s.produced, ended)

end CircuitDllm
