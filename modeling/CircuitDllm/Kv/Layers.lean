import CircuitDllm.TreeDecode.Mask

/-
  Stages as the code builds them: a block of decoder layers
  with one cache slot a layer (engine/kv.py,
  engine/stage.py, and how engine/stage_worker.py drives a
  stage for one session).

  What a decoder layer computes and how the mask helpers of
  the model library fill a mask are parameters.  A cache has
  one slot for each layer of the whole model, and a stage
  fills the slots of its own block only, which is why its
  length is read from the first slot that holds anything.

  Main declarations:
    * `LayeredKV`, `LayeredStage.forward`
    * `splitModel`
    * `LayeredStage.handle`, `relayStages`
    * `referenceForward`
-/

------------------------------------------------------------
-- Per-Layer Caches
------------------------------------------------------------

namespace CircuitDllm

/- What a stage can raise. -/
inductive StageError where
  /- a list or a tensor was indexed out of range -/
  | index
  /- no mask was built for a layer's type -/
  | key
  /- tensors of one call disagree in length -/
  | shape
  /- the attention call refused its inputs -/
  | attention
  /- an ancestor walk that does not end -/
  | running
deriving DecidableEq, Repr

/- The mask type a layer asks for. -/
inductive LayerType where
  | fullAttention
  | slidingAttention
deriving DecidableEq, Repr

/-
  The configuration a stage reads.  A model without layer
  types has none listed.
-/
structure Qwen2Config where
  numHiddenLayers : Nat
  layerTypes : List LayerType := []

/-
  One slot a layer of the model: its key/value rows.  These
  are the slots DynamicCache(config) makes for layers with
  full attention, which hold every row they were given.  For
  a sliding layer it keeps a window of rows and counts apart
  from them, so results about the code's caches ask that no
  layer slides (`SlotsFull`).
-/
abbrev LayeredKV (R : Type) := List (List R)

namespace LayeredKV

variable {R : Type}

/- StageKV(config): a slot for every layer, all empty. -/
def init (config : Qwen2Config) : LayeredKV R :=
  List.replicate config.numHiddenLayers []

/- The length of the first populated slot. -/
def getSeqLength : LayeredKV R → Nat
| [] => 0
| layer :: layers =>
    if layer.length ≠ 0 then layer.length
    else getSeqLength layers

/- (kv_length, kv_offset) of the first populated slot. -/
def getMaskSizes
    (queryLength : Nat) :
    LayeredKV R → Nat × Nat
| [] => (queryLength, 0)
| layer :: layers =>
    if layer.length ≠ 0 then
      (layer.length + queryLength, 0)
    else getMaskSizes queryLength layers

/- Drop all cached state. -/
def reset
    (config : Qwen2Config)
    (_kv : LayeredKV R) :
    LayeredKV R :=
  init config

/- Roll every longer slot back to `length` rows. -/
def truncateTo
    (length : Nat)
    (kv : LayeredKV R) :
    LayeredKV R :=
  kv.map (fun layer =>
    if layer.length ≤ length then layer
    else layer.take length)

/- Keep the prefix and the accepted slots of one layer. -/
def keepRows
    (prefixLen : Nat)
    (acceptedSlots : List Nat)
    (layer : List R) :
    Option (List R) :=
  if layer.length = 0 then some layer
  else
    Select.pick layer
      (List.range prefixLen ++
        acceptedSlots.map (prefixLen + ·))

/-
  Compact every populated slot.  An index outside a slot
  raises.
-/
def keepTreePath
    (prefixLen : Nat)
    (acceptedSlots : List Nat)
    (kv : LayeredKV R) :
    Option (LayeredKV R) :=
  kv.mapM (keepRows prefixLen acceptedSlots)

/- The rows a layer finds under its own index. -/
def slot (kv : LayeredKV R) (layerIdx : Nat) : List R :=
  kv[layerIdx]?.getD []

/- Store a layer's rows; a missing slot is added. -/
def update
    (kv : LayeredKV R)
    (layerIdx : Nat)
    (rows : List R) :
    LayeredKV R :=
  (kv ++
    List.replicate (layerIdx + 1 - kv.length) []).set
      layerIdx rows

end LayeredKV

end CircuitDllm

------------------------------------------------------------
-- Decoder Layers and Masks
------------------------------------------------------------

namespace CircuitDllm

/- One row of flags a query, one flag a cached row. -/
abbrev AttentionMask := List (List Bool)

/-
  A decoder layer: the row it caches for a position, and
  its output there from the state, the position id, the
  mask row and every cached row.
-/
structure DecoderLayer (H R : Type) where
  kvRow : H → Nat → R
  attend : H → Nat → List Bool → List R → Option H

/-
  A mask helper of the model library, from the number of
  queries, the cache's mask sizes and length, and the
  padding mask.
-/
abbrev MaskFn :=
  Nat → Nat × Nat → Nat → Option (List Bool) → AttentionMask

/- transformers.masking_utils as it could be imported. -/
structure MaskingUtils where
  createCausalMask : MaskFn
  createSlidingWindowCausalMask : Option MaskFn

/- Row i of a causal mask after `length` cached rows. -/
def causalRow (length queryLength i : Nat) : List Bool :=
  (List.range (length + queryLength)).map
    (fun j => decide (j ≤ length + i))

/- The causal mask of a chunk after `length` cached rows. -/
def causalRows (length queryLength : Nat) : AttentionMask :=
  (List.range queryLength).map
    (causalRow length queryLength)

/- The masks of one call, by layer type. -/
structure Masks where
  fullAttention : AttentionMask
  slidingAttention : Option AttentionMask

/- masks[layer_type] -/
def Masks.get
    (masks : Masks) :
    LayerType → Except StageError AttentionMask
| .fullAttention => .ok masks.fullAttention
| .slidingAttention =>
    match masks.slidingAttention with
    | none => .error .key
    | some mask => .ok mask

variable {H R : Type}

/-
  A layer call: the chunk's rows are cached first, then
  every position attends under its own mask row.
-/
def DecoderLayer.forward
    (layer : DecoderLayer H R)
    (mask : AttentionMask)
    (positionIds : List Nat)
    (hidden : List H)
    (rows : List R) :
    Except StageError (List H × List R) :=
  if positionIds.length = hidden.length ∧
      mask.length = hidden.length then
    let rows :=
      rows ++ List.zipWith layer.kvRow hidden positionIds
    match ((hidden.zip positionIds).zip mask).mapM
        (fun q =>
          layer.attend q.1.1 q.1.2 q.2 rows) with
    | none => .error .attention
    | some out => .ok (out, rows)
  else .error .shape

end CircuitDllm

------------------------------------------------------------
-- Stages
------------------------------------------------------------

namespace CircuitDllm

variable {H R : Type}

/- A block of layers and their global indices. -/
structure LayeredStage (H R : Type) where
  layers : List (DecoderLayer H R)
  layerIndices : List Nat
  config : Qwen2Config
  aligned : layers.length = layerIndices.length

/- The mask type of a layer, by its global index. -/
def layerType
    (config : Qwen2Config)
    (globalIdx : Nat) :
    Except StageError LayerType :=
  if config.layerTypes.isEmpty then .ok .fullAttention
  else
    match config.layerTypes[globalIdx]? with
    | none => .error .index
    | some layerType => .ok layerType

/- No layer slides: every slot keeps all its rows. -/
def Qwen2Config.SlotsFull (config : Qwen2Config) : Prop :=
  ∀ gidx, gidx < config.numHiddenLayers →
    layerType config gidx = .ok .fullAttention

/- The masks from a cache's sizes and its length. -/
def buildMasks
    (utils : MaskingUtils)
    (config : Qwen2Config)
    (queryLength : Nat)
    (sizes : Nat × Nat)
    (seqLength : Nat)
    (attentionMask : Option (List Bool)) :
    Masks where
  fullAttention :=
    utils.createCausalMask queryLength sizes seqLength
      attentionMask
  slidingAttention :=
    if config.layerTypes.contains .slidingAttention then
      utils.createSlidingWindowCausalMask.map (fun create =>
        create queryLength sizes seqLength attentionMask)
    else none

/- masks[self._layer_type(gidx)] -/
def maskOf
    (config : Qwen2Config)
    (masks : Masks)
    (gidx : Nat) :
    Except StageError AttentionMask :=
  (layerType config gidx).bind masks.get

/-
  The layer loop: each layer runs on its own slot, under
  the mask of its type.
-/
def runLayers
    (config : Qwen2Config)
    (masks : Masks)
    (positionIds : List Nat) :
    List (Nat × DecoderLayer H R) → List H → LayeredKV R →
      Except StageError (List H × LayeredKV R)
| [], hidden, kv => .ok (hidden, kv)
| (gidx, layer) :: rest, hidden, kv => do
    let mask ← maskOf config masks gidx
    let (hidden, rows) ←
      layer.forward mask positionIds hidden (kv.slot gidx)
    runLayers config masks positionIds rest hidden
      (kv.update gidx rows)

namespace LayeredStage

/- The masks of a call without a tree mask. -/
def masks
    (utils : MaskingUtils)
    (stage : LayeredStage H R)
    (queryLength : Nat)
    (kv : LayeredKV R)
    (attentionMask : Option (List Bool)) :
    Masks :=
  buildMasks utils stage.config queryLength
    (kv.getMaskSizes queryLength) kv.getSeqLength
    attentionMask

/-
  Run the block.  A tree mask is used as it is for every
  layer, and the padding mask is ignored then.
-/
def forward
    (utils : MaskingUtils)
    (stage : LayeredStage H R)
    (hidden : List H)
    (positionIds : List Nat)
    (kv : LayeredKV R)
    (attentionMask : Option (List Bool))
    (treeMask : Option AttentionMask) :
    Except StageError (List H × LayeredKV R) :=
  let masks :=
    match treeMask with
    | some mask => ⟨mask, some mask⟩
    | none =>
      stage.masks utils hidden.length kv attentionMask
  runLayers stage.config masks positionIds
    (stage.layerIndices.zip stage.layers) hidden kv

end LayeredStage

/- The decoder of a loaded model. -/
structure Qwen2Model (H R : Type) where
  layers : List (DecoderLayer H R)
  config : Qwen2Config

/- The stage of the global layers [start, stop). -/
def stageForRange
    (model : Qwen2Model H R)
    (start stop : Nat) :
    Option (LayeredStage H R) :=
  let idxs := List.range' start (stop - start)
  match hPick : Select.pick model.layers idxs with
  | none => none
  | some layers =>
    some
      { layers := layers
        layerIndices := idxs
        config := model.config
        aligned := Select.length_of_pick hPick }

/- The layer ranges between consecutive cuts. -/
def cutRanges
    (numLayers : Nat)
    (boundaries : List Nat) :
    List (Nat × Nat) :=
  let cuts := 0 :: (boundaries ++ [numLayers])
  cuts.zip cuts.tail

/- One stage between each two consecutive cuts. -/
def splitModel
    (model : Qwen2Model H R)
    (boundaries : List Nat) :
    Option (List (LayeredStage H R)) :=
  (cutRanges model.config.numHiddenLayers boundaries).mapM
    (fun range => stageForRange model range.1 range.2)

end CircuitDllm

------------------------------------------------------------
-- Frames of One Session
------------------------------------------------------------

namespace CircuitDllm

variable {H R : Type}

/-
  What a stage is asked for one session, beside the hidden
  states an activation carries.
-/
inductive StageOp where
  | activation (pos : Nat)
  | batchActivation
      (pos : Nat) (positionIds : List Nat)
      (attn : List Bool)
  | treeActivation
      (pos : Nat) (treePositions : List Nat)
      (treeParents : List Int)
  | kvReset
  | kvTruncate (length : Nat)
  | kvTreeKeep (prefixLen : Nat) (slots : List Nat)
  | kvFree
deriving DecidableEq, Repr

/-
  The cache an activation runs on: pos == 0 starts a fresh
  one, and so does a session without any.
-/
def getCache
    (config : Qwen2Config)
    (cache : Option (LayeredKV R))
    (pos : Nat) :
    LayeredKV R :=
  match cache with
  | none => LayeredKV.init config
  | some kv =>
    if pos = 0 then LayeredKV.init config else kv

/- build_tree_mask, with its errors under this module's. -/
def treeMaskRows
    (treeParents : List Int)
    (pos : Nat) :
    Except StageError AttentionMask :=
  match buildTreeMask treeParents pos
      treeParents.length with
  | .error .index => .error .index
  | .error .running => .error .running
  | .ok rows => .ok rows

/-
  What an activation runs with: the start position, its
  position ids, its padding mask and its tree mask.
-/
structure ForwardCall where
  pos : Nat
  positionIds : List Nat
  attentionMask : Option (List Bool)
  treeMask : Option AttentionMask

/- The forward an operation asks for; none is a KV_CTRL. -/
def StageOp.forwardCall
    (queryLength : Nat) :
    StageOp → Option (Except StageError ForwardCall)
| .activation pos =>
    some (.ok
      ⟨pos, List.range' pos queryLength, none, none⟩)
| .batchActivation pos positionIds attn =>
    some (.ok ⟨pos, positionIds, some attn, none⟩)
| .treeActivation pos treePositions treeParents =>
    some ((treeMaskRows treeParents pos).map (fun rows =>
      ⟨pos, treePositions, none, some rows⟩))
| _ => none

/-
  KV_CTRL: an unknown session is ignored, and freeing one
  drops its cache.
-/
def kvControl
    (config : Qwen2Config)
    (op : StageOp)
    (cache : Option (LayeredKV R)) :
    Except StageError (Option (LayeredKV R)) :=
  match op, cache with
  | .kvReset, some kv => .ok (some (kv.reset config))
  | .kvTruncate length, some kv =>
    .ok (some (kv.truncateTo length))
  | .kvTreeKeep prefixLen slots, some kv =>
    match kv.keepTreePath prefixLen slots with
    | none => .error .index
    | some kv => .ok (some kv)
  | .kvFree, _ => .ok none
  | _, cache => .ok cache

/-
  One frame at one stage.  A KV_CTRL frame carries no hidden
  states and answers none.
-/
def LayeredStage.handle
    (utils : MaskingUtils)
    (stage : LayeredStage H R)
    (op : StageOp)
    (hidden : List H)
    (cache : Option (LayeredKV R)) :
    Except StageError (List H × Option (LayeredKV R)) :=
  match op.forwardCall hidden.length with
  | some call => do
    let call ← call
    let (hidden, kv) ←
      stage.forward utils hidden call.positionIds
        (getCache stage.config cache call.pos)
        call.attentionMask call.treeMask
    .ok (hidden, some kv)
  | none => do
    let cache ← kvControl stage.config op cache
    .ok (hidden, cache)

/- One frame relayed through the stages in order. -/
def relayStages
    (utils : MaskingUtils)
    (op : StageOp) :
    List (LayeredStage H R) → List H →
      List (Option (LayeredKV R)) →
      Except StageError
        (List H × List (Option (LayeredKV R)))
| stage :: stages, hidden, cache :: caches => do
    let (hidden, cache) ←
      stage.handle utils op hidden cache
    let (hidden, caches) ←
      relayStages utils op stages hidden caches
    .ok (hidden, cache :: caches)
| _, hidden, caches => .ok (hidden, caches)

/- A session's frames, one after the other. -/
def relayAll
    (utils : MaskingUtils)
    (stages : List (LayeredStage H R)) :
    List (StageOp × List H) →
      List (Option (LayeredKV R)) →
      Except StageError
        (List (List H) × List (Option (LayeredKV R)))
| [], caches => .ok ([], caches)
| (op, hidden) :: frames, caches => do
    let (out, caches) ←
      relayStages utils op stages hidden caches
    let (outs, caches) ← relayAll utils stages frames caches
    .ok (out :: outs, caches)

end CircuitDllm

------------------------------------------------------------
-- The Single-Process Model
------------------------------------------------------------

namespace CircuitDllm

variable {H R : Type}

/- The library's own cache reads slot 0. -/
def dynamicSeqLength (kv : LayeredKV R) : Nat :=
  (kv.slot 0).length

/-
  The forward of the whole model in one process, on the
  library's own cache: all layers, masks sized by slot 0.
-/
def referenceForward
    (utils : MaskingUtils)
    (model : Qwen2Model H R)
    (hidden : List H)
    (positionIds : List Nat)
    (kv : LayeredKV R)
    (attentionMask : Option (List Bool))
    (treeMask : Option AttentionMask) :
    Except StageError (List H × LayeredKV R) :=
  let masks :=
    match treeMask with
    | some mask => ⟨mask, some mask⟩
    | none =>
      buildMasks utils model.config hidden.length
        (dynamicSeqLength kv + hidden.length, 0)
        (dynamicSeqLength kv) attentionMask
  runLayers model.config masks positionIds
    ((List.range model.layers.length).zip model.layers)
    hidden kv

/- The whole model asked for the same as a stage. -/
def referenceHandle
    (utils : MaskingUtils)
    (model : Qwen2Model H R)
    (op : StageOp)
    (hidden : List H)
    (cache : Option (LayeredKV R)) :
    Except StageError (List H × Option (LayeredKV R)) :=
  match op.forwardCall hidden.length with
  | some call => do
    let call ← call
    let (hidden, kv) ←
      referenceForward utils model hidden call.positionIds
        (getCache model.config cache call.pos)
        call.attentionMask call.treeMask
    .ok (hidden, some kv)
  | none => do
    let cache ← kvControl model.config op cache
    .ok (hidden, cache)

/- A session on the whole model. -/
def referenceAll
    (utils : MaskingUtils)
    (model : Qwen2Model H R) :
    List (StageOp × List H) → Option (LayeredKV R) →
      Except StageError
        (List (List H) × Option (LayeredKV R))
| [], cache => .ok ([], cache)
| (op, hidden) :: frames, cache => do
    let (out, cache) ←
      referenceHandle utils model op hidden cache
    let (outs, cache) ←
      referenceAll utils model frames cache
    .ok (out :: outs, cache)

end CircuitDllm
