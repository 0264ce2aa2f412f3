import CircuitDllm.Kv.Layers

/-
  A split model is the model (engine/stage.py,
  engine/kv.py).

  `Uniform` says that every slot of a cache holds equally
  many rows.  It is what makes the length a stage reads from
  its first populated slot the length the whole model reads
  from slot 0, and every frame keeps it.  From it follows
  that the stages of any cut of the layers answer every
  frame of a session as the single-process model does, error
  for error, and hold its slots between them.

  Main declarations:
    * `blockForward`, `BlockOp.Composes`
    * `relay_slices`
    * `relayAll_split`
-/

------------------------------------------------------------
-- Blocks of Layers
------------------------------------------------------------

namespace CircuitDllm

variable {H R : Type}

/- An operation on a block of layers and their slots. -/
abbrev BlockOp (H R : Type) :=
  Nat → List (DecoderLayer H R) → List H → List (List R) →
    Except StageError (List H × List (List R))

/-
  Layers with their own slots side by side; the block starts
  at global index `gidx`.
-/
def blockForward
    (maskOf : Nat → Except StageError AttentionMask)
    (positionIds : List Nat) :
    BlockOp H R
| gidx, layer :: layers, hidden, rows :: slots => do
    let mask ← maskOf gidx
    let (hidden, rows) ←
      layer.forward mask positionIds hidden rows
    let (hidden, slots) ←
      blockForward maskOf positionIds (gidx + 1) layers
        hidden slots
    .ok (hidden, rows :: slots)
| _, _, hidden, slots => .ok (hidden, slots)

/- A cache operation that treats every slot alike. -/
def slotwise
    (onSlot : List R → Option (List R)) :
    BlockOp H R :=
  fun _ _ hidden slots =>
    match slots.mapM onSlot with
    | none => .error .index
    | some slots => .ok (hidden, slots)

/-
  What lets an operation run block by block: doing two
  adjacent blocks one after the other is doing both.
-/
structure BlockOp.Composes (f : BlockOp H R) : Prop where
  nil : ∀ gidx hidden, f gidx [] hidden [] = .ok (hidden, [])
  append :
    ∀ gidx layers layers' hidden slots slots',
      slots.length = layers.length →
      f gidx (layers ++ layers') hidden (slots ++ slots') =
        (f gidx layers hidden slots).bind (fun r =>
          (f (gidx + layers.length) layers' r.1 slots').map
            (fun r' => (r'.1, r.2 ++ r'.2)))
  keeps :
    ∀ gidx layers hidden slots r,
      f gidx layers hidden slots = .ok r →
      slots.length = layers.length →
      r.1.length = hidden.length ∧
        r.2.length = slots.length

theorem mapM_length
    {A B : Type}
    {f : A → Option B}
    {xs : List A}
    {ys : List B}
    (hMap : xs.mapM f = some ys) :
    ys.length = xs.length := by
  induction xs generalizing ys with
  | nil =>
      obtain rfl : [] = ys := by simpa using hMap
      rfl
  | cons x xs ih =>
      simp only [List.mapM_cons, Option.bind_eq_bind,
        Option.bind_eq_some_iff, Option.pure_def,
        Option.some.injEq] at hMap
      rcases hMap with ⟨y, _, rest, hRest, rfl⟩
      simp [ih hRest]

/- What a layer call returns when it returns. -/
theorem DecoderLayer.forward_eq_ok
    {layer : DecoderLayer H R}
    {mask : AttentionMask}
    {positionIds : List Nat}
    {hidden : List H}
    {rows : List R}
    {r : List H × List R}
    (hCall :
      layer.forward mask positionIds hidden rows = .ok r) :
    r.1.length = hidden.length ∧
      r.2.length = rows.length + hidden.length := by
  unfold DecoderLayer.forward at hCall
  split at hCall
  next hShape =>
    simp only at hCall
    split at hCall
    next => simp at hCall
    next out hOut =>
      obtain rfl := Except.ok.inj hCall
      have hLength := mapM_length hOut
      simp only [List.length_zip, hShape.1, hShape.2,
        min_self] at hLength
      refine ⟨hLength, ?_⟩
      simp [hShape.1]
  next => simp at hCall

/- A block that returns has run its first layer, then the rest. -/
theorem blockForward_cons
    {maskOf : Nat → Except StageError AttentionMask}
    {positionIds : List Nat}
    {gidx : Nat}
    {layer : DecoderLayer H R}
    {layers : List (DecoderLayer H R)}
    {hidden : List H}
    {rows : List R}
    {slots : List (List R)}
    {r : List H × List (List R)}
    (hRun :
      blockForward maskOf positionIds gidx
          (layer :: layers) hidden (rows :: slots) =
        .ok r) :
    ∃ mask out rest,
      layer.forward mask positionIds hidden rows =
          .ok out ∧
        blockForward maskOf positionIds (gidx + 1) layers
            out.1 slots = .ok rest ∧
        r = (rest.1, out.2 :: rest.2) := by
  simp only [blockForward] at hRun
  cases hMask : maskOf gidx with
  | error e => simp [hMask, bind, Except.bind] at hRun
  | ok mask =>
      cases hCall :
          layer.forward mask positionIds hidden rows with
      | error e =>
          simp [hMask, hCall, bind, Except.bind] at hRun
      | ok out =>
          cases hRest :
              blockForward maskOf positionIds (gidx + 1)
                layers out.1 slots with
          | error e =>
              simp [hMask, hCall, hRest, bind, Except.bind]
                at hRun
          | ok rest =>
              refine ⟨mask, out, rest, hCall, hRest, ?_⟩
              simpa [hMask, hCall, hRest, bind, Except.bind]
                using hRun.symm

theorem composes_blockForward
    (maskOf : Nat → Except StageError AttentionMask)
    (positionIds : List Nat) :
    BlockOp.Composes
      (blockForward maskOf positionIds : BlockOp H R) where
  nil := fun _ _ => rfl
  append := by
    intro gidx layers layers' hidden slots slots' hLength
    induction layers generalizing gidx hidden slots with
    | nil =>
        obtain rfl := List.length_eq_zero_iff.mp hLength
        simp only [List.nil_append, blockForward,
          List.length_nil, Nat.add_zero, Except.bind]
        cases blockForward maskOf positionIds gidx layers'
          hidden slots' <;> rfl
    | cons layer layers ih =>
        cases slots with
        | nil => simp at hLength
        | cons rows slots =>
            simp only [List.cons_append, blockForward]
            cases maskOf gidx with
            | error e => rfl
            | ok mask =>
                cases hCall :
                    layer.forward mask positionIds hidden
                      rows with
                | error e => simp [hCall, bind, Except.bind]
                | ok r =>
                    have hRest :=
                      ih (gidx + 1) r.1 slots
                        (by simpa using hLength)
                    simp only [hCall, bind, Except.bind,
                      hRest, List.length_cons]
                    rw [Nat.add_right_comm gidx 1]
                    cases blockForward maskOf positionIds
                        (gidx + 1) layers r.1 slots with
                    | error e => rfl
                    | ok r₁ =>
                        simp only [Except.map]
                        cases blockForward maskOf positionIds
                          (gidx + layers.length + 1) layers'
                          r₁.1 slots' <;> rfl
  keeps := by
    intro gidx layers hidden slots r hRun hLength
    induction layers generalizing gidx hidden slots r with
    | nil =>
        obtain rfl := Except.ok.inj hRun
        exact ⟨rfl, rfl⟩
    | cons layer layers ih =>
        cases slots with
        | nil => simp at hLength
        | cons rows slots =>
            rcases blockForward_cons hRun with
              ⟨mask, out, rest, hCall, hRest, rfl⟩
            have hKept :=
              ih _ _ _ _ hRest (by simpa using hLength)
            have hOut := DecoderLayer.forward_eq_ok hCall
            simp [hKept.1, hKept.2, hOut.1]

theorem composes_slotwise
    (onSlot : List R → Option (List R)) :
    BlockOp.Composes (slotwise onSlot : BlockOp H R) where
  nil := fun _ _ => rfl
  append := by
    intro gidx layers layers' hidden slots slots' _
    simp only [slotwise, List.mapM_append]
    cases slots.mapM onSlot with
    | none => rfl
    | some kept =>
        simp only [Except.bind]
        cases slots'.mapM onSlot <;> rfl
  keeps := by
    intro gidx layers hidden slots r hRun _
    unfold slotwise at hRun
    split at hRun
    next => simp at hRun
    next kept hKept =>
      obtain rfl := Except.ok.inj hRun
      exact ⟨rfl, mapM_length hKept⟩

end CircuitDllm

------------------------------------------------------------
-- The Layer Loop on a Block
------------------------------------------------------------

namespace CircuitDllm

variable {H R : Type}

theorem slot_append
    (before slots : LayeredKV R)
    (rows : List R) :
    LayeredKV.slot (before ++ rows :: slots)
        before.length = rows := by
  simp [LayeredKV.slot]

theorem update_append
    (before slots : LayeredKV R)
    (rows rows' : List R) :
    LayeredKV.update (before ++ rows :: slots)
        before.length rows' =
      before ++ rows' :: slots := by
  have hRoom :
      before.length + 1 - (before ++ rows :: slots).length =
        0 := by
    simp
  rw [LayeredKV.update, hRoom]
  simp

/-
  The indexed loop over a block touches the block's slots
  and nothing around them.
-/
theorem runLayers_block
    (config : Qwen2Config)
    (masks : Masks)
    (positionIds : List Nat)
    (layers : List (DecoderLayer H R))
    (hidden : List H)
    (before slots after : LayeredKV R)
    (hLength : slots.length = layers.length) :
    runLayers config masks positionIds
        ((List.range' before.length layers.length).zip
          layers)
        hidden (before ++ slots ++ after) =
      (blockForward
        (maskOf config masks) positionIds before.length
        layers hidden slots).map
        (fun r => (r.1, before ++ r.2 ++ after)) := by
  induction layers generalizing hidden before slots with
  | nil =>
      obtain rfl := List.length_eq_zero_iff.mp hLength
      rfl
  | cons layer layers ih =>
      cases slots with
      | nil => simp at hLength
      | cons rows slots =>
          simp only [List.length_cons, List.range'_succ,
            List.zip_cons_cons, runLayers, blockForward,
            List.append_assoc, List.cons_append,
            slot_append, update_append]
          cases maskOf config masks before.length with
          | error e => rfl
          | ok mask =>
              cases hCall :
                  layer.forward mask positionIds hidden
                    rows with
              | error e =>
                  simp [hCall, bind, Except.bind, Except.map]
              | ok r =>
                  have hRest :=
                    ih r.1 (before ++ [r.2]) slots
                      (by simpa using hLength)
                  simp only [List.length_append,
                    List.length_singleton, List.append_assoc,
                    List.nil_append,
                    List.cons_append] at hRest
                  simp only [hCall, bind, Except.bind, hRest]
                  cases blockForward (maskOf config masks)
                    positionIds (before.length + 1) layers
                    r.1 slots <;> simp [Except.map]

end CircuitDllm

------------------------------------------------------------
-- Slices of a Cache
------------------------------------------------------------

namespace CircuitDllm

variable {H R : Type}

namespace LayeredKV

/- The cache with every slot outside a range empty. -/
def slice
    (start stop : Nat)
    (kv : LayeredKV R) :
    LayeredKV R :=
  List.replicate start [] ++ (kv.take stop).drop start ++
    List.replicate (kv.length - stop) []

/- Every slot holds the same number of rows. -/
def Uniform (kv : LayeredKV R) (length : Nat) : Prop :=
  ∀ layer ∈ kv, layer.length = length

/- The slots of a range, with what is around them. -/
theorem slice_append
    (before slots after : LayeredKV R) :
    slice before.length (before.length + slots.length)
        (before ++ slots ++ after) =
      List.replicate before.length [] ++ slots ++
        List.replicate after.length [] := by
  have hTake :
      (before ++ slots ++ after).take
          (before.length + slots.length) =
        before ++ slots := by
    rw [List.take_left' (by simp)]
  have hAfter :
      (before ++ slots ++ after).length -
          (before.length + slots.length) =
        after.length := by
    simp only [List.length_append]
    omega
  rw [slice, hTake, hAfter, List.drop_left]

/- A slice does not see the slots before it. -/
theorem slice_congr
    {before before' : LayeredKV R}
    (hLength : before.length = before'.length)
    {start : Nat}
    (hStart : before.length ≤ start)
    (stop : Nat)
    (slots : LayeredKV R) :
    slice start stop (before ++ slots) =
      slice start stop (before' ++ slots) := by
  have hDrop (front : LayeredKV R)
      (hFront : front.length = before.length) :
      ((front ++ slots).take stop).drop start =
        (slots.take (stop - before.length)).drop
          (start - before.length) := by
    rw [List.take_append, hFront, List.drop_append,
      List.drop_of_length_le (by simp; omega),
      List.nil_append, List.length_take, hFront]
    rcases Nat.le_total before.length stop with hLe | hLe
    · rw [Nat.min_eq_right hLe]
    · rw [Nat.sub_eq_zero_of_le hLe]
      simp
  simp only [slice, List.length_append, hLength,
    hDrop before rfl, hDrop before' hLength.symm]

theorem slice_init
    (config : Qwen2Config)
    {start stop : Nat}
    (hStart : start ≤ stop)
    (hStop : stop ≤ config.numHiddenLayers) :
    slice start stop (init config : LayeredKV R) =
      init config := by
  simp only [slice, init, List.take_replicate,
    List.drop_replicate, List.length_replicate,
    List.replicate_append_replicate]
  congr 1
  omega

/- Empty slots in front do not count. -/
theorem getSeqLength_replicate
    (count : Nat)
    (kv : LayeredKV R) :
    getSeqLength (List.replicate count [] ++ kv) =
      kv.getSeqLength := by
  induction count with
  | zero => rfl
  | succ count ih =>
      simpa [List.replicate_succ, getSeqLength] using ih

theorem getMaskSizes_replicate
    (queryLength count : Nat)
    (kv : LayeredKV R) :
    getMaskSizes queryLength
        (List.replicate count [] ++ kv) =
      kv.getMaskSizes queryLength := by
  induction count with
  | zero => rfl
  | succ count ih =>
      simpa [List.replicate_succ, getMaskSizes] using ih

/- A stage with a layer reads the common length. -/
theorem getSeqLength_slice
    (start count length : Nat)
    (rows : List R)
    (slots : LayeredKV R)
    (hUniform : Uniform (rows :: slots) length) :
    getSeqLength
        (List.replicate start [] ++ (rows :: slots) ++
          List.replicate count []) =
      length := by
  rw [List.append_assoc, getSeqLength_replicate]
  have hRows : rows.length = length := hUniform _ (by simp)
  rcases Nat.eq_zero_or_pos length with rfl | hPos
  · have hAll :
        rows :: slots =
          List.replicate (slots.length + 1) [] := by
      apply List.eq_replicate_iff.mpr
      refine ⟨by simp, ?_⟩
      intro layer hLayer
      exact List.length_eq_zero_iff.mp
        (hUniform layer hLayer)
    rw [hAll, getSeqLength_replicate]
    simpa [getSeqLength] using
      getSeqLength_replicate count ([] : LayeredKV R)
  · simp only [List.cons_append, getSeqLength]
    rw [if_pos (by omega), hRows]

theorem getMaskSizes_slice
    (queryLength start count length : Nat)
    (rows : List R)
    (slots : LayeredKV R)
    (hUniform : Uniform (rows :: slots) length) :
    getMaskSizes queryLength
        (List.replicate start [] ++ (rows :: slots) ++
          List.replicate count []) =
      (length + queryLength, 0) := by
  rw [List.append_assoc, getMaskSizes_replicate]
  have hRows : rows.length = length := hUniform _ (by simp)
  rcases Nat.eq_zero_or_pos length with rfl | hPos
  · have hAll :
        rows :: slots =
          List.replicate (slots.length + 1) [] := by
      apply List.eq_replicate_iff.mpr
      refine ⟨by simp, ?_⟩
      intro layer hLayer
      exact List.length_eq_zero_iff.mp
        (hUniform layer hLayer)
    rw [hAll, getMaskSizes_replicate, Nat.zero_add]
    simpa [getMaskSizes] using
      getMaskSizes_replicate queryLength count
        ([] : LayeredKV R)
  · simp only [List.cons_append, getMaskSizes]
    rw [if_pos (by omega), hRows]

end LayeredKV

end CircuitDllm

------------------------------------------------------------
-- One Frame Through the Stages
------------------------------------------------------------

namespace CircuitDllm

variable {H R : Type}

namespace LayeredStage

/- The stage holds `layers`, from global index `start` on. -/
structure IsRange
    (stage : LayeredStage H R)
    (config : Qwen2Config)
    (start : Nat)
    (layers : List (DecoderLayer H R)) : Prop where
  layers_eq : stage.layers = layers
  indices_eq :
    stage.layerIndices = List.range' start layers.length
  config_eq : stage.config = config

end LayeredStage

/- Consecutive blocks, the first one starting at `start`. -/
def Staged
    (config : Qwen2Config) :
    Nat → List (LayeredStage H R) →
      List (List (DecoderLayer H R)) → Prop
| _, [], [] => True
| start, stage :: stages, layers :: blocks =>
    stage.IsRange config start layers ∧
      Staged config (start + layers.length) stages blocks
| _, _, _ => False

/- A value for each block, from where it starts and stops. -/
def perBlock
    {A : Type}
    (value : Nat → Nat → A) :
    Nat → List (List (DecoderLayer H R)) → List A
| _, [] => []
| start, layers :: blocks =>
    value start (start + layers.length) ::
      perBlock value (start + layers.length) blocks

theorem perBlock_congr
    {A : Type}
    {value value' : Nat → Nat → A}
    (start : Nat)
    (blocks : List (List (DecoderLayer H R)))
    (hEq :
      ∀ i j, start ≤ i →
        value i j = value' i j) :
    perBlock value start blocks =
      perBlock value' start blocks := by
  induction blocks generalizing start with
  | nil => rfl
  | cons layers blocks ih =>
      simp only [perBlock, hEq start _ le_rfl]
      rw [ih _ (fun i j hStart =>
        hEq i j (by omega))]

/- The slots of the first block, then those of the others. -/
theorem perBlock_slices_cons
    {kv kept rest : LayeredKV R}
    {start : Nat}
    (layers : List (DecoderLayer H R))
    (blocks : List (List (DecoderLayer H R)))
    (hKept : kept.length = layers.length)
    (hRest :
      start + layers.length + rest.length = kv.length) :
    perBlock
        (fun i j =>
          some (LayeredKV.slice i j
            (kv.take start ++ (kept ++ rest))))
        start (layers :: blocks) =
      some (List.replicate start [] ++ kept ++
          List.replicate
            (kv.length - (start + layers.length)) []) ::
        perBlock
          (fun i j =>
            some (LayeredKV.slice i j
              (kv.take (start + layers.length) ++ rest)))
          (start + layers.length) blocks := by
  have hBefore : (kv.take start).length = start := by
    simp
    omega
  have hSlice :=
    LayeredKV.slice_append (kv.take start) kept rest
  rw [hBefore, hKept] at hSlice
  have hAfter :
      kv.length - (start + layers.length) = rest.length := by
    omega
  have hOthers :
      ∀ i j,
        start + layers.length ≤ i →
        some
            (LayeredKV.slice i j
              (kv.take start ++ (kept ++ rest))) =
          some
            (LayeredKV.slice i j
              (kv.take (start + layers.length) ++ rest)) := by
    intro i j hStart
    have hSame :
        (kv.take start ++ kept).length =
          (kv.take (start + layers.length)).length := by
      simp [hKept]
      omega
    rw [← List.append_assoc,
      LayeredKV.slice_congr hSame (by simp [hKept]; omega)]
  rw [hAfter]
  simp only [perBlock]
  rw [perBlock_congr _ _ hOthers, ← List.append_assoc, hSlice]

/-
  Stages that each do their own block of a composing
  operation do, one after the other, the whole of it.
-/
theorem relay_slices
    {f : BlockOp H R}
    (hCompose : f.Composes)
    (utils : MaskingUtils)
    (op : StageOp)
    (config : Qwen2Config)
    (queryLength : Nat)
    (kv : LayeredKV R)
    (cacheAt : Nat → Nat → Option (LayeredKV R))
    (hStep :
      ∀ (stage : LayeredStage H R) start layers hidden,
        stage.IsRange config start layers →
        start + layers.length ≤ kv.length →
        hidden.length = queryLength →
        stage.handle utils op hidden
            (cacheAt start (start + layers.length)) =
          (f start layers hidden
            ((kv.drop start).take layers.length)).map
            (fun r =>
              (r.1, some (List.replicate start [] ++ r.2 ++
                List.replicate
                  (kv.length - (start + layers.length))
                  []))))
    (stages : List (LayeredStage H R))
    (blocks : List (List (DecoderLayer H R)))
    (start : Nat)
    (hidden : List H)
    (hStaged : Staged config start stages blocks)
    (hTotal :
      start + blocks.flatten.length = kv.length)
    (hHidden : hidden.length = queryLength) :
    relayStages utils op stages hidden
        (perBlock cacheAt start blocks) =
      (f start blocks.flatten hidden (kv.drop start)).map
        (fun r =>
          (r.1,
            perBlock
              (fun i j =>
                some
                  (LayeredKV.slice i j
                    (kv.take start ++ r.2)))
              start blocks)) := by
  induction blocks generalizing start stages hidden with
  | nil =>
      cases stages with
      | cons => exact hStaged.elim
      | nil =>
          have hEnd : kv.drop start = [] := by
            apply List.drop_of_length_le
            simp at hTotal
            omega
          rw [hEnd]
          simp [relayStages, perBlock, hCompose.nil,
            Except.map]
  | cons layers blocks ih =>
      cases stages with
      | nil => exact hStaged.elim
      | cons stage stages =>
          simp only [List.flatten_cons, List.length_append]
            at hTotal
          have hSplit :
              kv.drop start =
                (kv.drop start).take layers.length ++
                  kv.drop (start + layers.length) := by
            conv_lhs =>
              rw [← List.take_append_drop layers.length
                (kv.drop start)]
            rw [List.drop_drop]
          have hSlots :
              ((kv.drop start).take layers.length).length =
                layers.length := by
            simp
            omega
          have hHead :=
            hStep stage start layers hidden hStaged.1
              (by omega) hHidden
          rw [List.flatten_cons, hSplit,
            hCompose.append _ _ _ _ _ _ hSlots]
          simp only [perBlock, relayStages, hHead]
          cases hFirst :
              f start layers hidden
                ((kv.drop start).take layers.length) with
          | error e => rfl
          | ok r =>
              have hKept :=
                hCompose.keeps _ _ _ _ _ hFirst hSlots
              have hRest :=
                ih stages (start + layers.length) r.1
                  hStaged.2 (by omega)
                  (by rw [hKept.1, hHidden])
              simp only [Except.map, bind, Except.bind]
              rw [hRest]
              cases hTail :
                  f (start + layers.length) blocks.flatten
                    r.1 (kv.drop (start + layers.length)) with
              | error e => rfl
              | ok r' =>
                  have hKept' :=
                    hCompose.keeps _ _ _ _ _ hTail
                      (by rw [List.length_drop]; omega)
                  rw [List.length_drop] at hKept'
                  simp only [Except.map]
                  rw [← perBlock_slices_cons layers blocks
                    (hKept.2.trans hSlots) (by omega)]
                  rfl

end CircuitDllm

------------------------------------------------------------
-- Forward Passes
------------------------------------------------------------

namespace CircuitDllm

variable {H R : Type}

/- The masks of a call on a cache of `length` rows a slot. -/
def callMasks
    (utils : MaskingUtils)
    (config : Qwen2Config)
    (queryLength length : Nat)
    (attentionMask : Option (List Bool))
    (treeMask : Option AttentionMask) :
    Masks :=
  match treeMask with
  | some mask => ⟨mask, some mask⟩
  | none =>
    buildMasks utils config queryLength
      (length + queryLength, 0) length attentionMask

/-
  A stage sees its own slots only, and builds the masks of
  the whole model from them.
-/
theorem LayeredStage.forward_slice
    (utils : MaskingUtils)
    {config : Qwen2Config}
    {stage : LayeredStage H R}
    {layers : List (DecoderLayer H R)}
    (hidden : List H)
    (positionIds : List Nat)
    (attentionMask : Option (List Bool))
    (treeMask : Option AttentionMask)
    (before slots after : LayeredKV R)
    (length : Nat)
    (hStage : stage.IsRange config before.length layers)
    (hLength : slots.length = layers.length)
    (hUniform : LayeredKV.Uniform slots length) :
    stage.forward utils hidden positionIds
        (List.replicate before.length [] ++ slots ++
          List.replicate after.length [])
        attentionMask treeMask =
      (blockForward
        (maskOf config
          (callMasks utils config hidden.length length
            attentionMask treeMask))
        positionIds before.length layers hidden slots).map
        (fun r =>
          (r.1, List.replicate before.length [] ++ r.2 ++
            List.replicate after.length [])) := by
  have hLoop (masks : Masks) :
      runLayers config masks positionIds
          ((List.range' before.length layers.length).zip
            layers)
          hidden
          (List.replicate before.length [] ++ slots ++
            List.replicate after.length []) =
        (blockForward (maskOf config masks) positionIds
          before.length layers hidden slots).map
          (fun r =>
            (r.1, List.replicate before.length [] ++ r.2 ++
              List.replicate after.length [])) := by
    have hBlock :=
      runLayers_block config masks positionIds layers hidden
        (List.replicate before.length []) slots
        (List.replicate after.length []) hLength
    rwa [List.length_replicate] at hBlock
  unfold LayeredStage.forward
  rw [hStage.layers_eq, hStage.indices_eq,
    hStage.config_eq, hLoop]
  cases layers with
  | nil =>
      -- a stage without layers passes everything through
      obtain rfl := List.length_eq_zero_iff.mp hLength
      rfl
  | cons layer layers =>
      cases slots with
      | nil => simp at hLength
      | cons rows slots =>
          cases treeMask with
          | some mask => rfl
          | none =>
              simp only [masks, callMasks, hStage.config_eq,
                LayeredKV.getSeqLength_slice _ _ _ _ _
                  hUniform,
                LayeredKV.getMaskSizes_slice _ _ _ _ _ _
                  hUniform]

/- The whole model is the block of all layers. -/
theorem referenceForward_eq
    (utils : MaskingUtils)
    (model : Qwen2Model H R)
    (hidden : List H)
    (positionIds : List Nat)
    (kv : LayeredKV R)
    (attentionMask : Option (List Bool))
    (treeMask : Option AttentionMask)
    (length : Nat)
    (hLength : kv.length = model.layers.length)
    (hUniform : kv.Uniform length) :
    referenceForward utils model hidden positionIds kv
        attentionMask treeMask =
      blockForward
        (maskOf model.config
          (callMasks utils model.config hidden.length length
            attentionMask treeMask))
        positionIds 0 model.layers hidden kv := by
  have hLoop (masks : Masks) :
      runLayers model.config masks positionIds
          ((List.range model.layers.length).zip
            model.layers) hidden kv =
        blockForward (maskOf model.config masks) positionIds
          0 model.layers hidden kv := by
    have hBlock :=
      runLayers_block model.config masks positionIds
        model.layers hidden [] kv [] hLength
    simp only [List.length_nil, List.nil_append,
      List.append_nil, ← List.range_eq_range'] at hBlock
    rw [hBlock]
    cases blockForward (maskOf model.config masks)
      positionIds 0 model.layers hidden kv <;> rfl
  unfold referenceForward
  rw [hLoop]
  cases kv with
  | nil =>
      have hNone : model.layers = [] :=
        List.length_eq_zero_iff.mp hLength.symm
      rw [hNone]
      rfl
  | cons rows slots =>
      have hRows : rows.length = length :=
        hUniform _ (by simp)
      have hSeq :
          dynamicSeqLength (rows :: slots) = length := by
        simp [dynamicSeqLength, LayeredKV.slot, hRows]
      cases treeMask with
      | some mask => rfl
      | none => simp only [callMasks, hSeq]

/- Every slot grows by the rows of the chunk. -/
theorem blockForward_uniform
    {maskOf : Nat → Except StageError AttentionMask}
    {positionIds : List Nat}
    {gidx : Nat}
    {layers : List (DecoderLayer H R)}
    {hidden : List H}
    {slots : LayeredKV R}
    {r : List H × LayeredKV R}
    {length : Nat}
    (hRun :
      blockForward maskOf positionIds gidx layers hidden
        slots = .ok r)
    (hLength : slots.length = layers.length)
    (hUniform : slots.Uniform length) :
    LayeredKV.Uniform r.2 (length + hidden.length) := by
  induction layers generalizing gidx hidden slots r with
  | nil =>
      obtain rfl := List.length_eq_zero_iff.mp hLength
      obtain rfl := Except.ok.inj hRun
      simp [LayeredKV.Uniform]
  | cons layer layers ih =>
      cases slots with
      | nil => simp at hLength
      | cons rows slots =>
          rcases blockForward_cons hRun with
            ⟨mask, out, rest, hCall, hRest, rfl⟩
          have hOut := DecoderLayer.forward_eq_ok hCall
          have hKept :=
            ih hRest (by simpa using hLength)
              (fun rows' hRows' =>
                hUniform rows' (by simp [hRows']))
          rw [hOut.1] at hKept
          intro rows' hRows'
          rcases List.mem_cons.mp hRows' with rfl | hRows'
          · rw [hOut.2, hUniform rows (by simp)]
          · exact hKept rows' hRows'

end CircuitDllm

------------------------------------------------------------
-- KV Control
------------------------------------------------------------

namespace CircuitDllm

variable {H R : Type}

namespace LayeredKV

/- A range of a cache, with the empty slots around it. -/
theorem slice_eq
    (kv : LayeredKV R)
    {start count : Nat}
    (hBound : start + count ≤ kv.length) :
    slice start (start + count) kv =
      List.replicate start [] ++
          (kv.drop start).take count ++
        List.replicate
          (kv.drop (start + count)).length [] := by
  have hStart : (kv.take start).length = start := by
    simp
    omega
  have hCount :
      ((kv.drop start).take count).length = count := by
    simp
    omega
  have hWhole :
      kv.take start ++ (kv.drop start).take count ++
          kv.drop (start + count) = kv := by
    rw [List.append_assoc, ← List.drop_drop,
      List.take_append_drop, List.take_append_drop]
  have hSlice :=
    slice_append (kv.take start)
      ((kv.drop start).take count) (kv.drop (start + count))
  rwa [hWhole, hStart, hCount] at hSlice

theorem slice_truncateTo
    (start stop length : Nat)
    (kv : LayeredKV R) :
    slice start stop (kv.truncateTo length) =
      (slice start stop kv).truncateTo length := by
  simp [slice, truncateTo, List.map_take, List.map_drop]

theorem uniform_init (config : Qwen2Config) :
    Uniform (init config : LayeredKV R) 0 := by
  intro layer hLayer
  rw [(List.mem_replicate.mp hLayer).2]
  rfl

theorem uniform_truncateTo
    {kv : LayeredKV R}
    {length : Nat}
    (hUniform : kv.Uniform length)
    (target : Nat) :
    Uniform (kv.truncateTo target) (min target length) := by
  intro layer hLayer
  rcases List.mem_map.mp hLayer with ⟨rows, hRows, rfl⟩
  have hLength := hUniform rows hRows
  split
  · omega
  · simp [hLength]

theorem mapM_keepRows_replicate
    (prefixLen : Nat)
    (slots : List Nat)
    (count : Nat) :
    (List.replicate count ([] : List R)).mapM
        (keepRows prefixLen slots) =
      some (List.replicate count []) := by
  induction count with
  | zero => rfl
  | succ count ih =>
      simp [List.replicate_succ, List.mapM_cons, ih,
        keepRows]

theorem mem_of_mapM
    {A B : Type}
    {f : A → Option B}
    {xs : List A}
    {ys : List B}
    (hMap : xs.mapM f = some ys)
    {y : B}
    (hMem : y ∈ ys) :
    ∃ x ∈ xs, f x = some y := by
  induction xs generalizing ys with
  | nil =>
      obtain rfl : [] = ys := by simpa using hMap
      simp at hMem
  | cons x xs ih =>
      simp only [List.mapM_cons, Option.bind_eq_bind,
        Option.bind_eq_some_iff, Option.pure_def,
        Option.some.injEq] at hMap
      rcases hMap with ⟨first, hFirst, rest, hRest, rfl⟩
      rcases List.mem_cons.mp hMem with rfl | hMem
      · exact ⟨x, by simp, hFirst⟩
      · rcases ih hRest hMem with ⟨x', hx', hf⟩
        exact ⟨x', by simp [hx'], hf⟩

theorem uniform_keepTreePath
    {kv kept : LayeredKV R}
    {length : Nat}
    (hUniform : kv.Uniform length)
    {prefixLen : Nat}
    {slots : List Nat}
    (hKept : kv.keepTreePath prefixLen slots = some kept) :
    kept.Uniform
      (if length = 0 then 0 else prefixLen + slots.length) := by
  intro layer hLayer
  rcases mem_of_mapM hKept hLayer with ⟨rows, hRows, hKeep⟩
  have hLength := hUniform rows hRows
  unfold keepRows at hKeep
  rw [hLength] at hKeep
  split at hKeep
  next hZero =>
    obtain rfl := Option.some.inj hKeep
    simp [hZero, hLength]
  next hPos =>
    rw [if_neg hPos, Select.length_of_pick hKeep]
    simp

end LayeredKV

/-
  Stages that pass the hidden states on and each leave a
  known cache.
-/
theorem relay_const
    (utils : MaskingUtils)
    (op : StageOp)
    (config : Qwen2Config)
    (hidden : List H)
    (cacheAt value : Nat → Nat → Option (LayeredKV R))
    (total : Nat)
    (hStep :
      ∀ (stage : LayeredStage H R) start layers,
        stage.IsRange config start layers →
        start + layers.length ≤ total →
        stage.handle utils op hidden
            (cacheAt start (start + layers.length)) =
          .ok
            (hidden, value start (start + layers.length)))
    (stages : List (LayeredStage H R))
    (blocks : List (List (DecoderLayer H R)))
    (start : Nat)
    (hStaged : Staged config start stages blocks)
    (hTotal : start + blocks.flatten.length ≤ total) :
    relayStages utils op stages hidden
        (perBlock cacheAt start blocks) =
      .ok (hidden, perBlock value start blocks) := by
  induction blocks generalizing start stages with
  | nil =>
      cases stages with
      | cons => exact hStaged.elim
      | nil => rfl
  | cons layers blocks ih =>
      cases stages with
      | nil => exact hStaged.elim
      | cons stage stages =>
          simp only [List.flatten_cons, List.length_append]
            at hTotal
          have hHead :=
            hStep stage start layers hStaged.1 (by omega)
          have hRest :=
            ih stages (start + layers.length) hStaged.2
              (by omega)
          simp [perBlock, relayStages, hHead, hRest, bind,
            Except.bind]

end CircuitDllm

------------------------------------------------------------
-- Whole Sessions
------------------------------------------------------------

namespace CircuitDllm

variable {H R : Type}

/- The part of a session's cache that one stage holds. -/
def sliceAt
    (cache : Option (LayeredKV R))
    (start stop : Nat) :
    Option (LayeredKV R) :=
  cache.map (LayeredKV.slice start stop)

/- A cache of the model whose slots are equally long. -/
def BalancedSlots
    (config : Qwen2Config)
    (cache : Option (LayeredKV R)) : Prop :=
  ∀ kv ∈ cache,
    kv.length = config.numHiddenLayers ∧
      ∃ length, kv.Uniform length

theorem balancedSlots_getCache
    {config : Qwen2Config}
    {cache : Option (LayeredKV R)}
    (hCache : BalancedSlots config cache)
    (pos : Nat) :
    (getCache config cache pos).length =
        config.numHiddenLayers ∧
      ∃ length, (getCache config cache pos).Uniform length := by
  have hInit :
      (LayeredKV.init config : LayeredKV R).length =
          config.numHiddenLayers ∧
        ∃ length,
          (LayeredKV.init config : LayeredKV R).Uniform
            length :=
    ⟨by simp [LayeredKV.init], 0,
      LayeredKV.uniform_init config⟩
  cases cache with
  | none => exact hInit
  | some kv =>
      simp only [getCache]
      split
      · exact hInit
      · exact hCache kv rfl

theorem getCache_sliceAt
    {config : Qwen2Config}
    (cache : Option (LayeredKV R))
    (pos : Nat)
    {start stop : Nat}
    (hStart : start ≤ stop)
    (hStop : stop ≤ config.numHiddenLayers) :
    getCache config (sliceAt cache start stop) pos =
      LayeredKV.slice start stop
        (getCache config cache pos) := by
  have hInit :=
    LayeredKV.slice_init (R := R) config hStart hStop
  cases cache with
  | none => exact hInit.symm
  | some kv =>
      simp only [getCache, sliceAt, Option.map_some]
      split
      · exact hInit.symm
      · rfl

/- One stage's part of a forward on its part of the cache. -/
theorem handle_forward
    (utils : MaskingUtils)
    {config : Qwen2Config}
    {stage : LayeredStage H R}
    {start : Nat}
    {layers : List (DecoderLayer H R)}
    {op : StageOp}
    {hidden : List H}
    {call : ForwardCall}
    {cache : Option (LayeredKV R)}
    {kv : LayeredKV R}
    {length : Nat}
    (hStage : stage.IsRange config start layers)
    (hCall :
      op.forwardCall hidden.length = some (.ok call))
    (hKv : getCache config cache call.pos = kv)
    (hTotal : kv.length = config.numHiddenLayers)
    (hBound : start + layers.length ≤ kv.length)
    (hUniform : kv.Uniform length) :
    stage.handle utils op hidden
        (sliceAt cache start (start + layers.length)) =
      (blockForward
        (maskOf config
          (callMasks utils config hidden.length length
            call.attentionMask call.treeMask))
        call.positionIds start layers hidden
        ((kv.drop start).take layers.length)).map
        (fun r =>
          (r.1, some (List.replicate start [] ++ r.2 ++
            List.replicate
              (kv.length - (start + layers.length)) []))) := by
  have hBefore : (kv.take start).length = start := by
    simp
    omega
  have hForward :=
    LayeredStage.forward_slice utils hidden
      call.positionIds call.attentionMask call.treeMask
      (kv.take start) ((kv.drop start).take layers.length)
      (kv.drop (start + layers.length)) length
      (by rwa [hBefore]) (by simp; omega)
      (fun rows hRows =>
        hUniform rows
          (List.mem_of_mem_drop
            (List.mem_of_mem_take hRows)))
  have hSlice :
      getCache stage.config
          (sliceAt cache start (start + layers.length))
          call.pos =
        LayeredKV.slice start (start + layers.length) kv := by
    rw [hStage.config_eq,
      getCache_sliceAt cache call.pos (by omega) (by omega),
      hKv]
  rw [hBefore, ← LayeredKV.slice_eq kv hBound] at hForward
  simp only [LayeredStage.handle, hCall, bind, Except.bind,
    hSlice, hForward, List.length_drop]
  cases blockForward
    (maskOf config
      (callMasks utils config hidden.length length
        call.attentionMask call.treeMask))
    call.positionIds start layers hidden
    ((kv.drop start).take layers.length) <;> rfl

/-
  One frame: the stages of a split answer what the whole
  model answers, raise what it raises, and hold its cache
  between them.
-/
structure FrameSplits
    (utils : MaskingUtils)
    (model : Qwen2Model H R)
    (stages : List (LayeredStage H R))
    (blocks : List (List (DecoderLayer H R)))
    (op : StageOp)
    (hidden : List H)
    (cache : Option (LayeredKV R)) : Prop where
  answer :
    relayStages utils op stages hidden
        (perBlock (sliceAt cache) 0 blocks) =
      (referenceHandle utils model op hidden cache).map
        (fun r => (r.1, perBlock (sliceAt r.2) 0 blocks))
  balanced :
    ∀ r, referenceHandle utils model op hidden cache =
        .ok r →
      BalancedSlots model.config r.2

/- A forward through the stages is the whole forward. -/
theorem relay_forward
    (utils : MaskingUtils)
    {model : Qwen2Model H R}
    {stages : List (LayeredStage H R)}
    {blocks : List (List (DecoderLayer H R))}
    {op : StageOp}
    {hidden : List H}
    {call : ForwardCall}
    {cache : Option (LayeredKV R)}
    (hLayers :
      model.layers.length = model.config.numHiddenLayers)
    (hStaged : Staged model.config 0 stages blocks)
    (hBlocks : blocks.flatten = model.layers)
    (hCache : BalancedSlots model.config cache)
    (hCall :
      op.forwardCall hidden.length = some (.ok call)) :
    FrameSplits utils model stages blocks op hidden
      cache := by
  rcases balancedSlots_getCache hCache call.pos with
    ⟨hLength, length, hUniform⟩
  obtain ⟨kv, hKv⟩ :
      ∃ kv, getCache model.config cache call.pos = kv :=
    ⟨_, rfl⟩
  rw [hKv] at hLength hUniform
  have hReference :=
    referenceForward_eq utils model hidden call.positionIds
      kv call.attentionMask call.treeMask length (by omega)
      hUniform
  have hRelay :=
    relay_slices
      (composes_blockForward
        (maskOf model.config
          (callMasks utils model.config hidden.length length
            call.attentionMask call.treeMask))
        call.positionIds)
      utils op model.config hidden.length kv (sliceAt cache)
      (by
        intro stage start layers hidden' hStage hBound hQuery
        rw [← hQuery] at hCall ⊢
        exact
          handle_forward utils hStage hCall hKv hLength
            hBound hUniform)
      stages blocks 0 hidden hStaged
      (by rw [hBlocks]; omega) rfl
  have hWhole :
      referenceHandle utils model op hidden cache =
        (blockForward
          (maskOf model.config
            (callMasks utils model.config hidden.length length
              call.attentionMask call.treeMask))
          call.positionIds 0 model.layers hidden kv).map
          (fun r => (r.1, some r.2)) := by
    simp only [referenceHandle, hCall, bind, Except.bind,
      hKv, hReference]
    cases blockForward
      (maskOf model.config
        (callMasks utils model.config hidden.length length
          call.attentionMask call.treeMask))
      call.positionIds 0 model.layers hidden kv <;> rfl
  refine ⟨?_, ?_⟩
  · rw [hRelay, hWhole, hBlocks, List.drop_zero,
      List.take_zero]
    cases blockForward
      (maskOf model.config
        (callMasks utils model.config hidden.length length
          call.attentionMask call.treeMask))
      call.positionIds 0 model.layers hidden kv <;> rfl
  · rw [hWhole]
    cases hRun :
        blockForward
          (maskOf model.config
            (callMasks utils model.config hidden.length length
              call.attentionMask call.treeMask))
          call.positionIds 0 model.layers hidden kv with
    | error e => simp [Except.map]
    | ok r =>
        rintro _ ⟨rfl⟩
        rintro kv' ⟨rfl⟩
        have hKept :=
          (composes_blockForward _ _).keeps _ _ _ _ _ hRun
            (by omega)
        exact
          ⟨by omega, _,
            blockForward_uniform hRun (by omega) hUniform⟩

/- A tree compaction on a stage's slots. -/
theorem handle_kvTreeKeep
    (utils : MaskingUtils)
    {stage : LayeredStage H R}
    {start : Nat}
    {layers : List (DecoderLayer H R)}
    (hidden : List H)
    (kv : LayeredKV R)
    (prefixLen : Nat)
    (slots : List Nat)
    (hBound : start + layers.length ≤ kv.length) :
    stage.handle utils (.kvTreeKeep prefixLen slots) hidden
        (sliceAt (some kv) start
          (start + layers.length)) =
      (slotwise (LayeredKV.keepRows prefixLen slots) start
        layers hidden
        ((kv.drop start).take layers.length)).map
        (fun r =>
          (r.1, some (List.replicate start [] ++ r.2 ++
            List.replicate
              (kv.length - (start + layers.length)) []))) := by
  have hSlice := LayeredKV.slice_eq kv hBound
  simp only [LayeredStage.handle, StageOp.forwardCall,
    sliceAt, Option.map_some, kvControl,
    LayeredKV.keepTreePath, hSlice, List.mapM_append,
    LayeredKV.mapM_keepRows_replicate, slotwise,
    List.length_drop]
  cases ((kv.drop start).take layers.length).mapM
    (LayeredKV.keepRows prefixLen slots) <;> rfl

end CircuitDllm

------------------------------------------------------------
-- Splitting the Model
------------------------------------------------------------

namespace CircuitDllm

variable {H R : Type}

theorem stageForRange_isRange
    (model : Qwen2Model H R)
    {start stop : Nat}
    (hStart : start ≤ stop)
    (hStop : stop ≤ model.layers.length) :
    ∃ stage,
      stageForRange model start stop = some stage ∧
        stage.IsRange model.config start
          ((model.layers.take stop).drop start) := by
  have hPick :
      Select.pick model.layers
          (List.range' start (stop - start)) =
        some ((model.layers.take stop).drop start) := by
    have hBlock :
        ((model.layers.take stop).drop start).length =
          stop - start := by
      simp
      omega
    have hBefore :
        (model.layers.take start).length = start := by
      simp
      omega
    have hWhole :
        model.layers.take start ++
            ((model.layers.take stop).drop start ++
              model.layers.drop stop) =
          model.layers := by
      rw [show model.layers.take start =
          (model.layers.take stop).take start by
        rw [List.take_take, Nat.min_eq_left hStart]]
      rw [← List.append_assoc, List.take_append_drop,
        List.take_append_drop]
    have hShift :=
      Select.pick_shift (model.layers.take start)
        ((model.layers.take stop).drop start ++
          model.layers.drop stop)
        (List.range (stop - start))
    have hPrefix :=
      Select.pick_prefix
        ((model.layers.take stop).drop start)
        (model.layers.drop stop)
    rw [hBlock] at hPrefix
    rw [hWhole, hBefore, hPrefix] at hShift
    rw [← hShift, List.range'_eq_map_range]
  simp only [stageForRange]
  split
  next hNone => simp [hPick] at hNone
  next layers hSome =>
    obtain rfl :
        (model.layers.take stop).drop start = layers := by
      rw [hPick] at hSome
      exact Option.some.inj hSome
    refine ⟨_, rfl, rfl, ?_, rfl⟩
    simp
    omega

/-
  Nondecreasing cuts give consecutive stages, which share
  the layers between the first cut and the last.
-/
theorem staged_of_cuts
    (model : Qwen2Model H R)
    (first : Nat)
    (cuts : List Nat)
    (hSorted : (first :: cuts).Pairwise (· ≤ ·))
    (hBound : ∀ cut ∈ cuts, cut ≤ model.layers.length) :
    ∃ stages blocks,
      ((first :: cuts).zip cuts).mapM
          (fun range =>
            stageForRange model range.1 range.2) =
        some stages ∧
      Staged model.config first stages blocks ∧
      blocks.flatten =
        (model.layers.take
          (cuts.getLastD first)).drop first ∧
      blocks.length = cuts.length ∧
      ∀ (A : Type) (value : Nat → Nat → A),
        perBlock value first blocks =
          ((first :: cuts).zip cuts).map
            (fun range => value range.1 range.2) := by
  induction cuts generalizing first with
  | nil =>
      refine ⟨[], [], rfl, trivial, ?_, rfl, fun _ _ => rfl⟩
      simp [List.drop_of_length_le]
  | cons cut cuts ih =>
      have hLe : first ≤ cut :=
        List.rel_of_pairwise_cons hSorted (by simp)
      have hCut : cut ≤ model.layers.length :=
        hBound cut (by simp)
      rcases ih cut hSorted.tail
          (fun c hc => hBound c (by simp [hc])) with
        ⟨stages, blocks, hMap, hStaged, hFlat, hLength,
          hValues⟩
      rcases stageForRange_isRange model hLe hCut with
        ⟨stage, hStage, hRange⟩
      have hBlock :
          first +
              ((model.layers.take cut).drop first).length =
            cut := by
        simp
        omega
      have hLast : cut ≤ cuts.getLastD cut := by
        cases hCuts : cuts.getLast? with
        | none => simp [List.getLastD_eq_getLast?, hCuts]
        | some last =>
            have hMem := List.mem_of_getLast? hCuts
            rw [List.getLastD_eq_getLast?, hCuts]
            exact
              List.rel_of_pairwise_cons hSorted.tail hMem
      refine
        ⟨stage :: stages,
          (model.layers.take cut).drop first :: blocks,
          ?_, ⟨hRange, ?_⟩, ?_, by simp [hLength], ?_⟩
      · simp [List.mapM_cons, hStage, hMap]
      · rwa [hBlock]
      · rw [List.flatten_cons, hFlat,
          List.getLastD_cons,
          ← List.drop_append_of_le_length (by simp; omega)]
        congr 1
        conv_rhs =>
          rw [← List.take_append_drop cut
            (model.layers.take (cuts.getLastD cut))]
        rw [List.take_take, Nat.min_eq_left hLast]
      · intro A value
        simp only [perBlock, hBlock, hValues,
          List.zip_cons_cons, List.map_cons]

end CircuitDllm

------------------------------------------------------------
-- Split Sessions
------------------------------------------------------------

namespace CircuitDllm

variable {H R : Type}

section Frames

variable
  {model : Qwen2Model H R}
  {stages : List (LayeredStage H R)}
  {blocks : List (List (DecoderLayer H R))}
  {op : StageOp}
  {hidden : List H}
  {cache : Option (LayeredKV R)}
  {kv : LayeredKV R}
  {length : Nat}

/- The first stage raises what the model raises. -/
theorem relay_raises
    (utils : MaskingUtils)
    (hStaged : Staged model.config 0 stages blocks)
    (hSome : blocks ≠ [])
    {e : StageError}
    (hCall :
      op.forwardCall hidden.length = some (.error e)) :
    FrameSplits utils model stages blocks op hidden
      cache := by
  have hReference :
      referenceHandle utils model op hidden cache =
        .error e := by
    simp [referenceHandle, hCall, bind, Except.bind]
  refine ⟨?_, by simp [hReference]⟩
  rw [hReference]
  cases blocks with
  | nil => exact absurd rfl hSome
  | cons layers blocks =>
      cases stages with
      | nil => exact hStaged.elim
      | cons stage stages =>
          simp [relayStages, perBlock, LayeredStage.handle,
            hCall, bind, Except.bind, Except.map]

/- A KV_CTRL that leaves a known cache behind. -/
theorem relay_control
    (utils : MaskingUtils)
    (hLayers :
      model.layers.length = model.config.numHiddenLayers)
    (hStaged : Staged model.config 0 stages blocks)
    (hBlocks : blocks.flatten = model.layers)
    (cache' : Option (LayeredKV R))
    (hForward : op.forwardCall hidden.length = none)
    (hControl :
      kvControl model.config op cache = .ok cache')
    (hCache' : BalancedSlots model.config cache')
    (hStage :
      ∀ start stop, start ≤ stop →
        stop ≤ model.config.numHiddenLayers →
        kvControl model.config op
            (sliceAt cache start stop) =
          .ok (sliceAt cache' start stop)) :
    FrameSplits utils model stages blocks op hidden
      cache := by
  have hReference :
      referenceHandle utils model op hidden cache =
        .ok (hidden, cache') := by
    simp [referenceHandle, hForward, hControl, bind,
      Except.bind]
  refine ⟨?_, ?_⟩
  · rw [hReference]
    refine
      relay_const utils op model.config hidden _ _
        model.config.numHiddenLayers ?_ stages blocks 0
        hStaged (by rw [hBlocks]; omega)
    intro stage start layers hRange hBound
    have hAt := hStage start (start + layers.length)
      (by omega) hBound
    simp [LayeredStage.handle, hForward, hRange.config_eq,
      hAt, bind, Except.bind]
  · rw [hReference]
    rintro _ ⟨rfl⟩
    exact hCache'

/- Without a cache a KV_CTRL does nothing. -/
theorem relay_noCache
    (utils : MaskingUtils)
    (hLayers :
      model.layers.length = model.config.numHiddenLayers)
    (hStaged : Staged model.config 0 stages blocks)
    (hBlocks : blocks.flatten = model.layers)
    (hForward : op.forwardCall hidden.length = none) :
    FrameSplits utils model stages blocks op hidden none := by
  refine
    relay_control utils hLayers hStaged hBlocks none hForward
      ?_ (by simp [BalancedSlots]) ?_
  · cases op <;> rfl
  · intro start stop _ _
    cases op <;> rfl

theorem relay_kvFree
    (utils : MaskingUtils)
    (hLayers :
      model.layers.length = model.config.numHiddenLayers)
    (hStaged : Staged model.config 0 stages blocks)
    (hBlocks : blocks.flatten = model.layers) :
    FrameSplits utils model stages blocks .kvFree hidden
      (some kv) := by
  refine
    relay_control utils hLayers hStaged hBlocks none rfl rfl
      (by simp [BalancedSlots]) ?_
  intro start stop _ _
  rfl

theorem relay_kvReset
    (utils : MaskingUtils)
    (hLayers :
      model.layers.length = model.config.numHiddenLayers)
    (hStaged : Staged model.config 0 stages blocks)
    (hBlocks : blocks.flatten = model.layers) :
    FrameSplits utils model stages blocks .kvReset hidden
      (some kv) := by
  refine
    relay_control utils hLayers hStaged hBlocks
      (some (kv.reset model.config)) rfl rfl ?_ ?_
  · rintro _ ⟨rfl⟩
    exact
      ⟨by simp [LayeredKV.reset, LayeredKV.init], 0,
        LayeredKV.uniform_init _⟩
  · intro start stop hStart hStop
    simp [kvControl, sliceAt, LayeredKV.reset,
      LayeredKV.slice_init _ hStart hStop]

theorem relay_kvTruncate
    (utils : MaskingUtils)
    (hLayers :
      model.layers.length = model.config.numHiddenLayers)
    (hStaged : Staged model.config 0 stages blocks)
    (hBlocks : blocks.flatten = model.layers)
    (hLength : kv.length = model.config.numHiddenLayers)
    (hUniform : kv.Uniform length)
    (target : Nat) :
    FrameSplits utils model stages blocks
      (.kvTruncate target) hidden (some kv) := by
  refine
    relay_control utils hLayers hStaged hBlocks
      (some (kv.truncateTo target)) rfl rfl ?_ ?_
  · rintro _ ⟨rfl⟩
    exact
      ⟨by simpa [LayeredKV.truncateTo] using hLength, _,
        LayeredKV.uniform_truncateTo hUniform target⟩
  · intro start stop _ _
    simp [kvControl, sliceAt, LayeredKV.slice_truncateTo]

/- A tree compaction raises on the first short slot. -/
theorem relay_kvTreeKeep
    (utils : MaskingUtils)
    (hLayers :
      model.layers.length = model.config.numHiddenLayers)
    (hStaged : Staged model.config 0 stages blocks)
    (hBlocks : blocks.flatten = model.layers)
    (hLength : kv.length = model.config.numHiddenLayers)
    (hUniform : kv.Uniform length)
    (prefixLen : Nat)
    (slots : List Nat) :
    FrameSplits utils model stages blocks
      (.kvTreeKeep prefixLen slots) hidden (some kv) := by
  have hRelay :=
    relay_slices
      (composes_slotwise
        (LayeredKV.keepRows prefixLen slots))
      utils (.kvTreeKeep prefixLen slots) model.config
      hidden.length kv (sliceAt (some kv))
      (fun stage start layers hidden' _ hBound _ =>
        handle_kvTreeKeep utils hidden' kv prefixLen slots
          hBound)
      stages blocks 0 hidden hStaged
      (by rw [hBlocks]; omega) rfl
  cases hKept : kv.keepTreePath prefixLen slots with
  | none =>
      have hReference :
          referenceHandle utils model
              (.kvTreeKeep prefixLen slots) hidden
              (some kv) =
            .error .index := by
        simp [referenceHandle, StageOp.forwardCall,
          kvControl, hKept, bind, Except.bind]
      unfold LayeredKV.keepTreePath at hKept
      refine ⟨?_, by simp [hReference]⟩
      rw [hRelay, hReference]
      simp [slotwise, hKept, Except.map]
  | some kept =>
      have hReference :
          referenceHandle utils model
              (.kvTreeKeep prefixLen slots) hidden
              (some kv) =
            .ok (hidden, some kept) := by
        simp [referenceHandle, StageOp.forwardCall,
          kvControl, hKept, bind, Except.bind]
      have hMap := hKept
      unfold LayeredKV.keepTreePath at hMap
      refine ⟨?_, ?_⟩
      · rw [hRelay, hReference]
        simp [slotwise, hMap, Except.map]
        rfl
      · rw [hReference]
        rintro _ ⟨rfl⟩
        rintro _ ⟨rfl⟩
        exact
          ⟨by rw [mapM_length hMap, hLength], _,
            LayeredKV.uniform_keepTreePath hUniform hKept⟩

/- One frame of any kind. -/
theorem relay_frame
    (utils : MaskingUtils)
    (hLayers :
      model.layers.length = model.config.numHiddenLayers)
    (hStaged : Staged model.config 0 stages blocks)
    (hBlocks : blocks.flatten = model.layers)
    (hSome : blocks ≠ [])
    (op : StageOp)
    (hidden : List H)
    (cache : Option (LayeredKV R))
    (hCache : BalancedSlots model.config cache) :
    FrameSplits utils model stages blocks op hidden
      cache := by
  cases hCall : op.forwardCall hidden.length with
  | some call =>
      cases call with
      | ok call =>
          exact
            relay_forward utils hLayers hStaged hBlocks
              hCache hCall
      | error e => exact relay_raises utils hStaged hSome hCall
  | none =>
      cases cache with
      | none =>
          exact
            relay_noCache utils hLayers hStaged hBlocks hCall
      | some kv =>
          rcases hCache kv rfl with
            ⟨hLength, length, hUniform⟩
          cases op with
          | activation pos => simp [StageOp.forwardCall] at hCall
          | batchActivation pos positionIds attn =>
              simp [StageOp.forwardCall] at hCall
          | treeActivation pos treePositions treeParents =>
              simp [StageOp.forwardCall] at hCall
          | kvFree =>
              exact relay_kvFree utils hLayers hStaged hBlocks
          | kvReset =>
              exact relay_kvReset utils hLayers hStaged hBlocks
          | kvTruncate target =>
              exact
                relay_kvTruncate utils hLayers hStaged
                  hBlocks hLength hUniform target
          | kvTreeKeep prefixLen slots =>
              exact
                relay_kvTreeKeep utils hLayers hStaged
                  hBlocks hLength hUniform prefixLen slots

end Frames

/- A whole session on the stages of a split. -/
theorem relayAll_blocks
    (utils : MaskingUtils)
    {model : Qwen2Model H R}
    {stages : List (LayeredStage H R)}
    {blocks : List (List (DecoderLayer H R))}
    (hLayers :
      model.layers.length = model.config.numHiddenLayers)
    (hStaged : Staged model.config 0 stages blocks)
    (hBlocks : blocks.flatten = model.layers)
    (hSome : blocks ≠ [])
    (frames : List (StageOp × List H))
    (cache : Option (LayeredKV R))
    (hCache : BalancedSlots model.config cache) :
    relayAll utils stages frames
        (perBlock (sliceAt cache) 0 blocks) =
      (referenceAll utils model frames cache).map
        (fun r =>
          (r.1, perBlock (sliceAt r.2) 0 blocks)) := by
  induction frames generalizing cache with
  | nil => rfl
  | cons frame frames ih =>
      rcases frame with ⟨op, hidden⟩
      rcases relay_frame utils hLayers hStaged hBlocks hSome
          op hidden cache hCache with
        ⟨hFrame, hBalanced⟩
      simp only [relayAll, referenceAll, hFrame]
      cases hRun :
          referenceHandle utils model op hidden cache with
      | error e => rfl
      | ok r =>
          have hRest := ih r.2 (hBalanced r hRun)
          simp only [Except.map, bind, Except.bind, hRest]
          cases referenceAll utils model frames r.2 <;> rfl

/- Whole sessions keep the model's cache balanced. -/
theorem referenceAll_balanced
    (utils : MaskingUtils)
    {model : Qwen2Model H R}
    (hLayers :
      model.layers.length = model.config.numHiddenLayers)
    (frames : List (StageOp × List H))
    (cache : Option (LayeredKV R))
    (hCache : BalancedSlots model.config cache)
    (r : List (List H) × Option (LayeredKV R))
    (hRun :
      referenceAll utils model frames cache = .ok r) :
    BalancedSlots model.config r.2 := by
  induction frames generalizing cache r with
  | nil =>
      obtain rfl := Except.ok.inj hRun
      exact hCache
  | cons frame frames ih =>
      rcases frame with ⟨op, hidden⟩
      rcases stageForRange_isRange model (Nat.zero_le _)
          (le_refl model.layers.length) with
        ⟨stage, _, hRange⟩
      have hStaged :
          Staged model.config 0 [stage] [model.layers] :=
        ⟨by simpa using hRange, trivial⟩
      have hFrame :=
        relay_frame utils hLayers hStaged (by simp) (by simp)
          op hidden cache hCache
      simp only [referenceAll] at hRun
      cases hHead :
          referenceHandle utils model op hidden cache with
      | error e => simp [hHead, bind, Except.bind] at hRun
      | ok out =>
          simp only [hHead, bind, Except.bind] at hRun
          cases hRest :
              referenceAll utils model frames out.2 with
          | error e => simp [hRest] at hRun
          | ok rest =>
              rw [hRest] at hRun
              obtain rfl := Except.ok.inj hRun
              exact
                ih out.2 (hFrame.2 out hHead) rest hRest

/- Nondecreasing cuts split the model into its blocks. -/
theorem relayAll_cuts
    (utils : MaskingUtils)
    (model : Qwen2Model H R)
    (boundaries : List Nat)
    (hLayers :
      model.layers.length = model.config.numHiddenLayers)
    (hSorted :
      (0 :: (boundaries ++
        [model.config.numHiddenLayers])).Pairwise (· ≤ ·)) :
    ∃ stages,
      splitModel model boundaries = some stages ∧
        ∀ frames,
          relayAll utils stages frames
              (stages.map (fun _ => none)) =
            (referenceAll utils model frames none).map
              (fun r =>
                (r.1,
                  (cutRanges model.config.numHiddenLayers
                    boundaries).map
                    (fun range =>
                      sliceAt r.2 range.1 range.2))) := by
  have hBound :
      ∀ cut ∈
          boundaries ++ [model.config.numHiddenLayers],
        cut ≤ model.layers.length := by
    intro cut hCut
    rcases List.mem_append.mp hCut with hCut | hCut
    · have hTail := (List.pairwise_cons.mp hSorted).2
      rw [List.pairwise_append] at hTail
      have hLast :=
        hTail.2.2 cut hCut _ (List.mem_singleton_self _)
      omega
    · rw [List.mem_singleton.mp hCut, hLayers]
  rcases staged_of_cuts model 0
      (boundaries ++ [model.config.numHiddenLayers]) hSorted
      hBound with
    ⟨stages, blocks, hMap, hStaged, hFlat, hLength, hValues⟩
  have hAll : blocks.flatten = model.layers := by
    simpa [← hLayers] using hFlat
  have hSome : blocks ≠ [] := by
    rintro rfl
    simp at hLength
  refine ⟨stages, hMap, ?_⟩
  intro frames
  have hRun :=
    relayAll_blocks utils hLayers hStaged hAll hSome frames
      none (by simp [BalancedSlots])
  have hNone :
      stages.map (fun _ => (none : Option (LayeredKV R))) =
        perBlock (sliceAt none) 0 blocks := by
    rw [hValues]
    simp [sliceAt, mapM_length hMap]
  rw [hNone, hRun]
  simp only [hValues]
  rfl

/-
  For every choice of cuts and every session, the split
  model gives the outputs and the errors of the single
  process, every stage holds its layers' slots, and a stage
  with a layer reads the length the whole model has, from
  wherever its block starts.  That no layer slides is asked
  for the slots only: they are then the code's.
-/
theorem relayAll_split
    (utils : MaskingUtils)
    (model : Qwen2Model H R)
    (boundaries : List Nat)
    (_hFull : model.config.SlotsFull)
    (hLayers :
      model.layers.length = model.config.numHiddenLayers)
    (hSorted :
      (0 :: (boundaries ++
        [model.config.numHiddenLayers])).Pairwise (· ≤ ·)) :
    ∃ stages,
      splitModel model boundaries = some stages ∧
        ∀ frames,
          relayAll utils stages frames
                (stages.map (fun _ => none)) =
              (referenceAll utils model frames none).map
                (fun r =>
                  (r.1,
                    (cutRanges model.config.numHiddenLayers
                      boundaries).map
                      (fun range =>
                        sliceAt r.2 range.1 range.2))) ∧
            ∀ outs kv,
              referenceAll utils model frames none =
                  .ok (outs, some kv) →
                ∀ start stop,
                  start < stop →
                  stop ≤ model.config.numHiddenLayers →
                  (kv.slice start stop).getSeqLength =
                    dynamicSeqLength kv := by
  rcases relayAll_cuts utils model boundaries hLayers
      hSorted with ⟨stages, hSplit, hRun⟩
  refine ⟨stages, hSplit, fun frames => ⟨hRun frames, ?_⟩⟩
  intro outs kv hOk start stop hStart hStop
  rcases referenceAll_balanced utils hLayers frames none
      (by simp [BalancedSlots]) _ hOk kv rfl with
    ⟨hLength, length, hUniform⟩
  obtain ⟨count, rfl⟩ : ∃ count, stop = start + (count + 1) :=
    ⟨stop - start - 1, by omega⟩
  rw [kv.slice_eq (by omega)]
  cases hBlock : (kv.drop start).take (count + 1) with
  | nil =>
      have hNone := congrArg List.length hBlock
      simp at hNone
      omega
  | cons rows slots =>
      rw [LayeredKV.getSeqLength_slice start _ length rows
        slots (by
          rw [← hBlock]
          exact fun layer hLayer =>
            hUniform layer
              (List.mem_of_mem_drop
                (List.mem_of_mem_take hLayer)))]
      cases kv with
      | nil => simp at hLength; omega
      | cons first rest =>
          simp [dynamicSeqLength, LayeredKV.slot,
            hUniform first (by simp)]

/- A layer that adds up the rows it sees. -/
def tallyLayer (scale : Nat) : DecoderLayer Nat Nat where
  kvRow := fun h position => h + scale * position
  attend := fun h _ flags rows =>
    if flags.length = rows.length then
      some ((Select.keep flags rows).foldl (· + ·) h)
    else none

def tallyModel : Qwen2Model Nat Nat where
  layers := [tallyLayer 1, tallyLayer 2, tallyLayer 3]
  config := { numHiddenLayers := 3 }

def causalUtils : MaskingUtils where
  createCausalMask := fun queryLength _ length _ =>
    causalRows length queryLength
  createSlidingWindowCausalMask := none

/- A prompt, a tree of two nodes, its root kept, a token. -/
def tallyFrames : List (StageOp × List Nat) :=
  [(.activation 0, [1, 2]),
    (.treeActivation 2 [2, 3] [-1, 0], [3, 4]),
    (.kvTreeKeep 2 [0], []),
    (.activation 3, [5])]

theorem relayAll_split_tally :
    ∃ stages,
      splitModel tallyModel [1, 1] = some stages ∧
        (relayAll causalUtils stages tallyFrames
            (stages.map (fun _ => none))).map (·.1) =
          .ok [[8, 39], [105, 220], [], [228]] := by
  rcases relayAll_split causalUtils tallyModel [1, 1]
      (fun _ _ => rfl) rfl (by decide) with
    ⟨stages, hSplit, hRun⟩
  refine ⟨stages, hSplit, ?_⟩
  rw [(hRun tallyFrames).1]
  rfl

end CircuitDllm
