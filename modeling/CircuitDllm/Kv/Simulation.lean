import CircuitDllm.Kv.Split
import CircuitDllm.TreeDecode.Exact

/-
  The layer-by-layer stages compute what the stages of the
  decoding model compute.

  In the decoding model (Kv/Pipeline) a stage is a function
  of the entries a position attends to, and its cache is the
  list of its inputs.  `AttentionLayer` says what is known
  of a decoder layer: masked rows are not read.  One layer
  is then a stage of its own, its slot holds the rows of
  that stage's cache, and every frame keeps it so.

  Main declarations:
    * `AttentionLayer.stage`
    * `DecodesFlat`
    * `referenceAll_flat`
-/

------------------------------------------------------------
-- Attention Layers
------------------------------------------------------------

namespace CircuitDllm

variable {H R : Type}

/-
  What a layer computes from the rows its mask keeps, the
  position's own row among them.
-/
structure AttentionLayer (H R : Type) where
  kvRow : H → Nat → R
  output : H → Nat → List R → H

namespace AttentionLayer

/- The decoder layer reads no row its mask row drops. -/
structure Computes
    (layer : AttentionLayer H R)
    (decoder : DecoderLayer H R) : Prop where
  kvRow_eq : decoder.kvRow = layer.kvRow
  attend_eq :
    ∀ h position flags rows,
      flags.length = rows.length →
      decoder.attend h position flags rows =
        some
          (layer.output h position (Select.keep flags rows))

/- The rows a layer caches for the entries of a stage. -/
def rows
    (layer : AttentionLayer H R)
    (kv : StageKV H) :
    List R :=
  kv.map (fun e => layer.kvRow e.1 e.2)

/- One layer as a stage: its own entry is the last one. -/
def stage
    [Inhabited H]
    (layer : AttentionLayer H R) :
    Stage H :=
  fun entries =>
    match entries.getLast? with
    | none => default
    | some (h, position) =>
      layer.output h position (layer.rows entries)

theorem stage_snoc
    [Inhabited H]
    (layer : AttentionLayer H R)
    (kv : StageKV H)
    (h : H)
    (position : Nat) :
    layer.stage (kv ++ [(h, position)]) =
      layer.output h position
        (layer.rows (kv ++ [(h, position)])) := by
  simp [stage]

@[simp] theorem length_rows
    (layer : AttentionLayer H R)
    (kv : StageKV H) :
    (layer.rows kv).length = kv.length := by
  simp [rows]

theorem rows_append
    (layer : AttentionLayer H R)
    (kv kv' : StageKV H) :
    layer.rows (kv ++ kv') =
      layer.rows kv ++ layer.rows kv' := by
  simp [rows]

theorem rows_zip
    (layer : AttentionLayer H R)
    (hidden : List H)
    (positionIds : List Nat) :
    layer.rows (hidden.zip positionIds) =
      List.zipWith layer.kvRow hidden positionIds := by
  induction hidden generalizing positionIds with
  | nil => rfl
  | cons h hidden ih =>
      cases positionIds with
      | nil => rfl
      | cons position positionIds =>
          simpa [rows] using ih positionIds

end AttentionLayer

/- The slots of a list of layers. -/
def rowsOf
    (layers : List (AttentionLayer H R))
    (kvs : List (StageKV H)) :
    LayeredKV R :=
  List.zipWith AttentionLayer.rows layers kvs

end CircuitDllm

------------------------------------------------------------
-- One Layer Under a Mask
------------------------------------------------------------

namespace CircuitDllm

variable {H R : Type}

theorem keep_map_comm
    {A B : Type}
    (g : A → B)
    (row : List Bool)
    (xs : List A) :
    Select.keep row (xs.map g) =
      (Select.keep row xs).map g := by
  induction row generalizing xs with
  | nil => simp [Select.keep]
  | cons flag row ih =>
      cases xs with
      | nil => cases flag <;> rfl
      | cons x xs => cases flag <;> simp [Select.keep, ih]

/- Flags up to a column keep the entries up to it. -/
theorem keep_upTo
    {A : Type}
    (xs ys : List A)
    (x : A) :
    Select.keep
        ((List.range (xs ++ x :: ys).length).map
          (fun j => decide (j ≤ xs.length)))
        (xs ++ x :: ys) =
      xs ++ [x] := by
  have hFilter :
      (List.range (xs ++ x :: ys).length).filter
          (fun j => decide (j ≤ xs.length)) =
        List.range (xs ++ [x]).length := by
    have hRange :
        List.range (xs ++ x :: ys).length =
          List.range (xs ++ [x]).length ++
            (List.range ys.length).map
              ((xs ++ [x]).length + ·) := by
      rw [← List.range_add]
      congr 1
      simp
      omega
    have hKept :
        ∀ j ∈ List.range (xs ++ [x]).length,
          decide (j ≤ xs.length) = true := by
      intro j hj
      have hLt := List.mem_range.mp hj
      rw [List.length_append, List.length_singleton] at hLt
      exact decide_eq_true (by omega)
    have hDropped :
        ∀ j ∈ (List.range ys.length).map
            ((xs ++ [x]).length + ·),
          ¬ decide (j ≤ xs.length) = true := by
      intro j hj
      rcases List.mem_map.mp hj with ⟨i, _, rfl⟩
      rw [List.length_append, List.length_singleton,
        decide_eq_true_eq]
      omega
    rw [hRange, List.filter_append,
      List.filter_eq_self.mpr hKept,
      List.filter_eq_nil_iff.mpr hDropped,
      List.append_nil]
  have hKeep :=
    Select.keep_map
      (fun j => decide (j ≤ xs.length)) (xs ++ x :: ys)
  have hPrefix := Select.pick_prefix (xs ++ [x]) ys
  rw [hFilter] at hKeep
  rw [List.append_assoc, List.singleton_append, hKeep]
    at hPrefix
  exact Option.some.inj hPrefix

theorem mapM_eq_some_map
    {A B : Type}
    {f : A → Option B}
    {g : A → B}
    {xs : List A}
    (hSome : ∀ x ∈ xs, f x = some (g x)) :
    xs.mapM f = some (xs.map g) := by
  induction xs with
  | nil => rfl
  | cons x xs ih =>
      have hHead := hSome x (by simp)
      have hRest := ih (fun y hy => hSome y (by simp [hy]))
      simp [List.mapM_cons, hHead, hRest]

/-
  A layer call under mask rows that each keep some entries
  of the cache, the position's own one last.
-/
theorem forward_rows
    [Inhabited H]
    {layer : AttentionLayer H R}
    {decoder : DecoderLayer H R}
    (hComputes : layer.Computes decoder)
    (mask : AttentionMask)
    (hidden : List H)
    (positionIds : List Nat)
    (kv : StageKV H)
    (hPositions : positionIds.length = hidden.length)
    (hMask : mask.length = hidden.length)
    (hWidth :
      ∀ row ∈ mask,
        row.length = kv.length + hidden.length)
    (hOwn :
      ∀ h position row,
        ((h, position), row) ∈
          (hidden.zip positionIds).zip mask →
        ∃ others,
          Select.keep row (kv ++ hidden.zip positionIds) =
            others ++ [(h, position)]) :
    decoder.forward mask positionIds hidden
        (layer.rows kv) =
      .ok
        (mask.map (fun row =>
            layer.stage
              (Select.keep row
                (kv ++ hidden.zip positionIds))),
          layer.rows (kv ++ hidden.zip positionIds)) := by
  have hRows :
      layer.rows kv ++
          List.zipWith decoder.kvRow hidden positionIds =
        layer.rows (kv ++ hidden.zip positionIds) := by
    rw [hComputes.kvRow_eq, layer.rows_append,
      layer.rows_zip]
  have hEach :
      ∀ q ∈ (hidden.zip positionIds).zip mask,
        decoder.attend q.1.1 q.1.2 q.2
            (layer.rows (kv ++ hidden.zip positionIds)) =
          some
            (layer.stage
              (Select.keep q.2
                (kv ++ hidden.zip positionIds))) := by
    rintro ⟨⟨h, position⟩, row⟩ hq
    rcases hOwn h position row hq with ⟨others, hKeep⟩
    have hRow := hWidth row (List.of_mem_zip hq).2
    rw [hComputes.attend_eq _ _ _ _ (by
      simp [hRow, hPositions])]
    simp only [AttentionLayer.rows, keep_map_comm, hKeep,
      AttentionLayer.stage_snoc]
  unfold DecoderLayer.forward
  rw [if_pos ⟨hPositions, hMask⟩]
  simp only [hRows, mapM_eq_some_map hEach]
  have hZip :
      ((hidden.zip positionIds).zip mask).map Prod.snd =
        mask := by
    apply List.map_snd_zip
    simp [hPositions, hMask]
  conv_rhs => rw [← hZip, List.map_map]
  rfl

end CircuitDllm

------------------------------------------------------------
-- Causal and Tree Calls
------------------------------------------------------------

namespace CircuitDllm

variable {H R : Type}

/- A causal row keeps the cache and the chunk so far. -/
theorem keep_causalRow
    {A : Type}
    (kv fed : List A)
    (i : Nat)
    (hi : i < fed.length) :
    Select.keep (causalRow kv.length fed.length i)
        (kv ++ fed) =
      kv ++ fed.take i ++ [fed[i]] := by
  have hSplit :
      kv ++ fed =
        (kv ++ fed.take i) ++ fed[i] :: fed.drop (i + 1) := by
    rw [List.append_assoc, ← List.drop_eq_getElem_cons hi,
      List.take_append_drop]
  have hBefore :
      (kv ++ fed.take i).length = kv.length + i := by
    simp
    omega
  have hKeep :=
    keep_upTo (kv ++ fed.take i) (fed.drop (i + 1)) fed[i]
  rw [← hSplit, hBefore, List.length_append] at hKeep
  exact hKeep

/- A layer under the causal mask is its stage's forward. -/
theorem forward_causal
    [Inhabited H]
    {layer : AttentionLayer H R}
    {decoder : DecoderLayer H R}
    (hComputes : layer.Computes decoder)
    (hidden : List H)
    (pos : Nat)
    (kv : StageKV H) :
    decoder.forward (causalRows kv.length hidden.length)
        (List.range' pos hidden.length) hidden
        (layer.rows kv) =
      .ok
        ((layer.stage.forward hidden pos kv).1,
          layer.rows
            (layer.stage.forward hidden pos kv).2) := by
  have hFed :
      hidden.zip (List.range' pos hidden.length) =
        hidden.zipIdx pos := by
    rw [List.zipIdx_eq_zip_range']
  have hRun :=
    forward_rows hComputes
      (causalRows kv.length hidden.length) hidden
      (List.range' pos hidden.length) kv (by simp)
      (by simp [causalRows])
      (by
        intro row hRow
        rcases List.mem_map.mp hRow with ⟨i, _, rfl⟩
        simp [causalRow])
      (by
        intro h position row hMem
        rcases List.mem_iff_getElem.mp hMem with
          ⟨i, hi, hEntry⟩
        have hLt : i < (hidden.zipIdx pos).length := by
          simp at hi ⊢
          omega
        have hKeep := keep_causalRow kv _ i hLt
        simp only [List.getElem_zip, Prod.mk.injEq,
          causalRows, List.getElem_map,
          List.getElem_range] at hEntry
        rcases hEntry with ⟨⟨rfl, rfl⟩, rfl⟩
        simp only [hFed]
        refine ⟨kv ++ (hidden.zipIdx pos).take i, ?_⟩
        simpa using hKeep)
  rw [hRun, hFed]
  congr 2
  apply List.ext_getElem?
  intro i
  rcases Nat.lt_or_ge i hidden.length with hi | hi
  · have hLt : i < (hidden.zipIdx pos).length := by
      simpa using hi
    have hKeep := keep_causalRow kv _ i hLt
    rw [List.length_zipIdx] at hKeep
    rw [Stage.forward, Causal.getElem?_feed _ _ _ _ hLt]
    simp only [causalRows, List.map_map, List.getElem?_map,
      List.getElem?_range hi, Option.map_some,
      Function.comp_apply, hKeep, List.append_assoc,
      List.take_append_getElem]
  · rw [List.getElem?_eq_none (by simpa [causalRows]),
      List.getElem?_eq_none (by simpa)]

/- A layer under a tree mask is its stage's tree forward. -/
theorem forward_tree
    [Inhabited H]
    {layer : AttentionLayer H R}
    {decoder : DecoderLayer H R}
    (hComputes : layer.Computes decoder)
    {parents : List Int}
    (hWf : ParentsWf parents)
    {steps : Nat}
    (hSteps : parents.length ≤ steps)
    {mask : AttentionMask}
    (hidden : List H)
    (treePositions : List Nat)
    (kv : StageKV H)
    (hHidden : hidden.length = parents.length)
    (hPositions : treePositions.length = parents.length)
    (hMask :
      buildTreeMask parents kv.length steps = .ok mask) :
    decoder.forward mask treePositions hidden
        (layer.rows kv) =
      .ok
        ((layer.stage.forwardTree mask hidden treePositions
            kv).1,
          layer.rows
            (layer.stage.forwardTree mask hidden
              treePositions kv).2) := by
  rcases buildTreeMask_eq hWf kv.length steps hSteps with
    ⟨rows, hRows, hLength, hRow⟩
  obtain rfl : rows = mask := by
    rw [hMask] at hRows
    exact (Except.ok.inj hRows).symm
  have hFlags :
      ∀ i (hi : i < rows.length),
        ∃ chain, Chain parents i chain ∧
          rows[i] =
            (List.range (kv.length + parents.length)).map
              (fun c =>
                decide
                  (c ∈ allowedColumns kv.length chain)) := by
    intro i hi
    rcases Chain.of_lt hWf i (by omega) with ⟨chain, hChain⟩
    refine ⟨chain, hChain, ?_⟩
    have hEntry := hRow i chain hChain
    rw [List.getElem?_eq_getElem hi] at hEntry
    exact Option.some.inj hEntry
  refine
    forward_rows hComputes rows hidden treePositions kv
      (by omega) (by omega) ?_ ?_
  · intro row hMem
    rcases List.mem_iff_getElem.mp hMem with ⟨i, hi, rfl⟩
    rcases hFlags i hi with ⟨chain, _, hEq⟩
    simp [hEq, hHidden]
  · intro h position row hMem
    rcases List.mem_iff_getElem.mp hMem with ⟨i, hi, hEntry⟩
    simp only [List.length_zip] at hi
    rcases hFlags i (by omega) with ⟨chain, hChain, hEq⟩
    simp only [List.getElem_zip, Prod.mk.injEq] at hEntry
    rcases hEntry with ⟨⟨rfl, rfl⟩, rfl⟩
    have hKvLen :
        (kv ++ hidden.zip treePositions).length =
          kv.length + parents.length := by
      simp
      omega
    have hKeep :=
      Select.keep_flags (kv ++ hidden.zip treePositions)
        (allowedColumns kv.length chain)
        (allowedColumns_sorted hWf hChain kv.length)
        (by
          rw [hKvLen]
          exact allowedColumns_lt hWf hChain kv.length)
    rw [hKvLen, ← hEq] at hKeep
    rcases hChain.eq_snoc with ⟨before, hSnoc⟩
    rw [hSnoc, allowedColumns, List.map_append,
      ← List.append_assoc] at hKeep
    rcases Select.pick_append_eq_some hKeep with
      ⟨others, last, hAll, _, hLast⟩
    refine ⟨others, ?_⟩
    rw [hAll]
    congr 1
    simp only [List.map_cons, List.map_nil,
      Select.pick_singleton] at hLast
    rw [List.getElem?_append_right (by omega),
      Nat.add_sub_cancel_left,
      List.getElem?_eq_getElem (by simp; omega)] at hLast
    simpa using hLast.symm

end CircuitDllm

------------------------------------------------------------
-- Whole Models
------------------------------------------------------------

namespace CircuitDllm

variable {H R : Type}

/-
  The model's layers compute what `layers` says, all with
  full attention, and the mask helper fills the causal mask.
-/
structure DecodesFlat
    (utils : MaskingUtils)
    (model : Qwen2Model H R)
    (layers : List (AttentionLayer H R)) : Prop where
  computes :
    List.Forall₂ AttentionLayer.Computes layers model.layers
  fullAttention :
    ∀ gidx, gidx < model.layers.length →
      layerType model.config gidx = .ok .fullAttention
  causal :
    ∀ length queryLength,
      utils.createCausalMask queryLength
          (length + queryLength, 0) length none =
        causalRows length queryLength
  numLayers :
    model.layers.length = model.config.numHiddenLayers

/- The caches of a model, one entry list a layer. -/
def Level (kvs : List (StageKV H)) (length : Nat) : Prop :=
  ∀ kv ∈ kvs, kv.length = length

theorem Level.tail
    {kv : StageKV H}
    {kvs : List (StageKV H)}
    {length : Nat}
    (hLevel : Level (kv :: kvs) length) :
    Level kvs length :=
  fun kv' hMem => hLevel kv' (List.mem_cons_of_mem kv hMem)

theorem uniform_rowsOf
    (layers : List (AttentionLayer H R))
    {kvs : List (StageKV H)}
    {length : Nat}
    (hLevel : Level kvs length) :
    LayeredKV.Uniform (rowsOf layers kvs) length := by
  induction layers generalizing kvs with
  | nil => simp [LayeredKV.Uniform, rowsOf]
  | cons layer layers ih =>
      cases kvs with
      | nil => simp [LayeredKV.Uniform, rowsOf]
      | cons kv kvs =>
          have hRest := ih hLevel.tail
          intro slot hSlot
          rcases List.mem_cons.mp hSlot with rfl | hSlot
          · rw [layer.length_rows, hLevel kv (by simp)]
          · exact hRest slot hSlot

/- A causal chunk through all layers. -/
theorem blockForward_causal
    [Inhabited H]
    {maskOf : Nat → Except StageError AttentionMask}
    {layers : List (AttentionLayer H R)}
    {decoders : List (DecoderLayer H R)}
    (hComputes :
      List.Forall₂ AttentionLayer.Computes layers decoders)
    (pos length : Nat)
    (gidx : Nat)
    (hidden : List H)
    (kvs : List (StageKV H))
    (hMask :
      ∀ i, gidx ≤ i → i < gidx + decoders.length →
        maskOf i = .ok (causalRows length hidden.length))
    (hKvs : kvs.length = layers.length)
    (hLevel : Level kvs length) :
    blockForward maskOf (List.range' pos hidden.length) gidx
        decoders hidden (rowsOf layers kvs) =
      .ok
        ((runStages (layers.map (·.stage)) kvs hidden pos).1,
          rowsOf layers
            (runStages (layers.map (·.stage)) kvs hidden
              pos).2) := by
  induction hComputes generalizing gidx hidden kvs with
  | nil =>
      obtain rfl := List.length_eq_zero_iff.mp hKvs
      rfl
  | @cons layer decoder layers decoders hHead hTail ih =>
      cases kvs with
      | nil => simp at hKvs
      | cons kv kvs =>
          have hCall := forward_causal hHead hidden pos kv
          rw [hLevel kv (by simp)] at hCall
          have hOut :
              (layer.stage.forward hidden pos kv).1.length =
                hidden.length := by
            simp
          have hRest :=
            ih (gidx + 1)
              (layer.stage.forward hidden pos kv).1 kvs
              (by
                intro i hLow hHigh
                rw [hOut]
                exact hMask i (by omega) (by simp; omega))
              (by simpa using hKvs)
              hLevel.tail
          rw [hOut] at hRest
          simp only [rowsOf, List.zipWith_cons_cons,
            blockForward, hMask gidx le_rfl (by simp),
            hCall, bind, Except.bind]
          rw [rowsOf] at hRest
          rw [hRest]
          rfl

/- A tree through all layers. -/
theorem blockForward_tree
    [Inhabited H]
    {maskOf : Nat → Except StageError AttentionMask}
    {layers : List (AttentionLayer H R)}
    {decoders : List (DecoderLayer H R)}
    (hComputes :
      List.Forall₂ AttentionLayer.Computes layers decoders)
    {parents : List Int}
    (hWf : ParentsWf parents)
    {mask : AttentionMask}
    (pos : Nat)
    (hBuild :
      buildTreeMask parents pos parents.length = .ok mask)
    (treePositions : List Nat)
    (hPositions : treePositions.length = parents.length)
    (gidx : Nat)
    (hidden : List H)
    (hHidden : hidden.length = parents.length)
    (kvs : List (StageKV H))
    (hMask :
      ∀ i, gidx ≤ i → i < gidx + decoders.length →
        maskOf i = .ok mask)
    (hKvs : kvs.length = layers.length)
    (hLevel : Level kvs pos) :
    ∃ r,
      relayTree (layers.map (·.stage)) kvs pos hidden
          treePositions parents = .ok r ∧
        blockForward maskOf treePositions gidx decoders
            hidden (rowsOf layers kvs) =
          .ok (r.1, rowsOf layers r.2) := by
  induction hComputes generalizing gidx hidden kvs with
  | nil =>
      obtain rfl := List.length_eq_zero_iff.mp hKvs
      exact ⟨_, rfl, rfl⟩
  | @cons layer decoder layers decoders hHead hTail ih =>
      cases kvs with
      | nil => simp at hKvs
      | cons kv kvs =>
          have hLength : kv.length = pos :=
            hLevel kv (by simp)
          have hCall :=
            forward_tree hHead hWf le_rfl hidden
              treePositions kv hHidden hPositions
              (by rwa [hLength])
          have hStage :
              runTreeStage layer.stage pos hidden
                  treePositions parents kv =
                .ok
                  (layer.stage.forwardTree mask hidden
                    treePositions kv) := by
            simp [runTreeStage, hBuild, StageKV.getSeqLength,
              hLength]
          have hRows : mask.length = parents.length := by
            rcases buildTreeMask_eq hWf pos parents.length
                le_rfl with ⟨rows, hRows, hCount, _⟩
            rw [hBuild] at hRows
            rw [Except.ok.inj hRows, hCount]
          rcases ih (gidx + 1)
              (layer.stage.forwardTree mask hidden
                treePositions kv).1
              (by simpa [Stage.forwardTree] using hRows) kvs
              (fun i hLow hHigh =>
                hMask i (by omega) (by simp; omega))
              (by simpa using hKvs) hLevel.tail
            with ⟨r, hRelay, hBlock⟩
          refine
            ⟨(r.1,
                (layer.stage.forwardTree mask hidden
                  treePositions kv).2 :: r.2), ?_, ?_⟩
          · simp only [List.map_cons, relayTree, hStage,
              hRelay]
          · simp only [rowsOf, List.zipWith_cons_cons,
              blockForward, hMask gidx le_rfl (by simp),
              hCall, bind, Except.bind]
            rw [rowsOf] at hBlock
            rw [hBlock]
            rfl

end CircuitDllm

------------------------------------------------------------
-- Sessions on Flat Stages
------------------------------------------------------------

namespace CircuitDllm

variable {H R : Type}

/- The caches a frame runs on: pos == 0 starts fresh ones. -/
def flatCaches
    (stages : List (Stage H))
    (kvs : Option (List (StageKV H)))
    (pos : Nat) :
    List (StageKV H) :=
  match kvs with
  | none => stages.map (fun _ => [])
  | some kvs =>
    if pos = 0 then stages.map (fun _ => []) else kvs

/-
  One frame on the stages of the decoding model.  Batches
  have a model of their own.
-/
def flatHandle
    (stages : List (Stage H))
    (op : StageOp)
    (hidden : List H)
    (kvs : Option (List (StageKV H))) :
    Except SpecError
      (List H × Option (List (StageKV H))) :=
  match op, kvs with
  | .activation pos, kvs =>
    let (hidden, kvs) :=
      runStages stages (flatCaches stages kvs pos) hidden pos
    .ok (hidden, some kvs)
  | .treeActivation pos treePositions treeParents, kvs =>
    (relayTree stages (flatCaches stages kvs pos) pos hidden
      treePositions treeParents).map
      (fun r => (r.1, some r.2))
  | .batchActivation _ _ _, _ => .error .tensor
  | .kvReset, some kvs =>
    .ok (hidden, some (kvs.map (fun _ => [])))
  | .kvTruncate length, some kvs =>
    .ok
      (hidden, some (kvs.map (StageKV.truncateTo · length)))
  | .kvTreeKeep prefixLen slots, some kvs =>
    (kvTreeKeep prefixLen slots kvs).map
      (fun kvs => (hidden, some kvs))
  | .kvFree, _ => .ok (hidden, none)
  | _, none => .ok (hidden, none)

/- A session on the stages of the decoding model. -/
def flatAll
    (stages : List (Stage H)) :
    List (StageOp × List H) → Option (List (StageKV H)) →
      Except SpecError
        (List (List H) × Option (List (StageKV H)))
| [], kvs => .ok ([], kvs)
| (op, hidden) :: frames, kvs =>
    match flatHandle stages op hidden kvs with
    | .error e => .error e
    | .ok (out, kvs) =>
      (flatAll stages frames kvs).map
        (fun r => (out :: r.1, r.2))

/- A tree frame as the coordinator packs it. -/
def StageOp.TreeFits (queryLength : Nat) : StageOp → Prop
| .treeActivation _ treePositions treeParents =>
    ParentsWf treeParents ∧
      treePositions.length = treeParents.length ∧
        queryLength = treeParents.length
| _ => True

/- One cache a layer, all of them equally long. -/
def AllLevel
    (layers : List (AttentionLayer H R))
    (kvs : Option (List (StageKV H))) : Prop :=
  ∀ ks ∈ kvs,
    ks.length = layers.length ∧ ∃ length, Level ks length

theorem runStages_level
    (stages : List (Stage H))
    (kvs : List (StageKV H))
    (hidden : List H)
    (pos length : Nat)
    (hKvs : kvs.length = stages.length)
    (hLevel : Level kvs length) :
    (runStages stages kvs hidden pos).2.length =
        stages.length ∧
      Level (runStages stages kvs hidden pos).2
        (length + hidden.length) := by
  induction stages generalizing kvs hidden with
  | nil =>
      obtain rfl := List.length_eq_zero_iff.mp hKvs
      exact ⟨rfl, by simp [runStages, Level]⟩
  | cons stage stages ih =>
      cases kvs with
      | nil => simp at hKvs
      | cons kv kvs =>
          rcases ih kvs (stage.forward hidden pos kv).1
              (by simpa using hKvs) hLevel.tail with
            ⟨hLength, hRest⟩
          rw [Stage.length_forward] at hRest
          refine ⟨by simp [runStages, hLength], ?_⟩
          intro kv' hMem
          rcases List.mem_cons.mp hMem with rfl | hMem
          · simp [hLevel kv (by simp)]
          · exact hRest kv' hMem

theorem relayTree_level
    (stages : List (Stage H))
    (kvs : List (StageKV H))
    (hidden : List H)
    (treePositions : List Nat)
    {parents : List Int}
    (pos : Nat)
    (hWf : ParentsWf parents)
    (hHidden : hidden.length = parents.length)
    (hPositions : treePositions.length = parents.length)
    (hKvs : kvs.length = stages.length)
    {r : List H × List (StageKV H)}
    (hRelay :
      relayTree stages kvs pos hidden treePositions
        parents = .ok r) :
    r.2.length = stages.length ∧
      (stages ≠ [] → Level kvs pos) ∧
      Level r.2 (pos + parents.length) := by
  induction stages generalizing kvs hidden r with
  | nil =>
      obtain rfl := List.length_eq_zero_iff.mp hKvs
      obtain rfl := Except.ok.inj hRelay
      exact ⟨rfl, by simp, by simp [Level]⟩
  | cons stage stages ih =>
      cases kvs with
      | nil => simp at hKvs
      | cons kv kvs =>
          rcases buildTreeMask_eq hWf pos parents.length
              le_rfl with ⟨rows, hBuild, hRows, _⟩
          simp only [relayTree, runTreeStage, hBuild]
            at hRelay
          by_cases hLength : kv.getSeqLength = pos
          · rw [if_pos hLength] at hRelay
            simp only at hRelay
            cases hRest :
                relayTree stages kvs pos
                  (stage.forwardTree rows hidden
                    treePositions kv).1
                  treePositions parents with
            | error e => simp [hRest] at hRelay
            | ok r' =>
                rw [hRest] at hRelay
                obtain rfl := Except.ok.inj hRelay
                rcases ih kvs _
                    (by simpa [Stage.forwardTree] using hRows)
                    (by simpa using hKvs) hRest with
                  ⟨hCount, hBefore, hAfter⟩
                refine ⟨by simp [hCount], ?_, ?_⟩
                · intro _ kv' hMem
                  rcases List.mem_cons.mp hMem with
                    rfl | hMem
                  · exact hLength
                  · refine hBefore ?_ kv' hMem
                    rintro rfl
                    obtain rfl := List.length_eq_zero_iff.mp
                      (show kvs.length = 0 by
                        simpa using hKvs)
                    simp at hMem
                · intro kv' hMem
                  rcases List.mem_cons.mp hMem with
                    rfl | hMem
                  · have hPos : kv.length = pos := hLength
                    simp [Stage.forwardTree, hPos, hHidden,
                      hPositions]
                  · exact hAfter kv' hMem
          · rw [if_neg hLength] at hRelay
            simp at hRelay

end CircuitDllm

------------------------------------------------------------
-- The Simulation
------------------------------------------------------------

namespace CircuitDllm

variable {H R : Type}

theorem length_rowsOf
    {layers : List (AttentionLayer H R)}
    {kvs : List (StageKV H)}
    (hKvs : kvs.length = layers.length) :
    (rowsOf layers kvs).length = layers.length := by
  simp [rowsOf, hKvs]

theorem rowsOf_fresh
    [Inhabited H]
    (layers : List (AttentionLayer H R))
    (config : Qwen2Config)
    (hCount : layers.length = config.numHiddenLayers) :
    rowsOf layers
        ((layers.map (·.stage)).map
          (fun _ => ([] : StageKV H))) =
      LayeredKV.init config := by
  rw [LayeredKV.init, ← hCount]
  clear hCount
  induction layers with
  | nil => rfl
  | cons layer layers ih =>
      simp only [rowsOf, List.map_cons,
        List.zipWith_cons_cons, List.length_cons,
        List.replicate_succ] at ih ⊢
      rw [ih]
      rfl

/- The cache a frame runs on, on both sides. -/
theorem getCache_flat
    [Inhabited H]
    {layers : List (AttentionLayer H R)}
    {config : Qwen2Config}
    (hCount : layers.length = config.numHiddenLayers)
    {kvs : Option (List (StageKV H))}
    (hLevel : AllLevel layers kvs)
    (pos : Nat) :
    getCache config (kvs.map (rowsOf layers)) pos =
        rowsOf layers
          (flatCaches (layers.map (·.stage)) kvs pos) ∧
      (flatCaches (layers.map (·.stage)) kvs pos).length =
          layers.length ∧
        ∃ length,
          Level (flatCaches (layers.map (·.stage)) kvs pos)
            length := by
  have hFresh :
      LayeredKV.init config =
          rowsOf layers
            ((layers.map (·.stage)).map
              (fun _ => ([] : StageKV H))) ∧
        ((layers.map (·.stage)).map
            (fun _ => ([] : StageKV H))).length =
          layers.length ∧
        ∃ length,
          Level
            ((layers.map (·.stage)).map
              (fun _ => ([] : StageKV H))) length := by
    refine
      ⟨(rowsOf_fresh layers config hCount).symm, by simp,
        0, ?_⟩
    intro kv hMem
    rcases List.mem_map.mp hMem with ⟨_, _, rfl⟩
    rfl
  cases kvs with
  | none => exact hFresh
  | some ks =>
      simp only [getCache, flatCaches, Option.map_some]
      split
      · exact hFresh
      · rcases hLevel ks rfl with ⟨hLength, hSame⟩
        exact ⟨rfl, hLength, hSame⟩

theorem rows_take
    (layer : AttentionLayer H R)
    (kv : StageKV H)
    (length : Nat) :
    (if (layer.rows kv).length ≤ length then layer.rows kv
      else (layer.rows kv).take length) =
      layer.rows (kv.truncateTo length) := by
  rw [StageKV.truncateTo_eq_take, AttentionLayer.rows,
    AttentionLayer.rows, List.map_take]
  split
  next hLe => rw [List.take_of_length_le hLe]
  next => rfl

theorem rowsOf_truncateTo
    (layers : List (AttentionLayer H R))
    (kvs : List (StageKV H))
    (length : Nat) :
    (rowsOf layers kvs).truncateTo length =
      rowsOf layers
        (kvs.map (StageKV.truncateTo · length)) := by
  induction layers generalizing kvs with
  | nil => rfl
  | cons layer layers ih =>
      cases kvs with
      | nil => rfl
      | cons kv kvs =>
          have hRest := ih kvs
          simp only [rowsOf, LayeredKV.truncateTo] at hRest
          simp only [rowsOf, LayeredKV.truncateTo,
            List.zipWith_cons_cons, List.map_cons,
            rows_take, hRest]

theorem rowsOf_keepTreePath
    (layers : List (AttentionLayer H R))
    (kvs kept : List (StageKV H))
    (prefixLen : Nat)
    (slots : List Nat)
    (hKept :
      kvs.mapM (fun kv => kv.keepTreePath prefixLen slots) =
        some kept) :
    (rowsOf layers kvs).keepTreePath prefixLen slots =
      some (rowsOf layers kept) := by
  induction layers generalizing kvs kept with
  | nil => rfl
  | cons layer layers ih =>
      cases kvs with
      | nil =>
          obtain rfl : [] = kept := by simpa using hKept
          rfl
      | cons kv kvs =>
          simp only [List.mapM_cons, Option.bind_eq_bind,
            Option.bind_eq_some_iff, Option.pure_def,
            Option.some.injEq] at hKept
          rcases hKept with ⟨first, hFirst, rest, hRest, rfl⟩
          have hTail := ih kvs rest hRest
          have hSlot :
              LayeredKV.keepRows prefixLen slots
                  (layer.rows kv) =
                some (layer.rows first) := by
            unfold StageKV.keepTreePath at hFirst
            unfold LayeredKV.keepRows
            rw [layer.length_rows]
            rw [StageKV.getSeqLength] at hFirst
            split at hFirst
            next hZero =>
              rw [if_pos hZero, Option.some.inj hFirst]
            next hPos =>
              rw [if_neg hPos]
              exact Select.pick_map _ hFirst
          simp only [LayeredKV.keepTreePath, rowsOf]
            at hTail ⊢
          simp [List.mapM_cons, hSlot, hTail]

/- Truncating and compacting keep caches level. -/
theorem level_truncateTo
    {kvs : List (StageKV H)}
    {length : Nat}
    (hLevel : Level kvs length)
    (target : Nat) :
    Level (kvs.map (StageKV.truncateTo · target))
      (min target length) := by
  intro kv hMem
  rcases List.mem_map.mp hMem with ⟨kv', hKv', rfl⟩
  simp [StageKV.truncateTo_eq_take, hLevel kv' hKv']

theorem level_keepTreePath
    {kvs kept : List (StageKV H)}
    {length : Nat}
    (hLevel : Level kvs length)
    {prefixLen : Nat}
    {slots : List Nat}
    (hKept :
      kvs.mapM (fun kv => kv.keepTreePath prefixLen slots) =
        some kept) :
    Level kept
      (if length = 0 then 0
        else prefixLen + slots.length) := by
  intro kv hMem
  rcases LayeredKV.mem_of_mapM hKept hMem with
    ⟨kv', hKv', hKeep⟩
  have hLength := hLevel kv' hKv'
  unfold StageKV.keepTreePath at hKeep
  rw [StageKV.getSeqLength, hLength] at hKeep
  split at hKeep
  next hZero =>
    obtain rfl := Option.some.inj hKeep
    simp [hZero, hLength]
  next hPos =>
    rw [if_neg hPos, Select.length_of_pick hKeep]
    simp

/- The masks of a call without padding, for any layer. -/
theorem maskOf_flat
    {utils : MaskingUtils}
    {model : Qwen2Model H R}
    {layers : List (AttentionLayer H R)}
    (hModel : DecodesFlat utils model layers)
    (queryLength length : Nat)
    (treeMask : Option AttentionMask)
    {i : Nat}
    (hi : i < model.layers.length) :
    maskOf model.config
        (callMasks utils model.config queryLength length none
          treeMask) i =
      .ok
        (treeMask.getD (causalRows length queryLength)) := by
  rw [maskOf, hModel.fullAttention i hi]
  cases treeMask with
  | none =>
      simp [Except.bind, Masks.get, callMasks, buildMasks,
        hModel.causal]
  | some mask => rfl

/- Those of every layer of the block. -/
theorem masksOf_flat
    {utils : MaskingUtils}
    {model : Qwen2Model H R}
    {layers : List (AttentionLayer H R)}
    (hModel : DecodesFlat utils model layers)
    (queryLength length : Nat)
    (treeMask : Option AttentionMask)
    (i : Nat)
    (_ : 0 ≤ i)
    (hi : i < 0 + model.layers.length) :
    maskOf model.config
        (callMasks utils model.config queryLength length none
          treeMask) i =
      .ok (treeMask.getD (causalRows length queryLength)) :=
  maskOf_flat hModel queryLength length treeMask (by omega)

/- The whole forward is the block of all layers. -/
theorem referenceForward_flat
    {utils : MaskingUtils}
    {model : Qwen2Model H R}
    {layers : List (AttentionLayer H R)}
    (hModel : DecodesFlat utils model layers)
    (hidden : List H)
    {ks : List (StageKV H)}
    (hKs : ks.length = layers.length)
    {length : Nat}
    (hSame : Level ks length)
    (positionIds : List Nat)
    (treeMask : Option AttentionMask) :
    referenceForward utils model hidden positionIds
        (rowsOf layers ks) none treeMask =
      blockForward
        (maskOf model.config
          (callMasks utils model.config hidden.length length
            none treeMask))
        positionIds 0 model.layers hidden
        (rowsOf layers ks) :=
  referenceForward_eq utils model hidden positionIds
    (rowsOf layers ks) none treeMask length
    (by rw [length_rowsOf hKs, hModel.computes.length_eq])
    (uniform_rowsOf layers hSame)

/-
  The layers answer a frame with `r` as the flat stages do:
  their slots are the rows of the flat caches.
-/
def AnswersFlat
    [Inhabited H]
    (utils : MaskingUtils)
    (model : Qwen2Model H R)
    (layers : List (AttentionLayer H R))
    (op : StageOp)
    (hidden : List H)
    (kvs : Option (List (StageKV H)))
    (r : List H × Option (List (StageKV H))) : Prop :=
  referenceHandle utils model op hidden
        (kvs.map (rowsOf layers)) =
      .ok (r.1, r.2.map (rowsOf layers)) ∧
    AllLevel layers r.2

section Frames

variable [Inhabited H]
variable {utils : MaskingUtils}
variable {model : Qwen2Model H R}
variable {layers : List (AttentionLayer H R)}
variable {hidden : List H}
variable {kvs : Option (List (StageKV H))}

omit [Inhabited H] in
theorem DecodesFlat.count
    (hModel : DecodesFlat utils model layers) :
    layers.length = model.config.numHiddenLayers := by
  rw [hModel.computes.length_eq, hModel.numLayers]

theorem answersFlat_activation
    (hModel : DecodesFlat utils model layers)
    (hLevel : AllLevel layers kvs)
    (pos : Nat) :
    AnswersFlat utils model layers (.activation pos) hidden
      kvs
      ((runStages (layers.map (·.stage))
          (flatCaches (layers.map (·.stage)) kvs pos) hidden
          pos).1,
        some
          (runStages (layers.map (·.stage))
            (flatCaches (layers.map (·.stage)) kvs pos) hidden
            pos).2) := by
  rcases getCache_flat hModel.count hLevel pos with
    ⟨hCache, hLength, length, hSame⟩
  have hBlock :=
    blockForward_causal hModel.computes pos length 0
      hidden _
      (masksOf_flat hModel hidden.length length none)
      hLength hSame
  rw [← referenceForward_flat hModel hidden hLength hSame _
    none] at hBlock
  refine ⟨?_, ?_⟩
  · simp only [referenceHandle, StageOp.forwardCall, bind,
      Except.bind, hCache, hBlock]
    rfl
  · rintro ks ⟨rfl⟩
    rcases runStages_level (layers.map (·.stage)) _ hidden
        pos length (by simpa using hLength) hSame with
      ⟨hRun, hAfter⟩
    exact ⟨by simpa using hRun, _, hAfter⟩

theorem answersFlat_treeActivation
    (hModel : DecodesFlat utils model layers)
    (hLevel : AllLevel layers kvs)
    {pos : Nat}
    {treePositions : List Nat}
    {treeParents : List Int}
    (hFits :
      (StageOp.treeActivation pos treePositions
        treeParents).TreeFits hidden.length)
    {flat : List H × List (StageKV H)}
    (hRelay :
      relayTree (layers.map (·.stage))
          (flatCaches (layers.map (·.stage)) kvs pos) pos
          hidden treePositions treeParents = .ok flat) :
    AnswersFlat utils model layers
      (.treeActivation pos treePositions treeParents) hidden
      kvs (flat.1, some flat.2) := by
  rcases hFits with ⟨hWf, hPositions, hHidden⟩
  rcases getCache_flat hModel.count hLevel pos with
    ⟨hCache, hLength, length, hSame⟩
  rcases buildTreeMask_eq hWf pos treeParents.length
      le_rfl with ⟨mask, hBuild, _⟩
  rcases relayTree_level _ _ hidden treePositions pos
      hWf hHidden hPositions (by simpa using hLength)
      hRelay with ⟨hRun, hBefore, hAfter⟩
  have hAt :
      Level (flatCaches (layers.map (·.stage)) kvs pos)
        pos := by
    cases layers with
    | nil =>
        rw [List.length_eq_zero_iff.mp hLength]
        simp [Level]
    | cons layer layers => exact hBefore (by simp)
  rcases blockForward_tree hModel.computes hWf pos
      hBuild treePositions hPositions 0 hidden hHidden _
      (masksOf_flat hModel hidden.length pos (some mask))
      hLength hAt with ⟨r, hSame', hBlock⟩
  rw [hRelay] at hSame'
  obtain rfl := Except.ok.inj hSame'
  rw [← referenceForward_flat hModel hidden hLength hAt _
    (some mask)] at hBlock
  refine ⟨?_, ?_⟩
  · simp only [referenceHandle, StageOp.forwardCall,
      treeMaskRows, hBuild, Except.map, bind,
      Except.bind, hCache, hBlock]
    rfl
  · rintro ks ⟨rfl⟩
    exact ⟨by simpa using hRun, _, hAfter⟩

omit [Inhabited H] in
/- A frame about a session that is not there. -/
theorem allLevel_none : AllLevel layers none := by
  simp [AllLevel]

theorem answersFlat_kvReset
    (hModel : DecodesFlat utils model layers)
    {ks : List (StageKV H)}
    (hLevel : AllLevel layers (some ks)) :
    AnswersFlat utils model layers .kvReset hidden (some ks)
      (hidden, some (ks.map (fun _ => []))) := by
  rcases hLevel ks rfl with ⟨hLength, _⟩
  have hFresh :
      ks.map (fun _ => ([] : StageKV H)) =
        (layers.map (·.stage)).map (fun _ => []) := by
    simp [hLength, Function.comp_def]
  refine ⟨?_, ?_⟩
  · simp [referenceHandle, StageOp.forwardCall,
      kvControl, LayeredKV.reset, bind, Except.bind,
      hFresh, ← rowsOf_fresh layers _ hModel.count]
  · rintro _ ⟨rfl⟩
    refine ⟨by simpa using hLength, 0, ?_⟩
    intro kv hMem
    rcases List.mem_map.mp hMem with ⟨_, _, rfl⟩
    rfl

theorem answersFlat_kvTruncate
    {ks : List (StageKV H)}
    (hLevel : AllLevel layers (some ks))
    (target : Nat) :
    AnswersFlat utils model layers (.kvTruncate target) hidden
      (some ks)
      (hidden,
        some (ks.map (StageKV.truncateTo · target))) := by
  rcases hLevel ks rfl with ⟨hLength, length, hSame⟩
  refine ⟨?_, ?_⟩
  · simp [referenceHandle, StageOp.forwardCall,
      kvControl, bind, Except.bind, rowsOf_truncateTo]
  · rintro _ ⟨rfl⟩
    exact
      ⟨by simpa using hLength, _,
        level_truncateTo hSame target⟩

theorem answersFlat_kvTreeKeep
    {ks kept : List (StageKV H)}
    (hLevel : AllLevel layers (some ks))
    {prefixLen : Nat}
    {slots : List Nat}
    (hKept :
      ks.mapM (fun kv => kv.keepTreePath prefixLen slots) =
        some kept) :
    AnswersFlat utils model layers
      (.kvTreeKeep prefixLen slots) hidden (some ks)
      (hidden, some kept) := by
  rcases hLevel ks rfl with ⟨hLength, length, hSame⟩
  refine ⟨?_, ?_⟩
  · simp [referenceHandle, StageOp.forwardCall,
      kvControl, bind, Except.bind,
      rowsOf_keepTreePath layers ks kept _ _ hKept]
  · rintro _ ⟨rfl⟩
    exact
      ⟨by rw [mapM_length hKept, hLength], _,
        level_keepTreePath hSame hKept⟩

end Frames

/-
  One frame: where the flat stages answer, the layers answer
  the same, and their slots are the rows of the flat caches.
-/
theorem referenceHandle_flat
    [Inhabited H]
    {utils : MaskingUtils}
    {model : Qwen2Model H R}
    {layers : List (AttentionLayer H R)}
    (hModel : DecodesFlat utils model layers)
    {op : StageOp}
    {hidden : List H}
    {kvs : Option (List (StageKV H))}
    (hLevel : AllLevel layers kvs)
    (hFits : op.TreeFits hidden.length)
    {r : List H × Option (List (StageKV H))}
    (hFlat :
      flatHandle (layers.map (·.stage)) op hidden kvs =
        .ok r) :
    referenceHandle utils model op hidden
          (kvs.map (rowsOf layers)) =
        .ok (r.1, r.2.map (rowsOf layers)) ∧
      AllLevel layers r.2 := by
  cases op with
  | activation pos =>
      obtain rfl := (Except.ok.inj hFlat).symm
      exact answersFlat_activation hModel hLevel pos
  | treeActivation pos treePositions treeParents =>
      cases hRelay :
          relayTree (layers.map (·.stage))
            (flatCaches (layers.map (·.stage)) kvs pos) pos
            hidden treePositions treeParents with
      | error e => simp [flatHandle, hRelay, Except.map] at hFlat
      | ok flat =>
          simp only [flatHandle, hRelay, Except.map] at hFlat
          obtain rfl := (Except.ok.inj hFlat).symm
          exact
            answersFlat_treeActivation hModel hLevel hFits
              hRelay
  | batchActivation pos positionIds attn =>
      simp [flatHandle] at hFlat
  | kvFree =>
      obtain rfl := (Except.ok.inj hFlat).symm
      exact ⟨rfl, allLevel_none⟩
  | kvReset =>
      cases kvs with
      | none =>
          obtain rfl := (Except.ok.inj hFlat).symm
          exact ⟨rfl, allLevel_none⟩
      | some ks =>
          obtain rfl := (Except.ok.inj hFlat).symm
          exact answersFlat_kvReset hModel hLevel
  | kvTruncate target =>
      cases kvs with
      | none =>
          obtain rfl := (Except.ok.inj hFlat).symm
          exact ⟨rfl, allLevel_none⟩
      | some ks =>
          obtain rfl := (Except.ok.inj hFlat).symm
          exact answersFlat_kvTruncate hLevel target
  | kvTreeKeep prefixLen slots =>
      cases kvs with
      | none =>
          obtain rfl := (Except.ok.inj hFlat).symm
          exact ⟨rfl, allLevel_none⟩
      | some ks =>
          cases hKept :
              ks.mapM
                (fun kv =>
                  kv.keepTreePath prefixLen slots) with
          | none =>
              simp [flatHandle, kvTreeKeep, hKept,
                Except.map] at hFlat
          | some kept =>
              simp only [flatHandle, kvTreeKeep, hKept,
                Except.map] at hFlat
              obtain rfl := (Except.ok.inj hFlat).symm
              exact answersFlat_kvTreeKeep hLevel hKept

/- A whole session. -/
theorem referenceAll_flat
    [Inhabited H]
    {utils : MaskingUtils}
    {model : Qwen2Model H R}
    {layers : List (AttentionLayer H R)}
    (hModel : DecodesFlat utils model layers)
    {frames : List (StageOp × List H)}
    (hFits : ∀ f ∈ frames, f.1.TreeFits f.2.length)
    {kvs : Option (List (StageKV H))}
    (hLevel : AllLevel layers kvs)
    {r : List (List H) × Option (List (StageKV H))}
    (hFlat :
      flatAll (layers.map (·.stage)) frames kvs = .ok r) :
    referenceAll utils model frames
        (kvs.map (rowsOf layers)) =
      .ok (r.1, r.2.map (rowsOf layers)) := by
  induction frames generalizing kvs r with
  | nil =>
      obtain rfl := (Except.ok.inj hFlat).symm
      rfl
  | cons frame frames ih =>
      rcases frame with ⟨op, hidden⟩
      simp only [flatAll] at hFlat
      cases hHead :
          flatHandle (layers.map (·.stage)) op hidden
            kvs with
      | error e => simp [hHead] at hFlat
      | ok out =>
          simp only [hHead] at hFlat
          rcases referenceHandle_flat hModel hLevel
              (hFits (op, hidden) (by simp)) hHead with
            ⟨hStep, hNext⟩
          cases hRest :
              flatAll (layers.map (·.stage)) frames out.2 with
          | error e => simp [hRest, Except.map] at hFlat
          | ok rest =>
              simp only [hRest, Except.map] at hFlat
              obtain rfl := (Except.ok.inj hFlat).symm
              have hTail :=
                ih (fun f hf => hFits f (by simp [hf]))
                  hNext hRest
              simp only [referenceAll, hStep, bind,
                Except.bind, hTail]

/-
  The same for the stages of a split, which share the slots
  between them.
-/
theorem relayAll_flat
    [Inhabited H]
    {utils : MaskingUtils}
    {model : Qwen2Model H R}
    {layers : List (AttentionLayer H R)}
    (hModel : DecodesFlat utils model layers)
    {frames : List (StageOp × List H)}
    (hFits : ∀ f ∈ frames, f.1.TreeFits f.2.length)
    (boundaries : List Nat)
    (hSorted :
      (0 :: (boundaries ++
        [model.config.numHiddenLayers])).Pairwise (· ≤ ·))
    {r : List (List H) × Option (List (StageKV H))}
    (hFlat :
      flatAll (layers.map (·.stage)) frames none = .ok r) :
    ∃ stages,
      splitModel model boundaries = some stages ∧
        relayAll utils stages frames
            (stages.map (fun _ => none)) =
          .ok
            (r.1,
              (cutRanges model.config.numHiddenLayers
                boundaries).map
                (fun range =>
                  sliceAt (r.2.map (rowsOf layers)) range.1
                    range.2)) := by
  have hNone :
      AllLevel layers
        (none : Option (List (StageKV H))) := by
    simp [AllLevel]
  have hWhole :=
    referenceAll_flat hModel hFits hNone hFlat
  rcases relayAll_cuts utils model boundaries
      hModel.numLayers hSorted with
    ⟨stages, hSplit, hRelay⟩
  rw [Option.map_none] at hWhole
  refine ⟨stages, hSplit, ?_⟩
  rw [hRelay, hWhole]
  rfl

/- The tally layers as they read their rows. -/
def tallyAttention (scale : Nat) : AttentionLayer Nat Nat where
  kvRow := fun h position => h + scale * position
  output := fun h _ rows => rows.foldl (· + ·) h

theorem tally_decodesFlat :
    DecodesFlat causalUtils tallyModel
      [tallyAttention 1, tallyAttention 2,
        tallyAttention 3] := by
  have hComputes (scale : Nat) :
      (tallyAttention scale).Computes (tallyLayer scale) := by
    refine ⟨rfl, ?_⟩
    intro h position flags rows hLength
    simp [tallyLayer, tallyAttention, hLength]
  exact
    ⟨.cons (hComputes 1)
        (.cons (hComputes 2) (.cons (hComputes 3) .nil)),
      fun _ _ => rfl, fun _ _ => rfl, rfl⟩

theorem relayAll_flat_tally :
    ∃ stages caches,
      splitModel tallyModel [2] = some stages ∧
        relayAll causalUtils stages tallyFrames
            (stages.map (fun _ => none)) =
          .ok ([[8, 39], [105, 220], [], [228]], caches) := by
  have hFits :
      ∀ f ∈ tallyFrames, f.1.TreeFits f.2.length := by
    intro f hf
    simp only [tallyFrames, List.mem_cons,
      List.not_mem_nil, or_false] at hf
    rcases hf with rfl | rfl | rfl | rfl
    · trivial
    · refine ⟨⟨rfl, ?_⟩, rfl, rfl⟩
      intro i a ha
      cases i with
      | zero =>
          obtain rfl : 0 = a := by simpa using ha
          simp
      | succ i => simp at ha
    · trivial
    · trivial
  rcases relayAll_flat tally_decodesFlat hFits [2]
      (by decide) rfl with ⟨stages, hSplit, hRun⟩
  exact ⟨stages, _, hSplit, hRun⟩

end CircuitDllm

------------------------------------------------------------
-- Nodes as Stages
------------------------------------------------------------

namespace CircuitDllm

variable {H R : Type}

/-
  A block of layers as one stage of the decoding model: each
  layer's outputs are the next layer's inputs, at the same
  position ids.
-/
def blockStage
    [Inhabited H] :
    List (AttentionLayer H R) → Stage H
| [] => fun entries =>
    (entries.getLast?.map (·.1)).getD default
| layer :: layers => fun entries =>
    blockStage layers
      ((Causal.feed layer.stage [] entries).zip
        (entries.map (·.2)))

theorem take_feed
    {E O : Type}
    (F : List E → O)
    (fed : List E)
    (count : Nat) :
    (Causal.feed F [] fed).take count =
      Causal.feed F [] (fed.take count) := by
  conv_lhs =>
    rw [← List.take_append_drop count fed,
      Causal.feed_append]
  rcases Nat.le_total count fed.length with hLe | hLe
  · rw [List.take_left' (by simp [hLe])]
  · rw [List.drop_of_length_le hLe]
    simp [Causal.feed, List.take_of_length_le, hLe]

/- Outputs of a block are outputs of its layers in turn. -/
theorem feed_blockStage
    [Inhabited H]
    (layer : AttentionLayer H R)
    (layers : List (AttentionLayer H R))
    (entries : StageKV H) :
    Causal.feed (blockStage (layer :: layers)) [] entries =
      Causal.feed (blockStage layers) []
        ((Causal.feed layer.stage [] entries).zip
          (entries.map (·.2))) := by
  apply List.ext_getElem?
  intro i
  rcases Nat.lt_or_ge i entries.length with hi | hi
  · rw [Causal.getElem?_feed _ _ _ _ hi,
      Causal.getElem?_feed _ _ _ _ (by simpa using hi)]
    simp only [blockStage, List.nil_append, List.zip,
      List.take_zipWith, take_feed, List.map_take]
  · rw [List.getElem?_eq_none (by simpa),
      List.getElem?_eq_none (by simpa)]

theorem outputs_blockStage
    [Inhabited H]
    (layers : List (AttentionLayer H R))
    (inputs : List H) :
    (blockStage layers).outputs inputs =
      linearHidden (layers.map (·.stage)) inputs := by
  induction layers generalizing inputs with
  | nil =>
      apply List.ext_getElem?
      intro i
      rcases Nat.lt_or_ge i inputs.length with hi | hi
      · rw [Stage.outputs,
          Causal.getElem?_feed _ _ _ _ (by simpa using hi)]
        simp [blockStage, linearHidden, StageKV.linear, hi,
          List.take_add_one]
      · rw [List.getElem?_eq_none (by simpa),
          List.getElem?_eq_none (by simpa [linearHidden])]
  | cons layer layers ih =>
      have hLinear :
          (layer.stage.outputs inputs).zip
              ((StageKV.linear inputs).map (·.2)) =
            StageKV.linear (layer.stage.outputs inputs) := by
        simp [StageKV.linear, List.zipIdx_eq_zip_range',
          List.map_snd_zip]
      rw [Stage.outputs, feed_blockStage,
        ← Stage.outputs, hLinear, ← Stage.outputs, ih]
      rfl

theorem linearHidden_stages_append
    (stages stages' : List (Stage H))
    (inputs : List H) :
    linearHidden (stages ++ stages') inputs =
      linearHidden stages' (linearHidden stages inputs) := by
  induction stages generalizing inputs with
  | nil => rfl
  | cons stage stages ih => exact ih _

/- Grouping the layers into nodes changes no output. -/
theorem linearHidden_blockStage
    [Inhabited H]
    (blocks : List (List (AttentionLayer H R)))
    (inputs : List H) :
    linearHidden (blocks.map blockStage) inputs =
      linearHidden (blocks.flatten.map (·.stage)) inputs := by
  induction blocks generalizing inputs with
  | nil => rfl
  | cons layers blocks ih =>
      rw [List.map_cons, List.flatten_cons, List.map_append,
        linearHidden_stages_append,
        ← outputs_blockStage layers inputs]
      exact ih _

/- The decoding model whose stages are blocks of layers. -/
def nodeModel
    [Inhabited H]
    {Tok : Type}
    (embed : Tok → H)
    (blocks : List (List (AttentionLayer H R)))
    (lmHead : H → Tok) :
    Model Tok H where
  embed := embed
  stages := blocks.map blockStage
  lmHead := lmHead

end CircuitDllm

------------------------------------------------------------
-- Decoding on a Split
------------------------------------------------------------

namespace CircuitDllm

variable {Tok H R : Type}

/- What a decoder asks of a session's caches. -/
inductive DecodeStep (Tok : Type) where
  | feed (ids : List Tok)
  | rollback (length : Nat)

/- The frames of these steps after the tokens `held`. -/
def decodeFrames
    (embed : Tok → H) :
    List Tok → List (DecodeStep Tok) →
      List (StageOp × List H)
| _, [] => []
| held, .feed ids :: steps =>
    (.activation held.length, ids.map embed) ::
      decodeFrames embed (held ++ ids) steps
| held, .rollback length :: steps =>
    (.kvTruncate length, []) ::
      decodeFrames embed (held.take length) steps

/- The tokens a next-token function picks at these steps. -/
def decodePicks
    (next : List Tok → Tok) :
    List Tok → List (DecodeStep Tok) → List (Option Tok)
| _, [] => []
| held, .feed ids :: steps =>
    (if ids.isEmpty then none
      else some (next (held ++ ids))) ::
      decodePicks next (held ++ ids) steps
| held, .rollback length :: steps =>
    none :: decodePicks next (held.take length) steps

/- On flat stages the picks are the model's. -/
theorem flatAll_decodes
    [Inhabited Tok]
    (model : Model Tok H)
    (steps : List (DecodeStep Tok))
    (held : List Tok)
    (kvs : Option (List (StageKV H)))
    (hKvs :
      kvs = some (model.linearKVs held) ∨
        kvs = none ∧ held = []) :
    ∃ r,
      flatAll model.stages
          (decodeFrames model.embed held steps) kvs =
        .ok r ∧
        r.1.map
            (fun hidden =>
              (hidden.map model.lmHead).getLast?) =
          decodePicks model.next held steps := by
  induction steps generalizing held kvs with
  | nil => exact ⟨_, rfl, rfl⟩
  | cons step steps ih =>
      cases step with
      | feed ids =>
          have hCaches :
              flatCaches model.stages kvs held.length =
                model.linearKVs held := by
            rcases hKvs with rfl | ⟨rfl, rfl⟩
            · simp only [flatCaches]
              split
              next hZero =>
                rw [List.length_eq_zero_iff.mp hZero]
                exact model.fresh_eq_linearKVs
              next => rfl
            · exact model.fresh_eq_linearKVs
          rcases ih (held ++ ids)
              (some (model.linearKVs (held ++ ids)))
              (.inl rfl) with ⟨r, hRest, hPicks⟩
          by_cases hIds : ids = []
          · subst hIds
            have hRun :=
              runStages_linear model.stages
                (held.map model.embed) []
            rw [List.append_nil, List.length_map] at hRun
            have hHead :
                flatHandle model.stages
                    (.activation held.length) [] kvs =
                  .ok
                    ([], some (model.linearKVs held)) := by
              simp only [flatHandle, hCaches,
                Model.linearKVs, hRun]
              rw [List.drop_of_length_le (by simp)]
            rw [List.append_nil] at hRest
            refine ⟨([] :: r.1, r.2), ?_, ?_⟩
            · simp only [decodeFrames, List.map_nil, flatAll,
                hHead, List.append_nil, hRest, Except.map]
            · simpa [decodePicks] using hPicks
          · rcases model.runStages_next held ids hIds with
              ⟨hidden, hRun, hNext⟩
            have hHead :
                flatHandle model.stages
                    (.activation held.length)
                    (ids.map model.embed) kvs =
                  .ok
                    (hidden,
                      some
                        (model.linearKVs (held ++ ids))) := by
              simp only [flatHandle, hCaches, hRun]
            refine ⟨(hidden :: r.1, r.2), ?_, ?_⟩
            · simp only [decodeFrames, flatAll, hHead, hRest,
                Except.map]
            · simp only [List.map_cons, hNext, hPicks]
              simp [decodePicks, hIds]
      | rollback length =>
          rcases ih (held.take length)
              (kvs.map
                (List.map (StageKV.truncateTo · length)))
              (by
                rcases hKvs with rfl | ⟨rfl, rfl⟩
                · left
                  simp only [Option.map_some,
                    Model.linearKVs, truncate_linearKVs,
                    List.map_take]
                · right
                  simp) with ⟨r, hRest, hPicks⟩
          have hHead :
              flatHandle model.stages (.kvTruncate length)
                  [] kvs =
                .ok
                  ([],
                    kvs.map
                      (List.map
                        (StageKV.truncateTo · length))) := by
            cases kvs <;> rfl
          refine ⟨([] :: r.1, r.2), ?_, ?_⟩
          · simp only [decodeFrames, flatAll, hHead, hRest,
              Except.map]
          · simpa [decodePicks] using hPicks

theorem treeFits_decodeFrames
    (embed : Tok → H)
    (held : List Tok)
    (steps : List (DecodeStep Tok)) :
    ∀ f ∈ decodeFrames embed held steps,
      f.1.TreeFits f.2.length := by
  induction steps generalizing held with
  | nil => simp [decodeFrames]
  | cons step steps ih =>
      intro f hf
      cases step with
      | feed ids =>
          rcases List.mem_cons.mp hf with rfl | hf
          · trivial
          · exact ih _ f hf
      | rollback length =>
          rcases List.mem_cons.mp hf with rfl | hf
          · trivial
          · exact ih _ f hf

/- Nodes and layers have the same next-token function. -/
theorem next_nodeModel
    [Inhabited H]
    [Inhabited Tok]
    (embed : Tok → H)
    (blocks : List (List (AttentionLayer H R)))
    (lmHead : H → Tok) :
    (nodeModel embed blocks lmHead).next =
      ({ embed := embed
         stages := blocks.flatten.map (·.stage)
         lmHead := lmHead } : Model Tok H).next := by
  funext ids
  simp only [Model.next, Model.linearArgmaxes, nodeModel,
    linearHidden_blockStage]

/-
  Feeding and rolling back a session on any split of the
  layers picks what the model of the nodes picks, however
  its layers are grouped there.
-/
theorem split_decodes
    [Inhabited H]
    [Inhabited Tok]
    {utils : MaskingUtils}
    {model : Qwen2Model H R}
    {layers : List (AttentionLayer H R)}
    (hModel : DecodesFlat utils model layers)
    (embed : Tok → H)
    (lmHead : H → Tok)
    (blocks : List (List (AttentionLayer H R)))
    (hBlocks : blocks.flatten = layers)
    (boundaries : List Nat)
    (hSorted :
      (0 :: (boundaries ++
        [model.config.numHiddenLayers])).Pairwise (· ≤ ·))
    (steps : List (DecodeStep Tok)) :
    ∃ stages outs caches,
      splitModel model boundaries = some stages ∧
        relayAll utils stages (decodeFrames embed [] steps)
            (stages.map (fun _ => none)) =
          .ok (outs, caches) ∧
        outs.map
            (fun hidden =>
              (hidden.map lmHead).getLast?) =
          decodePicks (nodeModel embed blocks lmHead).next
            [] steps := by
  rcases flatAll_decodes
      { embed := embed
        stages := layers.map (·.stage)
        lmHead := lmHead } steps [] none
      (.inr ⟨rfl, rfl⟩) with ⟨r, hFlat, hPicks⟩
  have hNone :
      AllLevel layers
        (none : Option (List (StageKV H))) := by
    simp [AllLevel]
  have hWhole :=
    referenceAll_flat hModel
      (treeFits_decodeFrames embed [] steps) hNone hFlat
  rcases relayAll_cuts utils model boundaries
      hModel.numLayers hSorted with
    ⟨stages, hSplit, hRelay⟩
  rw [Option.map_none] at hWhole
  have hRun := hRelay (decodeFrames embed [] steps)
  rw [hWhole] at hRun
  refine ⟨stages, r.1, _, hSplit, hRun, ?_⟩
  rw [hPicks, next_nodeModel, hBlocks]

theorem split_decodes_tally :
    ∃ stages outs caches,
      splitModel tallyModel [2] = some stages ∧
        relayAll causalUtils stages
            (decodeFrames id []
              [.feed [1, 2], .rollback 1, .feed [4]])
            (stages.map (fun _ => none)) =
          .ok (outs, caches) ∧
        outs.map (fun hidden => hidden.getLast?) =
          [some 39, none, some 55] := by
  rcases split_decodes tally_decodesFlat id id
      [[tallyAttention 1], [tallyAttention 2,
        tallyAttention 3]] rfl [2] (by decide)
      [.feed [1, 2], .rollback 1, .feed [4]] with
    ⟨stages, outs, caches, hSplit, hRun, hPicks⟩
  refine ⟨stages, outs, caches, hSplit, hRun, ?_⟩
  simp only [List.map_id] at hPicks
  rw [hPicks]
  rfl

end CircuitDllm
