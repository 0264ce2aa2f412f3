import CircuitDllm.Lib.PyJson
import CircuitDllm.Shard.Slice

/-
  The sub-model a slice is loaded as (scripts/slice-awq.py).

  Its config announces as many layers as the range has; its
  index lists the layers of the range that the checkpoint
  has.  The two agree unless the range starts in the model
  and ends beyond it.

  Main declarations:
    * `Checkpoint`, `subConfig`
    * `announced`, `hasTensor_remapped`
    * `SubModelComplete`, `subModelComplete_iff`
-/

------------------------------------------------------------
-- The Config
------------------------------------------------------------

namespace CircuitDllm

variable {F : Type}

def numHiddenLayers : Text := "num_hidden_layers".toList

def tieWordEmbeddings : Text := "tie_word_embeddings".toList

def quantizationConfig : Text := "quantization_config".toList

/- A config.json. -/
abbrev ModelConfig (F : Type) := Dict Text (PyJson F)

/- The config of the slice. -/
def subConfig (config : ModelConfig F) (s : SliceArgs) :
    ModelConfig F :=
  let c := config.set numHiddenLayers (.int (s.stop - s.start))
  let c :=
    if ¬ s.keepHead then c.set tieWordEmbeddings (.bool false)
    else c
  -- without layers nothing is quantized
  if s.stop - s.start = 0 then c.erase quantizationConfig
  else c

/- The flags and the quantization leave the count alone. -/
theorem announced (config : ModelConfig F) (s : SliceArgs) :
    (subConfig config s).get? numHiddenLayers =
      some (.int (s.stop - s.start)) := by
  have hTie : tieWordEmbeddings ≠ numHiddenLayers := by decide
  have hQuant : quantizationConfig ≠ numHiddenLayers := by
    decide
  have hTied :
      (if ¬ s.keepHead then
          (config.set numHiddenLayers
            (.int (s.stop - s.start))).set tieWordEmbeddings
              (.bool false)
        else
          config.set numHiddenLayers
            (.int (s.stop - s.start))).get? numHiddenLayers =
        some (PyJson.int (s.stop - s.start)) := by
    split
    · rw [Dict.get?_set, if_neg hTie, Dict.get?_set_self]
    · rw [Dict.get?_set_self]
  rw [subConfig]
  split
  · rw [Dict.get?_erase, if_neg hQuant, hTied]
  · exact hTied

end CircuitDllm

------------------------------------------------------------
-- The Layers of a Slice
------------------------------------------------------------

namespace CircuitDllm

open Numeral

/-
  The index of a model: canonical names, and a tensor at the
  least in each of its layers.
-/
structure Checkpoint (u : Charset) where
  weightMap : WeightMap
  numLayers : Nat
  named : ∀ name ∈ weightMap.keys, WellNamed u numLayers name
  layered : ∀ i < numLayers, ∃ rest : Text,
    '\n' ∉ rest ∧ layerName i rest ∈ weightMap.keys

/- A tensor of layer `i` and the file it is in. -/
def HasTensor
    (weightMap : WeightMap)
    (i : Nat)
    (rest shard : Text) :
    Prop :=
  '\n' ∉ rest ∧ weightMap.get? (layerName i rest) = some shard

variable {u : Charset} {s : SliceArgs}
variable {weightMap newMap : WeightMap} {numLayers : Int}

/- What has the name of a local layer was one of the range. -/
theorem layer_of_newName
    {name rest : Text}
    {j : Nat}
    (hNamed : WellNamed u numLayers name)
    (hNew : newName u s name = some (layerName j rest)) :
    ∃ i : Nat, (i : Int) = s.start + j ∧ i < s.stop ∧
      '\n' ∉ rest ∧ name = layerName i rest := by
  rcases newName_cases hNamed hNew with
    ⟨i, rest', hLow, hHigh, hLine, rfl, hSub⟩ | ⟨-, hSub, hKeep⟩
  · rcases layerName_inj hSub with ⟨hJ, rfl⟩
    exact ⟨i, by omega, hHigh, hLine, rfl⟩
  · rw [← hSub, keepNonlayer_layerName] at hKeep
    cases hKeep

/- A local layer is the layer of the range, and all of it. -/
theorem hasTensor_remapped
    (hNamed : ∀ name ∈ weightMap.keys,
      WellNamed u numLayers name)
    {i j : Nat}
    (hIndex : (i : Int) = s.start + j)
    (hStop : (i : Int) < s.stop)
    {rest shard : Text} :
    HasTensor (remapped u weightMap s) j rest shard ↔
      HasTensor weightMap i rest shard := by
  have hForward :
      ∀ shard, HasTensor weightMap i rest shard →
        HasTensor (remapped u weightMap s) j rest shard := by
    rintro shard ⟨hLine, hShard⟩
    have hNew :
        newName u s (layerName i rest) =
          some (layerName j rest) := by
      have hJ : ((i : Int) - s.start).toNat = j := by omega
      rw [newName_layerName u s i hLine,
        if_pos ⟨by omega, hStop⟩, hJ]
    exact ⟨hLine, get?_remapped hNamed hShard hNew⟩
  refine ⟨?_, hForward shard⟩
  rintro ⟨-, hGet⟩
  have hKey :
      layerName j rest ∈ (remapped u weightMap s).keys :=
    Dict.mem_keys.mpr ⟨shard, hGet⟩
  rcases Dict.mem_values.mp (mem_keys_remapped.mp hKey) with
    ⟨name, hKept⟩
  rw [get?_keptTensorNames] at hKept
  rcases layer_of_newName (hNamed name hKept.1) hKept.2 with
    ⟨i', hIndex', -, hLine, rfl⟩
  obtain rfl : i' = i := by omega
  rcases Dict.mem_keys.mp hKept.1 with ⟨shard', hShard⟩
  have hSame := (hForward shard' ⟨hLine, hShard⟩).2
  rw [hGet] at hSame
  rw [Option.some.inj hSame]
  exact ⟨hLine, hShard⟩

end CircuitDllm

------------------------------------------------------------
-- When a Slice Is Written
------------------------------------------------------------

namespace CircuitDllm

open Numeral

namespace Checkpoint

variable {u : Charset} (c : Checkpoint u) {s : SliceArgs}
variable {newMap : WeightMap}

/- A layer of the checkpoint is below its number of layers. -/
theorem lt_numLayers
    {i : Nat}
    {rest shard : Text}
    (hTensor : HasTensor c.weightMap i rest shard) :
    i < c.numLayers := by
  rcases hTensor with ⟨hLine, hShard⟩
  have hKey : layerName i rest ∈ c.weightMap.keys :=
    Dict.mem_keys.mpr ⟨shard, hShard⟩
  rcases c.named _ hKey with hNone | ⟨i', rest', hLt, -, hEq⟩
  · rw [matchLayer_layerName u i hLine] at hNone
    cases hNone
  · rcases layerName_inj hEq with ⟨rfl, -⟩
    exact Int.ofNat_lt.mp hLt

theorem exists_hasTensor
    {i : Nat}
    (hLt : i < c.numLayers) :
    ∃ rest shard, HasTensor c.weightMap i rest shard := by
  rcases c.layered i hLt with ⟨rest, hLine, hKey⟩
  rcases Dict.mem_keys.mp hKey with ⟨shard, hShard⟩
  exact ⟨rest, shard, hLine, hShard⟩

/- A layer is selected if one of the range exists. -/
theorem selects_iff :
    (∃ name ∈ c.weightMap.keys,
        (relayerName u s name).isSome) ↔
      ∃ i : Nat, s.start ≤ i ∧ i < s.stop ∧
        i < c.numLayers := by
  constructor
  · rintro ⟨name, hKey, hSome⟩
    rcases c.named name hKey with
      hNone | ⟨i, rest, hLt, hLine, rfl⟩
    · rw [relayerName_eq_none hNone] at hSome
      cases hSome
    · rw [relayerName_layerName u s i hLine] at hSome
      split at hSome
      · rename_i hRange
        exact ⟨i, hRange.1, hRange.2, Int.ofNat_lt.mp hLt⟩
      · cases hSome
  · rintro ⟨i, hLow, hHigh, hLt⟩
    rcases c.layered i hLt with ⟨rest, hLine, hKey⟩
    refine ⟨layerName i rest, hKey, ?_⟩
    rw [relayerName_layerName u s i hLine,
      if_pos ⟨hLow, hHigh⟩]
    rfl

omit c in
theorem range_of_returns
    {weightMap : WeightMap}
    (hMap : remapWeightMap u weightMap s = .ok newMap) :
    0 ≤ s.start ∧ s.start ≤ s.stop := by
  by_contra hRange
  rw [remapWeightMap, if_pos hRange] at hMap
  cases hMap

/- The one check there is: the range starts in the model. -/
theorem returns_iff
    (hLow : 0 ≤ s.start)
    (hLt : s.start < s.stop) :
    (∃ newMap,
        remapWeightMap u c.weightMap s = .ok newMap) ↔
      s.start < c.numLayers := by
  rw [remapWeightMap_returns_iff ⟨hLow, hLt.le⟩,
    c.selects_iff]
  constructor
  · rintro ⟨hSelects, -⟩
    rcases hSelects hLt with ⟨i, hStart, -, hI⟩
    omega
  · intro hStart
    refine ⟨fun _ => ⟨s.start.toNat, ?_, ?_, ?_⟩, ?_⟩
    · omega
    · omega
    · omega
    · intro hEq
      exact absurd hEq hLt.ne

end Checkpoint

end CircuitDllm

------------------------------------------------------------
-- Complete Sub-Models
------------------------------------------------------------

namespace CircuitDllm

open Numeral

variable {u : Charset} {F : Type}

/-
  Every layer the config announces is there, with all the
  tensors it had, and a range with a layer that the model
  does not have is rejected.
-/
structure SubModelComplete
    (c : Checkpoint u)
    (config : ModelConfig F)
    (s : SliceArgs) :
    Prop where
  complete :
    ∀ newMap n,
      remapWeightMap u c.weightMap s = .ok newMap →
        (subConfig config s).get? numHiddenLayers =
            some (.int n) →
          ∀ j : Nat, j < n →
            (∀ rest shard,
              HasTensor newMap j rest shard ↔
                HasTensor c.weightMap (s.start + j).toNat rest
                  shard) ∧
              ∃ rest shard, HasTensor newMap j rest shard
  rejected :
    ∀ layer : Nat, s.start ≤ layer → layer < s.stop →
      c.numLayers ≤ layer →
        ∃ e, remapWeightMap u c.weightMap s = .error e

/- A range inside the model has all its layers. -/
theorem complete_of_inside
    (c : Checkpoint u)
    {s : SliceArgs}
    {newMap : WeightMap}
    (hMap : remapWeightMap u c.weightMap s = .ok newMap)
    {j : Nat}
    (hJ : j < s.stop - s.start)
    (hInside : s.stop ≤ c.numLayers) :
    (∀ rest shard,
      HasTensor newMap j rest shard ↔
        HasTensor c.weightMap (s.start + j).toNat rest shard) ∧
      ∃ rest shard, HasTensor newMap j rest shard := by
  have hRange := Checkpoint.range_of_returns hMap
  obtain rfl := remapWeightMap_eq_ok hMap
  have hSame :
      ∀ rest shard,
        HasTensor (remapped u c.weightMap s) j rest shard ↔
          HasTensor c.weightMap (s.start + j).toNat rest
            shard := by
    intro rest shard
    apply hasTensor_remapped c.named
    · omega
    · omega
  have hLt : (s.start + j).toNat < c.numLayers := by omega
  rcases c.exists_hasTensor hLt with ⟨rest, shard, hTensor⟩
  exact ⟨hSame, rest, shard, (hSame rest shard).mpr hTensor⟩

/- The first layer beyond the model is announced, and empty. -/
theorem not_complete_of_beyond
    (c : Checkpoint u)
    (config : ModelConfig F)
    {s : SliceArgs}
    (hLow : 0 ≤ s.start)
    (hStart : s.start < c.numLayers)
    (hStop : c.numLayers < s.stop) :
    ¬ SubModelComplete c config s := by
  intro hComplete
  have hReturns : ∃ newMap,
      remapWeightMap u c.weightMap s = .ok newMap :=
    (c.returns_iff hLow (by omega)).mpr hStart
  rcases hReturns with ⟨newMap, hMap⟩
  have hLocal :=
    hComplete.complete newMap _ hMap (announced config s)
      (c.numLayers - s.start).toNat (by omega)
  rcases hLocal with ⟨hSame, rest, shard, hTensor⟩
  have hLt := c.lt_numLayers ((hSame rest shard).mp hTensor)
  omega

/-
  A sub-model is complete, or rejected, exactly if its range
  does not start in the model and end beyond it.
-/
theorem subModelComplete_iff
    (c : Checkpoint u)
    (config : ModelConfig F)
    (s : SliceArgs) :
    SubModelComplete c config s ↔
      ¬ (0 ≤ s.start ∧ s.start < c.numLayers ∧
        c.numLayers < s.stop) := by
  constructor
  · rintro hComplete ⟨hLow, hStart, hStop⟩
    exact not_complete_of_beyond c config hLow hStart hStop
      hComplete
  · intro hNot
    -- a non-empty range that is written ends in the model
    have hInside :
        ∀ newMap,
          remapWeightMap u c.weightMap s = .ok newMap →
            s.start < s.stop → s.stop ≤ c.numLayers := by
      intro newMap hMap hLt
      have hLow := (Checkpoint.range_of_returns hMap).1
      have hStart := (c.returns_iff hLow hLt).mp ⟨newMap, hMap⟩
      omega
    refine ⟨?_, ?_⟩
    · intro newMap n hMap hAnnounced j hJ
      rw [announced] at hAnnounced
      cases hAnnounced
      exact complete_of_inside c hMap hJ
        (hInside newMap hMap (by omega))
    · intro layer hLow hHigh hBeyond
      cases hMap : remapWeightMap u c.weightMap s with
      | error e => exact ⟨e, rfl⟩
      | ok newMap =>
          have hEnds := hInside newMap hMap (by omega)
          omega

/- Two layers, and the config of the model. -/
def twoLayers : Checkpoint .ascii where
  weightMap := sampleIndex
  numLayers := 2
  named := by
    have hKeys : sampleIndex.keys =
        [layerName 0 ['q'], layerName 1 ['q'],
          "lm_head.weight".toList] := by
      decide
    rw [hKeys]
    intro name hMem
    simp only [List.mem_cons, List.not_mem_nil, or_false]
      at hMem
    rcases hMem with rfl | rfl | rfl
    · exact Or.inr ⟨0, ['q'], by decide, by decide, rfl⟩
    · exact Or.inr ⟨1, ['q'], by decide, by decide, rfl⟩
    · exact Or.inl (by decide)
  layered := by
    intro i hLt
    refine ⟨['q'], by decide, ?_⟩
    have hI : i = 0 ∨ i = 1 := by omega
    rcases hI with rfl | rfl
    · decide
    · decide

def twoLayersConfig : ModelConfig Unit :=
  Dict.empty.set numHiddenLayers (.int 2)

/- The last layer of the model and one that it has not. -/
theorem twoLayers_not_complete :
    ¬ SubModelComplete twoLayers twoLayersConfig
      ⟨1, 3, false, false⟩ :=
  not_complete_of_beyond twoLayers twoLayersConfig
    (by decide) (by decide) (by decide)

end CircuitDllm
