import CircuitDllm.Lib.Dict
import CircuitDllm.Lib.Numeral
import CircuitDllm.Lib.Tiling
import Mathlib.Data.List.TakeWhile

/-
  Cutting a checkpoint into slices (scripts/slice-awq.py).

  A slice keeps the decoder layers of its range, renumbered
  from 0, and the head tensors its flags ask for.  The index
  and the copy of the tensors each apply the rule.

  Main declarations:
    * `matchLayer`, `relayerName`, `keepNonlayer`
    * `remapWeightMap`, `keptTensorNames`, `sliceMain`
    * `relayerName_layerName`, `newName_injective`
    * `SliceCorrect`, `sliceCorrect_of_range`
-/

------------------------------------------------------------
-- Tensor Names
------------------------------------------------------------

namespace CircuitDllm

open Numeral

/- A name or a path, as its characters. -/
abbrev Text := List Char

def layersPrefix : Text := "model.layers.".toList

/-
  Groups 2 and 3 of ^(model\.layers\.)(\d+)(\..*)$: all the
  digits there are, then a dot and the rest of the line, be
  it the end of the name or its last newline.
-/
def matchLayer (u : Charset) (name : Text) :
    Option (Text × Text) :=
  match layersPrefix.isPrefixOf? name with
  | none => none
  | some rest =>
    let number := rest.takeWhile (fun c => (u.digit c).isSome)
    let after := rest.dropWhile (fun c => (u.digit c).isSome)
    if number = [] ∨ after.head? ≠ some '.' then none
    else
      let line := after.takeWhile (· ≠ '\n')
      let ending := after.dropWhile (· ≠ '\n')
      if ending = [] ∨ ending = ['\n'] then
        some (number, line)
      else none

/- A range of layers and the flags of a slice. -/
structure SliceArgs where
  start : Int
  stop : Int
  keepNorm : Bool
  keepHead : Bool
deriving DecidableEq, Repr

/- The name of a layer tensor in the slice, none outside. -/
def relayerName
    (u : Charset)
    (s : SliceArgs)
    (name : Text) :
    Option Text :=
  match matchLayer u name with
  | none => none
  | some (number, rest) =>
    match digits u number with
    | none => none
    | some idx =>
      if s.start ≤ idx ∧ idx < s.stop then
        some (layersPrefix ++ decimal (idx - s.start).toNat ++
          rest)
      else none

def embedPrefix : Text := "model.embed_tokens.".toList

def headPrefix : Text := "lm_head.".toList

def normPrefix : Text := "model.norm.".toList

/- Which other tensors a slice keeps. -/
def keepNonlayer (s : SliceArgs) (name : Text) : Bool :=
  if s.keepHead ∧ (embedPrefix <+: name ∨
      headPrefix <+: name ∨ normPrefix <+: name) then true
  else if s.keepNorm ∧ normPrefix <+: name then true
  else false

end CircuitDllm

------------------------------------------------------------
-- The Index and the Copy
------------------------------------------------------------

namespace CircuitDllm

open Numeral

/- tensor name -> shard file -/
abbrev WeightMap := Dict Text Text

inductive SliceError where
  | badRange (start stop : Int)
  | noLayers (start stop : Int)
  | keptNothing (start stop : Int)
  /- the index and the tensors disagree -/
  | mismatch
deriving DecidableEq, Repr

/- One tensor of the checkpoint's index. -/
def remapStep
    (u : Charset)
    (s : SliceArgs)
    (out : WeightMap)
    (entry : Text × Text) : WeightMap :=
  match relayerName u s entry.1 with
  | some sub => out.set sub entry.2
  | none =>
    if keepNonlayer s entry.1 then out.set entry.1 entry.2
    else out

/- The index of the slice. -/
def remapWeightMap
    (u : Charset)
    (weightMap : WeightMap)
    (s : SliceArgs) :
    Except SliceError WeightMap :=
  if ¬ (0 ≤ s.start ∧ s.start ≤ s.stop) then
    .error (.badRange s.start s.stop)
  else
    let out := weightMap.entries.foldl (remapStep u s) .empty
    let seenLayer := weightMap.keys.any (fun name =>
      (relayerName u s name).isSome)
    if s.start < s.stop ∧ seenLayer = false then
      .error (.noLayers s.start s.stop)
    else if s.start = s.stop ∧ out.entries = [] then
      .error (.keptNothing s.start s.stop)
    else .ok out

/- The same rules, for the originals. -/
def keptStep
    (u : Charset)
    (s : SliceArgs)
    (kept : Dict Text Text)
    (name : Text) : Dict Text Text :=
  match relayerName u s name with
  | some sub => kept.set name sub
  | none =>
    if keepNonlayer s name then kept.set name name else kept

/- The tensors to copy, with their names in the slice. -/
def keptTensorNames
    (u : Charset)
    (allNames : List Text)
    (s : SliceArgs) :
    Dict Text Text :=
  allNames.foldl (keptStep u s) .empty

/- A tensor of the checkpoint: its file and its name. -/
structure Tensor where
  shard : Text
  name : Text
deriving DecidableEq, Repr

/- The kept originals by the shard file they are in. -/
def groupByShard
    (weightMap : WeightMap)
    (kept : Dict Text Text) :
    Dict Text (List Text) :=
  kept.keys.foldl
    (fun byShard orig =>
      let shard := (weightMap.get? orig).getD []
      byShard.set shard
        ((byShard.get? shard).getD [] ++ [orig]))
    .empty

/- Read every group from its shard, under the new names. -/
def copyTensors
    (weightMap : WeightMap)
    (kept : Dict Text Text) :
    Dict Text Tensor :=
  (groupByShard weightMap kept).entries.foldl
    (fun tensors group =>
      group.2.foldl
        (fun tensors orig =>
          tensors.set ((kept.get? orig).getD [])
            ⟨group.1, orig⟩)
        tensors)
    .empty

/- The tensors and the index that main writes. -/
def sliceMain
    (u : Charset)
    (weightMap : WeightMap)
    (s : SliceArgs) :
    Except SliceError (Dict Text Tensor × WeightMap) :=
  let kept := keptTensorNames u weightMap.keys s
  let newTensors := copyTensors weightMap kept
  match remapWeightMap u weightMap s with
  | .error e => .error e
  | .ok newMap =>
    if newMap.keys ⊆ newTensors.keys ∧
        newTensors.keys ⊆ newMap.keys then
      .ok (newTensors, newMap)
    else .error .mismatch

end CircuitDllm

------------------------------------------------------------
-- Layer Names
------------------------------------------------------------

namespace CircuitDllm

open Numeral

/- model.layers.<i>.<rest> -/
def layerName (i : Nat) (rest : Text) : Text :=
  layersPrefix ++ (decimal i ++ '.' :: rest)

theorem layerName_inj
    {i j : Nat}
    {rest rest' : Text}
    (hEq : layerName i rest = layerName j rest') :
    i = j ∧ rest = rest' :=
  decimal_cons_inj (by decide) (List.append_cancel_left hEq)

variable {u : Charset} {s : SliceArgs} {name : Text}

/- A run of digits ends at the first other character. -/
theorem span_decimal
    (u : Charset)
    (i : Nat)
    (rest : Text) :
    (decimal i ++ '.' :: rest).takeWhile
          (fun c => (u.digit c).isSome) = decimal i ∧
      (decimal i ++ '.' :: rest).dropWhile
          (fun c => (u.digit c).isSome) = '.' :: rest := by
  have hDigits : ∀ c ∈ decimal i, (u.digit c).isSome := by
    intro c hMem
    rw [u.digit_of_isDigit (isDigit_of_mem_decimal hMem)]
    rfl
  have hDot : u.digit '.' = none :=
    (u.digit_ascii '.' (by decide)).trans (if_neg (by decide))
  constructor
  · rw [List.takeWhile_append_of_pos hDigits]
    simp [hDot]
  · rw [List.dropWhile_append_of_pos hDigits]
    simp [hDot]

/- The pattern takes a canonical name apart. -/
theorem matchLayer_layerName
    (u : Charset)
    (i : Nat)
    {rest : Text}
    (hLine : '\n' ∉ rest) :
    matchLayer u (layerName i rest) =
      some (decimal i, '.' :: rest) := by
  have hStart : layersPrefix.isPrefixOf? (layerName i rest) =
      some (decimal i ++ '.' :: rest) :=
    List.isPrefixOf?_eq_some_iff_append_eq.mpr rfl
  have hLine : ∀ c ∈ '.' :: rest, decide (c ≠ '\n') = true := by
    intro c hMem
    rcases List.mem_cons.mp hMem with rfl | hIn
    · decide
    · exact decide_eq_true (fun hEq => hLine (hEq ▸ hIn))
  rcases span_decimal u i rest with ⟨hNumber, hAfter⟩
  rw [matchLayer, hStart]
  dsimp only
  rw [hNumber, hAfter, if_neg (by simp [decimal_ne_nil]),
    List.takeWhile_eq_self_iff.mpr hLine,
    List.dropWhile_eq_nil_iff.mpr hLine, if_pos (Or.inl rfl)]

/- A layer is renumbered from the start of its slice. -/
theorem relayerName_layerName
    (u : Charset)
    (s : SliceArgs)
    (i : Nat)
    {rest : Text}
    (hLine : '\n' ∉ rest) :
    relayerName u s (layerName i rest) =
      if s.start ≤ i ∧ i < s.stop then
        some (layerName (i - s.start).toNat rest)
      else none := by
  rw [relayerName, matchLayer_layerName u i hLine]
  dsimp only
  rw [digits_decimal]
  dsimp only
  rw [layerName, List.append_assoc]

theorem relayerName_eq_none
    (hNoLayer : matchLayer u name = none) :
    relayerName u s name = none := by
  rw [relayerName, hNoLayer]

/- Names that start alike have the same first letters. -/
theorem take_of_start
    {p : Text}
    (hStart : p <+: name)
    {k : Nat}
    (hLength : k ≤ p.length) :
    name.take k = p.take k := by
  rcases hStart with ⟨after, rfl⟩
  exact List.take_append_of_le_length hLength

/- No layer tensor has the name of a head tensor. -/
theorem not_prefix_layerName
    {p : Text}
    (hSame : p = embedPrefix ∨ p = headPrefix ∨ p = normPrefix)
    (i : Nat)
    (rest : Text) :
    ¬ p <+: layerName i rest := by
  intro hStart
  have hLayer : (layerName i rest).take 7 =
      layersPrefix.take 7 :=
    take_of_start ⟨_, rfl⟩ (by decide)
  rcases hSame with rfl | rfl | rfl
  · rw [take_of_start hStart (by decide)] at hLayer
    exact absurd hLayer (by decide)
  · rw [take_of_start hStart (by decide)] at hLayer
    exact absurd hLayer (by decide)
  · rw [take_of_start hStart (by decide)] at hLayer
    exact absurd hLayer (by decide)

theorem keepNonlayer_layerName
    (s : SliceArgs)
    (i : Nat)
    (rest : Text) :
    keepNonlayer s (layerName i rest) = false := by
  have hEmbed : ¬ embedPrefix <+: layerName i rest :=
    not_prefix_layerName (Or.inl rfl) i rest
  have hHead : ¬ headPrefix <+: layerName i rest :=
    not_prefix_layerName (Or.inr (Or.inl rfl)) i rest
  have hNorm : ¬ normPrefix <+: layerName i rest :=
    not_prefix_layerName (Or.inr (Or.inr rfl)) i rest
  simp [keepNonlayer, hEmbed, hHead, hNorm]

end CircuitDllm

------------------------------------------------------------
-- One Rule for Index and Copy
------------------------------------------------------------

namespace CircuitDllm

open Numeral

variable {u : Charset} {s : SliceArgs} {name : Text}

/- The name of a tensor in the slice, none if it is left. -/
def newName
    (u : Charset)
    (s : SliceArgs)
    (name : Text) : Option Text :=
  match relayerName u s name with
  | some sub => some sub
  | none => if keepNonlayer s name then some name else none

theorem keptTensorNames_eq_setAll (allNames : List Text) :
    keptTensorNames u allNames s =
      Dict.empty.setAll
        (fun name =>
          (newName u s name).map (fun new => (name, new)))
        allNames := by
  rw [keptTensorNames, Dict.setAll]
  congr 1
  funext kept name
  rw [keptStep, newName]
  cases relayerName u s name with
  | some sub => rfl
  | none => cases keepNonlayer s name <;> rfl

/- What is copied, and under which name. -/
theorem get?_keptTensorNames
    {allNames : List Text}
    {new : Text} :
    (keptTensorNames u allNames s).get? name = some new ↔
      name ∈ allNames ∧ newName u s name = some new := by
  rw [keptTensorNames_eq_setAll]
  have hKeys := @Dict.setAll_isSome_iff _ _ _ _
    (fun name =>
      (newName u s name).map (fun new => (name, new)))
    Dict.empty allNames name
  have hAgree (w : Text) (hNew : newName u s name = some w) :
      ∀ x ∈ allNames, ∀ v,
        (newName u s x).map (fun new => (x, new)) =
            some (name, v) →
          v = w := by
    intro x hMem v hMade
    rcases Option.map_eq_some_iff.mp hMade with
      ⟨made, hX, hPair⟩
    obtain ⟨rfl, rfl⟩ := Prod.mk.inj hPair
    exact Option.some.inj (hX.symm.trans hNew)
  constructor
  · intro hGet
    have hSome := hKeys.mp (by rw [hGet]; rfl)
    rcases hSome with hOld | ⟨x, hMem, v, hMade⟩
    · simp at hOld
    · rcases Option.map_eq_some_iff.mp hMade with
        ⟨made, hX, hPair⟩
      obtain ⟨rfl, rfl⟩ := Prod.mk.inj hPair
      have hSet := Dict.get?_setAll_eq_some
        (d := Dict.empty) (hAgree made hX)
        (Or.inr ⟨x, hMem, by rw [hX]; rfl⟩)
      refine ⟨hMem, ?_⟩
      rw [hX, ← hSet, hGet]
  · rintro ⟨hMem, hNew⟩
    exact Dict.get?_setAll_eq_some (hAgree new hNew)
      (Or.inr ⟨name, hMem, by rw [hNew]; rfl⟩)

theorem mem_keys_kept
    {allNames : List Text} :
    name ∈ (keptTensorNames u allNames s).keys ↔
      name ∈ allNames ∧ (newName u s name).isSome := by
  rw [Dict.mem_keys]
  simp only [get?_keptTensorNames, Option.isSome_iff_exists]
  simp

end CircuitDllm

------------------------------------------------------------
-- Renaming Is Injective
------------------------------------------------------------

namespace CircuitDllm

open Numeral

/-
  A layer tensor has a canonical index below the number of
  layers; any other name is free as long as the pattern does
  not match it.
-/
def WellNamed
    (u : Charset)
    (numLayers : Int)
    (name : Text) : Prop :=
  matchLayer u name = none ∨
    ∃ (i : Nat) (rest : Text),
      i < numLayers ∧ '\n' ∉ rest ∧ name = layerName i rest

variable {u : Charset} {s : SliceArgs} {name : Text}
variable {numLayers : Int}

theorem newName_layerName
    (u : Charset)
    (s : SliceArgs)
    (i : Nat)
    {rest : Text}
    (hLine : '\n' ∉ rest) :
    newName u s (layerName i rest) =
      if s.start ≤ i ∧ i < s.stop then
        some (layerName (i - s.start).toNat rest)
      else none := by
  rw [newName, relayerName_layerName u s i hLine,
    keepNonlayer_layerName]
  simp only [Bool.false_eq_true, if_false]
  split_ifs <;> rfl

theorem newName_other
    (hNoLayer : matchLayer u name = none) :
    newName u s name =
      if keepNonlayer s name then some name else none := by
  rw [newName, relayerName_eq_none hNoLayer]

/- A kept head tensor has one of the three names. -/
theorem prefix_of_keepNonlayer
    (hKeep : keepNonlayer s name = true) :
    ∃ p, (p = embedPrefix ∨ p = headPrefix ∨
      p = normPrefix) ∧ p <+: name := by
  rw [keepNonlayer] at hKeep
  split_ifs at hKeep with hHead hNorm
  · rcases hHead with ⟨-, hEmbed | hLm | hNorm⟩
    · exact ⟨_, Or.inl rfl, hEmbed⟩
    · exact ⟨_, Or.inr (Or.inl rfl), hLm⟩
    · exact ⟨_, Or.inr (Or.inr rfl), hNorm⟩
  · exact ⟨_, Or.inr (Or.inr rfl), hNorm.2⟩

/- A kept tensor is a layer of the range or a head tensor. -/
theorem newName_cases
    (hNamed : WellNamed u numLayers name)
    {new : Text}
    (hNew : newName u s name = some new) :
    (∃ (i : Nat) (rest : Text),
        s.start ≤ i ∧ i < s.stop ∧ '\n' ∉ rest ∧
          name = layerName i rest ∧
          new = layerName (i - s.start).toNat rest) ∨
      (matchLayer u name = none ∧ new = name ∧
        keepNonlayer s name = true) := by
  rcases hNamed with hNoLayer | ⟨i, rest, hLt, hLine, rfl⟩
  · rw [newName_other hNoLayer] at hNew
    split_ifs at hNew with hKeep
    exact Or.inr ⟨hNoLayer, (Option.some.inj hNew).symm, hKeep⟩
  · rw [newName_layerName u s i hLine] at hNew
    split_ifs at hNew with hRange
    exact Or.inl ⟨i, rest, hRange.1, hRange.2, hLine, rfl,
      (Option.some.inj hNew).symm⟩

theorem newName_injective
    {name' new : Text}
    (hNamed : WellNamed u numLayers name)
    (hNamed' : WellNamed u numLayers name')
    (hNew : newName u s name = some new)
    (hNew' : newName u s name' = some new) :
    name = name' := by
  rcases newName_cases hNamed hNew with
    ⟨i, rest, hLow, -, -, rfl, hSub⟩ | ⟨-, hSub, hKeep⟩
  · rcases newName_cases hNamed' hNew' with
      ⟨j, rest', hLow', -, -, rfl, hSub'⟩ | ⟨-, hSub', hKeep'⟩
    · rcases layerName_inj (hSub.symm.trans hSub') with
        ⟨hIndex, rfl⟩
      have hSame : i = j := by omega
      rw [hSame]
    · rcases prefix_of_keepNonlayer hKeep' with
        ⟨p, hName, hStart⟩
      rw [← hSub', hSub] at hStart
      exact absurd hStart (not_prefix_layerName hName _ _)
  · rcases newName_cases hNamed' hNew' with
      ⟨j, rest', hLow', -, -, rfl, hSub'⟩ | ⟨-, hSub', -⟩
    · rcases prefix_of_keepNonlayer hKeep with
        ⟨p, hName, hStart⟩
      rw [← hSub, hSub'] at hStart
      exact absurd hStart (not_prefix_layerName hName _ _)
    · exact hSub.symm.trans hSub'

end CircuitDllm

------------------------------------------------------------
-- The Index
------------------------------------------------------------

namespace CircuitDllm

open Numeral

variable {u : Charset} {s : SliceArgs}
variable {weightMap newMap : WeightMap}

/- The index `remapWeightMap` builds, before its checks. -/
def remapped
    (u : Charset)
    (weightMap : WeightMap)
    (s : SliceArgs) : WeightMap :=
  Dict.empty.setAll
    (fun entry =>
      (newName u s entry.1).map (fun new => (new, entry.2)))
    weightMap.entries

theorem remapWeightMap_eq
    (hRange : 0 ≤ s.start ∧ s.start ≤ s.stop) :
    remapWeightMap u weightMap s =
      if s.start < s.stop ∧
          weightMap.keys.any (fun name =>
            (relayerName u s name).isSome) = false then
        .error (.noLayers s.start s.stop)
      else if s.start = s.stop ∧
          (remapped u weightMap s).entries = [] then
        .error (.keptNothing s.start s.stop)
      else .ok (remapped u weightMap s) := by
  have hOut : remapped u weightMap s =
      weightMap.entries.foldl (remapStep u s) .empty := by
    rw [remapped, Dict.setAll]
    congr 1
    funext out entry
    rw [remapStep, newName]
    cases relayerName u s entry.1 with
    | some sub => rfl
    | none => cases keepNonlayer s entry.1 <;> rfl
  rw [remapWeightMap, if_neg (not_not.mpr hRange), hOut]

theorem remapWeightMap_eq_ok
    (hMap : remapWeightMap u weightMap s = .ok newMap) :
    newMap = remapped u weightMap s := by
  by_cases hRange : 0 ≤ s.start ∧ s.start ≤ s.stop
  · rw [remapWeightMap_eq hRange] at hMap
    split_ifs at hMap
    exact (Except.ok.inj hMap).symm
  · rw [remapWeightMap, if_pos hRange] at hMap
    cases hMap

/- The index has the names of the copied tensors. -/
theorem mem_keys_remapped
    {new : Text} :
    new ∈ (remapped u weightMap s).keys ↔
      new ∈ (keptTensorNames u weightMap.keys s).values := by
  rw [Dict.mem_keys, ← Option.isSome_iff_exists, remapped,
    Dict.setAll_isSome_iff, Dict.mem_values]
  simp only [Dict.get?_empty, Option.isSome_none,
    Bool.false_eq_true, false_or, get?_keptTensorNames,
    Option.map_eq_some_iff, Prod.mk.injEq]
  constructor
  · rintro ⟨⟨name, shard⟩, hMem, v, made, hNew, rfl, -⟩
    exact ⟨name, List.mem_map_of_mem hMem, hNew⟩
  · rintro ⟨name, hMem, hNew⟩
    rcases List.mem_map.mp hMem with ⟨entry, hEntry, rfl⟩
    exact ⟨entry, hEntry, entry.2, new, hNew, rfl, rfl⟩

/- And gives each the shard file of its original. -/
theorem get?_remapped
    {numLayers : Int}
    (hNamed : ∀ name ∈ weightMap.keys,
      WellNamed u numLayers name)
    {name new shard : Text}
    (hShard : weightMap.get? name = some shard)
    (hNew : newName u s name = some new) :
    (remapped u weightMap s).get? new = some shard := by
  have hKey (entry : Text × Text)
      (hEntry : entry ∈ weightMap.entries) :
      entry.1 ∈ weightMap.keys :=
    List.mem_map_of_mem hEntry
  have hMem : (name, shard) ∈ weightMap.entries :=
    Dict.get?_eq_some.mp hShard
  refine Dict.get?_setAll_eq_some ?_
    (Or.inr ⟨(name, shard), hMem, by simp [hNew]⟩)
  intro entry hEntry w hMade
  rcases Option.map_eq_some_iff.mp hMade with
    ⟨made, hOther, hPair⟩
  obtain ⟨rfl, rfl⟩ := Prod.mk.inj hPair
  have hSame : entry.1 = name := newName_injective
    (hNamed _ (hKey entry hEntry)) (hNamed _ (hKey _ hMem))
    hOther hNew
  have hGet : weightMap.get? entry.1 = some entry.2 :=
    Dict.get?_eq_some.mpr hEntry
  rw [hSame, hShard] at hGet
  exact (Option.some.inj hGet).symm

end CircuitDllm

------------------------------------------------------------
-- The Copy
------------------------------------------------------------

namespace CircuitDllm

open Numeral

variable {u : Charset} {s : SliceArgs}
variable {weightMap : WeightMap} {kept : Dict Text Text}

/- The shard file of an original. -/
def shardOf (weightMap : WeightMap) (orig : Text) : Text :=
  (weightMap.get? orig).getD []

/- A group holds the kept originals of its shard. -/
theorem getD_groupByShard (shard : Text) :
    ((groupByShard weightMap kept).get? shard).getD [] =
      kept.keys.filter (shardOf weightMap · = shard) := by
  have hFold (names : List Text) (d : Dict Text (List Text)) :
      ((names.foldl
          (fun byShard orig =>
            byShard.set (shardOf weightMap orig)
              ((byShard.get? (shardOf weightMap orig)).getD
                  [] ++ [orig])) d).get? shard).getD [] =
        (d.get? shard).getD [] ++
          names.filter (shardOf weightMap · = shard) := by
    induction names generalizing d with
    | nil => simp
    | cons orig names ih =>
        rw [List.foldl_cons, ih, Dict.get?_set]
        by_cases hShard : shardOf weightMap orig = shard
        · simp [hShard]
        · simp [hShard]
  exact hFold kept.keys .empty

/- The tensors in the order they are read. -/
def readOrder
    (weightMap : WeightMap)
    (kept : Dict Text Text) : List Tensor :=
  (groupByShard weightMap kept).entries.flatMap (fun group =>
    group.2.map (fun orig => ⟨group.1, orig⟩))

theorem mem_readOrder {tensor : Tensor} :
    tensor ∈ readOrder weightMap kept ↔
      tensor.name ∈ kept.keys ∧
        tensor.shard = shardOf weightMap tensor.name := by
  rw [readOrder, List.mem_flatMap]
  constructor
  · rintro ⟨group, hGroup, hMem⟩
    rcases List.mem_map.mp hMem with ⟨orig, hOrig, rfl⟩
    have hNames :=
      @getD_groupByShard weightMap kept group.1
    rw [Dict.get?_eq_some.mpr hGroup, Option.getD_some]
      at hNames
    rw [hNames, List.mem_filter] at hOrig
    exact ⟨hOrig.1, (of_decide_eq_true hOrig.2).symm⟩
  · rintro ⟨hMem, hShard⟩
    have hNames :=
      @getD_groupByShard weightMap kept tensor.shard
    have hIn : tensor.name ∈
        kept.keys.filter
          (shardOf weightMap · = tensor.shard) := by
      rw [List.mem_filter]
      exact ⟨hMem, decide_eq_true hShard.symm⟩
    cases hGet : (groupByShard weightMap kept).get?
        tensor.shard with
    | none =>
        rw [hGet, Option.getD_none] at hNames
        rw [← hNames] at hIn
        simp at hIn
    | some names =>
        rw [hGet, Option.getD_some] at hNames
        refine ⟨(tensor.shard, names),
          Dict.get?_eq_some.mp hGet, ?_⟩
        rw [← hNames] at hIn
        exact List.mem_map.mpr ⟨tensor.name, hIn, rfl⟩

theorem copyTensors_eq_setAll :
    copyTensors weightMap kept =
      Dict.empty.setAll
        (fun tensor : Tensor =>
          some ((kept.get? tensor.name).getD [], tensor))
        (readOrder weightMap kept) := by
  rw [copyTensors, Dict.setAll, readOrder, List.foldl_flatMap]
  congr 1
  funext tensors group
  rw [List.foldl_map]
  rfl

/- The tensors have the names the copy gave them. -/
theorem mem_keys_copyTensors {new : Text} :
    new ∈ (copyTensors weightMap kept).keys ↔
      new ∈ kept.values := by
  rw [Dict.mem_keys, ← Option.isSome_iff_exists,
    copyTensors_eq_setAll, Dict.setAll_isSome_iff,
    Dict.mem_values]
  simp only [Dict.get?_empty, Option.isSome_none,
    Bool.false_eq_true, false_or, Option.some.injEq,
    Prod.mk.injEq, mem_readOrder]
  constructor
  · rintro ⟨tensor, ⟨hMem, -⟩, v, hNew, -⟩
    rcases Dict.mem_keys.mp hMem with ⟨made, hGet⟩
    rw [hGet, Option.getD_some] at hNew
    exact ⟨tensor.name, hNew ▸ hGet⟩
  · rintro ⟨name, hGet⟩
    refine ⟨⟨shardOf weightMap name, name⟩, ⟨?_, rfl⟩,
      _, ?_, rfl⟩
    · exact Dict.mem_keys.mpr ⟨new, hGet⟩
    · rw [hGet, Option.getD_some]

/- Main's assertion: index and tensors have the same names. -/
theorem sliceMain_ne_mismatch :
    sliceMain u weightMap s ≠ .error .mismatch := by
  intro hMain
  rw [sliceMain] at hMain
  split at hMain
  · rename_i e hMap
    obtain rfl := Except.error.inj hMain
    by_cases hRange : 0 ≤ s.start ∧ s.start ≤ s.stop
    · rw [remapWeightMap_eq hRange] at hMap
      split_ifs at hMap <;> cases hMap
    · rw [remapWeightMap, if_pos hRange] at hMap
      cases hMap
  · rename_i newMap hMap
    obtain rfl := remapWeightMap_eq_ok hMap
    rw [if_pos] at hMain
    · cases hMain
    · constructor
      · intro new hMem
        rw [mem_keys_copyTensors]
        exact mem_keys_remapped.mp hMem
      · intro new hMem
        rw [mem_keys_copyTensors] at hMem
        exact mem_keys_remapped.mpr hMem

end CircuitDllm

------------------------------------------------------------
-- Slices Partition the Checkpoint
------------------------------------------------------------

namespace CircuitDllm

open Numeral Tiling

/- The layers of a slice. -/
def SliceArgs.layers (s : SliceArgs) : Int × Int :=
  (s.start, s.stop)

/-
  What slicing promises of one slice: names are told apart
  and give their layer back, the index lists the copied
  tensors under the shard files of the originals, and head
  tensors are there when the flags ask for them.
-/
structure SliceCorrect
    (u : Charset)
    (weightMap : WeightMap)
    (s : SliceArgs) : Prop where
  injective : ∀ name name' new,
    (keptTensorNames u weightMap.keys s).get? name =
        some new →
      (keptTensorNames u weightMap.keys s).get? name' =
          some new →
        name = name'
  recovered : ∀ name new,
    (keptTensorNames u weightMap.keys s).get? name =
        some new →
      (matchLayer u name).isSome →
        ∃ (k : Nat) (rest : Text),
          new = layerName k rest ∧
            name = layerName (s.start + k).toNat rest ∧
            (s.start + k).toNat = s.start + k
  index : ∀ newMap, remapWeightMap u weightMap s = .ok newMap →
    (∀ new, new ∈ newMap.keys ↔
      new ∈ (keptTensorNames u weightMap.keys s).values) ∧
    ∀ name new shard,
      (keptTensorNames u weightMap.keys s).get? name =
          some new →
        weightMap.get? name = some shard →
          newMap.get? new = some shard
  returns : (∃ newMap,
      remapWeightMap u weightMap s = .ok newMap) ↔
    (s.start < s.stop → ∃ name ∈ weightMap.keys,
        (relayerName u s name).isSome) ∧
      (s.start = s.stop →
        (keptTensorNames u weightMap.keys s).keys ≠ [])
  asserted : sliceMain u weightMap s ≠ .error .mismatch
  embed : ∀ name ∈ weightMap.keys, embedPrefix <+: name →
    ((keptTensorNames u weightMap.keys s).get? name =
      some name ↔ s.keepHead = true)
  head : ∀ name ∈ weightMap.keys, headPrefix <+: name →
    ((keptTensorNames u weightMap.keys s).get? name =
      some name ↔ s.keepHead = true)
  norm : ∀ name ∈ weightMap.keys, normPrefix <+: name →
    ((keptTensorNames u weightMap.keys s).get? name =
      some name ↔ s.keepHead = true ∨ s.keepNorm = true)
  dropped : ∀ name, matchLayer u name = none →
    ¬ embedPrefix <+: name → ¬ headPrefix <+: name →
      ¬ normPrefix <+: name →
        (keptTensorNames u weightMap.keys s).get? name = none

variable {u : Charset} {s : SliceArgs}
variable {weightMap : WeightMap} {numLayers : Int}
variable {name : Text}

/- A name that starts like a head tensor is no layer. -/
theorem matchLayer_head
    {p : Text}
    (hSame : p = embedPrefix ∨ p = headPrefix ∨ p = normPrefix)
    (hStart : p <+: name) :
    matchLayer u name = none := by
  have hOther : ¬ layersPrefix <+: name := by
    intro hLayer
    have hTake := take_of_start (k := 7) hLayer (by decide)
    rcases hSame with rfl | rfl | rfl
    · rw [take_of_start hStart (by decide)] at hTake
      exact absurd hTake (by decide)
    · rw [take_of_start hStart (by decide)] at hTake
      exact absurd hTake (by decide)
    · rw [take_of_start hStart (by decide)] at hTake
      exact absurd hTake (by decide)
  have hNone : layersPrefix.isPrefixOf? name = none := by
    rw [← Option.not_isSome_iff_eq_none]
    simpa using hOther
  rw [matchLayer, hNone]

/- A head tensor keeps its name or is left. -/
theorem get?_kept_head
    {p : Text}
    (hSame : p = embedPrefix ∨ p = headPrefix ∨ p = normPrefix)
    (hStart : p <+: name)
    (hMem : name ∈ weightMap.keys) :
    (keptTensorNames u weightMap.keys s).get? name =
        some name ↔
      keepNonlayer s name = true := by
  rw [get?_keptTensorNames,
    newName_other (matchLayer_head hSame hStart)]
  simp [hMem]

/- The head names differ in their first letters. -/
theorem not_norm_prefix
    {p : Text}
    (hSame : p = embedPrefix ∨ p = headPrefix)
    (hStart : p <+: name) :
    ¬ normPrefix <+: name := by
  intro hNorm
  have hTake := take_of_start (k := 7) hNorm (by decide)
  rcases hSame with rfl | rfl
  · rw [take_of_start hStart (by decide)] at hTake
    exact absurd hTake (by decide)
  · rw [take_of_start hStart (by decide)] at hTake
    exact absurd hTake (by decide)

end CircuitDllm

namespace CircuitDllm

open Numeral Tiling

variable {u : Charset} {s : SliceArgs}
variable {weightMap : WeightMap} {numLayers : Int}
variable {name : Text}

/- A slice keeps the layer tensors of its range. -/
theorem mem_kept_layer
    (i : Nat)
    {rest : Text}
    (hLine : '\n' ∉ rest)
    (hMem : layerName i rest ∈ weightMap.keys) :
    layerName i rest ∈
        (keptTensorNames u weightMap.keys s).keys ↔
      Within i s.layers := by
  rw [mem_keys_kept, newName_layerName u s i hLine]
  simp only [hMem, true_and]
  split_ifs with hRange
  · exact iff_of_true rfl hRange
  · exact iff_of_false (by simp) hRange

/- Ranges that tile the layers keep each tensor once. -/
theorem kept_once
    (hNamed : WellNamed u numLayers name)
    (hMem : name ∈ weightMap.keys)
    (hLayer : (matchLayer u name).isSome)
    {slices : List SliceArgs}
    (hTiles :
      Tiling.Tiles 0 numLayers (slices.map SliceArgs.layers)) :
    ∃! j : Fin slices.length,
      name ∈ (keptTensorNames u weightMap.keys
        (slices.get j)).keys := by
  rcases hNamed with hNone | ⟨i, rest, hLt, hLine, rfl⟩
  · rw [hNone] at hLayer
    cases hLayer
  · have hRange : Within i (0, numLayers) :=
      ⟨Int.natCast_nonneg i, hLt⟩
    rcases hTiles.existsUnique hRange with
      ⟨⟨j, hJ⟩, hIn, hUnique⟩
    have hLength : j < slices.length := by simpa using hJ
    refine ⟨⟨j, hLength⟩, ?_, ?_⟩
    · refine (mem_kept_layer i hLine hMem).mpr ?_
      simpa using hIn
    · rintro ⟨k, hK⟩ hKept
      have hOther := (mem_kept_layer i hLine hMem).mp hKept
      have hSame := hUnique ⟨k, by simpa using hK⟩
        (by simpa using hOther)
      simpa using hSame

/- When the index is written. -/
theorem remapWeightMap_returns_iff
    (hRange : 0 ≤ s.start ∧ s.start ≤ s.stop) :
    (∃ newMap, remapWeightMap u weightMap s = .ok newMap) ↔
      (s.start < s.stop → ∃ name ∈ weightMap.keys,
          (relayerName u s name).isSome) ∧
        (s.start = s.stop →
          (keptTensorNames u weightMap.keys s).keys ≠ []) := by
  have hAny : weightMap.keys.any (fun name =>
      (relayerName u s name).isSome) = false ↔
        ¬ ∃ name ∈ weightMap.keys,
          (relayerName u s name).isSome := by
    rw [← Bool.not_eq_true, List.any_eq_true]
  have hEmpty : (remapped u weightMap s).entries = [] ↔
      (keptTensorNames u weightMap.keys s).keys = [] := by
    have hKeys : (remapped u weightMap s).keys = [] ↔
        (keptTensorNames u weightMap.keys s).values = [] := by
      simp only [List.eq_nil_iff_forall_not_mem,
        mem_keys_remapped]
    simpa [Dict.keys, Dict.values] using hKeys
  rw [remapWeightMap_eq hRange]
  split_ifs with hLayers hNothing
  · refine iff_of_false (by simp) ?_
    rintro ⟨hSeen, -⟩
    exact hAny.mp hLayers.2 (hSeen hLayers.1)
  · refine iff_of_false (by simp) ?_
    rintro ⟨-, hKept⟩
    exact hKept hNothing.1 (hEmpty.mp hNothing.2)
  · refine iff_of_true ⟨_, rfl⟩ ⟨?_, ?_⟩
    · intro hLt
      by_contra hNone
      exact hLayers ⟨hLt, hAny.mpr hNone⟩
    · intro hEq hNone
      exact hNothing ⟨hEq, hEmpty.mpr hNone⟩

theorem sliceCorrect_of_range
    (hNamed : ∀ name ∈ weightMap.keys,
      WellNamed u numLayers name)
    (hRange : 0 ≤ s.start ∧ s.start ≤ s.stop) :
    SliceCorrect u weightMap s where
  injective := by
    intro name name' new hGet hGet'
    rw [get?_keptTensorNames] at hGet hGet'
    exact newName_injective (hNamed _ hGet.1)
      (hNamed _ hGet'.1) hGet.2 hGet'.2
  recovered := by
    intro name new hGet hLayer
    rw [get?_keptTensorNames] at hGet
    rcases newName_cases (hNamed _ hGet.1) hGet.2 with
      ⟨i, rest, hLow, -, -, rfl, rfl⟩ | ⟨hNone, -⟩
    · refine ⟨(i - s.start).toNat, rest, rfl, ?_, ?_⟩
      · congr 1
        omega
      · omega
    · rw [hNone] at hLayer
      cases hLayer
  index := by
    intro newMap hMap
    obtain rfl := remapWeightMap_eq_ok hMap
    refine ⟨fun new => mem_keys_remapped, ?_⟩
    intro name new shard hGet hShard
    rw [get?_keptTensorNames] at hGet
    exact get?_remapped hNamed hShard hGet.2
  returns := remapWeightMap_returns_iff hRange
  asserted := sliceMain_ne_mismatch
  embed := by
    intro name hMem hStart
    have hNorm := not_norm_prefix (Or.inl rfl) hStart
    rw [get?_kept_head (Or.inl rfl) hStart hMem]
    simp [keepNonlayer, hStart, hNorm]
  head := by
    intro name hMem hStart
    have hNorm := not_norm_prefix (Or.inr rfl) hStart
    rw [get?_kept_head (Or.inr (Or.inl rfl)) hStart hMem]
    simp [keepNonlayer, hStart, hNorm]
  norm := by
    intro name hMem hStart
    rw [get?_kept_head (Or.inr (Or.inr rfl)) hStart hMem]
    simp [keepNonlayer, hStart]
  dropped := by
    intro name hNone hEmbed hHead hNorm
    rw [Option.eq_none_iff_forall_ne_some]
    intro new hGet
    rw [get?_keptTensorNames, newName_other hNone] at hGet
    simp [keepNonlayer, hEmbed, hHead, hNorm] at hGet

/-
  Slices whose ranges tile the layers keep every decoder
  tensor exactly once, and each slice is correct.
-/
theorem slices_partition
    {u : Charset}
    {numLayers : Int}
    {weightMap : WeightMap}
    (hNamed : ∀ name ∈ weightMap.keys,
      WellNamed u numLayers name)
    {slices : List SliceArgs}
    (hTiles :
      Tiling.Tiles 0 numLayers (slices.map SliceArgs.layers)) :
    (∀ name ∈ weightMap.keys,
      (matchLayer u name).isSome →
        ∃! j : Fin slices.length,
          name ∈ (keptTensorNames u weightMap.keys
            (slices.get j)).keys) ∧
      ∀ s ∈ slices, SliceCorrect u weightMap s := by
  refine ⟨?_, ?_⟩
  · intro name hMem hLayer
    exact kept_once (hNamed name hMem) hMem hLayer hTiles
  · intro s hSlice
    have hBounds := hTiles.bounds (List.mem_map_of_mem hSlice)
    exact sliceCorrect_of_range hNamed
      ⟨hBounds.1, hBounds.2.1⟩

/- Two layers and the output head. -/
def sampleIndex : WeightMap :=
  Dict.empty.setAll
    (fun name => some (name, "s0".toList))
    [layerName 0 ['q'], layerName 1 ['q'],
      "lm_head.weight".toList]

def sampleSlices : List SliceArgs :=
  [⟨0, 1, false, true⟩, ⟨1, 2, false, false⟩]

theorem slices_partition_sample :
    (∀ name ∈ sampleIndex.keys,
      (matchLayer .ascii name).isSome →
        ∃! j : Fin sampleSlices.length,
          name ∈ (keptTensorNames .ascii sampleIndex.keys
            (sampleSlices.get j)).keys) ∧
      ∀ s ∈ sampleSlices,
        SliceCorrect .ascii sampleIndex s := by
  have hKeys : sampleIndex.keys =
      [layerName 0 ['q'], layerName 1 ['q'],
        "lm_head.weight".toList] := by
    decide
  have hTiles :
      Tiling.Tiles 0 2 (sampleSlices.map SliceArgs.layers) := by
    decide
  refine slices_partition ?_ hTiles
  rw [hKeys]
  intro name hMem
  simp only [List.mem_cons, List.not_mem_nil, or_false] at hMem
  rcases hMem with rfl | rfl | rfl
  · exact Or.inr ⟨0, ['q'], by decide, by decide, rfl⟩
  · exact Or.inr ⟨1, ['q'], by decide, by decide, rfl⟩
  · exact Or.inl (by decide)

end CircuitDllm
