import CircuitDllm.Lib.Numeral
import CircuitDllm.Mesh.Partition

/-
  The shard catalog (engine/shard_fetch.py).

  A catalog is a layout string, a manifest or the path of
  one.  The publisher cuts artifacts at its ranges, and the
  coordinator takes its own end and the sizes of its slots
  from the same ranges.

  Main declarations:
    * `parseLayout`, `buildManifest`, `catalogLayout`
    * `topologyFromCatalog`, `slotDirname`
    * `CatalogAligned`, `catalogAligned_iff`
-/

------------------------------------------------------------
-- Ranges and Manifests
------------------------------------------------------------

namespace CircuitDllm

/- (start, end, keep_head) of a slice. -/
structure CatalogRange where
  start : Int
  stop : Int
  keepHead : Bool
deriving DecidableEq, Repr

/- The layers of a slice. -/
def CatalogRange.layers (r : CatalogRange) : Int × Int :=
  (r.start, r.stop)

/- The fields a publisher adds to a slot. -/
structure SlotMeta where
  sha256 : String
  bytes : Nat
deriving DecidableEq, Repr

/- A slot of a manifest. -/
structure ManifestSlot where
  range : CatalogRange
  dir : String
  slotMeta : Option SlotMeta
deriving DecidableEq, Repr

structure Manifest where
  model : String
  revision : Option String
  format : String
  numLayers : Int
  slots : List ManifestSlot
deriving DecidableEq, Repr

inductive CatalogError where
  | emptyLayout
  /- not two numbers around a colon -/
  | malformedRange (p : List Char)
  | emptyRange (p : List Char)
  | nonContiguous (p : List Char) (expected : Int)
  | fileNotFound (path : String)
  /- no JSON object with start, end and keep_head slots -/
  | notManifest (path : String)
  | noKeepHead
  | noStages
  | untiled (coordinatorEnd numLayers : Int)
deriving DecidableEq, Repr

/- Canonical name of a slot's directory and artifact. -/
def slotDirname
    (start stop : Int)
    (keepHead : Bool) : String :=
  (if keepHead then "coord" else "sub") ++ "-" ++
    toString start ++ "-" ++ toString stop

/- The directory the slice of a range is published in. -/
def CatalogRange.dirname (r : CatalogRange) : String :=
  slotDirname r.start r.stop r.keepHead

end CircuitDllm

------------------------------------------------------------
-- Layout Strings
------------------------------------------------------------

namespace CircuitDllm

open Numeral

variable (u : Charset)

/- s_str, e_str = p.split(":") -/
def parseRange (p : List Char) :
    Except CatalogError (Int × Int) :=
  match p.splitOn ':' with
  | [startText, stopText] =>
    match int u startText, int u stopText with
    | some start, some stop => .ok (start, stop)
    | _, _ => .error (.malformedRange p)
  | _ => .error (.malformedRange p)

/- The parts from the `i`-th on, after `prevEnd`. -/
def parseParts (i : Nat) (prevEnd : Option Int) :
    List (List Char) → Except CatalogError (List CatalogRange)
| [] => .ok []
| p :: parts =>
    match parseRange u p with
    | .error e => .error e
    | .ok (start, stop) =>
      if stop ≤ start then .error (.emptyRange p)
      else if prevEnd.any (fun expected => start ≠ expected)
      then .error (.nonContiguous p (prevEnd.getD 0))
      else
        match parseParts (i + 1) (some stop) parts with
        | .error e => .error e
        | .ok ranges => .ok (⟨start, stop, i = 0⟩ :: ranges)

/- Contiguous ranges, the first flagged keep_head. -/
def parseLayout (spec : String) :
    Except CatalogError (List CatalogRange) :=
  let parts :=
    (spec.toList.splitOn ',').filter (fun p =>
      strip u p ≠ [])
  if parts = [] then .error .emptyLayout
  else parseParts u 0 none parts

end CircuitDllm

------------------------------------------------------------
-- Catalogs
------------------------------------------------------------

namespace CircuitDllm

open Numeral

/- The manifest of the slices cut at the ranges. -/
def buildManifest
    (modelId : String)
    (ranges : List CatalogRange)
    (revision : Option String)
    (slotMeta : Dict String SlotMeta) :
    Option Manifest :=
  ranges.getLast?.map (fun last =>
    { model := modelId
      revision := revision
      format := "awq-per-node-v1"
      numLayers := last.stop
      slots := ranges.map (fun r =>
        { range := r
          dir := r.dirname
          slotMeta := slotMeta.get? r.dirname }) })

/- What stands at a path. -/
inductive CatalogFile where
  | absent
  | other
  | manifest (m : Manifest)
deriving DecidableEq, Repr

inductive Catalog where
  | manifest (m : Manifest)
  /- a layout, or the path of a manifest -/
  | spec (s : String)
deriving DecidableEq, Repr

def Manifest.ranges (m : Manifest) : List CatalogRange :=
  m.slots.map (·.range)

/- Normalize a catalog into its ranges. -/
def catalogLayout
    (u : Charset)
    (files : String → CatalogFile)
    (catalog : Catalog) :
    Except CatalogError (List CatalogRange) :=
  match catalog with
  | .manifest m => .ok m.ranges
  | .spec s =>
    if ".json".toList.isSuffixOf s.toList ∨
        files s ≠ .absent then
      match files s with
      | .absent => .error (.fileNotFound s)
      | .other => .error (.notManifest s)
      | .manifest m => .ok m.ranges
    else parseLayout u s

/- coordinator_end, num_stages and slot_sizes. -/
structure TopologyArgs where
  coordinatorEnd : Int
  numStages : Int
  slotSizes : List Int
deriving DecidableEq, Repr

/- The first slice is the coordinator's, the rest are slots. -/
def topologyFromCatalog
    (numLayers : Int)
    (ranges : List CatalogRange) :
    Except CatalogError TopologyArgs :=
  match ranges with
  | [] => .error .noKeepHead
  | head :: stages =>
    if head.keepHead = false then .error .noKeepHead
    else
      let coordinatorEnd := head.stop
      match stages.head?, stages.getLast? with
      | some first, some last =>
        if first.start ≠ coordinatorEnd ∨
            last.stop ≠ numLayers then
          .error (.untiled coordinatorEnd numLayers)
        else
          .ok
            { coordinatorEnd := coordinatorEnd
              numStages := stages.length
              slotSizes :=
                stages.map (fun r => r.stop - r.start) }
      | _, _ => .error .noStages

/- The constructor's arguments with those of a catalog. -/
def TopologyArgs.layout
    (args : TopologyArgs)
    (numLayers : Int)
    (l : Layout) : Layout :=
  { l with
    numLayers := numLayers
    coordinatorEnd := args.coordinatorEnd
    numStages := args.numStages
    slotSizes := some args.slotSizes }

end CircuitDllm

------------------------------------------------------------
-- Alignment
------------------------------------------------------------

namespace CircuitDllm

open Numeral Tiling

/-
  The mesh of a catalog is the one its artifacts were cut
  for: the coordinator's slice starts at layer 0, the slots
  are the stage ranges, both tile the model, and a slot's
  directory is that of an artifact.  A parsed layout comes
  back from the manifest built of it.
-/
structure CatalogAligned
    (u : Charset)
    (files : String → CatalogFile)
    (catalog : Catalog)
    (numLayers : Int)
    (ranges : List CatalogRange)
    (t : Topology) : Prop where
  coordinator :
    ranges.head?.map CatalogRange.layers =
      some (0, t.coordinatorEnd)
  slots :
    t.slots.map Slot.range =
      ranges.tail.map CatalogRange.layers
  tiles :
    Tiling.Tiles 0 numLayers
      ((0, t.coordinatorEnd) :: t.slots.map Slot.range)
  published : ∀ slot ∈ t.slots, ∃ r ∈ ranges,
    r.dirname = slotDirname slot.start slot.stop false
  roundTrip : ∀ spec, catalog = .spec spec →
    parseLayout u spec = .ok ranges →
      ∀ modelId revision slotMeta, ∃ m,
        buildManifest modelId ranges revision slotMeta =
            some m ∧
          catalogLayout u files (.manifest m) = .ok ranges

/- Stage ranges that follow one another, none with a head. -/
def Consecutive (start : Int) : List CatalogRange → Prop
| [] => True
| r :: rs =>
    r.start = start ∧ r.keepHead = false ∧
      Consecutive r.stop rs

/- The first range starts at 0 and stages follow it. -/
def WellCut : List CatalogRange → Prop
| [] => False
| head :: stages =>
    head.start = 0 ∧ Consecutive head.stop stages

instance decidableConsecutive (start : Int) :
    ∀ rs, Decidable (Consecutive start rs)
| [] => inferInstanceAs (Decidable True)
| r :: rs =>
    let _ := decidableConsecutive r.stop rs
    inferInstanceAs (Decidable (_ ∧ _ ∧ _))

instance : DecidablePred WellCut
| [] => inferInstanceAs (Decidable False)
| _ :: _ => inferInstanceAs (Decidable (_ ∧ _))

end CircuitDllm

------------------------------------------------------------
-- Directories
------------------------------------------------------------

namespace CircuitDllm

open Numeral

theorem toList_slotDirname (m n : Nat) (keepHead : Bool) :
    (slotDirname m n keepHead).toList =
      (if keepHead then "coord".toList else "sub".toList) ++
        '-' :: (decimal m ++ '-' :: decimal n) := by
  have hText (k : Nat) :
      (toString (k : Int)).toList = decimal k := by
    exact Nat.toList_repr
  rw [slotDirname]
  simp only [String.toList_append, hText]
  cases keepHead <;> simp

/- A directory names its kind. -/
theorem keepHead_of_slotDirname
    {start stop start' stop' : Int}
    {keepHead keepHead' : Bool}
    (hEq : slotDirname start stop keepHead =
      slotDirname start' stop' keepHead') :
    keepHead = keepHead' := by
  have hText := congrArg String.toList hEq
  rw [slotDirname, slotDirname] at hText
  simp only [String.toList_append] at hText
  cases keepHead <;> cases keepHead' <;> simp at hText ⊢

/- And its range. -/
theorem range_of_slotDirname
    {m n m' n' : Nat}
    {keepHead : Bool}
    (hEq : slotDirname m n keepHead =
      slotDirname m' n' keepHead) :
    m = m' ∧ n = n' := by
  have hText := congrArg String.toList hEq
  rw [toList_slotDirname, toList_slotDirname] at hText
  have hRest := List.append_cancel_left hText
  rcases decimal_cons_inj (by decide)
    (List.tail_eq_of_cons_eq hRest) with ⟨hStart, hStop⟩
  exact ⟨hStart, decimal_injective hStop⟩

end CircuitDllm

------------------------------------------------------------
-- What the Checks Establish
------------------------------------------------------------

namespace CircuitDllm

open Tiling

/- The layers of a slice, counted. -/
def CatalogRange.size (r : CatalogRange) : Int :=
  r.stop - r.start

theorem topologyFromCatalog_eq_ok
    {numLayers : Int}
    {ranges : List CatalogRange}
    {args : TopologyArgs}
    (hArgs : topologyFromCatalog numLayers ranges =
      .ok args) :
    ∃ head stages,
      ranges = head :: stages ∧ head.keepHead = true ∧
        args.coordinatorEnd = head.stop ∧
        args.slotSizes = stages.map CatalogRange.size := by
  rw [topologyFromCatalog.eq_def] at hArgs
  split at hArgs
  · cases hArgs
  · rename_i head stages
    split_ifs at hArgs with hHead
    split at hArgs
    · dsimp only at hArgs
      split_ifs at hArgs
      obtain rfl := Except.ok.inj hArgs
      exact ⟨head, stages, rfl, by simpa using hHead, rfl, rfl⟩
    · cases hArgs

/- What the constructor makes of the returned arguments. -/
theorem create_catalog
    {numLayers : Int}
    {args : TopologyArgs}
    {l : Layout}
    {t : Topology}
    (hCreate :
      Topology.create (args.layout numLayers l) = .ok t) :
    t.coordinatorEnd = args.coordinatorEnd ∧
      0 ≤ args.coordinatorEnd ∧
      (∀ size ∈ args.slotSizes, 1 ≤ size) ∧
      t.slots.map Slot.range =
        ranges args.coordinatorEnd args.slotSizes ∧
      Tiling.Tiles args.coordinatorEnd numLayers
        (t.slots.map Slot.range) := by
  rcases Topology.create_eq_ok_iff.mp hCreate with
    ⟨sizes, hSizes, hSlots, hRest⟩
  rcases Topology.sizesOf_eq_ok_iff.mp hSizes with
    ⟨-, hStart, -, ⟨hNone, -⟩ | ⟨hSome, -, hSum, hAll⟩⟩
  · cases hNone
  · obtain rfl : args.slotSizes = sizes :=
      Option.some.inj hSome
    have hEnd : t.coordinatorEnd = args.coordinatorEnd := by
      rw [hRest]
      rfl
    have hNonneg : ∀ size ∈ args.slotSizes, 0 ≤ size := by
      intro size hMem
      have hOne := hAll size hMem
      omega
    refine ⟨hEnd, hStart, hAll, ?_, ?_⟩
    · rw [hSlots, map_range_layoutSlots]
      rfl
    · have hTiles := tiles_layoutRanges
        args.coordinatorEnd 0 hNonneg
      have hStop : args.coordinatorEnd + args.slotSizes.sum =
          numLayers := by
        change args.slotSizes.sum =
          numLayers - args.coordinatorEnd at hSum
        omega
      rw [hSlots, ← hStop]
      exact hTiles

/- Following one another is being laid out by size. -/
theorem consecutive_iff
    {start : Int}
    {stages : List CatalogRange} :
    Consecutive start stages ↔
      ranges start (stages.map CatalogRange.size) =
          stages.map CatalogRange.layers ∧
        ∀ r ∈ stages, r.keepHead = false := by
  induction stages generalizing start with
  | nil => simp [Consecutive, ranges]
  | cons r stages ih =>
      rw [Consecutive, ih, List.map_cons, List.map_cons,
        ranges, List.cons.injEq, List.forall_mem_cons,
        CatalogRange.layers, Prod.mk.injEq,
        CatalogRange.size]
      constructor
      · rintro ⟨rfl, hFlag, hRest, hFlags⟩
        have hEnd : r.start + (r.stop - r.start) = r.stop := by
          omega
        rw [hEnd]
        exact ⟨⟨⟨rfl, rfl⟩, hRest⟩, hFlag, hFlags⟩
      · rintro ⟨⟨⟨rfl, hEnd⟩, hRest⟩, hFlag, hFlags⟩
        rw [hEnd] at hRest
        exact ⟨rfl, hFlag, hRest, hFlags⟩

end CircuitDllm

------------------------------------------------------------
-- When a Catalog Is Aligned
------------------------------------------------------------

namespace CircuitDllm

open Numeral Tiling

/- A manifest gives its ranges back. -/
theorem catalogLayout_buildManifest
    (u : Charset)
    (files : String → CatalogFile)
    {ranges : List CatalogRange}
    (hSome : ranges ≠ [])
    (modelId : String)
    (revision : Option String)
    (slotMeta : Dict String SlotMeta) :
    ∃ m,
      buildManifest modelId ranges revision slotMeta =
          some m ∧
        catalogLayout u files (.manifest m) = .ok ranges := by
  rw [buildManifest, List.getLast?_eq_some_getLast hSome]
  refine ⟨_, rfl, ?_⟩
  simp [catalogLayout, Manifest.ranges, Function.comp_def]

/- Distinct stages have distinct layers. -/
theorem nodup_stages
    {numLayers : Int}
    {args : TopologyArgs}
    {l : Layout}
    {t : Topology}
    (hCreate :
      Topology.create (args.layout numLayers l) = .ok t) :
    (t.slots.map Slot.range).Nodup := by
  rcases create_catalog hCreate with ⟨-, -, hAll, hSlots, -⟩
  rw [hSlots]
  refine (pairwise_ranges _ hAll).imp ?_
  rintro r s hLt rfl
  exact lt_irrefl _ hLt

section Alignment

variable {u : Charset} {files : String → CatalogFile}
variable {catalog : Catalog} {numLayers : Int}
variable {args : TopologyArgs} {l : Layout} {t : Topology}
variable {head : CatalogRange} {stages : List CatalogRange}

/- The ranges of an aligned catalog start at layer 0. -/
theorem layers_nonneg
    (hAligned : CatalogAligned u files catalog numLayers
      (head :: stages) t)
    {r : CatalogRange}
    (hMem : r ∈ stages) :
    0 ≤ r.start ∧ 0 ≤ r.stop := by
  have hTile : r.layers ∈
      (0, t.coordinatorEnd) :: t.slots.map Slot.range := by
    rw [hAligned.slots]
    exact List.mem_cons_of_mem _ (List.mem_map_of_mem hMem)
  have hBounds := hAligned.tiles.bounds hTile
  exact ⟨hBounds.1, le_trans hBounds.1 hBounds.2.1⟩

/-
  A slot's directory is that of its own stage, which then
  has no head: the directory of a slice with one differs.
-/
theorem keepHead_of_published
    (hHead : head.keepHead = true)
    (hCreate :
      Topology.create (args.layout numLayers l) = .ok t)
    (hAligned : CatalogAligned u files catalog numLayers
      (head :: stages) t) :
    ∀ r ∈ stages, r.keepHead = false := by
  intro r hMem
  have hSlots : t.slots.map Slot.range =
      stages.map CatalogRange.layers := hAligned.slots
  have hIn : r.layers ∈ t.slots.map Slot.range := by
    rw [hSlots]
    exact List.mem_map_of_mem hMem
  rcases List.mem_map.mp hIn with ⟨slot, hSlot, hRange⟩
  have hStart : slot.start = r.start :=
    congrArg Prod.fst hRange
  have hStop : slot.stop = r.stop := congrArg Prod.snd hRange
  rcases hAligned.published slot hSlot with
    ⟨other, hOther, hDir⟩
  rw [CatalogRange.dirname, hStart, hStop] at hDir
  have hKind := keepHead_of_slotDirname hDir
  rcases List.mem_cons.mp hOther with rfl | hStage
  · rw [hHead] at hKind
    cases hKind
  · rcases layers_nonneg hAligned hMem with ⟨hS, hE⟩
    rcases layers_nonneg hAligned hStage with ⟨hS', hE'⟩
    have hLayers : other.layers = r.layers := by
      rw [hKind, ← Int.toNat_of_nonneg hS,
        ← Int.toNat_of_nonneg hE, ← Int.toNat_of_nonneg hS',
        ← Int.toNat_of_nonneg hE'] at hDir
      rcases range_of_slotDirname hDir with
        ⟨hStarts, hStops⟩
      rw [CatalogRange.layers, CatalogRange.layers,
        Prod.mk.injEq]
      omega
    have hNodup := nodup_stages hCreate
    rw [hSlots] at hNodup
    rw [← List.inj_on_of_nodup_map hNodup hStage hMem hLayers]
    exact hKind

/- The ranges of a well-cut catalog align its mesh. -/
theorem aligned_of_wellCut
    (hArgs : topologyFromCatalog numLayers (head :: stages) =
      .ok args)
    (hCreate :
      Topology.create (args.layout numLayers l) = .ok t)
    (hCut : WellCut (head :: stages)) :
    CatalogAligned u files catalog numLayers
      (head :: stages) t := by
  rcases topologyFromCatalog_eq_ok hArgs with
    ⟨_, _, ⟨⟩, hHead, hEnd, hSizes⟩
  rcases create_catalog hCreate with
    ⟨hCoordinator, hNonneg, -, hSlots, hTiles⟩
  rcases hCut with ⟨hZero, hStages⟩
  rcases consecutive_iff.mp hStages with ⟨hLaid, hFlags⟩
  rw [hEnd, hSizes, hLaid] at hSlots
  refine ⟨?_, hSlots, ?_, ?_, ?_⟩
  · rw [hCoordinator, hEnd, List.head?_cons, Option.map_some,
      CatalogRange.layers, hZero]
  · rw [hCoordinator]
    exact ⟨rfl, hNonneg, hTiles⟩
  · intro slot hMem
    have hIn : slot.range ∈ stages.map CatalogRange.layers := by
      rw [← hSlots]
      exact List.mem_map_of_mem hMem
    rcases List.mem_map.mp hIn with ⟨r, hStage, hRange⟩
    refine ⟨r, List.mem_cons_of_mem _ hStage, ?_⟩
    have hStart : r.start = slot.start :=
      congrArg Prod.fst hRange
    have hStop : r.stop = slot.stop := congrArg Prod.snd hRange
    rw [CatalogRange.dirname, hFlags r hStage, hStart, hStop]
  · intro spec hSpec hParsed modelId revision slotMeta
    exact catalogLayout_buildManifest u files (by simp)
      modelId revision slotMeta

theorem wellCut_of_aligned
    (hArgs : topologyFromCatalog numLayers (head :: stages) =
      .ok args)
    (hCreate :
      Topology.create (args.layout numLayers l) = .ok t)
    (hAligned : CatalogAligned u files catalog numLayers
      (head :: stages) t) :
    WellCut (head :: stages) := by
  rcases topologyFromCatalog_eq_ok hArgs with
    ⟨_, _, ⟨⟩, hHead, hEnd, hSizes⟩
  rcases create_catalog hCreate with ⟨-, -, -, hSlots, -⟩
  refine ⟨?_, consecutive_iff.mpr ⟨?_, ?_⟩⟩
  · have hLayers := Option.some.inj hAligned.coordinator
    exact congrArg Prod.fst hLayers
  · rw [← hEnd, ← hSizes, ← hSlots]
    exact hAligned.slots
  · exact keepHead_of_published hHead hCreate hAligned

end Alignment

/-
  When reading the catalog, taking the arguments from it and
  building the mesh all succeed, the mesh is the one of the
  artifacts exactly when the ranges are well cut.
-/
theorem catalogAligned_iff
    {u : Charset}
    {files : String → CatalogFile}
    {catalog : Catalog}
    {numLayers : Int}
    {ranges : List CatalogRange}
    {args : TopologyArgs}
    {l : Layout}
    {t : Topology}
    (_hLayout : catalogLayout u files catalog = .ok ranges)
    (hArgs : topologyFromCatalog numLayers ranges = .ok args)
    (hCreate :
      Topology.create (args.layout numLayers l) = .ok t) :
    CatalogAligned u files catalog numLayers ranges t ↔
      WellCut ranges := by
  rcases topologyFromCatalog_eq_ok hArgs with
    ⟨head, stages, rfl, -⟩
  exact ⟨wellCut_of_aligned hArgs hCreate,
    aligned_of_wellCut hArgs hCreate⟩

/- A manifest of 0:59,59:80. -/
theorem catalogAligned_iff_two :
    ∃ args t,
      topologyFromCatalog 80
          [⟨0, 59, true⟩, ⟨59, 80, false⟩] = .ok args ∧
        Topology.create (args.layout 80
          { numLayers := 0, coordinatorEnd := 0
            numStages := 0, modelFp := "" }) = .ok t ∧
        (CatalogAligned .ascii (fun _ => .absent)
            (.manifest
              { model := "", revision := none, format := ""
                numLayers := 80
                slots := [⟨⟨0, 59, true⟩, "coord-0-59", none⟩,
                  ⟨⟨59, 80, false⟩, "sub-59-80", none⟩] })
            80 [⟨0, 59, true⟩, ⟨59, 80, false⟩] t ↔
          WellCut [⟨0, 59, true⟩, ⟨59, 80, false⟩]) := by
  have hSizes : Topology.sizesOf
      (TopologyArgs.layout ⟨59, 1, [21]⟩ 80
        { numLayers := 0, coordinatorEnd := 0
          numStages := 0, modelFp := "" }) = .ok [21] := by
    decide
  rcases Topology.exists_create hSizes with ⟨t, hCreate⟩
  exact ⟨⟨59, 1, [21]⟩, t, rfl, hCreate,
    catalogAligned_iff rfl rfl hCreate⟩

/- A gap and an overlap that cancel out in the sizes. -/
def skewedManifest : Manifest :=
  { model := ""
    revision := none
    format := "awq-per-node-v1"
    numLayers := 40
    slots :=
      [⟨⟨0, 10, true⟩, "coord-0-10", none⟩,
        ⟨⟨10, 20, false⟩, "sub-10-20", none⟩,
        ⟨⟨25, 35, false⟩, "sub-25-35", none⟩,
        ⟨⟨30, 40, false⟩, "sub-30-40", none⟩] }

/- All three accept it; the mesh has a slot of 20 to 30. -/
theorem not_catalogAligned_skewed :
    ∃ args t,
      catalogLayout .ascii (fun _ => .absent)
          (.manifest skewedManifest) =
        .ok skewedManifest.ranges ∧
      topologyFromCatalog 40 skewedManifest.ranges =
        .ok args ∧
      Topology.create (args.layout 40
        { numLayers := 0, coordinatorEnd := 0
          numStages := 0, modelFp := "" }) = .ok t ∧
      ¬ CatalogAligned .ascii (fun _ => .absent)
        (.manifest skewedManifest) 40
        skewedManifest.ranges t := by
  have hSizes : Topology.sizesOf
      (TopologyArgs.layout ⟨10, 3, [10, 10, 10]⟩ 40
        { numLayers := 0, coordinatorEnd := 0
          numStages := 0, modelFp := "" }) =
        .ok [10, 10, 10] := by
    decide
  rcases Topology.exists_create hSizes with ⟨t, hCreate⟩
  refine ⟨⟨10, 3, [10, 10, 10]⟩, t, rfl, rfl, hCreate, ?_⟩
  intro hAligned
  have hSlots := hAligned.slots
  rcases create_catalog hCreate with ⟨-, -, -, hLaid, -⟩
  rw [hLaid] at hSlots
  exact absurd hSlots (by decide)

end CircuitDllm

------------------------------------------------------------
-- Layout Strings Are Well Cut
------------------------------------------------------------

namespace CircuitDllm

open Numeral

variable {u : Charset}

/- Parts after the first follow one another. -/
theorem consecutive_parseParts
    {i : Nat}
    {prevEnd : Int}
    {parts : List (List Char)}
    {stages : List CatalogRange}
    (hParse : parseParts u (i + 1) (some prevEnd) parts =
      .ok stages) :
    Consecutive prevEnd stages := by
  induction parts generalizing i prevEnd stages with
  | nil =>
      obtain rfl : [] = stages := Except.ok.inj hParse
      trivial
  | cons p parts ih =>
      rw [parseParts] at hParse
      split at hParse
      · cases hParse
      · rename_i start stop hRange
        split_ifs at hParse with hEmpty hGap
        split at hParse
        · cases hParse
        · rename_i ranges hRest
          obtain rfl := Except.ok.inj hParse
          refine ⟨?_, by simp, ih hRest⟩
          simpa using hGap

/- The rest of a layout is in line with its first range. -/
theorem parseLayout_consecutive
    {spec : String}
    {head : CatalogRange}
    {stages : List CatalogRange}
    (hParse : parseLayout u spec = .ok (head :: stages)) :
    Consecutive head.stop stages := by
  rw [parseLayout] at hParse
  split_ifs at hParse with hEmpty
  cases hParts : (spec.toList.splitOn ',').filter
      (fun p => strip u p ≠ []) with
  | nil => exact absurd hParts hEmpty
  | cons p parts =>
      rw [hParts, parseParts] at hParse
      split at hParse
      · cases hParse
      · rename_i start stop hRange
        split_ifs at hParse
        split at hParse
        · cases hParse
        · rename_i ranges hRest
          obtain ⟨rfl, rfl⟩ := List.cons.inj
            (Except.ok.inj hParse)
          exact consecutive_parseParts hRest

/- A layout string is well cut when it starts at layer 0. -/
theorem wellCut_parseLayout_iff
    {spec : String}
    {head : CatalogRange}
    {stages : List CatalogRange}
    (hParse : parseLayout u spec = .ok (head :: stages)) :
    WellCut (head :: stages) ↔ head.start = 0 :=
  and_iff_left (parseLayout_consecutive hParse)

example :
    parseLayout .ascii "0:59,59:80" =
      .ok [⟨0, 59, true⟩, ⟨59, 80, false⟩] := by
  decide +kernel

end CircuitDllm
