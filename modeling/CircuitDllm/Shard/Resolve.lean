import CircuitDllm.Shard.SubModel

/-
  Obtaining a slice (engine/shard_fetch.py, main of
  scripts/slice-awq.py).

  The destination of a slice is a directory, or a link to
  the artifact's directory in the download cache; what the
  slicer writes there goes through the link.  A call of
  resolve_submodel takes one step for each outcome of what
  it calls, so that it may raise, or its process die,
  between any two of them.

  The slicer writes what the full checkpoint has of a range;
  a repo publishes what it likes.

  Main declarations:
    * `SliceDir`, `SliceDir.complete`
    * `Disk`, `Disk.write`
    * `Phase`, `SliceStage`
    * `Fetcher`, `Fetcher.step`
-/

------------------------------------------------------------
-- Slices on Disk
------------------------------------------------------------

namespace CircuitDllm.ShardFetch

open Numeral

/- The layers [start, end), with the head or without. -/
structure Shard where
  start : Int
  stop : Int
  keepHead : Bool
deriving DecidableEq, Repr

/- The slicer is called without --keep-norm. -/
def Shard.args (shard : Shard) : SliceArgs :=
  ⟨shard.start, shard.stop, false, shard.keepHead⟩

/-
  A model.safetensors with tensors of these names.
  `rejected` is not on disk: it says that this file failed
  its sha256 check.
-/
structure WeightsFile where
  names : List Text
  sha256 : Nat
  whole : Bool
  rejected : Bool := false
deriving DecidableEq, Repr

/- A model.safetensors.index.json, written to its end or not. -/
structure IndexFile where
  names : List Text
  whole : Bool
deriving DecidableEq, Repr

/- A config.json that announces so many layers. -/
structure ConfigFile where
  layers : Int
  whole : Bool
deriving DecidableEq, Repr

/- A directory with the files of a slice. -/
structure SliceDir where
  weights : Option WeightsFile := none
  index : Option IndexFile := none
  config : Option ConfigFile := none
deriving DecidableEq, Repr

variable {u : Charset} (c : Checkpoint u)

/- Every layer of the range is a layer of the model. -/
def Shard.Inside (shard : Shard) : Prop :=
  shard.start < shard.stop →
    0 ≤ shard.start ∧ shard.stop ≤ c.numLayers

instance (shard : Shard) : Decidable (shard.Inside c) := by
  unfold Shard.Inside
  infer_instance

/- The tensors of the model that belong to the range. -/
def Shard.kept (shard : Shard) : Dict Text Text :=
  keptTensorNames u c.weightMap.keys shard.args

/- The names they have in a slice. -/
def Shard.names (shard : Shard) : List Text :=
  (shard.kept c).values

/- The same names in any order. -/
def sameNames (names names' : List Text) : Bool :=
  decide (names ⊆ names' ∧ names' ⊆ names)

namespace SliceDir

def weightsOk (shard : Shard) (d : SliceDir) : Bool :=
  d.weights.any (fun w =>
    w.whole && sameNames w.names (shard.names c) &&
      !w.rejected)

def indexOk (shard : Shard) (d : SliceDir) : Bool :=
  d.index.any (fun f =>
    f.whole && sameNames f.names (shard.names c))

def configOk (shard : Shard) (d : SliceDir) : Bool :=
  d.config.any (fun f =>
    f.whole && f.layers = shard.stop - shard.start)

/-
  A complete slice that was not rejected: weights and index
  with all the tensors of the range, whose layers the model
  has, and a config with its number of layers.
-/
def complete (shard : Shard) (d : SliceDir) : Bool :=
  shard.Inside c && d.weightsOk c shard &&
    d.indexOk c shard && d.configOk shard

/- The files of one directory, and the other's for the rest. -/
def orElse (d d' : SliceDir) : SliceDir where
  weights := d.weights.or d'.weights
  index := d.index.or d'.index
  config := d.config.or d'.config

/- What a repo publishes failed no check yet. -/
def unchecked (d : SliceDir) : SliceDir :=
  { d with
    weights :=
      d.weights.map (fun w => { w with rejected := false }) }

end SliceDir

/- What is at the destination of a slice. -/
inductive Dest where
  | absent
  | dir (d : SliceDir)
  /- a link to the artifact of a revision of the repo -/
  | link (revision : Nat)
deriving DecidableEq, Repr

/- The destinations, and the download cache. -/
structure Disk where
  dest : Shard → Dest := fun _ => .absent
  cache : Nat → Shard → SliceDir := fun _ _ => {}

namespace Disk

/- The directory a destination leads to. -/
def dirAt (disk : Disk) (shard : Shard) : Option SliceDir :=
  match disk.dest shard with
  | .absent => none
  | .dir d => some d
  | .link revision => some (disk.cache revision shard)

/- _has_weights -/
def hasWeights (disk : Disk) (shard : Shard) : Bool :=
  (disk.dirAt shard).any (·.weights.isSome)

def setDest (disk : Disk) (shard : Shard) (dest : Dest) : Disk :=
  { disk with
    dest := fun s => if s = shard then dest else disk.dest s }

def setCache
    (disk : Disk)
    (revision : Nat)
    (shard : Shard)
    (d : SliceDir) :
    Disk :=
  { disk with
    cache := fun r s =>
      if r = revision ∧ s = shard then d
      else disk.cache r s }

/- Change the files at a destination, through its link. -/
def write
    (disk : Disk)
    (shard : Shard)
    (f : SliceDir → SliceDir) :
    Disk :=
  match disk.dest shard with
  | .absent => disk
  | .dir d => disk.setDest shard (.dir (f d))
  | .link revision =>
    disk.setCache revision shard (f (disk.cache revision shard))

/- snapshot_download keeps the files it has. -/
def download
    (disk : Disk)
    (revision : Nat)
    (shard : Shard)
    (artifact : SliceDir) :
    Disk :=
  disk.setCache revision shard
    ((disk.cache revision shard).orElse artifact.unchecked)

/- os.remove of what is no directory -/
def unlink (disk : Disk) (shard : Shard) : Disk :=
  match disk.dest shard with
  | .link _ => disk.setDest shard .absent
  | _ => disk

/- verify_slice; without a hash there is nothing to check. -/
def verifySlice
    (disk : Disk)
    (shard : Shard)
    (expected : Option Nat) :
    Bool :=
  match expected with
  | none => true
  | some sha256 =>
    (disk.dirAt shard).any (fun d =>
      d.weights.any (fun w => w.sha256 = sha256))

/- The file at the destination failed its check. -/
def reject (disk : Disk) (shard : Shard) : Disk :=
  disk.write shard (fun d =>
    { d with
      weights :=
        d.weights.map (fun w => { w with rejected := true }) })

end Disk

end CircuitDllm.ShardFetch

------------------------------------------------------------
-- The Slicer
------------------------------------------------------------

namespace CircuitDllm.ShardFetch

open Numeral

/- How far slice-awq.py has come. -/
inductive SliceStage where
  | start
  /- os.makedirs(out_dir), and the tensors are read -/
  | made
  | weightsOpen
  | weightsDone
  | indexOpen
  | indexDone
  | configOpen
  | configDone
deriving DecidableEq, Repr

variable {u : Charset} (c : Checkpoint u)

/- What remap_weight_map raises, with the weights written. -/
def Shard.remapError (shard : Shard) : Option SliceError :=
  match sliceMain u c.weightMap shard.args with
  | .error e => some e
  | .ok _ => none

/- The names in the index. -/
def Shard.indexNames (shard : Shard) : List Text :=
  match sliceMain u c.weightMap shard.args with
  | .error _ => []
  | .ok (_, newMap) => newMap.keys

namespace SliceStage

def next : SliceStage → Option SliceStage
| .start => some .made
| .made => some .weightsOpen
| .weightsOpen => some .weightsDone
| .weightsDone => some .indexOpen
| .indexOpen => some .indexDone
| .indexDone => some .configOpen
| .configOpen => some .configDone
| .configDone => none

/- What the slicer does to the directory at a stage. -/
def files
    (shard : Shard)
    (sha256 : Nat)
    (d : SliceDir) :
    SliceStage → SliceDir
| .start => d
| .made => d
| .weightsOpen =>
    { d with
      weights :=
        some
          { names :=
              (copyTensors c.weightMap (shard.kept c)).keys
            sha256 := sha256
            whole := false } }
| .weightsDone =>
    { d with
      weights :=
        some
          { names :=
              (copyTensors c.weightMap (shard.kept c)).keys
            sha256 := sha256
            whole := true } }
| .indexOpen =>
    { d with index := some ⟨shard.indexNames c, false⟩ }
| .indexDone =>
    { d with index := some ⟨shard.indexNames c, true⟩ }
| .configOpen =>
    { d with config := some ⟨shard.stop - shard.start, false⟩ }
| .configDone =>
    { d with config := some ⟨shard.stop - shard.start, true⟩ }

end SliceStage

/- os.makedirs(out_dir, exist_ok=True) -/
def Disk.makeDir (disk : Disk) (shard : Shard) : Disk :=
  match disk.dest shard with
  | .absent => disk.setDest shard (.dir {})
  | _ => disk

/- The slicer enters a stage. -/
def Disk.enter
    (disk : Disk)
    (shard : Shard)
    (sha256 : Nat)
    (stage : SliceStage) :
    Disk :=
  match stage with
  | .made => disk.makeDir shard
  | _ =>
    disk.write shard (fun d => stage.files c shard sha256 d)

end CircuitDllm.ShardFetch

------------------------------------------------------------
-- Calls
------------------------------------------------------------

namespace CircuitDllm.ShardFetch

open Numeral

/- Where a call of resolve_submodel is. -/
inductive Phase where
  /- in _try_download, before the artifact is there -/
  | fetching
  /- the artifact has weights; to be linked -/
  | found (revision : Nat)
  /- linked; to be verified -/
  | linked
  /- in _local_slice -/
  | slicing (stage : SliceStage)
deriving DecidableEq, Repr

/- What can happen. -/
inductive FetchEvent where
  /- with a repo or without -/
  | call (shard : Shard) (repo : Bool)
  /-
    A revision, the files that came, and whether the download
    went through or raised.
  -/
  | download (revision : Nat) (artifact : SliceDir) (ok : Bool)
  | link (allowed : Bool)
  /- the hash of the manifest, if there is one to check -/
  | check (expected : Option Nat)
  /- the slicer comes one stage further -/
  | slice (sha256 : Nat)
  /- the call raises, or its process is killed -/
  | abort
deriving DecidableEq, Repr

/- The disk, the call under way, and what calls returned. -/
structure Fetcher where
  disk : Disk := {}
  call : Option (Shard × Phase) := none
  served : List (Shard × Option SliceDir) := []

namespace Fetcher

/- resolve_submodel returns the destination. -/
def serve (s : Fetcher) (shard : Shard) : Fetcher :=
  { s with
    call := none
    served := s.served ++ [(shard, s.disk.dirAt shard)] }

/- Fall through to local slicing. -/
def fallThrough
    (s : Fetcher)
    (disk : Disk)
    (shard : Shard) :
    Fetcher :=
  { s with
    disk := disk
    call := some (shard, .slicing .start) }

def onCall (s : Fetcher) (shard : Shard) (repo : Bool) : Fetcher :=
  if s.disk.hasWeights shard then s.serve shard
  else if repo then { s with call := some (shard, .fetching) }
  else s.fallThrough s.disk shard

def onDownload
    (s : Fetcher)
    (shard : Shard)
    (revision : Nat)
    (artifact : SliceDir)
    (ok : Bool) :
    Fetcher :=
  let disk := s.disk.download revision shard artifact
  if ok ∧ (disk.cache revision shard).weights.isSome then
    { s with
      disk := disk
      call := some (shard, .found revision) }
  else s.fallThrough disk shard

def onLink
    (s : Fetcher)
    (shard : Shard)
    (revision : Nat)
    (allowed : Bool) :
    Fetcher :=
  let disk := s.disk.unlink shard
  if allowed ∧ disk.dest shard = .absent then
    { s with
      disk := disk.setDest shard (.link revision)
      call := some (shard, .linked) }
  else s.fallThrough disk shard

def onCheck
    (s : Fetcher)
    (shard : Shard)
    (expected : Option Nat) :
    Fetcher :=
  if s.disk.verifySlice shard expected then
    if s.disk.hasWeights shard then s.serve shard
    else s.fallThrough s.disk shard
  else s.fallThrough (s.disk.reject shard) shard

variable {u : Charset} (c : Checkpoint u)

/- The slicer raises between the weights and the index. -/
def SliceRaises (shard : Shard) (stage : SliceStage) : Prop :=
  stage = .weightsDone ∧ (shard.remapError c).isSome = true

instance (shard : Shard) (stage : SliceStage) :
    Decidable (SliceRaises c shard stage) := by
  unfold SliceRaises
  infer_instance

def onSlice
    (s : Fetcher)
    (shard : Shard)
    (stage : SliceStage)
    (sha256 : Nat) :
    Fetcher :=
  if SliceRaises c shard stage then { s with call := none }
  else
    match stage.next with
    | some stage =>
      { s with
        disk := s.disk.enter c shard sha256 stage
        call := some (shard, .slicing stage) }
    | none =>
      if s.disk.hasWeights shard then s.serve shard
      else { s with call := none }

/- An event that does not fit the call changes nothing. -/
def step (s : Fetcher) (event : FetchEvent) : Fetcher :=
  match event, s.call with
  | .call shard repo, none => s.onCall shard repo
  | .download revision artifact ok, some (shard, .fetching) =>
    s.onDownload shard revision artifact ok
  | .link allowed, some (shard, .found revision) =>
    s.onLink shard revision allowed
  | .check expected, some (shard, .linked) =>
    s.onCheck shard expected
  | .slice sha256, some (shard, .slicing stage) =>
    s.onSlice c shard stage sha256
  | .abort, _ => { s with call := none }
  | _, _ => s

def run (events : List FetchEvent) : Fetcher :=
  events.foldl (step c) {}

end Fetcher

end CircuitDllm.ShardFetch
