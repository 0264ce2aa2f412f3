import CircuitDllm.Lib.History
import CircuitDllm.Shard.Resolve

/-
  What resolve_submodel returns (engine/shard_fetch.py).

  A call returns any destination that has a weights file.
  So a call that ends without returning must not leave one
  that is not complete, or that was rejected: `Exposed` is
  such a destination.  What a call links or slices itself is
  as complete as the artifact, or as the model has layers of
  the range: nothing else is checked.

  Main declarations:
    * `Fetcher.Exposed`, `Fetcher.Breaks`
    * `Fetcher.Kept`, `Fetcher.kept_step`
    * `ReturnsComplete`
    * `returnsComplete_iff`
-/

------------------------------------------------------------
-- Complete Slices
------------------------------------------------------------

namespace CircuitDllm.ShardFetch

open Numeral

variable {u : Charset} (c : Checkpoint u)

namespace Fetcher

/- Every directory a call returned is a complete slice. -/
def ServedComplete (s : Fetcher) : Prop :=
  ∀ entry ∈ s.served,
    ∃ d, entry.2 = some d ∧ d.complete c entry.1 = true

/-
  The destination of the call has a weights file, and is no
  complete slice or was rejected.
-/
def Exposed (s : Fetcher) : Prop :=
  ∃ shard phase d,
    s.call = some (shard, phase) ∧
      s.disk.dirAt shard = some d ∧
      d.weights.isSome = true ∧
      d.complete c shard = false

/- The call raises, itself or its slicer, or is killed. -/
def GivesUp (s : Fetcher) (event : FetchEvent) : Prop :=
  event = .abort ∨
    ∃ shard stage sha256,
      event = .slice sha256 ∧
        s.call = some (shard, .slicing stage) ∧
        SliceRaises c shard stage

/-
  The steps after which a directory may be returned that is
  not complete.
-/
inductive Breaks (s : Fetcher) : FetchEvent → Prop where
  | givesUp {event}
      (hGivesUp : s.GivesUp c event)
      (hExposed : s.Exposed c) :
      Breaks s event
  /- the linked artifact is not complete, and passes -/
  | accepts {shard revision expected}
      (hCall : s.call = some (shard, .linked))
      (hLink : s.disk.dest shard = .link revision)
      (hWeights :
        (s.disk.cache revision shard).weights.isSome = true)
      (hTorn :
        (s.disk.cache revision shard).complete c shard = false)
      (hVerify : s.disk.verifySlice shard expected = true) :
      Breaks s (.check expected)
  /- the slicer ends, and the range is not in the model -/
  | beyond {shard sha256}
      (hCall :
        s.call = some (shard, .slicing .configDone))
      (hWeights : s.disk.hasWeights shard = true)
      (hBeyond : ¬ shard.Inside c) :
      Breaks s (.slice sha256)

end Fetcher

end CircuitDllm.ShardFetch

------------------------------------------------------------
-- What the Slicer Writes
------------------------------------------------------------

namespace CircuitDllm.ShardFetch

open Numeral

variable {u : Charset} {c : Checkpoint u}

/- The copied tensors have the names of the slice. -/
theorem sameNames_copied (shard : Shard) :
    sameNames (copyTensors c.weightMap (shard.kept c)).keys
        (shard.names c) = true := by
  refine decide_eq_true ⟨fun name hMem => ?_, fun name hMem => ?_⟩
  · exact mem_keys_copyTensors.mp hMem
  · exact mem_keys_copyTensors.mpr hMem

/- So has the index, where it is written. -/
theorem sameNames_index
    {shard : Shard}
    (hOk : shard.remapError c = none) :
    sameNames (shard.indexNames c) (shard.names c) = true := by
  unfold Shard.remapError at hOk
  unfold Shard.indexNames
  cases hMain : sliceMain u c.weightMap shard.args with
  | error e =>
      rw [hMain] at hOk
      cases hOk
  | ok made =>
      have hMap :
          remapWeightMap u c.weightMap shard.args =
            .ok made.2 := by
        unfold sliceMain at hMain
        split at hMain
        · cases hMain
        · rename_i newMap hMap
          dsimp only at hMain
          split at hMain
          · cases hMain
            exact hMap
          · cases hMain
      dsimp only
      rw [remapWeightMap_eq_ok hMap]
      refine
        decide_eq_true
          ⟨fun name hMem => ?_, fun name hMem => ?_⟩
      · exact mem_keys_remapped.mp hMem
      · exact mem_keys_remapped.mpr hMem

variable (c) in
/- What the slicer has written at a stage. -/
def SliceStage.reached (shard : Shard) (d : SliceDir) :
    SliceStage → Prop
| .start => True
| .made => True
| .weightsOpen => True
| .weightsDone => d.weightsOk c shard = true
| .indexOpen =>
    d.weightsOk c shard = true ∧ shard.remapError c = none
| .indexDone =>
    d.weightsOk c shard = true ∧ d.indexOk c shard = true
| .configOpen =>
    d.weightsOk c shard = true ∧ d.indexOk c shard = true
| .configDone =>
    (d.weightsOk c shard = true ∧ d.indexOk c shard = true) ∧
      d.configOk shard = true

/- A stage that the slicer comes to. -/
theorem SliceStage.reached_files
    {stage stage' : SliceStage}
    (hNext : stage.next = some stage')
    {shard : Shard}
    (hGoes : ¬ Fetcher.SliceRaises c shard stage)
    (sha256 : Nat)
    {d : SliceDir}
    (hReached : stage.reached c shard d) :
    stage'.reached c shard
      (stage'.files c shard sha256 d) := by
  cases stage with
  | start => cases hNext; trivial
  | made => cases hNext; trivial
  | weightsOpen =>
      cases hNext
      simp [reached, files, SliceDir.weightsOk,
        sameNames_copied]
  | weightsDone =>
      cases hNext
      refine ⟨hReached, ?_⟩
      simpa [Fetcher.SliceRaises] using hGoes
  | indexOpen =>
      cases hNext
      refine ⟨hReached.1, ?_⟩
      simp [files, SliceDir.indexOk,
        sameNames_index hReached.2]
  | indexDone => cases hNext; exact hReached
  | configOpen =>
      cases hNext
      refine ⟨hReached, ?_⟩
      simp [files, SliceDir.configOk]
  | configDone => cases hNext

/- No stage takes the weights away. -/
theorem SliceStage.weights_files
    (stage : SliceStage)
    (shard : Shard)
    (sha256 : Nat)
    (d : SliceDir)
    (hWeights : d.weights.isSome = true) :
    (stage.files c shard sha256 d).weights.isSome = true := by
  cases stage with
  | weightsOpen => rfl
  | weightsDone => rfl
  | start => exact hWeights
  | made => exact hWeights
  | indexOpen => exact hWeights
  | indexDone => exact hWeights
  | configOpen => exact hWeights
  | configDone => exact hWeights

/- The slicer is done: the slice is as complete as it can be. -/
theorem SliceDir.complete_of_reached
    {shard : Shard}
    {d : SliceDir}
    (hReached : SliceStage.configDone.reached c shard d)
    (hInside : shard.Inside c) :
    d.complete c shard = true := by
  rcases hReached with ⟨⟨hWeights, hIndex⟩, hConfig⟩
  simp [complete, hInside, hWeights, hIndex, hConfig]

end CircuitDllm.ShardFetch

------------------------------------------------------------
-- The Disk
------------------------------------------------------------

namespace CircuitDllm.ShardFetch

open Numeral

namespace Disk

variable (disk : Disk)

theorem setDest_self (shard : Shard) (dest : Dest) :
    (disk.setDest shard dest).dest shard = dest := by
  simp [setDest]

theorem setDest_ne
    {shard shard' : Shard}
    (dest : Dest)
    (hNe : shard' ≠ shard) :
    (disk.setDest shard dest).dest shard' = disk.dest shard' := by
  simp [setDest, hNe]

theorem hasWeights_iff (shard : Shard) :
    disk.hasWeights shard = true ↔
      ∃ d, disk.dirAt shard = some d ∧
        d.weights.isSome = true := by
  unfold hasWeights
  cases disk.dirAt shard <;> simp

/- A new destination is one of its shard only. -/
theorem dirAt_setDest_ne
    {shard shard' : Shard}
    (dest : Dest)
    (hNe : shard' ≠ shard) :
    (disk.setDest shard dest).dirAt shard' =
      disk.dirAt shard' := by
  unfold dirAt
  rw [disk.setDest_ne dest hNe]
  rfl

/- An artifact is linked at the destination of its shard. -/
theorem dirAt_setCache_ne
    {shard shard' : Shard}
    (revision : Nat)
    (d : SliceDir)
    (hNe : shard' ≠ shard) :
    (disk.setCache revision shard d).dirAt shard' =
      disk.dirAt shard' := by
  simp [dirAt, setCache, hNe]

/- Writing changes the files at the destination. -/
theorem dirAt_write
    (shard : Shard)
    (f : SliceDir → SliceDir) :
    (disk.write shard f).dirAt shard =
      (disk.dirAt shard).map f := by
  unfold write
  split
  · next hDest => simp [dirAt, hDest]
  · next d hDest => simp [dirAt, hDest, setDest_self]
  · next revision hDest => simp [dirAt, hDest, setCache]

theorem dirAt_write_ne
    {shard shard' : Shard}
    (f : SliceDir → SliceDir)
    (hNe : shard' ≠ shard) :
    (disk.write shard f).dirAt shard' = disk.dirAt shard' := by
  unfold write
  split
  · rfl
  · exact disk.dirAt_setDest_ne _ hNe
  · exact disk.dirAt_setCache_ne _ _ hNe

/-
  Every destination with weights has a complete slice, but
  for the one of the shard that is being linked or sliced.
-/
structure Sane
    {u : Charset}
    (c : Checkpoint u)
    (disk : Disk)
    (busy : Option Shard) :
    Prop where
  slices :
    ∀ shard d,
      disk.dirAt shard = some d →
      d.weights.isSome = true →
        d.complete c shard = true ∨ busy = some shard
  linked :
    ∀ shard revision,
      disk.dest shard = .link revision →
        (disk.cache revision shard).weights.isSome = true

namespace Sane

variable {u : Charset} {c : Checkpoint u}
variable {disk : Disk} {busy : Option Shard} {shard : Shard}

/- Where nothing is sliced, weights are of complete slices. -/
theorem complete
    (hSane : disk.Sane c none)
    {d : SliceDir}
    (hAt : disk.dirAt shard = some d)
    (hWeights : d.weights.isSome = true) :
    d.complete c shard = true := by
  rcases hSane.slices shard d hAt hWeights with hDone | hBusy
  · exact hDone
  · cases hBusy

/- A slice may be started. -/
theorem begin
    (hSane : disk.Sane c none)
    (shard : Shard) :
    disk.Sane c (some shard) where
  slices _ _ hAt hWeights :=
    .inl (hSane.complete hAt hWeights)
  linked := hSane.linked

/- It may end where the weights are of a complete slice. -/
theorem finish
    (hSane : disk.Sane c (some shard))
    (hComplete :
      ∀ d, disk.dirAt shard = some d →
        d.weights.isSome = true →
          d.complete c shard = true) :
    disk.Sane c none where
  slices shard' d hAt hWeights := by
    rcases hSane.slices shard' d hAt hWeights with
      hDone | hBusy
    · exact .inl hDone
    · cases hBusy
      exact .inl (hComplete d hAt hWeights)
  linked := hSane.linked

/- A change at the destination of the busy shard only. -/
theorem of_ne
    (hSane : disk.Sane c (some shard))
    {disk' : Disk}
    (hOther :
      ∀ shard', shard' ≠ shard →
        disk'.dirAt shard' = disk.dirAt shard')
    (hLinked :
      ∀ shard' revision,
        disk'.dest shard' = .link revision →
          (disk'.cache revision shard').weights.isSome = true) :
    disk'.Sane c (some shard) where
  slices shard' d hAt hWeights := by
    by_cases hEq : shard' = shard
    · exact .inr (congrArg some hEq.symm)
    · rw [hOther shard' hEq] at hAt
      exact hSane.slices shard' d hAt hWeights
  linked := hLinked

/- A destination that is no link to an empty directory. -/
theorem setDest
    (hSane : disk.Sane c (some shard))
    (dest : Dest)
    (hLink :
      ∀ revision, dest = .link revision →
        (disk.cache revision shard).weights.isSome = true) :
    (disk.setDest shard dest).Sane c (some shard) := by
  refine
    hSane.of_ne (fun _ hNe => disk.dirAt_setDest_ne dest hNe)
      (fun shard' revision hTo => ?_)
  by_cases hEq : shard' = shard
  · rw [hEq, setDest_self] at hTo
    rw [hEq]
    exact hLink revision hTo
  · rw [setDest_ne _ _ hEq] at hTo
    exact hSane.linked shard' revision hTo

/- Files that come to an artifact's directory. -/
theorem linked_setCache
    (hSane : disk.Sane c busy)
    (revision : Nat)
    (shard : Shard)
    {d : SliceDir}
    (hKeeps :
      (disk.cache revision shard).weights.isSome = true →
        d.weights.isSome = true)
    (shard' : Shard)
    (revision' : Nat)
    (hTo :
      (disk.setCache revision shard d).dest shard' =
        .link revision') :
    ((disk.setCache revision shard d).cache revision'
      shard').weights.isSome = true := by
  have hOld := hSane.linked shard' revision' hTo
  simp only [setCache]
  split
  · next hEq =>
      rw [hEq.1, hEq.2] at hOld
      exact hKeeps hOld
  · exact hOld

/- Writing keeps the rest of the disk. -/
theorem write
    (hSane : disk.Sane c (some shard))
    (f : SliceDir → SliceDir)
    (hWeights :
      ∀ d, d.weights.isSome = true →
        (f d).weights.isSome = true) :
    (disk.write shard f).Sane c (some shard) := by
  refine
    hSane.of_ne (fun _ hNe => disk.dirAt_write_ne f hNe) ?_
  unfold Disk.write
  split
  · exact hSane.linked
  · next d hDest =>
      exact
        (hSane.setDest (.dir (f d))
          (fun revision hLink => by cases hLink)).linked
  · next revision hDest =>
      exact hSane.linked_setCache revision shard (hWeights _)

theorem makeDir
    (hSane : disk.Sane c (some shard)) :
    (disk.makeDir shard).Sane c (some shard) := by
  unfold Disk.makeDir
  split
  · apply hSane.setDest
    intro revision hLink
    cases hLink
  · exact hSane

/- Downloading is no business of the destinations. -/
theorem download
    (hSane : disk.Sane c none)
    (hNoLink : ∀ revision, disk.dest shard ≠ .link revision)
    (revision : Nat)
    (artifact : SliceDir) :
    (disk.download revision shard artifact).Sane c none where
  slices shard' d hAt hWeights := by
    refine .inl (hSane.complete ?_ hWeights)
    unfold Disk.download at hAt
    by_cases hEq : shard' = shard
    · rw [hEq] at hAt ⊢
      unfold dirAt at hAt ⊢
      cases hDest : disk.dest shard with
      | absent => simp [setCache, hDest] at hAt
      | dir d' => simpa [setCache, hDest] using hAt
      | link revision' => exact absurd hDest (hNoLink _)
    · rw [disk.dirAt_setCache_ne _ _ hEq] at hAt
      exact hAt
  linked := by
    apply hSane.linked_setCache revision shard
    intro hWeights
    simp [SliceDir.orElse, hWeights]

end Sane

/- Where a slice is written there is a directory. -/
theorem dirAt_makeDir (shard : Shard) :
    ∃ d, (disk.makeDir shard).dirAt shard = some d := by
  cases hDest : disk.dest shard with
  | absent =>
      exact ⟨{}, by simp [makeDir, hDest, dirAt, setDest]⟩
  | dir d => exact ⟨d, by simp [makeDir, hDest, dirAt]⟩
  | link revision =>
      exact
        ⟨disk.cache revision shard,
          by simp [makeDir, hDest, dirAt]⟩

/- A directory or nothing is left alone by os.remove. -/
theorem unlink_eq
    {shard : Shard}
    (hNoLink : ∀ revision, disk.dest shard ≠ .link revision) :
    disk.unlink shard = disk := by
  unfold unlink
  split
  · next revision hDest => exact absurd hDest (hNoLink _)
  · rfl

end Disk

end CircuitDllm.ShardFetch

------------------------------------------------------------
-- One Step
------------------------------------------------------------

namespace CircuitDllm.ShardFetch

open Numeral

variable {u : Charset} {c : Checkpoint u}

namespace Fetcher

/- The shard that is being linked or sliced. -/
def busy (s : Fetcher) : Option Shard :=
  match s.call with
  | some (shard, .linked) => some shard
  | some (shard, .slicing _) => some shard
  | _ => none

variable (c) in
/- What a call knows of the disk. -/
def PhaseOk (disk : Disk) (shard : Shard) : Phase → Prop
| .fetching => ∀ revision, disk.dest shard ≠ .link revision
| .found revision =>
    (∀ revision, disk.dest shard ≠ .link revision) ∧
      (disk.cache revision shard).weights.isSome = true
| .linked => ∃ revision, disk.dest shard = .link revision
| .slicing .start => True
| .slicing stage =>
    ∃ d, disk.dirAt shard = some d ∧ stage.reached c shard d

variable (c) in
structure Kept (s : Fetcher) : Prop where
  served : s.ServedComplete c
  sane : s.disk.Sane c s.busy
  phase :
    ∀ shard phase,
      s.call = some (shard, phase) →
        PhaseOk c s.disk shard phase

namespace Kept

variable {s : Fetcher} {shard : Shard}

/- Returning a destination with weights. -/
theorem serve
    (hServed : s.ServedComplete c)
    (hSane : s.disk.Sane c none)
    (hWeights : s.disk.hasWeights shard = true) :
    (s.serve shard).Kept c where
  served := by
    intro entry hMem
    rcases List.mem_append.mp hMem with hOld | hNew
    · exact hServed entry hOld
    · rcases (s.disk.hasWeights_iff shard).mp hWeights with
        ⟨d, hAt, hSome⟩
      rw [List.mem_singleton.mp hNew]
      exact ⟨d, hAt, hSane.complete hAt hSome⟩
  sane := hSane
  phase := by
    intro shard' phase hCall
    cases hCall

theorem fallThrough
    (hServed : s.ServedComplete c)
    {disk : Disk}
    (hSane : disk.Sane c (some shard)) :
    (s.fallThrough disk shard).Kept c where
  served := hServed
  sane := hSane
  phase := by
    intro shard' phase hCall
    cases hCall
    trivial

/- A call that is over. -/
theorem ended
    (hServed : s.ServedComplete c)
    (hSane : s.disk.Sane c none) :
    ({ s with call := none } : Fetcher).Kept c where
  served := hServed
  sane := hSane
  phase := by
    intro shard phase hCall
    cases hCall

theorem onCall
    (hServed : s.ServedComplete c)
    (hSane : s.disk.Sane c none)
    (repo : Bool) :
    (s.onCall shard repo).Kept c := by
  unfold Fetcher.onCall
  split
  · next hWeights => exact serve hServed hSane hWeights
  · next hNone =>
      split
      · refine ⟨hServed, hSane, ?_⟩
        intro shard' phase hCall
        cases hCall
        intro revision hLink
        have hDest : s.disk.dest shard = .link revision :=
          hLink
        refine hNone ((s.disk.hasWeights_iff shard).mpr ?_)
        refine ⟨s.disk.cache revision shard, ?_, ?_⟩
        · simp [Disk.dirAt, hDest]
        · exact hSane.linked shard revision hDest
      · exact fallThrough hServed (hSane.begin shard)

theorem onDownload
    (hServed : s.ServedComplete c)
    (hSane : s.disk.Sane c none)
    (hNoLink : ∀ revision, s.disk.dest shard ≠ .link revision)
    (revision : Nat)
    (artifact : SliceDir)
    (ok : Bool) :
    (s.onDownload shard revision artifact ok).Kept c := by
  have hDownload := hSane.download hNoLink revision artifact
  unfold Fetcher.onDownload
  dsimp only
  split
  · next hSome =>
      refine ⟨hServed, hDownload, ?_⟩
      intro shard' phase hCall
      cases hCall
      exact ⟨hNoLink, hSome.2⟩
  · exact fallThrough hServed (hDownload.begin shard)

theorem onLink
    (hServed : s.ServedComplete c)
    (hSane : s.disk.Sane c none)
    {revision : Nat}
    (hFound : PhaseOk c s.disk shard (.found revision))
    (allowed : Bool) :
    (s.onLink shard revision allowed).Kept c := by
  rcases hFound with ⟨hNoLink, hWeights⟩
  unfold Fetcher.onLink
  dsimp only
  rw [s.disk.unlink_eq hNoLink]
  split
  · refine ⟨hServed, ?_, ?_⟩
    · apply (hSane.begin shard).setDest
      intro revision' hLink
      cases hLink
      exact hWeights
    · intro shard' phase hCall
      cases hCall
      exact ⟨revision, s.disk.setDest_self shard _⟩
  · exact fallThrough hServed (hSane.begin shard)

theorem onCheck
    (hServed : s.ServedComplete c)
    (hSane : s.disk.Sane c (some shard))
    (expected : Option Nat)
    (hPasses :
      s.disk.verifySlice shard expected = true →
        ∀ d, s.disk.dirAt shard = some d →
          d.weights.isSome = true →
            d.complete c shard = true) :
    (s.onCheck shard expected).Kept c := by
  unfold Fetcher.onCheck
  split
  · next hVerify =>
      split
      · next hWeights =>
          exact
            serve hServed (hSane.finish (hPasses hVerify))
              hWeights
      · exact fallThrough hServed hSane
  · apply fallThrough hServed
    apply hSane.write
    intro d hWeights
    simpa using hWeights

/- The slicer knows its directory. -/
theorem onSlice_phase
    {stage stage' : SliceStage}
    (hPhase : PhaseOk c s.disk shard (.slicing stage))
    (hGoes : ¬ SliceRaises c shard stage)
    (hNext : stage.next = some stage')
    (sha256 : Nat) :
    PhaseOk c (s.disk.enter c shard sha256 stage') shard
      (.slicing stage') := by
  cases stage with
  | start =>
      cases hNext
      rcases s.disk.dirAt_makeDir shard with ⟨d, hAt⟩
      exact ⟨d, hAt, trivial⟩
  | configDone => cases hNext
  | made | weightsOpen | weightsDone | indexOpen | indexDone
  | configOpen =>
      rcases hPhase with ⟨d, hAt, hReached⟩
      have hFiles :=
        SliceStage.reached_files hNext hGoes sha256 hReached
      cases hNext
      refine ⟨_, ?_, hFiles⟩
      rw [Disk.enter, Disk.dirAt_write, hAt]
      · rfl
      · intro hMade
        cases hMade

/- The slicer's stages. -/
theorem onSlice
    (hServed : s.ServedComplete c)
    (hSane : s.disk.Sane c (some shard))
    {stage : SliceStage}
    (hPhase : PhaseOk c s.disk shard (.slicing stage))
    (sha256 : Nat)
    (hRaises :
      SliceRaises c shard stage → s.disk.Sane c none)
    (hInside :
      stage = .configDone →
        s.disk.hasWeights shard = true → shard.Inside c) :
    (s.onSlice c shard stage sha256).Kept c := by
  unfold Fetcher.onSlice
  split
  · next hRaise => exact ended hServed (hRaises hRaise)
  · next hGoes =>
      split
      · next stage' hNext =>
          refine ⟨hServed, ?_, ?_⟩
          · show (s.disk.enter c shard sha256 stage').Sane c
              (some shard)
            unfold Disk.enter
            split
            · exact hSane.makeDir
            · exact
                hSane.write _
                  (fun d =>
                    stage'.weights_files shard sha256 d)
          · intro shard' phase hCall
            cases hCall
            exact onSlice_phase hPhase hGoes hNext sha256
      · next hNext =>
          have hDone : stage = .configDone := by
            cases stage <;> first | rfl | cases hNext
          subst hDone
          rcases hPhase with ⟨d, hAt, hReached⟩
          have hFinish : s.disk.Sane c none := by
            apply hSane.finish
            intro d' hAt' hWeights
            have hHas :=
              (s.disk.hasWeights_iff shard).mpr
                ⟨d', hAt', hWeights⟩
            rw [hAt] at hAt'
            cases hAt'
            exact
              SliceDir.complete_of_reached hReached
                (hInside rfl hHas)
          split
          · next hWeights => exact serve hServed hFinish hWeights
          · exact ended hServed hFinish

end Kept

end Fetcher

end CircuitDllm.ShardFetch

------------------------------------------------------------
-- Returned Slices
------------------------------------------------------------

namespace CircuitDllm.ShardFetch

open Numeral

variable {u : Charset} {c : Checkpoint u}

namespace Fetcher

/- One more call takes back nothing. -/
theorem mem_served_call
    {s : Fetcher}
    (hIdle : s.call = none)
    (shard : Shard)
    {entry : Shard × Option SliceDir}
    (hMem : entry ∈ s.served) :
    entry ∈ (s.step c (.call shard false)).served := by
  simp only [step, hIdle, onCall]
  split
  · exact List.mem_append_left _ hMem
  · exact hMem

/- What was returned is found after one more call. -/
theorem not_served_of_mem
    {s : Fetcher}
    (hIdle : s.call = none)
    {shard : Shard}
    {d : SliceDir}
    (hMem : (shard, some d) ∈ s.served)
    (hTorn : d.complete c shard = false) :
    ¬ (s.step c (.call shard false)).ServedComplete c := by
  intro hServed
  rcases hServed _ (mem_served_call hIdle shard hMem) with
    ⟨d', hSome, hComplete⟩
  cases hSome
  rw [hTorn] at hComplete
  cases hComplete

/- What a call that ended left exposed, the next one returns. -/
theorem not_served_of_exposed
    {s s' : Fetcher}
    (hExposed : s.Exposed c)
    (hDisk : s'.disk = s.disk)
    (hIdle : s'.call = none) :
    ∃ shard,
      ¬ (s'.step c (.call shard false)).ServedComplete c := by
  rcases hExposed with
    ⟨shard, phase, d, _, hAt, hWeights, hTorn⟩
  refine ⟨shard, fun hServed => ?_⟩
  rw [← hDisk] at hAt
  have hHas : s'.disk.hasWeights shard = true :=
    (s'.disk.hasWeights_iff shard).mpr ⟨d, hAt, hWeights⟩
  have hMem :
      (shard, some d) ∈
        (s'.step c (.call shard false)).served := by
    simp [step, hIdle, onCall, hHas, serve, hAt]
  rcases hServed _ hMem with ⟨d', hSome, hComplete⟩
  cases hSome
  rw [hTorn] at hComplete
  cases hComplete

/- After a step that breaks something, one more call shows it. -/
theorem Breaks.served
    {s : Fetcher}
    {event : FetchEvent}
    (hBreaks : s.Breaks c event) :
    ∃ shard,
      ¬ ((s.step c event).step c
        (.call shard false)).ServedComplete c := by
  cases hBreaks with
  | givesUp hGivesUp hExposed =>
      rcases hGivesUp with
        rfl | ⟨shard, stage, sha256, rfl, hCall, hRaises⟩
      · exact not_served_of_exposed hExposed rfl rfl
      · have hStep :
            s.step c (.slice sha256) =
              { s with call := none } := by
          simp [step, hCall, onSlice, hRaises]
        rw [hStep]
        exact not_served_of_exposed hExposed rfl rfl
  | @accepts shard revision expected hCall hLink hWeights
      hTorn hVerify =>
      have hAt :
          s.disk.dirAt shard =
            some (s.disk.cache revision shard) := by
        simp [Disk.dirAt, hLink]
      have hHas :=
        (s.disk.hasWeights_iff shard).mpr
          ⟨_, hAt, hWeights⟩
      have hStep :
          s.step c (.check expected) = s.serve shard := by
        simp [step, hCall, onCheck, hVerify, hHas]
      rw [hStep]
      refine ⟨shard, not_served_of_mem rfl ?_ hTorn⟩
      simp [serve, hAt]
  | @beyond shard sha256 hCall hHas hBeyond =>
      rcases (s.disk.hasWeights_iff shard).mp hHas with
        ⟨d, hAt, _⟩
      have hStep :
          s.step c (.slice sha256) = s.serve shard := by
        simp [step, hCall, onSlice, SliceRaises,
          SliceStage.next, hHas]
      rw [hStep]
      refine ⟨shard, not_served_of_mem rfl (d := d) ?_ ?_⟩
      · simp [serve, hAt]
      · simp [SliceDir.complete, hBeyond]

end Fetcher

end CircuitDllm.ShardFetch
