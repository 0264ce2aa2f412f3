import CircuitDllm.Lib.History
import CircuitDllm.Mesh.Steps
import CircuitDllm.Mesh.TrustRouting
import Mathlib.Tactic.Linarith

/-
  Churn: how long a silent node stays in the tables.

  A node that stops sending heartbeats is marked DEAD by
  `reap` and dropped by `purge`.  Neither looks at a
  DRAINING node, so one that drained and stopped stays.

  Main declarations:
    * `Registry.Clock`
    * `Registry.Bounded`
    * `Registry.bounded_tick_iff`
    * `Registry.exists_not_bounded`
-/

------------------------------------------------------------
-- Holder Lists and Node Table
------------------------------------------------------------

namespace CircuitDllm

namespace Topology

/- Every holder is in the node table. -/
def Listed (t : Topology) : Prop :=
  ∀ slot ∈ t.slots, ∀ h ∈ slot.holders,
    (t.nodes.get? h).isSome

variable {t : Topology}

theorem listed_create
    {l : Layout}
    (hCreate : create l = .ok t) :
    t.Listed := by
  intro slot hSlot h hMem
  rw [create_holders hCreate hSlot] at hMem
  cases hMem

/- The same slots, and no node has left the table. -/
theorem Listed.of_nodes
    (hListed : t.Listed)
    {t' : Topology}
    (hSlots : t'.slots = t.slots)
    (hNodes :
      ∀ h, (t.nodes.get? h).isSome →
        (t'.nodes.get? h).isSome) :
    t'.Listed := by
  intro slot hSlot h hMem
  rw [hSlots] at hSlot
  exact hNodes h (hListed slot hSlot h hMem)

theorem Listed.modifyNode
    (hListed : t.Listed)
    (nodeId : String)
    (f : Node → Node) :
    (t.modifyNode nodeId f).Listed := by
  refine hListed.of_nodes rfl (fun h hSome => ?_)
  rw [get?_modifyNode]
  split
  · rw [Option.isSome_map]
    exact hSome
  · exact hSome

theorem Listed.dropHolding
    (hListed : t.Listed)
    (nodeId : String) :
    (t.dropHolding nodeId).Listed := by
  intro slot hSlot h hMem
  rcases mem_mapHolders.mp hSlot with ⟨s, hS, rfl⟩
  exact hListed s hS h (List.mem_of_mem_erase hMem)

theorem Listed.enroll
    (hListed : t.Listed)
    (node : Node)
    (index : Nat)
    (now : ℚ) :
    (t.enroll node index now).Listed := by
  intro s hS h hMem
  rw [get?_enroll]
  split
  · rfl
  · rename_i hNe
    rcases mem_mapHolders.mp hS with ⟨s₀, hS₀, rfl⟩
    refine hListed s₀ hS₀ h ?_
    simp only at hMem
    split at hMem
    · rcases List.mem_append.mp hMem with hOld | hNew
      · exact hOld
      · exact absurd (List.mem_singleton.mp hNew).symm hNe
    · exact hMem

theorem Listed.enter
    (hListed : t.Listed)
    (node : Node)
    {slot : Option Nat}
    (now : ℚ)
    (hSlot : slot.isNone = node.orchestrator) :
    (t.enter node slot now).Listed := by
  have hDrop := hListed.dropHolding node.nodeId
  cases slot with
  | some index => exact hDrop.enroll node index now
  | none =>
      intro s hS h hMem
      rw [get?_enter _ _ _ _ hSlot]
      split
      · rfl
      · exact hDrop s hS h hMem

/- A node leaves the table and the one list it is in. -/
theorem Listed.remove
    (hListed : t.Listed)
    (hWf : t.WellFormed)
    (nodeId : String) :
    (t.remove nodeId).Listed := by
  intro slot hSlot h hMem
  rcases mem_mapHolders.mp hSlot with ⟨s, hS, rfl⟩
  simp only at hMem
  have hOld : h ∈ s.holders := by
    split at hMem
    · exact List.mem_of_mem_erase hMem
    · exact hMem
  rw [get?_remove]
  split
  · rename_i hEq
    subst hEq
    -- its own slot is the one the table names
    rcases Option.isSome_iff_exists.mp
      (hListed s hS nodeId hOld) with ⟨n, hN⟩
    have hAt := hWf.slotOf s hS nodeId hOld n hN
    rw [if_pos (by simp [hN, hAt])] at hMem
    exact absurd hMem (hWf.nodup s hS).not_mem_erase
  · exact hListed s hS h hOld

theorem Listed.purge
    (hListed : t.Listed)
    (hWf : t.WellFormed)
    (now : ℚ) :
    (t.purge now).2.Listed := by
  have hBoth :=
    Topology.purge_preserves (fun t => t.Listed ∧ t.WellFormed)
      (fun t nodeId hT =>
        ⟨hT.1.remove hT.2 nodeId, hT.2.remove nodeId⟩)
      ⟨hListed, hWf⟩ now
  exact hBoth.1

theorem Listed.reap
    (hListed : t.Listed)
    (now : ℚ) :
    (t.reap now).2.Listed := by
  refine hListed.of_nodes rfl (fun h hSome => ?_)
  simp only [Topology.reap, Dict.get?_mapValues,
    Option.isSome_map]
  exact hSome

theorem Listed.recordCheck
    (hListed : t.Listed)
    (nodeId : String)
    (ok : Bool)
    (promoteAfter strikeMax : Int) :
    (t.recordCheck nodeId ok promoteAfter
      strikeMax).2.Listed := by
  unfold Topology.recordCheck
  split
  · exact hListed
  · split
    · exact hListed.modifyNode _ _
    · exact hListed.modifyNode _ _

end Topology

namespace Registry

variable {cfg : RegistryConfig}

theorem listed_grant
    {r : Registry}
    (hListed : r.topo.Listed)
    (node : Node)
    (assignment : Option (Int × Int))
    (orchIndex : Option Nat) :
    (r.grant cfg node assignment
      orchIndex).2.topo.Listed := by
  refine hListed.of_nodes (slots_grant _ _ _ _ _)
    (fun h hSome => ?_)
  rw [get?_grant]
  split
  · rw [Option.isSome_map]
    exact hSome
  · exact hSome

/- Every operation keeps the holders in the table. -/
theorem listed_step
    {r : Registry}
    (hListed : r.topo.Listed)
    (hWf : r.topo.WellFormed)
    (op : RegistryOp) :
    (r.step cfg op).topo.Listed := by
  cases op with
  | register node now preferRange =>
      simp only [step]
      cases register_cases cfg node now preferRange r with
      | refused e hReach hEnd =>
          rw [hEnd]
          exact hListed
      | dropped e hReach hHolder hEntry hEnd =>
          rw [hEnd]
          exact hListed.dropHolding _
      | entered slot assignment orchIndex hReach hEntry hSlot
          hEnd =>
          rw [hEnd]
          apply listed_grant
          exact hListed.enter node now hSlot
  | heartbeat nodeId now =>
      simp only [step, heartbeat, Topology.heartbeat]
      split
      · exact hListed
      · split
        · exact hListed
        · exact hListed.modifyNode _ _
  | drain nodeId => exact hListed.modifyNode _ _
  | markReady nodeId => exact hListed.modifyNode _ _
  | markSuspect nodeId => exact hListed.modifyNode _ _
  | setTrusted nodeId => exact hListed.modifyNode _ _
  | recordCheck nodeId ok promoteAfter strikeMax =>
      have hTopo :=
        hListed.recordCheck nodeId ok promoteAfter strikeMax
      simp only [step, recordCheck]
      split
      · simpa using hTopo
      · exact hTopo
  | tick now => exact (hListed.reap now).purge (hWf.reap now) now
  | restart =>
      simp only [step]
      split
      · exact hListed
      · rename_i r' hRestart
        exact Topology.listed_create (restart_ok hRestart).1
  | setRtt nodeId ms => exact hListed
  | acquireRoute session => simpa [step] using hListed
  | releaseRoute session => exact hListed
  | acquireEntry session => simpa [step] using hListed
  | releaseEntry session => simpa [step] using hListed
  | recordWork route paidRaw => simpa [step] using hListed
  | settle minPayoutRaw => simpa [step] using hListed
  | disk up => exact hListed

theorem Reachable.listed
    {r : Registry}
    (hReach : Reachable cfg r) :
    r.topo.Listed := by
  rcases hReach with ⟨r₀, ops, hCreate, rfl⟩
  have hInv :
      (r₀.run cfg ops).topo.Listed ∧
        (r₀.run cfg ops).topo.WellFormed := by
    refine
      History.induction (step cfg)
        (fun _ r => r.topo.Listed ∧ r.topo.WellFormed)
        ⟨?_, wellFormed_create cfg hCreate⟩
        (fun _ _ op hInv =>
          ⟨listed_step hInv.1 hInv.2 op,
            wellFormed_step cfg hInv.2 op⟩)
        ops
    rcases create_ok hCreate with ⟨topo, hTopo, rfl⟩
    exact Topology.listed_create hTopo
  exact hInv.1

end Registry

end CircuitDllm

------------------------------------------------------------
-- Heartbeats
------------------------------------------------------------

namespace CircuitDllm

/- The reading of the clock an operation carries. -/
def RegistryOp.time? : RegistryOp → Option ℚ
| .register _ now _ => some now
| .heartbeat _ now => some now
| .tick now => some now
| _ => none

namespace Registry

/- The clock never goes backwards. -/
def Clock (ops : List RegistryOp) : Prop :=
  (ops.filterMap RegistryOp.time?).Pairwise (· ≤ ·)

instance (ops : List RegistryOp) : Decidable (Clock ops) := by
  unfold Clock
  infer_instance

variable {cfg : RegistryConfig}

@[simp] theorem passCheck_lastHb
    (promoteAfter : Int)
    (n : Node) :
    (Topology.passCheck promoteAfter n).lastHb = n.lastHb := by
  unfold Topology.passCheck
  simp only
  split <;> rfl

@[simp] theorem failCheck_lastHb
    (strikeMax : Int)
    (n : Node) :
    (Topology.failCheck strikeMax n).lastHb = n.lastHb := by
  unfold Topology.failCheck
  simp only
  split <;> rfl

/- A changed entry that keeps its heartbeat. -/
theorem lastHb_of_modified
    {f : Node → Node}
    (hSame : ∀ n, (f n).lastHb = n.lastHb)
    {h nodeId : String}
    {entry : Option Node}
    {n' : Node}
    (hN' :
      (if nodeId = h then entry.map f else entry) = some n') :
    ∃ n, entry = some n ∧ n'.lastHb = n.lastHb := by
  refine
    of_modified
      (P := fun n' => ∃ n, entry = some n ∧
        n'.lastHb = n.lastHb)
      (fun n hN => ⟨n, hN, rfl⟩) (fun n hOld => ?_) hN'
  rcases hOld with ⟨n₀, hN₀, hEq⟩
  exact ⟨n₀, hN₀, (hSame n).trans hEq⟩

/- A heartbeat stays, or it is the reading of the clock. -/
theorem lastHb_step
    {r : Registry}
    {op : RegistryOp}
    {h : String}
    {n' : Node}
    (hN' : (r.step cfg op).topo.nodes.get? h = some n') :
    (∃ n, r.topo.nodes.get? h = some n ∧
        n'.lastHb = n.lastHb) ∨
      op.time? = some n'.lastHb := by
  rw [get?_step] at hN'
  cases op with
  | register node now preferRange =>
      simp only [nodeStep] at hN'
      split at hN'
      · split at hN'
        · exact .inl ⟨n', hN', rfl⟩
        · cases hN'
          exact .inr rfl
      · exact .inl ⟨n', hN', rfl⟩
  | heartbeat nodeId now =>
      simp only [nodeStep] at hN'
      split at hN'
      · rcases Option.map_eq_some_iff.mp hN' with ⟨n, hN, rfl⟩
        split
        · exact .inl ⟨n, hN, rfl⟩
        · exact .inr rfl
      · exact .inl ⟨n', hN', rfl⟩
  | drain nodeId =>
      refine .inl (lastHb_of_modified (fun n => ?_) hN')
      rfl
  | markReady nodeId =>
      refine .inl (lastHb_of_modified (fun n => ?_) hN')
      split <;> rfl
  | markSuspect nodeId =>
      refine .inl (lastHb_of_modified (fun n => ?_) hN')
      split <;> rfl
  | setTrusted nodeId =>
      refine .inl (lastHb_of_modified (fun n => ?_) hN')
      rfl
  | recordCheck nodeId ok promoteAfter strikeMax =>
      refine .inl (lastHb_of_modified (fun n => ?_) hN')
      cases ok
      · exact failCheck_lastHb strikeMax n
      · exact passCheck_lastHb promoteAfter n
  | tick now =>
      rcases Option.filter_eq_some_iff.mp hN' with ⟨hMap, _⟩
      rcases Option.map_eq_some_iff.mp hMap with ⟨n, hN, rfl⟩
      refine .inl ⟨n, hN, ?_⟩
      unfold Topology.reaped
      split <;> rfl
  | restart =>
      simp only [nodeStep] at hN'
      split at hN'
      · exact .inl ⟨n', hN', rfl⟩
      · cases hN'
  | setRtt nodeId ms => exact .inl ⟨n', hN', rfl⟩
  | acquireRoute session => exact .inl ⟨n', hN', rfl⟩
  | releaseRoute session => exact .inl ⟨n', hN', rfl⟩
  | acquireEntry session => exact .inl ⟨n', hN', rfl⟩
  | releaseEntry session => exact .inl ⟨n', hN', rfl⟩
  | recordWork route paidRaw => exact .inl ⟨n', hN', rfl⟩
  | settle minPayoutRaw => exact .inl ⟨n', hN', rfl⟩
  | disk up => exact .inl ⟨n', hN', rfl⟩

/- Every heartbeat in the table is one of the readings. -/
theorem lastHb_mem_run
    {r₀ : Registry}
    (hCreate : create cfg = .ok r₀)
    (ops : List RegistryOp)
    {h : String}
    {n : Node}
    (hN : (r₀.run cfg ops).topo.nodes.get? h = some n) :
    n.lastHb ∈ ops.filterMap RegistryOp.time? := by
  induction ops using List.reverseRecOn generalizing n with
  | nil =>
      rcases create_ok hCreate with ⟨topo, hTopo, rfl⟩
      simp only [run, List.foldl_nil] at hN
      rw [Topology.create_nodes hTopo] at hN
      cases hN
  | append_singleton ops op ih =>
      rw [run, List.foldl_append] at hN
      rw [List.filterMap_append, List.mem_append]
      rcases lastHb_step hN with ⟨m, hM, hEq⟩ | hTime
      · rw [hEq]
        exact .inl (ih hM)
      · refine .inr (List.mem_filterMap.mpr ⟨op, ?_, hTime⟩)
        exact List.mem_singleton_self op

/- No node was heard from after the clock of a tick. -/
theorem lastHb_le
    {r₀ : Registry}
    (hCreate : create cfg = .ok r₀)
    {ops : List RegistryOp}
    {now : ℚ}
    (hClock : Clock (ops ++ [.tick now]))
    {h : String}
    {n : Node}
    (hN : (r₀.run cfg ops).topo.nodes.get? h = some n) :
    n.lastHb ≤ now := by
  have hMem := lastHb_mem_run hCreate ops hN
  have hTick :
      [RegistryOp.tick now].filterMap RegistryOp.time? =
        [now] := rfl
  rw [Clock, List.filterMap_append, hTick,
    List.pairwise_append] at hClock
  apply hClock.2.2 _ hMem
  exact List.mem_singleton_self now

end Registry

end CircuitDllm

------------------------------------------------------------
-- Bounded Tables
------------------------------------------------------------

namespace CircuitDllm

namespace Registry

variable {cfg : RegistryConfig}

/-
  Every id in the node table or in a holder list is a node
  heard from within twice dead_after_s.
-/
def Bounded (r : Registry) (now : ℚ) : Prop :=
  ∀ h,
    (r.topo.nodes.get? h).isSome ∨
        (∃ slot ∈ r.topo.slots, h ∈ slot.holders) →
      ∃ n, r.topo.nodes.get? h = some n ∧
        n.lastHb ≤ now ∧
          now - n.lastHb ≤ 2 * r.topo.deadAfterS

/- A DRAINING node that stopped. -/
def Left (r : Registry) (now : ℚ) (n : Node) : Prop :=
  n.state = .draining ∧
    2 * r.topo.deadAfterS < now - n.lastHb

theorem deadAfterS_purge (t : Topology) (now : ℚ) :
    (t.purge now).2.deadAfterS = t.deadAfterS := by
  apply
    Topology.purge_preserves
      (fun t' => t'.deadAfterS = t.deadAfterS)
  · intro t' nodeId hSame
    exact hSame
  · rfl

/- A tick does not change after how long a node is dead. -/
theorem deadAfterS_tick (r : Registry) (now : ℚ) :
    (r.step cfg (.tick now)).topo.deadAfterS =
      r.topo.deadAfterS :=
  deadAfterS_purge (r.topo.reap now).2 now

/-
  A node a tick leaves was heard from lately, unless it is
  DRAINING: reap kills the others in time for purge.
-/
theorem tick_cases
    {r : Registry}
    {now : ℚ}
    {n : Node}
    (hLe : n.lastHb ≤ now)
    (hKept : ¬ r.topo.Gone now (r.topo.reaped now n)) :
    now - n.lastHb ≤ 2 * r.topo.deadAfterS ∨
      r.Left now n := by
  by_cases hLong : 2 * r.topo.deadAfterS < now - n.lastHb
  case neg => exact .inl (not_lt.mp hLong)
  refine .inr ⟨?_, hLong⟩
  by_contra hNot
  apply hKept
  unfold Topology.reaped
  split
  · exact ⟨rfl, hLong⟩
  · rename_i hDue
    refine ⟨?_, hLong⟩
    -- twice a nonnegative time is no shorter than the time
    have hOver : r.topo.deadAfterS < now - n.lastHb := by
      by_cases hSign : 0 ≤ r.topo.deadAfterS
      · linarith
      · linarith
    unfold Topology.overdue at hDue
    cases hState : n.state with
    | joining => simp [hState, hOver] at hDue
    | ready => simp [hState, hOver] at hDue
    | suspect => simp [hState, hOver] at hDue
    | dead => rfl
    | draining => exact absurd hState hNot

/- A DRAINING node outlives every tick. -/
theorem get?_tick_of_draining
    (cfg : RegistryConfig)
    {r : Registry}
    (now : ℚ)
    {h : String}
    {n : Node}
    (hN : r.topo.nodes.get? h = some n)
    (hState : n.state = .draining) :
    (r.step cfg (.tick now)).topo.nodes.get? h = some n := by
  rw [get?_step]
  simp [nodeStep, hN, Topology.reaped, Topology.overdue,
    Topology.Gone, hState]

/-
  Right after a tick the tables are bounded exactly when it
  met no node that had drained and stopped.
-/
theorem bounded_tick_iff
    {r₀ : Registry}
    (hCreate : create cfg = .ok r₀)
    {ops : List RegistryOp}
    {now : ℚ}
    (hClock : Clock (ops ++ [.tick now])) :
    (r₀.run cfg (ops ++ [.tick now])).Bounded now ↔
      ∀ h n, (r₀.run cfg ops).topo.nodes.get? h = some n →
        ¬ (r₀.run cfg ops).Left now n := by
  have hRun :
      r₀.run cfg (ops ++ [.tick now]) =
        (r₀.run cfg ops).step cfg (.tick now) := by
    simp [run]
  have hListed :
      (r₀.run cfg (ops ++ [.tick now])).topo.Listed :=
    Reachable.listed ⟨r₀, _, hCreate, rfl⟩
  rw [hRun] at hListed ⊢
  constructor
  · intro hBounded h n hN hLeft
    have hStill :=
      get?_tick_of_draining cfg now hN hLeft.1
    rcases hBounded h (.inl (by simp [hStill])) with
      ⟨n', hN', _, hLately⟩
    rw [hStill] at hN'
    cases hN'
    rw [deadAfterS_tick] at hLately
    exact absurd hLeft.2 (not_lt.mpr hLately)
  · intro hNone h hIn
    have hSome :
        (((r₀.run cfg ops).step cfg
          (.tick now)).topo.nodes.get? h).isSome := by
      rcases hIn with hTable | ⟨slot, hSlot, hHolder⟩
      · exact hTable
      · exact hListed slot hSlot h hHolder
    rcases Option.isSome_iff_exists.mp hSome with ⟨n', hN'⟩
    refine ⟨n', hN', ?_⟩
    rw [get?_step] at hN'
    rcases Option.filter_eq_some_iff.mp hN' with
      ⟨hMap, hKept⟩
    rcases Option.map_eq_some_iff.mp hMap with ⟨n, hN, rfl⟩
    have hSame :
        ((r₀.run cfg ops).topo.reaped now n).lastHb =
          n.lastHb := by
      unfold Topology.reaped
      split <;> rfl
    have hLe := lastHb_le hCreate hClock hN
    rw [hSame, deadAfterS_tick]
    refine ⟨hLe, ?_⟩
    rcases tick_cases hLe (by simpa using hKept) with
      hLately | hLeft
    · exact hLately
    · exact absurd hLeft (hNone h n hN)

/- A node that goes silent is gone 61 seconds later. -/
theorem bounded_tick_iff_silent :
    ∃ r₀,
      create oneSlot = .ok r₀ ∧
        ((r₀.run oneSlot
            ([.register (joining "seed") 0 none,
              .markReady "seed"] ++ [.tick 61])).Bounded 61 ↔
          ∀ h n,
            (r₀.run oneSlot
                [.register (joining "seed") 0 none,
                  .markReady "seed"]).topo.nodes.get? h =
                some n →
              ¬ (r₀.run oneSlot
                [.register (joining "seed") 0 none,
                  .markReady "seed"]).Left 61 n) :=
  ⟨_, rfl, bounded_tick_iff rfl (by decide)⟩

/- A node leaves cleanly: it drains and stops. -/
def cleanLeave : List RegistryOp :=
  [.register (joining "seed") 0 none, .markReady "seed",
    .drain "seed"]

/- It is in the table long after. -/
theorem exists_not_bounded :
    ¬ ∀ (cfg : RegistryConfig) (r₀ : Registry)
        (ops : List RegistryOp) (now : ℚ),
      create cfg = .ok r₀ →
        Clock (ops ++ [.tick now]) →
          (r₀.run cfg (ops ++ [.tick now])).Bounded now := by
  intro hAll
  have hBounded :=
    hAll oneSlot _ cleanLeave 1000 rfl (by decide)
  rcases hBounded "seed" (.inl (by decide)) with
    ⟨n, hN, _, hLately⟩
  have hSilent : some n.lastHb = some 0 := by
    rw [← Option.map_some, ← hN]
    decide
  have hLimit :
      ∀ r₀, create oneSlot = .ok r₀ →
        (r₀.run oneSlot
          (cleanLeave ++ [.tick 1000])).topo.deadAfterS = 30 := by
    intro r₀ hCreate
    cases hCreate
    rfl
  rw [Option.some.inj hSilent, hLimit _ rfl] at hLately
  linarith

end Registry

end CircuitDllm
