import CircuitDllm.Lib.History
import CircuitDllm.Mesh.Steps

/-
  The layers of the slots.

  The slots are cut when a topology is built; operations
  move holders between them, never the cuts.  Two control
  planes of one layout therefore have the same slots.

  Main declarations:
    * `Topology.layers`
    * `Registry.layers_run`
    * `Registry.Reachable.layers`
-/

------------------------------------------------------------
-- Slots without Holders
------------------------------------------------------------

namespace CircuitDllm

/- A slot as the layout cut it. -/
def Slot.bare (slot : Slot) : Slot :=
  { slot with holders := [] }

namespace Topology

/- The model, and the slots as the layout cut them. -/
def layers (t : Topology) : String × List Slot :=
  (t.modelFp, t.slots.map Slot.bare)

variable {t : Topology}

/- A new topology has nothing else in its slots. -/
theorem layers_create
    {l : Layout}
    (hCreate : create l = .ok t) :
    t.layers = (l.modelFp, t.slots) := by
  have hBare : t.slots.map Slot.bare = t.slots := by
    have hEach : ∀ s ∈ t.slots, s.bare = s := by
      intro s hS
      rw [Slot.bare, ← create_holders hCreate hS]
    simpa using List.map_congr_left hEach
  have hModel : t.modelFp = l.modelFp := by
    unfold create at hCreate
    split at hCreate
    · cases hCreate
    · cases hCreate
      rfl
  rw [layers, hBare, hModel]

@[simp] theorem layers_mapHolders
    (t : Topology)
    (f : Slot → List String) :
    (t.mapHolders f).layers = t.layers := by
  simp [layers, mapHolders, Function.comp_def, Slot.bare]

@[simp] theorem layers_modifyNode
    (t : Topology)
    (nodeId : String)
    (f : Node → Node) :
    (t.modifyNode nodeId f).layers = t.layers :=
  rfl

@[simp] theorem layers_dropHolding
    (t : Topology)
    (nodeId : String) :
    (t.dropHolding nodeId).layers = t.layers :=
  layers_mapHolders t _

@[simp] theorem layers_enter
    (t : Topology)
    (node : Node)
    (slot : Option Nat)
    (now : ℚ) :
    (t.enter node slot now).layers = t.layers := by
  cases slot with
  | none => exact layers_dropHolding t node.nodeId
  | some index =>
      simp only [enter, enroll, layers_mapHolders]
      exact layers_dropHolding t node.nodeId

@[simp] theorem layers_remove
    (t : Topology)
    (nodeId : String) :
    (t.remove nodeId).layers = t.layers := by
  simp only [remove, layers_mapHolders]
  rfl

@[simp] theorem layers_purge
    (t : Topology)
    (now : ℚ) :
    (t.purge now).2.layers = t.layers := by
  apply purge_preserves (fun t' => t'.layers = t.layers)
  · intro t' nodeId hSame
    exact (layers_remove t' nodeId).trans hSame
  · rfl

@[simp] theorem layers_recordCheck
    (t : Topology)
    (nodeId : String)
    (ok : Bool)
    (promoteAfter strikeMax : Int) :
    (t.recordCheck nodeId ok promoteAfter
      strikeMax).2.layers = t.layers := by
  unfold recordCheck
  split
  · rfl
  · split
    · rfl
    · rfl

@[simp] theorem layers_heartbeat
    (t : Topology)
    (nodeId : String)
    (now : ℚ) :
    (t.heartbeat nodeId now).2.layers = t.layers := by
  unfold heartbeat
  split
  · rfl
  · split
    · rfl
    · rfl

end Topology

end CircuitDllm

------------------------------------------------------------
-- Runs of the Control Plane
------------------------------------------------------------

namespace CircuitDllm

namespace Registry

variable {cfg : RegistryConfig}

@[simp] theorem layers_grant
    (r : Registry)
    (node : Node)
    (assignment : Option (Int × Int))
    (orchIndex : Option Nat) :
    (r.grant cfg node assignment orchIndex).2.topo.layers =
      r.topo.layers := by
  unfold grant
  cases cfg.deriveNodeKey node.nodeId with
  | none =>
      simp only
      split
      · rfl
      · rfl
  | some key =>
      simp only [saveState_topo]
      split
      · rfl
      · rfl

/- No operation moves a slot; a restart cuts them anew. -/
theorem layers_step
    (cfg : RegistryConfig)
    (r : Registry)
    (op : RegistryOp) :
    (r.step cfg op).topo.layers = r.topo.layers ∨
      Topology.create cfg.layout =
        .ok (r.step cfg op).topo := by
  cases op with
  | register node now preferRange =>
      left
      simp only [step]
      cases register_cases cfg node now preferRange r with
      | refused e hReach hEnd => rw [hEnd]
      | dropped e hReach hHolder hEntry hEnd =>
          rw [hEnd]
          simp
      | entered slot assignment orchIndex hReach hEntry hSlot
          hEnd =>
          rw [hEnd, layers_grant]
          simp
  | heartbeat nodeId now => exact .inl (by simp [step, heartbeat])
  | recordCheck nodeId ok promoteAfter strikeMax =>
      left
      simp only [step, recordCheck]
      split
      · simp
      · simp
  | tick now =>
      left
      simp only [step, tick, Topology.layers_purge]
      rfl
  | restart =>
      simp only [step]
      split
      · exact .inl rfl
      · rename_i r' hRestart
        exact .inr (restart_ok hRestart).1
  | drain nodeId => exact .inl rfl
  | markReady nodeId => exact .inl rfl
  | markSuspect nodeId => exact .inl rfl
  | setTrusted nodeId => exact .inl rfl
  | setRtt nodeId ms => exact .inl rfl
  | acquireRoute session => exact .inl (by simp [step])
  | releaseRoute session => exact .inl rfl
  | acquireEntry session => exact .inl (by simp [step])
  | releaseEntry session => exact .inl (by simp [step])
  | recordWork route paidRaw => exact .inl (by simp [step])
  | settle minPayoutRaw => exact .inl (by simp [step])
  | disk up => exact .inl rfl

theorem layers_run
    {r₀ : Registry}
    (hCreate : create cfg = .ok r₀)
    (ops : List RegistryOp) :
    (r₀.run cfg ops).topo.layers = r₀.topo.layers := by
  refine
    History.induction (step cfg)
      (fun _ r => r.topo.layers = r₀.topo.layers) rfl
      (fun _ r op hSame => ?_) ops
  rcases layers_step cfg r op with hStep | hAnew
  · exact hStep.trans hSame
  · rcases create_ok hCreate with ⟨topo, hTopo, rfl⟩
    rw [hTopo] at hAnew
    cases hAnew
    rfl

/- A control plane has the slots of its layout. -/
theorem Reachable.layers
    {r : Registry}
    (hReach : Reachable cfg r)
    {t : Topology}
    (hCreate : Topology.create cfg.layout = .ok t) :
    r.topo.layers = (cfg.layout.modelFp, t.slots) := by
  rcases hReach with ⟨r₀, ops, hInit, rfl⟩
  rw [layers_run hInit ops]
  rcases create_ok hInit with ⟨topo, hTopo, rfl⟩
  rw [hCreate] at hTopo
  cases hTopo
  exact Topology.layers_create hCreate

end Registry

end CircuitDllm
