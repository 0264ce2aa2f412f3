import CircuitDllm.Mesh.Routing

/-
  What every reachable topology keeps: the node table is
  keyed by node id, and a node is a holder of its own slot
  only, once.

  Main declarations:
    * `Topology.WellFormed`
    * `Registry.wellFormed_step`
    * `Registry.Reachable.wellFormed`
    * `Registry.nodup_acquireRoute`
-/

------------------------------------------------------------
-- Well-Formed Topologies
------------------------------------------------------------

namespace CircuitDllm

namespace Topology

structure WellFormed (t : Topology) : Prop where
  keyed :
    ∀ h n, t.nodes.get? h = some n → n.nodeId = h
  nodup : ∀ slot ∈ t.slots, slot.holders.Nodup
  slotOf :
    ∀ slot ∈ t.slots, ∀ h ∈ slot.holders,
      ∀ n, t.nodes.get? h = some n →
        n.slot = some slot.index

variable {t : Topology}

theorem create_nodes
    {l : Layout}
    (hCreate : create l = .ok t) :
    t.nodes = .empty := by
  unfold create at hCreate
  split at hCreate
  · cases hCreate
  · cases hCreate
    rfl

theorem holders_layoutSlots
    {start : Int}
    {index : Nat}
    {sizes : List Int}
    {slot : Slot}
    (hMem : slot ∈ layoutSlots start index sizes) :
    slot.holders = [] := by
  induction sizes generalizing start index with
  | nil => exact absurd hMem List.not_mem_nil
  | cons size sizes ih =>
      rcases List.mem_cons.mp hMem with rfl | hMem
      · rfl
      · exact ih hMem

theorem create_holders
    {l : Layout}
    {slot : Slot}
    (hCreate : create l = .ok t)
    (hMem : slot ∈ t.slots) :
    slot.holders = [] := by
  unfold create at hCreate
  split at hCreate
  · cases hCreate
  · cases hCreate
    exact holders_layoutSlots hMem

theorem wellFormed_create
    {l : Layout}
    (hCreate : create l = .ok t) :
    t.WellFormed where
  keyed h n hN := by
    rw [create_nodes hCreate] at hN
    cases hN
  nodup slot hSlot := by
    rw [create_holders hCreate hSlot]
    exact List.nodup_nil
  slotOf slot hSlot h hMem := by
    rw [create_holders hCreate hSlot] at hMem
    cases hMem

/- The slots after their holders changed. -/
theorem mem_mapHolders
    {f : Slot → List String}
    {slot : Slot} :
    slot ∈ (t.mapHolders f).slots ↔
      ∃ s ∈ t.slots, slot = { s with holders := f s } := by
  simp [mapHolders, eq_comm]

/- Fewer holders stay well formed. -/
theorem WellFormed.mapHolders
    (hWf : t.WellFormed)
    {f : Slot → List String}
    (hSub : ∀ s ∈ t.slots, (f s).Sublist s.holders) :
    (t.mapHolders f).WellFormed where
  keyed := hWf.keyed
  nodup slot hSlot := by
    rcases mem_mapHolders.mp hSlot with ⟨s, hS, rfl⟩
    exact (hWf.nodup s hS).sublist (hSub s hS)
  slotOf slot hSlot h hMem := by
    rcases mem_mapHolders.mp hSlot with ⟨s, hS, rfl⟩
    exact hWf.slotOf s hS h ((hSub s hS).subset hMem)

/- The same slots over nodes that keep their id and slot. -/
theorem WellFormed.of_nodes
    (hWf : t.WellFormed)
    {t' : Topology}
    (hSlots : t'.slots = t.slots)
    (hSame :
      ∀ h n, t'.nodes.get? h = some n →
        ∃ m, t.nodes.get? h = some m ∧
          n.nodeId = m.nodeId ∧ n.slot = m.slot) :
    t'.WellFormed where
  keyed h n hN := by
    rcases hSame h n hN with ⟨m, hM, hId, _⟩
    exact hId.trans (hWf.keyed h m hM)
  nodup slot hSlot := hWf.nodup slot (hSlots ▸ hSlot)
  slotOf slot hSlot h hMem n hN := by
    rcases hSame h n hN with ⟨m, hM, _, hEq⟩
    exact hEq.trans
      (hWf.slotOf slot (hSlots ▸ hSlot) h hMem m hM)

theorem WellFormed.modifyNode
    (hWf : t.WellFormed)
    (nodeId : String)
    {f : Node → Node}
    (hId : ∀ n, (f n).nodeId = n.nodeId)
    (hSlot : ∀ n, (f n).slot = n.slot) :
    (t.modifyNode nodeId f).WellFormed := by
  refine hWf.of_nodes rfl (fun h n hN => ?_)
  simp only [Topology.modifyNode, Dict.get?_modify] at hN
  split at hN
  · rcases Option.map_eq_some_iff.mp hN with ⟨m, hM, rfl⟩
    exact ⟨m, hM, hId m, hSlot m⟩
  · exact ⟨n, hN, rfl, rfl⟩

/- A node that holds nothing has nothing to drop. -/
theorem dropHolding_of_free
    {nodeId : String}
    (hFree : ∀ slot ∈ t.slots, nodeId ∉ slot.holders) :
    t.dropHolding nodeId = t := by
  have hSlots :
      (t.dropHolding nodeId).slots = t.slots := by
    rw [dropHolding, mapHolders]
    simp only
    conv_rhs => rw [← List.map_id t.slots]
    apply List.map_congr_left
    intro slot hSlot
    rw [List.erase_of_not_mem (hFree slot hSlot)]
    rfl
  cases t
  simp only [dropHolding, mapHolders] at hSlots ⊢
  congr

theorem WellFormed.dropHolding
    (hWf : t.WellFormed)
    (nodeId : String) :
    (t.dropHolding nodeId).WellFormed :=
  hWf.mapHolders (fun _ _ => List.erase_sublist)

/- A dropped node is a holder of no slot. -/
theorem WellFormed.not_mem_dropHolding
    (hWf : t.WellFormed)
    (nodeId : String)
    {slot : Slot}
    (hSlot : slot ∈ (t.dropHolding nodeId).slots) :
    nodeId ∉ slot.holders := by
  rcases mem_mapHolders.mp hSlot with ⟨s, hS, rfl⟩
  exact (hWf.nodup s hS).not_mem_erase

/- A node that holds nothing enters the table. -/
theorem WellFormed.setNode
    (hWf : t.WellFormed)
    (node : Node)
    (hFree : ∀ slot ∈ t.slots, node.nodeId ∉ slot.holders) :
    { t with
      nodes := t.nodes.set node.nodeId node }.WellFormed where
  keyed h n hN := by
    simp only [Dict.get?_set] at hN
    split at hN
    · rename_i hEq
      cases hN
      exact hEq
    · exact hWf.keyed h n hN
  nodup := hWf.nodup
  slotOf slot hSlot h hMem n hN := by
    simp only [Dict.get?_set] at hN
    split at hN
    · rename_i hEq
      exact absurd (hEq ▸ hMem) (hFree slot hSlot)
    · exact hWf.slotOf slot hSlot h hMem n hN

/- A node of the table that holds nothing gets its slot. -/
theorem WellFormed.addHolder
    (hWf : t.WellFormed)
    {nodeId : String}
    {node : Node}
    {index : Nat}
    (hFree : ∀ slot ∈ t.slots, nodeId ∉ slot.holders)
    (hNode : t.nodes.get? nodeId = some node)
    (hSlot : node.slot = some index) :
    (t.mapHolders (fun s =>
      if s.index = index then s.holders ++ [nodeId]
      else s.holders)).WellFormed where
  keyed := hWf.keyed
  nodup slot hMem := by
    rcases mem_mapHolders.mp hMem with ⟨s, hS, rfl⟩
    simp only
    split
    · refine List.nodup_append.mpr
        ⟨hWf.nodup s hS, List.nodup_singleton _, ?_⟩
      intro a hA b hB hEq
      rw [List.mem_singleton] at hB
      exact hFree s hS (hB ▸ hEq ▸ hA)
    · exact hWf.nodup s hS
  slotOf slot hMem h hHolder n hN := by
    rcases mem_mapHolders.mp hMem with ⟨s, hS, rfl⟩
    simp only at hHolder
    split at hHolder
    · rename_i hIndex
      rcases List.mem_append.mp hHolder with hOld | hNew
      · exact hWf.slotOf s hS h hOld n hN
      · rw [List.mem_singleton] at hNew
        subst hNew
        have hEq : node = n :=
          Option.some.inj (hNode.symm.trans hN)
        rw [← hEq, hSlot, hIndex]
    · exact hWf.slotOf s hS h hHolder n hN

/- A node that holds nothing enters the table and a slot. -/
theorem WellFormed.enroll
    (hWf : t.WellFormed)
    (node : Node)
    (index : Nat)
    (now : ℚ)
    (hFree : ∀ slot ∈ t.slots, node.nodeId ∉ slot.holders) :
    (t.enroll node index now).WellFormed := by
  have hEntered :=
    hWf.setNode
      { node with
        slot := some index
        state := .joining
        lastHb := now }
      hFree
  exact
    hEntered.addHolder hFree (Dict.get?_set_self _ _ _) rfl

theorem WellFormed.register
    (hWf : t.WellFormed)
    (node : Node)
    (now : ℚ)
    (preferRange : Option PreferRange) :
    (t.register node now preferRange).2.WellFormed := by
  have hDrop := hWf.dropHolding node.nodeId
  have hFree :
      ∀ slot ∈ (t.dropHolding node.nodeId).slots,
        node.nodeId ∉ slot.holders :=
    fun _ hSlot => hWf.not_mem_dropHolding node.nodeId hSlot
  unfold Topology.register
  split
  · exact hWf
  · simp only
    split
    · exact hDrop
    · split
      · exact hDrop
      · exact hDrop.enroll node _ now hFree

theorem WellFormed.registerOrchestrator
    (hWf : t.WellFormed)
    (node : Node)
    (now : ℚ) :
    (t.registerOrchestrator node now).2.WellFormed := by
  unfold Topology.registerOrchestrator
  split
  · exact hWf
  · exact
      (hWf.dropHolding node.nodeId).setNode _
        (fun _ hSlot => hWf.not_mem_dropHolding _ hSlot)

theorem WellFormed.heartbeat
    (hWf : t.WellFormed)
    (nodeId : String)
    (now : ℚ) :
    (t.heartbeat nodeId now).2.WellFormed := by
  unfold Topology.heartbeat
  split
  · exact hWf
  · split
    · exact hWf
    · exact hWf.modifyNode _ (fun _ => rfl) (fun _ => rfl)

theorem WellFormed.reap
    (hWf : t.WellFormed)
    (now : ℚ) :
    (t.reap now).2.WellFormed := by
  refine hWf.of_nodes rfl (fun h n hN => ?_)
  simp only [Topology.reap, Dict.get?_mapValues] at hN
  rcases Option.map_eq_some_iff.mp hN with ⟨m, hM, rfl⟩
  refine ⟨m, hM, ?_⟩
  split <;> exact ⟨rfl, rfl⟩

theorem WellFormed.remove
    (hWf : t.WellFormed)
    (nodeId : String) :
    (t.remove nodeId).WellFormed := by
  have hErased :
      { t with
        nodes := t.nodes.erase nodeId
        rtts := t.rtts.erase nodeId }.WellFormed := by
    refine hWf.of_nodes rfl (fun h n hN => ?_)
    simp only [Dict.get?_erase] at hN
    split at hN
    · cases hN
    · exact ⟨n, hN, rfl, rfl⟩
  refine hErased.mapHolders (fun s _ => ?_)
  split
  · exact List.erase_sublist
  · exact List.Sublist.refl _

theorem WellFormed.purge
    (hWf : t.WellFormed)
    (now : ℚ) :
    (t.purge now).2.WellFormed := by
  apply Topology.purge_preserves Topology.WellFormed
  · intro t nodeId hT
    exact hT.remove nodeId
  · exact hWf

theorem WellFormed.recordCheck
    (hWf : t.WellFormed)
    (nodeId : String)
    (ok : Bool)
    (promoteAfter strikeMax : Int) :
    (t.recordCheck nodeId ok promoteAfter
      strikeMax).2.WellFormed := by
  unfold Topology.recordCheck
  split
  · exact hWf
  · split
    · refine hWf.modifyNode _ (fun n => ?_) (fun n => ?_)
      · unfold passCheck
        simp only
        split <;> rfl
      · unfold passCheck
        simp only
        split <;> rfl
    · refine hWf.modifyNode _ (fun n => ?_) (fun n => ?_)
      · unfold failCheck
        simp only
        split <;> rfl
      · unfold failCheck
        simp only
        split <;> rfl

theorem WellFormed.markReady
    (hWf : t.WellFormed)
    (nodeId : String) :
    (t.markReady nodeId).WellFormed := by
  refine hWf.modifyNode _ (fun n => ?_) (fun n => ?_)
  · split <;> rfl
  · split <;> rfl

theorem WellFormed.markSuspect
    (hWf : t.WellFormed)
    (nodeId : String) :
    (t.markSuspect nodeId).WellFormed := by
  refine hWf.modifyNode _ (fun n => ?_) (fun n => ?_)
  · split <;> rfl
  · split <;> rfl

theorem WellFormed.drain
    (hWf : t.WellFormed)
    (nodeId : String) :
    (t.drain nodeId).WellFormed :=
  hWf.modifyNode _ (fun _ => rfl) (fun _ => rfl)

theorem WellFormed.setTrusted
    (hWf : t.WellFormed)
    (nodeId : String) :
    (t.setTrusted nodeId).WellFormed :=
  hWf.modifyNode _ (fun _ => rfl) (fun _ => rfl)

theorem WellFormed.setRtt
    (hWf : t.WellFormed)
    (nodeId : String)
    (ms : ℚ) :
    (t.setRtt nodeId ms).WellFormed :=
  hWf.of_nodes rfl (fun _ n hN => ⟨n, hN, rfl, rfl⟩)

end Topology

end CircuitDllm

------------------------------------------------------------
-- Reachable Registries
------------------------------------------------------------

namespace CircuitDllm

namespace Registry

variable (cfg : RegistryConfig)

@[simp] theorem saveState_topo (r : Registry) :
    (r.saveState cfg).topo = r.topo := by
  unfold saveState
  split <;> rfl

@[simp] theorem releaseEntry_topo
    (session : Nat)
    (r : Registry) :
    (r.releaseEntry session).topo = r.topo := by
  unfold releaseEntry
  split <;> rfl

@[simp] theorem acquireEntry_topo
    (session : Nat)
    (r : Registry) :
    (r.acquireEntry session).2.topo = r.topo := by
  unfold acquireEntry
  simp only
  split <;> simp

@[simp] theorem recordWork_topo
    (route : List (String × Int × Int))
    (paidRaw : Int)
    (r : Registry) :
    (r.recordWork cfg route paidRaw).topo = r.topo := by
  unfold recordWork
  simp only
  split <;> simp

@[simp] theorem settle_topo
    (minPayoutRaw : Int)
    (r : Registry) :
    (r.settle cfg minPayoutRaw).2.topo = r.topo := by
  simp [settle]

/- A refused restart leaves the registry, another is new. -/
theorem wellFormed_restart
    {r r' : Registry}
    (hRestart : r.restart cfg = .ok r') :
    r'.topo.WellFormed :=
  Topology.wellFormed_create (restart_ok hRestart).1

/- A registration's answer leaves the slots alone. -/
theorem slots_grant
    (r : Registry)
    (node : Node)
    (assignment : Option (Int × Int))
    (orchIndex : Option Nat) :
    (r.grant cfg node assignment orchIndex).2.topo.slots =
      r.topo.slots := by
  unfold grant
  cases cfg.deriveNodeKey node.nodeId with
  | none =>
      simp only
      split
      · rfl
      · rfl
  | some key =>
      simp only [saveState_topo]
      split
      · rfl
      · rfl

theorem wellFormed_grant
    (r : Registry)
    (hWf : r.topo.WellFormed)
    (node : Node)
    (assignment : Option (Int × Int))
    (orchIndex : Option Nat) :
    (r.grant cfg node assignment orchIndex).2.topo.WellFormed :=
  by
  have hSeed :
      (if node.nodeId ∈ cfg.seedNodes then
        r.topo.setTrusted node.nodeId
      else r.topo).WellFormed := by
    split
    · exact hWf.setTrusted _
    · exact hWf
  unfold grant
  simp only
  split
  · exact hSeed
  · simp only [saveState_topo]
    exact
      hSeed.modifyNode _ (fun _ => rfl) (fun _ => rfl)

theorem wellFormed_register
    {r : Registry}
    (hWf : r.topo.WellFormed)
    (node : Node)
    (now : ℚ)
    (preferRange : Option PreferRange) :
    (r.register cfg node now preferRange).2.topo.WellFormed :=
  by
  have hOrch := hWf.registerOrchestrator node now
  have hSlot := hWf.register node now preferRange
  unfold register
  split
  · exact hWf
  · split
    · exact hWf
    · split
      · split
        · rename_i e topo hEq
          rw [hEq] at hOrch
          exact hOrch
        · rename_i topo hEq
          rw [hEq] at hOrch
          exact
            wellFormed_grant cfg
              { r with
                topo := topo
                orchSeq := r.orchSeq + 1 }
              hOrch node none (some (r.orchSeq % 2 ^ 15))
      · split
        · rename_i e topo hEq
          rw [hEq] at hSlot
          exact hSlot
        · rename_i slot topo hEq
          rw [hEq] at hSlot
          exact
            wellFormed_grant cfg { r with topo := topo } hSlot
              node (some (slot.start, slot.stop)) none

/- Every operation keeps the topology well formed. -/
theorem wellFormed_step
    {r : Registry}
    (hWf : r.topo.WellFormed)
    (op : RegistryOp) :
    (r.step cfg op).topo.WellFormed := by
  cases op with
  | register node now preferRange =>
      exact wellFormed_register cfg hWf node now preferRange
  | heartbeat nodeId now => exact hWf.heartbeat nodeId now
  | drain nodeId => exact hWf.drain nodeId
  | markReady nodeId => exact hWf.markReady nodeId
  | markSuspect nodeId => exact hWf.markSuspect nodeId
  | setTrusted nodeId => exact hWf.setTrusted nodeId
  | setRtt nodeId ms => exact hWf.setRtt nodeId ms
  | recordCheck nodeId ok promoteAfter strikeMax =>
      have hTopo :=
        hWf.recordCheck nodeId ok promoteAfter strikeMax
      simp only [step, recordCheck]
      split
      · simpa using hTopo
      · exact hTopo
  | tick now => exact (hWf.reap now).purge now
  | acquireRoute session => simpa [step] using hWf
  | releaseRoute session => exact hWf
  | acquireEntry session => simpa [step] using hWf
  | releaseEntry session => simpa [step] using hWf
  | recordWork route paidRaw => simpa [step] using hWf
  | settle minPayoutRaw => simpa [step] using hWf
  | restart =>
      simp only [step]
      split
      · exact hWf
      · rename_i r' hRestart
        exact wellFormed_restart cfg hRestart
  | disk up => exact hWf

theorem wellFormed_run
    {r : Registry}
    (hWf : r.topo.WellFormed)
    (ops : List RegistryOp) :
    (r.run cfg ops).topo.WellFormed := by
  induction ops generalizing r with
  | nil => exact hWf
  | cons op ops ih => exact ih (wellFormed_step cfg hWf op)

theorem wellFormed_create
    {r : Registry}
    (hCreate : create cfg = .ok r) :
    r.topo.WellFormed := by
  rcases create_ok hCreate with ⟨topo, hTopo, rfl⟩
  exact Topology.wellFormed_create hTopo

/- Every control plane has a well-formed topology. -/
theorem Reachable.wellFormed
    {r : Registry}
    (hReach : Reachable cfg r) :
    r.topo.WellFormed := by
  rcases hReach with ⟨r₀, ops, hCreate, rfl⟩
  exact wellFormed_run cfg (wellFormed_create cfg hCreate) ops

end Registry

end CircuitDllm

------------------------------------------------------------
-- Routes of a Well-Formed Topology
------------------------------------------------------------

namespace CircuitDllm

namespace Registry

variable {r : Registry}

/- A routable holder of a slot is in the table, there. -/
theorem holder_slot
    (hWf : r.topo.WellFormed)
    {slot : Slot}
    (hSlot : slot ∈ r.topo.slots)
    {n : Node}
    (hMem : n ∈ r.topo.holders slot.index) :
    n.nodeId ∈ slot.holders ∧
      r.topo.nodes.get? n.nodeId = some n ∧
      n.state = .ready ∧ n.slot = some slot.index := by
  rw [r.topo.mem_holders hSlot,
    Topology.mem_liveHolders] at hMem
  rcases hMem with ⟨h, hHolder, hNode, hReady⟩
  have hId := hWf.keyed h n hNode
  subst hId
  exact
    ⟨hHolder, hNode, hReady,
      hWf.slotOf slot hSlot _ hHolder n hNode⟩

/- The node of a route for a slot is in the table, there. -/
theorem acquireRoute_slot
    (hWf : r.topo.WellFormed)
    {session : Nat}
    {route : List Node}
    (hOk : (r.acquireRoute session).1 = .ok route)
    {k : Nat}
    {n : Node}
    (hK : route[k]? = some n) :
    r.topo.nodes.get? n.nodeId = some n ∧
      n.state = .ready ∧ n.slot = some k := by
  rcases r.holder_of_acquireRoute hOk hK with
    ⟨slot, hSlot, rfl, hMem⟩
  exact (holder_slot hWf hSlot hMem).2

/- The nodes of a route are different. -/
theorem nodup_acquireRoute
    (hWf : r.topo.WellFormed)
    {session : Nat}
    {route : List Node}
    (hOk : (r.acquireRoute session).1 = .ok route) :
    (route.map (·.nodeId)).Nodup := by
  rw [List.nodup_iff_injective_getElem]
  rintro ⟨i, hI⟩ ⟨j, hJ⟩ hEq
  simp only [List.length_map] at hI hJ
  have hNodeI :=
    acquireRoute_slot hWf hOk (List.getElem?_eq_getElem hI)
  have hNodeJ :=
    acquireRoute_slot hWf hOk (List.getElem?_eq_getElem hJ)
  simp only [List.getElem_map] at hEq
  rw [hEq, hNodeJ.1] at hNodeI
  have hSame := Option.some.inj hNodeI.1
  have hSlots := hNodeI.2.2
  rw [← hSame, hNodeJ.2.2] at hSlots
  simpa using (Option.some.inj hSlots).symm

end Registry

end CircuitDllm
