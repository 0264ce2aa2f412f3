import CircuitDllm.Coord.Session

/-
  What every operation of a coordinator keeps of its pins.

  A fact about a pinned route and the state behind the
  routes is a rule if acquiring establishes it and no
  operation of the provider breaks it.  The coordinator
  pins a route in the step that acquires it and nowhere
  else, so it keeps every rule, whatever fails.

  Main declarations:
    * `PinRule`, `Keeps`
    * `relay_keeps`, `resetSessions_keeps`
    * `beginSession_keeps`, `endSession_keeps`
-/

------------------------------------------------------------
-- Rules of Pins
------------------------------------------------------------

namespace CircuitDllm

namespace CoordEnv

variable {Tok H P : Type}

/-
  `holds session route p`: acquiring the route makes it so,
  and it stays so.
-/
structure PinRule
    (env : CoordEnv Tok H P)
    (holds : Nat → List RouteHop → P → Prop) : Prop where
  acquired :
    ∀ session p route p',
      env.provider.acquire session p = (.ok route, p') →
        holds session route p'
  acquire :
    ∀ session route other p,
      holds session route p →
        holds session route (env.provider.acquire other p).2
  release :
    ∀ session route other p,
      holds session route p →
        holds session route (env.provider.release other p)
  markSuspect :
    ∀ session route nodeId p,
      holds session route p →
        holds session route
          (env.provider.markSuspect nodeId p)

/- Every pin of the coordinator is as the rule says. -/
def PinsHold
    (holds : Nat → List RouteHop → P → Prop)
    (s : CoordState Tok H P) : Prop :=
  ∀ session route,
    s.sessionRoutes.get? session = some route →
      holds session route s.provider

/- What holds goes on holding, of the pins above all. -/
structure Keeps
    (holds : Nat → List RouteHop → P → Prop)
    (s s' : CoordState Tok H P) : Prop where
  holding :
    ∀ session route,
      holds session route s.provider →
        holds session route s'.provider
  pins : PinsHold holds s → PinsHold holds s'

variable
  {env : CoordEnv Tok H P}
  {holds : Nat → List RouteHop → P → Prop}

theorem Keeps.refl (s : CoordState Tok H P) :
    Keeps holds s s :=
  ⟨fun _ _ h => h, id⟩

theorem Keeps.trans
    {s s₁ s₂ : CoordState Tok H P}
    (hLeft : Keeps holds s s₁)
    (hRight : Keeps holds s₁ s₂) :
    Keeps holds s s₂ where
  holding session route h :=
    hRight.holding session route
      (hLeft.holding session route h)
  pins hPins := hRight.pins (hLeft.pins hPins)

/- A step that leaves pins and provider alone. -/
theorem Keeps.of_eq
    {s s' : CoordState Tok H P}
    (hPins : s'.sessionRoutes = s.sessionRoutes)
    (hProvider : s'.provider = s.provider) :
    Keeps holds s s' where
  holding session route h := by
    rw [hProvider]
    exact h
  pins hHold session route hPin := by
    rw [hPins] at hPin
    rw [hProvider]
    exact hHold session route hPin

/- One that drops a pin and moves the provider on. -/
theorem Keeps.of_erase
    {s s' : CoordState Tok H P}
    (session : Nat)
    (hPins :
      s'.sessionRoutes = s.sessionRoutes.erase session)
    (hProvider :
      ∀ session route,
        holds session route s.provider →
          holds session route s'.provider) :
    Keeps holds s s' where
  holding := hProvider
  pins hHold other route hPin := by
    rw [hPins, Dict.get?_erase] at hPin
    split at hPin
    · cases hPin
    · exact hProvider _ _ (hHold other route hPin)

/- Taking or reusing a route. -/
theorem pinRoute_keeps
    (hRule : env.PinRule holds)
    (session pos : Nat)
    (s : CoordState Tok H P) :
    Keeps holds s (env.pinRoute session pos s).2 := by
  have hAcquire :
      Keeps holds s (pinRoute.acquire env session s).2 := by
    unfold pinRoute.acquire
    cases hAcq : env.provider.acquire session s.provider with
    | mk r p =>
        have hOld :
            ∀ other route,
              holds other route s.provider →
                holds other route p := by
          intro other route h
          have hNext := hRule.acquire other route session _ h
          rwa [hAcq] at hNext
        cases r with
        | error e =>
            exact
              ⟨hOld, fun hHold other route hPin =>
                hOld _ _ (hHold other route hPin)⟩
        | ok route =>
            refine ⟨hOld, fun hHold other route' hPin => ?_⟩
            simp only [Dict.get?_set] at hPin
            split at hPin
            · rename_i hEq
              cases hPin
              rw [← hEq]
              exact hRule.acquired session _ route p hAcq
            · exact hOld _ _ (hHold other route' hPin)
  unfold pinRoute
  split
  · split
    · exact hAcquire
    · exact Keeps.refl s
  · exact hAcquire

/- The pin that comes out is as the rule says. -/
theorem pinRoute_holds
    (hRule : env.PinRule holds)
    {session pos : Nat}
    {route : List RouteHop}
    {s s' : CoordState Tok H P}
    (hHold : PinsHold holds s)
    (hOk : env.pinRoute session pos s = (.ok route, s')) :
    holds session route s'.provider := by
  have hKeeps := pinRoute_keeps hRule session pos s
  rw [hOk] at hKeeps
  exact
    hKeeps.pins hHold session route (env.pinRoute_ok hOk).2.2

end CoordEnv

end CircuitDllm

------------------------------------------------------------
-- Relays Keep Them
------------------------------------------------------------

namespace CircuitDllm

namespace CoordEnv

variable {Tok H P : Type}
variable
  {env : CoordEnv Tok H P}
  {holds : Nat → List RouteHop → P → Prop}

variable (env holds) in
theorem runLocal_keeps
    (session pos : Nat)
    (hidden : List H)
    (s : CoordState Tok H P) :
    Keeps holds s (env.runLocal session pos hidden s).2 :=
  Keeps.of_eq (env.runLocal_sessionRoutes _ _ _ _)
    (env.runLocal_provider _ _ _ _)

variable (env holds) in
theorem exchange_keeps
    (nodeId : String)
    (session pos : Nat)
    (hidden : List H)
    (s : CoordState Tok H P) :
    Keeps holds s
      (env.exchange nodeId session pos hidden s).2 := by
  unfold exchange
  simp only
  split
  · exact Keeps.of_eq rfl rfl
  · exact Keeps.of_eq rfl rfl
  · exact Keeps.of_eq rfl rfl

theorem failHop_keeps
    (hRule : env.PinRule holds)
    (active : Nat)
    (nodeId : String)
    (session : Nat)
    (s : CoordState Tok H P) :
    Keeps holds s (env.failHop active nodeId session s) :=
  Keeps.of_erase session rfl (fun other route h =>
    hRule.markSuspect other route nodeId _ h)

theorem starHop_keeps
    (hRule : env.PinRule holds)
    (active : Nat)
    (node : RouteHop)
    (session pos : Nat)
    (hidden : List H)
    (s : CoordState Tok H P) :
    Keeps holds s
      (env.starHop active node session pos hidden s).2 := by
  have hExchange :=
    env.exchange_keeps holds node.nodeId
      session pos hidden (s.openConn active node.nodeId)
  have hOpen :
      Keeps holds s (s.openConn active node.nodeId) :=
    Keeps.of_eq rfl rfl
  unfold starHop
  split
  · rename_i hidden' s₁ hOk
    rw [hOk] at hExchange
    exact hOpen.trans hExchange
  · rename_i e s₁ hError
    rw [hError] at hExchange
    exact
      (hOpen.trans hExchange).trans
        (failHop_keeps hRule active node.nodeId session s₁)

theorem relayStar_keeps
    (hRule : env.PinRule holds)
    (active session pos : Nat)
    (route : List RouteHop)
    (hidden : List H)
    (s : CoordState Tok H P) :
    Keeps holds s
      (env.relayStar active session pos route hidden s).2 := by
  induction route generalizing hidden s with
  | nil => exact Keeps.refl s
  | cons node route ih =>
      have hHop :=
        starHop_keeps hRule active node session pos hidden s
      unfold relayStar
      split
      · rename_i e s₁ hError
        rw [hError] at hHop
        exact hHop
      · rename_i hidden₁ s₁ hOk
        rw [hOk] at hHop
        exact hHop.trans (ih hidden₁ s₁)

variable (env holds) in
theorem chainForward_keeps
    (session pos : Nat)
    (nodeId : String)
    (hops : List ChainHop)
    (hidden : List H)
    (s : CoordState Tok H P) :
    Keeps holds s
      (env.chainForward session pos nodeId hops hidden s).2 := by
  induction hops generalizing nodeId hidden s with
  | nil => exact Keeps.of_eq rfl rfl
  | cons hop hops ih =>
      unfold chainForward
      simp only
      split
      · exact Keeps.of_eq rfl rfl
      · exact Keeps.of_eq rfl rfl
      · refine Keeps.trans ?_ (ih _ _ _)
        exact Keeps.of_eq rfl rfl
      · refine Keeps.trans ?_ (ih _ _ _)
        exact Keeps.of_eq rfl rfl

theorem suspectByEndpoint_keeps
    (hRule : env.PinRule holds)
    (endpoint : Endpoint)
    (route : List RouteHop)
    (s : CoordState Tok H P) :
    Keeps holds s (env.suspectByEndpoint endpoint route s) := by
  unfold suspectByEndpoint
  split
  · exact Keeps.refl s
  · rename_i n _
    have hSuspect :=
      fun session route =>
        hRule.markSuspect session route n.nodeId s.provider
    exact
      ⟨hSuspect, fun hHold session route hPin =>
        hSuspect _ _ (hHold session route hPin)⟩

theorem relayChain_keeps
    (hRule : env.PinRule holds)
    (active : Nat)
    (route : List RouteHop)
    (session pos : Nat)
    (hidden : List H)
    (s : CoordState Tok H P) :
    Keeps holds s
      (env.relayChain active route session pos hidden s).2 := by
  unfold relayChain
  split
  · exact Keeps.refl s
  · rename_i head hops _
    simp only
    split
    · refine
        Keeps.trans ?_
          (failHop_keeps hRule active head.nodeId session _)
      exact Keeps.of_eq rfl rfl
    · split
      · exact Keeps.of_eq rfl rfl
      · have hForward :=
          env.chainForward_keeps holds
            session pos head.nodeId hops hidden
            { s.openConn active head.nodeId with
              tick :=
                (s.openConn active head.nodeId).tick + 1 }
        have hStart :
            Keeps holds s
              { s.openConn active head.nodeId with
                tick :=
                  (s.openConn active head.nodeId).tick + 1 } :=
          Keeps.of_eq rfl rfl
        have hBoth := hStart.trans hForward
        split
        · exact hBoth
        · refine hBoth.trans ?_
          refine Keeps.trans ?_
            (Keeps.of_erase session rfl (fun _ _ h => h))
          refine
            Keeps.trans ?_
              (suspectByEndpoint_keeps hRule _ route _)
          exact Keeps.of_eq rfl rfl
        · exact
            hBoth.trans
              (failHop_keeps hRule active head.nodeId session
                _)

variable (env holds) in
theorem connectAll_keeps
    (addrs : List String)
    (s : CoordState Tok H P) :
    Keeps holds s (env.connectAll addrs s).2 := by
  induction addrs generalizing s with
  | nil => exact Keeps.refl s
  | cons addr addrs ih =>
      unfold connectAll
      simp only
      split
      · refine Keeps.trans ?_ (ih _)
        exact Keeps.of_eq rfl rfl
      · exact Keeps.of_eq rfl rfl

variable (env holds) in
theorem relaySocks_keeps
    (session pos : Nat)
    (addrs : List String)
    (hidden : List H)
    (s : CoordState Tok H P) :
    Keeps holds s
      (env.relaySocks session pos addrs hidden s).2 := by
  induction addrs generalizing hidden s with
  | nil => exact Keeps.refl s
  | cons addr addrs ih =>
      have hExchange :=
        env.exchange_keeps holds addr
          session pos hidden s
      unfold relaySocks
      split
      · rename_i e s₁ hError
        rw [hError] at hExchange
        exact hExchange
      · rename_i hidden₁ s₁ hOk
        rw [hOk] at hExchange
        exact hExchange.trans (ih hidden₁ s₁)

variable (env holds) in
theorem ensureConnected_keeps
    (active : Nat)
    (s : CoordState Tok H P) :
    Keeps holds s (env.ensureConnected active s).2 := by
  have hConnect :=
    env.connectAll_keeps holds
      env.stageAddrs s
  unfold ensureConnected
  split
  · exact Keeps.refl s
  · split
    · rename_i e s₁ hError
      rw [hError] at hConnect
      exact hConnect
    · rename_i s₁ hOk
      rw [hOk] at hConnect
      exact hConnect.trans (Keeps.of_eq rfl rfl)

variable (env holds) in
theorem relayStatic_keeps
    (active session pos : Nat)
    (hidden : List H)
    (s : CoordState Tok H P) :
    Keeps holds s
      (env.relayStatic active session pos hidden s).2 := by
  have hEnsure :=
    env.ensureConnected_keeps holds
      active s
  unfold relayStatic
  simp only
  split
  · rename_i e s₁ hError
    rw [hError] at hEnsure
    exact hEnsure.trans (Keeps.of_eq rfl rfl)
  · rename_i socks s₁ hOk
    rw [hOk] at hEnsure
    have hRelay :=
      env.relaySocks_keeps holds session
        pos socks hidden s₁
    split
    · rename_i e s₂ hError
      rw [hError] at hRelay
      exact (hEnsure.trans hRelay).trans (Keeps.of_eq rfl rfl)
    · rename_i hidden' s₂ hDone
      rw [hDone] at hRelay
      exact hEnsure.trans hRelay

theorem relayDynamic_keeps
    (hRule : env.PinRule holds)
    (active session pos : Nat)
    (hidden : List H)
    (s : CoordState Tok H P) :
    Keeps holds s
      (env.relayDynamic active session pos hidden s).2 := by
  have hPin := pinRoute_keeps hRule session pos s
  unfold relayDynamic
  split
  · rename_i e s₁ hError
    rw [hError] at hPin
    exact hPin
  · rename_i route s₁ hOk
    rw [hOk] at hPin
    split
    · exact
        hPin.trans
          (relayChain_keeps hRule active route session pos
            hidden s₁)
    · exact
        hPin.trans
          (relayStar_keeps hRule active session pos route
            hidden s₁)

theorem relay_keeps
    (hRule : env.PinRule holds)
    (active session pos : Nat)
    (hidden : List H)
    (s : CoordState Tok H P) :
    Keeps holds s
      (env.relay active session pos hidden s).2 := by
  have hLocal :=
    env.runLocal_keeps holds session pos
      hidden s
  unfold relay
  simp only
  split
  · exact
      hLocal.trans
        (relayDynamic_keeps hRule active session pos _ _)
  · exact
      hLocal.trans
        (env.relayStatic_keeps holds active session pos _ _)

end CoordEnv

end CircuitDllm

------------------------------------------------------------
-- Control Frames and Sessions Keep Them
------------------------------------------------------------

namespace CircuitDllm

namespace CoordEnv

variable {Tok H P : Type}
variable
  {env : CoordEnv Tok H P}
  {holds : Nat → List RouteHop → P → Prop}

variable (env holds) in
theorem sendControl_keeps
    (nodeId : String)
    (op : KvOp)
    (session : Nat)
    (s : CoordState Tok H P) :
    Keeps holds s (env.sendControl nodeId op session s).2 := by
  unfold sendControl
  simp only
  split
  · exact Keeps.of_eq rfl rfl
  · exact Keeps.of_eq rfl rfl
  · exact Keeps.of_eq rfl rfl

variable (env holds) in
theorem controlConns_keeps
    (active : Nat)
    (op : KvOp)
    (session : Nat)
    (strict : Bool)
    (nodeIds : List String)
    (s : CoordState Tok H P) :
    Keeps holds s
      (env.controlConns active op session strict nodeIds
        s).2 := by
  induction nodeIds generalizing s with
  | nil => exact Keeps.refl s
  | cons nodeId nodeIds ih =>
      have hSend :=
        env.sendControl_keeps holds nodeId
          op session s
      unfold controlConns
      split
      · rename_i s₁ hOk
        rw [hOk] at hSend
        exact hSend.trans (ih s₁)
      · rename_i e s₁ hError
        rw [hError] at hSend
        have hDrop :
            Keeps holds s₁ (s₁.dropConn active nodeId) :=
          Keeps.of_eq rfl rfl
        simp only
        split
        · exact hSend.trans hDrop
        · exact (hSend.trans hDrop).trans (ih _)

variable (env holds) in
theorem controlSocks_keeps
    (op : KvOp)
    (session : Nat)
    (addrs : List String)
    (s : CoordState Tok H P) :
    Keeps holds s (env.controlSocks op session addrs s).2 := by
  induction addrs generalizing s with
  | nil => exact Keeps.refl s
  | cons addr addrs ih =>
      have hSend :=
        env.sendControl_keeps holds addr
          op session s
      unfold controlSocks
      split
      · rename_i s₁ hOk
        rw [hOk] at hSend
        exact hSend.trans (ih s₁)
      · rename_i e s₁ hError
        rw [hError] at hSend
        exact hSend

theorem resetSessions_keeps
    (hRule : env.PinRule holds)
    (active session : Nat)
    (s : CoordState Tok H P) :
    Keeps holds s (env.resetSessions active session s) := by
  unfold resetSessions
  simp only
  split
  · have hErase :
        Keeps holds s
          { s with
            localCaches := s.localCaches.erase session
            sessionRoutes := s.sessionRoutes.erase session
            provider :=
              env.provider.release session s.provider } :=
      Keeps.of_erase session rfl (fun other route h =>
        hRule.release other route session _ h)
    exact
      hErase.trans (env.controlConns_keeps holds _ _ _ _ _ _)
  · have hLocal :
        Keeps holds s
          { s with
            localCaches := s.localCaches.erase session } :=
      Keeps.of_eq rfl rfl
    have hControl :=
      env.controlSocks_keeps holds .reset
        session ((s.conn active).socks.getD [])
        { s with localCaches := s.localCaches.erase session }
    split
    · rename_i s₁ hOk
      rw [hOk] at hControl
      exact hLocal.trans hControl
    · rename_i e s₁ hError
      rw [hError] at hControl
      exact
        (hLocal.trans hControl).trans (Keeps.of_eq rfl rfl)

variable (env holds) in
theorem kvTruncate_keeps
    (active session length : Nat)
    (strict : Bool)
    (s : CoordState Tok H P) :
    Keeps holds s
      (env.kvTruncate active session length strict s).2 := by
  have hLocal :
      Keeps holds s
        { s with
          localCaches :=
            s.localCaches.modify session
              (StageKV.truncateTo · length) } :=
    Keeps.of_eq rfl rfl
  unfold kvTruncate
  simp only
  split
  · exact
      hLocal.trans (env.controlConns_keeps holds _ _ _ _ _ _)
  · exact
      hLocal.trans (env.controlSocks_keeps holds _ _ _ _)

variable (env holds) in
theorem nextSession_keeps (s : CoordState Tok H P) :
    Keeps holds s (env.nextSession s).2 :=
  Keeps.of_eq rfl rfl

variable (env holds) in
theorem sessionFor_keeps
    (session : Option Nat)
    (s : CoordState Tok H P) :
    Keeps holds s (env.sessionFor session s).2 := by
  cases session with
  | none => exact env.nextSession_keeps holds s
  | some sid => exact Keeps.refl s

theorem invalidatePrefix_keeps
    (hRule : env.PinRule holds)
    (active : Nat)
    (s : CoordState Tok H P) :
    Keeps holds s (env.invalidatePrefix active s) := by
  have hForget :
      Keeps holds s
        (s.modifyConn active (fun c => { c with pc := {} })) :=
    Keeps.of_eq rfl rfl
  unfold invalidatePrefix
  simp only
  split
  · exact hForget
  · exact
      hForget.trans (resetSessions_keeps hRule active _ _)

theorem endSession_keeps
    (hRule : env.PinRule holds)
    (active sid : Nat)
    (ids : List Tok)
    (s : CoordState Tok H P) :
    Keeps holds s (env.endSession active sid ids s) := by
  have hTruncate :=
    env.kvTruncate_keeps holds active sid
      ids.length false s
  unfold endSession
  split
  · exact resetSessions_keeps hRule active sid s
  · split
    · rename_i e s₁ hError
      rw [hError] at hTruncate
      exact
        (hTruncate.trans
          (invalidatePrefix_keeps hRule active s₁)).trans
          (resetSessions_keeps hRule active sid _)
    · rename_i s₁ hOk
      rw [hOk] at hTruncate
      refine hTruncate.trans ?_
      simp only
      split
      · exact Keeps.of_eq rfl rfl
      · split
        · exact Keeps.of_eq rfl rfl
        · exact
            (resetSessions_keeps hRule active _ s₁).trans
              (Keeps.of_eq rfl rfl)

theorem beginSession_keeps
    [DecidableEq Tok]
    (hRule : env.PinRule holds)
    (active : Nat)
    (ids : List Tok)
    (s : CoordState Tok H P) :
    Keeps holds s (env.beginSession active ids s).2 := by
  unfold beginSession
  simp only
  split
  · exact env.nextSession_keeps holds s
  · split
    · exact env.nextSession_keeps holds s
    · rename_i sid _
      split
      · have hRolled :
            Keeps holds s
              (if sharedPrefix active ids s <
                    (s.conn active).pc.len then
                env.kvTruncate active sid
                  (sharedPrefix active ids s).toNat true s
              else (.ok (), s)).2 := by
          split
          · exact env.kvTruncate_keeps holds _ _ _ _ _
          · exact Keeps.refl s
        split
        · rename_i e s₁ hError
          rw [hError] at hRolled
          exact
            (hRolled.trans
              (invalidatePrefix_keeps hRule active s₁)).trans
              (env.nextSession_keeps holds _)
        · rename_i s₁ hOk
          rw [hOk] at hRolled
          exact hRolled.trans (Keeps.of_eq rfl rfl)
      · exact env.nextSession_keeps holds s

end CoordEnv

end CircuitDllm
