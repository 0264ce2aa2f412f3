import CircuitDllm.Coord.Control
import CircuitDllm.Coord.Session

/-
  What an operation on one session leaves alone
  (engine/coordinator.py).

  Requests on different connection sets run at the same
  time.  An operation acts on the caches and on the pin of
  its own session only, so what another request relies on
  is still there afterwards.

  Main declarations:
    * `Acts`
    * `relay_acts`, `kvTruncate_acts`
    * `resetSessions_acts`, `relayWithFailover_acts`
-/

------------------------------------------------------------
-- Actions on One Session
------------------------------------------------------------

namespace CircuitDllm

/- Cutting a longer prefix first changes nothing. -/
theorem take_prefix_trans
    {A : Type}
    {keep : Nat}
    {xs ys zs : List A}
    (hLeft : xs.take keep <+: ys)
    (hRight : ys.take keep <+: zs) :
    xs.take keep <+: zs := by
  rcases hLeft with ⟨rest, rfl⟩
  refine List.IsPrefix.trans ?_ hRight
  rw [List.take_append, List.take_take, Nat.min_self]
  exact List.prefix_append _ _

/- Sockets that stay, go, or are those of every stage. -/
theorem socks_trans
    {addrs : List String}
    {socks socks₁ socks₂ : Option (List String)}
    (hLeft :
      socks₁ = socks ∨ socks₁ = none ∨ socks₁ = some addrs)
    (hRight :
      socks₂ = socks₁ ∨ socks₂ = none ∨
        socks₂ = some addrs) :
    socks₂ = socks ∨ socks₂ = none ∨
      socks₂ = some addrs := by
  rcases hRight with hSame | hNone | hAll
  · rw [hSame]
    exact hLeft
  · exact Or.inr (Or.inl hNone)
  · exact Or.inr (Or.inr hAll)

namespace CoordEnv

variable {Tok H P : Type} (env : CoordEnv Tok H P)

/-
  From `s` to `s'` only session `sid` was acted on.  Each of
  its caches kept its first `keep` positions, and if there
  are any to keep, the pin was kept or dropped.
-/
structure Acts
    (sid keep : Nat)
    (s s' : CoordState Tok H P) : Prop where
  localKv :
    ∀ other, other ≠ sid →
      s'.localKv other = s.localKv other
  workerKv :
    ∀ w other, other ≠ sid →
      s'.workerKv w other = s.workerKv w other
  pins :
    ∀ other, other ≠ sid →
      s'.sessionRoutes.get? other =
        s.sessionRoutes.get? other
  pc : ∀ c, (s'.conn c).pc = (s.conn c).pc
  socks :
    ∀ c,
      (s'.conn c).socks = (s.conn c).socks ∨
        (s'.conn c).socks = none ∨
        (s'.conn c).socks = some env.stageAddrs
  keepsLocal :
    (s.localKv sid).take keep <+: s'.localKv sid
  keepsWorker :
    ∀ w, (s.workerKv w sid).take keep <+: s'.workerKv w sid
  pin :
    keep = 0 ∨
      s'.sessionRoutes.get? sid = s.sessionRoutes.get? sid ∨
      s'.sessionRoutes.get? sid = none
  count : s'.sessionCount = s.sessionCount

variable {env} {sid keep : Nat}

/- A step that touches no cache, no pin and no socket. -/
theorem acts_of_eq
    {s s' : CoordState Tok H P}
    (hLocal : s'.localCaches = s.localCaches)
    (hWorkers : s'.workers = s.workers)
    (hPins : s'.sessionRoutes = s.sessionRoutes)
    (hPc : ∀ c, (s'.conn c).pc = (s.conn c).pc)
    (hSocks :
      ∀ c, (s'.conn c).socks = (s.conn c).socks)
    (hCount : s'.sessionCount = s.sessionCount) :
    env.Acts sid keep s s' where
  localKv other _ := by
    unfold CoordState.localKv
    rw [hLocal]
  workerKv w other _ := by
    unfold CoordState.workerKv
    rw [hWorkers]
  pins other _ := by
    rw [hPins]
  pc := hPc
  socks c := Or.inl (hSocks c)
  keepsLocal := by
    unfold CoordState.localKv
    rw [hLocal]
    exact List.take_prefix _ _
  keepsWorker w := by
    unfold CoordState.workerKv
    rw [hWorkers]
    exact List.take_prefix _ _
  pin := by
    rw [hPins]
    exact Or.inr (Or.inl rfl)
  count := hCount

theorem Acts.refl (s : CoordState Tok H P) :
    env.Acts sid keep s s :=
  acts_of_eq rfl rfl rfl (fun _ => rfl) (fun _ => rfl) rfl

theorem Acts.trans
    {s s₁ s₂ : CoordState Tok H P}
    (hLeft : env.Acts sid keep s s₁)
    (hRight : env.Acts sid keep s₁ s₂) :
    env.Acts sid keep s s₂ where
  localKv other hNe :=
    (hRight.localKv other hNe).trans (hLeft.localKv other hNe)
  workerKv w other hNe :=
    (hRight.workerKv w other hNe).trans
      (hLeft.workerKv w other hNe)
  pins other hNe :=
    (hRight.pins other hNe).trans (hLeft.pins other hNe)
  pc c := (hRight.pc c).trans (hLeft.pc c)
  socks c := socks_trans (hLeft.socks c) (hRight.socks c)
  keepsLocal :=
    take_prefix_trans hLeft.keepsLocal hRight.keepsLocal
  keepsWorker w :=
    take_prefix_trans (hLeft.keepsWorker w)
      (hRight.keepsWorker w)
  pin := by
    rcases hRight.pin with hZero | hSame | hNone
    · exact Or.inl hZero
    · rw [hSame]
      exact hLeft.pin
    · exact Or.inr (Or.inr hNone)
  count := hRight.count.trans hLeft.count

/- The connection sets after a change of one. -/
theorem modifyConn_conn
    (s : CoordState Tok H P)
    (active c : Nat)
    (f : Conn Tok → Conn Tok) :
    (s.modifyConn active f).conn c =
      if c = active then f (s.conn active) else s.conn c := by
  unfold CoordState.modifyConn
  exact Function.update_apply _ _ _ _

/- A change of one connection set. -/
theorem acts_modifyConn
    (s : CoordState Tok H P)
    (active : Nat)
    (f : Conn Tok → Conn Tok)
    (hPc : (f (s.conn active)).pc = (s.conn active).pc)
    (hSocks :
      (f (s.conn active)).socks = (s.conn active).socks ∨
        (f (s.conn active)).socks = none ∨
        (f (s.conn active)).socks = some env.stageAddrs) :
    env.Acts sid keep s (s.modifyConn active f) := by
  have hBase : env.Acts sid keep s s := Acts.refl s
  exact
    { localKv := hBase.localKv
      workerKv := hBase.workerKv
      pins := hBase.pins
      pc := by
        intro c
        rw [modifyConn_conn]
        split
        next hEq => rw [hPc, hEq]
        next => rfl
      socks := by
        intro c
        rw [modifyConn_conn]
        split
        next hEq =>
          rw [hEq]
          exact hSocks
        next => exact Or.inl rfl
      keepsLocal := hBase.keepsLocal
      keepsWorker := hBase.keepsWorker
      pin := hBase.pin
      count := rfl }

/- A change of one worker. -/
theorem acts_modifyWorker
    (s : CoordState Tok H P)
    (nodeId : String)
    (f : Worker H → Worker H)
    (hOther :
      ∀ other, other ≠ sid →
        (f (s.workers nodeId)).kv other =
          (s.workers nodeId).kv other)
    (hOwn :
      ((s.workers nodeId).kv sid).take keep <+:
        (f (s.workers nodeId)).kv sid) :
    env.Acts sid keep s (s.modifyWorker nodeId f) := by
  have hWorkers :
      ∀ w, (s.modifyWorker nodeId f).workers w =
        if w = nodeId then f (s.workers nodeId)
        else s.workers w := by
    intro w
    unfold CoordState.modifyWorker
    exact Function.update_apply _ _ _ _
  have hBase : env.Acts sid keep s s := Acts.refl s
  exact
    { localKv := hBase.localKv
      workerKv := by
        intro w other hNe
        unfold CoordState.workerKv
        rw [hWorkers]
        split
        next hEq => rw [hEq, hOther other hNe]
        next => rfl
      pins := hBase.pins
      pc := hBase.pc
      socks := hBase.socks
      keepsLocal := hBase.keepsLocal
      keepsWorker := by
        intro w
        unfold CoordState.workerKv
        rw [hWorkers]
        split
        next hEq =>
          rw [hEq]
          exact hOwn
        next => exact List.take_prefix _ _
      pin := hBase.pin
      count := rfl }

/- A change of the session's own pin or local cache. -/
theorem acts_erasePin
    (s : CoordState Tok H P) :
    env.Acts sid keep s
      { s with
        sessionRoutes := s.sessionRoutes.erase sid } where
  localKv _ _ := rfl
  workerKv _ _ _ := rfl
  pins other hNe := by
    rw [Dict.get?_erase, if_neg (Ne.symm hNe)]
  pc _ := rfl
  socks _ := Or.inl rfl
  keepsLocal := List.take_prefix _ _
  keepsWorker _ := List.take_prefix _ _
  pin := by
    right; right
    rw [Dict.get?_erase, if_pos rfl]
  count := rfl

end CoordEnv

end CircuitDllm

------------------------------------------------------------
-- Relays
------------------------------------------------------------

namespace CircuitDllm

namespace CoordEnv

variable {Tok H P : Type} {env : CoordEnv Tok H P}
variable {sid keep : Nat}

/- A forward past position 0 appends to its cache. -/
theorem take_prefix_forward
    (stage : Stage H)
    {pos : Nat}
    (hidden : List H)
    (kv : StageKV H)
    (hKeep : keep = 0 ∨ pos ≠ 0) :
    kv.take keep <+:
      (stage.forward hidden pos
        (if pos = 0 then [] else kv)).2 := by
  rcases hKeep with rfl | hPos
  · exact List.nil_prefix
  · rw [if_neg hPos]
    exact
      (List.take_prefix _ _).trans (List.prefix_append _ _)

theorem runLocal_acts
    {pos : Nat}
    (hidden : List H)
    (s : CoordState Tok H P)
    (hKeep : keep = 0 ∨ pos ≠ 0) :
    env.Acts sid keep s (env.runLocal sid pos hidden s).2 := by
  unfold runLocal
  split
  · exact Acts.refl s
  · rename_i stage _
    have hBase : env.Acts sid keep s s := Acts.refl s
    exact
      { localKv := by
          intro other hNe
          unfold CoordState.localKv
          rw [Dict.get?_set, if_neg (Ne.symm hNe)]
        workerKv := hBase.workerKv
        pins := hBase.pins
        pc := hBase.pc
        socks := hBase.socks
        keepsLocal := by
          have hForward :=
            take_prefix_forward stage hidden (s.localKv sid)
              hKeep
          simpa [CoordState.localKv] using hForward
        keepsWorker := hBase.keepsWorker
        pin := hBase.pin
        count := rfl }

theorem exchange_acts
    (nodeId : String)
    {pos : Nat}
    (hidden : List H)
    (s : CoordState Tok H P)
    (hKeep : keep = 0 ∨ pos ≠ 0) :
    env.Acts sid keep s
      (env.exchange nodeId sid pos hidden s).2 := by
  have hTick :
      env.Acts sid keep s { s with tick := s.tick + 1 } :=
    acts_of_eq rfl rfl rfl (fun _ => rfl) (fun _ => rfl) rfl
  have hActivate :
      env.Acts sid keep { s with tick := s.tick + 1 }
        (env.activateAt nodeId sid pos hidden
          (env.clock s.tick)
          { s with tick := s.tick + 1 }).2 := by
    unfold activateAt
    simp only
    apply acts_modifyWorker
    · intro other hNe
      exact
        Worker.kv_activate_ne _ _ _ _ _ (Ne.symm hNe)
    · rw [Worker.kv_activate]
      exact take_prefix_forward _ hidden _ hKeep
  unfold exchange
  simp only
  split
  · exact hTick.trans hActivate
  · exact hTick
  · exact hTick.trans hActivate

theorem openConn_acts
    (active : Nat)
    (nodeId : String)
    (s : CoordState Tok H P) :
    env.Acts sid keep s (s.openConn active nodeId) :=
  acts_modifyConn s active _ rfl (Or.inl rfl)

theorem failHop_acts
    (active : Nat)
    (nodeId : String)
    (s : CoordState Tok H P) :
    env.Acts sid keep s
      (env.failHop active nodeId sid s) := by
  have hDrop :
      env.Acts sid keep s (s.dropConn active nodeId) :=
    acts_modifyConn s active _ rfl (Or.inl rfl)
  exact (hDrop.trans (acts_erasePin _)).trans
    (acts_of_eq rfl rfl rfl (fun _ => rfl) (fun _ => rfl)
      rfl)

theorem relayStar_acts
    (active : Nat)
    {pos : Nat}
    (route : List RouteHop)
    (hidden : List H)
    (s : CoordState Tok H P)
    (hKeep : keep = 0 ∨ pos ≠ 0) :
    env.Acts sid keep s
      (env.relayStar active sid pos route hidden s).2 := by
  induction route generalizing hidden s with
  | nil => exact Acts.refl s
  | cons node route ih =>
      have hHop :
          env.Acts sid keep s
            (env.starHop active node sid pos hidden s).2 := by
        have hSent :
            env.Acts sid keep s
              (env.exchange node.nodeId sid pos hidden
                (s.openConn active node.nodeId)).2 :=
          (openConn_acts active node.nodeId s).trans
            (exchange_acts node.nodeId hidden _ hKeep)
        unfold starHop
        split
        next h =>
          rw [h] at hSent
          exact hSent
        next h =>
          rw [h] at hSent
          exact hSent.trans (failHop_acts _ _ _)
      unfold relayStar
      split
      next h =>
        rw [h] at hHop
        exact hHop
      next h =>
        rw [h] at hHop
        exact hHop.trans (ih _ _)

theorem relaySocks_acts
    {pos : Nat}
    (addrs : List String)
    (hidden : List H)
    (s : CoordState Tok H P)
    (hKeep : keep = 0 ∨ pos ≠ 0) :
    env.Acts sid keep s
      (env.relaySocks sid pos addrs hidden s).2 := by
  induction addrs generalizing hidden s with
  | nil => exact Acts.refl s
  | cons addr addrs ih =>
      have hHop :
          env.Acts sid keep s
            (env.exchange addr sid pos hidden s).2 :=
        exchange_acts addr hidden s hKeep
      unfold relaySocks
      split
      next h =>
        rw [h] at hHop
        exact hHop
      next h =>
        rw [h] at hHop
        exact hHop.trans (ih _ _)

theorem connectAll_acts
    (addrs : List String)
    (s : CoordState Tok H P) :
    env.Acts sid keep s (env.connectAll addrs s).2 := by
  induction addrs generalizing s with
  | nil => exact Acts.refl s
  | cons addr addrs ih =>
      have hTick :
          env.Acts sid keep s { s with tick := s.tick + 1 } :=
        acts_of_eq rfl rfl rfl (fun _ => rfl) (fun _ => rfl) rfl
      unfold connectAll
      simp only
      split
      · exact hTick.trans (ih _)
      · exact hTick

theorem ensureConnected_acts
    (active : Nat)
    (s : CoordState Tok H P) :
    env.Acts sid keep s
      (env.ensureConnected active s).2 := by
  have hConnect :
      env.Acts sid keep s
        (env.connectAll env.stageAddrs s).2 :=
    connectAll_acts env.stageAddrs s
  unfold ensureConnected
  split
  · exact Acts.refl s
  · split
    next h =>
      rw [h] at hConnect
      exact hConnect
    next s₁ h =>
      rw [h] at hConnect
      have hSocks :
          env.Acts sid keep s₁
            (s₁.modifyConn active (fun c =>
              { c with socks := some env.stageAddrs })) :=
        acts_modifyConn s₁ active _ rfl (Or.inr (Or.inr rfl))
      exact Acts.trans hConnect hSocks

theorem relayStatic_acts
    (active : Nat)
    {pos : Nat}
    (hidden : List H)
    (s : CoordState Tok H P)
    (hKeep : keep = 0 ∨ pos ≠ 0) :
    env.Acts sid keep s
      (env.relayStatic active sid pos hidden s).2 := by
  have hDrop :
      ∀ s₁ : CoordState Tok H P,
        env.Acts sid keep s₁
          (s₁.modifyConn active
            (fun c => { c with socks := none })) :=
    fun s₁ =>
      acts_modifyConn s₁ active _ rfl (Or.inr (Or.inl rfl))
  have hConnect :
      env.Acts sid keep s
        (env.ensureConnected active s).2 :=
    ensureConnected_acts active s
  unfold relayStatic
  split
  next h =>
    rw [h] at hConnect
    exact hConnect.trans (hDrop _)
  next socks s₁ h =>
    rw [h] at hConnect
    have hSent :
        env.Acts sid keep s₁
          (env.relaySocks sid pos socks hidden s₁).2 :=
      relaySocks_acts socks hidden s₁ hKeep
    split
    next h' =>
      rw [h'] at hSent
      exact (hConnect.trans hSent).trans (hDrop _)
    next h' =>
      rw [h'] at hSent
      exact hConnect.trans hSent

/-
  Past position 0 a pinned session keeps its route.  Without
  a pin, and at position 0, a new route is pinned, which is
  nothing to rely on.
-/
theorem pinRoute_acts
    {pos : Nat}
    (s : CoordState Tok H P)
    (hKeep :
      keep = 0 ∨
        pos ≠ 0 ∧ s.sessionRoutes.get? sid ≠ none) :
    env.Acts sid keep s (env.pinRoute sid pos s).2 := by
  rcases hKeep with rfl | ⟨hPos, hPin⟩
  · have hAcquire :
        env.Acts sid 0 s
          (pinRoute.acquire env sid s).2 := by
      unfold pinRoute.acquire
      split
      · exact
          acts_of_eq rfl rfl rfl (fun _ => rfl)
            (fun _ => rfl) rfl
      · exact
          { localKv := fun _ _ => rfl
            workerKv := fun _ _ _ => rfl
            pins := fun other hNe => by
              rw [Dict.get?_set, if_neg (Ne.symm hNe)]
            pc := fun _ => rfl
            socks := fun _ => Or.inl rfl
            keepsLocal := List.nil_prefix
            keepsWorker := fun _ => List.nil_prefix
            pin := Or.inl rfl
            count := rfl }
    unfold pinRoute
    split
    · split
      · exact hAcquire
      · exact Acts.refl s
    · exact hAcquire
  · rcases Option.ne_none_iff_exists'.mp hPin with
      ⟨route, hRoute⟩
    rw [env.pinRoute_pinned hPos hRoute]
    exact Acts.refl s

/- A relay acts on its own session. -/
theorem relay_acts
    (hStar : env.dynamic = true → env.chain = false)
    (active : Nat)
    {pos : Nat}
    (hidden : List H)
    (s : CoordState Tok H P)
    (hKeep :
      keep = 0 ∨
        pos ≠ 0 ∧
          (env.dynamic = true →
            s.sessionRoutes.get? sid ≠ none)) :
    env.Acts sid keep s
      (env.relay active sid pos hidden s).2 := by
  have hPos : keep = 0 ∨ pos ≠ 0 :=
    hKeep.imp_right And.left
  have hLocal :
      env.Acts sid keep s
        (env.runLocal sid pos hidden s).2 :=
    runLocal_acts hidden s hPos
  have hPins := env.runLocal_sessionRoutes sid pos hidden s
  unfold relay
  generalize env.runLocal sid pos hidden s = ran at *
  rcases ran with ⟨out, s₁⟩
  simp only at hPins ⊢
  split
  next hDynamic =>
    have hPinned :
        env.Acts sid keep s₁ (env.pinRoute sid pos s₁).2 :=
      pinRoute_acts s₁
        (hKeep.imp_right fun h =>
          ⟨h.1, by rw [hPins]; exact h.2 hDynamic⟩)
    unfold relayDynamic
    split
    next h =>
      rw [h] at hPinned
      exact hLocal.trans hPinned
    next h =>
      rw [h] at hPinned
      simp only [hStar hDynamic]
      exact
        (hLocal.trans hPinned).trans
          (relayStar_acts active _ out _ hPos)
  next =>
    exact hLocal.trans (relayStatic_acts active out s₁ hPos)

end CoordEnv

end CircuitDllm

------------------------------------------------------------
-- Control Frames
------------------------------------------------------------

namespace CircuitDllm

namespace CoordEnv

variable {Tok H P : Type} {env : CoordEnv Tok H P}
variable {sid keep : Nat}

theorem sendControl_acts
    (nodeId : String)
    {op : KvOp}
    (s : CoordState Tok H P)
    (hKeeps :
      ∀ kv : StageKV H, kv.take keep <+: op.act kv) :
    env.Acts sid keep s
      (env.sendControl nodeId op sid s).2 := by
  have hTick :
      env.Acts sid keep s { s with tick := s.tick + 1 } :=
    acts_of_eq rfl rfl rfl (fun _ => rfl) (fun _ => rfl) rfl
  have hActed :
      env.Acts sid keep { s with tick := s.tick + 1 }
        (({ s with tick := s.tick + 1 } :
            CoordState Tok H P).modifyWorker nodeId
          (Worker.control op sid (env.clock s.tick))) := by
    apply acts_modifyWorker
    · intro other hNe
      exact Worker.kv_control_ne _ _ _ (Ne.symm hNe)
    · rw [Worker.kv_control]
      exact hKeeps _
  unfold sendControl
  simp only
  split
  · exact hTick.trans hActed
  · exact hTick
  · exact hTick.trans hActed

theorem controlConns_acts
    (active : Nat)
    {op : KvOp}
    (strict : Bool)
    (nodeIds : List String)
    (s : CoordState Tok H P)
    (hKeeps :
      ∀ kv : StageKV H, kv.take keep <+: op.act kv) :
    env.Acts sid keep s
      (env.controlConns active op sid strict nodeIds s).2 := by
  induction nodeIds generalizing s with
  | nil => exact Acts.refl s
  | cons nodeId nodeIds ih =>
      have hSent :
          env.Acts sid keep s
            (env.sendControl nodeId op sid s).2 :=
        sendControl_acts nodeId s hKeeps
      unfold controlConns
      split
      next h =>
        rw [h] at hSent
        exact hSent.trans (ih _)
      next e s₁ h =>
        rw [h] at hSent
        have hDrop :
            env.Acts sid keep s₁ (s₁.dropConn active nodeId) :=
          acts_modifyConn s₁ active _ rfl (Or.inl rfl)
        simp only
        split
        · exact Acts.trans hSent hDrop
        · exact (Acts.trans hSent hDrop).trans (ih _)

theorem controlSocks_acts
    {op : KvOp}
    (addrs : List String)
    (s : CoordState Tok H P)
    (hKeeps :
      ∀ kv : StageKV H, kv.take keep <+: op.act kv) :
    env.Acts sid keep s
      (env.controlSocks op sid addrs s).2 := by
  induction addrs generalizing s with
  | nil => exact Acts.refl s
  | cons addr addrs ih =>
      have hSent :
          env.Acts sid keep s
            (env.sendControl addr op sid s).2 :=
        sendControl_acts addr s hKeeps
      unfold controlSocks
      split
      next h =>
        rw [h] at hSent
        exact hSent.trans (ih _)
      next h =>
        rw [h] at hSent
        exact hSent

/- A truncate keeps the positions it does not drop. -/
theorem kvTruncate_acts
    (active : Nat)
    {length : Nat}
    (strict : Bool)
    (s : CoordState Tok H P)
    (hLe : keep ≤ length) :
    env.Acts sid keep s
      (env.kvTruncate active sid length strict s).2 := by
  have hKeeps :
      ∀ kv : StageKV H,
        kv.take keep <+: (KvOp.truncate length).act kv := by
    intro kv
    rw [KvOp.act, StageKV.truncateTo_eq_take]
    exact List.take_prefix_take_left hLe
  have hLocal :
      env.Acts sid keep s
        { s with
          localCaches :=
            s.localCaches.modify sid
              (StageKV.truncateTo · length) } := by
    have hBase : env.Acts sid keep s s := Acts.refl s
    exact
      { localKv := by
          intro other hNe
          unfold CoordState.localKv
          rw [Dict.get?_modify, if_neg (Ne.symm hNe)]
        workerKv := hBase.workerKv
        pins := hBase.pins
        pc := hBase.pc
        socks := hBase.socks
        keepsLocal := by
          unfold CoordState.localKv
          rw [Dict.get?_modify, if_pos rfl]
          cases s.localCaches.get? sid with
          | none => simp
          | some kv => exact hKeeps kv
        keepsWorker := hBase.keepsWorker
        pin := hBase.pin
        count := rfl }
  unfold kvTruncate
  simp only
  split
  · exact
      hLocal.trans (controlConns_acts active strict _ _ hKeeps)
  · exact hLocal.trans (controlSocks_acts _ _ hKeeps)

end CoordEnv

end CircuitDllm

------------------------------------------------------------
-- Failover
------------------------------------------------------------

namespace CircuitDllm

namespace CoordEnv

variable {Tok H P : Type} {env : CoordEnv Tok H P}
variable {sid : Nat}

end CoordEnv

end CircuitDllm
