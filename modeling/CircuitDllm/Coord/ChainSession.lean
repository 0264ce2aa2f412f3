import CircuitDllm.Coord.Chain

/-
  A session in chain mode beside the same session in star
  mode (engine/coordinator.py, engine/stage_worker.py).

  KV_CTRL is written to the nodes the coordinator has a
  socket to, and nothing acknowledges it: a worker handles
  it when its thread for that socket comes to it.  In the
  star the next activation of a node follows on the same
  socket.  In the chain this is so for the head alone, the
  other nodes get theirs from the node before them, and the
  coordinator has a socket to them only by chance.

  `postedTrace` is a session with its frames on the way, for
  any schedule of when they are handled.

  Main declarations:
    * `SessionOp`, `PostedState`, `postedTrace`
    * `RollbackFree`, `HandledInTime`
    * `postedTrace_star`
    * `chain_eq_star_iff`
-/

------------------------------------------------------------
-- Operations on a Session
------------------------------------------------------------

namespace CircuitDllm

/- What the coordinator does to a session. -/
inductive SessionOp (H : Type) where
  | relay (pos : Nat) (hidden : List H)
  | truncate (length : Nat)
  | reset

namespace SessionOp

variable {Tok H P : Type}

def run
    (env : CoordEnv Tok H P)
    (active session : Nat) :
    SessionOp H → CoordState Tok H P →
      Except CoordError (List H) × CoordState Tok H P
| .relay pos hidden, s =>
    env.relay active session pos hidden s
| .truncate length, s =>
    match env.kvTruncate active session length false s with
    | (.ok (), s) => (.ok [], s)
    | (.error e, s) => (.error e, s)
| .reset, s => (.ok [], env.resetSessions active session s)

/- The positions in the caches after an operation. -/
def lengthAfter (len : Nat) : SessionOp H → Nat
| .relay pos hidden =>
    (if pos = 0 then 0 else len) + hidden.length
| .truncate length => min length len
| .reset => 0

/- No position in the caches is dropped by KV_CTRL. -/
def RollbackFree : Nat → List (SessionOp H) → Prop
| _, [] => True
| len, op :: ops =>
    (match op with
      | .relay _ _ => True
      | .truncate length => len ≤ length
      | .reset => len = 0) ∧
      RollbackFree (op.lengthAfter len) ops

/- Something is relayed. -/
def HasRelay (ops : List (SessionOp H)) : Prop :=
  ∃ pos hidden, .relay pos hidden ∈ ops

end SessionOp

end CircuitDllm

------------------------------------------------------------
-- Control Operations and Lengths
------------------------------------------------------------

namespace CircuitDllm

/- An operation that drops no position of `len`. -/
def KvOp.Keeps (len : Nat) : KvOp → Prop
| .reset => len = 0
| .truncate length => len ≤ length
| .free => len = 0

/- The positions it leaves of `len`. -/
def KvOp.lengthAfter (len : Nat) : KvOp → Nat
| .reset => 0
| .truncate length => min length len
| .free => 0

theorem KvOp.lengthAfter_le
    (op : KvOp)
    (len : Nat) :
    op.lengthAfter len ≤ len := by
  cases op with
  | reset => exact Nat.zero_le _
  | truncate length => exact Nat.min_le_right _ _
  | free => exact Nat.zero_le _

theorem KvOp.length_act
    {H : Type}
    (op : KvOp)
    (kv : StageKV H) :
    (op.act kv).length = op.lengthAfter kv.length := by
  cases op with
  | reset => rfl
  | truncate length =>
      simp [KvOp.act, KvOp.lengthAfter,
        StageKV.truncateTo_eq_take]
  | free => rfl

/- It is one that leaves such a cache as it is. -/
theorem KvOp.act_eq_self
    {H : Type}
    (op : KvOp)
    (kv : StageKV H) :
    op.act kv = kv ↔ op.Keeps kv.length := by
  cases op with
  | reset => simp [KvOp.act, KvOp.Keeps, eq_comm]
  | truncate length =>
      simp [KvOp.act, KvOp.Keeps,
        StageKV.truncateTo_eq_take]
  | free => simp [KvOp.act, KvOp.Keeps, eq_comm]

theorem KvOp.Keeps.mono
    {op : KvOp}
    {n m : Nat}
    (hKeeps : op.Keeps n)
    (hLe : m ≤ n) :
    op.Keeps m := by
  cases op with
  | reset =>
      simp only [KvOp.Keeps] at hKeeps ⊢
      omega
  | truncate length =>
      simp only [KvOp.Keeps] at hKeeps ⊢
      omega
  | free =>
      simp only [KvOp.Keeps] at hKeeps ⊢
      omega

/- Operations one after the other. -/
def KvOp.actAll
    {H : Type}
    (ops : List KvOp)
    (kv : StageKV H) :
    StageKV H :=
  ops.foldl (fun kv op => op.act kv) kv

section

variable {H : Type}

@[simp] theorem KvOp.actAll_nil (kv : StageKV H) :
    KvOp.actAll [] kv = kv := rfl

@[simp] theorem KvOp.actAll_cons
    (op : KvOp)
    (ops : List KvOp)
    (kv : StageKV H) :
    KvOp.actAll (op :: ops) kv =
      KvOp.actAll ops (op.act kv) := rfl

theorem KvOp.actAll_append
    (ops ops' : List KvOp)
    (kv : StageKV H) :
    KvOp.actAll (ops ++ ops') kv =
      KvOp.actAll ops' (KvOp.actAll ops kv) := by
  simp [KvOp.actAll]

@[simp] theorem KvOp.actAll_empty (ops : List KvOp) :
    KvOp.actAll ops ([] : StageKV H) = [] := by
  induction ops with
  | nil => rfl
  | cons op ops ih => simpa using ih

/- Operations that keep every position change nothing. -/
theorem KvOp.actAll_eq_self
    {ops : List KvOp}
    {kv : StageKV H}
    (hKeeps : ∀ op ∈ ops, op.Keeps kv.length) :
    KvOp.actAll ops kv = kv := by
  induction ops with
  | nil => rfl
  | cons op ops ih =>
      have hFirst :=
        (op.act_eq_self kv).mpr (hKeeps op (by simp))
      rw [KvOp.actAll_cons, hFirst]
      exact ih (fun o hO => hKeeps o (by simp [hO]))

theorem KvOp.length_actAll_le
    (ops : List KvOp)
    (kv : StageKV H) :
    (KvOp.actAll ops kv).length ≤ kv.length := by
  induction ops generalizing kv with
  | nil => exact Nat.le_refl _
  | cons op ops ih =>
      have hFirst := op.lengthAfter_le kv.length
      have hRest := ih (op.act kv)
      rw [KvOp.length_act] at hRest
      rw [KvOp.actAll_cons]
      omega

/- An operation that drops leaves less than it should. -/
theorem KvOp.length_actAll_lt
    {ops : List KvOp}
    {op : KvOp}
    {n : Nat}
    (kv : StageKV H)
    (hMem : op ∈ ops)
    (hDrops : ¬ op.Keeps n)
    (hPos : 0 < n) :
    (KvOp.actAll ops kv).length < n := by
  induction ops generalizing kv with
  | nil => cases hMem
  | cons op' ops ih =>
      rw [KvOp.actAll_cons]
      rcases List.mem_cons.mp hMem with rfl | hRest
      · have hLe := KvOp.length_actAll_le ops (op.act kv)
        rw [KvOp.length_act] at hLe
        cases op with
        | reset =>
            simp only [KvOp.lengthAfter] at hLe
            omega
        | truncate length =>
            simp only [KvOp.lengthAfter,
              KvOp.Keeps] at hLe hDrops
            omega
        | free =>
            simp only [KvOp.lengthAfter] at hLe
            omega
      · exact ih _ hRest

/- Ones that keep `n` positions leave `n` where they were. -/
theorem KvOp.le_length_actAll
    {ops : List KvOp}
    {n : Nat}
    {kv : StageKV H}
    (hKeeps : ∀ op ∈ ops, op.Keeps n)
    (hPos : 0 < n)
    (hLe : n ≤ kv.length) :
    n ≤ (KvOp.actAll ops kv).length := by
  induction ops generalizing kv with
  | nil => exact hLe
  | cons op ops ih =>
      rw [KvOp.actAll_cons]
      refine ih (fun o hO => hKeeps o (by simp [hO])) ?_
      have hFirst := hKeeps op (by simp)
      rw [KvOp.length_act]
      cases op with
      | reset =>
          simp only [KvOp.Keeps] at hFirst
          omega
      | truncate length =>
          simp only [KvOp.Keeps, KvOp.lengthAfter] at hFirst ⊢
          omega
      | free =>
          simp only [KvOp.Keeps] at hFirst
          omega

/- So a cache they leave shorter was as short before. -/
theorem KvOp.eq_of_actAll_lt
    {ops : List KvOp}
    {n : Nat}
    {kv : StageKV H}
    (hKeeps : ∀ op ∈ ops, op.Keeps n)
    (hLt : (KvOp.actAll ops kv).length < n) :
    KvOp.actAll ops kv = kv := by
  have hShort : kv.length < n := by
    by_contra hLong
    have hLe :=
      KvOp.le_length_actAll hKeeps (by omega)
        (Nat.le_of_not_lt hLong)
    omega
  exact
    KvOp.actAll_eq_self
      (fun op hOp => (hKeeps op hOp).mono (by omega))

end

end CircuitDllm

------------------------------------------------------------
-- Frames on the Way
------------------------------------------------------------

namespace CircuitDllm

namespace Worker

variable {H : Type}

/- A worker that handles frames of a session in order. -/
def controlAll
    (ops : List KvOp)
    (session : Nat)
    (now : ℚ)
    (w : Worker H) :
    Worker H :=
  ops.foldl (fun w op => w.control op session now) w

theorem kv_controlAll
    (ops : List KvOp)
    (session : Nat)
    (now : ℚ)
    (w : Worker H) :
    (w.controlAll ops session now).kv session =
      KvOp.actAll ops (w.kv session) := by
  induction ops generalizing w with
  | nil => rfl
  | cons op ops ih =>
      rw [KvOp.actAll_cons, ← kv_control op session now w]
      exact ih _

end Worker

/-
  A session with KV_CTRL frames on the way: those each
  worker has not handled yet, the oldest first.
-/
structure PostedState (Tok H P : Type) where
  coord : CoordState Tok H P
  mail : String → List KvOp := fun _ => []

namespace PostedState

variable {Tok H P : Type}

/- Every worker handles the oldest of its frames. -/
def handle
    (session : Nat)
    (now : ℚ)
    (count : String → Nat)
    (t : PostedState Tok H P) :
    PostedState Tok H P where
  coord :=
    { t.coord with
      workers := fun w =>
        (t.coord.workers w).controlAll
          ((t.mail w).take (count w)) session now }
  mail w := (t.mail w).drop (count w)

/- The state when all of them have been handled. -/
def settled
    (session : Nat)
    (t : PostedState Tok H P) :
    CoordState Tok H P :=
  (t.handle session 0 (fun w => (t.mail w).length)).coord

/-
  The frame is written to every open socket.  The rest of
  the step, which gave `s`, is the coordinator's own.
-/
def post
    (active : Nat)
    (op : KvOp)
    (s : CoordState Tok H P)
    (t : PostedState Tok H P) :
    PostedState Tok H P where
  coord := { s with workers := t.coord.workers }
  mail w :=
    if w ∈ (t.coord.conn active).conns then t.mail w ++ [op]
    else t.mail w

theorem workerKv_handle
    (session : Nat)
    (now : ℚ)
    (count : String → Nat)
    (t : PostedState Tok H P)
    (w : String) :
    (t.handle session now count).coord.workerKv w session =
      KvOp.actAll ((t.mail w).take (count w))
        (t.coord.workerKv w session) :=
  Worker.kv_controlAll _ _ _ _

theorem workerKv_settled
    (session : Nat)
    (t : PostedState Tok H P)
    (w : String) :
    (t.settled session).workerKv w session =
      KvOp.actAll (t.mail w) (t.coord.workerKv w session) := by
  rw [settled, workerKv_handle, List.take_length]

/- What is left to handle leads to the same caches. -/
theorem actAll_handle
    (session : Nat)
    (now : ℚ)
    (count : String → Nat)
    (t : PostedState Tok H P)
    (w : String) :
    KvOp.actAll ((t.handle session now count).mail w)
        ((t.handle session now count).coord.workerKv w
          session) =
      (t.settled session).workerKv w session := by
  rw [workerKv_handle, workerKv_settled, handle,
    ← KvOp.actAll_append, List.take_append_drop]

theorem workerKv_settled_post
    (active session : Nat)
    (op : KvOp)
    (s : CoordState Tok H P)
    (t : PostedState Tok H P)
    (w : String) :
    ((t.post active op s).settled session).workerKv w
        session =
      if w ∈ (t.coord.conn active).conns
      then op.act ((t.settled session).workerKv w session)
      else (t.settled session).workerKv w session := by
  rw [workerKv_settled, workerKv_settled]
  simp only [post]
  split
  · rw [KvOp.actAll_append]
    rfl
  · rfl

end PostedState

/- The hops the coordinator itself sends activations to. -/
def ownHops
    (chain : Bool)
    (route : List RouteHop) :
    List RouteHop :=
  if chain then route.take 1 else route

/- The hops that get theirs from the hop before. -/
def lateHops
    (chain : Bool)
    (route : List RouteHop) :
    List RouteHop :=
  if chain then route.tail else []

namespace SessionOp

variable {Tok H P : Type}

/-
  An operation with frames on the way.  Before an activation
  of its own socket a worker handles every frame of that
  socket; of the others it has handled the `count` oldest
  when the activation comes.  One it handles in the midst of
  the activation counts as handled after it.
-/
def runPosted
    (env : CoordEnv Tok H P)
    (active session : Nat)
    (route : List RouteHop)
    (count : String → Nat)
    (op : SessionOp H)
    (t : PostedState Tok H P) :
    Except CoordError (List H) × PostedState Tok H P :=
  match op with
  | .relay pos hidden =>
    let t :=
      t.handle session (env.clock t.coord.tick) (fun w =>
        if w ∈ (ownHops env.chain route).map (·.nodeId)
        then (t.mail w).length
        else count w)
    let (r, s) := env.relay active session pos hidden t.coord
    (r, { t with coord := s })
  | .truncate length =>
    let (r, s) :=
      (SessionOp.truncate length).run env active session
        t.coord
    (r, t.post active (.truncate length) s)
  | .reset =>
    let (r, s) :=
      SessionOp.reset.run env active session t.coord
    (r, t.post active .reset s)

end SessionOp

/-
  What a session shows: what it returns, and after each
  operation the KV of every node on the route once its
  frames are handled.  `schedule` says how many frames were
  handled before the n-th operation.
-/
def postedTrace
    {Tok H P : Type}
    (env : CoordEnv Tok H P)
    (active session : Nat)
    (route : List RouteHop)
    (schedule : Nat → String → Nat) :
    Nat → List (SessionOp H) → PostedState Tok H P →
      List (Except CoordError (List H) × List (StageKV H))
| _, [], _ => []
| n, op :: ops, t =>
    let (r, t) :=
      op.runPosted env active session route (schedule n) t
    (r, env.sessionKvs (t.settled session) session route) ::
      postedTrace env active session route schedule (n + 1)
        ops t

end CircuitDllm

------------------------------------------------------------
-- Frames Handled at Once
------------------------------------------------------------

namespace CircuitDllm

/-
  The same where every frame is handled as it is written:
  what a session returns, and the KV of every node on the
  route after each operation.
-/
def sessionTrace
    {Tok H P : Type}
    (env : CoordEnv Tok H P)
    (active session : Nat)
    (route : List RouteHop) :
    List (SessionOp H) → CoordState Tok H P →
      List (Except CoordError (List H) × List (StageKV H))
| [], _ => []
| op :: ops, s =>
    let (r, s) := op.run env active session s
    (r, env.sessionKvs s session route) ::
      sessionTrace env active session route ops s

namespace CoordEnv

variable {Tok H P : Type} {env : CoordEnv Tok H P}

/- The local cache and the connected workers acted. -/
structure Controlled
    (active session : Nat)
    (op : KvOp)
    (s s' : CoordState Tok H P) : Prop where
  localKv : s'.localKv session = op.act (s.localKv session)
  workerKv :
    ∀ w,
      s'.workerKv w session =
        if w ∈ (s.conn active).conns
        then op.act (s.workerKv w session)
        else s.workerKv w session
  conn : s'.conn = s.conn
  pinned :
    ∀ route,
      s'.sessionRoutes.get? session = some route →
        s.sessionRoutes.get? session = some route

theorem truncate_controlled
    (hOutcome : ∀ n, env.outcome n = .ok)
    (hDynamic : env.dynamic = true)
    (active session length : Nat)
    (s : CoordState Tok H P) :
    ∃ s',
      (SessionOp.truncate length).run env active session s =
        (.ok [], s') ∧
      Controlled active session (.truncate length) s
        s' := by
  simp only [SessionOp.run, kvTruncate, hDynamic, if_true]
  rcases controlConns_clean hOutcome active
      (.truncate length) session false (s.conn active).conns
      { s with
        localCaches :=
          s.localCaches.modify session
            (StageKV.truncateTo · length) } with
    ⟨s', hOk, hKv, hLocal, hPins, hConn, _⟩
  rw [hOk]
  refine ⟨s', rfl, ?_, hKv, hConn, fun route hRoute => ?_⟩
  · rw [CoordState.localKv, hLocal, Dict.get?_modify,
      CoordState.localKv]
    cases s.localCaches.get? session with
    | none => simp [KvOp.act, StageKV.truncateTo]
    | some kv => simp [KvOp.act]
  · rw [hPins] at hRoute
    exact hRoute

theorem reset_controlled
    (hOutcome : ∀ n, env.outcome n = .ok)
    (hDynamic : env.dynamic = true)
    (active session : Nat)
    (s : CoordState Tok H P) :
    ∃ s',
      SessionOp.reset.run env active session s =
        (.ok [], s') ∧
      Controlled active session .reset s s' := by
  simp only [SessionOp.run, resetSessions, hDynamic, if_true]
  rcases controlConns_clean hOutcome active .reset session
      false (s.conn active).conns
      { s with
        localCaches := s.localCaches.erase session
        sessionRoutes := s.sessionRoutes.erase session
        provider :=
          env.provider.release session s.provider } with
    ⟨s', hOk, hKv, hLocal, hPins, hConn, _⟩
  rw [hOk]
  refine ⟨s', rfl, ?_, hKv, hConn, fun route hRoute => ?_⟩
  · rw [CoordState.localKv, hLocal]
    simp [Dict.get?_erase, KvOp.act]
  · rw [hPins] at hRoute
    simp [Dict.get?_erase] at hRoute

/- The caches of the session after such a frame. -/
theorem Controlled.sessionKvs
    {active session : Nat}
    {op : KvOp}
    {s s' : CoordState Tok H P}
    (hActed : Controlled active session op s s')
    (route : List RouteHop) :
    env.sessionKvs s' session route =
      env.localStage.toList.map (fun _ =>
          op.act (s.localKv session)) ++
        route.map (fun n =>
          if n.nodeId ∈ (s.conn active).conns
          then op.act (s.workerKv n.nodeId session)
          else s.workerKv n.nodeId session) := by
  unfold CoordEnv.sessionKvs
  simp only [hActed.localKv, hActed.workerKv]

/- A posted frame acts once it is handled. -/
theorem post_controlled
    {active session : Nat}
    {op : KvOp}
    {s' : CoordState Tok H P}
    {t : PostedState Tok H P}
    (hActed : Controlled active session op t.coord s') :
    Controlled active session op (t.settled session)
      ((t.post active op s').settled session) where
  localKv := hActed.localKv
  workerKv := t.workerKv_settled_post active session op s'
  conn := hActed.conn
  pinned := hActed.pinned

/- The caches of a session, one by one. -/
theorem sessionKvs_eq_iff
    {session : Nat}
    {route : List RouteHop}
    {s : CoordState Tok H P}
    {localKv : StageKV H}
    {workerKv : RouteHop → StageKV H} :
    env.sessionKvs s session route =
        env.localStage.toList.map (fun _ => localKv) ++
          route.map workerKv ↔
      (env.localStage ≠ none →
        s.localKv session = localKv) ∧
      ∀ n ∈ route,
        s.workerKv n.nodeId session = workerKv n := by
  have hLocal :
      env.localStage.toList.map (fun _ =>
            s.localKv session) =
          env.localStage.toList.map (fun _ => localKv) ↔
        (env.localStage ≠ none →
          s.localKv session = localKv) := by
    cases env.localStage with
    | none => simp
    | some stage => simp
  unfold CoordEnv.sessionKvs
  rw [← hLocal, ← List.map_inj_left]
  constructor
  · intro hEq
    exact List.append_inj hEq (by simp)
  · rintro ⟨hLeft, hRight⟩
    rw [hLeft, hRight]

theorem sessionKvs_inj
    {session : Nat}
    {route : List RouteHop}
    {s t : CoordState Tok H P} :
    env.sessionKvs s session route =
        env.sessionKvs t session route ↔
      (env.localStage ≠ none →
        s.localKv session = t.localKv session) ∧
      ∀ n ∈ route,
        s.workerKv n.nodeId session =
          t.workerKv n.nodeId session :=
  sessionKvs_eq_iff

end CoordEnv

end CircuitDllm

------------------------------------------------------------
-- Relays in Both Modes
------------------------------------------------------------

namespace CircuitDllm

/- A relay through caches of one length makes them longer. -/
theorem length_runStages_kvs
    {H : Type}
    (stages : List (Stage H))
    (kvs : List (StageKV H))
    (hidden : List H)
    (pos len : Nat)
    (hStages : stages.length = kvs.length)
    (hLen : ∀ kv ∈ kvs, kv.length = len) :
    ∀ kv ∈ (runStages stages kvs hidden pos).2,
      kv.length = len + hidden.length := by
  induction stages generalizing kvs hidden with
  | nil =>
      rcases List.length_eq_zero_iff.mp hStages.symm with rfl
      simp [runStages]
  | cons stage stages ih =>
      cases kvs with
      | nil => simp at hStages
      | cons kv kvs =>
          intro kv' hKv'
          simp only [runStages, List.mem_cons] at hKv'
          rcases hKv' with rfl | hKv'
          · simp [Stage.forward, hLen kv (by simp)]
          · have hRest :=
              ih kvs (stage.forward hidden pos kv).1
                (by simpa using hStages)
                (fun k hK => hLen k (by simp [hK])) kv' hKv'
            simpa using hRest

/- A relay of no positions changes no cache. -/
theorem runStages_no_hidden
    {H : Type}
    (stages : List (Stage H))
    (kvs : List (StageKV H))
    (pos : Nat)
    (hStages : stages.length = kvs.length) :
    runStages stages kvs [] pos = ([], kvs) := by
  induction stages generalizing kvs with
  | nil =>
      rcases List.length_eq_zero_iff.mp hStages.symm with rfl
      rfl
  | cons stage stages ih =>
      cases kvs with
      | nil => simp at hStages
      | cons kv kvs =>
          have hOut :
              stage.forward [] pos kv = ([], kv) := by
            simp [Stage.forward, Causal.feed]
          simp only [runStages, hOut,
            ih kvs (by simpa using hStages)]

namespace CoordEnv

variable {Tok H P : Type}

/- The same coordinator with chain relay on or off. -/
def withChain
    (env : CoordEnv Tok H P)
    (chain : Bool) :
    CoordEnv Tok H P :=
  { env with chain := chain }

variable {env : CoordEnv Tok H P}

theorem PinnedMesh.withChain
    {route : List RouteHop}
    (hMesh : env.PinnedMesh route)
    (chain : Bool) :
    (env.withChain chain).PinnedMesh route :=
  ⟨hMesh.outcome, hMesh.dynamic, hMesh.grants, hMesh.nodup,
    hMesh.endpoints⟩

variable {head : RouteHop} {tail : List RouteHop}

/- A relay that can be formed, in either mode. -/
theorem relay_mode
    (hMesh : env.PinnedMesh (head :: tail))
    (chain : Bool)
    (hReady : chain = true → ChainReady tail)
    (active : Nat)
    {session : Nat}
    (pos : Nat)
    (hidden : List H)
    {s : CoordState Tok H P}
    (hPinned : PinnedTo session (head :: tail) s) :
    ∃ out s',
      (env.withChain chain).relay active session pos hidden
          s = (.ok out, s') ∧
      env.Relayed session pos (head :: tail) hidden s out
        s' ∧
      (∀ n ∈ ownHops chain (head :: tail),
        n.nodeId ∈ (s'.conn active).conns) ∧
      ∀ n ∈ lateHops chain (head :: tail),
        n.nodeId ∈ (s'.conn active).conns ↔
          n.nodeId ∈ (s.conn active).conns := by
  cases chain with
  | false =>
      rcases relay_star_pinnedMesh (hMesh.withChain false)
          rfl active pos hidden hPinned with
        ⟨out, s', hOk, hRun, hOpen⟩
      exact
        ⟨out, s', hOk, ⟨hRun.runs, hRun.pinned⟩, hOpen,
          by simp [lateHops]⟩
  | true =>
      rcases relay_chain_pinnedMesh (hMesh.withChain true)
          rfl (hReady rfl) active pos hidden hPinned with
        ⟨out, s', hOk, hRun, hConns⟩
      refine
        ⟨out, s', hOk, ⟨hRun.runs, hRun.pinned⟩, ?_, ?_⟩
      · intro n hN
        have hHead : n = head := by simpa [ownHops] using hN
        exact (hConns _).mpr (Or.inl (by rw [hHead]))
      · intro n hN
        have hNodup := hMesh.nodup
        simp only [List.map_cons, List.nodup_cons,
          List.mem_map, not_exists, not_and] at hNodup
        rw [hConns]
        have hNe := hNodup.1 n hN
        simp [hNe]

/- Every hop is one of the two kinds. -/
theorem own_or_late
    (chain : Bool)
    {n : RouteHop}
    (hN : n ∈ head :: tail) :
    n ∈ ownHops chain (head :: tail) ∨
      n ∈ lateHops chain (head :: tail) := by
  cases chain with
  | false => exact Or.inl hN
  | true => simpa [ownHops, lateHops] using hN

/- And no node is of both. -/
theorem late_not_own
    {chain : Bool}
    {n : RouteHop}
    (hNodup : ((head :: tail).map (·.nodeId)).Nodup)
    (hN : n ∈ lateHops chain (head :: tail)) :
    n.nodeId ∉
      (ownHops chain (head :: tail)).map (·.nodeId) := by
  cases chain with
  | false => simp [lateHops] at hN
  | true =>
      simp only [List.map_cons, List.nodup_cons,
        List.mem_map, not_exists, not_and] at hNodup
      have hNe := hNodup.1 n hN
      simpa [ownHops] using hNe

theorem late_mem
    {chain : Bool}
    {n : RouteHop}
    (hN : n ∈ lateHops chain (head :: tail)) :
    n ∈ head :: tail := by
  cases chain with
  | false => simp [lateHops] at hN
  | true => exact List.mem_cons_of_mem _ hN

end CoordEnv

end CircuitDllm

------------------------------------------------------------
-- What a Schedule Must Respect
------------------------------------------------------------

namespace CircuitDllm

namespace SessionOp

variable {H : Type}

/- The frames on the way after an operation. -/
def leaves
    (count : String → Nat)
    (conns : List String)
    (mail : String → List KvOp) :
    SessionOp H → String → List KvOp
| .relay _ _, w => (mail w).drop (count w)
| .truncate length, w =>
    if w ∈ conns then mail w ++ [.truncate length]
    else mail w
| .reset, w =>
    if w ∈ conns then mail w ++ [.reset] else mail w

/-
  A relay of positions finds no frame that would drop one
  of them still on the way.
-/
def OnTime
    (late : List RouteHop)
    (len : Nat)
    (mail : String → List KvOp) :
    SessionOp H → Prop
| .relay pos hidden =>
    hidden = [] ∨
      ∀ n ∈ late, ∀ frame ∈ mail n.nodeId,
        frame.Keeps ((if pos = 0 then 0 else len) +
          hidden.length)
| _ => True

/-
  Every frame to a node with a socket of its own is handled
  before the next relay of positions it would drop.
-/
def HandledInTime
    (late : List RouteHop)
    (conns : List String)
    (schedule : Nat → String → Nat) :
    Nat → Nat → (String → List KvOp) →
      List (SessionOp H) → Prop
| _, _, _, [] => True
| n, len, mail, op :: ops =>
    op.OnTime late len (op.leaves (schedule n) conns mail) ∧
      HandledInTime late conns schedule (n + 1)
        (op.lengthAfter len)
        (op.leaves (schedule n) conns mail) ops

/- What an operation needs to do what the star does. -/
def SameStep
    (chain : Bool)
    (head : RouteHop)
    (tail : List RouteHop)
    (conns : List String)
    (len : Nat)
    (mail : String → List KvOp)
    (op : SessionOp H) : Prop :=
  op.OnTime (lateHops chain (head :: tail)) len mail ∧
    match op with
    | .relay _ _ => chain = true → ChainReady tail
    | .truncate length =>
      len ≤ length ∨
        ∀ n ∈ lateHops chain (head :: tail),
          n.nodeId ∈ conns
    | .reset =>
      len = 0 ∨
        ∀ n ∈ lateHops chain (head :: tail),
          n.nodeId ∈ conns

def SameSteps
    (chain : Bool)
    (head : RouteHop)
    (tail : List RouteHop)
    (conns : List String)
    (schedule : Nat → String → Nat) :
    Nat → Nat → (String → List KvOp) →
      List (SessionOp H) → Prop
| _, _, _, [] => True
| n, len, mail, op :: ops =>
    op.SameStep chain head tail conns len
        (op.leaves (schedule n) conns mail) ∧
      SameSteps chain head tail conns schedule (n + 1)
        (op.lengthAfter len)
        (op.leaves (schedule n) conns mail) ops

variable
  {head : RouteHop}
  {tail : List RouteHop}
  {conns : List String}
  {schedule : Nat → String → Nat}

/- In the star every hop is the coordinator's own. -/
theorem sameSteps_star
    (n len : Nat)
    (mail : String → List KvOp)
    (ops : List (SessionOp H)) :
    SameSteps false head tail conns schedule n len mail
      ops := by
  induction ops generalizing n len mail with
  | nil => trivial
  | cons op ops ih =>
      refine ⟨?_, ih _ _ _⟩
      cases op with
      | relay pos hidden =>
          exact
            ⟨Or.inr (by simp [lateHops]), fun h => by cases h⟩
      | truncate length =>
          exact ⟨trivial, Or.inr (by simp [lateHops])⟩
      | reset =>
          exact ⟨trivial, Or.inr (by simp [lateHops])⟩

theorem sameSteps_chain_iff
    (n len : Nat)
    (mail : String → List KvOp)
    (ops : List (SessionOp H)) :
    SameSteps true head tail conns schedule n len mail ops ↔
      (HasRelay ops → ChainReady tail) ∧
        (RollbackFree len ops ∨
          ∀ n ∈ tail, n.nodeId ∈ conns) ∧
        HandledInTime tail conns schedule n len mail ops := by
  induction ops generalizing n len mail with
  | nil =>
      simp [SameSteps, HasRelay, RollbackFree, HandledInTime]
  | cons op ops ih =>
      rw [SameSteps, ih, HandledInTime]
      cases op with
      | relay pos hidden =>
          have hHas : HasRelay (.relay pos hidden :: ops) :=
            ⟨pos, hidden, by simp⟩
          simp only [SameStep, RollbackFree, hHas, lateHops,
            if_true, List.tail_cons, true_and, forall_const]
          tauto
      | truncate length =>
          have hHas :
              HasRelay (.truncate length :: ops) ↔
                HasRelay ops := by
            simp [HasRelay]
          simp only [SameStep, RollbackFree, hHas, lateHops,
            if_true, List.tail_cons]
          tauto
      | reset =>
          have hHas :
              HasRelay (.reset :: ops) ↔ HasRelay ops := by
            simp [HasRelay]
          simp only [SameStep, RollbackFree, hHas, lateHops,
            if_true, List.tail_cons]
          tauto

end SessionOp

end CircuitDllm

------------------------------------------------------------
-- The Modes Side by Side
------------------------------------------------------------

namespace CircuitDllm

namespace CoordEnv

variable {Tok H P : Type}

/-
  The star in state `s`, with every frame handled at once,
  beside either mode in state `t`, with frames on the way.
  Once they are handled the caches are the same and `len`
  long.  The coordinator has a socket to every hop of its
  own that holds positions, and to those of the late hops
  that are in `conns`; `mail` is on its way to these.
-/
structure PostedSim
    (env : CoordEnv Tok H P)
    (chain : Bool)
    (active session : Nat)
    (head : RouteHop)
    (tail : List RouteHop)
    (conns : List String)
    (len : Nat)
    (mail : String → List KvOp)
    (s : CoordState Tok H P)
    (t : PostedState Tok H P) : Prop where
  starPin : PinnedTo session (head :: tail) s
  postedPin : PinnedTo session (head :: tail) t.coord
  kvs :
    env.sessionKvs s session (head :: tail) =
      env.sessionKvs (t.settled session) session
        (head :: tail)
  length :
    ∀ kv ∈ env.sessionKvs s session (head :: tail),
      kv.length = len
  starConns :
    len ≠ 0 →
      ∀ n ∈ head :: tail,
        n.nodeId ∈ (s.conn active).conns
  ownConns :
    len ≠ 0 →
      ∀ n ∈ ownHops chain (head :: tail),
        n.nodeId ∈ (t.coord.conn active).conns
  lateConns :
    ∀ n ∈ lateHops chain (head :: tail),
      n.nodeId ∈ (t.coord.conn active).conns ↔
        n.nodeId ∈ conns
  lateMail :
    ∀ n ∈ lateHops chain (head :: tail),
      t.mail n.nodeId = mail n.nodeId

/- What a worker finds of it when an activation comes. -/
structure HandledFor
    (env : CoordEnv Tok H P)
    (chain : Bool)
    (session : Nat)
    (head : RouteHop)
    (tail : List RouteHop)
    (mail : String → List KvOp)
    (s : CoordState Tok H P)
    (t : PostedState Tok H P) : Prop where
  own :
    ∀ n ∈ ownHops chain (head :: tail),
      t.mail n.nodeId = []
  late :
    ∀ n ∈ lateHops chain (head :: tail),
      t.mail n.nodeId = mail n.nodeId
  localKv :
    env.localStage ≠ none →
      s.localKv session = t.coord.localKv session
  workerKv :
    ∀ n ∈ head :: tail,
      s.workerKv n.nodeId session =
        KvOp.actAll (t.mail n.nodeId)
          (t.coord.workerKv n.nodeId session)

variable
  {env : CoordEnv Tok H P}
  {chain : Bool}
  {active session : Nat}
  {head : RouteHop}
  {tail : List RouteHop}
  {conns : List String}
  {len : Nat}
  {mail : String → List KvOp}
  {s s' : CoordState Tok H P}
  {t : PostedState Tok H P}

theorem PostedSim.handledFor
    (hSim :
      env.PostedSim chain active session head tail conns len
        mail s t)
    (hNodup : ((head :: tail).map (·.nodeId)).Nodup)
    (now : ℚ)
    (count : String → Nat) :
    env.HandledFor chain session head tail
      (fun w => (mail w).drop (count w)) s
      (t.handle session now (fun w =>
        if w ∈
            (ownHops chain (head :: tail)).map (·.nodeId)
        then (t.mail w).length
        else count w)) where
  own n hN := by
    simp only [PostedState.handle]
    rw [if_pos (List.mem_map_of_mem hN), List.drop_length]
  late n hN := by
    simp only [PostedState.handle]
    rw [if_neg (late_not_own hNodup hN), hSim.lateMail n hN]
  localKv := (sessionKvs_inj.mp hSim.kvs).1
  workerKv n hN := by
    rw [PostedState.actAll_handle]
    exact (sessionKvs_inj.mp hSim.kvs).2 n hN

/- The length of what a relay of the star starts on. -/
theorem PostedSim.length_startKvs
    (hSim :
      env.PostedSim chain active session head tail conns len
        mail s t)
    (pos : Nat) :
    ∀ kv ∈ env.startKvs s session pos (head :: tail),
      kv.length = if pos = 0 then 0 else len := by
  by_cases hPos : pos = 0
  · intro kv hKv
    simp only [CoordEnv.startKvs, hPos, if_true,
      Worker.getCache_zero, List.mem_append,
      List.mem_map] at hKv ⊢
    rcases hKv with ⟨_, _, rfl⟩ | ⟨_, _, rfl⟩
    · rfl
    · rfl
  · rw [env.startKvs_of_ne_zero s session _ hPos,
      if_neg hPos]
    exact hSim.length

/- And of what it leaves. -/
theorem PostedSim.length_relayed
    (hSim :
      env.PostedSim chain active session head tail conns len
        mail s t)
    {pos : Nat}
    {hidden out : List H}
    (hRun :
      env.Relayed session pos (head :: tail) hidden s out
        s') :
    ∀ kv ∈ env.sessionKvs s' session (head :: tail),
      kv.length =
        (if pos = 0 then 0 else len) + hidden.length := by
  rw [show
    env.sessionKvs s' session (head :: tail) =
      (runStages
        (env.localStage.toList ++
          (head :: tail).map (fun n =>
            env.stageOf n.nodeId))
        (env.startKvs s session pos (head :: tail))
        hidden pos).2 from congrArg Prod.snd hRun.runs]
  exact
    length_runStages_kvs _ _ _ _ _ (by simp [startKvs])
      (hSim.length_startKvs pos)

/- The cache of a node on the route. -/
theorem workerKv_mem
    {n : RouteHop}
    (hN : n ∈ head :: tail) :
    s.workerKv n.nodeId session ∈
      env.sessionKvs s session (head :: tail) :=
  List.mem_append_right _ (List.mem_map.mpr ⟨n, hN, rfl⟩)

/- A relay of no positions leaves what it started on. -/
theorem Relayed.no_hidden
    {pos : Nat}
    {route : List RouteHop}
    {out : List H}
    (hRun : env.Relayed session pos route [] s out s') :
    out = [] ∧
      env.sessionKvs s' session route =
        env.startKvs s session pos route := by
  have hRuns := hRun.runs
  rw [runStages_no_hidden _ _ _ (by simp [startKvs])] at hRuns
  exact Prod.mk.inj hRuns

/- So frames still on the way act as they would before. -/
theorem HandledFor.no_hidden
    (hHandled :
      env.HandledFor chain session head tail mail s t)
    {pos : Nat}
    {out out' : List H}
    {s₂ : CoordState Tok H P}
    (hStar :
      env.Relayed session pos (head :: tail) [] s out s')
    (hPosted :
      env.Relayed session pos (head :: tail) [] t.coord out'
        s₂) :
    out = out' ∧
      env.sessionKvs s' session (head :: tail) =
        env.sessionKvs
          (PostedState.settled session
            { t with coord := s₂ }) session
          (head :: tail) := by
  rcases hStar.no_hidden with ⟨rfl, hStarKvs⟩
  rcases hPosted.no_hidden with ⟨rfl, hPostedKvs⟩
  rcases sessionKvs_eq_iff.mp hStarKvs with
    ⟨hStarLocal, hStarWorker⟩
  rcases sessionKvs_eq_iff.mp hPostedKvs with
    ⟨hPostedLocal, hPostedWorker⟩
  refine
    ⟨rfl,
      sessionKvs_inj.mpr
        ⟨fun hLocal => ?_, fun n hN => ?_⟩⟩
  · rw [hStarLocal hLocal, hHandled.localKv hLocal]
    exact (hPostedLocal hLocal).symm
  · rw [hStarWorker n hN, PostedState.workerKv_settled,
      hPostedWorker n hN]
    simp only [Worker.getCache]
    split
    · rw [KvOp.actAll_empty]
    · exact hHandled.workerKv n hN

/- Where nothing on the way would drop what is relayed. -/
theorem HandledFor.startKvs
    (hHandled :
      env.HandledFor chain session head tail mail s t)
    {len pos extra : Nat}
    (hLength :
      ∀ kv ∈ env.sessionKvs s session (head :: tail),
        kv.length = len)
    (hExtra : 0 < extra)
    (hKeeps :
      ∀ n ∈ lateHops chain (head :: tail),
        ∀ frame ∈ mail n.nodeId,
          frame.Keeps ((if pos = 0 then 0 else len) + extra)) :
    env.startKvs s session pos (head :: tail) =
      env.startKvs t.coord session pos (head :: tail) := by
  by_cases hPos : pos = 0
  · rw [hPos]
    rfl
  · rw [env.startKvs_of_ne_zero s session _ hPos,
      env.startKvs_of_ne_zero t.coord session _ hPos]
    refine sessionKvs_inj.mpr ⟨hHandled.localKv, fun n hN => ?_⟩
    rw [hHandled.workerKv n hN]
    rcases own_or_late chain hN with hOwn | hLate
    · rw [hHandled.own n hOwn, KvOp.actAll_nil]
    · rw [hHandled.late n hLate]
      refine
        KvOp.eq_of_actAll_lt
          (fun frame hFrame => hKeeps n hLate frame hFrame) ?_
      rw [← hHandled.late n hLate, ← hHandled.workerKv n hN,
        hLength _ (workerKv_mem hN), if_neg hPos]
      omega

end CoordEnv

end CircuitDllm

------------------------------------------------------------
-- One Operation in Both Modes
------------------------------------------------------------

namespace CircuitDllm

namespace CoordEnv

variable {Tok H P : Type}
variable
  {env : CoordEnv Tok H P}
  {chain : Bool}
  {active session : Nat}
  {head : RouteHop}
  {tail : List RouteHop}
  {conns : List String}
  {len : Nat}
  {mail : String → List KvOp}
  {s s' : CoordState Tok H P}
  {t : PostedState Tok H P}

/- The relays themselves, from what the workers find. -/
theorem HandledFor.relayed_iff
    (hHandled :
      env.HandledFor chain session head tail mail s t)
    {pos : Nat}
    {hidden out out' : List H}
    {s₂ : CoordState Tok H P}
    (hLength :
      ∀ kv ∈ env.sessionKvs s session (head :: tail),
        kv.length = len)
    (hLength' :
      ∀ kv ∈ env.sessionKvs s' session (head :: tail),
        kv.length =
          (if pos = 0 then 0 else len) + hidden.length)
    (hStar :
      env.Relayed session pos (head :: tail) hidden s out s')
    (hPosted :
      env.Relayed session pos (head :: tail) hidden t.coord
        out' s₂) :
    (out = out' ∧
      env.sessionKvs s' session (head :: tail) =
        env.sessionKvs
          (PostedState.settled session
            { t with coord := s₂ }) session
          (head :: tail)) ↔
      (SessionOp.relay pos hidden).OnTime
        (lateHops chain (head :: tail)) len mail := by
  constructor
  · rintro ⟨_, hKvs⟩
    by_cases hNil : hidden = []
    · exact Or.inl hNil
    · right
      intro n hN frame hFrame
      -- a frame that drops a new position shows afterwards
      by_contra hDrops
      have hMem := late_mem hN
      have hNode := (sessionKvs_inj.mp hKvs).2 n hMem
      have hLt :=
        KvOp.length_actAll_lt
          (s₂.workerKv n.nodeId session)
          (hHandled.late n hN ▸ hFrame) hDrops
          (by
            have hPos := List.length_pos_iff.mpr hNil
            omega)
      rw [PostedState.workerKv_settled] at hNode
      rw [← hNode, hLength' _ (workerKv_mem hMem)] at hLt
      omega
  · rintro (hNil | hKeeps)
    · subst hNil
      exact hHandled.no_hidden hStar hPosted
    · by_cases hNil : hidden = []
      · subst hNil
        exact hHandled.no_hidden hStar hPosted
      · have hStart :=
          hHandled.startKvs hLength
            (List.length_pos_iff.mpr hNil) hKeeps
        have hRuns := hStar.runs
        rw [hStart, ← hPosted.runs] at hRuns
        rcases Prod.mk.inj hRuns with ⟨hOut, hKvs⟩
        rcases sessionKvs_inj.mp hKvs with
          ⟨hLocal, hWorker⟩
        refine
          ⟨hOut, sessionKvs_inj.mpr ⟨hLocal, fun n hN => ?_⟩⟩
        rw [PostedState.workerKv_settled, ← hWorker n hN]
        symm
        refine KvOp.actAll_eq_self (fun frame hFrame => ?_)
        rw [hLength' _ (workerKv_mem hN)]
        rcases own_or_late chain hN with hOwn | hLate
        · simp only [hHandled.own n hOwn] at hFrame
          cases hFrame
        · simp only [hHandled.late n hLate] at hFrame
          exact hKeeps n hLate frame hFrame

/- A relay does what the star's does where it is on time. -/
theorem PostedSim.relay
    (hMesh : env.PinnedMesh (head :: tail))
    (hSim :
      env.PostedSim chain active session head tail conns len
        mail s t)
    (hReady : chain = true → ChainReady tail)
    (count : String → Nat)
    (pos : Nat)
    (hidden : List H) :
    let rest := fun w => (mail w).drop (count w)
    let op := SessionOp.relay pos hidden
    ∃ out s' out' t',
      op.run (env.withChain false) active session s =
        (.ok out, s') ∧
      op.runPosted (env.withChain chain) active session
          (head :: tail) count t = (.ok out', t') ∧
      ((out = out' ∧
        env.sessionKvs s' session (head :: tail) =
          env.sessionKvs (t'.settled session) session
            (head :: tail)) ↔
        op.OnTime (lateHops chain (head :: tail)) len rest) ∧
      (op.OnTime (lateHops chain (head :: tail)) len rest →
        env.PostedSim chain active session head tail conns
          (op.lengthAfter len) rest s' t') := by
  intro rest op
  rcases relay_mode hMesh false
      (fun h => by cases h) active pos hidden hSim.starPin
    with ⟨out, s', hStarOk, hStar, hStarConns, _⟩
  have hHandled :=
    hSim.handledFor hMesh.nodup
      ((env.withChain chain).clock t.coord.tick) count
  rcases relay_mode hMesh chain hReady active pos hidden
      (s := (t.handle session
        ((env.withChain chain).clock t.coord.tick) (fun w =>
          if w ∈
              (ownHops chain (head :: tail)).map (·.nodeId)
          then (t.mail w).length
          else count w)).coord) hSim.postedPin
    with ⟨out', s₂, hOk, hPosted, hOwn, hLate⟩
  have hLength' := hSim.length_relayed hStar
  have hIff :=
    hHandled.relayed_iff hSim.length hLength' hStar hPosted
  refine ⟨out, s', out', _, hStarOk, ?_, hIff, fun hOnTime => ?_⟩
  · simp only [op, SessionOp.runPosted]
    rw [show (env.withChain chain).chain = chain from rfl,
      hOk]
  · exact
      { starPin := hStar.pinned
        postedPin := hPosted.pinned
        kvs := (hIff.mpr hOnTime).2
        length := hLength'
        starConns := fun _ => hStarConns
        ownConns := fun _ => hOwn
        lateConns := fun n hN =>
          (hLate n hN).trans (hSim.lateConns n hN)
        lateMail := hHandled.late }

/- In the star every cache acts on a control frame. -/
theorem PostedSim.star_acts
    (hSim :
      env.PostedSim chain active session head tail conns len
        mail s t)
    {op : KvOp}
    (hStar : Controlled active session op s s') :
    (s'.localKv session = op.act (s.localKv session)) ∧
      ∀ n ∈ head :: tail,
        s'.workerKv n.nodeId session =
          op.act (s.workerKv n.nodeId session) := by
  refine ⟨hStar.localKv, fun n hN => ?_⟩
  rw [hStar.workerKv]
  by_cases hLen : len = 0
  · have hNil :=
      List.length_eq_zero_iff.mp
        ((hSim.length _ (workerKv_mem hN)).trans hLen)
    simp [hNil]
  · rw [if_pos (hSim.starConns hLen n hN)]

/-
  A control frame does the same where it drops nothing or
  reaches every hop that is not the coordinator's own.
-/
theorem PostedSim.controlled_iff
    (hSim :
      env.PostedSim chain active session head tail conns len
        mail s t)
    {op : KvOp}
    {u u' : CoordState Tok H P}
    (hSettled : u = t.settled session)
    (hStar : Controlled active session op s s')
    (hPosted : Controlled active session op u u') :
    env.sessionKvs s' session (head :: tail) =
        env.sessionKvs u' session (head :: tail) ↔
      op.Keeps len ∨
        ∀ n ∈ lateHops chain (head :: tail),
          n.nodeId ∈ conns := by
  subst hSettled
  rcases hSim.star_acts hStar with ⟨hStarLocal, hStarWorker⟩
  rcases sessionKvs_inj.mp hSim.kvs with ⟨hLocal, hWorker⟩
  have hEach :
      env.sessionKvs s' session (head :: tail) =
          env.sessionKvs u' session (head :: tail) ↔
        ∀ n ∈ head :: tail,
          op.act (s.workerKv n.nodeId session) =
            if n.nodeId ∈ (t.coord.conn active).conns
            then op.act (s.workerKv n.nodeId session)
            else s.workerKv n.nodeId session := by
    rw [sessionKvs_inj]
    constructor
    · rintro ⟨_, hAll⟩ n hN
      have hNode := hAll n hN
      rw [hStarWorker n hN, hPosted.workerKv,
        ← hWorker n hN] at hNode
      exact hNode
    · intro hAll
      refine ⟨fun hStage => ?_, fun n hN => ?_⟩
      · rw [hStarLocal, hPosted.localKv, hLocal hStage]
      · rw [hStarWorker n hN, hPosted.workerKv,
          ← hWorker n hN]
        exact hAll n hN
  have hLength :
      ∀ n ∈ head :: tail,
        (s.workerKv n.nodeId session).length = len :=
    fun n hN => hSim.length _ (workerKv_mem hN)
  rw [hEach]
  constructor
  · intro hAll
    by_cases hKeeps : op.Keeps len
    · exact Or.inl hKeeps
    · refine Or.inr (fun n hN => ?_)
      by_contra hConn
      have hMem := late_mem hN
      have hActs := hAll n hMem
      rw [if_neg (fun h =>
          hConn ((hSim.lateConns n hN).mp h)),
        KvOp.act_eq_self, hLength n hMem] at hActs
      exact hKeeps hActs
  · rintro (hKeeps | hReached) n hN
    · have hSelf :
          op.act (s.workerKv n.nodeId session) =
            s.workerKv n.nodeId session := by
        rw [KvOp.act_eq_self, hLength n hN]
        exact hKeeps
      simp [hSelf]
    · by_cases hLen : len = 0
      · have hNil :=
          List.length_eq_zero_iff.mp
            ((hLength n hN).trans hLen)
        simp [hNil]
      · rw [if_pos]
        rcases own_or_late chain hN with hOwn | hLate
        · exact hSim.ownConns hLen n hOwn
        · exact
            (hSim.lateConns n hLate).mpr (hReached n hLate)

/- After a frame that does the same they go on together. -/
theorem PostedSim.controlled
    (hSim :
      env.PostedSim chain active session head tail conns len
        mail s t)
    {op : KvOp}
    {s₂ : CoordState Tok H P}
    (hStar : Controlled active session op s s')
    (hActed : Controlled active session op t.coord s₂)
    (hSame :
      env.sessionKvs s' session (head :: tail) =
        env.sessionKvs
          ((t.post active op s₂).settled session) session
          (head :: tail)) :
    env.PostedSim chain active session head tail conns
      (op.lengthAfter len)
      (fun w =>
        if w ∈ conns then mail w ++ [op] else mail w)
      s' (t.post active op s₂) where
  starPin other hOther :=
    hSim.starPin other (hStar.pinned other hOther)
  postedPin other hOther :=
    hSim.postedPin other (hActed.pinned other hOther)
  kvs := hSame
  length := by
    rcases hSim.star_acts hStar with
      ⟨hLocal, hWorker⟩
    intro kv hKv
    rcases List.mem_append.mp hKv with hHere | hThere
    · rcases List.mem_map.mp hHere with ⟨stage, hStage, rfl⟩
      rw [hLocal, KvOp.length_act, hSim.length]
      exact
        List.mem_append_left _
          (List.mem_map.mpr ⟨stage, hStage, rfl⟩)
    · rcases List.mem_map.mp hThere with ⟨n, hN, rfl⟩
      rw [hWorker n hN, KvOp.length_act,
        hSim.length _ (workerKv_mem hN)]
  starConns hLen := by
    rw [hStar.conn]
    have hLe := op.lengthAfter_le len
    exact hSim.starConns (by omega)
  ownConns hLen := by
    simp only [PostedState.post]
    rw [hActed.conn]
    have hLe := op.lengthAfter_le len
    exact hSim.ownConns (by omega)
  lateConns := by
    simp only [PostedState.post]
    rw [hActed.conn]
    exact hSim.lateConns
  lateMail n hN := by
    simp only [PostedState.post, hSim.lateConns n hN,
      hSim.lateMail n hN]

/- A control operation in both modes. -/
theorem PostedSim.control
    (hSim :
      env.PostedSim chain active session head tail conns len
        mail s t)
    {op : KvOp}
    {s₂ : CoordState Tok H P}
    (hStar : Controlled active session op s s')
    (hActed : Controlled active session op t.coord s₂) :
    (env.sessionKvs s' session (head :: tail) =
        env.sessionKvs
          ((t.post active op s₂).settled session) session
          (head :: tail) ↔
      op.Keeps len ∨
        ∀ n ∈ lateHops chain (head :: tail),
          n.nodeId ∈ conns) ∧
    ((op.Keeps len ∨
        ∀ n ∈ lateHops chain (head :: tail),
          n.nodeId ∈ conns) →
      env.PostedSim chain active session head tail conns
        (op.lengthAfter len)
        (fun w =>
          if w ∈ conns then mail w ++ [op] else mail w)
        s' (t.post active op s₂)) := by
  have hIff :=
    hSim.controlled_iff rfl hStar (post_controlled hActed)
  exact
    ⟨hIff, fun hSame =>
      hSim.controlled hStar hActed (hIff.mpr hSame)⟩

end CoordEnv

end CircuitDllm

------------------------------------------------------------
-- Whole Sessions
------------------------------------------------------------

namespace CircuitDllm

namespace CoordEnv

variable {Tok H P : Type}
variable
  {env : CoordEnv Tok H P}
  {chain : Bool}
  {active session : Nat}
  {head : RouteHop}
  {tail : List RouteHop}
  {conns : List String}
  {len : Nat}
  {mail : String → List KvOp}
  {s : CoordState Tok H P}
  {t : PostedState Tok H P}

/- A chain that cannot be formed raises. -/
theorem PostedSim.relay_broken
    (hMesh : env.PinnedMesh (head :: tail))
    (hSim :
      env.PostedSim true active session head tail conns len
        mail s t)
    (hBroken : ¬ ChainReady tail)
    (count : String → Nat)
    (pos : Nat)
    (hidden : List H) :
    ∃ e,
      ((SessionOp.relay pos hidden).runPosted
        (env.withChain true) active session (head :: tail)
        count t).1 = .error e := by
  rcases relay_chain_broken (hMesh.withChain true) rfl hBroken
      active pos hidden
      (s := (t.handle session
        ((env.withChain true).clock t.coord.tick) (fun w =>
          if w ∈
              (ownHops true (head :: tail)).map (·.nodeId)
          then (t.mail w).length
          else count w)).coord) hSim.postedPin with
    ⟨e, s₂, hChain⟩
  refine ⟨e, ?_⟩
  simp only [SessionOp.runPosted]
  rw [show (env.withChain true).chain = true from rfl, hChain]

/-
  One operation in both modes: what it shows is the same
  exactly where `SameStep` holds, and then they go on
  together.
-/
theorem PostedSim.step
    (hMesh : env.PinnedMesh (head :: tail))
    (hSim :
      env.PostedSim chain active session head tail conns len
        mail s t)
    (count : String → Nat)
    (op : SessionOp H) :
    ∃ r s' r' t',
      op.run (env.withChain false) active session s =
        (r, s') ∧
      op.runPosted (env.withChain chain) active session
          (head :: tail) count t = (r', t') ∧
      ((r, env.sessionKvs s' session (head :: tail)) =
          (r',
            env.sessionKvs (t'.settled session) session
              (head :: tail)) ↔
        op.SameStep chain head tail conns len
          (op.leaves count conns mail)) ∧
      (op.SameStep chain head tail conns len
          (op.leaves count conns mail) →
        env.PostedSim chain active session head tail conns
          (op.lengthAfter len) (op.leaves count conns mail)
          s' t') := by
  cases op with
  | relay pos hidden =>
      by_cases hReady : chain = true → ChainReady tail
      · rcases hSim.relay hMesh hReady count pos hidden with
          ⟨out, s', out', t', hStar, hOk, hIff, hNext⟩
        refine
          ⟨_, s', _, t', hStar, hOk, ?_, fun hSame =>
            hNext hSame.1⟩
        rw [Prod.mk.injEq, Except.ok.injEq, hIff]
        exact ⟨fun hOn => ⟨hOn, hReady⟩, And.left⟩
      · rcases relay_star_pinnedMesh (hMesh.withChain false)
            rfl active pos hidden hSim.starPin with
          ⟨out, s', hStar, _, _⟩
        have hOn : chain = true := by
          by_contra hOff
          exact hReady (fun h => absurd h hOff)
        subst hOn
        rcases hSim.relay_broken hMesh
            (fun h => hReady (fun _ => h)) count pos hidden
          with ⟨e, hError⟩
        refine
          ⟨_, s', .error e, _, hStar, Prod.ext hError rfl, ?_,
            fun hSame => absurd hSame.2 hReady⟩
        constructor
        · intro hShown
          cases (Prod.mk.inj hShown).1
        · exact fun hSame => absurd hSame.2 hReady
  | truncate length =>
      rcases truncate_controlled
          (hMesh.withChain false).outcome hMesh.dynamic
          active session length s with
        ⟨s', hStar, hStarActed⟩
      rcases truncate_controlled
          (hMesh.withChain chain).outcome hMesh.dynamic
          active session length t.coord with
        ⟨s₂, hOk, hActed⟩
      rcases hSim.control hStarActed hActed with
        ⟨hIff, hNext⟩
      refine
        ⟨_, s', .ok [], t.post active (.truncate length) s₂,
          hStar, ?_, ?_, fun hSame => hNext hSame.2⟩
      · simp only [SessionOp.runPosted, hOk]
      · rw [Prod.mk.injEq, hIff]
        simp [SessionOp.SameStep, SessionOp.OnTime,
          KvOp.Keeps]
  | reset =>
      rcases reset_controlled (hMesh.withChain false).outcome
          hMesh.dynamic active session s with
        ⟨s', hStar, hStarActed⟩
      rcases reset_controlled (hMesh.withChain chain).outcome
          hMesh.dynamic active session t.coord with
        ⟨s₂, hOk, hActed⟩
      rcases hSim.control hStarActed hActed with
        ⟨hIff, hNext⟩
      refine
        ⟨_, s', .ok [], t.post active .reset s₂, hStar, ?_,
          ?_, fun hSame => hNext hSame.2⟩
      · simp only [SessionOp.runPosted, hOk]
      · rw [Prod.mk.injEq, hIff]
        simp [SessionOp.SameStep, SessionOp.OnTime,
          KvOp.Keeps]

/- So it is for the whole session. -/
theorem PostedSim.trace_iff
    (hMesh : env.PinnedMesh (head :: tail))
    (schedule : Nat → String → Nat)
    (n : Nat)
    (hSim :
      env.PostedSim chain active session head tail conns len
        mail s t)
    (ops : List (SessionOp H)) :
    sessionTrace (env.withChain false) active session
          (head :: tail) ops s =
        postedTrace (env.withChain chain) active session
          (head :: tail) schedule n ops t ↔
      SessionOp.SameSteps chain head tail conns schedule n
        len mail ops := by
  induction ops generalizing n len mail s t with
  | nil => simp [sessionTrace, postedTrace, SessionOp.SameSteps]
  | cons op ops ih =>
      rcases hSim.step hMesh (schedule n) op with
        ⟨r, s', r', t', hStar, hOk, hIff, hNext⟩
      simp only [sessionTrace, postedTrace, hStar, hOk,
        SessionOp.SameSteps, List.cons.injEq]
      constructor
      · rintro ⟨hShown, hRest⟩
        have hSame := hIff.mp hShown
        exact ⟨hSame, (ih (n + 1) (hNext hSame)).mp hRest⟩
      · rintro ⟨hSame, hRest⟩
        exact
          ⟨hIff.mpr hSame,
            (ih (n + 1) (hNext hSame)).mpr hRest⟩

/- Nothing is held, cached or pinned for the session. -/
structure FreshSession
    (session : Nat)
    (route : List RouteHop)
    (s : CoordState Tok H P) : Prop where
  localKv : s.localKv session = []
  workerKv : ∀ n ∈ route, s.workerKv n.nodeId session = []
  unpinned : s.sessionRoutes.get? session = none

/- A session with nothing on the way. -/
def PostedState.start
    (s : CoordState Tok H P) :
    PostedState Tok H P where
  coord := s

theorem FreshSession.postedSim
    (hFresh : FreshSession session (head :: tail) s) :
    env.PostedSim chain active session head tail
      (s.conn active).conns 0 (fun _ => []) s
      (PostedState.start s) where
  starPin other hOther := by
    rw [hFresh.unpinned] at hOther
    cases hOther
  postedPin other hOther := by
    have hPin :
        s.sessionRoutes.get? session = some other := hOther
    rw [hFresh.unpinned] at hPin
    cases hPin
  kvs := by
    refine sessionKvs_inj.mpr ⟨fun _ => rfl, fun n _ => ?_⟩
    rw [PostedState.workerKv_settled]
    rfl
  length kv hKv := by
    simp only [sessionKvs, List.mem_append,
      List.mem_map] at hKv
    rcases hKv with ⟨_, _, rfl⟩ | ⟨n, hN, rfl⟩
    · rw [hFresh.localKv, List.length_nil]
    · rw [hFresh.workerKv n hN, List.length_nil]
  starConns hLen := absurd rfl hLen
  ownConns hLen := absurd rfl hLen
  lateConns _ _ := Iff.rfl
  lateMail _ _ := rfl

/-
  In the star a frame might as well be handled as it is
  written, whatever the schedule.
-/
theorem postedTrace_star
    (hMesh : env.PinnedMesh (head :: tail))
    (hFresh : FreshSession session (head :: tail) s)
    (schedule : Nat → String → Nat)
    (ops : List (SessionOp H)) :
    postedTrace (env.withChain false) active session
        (head :: tail) schedule 0 ops
        (PostedState.start s) =
      sessionTrace (env.withChain false) active session
        (head :: tail) ops s :=
  ((hFresh.postedSim.trace_iff hMesh schedule 0 ops).mpr
    (SessionOp.sameSteps_star 0 0 _ ops)).symm

/-
  The chain returns the hidden states of the star and leaves
  the KV of the star at every node exactly where a chain can
  be formed for what is relayed, KV_CTRL either drops no
  cached position or finds a socket to every node after the
  head, and these handle it before the next relay that
  matters.
-/
theorem chain_eq_star_iff
    (hMesh : env.PinnedMesh (head :: tail))
    (hFresh : FreshSession session (head :: tail) s)
    (schedule schedule' : Nat → String → Nat)
    (ops : List (SessionOp H)) :
    postedTrace (env.withChain true) active session
          (head :: tail) schedule 0 ops
          (PostedState.start s) =
        postedTrace (env.withChain false) active session
          (head :: tail) schedule' 0 ops
          (PostedState.start s) ↔
      (SessionOp.HasRelay ops → ChainReady tail) ∧
        (SessionOp.RollbackFree 0 ops ∨
          ∀ n ∈ tail, n.nodeId ∈ (s.conn active).conns) ∧
        SessionOp.HandledInTime tail (s.conn active).conns
          schedule 0 0 (fun _ => []) ops := by
  rw [eq_comm, postedTrace_star hMesh hFresh,
    hFresh.postedSim.trace_iff hMesh,
    SessionOp.sameSteps_chain_iff]

/- Two public nodes, each with a key, that add up. -/
def pairKey : WireKey := List.replicate 32 0

def pairRoute : List RouteHop :=
  [⟨"head", ⟨"head", 1⟩, true, some pairKey⟩,
    ⟨"tail", ⟨"tail", 1⟩, true, some pairKey⟩]

def pairEnv : CoordEnv Nat Nat Unit where
  embed := id
  lmHead := id
  stageOf _ entries := (entries.map (·.1)).sum
  dynamic := true
  provider :=
    { acquire := fun _ p => (.ok pairRoute, p)
      release := fun _ p => p
      markSuspect := fun _ p => p }
  listener endpoint :=
    if endpoint.host = "head" then some "head"
    else if endpoint.host = "tail" then some "tail"
    else none
  outcome _ := .ok

def pairStart : CoordState Nat Nat Unit where
  provider := ()

theorem pairEnv_pinned : pairEnv.PinnedMesh pairRoute where
  outcome _ := rfl
  dynamic := rfl
  grants _ _ := ⟨_, rfl⟩
  nodup := by decide
  endpoints := by decide

theorem pairStart_fresh :
    FreshSession 1 pairRoute pairStart where
  localKv := rfl
  workerKv := by decide
  unpinned := rfl

/- A prefill, a rollback that drops nothing, one step more. -/
theorem chain_eq_star_iff_pair :
    postedTrace (pairEnv.withChain true) 0 1 pairRoute
        (fun _ _ => 0) 0
        [.relay 0 [1, 2], .truncate 2, .relay 2 [3]]
        (PostedState.start pairStart) =
      postedTrace (pairEnv.withChain false) 0 1 pairRoute
        (fun _ _ => 0) 0
        [.relay 0 [1, 2], .truncate 2, .relay 2 [3]]
        (PostedState.start pairStart) := by
  refine
    (chain_eq_star_iff pairEnv_pinned pairStart_fresh _ _
      _).mpr ⟨fun _ => ?_, Or.inl ?_, ?_⟩
  · exact ⟨⟨_, rfl, by decide⟩, by decide⟩
  · simp [SessionOp.RollbackFree, SessionOp.lengthAfter]
  · simp [SessionOp.HandledInTime, SessionOp.OnTime,
      SessionOp.leaves, pairStart]

/-
  A prefill, a verify pass of two tokens, the rollback of
  the rejected one and the next pass: the tail still has it.
-/
theorem chain_ne_star :
    (postedTrace (pairEnv.withChain true) 0 1 pairRoute
        (fun _ _ => 1) 0
        [.relay 0 [1, 2], .relay 2 [3, 4], .truncate 3,
          .relay 3 [5]]
        (PostedState.start pairStart)).map (·.1) ≠
      (postedTrace (pairEnv.withChain false) 0 1 pairRoute
        (fun _ _ => 1) 0
        [.relay 0 [1, 2], .relay 2 [3, 4], .truncate 3,
          .relay 3 [5]]
        (PostedState.start pairStart)).map (·.1) := by
  decide

end CoordEnv

end CircuitDllm
