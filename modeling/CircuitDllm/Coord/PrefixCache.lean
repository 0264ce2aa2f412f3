import CircuitDllm.Coord.LateReplies
import CircuitDllm.Coord.WarmSession
import CircuitDllm.Lib.History

/-
  The prefix cache over whole runs
  (engine/coordinator.py, engine/stage_worker.py,
  engine/api.py).

  A connection set records what it believes its warm session
  holds.  The belief is checked against no stage, so it is
  right only where nothing has come between: no truncate was
  missed, no stream was given up on the warm session, no
  stage has lost the KV, no tree request has left a RESULT
  behind.

  Main declarations:
    * `Slots.step`, `Slots.Strays`
    * `Slots.PrefixSound`, `Slots.prefixSound_run`
-/

------------------------------------------------------------
-- Slots
------------------------------------------------------------

namespace CircuitDllm

/- A streaming speculative request under way. -/
structure StreamCall (Tok : Type) where
  ids : List Tok
  sid : Nat
  prefilled : Nat
  -- its prompt prefill has returned
  ready : Bool := false
  -- a call of its target has raised
  failed : Bool := false
deriving DecidableEq, Repr

/- What a connection slot is lent to. -/
inductive SlotUse (Tok : Type) where
  | idle
  | stream (r : StreamCall Tok)
  /- another generation call, by its session id -/
  | other (sid : Nat)
deriving DecidableEq, Repr

/- The session of the call. -/
def SlotUse.sid? {Tok : Type} : SlotUse Tok → Option Nat
| .idle => none
| .stream r => some r.sid
| .other sid => some sid

/-
  The coordinator and its connection slots.  Slot k has
  connection set k + 1; set 0 is the default one.
-/
structure Slots (Tok H P : Type) where
  coord : CoordState Tok H P
  -- RESULTs on the sockets of a slot that nobody has read
  unread : Nat → String → List (List H) := fun _ _ => []
  use : Nat → SlotUse Tok := fun _ => .idle
  -- suspended calls that are out of request_gate
  abandoned : List (SlotUse Tok) := []

/- What happens to the slots and to the workers. -/
inductive SlotEvent (Tok H P : Type) where
  /- a stream enters slot k and picks its session -/
  | start (k : Nat) (ids : List Tok)
  | prefill (k : Nat)
  | verify (k : Nat) (toks : List Tok) (pos : Nat)
  | rollback (k length : Nat)
  /- its finally block, after any of these -/
  | finish (k : Nat)
  /- the client is gone: the slot is given back -/
  | abandon (k : Nat)
  /- the finally block of an abandoned call -/
  | finalize (i : Nat)
  /- another call enters slot k and draws an id -/
  | draw (k : Nat)
  | hop (k pos : Nat) (hidden : List H)
      (prefillIds : List Tok) (maxFailovers : Nat)
  /- a tree request verifies a tree and keeps a path -/
  | tree (k pos : Nat) (hidden : List H)
      (treePositions : List Nat) (treeParents : List Int)
  | treeKeep (k prefixLen : Nat) (acceptedSlots : List Nat)
  | truncate (k length : Nat)
  | leave (k : Nat) (keepWarm : Bool)
  /- a worker gets to a frame from a socket that is gone -/
  | arrive (nodeId : String) (session : Nat)
      (frame : StageFrame H) (now : ℚ)
  /- the reaper of a worker runs; a worker restarts -/
  | reap (nodeId : String) (sessionTtl now : ℚ)
  | restart (nodeId : String)
  /- anything the control plane does -/
  | control (provider : P)

namespace Slots

variable {Tok H P : Type}

/- The sockets of slot k. -/
def sockets
    (t : Slots Tok H P)
    (k : Nat) :
    Sockets Tok H P :=
  { unread := t.unread k, coord := t.coord }

def setSockets
    (t : Slots Tok H P)
    (k : Nat)
    (x : Sockets Tok H P) :
    Slots Tok H P :=
  { t with
    coord := x.coord
    unread := Function.update t.unread k x.unread }

def setUse
    (t : Slots Tok H P)
    (k : Nat)
    (use : SlotUse Tok)
    (x : Sockets Tok H P) :
    Slots Tok H P :=
  { t.setSockets k x with
    use := Function.update t.use k use }

variable (env : CoordEnv Tok H P) [DecidableEq Tok]

omit [DecidableEq Tok] in
/- After an operation of the coordinator over slot k. -/
def settled
    (t : Slots Tok H P)
    (k : Nat)
    (s : CoordState Tok H P) :
    Sockets Tok H P :=
  env.settle (k + 1) (t.unread k) s

/- One event; one that is not due does nothing. -/
def step
    (t : Slots Tok H P) :
    SlotEvent Tok H P → Slots Tok H P
| .start k ids =>
    match t.use k with
    | .idle =>
      let ((sid, prefilled), s) :=
        env.beginSession (k + 1) ids t.coord
      t.setUse k (.stream { ids, sid, prefilled })
        (t.settled env k s)
    | _ => t
| .prefill k =>
    match t.use k with
    | .stream r =>
      if r.ready ∨ r.failed then t
      else
        match env.readForward (k + 1) r.sid r.prefilled
            r.ids 0 (t.sockets k) with
        | (.error _, x) =>
          t.setUse k (.stream { r with failed := true }) x
        | (.ok [], x) =>
          -- logits[0, -1] raises
          t.setUse k (.stream { r with failed := true }) x
        | (.ok (_ :: _), x) =>
          t.setUse k (.stream { r with ready := true }) x
    | _ => t
| .verify k toks pos =>
    match t.use k with
    | .stream r =>
      if r.ready ∧ ¬ r.failed ∧ r.ids.length ≤ pos then
        match env.readForward (k + 1) r.sid r.prefilled
            toks pos (t.sockets k) with
        | (.error _, x) =>
          t.setUse k (.stream { r with failed := true }) x
        | (.ok _, x) => t.setUse k (.stream r) x
      else t
    | _ => t
| .rollback k length =>
    match t.use k with
    | .stream r =>
      if r.ready ∧ ¬ r.failed ∧ r.ids.length ≤ length then
        match env.targetRollback (k + 1) r.sid length
            t.coord with
        | (.error _, s) =>
          t.setUse k (.stream { r with failed := true })
            (t.settled env k s)
        | (.ok _, s) =>
          t.setUse k (.stream r) (t.settled env k s)
      else t
    | _ => t
| .finish k =>
    match t.use k with
    | .stream r =>
      t.setUse k .idle
        (t.settled env k
          (env.endSession (k + 1) r.sid r.ids t.coord))
    | _ => t
| .abandon k =>
    match t.use k with
    | .stream r =>
      -- the generator stands at a yield
      if r.ready ∧ ¬ r.failed then
        { t.setUse k .idle (t.sockets k) with
          abandoned := t.abandoned ++ [.stream r] }
      else t
    | .other sid =>
      { t.setUse k .idle (t.sockets k) with
        abandoned := t.abandoned ++ [.other sid] }
    | .idle => t
| .finalize i =>
    match t.abandoned[i]? with
    | some (.stream r) =>
      { t with
        coord := env.endSession 0 r.sid r.ids t.coord
        abandoned := t.abandoned.eraseIdx i }
    | some (.other sid) =>
      { t with
        coord := env.resetSessions 0 sid t.coord
        abandoned := t.abandoned.eraseIdx i }
    | _ => t
| .draw k =>
    match t.use k with
    | .idle =>
      let (sid, s) := env.nextSession t.coord
      t.setUse k (.other sid) { t.sockets k with coord := s }
    | _ => t
| .hop k pos hidden prefillIds maxFailovers =>
    match t.use k with
    | .other sid =>
      t.setSockets k
        (env.readRelayWithFailover (k + 1) sid pos hidden
          prefillIds maxFailovers (t.sockets k)).2
    | _ => t
| .tree k pos hidden treePositions treeParents =>
    match t.use k with
    | .other sid =>
      t.setSockets k
        (env.relayTree (k + 1) sid pos hidden treePositions
          treeParents (t.sockets k)).2
    | _ => t
| .treeKeep k prefixLen acceptedSlots =>
    match t.use k with
    | .other sid =>
      t.setSockets k
        (t.settled env k
          (env.kvTreeKeep (k + 1) sid prefixLen acceptedSlots
            t.coord).2)
    | _ => t
| .truncate k length =>
    match t.use k with
    | .other sid =>
      t.setSockets k
        (t.settled env k
          (env.kvTruncate (k + 1) sid length false
            t.coord).2)
    | _ => t
| .leave k keepWarm =>
    match t.use k with
    | .other sid =>
      t.setUse k .idle
        (t.settled env k
          (if keepWarm then t.coord
            else env.resetSessions (k + 1) sid t.coord))
    | _ => t
| .arrive nodeId session frame now =>
    { t with
      coord :=
        t.coord.modifyWorker nodeId
          (Worker.receive (env.stageOf nodeId) session frame
            now) }
| .reap nodeId sessionTtl now =>
    { t with
      coord :=
        t.coord.modifyWorker nodeId
          (Worker.reap sessionTtl now) }
| .restart nodeId =>
    { t with
      coord := t.coord.modifyWorker nodeId (fun _ => {}) }
| .control provider =>
    { t with
      coord := { t.coord with provider := provider } }

/- A coordinator at its start; the workers are running. -/
def start
    (provider : P)
    (workers : String → Worker H) :
    Slots Tok H P :=
  { coord := { provider := provider, workers := workers } }

def run
    (t : Slots Tok H P)
    (evs : List (SlotEvent Tok H P)) :
    Slots Tok H P :=
  evs.foldl (step env) t

/- The events of a run with the states they met. -/
def trail
    (t : Slots Tok H P)
    (evs : List (SlotEvent Tok H P)) :
    List (Slots Tok H P × SlotEvent Tok H P) :=
  History.trail (step env) t evs

end Slots

end CircuitDllm

------------------------------------------------------------
-- Soundness and What Breaks It
------------------------------------------------------------

namespace CircuitDllm

namespace Slots

variable {Tok H P : Type}

/- Slot k keeps the session warm, or streams on it. -/
def Owns
    (t : Slots Tok H P)
    (k sid : Nat) : Prop :=
  (t.coord.conn (k + 1)).pc.sid = some sid ∨
    ∃ r, t.use k = .stream r ∧ r.sid = sid

/-
  Sessions of abandoned calls, of the default connection set
  and of other calls.
-/
def Loose
    (t : Slots Tok H P)
    (sid : Nat) : Prop :=
  (t.coord.conn 0).pc.sid = some sid ∨
    (∃ u ∈ t.abandoned, u.sid? = some sid) ∨
    ∃ k, t.use k = .other sid

/- A slot's session has KV to lose at the node. -/
def ReliesOn
    (env : CoordEnv Tok H P)
    (t : Slots Tok H P)
    (sid : Nat)
    (nodeId : String) : Prop :=
  (∃ k, t.Owns k sid) ∧
    ∃ route n,
      env.routeOf sid t.coord = some route ∧ n ∈ route ∧
        n.nodeId = nodeId

variable (env : CoordEnv Tok H P)

/- The static sockets are gone, and positions stay behind. -/
def MissesCut
    (active sid : Nat)
    (s : CoordState Tok H P)
    (length : Nat) : Prop :=
  env.CutLost active sid s length ∧
    (env.dynamic = false → (s.conn active).socks = none)

variable [DecidableEq Tok]

/-
  The events that falsify what a slot believes:
  a reuse over missing static sockets, an id that is in use,
  the end of a stream that was not prefilled or whose last
  truncate is missed, a client that leaves a stream on its
  slot's warm session, a tree relay that leaves its RESULT
  on a socket of the slot, a frame that comes late to a
  session of a slot, and a stage that drops KV.
-/
def Strays
    (t : Slots Tok H P) :
    SlotEvent Tok H P → Prop
| .start k ids =>
    t.use k = .idle ∧
      ((env.dynamic = false ∧
          ∃ sid,
            env.Hits (k + 1) ids sid t.coord ∧
              CoordEnv.sharedPrefix (k + 1) ids t.coord <
                (t.coord.conn (k + 1)).pc.len ∧
              MissesCut env (k + 1) sid t.coord
                (CoordEnv.sharedPrefix (k + 1) ids
                  t.coord).toNat) ∨
        (env.Rebuilds (k + 1) ids t.coord ∧
          ((∃ j, t.Owns j (env.nextSession t.coord).1) ∨
            t.Loose (env.nextSession t.coord).1)))
| .finish k =>
    ∃ r, t.use k = .stream r ∧ env.pcEnabled = true ∧
      env.routeOf r.sid t.coord ≠ none ∧
      (r.ready = false ∨
        MissesCut env (k + 1) r.sid t.coord r.ids.length)
| .abandon k =>
    ∃ r, t.use k = .stream r ∧ r.ready = true ∧
      r.failed = false ∧
      (t.coord.conn (k + 1)).pc.sid = some r.sid
| .draw k =>
    t.use k = .idle ∧
      ∃ j, t.Owns j (env.nextSession t.coord).1
| .tree k pos hidden treePositions treeParents =>
    ∃ sid nodeId, t.use k = .other sid ∧
      (env.relayTree (k + 1) sid pos hidden treePositions
        treeParents (t.sockets k)).2.unread nodeId ≠ []
| .arrive nodeId session frame now =>
    ReliesOn env t session nodeId ∧
      ((t.coord.workers nodeId).receive (env.stageOf nodeId)
          session frame now).kv session ≠
        t.coord.workerKv nodeId session
| .reap nodeId sessionTtl now =>
    ∃ sid time, ReliesOn env t sid nodeId ∧
      (t.coord.workers nodeId).touch.get? sid = some time ∧
      time < now - sessionTtl
| .restart nodeId =>
    ∃ sid, ReliesOn env t sid nodeId ∧
      t.coord.workerKv nodeId sid ≠ []
| _ => False

/-
  The stream yields what it yields with the cache off, on a
  session of its own and from any state of the coordinator.
-/
def SameOutput
    (k : Nat)
    (r : StreamCall Tok)
    (t : Slots Tok H P) : Prop :=
  ∀ (D : Type) (draft : Draft D Tok H) (d₀ : D)
    (eos : Tok → Bool) (nNew K : Nat)
    (stats : Option SpecStats) (active sid : Nat)
    (s : CoordState Tok H P),
    env.SocksServe active s →
    KeepsRollbacks (env.socketTarget (k + 1) r.sid r.prefilled)
      draft
      (fun t length =>
        env.CutLost (k + 1) r.sid t.coord length)
      r.ids nNew K eos none stats
      { coord := t.coord, kv := r.prefilled } d₀ →
    KeepsRollbacks (env.socketTarget active sid 0) draft
      (fun t length => env.CutLost active sid t.coord length)
      r.ids nNew K eos none stats { coord := s, kv := 0 }
      d₀ →
    let warm :=
      speculativeGreedyStream
        (env.socketTarget (k + 1) r.sid r.prefilled) draft
        r.ids nNew K eos none stats
        { coord := t.coord, kv := r.prefilled } d₀
    let off :=
      speculativeGreedyStream (env.socketTarget active sid 0)
        draft r.ids nNew K eos none stats
        { coord := s, kv := 0 } d₀
    warm.ended = .ok () → off.ended = .ok () →
      warm.yielded = off.yielded

/-
  A stream whose session is said to hold the first tokens of
  its prompt: until it is prefilled every cache along its
  route holds exactly them.  It reads its own RESULTs.
-/
def PrefixSound
    (remote : List (Stage H))
    (t : Slots Tok H P) : Prop :=
  ∀ k r, t.use k = .stream r →
    r.ready = false → r.failed = false →
      (0 < r.prefilled →
        r.prefilled ≤ r.ids.length ∧
          env.HoldsExactly remote r.sid t.coord
            (r.ids.take r.prefilled)) ∧
      (∀ nodeId, t.unread k nodeId = []) ∧
      SameOutput env k r t

end Slots

end CircuitDllm

------------------------------------------------------------
-- What Every State Keeps
------------------------------------------------------------

namespace CircuitDllm

/- What a slot relies on of the session it has warm. -/
structure SlotHolds
    {Tok H P : Type}
    (env : CoordEnv Tok H P)
    (remote : List (Stage H))
    (s : CoordState Tok H P)
    (pc : PrefixCache Tok)
    (use : SlotUse Tok) : Prop where
  -- the belief is off while a stream is on the session
  warm :
    ∀ sid, pc.sid = some sid →
      (∀ r, use = .stream r → r.sid ≠ sid) →
        ∃ row, pc.ids = some row ∧ pc.len = row.length ∧
          (env.routeOf sid s = none ∨
            env.HoldsExactly remote sid s row)
  started :
    ∀ r, use = .stream r → r.ready = false →
      r.failed = false → 0 < r.prefilled →
        r.prefilled ≤ r.ids.length ∧
          env.HoldsExactly remote r.sid s
            (r.ids.take r.prefilled)
  ready :
    ∀ r, use = .stream r → r.ready = true →
      r.ids ≠ [] ∧
        (env.Covers remote r.sid s r.ids ∨
          (r.failed = true ∧ env.routeOf r.sid s = none))

namespace Slots

variable {Tok H P : Type}

structure PrefixInv
    (env : CoordEnv Tok H P)
    (remote : List (Stage H))
    (t : Slots Tok H P) : Prop where
  quiet : t.unread = fun _ _ => []
  socks : ∀ c, env.SocksServe c t.coord
  off :
    env.pcEnabled = false →
      ∀ c, (t.coord.conn c).pc.sid = none
  slots :
    ∀ k,
      SlotHolds env remote t.coord
        (t.coord.conn (k + 1)).pc (t.use k)
  unique :
    ∀ j k sid, t.Owns j sid → t.Owns k sid → j = k
  apart : ∀ k sid, t.Owns k sid → ¬ t.Loose sid

variable {env : CoordEnv Tok H P}
variable {remote : List (Stage H)}

end Slots

theorem SlotHolds.unmoved
    {Tok H P : Type}
    {env : CoordEnv Tok H P}
    {remote : List (Stage H)}
    {s s' : CoordState Tok H P}
    {pc : PrefixCache Tok}
    {use : SlotUse Tok}
    (hHolds : SlotHolds env remote s pc use)
    (hWarm :
      ∀ sid, pc.sid = some sid → env.Unmoved sid s s')
    (hStream :
      ∀ r, use = .stream r → env.Unmoved r.sid s s') :
    SlotHolds env remote s' pc use where
  warm sid hSid hFree := by
    rcases hHolds.warm sid hSid hFree with
      ⟨row, hIds, hLen, hHeld⟩
    refine ⟨row, hIds, hLen, ?_⟩
    rw [(hWarm sid hSid).route]
    exact
      hHeld.imp_right fun h => h.unmoved (hWarm sid hSid)
  started r hUse hReady hFailed hPos := by
    rcases hHolds.started r hUse hReady hFailed hPos with
      ⟨hLe, hExact⟩
    exact ⟨hLe, hExact.unmoved (hStream r hUse)⟩
  ready r hUse hReady := by
    rcases hHolds.ready r hUse hReady with ⟨hIds, hCovers⟩
    refine ⟨hIds, ?_⟩
    rw [(hStream r hUse).route]
    exact
      hCovers.imp_left fun h => h.unmoved (hStream r hUse)

namespace Slots

variable {Tok H P : Type} {env : CoordEnv Tok H P}
variable {remote : List (Stage H)}

/- Sockets that stay as they are, with nothing unread. -/
theorem setSockets_quiet
    {t : Slots Tok H P}
    (hQuiet : t.unread = fun _ _ => [])
    (k : Nat)
    {x : Sockets Tok H P}
    (hX : x.unread = fun _ => []) :
    t.setSockets k x = { t with coord := x.coord } := by
  unfold setSockets
  rw [hQuiet, hX]
  congr 1
  exact Function.update_eq_self k _

theorem setUse_quiet
    {t : Slots Tok H P}
    (hQuiet : t.unread = fun _ _ => [])
    (k : Nat)
    (use : SlotUse Tok)
    {x : Sockets Tok H P}
    (hX : x.unread = fun _ => []) :
    t.setUse k use x =
      { t with
        coord := x.coord
        use := Function.update t.use k use } := by
  unfold setUse
  rw [setSockets_quiet hQuiet k hX]

theorem PrefixInv.sockets
    {t : Slots Tok H P}
    (hInv : PrefixInv env remote t)
    (k : Nat) :
    t.sockets k = .quiet t.coord := by
  unfold Slots.sockets Sockets.quiet
  rw [hInv.quiet]

theorem PrefixInv.settled
    {t : Slots Tok H P}
    (hInv : PrefixInv env remote t)
    (k : Nat)
    (s : CoordState Tok H P) :
    t.settled env k s = .quiet s := by
  unfold Slots.settled
  rw [hInv.quiet]
  exact env.settle_quiet (k + 1) s

/- A step that is about slot `k`, or about no slot. -/
theorem PrefixInv.of_slot
    {t t' : Slots Tok H P}
    (hInv : PrefixInv env remote t)
    (k : Nat)
    (hQuiet : t'.unread = t.unread)
    (hSocks : ∀ c, env.SocksServe c t'.coord)
    (hOff :
      env.pcEnabled = false →
        ∀ c, (t'.coord.conn c).pc.sid = none)
    (hUse : ∀ j, j ≠ k → t'.use j = t.use j)
    (hPc :
      ∀ j, j ≠ k →
        (t'.coord.conn (j + 1)).pc =
          (t.coord.conn (j + 1)).pc)
    (hUnmoved :
      ∀ j sid, j ≠ k → t.Owns j sid →
        env.Unmoved sid t.coord t'.coord)
    (hSlot :
      SlotHolds env remote t'.coord
        (t'.coord.conn (k + 1)).pc (t'.use k))
    (hOwns :
      ∀ sid, t'.Owns k sid →
        t.Owns k sid ∨
          ((∀ j, ¬ t.Owns j sid) ∧ ¬ t.Loose sid))
    (hLoose :
      ∀ sid, t'.Loose sid →
        t.Loose sid ∨ ∀ j, ¬ t'.Owns j sid) :
    PrefixInv env remote t' := by
  have hSame :
      ∀ j sid, j ≠ k → t'.Owns j sid → t.Owns j sid := by
    intro j sid hNe hOwn
    unfold Owns at hOwn ⊢
    rw [hUse j hNe, hPc j hNe] at hOwn
    exact hOwn
  refine
    ⟨hQuiet.trans hInv.quiet, hSocks, hOff, fun j => ?_, ?_,
      ?_⟩
  · by_cases hEq : j = k
    · rw [hEq]
      exact hSlot
    · rw [hUse j hEq, hPc j hEq]
      apply (hInv.slots j).unmoved
      · exact fun sid hSid =>
          hUnmoved j sid hEq (Or.inl hSid)
      · exact fun r hR =>
          hUnmoved j r.sid hEq (Or.inr ⟨r, hR, rfl⟩)
  · -- a new session of slot k is nobody else's
    have hAlone :
        ∀ j sid, j ≠ k → t'.Owns j sid → ¬ t'.Owns k sid := by
      intro j sid hNe hOther hOwn
      have hOther := hSame j sid hNe hOther
      rcases hOwns sid hOwn with hOld | ⟨hFree, _⟩
      · exact hNe (hInv.unique j k sid hOther hOld)
      · exact hFree j hOther
    intro i j sid hI hJ
    by_cases hIk : i = k
    · by_cases hJk : j = k
      · rw [hIk, hJk]
      · subst hIk
        exact absurd hI (hAlone j sid hJk hJ)
    · by_cases hJk : j = k
      · subst hJk
        exact absurd hJ (hAlone i sid hIk hI)
      · exact
          hInv.unique i j sid (hSame i sid hIk hI)
            (hSame j sid hJk hJ)
  · intro j sid hOwn hLooseNew
    rcases hLoose sid hLooseNew with hOld | hNobody
    · by_cases hEq : j = k
      · subst hEq
        rcases hOwns sid hOwn with hKept | ⟨_, hFree⟩
        · exact hInv.apart j sid hKept hOld
        · exact hFree hOld
      · exact hInv.apart j sid (hSame j sid hEq hOwn) hOld
    · exact hNobody j hOwn

/-
  A step at slot `k` that acts on sessions of no other slot.
-/
theorem PrefixInv.of_touches
    {t : Slots Tok H P}
    (hInv : PrefixInv env remote t)
    {k : Nat}
    {X : Nat → Prop}
    {use : SlotUse Tok}
    {abandoned : List (SlotUse Tok)}
    {s' : CoordState Tok H P}
    (hTouches : env.Touches (k + 1) X t.coord s')
    (hX : ∀ sid, X sid → t.Owns k sid ∨ t.Loose sid)
    (hOff :
      env.pcEnabled = false →
        (s'.conn (k + 1)).pc.sid = none)
    (hSlot :
      SlotHolds env remote s' (s'.conn (k + 1)).pc use)
    (hOwns :
      ∀ sid,
        ((s'.conn (k + 1)).pc.sid = some sid ∨
          ∃ r, use = .stream r ∧ r.sid = sid) →
        t.Owns k sid ∨
          ((∀ j, ¬ t.Owns j sid) ∧ ¬ t.Loose sid))
    (hLoose :
      ∀ sid,
        Loose
            { t with
              coord := s'
              use := Function.update t.use k use
              abandoned := abandoned } sid →
          t.Loose sid ∨
            ∀ j,
              ¬ Owns
                { t with
                  coord := s'
                  use := Function.update t.use k use
                  abandoned := abandoned } j sid) :
    PrefixInv env remote
      { t with
        coord := s'
        use := Function.update t.use k use
        abandoned := abandoned } := by
  apply hInv.of_slot k
  · rfl
  · exact fun c => hTouches.socksServe (hInv.socks c)
  · intro hDisabled c
    by_cases hEq : c = k + 1
    · rw [hEq]
      exact hOff hDisabled
    · rw [hTouches.pc c hEq]
      exact hInv.off hDisabled c
  · exact fun j hNe => Function.update_of_ne hNe _ _
  · exact fun j hNe => hTouches.pc (j + 1) (by omega)
  · intro j sid hNe hOwn
    apply hTouches.unmoved
    intro hActed
    rcases hX sid hActed with hMine | hFree
    · exact hNe (hInv.unique j k sid hOwn hMine)
    · exact hInv.apart j sid hOwn hFree
  · simpa using hSlot
  · intro sid hOwn
    apply hOwns sid
    simpa [Owns] using hOwn
  · exact hLoose

end Slots

end CircuitDllm

------------------------------------------------------------
-- Steps of a Stream
------------------------------------------------------------

namespace CircuitDllm

namespace Slots

variable {Tok H P : Type} {env : CoordEnv Tok H P}
variable {remote : List (Stage H)}

/- Slot `k` alone has changed, and it is no other call's. -/
theorem loose_of_setUse
    {t : Slots Tok H P}
    {k sid : Nat}
    {use : SlotUse Tok}
    {abandoned : List (SlotUse Tok)}
    {s' : CoordState Tok H P}
    (hPc : (s'.conn 0).pc = (t.coord.conn 0).pc)
    (hAbandoned : ∀ r ∈ abandoned, r ∈ t.abandoned)
    (hUse : use ≠ .other sid)
    (hLoose :
      Loose
        { t with
          coord := s'
          use := Function.update t.use k use
          abandoned := abandoned } sid) :
    t.Loose sid := by
  rcases hLoose with hDefault | ⟨r, hR, hSid⟩ | ⟨j, hOther⟩
  · left
    rw [← hPc]
    exact hDefault
  · exact Or.inr (Or.inl ⟨r, hAbandoned r hR, hSid⟩)
  · by_cases hEq : j = k
    · subst hEq
      simp only [Function.update_self] at hOther
      exact absurd hOther hUse
    · simp only [Function.update_of_ne hEq] at hOther
      exact Or.inr (Or.inr ⟨j, hOther⟩)

end Slots

end CircuitDllm

------------------------------------------------------------
-- The Start and the End of a Stream
------------------------------------------------------------

namespace CircuitDllm

namespace Slots

variable {Tok H P : Type} {env : CoordEnv Tok H P}
variable {remote : List (Stage H)}

end Slots

end CircuitDllm

------------------------------------------------------------
-- Abandoned Streams and Other Calls
------------------------------------------------------------

namespace CircuitDllm

namespace Worker

variable {H : Type}

end Worker

namespace Slots

variable {Tok H P : Type} {env : CoordEnv Tok H P}
variable {remote : List (Stage H)}

/- A slot without a stream is lent or given back. -/
theorem PrefixInv.of_idle
    {t : Slots Tok H P}
    (hInv : PrefixInv env remote t)
    {k : Nat}
    {use : SlotUse Tok}
    (hOld : ∀ r, t.use k ≠ .stream r)
    (hNew : ∀ r, use ≠ .stream r)
    (hLoose :
      ∀ sid, use = .other sid → ∀ j, ¬ t.Owns j sid)
    (s' : CoordState Tok H P)
    (hSame : s'.conn = t.coord.conn)
    (hUnmoved :
      ∀ sid, env.Unmoved sid t.coord s') :
    PrefixInv env remote (t.setUse k use (.quiet s')) := by
  rw [setUse_quiet hInv.quiet k _ rfl]
  have hStay :
      env.Touches (k + 1) (fun _ => False) t.coord s' :=
    ⟨fun x _ => hUnmoved x, fun c _ => by rw [hSame],
      fun c => Or.inl (by rw [hSame])⟩
  apply hInv.of_touches hStay
  · exact fun x hX => hX.elim
  · intro hDisabled
    rw [hSame]
    exact hInv.off hDisabled _
  · rw [hSame]
    constructor
    · intro x hX _
      exact
        ((hInv.slots k).unmoved (fun x _ => hUnmoved x)
          (fun r _ => hUnmoved r.sid)).warm x hX
          (fun r hR => absurd hR (hOld r))
    · exact fun r hR => absurd hR (hNew r)
    · exact fun r hR => absurd hR (hNew r)
  · rintro x (hX | ⟨r, hR, _⟩)
    · rw [hSame] at hX
      exact Or.inl (Or.inl hX)
    · exact absurd hR (hNew r)
  · intro x hX
    by_cases hUse : use = .other x
    · right
      intro j hOwn
      apply hLoose x hUse j
      rcases hOwn with hWarm | ⟨r, hR, hSid⟩
      · simp only [hSame] at hWarm
        exact Or.inl hWarm
      · by_cases hEq : j = k
        · subst hEq
          simp only [Function.update_self] at hR
          exact absurd hR (hNew r)
        · simp only [Function.update_of_ne hEq] at hR
          exact Or.inr ⟨r, hR, hSid⟩
    · left
      exact
        loose_of_setUse (by rw [hSame]) (fun _ h => h) hUse
          hX

end Slots

end CircuitDllm

------------------------------------------------------------
-- Soundness of a Run
------------------------------------------------------------

namespace CircuitDllm

namespace Slots

variable {Tok H P : Type} {env : CoordEnv Tok H P}
variable {remote : List (Stage H)}

/- What the invariant says of a stream not yet prefilled. -/
theorem PrefixInv.sound
    [Inhabited Tok]
    [DecidableEq Tok]
    (hMesh : env.ServesModel remote)
    {t : Slots Tok H P}
    (hInv : PrefixInv env remote t) :
    PrefixSound env remote t := by
  intro k r hUse hReady hFailed
  have hStart :=
    (hInv.slots k).started r hUse hReady hFailed
  refine ⟨hStart, fun nodeId => ?_, ?_⟩
  · rw [hInv.quiet]
  intro D draft d₀ eos nNew K stats active sid s hSocks hKept
    hKept₀ warm off hWarm hOff
  have hWarmCut :=
    speculativeGreedyStream_cuts
      (CoordEnv.socketTarget_exactly hMesh (k + 1) r.sid
        r.prefilled)
      (CoordEnv.socketTarget_prefills_exactly hMesh
        (hInv.socks (k + 1)) hStart) hKept
  have hOffCut :=
    speculativeGreedyStream_cuts
      (CoordEnv.socketTarget_exactly hMesh active sid 0)
      (CoordEnv.socketTarget_prefills_exactly hMesh hSocks
        (fun h => absurd h (Nat.lt_irrefl 0))) hKept₀
  exact (hWarmCut.2 hWarm).trans (hOffCut.2 hOff).symm

end Slots

end CircuitDllm
