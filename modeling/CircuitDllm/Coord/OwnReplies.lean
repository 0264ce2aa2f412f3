import CircuitDllm.Coord.State
import CircuitDllm.Lib.Channel

/-
  Which reply a relay reads (engine/coordinator.py).

  Nothing in a RESULT says which activation it answers: a
  relay takes the next one that arrives.  A path whose read
  times out must therefore give the socket up.  The relays
  of single tokens and of chains do; those of trees and of
  batches keep it.

  Main declarations:
    * `exchangeOn`, `relayHops`, `relayRoute`
    * `Wires.step`
    * `OwnReplies`, `Wires.ownReplies_run`
-/

------------------------------------------------------------
-- Exchanges
------------------------------------------------------------

namespace CircuitDllm

/- An activation frame, numbered in the order of writing. -/
structure ActFrame where
  number : Nat
  session : Nat
  pos : Nat
deriving DecidableEq, Repr

/- The type of a reply. -/
inductive ReplyType where
  | result
  | error
  | other
deriving DecidableEq, Repr

/- A stage socket with the worker behind it. -/
abbrev Socket := Channel ActFrame

/- How the socket calls of one relay end, hop by hop. -/
structure Net where
  dial : Nat → Bool
  write : Nat → Outcome
  -- false when the read times out
  read : Nat → Bool

/- What a relay works with. -/
structure WiresConfig where
  dynamic : Bool
  chain : Bool
  stageAddrs : List String
  -- what the worker makes of a frame
  replyType : ActFrame → ReplyType

/-
  The frames written so far, and each reply read: the frame
  the call had written and the frame it answers.
-/
structure FrameLog where
  sent : Nat := 0
  read : List (ActFrame × ActFrame) := []
deriving DecidableEq, Repr

/- Every reply read answers the frame its reader wrote. -/
def OwnReplies (log : FrameLog) : Prop :=
  ∀ e ∈ log.read, e.2 = e.1

variable (cfg : WiresConfig)

/- Write an activation frame and read a reply. -/
def exchangeOn
    (net : Net)
    (i session pos : Nat)
    (sock : Socket)
    (log : FrameLog) :
    Option ReplyType × Socket × FrameLog :=
  let frame : ActFrame := ⟨log.sent, session, pos⟩
  let wrote := { log with sent := log.sent + 1 }
  match net.write i with
  | .failBefore => (none, sock, log)
  | .failAfter => (none, sock.send frame, wrote)
  | .ok =>
    if ¬ net.read i then (none, sock.send frame, wrote)
    else
      match (sock.send frame).await with
      | none => (none, sock.send frame, wrote)
      | some (answered, sock) =>
        (some (cfg.replyType answered), sock,
          { wrote with
            read := wrote.read ++ [(frame, answered)] })

/- The exchange has not left a reply behind. -/
def Net.InTime (net : Net) : Prop :=
  ∀ i, net.write i ≠ .failAfter ∧ net.read i = true

variable {cfg}

/-
  On a quiet socket the reply read is the exchange's own,
  and a socket is left with a reply to come only by an
  exchange that raises late.
-/
theorem exchangeOn_quiet
    {net : Net}
    {i session pos : Nat}
    {sock sock' : Socket}
    {log log' : FrameLog}
    {reply : Option ReplyType}
    (hQuiet : sock.Quiet)
    (hOwn : OwnReplies log)
    (hRun :
      exchangeOn cfg net i session pos sock log =
        (reply, sock', log')) :
    OwnReplies log' ∧
      (reply ≠ none ∨ net.InTime → sock'.Quiet) := by
  unfold exchangeOn at hRun
  simp only at hRun
  split at hRun
  next hWrite =>
    cases hRun
    exact ⟨hOwn, fun _ => hQuiet⟩
  next hWrite =>
    cases hRun
    refine ⟨hOwn, ?_⟩
    rintro (hReply | hInTime)
    · exact absurd rfl hReply
    · exact absurd hWrite (hInTime i).1
  next hWrite =>
    split at hRun
    next hRead =>
      cases hRun
      refine ⟨hOwn, ?_⟩
      rintro (hReply | hInTime)
      · exact absurd rfl hReply
      · exact absurd (hInTime i).2 hRead
    next =>
      split at hRun
      next hNone =>
        rcases Channel.exists_await_send
            ⟨log.sent, session, pos⟩ sock with
          ⟨r, hSome⟩
        rw [hNone] at hSome
        cases hSome
      next answered sock₂ hAwait =>
        cases hRun
        rcases hQuiet.await_send hAwait with ⟨rfl, hQuiet'⟩
        refine ⟨?_, fun _ => hQuiet'⟩
        intro e hE
        rcases List.mem_append.mp hE with hOld | hNew
        · exact hOwn e hOld
        · rw [List.mem_singleton] at hNew
          rw [hNew]

end CircuitDllm

------------------------------------------------------------
-- Relays
------------------------------------------------------------

namespace CircuitDllm

/- One connection set and the frames written over it. -/
structure Wires where
  socks : Option (List Socket) := none
  conns : Dict String Socket := .empty
  log : FrameLog := {}

namespace Wires

variable (cfg : WiresConfig)

/-
  A round trip for each static socket, up to the first that
  raises; the sockets it leaves.
-/
def relayHops
    (net : Net)
    (session pos : Nat) :
    Nat → List Socket → FrameLog →
      Bool × List Socket × FrameLog
| _, [], log => (true, [], log)
| i, sock :: socks, log =>
    match exchangeOn cfg net i session pos sock log with
    | (some .result, sock, log) =>
      let (ok, socks, log) :=
        relayHops net session pos (i + 1) socks log
      (ok, sock :: socks, log)
    | (_, sock, log) => (false, sock :: socks, log)

/- _ensure_connected: none when a dial raises. -/
def ensureConnected
    (net : Net)
    (w : Wires) :
    Option (List Socket) :=
  match w.socks with
  | some socks => some socks
  | none =>
    if ∀ i, i < cfg.stageAddrs.length → net.dial i then
      some (cfg.stageAddrs.map (fun _ => {}))
    else none

/- Over the static sockets; `drops` gives them up on error. -/
def relaySocks
    (drops : Bool)
    (net : Net)
    (session pos : Nat)
    (w : Wires) :
    Wires :=
  match w.ensureConnected cfg net with
  | none => { w with socks := none }
  | some socks =>
    match relayHops cfg net session pos 0 socks w.log with
    | (ok, socks, log) =>
      { w with
        socks := if ok ∨ ¬ drops then some socks else none
        log := log }

/- _conn_for: none when the dial raises. -/
def connFor
    (net : Net)
    (i : Nat)
    (nodeId : String)
    (w : Wires) :
    Option Socket :=
  match w.conns.get? nodeId with
  | some sock => some sock
  | none => if net.dial i then some {} else none

/- Whether a hop leaves its socket in the set. -/
def keepsSocket
    (drops : Bool)
    (keeps : ReplyType → Bool) :
    Option ReplyType → Bool
| none => !drops
| some t => keeps t

/- A round trip to one node; `keeps` keeps it on a reply. -/
def hop
    (drops : Bool)
    (keeps : ReplyType → Bool)
    (net : Net)
    (i session pos : Nat)
    (nodeId : String)
    (w : Wires) :
    Bool × Wires :=
  match w.connFor net i nodeId with
  | none =>
    (false,
      { w with
        conns :=
          if drops then w.conns.erase nodeId else w.conns })
  | some sock =>
    match exchangeOn cfg net i session pos sock w.log with
    | (reply, sock, log) =>
      (reply = some .result,
        { w with
          conns :=
            if keepsSocket drops keeps reply then
              w.conns.set nodeId sock
            else w.conns.erase nodeId
          log := log })

/- A round trip to each node of a route. -/
def relayRoute
    (drops : Bool)
    (net : Net)
    (session pos : Nat) :
    Nat → List String → Wires → Wires
| _, [], w => w
| i, nodeId :: route, w =>
    match hop cfg drops (fun t => t = .result ∨ ¬ drops) net
        i session pos nodeId w with
    | (true, w) =>
      relayRoute drops net session pos (i + 1) route w
    | (false, w) => w

/- One round trip to the head of a chain. -/
def relayChain
    (net : Net)
    (session pos : Nat)
    (route : List String)
    (w : Wires) :
    Wires :=
  match route with
  | [] => w
  | head :: _ =>
    (hop cfg true (fun t => t ≠ .error) net 0 session pos
      head w).2

/- _relay: the star, the chain or the static stages. -/
def relay
    (net : Net)
    (session pos : Nat)
    (route : List String)
    (w : Wires) :
    Wires :=
  if cfg.dynamic then
    if cfg.chain then relayChain cfg net session pos route w
    else relayRoute cfg true net session pos 0 route w
  else relaySocks cfg true net session pos w

/- _relay_tree handles no error. -/
def relayTree
    (net : Net)
    (session pos : Nat)
    (route : List String)
    (w : Wires) :
    Wires :=
  if cfg.dynamic then
    relayRoute cfg false net session pos 0 route w
  else relaySocks cfg false net session pos w

/- _relay_batch, over the static stages, handles none. -/
def relayBatch
    (net : Net)
    (batchId pos : Nat)
    (w : Wires) :
    Wires :=
  relaySocks cfg false net batchId pos w

/- An audit challenges two nodes and drops both on error. -/
def audit
    (net : Net)
    (auditSession : Nat)
    (refId testId : String)
    (w : Wires) :
    Wires :=
  let keeps := fun t => t = ReplyType.result
  let dropBoth := fun (w : Wires) =>
    { w with conns := (w.conns.erase refId).erase testId }
  match hop cfg true keeps net 0 auditSession 0 refId w with
  | (false, w) => dropBoth w
  | (true, w) =>
    match hop cfg true keeps net 1 auditSession 0 testId w with
    | (false, w) => dropBoth w
    | (true, w) => w

end Wires

end CircuitDllm

------------------------------------------------------------
-- Control Frames
------------------------------------------------------------

namespace CircuitDllm

namespace Wires

variable (cfg : WiresConfig)

/-
  KV_CTRL to each open connection: a failed write drops the
  connection, and ends a strict call.
-/
def controlConns
    (strict : Bool)
    (net : Net) :
    Nat → List String → Wires → Wires
| _, [], w => w
| i, nodeId :: nodeIds, w =>
    if net.write i = .ok then
      controlConns strict net (i + 1) nodeIds w
    else
      let w := { w with conns := w.conns.erase nodeId }
      if strict then w
      else controlConns strict net (i + 1) nodeIds w

/- A reset that fails drops the static sockets. -/
def resetSessions (net : Net) (w : Wires) : Wires :=
  if cfg.dynamic then
    controlConns false net 0 w.conns.keys w
  else if ∀ i, i < (w.socks.getD []).length →
      net.write i = .ok then w
  else { w with socks := none }

/-
  _kv_truncate and _kv_tree_keep; over static sockets a
  failed write only raises.
-/
def kvControl
    (strict : Bool)
    (net : Net)
    (w : Wires) :
    Wires :=
  if cfg.dynamic then
    controlConns strict net 0 w.conns.keys w
  else w

/- What is done over a connection set, call by call. -/
inductive Event where
  | relay (session pos : Nat) (route : List String)
  | relayTree (session pos : Nat) (route : List String)
  | relayBatch (batchId pos : Nat)
  | audit (session : Nat) (refId testId : String)
  | resetSessions
  | kvControl (strict : Bool)
  /- _reset_batch: failed writes are ignored -/
  | resetBatch
  /- a worker gets to its oldest request -/
  | serveConn (nodeId : String)
  | serveSock (i : Nat)

def step (w : Wires) (e : Event × Net) : Wires :=
  match e.1 with
  | .relay session pos route =>
      w.relay cfg e.2 session pos route
  | .relayTree session pos route =>
      w.relayTree cfg e.2 session pos route
  | .relayBatch batchId pos =>
      w.relayBatch cfg e.2 batchId pos
  | .audit session refId testId =>
      w.audit cfg e.2 session refId testId
  | .resetSessions => w.resetSessions cfg e.2
  | .kvControl strict => w.kvControl cfg strict e.2
  | .resetBatch => w
  | .serveConn nodeId =>
      { w with
        conns := w.conns.modify nodeId Channel.serve }
  | .serveSock i =>
      { w with
        socks := w.socks.map (·.modify i Channel.serve) }

def run (w : Wires) (es : List (Event × Net)) : Wires :=
  es.foldl (step cfg) w

/- The calls that keep a socket whose read timed out. -/
def Event.KeepsSockets : Event → Prop
| .relayTree _ _ _ => True
| .relayBatch _ _ => True
| _ => False

end Wires

end CircuitDllm

------------------------------------------------------------
-- Quiet Sockets
------------------------------------------------------------

namespace CircuitDllm

namespace Wires

variable {cfg : WiresConfig} {w : Wires} {net : Net}

/- No socket in use has a reply to come. -/
structure Quiet (w : Wires) : Prop where
  socks :
    ∀ socks, w.socks = some socks →
      ∀ sock ∈ socks, sock.Quiet
  conns :
    ∀ nodeId sock, w.conns.get? nodeId = some sock →
      sock.Quiet
  own : OwnReplies w.log

theorem quiet_new : ({} : Wires).Quiet where
  socks := by
    intro socks hSocks
    cases hSocks
  conns := by
    intro nodeId sock hSock
    cases hSock
  own := by
    intro e hE
    cases hE

/- Connections given up leave the others quiet. -/
theorem Quiet.erase
    (hQuiet : w.Quiet)
    (nodeId : String) :
    Quiet { w with conns := w.conns.erase nodeId } where
  socks := hQuiet.socks
  conns := by
    intro n sock hSock
    rw [Dict.get?_erase] at hSock
    split at hSock
    · cases hSock
    · exact hQuiet.conns n sock hSock
  own := hQuiet.own

theorem Quiet.set
    (hQuiet : w.Quiet)
    (nodeId : String)
    {sock : Socket}
    (hSock : sock.Quiet) :
    Quiet { w with conns := w.conns.set nodeId sock } where
  socks := hQuiet.socks
  conns := by
    intro n sock' hSock'
    rw [Dict.get?_set] at hSock'
    split at hSock'
    · rw [← Option.some.inj hSock']
      exact hSock
    · exact hQuiet.conns n sock' hSock'
  own := hQuiet.own

theorem Quiet.connFor
    (hQuiet : w.Quiet)
    {i : Nat}
    {nodeId : String}
    {sock : Socket}
    (hConn : w.connFor net i nodeId = some sock) :
    sock.Quiet := by
  unfold Wires.connFor at hConn
  split at hConn
  next s hGet =>
    rw [← Option.some.inj hConn]
    exact hQuiet.conns nodeId s hGet
  next =>
    split at hConn
    · rw [← Option.some.inj hConn]
      exact Channel.quiet_new
    · cases hConn

/- A round trip that drops its socket, or reads in time. -/
theorem Quiet.hop
    (hQuiet : w.Quiet)
    {drops : Bool}
    (keeps : ReplyType → Bool)
    (hKeeps : drops = true ∨ net.InTime)
    (i session pos : Nat)
    (nodeId : String) :
    (w.hop cfg drops keeps net i session pos
      nodeId).2.Quiet := by
  unfold Wires.hop
  split
  next =>
    simp only
    split
    · exact hQuiet.erase nodeId
    · exact hQuiet
  next sock hConn =>
    split
    next reply sock' log' hRun =>
      rcases exchangeOn_quiet (hQuiet.connFor hConn)
          hQuiet.own hRun with
        ⟨hOwn, hSock⟩
      have hLog : Quiet { w with log := log' } :=
        ⟨hQuiet.socks, hQuiet.conns, hOwn⟩
      have hKept :
          keepsSocket drops keeps reply = true →
            sock'.Quiet := by
        intro hKeep
        apply hSock
        cases reply with
        | none =>
            rcases hKeeps with rfl | hInTime
            · cases hKeep
            · exact Or.inr hInTime
        | some t => exact Or.inl (by simp)
      simp only
      split
      next hKeep => exact hLog.set nodeId (hKept hKeep)
      next => exact hLog.erase nodeId

theorem Quiet.relayRoute
    (hQuiet : w.Quiet)
    {drops : Bool}
    (hKeeps : drops = true ∨ net.InTime)
    (session pos i : Nat)
    (route : List String) :
    (w.relayRoute cfg drops net session pos i
      route).Quiet := by
  induction route generalizing w i with
  | nil => exact hQuiet
  | cons nodeId route ih =>
      have hHop :
          (w.hop cfg drops (fun t => t = .result ∨ ¬ drops)
            net i session pos nodeId).2.Quiet :=
        hQuiet.hop _ hKeeps i session pos nodeId
      unfold Wires.relayRoute
      split
      next w' hRun =>
        rw [hRun] at hHop
        exact ih hHop (i + 1)
      next w' hRun =>
        rw [hRun] at hHop
        exact hHop

/- The static sockets after a loop over them. -/
theorem relayHops_quiet
    (cfg : WiresConfig)
    (net : Net)
    (session pos i : Nat)
    {socks : List Socket}
    (hSocks : ∀ sock ∈ socks, sock.Quiet)
    {log : FrameLog}
    (hOwn : OwnReplies log) :
    OwnReplies
        (Wires.relayHops cfg net session pos i socks
          log).2.2 ∧
      ((Wires.relayHops cfg net session pos i socks
          log).1 = true ∨ net.InTime →
        ∀ sock ∈
          (Wires.relayHops cfg net session pos i socks
            log).2.1, sock.Quiet) := by
  induction socks generalizing i log with
  | nil => exact ⟨hOwn, fun _ => by simp [relayHops]⟩
  | cons sock socks ih =>
      have hRest := fun s hS =>
        hSocks s (List.mem_cons_of_mem sock hS)
      unfold Wires.relayHops
      split
      next sock' log' hRun =>
        rcases exchangeOn_quiet
            (hSocks sock List.mem_cons_self) hOwn hRun with
          ⟨hOwn', hSock⟩
        rcases ih (i + 1) hRest hOwn' with ⟨hLog, hQuiet⟩
        refine ⟨hLog, fun hEnd s hS => ?_⟩
        rcases List.mem_cons.mp hS with rfl | hTail
        · exact hSock (Or.inl (by simp))
        · exact hQuiet hEnd s hTail
      next reply sock' log' _ hRun =>
        rcases exchangeOn_quiet
            (hSocks sock List.mem_cons_self) hOwn hRun with
          ⟨hOwn', hSock⟩
        refine ⟨hOwn', fun hEnd s hS => ?_⟩
        rcases hEnd with hFalse | hInTime
        · cases hFalse
        · rcases List.mem_cons.mp hS with rfl | hTail
          · exact hSock (Or.inr hInTime)
          · exact hRest s hTail

theorem Quiet.ensureConnected
    (hQuiet : w.Quiet)
    {socks : List Socket}
    (hSocks : w.ensureConnected cfg net = some socks) :
    ∀ sock ∈ socks, sock.Quiet := by
  unfold Wires.ensureConnected at hSocks
  split at hSocks
  next s hS =>
    rw [← Option.some.inj hSocks]
    exact hQuiet.socks s hS
  next =>
    split at hSocks
    · rw [← Option.some.inj hSocks]
      intro sock hMem
      rcases List.mem_map.mp hMem with ⟨_, _, rfl⟩
      exact Channel.quiet_new
    · cases hSocks

theorem Quiet.relaySocks
    (hQuiet : w.Quiet)
    {drops : Bool}
    (hKeeps : drops = true ∨ net.InTime)
    (session pos : Nat) :
    (w.relaySocks cfg drops net session pos).Quiet := by
  unfold Wires.relaySocks
  split
  next =>
    refine ⟨fun _ h => ?_, hQuiet.conns, hQuiet.own⟩
    cases h
  next socks hSocks =>
    rcases relayHops_quiet cfg net session pos 0
        (hQuiet.ensureConnected hSocks) hQuiet.own with
      ⟨hOwn, hEnd⟩
    split
    next ok socks' log' hRun =>
      rw [hRun] at hOwn hEnd
      refine ⟨fun l hL => ?_, hQuiet.conns, hOwn⟩
      simp only at hL
      split at hL
      next hOk =>
        rw [← Option.some.inj hL]
        apply hEnd
        rcases hKeeps with rfl | hInTime
        · exact Or.inl (by simpa using hOk)
        · exact Or.inr hInTime
      next => cases hL

theorem Quiet.controlConns
    (hQuiet : w.Quiet)
    (strict : Bool)
    (net : Net)
    (i : Nat)
    (nodeIds : List String) :
    (w.controlConns strict net i nodeIds).Quiet := by
  induction nodeIds generalizing w i with
  | nil => exact hQuiet
  | cons nodeId nodeIds ih =>
      unfold Wires.controlConns
      split
      · exact ih hQuiet (i + 1)
      · simp only
        split
        · exact hQuiet.erase nodeId
        · exact ih (hQuiet.erase nodeId) (i + 1)

end Wires

end CircuitDllm

------------------------------------------------------------
-- Runs
------------------------------------------------------------

namespace CircuitDllm

namespace Wires

variable {cfg : WiresConfig} {w : Wires}

/-
  One call: on the paths that keep their sockets no read may
  time out, the others are free to fail.
-/
theorem Quiet.step
    (hQuiet : w.Quiet)
    (e : Event × Net)
    (hInTime : e.1.KeepsSockets → e.2.InTime) :
    (w.step cfg e).Quiet := by
  rcases e with ⟨e, net⟩
  cases e with
  | relay session pos route =>
      simp only [Wires.step, Wires.relay]
      split
      · split
        · cases route with
          | nil => exact hQuiet
          | cons head route =>
              exact hQuiet.hop _ (Or.inl rfl) 0 session pos
                head
        · exact hQuiet.relayRoute (Or.inl rfl) session pos 0
            route
      · exact hQuiet.relaySocks (Or.inl rfl) session pos
  | relayTree session pos route =>
      have hNet : net.InTime := hInTime trivial
      simp only [Wires.step, Wires.relayTree]
      split
      · exact hQuiet.relayRoute (Or.inr hNet) session pos 0
          route
      · exact hQuiet.relaySocks (Or.inr hNet) session pos
  | relayBatch batchId pos =>
      exact hQuiet.relaySocks (Or.inr (hInTime trivial))
        batchId pos
  | audit session refId testId =>
      have hRef :
          (w.hop cfg true (fun t => t = ReplyType.result) net
            0 session 0 refId).2.Quiet :=
        hQuiet.hop _ (Or.inl rfl) 0 session 0 refId
      simp only [Wires.step, Wires.audit]
      split
      next w₁ hRun =>
        rw [hRun] at hRef
        exact (hRef.erase refId).erase testId
      next w₁ hRun =>
        rw [hRun] at hRef
        have hTest :
            (w₁.hop cfg true (fun t => t = ReplyType.result)
              net 1 session 0 testId).2.Quiet :=
          hRef.hop _ (Or.inl rfl) 1 session 0 testId
        split
        next w₂ hRun₂ =>
          rw [hRun₂] at hTest
          exact (hTest.erase refId).erase testId
        next w₂ hRun₂ =>
          rw [hRun₂] at hTest
          exact hTest
  | resetSessions =>
      simp only [Wires.step, Wires.resetSessions]
      split
      · exact hQuiet.controlConns false net 0 _
      · split
        · exact hQuiet
        · refine ⟨fun _ h => ?_, hQuiet.conns, hQuiet.own⟩
          cases h
  | kvControl strict =>
      simp only [Wires.step, Wires.kvControl]
      split
      · exact hQuiet.controlConns strict net 0 _
      · exact hQuiet
  | resetBatch => exact hQuiet
  | serveConn nodeId =>
      refine ⟨hQuiet.socks, fun n sock hSock => ?_,
        hQuiet.own⟩
      simp only [Wires.step, Dict.get?_modify] at hSock
      split at hSock
      · rcases Option.map_eq_some_iff.mp hSock with
          ⟨old, hOld, rfl⟩
        unfold Channel.Quiet
        rw [Channel.pending_serve]
        exact hQuiet.conns n old hOld
      · exact hQuiet.conns n sock hSock
  | serveSock i =>
      refine ⟨fun l hL => ?_, hQuiet.conns, hQuiet.own⟩
      rcases Option.map_eq_some_iff.mp hL with
        ⟨socks, hSocks, rfl⟩
      intro sock hMem
      rcases List.mem_iff_getElem?.mp hMem with ⟨j, hJ⟩
      rw [List.getElem?_modify] at hJ
      rcases Option.map_eq_some_iff.mp hJ with
        ⟨old, hOld, rfl⟩
      have hOldQuiet :=
        hQuiet.socks socks hSocks old
          (List.mem_of_getElem? hOld)
      split
      · unfold Channel.Quiet
        rw [Channel.pending_serve]
        exact hOldQuiet
      · exact hOldQuiet

/-
  Whatever else times out: if every read of the tree and the
  batch relays is in time, each reply read answers the frame
  its reader wrote.
-/
theorem ownReplies_run
    (cfg : WiresConfig)
    (es : List (Event × Net))
    (hInTime : ∀ e ∈ es, e.1.KeepsSockets → e.2.InTime) :
    OwnReplies (run cfg {} es).log := by
  have hRun :
      ∀ w : Wires, w.Quiet →
        (∀ e ∈ es, e.1.KeepsSockets → e.2.InTime) →
          (run cfg w es).Quiet := by
    clear hInTime
    induction es with
    | nil => exact fun w hQuiet _ => hQuiet
    | cons e es ih =>
        intro w hQuiet hAll
        refine ih _ ?_ fun e' hE =>
          hAll e' (List.mem_cons_of_mem e hE)
        exact hQuiet.step e (hAll e List.mem_cons_self)
  exact (hRun {} quiet_new hInTime).own

/- A relay times out, the next ones are on new sockets. -/
theorem ownReplies_run_relay :
    let cfg : WiresConfig :=
      ⟨false, false, ["a", "b"], fun _ => .result⟩
    let good : Net :=
      ⟨fun _ => true, fun _ => .ok, fun _ => true⟩
    let late : Net :=
      ⟨fun _ => true, fun _ => .ok, fun i => i ≠ 1⟩
    OwnReplies
      (run cfg {}
        [(.relay 1 0 [], late), (.relayBatch 9 0, good),
          (.relay 2 0 [], good)]).log :=
  ownReplies_run _ _ fun e hE hKeeps => by
    simp only [List.mem_cons, List.not_mem_nil,
      or_false] at hE
    rcases hE with rfl | rfl | rfl
    · exact hKeeps.elim
    · exact fun _ => ⟨nofun, rfl⟩
    · exact hKeeps.elim

/-
  A read of a batch times out, and the relay of the next
  session takes the late reply for its own.
-/
theorem exists_not_ownReplies :
    ∃ (cfg : WiresConfig) (es : List (Event × Net)),
      ¬ OwnReplies (run cfg {} es).log := by
  refine
    ⟨⟨false, false, ["a"], fun _ => .result⟩,
      [(.relayBatch 9 0,
          ⟨fun _ => true, fun _ => .ok, fun _ => false⟩),
        (.relay 1 0 [],
          ⟨fun _ => true, fun _ => .ok, fun _ => true⟩)],
      ?_⟩
  intro hOwn
  have hRead :
      ((⟨1, 1, 0⟩, ⟨0, 9, 0⟩) : ActFrame × ActFrame) ∈
        (run ⟨false, false, ["a"], fun _ => .result⟩ {}
          [(.relayBatch 9 0,
              ⟨fun _ => true, fun _ => .ok, fun _ => false⟩),
            (.relay 1 0 [],
              ⟨fun _ => true, fun _ => .ok,
                fun _ => true⟩)]).log.read := by
    decide
  exact absurd (hOwn _ hRead) (by decide)

end Wires

end CircuitDllm
