import Mathlib.Logic.Function.Basic
import Mathlib.Tactic.Common

/-
  The relay server (engine/relay.py, RelayServer).

  Every connection has a handler thread and the number of
  its socket is the thread's.  A thread takes one step for
  each call that may block or raise and for each block
  under the server's lock, and the steps of all threads
  interleave freely.  Once two sockets are paired, two pipe
  threads copy between them; they touch nothing that is
  shared.

  Main declarations:
    * `Pc`, `Outcome`
    * `RelayServer`, `RelayConfig`
    * `RelayServer.step`
-/

------------------------------------------------------------
-- Threads
------------------------------------------------------------

namespace CircuitDllm.NatRelay

/- A node id and a tag. -/
abbrev PairKey := String × String

/- The preamble a connection opens with. -/
inductive Preamble where
  | control (node : String)
  | dial (node token : String)
  | data (node tag : String)
  | unknown
deriving DecidableEq, Repr

/- Where a handler thread is. -/
inductive Pc where
  /- _handle: reads the preamble -/
  | reading
  /- writes that it refuses, and returns -/
  | refusing
  /- _handle_control: writes the nonce -/
  | controlNonce (node : String)
  /- reads the signature -/
  | controlReply (node : String)
  /- writes ok -/
  | controlOk (node : String)
  /- under the lock: replaces the node's connection -/
  | controlStore (node : String)
  /- closes the connection it replaced -/
  | controlReplace (node : String) (old : Nat)
  /- holds the connection open -/
  | controlHold (node : String)
  /- under the lock: removes the connection if it is its own -/
  | controlDrop (node : String)
  /- _handle_dial: mints a tag, under the lock: waits for it -/
  | dialMint (node : String)
  /- _signal_open, under the lock: looks the node up -/
  | dialLookup (key : PairKey)
  /- writes the signal on the node's connection -/
  | dialSignal (key : PairKey) (control : Nat)
  /- no signal: removes the entry under the lock -/
  | dialGiveUp (key : PairKey)
  /- writes ok -/
  | dialOk (key : PairKey)
  /- waits for the event -/
  | dialWait (key : PairKey)
  /- timed out: removes the entry under the lock -/
  | dialExpired (key : PairKey)
  /- _handle_data, under the lock: takes the entry -/
  | dataTake (key : PairKey)
  /- sets the event, starts the pipes -/
  | dataRelease (dial : Nat)
  /- _handle: closes its socket -/
  | closing
  | closed
  /- returned with its socket handed off -/
  | handedOff
deriving DecidableEq, Repr

/- What a thread's next step comes to. -/
inductive Outcome where
  | ok
  /- an OSError, or the other end has closed -/
  | raises
  | preamble (p : Preamble)
  /- the signature that was read is the node's, or not -/
  | reply (valid : Bool)
  | tag (tag : String)
  /- the wait timed out -/
  | expires
deriving DecidableEq, Repr

/- What a connection is for, once its tag is known. -/
inductive Request where
  | dial (key : PairKey)
  | data (key : PairKey)
deriving DecidableEq, Repr

/- A dial socket that a data handler took. -/
structure Pairing where
  dial : Nat
  data : Nat
  key : PairKey
deriving DecidableEq, Repr

end CircuitDllm.NatRelay

------------------------------------------------------------
-- The Server
------------------------------------------------------------

namespace CircuitDllm.NatRelay

structure RelayConfig where
  coordToken : String := ""
  verifySig : Bool := true
deriving DecidableEq, Repr

/-
  `pending` and `controls` are the server's dictionaries,
  `event` is the event of a dial handler.  The other fields
  record what has happened: tags and requests, pairings,
  dial sockets that were closed after they were taken, when
  a connection was authenticated, and which became a node's
  control connection.
-/
structure RelayServer where
  pc : Nat → Pc := fun _ => .reading
  pending : PairKey → Option Nat := fun _ => none
  controls : String → Option Nat := fun _ => none
  event : Nat → Bool := fun _ => false
  tags : List String := []
  request : Nat → Option Request := fun _ => none
  paired : List Pairing := []
  closedTaken : List (Nat × Nat) := []
  clock : Nat := 0
  verifiedAt : Nat → Nat := fun _ => 0
  online : List (String × Nat) := []

namespace RelayServer

/- A data handler took the dial socket. -/
def taken (s : RelayServer) (dial : Nat) : Bool :=
  s.paired.any (fun p => p.dial = dial)

def goto (s : RelayServer) (c : Nat) (pc : Pc) : RelayServer :=
  { s with pc := Function.update s.pc c pc }

/- A thread closes a socket. -/
def close (s : RelayServer) (c sock : Nat) : RelayServer :=
  { s with
    closedTaken :=
      if s.taken sock then (c, sock) :: s.closedTaken
      else s.closedTaken }

/- self._pending.pop(key, None) -/
def dropPending (s : RelayServer) (key : PairKey) : RelayServer :=
  { s with pending := Function.update s.pending key none }

def onPreamble
    (cfg : RelayConfig)
    (s : RelayServer)
    (c : Nat) :
    Preamble → RelayServer
| .control node =>
    if node = "" then s.goto c .refusing
    else s.goto c (.controlNonce node)
| .dial node token =>
    if cfg.coordToken ≠ "" ∧ token ≠ cfg.coordToken then
      s.goto c .refusing
    else s.goto c (.dialMint node)
| .data node tag =>
    { s.goto c (.dataTake (node, tag)) with
      request :=
        Function.update s.request c (some (.data (node, tag))) }
| .unknown => s.goto c .refusing

/- The signature was read: the connection is authenticated. -/
def onReply
    (cfg : RelayConfig)
    (s : RelayServer)
    (c : Nat)
    (node : String)
    (valid : Bool) :
    RelayServer :=
  if cfg.verifySig ∧ ¬ valid then s.goto c .refusing
  else
    { s.goto c (.controlOk node) with
      clock := s.clock + 1
      verifiedAt :=
        Function.update s.verifiedAt c (s.clock + 1) }

def onStore (s : RelayServer) (c : Nat) (node : String) :
    RelayServer :=
  let next :=
    match s.controls node with
    | none => .controlHold node
    | some old => .controlReplace node old
  { s.goto c next with
    controls := Function.update s.controls node (some c)
    online := (node, c) :: s.online }

def onDrop (s : RelayServer) (c : Nat) (node : String) :
    RelayServer :=
  let s := s.goto c .closing
  if s.controls node = some c then
    { s with controls := Function.update s.controls node none }
  else s

def onMint
    (s : RelayServer)
    (c : Nat)
    (node tag : String) :
    RelayServer :=
  { s.goto c (.dialLookup (node, tag)) with
    pending := Function.update s.pending (node, tag) (some c)
    event := Function.update s.event c false
    tags := tag :: s.tags
    request :=
      Function.update s.request c (some (.dial (node, tag))) }

def onLookup (s : RelayServer) (c : Nat) (key : PairKey) :
    RelayServer :=
  match s.controls key.1 with
  | none => s.goto c (.dialGiveUp key)
  | some control => s.goto c (.dialSignal key control)

def onTake (s : RelayServer) (c : Nat) (key : PairKey) :
    RelayServer :=
  match s.pending key with
  | none => s.goto c .closing
  | some dial =>
    { (s.goto c (.dataRelease dial)).dropPending key with
      paired := ⟨dial, c, key⟩ :: s.paired }

/- A step of thread `c`; an outcome that cannot be is none. -/
def step
    (cfg : RelayConfig)
    (s : RelayServer)
    (move : Nat × Outcome) :
    RelayServer :=
  let c := move.1
  match s.pc c, move.2 with
  | .reading, .preamble p => s.onPreamble cfg c p
  | .reading, .raises => s.goto c .closing
  | .refusing, .ok => s.goto c .closing
  | .refusing, .raises => s.goto c .closing
  | .controlNonce node, .ok => s.goto c (.controlReply node)
  | .controlNonce _, .raises => s.goto c .closing
  | .controlReply node, .reply valid =>
    s.onReply cfg c node valid
  | .controlReply _, .raises => s.goto c .closing
  | .controlOk node, .ok => s.goto c (.controlStore node)
  | .controlOk _, .raises => s.goto c .closing
  | .controlStore node, .ok => s.onStore c node
  | .controlReplace node old, .ok =>
    (s.close c old).goto c (.controlHold node)
  | .controlReplace node old, .raises =>
    (s.close c old).goto c (.controlHold node)
  | .controlHold node, .raises => s.goto c (.controlDrop node)
  | .controlDrop node, .ok => s.onDrop c node
  | .dialMint node, .tag tag => s.onMint c node tag
  | .dialLookup key, .ok => s.onLookup c key
  | .dialSignal key _, .ok => s.goto c (.dialOk key)
  | .dialSignal key _, .raises => s.goto c (.dialGiveUp key)
  | .dialGiveUp key, .ok =>
    (s.dropPending key).goto c .refusing
  | .dialOk key, .ok => s.goto c (.dialWait key)
  | .dialOk _, .raises => s.goto c .closing
  | .dialWait key, .expires =>
    if s.event c then s else s.goto c (.dialExpired key)
  | .dialWait _, .ok =>
    if s.event c then s.goto c .handedOff else s
  | .dialExpired key, .ok =>
    (s.dropPending key).goto c .closing
  | .dataTake key, .ok => s.onTake c key
  | .dataRelease dial, .ok =>
    { s.goto c .handedOff with
      event := Function.update s.event dial true }
  | .closing, .ok => (s.close c c).goto c .closed
  | .closing, .raises => (s.close c c).goto c .closed
  | _, _ => s

def run
    (cfg : RelayConfig)
    (moves : List (Nat × Outcome)) :
    RelayServer :=
  moves.foldl (step cfg) {}

end RelayServer

end CircuitDllm.NatRelay
