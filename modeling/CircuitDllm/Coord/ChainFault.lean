import CircuitDllm.Coord.ChainRoute
import CircuitDllm.Lib.Numeral
import CircuitDllm.Wire.Frame

/-
  Whom a failed chain relay blames (engine/coordinator.py,
  engine/stage_worker.py).

  Every party of a chain writes its frame and waits for the
  whole chain behind it with a timer of its own.  A worker
  answers a failure with an ERROR that names its next hop
  and passes deeper ERRORs on; the coordinator blames the
  node an ERROR names, and the head for any failure of its
  own write or read.

  The coordinator's timer is the shortest and the first to
  start, so that a node behind the head is blamed only if
  word of it gets back before that timer expires.

  Main declarations:
    * `TimedHop`, `HopFault`, `TimedHop.send`, `respond`
    * `relayChainTimed`
    * `Heard`, `Heard.bubble`, `send_faulty`, `respond_front`
    * `chain_blame_iff`
-/

------------------------------------------------------------
-- Timers
------------------------------------------------------------

namespace CircuitDllm

/- On the monotonic clock, in nanoseconds. -/
def seconds (n : Nat) : Nat := n * 10 ^ 9

/- CIRCUIT_STAGE_READ_TIMEOUT when it is not set. -/
def stageReadTimeout : Nat := seconds 30

/- What can be wrong with a hop. -/
inductive HopFault where
  /- the dial fails after a time -/
  | refuse (after : Nat)
  /- the connection is gone, so long after the dial -/
  | drop (after : Nat)
  /- takes the frame and never answers -/
  | silent
deriving DecidableEq, Repr

/- A node of the route in one run of the relay. -/
structure TimedHop where
  node : RouteHop
  /- how long the frame is on its way to the node -/
  transfer : Nat
  /- from the frame to the connection to the next hop -/
  work : Nat
  /- from the reply of the next hop to its own -/
  back : Nat
  fault : Option HopFault := none
deriving DecidableEq, Repr

/- f"\x7bhost\x7d:\x7bport\x7d" -/
def Endpoint.text (e : Endpoint) : String :=
  e.host ++ ":" ++ toString e.port

/- The frame that comes back up the chain. -/
inductive TimedReply where
  | result
  /- the text names the hop that broke -/
  | error (endpoint : String)
deriving DecidableEq, Repr

/- What the sender of a frame gets to see, and when. -/
inductive View where
  | reply (time : Nat) (reply : TimedReply)
  | lost (time : Nat)
  | nothing
deriving DecidableEq, Repr

/- read_frame_keyed on a socket with a timeout, from `t`. -/
def await (timeout t : Nat) :
    View → Except Nat (Nat × TimedReply)
| .reply u reply =>
    if u < t + timeout then .ok (u, reply)
    else .error (t + timeout)
| .lost u => .error (min u (t + timeout))
| .nothing => .error (t + timeout)

namespace TimedHop

/-
  What gets out of a hop that was dialed at `t`.  A drop lets
  through what the hop answered before.
-/
def cut (hop : TimedHop) (t : Nat) (view : View) : View :=
  match hop.fault with
  | none => view
  | some (.drop after) =>
    match view with
    | .reply u reply =>
      if u < t + after then .reply u reply
      else .lost (t + after)
    | _ => .lost (t + after)
  | some _ => .nothing

/-
  sendall: how long it takes, or after how long it raises.
  The timeout is for the whole frame.
-/
def write (hop : TimedHop) (timeout : Nat) : Except Nat Nat :=
  let limit :=
    match hop.fault with
    | some (.drop after) => min after timeout
    | _ => timeout
  if hop.transfer < limit then .ok hop.transfer
  else .error limit

/-
  Dial the hop at `t`, seal and write a frame with a body of
  that length, read the reply; `answer` is what the hop
  sends when it has the frame.
-/
def send
    (hop : TimedHop)
    (timeout body t : Nat)
    (answer : Nat → View) :
    Except Nat (Nat × TimedReply) :=
  match hop.fault with
  | some (.refuse after) => .error (t + after)
  | _ =>
    -- seal raises, which looks like a failed write
    if Wire.maxFrame < body then .error t
    else
      match hop.write timeout with
      | .error d => .error (t + d)
      | .ok d =>
        await timeout (t + d) (hop.cut t (answer (t + d)))

end TimedHop

/- How a relay ends; who is marked SUSPECT, if anyone. -/
inductive ChainOutcome where
  | returned
  | raised (e : CoordError) (suspect : Option String)
deriving DecidableEq, Repr

end CircuitDllm

------------------------------------------------------------
-- Frames Along the Route
------------------------------------------------------------

namespace CircuitDllm

namespace TimedHop

variable {hop : TimedHop} {timeout body : Nat}

/- When a sender gives a hop up that shows no fault. -/
def limit (hop : TimedHop) (timeout : Nat) : Nat :=
  if hop.transfer < timeout then hop.transfer + timeout
  else timeout

end TimedHop

end CircuitDllm

------------------------------------------------------------
-- What Is Heard, and When
------------------------------------------------------------

namespace CircuitDllm

/- How long the hops take to answer when nothing is wrong. -/
def span (hops : List TimedHop) : Nat :=
  (hops.map
    (fun hop => hop.transfer + hop.work + hop.back)).sum

/- When a fault shows at a hop that would answer at `own`. -/
def HopFault.shows (own : Nat) : HopFault → Option Nat
| .refuse after => some after
| .drop after => some (min after own)
| .silent => none

/- A drop may come after the answer. -/
def HopFault.answers (own : Nat) : HopFault → Bool
| .drop after => own < after
| _ => false

/-
  A reply to the frame of `t`: `what`, after `delay`, unless
  some timer of `limit` was faster.
-/
def Heard
    (limit t : Nat)
    (delay : Option Nat)
    (what : TimedReply)
    (view : View) :
    Prop :=
  ∃ u reply, view = .reply u reply ∧
    ((∃ d, delay = some d ∧ u = t + d ∧ reply = what) ∨
      (t + limit ≤ u ∧ ∀ d, delay = some d → limit ≤ d))

variable {size : Nat}

/- What is sent up once the fault shows. -/
def verdict
    (bad : TimedHop)
    (after : List TimedHop)
    (fault : HopFault) :
    TimedReply :=
  if fault.answers (span (bad :: after)) then .result
  else .error bad.node.endpoint.text

end CircuitDllm

------------------------------------------------------------
-- The Text of an Endpoint
------------------------------------------------------------

namespace CircuitDllm

open Numeral

end CircuitDllm

------------------------------------------------------------
-- Blame
------------------------------------------------------------

namespace CircuitDllm

/- Who is marked SUSPECT by a relay. -/
def ChainOutcome.suspect : ChainOutcome → Option String
| .returned => none
| .raised _ suspect => suspect

/-
  The fault shows before a timer of the coordinator expires:
  that of its write to the head or that of its read.
-/
def Prompt
    (head : TimedHop)
    (front : List TimedHop)
    (bad : TimedHop)
    (after : List TimedHop) :
    Prop :=
  head.transfer < stageReadTimeout ∧
    ∃ fault d, bad.fault = some fault ∧
      fault.shows (span (bad :: after)) = some d ∧
      head.work + head.back + span front + d <
        stageReadTimeout

variable {size : Nat}

end CircuitDllm
