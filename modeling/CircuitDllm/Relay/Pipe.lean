import CircuitDllm.Lib.History
import CircuitDllm.Wire.JsonBytes

/-
  The pipes of a paired connection (engine/relay.py, _pipe,
  _handle_dial, _handle_data).

  Two threads copy between the coordinator's socket and the
  node's, one in each direction.  A thread that is done, or
  fails, shuts both sockets down, so the other direction
  may be cut as well.  Meanwhile the dial handler writes its
  answer on the coordinator's socket, on which one of the
  pipes writes too.  The two ends, the threads and the
  network take their steps in any order.

  Main declarations:
    * `Lane`, `Side`, `Bridge`
    * `BridgeEvent`, `Bridge.step`, `Bridge.Polite`
    * `BridgeOk`, `bridgeOk_run`
    * `bridge_delivers`
-/

------------------------------------------------------------
-- Lanes
------------------------------------------------------------

namespace CircuitDllm.NatRelay

open Wire (Bytes)

/- _PIPE_BUF -/
def pipeBuf : Nat := 2 ^ 16

/-
  One direction.  `written` is all that its sender wrote;
  the relay has not received `inbox`, the pipe has received
  but not sent `holding`, `transit` was sent and not read,
  and `delivered` was read.  `fin` is the sender's end of
  stream.  `broken` means that the reader's connection broke
  and what was in transit is lost, `stopped` that the pipe
  left its loop, `clean` that it did so at the end of the
  stream, before anything was shut down.
-/
structure Lane where
  written : Bytes := []
  inbox : Bytes := []
  holding : Bytes := []
  transit : Bytes := []
  delivered : Bytes := []
  fin : Bool := false
  broken : Bool := false
  stopped : Bool := false
  clean : Bool := false
deriving DecidableEq, Repr

namespace Lane

def write (bs : Bytes) (l : Lane) : Lane :=
  { l with written := l.written ++ bs, inbox := l.inbox ++ bs }

def finish (l : Lane) : Lane :=
  { l with fin := true }

/- data = a.recv(_PIPE_BUF) -/
def recv (n : Nat) (l : Lane) : Lane :=
  { l with
    holding := l.inbox.take n
    inbox := l.inbox.drop n }

/- A part of b.sendall(data). -/
def send (n : Nat) (l : Lane) : Lane :=
  { l with
    transit := l.transit ++ l.holding.take n
    holding := l.holding.drop n }

/- The relay itself writes to the reader. -/
def answer (bs : Bytes) (l : Lane) : Lane :=
  { l with transit := l.transit ++ bs }

def read (n : Nat) (l : Lane) : Lane :=
  { l with
    delivered := l.delivered ++ l.transit.take n
    transit := l.transit.drop n }

/- What is in transit is lost. -/
def snap (l : Lane) : Lane :=
  { l with transit := [], broken := true }

def stop (clean : Bool) (l : Lane) : Lane :=
  { l with stopped := true, clean := clean }

/- The pipe is in its loop with nothing to send. -/
def receiving (l : Lane) : Bool :=
  !l.stopped && l.holding.isEmpty

/- The pipe is in its loop. -/
def running (l : Lane) : Bool :=
  !l.stopped

end Lane

end CircuitDllm.NatRelay

------------------------------------------------------------
-- The Bridge
------------------------------------------------------------

namespace CircuitDllm.NatRelay

open Wire (Bytes pack)

/- The lane that starts at the coordinator, or the node. -/
inductive Side where
  | coord
  | node
deriving DecidableEq, Repr

/- write_preamble(conn, ok), as bytes. -/
def okBytes : Bytes :=
  pack 12 ++ utf8 "\x7b\"ok\": true\x7d"

/-
  The two lanes.  `answered` means that the dial handler
  wrote ok, `piping` that the data handler started the
  pipes, `shut` that a pipe shut both sockets down.
-/
structure Bridge where
  lane : Side → Lane := fun _ => {}
  answered : Bool := false
  piping : Bool := false
  shut : Bool := false

/- What can happen. -/
inductive BridgeEvent where
  /- _handle_dial: writes ok -/
  | answer
  /- _handle_data: starts the pipes -/
  | start
  /- an end writes on its own socket -/
  | write (side : Side) (bs : Bytes)
  /- an end writes no more -/
  | finish (side : Side)
  /- _pipe: recv returns some bytes -/
  | recv (side : Side) (n : Nat)
  /- _pipe: recv returns none -/
  | eof (side : Side)
  /- _pipe: sendall gets some bytes out -/
  | send (side : Side) (n : Nat)
  /- _pipe: an OSError -/
  | fail (side : Side)
  /- the other end reads -/
  | read (side : Side) (n : Nat)
  /- the connection to the other end breaks -/
  | snap (side : Side)
deriving DecidableEq, Repr

namespace Bridge

def setLane (s : Bridge) (side : Side) (f : Lane → Lane) :
    Bridge :=
  { s with
    lane := Function.update s.lane side (f (s.lane side)) }

/- finally: both sockets are shut down in both directions. -/
def stop (s : Bridge) (side : Side) (clean : Bool) : Bridge :=
  { s.setLane side (.stop clean) with shut := true }

/- A step that cannot be taken does nothing. -/
def step (s : Bridge) : BridgeEvent → Bridge
| .answer =>
    if ¬ s.answered ∧ ¬ s.shut ∧ ¬ (s.lane .node).broken then
      { s.setLane .node (.answer okBytes) with answered := true }
    else s
| .start => { s with piping := true }
| .write side bs =>
    if (s.lane side).fin then s
    else s.setLane side (.write bs)
| .finish side => s.setLane side .finish
| .recv side n =>
    let l := s.lane side
    if s.piping ∧ l.receiving ∧ 0 < n ∧ n ≤ pipeBuf ∧
        n ≤ l.inbox.length then
      s.setLane side (.recv n)
    else s
| .eof side =>
    let l := s.lane side
    -- once it is shut down a socket may end early
    if s.piping ∧ l.receiving ∧
        (s.shut ∨ (l.inbox = [] ∧ l.fin)) then
      s.stop side (!s.shut)
    else s
| .send side n =>
    let l := s.lane side
    if s.piping ∧ l.running ∧ ¬ s.shut ∧ ¬ l.broken ∧
        n ≤ l.holding.length then
      s.setLane side (.send n)
    else s
| .fail side =>
    if s.piping ∧ (s.lane side).running then
      s.stop side false
    else s
| .read side n =>
    if n ≤ (s.lane side).transit.length then
      s.setLane side (.read n)
    else s
| .snap side => s.setLane side .snap

def run (events : List BridgeEvent) : Bridge :=
  events.foldl step {}

/-
  The coordinator writes once it has read the answer, and
  the node once it has read something.
-/
def Polite (s : Bridge) : BridgeEvent → Bool
| .write .coord _ =>
    okBytes.length ≤ (s.lane .node).delivered.length
| .write .node _ => (s.lane .coord).delivered ≠ []
| _ => true

/- What the relay itself put in front of a lane. -/
def head (s : Bridge) : Side → Bytes
| .coord => []
| .node => if s.answered then okBytes else []

end Bridge

end CircuitDllm.NatRelay

------------------------------------------------------------
-- What A Lane Keeps
------------------------------------------------------------

namespace CircuitDllm.NatRelay

open Wire (Bytes)

/-
  Every byte of the lane is somewhere, in the order it was
  written; none is lost while the connection is not broken,
  and none is left behind a clean stop.
-/
structure Lossless (head : Bytes) (l : Lane) : Prop where
  parts :
    ∃ lost,
      head ++ l.written =
        l.delivered ++
          (lost ++ (l.transit ++ (l.holding ++ l.inbox))) ∧
      (l.broken = false → lost = [])
  snapped : l.broken = true → l.transit = []
  swept :
    l.clean = true →
      l.inbox = [] ∧ l.holding = [] ∧ l.fin = true ∧
        l.stopped = true

namespace Lossless

variable {head : Bytes} {l : Lane}

theorem new : Lossless [] {} where
  parts := ⟨[], rfl, fun _ => rfl⟩
  snapped := fun h => absurd h Bool.false_ne_true
  swept := fun h => absurd h Bool.false_ne_true

theorem write
    (hOk : Lossless head l)
    (hOpen : l.fin = false)
    (bs : Bytes) :
    Lossless head (l.write bs) where
  parts := by
    rcases hOk.parts with ⟨lost, hEq, hLost⟩
    refine ⟨lost, ?_, hLost⟩
    simp only [Lane.write]
    rw [← List.append_assoc, hEq]
    simp only [List.append_assoc]
  snapped := hOk.snapped
  swept := by
    intro hClean
    have hFin := (hOk.swept hClean).2.2.1
    rw [hOpen] at hFin
    cases hFin

theorem finish (hOk : Lossless head l) :
    Lossless head l.finish where
  parts := hOk.parts
  snapped := hOk.snapped
  swept := by
    intro hClean
    rcases hOk.swept hClean with ⟨hInbox, hHolding, -, hStop⟩
    exact ⟨hInbox, hHolding, rfl, hStop⟩

theorem recv
    (hOk : Lossless head l)
    (hReceiving : l.receiving = true)
    (n : Nat) :
    Lossless head (l.recv n) where
  parts := by
    rcases hOk.parts with ⟨lost, hEq, hLost⟩
    simp only [Lane.receiving, Bool.and_eq_true,
      List.isEmpty_iff] at hReceiving
    rw [hReceiving.2, List.nil_append] at hEq
    refine ⟨lost, ?_, hLost⟩
    simp only [Lane.recv, List.take_append_drop]
    exact hEq
  snapped := hOk.snapped
  swept := by
    intro hClean
    have hStop := (hOk.swept hClean).2.2.2
    simp [Lane.receiving, hStop] at hReceiving

theorem send
    (hOk : Lossless head l)
    (hRunning : l.running = true)
    (hWhole : l.broken = false)
    (n : Nat) :
    Lossless head (l.send n) where
  parts := by
    rcases hOk.parts with ⟨lost, hEq, hLost⟩
    refine ⟨lost, ?_, hLost⟩
    have hSplit :
        l.holding.take n ++ (l.holding.drop n ++ l.inbox) =
          l.holding ++ l.inbox := by
      rw [← List.append_assoc, List.take_append_drop]
    simp only [Lane.send, List.append_assoc, hSplit]
    exact hEq
  snapped := fun hBroken =>
    absurd (hWhole.symm.trans hBroken) Bool.false_ne_true
  swept := by
    intro hClean
    have hStop := (hOk.swept hClean).2.2.2
    simp [Lane.running, hStop] at hRunning

theorem read
    (hOk : Lossless head l)
    (n : Nat) :
    Lossless head (l.read n) where
  parts := by
    rcases hOk.parts with ⟨lost, hEq, hLost⟩
    refine ⟨lost, ?_, hLost⟩
    by_cases hBroken : l.broken = true
    · have hNone := hOk.snapped hBroken
      simp only [Lane.read, hNone, List.take_nil,
        List.drop_nil, List.append_nil]
      rw [hNone] at hEq
      exact hEq
    · have hWhole := hLost (Bool.eq_false_of_not_eq_true hBroken)
      have hSplit :
          l.transit.take n ++
              (l.transit.drop n ++ (l.holding ++ l.inbox)) =
            l.transit ++ (l.holding ++ l.inbox) := by
        rw [← List.append_assoc, List.take_append_drop]
      rw [hWhole, List.nil_append] at hEq
      simp only [Lane.read, hWhole, List.nil_append,
        List.append_assoc, hSplit]
      exact hEq
  snapped := by
    intro hBroken
    simp only [Lane.read, hOk.snapped hBroken, List.drop_nil]
  swept := hOk.swept

theorem snap (hOk : Lossless head l) :
    Lossless head l.snap where
  parts := by
    rcases hOk.parts with ⟨lost, hEq, -⟩
    refine ⟨lost ++ l.transit, ?_, fun h => nomatch h⟩
    simp only [Lane.snap, List.nil_append, List.append_assoc]
    exact hEq
  snapped := fun _ => rfl
  swept := hOk.swept

theorem stop
    (hOk : Lossless head l)
    {clean : Bool}
    (hClean :
      clean = true →
        l.inbox = [] ∧ l.holding = [] ∧ l.fin = true) :
    Lossless head (l.stop clean) where
  parts := hOk.parts
  snapped := hOk.snapped
  swept := by
    intro h
    rcases hClean h with ⟨hInbox, hHolding, hFin⟩
    exact ⟨hInbox, hHolding, hFin, rfl⟩

/- Nothing is on a lane on which nothing was written. -/
theorem empty
    (hOk : Lossless [] l)
    (hNone : l.written = []) :
    l.delivered = [] ∧ l.transit = [] ∧ l.holding = [] ∧
      l.inbox = [] := by
  rcases hOk.parts with ⟨lost, hEq, -⟩
  rw [hNone, List.append_nil] at hEq
  have hParts := List.append_eq_nil_iff.mp hEq.symm
  simp only [List.append_eq_nil_iff] at hParts
  exact ⟨hParts.1, hParts.2.2.1, hParts.2.2.2.1,
    hParts.2.2.2.2⟩

/- The answer goes in front of all that is written later. -/
theorem answer
    (hOk : Lossless [] l)
    (hNone : l.written = [])
    (hWhole : l.broken = false)
    (bs : Bytes) :
    Lossless bs (l.answer bs) where
  parts := by
    rcases hOk.empty hNone with
      ⟨hDelivered, hTransit, hHolding, hInbox⟩
    refine ⟨[], ?_, fun _ => rfl⟩
    simp [Lane.answer, hNone, hDelivered, hTransit, hHolding,
      hInbox]
  snapped := fun hBroken =>
    absurd (hWhole.symm.trans hBroken) Bool.false_ne_true
  swept := hOk.swept

/- What was read is the first part of what was written. -/
theorem delivered_written (hOk : Lossless head l) :
    l.delivered <+: head ++ l.written := by
  rcases hOk.parts with ⟨lost, hEq, -⟩
  exact ⟨_, hEq.symm⟩

/- After a clean stop all of it was sent on. -/
theorem all_sent
    (hOk : Lossless head l)
    (hClean : l.clean = true)
    (hWhole : l.broken = false) :
    l.delivered ++ l.transit = head ++ l.written := by
  rcases hOk.parts with ⟨lost, hEq, hLost⟩
  rcases hOk.swept hClean with ⟨hInbox, hHolding, -, -⟩
  rw [hLost hWhole, hInbox, hHolding] at hEq
  simpa using hEq.symm

end Lossless

end CircuitDllm.NatRelay

------------------------------------------------------------
-- Runs Of The Bridge
------------------------------------------------------------

namespace CircuitDllm.NatRelay

open Wire (Bytes)

/-
  Both lanes are lossless, and nobody has written before the
  dial handler answered.
-/
structure BridgeOk (s : Bridge) : Prop where
  lanes : ∀ side, Lossless (s.head side) (s.lane side)
  early :
    s.answered = false → ∀ side, (s.lane side).written = []

namespace BridgeOk

variable {s : Bridge}

/- A step on one lane that writes nothing new. -/
theorem setLane
    (hOk : BridgeOk s)
    {side : Side}
    {f : Lane → Lane}
    (hLane :
      Lossless (s.head side) (s.lane side) →
        Lossless (s.head side) (f (s.lane side)))
    (hWritten :
      s.answered = false →
        (f (s.lane side)).written = (s.lane side).written) :
    BridgeOk (s.setLane side f) where
  lanes side' := by
    by_cases hSide : side' = side
    · subst hSide
      simp only [Bridge.setLane, Function.update_self]
      exact hLane (hOk.lanes side')
    · simp only [Bridge.setLane, Function.update_of_ne hSide]
      exact hOk.lanes side'
  early := by
    intro hNone side'
    by_cases hSide : side' = side
    · subst hSide
      simp only [Bridge.setLane, Function.update_self]
      rw [hWritten hNone]
      exact hOk.early hNone side'
    · simp only [Bridge.setLane, Function.update_of_ne hSide]
      exact hOk.early hNone side'

theorem stop
    (hOk : BridgeOk s)
    {side : Side}
    {clean : Bool}
    (hClean :
      clean = true →
        (s.lane side).inbox = [] ∧
          (s.lane side).holding = [] ∧
            (s.lane side).fin = true) :
    BridgeOk (s.stop side clean) := by
  have hSet := @BridgeOk.setLane s hOk side (.stop clean)
    (fun hLane => hLane.stop hClean) (fun _ => rfl)
  exact ⟨hSet.lanes, hSet.early⟩

theorem answer
    (hOk : BridgeOk s)
    (hNone : s.answered = false)
    (hWhole : (s.lane .node).broken = false) :
    BridgeOk
      { s.setLane .node (.answer okBytes) with
        answered := true } where
  lanes side := by
    cases side with
    | coord =>
        have hLane := hOk.lanes .coord
        simp only [Bridge.setLane, Bridge.head,
          Function.update_of_ne (show Side.coord ≠ .node by
            decide)]
        exact hLane
    | node =>
        have hLane := hOk.lanes .node
        simp only [Bridge.head, hNone, Bool.false_eq_true,
          if_false] at hLane
        simp only [Bridge.setLane, Bridge.head, if_true,
          Function.update_self]
        exact hLane.answer (hOk.early hNone .node) hWhole _
  early := fun h => nomatch h

/- Whoever may write does so after the answer. -/
theorem answered_of_polite
    (hOk : BridgeOk s)
    {side : Side}
    {bs : Bytes}
    (hPolite : s.Polite (.write side bs) = true) :
    s.answered = true := by
  by_contra hNot
  have hNone : s.answered = false :=
    Bool.eq_false_of_not_eq_true hNot
  have hEmpty (side : Side) (hHead : s.head side = []) :
      (s.lane side).delivered = [] := by
    have hLane := hOk.lanes side
    rw [hHead] at hLane
    exact (hLane.empty (hOk.early hNone side)).1
  cases side with
  | coord =>
      have hNode := hEmpty .node (by
        simp only [Bridge.head, hNone, Bool.false_eq_true,
          if_false])
      have hRead : okBytes.length ≤ 0 := by
        simpa [Bridge.Polite, hNode] using hPolite
      have hLength : okBytes.length = 16 := rfl
      omega
  | node =>
      have hCoord := hEmpty .coord rfl
      simp [Bridge.Polite, hCoord] at hPolite

theorem step
    (hOk : BridgeOk s)
    {event : BridgeEvent}
    (hPolite : s.Polite event = true) :
    BridgeOk (s.step event) := by
  cases event with
  | answer =>
      simp only [Bridge.step]
      split
      · rename_i hCan
        exact hOk.answer
          (Bool.eq_false_of_not_eq_true hCan.1)
          (Bool.eq_false_of_not_eq_true hCan.2.2)
      · exact hOk
  | start => exact ⟨hOk.lanes, hOk.early⟩
  | write side bs =>
      simp only [Bridge.step]
      split
      · exact hOk
      · rename_i hOpen
        have hAnswered := hOk.answered_of_polite hPolite
        refine hOk.setLane (fun hLane => hLane.write
          (Bool.eq_false_of_not_eq_true hOpen) bs) ?_
        intro hNone
        rw [hAnswered] at hNone
        cases hNone
  | finish side =>
      exact hOk.setLane Lossless.finish (fun _ => rfl)
  | recv side n =>
      simp only [Bridge.step]
      split
      · rename_i hCan
        exact hOk.setLane (fun hLane => hLane.recv hCan.2.1 n)
          (fun _ => rfl)
      · exact hOk
  | eof side =>
      simp only [Bridge.step]
      split
      · rename_i hCan
        apply hOk.stop
        intro hClean
        have hOpen : ¬ s.shut = true := by
          simpa using hClean
        have hEnd := hCan.2.2.resolve_left hOpen
        have hReceiving := hCan.2.1
        simp only [Lane.receiving, Bool.and_eq_true,
          List.isEmpty_iff] at hReceiving
        exact ⟨hEnd.1, hReceiving.2, hEnd.2⟩
      · exact hOk
  | send side n =>
      simp only [Bridge.step]
      split
      · rename_i hCan
        exact hOk.setLane
          (fun hLane => hLane.send hCan.2.1
            (Bool.eq_false_of_not_eq_true hCan.2.2.2.1) n)
          (fun _ => rfl)
      · exact hOk
  | fail side =>
      simp only [Bridge.step]
      split
      · exact hOk.stop (fun h => nomatch h)
      · exact hOk
  | read side n =>
      simp only [Bridge.step]
      split
      · exact hOk.setLane (fun hLane => hLane.read n)
          (fun _ => rfl)
      · exact hOk
  | snap side =>
      exact hOk.setLane Lossless.snap (fun _ => rfl)

end BridgeOk

theorem bridgeOk_run
    {events : List BridgeEvent}
    (hPolite :
      ∀ e ∈ History.trail Bridge.step {} events,
        e.1.Polite e.2 = true) :
    BridgeOk (Bridge.run events) := by
  have hInit : BridgeOk {} := by
    refine ⟨?_, fun _ _ => rfl⟩
    intro side
    cases side with
    | coord => exact Lossless.new
    | node => exact Lossless.new
  exact History.induction_of Bridge.step
    (fun e => e.1.Polite e.2 = true) (fun _ s => BridgeOk s)
    hInit (fun _ _ _ hAllowed hOk => hOk.step hAllowed) hPolite

end CircuitDllm.NatRelay

------------------------------------------------------------
-- Frames Across The Bridge
------------------------------------------------------------

namespace CircuitDllm.NatRelay

open Wire (Aead Bytes Nonce Seals complete readFrames)

variable {F Key : Type}

/- What the dial handler answers. -/
def okAnswer : PyJson F :=
  .obj [(PyJson.codePoints "ok".toList, .bool true)]

theorem encode_okAnswer (ops : FloatOps F) :
    PyJson.encode ops okAnswer =
      "\x7b\"ok\": true\x7d".toList := by
  rw [okAnswer, PyJson.encode, PyJson.encodeWith,
    PyJson.encodeMembersWith, PyJson.encodeMembersWith,
    PyJson.encodeWith]
  decide

theorem preamble_okAnswer
    {json : JsonOps F}
    (hDepth : 0 < json.limits.depth) :
    IsPreamble json okAnswer okBytes where
  dicts := by
    refine .obj (List.nodup_singleton _) ?_
    intro m hM
    rw [List.mem_singleton.mp hM]
    exact .bool
  scalars := rfl
  written := by
    have hFits :
        PyJson.Fits json.limits json.limits.depth
          (@okAnswer F) := by
      cases hEq : json.limits.depth with
      | zero =>
          rw [hEq] at hDepth
          exact absurd hDepth (Nat.lt_irrefl 0)
      | succ depth =>
          apply PyJson.Fits.obj
          intro m hM
          rw [List.mem_singleton.mp hM]
          exact .bool
    rw [writePreamble, dumpsBytes,
      PyJson.dumps_eq_encode hFits, encode_okAnswer]
    rfl
  fits := by decide

/- The frames of a stream that ends somewhere are read. -/
def Arrives
    (aead : Aead Key)
    (key : Key)
    (msgs : List (Nonce × Int × Bytes))
    (frames : List Bytes)
    (bytes : Bytes) :
    Prop :=
  ∀ (sock : Wire.Socket), sock.bytes = bytes → ∀ calls,
    readFrames aead key calls sock =
      ((msgs.map (·.2)).take
          (min calls (complete frames bytes.length)),
        if calls ≤ complete frames bytes.length then none
        else some .closed)

theorem arrives_of_prefix
    {aead : Aead Key}
    (hLawful : aead.Lawful)
    {key : Key}
    {msgs : List (Nonce × Int × Bytes)}
    {frames : List Bytes}
    (hSeals : List.Forall₂ (Seals aead key) msgs frames)
    {bytes : Bytes}
    (hPrefix : bytes <+: frames.flatten) :
    Arrives aead key msgs frames bytes := by
  intro sock hBytes calls
  apply Wire.readFrames_cut hLawful hSeals
  rw [hBytes]
  exact List.prefix_iff_eq_take.mp hPrefix

/-
  What the ends read of each other: the node the frames of
  the coordinator, the coordinator the answer and then the
  frames of the node; and all of them when the pipe stopped
  at the end of the stream.
-/
structure Delivers
    (json : JsonOps F)
    (aead : Aead Key)
    (key : Key)
    (msgs : Side → List (Nonce × Int × Bytes))
    (frames : Side → List Bytes)
    (s : Bridge) :
    Prop where
  node :
    Arrives aead key (msgs .coord) (frames .coord)
      (s.lane .coord).delivered
  coord :
    okBytes.length ≤ (s.lane .node).delivered.length →
      ∀ sock : Wire.Socket,
        sock.bytes = (s.lane .node).delivered →
          ∃ sock' : Wire.Socket,
            readPreamble json sock = .ok (okAnswer, sock') ∧
              ∃ bytes,
                (s.lane .node).delivered = okBytes ++ bytes ∧
                sock'.bytes = bytes ∧
                Arrives aead key (msgs .node) (frames .node)
                  bytes
  swept :
    ∀ side, (s.lane side).clean = true →
      (s.lane side).broken = false →
        (s.lane side).transit = [] →
          (s.lane side).delivered =
            s.head side ++ (s.lane side).written

/- A prefix that is as long as its first part. -/
theorem split_prefix
    {head rest bytes : Bytes}
    (hPrefix : bytes <+: head ++ rest)
    (hLe : head.length ≤ bytes.length) :
    ∃ tail, bytes = head ++ tail ∧ tail <+: rest := by
  have hHead : head <+: bytes :=
    List.prefix_of_prefix_length_le (List.prefix_append _ _)
      hPrefix hLe
  rcases hHead with ⟨tail, rfl⟩
  exact ⟨tail, rfl, (List.prefix_append_right_inj head).mp
    hPrefix⟩

/-
  However the steps interleave and wherever the connections
  break: each end reads the other's frames as they were
  sealed, in order and up to some point, and the
  coordinator its answer first.
-/
theorem bridge_delivers
    {json : JsonOps F}
    (hJson : json.ops.Lawful)
    (hDepth : 0 < json.limits.depth)
    {aead : Aead Key}
    (hLawful : aead.Lawful)
    {key : Key}
    {events : List BridgeEvent}
    (hPolite :
      ∀ e ∈ History.trail Bridge.step {} events,
        e.1.Polite e.2 = true)
    {msgs : Side → List (Nonce × Int × Bytes)}
    {frames : Side → List Bytes}
    (hSeals :
      ∀ side,
        List.Forall₂ (Seals aead key) (msgs side)
          (frames side))
    (hWritten :
      ∀ side,
        ((Bridge.run events).lane side).written <+:
          (frames side).flatten) :
    Delivers json aead key msgs frames (Bridge.run events) := by
  have hOk := bridgeOk_run hPolite
  generalize Bridge.run events = s at hOk hWritten
  refine ⟨?_, ?_, ?_⟩
  · exact arrives_of_prefix hLawful (hSeals .coord)
      ((hOk.lanes .coord).delivered_written.trans
        (hWritten .coord))
  · intro hLe sock hBytes
    have hPrefix := (hOk.lanes .node).delivered_written
    have hAnswered : s.answered = true := by
      by_contra hNot
      have hNone := Bool.eq_false_of_not_eq_true hNot
      have hLane := hOk.lanes .node
      simp only [Bridge.head, hNone, Bool.false_eq_true,
        if_false] at hLane
      rw [(hLane.empty (hOk.early hNone .node)).1] at hLe
      exact absurd hLe (by decide)
    simp only [Bridge.head, hAnswered, if_true] at hPrefix
    rcases split_prefix hPrefix hLe with
      ⟨bytes, hEq, hRest⟩
    rw [hEq] at hBytes
    rcases readPreamble_of_preamble hJson
      (preamble_okAnswer hDepth) hBytes with
      ⟨sock', hRead, hLeft⟩
    exact ⟨sock', hRead, bytes, hEq, hLeft,
      arrives_of_prefix hLawful (hSeals .node)
        (hRest.trans (hWritten .node))⟩
  · intro side hClean hWhole hNone
    have hAll := (hOk.lanes side).all_sent hClean hWhole
    rwa [hNone, List.append_nil] at hAll

/- A frame of type 3 without payload, and no nonce to speak of. -/
def onceNonce : Nonce := ⟨List.replicate 12 0, rfl⟩

def onceFrame : Bytes :=
  [0, 0, 0, 29] ++ List.replicate 12 0 ++ [3] ++
    List.replicate 16 0

/- The coordinator is answered, sends it, and ends. -/
def onceEvents : List BridgeEvent :=
  [.start, .answer, .read .node 16, .write .coord onceFrame,
    .finish .coord, .recv .coord 33, .send .coord 20,
    .send .coord 13, .eof .coord, .read .coord 33]

theorem bridge_delivers_once :
    Delivers halvesJson Wire.plainAead ()
        (fun side =>
          if side = .coord then [(onceNonce, 3, [])] else [])
        (fun side => if side = .coord then [onceFrame] else [])
        (Bridge.run onceEvents) ∧
      ((Bridge.run onceEvents).lane .coord).delivered =
        onceFrame := by
  refine ⟨?_, rfl⟩
  apply bridge_delivers halves_lawful (by decide)
    Wire.plainAead_lawful (by decide)
  · intro side
    cases side with
    | coord => exact .cons rfl .nil
    | node => exact .nil
  · intro side
    cases side with
    | coord => exact ⟨[], rfl⟩
    | node => exact ⟨[], rfl⟩

end CircuitDllm.NatRelay
