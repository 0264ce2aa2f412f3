import CircuitDllm.Lib.History
import CircuitDllm.Relay.Server

/-
  Who owns a dial socket (engine/relay.py, RelayServer).

  A dial socket belongs to its handler until a data handler
  takes its entry, and to that one afterwards.  The dial
  handler learns of it only later, when the event is set.
  `Orderly` rules out the steps by which it closes a socket
  it has lost, or leaves without taking its entry back, and
  those that store control connections out of order.

  Main declarations:
    * `Fresh`, `Orderly`, `Owned`
    * `RelayOk`
    * `relayOk_of_orderly`
-/

------------------------------------------------------------
-- Orderly Runs
------------------------------------------------------------

namespace CircuitDllm.NatRelay

/- The dial handler is about to remove its entry. -/
def Pc.leaves : Pc → Bool
| .dialGiveUp _ => true
| .dialExpired _ => true
| _ => false

namespace RelayServer

/- secrets.token_hex does not give a tag twice. -/
def Fresh (s : RelayServer) : Nat × Outcome → Bool
| (_, .tag tag) => tag ∉ s.tags
| _ => true

/- No connection of the node was authenticated later. -/
def newest (s : RelayServer) (c : Nat) (node : String) :
    Bool :=
  s.online.all (fun o =>
    o.1 ≠ node || s.verifiedAt o.2 ≤ s.verifiedAt c)

/-
  A dial handler does not fail to write ok, and neither
  gives up nor expires about the time its entry is taken.
  Control connections are stored in the order in which they
  were authenticated.
-/
def Orderly (s : RelayServer) (move : Nat × Outcome) : Bool :=
  let c := move.1
  match s.pc c, move.2 with
  | .dialOk _, .raises => false
  | .dialWait _, .expires => s.event c || !s.taken c
  | .dialLookup key, .ok =>
    (s.controls key.1).isSome || !s.taken c
  | .dialSignal _ _, .raises => !s.taken c
  | .dataTake key, .ok =>
    !(s.pending key).any (fun dial => Pc.leaves (s.pc dial))
  | .controlStore node, .ok => s.newest c node
  | _, _ => true

/- A dial handler that is done. -/
def returned (s : RelayServer) (c : Nat) : Bool :=
  s.pc c = .closing || s.pc c = .closed

/-
  Sockets are paired one to one with the same key, no taken
  socket is closed by a handler, a dial handler that
  returned unpaired leaves no entry of its tag, and a
  node's control connection is the latest authenticated one
  of those that came online.
-/
structure RelayOk (s : RelayServer) : Prop where
  dials : (s.paired.map (·.dial)).Nodup
  datas : (s.paired.map (·.data)).Nodup
  keys :
    ∀ p ∈ s.paired,
      s.request p.dial = some (.dial p.key) ∧
        s.request p.data = some (.data p.key)
  owned : s.closedTaken = []
  removed :
    ∀ c node tag,
      s.request c = some (.dial (node, tag)) →
        s.returned c = true → s.taken c = false →
          ∀ node', s.pending (node', tag) = none
  latest :
    ∀ node c,
      s.controls node = some c →
        (node, c) ∈ s.online ∧
          ∀ c', (node, c') ∈ s.online →
            s.verifiedAt c' ≤ s.verifiedAt c

end RelayServer

end CircuitDllm.NatRelay

------------------------------------------------------------
-- Threads and Sockets
------------------------------------------------------------

namespace CircuitDllm.NatRelay

/- What a thread is to its socket. -/
inductive Part where
  /- asks for nothing yet -/
  | opening
  /- is a node's control connection -/
  | control
  /- closes the connection it replaced -/
  | replacing (old : Nat)
  /- is a dial that waits -/
  | dialing (key : PairKey)
  /- is a dial that will not wait -/
  | leaving (key : PairKey)
  /- is a data connection -/
  | joining (key : PairKey)
  /- is alone with its socket -/
  | alone
  /- has handed its socket off -/
  | away
deriving DecidableEq, Repr

def Pc.part : Pc → Part
| .reading => .opening
| .controlNonce _ => .opening
| .controlReply _ => .opening
| .controlOk _ => .opening
| .controlStore _ => .opening
| .dialMint _ => .opening
| .controlReplace _ old => .replacing old
| .controlHold _ => .control
| .controlDrop _ => .control
| .dialLookup key => .dialing key
| .dialSignal key _ => .dialing key
| .dialOk key => .dialing key
| .dialWait key => .dialing key
| .dialGiveUp key => .leaving key
| .dialExpired key => .leaving key
| .dataTake key => .joining key
| .refusing => .alone
| .closing => .alone
| .closed => .alone
| .dataRelease _ => .away
| .handedOff => .away

theorem Pc.leaves_of_part
    {pc : Pc}
    {key : PairKey}
    (hPart : pc.part = .leaving key) :
    pc.leaves = true := by
  cases pc <;> simp [Pc.part, Pc.leaves] at *

namespace RelayServer

variable {s s' : RelayServer} {c dial old : Nat}
variable {key : PairKey} {pc : Pc}

/- The part the thread may play. -/
def May (s : RelayServer) (c : Nat) : Part → Prop
| .opening =>
    s.request c = none ∧ ∀ node, (node, c) ∉ s.online
| .control => s.request c = none
| .replacing old =>
    s.request c = none ∧ ∃ node, (node, old) ∈ s.online
| .dialing key => s.request c = some (.dial key)
| .leaving key =>
    s.request c = some (.dial key) ∧ s.taken c = false
| .joining key =>
    s.request c = some (.data key) ∧
      ∀ p ∈ s.paired, p.data ≠ c
| .alone =>
    s.taken c = false ∧ ∀ key, s.pending key ≠ some c
| .away => True

/- The invariant of an orderly run. -/
structure Owned (s : RelayServer) : Prop where
  parts : ∀ c, s.May c (s.pc c).part
  entries :
    ∀ key dial,
      s.pending key = some dial →
        s.request dial = some (.dial key) ∧
          s.taken dial = false
  tags :
    ∀ c node tag,
      s.request c = some (.dial (node, tag)) → tag ∈ s.tags
  unique :
    ∀ c c' node node' tag,
      s.request c = some (.dial (node, tag)) →
        s.request c' = some (.dial (node', tag)) → c = c'
  unasked : ∀ node c, (node, c) ∈ s.online → s.request c = none
  dials : (s.paired.map (·.dial)).Nodup
  datas : (s.paired.map (·.data)).Nodup
  keys :
    ∀ p ∈ s.paired,
      s.request p.dial = some (.dial p.key) ∧
        s.request p.data = some (.data p.key)
  latest :
    ∀ node c,
      s.controls node = some c →
        (node, c) ∈ s.online ∧
          ∀ c', (node, c') ∈ s.online →
            s.verifiedAt c' ≤ s.verifiedAt c
  owned : s.closedTaken = []

theorem taken_eq_false_iff :
    s.taken c = false ↔ ∀ p ∈ s.paired, p.dial ≠ c := by
  simp [taken]

/-
  A thread keeps its part when the others leave its request,
  its entries, its pairings and its place online alone.
-/
theorem May.frame
    {part : Part}
    (hMay : s.May c part)
    (hRequest : s'.request c = s.request c)
    (hOnline : ∀ o ∈ s.online, o ∈ s'.online)
    (hHere :
      ∀ node, (node, c) ∈ s'.online → (node, c) ∈ s.online)
    (hPending :
      ∀ key, s'.pending key = some c → s.pending key = some c)
    (hPaired :
      ∀ p ∈ s'.paired,
        p.dial = c ∨ p.data = c → p ∈ s.paired) :
    s'.May c part := by
  have hTaken : s.taken c = false → s'.taken c = false := by
    rw [taken_eq_false_iff, taken_eq_false_iff]
    intro hNone p hMem hDial
    exact hNone p (hPaired p hMem (Or.inl hDial)) hDial
  cases part with
  | opening =>
      rcases hMay with ⟨hNone, hOff⟩
      refine ⟨hRequest.trans hNone, fun node hMem => ?_⟩
      exact hOff node (hHere node hMem)
  | control => exact hRequest.trans hMay
  | replacing old =>
      rcases hMay with ⟨hNone, node, hMem⟩
      exact ⟨hRequest.trans hNone, node, hOnline _ hMem⟩
  | dialing key => exact hRequest.trans hMay
  | leaving key =>
      exact ⟨hRequest.trans hMay.1, hTaken hMay.2⟩
  | joining key =>
      rcases hMay with ⟨hData, hFree⟩
      refine ⟨hRequest.trans hData, fun p hMem hEq => ?_⟩
      exact hFree p (hPaired p hMem (Or.inr hEq)) hEq
  | alone =>
      rcases hMay with ⟨hFree, hNone⟩
      refine ⟨hTaken hFree, fun key hSome => ?_⟩
      exact hNone key (hPending key hSome)
  | away => trivial

/- Only these four fields decide which part it may play. -/
theorem May.same
    {part : Part}
    (hMay : s.May c part)
    (hRequest : s'.request = s.request)
    (hOnline : s'.online = s.online)
    (hPending : s'.pending = s.pending)
    (hPaired : s'.paired = s.paired) :
    s'.May c part := by
  apply hMay.frame
  · rw [hRequest]
  · intro o hMem
    rwa [hOnline]
  · intro node hMem
    rwa [← hOnline]
  · intro key hSome
    rwa [← hPending]
  · intro p hMem _
    rwa [← hPaired]

end RelayServer

end CircuitDllm.NatRelay

------------------------------------------------------------
-- Steps
------------------------------------------------------------

namespace CircuitDllm.NatRelay

namespace RelayServer

variable {s s' : RelayServer} {c dial old : Nat}
variable {key : PairKey} {pc : Pc} {node tag : String}

/- An entry of an updated table is the new one or older. -/
theorem some_of_update
    {K V : Type}
    [DecidableEq K]
    {table : K → Option V}
    {k k' : K}
    {v : Option V}
    {v' : V}
    (hSome : Function.update table k v k' = some v') :
    k' = k ∧ v = some v' ∨ table k' = some v' := by
  by_cases hK : k' = k
  · rw [hK, Function.update_self] at hSome
    exact Or.inl ⟨hK, hSome⟩
  · rw [Function.update_of_ne hK] at hSome
    exact Or.inr hSome

theorem Owned.may (hOwned : s.Owned) (hPc : s.pc c = pc) :
    s.May c pc.part := by
  rw [← hPc]
  exact hOwned.parts c

/- Without a request a thread is alone with its socket. -/
theorem Owned.alone
    (hOwned : s.Owned)
    (hNone : s.request c = none) :
    s.May c .alone := by
  refine ⟨taken_eq_false_iff.mpr ?_, ?_⟩
  · intro p hMem hDial
    have hRequest := (hOwned.keys p hMem).1
    rw [hDial, hNone] at hRequest
    cases hRequest
  · intro key hSome
    have hRequest := (hOwned.entries key c hSome).1
    rw [hNone] at hRequest
    cases hRequest

/- One thread moves, and the others keep their parts. -/
theorem Owned.parts_step
    (hOwned : s.Owned)
    (hPc : s'.pc = Function.update s.pc c pc)
    (hMay : s'.May c pc.part)
    (hOthers :
      ∀ x part, x ≠ c → s.May x part → s'.May x part) :
    ∀ x, s'.May x (s'.pc x).part := by
  intro x
  rw [hPc]
  by_cases hX : x = c
  · rw [hX, Function.update_self]
    exact hMay
  · rw [Function.update_of_ne hX]
    exact hOthers x _ hX (hOwned.parts x)

theorem Owned.goto
    (hOwned : s.Owned)
    (hMay : s.May c pc.part) :
    (s.goto c pc).Owned := by
  refine { hOwned with parts := hOwned.parts_step rfl ?_ ?_ }
  · exact hMay.same rfl rfl rfl rfl
  · intro x part _ hX
    exact hX.same rfl rfl rfl rfl

theorem close_eq
    (hFree : s.taken old = false) :
    s.close c old = s := by
  simp [close, hFree]

/- The event matters to no invariant. -/
theorem Owned.set_event
    (hOwned : s.Owned)
    (event : Nat → Bool) :
    Owned { s with event := event } := by
  refine { hOwned with parts := fun x => ?_ }
  exact (hOwned.parts x).same rfl rfl rfl rfl

/-
  An opening thread asks for something.  It is away while
  its request is recorded, so that it has no part to keep.
-/
theorem Owned.ask
    (hOwned : s.Owned)
    (hAway : (s.pc c).part = .away)
    (hMay : s.May c .opening)
    {request : Request}
    {tags : List String}
    (hTags : ∀ tag ∈ s.tags, tag ∈ tags)
    (hFresh :
      ∀ node tag, request = .dial (node, tag) →
        tag ∈ tags ∧ tag ∉ s.tags) :
    Owned
      { s with
        request := Function.update s.request c (some request)
        tags := tags } := by
  have hKept :
      ∀ x r, s.request x = some r →
        Function.update s.request c (some request) x =
          some r := by
    intro x r hRequest
    have hX : x ≠ c := by
      intro hEq
      rw [hEq, hMay.1] at hRequest
      cases hRequest
    rw [Function.update_of_ne hX]
    exact hRequest
  have hDial :
      ∀ x node tag,
        Function.update s.request c (some request) x =
            some (.dial (node, tag)) →
          x = c ∧ tag ∈ tags ∧ tag ∉ s.tags ∨
            s.request x = some (.dial (node, tag)) := by
    intro x node tag hRequest
    rcases some_of_update hRequest with ⟨hX, hNew⟩ | hOld
    · exact Or.inl
        ⟨hX, hFresh node tag (Option.some.inj hNew)⟩
    · exact Or.inr hOld
  refine
    { hOwned with
      parts := fun x => ?_
      entries := ?_
      tags := ?_
      unique := ?_
      unasked := ?_
      keys := ?_ }
  · by_cases hX : x = c
    · rw [hX, hAway]
      trivial
    · exact (hOwned.parts x).frame
        (Function.update_of_ne hX ..) (fun _ hMem => hMem)
        (fun _ hMem => hMem) (fun _ hSome => hSome)
        (fun _ hMem _ => hMem)
  · intro key dial hSome
    rcases hOwned.entries key dial hSome with ⟨hAsked, hFree⟩
    exact ⟨hKept dial _ hAsked, hFree⟩
  · intro x node tag hRequest
    rcases hDial x node tag hRequest with hNew | hOld
    · exact hNew.2.1
    · exact hTags tag (hOwned.tags x node tag hOld)
  · -- a new tag is not one of an older request
    intro x x' node node' tag hX hX'
    rcases hDial x node tag hX with hNew | hOld
    · rcases hDial x' node' tag hX' with hNew' | hOld'
      · rw [hNew.1, hNew'.1]
      · exact absurd (hOwned.tags x' node' tag hOld') hNew.2.2
    · rcases hDial x' node' tag hX' with hNew' | hOld'
      · exact absurd (hOwned.tags x node tag hOld) hNew'.2.2
      · exact hOwned.unique x x' node node' tag hOld hOld'
  · intro node x hMem
    have hX : x ≠ c := by
      intro hEq
      rw [hEq] at hMem
      exact hMay.2 node hMem
    exact (Function.update_of_ne hX ..).trans
      (hOwned.unasked node x hMem)
  · intro p hMem
    rcases hOwned.keys p hMem with ⟨hD, hC⟩
    exact ⟨hKept _ _ hD, hKept _ _ hC⟩

/- A dial that is away enters its socket. -/
theorem Owned.enter
    (hOwned : s.Owned)
    (hAway : (s.pc c).part = .away)
    (hRequest : s.request c = some (.dial key))
    (hFree : s.taken c = false) :
    Owned
      { s with
        pending := Function.update s.pending key (some c) } := by
  refine
    { hOwned with
      parts := fun x => ?_
      entries := ?_ }
  · by_cases hX : x = c
    · rw [hX, hAway]
      trivial
    · refine (hOwned.parts x).frame rfl (fun _ hMem => hMem)
        (fun _ hMem => hMem) (fun k hSome => ?_)
        (fun _ hMem _ => hMem)
      rcases some_of_update hSome with ⟨_, hNew⟩ | hOld
      · exact absurd (Option.some.inj hNew).symm hX
      · exact hOld
  · intro k dial hSome
    rcases some_of_update hSome with ⟨hK, hNew⟩ | hOld
    · rw [hK, ← Option.some.inj hNew]
      exact ⟨hRequest, hFree⟩
    · exact hOwned.entries k dial hOld

/- An entry may go at any time. -/
theorem Owned.dropPending
    (hOwned : s.Owned)
    (key : PairKey) :
    (s.dropPending key).Owned := by
  have hOld :
      ∀ k dial,
        Function.update s.pending key none k = some dial →
          s.pending k = some dial := by
    intro k dial hSome
    rcases some_of_update hSome with ⟨_, hNew⟩ | hOld
    · cases hNew
    · exact hOld
  refine
    { hOwned with
      parts := fun x => ?_
      entries := fun k dial hSome =>
        hOwned.entries k dial (hOld k dial hSome) }
  exact (hOwned.parts x).frame rfl (fun _ hMem => hMem)
    (fun _ hMem => hMem) (fun k hSome => hOld k x hSome)
    (fun _ hMem _ => hMem)

/- A dial that takes its entry back is alone. -/
theorem Owned.alone_of_leaving
    (hOwned : s.Owned)
    (hMay : s.May c (.leaving key)) :
    (s.dropPending key).May c .alone := by
  refine ⟨hMay.2, fun k hSome => ?_⟩
  have hKey : k = key := by
    rcases some_of_update hSome with ⟨hK, _⟩ | hOld
    · exact hK
    · have hRequest := (hOwned.entries k c hOld).1
      rw [hMay.1] at hRequest
      cases hRequest
      rfl
  rw [hKey] at hSome
  simp [RelayServer.dropPending] at hSome

/- A connection that is not online yet is authenticated. -/
theorem Owned.verify
    (hOwned : s.Owned)
    (hOff : ∀ node, (node, c) ∉ s.online)
    (clock at_ : Nat) :
    Owned
      { s with
        clock := clock
        verifiedAt := Function.update s.verifiedAt c at_ } := by
  have hSame :
      ∀ node x, (node, x) ∈ s.online →
        Function.update s.verifiedAt c at_ x =
          s.verifiedAt x := by
    intro node x hMem
    apply Function.update_of_ne
    intro hEq
    rw [hEq] at hMem
    exact hOff node hMem
  refine
    { hOwned with
      parts := fun x => ?_
      latest := ?_ }
  · exact (hOwned.parts x).same rfl rfl rfl rfl
  · intro node x hSome
    rcases hOwned.latest node x hSome with ⟨hMem, hLatest⟩
    refine ⟨hMem, fun c' hMem' => ?_⟩
    calc
      Function.update s.verifiedAt c at_ c' =
          s.verifiedAt c' := hSame node c' hMem'
      _ ≤ s.verifiedAt x := hLatest c' hMem'
      _ = Function.update s.verifiedAt c at_ x :=
        (hSame node x hMem).symm

/- The newest connection of a node becomes its own. -/
theorem Owned.store
    (hOwned : s.Owned)
    (hAway : (s.pc c).part = .away)
    (hNone : s.request c = none)
    (hNewest : s.newest c node = true) :
    Owned
      { s with
        controls := Function.update s.controls node (some c)
        online := (node, c) :: s.online } := by
  refine
    { hOwned with
      parts := fun x => ?_
      unasked := ?_
      latest := ?_ }
  · by_cases hX : x = c
    · rw [hX, hAway]
      trivial
    · refine (hOwned.parts x).frame rfl
        (fun _ hMem => List.mem_cons_of_mem _ hMem)
        (fun node' hMem => ?_) (fun _ hSome => hSome)
        (fun _ hMem _ => hMem)
      rcases List.mem_cons.mp hMem with hEq | hOld
      · exact absurd (congrArg Prod.snd hEq) hX
      · exact hOld
  · intro node' x hMem
    rcases List.mem_cons.mp hMem with hEq | hOld
    · rcases Prod.mk.inj hEq with ⟨_, rfl⟩
      exact hNone
    · exact hOwned.unasked node' x hOld
  · intro node' x hSome
    by_cases hNode : node' = node
    · rw [hNode] at hSome ⊢
      have hX : x = c := by simpa using hSome.symm
      rw [hX]
      refine ⟨List.mem_cons_self, fun c' hMem => ?_⟩
      rcases List.mem_cons.mp hMem with hEq | hOld
      · rcases Prod.mk.inj hEq with ⟨_, rfl⟩
        exact Nat.le_refl _
      · have hLe := List.all_eq_true.mp hNewest _ hOld
        simpa using hLe
    · have hOld : s.controls node' = some x :=
        (Function.update_of_ne hNode ..).symm.trans hSome
      rcases hOwned.latest node' x hOld with ⟨hMem, hLatest⟩
      refine ⟨List.mem_cons_of_mem _ hMem, fun c' hMem' => ?_⟩
      rcases List.mem_cons.mp hMem' with hEq | hOther
      · exact absurd (congrArg Prod.fst hEq) hNode
      · exact hLatest c' hOther

theorem Owned.drop_control
    (hOwned : s.Owned)
    (node : String) :
    Owned
      { s with
        controls := Function.update s.controls node none } := by
  refine
    { hOwned with
      parts := fun x => ?_
      latest := ?_ }
  · exact (hOwned.parts x).same rfl rfl rfl rfl
  · intro node' x hSome
    rcases some_of_update hSome with ⟨_, hNew⟩ | hOld
    · cases hNew
    · exact hOwned.latest node' x hOld

/- A dial whose entry is taken while it waits. -/
theorem Owned.may_of_taken
    (hOwned : s.Owned)
    (hPending : s.pending key = some dial)
    (hStays : (s.pc dial).leaves = false)
    (hRequest : s'.request dial = s.request dial) :
    s'.May dial (s.pc dial).part := by
  have hAsked := (hOwned.entries key dial hPending).1
  have hPart := hOwned.parts dial
  cases hP : (s.pc dial).part with
  | opening =>
      rw [hP] at hPart
      exact absurd (hAsked.symm.trans hPart.1) (by simp)
  | control =>
      rw [hP] at hPart
      exact absurd (hAsked.symm.trans hPart) (by simp)
  | replacing old =>
      rw [hP] at hPart
      exact absurd (hAsked.symm.trans hPart.1) (by simp)
  | dialing k =>
      rw [hP] at hPart
      exact hRequest.trans hPart
  | leaving k =>
      rw [Pc.leaves_of_part hP] at hStays
      cases hStays
  | joining k =>
      rw [hP] at hPart
      exact absurd (hAsked.symm.trans hPart.1) (by simp)
  | alone =>
      rw [hP] at hPart
      exact absurd hPending (hPart.2 key)
  | away => trivial

/- A data connection that is away takes an entry. -/
theorem Owned.take
    (hOwned : s.Owned)
    (hAway : (s.pc c).part = .away)
    (hMay : s.May c (.joining key))
    (hPending : s.pending key = some dial)
    (hStays : (s.pc dial).leaves = false) :
    Owned
      { s.dropPending key with
        paired := ⟨dial, c, key⟩ :: s.paired } := by
  rcases hOwned.entries key dial hPending with ⟨hAsked, hFree⟩
  have hOld :
      ∀ k x,
        Function.update s.pending key none k = some x →
          s.pending k = some x ∧ k ≠ key := by
    intro k x hSome
    rcases some_of_update hSome with ⟨_, hNew⟩ | hOld
    · cases hNew
    · refine ⟨hOld, fun hK => ?_⟩
      rw [hK, Function.update_self] at hSome
      cases hSome
  refine
    { hOwned with
      parts := fun x => ?_
      entries := ?_
      dials := ?_
      datas := ?_
      keys := ?_ }
  · by_cases hX : x = c
    · have hPart : ((s.dropPending key).pc x).part = .away := by
        rw [hX]
        exact hAway
      rw [hPart]
      trivial
    · by_cases hD : x = dial
      · rw [hD]
        exact hOwned.may_of_taken hPending hStays rfl
      · refine (hOwned.parts x).frame rfl
          (fun _ hMem => hMem) (fun _ hMem => hMem)
          (fun k hSome => (hOld k x hSome).1)
          (fun p hMem hIn => ?_)
        rcases List.mem_cons.mp hMem with rfl | hPaired
        · rcases hIn with hEq | hEq
          · exact absurd hEq.symm hD
          · exact absurd hEq.symm hX
        · exact hPaired
  · intro k x hSome
    rcases hOld k x hSome with ⟨hEntry, hK⟩
    rcases hOwned.entries k x hEntry with ⟨hRequest, hNot⟩
    refine ⟨hRequest, taken_eq_false_iff.mpr ?_⟩
    intro p hMem hDial
    rcases List.mem_cons.mp hMem with rfl | hPaired
    · rw [← hDial, hAsked] at hRequest
      cases hRequest
      exact hK rfl
    · exact taken_eq_false_iff.mp hNot p hPaired hDial
  · refine List.nodup_cons.mpr ⟨fun hMem => ?_, hOwned.dials⟩
    rcases List.mem_map.mp hMem with ⟨p, hPaired, hDial⟩
    exact taken_eq_false_iff.mp hFree p hPaired hDial
  · refine List.nodup_cons.mpr ⟨fun hMem => ?_, hOwned.datas⟩
    rcases List.mem_map.mp hMem with ⟨p, hPaired, hData⟩
    exact hMay.2 p hPaired hData
  · intro p hMem
    rcases List.mem_cons.mp hMem with rfl | hPaired
    · exact ⟨hAsked, hMay.1⟩
    · exact hOwned.keys p hPaired

/- A thread steps aside. -/
theorem Owned.aside
    (hOwned : s.Owned)
    (c : Nat) :
    (s.goto c .handedOff).Owned ∧
      ((s.goto c .handedOff).pc c).part = .away :=
  ⟨hOwned.goto trivial, by simp [RelayServer.goto, Pc.part]⟩

theorem goto_goto (pc pc' : Pc) :
    (s.goto c pc).goto c pc' = s.goto c pc' := by
  simp [RelayServer.goto]

theorem Owned.on_data
    (hOwned : s.Owned)
    (hMay : s.May c .opening)
    (key : PairKey) :
    Owned
      { s.goto c (.dataTake key) with
        request :=
          Function.update s.request c (some (.data key)) } := by
  rcases hOwned.aside c with ⟨hAside, hAway⟩
  have hAsk :
      Owned
        { s.goto c .handedOff with
          request :=
            Function.update s.request c (some (.data key)) } := by
    apply hAside.ask hAway hMay
    · intro tag hMem
      exact hMem
    · intro node tag hRequest
      cases hRequest
  rw [← goto_goto .handedOff]
  apply hAsk.goto
  refine ⟨Function.update_self .., fun p hMem hData => ?_⟩
  have hAsked := (hOwned.keys p hMem).2
  rw [hData, hMay.1] at hAsked
  cases hAsked

theorem Owned.on_preamble
    (hOwned : s.Owned)
    (cfg : RelayConfig)
    (hMay : s.May c .opening)
    (p : Preamble) :
    (s.onPreamble cfg c p).Owned := by
  have hAlone := hOwned.alone hMay.1
  cases p with
  | control node =>
      simp only [onPreamble]
      split
      · exact hOwned.goto hAlone
      · exact hOwned.goto hMay
  | dial node token =>
      simp only [onPreamble]
      split
      · exact hOwned.goto hAlone
      · exact hOwned.goto hMay
  | data node tag => exact hOwned.on_data hMay (node, tag)
  | unknown => exact hOwned.goto hAlone

theorem Owned.on_reply
    (hOwned : s.Owned)
    (cfg : RelayConfig)
    (hMay : s.May c .opening)
    (node : String)
    (valid : Bool) :
    (s.onReply cfg c node valid).Owned := by
  unfold onReply
  split
  · exact hOwned.goto (hOwned.alone hMay.1)
  · exact (hOwned.goto hMay).verify hMay.2 _ _

theorem Owned.on_store
    (hOwned : s.Owned)
    (hMay : s.May c .opening)
    (hNewest : s.newest c node = true) :
    (s.onStore c node).Owned := by
  rcases hOwned.aside c with ⟨hAside, hAway⟩
  have hStore := hAside.store hAway hMay.1 hNewest
  cases hOld : s.controls node with
  | none =>
      simp only [onStore, hOld]
      rw [← goto_goto .handedOff]
      exact hStore.goto hMay.1
  | some old =>
      simp only [onStore, hOld]
      rw [← goto_goto .handedOff]
      apply hStore.goto
      refine ⟨hMay.1, node, List.mem_cons_of_mem _ ?_⟩
      exact (hOwned.latest node old hOld).1

theorem Owned.on_drop
    (hOwned : s.Owned)
    (hMay : s.May c .control)
    (node : String) :
    (s.onDrop c node).Owned := by
  have hClosing : (s.goto c .closing).Owned :=
    hOwned.goto (hOwned.alone hMay)
  simp only [onDrop]
  split
  · exact hClosing.drop_control node
  · exact hClosing

theorem Owned.on_mint
    (hOwned : s.Owned)
    (hMay : s.May c .opening)
    (hNew : tag ∉ s.tags) :
    (s.onMint c node tag).Owned := by
  rcases hOwned.aside c with ⟨hAside, hAway⟩
  have hAsk :
      Owned
        { s.goto c .handedOff with
          request :=
            Function.update s.request c
              (some (.dial (node, tag)))
          tags := tag :: s.tags } := by
    apply hAside.ask hAway hMay
    · intro t hMem
      exact List.mem_cons_of_mem _ hMem
    · intro n t hRequest
      cases hRequest
      exact ⟨List.mem_cons_self, hNew⟩
  have hEnter :=
    hAsk.enter hAway (Function.update_self ..)
      (hOwned.alone hMay.1).1
  unfold onMint
  rw [← goto_goto .handedOff]
  apply (hEnter.set_event _).goto
  exact Function.update_self ..

theorem Owned.on_lookup
    (hOwned : s.Owned)
    (hMay : s.May c (.dialing key))
    (hKept :
      s.controls key.1 = none → s.taken c = false) :
    (s.onLookup c key).Owned := by
  unfold onLookup
  cases hControl : s.controls key.1 with
  | none => exact hOwned.goto ⟨hMay, hKept hControl⟩
  | some control => exact hOwned.goto hMay

theorem Owned.on_take
    (hOwned : s.Owned)
    (hMay : s.May c (.joining key))
    (hStays :
      ∀ dial, s.pending key = some dial →
        (s.pc dial).leaves = false) :
    (s.onTake c key).Owned := by
  unfold onTake
  cases hPending : s.pending key with
  | none =>
      apply hOwned.goto
      refine ⟨taken_eq_false_iff.mpr ?_, ?_⟩
      · intro p hMem hDial
        have hAsked := (hOwned.keys p hMem).1
        rw [hDial, hMay.1] at hAsked
        cases hAsked
      · intro k hSome
        have hAsked := (hOwned.entries k c hSome).1
        rw [hMay.1] at hAsked
        cases hAsked
  | some dial =>
      rcases hOwned.aside c with ⟨hAside, hAway⟩
      have hNot : dial ≠ c := by
        intro hEq
        have hAsked := (hOwned.entries key dial hPending).1
        rw [hEq, hMay.1] at hAsked
        cases hAsked
      have hStay :
          ((s.goto c .handedOff).pc dial).leaves = false := by
        simpa [RelayServer.goto, hNot] using
          hStays dial hPending
      have hTake :=
        hAside.take hAway
          (hMay.same rfl rfl rfl rfl)
          hPending hStay
      have hMoved :
          (RelayServer.goto _ c (.dataRelease dial)).Owned :=
        hTake.goto trivial
      simp only []
      rw [← goto_goto .handedOff]
      exact hMoved

/- A socket that was not taken may be closed. -/
theorem Owned.close
    (hOwned : s.Owned)
    (hFree : s.taken old = false)
    (hMay : s.May c pc.part) :
    ((s.close c old).goto c pc).Owned := by
  rw [close_eq hFree]
  exact hOwned.goto hMay

/- The connection a control handler replaced is no dial. -/
theorem Owned.replace
    (hOwned : s.Owned)
    (hMay : s.May c (.replacing old))
    (hControl : pc.part = .control) :
    ((s.close c old).goto c pc).Owned := by
  rcases hMay with ⟨hNone, node, hMem⟩
  apply hOwned.close
  · exact (hOwned.alone (hOwned.unasked node old hMem)).1
  · rw [hControl]
    exact hNone

/- A dial handler takes its entry back. -/
theorem Owned.leave
    (hOwned : s.Owned)
    (hMay : s.May c (.leaving key))
    (hAlone : pc.part = .alone) :
    ((s.dropPending key).goto c pc).Owned := by
  apply (hOwned.dropPending key).goto
  rw [hAlone]
  exact hOwned.alone_of_leaving hMay

/- A fresh and orderly step keeps the invariant. -/
theorem Owned.step
    (hOwned : s.Owned)
    (cfg : RelayConfig)
    (move : Nat × Outcome)
    (hFresh : s.Fresh move = true)
    (hOrderly : s.Orderly move = true) :
    (step cfg s move).Owned := by
  rcases move with ⟨c, outcome⟩
  simp only [RelayServer.step]
  split
  -- the preamble
  case h_1 p hPc =>
    exact hOwned.on_preamble cfg (hOwned.may hPc) p
  case h_2 hPc =>
    have hMay := hOwned.may hPc
    exact hOwned.goto (hOwned.alone hMay.1)
  case h_3 hPc =>
    have hMay := hOwned.may hPc
    exact hOwned.goto hMay
  case h_4 hPc =>
    have hMay := hOwned.may hPc
    exact hOwned.goto hMay
  -- a control connection
  case h_5 hPc =>
    have hMay := hOwned.may hPc
    exact hOwned.goto hMay
  case h_6 hPc =>
    have hMay := hOwned.may hPc
    exact hOwned.goto (hOwned.alone hMay.1)
  case h_7 node valid hPc =>
    exact hOwned.on_reply cfg (hOwned.may hPc) node valid
  case h_8 hPc =>
    have hMay := hOwned.may hPc
    exact hOwned.goto (hOwned.alone hMay.1)
  case h_9 hPc =>
    have hMay := hOwned.may hPc
    exact hOwned.goto hMay
  case h_10 hPc =>
    have hMay := hOwned.may hPc
    exact hOwned.goto (hOwned.alone hMay.1)
  case h_11 node hPc =>
    apply hOwned.on_store (hOwned.may hPc)
    simpa [Orderly, hPc] using hOrderly
  case h_12 hPc => exact hOwned.replace (hOwned.may hPc) rfl
  case h_13 hPc => exact hOwned.replace (hOwned.may hPc) rfl
  case h_14 hPc =>
    have hMay := hOwned.may hPc
    exact hOwned.goto hMay
  case h_15 node hPc =>
    exact hOwned.on_drop (hOwned.may hPc) node
  -- a dial
  case h_16 node tag hPc =>
    apply hOwned.on_mint (hOwned.may hPc)
    simpa [Fresh] using hFresh
  case h_17 key hPc =>
    apply hOwned.on_lookup (hOwned.may hPc)
    intro hOffline
    simpa [Orderly, hPc, hOffline] using hOrderly
  case h_18 hPc =>
    have hMay := hOwned.may hPc
    exact hOwned.goto hMay
  case h_19 hPc =>
    apply hOwned.goto
    refine ⟨hOwned.may hPc, ?_⟩
    simpa [Orderly, hPc] using hOrderly
  case h_20 hPc => exact hOwned.leave (hOwned.may hPc) rfl
  case h_21 hPc =>
    have hMay := hOwned.may hPc
    exact hOwned.goto hMay
  case h_22 hPc =>
    -- an orderly dial handler does not fail to write ok
    simp [Orderly, hPc] at hOrderly
  case h_23 key hPc =>
    split
    · exact hOwned
    · rename_i hUnset
      apply hOwned.goto
      refine ⟨hOwned.may hPc, ?_⟩
      simpa [Orderly, hPc, hUnset] using hOrderly
  case h_24 hPc =>
    split
    · exact hOwned.goto trivial
    · exact hOwned
  case h_25 hPc => exact hOwned.leave (hOwned.may hPc) rfl
  -- a data connection
  case h_26 key hPc =>
    apply hOwned.on_take (hOwned.may hPc)
    intro dial hPending
    simpa [Orderly, hPc, hPending] using hOrderly
  case h_27 hPc =>
    have hMoved : (s.goto c .handedOff).Owned :=
      hOwned.goto trivial
    exact hMoved.set_event _
  -- the handler's own socket
  case h_28 hPc =>
    have hMay := hOwned.may hPc
    exact hOwned.close hMay.1 hMay
  case h_29 hPc =>
    have hMay := hOwned.may hPc
    exact hOwned.close hMay.1 hMay
  case h_30 => exact hOwned

end RelayServer

end CircuitDllm.NatRelay

------------------------------------------------------------
-- Runs
------------------------------------------------------------

namespace CircuitDllm.NatRelay

namespace RelayServer

theorem owned_init : Owned {} where
  parts _ := ⟨rfl, fun _ => List.not_mem_nil⟩
  entries _ _ hSome := nomatch hSome
  tags _ _ _ hSome := nomatch hSome
  unique _ _ _ _ _ hSome := nomatch hSome
  unasked _ _ hMem := absurd hMem List.not_mem_nil
  dials := List.nodup_nil
  datas := List.nodup_nil
  keys _ hMem := absurd hMem List.not_mem_nil
  latest _ _ hSome := nomatch hSome
  owned := rfl

variable {s : RelayServer}

theorem Owned.removed
    (hOwned : s.Owned)
    {c : Nat}
    {node tag : String}
    (hRequest : s.request c = some (.dial (node, tag)))
    (hReturned : s.returned c = true)
    (node' : String) :
    s.pending (node', tag) = none := by
  have hAlone : s.May c .alone := by
    rcases Bool.or_eq_true_iff.mp hReturned with hPc | hPc
    · exact hOwned.may (of_decide_eq_true hPc)
    · exact hOwned.may (of_decide_eq_true hPc)
  rw [Option.eq_none_iff_forall_ne_some]
  intro dial hSome
  have hAsked := (hOwned.entries _ dial hSome).1
  rw [← hOwned.unique c dial node node' tag hRequest hAsked]
    at hSome
  exact hAlone.2 _ hSome

theorem Owned.relayOk (hOwned : s.Owned) : s.RelayOk where
  dials := hOwned.dials
  datas := hOwned.datas
  keys := hOwned.keys
  owned := hOwned.owned
  removed _ _ _ hRequest hReturned _ node' :=
    hOwned.removed hRequest hReturned node'
  latest := hOwned.latest

/- Every state of an orderly run is as it should be. -/
theorem relayOk_of_orderly
    (cfg : RelayConfig)
    (moves : List (Nat × Outcome))
    (hOrderly :
      ∀ e ∈ History.trail (step cfg) {} moves,
        e.1.Fresh e.2 = true ∧ e.1.Orderly e.2 = true) :
    (run cfg moves).RelayOk := by
  have hOwned : (run cfg moves).Owned :=
    History.induction_of (step cfg) _ (fun _ s => s.Owned)
      owned_init
      (fun _ _ move hMove hOwned =>
        hOwned.step cfg move hMove.1 hMove.2)
      hOrderly
  exact hOwned.relayOk

/- Connection `c` becomes the node's. -/
def connects (c : Nat) : List (Nat × Outcome) :=
  [(c, .preamble (.control "n")), (c, .ok),
    (c, .reply true), (c, .ok)]

/- Dial 1 asks for the node, which is online, and signals. -/
def signals : List (Nat × Outcome) :=
  connects 0 ++
    [(0, .ok), (1, .preamble (.dial "n" "")),
      (1, .tag "t"), (1, .ok), (1, .ok)]

theorem relayOk_of_orderly_paired :
    (run {}
      (signals ++
        [(1, .ok), (2, .preamble (.data "n" "t")), (2, .ok),
          (2, .ok), (1, .ok), (0, .raises),
          (0, .ok)])).RelayOk :=
  relayOk_of_orderly {} _ (by decide +kernel)

/- The wait expires between the take and the event. -/
def expiresTaken : List (Nat × Outcome) :=
  signals ++
    [(1, .ok), (2, .preamble (.data "n" "t")), (2, .ok),
      (1, .expires), (1, .ok), (1, .ok)]

/- The dial's ok cannot be written. -/
def failsOk : List (Nat × Outcome) :=
  signals ++ [(1, .raises), (1, .ok)]

/- Connection 0 is authenticated first and stored last. -/
def storesLate : List (Nat × Outcome) :=
  connects 0 ++ connects 3 ++ [(3, .ok), (0, .ok)]

/- A run whose tags are fresh and that goes wrong. -/
def Breaks (moves : List (Nat × Outcome)) : Prop :=
  (∀ e ∈ History.trail (step {}) {} moves,
      e.1.Fresh e.2 = true) ∧
    ¬ (run {} moves).RelayOk

theorem not_relayOk_of_races :
    Breaks expiresTaken ∧ Breaks failsOk ∧
      Breaks storesLate := by
  refine ⟨?_, ?_, ?_⟩
  · -- the dial handler closes the socket it has lost
    refine ⟨by decide +kernel, fun hOk => ?_⟩
    exact absurd hOk.owned (by decide +kernel)
  · -- the entry is still there
    refine ⟨by decide +kernel, fun hOk => ?_⟩
    exact absurd
      (hOk.removed 1 "n" "t" (by decide +kernel)
        (by decide +kernel) (by decide +kernel) "n")
      (by decide +kernel)
  · -- the older connection is the node's
    refine ⟨by decide +kernel, fun hOk => ?_⟩
    exact absurd
      ((hOk.latest "n" 0 (by decide +kernel)).2 3
        (by decide +kernel))
      (by decide +kernel)

end RelayServer

end CircuitDllm.NatRelay
