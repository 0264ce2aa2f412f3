import CircuitDllm.Mesh.Audit
import CircuitDllm.Mesh.Layers
import CircuitDllm.Mesh.Partition

/-
  A round of the auditor (engine/coordinator.py).

  The pairs are chosen under the registry's lock; the two
  challenges of a pair and the verdict come later, while
  nodes register, leave and are promoted, and while other
  threads use the same connections.  A pair names its nodes
  by id and is not looked at again.

  Main declarations:
    * `Numerics`, `AuditWorld`
    * `AuditWorld.step`
    * `AuditWorld.Meets`, `AuditWorld.honestNotStruck_run`
-/

------------------------------------------------------------
-- Connections
------------------------------------------------------------

namespace CircuitDllm

/- An ACTIVATION frame, numbered in the order of writing. -/
structure InputFrame (X : Type) where
  number : Nat
  hidden : X

/- The answer to a frame: none if it is not a RESULT. -/
structure OutputFrame (Out : Type) where
  number : Nat
  out : Option Out

/- A socket to a node, which answers in order. -/
structure NodeSocket (X Out : Type) where
  peer : String
  asked : List (InputFrame X) := []
  replies : List (OutputFrame Out) := []

/-
  A connection set, its open sockets, and the sockets and
  the frames there have been.
-/
structure NodeWires (X Out : Type) where
  conns : Dict String Nat := .empty
  socks : Dict Nat (NodeSocket X Out) := .empty
  dialed : Nat := 0
  sent : Nat := 0

namespace NodeWires

variable {X Out : Type}

/- _drop_conn closes the socket. -/
def dropConn
    (nodeId : String)
    (w : NodeWires X Out) :
    NodeWires X Out :=
  match w.conns.get? nodeId with
  | none => w
  | some s =>
    { w with
      conns := w.conns.erase nodeId
      socks := w.socks.erase s }

/- A new connection to a node. -/
def dial
    (nodeId : String)
    (w : NodeWires X Out) :
    NodeWires X Out :=
  { w with
    conns := w.conns.set nodeId w.dialed
    socks := w.socks.set w.dialed { peer := nodeId }
    dialed := w.dialed + 1 }

/- A frame is written to an open socket. -/
def writeFrame
    (s : Nat)
    (x : X)
    (w : NodeWires X Out) :
    NodeWires X Out :=
  { w with
    socks :=
      w.socks.modify s (fun sock =>
        { sock with asked := sock.asked ++ [⟨w.sent, x⟩] })
    sent := w.sent + 1 }

/- The oldest reply is taken off a socket. -/
def takeReply
    (s : Nat)
    (w : NodeWires X Out) :
    NodeWires X Out :=
  { w with
    socks :=
      w.socks.modify s (fun sock =>
        { sock with replies := sock.replies.tail }) }

/- The oldest reply on a socket. -/
def oldestReply
    (w : NodeWires X Out)
    (s : Nat) :
    Option (OutputFrame Out) :=
  (w.socks.get? s).bind (fun sock => sock.replies.head?)

/- The oldest request on a socket, and who answers it. -/
def oldestRequest
    (w : NodeWires X Out)
    (s : Nat) :
    Option (String × InputFrame X) :=
  (w.socks.get? s).bind (fun sock =>
    sock.asked.head?.map (fun f => (sock.peer, f)))

/- A node answers the oldest request of a socket. -/
def answerWith
    (s : Nat)
    (out : Option Out)
    (w : NodeWires X Out) :
    NodeWires X Out :=
  match w.oldestRequest s with
  | none => w
  | some (_, f) =>
    { w with
      socks :=
        w.socks.modify s (fun sock =>
          { sock with
            asked := sock.asked.tail
            replies := sock.replies ++ [⟨f.number, out⟩] }) }

end NodeWires

end CircuitDllm

------------------------------------------------------------
-- The Auditor
------------------------------------------------------------

namespace CircuitDllm

/-
  What a range of layers makes of an input, up to the noise
  of the hardware, and outputs_agree(out_test, out_ref).
-/
structure Numerics (X Noise Out : Type) where
  compute : Int × Int → X → Noise → Out
  agree : Out → Out → Bool
  agree_same :
    ∀ layers x e e',
      agree (compute layers x e) (compute layers x e') = true
  agree_other :
    ∀ layers layers' x e e', layers ≠ layers' →
      agree (compute layers x e) (compute layers' x e') = false

/- What the auditor works with. -/
structure AuditSetup (X Noise Out : Type) where
  registry : RegistryConfig
  dynamic : Bool
  numerics : Numerics X Noise Out
  -- the nodes that compute the layers they are assigned
  honest : String → Bool

/- How a node answers. -/
inductive Answering (Noise Out : Type) where
  | computes (noise : Noise)
  /- an ERROR frame -/
  | refuses
  | invents (out : Out)

/- The pair under challenge, and the pairs after it. -/
structure Challenge (X Out : Type) where
  test : String
  ref : String
  slot : Nat
  todo : List (String × String × Nat)
  hidden : X
  outRef : Option Out := none

/- The reference is challenged first. -/
def Challenge.target
    {X Out : Type}
    (c : Challenge X Out) :
    String :=
  if c.outRef.isNone then c.ref else c.test

/- Where run_audit_round stands. -/
inductive AuditPoint (X Out : Type) where
  | idle
  /- at the head of the loop -/
  | next (todo : List (String × String × Nat))
  /- the tested node has been looked up -/
  | looking
      (found : Bool)
      (test ref : String)
      (slot : Nat)
      (todo : List (String × String × Nat))
  /- in _challenge_node, before _conn_for -/
  | calling (c : Challenge X Out)
  | connected (c : Challenge X Out) (sock : Nat)
  /- the frame is written -/
  | awaiting (c : Challenge X Out) (sock number : Nat)
  | judging (c : Challenge X Out) (outRef outTest : Out)

end CircuitDllm

------------------------------------------------------------
-- State
------------------------------------------------------------

namespace CircuitDllm

/- The layers of slot `k`. -/
def Registry.layersOf
    (r : Registry)
    (k : Nat) :
    Option (Int × Int) :=
  r.topo.slots[k]?.map Slot.range

/- A call of record_check. -/
structure Verdict where
  test : String
  ref : String
  ok : Bool
deriving DecidableEq, Repr

/- The registry, and where the auditor stands. -/
structure AuditWorld (X Out : Type) where
  registry : Registry
  -- the layers each node was assigned last
  assigned : String → Option (Int × Int) := fun _ => none
  wires : NodeWires X Out := {}
  point : AuditPoint X Out := .idle
  verdicts : List Verdict := []

/-
  What can happen: an operation of the registry, a step of
  the round, a use of the same connections by another
  thread, and an answer of a node.
-/
inductive AuditEvent (X Noise Out : Type) where
  | registry (op : RegistryOp)
  | begin (maxPairs : Int)
  | lookTest
  /- the reference is looked up, the input drawn -/
  | lookRef (x : X)
  | connect
  | write
  | read
  /- a WireError or an OSError -/
  | raise
  /- any other exception -/
  | crash
  | judge
  | otherDial (nodeId : String)
  | otherWrite (sock : Nat) (x : X)
  | otherRead (sock : Nat)
  | otherDrop (nodeId : String)
  | answer (sock : Nat) (how : Answering Noise Out)

namespace AuditWorld

variable {X Noise Out : Type}

/- The assignments after an operation; none is forgotten. -/
def reassign (w : AuditWorld X Out) (r : Registry) :
    AuditWorld X Out :=
  { w with
    registry := r
    assigned := fun nodeId =>
      match r.topo.nodes.get? nodeId with
      | none => w.assigned nodeId
      | some n => n.slot.bind r.layersOf }

/- pairs[:max_pairs] -/
def upTo
    (maxPairs : Int)
    (pairs : List (String × String × Nat)) :
    List (String × String × Nat) :=
  pairs.take
    (if 0 ≤ maxPairs then maxPairs
      else pairs.length + maxPairs).toNat

end AuditWorld

end CircuitDllm

------------------------------------------------------------
-- Steps
------------------------------------------------------------

namespace CircuitDllm

namespace AuditWorld

variable {X Noise Out : Type}
variable (cfg : AuditSetup X Noise Out)

/- A round starts: audit_pairs()[:max_pairs]. -/
def begin
    (maxPairs : Int)
    (w : AuditWorld X Out) :
    AuditWorld X Out :=
  match w.point with
  | .idle =>
    if cfg.dynamic then
      { w with
        point := .next (upTo maxPairs w.registry.auditPairs) }
    else w
  | _ => w

def lookTest (w : AuditWorld X Out) : AuditWorld X Out :=
  match w.point with
  | .next [] => { w with point := .idle }
  | .next ((test, ref, slot) :: todo) =>
    { w with
      point :=
        .looking (w.registry.topo.nodes.get? test).isSome test
          ref slot todo }
  | _ => w

/- A pair with a node that is gone is skipped. -/
def lookRef (x : X) (w : AuditWorld X Out) :
    AuditWorld X Out :=
  match w.point with
  | .looking found test ref slot todo =>
    if found ∧ (w.registry.topo.nodes.get? ref).isSome then
      { w with
        point :=
          .calling
            { test := test
              ref := ref
              slot := slot
              todo := todo
              hidden := x } }
    else { w with point := .next todo }
  | _ => w

/- _conn_for: the cached connection, or a new one. -/
def connect (w : AuditWorld X Out) : AuditWorld X Out :=
  match w.point with
  | .calling c =>
    match w.wires.conns.get? c.target with
    | some s => { w with point := .connected c s }
    | none =>
      { w with
        wires := w.wires.dial c.target
        point := .connected c w.wires.dialed }
  | _ => w

def write (w : AuditWorld X Out) : AuditWorld X Out :=
  match w.point with
  | .connected c s =>
    { w with
      wires := w.wires.writeFrame s c.hidden
      point := .awaiting c s w.wires.sent }
  | _ => w

/- Both connections are given up, and the pair is skipped. -/
def raise (w : AuditWorld X Out) : AuditWorld X Out :=
  let skip := fun (c : Challenge X Out) =>
    { w with
      wires := (w.wires.dropConn c.ref).dropConn c.test
      point := .next c.todo }
  match w.point with
  | .calling c => skip c
  | .connected c _ => skip c
  | .awaiting c _ _ => skip c
  | _ => w

/- A reply that is no RESULT raises a WireError. -/
def read (w : AuditWorld X Out) : AuditWorld X Out :=
  match w.point with
  | .awaiting c s _ =>
    match w.wires.oldestReply s with
    | none => w
    | some reply =>
      let w := { w with wires := w.wires.takeReply s }
      match reply.out, c.outRef with
      | none, _ => w.raise
      | some out, none =>
        { w with
          point := .calling { c with outRef := some out } }
      | some outTest, some outRef =>
        { w with point := .judging c outRef outTest }
  | _ => w

/- record_check(test_id, outputs_agree(out_test, out_ref)) -/
def judge (w : AuditWorld X Out) : AuditWorld X Out :=
  match w.point with
  | .judging c outRef outTest =>
    let ok := cfg.numerics.agree outTest outRef
    { w.reassign
        (w.registry.step cfg.registry
          (.recordCheck c.test ok 3 2)) with
      point := .next c.todo
      verdicts := w.verdicts ++ [⟨c.test, c.ref, ok⟩] }
  | _ => w

/- What a node puts into its answer. -/
def outputOf
    (w : AuditWorld X Out)
    (nodeId : String)
    (x : X) :
    Answering Noise Out → Option Out
| .computes noise =>
    (w.assigned nodeId).map (fun layers =>
      cfg.numerics.compute layers x noise)
| .refuses => none
| .invents out => if cfg.honest nodeId then none else some out

/- A node answers the oldest request of a connection. -/
def answer
    (s : Nat)
    (how : Answering Noise Out)
    (w : AuditWorld X Out) :
    AuditWorld X Out :=
  match w.wires.oldestRequest s with
  | none => w
  | some (peer, f) =>
    { w with
      wires :=
        w.wires.answerWith s
          (w.outputOf cfg peer f.hidden how) }

/- An operation; a restart ends the auditor's process too. -/
def operate
    (op : RegistryOp)
    (w : AuditWorld X Out) :
    AuditWorld X Out :=
  let w := w.reassign (w.registry.step cfg.registry op)
  match op with
  | .restart =>
    { w with
      wires := { w.wires with conns := .empty, socks := .empty }
      point := .idle }
  | _ => w

def step (w : AuditWorld X Out) :
    AuditEvent X Noise Out → AuditWorld X Out
| .registry op => w.operate cfg op
| .begin maxPairs => w.begin cfg maxPairs
| .lookTest => w.lookTest
| .lookRef x => w.lookRef x
| .connect => w.connect
| .write => w.write
| .read => w.read
| .raise => w.raise
| .crash => { w with point := .idle }
| .judge => w.judge cfg
| .otherDial nodeId =>
    if (w.wires.conns.get? nodeId).isSome then w
    else { w with wires := w.wires.dial nodeId }
| .otherWrite s x =>
    { w with wires := w.wires.writeFrame s x }
| .otherRead s => { w with wires := w.wires.takeReply s }
| .otherDrop nodeId =>
    { w with wires := w.wires.dropConn nodeId }
| .answer s how => w.answer cfg s how

def run
    (w : AuditWorld X Out)
    (es : List (AuditEvent X Noise Out)) :
    AuditWorld X Out :=
  es.foldl (step cfg) w

/- The challenge whose reply is awaited, by socket and number. -/
def awaited (w : AuditWorld X Out) :
    Option (Challenge X Out × Nat × Nat) :=
  match w.point with
  | .awaiting c s number => some (c, s, number)
  | _ => none

/-
  The auditor reads the reply to its own challenge, and the
  challenge is answered by a node that is still assigned the
  layers of the pair's slot.
-/
def Meets (w : AuditWorld X Out) :
    AuditEvent X Noise Out → Prop
| .read =>
    ∀ a ∈ w.awaited,
      ∀ reply ∈ w.wires.oldestReply a.2.1,
        reply.number = a.2.2
| .answer s _ =>
    ∀ a ∈ w.awaited, a.2.1 = s →
      ∀ request ∈ w.wires.oldestRequest s,
        request.2.number = a.2.2 →
          w.assigned request.1 = w.registry.layersOf a.1.slot
| _ => True

instance
    (w : AuditWorld X Out)
    (ev : AuditEvent X Noise Out) :
    Decidable (w.Meets ev) := by
  cases ev with
  | read =>
      exact inferInstanceAs (Decidable (∀ a ∈ w.awaited,
        ∀ reply ∈ w.wires.oldestReply a.2.1,
          reply.number = a.2.2))
  | answer s how =>
      exact inferInstanceAs (Decidable (∀ a ∈ w.awaited,
        a.2.1 = s → ∀ request ∈ w.wires.oldestRequest s,
          request.2.number = a.2.2 →
            w.assigned request.1 =
              w.registry.layersOf a.1.slot))
  | _ => exact isTrue trivial

/- No honest node failed against an honest reference. -/
def HonestNotStruck (w : AuditWorld X Out) : Prop :=
  ∀ v ∈ w.verdicts,
    cfg.honest v.test = true → cfg.honest v.ref = true →
      v.ok = true

end AuditWorld

end CircuitDllm

------------------------------------------------------------
-- The Frames on the Sockets
------------------------------------------------------------

namespace CircuitDllm

namespace NodeWires

variable {X Out : Type}

theorem of_oldestReply
    {w : NodeWires X Out}
    {s : Nat}
    {reply : OutputFrame Out}
    (hReply : w.oldestReply s = some reply) :
    ∃ sock, w.socks.get? s = some sock ∧
      reply ∈ sock.replies := by
  rcases Option.bind_eq_some_iff.mp hReply with
    ⟨sock, hSock, hHead⟩
  exact ⟨sock, hSock, List.mem_of_head? hHead⟩

theorem of_oldestRequest
    {w : NodeWires X Out}
    {s : Nat}
    {peer : String}
    {f : InputFrame X}
    (hRequest : w.oldestRequest s = some (peer, f)) :
    ∃ sock, w.socks.get? s = some sock ∧
      f ∈ sock.asked ∧ sock.peer = peer := by
  rcases Option.bind_eq_some_iff.mp hRequest with
    ⟨sock, hSock, hMap⟩
  rcases Option.map_eq_some_iff.mp hMap with ⟨f', hHead, hEq⟩
  rcases Prod.mk.inj hEq with ⟨hPeer, rfl⟩
  exact ⟨sock, hSock, List.mem_of_head? hHead, hPeer⟩

/- Cached sockets lead to their nodes, numbers are past. -/
structure Tidy (w : NodeWires X Out) : Prop where
  conns :
    ∀ nodeId s, w.conns.get? nodeId = some s →
      s < w.dialed ∧
        ∀ sock, w.socks.get? s = some sock →
          sock.peer = nodeId
  asked :
    ∀ s sock, w.socks.get? s = some sock →
      ∀ f ∈ sock.asked, f.number < w.sent
  replies :
    ∀ s sock, w.socks.get? s = some sock →
      ∀ reply ∈ sock.replies, reply.number < w.sent

theorem tidy_new : ({} : NodeWires X Out).Tidy where
  conns := by
    intro nodeId s hConn
    cases hConn
  asked := by
    intro s sock hSock
    cases hSock
  replies := by
    intro s sock hSock
    cases hSock

/-
  Of the frames and replies numbered below `w.sent` no new
  ones have appeared on the sockets numbered below
  `w.dialed`.
-/
structure Later (w w' : NodeWires X Out) : Prop where
  dialed : w.dialed ≤ w'.dialed
  sent : w.sent ≤ w'.sent
  socks :
    ∀ s, s < w.dialed → ∀ sock', w'.socks.get? s = some sock' →
      ∃ sock, w.socks.get? s = some sock ∧
        sock'.peer = sock.peer ∧
        (∀ f ∈ sock'.asked,
          f ∈ sock.asked ∨ w.sent ≤ f.number) ∧
        ∀ reply ∈ sock'.replies, reply ∈ sock.replies

theorem later_refl (w : NodeWires X Out) : w.Later w where
  dialed := le_refl _
  sent := le_refl _
  socks := fun _ _ sock hSock =>
    ⟨sock, hSock, rfl, fun _ hF => .inl hF, fun _ hR => hR⟩

variable {w : NodeWires X Out}

theorem Tidy.dropConn
    (hTidy : w.Tidy)
    (nodeId : String) :
    (w.dropConn nodeId).Tidy := by
  unfold NodeWires.dropConn
  split
  · exact hTidy
  · rename_i s hConn
    constructor
    · intro nodeId' s' hConn'
      simp only [Dict.get?_erase] at hConn' ⊢
      split at hConn'
      · cases hConn'
      · refine ⟨(hTidy.conns _ _ hConn').1, fun sock hSock => ?_⟩
        split at hSock
        · cases hSock
        · exact (hTidy.conns _ _ hConn').2 sock hSock
    · intro s' sock hSock
      simp only [Dict.get?_erase] at hSock
      split at hSock
      · cases hSock
      · exact hTidy.asked s' sock hSock
    · intro s' sock hSock
      simp only [Dict.get?_erase] at hSock
      split at hSock
      · cases hSock
      · exact hTidy.replies s' sock hSock

theorem later_dropConn
    (w : NodeWires X Out)
    (nodeId : String) :
    w.Later (w.dropConn nodeId) := by
  unfold dropConn
  split
  · exact later_refl w
  · rename_i s hConn
    refine ⟨le_refl _, le_refl _, fun s' hLt sock hSock => ?_⟩
    simp only [Dict.get?_erase] at hSock
    split at hSock
    · cases hSock
    · exact (later_refl w).socks s' hLt sock hSock

theorem Tidy.dial
    (hTidy : w.Tidy)
    (nodeId : String) :
    (w.dial nodeId).Tidy := by
  constructor
  · intro nodeId' s' hConn'
    simp only [NodeWires.dial, Dict.get?_set] at hConn' ⊢
    split at hConn'
    · rename_i hEq
      obtain rfl := Option.some.inj hConn'
      refine ⟨Nat.lt_succ_self _, fun sock hSock => ?_⟩
      rw [if_pos rfl] at hSock
      rw [← Option.some.inj hSock]
      exact hEq
    · rcases hTidy.conns _ _ hConn' with ⟨hLt, hPeer⟩
      refine ⟨Nat.lt_succ_of_lt hLt, fun sock hSock => ?_⟩
      rw [if_neg (Nat.ne_of_gt hLt)] at hSock
      exact hPeer sock hSock
  · intro s' sock hSock f hF
    simp only [NodeWires.dial, Dict.get?_set] at hSock
    split at hSock
    · rw [← Option.some.inj hSock] at hF
      cases hF
    · exact hTidy.asked s' sock hSock f hF
  · intro s' sock hSock reply hReply
    simp only [NodeWires.dial, Dict.get?_set] at hSock
    split at hSock
    · rw [← Option.some.inj hSock] at hReply
      cases hReply
    · exact hTidy.replies s' sock hSock reply hReply

theorem later_dial
    (w : NodeWires X Out)
    (nodeId : String) :
    w.Later (w.dial nodeId) := by
  refine ⟨Nat.le_succ _, le_refl _, fun s hLt sock hSock => ?_⟩
  simp only [dial, Dict.get?_set,
    if_neg (Nat.ne_of_gt hLt)] at hSock
  exact (later_refl w).socks s hLt sock hSock

/- One socket changes: what it has new is numbered low. -/
theorem Tidy.modify
    (hTidy : w.Tidy)
    {s sent : Nat}
    {g : NodeSocket X Out → NodeSocket X Out}
    (hSent : w.sent ≤ sent)
    (hPeer : ∀ sock, (g sock).peer = sock.peer)
    (hAsked :
      ∀ sock, w.socks.get? s = some sock →
        ∀ f ∈ (g sock).asked, f.number < sent)
    (hReplies :
      ∀ sock, w.socks.get? s = some sock →
        ∀ reply ∈ (g sock).replies, reply.number < sent) :
    Tidy { w with socks := w.socks.modify s g, sent := sent } where
  conns := by
    intro nodeId s' hConn
    rcases hTidy.conns nodeId s' hConn with ⟨hLt, hOld⟩
    refine ⟨hLt, fun sock hSock => ?_⟩
    rcases Dict.of_get?_modify hSock with
      ⟨old, hGet, rfl | ⟨-, rfl⟩⟩
    · exact hOld sock hGet
    · rw [hPeer]
      exact hOld old hGet
  asked := by
    intro s' sock hSock f hF
    rcases Dict.of_get?_modify hSock with
      ⟨old, hGet, rfl | ⟨rfl, rfl⟩⟩
    · exact lt_of_lt_of_le (hTidy.asked s' sock hGet f hF) hSent
    · exact hAsked old hGet f hF
  replies := by
    intro s' sock hSock reply hReply
    rcases Dict.of_get?_modify hSock with
      ⟨old, hGet, rfl | ⟨rfl, rfl⟩⟩
    · exact lt_of_lt_of_le
        (hTidy.replies s' sock hGet reply hReply) hSent
    · exact hReplies old hGet reply hReply

theorem Tidy.writeFrame
    (hTidy : w.Tidy)
    (s : Nat)
    (x : X) :
    (w.writeFrame s x).Tidy := by
  refine hTidy.modify (Nat.le_succ _) (fun _ => rfl) ?_ ?_
  · intro sock hSock f hF
    rcases List.mem_append.mp hF with hOld | hNew
    · exact Nat.lt_succ_of_lt (hTidy.asked s sock hSock f hOld)
    · rw [List.mem_singleton.mp hNew]
      exact Nat.lt_succ_self _
  · intro sock hSock reply hReply
    exact Nat.lt_succ_of_lt
      (hTidy.replies s sock hSock reply hReply)

theorem Tidy.takeReply
    (hTidy : w.Tidy)
    (s : Nat) :
    (w.takeReply s).Tidy := by
  refine hTidy.modify (le_refl _) (fun _ => rfl) ?_ ?_
  · exact hTidy.asked s
  · intro sock hSock reply hReply
    exact hTidy.replies s sock hSock reply
      (List.mem_of_mem_tail hReply)

theorem Tidy.answerWith
    (hTidy : w.Tidy)
    (s : Nat)
    (out : Option Out) :
    (w.answerWith s out).Tidy := by
  unfold NodeWires.answerWith
  split
  · exact hTidy
  · rename_i peer f hRequest
    rcases of_oldestRequest hRequest with
      ⟨sock, hSock, hF, -⟩
    have hLt : f.number < w.sent := hTidy.asked s sock hSock f hF
    refine hTidy.modify (le_refl _) (fun _ => rfl) ?_ ?_
    · intro sock hSock f' hF'
      exact hTidy.asked s sock hSock f'
        (List.mem_of_mem_tail hF')
    · intro sock hSock reply hReply
      rcases List.mem_append.mp hReply with hOld | hNew
      · exact hTidy.replies s sock hSock reply hOld
      · rw [List.mem_singleton.mp hNew]
        exact hLt

theorem later_writeFrame
    (w : NodeWires X Out)
    (s : Nat)
    (x : X) :
    w.Later (w.writeFrame s x) := by
  refine ⟨le_refl _, Nat.le_succ _, fun s' hLt sock hSock => ?_⟩
  rcases Dict.of_get?_modify hSock with
    ⟨old, hGet, rfl | ⟨-, rfl⟩⟩
  · exact (later_refl w).socks s' hLt sock hGet
  · refine ⟨old, hGet, rfl, fun f hF => ?_, fun _ hR => hR⟩
    rcases List.mem_append.mp hF with hOld | hNew
    · exact .inl hOld
    · rw [List.mem_singleton.mp hNew]
      exact .inr (le_refl _)

theorem later_takeReply
    (w : NodeWires X Out)
    (s : Nat) :
    w.Later (w.takeReply s) := by
  refine ⟨le_refl _, le_refl _, fun s' hLt sock hSock => ?_⟩
  rcases Dict.of_get?_modify hSock with
    ⟨old, hGet, rfl | ⟨-, rfl⟩⟩
  · exact (later_refl w).socks s' hLt sock hGet
  · exact ⟨old, hGet, rfl, fun _ hF => .inl hF,
      fun _ hR => List.mem_of_mem_tail hR⟩

/- Socket `s`, while it is open, is one to `peer`. -/
structure LeadsTo
    (w : NodeWires X Out)
    (peer : String)
    (s : Nat) :
    Prop where
  dialed : s < w.dialed
  peer :
    ∀ sock, w.socks.get? s = some sock → sock.peer = peer

/-
  Frame `number` on socket `s` asks `peer` about `x`; a
  result that answers it is one of `P`.
-/
structure Awaits
    (w : NodeWires X Out)
    (P : Out → Prop)
    (peer : String)
    (x : X)
    (s number : Nat) :
    Prop where
  leads : w.LeadsTo peer s
  sent : number < w.sent
  asked :
    ∀ sock, w.socks.get? s = some sock →
      ∀ f ∈ sock.asked, f.number = number → f.hidden = x
  replies :
    ∀ sock, w.socks.get? s = some sock →
      ∀ reply ∈ sock.replies, reply.number = number →
        ∀ out, reply.out = some out → P out

variable {w' : NodeWires X Out} {P : Out → Prop}
variable {peer : String} {x : X} {s number : Nat}

theorem LeadsTo.later
    (hLeads : w.LeadsTo peer s)
    (hLater : w.Later w') :
    w'.LeadsTo peer s where
  dialed := lt_of_lt_of_le hLeads.dialed hLater.dialed
  peer := by
    intro sock' hSock'
    rcases hLater.socks s hLeads.dialed sock' hSock' with
      ⟨sock, hSock, hPeer, -, -⟩
    rw [hPeer]
    exact hLeads.peer sock hSock

theorem Awaits.later
    (hAwaits : w.Awaits P peer x s number)
    (hLater : w.Later w') :
    w'.Awaits P peer x s number where
  leads := hAwaits.leads.later hLater
  sent := lt_of_lt_of_le hAwaits.sent hLater.sent
  asked := by
    intro sock' hSock' f hF hNumber
    rcases hLater.socks s hAwaits.leads.dialed sock' hSock' with
      ⟨sock, hSock, -, hAsked, -⟩
    rcases hAsked f hF with hOld | hNew
    · exact hAwaits.asked sock hSock f hOld hNumber
    · rw [hNumber] at hNew
      exact absurd hAwaits.sent (Nat.not_lt.mpr hNew)
  replies := by
    intro sock' hSock' reply hReply
    rcases hLater.socks s hAwaits.leads.dialed sock' hSock' with
      ⟨sock, hSock, -, -, hReplies⟩
    exact hAwaits.replies sock hSock reply
      (hReplies reply hReply)

/- A frame just written is the only one of its number. -/
theorem LeadsTo.awaits
    (hLeads : w.LeadsTo peer s)
    (hTidy : w.Tidy)
    (P : Out → Prop)
    (x : X) :
    (w.writeFrame s x).Awaits P peer x s w.sent where
  leads := hLeads.later (later_writeFrame w s x)
  sent := Nat.lt_succ_self _
  asked := by
    intro sock' hSock' f hF hNumber
    rcases Dict.of_get?_modify hSock' with
      ⟨sock, hSock, rfl | ⟨-, rfl⟩⟩
    · have hLt := hTidy.asked s sock' hSock f hF
      exact absurd hNumber (Nat.ne_of_lt hLt)
    · rcases List.mem_append.mp hF with hOld | hNew
      · have hLt := hTidy.asked s sock hSock f hOld
        exact absurd hNumber (Nat.ne_of_lt hLt)
      · rw [List.mem_singleton.mp hNew]
  replies := by
    intro sock' hSock' reply hReply hNumber
    rcases Dict.of_get?_modify hSock' with
      ⟨sock, hSock, rfl | ⟨-, rfl⟩⟩
    · have hLt := hTidy.replies s sock' hSock reply hReply
      exact absurd hNumber (Nat.ne_of_lt hLt)
    · have hLt := hTidy.replies s sock hSock reply hReply
      exact absurd hNumber (Nat.ne_of_lt hLt)

theorem LeadsTo.answerWith
    (hLeads : w.LeadsTo peer s)
    (s' : Nat)
    (out : Option Out) :
    (w.answerWith s' out).LeadsTo peer s := by
  unfold NodeWires.answerWith
  split
  · exact hLeads
  · refine ⟨hLeads.dialed, fun sock' hSock' => ?_⟩
    rcases Dict.of_get?_modify hSock' with
      ⟨sock, hSock, rfl | ⟨-, rfl⟩⟩
    · exact hLeads.peer sock' hSock
    · exact hLeads.peer sock hSock

/- An answer is right if it answers another frame, or is. -/
theorem Awaits.answerWith
    (hAwaits : w.Awaits P peer x s number)
    {s' : Nat}
    {out : Option Out}
    (hOut :
      ∀ f, w.oldestRequest s = some (peer, f) →
        s' = s → f.number = number → f.hidden = x →
          ∀ o, out = some o → P o) :
    (w.answerWith s' out).Awaits P peer x s number := by
  have hLeads := hAwaits.leads.answerWith s' out
  unfold NodeWires.answerWith at hLeads ⊢
  split
  · exact hAwaits
  · rename_i peer' f hRequest
    rw [hRequest] at hLeads
    refine ⟨hLeads, hAwaits.sent, ?_, ?_⟩
    · intro sock' hSock' f' hF'
      rcases Dict.of_get?_modify hSock' with
        ⟨sock, hSock, rfl | ⟨-, rfl⟩⟩
      · exact hAwaits.asked sock' hSock f' hF'
      · exact hAwaits.asked sock hSock f'
          (List.mem_of_mem_tail hF')
    · intro sock' hSock' reply hReply
      rcases Dict.of_get?_modify hSock' with
        ⟨sock, hSock, rfl | ⟨hEq, rfl⟩⟩
      · exact hAwaits.replies sock' hSock reply hReply
      · rcases List.mem_append.mp hReply with hOld | hNew
        · exact hAwaits.replies sock hSock reply hOld
        · rw [List.mem_singleton.mp hNew]
          intro hNumber
          rw [hEq] at hRequest
          rcases of_oldestRequest hRequest with
            ⟨sock₂, hSock₂, hF, hPeer⟩
          rw [hAwaits.leads.peer sock₂ hSock₂] at hPeer
          rw [← hPeer] at hRequest
          exact hOut f hRequest hEq hNumber
            (hAwaits.asked sock₂ hSock₂ f hF hNumber)

end NodeWires

end CircuitDllm

------------------------------------------------------------
-- One Step
------------------------------------------------------------

namespace CircuitDllm

namespace Registry

variable {cfg : RegistryConfig}

/- The slots keep their layers. -/
theorem layersOf_step
    {r : Registry}
    (hReach : Reachable cfg r)
    (op : RegistryOp) :
    (r.step cfg op).layersOf = r.layersOf := by
  rcases hReach with ⟨r₀, ops, hCreate, rfl⟩
  have hLayers :
      ((r₀.run cfg ops).step cfg op).topo.layers =
        (r₀.run cfg ops).topo.layers := by
    rw [layers_run hCreate ops,
      ← layers_run hCreate (ops ++ [op])]
    simp [run]
  have hRanges :
      ∀ r : Registry, ∀ k,
        r.layersOf k =
          (r.topo.layers.2[k]?).map Slot.range := by
    intro r k
    rw [layersOf, Topology.layers, List.getElem?_map,
      Option.map_map]
    rfl
  funext k
  rw [hRanges, hRanges, hLayers]

theorem Reachable.step
    {r : Registry}
    (hReach : Reachable cfg r)
    (op : RegistryOp) :
    Reachable cfg (r.step cfg op) := by
  rcases hReach with ⟨r₀, ops, hCreate, rfl⟩
  refine ⟨r₀, ops ++ [op], hCreate, ?_⟩
  simp [run]

end Registry

namespace AuditWorld

variable {X Noise Out : Type}
variable {cfg : AuditSetup X Noise Out}
variable {layers : Nat → Option (Int × Int)}

/- What the layers of the pair's slot make of the input. -/
def Computed
    (cfg : AuditSetup X Noise Out)
    (layers : Nat → Option (Int × Int))
    (c : Challenge X Out)
    (out : Out) :
    Prop :=
  ∃ range e,
    layers c.slot = some range ∧
      out = cfg.numerics.compute range c.hidden e

/- The output of the reference, once it is there, is right. -/
def RefSound
    (cfg : AuditSetup X Noise Out)
    (layers : Nat → Option (Int × Int))
    (c : Challenge X Out) :
    Prop :=
  ∀ out ∈ c.outRef,
    cfg.honest c.ref = true → Computed cfg layers c out

/- What is known at each point of the round. -/
def PointSound
    (cfg : AuditSetup X Noise Out)
    (layers : Nat → Option (Int × Int))
    (wires : NodeWires X Out) :
    AuditPoint X Out → Prop
| .calling c => RefSound cfg layers c
| .connected c s =>
    RefSound cfg layers c ∧ wires.LeadsTo c.target s
| .awaiting c s number =>
    RefSound cfg layers c ∧
      wires.Awaits
        (fun out =>
          cfg.honest c.target = true →
            Computed cfg layers c out)
        c.target c.hidden s number
| .judging c outRef outTest =>
    (cfg.honest c.ref = true →
        Computed cfg layers c outRef) ∧
      (cfg.honest c.test = true →
        Computed cfg layers c outTest)
| _ => True

theorem PointSound.later
    {wires wires' : NodeWires X Out}
    {point : AuditPoint X Out}
    (hPoint : PointSound cfg layers wires point)
    (hLater : wires.Later wires') :
    PointSound cfg layers wires' point := by
  cases point with
  | connected c s => exact ⟨hPoint.1, hPoint.2.later hLater⟩
  | awaiting c s number =>
      exact ⟨hPoint.1, hPoint.2.later hLater⟩
  | idle | next _ | looking _ _ _ _ _ | calling _
  | judging _ _ _ => exact hPoint

/- The invariant of the round. -/
structure Sound
    (cfg : AuditSetup X Noise Out)
    (layers : Nat → Option (Int × Int))
    (w : AuditWorld X Out) :
    Prop where
  reach : Registry.Reachable cfg.registry w.registry
  slots : w.registry.layersOf = layers
  tidy : w.wires.Tidy
  point : PointSound cfg layers w.wires w.point
  verdicts : w.HonestNotStruck cfg

variable {w : AuditWorld X Out}

/- Other threads, and the auditor dropping connections. -/
theorem Sound.later
    (hSound : Sound cfg layers w)
    {wires : NodeWires X Out}
    (hTidy : wires.Tidy)
    (hLater : w.wires.Later wires) :
    Sound cfg layers { w with wires := wires } :=
  { hSound with
    tidy := hTidy
    point := hSound.point.later hLater }

/- The auditor goes on. -/
theorem Sound.goes
    (hSound : Sound cfg layers w)
    {wires : NodeWires X Out}
    {point : AuditPoint X Out}
    (hTidy : wires.Tidy)
    (hPoint : PointSound cfg layers wires point) :
    Sound cfg layers
      { w with wires := wires, point := point } :=
  { hSound with
    tidy := hTidy
    point := hPoint }

theorem Sound.raise
    (hSound : Sound cfg layers w) :
    Sound cfg layers w.raise := by
  unfold AuditWorld.raise
  split
  · exact hSound.goes
      ((hSound.tidy.dropConn _).dropConn _) trivial
  · exact hSound.goes
      ((hSound.tidy.dropConn _).dropConn _) trivial
  · exact hSound.goes
      ((hSound.tidy.dropConn _).dropConn _) trivial
  · exact hSound

theorem Sound.reassign
    (hSound : Sound cfg layers w)
    (op : RegistryOp) :
    Sound cfg layers
      (w.reassign (w.registry.step cfg.registry op)) where
  reach := hSound.reach.step op
  slots :=
    (Registry.layersOf_step hSound.reach op).trans hSound.slots
  tidy := hSound.tidy
  point := hSound.point
  verdicts := hSound.verdicts

/- A restart leaves no socket and no round. -/
theorem Sound.operate
    (hSound : Sound cfg layers w)
    (op : RegistryOp) :
    Sound cfg layers (w.operate cfg op) := by
  have hStep := hSound.reassign op
  unfold AuditWorld.operate
  split
  · apply hStep.goes
    · constructor
      · intro nodeId s hConn
        cases hConn
      · intro s sock hSock
        cases hSock
      · intro s sock hSock
        cases hSock
    · exact trivial
  · exact hStep

theorem Sound.begin
    (hSound : Sound cfg layers w)
    (maxPairs : Int) :
    Sound cfg layers (w.begin cfg maxPairs) := by
  unfold AuditWorld.begin
  split
  · split
    · exact hSound.goes hSound.tidy trivial
    · exact hSound
  · exact hSound

theorem Sound.lookTest
    (hSound : Sound cfg layers w) :
    Sound cfg layers w.lookTest := by
  unfold AuditWorld.lookTest
  split
  · exact hSound.goes hSound.tidy trivial
  · exact hSound.goes hSound.tidy trivial
  · exact hSound

theorem Sound.lookRef
    (hSound : Sound cfg layers w)
    (x : X) :
    Sound cfg layers (w.lookRef x) := by
  unfold AuditWorld.lookRef
  split
  · split
    · apply hSound.goes hSound.tidy
      intro out hOut
      cases hOut
    · exact hSound.goes hSound.tidy trivial
  · exact hSound

theorem Sound.connect
    (hSound : Sound cfg layers w) :
    Sound cfg layers w.connect := by
  unfold AuditWorld.connect
  split
  · rename_i c hPoint
    have hRef := hSound.point
    rw [hPoint] at hRef
    split
    · rename_i s hConn
      rcases hSound.tidy.conns _ _ hConn with ⟨hLt, hPeer⟩
      exact hSound.goes hSound.tidy ⟨hRef, hLt, hPeer⟩
    · refine hSound.goes (hSound.tidy.dial _)
        ⟨hRef, Nat.lt_succ_self _, fun sock hSock => ?_⟩
      simp only [NodeWires.dial, Dict.get?_set_self] at hSock
      rw [← Option.some.inj hSock]
  · exact hSound

theorem Sound.write
    (hSound : Sound cfg layers w) :
    Sound cfg layers w.write := by
  unfold AuditWorld.write
  split
  · rename_i c s hPoint
    have hAt := hSound.point
    rw [hPoint] at hAt
    exact hSound.goes (hSound.tidy.writeFrame s c.hidden)
      ⟨hAt.1, hAt.2.awaits hSound.tidy _ c.hidden⟩
  · exact hSound

/-
  A reply to the auditor's own challenge is what its target
  computed; the reference answers first.
-/
theorem Sound.read
    (hSound : Sound cfg layers w)
    (hMeets :
      w.Meets (.read : AuditEvent X Noise Out)) :
    Sound cfg layers w.read := by
  unfold AuditWorld.read
  split
  · rename_i c s number hPoint
    have hAt := hSound.point
    rw [hPoint] at hAt
    rcases hAt with ⟨hRef, hAwaits⟩
    split
    · exact hSound
    · rename_i reply hReply
      have hTidy := hSound.tidy.takeReply s
      have hNumber :=
        hMeets (c, s, number) (by simp [awaited, hPoint]) reply
          hReply
      rcases NodeWires.of_oldestReply hReply with
        ⟨sock, hSock, hMem⟩
      have hOut :=
        hAwaits.replies sock hSock reply hMem hNumber
      simp only
      split
      · exact (hSound.later hTidy
          (NodeWires.later_takeReply _ s)).raise
      · rename_i out hSome hNone
        have hTarget : c.target = c.ref := by
          simp [Challenge.target, hNone]
        rw [hTarget] at hOut
        apply hSound.goes hTidy
        intro out' hOut'
        obtain rfl := Option.mem_some.mp hOut'
        exact hOut _ hSome
      · rename_i outTest outRef hSome hOutRef
        have hTarget : c.target = c.test := by
          simp [Challenge.target, hOutRef]
        rw [hTarget] at hOut
        exact hSound.goes hTidy
          ⟨hRef outRef hOutRef, hOut outTest hSome⟩
  · exact hSound

/- Right outputs of the same layers agree. -/
theorem agree_of_computed
    {c : Challenge X Out}
    {outRef outTest : Out}
    (hRef : Computed cfg layers c outRef)
    (hTest : Computed cfg layers c outTest) :
    cfg.numerics.agree outTest outRef = true := by
  rcases hRef with ⟨range, e, hLayers, rfl⟩
  rcases hTest with ⟨range', e', hLayers', rfl⟩
  rw [hLayers] at hLayers'
  obtain rfl := Option.some.inj hLayers'
  exact cfg.numerics.agree_same range c.hidden e' e

theorem Sound.judge
    (hSound : Sound cfg layers w) :
    Sound cfg layers (w.judge cfg) := by
  unfold AuditWorld.judge
  split
  · rename_i c outRef outTest hPoint
    have hAt := hSound.point
    rw [hPoint] at hAt
    have hStep := hSound.reassign (.recordCheck c.test
      (cfg.numerics.agree outTest outRef) 3 2)
    refine { hStep with point := trivial, verdicts := ?_ }
    intro v hV hTest hRef
    rcases List.mem_append.mp hV with hOld | hNew
    · exact hSound.verdicts v hOld hTest hRef
    · rw [List.mem_singleton.mp hNew] at hTest hRef ⊢
      exact agree_of_computed (hAt.1 hRef) (hAt.2 hTest)
  · exact hSound

/-
  Whoever answers the challenge is still assigned the layers
  of the slot; other answers do not concern the round.
-/
theorem Sound.answer
    (hSound : Sound cfg layers w)
    {s : Nat}
    {how : Answering Noise Out}
    (hMeets : w.Meets (.answer s how)) :
    Sound cfg layers (w.answer cfg s how) := by
  unfold AuditWorld.answer
  split
  · exact hSound
  · rename_i peer f hRequest
    refine { hSound with tidy := ?_, point := ?_ }
    · exact hSound.tidy.answerWith s _
    · have hAt := hSound.point
      simp only
      cases hPoint : w.point with
      | connected c s' =>
          rw [hPoint] at hAt
          exact ⟨hAt.1, hAt.2.answerWith s _⟩
      | awaiting c s' number =>
          rw [hPoint] at hAt
          refine ⟨hAt.1, hAt.2.answerWith ?_⟩
          intro f' hRequest' hSock hNumber hHidden out hOut
            hHonest
          subst hSock
          rw [hRequest] at hRequest'
          obtain ⟨rfl, rfl⟩ :=
            Prod.mk.inj (Option.some.inj hRequest')
          have hAssigned :=
            hMeets (c, s, number) (by simp [awaited, hPoint])
              rfl _ hRequest hNumber
          rw [hSound.slots] at hAssigned
          cases how with
          | computes noise =>
              rcases Option.map_eq_some_iff.mp hOut with
                ⟨range, hRange, rfl⟩
              rw [hAssigned] at hRange
              exact ⟨range, noise, hRange, by rw [hHidden]⟩
          | refuses => cases hOut
          | invents o =>
              simp [outputOf, hHonest] at hOut
      | idle | next _ | looking _ _ _ _ _ | calling _
      | judging _ _ _ =>
          rw [hPoint] at hAt
          exact hAt

/- One case for each kind of event. -/
theorem Sound.step
    (hSound : Sound cfg layers w)
    {ev : AuditEvent X Noise Out}
    (hMeets : w.Meets ev) :
    Sound cfg layers (w.step cfg ev) := by
  cases ev with
  | registry op => exact hSound.operate op
  | begin maxPairs => exact hSound.begin maxPairs
  | lookTest => exact hSound.lookTest
  | lookRef x => exact hSound.lookRef x
  | connect => exact hSound.connect
  | write => exact hSound.write
  | read => exact hSound.read hMeets
  | raise => exact hSound.raise
  | crash => exact hSound.goes hSound.tidy trivial
  | judge => exact hSound.judge
  | otherDial nodeId =>
      simp only [AuditWorld.step]
      split
      · exact hSound
      · exact hSound.later (hSound.tidy.dial nodeId)
          (NodeWires.later_dial _ nodeId)
  | otherWrite s x =>
      exact hSound.later (hSound.tidy.writeFrame s x)
        (NodeWires.later_writeFrame _ s x)
  | otherRead s =>
      exact hSound.later (hSound.tidy.takeReply s)
        (NodeWires.later_takeReply _ s)
  | otherDrop nodeId =>
      exact hSound.later (hSound.tidy.dropConn nodeId)
        (NodeWires.later_dropConn _ nodeId)
  | answer s how => exact hSound.answer hMeets

end AuditWorld

end CircuitDllm

------------------------------------------------------------
-- Every Run
------------------------------------------------------------

namespace CircuitDllm

namespace AuditWorld

variable {X Noise Out : Type}

/- The nodes in the table hold the layers they have there. -/
def Tabled (w : AuditWorld X Out) : Prop :=
  ∀ nodeId n, w.registry.topo.nodes.get? nodeId = some n →
    w.assigned nodeId = n.slot.bind w.registry.layersOf

theorem tabled_reassign
    (w : AuditWorld X Out)
    (r : Registry) :
    (w.reassign r).Tabled := by
  intro nodeId n hN
  simp only [reassign] at hN ⊢
  rw [hN]

/- Only operations of the registry assign layers. -/
theorem table_step
    (cfg : AuditSetup X Noise Out)
    (w : AuditWorld X Out)
    (ev : AuditEvent X Noise Out) :
    ((w.step cfg ev).registry = w.registry ∧
        (w.step cfg ev).assigned = w.assigned) ∨
      ∃ op, (w.step cfg ev).registry =
          (w.reassign
            (w.registry.step cfg.registry op)).registry ∧
        (w.step cfg ev).assigned =
          (w.reassign
            (w.registry.step cfg.registry op)).assigned := by
  cases ev with
  | registry op =>
      refine .inr ⟨op, ?_⟩
      simp only [step, operate]
      split
      · exact ⟨rfl, rfl⟩
      · exact ⟨rfl, rfl⟩
  | judge =>
      simp only [step, judge]
      split
      · exact .inr ⟨_, rfl, rfl⟩
      · exact .inl ⟨rfl, rfl⟩
  | read =>
      left
      simp only [step, read, raise]
      grind
  | begin _ | lookTest | lookRef _ | connect | write | raise
  | crash | otherDial _ | otherWrite _ _ | otherRead _
  | otherDrop _ | answer _ _ =>
      left
      simp only [step, begin, lookTest, lookRef, connect,
        write, raise, answer]
      grind

/- The registry is one of a control plane's run. -/
theorem tabled_step
    {w : AuditWorld X Out}
    (cfg : AuditSetup X Noise Out)
    (hReach : Registry.Reachable cfg.registry w.registry)
    (hTabled : w.Tabled)
    (ev : AuditEvent X Noise Out) :
    Registry.Reachable cfg.registry
        (w.step cfg ev).registry ∧
      (w.step cfg ev).Tabled := by
  rcases table_step cfg w ev with
    ⟨hRegistry, hAssigned⟩ | ⟨op, hRegistry, hAssigned⟩
  · rw [Tabled, hRegistry, hAssigned]
    exact ⟨hReach, hTabled⟩
  · rw [Tabled, hRegistry, hAssigned]
    exact ⟨hReach.step op, tabled_reassign w _⟩

/- A coordinator that has just started. -/
def start (r : Registry) : AuditWorld X Out :=
  { registry := r }

variable {cfg : AuditSetup X Noise Out} {r₀ : Registry}

theorem sound_start
    (hCreate : Registry.create cfg.registry = .ok r₀) :
    Sound cfg r₀.layersOf (start r₀ : AuditWorld X Out) where
  reach := ⟨r₀, [], hCreate, rfl⟩
  slots := rfl
  tidy := NodeWires.tidy_new
  point := trivial
  verdicts := by
    intro v hV
    cases hV

theorem tabled_start
    (hCreate : Registry.create cfg.registry = .ok r₀) :
    (start r₀ : AuditWorld X Out).Tabled := by
  intro nodeId n hN
  rcases Registry.create_ok hCreate with ⟨topo, hTopo, rfl⟩
  simp [start, Topology.create_nodes hTopo] at hN

theorem tabled_run
    (hCreate : Registry.create cfg.registry = .ok r₀)
    (es : List (AuditEvent X Noise Out)) :
    Registry.Reachable cfg.registry
        (run cfg (start r₀) es).registry ∧
      (run cfg (start r₀) es).Tabled := by
  refine
    History.induction (step cfg)
      (fun _ w => Registry.Reachable cfg.registry w.registry ∧
        w.Tabled)
      ⟨⟨r₀, [], hCreate, rfl⟩, tabled_start hCreate⟩
      (fun _ w ev hOld => ?_) es
  exact tabled_step cfg hOld.1 hOld.2 ev

/-
  Both nodes of a pair that can be chosen are assigned the
  layers of its slot at that time.
-/
theorem assigned_of_mem_auditPairs
    (hCreate : Registry.create cfg.registry = .ok r₀)
    {es : List (AuditEvent X Noise Out)}
    {w : AuditWorld X Out}
    (hRun : run cfg (start r₀) es = w)
    {test ref : String}
    {slot : Nat}
    (hPair : (test, ref, slot) ∈ w.registry.auditPairs) :
    w.assigned test = w.registry.layersOf slot ∧
      w.assigned ref = w.registry.layersOf slot := by
  have hInv := tabled_run hCreate es
  rw [hRun] at hInv
  rcases hInv with ⟨hReach, hTabled⟩
  rcases Registry.mem_auditPairs.mp hPair with
    ⟨s, hSlot, rfl, p, hP, -, rfl, m, hRef, rfl⟩
  have hM := (Registry.reference_eq_some hRef).1
  rcases Registry.holder_slot hReach.wellFormed hSlot hP with
    ⟨-, hGetP, -, hSlotP⟩
  rcases Registry.holder_slot hReach.wellFormed hSlot hM with
    ⟨-, hGetM, -, hSlotM⟩
  constructor
  · rw [hTabled _ _ hGetP, hSlotP]
    rfl
  · rw [hTabled _ _ hGetM, hSlotM]
    rfl

/-
  In every run in which the auditor reads its own replies
  and nodes answer it for the slot they were chosen for, no
  honest node fails.
-/
theorem honestNotStruck_run
    {X Noise Out : Type}
    {cfg : AuditSetup X Noise Out}
    {r₀ : Registry}
    (hCreate : Registry.create cfg.registry = .ok r₀)
    {es : List (AuditEvent X Noise Out)}
    (hMeets :
      ∀ e ∈ History.trail (step cfg) (start r₀) es,
        e.1.Meets e.2) :
    HonestNotStruck cfg (run cfg (start r₀) es) := by
  have hSound :
      Sound cfg r₀.layersOf (run cfg (start r₀) es) :=
    History.induction_of (step cfg) (fun e => e.1.Meets e.2)
      (fun _ w => Sound cfg r₀.layersOf w)
      (sound_start hCreate)
      (fun _ _ _ hStep hOld => hOld.step hStep) hMeets
  exact hSound.verdicts

end AuditWorld

end CircuitDllm

------------------------------------------------------------
-- A Node that Moves
------------------------------------------------------------

namespace CircuitDllm

namespace AuditWorld

/- An output shows the layers and the input it is of. -/
def openBook :
    Numerics Nat Unit ((Int × Int) × Nat) where
  compute := fun layers x _ => (layers, x)
  agree := fun out out' => out = out'
  agree_same := by simp
  agree_other := by
    intro layers layers' x _ _ hNe
    simp [hNe]

/- Two slots of one layer, all nodes honest. -/
def twoSlots : AuditSetup Nat Unit ((Int × Int) × Nat) where
  registry :=
    { layout :=
        { numLayers := 3
          coordinatorEnd := 1
          numStages := 2
          modelFp := "m" }
      seedNodes := ["seed"] }
  dynamic := true
  numerics := openBook
  honest := fun _ => true

abbrev TwoSlotsEvent :=
  AuditEvent Nat Unit ((Int × Int) × Nat)

/- A seed and a newcomer on slot 0, a round up to a pair. -/
def paired : List TwoSlotsEvent :=
  [.registry (.register (Registry.joining "seed") 0
      (some (.layers 1 2))),
    .registry (.register (Registry.joining "new") 0
      (some (.layers 1 2))),
    .registry (.markReady "seed"),
    .registry (.markReady "new"),
    .begin 4,
    .lookTest,
    .lookRef 7]

/- A challenge over socket `s`. -/
def challenged (s : Nat) : List TwoSlotsEvent :=
  [.connect, .write, .answer s (.computes ()), .read]

/- The honest newcomer passes. -/
theorem honestNotStruck_run_paired :
    ∃ r₀,
      Registry.create twoSlots.registry = .ok r₀ ∧
        HonestNotStruck twoSlots
          (run twoSlots (start r₀)
            (paired ++ challenged 0 ++ challenged 1 ++
              [.judge])) := by
  refine ⟨_, rfl, honestNotStruck_run rfl ?_⟩
  decide +kernel

/- Between the challenges the newcomer registers for slot 1. -/
def moved : List TwoSlotsEvent :=
  paired ++ challenged 0 ++
    [.registry (.register (Registry.joining "new") 1
      (some (.layers 2 3)))] ++
    challenged 1 ++ [.judge]

/- Another thread's frame is on the socket to the newcomer. -/
def shared : List TwoSlotsEvent :=
  [.otherDial "new", .otherWrite 0 5] ++
    paired ++ challenged 1 ++
    [.connect, .write, .answer 0 (.computes ()), .read, .judge]

/- Honest, and yet struck: having moved, or by a mix-up. -/
theorem exists_honest_struck :
    ∃ r₀,
      Registry.create twoSlots.registry = .ok r₀ ∧
        (∀ nodeId, twoSlots.honest nodeId = true) ∧
        ¬ HonestNotStruck twoSlots
          (run twoSlots (start r₀) moved) ∧
        ¬ HonestNotStruck twoSlots
          (run twoSlots (start r₀) shared) := by
  refine ⟨_, rfl, fun _ => rfl, ?_, ?_⟩
  · intro hAll
    have hOk := hAll ⟨"new", "seed", false⟩
      (by decide +kernel) rfl rfl
    cases hOk
  · intro hAll
    have hOk := hAll ⟨"new", "seed", false⟩
      (by decide +kernel) rfl rfl
    cases hOk

end AuditWorld

end CircuitDllm
