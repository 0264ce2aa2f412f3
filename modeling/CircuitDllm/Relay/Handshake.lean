import CircuitDllm.Lib.History
import CircuitDllm.Mesh.Canonical
import CircuitDllm.Relay.Server

/-
  What a worker's key signs (engine/relay.py,
  engine/stage_worker.py, engine/control_server.py).

  The key that signs the bodies for the control planes also
  signs a nonce for the relay, and the worker signs what it
  is asked to.  A nonce of 32 bytes is too short to be a
  body, and so neither signature passes for the other; a
  longer one can be any body.

  Main declarations:
    * `challenge`, `nonceOf`
    * `JsonServer.answer`, `JsonServer.replyOutcome`
    * `KeyUse`, `KeyUse.step`
    * `KeyUse.Apart`, `KeyUse.apart_run`
    * `relay_signs_bodies`
-/

------------------------------------------------------------
-- Asking For A Signature
------------------------------------------------------------

namespace CircuitDllm

open Wire (Bytes)

variable {F Priv : Type}

/- What the relay sends. -/
def challenge (nonce : Bytes) : PyJson F :=
  .obj [member "nonce" (.str (hexBytes nonce))]

/- The nonce that _relay_client reads; none if it raises. -/
def nonceOf (v : PyJson F) : Option Bytes := do
  let members ← membersOf v
  match PyJson.get? members "nonce" with
  | some (.str text) => fromHex text
  | _ => none

/- resp.get("sig", ""); none if it is no text. -/
def sigOf (v : PyJson F) : Option (List Nat) := do
  let members ← membersOf v
  match PyJson.get? members "sig" with
  | none => some []
  | some (.str sig) => some sig
  | some _ => none

namespace JsonServer

variable (server : JsonServer F Priv)

/- What _relay_client answers. -/
def answer (priv : Priv) (v : PyJson F) :
    Option (PyJson F) :=
  (nonceOf v).map (fun nonce =>
    .obj
      [member "sig"
        (.str (hexBytes (server.lib.sign priv nonce)))])

/- _verify_node_sig -/
def verifyNodeSig
    (nodeId : List Nat)
    (nonce : Bytes)
    (sig : List Nat) :
    Bool :=
  match fromHex nodeId, fromHex sig with
  | some nodeId, some sig =>
    server.lib.verify nodeId sig nonce
  | _, _ => false

/- What a handler makes of the reply it has read. -/
def replyOutcome
    (cfg : NatRelay.RelayConfig)
    (node : String)
    (nonce : Bytes)
    (v : PyJson F) :
    NatRelay.Outcome :=
  if cfg.verifySig then
    match sigOf v with
    | none => .raises
    | some sig =>
      .reply
        (server.verifyNodeSig
          (PyJson.codePoints node.toList) nonce sig)
  else .reply true

end JsonServer

end CircuitDllm

------------------------------------------------------------
-- Both Uses Of A Key
------------------------------------------------------------

namespace CircuitDllm

open Wire (Bytes)

variable {F Priv : Type}

/-
  The settings of the relay, and the nonce it has for each
  connection: secrets.token_bytes(32).
-/
structure RelaySide where
  cfg : NatRelay.RelayConfig
  nonce : Nat → Bytes
  length_nonce : ∀ c, (nonce c).length = 32

/- What can happen. -/
inductive KeyUseEvent (F Priv : Type) where
  /- the holder of a key signs a body and sends it anywhere -/
  | signs
      (priv : Priv)
      (body : JsonBody F)
      (hDicts : body.json.Dicts)
  /- its relay client answers a challenge, from whoever -/
  | answers (priv : Priv) (v : PyJson F)
  /- the control plane has read a body, from whoever -/
  | arrives (v : PyJson F) (hDicts : v.Dicts)
  /- a relay handler takes a step, and reads no reply -/
  | relays (c : Nat) (outcome : NatRelay.Outcome)
  /- a handler reads a reply, from whoever -/
  | replies (c : Nat) (v : PyJson F)

/- The control plane, the relay and the nonces signed. -/
structure KeyUse (F : Type) where
  control : SigningWorld F := {}
  relay : NatRelay.RelayServer := {}
  answered : List (Bytes × Bytes) := []

namespace KeyUse

variable (server : JsonServer F Priv) (side : RelaySide)

def step (w : KeyUse F) : KeyUseEvent F Priv → KeyUse F
| .signs priv body hDicts =>
    { w with
      control :=
        w.control.step server (.signs priv body hDicts) }
| .arrives v hDicts =>
    { w with
      control := w.control.step server (.arrives v hDicts) }
| .answers priv v =>
    match nonceOf v with
    | none => w
    | some nonce =>
      { w with
        answered :=
          (server.lib.publicKey priv, nonce) :: w.answered }
| .relays c outcome =>
    match outcome with
    | .reply _ => w
    | outcome =>
      { w with relay := w.relay.step side.cfg (c, outcome) }
| .replies c v =>
    match w.relay.pc c with
    | .controlReply node =>
      let outcome :=
        server.replyOutcome side.cfg node (side.nonce c) v
      { w with relay := w.relay.step side.cfg (c, outcome) }
    | _ => w

def run (events : List (KeyUseEvent F Priv)) : KeyUse F :=
  events.foldl (step server side) {}

/- The holder of the key signed the bytes. -/
def SignedBytes
    (w : KeyUse F)
    (nodeId bytes : Bytes) :
    Prop :=
  (nodeId, bytes) ∈ w.answered ∨
    ∃ message, (nodeId, message) ∈ w.control.signed ∧
      canonical server.toJsonOps message = some bytes

/-
  A worker puts its own id in what it signs and is asked for
  nonces of 32 bytes, and nobody else has its signatures.
-/
def Allowed : KeyUse F × KeyUseEvent F Priv → Prop
| (_, .signs priv body _) =>
    body.get? (fieldKey "node_id") =
      some (.str (hexBytes (server.lib.publicKey priv)))
| (_, .answers _ v) =>
    ∀ nonce, nonceOf v = some nonce → nonce.length = 32
| (w, .arrives v _) =>
    ∀ nodeId sig bytes,
      server.signatureOf v = some (nodeId, sig, bytes) →
      server.lib.verify nodeId sig bytes = true →
        w.SignedBytes server nodeId bytes
| (_, .relays _ _) => True
| (w, .replies c v) =>
    ∀ node nodeId text sig,
      w.relay.pc c = .controlReply node →
      fromHex (PyJson.codePoints node.toList) = some nodeId →
      sigOf v = some text →
      fromHex text = some sig →
      server.lib.verify nodeId sig (side.nonce c) = true →
        w.SignedBytes server nodeId (side.nonce c)

/- The node signed the nonce of the connection, as a nonce. -/
def Proved (w : KeyUse F) (node : String) (c : Nat) : Prop :=
  ∃ nodeId,
    fromHex (PyJson.codePoints node.toList) = some nodeId ∧
      (nodeId, side.nonce c) ∈ w.answered

/-
  What passes at the control plane was signed as a body, and
  a node's control connection is one whose nonce the node
  has signed.
-/
structure Apart (w : KeyUse F) : Prop where
  control : w.control.Genuine
  relay :
    ∀ node c, w.relay.controls node = some c →
      w.Proved side node c

end KeyUse

/- verify is false where a key has another length. -/
def KeyLib.ShortKeys (lib : KeyLib Priv) : Prop :=
  ∀ nodeId sig message,
    lib.verify nodeId sig message = true →
      nodeId.length = 32

end CircuitDllm

------------------------------------------------------------
-- Handlers That Store A Connection
------------------------------------------------------------

namespace CircuitDllm.NatRelay

/- The node whose signature the handler has checked. -/
def Pc.proved : Pc → Option String
| .controlOk node => some node
| .controlStore node => some node
| _ => none

namespace RelayServer

/- No handler has checked more, no connection is new. -/
structure ProvesNoMore (s s' : RelayServer) : Prop where
  pc :
    ∀ d node, (s'.pc d).proved = some node →
      (s.pc d).proved = some node
  controls :
    ∀ node d, s'.controls node = some d →
      s.controls node = some d

variable {s s' : RelayServer}

namespace ProvesNoMore

theorem refl : ProvesNoMore s s :=
  ⟨fun _ _ h => h, fun _ _ h => h⟩

theorem goto
    (hSame : ProvesNoMore s s')
    {c : Nat}
    {pc : Pc}
    (hNone : pc.proved = none) :
    ProvesNoMore s (s'.goto c pc) := by
  refine ⟨?_, hSame.controls⟩
  intro d node hProved
  dsimp only [RelayServer.goto] at hProved
  by_cases hEq : d = c
  · subst hEq
    rw [Function.update_self, hNone] at hProved
    cases hProved
  · rw [Function.update_of_ne hEq] at hProved
    exact hSame.pc d node hProved

/- Only these two fields count. -/
theorem congr
    (hSame : ProvesNoMore s s')
    {s'' : RelayServer}
    (hPc : s''.pc = s'.pc)
    (hControls : s''.controls = s'.controls) :
    ProvesNoMore s s'' := by
  refine ⟨?_, ?_⟩
  · rw [hPc]
    exact hSame.pc
  · rw [hControls]
    exact hSame.controls

theorem on_preamble
    (cfg : RelayConfig)
    (c : Nat)
    (p : Preamble) :
    ProvesNoMore s (s.onPreamble cfg c p) := by
  cases p with
  | control node =>
      simp only [onPreamble]
      split
      · exact refl.goto rfl
      · exact refl.goto rfl
  | dial node token =>
      simp only [onPreamble]
      split
      · exact refl.goto rfl
      · exact refl.goto rfl
  | data node tag =>
      have hGoto :
          ProvesNoMore s (s.goto c (.dataTake (node, tag))) :=
        refl.goto rfl
      exact hGoto.congr rfl rfl
  | unknown => exact refl.goto rfl

theorem on_drop
    (c : Nat)
    (node : String) :
    ProvesNoMore s (s.onDrop c node) := by
  have hGoto : ProvesNoMore s (s.goto c .closing) :=
    refl.goto rfl
  simp only [onDrop]
  split
  · refine ⟨hGoto.pc, ?_⟩
    intro node' d hControl
    dsimp only at hControl
    by_cases hEq : node' = node
    · subst hEq
      rw [Function.update_self] at hControl
      cases hControl
    · rw [Function.update_of_ne hEq] at hControl
      exact hGoto.controls node' d hControl
  · exact hGoto

theorem on_mint
    (c : Nat)
    (node tag : String) :
    ProvesNoMore s (s.onMint c node tag) := by
  have hGoto :
      ProvesNoMore s (s.goto c (.dialLookup (node, tag))) :=
    refl.goto rfl
  exact hGoto.congr rfl rfl

theorem on_lookup
    (c : Nat)
    (key : PairKey) :
    ProvesNoMore s (s.onLookup c key) := by
  unfold onLookup
  split
  · exact refl.goto rfl
  · exact refl.goto rfl

theorem on_take
    (c : Nat)
    (key : PairKey) :
    ProvesNoMore s (s.onTake c key) := by
  unfold onTake
  split
  · exact refl.goto rfl
  · next dial _ =>
      have hGoto :
          ProvesNoMore s (s.goto c (.dataRelease dial)) :=
        refl.goto rfl
      exact hGoto.congr rfl rfl

end ProvesNoMore

/- Other steps check no signature and store no connection. -/
theorem step_provesNoMore
    {cfg : RelayConfig}
    {c : Nat}
    (hReply : ∀ node, s.pc c ≠ .controlReply node)
    (hOk : ∀ node, s.pc c ≠ .controlOk node)
    (hStore : ∀ node, s.pc c ≠ .controlStore node)
    (outcome : Outcome) :
    ProvesNoMore s (s.step cfg (c, outcome)) := by
  have hGoto {s' : RelayServer} {pc : Pc}
      (hPc : s'.pc = s.pc)
      (hControls : s'.controls = s.controls)
      (hNone : pc.proved = none) :
      ProvesNoMore s (s'.goto c pc) :=
    (ProvesNoMore.refl.congr hPc hControls).goto hNone
  unfold step
  dsimp only
  split
  case h_1 => exact .on_preamble cfg c _
  case h_7 hPc => exact absurd hPc (hReply _)
  case h_9 hPc => exact absurd hPc (hOk _)
  case h_10 hPc => exact absurd hPc (hOk _)
  case h_11 hPc => exact absurd hPc (hStore _)
  case h_15 => exact .on_drop c _
  case h_16 => exact .on_mint c _ _
  case h_17 => exact .on_lookup c _
  case h_23 =>
    split
    · exact .refl
    · exact hGoto rfl rfl rfl
  case h_24 =>
    split
    · exact hGoto rfl rfl rfl
    · exact .refl
  case h_26 => exact .on_take c _
  case h_27 =>
    have hHanded : ProvesNoMore s (s.goto c .handedOff) :=
      hGoto rfl rfl rfl
    exact hHanded.congr rfl rfl
  case h_30 => exact .refl
  -- the others only go on to another place
  all_goals exact hGoto rfl rfl rfl

/- A handler that goes on has checked what it goes on with. -/
theorem proved_goto
    {c d : Nat}
    {pc : Pc}
    {node : String}
    (hProved : ((s.goto c pc).pc d).proved = some node) :
    (s.pc d).proved = some node ∨
      d = c ∧ pc.proved = some node := by
  dsimp only [RelayServer.goto] at hProved
  by_cases hEq : d = c
  · subst hEq
    rw [Function.update_self] at hProved
    exact Or.inr ⟨rfl, hProved⟩
  · rw [Function.update_of_ne hEq] at hProved
    exact Or.inl hProved

/-
  A step of a handler checks a signature or stores what was
  checked; nothing else makes a control connection.
-/
theorem step_proved
    {cfg : RelayConfig}
    (hVerify : cfg.verifySig = true)
    (s : RelayServer)
    (c : Nat)
    (outcome : Outcome) :
    (∀ d node,
      ((s.step cfg (c, outcome)).pc d).proved = some node →
        (s.pc d).proved = some node ∨
          d = c ∧ s.pc c = .controlReply node ∧
            outcome = .reply true) ∧
    (∀ node d,
      (s.step cfg (c, outcome)).controls node = some d →
        s.controls node = some d ∨
          (s.pc d).proved = some node) := by
  have hQuiet {s' : RelayServer}
      (hSame : ProvesNoMore s s') :
      (∀ d node, (s'.pc d).proved = some node →
        (s.pc d).proved = some node ∨
          d = c ∧ s.pc c = .controlReply node ∧
            outcome = .reply true) ∧
      (∀ node d, s'.controls node = some d →
        s.controls node = some d ∨
          (s.pc d).proved = some node) :=
    ⟨fun d node h => .inl (hSame.pc d node h),
      fun node d h => .inl (hSame.controls node d h)⟩
  by_cases hReply : ∃ node, s.pc c = .controlReply node
  · rcases hReply with ⟨node, hPc⟩
    rw [step]
    dsimp only
    rw [hPc] at hQuiet ⊢
    cases outcome with
    | raises => exact hQuiet (ProvesNoMore.refl.goto rfl)
    | reply valid =>
        cases valid with
        | false =>
            simp only [onReply, hVerify, Bool.false_eq_true,
              not_false_eq_true, and_self, if_true]
            exact hQuiet (ProvesNoMore.refl.goto rfl)
        | true =>
            simp only [onReply, not_true_eq_false, and_false,
              if_false]
            refine ⟨?_, fun _ _ h => .inl h⟩
            intro d node' hProved
            rcases proved_goto hProved with
              hOld | ⟨rfl, hNode⟩
            · exact .inl hOld
            · cases hNode
              exact .inr ⟨rfl, rfl, trivial⟩
    | _ => exact hQuiet .refl
  by_cases hOk : ∃ node, s.pc c = .controlOk node
  · rcases hOk with ⟨node, hPc⟩
    rw [step]
    dsimp only
    rw [hPc] at hQuiet ⊢
    cases outcome with
    | raises => exact hQuiet (ProvesNoMore.refl.goto rfl)
    | ok =>
        refine ⟨?_, fun _ _ h => .inl h⟩
        intro d node' hProved
        rcases proved_goto hProved with hOld | ⟨rfl, hNode⟩
        · exact .inl hOld
        · rw [hPc]
          exact .inl hNode
    | _ => exact hQuiet .refl
  by_cases hStore : ∃ node, s.pc c = .controlStore node
  · rcases hStore with ⟨node, hPc⟩
    rw [step]
    dsimp only
    rw [hPc] at hQuiet ⊢
    cases outcome with
    | ok =>
        refine ⟨?_, ?_⟩
        · intro d node' hProved
          rcases proved_goto hProved with hOld | ⟨-, hNode⟩
          · exact .inl hOld
          · revert hNode
            cases s.controls node <;> exact nofun
        · intro node' d hControl
          simp only [onStore] at hControl
          by_cases hEq : node' = node
          · subst hEq
            rw [Function.update_self] at hControl
            cases hControl
            rw [hPc]
            exact .inr rfl
          · rw [Function.update_of_ne hEq] at hControl
            exact .inl hControl
    | _ => exact hQuiet .refl
  apply hQuiet
  exact step_provesNoMore
    (fun node h => hReply ⟨node, h⟩)
    (fun node h => hOk ⟨node, h⟩)
    (fun node h => hStore ⟨node, h⟩) outcome

end RelayServer

end CircuitDllm.NatRelay

------------------------------------------------------------
-- Bodies Are Longer Than Nonces
------------------------------------------------------------

namespace CircuitDllm

open Wire (Bytes)

variable {F : Type}

/- bytes.fromhex takes two characters for a byte. -/
theorem length_of_fromHex
    {text : List Nat}
    {bs : Bytes}
    (hRead : fromHex text = some bs) :
    2 * bs.length ≤ text.length := by
  fun_induction fromHex text generalizing bs with
  | case1 =>
      cases hRead
      exact Nat.le_refl _
  | case2 c cs hSpace ih =>
      have hRest := ih hRead
      rw [List.length_cons]
      omega
  | case3 => cases hRead
  | case4 c hSpace d cs a b hHigh hLow ih =>
      rcases Option.map_eq_some_iff.mp hRead with
        ⟨rest, hRest, rfl⟩
      have hLength := ih hRest
      simp only [List.length_cons]
      omega
  | case5 => cases hRead

/- A text of a body is not longer than its bytes. -/
theorem length_le_canonical
    {json : JsonOps F}
    {members : List (List Nat × PyJson F)}
    {key text : List Nat}
    (hMem : (key, PyJson.str text) ∈ members)
    {bytes : Bytes}
    (hSome : canonical json (.obj members) = some bytes) :
    text.length ≤ bytes.length := by
  rw [canonical] at hSome
  split at hSome
  · cases hSome
  · next encoded hText =>
      split at hSome
      · next hScalars =>
          cases hSome
          rcases PyJson.dumpsWith_eq_ok.mp hText with ⟨-, rfl⟩
          have hSorted := PyJson.mem_of_mem_members hMem
          rw [PyJson.sortKeys] at hScalars ⊢
          have hScalar : PyJson.scalarText text = true :=
            (PyJson.scalars_obj.mp hScalars _ hSorted).2
          calc text.length
              ≤ (PyJson.Style.compact.dumpsStr text).length :=
                PyJson.length_le_dumpsStr _ hScalar
            _ ≤ (PyJson.encodeWith json.ops .compact
                  (.obj (PyJson.sortMembers
                    (PyJson.sortKeysMembers
                      members)))).length :=
                PyJson.length_le_encodeWith_obj _ _ hSorted
            _ ≤ _ := length_le_utf8 _
      · cases hSome

end CircuitDllm

------------------------------------------------------------
-- The Two Uses Do Not Meet
------------------------------------------------------------

namespace CircuitDllm

open Wire (Bytes)

variable {F Priv : Type} {server : JsonServer F Priv}

/- A body that is checked has the key in its message. -/
theorem nodeId_of_signatureOf
    {v : PyJson F}
    {nodeId sig bytes : Bytes}
    (hRead :
      server.signatureOf v = some (nodeId, sig, bytes)) :
    2 * nodeId.length ≤ bytes.length := by
  have hBytes := SigningWorld.signatureOf_canonical hRead
  unfold JsonServer.signatureOf at hRead
  split at hRead
  · next members =>
      split at hRead
      · next sigText idText _ hId =>
          split at hRead
          · next hIdBytes _ =>
              cases hRead
              have hMem :
                  (fieldKey "node_id", PyJson.str idText) ∈
                    members.filter
                      (fun m => m.1 ≠ fieldKey "sig") := by
                rcases List.lookup_eq_some_iff.mp hId with
                  ⟨before, after, hEq, -⟩
                rw [hEq]
                apply List.mem_filter.mpr
                refine ⟨List.mem_append_right _
                  List.mem_cons_self, decide_eq_true ?_⟩
                change fieldKey "node_id" ≠ fieldKey "sig"
                decide
              exact Nat.le_trans (length_of_fromHex hIdBytes)
                (length_le_canonical hMem hBytes)
          · cases hRead
      · cases hRead
  · cases hRead

namespace KeyUse

variable {side : RelaySide}

/- What is known of the signatures besides. -/
structure KeyUseInv (side : RelaySide) (w : KeyUse F) : Prop
    extends w.Apart side where
  own :
    ∀ m ∈ w.control.signed, ∃ members,
      m.2 = .obj members ∧
        (fieldKey "node_id", PyJson.str (hexBytes m.1)) ∈
          members
  short : ∀ a ∈ w.answered, a.2.length = 32
  checked :
    ∀ c node, (w.relay.pc c).proved = some node →
      w.Proved side node c

/- What was signed as a body has room for the key. -/
theorem KeyUseInv.long
    {w : KeyUse F}
    (hInv : w.KeyUseInv side)
    {json : JsonOps F}
    {nodeId bytes : Bytes}
    {message : PyJson F}
    (hSigned : (nodeId, message) ∈ w.control.signed)
    (hBytes : canonical json message = some bytes) :
    2 * nodeId.length ≤ bytes.length := by
  rcases hInv.own _ hSigned with ⟨members, hEq, hMem⟩
  dsimp only at hEq
  subst hEq
  exact Nat.le_trans (length_of_fromHex (fromHex_hexBytes _))
    (length_le_canonical hMem hBytes)

/-
  A step of the relay keeps the invariant if a signature it
  accepts is on the nonce of the connection.
-/
theorem KeyUseInv.relay_step
    (hVerify : side.cfg.verifySig = true)
    {w : KeyUse F}
    (hInv : w.KeyUseInv side)
    {c : Nat}
    {outcome : NatRelay.Outcome}
    (hProved :
      ∀ node, w.relay.pc c = .controlReply node →
        outcome = .reply true →
          w.Proved side node c) :
    KeyUseInv side
      { w with
        relay := w.relay.step side.cfg (c, outcome) } := by
  rcases NatRelay.RelayServer.step_proved hVerify w.relay c
      outcome with
    ⟨hPc, hControls⟩
  refine
    { control := hInv.control
      relay := ?_
      own := hInv.own
      short := hInv.short
      checked := ?_ }
  · intro node d hControl
    rcases hControls node d hControl with hOld | hChecked
    · exact hInv.relay node d hOld
    · exact hInv.checked d node hChecked
  · intro d node hNode
    rcases hPc d node hNode with hOld | ⟨rfl, hReply, hTrue⟩
    · exact hInv.checked d node hOld
    · exact hProved node hReply hTrue

theorem KeyUseInv.signs
    (hLawful : server.ops.Lawful)
    {w : KeyUse F}
    (hInv : w.KeyUseInv side)
    (priv : Priv)
    {body : JsonBody F}
    (hDicts : body.json.Dicts)
    (hNode :
      body.get? (fieldKey "node_id") =
        some (.str (hexBytes (server.lib.publicKey priv)))) :
    KeyUseInv side
      (w.step server side (.signs priv body hDicts)) where
  control := by
    have hControl :
        (w.control.step server
          (.signs priv body hDicts)).Genuine :=
      SigningWorld.genuine_step hLawful trivial hInv.control
    exact hControl
  relay := hInv.relay
  own := by
    simp only [step, SigningWorld.step]
    split
    · exact hInv.own
    · intro m hMem
      rcases List.mem_cons.mp hMem with rfl | hOld
      · refine ⟨_, rfl, ?_⟩
        apply Dict.get?_eq_some.mp
        rw [Dict.get?_erase, if_neg (by decide)]
        exact hNode
      · exact hInv.own m hOld
  short := hInv.short
  checked := hInv.checked

/- One more nonce of 32 bytes is signed. -/
theorem KeyUseInv.answers
    {w : KeyUse F}
    (hInv : w.KeyUseInv side)
    (priv : Priv)
    {v : PyJson F}
    (hNonce :
      ∀ nonce, nonceOf v = some nonce → nonce.length = 32) :
    KeyUseInv side
      (w.step server side (.answers priv v)) := by
  simp only [step]
  split
  · exact hInv
  · next nonce hSome =>
      have hMore {node : String} {c : Nat}
          (hProved : w.Proved side node c) :
          Proved side
            { w with
              answered :=
                (server.lib.publicKey priv, nonce) ::
                  w.answered } node c := by
        rcases hProved with ⟨nodeId, hId, hMem⟩
        exact ⟨nodeId, hId, List.mem_cons_of_mem _ hMem⟩
      refine
        { control := hInv.control
          relay := fun node c h => hMore (hInv.relay node c h)
          own := hInv.own
          short := ?_
          checked := fun c node h =>
            hMore (hInv.checked c node h) }
      intro a hMem
      rcases List.mem_cons.mp hMem with rfl | hOld
      · exact hNonce nonce hSome
      · exact hInv.short a hOld

/- The message of a body does not fit in a nonce. -/
theorem KeyUseInv.unforged
    (hKeys : server.lib.ShortKeys)
    {w : KeyUse F}
    (hInv : w.KeyUseInv side)
    {v : PyJson F}
    (hDicts : v.Dicts)
    (hAllowed :
      Allowed server side (w, .arrives v hDicts)) :
    SigningWorld.Unforged server
      (w.control, .arrives v hDicts) := by
  intro nodeId sig bytes hSignature hValid
  rcases hAllowed nodeId sig bytes hSignature hValid with
    hAnswered | hSigned
  · have hKey := hKeys nodeId sig bytes hValid
    have hShort := hInv.short _ hAnswered
    have hLong := nodeId_of_signatureOf hSignature
    dsimp only at hShort
    omega
  · exact hSigned

theorem KeyUseInv.arrives
    (hLawful : server.ops.Lawful)
    (hKeys : server.lib.ShortKeys)
    {w : KeyUse F}
    (hInv : w.KeyUseInv side)
    {v : PyJson F}
    (hDicts : v.Dicts)
    (hAllowed :
      Allowed server side (w, .arrives v hDicts)) :
    KeyUseInv side
      (w.step server side (.arrives v hDicts)) where
  control :=
    SigningWorld.genuine_step hLawful
      (hInv.unforged hKeys hDicts hAllowed) hInv.control
  relay := hInv.relay
  own := by
    have hSigned :
        (w.control.step server (.arrives v hDicts)).signed =
          w.control.signed := by
      simp only [SigningWorld.step]
      repeat' split
      all_goals rfl
    intro m hMem
    rw [step, hSigned] at hMem
    exact hInv.own m hMem
  short := hInv.short
  checked := hInv.checked

/- A nonce that a reply proves was signed as a nonce. -/
theorem KeyUseInv.proved_of_reply
    (hKeys : server.lib.ShortKeys)
    (hVerify : side.cfg.verifySig = true)
    {w : KeyUse F}
    (hInv : w.KeyUseInv side)
    {c : Nat}
    {v : PyJson F}
    (hAllowed : Allowed server side (w, .replies c v))
    {node : String}
    (hPc : w.relay.pc c = .controlReply node)
    (hTrue :
      server.replyOutcome side.cfg node (side.nonce c) v =
        .reply true) :
    w.Proved side node c := by
  rw [JsonServer.replyOutcome, if_pos hVerify] at hTrue
  split at hTrue
  · cases hTrue
  · next text hText =>
      injection hTrue with hValid
      rw [JsonServer.verifyNodeSig] at hValid
      split at hValid
      · next nodeId sig hId hSig =>
          rcases hAllowed node nodeId text sig hPc hId hText
              hSig hValid with
            hAnswered | ⟨message, hSigned, hBytes⟩
          · exact ⟨nodeId, hId, hAnswered⟩
          · -- nor is a body as short as a nonce
            have hKey := hKeys nodeId sig _ hValid
            have hLong := hInv.long hSigned hBytes
            have hShort := side.length_nonce c
            omega
      · cases hValid

theorem KeyUseInv.replies
    (hKeys : server.lib.ShortKeys)
    (hVerify : side.cfg.verifySig = true)
    {w : KeyUse F}
    (hInv : w.KeyUseInv side)
    {c : Nat}
    {v : PyJson F}
    (hAllowed : Allowed server side (w, .replies c v)) :
    KeyUseInv side (w.step server side (.replies c v)) := by
  simp only [step]
  split
  · next node hPc =>
      apply hInv.relay_step hVerify
      intro node' hPc' hTrue
      have hNode : node' = node := by
        rw [hPc] at hPc'
        cases hPc'
        rfl
      subst hNode
      exact hInv.proved_of_reply hKeys hVerify hAllowed hPc
        hTrue
  · exact hInv

theorem keyUseInv_step
    (hLawful : server.ops.Lawful)
    (hKeys : server.lib.ShortKeys)
    (hVerify : side.cfg.verifySig = true)
    {w : KeyUse F}
    {e : KeyUseEvent F Priv}
    (hAllowed : Allowed server side (w, e))
    (hInv : w.KeyUseInv side) :
    KeyUseInv side (w.step server side e) := by
  cases e with
  | signs priv body hDicts =>
      exact hInv.signs hLawful priv hDicts hAllowed
  | answers priv v => exact hInv.answers priv hAllowed
  | arrives v hDicts =>
      exact hInv.arrives hLawful hKeys hDicts hAllowed
  | relays c outcome =>
      cases outcome with
      | reply valid => exact hInv
      | _ =>
          apply hInv.relay_step hVerify
          intro _ _ hReply
          cases hReply
  | replies c v => exact hInv.replies hKeys hVerify hAllowed

/-
  While relays ask for nonces of 32 bytes, and whoever sends
  what to whom: a body that passes was signed as a body by
  the holder of its key, and a control connection is a
  node's only if the node signed its nonce for the relay.
-/
theorem apart_run
    (hLawful : server.ops.Lawful)
    (hKeys : server.lib.ShortKeys)
    (hVerify : side.cfg.verifySig = true)
    {events : List (KeyUseEvent F Priv)}
    (hAllowed :
      ∀ e ∈ History.trail (step server side) {} events,
        Allowed server side e) :
    (run server side events).Apart side := by
  have hInit : ({} : KeyUse F).KeyUseInv side :=
    { control :=
        ⟨fun _ hM => absurd hM List.not_mem_nil,
          fun _ hM => absurd hM List.not_mem_nil⟩
      relay := nofun
      own := fun _ hM => absurd hM List.not_mem_nil
      short := fun _ hM => absurd hM List.not_mem_nil
      checked := nofun }
  have hInv :=
    History.induction_of (step server side)
      (Allowed server side)
      (fun _ w => w.KeyUseInv side) hInit
      (fun _ _ _ hStep hInv =>
        keyUseInv_step hLawful hKeys hVerify hStep hInv)
      hAllowed
  exact hInv.toApart

end KeyUse

end CircuitDllm

------------------------------------------------------------
-- A Node Comes Online
------------------------------------------------------------

namespace CircuitDllm

open Wire (Bytes)

variable {F Priv : Type} {server : JsonServer F Priv}

/- The relay client finds the nonce it was sent. -/
theorem nonceOf_challenge (nonce : Bytes) :
    nonceOf (challenge nonce : PyJson F) = some nonce := by
  simp [nonceOf, challenge, membersOf, get?_member,
    fromHex_hexBytes]

/- A reply that is a signature. -/
def signatureReply (sig : Bytes) : PyJson F :=
  .obj [member "sig" (.str (hexBytes sig))]

theorem answer_challenge (priv : Priv) (nonce : Bytes) :
    server.answer priv (challenge nonce) =
      some (signatureReply (server.lib.sign priv nonce)) := by
  rw [JsonServer.answer, nonceOf_challenge]
  rfl

theorem sigOf_signatureReply (sig : Bytes) :
    sigOf (signatureReply sig : PyJson F) =
      some (hexBytes sig) := by
  simp [sigOf, signatureReply, membersOf, get?_member]

/- The relay takes what the holder of the key answers. -/
theorem replyOutcome_answer
    (hLib : server.lib.Lawful)
    (cfg : NatRelay.RelayConfig)
    {priv : Priv}
    {node : String}
    (hNode :
      fromHex (PyJson.codePoints node.toList) =
        some (server.lib.publicKey priv))
    (nonce : Bytes) :
    server.replyOutcome cfg node nonce
        (signatureReply (server.lib.sign priv nonce)) =
      .reply true := by
  rw [JsonServer.replyOutcome]
  split
  · rw [sigOf_signatureReply]
    simp only [JsonServer.verifyNodeSig, hNode,
      fromHex_hexBytes, hLib priv nonce]
  · rfl

namespace KeyUse

/- The steps by which a node comes online. -/
def handshake
    (side : RelaySide)
    (priv : Priv)
    (node : String)
    (c : Nat)
    (reply : PyJson F) :
    List (KeyUseEvent F Priv) :=
  [.relays c (.preamble (.control node)),
    .relays c .ok,
    .answers priv (challenge (side.nonce c)),
    .replies c reply,
    .relays c .ok,
    .relays c .ok]

/- A node that answers with its key comes online. -/
theorem controls_handshake
    (server : JsonServer F Priv)
    (hLib : server.lib.Lawful)
    (side : RelaySide)
    (priv : Priv)
    {node : String}
    (hSome : node ≠ "")
    (hNode :
      fromHex (PyJson.codePoints node.toList) =
        some (server.lib.publicKey priv))
    {w : KeyUse F}
    {c : Nat}
    (hPc : w.relay.pc c = .reading) :
    ∃ reply,
      server.answer priv (challenge (side.nonce c)) =
          some reply ∧
        ((handshake side priv node c reply).foldl
          (step server side) w).relay.controls node =
            some c := by
  have hOutcome :=
    replyOutcome_answer hLib side.cfg hNode (side.nonce c)
  refine ⟨_, answer_challenge priv (side.nonce c), ?_⟩
  simp [handshake, step, NatRelay.RelayServer.step,
    NatRelay.RelayServer.onPreamble,
    NatRelay.RelayServer.onReply,
    NatRelay.RelayServer.onStore, NatRelay.RelayServer.goto,
    nonceOf_challenge, hPc, hSome, hOutcome]

/- Keys of one byte that is repeated 32 times. -/
def byteLib : KeyLib UInt8 where
  publicKey priv := List.replicate 32 priv
  sign priv message := List.replicate 32 priv ++ message
  verify nodeId sig message :=
    decide (nodeId.length = 32 ∧ sig = nodeId ++ message)

theorem byteLib_lawful : byteLib.Lawful := by
  intro priv message
  exact decide_eq_true ⟨List.length_replicate, rfl⟩

theorem byteLib_shortKeys : byteLib.ShortKeys := by
  intro nodeId sig message hValid
  exact (of_decide_eq_true hValid).1

def byteServer : JsonServer Nat UInt8 where
  toJsonOps := halvesJson
  lib := byteLib
  stale := none

def byteSide : RelaySide where
  cfg := {}
  nonce c := List.replicate 32 (.ofNat c)
  length_nonce _ := List.length_replicate

/- The id of a key. -/
def idText (key : Bytes) : String :=
  String.ofList ((hexBytes key).map Char.ofNat)

theorem codePoints_idText (key : Bytes) :
    PyJson.codePoints (idText key).toList = hexBytes key := by
  rw [idText, String.toList_ofList, PyJson.codePoints,
    List.map_map]
  have hScalar := scalarText_hexBytes key
  rw [PyJson.scalarText, List.all_eq_true] at hScalar
  conv_rhs => rw [← List.map_id (hexBytes key)]
  apply List.map_congr_left
  intro n hMem
  exact PyJson.toNat_ofNat
    (of_decide_eq_true (hScalar n hMem))

def zerosNode : String := idText (byteLib.publicKey 0)

/- The node of key 0 comes online. -/
theorem apart_run_zeros :
    ∃ reply,
      (run byteServer byteSide
        (handshake byteSide 0 zerosNode 0 reply)).Apart
          byteSide ∧
      (run byteServer byteSide
        (handshake byteSide 0 zerosNode 0
          reply)).relay.controls zerosNode = some 0 := by
  have hNode :
      fromHex (PyJson.codePoints zerosNode.toList) =
        some (byteLib.publicKey 0) := by
    rw [zerosNode, codePoints_idText, fromHex_hexBytes]
  have hSome : zerosNode ≠ "" := by
    intro hEmpty
    rw [hEmpty] at hNode
    cases hNode
  rcases controls_handshake (w := {}) (c := 0) byteServer
      byteLib_lawful byteSide 0 hSome hNode rfl with
    ⟨reply, -, hControl⟩
  refine ⟨reply, ?_, hControl⟩
  apply apart_run halves_lawful byteLib_shortKeys rfl
  intro e hMem
  simp only [handshake, History.trail, List.mem_cons,
    List.not_mem_nil, or_false] at hMem
  rcases hMem with rfl | rfl | rfl | rfl | rfl | rfl
  · trivial
  · trivial
  · intro nonce hNonce
    rw [nonceOf_challenge] at hNonce
    cases hNonce
    exact byteSide.length_nonce 0
  · intro node nodeId text sig hPc hId _ _ _
    simp [step, NatRelay.RelayServer.step,
      NatRelay.RelayServer.onPreamble,
      NatRelay.RelayServer.goto, hSome, nonceOf_challenge]
      at hPc
    rw [← hPc, hNode] at hId
    cases hId
    refine Or.inl ?_
    simp [step, nonceOf_challenge, byteServer]
  · trivial
  · trivial

end KeyUse

end CircuitDllm

------------------------------------------------------------
-- A Longer Nonce
------------------------------------------------------------

namespace CircuitDllm

open Wire (Bytes)

variable {F Priv : Type} {server : JsonServer F Priv}

/- Digits are written as they are. -/
theorem length_dumpsStr_hexBytes (bs : Bytes) :
    (({} : PyJson.Style).dumpsStr (hexBytes bs)).length =
      2 * bs.length + 2 := by
  have hDigit :
      ∀ d, d < 16 →
        (({} : PyJson.Style).escape
          (Json.hexDigit d).toNat).length = 1 := by
    decide
  have hAll :
      ((hexBytes bs).flatMap
          ({} : PyJson.Style).escape).length =
        2 * bs.length := by
    induction bs with
    | nil => rfl
    | cons b bs ih =>
        have hByte : b.toNat < 256 := b.toNat_lt
        have hHigh := hDigit (b.toNat / 16) (by omega)
        have hLow := hDigit (b.toNat % 16) (by omega)
        rw [hexBytes, List.flatMap_cons, ← hexBytes]
        simp only [List.cons_append, List.nil_append,
          List.flatMap_cons, List.length_append, hHigh, hLow,
          ih, List.length_cons]
        omega
  rw [PyJson.Style.dumpsStr, List.length_append,
    List.length_cons, hAll]
  rfl

theorem length_challenge
    (ops : FloatOps F)
    (nonce : Bytes) :
    (PyJson.encode ops (challenge nonce)).length =
      2 * nonce.length + 13 := by
  have hText := length_dumpsStr_hexBytes nonce
  have hName :
      (({} : PyJson.Style).dumpsStr
        (PyJson.codePoints "nonce".toList)).length = 7 := by
    decide
  rw [challenge, member, PyJson.encode, PyJson.encodeWith,
    PyJson.encodeMembersWith, PyJson.encodeMembersWith,
    PyJson.encodeWith, PyJson.Style.joined,
    PyJson.Style.dumpsMember]
  simp only [List.length_cons, List.length_append,
    List.length_nil, hText, hName]
  omega

/- A challenge is read wherever some dict is. -/
theorem sound_challenge
    {limits : Limits}
    {members : List (List Nat × PyJson F)}
    (hFits : PyJson.Fits limits limits.depth (.obj members))
    (nonce : Bytes) :
    PyJson.Sound limits (challenge nonce : PyJson F) := by
  refine ⟨?_, ?_, ?_⟩
  · generalize limits.depth = depth at hFits ⊢
    cases hFits with
    | obj =>
        apply PyJson.Fits.obj
        intro m hM
        rw [List.mem_singleton.mp hM]
        exact .str
  · refine .obj (List.nodup_singleton _) ?_
    intro m hM
    rw [List.mem_singleton.mp hM]
    exact .str
  · rw [challenge, PyJson.scalars_obj]
    intro m hM
    rw [List.mem_singleton.mp hM]
    exact ⟨scalarText_codePoints _, scalarText_hexBytes _⟩

/-
  The worker signs any body for its relay: the challenge is
  the bytes of the body, and the answer is its signature.
-/
theorem relay_signs_bodies
    (hLawful : server.ops.Lawful)
    (hLib : server.lib.Lawful)
    (side : RelaySide)
    (priv : Priv)
    {body : JsonBody F}
    (hDicts : body.json.Dicts)
    (hNode :
      body.get? (fieldKey "node_id") =
        some (.str (hexBytes (server.lib.publicKey priv))))
    {ts : PyJson F}
    (hTime : body.get? (fieldKey "ts") = some ts)
    (hFresh :
      ∀ stale, server.stale = some stale → stale ts = false)
    {nonce : Bytes}
    (hBytes :
      canonical server.toJsonOps body.message = some nonce)
    (hShort : 2 * nonce.length + 13 ≤ preambleMax) :
    ∃ text reply sig data v hRead,
      IsPreamble server.toJsonOps (challenge nonce) text ∧
        server.answer priv (challenge nonce) = some reply ∧
        sigOf reply = some sig ∧
        server.sent (body.set (fieldKey "sig") (.str sig)) =
          some data ∧
        server.readUtf8 data = some v ∧
        (KeyUse.run server side
            [.answers priv (challenge nonce),
              .arrives v hRead]).control =
          { signed := []
            passed :=
              [(server.lib.publicKey priv, body.message)] } := by
  have hMessage :=
    ((canonical_eq_some (dicts_message hDicts)).mp hBytes).1
  -- the body is a dict, so there is room for one
  have hSound :
      PyJson.Sound server.limits
        (challenge nonce : PyJson F) :=
    sound_challenge hMessage.fits nonce
  rcases isPreamble_of_short hLawful hSound (by
      rw [length_challenge]
      exact hShort) with
    ⟨text, hPreamble⟩
  have hSigned :
      server.signBody priv body =
        some (body.set (fieldKey "sig")
          (.str (hexBytes (server.lib.sign priv nonce)))) := by
    rw [JsonServer.signBody, hBytes]
    rfl
  rcases passes_of_signBody hLawful hLib hDicts hNode hTime
      hFresh hSigned with
    ⟨data, v, hSent, hRead, hVerify⟩
  rcases readUtf8_signed hLawful hDicts hSigned with
    ⟨data', hSent', hRead'⟩
  have hData : data' = data := by
    rw [hSent] at hSent'
    exact (Option.some.inj hSent').symm
  rw [hData, hRead] at hRead'
  obtain rfl := Option.some.inj hRead'
  have hSignature :
      server.signatureOf
          (JsonBody.json
            (body.set (fieldKey "sig")
              (.str (hexBytes
                (server.lib.sign priv nonce))))) =
        some (server.lib.publicKey priv,
          server.lib.sign priv nonce, nonce) :=
    signatureOf_signed hNode hBytes
  have hBody :
      JsonServer.messageOf
          (JsonBody.json
            (body.set (fieldKey "sig")
              (.str (hexBytes
                (server.lib.sign priv nonce))))) =
        body.message :=
    message_set_sig body _
  refine ⟨text, _, _, data, _,
    SigningWorld.readUtf8_dicts hRead, hPreamble,
    answer_challenge priv nonce, sigOf_signatureReply _, hSent,
    hRead, ?_⟩
  simp [KeyUse.run, KeyUse.step, nonceOf_challenge,
    SigningWorld.step, hVerify, hSignature, hBody]

/- The bytes of the request for session 7. -/
def openBytes : Bytes :=
  utf8 "\x7b\"node_id\":\"01\",\"session\":7,\"ts\":1000\x7d"

theorem canonical_openRegister :
    canonical openServer.toJsonOps openMessage =
      some openBytes := by
  have hNode : ¬ fieldKey "session" ≤ fieldKey "node_id" := by
    decide
  have hTs : fieldKey "session" ≤ fieldKey "ts" := by
    decide
  have hFirst : fieldKey "node_id" ≤ fieldKey "ts" := by
    decide
  have hSorted :
      openMessage.sortKeys =
        .obj
          [(fieldKey "node_id", .str (hexBytes [1])),
            (fieldKey "session", .int 7),
            (fieldKey "ts", .int 1000)] := by
    simp [openMessage, PyJson.sortKeys, PyJson.sortKeysMembers,
      PyJson.sortMembers, List.insertionSort, hNode, hTs,
      hFirst]
  rw [canonical, canonicalStr, hSorted]
  rfl

/- The node signs for its relay, and the request passes. -/
theorem relay_signs_bodies_open :
    ∃ v hRead,
      (KeyUse.run openServer KeyUse.byteSide
          [.answers [1] (challenge openBytes),
            .arrives v hRead]).control =
        { signed := [], passed := [([1], openMessage)] } := by
  have hFresh :
      ∀ stale, openServer.stale = some stale →
        stale (.int 1000) = false := by
    intro stale hStale
    cases hStale
    decide
  have hBytes :
      canonical openServer.toJsonOps
          (JsonBody.message SigningWorld.openRegister) =
        some openBytes :=
    canonical_openRegister
  rcases relay_signs_bodies halves_lawful openLib_lawful
      KeyUse.byteSide [1] SigningWorld.dicts_openRegister rfl
      rfl hFresh hBytes (by decide) with
    ⟨_, _, _, _, v, hRead, -, -, -, -, -, hPassed⟩
  exact ⟨v, hRead, hPassed⟩

end CircuitDllm
