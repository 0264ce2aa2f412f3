import CircuitDllm.Coord.Failover
import CircuitDllm.SpecDecode.Loop

/-
  Sessions of the streaming speculative path and their
  prefix cache (engine/coordinator.py).

  A connection set keeps the session of its last request
  warm: its KV rolled back to the prompt.  The next request
  rolls it back further, to the prefix the prompts share,
  and prefills only the rest.

  Main declarations:
    * `beginSession`, `endSession`
    * `targetForward`, `targetRollback`, `socketTarget`
-/

------------------------------------------------------------
-- The Warm Session of a Connection Set
------------------------------------------------------------

namespace CircuitDllm

/- Length of the longest common prefix. -/
def lcpLen {Tok : Type} [DecidableEq Tok] :
    List Tok → List Tok → Nat
| a :: as, b :: bs => if a = b then lcpLen as bs + 1 else 0
| _, _ => 0

namespace CoordEnv

variable {Tok H P : Type} (env : CoordEnv Tok H P)

/-
  Every node holding the warm KV is connected; the static
  sockets are always taken to be.
-/
def warmRouteOk
    (active sid : Nat)
    (s : CoordState Tok H P) :
    Bool :=
  if ¬ env.dynamic then true
  else
    match s.sessionRoutes.get? sid with
    | none => false
    | some route =>
      route ≠ [] ∧
        ∀ n ∈ route, n.nodeId ∈ (s.conn active).conns

/- Forget the warm session and free it. -/
def invalidatePrefix
    (active : Nat)
    (s : CoordState Tok H P) :
    CoordState Tok H P :=
  let old := (s.conn active).pc.sid
  let s := s.modifyConn active (fun c => { c with pc := {} })
  match old with
  | none => s
  | some sid => env.resetSessions active sid s

variable [DecidableEq Tok]

/- The tokens of `ids` the warm session can keep. -/
def sharedPrefix
    (active : Nat)
    (ids : List Tok)
    (s : CoordState Tok H P) :
    Int :=
  min
    (match (s.conn active).pc.ids with
      | none => 0
      | some row => (lcpLen ids row : Int))
    ((ids.length : Int) - 1)

/- The session to decode on, and how much of it is filled. -/
def beginSession
    (active : Nat)
    (ids : List Tok)
    (s : CoordState Tok H P) :
    (Nat × Nat) × CoordState Tok H P :=
  let fresh := fun (s : CoordState Tok H P) =>
    let (sid, s) := env.nextSession s
    ((sid, 0), s)
  if ¬ env.pcEnabled then fresh s
  else
    let pc := (s.conn active).pc
    let common := sharedPrefix active ids s
    match pc.sid with
    | none => fresh s
    | some sid =>
      if (env.pcMin : Int) ≤ common ∧
          env.warmRouteOk active sid s then
        let rolled :=
          if common < pc.len then
            env.kvTruncate active sid common.toNat true s
          else (.ok (), s)
        match rolled with
        | (.error _, s) => fresh (env.invalidatePrefix active s)
        | (.ok (), s) =>
          ((sid, common.toNat),
            s.modifyConn active (fun c =>
              { c with
                pc := { c.pc with len := common.toNat } }))
      else fresh s

omit [DecidableEq Tok] in
/- Keep a finished session warm, rolled back to its prompt. -/
def endSession
    (active sid : Nat)
    (ids : List Tok)
    (s : CoordState Tok H P) :
    CoordState Tok H P :=
  if ¬ env.pcEnabled then env.resetSessions active sid s
  else
    match env.kvTruncate active sid ids.length false s with
    | (.error _, s) =>
      env.resetSessions active sid
        (env.invalidatePrefix active s)
    | (.ok (), s) =>
      let s :=
        match (s.conn active).pc.sid with
        | none => s
        | some old =>
          if old = sid then s
          else env.resetSessions active old s
      s.modifyConn active (fun c =>
        { c with pc := ⟨some ids, some sid, ids.length⟩ })

end CoordEnv

end CircuitDllm

------------------------------------------------------------
-- The Socket Target
------------------------------------------------------------

namespace CircuitDllm

namespace CoordEnv

variable {Tok H P : Type} (env : CoordEnv Tok H P)

/-
  Where a forward of the target starts and what it relays:
  the prompt prefill skips what is already in the KV.
-/
def targetChunk
    (prefilled : Nat)
    (ids : List Tok)
    (startPos : Nat) :
    Nat × List Tok :=
  if startPos = 0 ∧ 0 < prefilled then
    (prefilled, ids.drop prefilled)
  else (startPos, ids)

/- forward_tokens. -/
def targetForward
    (active session prefilled : Nat)
    (ids : List Tok)
    (startPos : Nat)
    (s : CoordState Tok H P) :
    Except CoordError (List H) × CoordState Tok H P :=
  let (pos, chunk) := targetChunk prefilled ids startPos
  env.relay active session pos (chunk.map env.embed) s

/- rollback. -/
def targetRollback
    (active session length : Nat)
    (s : CoordState Tok H P) :
    Except CoordError Unit × CoordState Tok H P :=
  env.kvTruncate active session length false s

end CoordEnv

/- What a relay raises ends the decode. -/
def CoordError.toSpec : CoordError → SpecError
| .index => .index
| _ => .wire

/- A SocketTarget and the coordinator behind it. -/
structure SocketState (Tok H P : Type) where
  coord : CoordState Tok H P
  -- _kv and _last_hidden
  kv : Nat
  lastHidden : List H := []

namespace CoordEnv

variable {Tok H P : Type} (env : CoordEnv Tok H P)

/- The stage workers as a target of speculative decoding. -/
def socketTarget
    (active session prefilled : Nat) :
    Target (SocketState Tok H P) Tok H where
  forwardTokens ids startPos := fun t =>
    match env.targetForward active session prefilled ids
        startPos t.coord with
    | (.error e, s) => (.error e.toSpec, { t with coord := s })
    | (.ok hidden, s) =>
      (.ok (hidden.map env.lmHead),
        { coord := s
          kv := startPos + ids.length
          lastHidden := hidden })
  kvLen t := t.kv
  rollback length := fun t =>
    match env.targetRollback active session length t.coord with
    | (.error e, s) => (.error e.toSpec, { t with coord := s })
    | (.ok (), s) =>
      (.ok (), { t with coord := s, kv := length })
  lastHidden t := t.lastHidden

end CoordEnv

end CircuitDllm
