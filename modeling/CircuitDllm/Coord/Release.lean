import CircuitDllm.Mesh.LoadAccounting
import CircuitDllm.Coord.Lending
import CircuitDllm.Lib.Unwind
import Mathlib.Data.Finset.Basic

/-
  What a coordinator keeps of its sessions
  (engine/coordinator.py).

  Decodes allocate in the local caches, in the pinned routes
  and in the load table of the registry, a batch in its own
  caches; the finally block of each releases them, and a
  speculative stream may leave its session in the warm slot
  of a connection set.  Threads interleave at every read and
  write of a table.

  Main declarations:
    * `TableStmt.run`, `Coordinating.step`
    * `Coordinating.Exclusive`, `Coordinating.NoLeak`
    * `Coordinating.noLeak_run`
-/

------------------------------------------------------------
-- Tables
------------------------------------------------------------

namespace CircuitDllm

/- How a coordinator is set up. -/
structure CoordSetup where
  registry : RegistryConfig
  -- there is a registry, in this process
  dynamic : Bool
  -- local_stage is not None
  localStage : Bool
  -- _pc_enabled
  prefixCache : Bool

/-
  The tables that sessions and batches are kept in, by key.
-/
structure SessionTables where
  localCaches : Finset Nat := ∅
  sessionRoutes : Dict Nat (List Node) := .empty
  localBatchCaches : Finset Nat := ∅
  registry : Registry
  -- the sessions the coordinator itself took a route for,
  -- and nobody else since
  taken : Finset Nat := ∅
  -- pc["sid"] of every connection set, where it is not None
  warm : Dict ConnId Nat := .empty

/- The tables with a session or a batch as the key. -/
inductive SessionTable where
  | localCaches
  | sessionRoutes
  | sessionLoad
  | localBatchCaches
deriving DecidableEq, Repr

namespace SessionTable

/- A coordinator without a registry pins no routes. -/
def Used (cfg : CoordSetup) : SessionTable → Prop
| .sessionRoutes | .sessionLoad => cfg.dynamic = true
| _ => True

end SessionTable

/- The keys of a table; of the load table, its own ones. -/
def SessionTables.Has
    (t : SessionTables) :
    SessionTable → Nat → Prop
| .localCaches, s => s ∈ t.localCaches
| .sessionRoutes, s => t.sessionRoutes.get? s ≠ none
| .sessionLoad, s =>
    s ∈ t.taken ∧ t.registry.sessionLoad.get? s ≠ none
| .localBatchCaches, b => b ∈ t.localBatchCaches

end CircuitDllm

------------------------------------------------------------
-- Statements
------------------------------------------------------------

namespace CircuitDllm

/- What is raised. -/
inductive Fault where
  /- a WireError or an OSError -/
  | wireError
  | other
deriving DecidableEq, Repr

/- The statements that read or write a table, or raise. -/
inductive TableStmt where
  /- _run_local, _run_local_tree -/
  | runLocal (session : Nat)
  | runLocalBatch (batchId : Nat)
  /- _session_routes.get, and the test before acquire -/
  | findRoute (session : Nat) (first : Bool)
  | acquire (session : Nat)
  | pin (session : Nat) (route : List Node)
  /- the pops of _reset_sessions and _reset_batch -/
  | popLocal (session : Nat)
  | popRoute (session : Nat)
  | release (session : Nat)
  | popBatch (batchId : Nat)
  /- frames are written and read, or the KV is cut -/
  | wire
  /- _begin_session: `pc["sid"] is not None and ...` -/
  | testWarm (hit : Bool) (fresh : Nat)
  /- sid = pc["sid"] -/
  | takeWarm
  /- it returns this session -/
  | returnSid (session : Nat)
  /- _end_session: old = pc.get("sid") -/
  | readOld (session : Nat)
  /- pc["sid"] = sid, the last it does -/
  | record (session : Nat)
  /- _invalidate_prefix: old = pc.get("sid") -/
  | readInvalid
  /- pc["sid"] = None -/
  | clear

/- It writes the warm slot. -/
def TableStmt.writesWarm : TableStmt → Bool
| .record _ | .clear => true
| _ => false

/- It reads the warm slot after a test of it. -/
def TableStmt.readsAgain : TableStmt → Bool
| .takeWarm => true
| _ => false

/- The table a statement adds a key to, and the key. -/
def TableStmt.adds : TableStmt → Option (SessionTable × Nat)
| .runLocal s => some (.localCaches, s)
| .runLocalBatch b => some (.localBatchCaches, b)
| .findRoute s _ => some (.sessionLoad, s)
| .acquire s => some (.sessionLoad, s)
| .pin s _ => some (.sessionRoutes, s)
| _ => none

/- The statement that drops a key of a table. -/
def SessionTable.pop : SessionTable → Nat → TableStmt
| .localCaches, s => .popLocal s
| .sessionRoutes, s => .popRoute s
| .sessionLoad, s => .release s
| .localBatchCaches, b => .popBatch b

/- A call of the coordinator, a statement at a time. -/
abbrev TableBlock := Unwind.Block TableStmt Fault

/- The tables after a statement, and how it goes on. -/
abbrev TableResult :=
  SessionTables × Unwind.Next TableStmt Fault

namespace CoordSetup

variable (cfg : CoordSetup)

/- What _reset_sessions drops. -/
def dropSession (session : Nat) : List TableStmt :=
  .popLocal session ::
    if cfg.dynamic then
      [.popRoute session, .release session]
    else []

/- The holders are told as well. -/
def resetSessions (session : Nat) : List TableStmt :=
  cfg.dropSession session ++ [.wire]

end CoordSetup

variable (cfg : CoordSetup)

/-
  A statement, in a call whose connection set is `c`; the
  fault is what the wire raises, if it does.
-/
def TableStmt.run
    (c : ConnId)
    (fault : Option Fault)
    (t : SessionTables) :
    TableStmt → TableResult
| .runLocal s =>
    ({ t with localCaches := insert s t.localCaches }, .go [])
| .runLocalBatch b =>
    ({ t with
        localBatchCaches := insert b t.localBatchCaches },
      .go [])
| .findRoute s first =>
    (t,
      .go
        (if (t.sessionRoutes.get? s).isNone ∨ first then
          [.acquire s]
        else []))
| .acquire s =>
    match t.registry.acquireRoute s with
    | (.error _, r) =>
      ({ t with registry := r }, .raise .other)
    | (.ok route, r) =>
      ({ t with
          registry := r
          taken := insert s t.taken },
        .go [.pin s route])
| .pin s route =>
    ({ t with
        sessionRoutes := t.sessionRoutes.set s route },
      .go [])
| .popLocal s =>
    ({ t with localCaches := t.localCaches.erase s }, .go [])
| .popRoute s =>
    ({ t with sessionRoutes := t.sessionRoutes.erase s },
      .go [])
| .release s =>
    ({ t with registry := t.registry.releaseRoute s }, .go [])
| .popBatch b =>
    ({ t with
        localBatchCaches := t.localBatchCaches.erase b },
      .go [])
| .wire =>
    (t,
      match fault with
      | none => .go []
      | some f => .raise f)
| .testWarm hit fresh =>
    (t,
      .go
        (if (t.warm.get? c).isSome ∧ hit then [.takeWarm]
        else [.returnSid fresh]))
| .takeWarm =>
    match t.warm.get? c with
    | some s => (t, .go [.wire, .returnSid s])
    -- cleared since the test: None cannot be packed
    | none => (t, .raise .other)
| .returnSid _ => (t, .done)
| .readOld s =>
    match t.warm.get? c with
    | none => (t, .go [.record s])
    | some old =>
      (t,
        .go
          (if old = s then [.record s]
          else cfg.resetSessions old ++ [.record s]))
| .record s => ({ t with warm := t.warm.set c s }, .done)
| .readInvalid =>
    match t.warm.get? c with
    | none => (t, .go [.clear])
    -- what its _reset_sessions raises is passed over
    | some old => (t, .go (.clear :: cfg.dropSession old))
| .clear => ({ t with warm := t.warm.erase c }, .go [])

/- The session of a decode after a statement. -/
def TableStmt.sidAfter (sid : Option Nat) :
    TableStmt → Option Nat
| .returnSid s => some s
| _ => sid

namespace CoordSetup

/-
  _relay: a failing hop drops the pin.  The tables are not
  touched by mark_suspect.
-/
def relay (session : Nat) (first : Bool) : TableBlock where
  todo :=
    (if cfg.localStage then [.runLocal session] else []) ++
      (if cfg.dynamic then [.findRoute session first]
        else []) ++
      [.wire]
  clause
  | .wireError =>
      if cfg.dynamic then [.popRoute session] else []
  | .other => []

/- _relay_tree catches nothing. -/
def relayTree (session : Nat) : TableBlock where
  todo :=
    (if cfg.localStage then [.runLocal session] else []) ++
      (if cfg.dynamic then [.findRoute session false]
        else []) ++
      [.wire]

def relayBatch (batchId : Nat) : TableBlock where
  todo :=
    (if cfg.localStage then [.runLocalBatch batchId]
      else []) ++
      [.wire]

/-
  _begin_session.  `hit` says that the prompt shares enough
  of the warm prefix and the route of that is connected,
  `fresh` is the next id.
-/
def beginSession (hit : Bool) (fresh : Nat) : TableBlock :=
  if cfg.prefixCache then
    { todo := [.testWarm hit fresh]
      clause := fun _ => [.readInvalid, .returnSid fresh] }
  else
    { todo := [.returnSid fresh] }

def endSession (session : Nat) : TableBlock :=
  if cfg.prefixCache then
    { todo := [.wire, .readOld session]
      clause := fun _ =>
        .readInvalid :: cfg.resetSessions session }
  else
    { todo := cfg.resetSessions session }

end CoordSetup

end CircuitDllm

------------------------------------------------------------
-- Decodes
------------------------------------------------------------

namespace CircuitDllm

/-
  What a decode is: generate is generate_state too, and the
  resumed one generate_resume_state.  None keeps its session
  warm.
-/
inductive EntryPoint where
  | generate
  | generateStream
  | generateSpeculative
  | generateSpeculativeStream
  | generateTreeStream
  | generateResume
  | generateBatchStream
deriving DecidableEq, Repr

namespace EntryPoint

/- They relay through _relay_with_failover. -/
def failsOver : EntryPoint → Bool
| .generate | .generateStream | .generateResume => true
| _ => false

/- They keep the ids in one table, a batch in its own. -/
def IsBatch (e : EntryPoint) : Prop :=
  e = .generateBatchStream

instance (e : EntryPoint) : Decidable e.IsBatch :=
  inferInstanceAs (Decidable (e = .generateBatchStream))

end EntryPoint

/- The calls a decode makes in its try block. -/
inductive DecodeCall where
  | beginSession (hit : Bool) (fresh : Nat)
  | relay (first : Bool)
  /- the _reset_sessions of _reprefill -/
  | reset
  | relayTree
  | relayBatch
  /- _kv_truncate, _kv_tree_keep -/
  | control
deriving DecidableEq, Repr

/- A decode, and where it stands. -/
structure Decoding where
  entry : EntryPoint
  -- the session, or the batch, once there is one
  sid : Option Nat
  -- _active_conn() of the thread that runs it
  conn : ConnId
  -- it is in its finally block, or over
  leaving : Bool := false
  -- the call under way
  block : TableBlock := {}

namespace Decoding

variable (cfg : CoordSetup)

/-
  At its start; a speculative stream has yet to pick its
  session.
-/
def started
    (entry : EntryPoint)
    (id : Nat)
    (c : ConnId) :
    Decoding where
  entry := entry
  sid :=
    if entry = .generateSpeculativeStream then none
    else some id
  conn := c

/-
  The block of a call; none where the decode does not make
  it.  The values that it computes do not matter here, so
  that it may call what it can in any order.
-/
def blockOf (q : Decoding) : DecodeCall → Option TableBlock
| .beginSession hit fresh =>
    if q.entry = .generateSpeculativeStream ∧ q.sid = none then
      some (cfg.beginSession hit fresh)
    else none
| .relay first =>
    if q.entry.IsBatch then none
    else q.sid.map (fun s => cfg.relay s first)
| .reset =>
    if q.entry.failsOver then
      q.sid.map (fun s => { todo := cfg.resetSessions s })
    else none
| .relayTree =>
    if q.entry = .generateTreeStream then
      q.sid.map cfg.relayTree
    else none
| .relayBatch =>
    if q.entry.IsBatch then q.sid.map cfg.relayBatch
    else none
| .control =>
    if q.entry.IsBatch then none
    else q.sid.map (fun _ => { todo := [.wire] })

/- The finally block. -/
def cleanup (q : Decoding) : TableBlock :=
  match q.sid with
  | none => {}
  | some s =>
    match q.entry with
    | .generateBatchStream => { todo := [.popBatch s, .wire] }
    | .generateSpeculativeStream => cfg.endSession s
    | _ => { todo := cfg.resetSessions s }

/- After a statement of its call. -/
def after
    (q : Decoding)
    (fault : Option Fault)
    (t : SessionTables)
    (st : TableStmt) :
    Decoding :=
  { q with
    sid := st.sidAfter q.sid
    block :=
      q.block.advance (st.run cfg q.conn fault t).2 }

/- The decode is not over. -/
def InFlight (q : Decoding) : Prop :=
  q.leaving = false ∨ q.block.todo ≠ []

instance (q : Decoding) : Decidable q.InFlight :=
  decidable_of_iff
    (q.leaving = false ∨ q.block.todo.isEmpty = false)
    (by simp [InFlight])

/-
  It stands between reading the warm slot and writing it, in
  _end_session or _invalidate_prefix.
-/
def Updating (q : Decoding) : Prop :=
  ∃ st ∈ q.block.todo, st.writesWarm = true

/- Between the two reads of _begin_session. -/
def Reading (q : Decoding) : Prop :=
  ∃ st ∈ q.block.todo, st.readsAgain = true

instance (q : Decoding) : Decidable q.Updating :=
  inferInstanceAs
    (Decidable (∃ st ∈ q.block.todo, st.writesWarm = true))

instance (q : Decoding) : Decidable q.Reading :=
  inferInstanceAs
    (Decidable (∃ st ∈ q.block.todo, st.readsAgain = true))

/- Their uses of one warm slot overlap. -/
def Overlaps (q q' : Decoding) : Prop :=
  q.conn = q'.conn ∧
    ((q.Updating ∧ (q'.Updating ∨ q'.Reading)) ∨
      (q.Reading ∧ q'.Updating))

instance (q q' : Decoding) : Decidable (q.Overlaps q') :=
  inferInstanceAs
    (Decidable
      (q.conn = q'.conn ∧
        ((q.Updating ∧ (q'.Updating ∨ q'.Reading)) ∨
          (q.Reading ∧ q'.Updating))))

end Decoding

end CircuitDllm

------------------------------------------------------------
-- Coordinator
------------------------------------------------------------

namespace CircuitDllm

/- The tables, and the decodes there have been. -/
structure Coordinating where
  tables : SessionTables
  decodes : List Decoding := []

/- What can happen in the coordinator's process. -/
inductive CoordinatingEvent where
  /- with the next id, or one the caller gave -/
  | start (entry : EntryPoint) (id : Nat) (c : ConnId)
  | call (i : Nat) (what : DecodeCall)
  /- the next statement of a call -/
  | statement (i : Nat) (fault : Option Fault)
  /- a generator at a yield changes hands -/
  | resume (i : Nat) (c : ConnId)
  /- the end, EOS, an exception, or close at a yield -/
  | leave (i : Nat)
  /- an operation of the registry by somebody else -/
  | registry (op : RegistryOp)

namespace Coordinating

variable (cfg : CoordSetup)

/- A coordinator that has just started. -/
def new (r : Registry) : Coordinating :=
  { tables := { registry := r } }

/- One decode is replaced. -/
def put (w : Coordinating) (i : Nat) (q : Decoding) :
    Coordinating :=
  { w with decodes := w.decodes.set i q }

/- A statement of the i-th decode. -/
def statement
    (w : Coordinating)
    (i : Nat)
    (q : Decoding)
    (fault : Option Fault)
    (st : TableStmt) :
    Coordinating where
  tables := (st.run cfg q.conn fault w.tables).1
  decodes := w.decodes.set i (q.after cfg fault w.tables st)

/-
  The state after an event, the same where it cannot happen.
  A restart of the control plane is one of the coordinator,
  which is in its process.
-/
def step (w : Coordinating) : CoordinatingEvent → Coordinating
| .start entry id c =>
    { w with
      decodes := w.decodes ++ [.started entry id c] }
| .call i what =>
    match w.decodes[i]? with
    | none => w
    | some q =>
      if q.leaving ∨ q.block.todo ≠ [] then w
      else
        match q.blockOf cfg what with
        | none => w
        | some block => w.put i { q with block := block }
| .statement i fault =>
    match w.decodes[i]? with
    | none => w
    | some q =>
      match q.block.todo with
      | [] => w
      | st :: _ => w.statement cfg i q fault st
| .resume i c =>
    match w.decodes[i]? with
    | none => w
    | some q =>
      if q.leaving ∨ q.block.todo ≠ [] then w
      else w.put i { q with conn := c }
| .leave i =>
    match w.decodes[i]? with
    | none => w
    | some q =>
      if q.leaving ∨ q.block.todo ≠ [] then w
      else
        w.put i
          { q with
            leaving := true
            block := q.cleanup cfg }
| .registry op =>
    match op with
    | .acquireRoute s =>
      { w with
        tables :=
          { w.tables with
            registry := w.tables.registry.step cfg.registry op
            taken := w.tables.taken.erase s } }
    | .restart =>
      new (w.tables.registry.step cfg.registry op)
    | _ =>
      { w with
        tables :=
          { w.tables with
            registry :=
              w.tables.registry.step cfg.registry op } }

def run (w : Coordinating) (events : List CoordinatingEvent) :
    Coordinating :=
  events.foldl (step cfg) w

/- The events of a run, each with the state it met. -/
def trail (w : Coordinating) (events : List CoordinatingEvent) :
    List (Coordinating × CoordinatingEvent) :=
  History.trail (step cfg) w events

/- No two decodes overlap in their use of a warm slot. -/
def Exclusive (w : Coordinating) : Prop :=
  ∀ i j : Fin w.decodes.length,
    i ≠ j → ¬ (w.decodes.get i).Overlaps (w.decodes.get j)

instance (w : Coordinating) : Decidable w.Exclusive :=
  inferInstanceAs
    (Decidable
      (∀ i j : Fin w.decodes.length,
        i ≠ j →
          ¬ (w.decodes.get i).Overlaps (w.decodes.get j)))

/-
  With no decode in flight the tables hold warm sessions
  only, and no batches.
-/
def NoLeak (w : Coordinating) : Prop :=
  (∀ q ∈ w.decodes, ¬ q.InFlight) →
    (∀ s ∈ w.tables.localCaches, s ∈ w.tables.warm.values) ∧
      (∀ s ∈ w.tables.sessionRoutes.keys,
        s ∈ w.tables.warm.values) ∧
      (∀ s ∈ w.tables.registry.sessionLoad.keys,
        s ∈ w.tables.taken → s ∈ w.tables.warm.values) ∧
      w.tables.localBatchCaches = ∅

end Coordinating

end CircuitDllm

------------------------------------------------------------
-- One Statement
------------------------------------------------------------

namespace CircuitDllm

variable {cfg : CoordSetup} {T : SessionTable} {s : Nat}

namespace TableStmt

variable
  {c : ConnId} {fault : Option Fault} {t : SessionTables}

/- A key is there before, or the statement adds it. -/
theorem of_has_run
    {st : TableStmt}
    (hHas : (st.run cfg c fault t).1.Has T s) :
    t.Has T s ∨ st.adds = some (T, s) := by
  cases st with
  | runLocal s' =>
      cases T with
      | localCaches =>
          rcases Finset.mem_insert.mp hHas with rfl | hOld
          · exact Or.inr rfl
          · exact Or.inl hOld
      | _ => exact Or.inl hHas
  | runLocalBatch b =>
      cases T with
      | localBatchCaches =>
          rcases Finset.mem_insert.mp hHas with rfl | hOld
          · exact Or.inr rfl
          · exact Or.inl hOld
      | _ => exact Or.inl hHas
  | acquire s' =>
      by_cases hSame : s' = s
      · cases T with
        | sessionLoad => exact Or.inr (by rw [hSame]; rfl)
        | _ =>
            simp only [run] at hHas
            split at hHas <;> exact Or.inl hHas
      · have hKept :=
          t.registry.get?_acquireRoute_of_ne hSame
        simp only [run] at hHas
        split at hHas
        · rename_i e r hError
          rw [hError] at hKept
          cases T with
          | sessionLoad =>
              refine Or.inl ⟨hHas.1, ?_⟩
              exact hKept ▸ hHas.2
          | _ => exact Or.inl hHas
        · rename_i route r hRoute
          rw [hRoute] at hKept
          cases T with
          | sessionLoad =>
              rcases Finset.mem_insert.mp hHas.1 with
                hEq | hTaken
              · exact absurd hEq.symm hSame
              · exact Or.inl ⟨hTaken, hKept ▸ hHas.2⟩
          | _ => exact Or.inl hHas
  | pin s' route =>
      cases T with
      | sessionRoutes =>
          by_cases hSame : s' = s
          · exact Or.inr (by rw [hSame]; rfl)
          · simp only [run, SessionTables.Has,
              Dict.get?_set, hSame, if_false] at hHas
            exact Or.inl hHas
      | _ => exact Or.inl hHas
  | popLocal s' =>
      cases T with
      | localCaches =>
          exact Or.inl (Finset.mem_of_mem_erase hHas)
      | _ => exact Or.inl hHas
  | popRoute s' =>
      cases T with
      | sessionRoutes =>
          simp only [run, SessionTables.Has,
            Dict.get?_erase] at hHas
          split at hHas
          · exact absurd rfl hHas
          · exact Or.inl hHas
      | _ => exact Or.inl hHas
  | release s' =>
      cases T with
      | sessionLoad =>
          simp only [run, SessionTables.Has,
            Registry.releaseRoute, Dict.get?_erase] at hHas
          split at hHas
          · exact absurd rfl hHas.2
          · exact Or.inl hHas
      | _ => exact Or.inl hHas
  | popBatch b =>
      cases T with
      | localBatchCaches =>
          exact Or.inl (Finset.mem_of_mem_erase hHas)
      | _ => exact Or.inl hHas
  | takeWarm =>
      simp only [run] at hHas
      split at hHas <;> exact Or.inl hHas
  | readOld s' =>
      simp only [run] at hHas
      split at hHas <;> exact Or.inl hHas
  | readInvalid =>
      simp only [run] at hHas
      split at hHas <;> exact Or.inl hHas
  | _ => exact Or.inl (by cases T <;> exact hHas)

/- A key is gone after its pop. -/
theorem not_has_pop :
    ¬ ((T.pop s).run cfg c fault t).1.Has T s := by
  cases T with
  | localCaches => exact Finset.notMem_erase s _
  | sessionRoutes =>
      intro hHas
      simp [SessionTable.pop, run, SessionTables.Has,
        Dict.get?_erase] at hHas
  | sessionLoad =>
      intro hHas
      simp [SessionTable.pop, run, SessionTables.Has,
        Registry.releaseRoute, Dict.get?_erase] at hHas
  | localBatchCaches => exact Finset.notMem_erase s _

end TableStmt

end CircuitDllm

------------------------------------------------------------
-- What Is Owed
------------------------------------------------------------

namespace CircuitDllm

variable {cfg : CoordSetup} {T : SessionTable} {s : Nat}

namespace TableStmt

/- Nothing of its call comes after what it does. -/
def Ends : TableStmt → Prop
| .testWarm _ _ | .takeWarm | .returnSid _ => True
| .readOld _ | .record _ => True
| _ => False

/- It, or what it puts first, may raise. -/
def Raises : TableStmt → Prop
| .findRoute _ _ | .acquire _ | .wire => True
| .testWarm _ _ | .takeWarm | .readOld _ => True
| _ => False

/- It belongs to _begin_session. -/
def Begins : TableStmt → Prop
| .testWarm _ _ | .takeWarm | .returnSid _ => True
| _ => False

/- It belongs to the end of _end_session, or clears. -/
def Updates : TableStmt → Prop
| .readOld _ | .record _ | .clear => True
| _ => False

/- It writes something else than the session. -/
def Rewrites (s : Nat) : TableStmt → Prop
| .record s' => s' ≠ s
| .clear => True
| _ => False

theorem updates
    {s : Nat}
    {st : TableStmt}
    (hRewrites : st.Rewrites s) :
    st.Updates := by
  cases st with
  | record s' => exact trivial
  | clear => exact trivial
  | _ => exact hRewrites.elim

/- To drop a session, or to record it as warm. -/
def duty (T : SessionTable) (s : Nat) :
    Unwind.Duty TableStmt where
  pays st :=
    st = T.pop s ∨
      (T ≠ .localBatchCaches ∧
        (st = .readOld s ∨ st = .record s))
  ends := Ends
  raises := Raises

/- What a statement puts first, with `held` as warm. -/
inductive Puts (cfg : CoordSetup) (held : Option Nat) :
    TableStmt → List TableStmt → Prop where
  | nothing
      (st : TableStmt)
      (hOn : ¬ st.Ends)
      (hNot : st ≠ .readInvalid) :
      Puts cfg held st []
  | acquire (s : Nat) (first : Bool) :
      Puts cfg held (.findRoute s first) [.acquire s]
  | pin (s : Nat) (route : List Node) :
      Puts cfg held (.acquire s) [.pin s route]
  | take (hit : Bool) (fresh : Nat) :
      Puts cfg held (.testWarm hit fresh) [.takeWarm]
  | miss (hit : Bool) (fresh : Nat) :
      Puts cfg held (.testWarm hit fresh) [.returnSid fresh]
  | reuse (s : Nat) :
      Puts cfg held .takeWarm [.wire, .returnSid s]
  | keep (s : Nat) (hHeld : ∀ old, held = some old → old = s) :
      Puts cfg held (.readOld s) [.record s]
  | replace (s old : Nat) (hHeld : held = some old) :
      Puts cfg held (.readOld s)
        (cfg.resetSessions old ++ [.record s])
  | clear (hHeld : held = none) :
      Puts cfg held .readInvalid [.clear]
  | drop (old : Nat) (hHeld : held = some old) :
      Puts cfg held .readInvalid
        (.clear :: cfg.dropSession old)

variable
  {c : ConnId} {fault : Option Fault} {t : SessionTables}

theorem puts_of_run
    {st : TableStmt}
    {first : List TableStmt}
    (hGo : (st.run cfg c fault t).2 = .go first) :
    Puts cfg (t.warm.get? c) st first := by
  cases st with
  | findRoute s first' =>
      simp only [run, Unwind.Next.go.injEq] at hGo
      rw [← hGo]
      split
      · exact .acquire s first'
      · exact .nothing _ not_false (by simp)
  | acquire s =>
      simp only [run] at hGo
      split at hGo
      · cases hGo
      · cases hGo
        exact .pin s _
  | wire =>
      simp only [run] at hGo
      split at hGo
      · cases hGo
        exact .nothing _ not_false (by simp)
      · cases hGo
  | testWarm hit fresh =>
      simp only [run, Unwind.Next.go.injEq] at hGo
      rw [← hGo]
      split
      · exact .take hit fresh
      · exact .miss hit fresh
  | takeWarm =>
      simp only [run] at hGo
      split at hGo
      · cases hGo
        exact .reuse _
      · cases hGo
  | readOld s =>
      simp only [run] at hGo
      split at hGo
      next hNone =>
        cases hGo
        refine .keep s fun old hOld => ?_
        exact absurd (hNone.symm.trans hOld)
          (Option.some_ne_none old).symm
      next old hOld =>
        cases hGo
        split
        next hEq =>
          refine .keep s fun old' hOld' => ?_
          rw [hOld] at hOld'
          exact (Option.some.inj hOld').symm.trans hEq
        next => exact .replace s old hOld
  | readInvalid =>
      simp only [run] at hGo
      split at hGo
      next hNone =>
        cases hGo
        exact .clear hNone
      next old hOld =>
        cases hGo
        exact .drop old hOld
  | returnSid s => cases hGo
  | record s => cases hGo
  | _ =>
      cases hGo
      exact .nothing _ not_false (by simp)

/- Only these end a call. -/
theorem of_done
    {st : TableStmt}
    (hDone : (st.run cfg c fault t).2 = .done) :
    (∃ s, st = .returnSid s) ∨ ∃ s, st = .record s := by
  cases st with
  | returnSid s => exact Or.inl ⟨s, rfl⟩
  | record s => exact Or.inr ⟨s, rfl⟩
  | acquire s =>
      simp only [run] at hDone
      split at hDone <;> cases hDone
  | wire =>
      simp only [run] at hDone
      split at hDone <;> cases hDone
  | takeWarm =>
      simp only [run] at hDone
      split at hDone <;> cases hDone
  | readOld s =>
      simp only [run] at hDone
      split at hDone <;> cases hDone
  | readInvalid =>
      simp only [run] at hDone
      split at hDone <;> cases hDone
  | _ => cases hDone

theorem of_raise
    {st : TableStmt}
    {f : Fault}
    (hRaise : (st.run cfg c fault t).2 = .raise f) :
    st.Raises := by
  cases st with
  | acquire s => exact trivial
  | wire => exact trivial
  | takeWarm => exact trivial
  | readOld s => exact trivial
  | readInvalid =>
      simp only [run] at hRaise
      split at hRaise <;> cases hRaise
  | _ => cases hRaise

/- What _reset_sessions puts on its way are pops. -/
theorem of_mem_dropSession
    {st : TableStmt}
    (hMem : st ∈ cfg.dropSession s) :
    ∃ T : SessionTable, T.Used cfg ∧
      T ≠ .localBatchCaches ∧ st = T.pop s := by
  rcases List.mem_cons.mp hMem with rfl | hRest
  · exact ⟨.localCaches, trivial, by simp, rfl⟩
  · split at hRest
    next hDynamic =>
      simp only [List.mem_cons, List.not_mem_nil, or_false]
        at hRest
      rcases hRest with rfl | rfl
      · exact ⟨.sessionRoutes, hDynamic, by simp, rfl⟩
      · exact ⟨.sessionLoad, hDynamic, by simp, rfl⟩
    next => exact absurd hRest List.not_mem_nil

/- It drops the session from every table in use. -/
theorem pop_mem_dropSession
    (hUsed : T.Used cfg)
    (hSession : T ≠ .localBatchCaches) :
    T.pop s ∈ cfg.dropSession s := by
  cases T with
  | localCaches => exact List.mem_cons_self
  | sessionRoutes =>
      have hDynamic : cfg.dynamic = true := hUsed
      simp [CoordSetup.dropSession, hDynamic,
        SessionTable.pop]
  | sessionLoad =>
      have hDynamic : cfg.dynamic = true := hUsed
      simp [CoordSetup.dropSession, hDynamic,
        SessionTable.pop]
  | localBatchCaches => exact absurd rfl hSession

end TableStmt

end CircuitDllm

------------------------------------------------------------
-- Decodes and What They Owe
------------------------------------------------------------

namespace CircuitDllm

variable {cfg : CoordSetup} {T : SessionTable} {s : Nat}

theorem pays_pop : (TableStmt.duty T s).pays (T.pop s) :=
  Or.inl rfl

theorem quiet_pop
    (T' : SessionTable)
    (s' : Nat) :
    ¬ (TableStmt.duty T s).ends (T'.pop s') ∧
      ¬ (TableStmt.duty T s).raises (T'.pop s') := by
  cases T' <;> exact ⟨not_false, not_false⟩

/- What drops a session does so before anything raises. -/
theorem in_dropSession
    {caught : Prop}
    (rest : List TableStmt)
    (hUsed : T.Used cfg)
    (hSession : T ≠ .localBatchCaches) :
    (TableStmt.duty T s).In caught
      (cfg.dropSession s ++ rest) := by
  apply Unwind.Duty.in_of_mem
    (TableStmt.pop_mem_dropSession hUsed hSession) pays_pop
  intro st hMem
  rcases TableStmt.of_mem_dropSession hMem with
    ⟨T', -, -, rfl⟩
  exact quiet_pop T' s

namespace Decoding

/- It is in its try block, with this key for the table. -/
def Body (q : Decoding) (T : SessionTable) (s : Nat) : Prop :=
  q.leaving = false ∧ q.sid = some s ∧
    (T = .localBatchCaches ↔ q.entry.IsBatch)

/- It will drop the key, or record the session as warm. -/
def Owes (q : Decoding) (T : SessionTable) (s : Nat) : Prop :=
  q.Body T s ∨ q.block.Due (TableStmt.duty T s)

/- It will make the warm slot something else than `s`. -/
def Rewrites (q : Decoding) (s : Nat) : Prop :=
  ∃ st ∈ q.block.todo, st.Rewrites s

/- A statement is one of the decode's own. -/
def Fits
    (cfg : CoordSetup)
    (q : Decoding)
    (st : TableStmt) :
    Prop :=
  (∀ T s, st.adds = some (T, s) →
      T.Used cfg ∧ q.Body T s) ∧
    (st.Begins → q.leaving = false ∧ q.sid = none)

/- The statements of a decode. -/
structure Ok (cfg : CoordSetup) (q : Decoding) : Prop where
  fits : q.block.All (q.Fits cfg)
  -- its except clauses leave the warm slot, or empty it
  quiet : ∀ f, ∀ st ∈ q.block.clause f, ¬ st.Updates
  -- what it is about to record is dropped if it fails to
  caught :
    ∀ s, (.readOld s ∈ q.block.todo ∨
        .record s ∈ q.block.todo) →
      ∀ T : SessionTable, T.Used cfg →
        T ≠ .localBatchCaches →
          q.block.Caught (TableStmt.duty T s)

/- And it is not about to write a warm slot. -/
structure Begun (cfg : CoordSetup) (q : Decoding) : Prop
    extends Ok cfg q where
  still : ∀ s, ¬ q.Rewrites s

end Decoding

end CircuitDllm

------------------------------------------------------------
-- The Blocks of a Decode
------------------------------------------------------------

namespace CircuitDllm

variable
  {cfg : CoordSetup} {q : Decoding} {T : SessionTable}
  {s : Nat}

namespace Decoding

/- A statement that adds no key and begins no session. -/
theorem fits_of_plain
    {st : TableStmt}
    (hAdds : st.adds = none)
    (hBegins : ¬ st.Begins) :
    q.Fits cfg st := by
  refine ⟨fun T s hSome => ?_, fun h => absurd h hBegins⟩
  rw [hAdds] at hSome
  cases hSome

theorem fits_pop (T : SessionTable) (s : Nat) :
    q.Fits cfg (T.pop s) := by
  cases T <;> exact fits_of_plain rfl not_false

theorem fits_wire : q.Fits cfg .wire :=
  fits_of_plain rfl not_false

theorem fits_of_mem_dropSession
    {st : TableStmt}
    (hMem : st ∈ cfg.dropSession s) :
    q.Fits cfg st := by
  rcases TableStmt.of_mem_dropSession hMem with
    ⟨T, -, -, rfl⟩
  exact fits_pop T s

theorem fits_of_mem_resetSessions
    {st : TableStmt}
    (hMem : st ∈ cfg.resetSessions s) :
    q.Fits cfg st := by
  rcases List.mem_append.mp hMem with hDrop | hWire
  · exact fits_of_mem_dropSession hDrop
  · rw [List.mem_singleton.mp hWire]
    exact fits_wire

/- What a fitting statement puts first fits as well. -/
theorem Fits.of_puts
    {held : Option Nat}
    {st : TableStmt}
    {first : List TableStmt}
    (hFits : q.Fits cfg st)
    (hPuts : st.Puts cfg held first) :
    ∀ st' ∈ first, q.Fits cfg st' := by
  intro st' hMem
  cases hPuts with
  | nothing hOn hNot => exact absurd hMem List.not_mem_nil
  | acquire s first =>
      rw [List.mem_singleton.mp hMem]
      exact ⟨fun T s' hAdds => hFits.1 T s' hAdds, False.elim⟩
  | pin s route =>
      rw [List.mem_singleton.mp hMem]
      refine ⟨fun T s' hAdds => ?_, False.elim⟩
      cases hAdds
      rcases hFits.1 .sessionLoad s rfl with
        ⟨hUsed, hLeaving, hSid, hKind⟩
      exact ⟨hUsed, hLeaving, hSid, by simpa using hKind⟩
  | take hit fresh =>
      rw [List.mem_singleton.mp hMem]
      refine ⟨fun T s' hAdds => ?_, hFits.2⟩
      cases hAdds
  | miss hit fresh =>
      rw [List.mem_singleton.mp hMem]
      refine ⟨fun T s' hAdds => ?_, hFits.2⟩
      cases hAdds
  | reuse s =>
      rcases List.mem_cons.mp hMem with rfl | hLast
      · exact fits_wire
      · rw [List.mem_singleton.mp hLast]
        refine ⟨fun T s' hAdds => ?_, hFits.2⟩
        cases hAdds
  | keep s hHeld =>
      rw [List.mem_singleton.mp hMem]
      exact fits_of_plain rfl not_false
  | replace s old hHeld =>
      rcases List.mem_append.mp hMem with hReset | hLast
      · exact fits_of_mem_resetSessions hReset
      · rw [List.mem_singleton.mp hLast]
        exact fits_of_plain rfl not_false
  | clear hHeld =>
      rw [List.mem_singleton.mp hMem]
      exact fits_of_plain rfl not_false
  | drop old hHeld =>
      rcases List.mem_cons.mp hMem with rfl | hDrop
      · exact fits_of_plain rfl not_false
      · exact fits_of_mem_dropSession hDrop

end Decoding

end CircuitDllm

------------------------------------------------------------
-- Calls
------------------------------------------------------------

namespace CircuitDllm

variable
  {cfg : CoordSetup} {q : Decoding} {T : SessionTable}
  {s : Nat}

namespace Decoding

/- A try block works on the keys of its session. -/
theorem body_of_session
    (hTry : q.leaving = false)
    (hSid : q.sid = some s)
    (hSession : ¬ q.entry.IsBatch)
    (hTable : T ≠ .localBatchCaches) :
    q.Body T s :=
  ⟨hTry, hSid,
    iff_of_false hTable hSession⟩

/- What _relay and _relay_tree have in common. -/
theorem fits_of_mem_relay
    (hTry : q.leaving = false)
    (hSid : q.sid = some s)
    (hSession : ¬ q.entry.IsBatch)
    {first : Bool} :
    ∀ st ∈ (cfg.relay s first).todo, q.Fits cfg st := by
  intro st hMem
  rcases List.mem_append.mp hMem with hHead | hWire
  · rcases List.mem_append.mp hHead with hLocal | hRoute
    · split at hLocal
      · rw [List.mem_singleton.mp hLocal]
        refine ⟨fun T s' hAdds => ?_, False.elim⟩
        cases hAdds
        exact ⟨trivial,
          body_of_session hTry hSid hSession (by simp)⟩
      · exact absurd hLocal List.not_mem_nil
    · split at hRoute
      next hDynamic =>
        rw [List.mem_singleton.mp hRoute]
        refine ⟨fun T s' hAdds => ?_, False.elim⟩
        cases hAdds
        exact ⟨hDynamic,
          body_of_session hTry hSid hSession (by simp)⟩
      next => exact absurd hRoute List.not_mem_nil
  · rw [List.mem_singleton.mp hWire]
    exact fits_wire

/- A call fits if its statements do, and updates nothing. -/
theorem begun_of_calm
    {b : TableBlock}
    (hTodo : ∀ st ∈ b.todo, q.Fits cfg st ∧ ¬ st.Updates)
    (hClause :
      ∀ f, ∀ st ∈ b.clause f, q.Fits cfg st ∧ ¬ st.Updates) :
    Begun cfg { q with block := b } where
  fits :=
    ⟨fun st hMem => (hTodo st hMem).1,
      fun f st hMem => (hClause f st hMem).1⟩
  quiet f st hMem := (hClause f st hMem).2
  caught s hMem := by
    rcases hMem with hOld | hRecord
    · exact absurd trivial (hTodo _ hOld).2
    · exact absurd trivial (hTodo _ hRecord).2
  still s := by
    rintro ⟨st, hMem, hRewrites⟩
    exact (hTodo st hMem).2 (TableStmt.updates hRewrites)

/- No call is under way. -/
theorem begun_idle (q : Decoding) :
    Begun cfg { q with block := {} } := by
  apply begun_of_calm
  · intro st hMem
    exact absurd hMem List.not_mem_nil
  · intro f st hMem
    exact absurd hMem List.not_mem_nil

theorem not_updates_pop (T : SessionTable) (s : Nat) :
    ¬ (T.pop s).Updates := by
  cases T <;> exact not_false

theorem not_updates_of_mem_resetSessions
    {st : TableStmt}
    (hMem : st ∈ cfg.resetSessions s) :
    ¬ st.Updates := by
  rcases List.mem_append.mp hMem with hDrop | hWire
  · rcases TableStmt.of_mem_dropSession hDrop with
      ⟨T, -, -, rfl⟩
    exact not_updates_pop T s
  · rw [List.mem_singleton.mp hWire]
    exact not_false

/- Only what adds a key or cuts a KV is in a relay. -/
theorem not_updates_of_mem_relay
    {first : Bool}
    {st : TableStmt}
    (hMem : st ∈ (cfg.relay s first).todo) :
    ¬ st.Updates := by
  rcases List.mem_append.mp hMem with hHead | hWire
  · rcases List.mem_append.mp hHead with hLocal | hRoute
    · split at hLocal
      · rw [List.mem_singleton.mp hLocal]
        exact not_false
      · exact absurd hLocal List.not_mem_nil
    · split at hRoute
      · rw [List.mem_singleton.mp hRoute]
        exact not_false
      · exact absurd hRoute List.not_mem_nil
  · rw [List.mem_singleton.mp hWire]
    exact not_false

theorem begun_beginSession
    (hTry : q.leaving = false)
    (hSid : q.sid = none)
    (hit : Bool)
    (fresh : Nat) :
    Begun cfg { q with block := cfg.beginSession hit fresh } := by
  have hReturn : q.Fits cfg (.returnSid fresh) := by
    refine ⟨fun T s' hAdds => ?_, fun _ => ⟨hTry, hSid⟩⟩
    cases hAdds
  unfold CoordSetup.beginSession
  split
  · apply begun_of_calm
    · intro st hMem
      rw [List.mem_singleton.mp hMem]
      refine
        ⟨⟨fun T s' hAdds => ?_, fun _ => ⟨hTry, hSid⟩⟩,
          not_false⟩
      cases hAdds
    · intro f st hMem
      rcases List.mem_cons.mp hMem with rfl | hLast
      · exact ⟨fits_of_plain rfl not_false, not_false⟩
      · rw [List.mem_singleton.mp hLast]
        exact ⟨hReturn, not_false⟩
  · apply begun_of_calm
    · intro st hMem
      rw [List.mem_singleton.mp hMem]
      exact ⟨hReturn, not_false⟩
    · intro f st hMem
      exact absurd hMem List.not_mem_nil

theorem begun_relay
    (hTry : q.leaving = false)
    (hSid : q.sid = some s)
    (hSession : ¬ q.entry.IsBatch)
    (first : Bool) :
    Begun cfg { q with block := cfg.relay s first } := by
  apply begun_of_calm
  · intro st hMem
    exact
      ⟨fits_of_mem_relay hTry hSid hSession st hMem,
        not_updates_of_mem_relay hMem⟩
  · intro f st hMem
    cases f with
    | wireError =>
        simp only [CoordSetup.relay] at hMem
        split at hMem
        · rw [List.mem_singleton.mp hMem]
          exact ⟨fits_of_plain rfl not_false, not_false⟩
        · exact absurd hMem List.not_mem_nil
    | other => exact absurd hMem List.not_mem_nil

theorem begun_relayTree
    (hTry : q.leaving = false)
    (hSid : q.sid = some s)
    (hSession : ¬ q.entry.IsBatch) :
    Begun cfg { q with block := cfg.relayTree s } := by
  apply begun_of_calm
  · intro st hMem
    have hRelay : st ∈ (cfg.relay s false).todo := hMem
    exact
      ⟨fits_of_mem_relay hTry hSid hSession st hRelay,
        not_updates_of_mem_relay hRelay⟩
  · intro f st hMem
    exact absurd hMem List.not_mem_nil

theorem begun_relayBatch
    (hTry : q.leaving = false)
    (hSid : q.sid = some s)
    (hBatch : q.entry.IsBatch) :
    Begun cfg { q with block := cfg.relayBatch s } := by
  apply begun_of_calm
  · intro st hMem
    rcases List.mem_append.mp hMem with hLocal | hWire
    · split at hLocal
      · rw [List.mem_singleton.mp hLocal]
        refine ⟨⟨fun T s' hAdds => ?_, False.elim⟩, not_false⟩
        cases hAdds
        exact ⟨trivial, hTry, hSid, iff_of_true rfl hBatch⟩
      · exact absurd hLocal List.not_mem_nil
    · rw [List.mem_singleton.mp hWire]
      exact ⟨fits_wire, not_false⟩
  · intro f st hMem
    exact absurd hMem List.not_mem_nil

/- Statements that drop, then tell the holders. -/
theorem begun_resetSessions (q : Decoding) (s : Nat) :
    Begun cfg
      { q with block := { todo := cfg.resetSessions s } } := by
  apply begun_of_calm
  · intro st hMem
    exact
      ⟨fits_of_mem_resetSessions hMem,
        not_updates_of_mem_resetSessions hMem⟩
  · intro f st hMem
    exact absurd hMem List.not_mem_nil

/- Every call of a try block fits, and updates nothing. -/
theorem begun_of_blockOf
    {what : DecodeCall}
    {b : TableBlock}
    (hBlock : q.blockOf cfg what = some b)
    (hTry : q.leaving = false) :
    Begun cfg { q with block := b } := by
  cases what with
  | beginSession hit fresh =>
      simp only [blockOf, Option.ite_none_right_eq_some]
        at hBlock
      rcases hBlock with ⟨⟨-, hSid⟩, hEq⟩
      cases hEq
      exact begun_beginSession hTry hSid hit fresh
  | relay first =>
      simp only [blockOf, Option.ite_none_left_eq_some,
        Option.map_eq_some_iff] at hBlock
      rcases hBlock with ⟨hSession, s, hSid, rfl⟩
      exact begun_relay hTry hSid hSession first
  | reset =>
      simp only [blockOf, Option.ite_none_right_eq_some,
        Option.map_eq_some_iff] at hBlock
      rcases hBlock with ⟨-, s, -, rfl⟩
      exact begun_resetSessions q s
  | relayTree =>
      simp only [blockOf, Option.ite_none_right_eq_some,
        Option.map_eq_some_iff] at hBlock
      rcases hBlock with ⟨hTree, s, hSid, rfl⟩
      apply begun_relayTree hTry hSid
      simp [EntryPoint.IsBatch, hTree]
  | relayBatch =>
      simp only [blockOf, Option.ite_none_right_eq_some,
        Option.map_eq_some_iff] at hBlock
      rcases hBlock with ⟨hBatch, s, hSid, rfl⟩
      exact begun_relayBatch hTry hSid hBatch
  | control =>
      simp only [blockOf, Option.ite_none_left_eq_some,
        Option.map_eq_some_iff] at hBlock
      rcases hBlock with ⟨-, s, -, rfl⟩
      apply begun_of_calm
      · intro st hMem
        rw [List.mem_singleton.mp hMem]
        exact ⟨fits_wire, not_false⟩
      · intro f st hMem
        exact absurd hMem List.not_mem_nil

end Decoding

end CircuitDllm

------------------------------------------------------------
-- Finally Blocks
------------------------------------------------------------

namespace CircuitDllm

variable
  {cfg : CoordSetup} {q : Decoding} {T : SessionTable}
  {s : Nat}

namespace Decoding

/- The except clause of _end_session drops the session. -/
theorem in_endClause
    (hUsed : T.Used cfg)
    (hSession : T ≠ .localBatchCaches) :
    (TableStmt.duty T s).In False
      (.readInvalid :: cfg.resetSessions s) :=
  Or.inr
    ⟨not_false, False.elim,
      in_dropSession [.wire] hUsed hSession⟩

theorem begun_endSession (q : Decoding) (s : Nat) :
    Begun cfg { q with block := cfg.endSession s } := by
  unfold CoordSetup.endSession
  split
  · refine
      { fits := ⟨fun st hMem => ?_, fun f st hMem => ?_⟩
        quiet := fun f st hMem => ?_
        caught := fun s' hMem T hUsed hSession f => ?_
        still := ?_ }
    · rcases List.mem_cons.mp hMem with rfl | hLast
      · exact fits_wire
      · rw [List.mem_singleton.mp hLast]
        exact fits_of_plain rfl not_false
    · rcases List.mem_cons.mp hMem with rfl | hReset
      · exact fits_of_plain rfl not_false
      · exact fits_of_mem_resetSessions hReset
    · rcases List.mem_cons.mp hMem with rfl | hReset
      · exact not_false
      · exact not_updates_of_mem_resetSessions hReset
    · have hEq : s' = s := by simpa using hMem
      rw [hEq]
      exact in_endClause hUsed hSession
    · rintro s' ⟨st, hMem, hRewrites⟩
      rcases List.mem_cons.mp hMem with rfl | hLast
      · exact hRewrites
      · rw [List.mem_singleton.mp hLast] at hRewrites
        exact hRewrites
  · exact begun_resetSessions q s

theorem due_endSession
    (hUsed : T.Used cfg)
    (hSession : T ≠ .localBatchCaches) :
    (cfg.endSession s).Due (TableStmt.duty T s) := by
  unfold CoordSetup.endSession
  split
  · refine Or.inr ⟨not_false, fun _ f => ?_, Or.inl ?_⟩
    · exact in_endClause hUsed hSession
    · exact Or.inr ⟨hSession, Or.inl rfl⟩
  · apply Unwind.Block.due_of_in
    exact in_dropSession [.wire] hUsed hSession

theorem begun_cleanup (q : Decoding) :
    Begun cfg
      { q with leaving := true, block := q.cleanup cfg } := by
  unfold cleanup
  split
  · exact begun_idle { q with leaving := true }
  · rename_i s hSid
    split
    · apply begun_of_calm (q := { q with leaving := true })
      · intro st hMem
        rcases List.mem_cons.mp hMem with rfl | hLast
        · exact ⟨fits_of_plain rfl not_false, not_false⟩
        · rw [List.mem_singleton.mp hLast]
          exact ⟨fits_wire, not_false⟩
      · intro f st hMem
        exact absurd hMem List.not_mem_nil
    · exact begun_endSession { q with leaving := true } s
    · exact begun_resetSessions { q with leaving := true } s

/- The finally block owes all that the try block held. -/
theorem owes_cleanup
    (hBody : q.Body T s)
    (hUsed : T.Used cfg) :
    Owes { q with leaving := true, block := q.cleanup cfg }
      T s := by
  rcases hBody with ⟨-, hSid, hKind⟩
  refine Or.inr ?_
  simp only [cleanup, hSid]
  split
  next hEntry =>
    have hBatch : T = .localBatchCaches := hKind.mpr hEntry
    rw [hBatch]
    exact Or.inl pays_pop
  next hEntry =>
    have hSession : T ≠ .localBatchCaches := fun hBatch => by
      have hIs := hKind.mp hBatch
      simp [EntryPoint.IsBatch, hEntry] at hIs
    exact due_endSession hUsed hSession
  next hNotBatch hNotStream =>
    have hSession : T ≠ .localBatchCaches := fun hBatch =>
      hNotBatch (hKind.mp hBatch)
    apply Unwind.Block.due_of_in
    exact in_dropSession [.wire] hUsed hSession

end Decoding

end CircuitDllm

------------------------------------------------------------
-- Statements Keep Decodes Sound
------------------------------------------------------------

namespace CircuitDllm

variable
  {cfg : CoordSetup} {q : Decoding} {T : SessionTable}
  {s : Nat} {c : ConnId} {fault : Option Fault}
  {t : SessionTables} {st : TableStmt}
  {rest : List TableStmt}

namespace TableStmt

/- What it puts first ends the call, or raises, as it does. -/
theorem Puts.closed
    {held : Option Nat}
    {first : List TableStmt}
    (hPuts : st.Puts cfg held first) :
    ∀ st' ∈ first,
      (st'.Ends → st.Ends) ∧ (st'.Raises → st.Raises) := by
  intro st' hMem
  cases hPuts with
  | nothing hOn hNot => exact absurd hMem List.not_mem_nil
  | acquire s first =>
      rw [List.mem_singleton.mp hMem]
      exact ⟨id, id⟩
  | pin s route =>
      rw [List.mem_singleton.mp hMem]
      exact ⟨id, False.elim⟩
  | take hit fresh =>
      rw [List.mem_singleton.mp hMem]
      exact ⟨id, id⟩
  | miss hit fresh =>
      rw [List.mem_singleton.mp hMem]
      exact ⟨id, False.elim⟩
  | reuse s => exact ⟨fun _ => trivial, fun _ => trivial⟩
  | keep s hHeld => exact ⟨fun _ => trivial, fun _ => trivial⟩
  | replace s old hHeld =>
      exact ⟨fun _ => trivial, fun _ => trivial⟩
  | clear hHeld =>
      rw [List.mem_singleton.mp hMem]
      exact ⟨id, id⟩
  | drop old hHeld =>
      rcases List.mem_cons.mp hMem with rfl | hDrop
      · exact ⟨id, id⟩
      · rcases of_mem_dropSession hDrop with ⟨T, -, -, rfl⟩
        rcases quiet_pop (T := T) (s := old) T old with
          ⟨hEnds, hRaises⟩
        exact ⟨fun h => absurd h hEnds,
          fun h => absurd h hRaises⟩

/- Only _end_session goes on to record a session. -/
theorem Puts.of_record
    {held : Option Nat}
    {first : List TableStmt}
    (hPuts : st.Puts cfg held first)
    (hMem : .record s ∈ first) :
    st = .readOld s := by
  cases hPuts with
  | keep s' hHeld =>
      cases List.mem_singleton.mp hMem
      rfl
  | replace s' old hHeld =>
      rcases List.mem_append.mp hMem with hReset | hLast
      · exact absurd trivial
          (Decoding.not_updates_of_mem_resetSessions hReset)
      · cases List.mem_singleton.mp hLast
        rfl
  | drop old hHeld =>
      have hDrop : .record s ∈ cfg.dropSession old := by
        simpa using hMem
      rcases of_mem_dropSession hDrop with ⟨T, -, -, hEq⟩
      cases T <;> cases hEq
  | _ => simp at hMem

theorem Puts.not_readOld
    {held : Option Nat}
    {first : List TableStmt}
    (hPuts : st.Puts cfg held first) :
    .readOld s ∉ first := by
  intro hMem
  cases hPuts with
  | replace s' old hHeld =>
      rcases List.mem_append.mp hMem with hReset | hLast
      · exact absurd trivial
          (Decoding.not_updates_of_mem_resetSessions hReset)
      · cases List.mem_singleton.mp hLast
  | drop old hHeld =>
      have hDrop : .readOld s ∈ cfg.dropSession old := by
        simpa using hMem
      rcases of_mem_dropSession hDrop with ⟨T, -, -, hEq⟩
      cases T <;> cases hEq
  | _ => simp at hMem

end TableStmt

namespace Decoding

/- A call that goes on has its session as before. -/
theorem sidAfter_of_not_done
    (hOn : (st.run cfg c fault t).2 ≠ .done) :
    st.sidAfter q.sid = q.sid := by
  cases st with
  | returnSid s => exact absurd rfl hOn
  | _ => rfl

theorem Ok.after
    (hOk : q.Ok cfg)
    (hTodo : q.block.todo = st :: rest) :
    (q.after cfg fault t st).Ok cfg := by
  have hFits : q.Fits cfg st :=
    hOk.fits.1 st (by simp [hTodo])
  unfold Decoding.after
  cases hNext : (st.run cfg q.conn fault t).2 with
  | done =>
      exact
        (begun_idle { q with sid := st.sidAfter q.sid }).toOk
  | go first =>
      have hPuts := TableStmt.puts_of_run hNext
      have hOn : (st.run cfg q.conn fault t).2 ≠ .done := by
        simp [hNext]
      rw [sidAfter_of_not_done hOn]
      refine
        { fits := ?_
          quiet := hOk.quiet
          caught := fun s hMem => hOk.caught s ?_ }
      · apply Unwind.Block.all_advance hOk.fits
        intro first' hEq
        cases hEq
        exact hFits.of_puts hPuts
      · simp only [Unwind.Block.advance, hTodo,
          List.tail_cons, List.mem_append] at hMem
        rw [hTodo]
        rcases hMem with (hOld | hOld) | hRecord | hRecord
        · exact absurd hOld hPuts.not_readOld
        · exact Or.inl (List.mem_cons_of_mem st hOld)
        · rw [hPuts.of_record hRecord]
          exact Or.inl List.mem_cons_self
        · exact Or.inr (List.mem_cons_of_mem st hRecord)
  | raise f =>
      have hOn : (st.run cfg q.conn fault t).2 ≠ .done := by
        simp [hNext]
      rw [sidAfter_of_not_done hOn]
      refine
        { fits := ?_
          quiet := fun f' st' hMem =>
            absurd hMem List.not_mem_nil
          caught := fun s hMem => ?_ }
      · apply Unwind.Block.all_advance hOk.fits
        intro first hEq
        cases hEq
      · rcases hMem with hOld | hRecord
        · exact absurd trivial (hOk.quiet f _ hOld)
        · exact absurd trivial (hOk.quiet f _ hRecord)

end Decoding

end CircuitDllm

------------------------------------------------------------
-- Statements Keep What Is Owed
------------------------------------------------------------

namespace CircuitDllm

variable
  {cfg : CoordSetup} {q : Decoding} {T : SessionTable}
  {s : Nat} {fault : Option Fault} {t : SessionTables}
  {st : TableStmt} {rest : List TableStmt}

namespace Decoding

/- A try block goes on with its session. -/
theorem Body.after
    (hBody : q.Body T s)
    (hFits : q.Fits cfg st) :
    (q.after cfg fault t st).Body T s := by
  rcases hBody with ⟨hTry, hSid, hKind⟩
  refine ⟨hTry, ?_, hKind⟩
  cases st with
  | returnSid s' =>
      have hNone := (hFits.2 trivial).2
      rw [hSid] at hNone
      cases hNone
  | _ => exact hSid

/- Reading the warm session leads to recording its own. -/
theorem due_readOld
    (hTodo : q.block.todo = .readOld s :: rest)
    (hCaught : q.block.Caught (TableStmt.duty T s))
    (hSession : T ≠ .localBatchCaches) :
    (q.after cfg fault t (.readOld s)).block.Due
      (TableStmt.duty T s) := by
  have hLast :
      (TableStmt.duty T s).In
        (q.block.Caught (TableStmt.duty T s))
        (.record s :: rest) :=
    Or.inl (Or.inr ⟨hSession, Or.inr rfl⟩)
  cases hNext :
      (TableStmt.run cfg q.conn fault t (.readOld s)).2 with
  | done =>
      rcases TableStmt.of_done hNext with ⟨s', hEq⟩ | ⟨s', hEq⟩
      · cases hEq
      · cases hEq
  | raise f =>
      apply Unwind.Block.due_of_in
      simp only [Decoding.after, hNext]
      exact hCaught f
  | go first =>
      simp only [Decoding.after, hNext, Unwind.Block.Due,
        Unwind.Block.advance, hTodo, List.tail_cons]
      cases TableStmt.puts_of_run hNext with
      | nothing _ hOn _ => exact absurd trivial hOn
      | keep s' hHeld => exact hLast
      | replace s' old hHeld =>
          rw [List.append_assoc]
          refine Unwind.Duty.In.append (fun st hMem => ?_) hLast
          rcases List.mem_append.mp hMem with hDrop | hWire
          · rcases TableStmt.of_mem_dropSession hDrop with
              ⟨T', -, -, rfl⟩
            rcases quiet_pop (T := T) (s := s) T' old with
              ⟨hEnds, hRaises⟩
            exact Or.inr
              ⟨hEnds, fun h => absurd h hRaises⟩
          · rw [List.mem_singleton.mp hWire]
            exact Or.inr ⟨not_false, fun _ => hCaught⟩

/-
  What is owed before a statement is owed after it, if the
  key is still there and the statement does not record it.
-/
theorem Owes.after
    (hOwes : q.Owes T s)
    (hOk : q.Ok cfg)
    (hTodo : q.block.todo = st :: rest)
    (hUsed : T.Used cfg)
    (hHas : (st.run cfg q.conn fault t).1.Has T s)
    (hRecord : T ≠ .localBatchCaches → st ≠ .record s) :
    (q.after cfg fault t st).Owes T s := by
  rcases hOwes with hBody | hDue
  · exact Or.inl
      (hBody.after (hOk.fits.1 st (by simp [hTodo])))
  by_cases hPays : (TableStmt.duty T s).pays st
  · rcases hPays with rfl | ⟨hSession, rfl | rfl⟩
    · exact absurd hHas TableStmt.not_has_pop
    · refine Or.inr (due_readOld hTodo ?_ hSession)
      apply hOk.caught s (Or.inl _) T hUsed hSession
      rw [hTodo]
      exact List.mem_cons_self
    · exact absurd rfl (hRecord hSession)
  · refine Or.inr
      (Unwind.Block.due_advance hTodo hDue hPays ?_ ?_ ?_)
    · intro first hNext
      exact (TableStmt.puts_of_run hNext).closed
    · intro hNext
      rcases TableStmt.of_done hNext with
        ⟨s', rfl⟩ | ⟨s', rfl⟩
      · exact trivial
      · exact trivial
    · intro f hNext
      exact TableStmt.of_raise hNext

end Decoding

end CircuitDllm

------------------------------------------------------------
-- Statements and the Warm Slots
------------------------------------------------------------

namespace CircuitDllm

variable
  {cfg : CoordSetup} {q : Decoding} {T : SessionTable}
  {s : Nat} {c : ConnId} {fault : Option Fault}
  {t : SessionTables} {st : TableStmt}
  {rest : List TableStmt}

namespace TableStmt

/- A call writes the warm slot of its connection set only. -/
theorem get?_warm_run
    {c' : ConnId}
    (hNe : c ≠ c') :
    (st.run cfg c fault t).1.warm.get? c' =
      t.warm.get? c' := by
  cases st with
  | acquire s =>
      simp only [run]
      split <;> rfl
  | takeWarm =>
      simp only [run]
      split <;> rfl
  | readOld s =>
      simp only [run]
      split <;> rfl
  | readInvalid =>
      simp only [run]
      split <;> rfl
  | record s => simp [run, Dict.get?_set, hNe]
  | clear => simp [run, Dict.get?_erase, hNe]
  | _ => rfl

/- Only two statements write it. -/
theorem warm_run
    (hKeeps : ¬ st.Rewrites s)
    (hRecord : st ≠ .record s) :
    (st.run cfg c fault t).1.warm = t.warm := by
  cases st with
  | acquire s =>
      simp only [run]
      split <;> rfl
  | takeWarm =>
      simp only [run]
      split <;> rfl
  | readOld s =>
      simp only [run]
      split <;> rfl
  | readInvalid =>
      simp only [run]
      split <;> rfl
  | record s' =>
      refine absurd (fun hEq => ?_) hKeeps
      exact hRecord (by rw [hEq])
  | clear => exact absurd trivial hKeeps
  | _ => rfl

end TableStmt

namespace Decoding

/-
  A session in a warm slot is kept there, or the statement
  begins to replace it and owes it from then on.
-/
theorem warm_after
    (hOk : q.Ok cfg)
    (hTodo : q.block.todo = st :: rest)
    (hUsed : T.Used cfg)
    (hSession : T ≠ .localBatchCaches)
    (hHeld : t.warm.get? c = some s)
    (hSafe : q.conn = c → ¬ q.Rewrites s)
    (hRecord : st ≠ .record s) :
    (q.after cfg fault t st).Owes T s ∨
      ((st.run cfg q.conn fault t).1.warm.get? c = some s ∧
        ((q.after cfg fault t st).conn = c →
          ¬ (q.after cfg fault t st).Rewrites s)) := by
  by_cases hConn : q.conn = c
  swap
  · refine Or.inr ⟨?_, fun hEq => absurd hEq hConn⟩
    rw [TableStmt.get?_warm_run hConn, hHeld]
  have hStill := hSafe hConn
  have hKeeps : ¬ st.Rewrites s := fun hRewrites =>
    hStill ⟨st, by simp [hTodo], hRewrites⟩
  have hRest : ∀ st' ∈ rest, ¬ st'.Rewrites s := by
    intro st' hMem hRewrites
    exact hStill ⟨st', by simp [hTodo, hMem], hRewrites⟩
  rw [TableStmt.warm_run hKeeps hRecord, hHeld]
  cases hNext : (st.run cfg q.conn fault t).2 with
  | done =>
      refine Or.inr ⟨rfl, fun _ => ?_⟩
      rintro ⟨st', hMem, -⟩
      simp only [Decoding.after, hNext] at hMem
      exact absurd hMem List.not_mem_nil
  | raise f =>
      refine Or.inr ⟨rfl, fun _ => ?_⟩
      rintro ⟨st', hMem, hRewrites⟩
      simp only [Decoding.after, hNext] at hMem
      exact hOk.quiet f st' hMem
        (TableStmt.updates hRewrites)
  | go first =>
      have hPuts := TableStmt.puts_of_run hNext
      have hAfter :
          (q.after cfg fault t st).block.todo =
            first ++ rest := by
        simp [Decoding.after, hNext, Unwind.Block.advance,
          hTodo]
      rw [hConn, hHeld] at hPuts
      have hCalm :
          (∀ st' ∈ first, ¬ st'.Rewrites s) →
            ¬ (q.after cfg fault t st).Rewrites s := by
        rintro hFirst ⟨st', hMem, hRewrites⟩
        rw [hAfter] at hMem
        rcases List.mem_append.mp hMem with hNew | hOld
        · exact hFirst st' hNew hRewrites
        · exact hRest st' hOld hRewrites
      cases hPuts with
      | replace s' old hOld =>
          cases hOld
          refine Or.inl (Or.inr ?_)
          unfold Unwind.Block.Due
          rw [hAfter, CoordSetup.resetSessions,
            List.append_assoc, List.append_assoc]
          exact in_dropSession _ hUsed hSession
      | drop old hOld =>
          cases hOld
          refine Or.inl (Or.inr ?_)
          unfold Unwind.Block.Due
          rw [hAfter, List.cons_append]
          exact Or.inr
            ⟨not_false, False.elim,
              in_dropSession _ hUsed hSession⟩
      | clear hNone => cases hNone
      | keep s' hOld =>
          refine Or.inr ⟨rfl, fun _ => hCalm ?_⟩
          intro st' hMem hRewrites
          rw [List.mem_singleton.mp hMem] at hRewrites
          exact hRewrites (hOld s rfl).symm
      | nothing hOn hNot =>
          refine Or.inr ⟨rfl, fun _ => hCalm ?_⟩
          exact fun st' hMem => absurd hMem List.not_mem_nil
      | reuse s' =>
          refine Or.inr ⟨rfl, fun _ => hCalm ?_⟩
          intro st' hMem
          rcases List.mem_cons.mp hMem with rfl | hLast
          · exact not_false
          · rw [List.mem_singleton.mp hLast]
            exact not_false
      | _ =>
          refine Or.inr ⟨rfl, fun _ => hCalm ?_⟩
          intro st' hMem
          rw [List.mem_singleton.mp hMem]
          exact not_false

end Decoding

end CircuitDllm

------------------------------------------------------------
-- What Every Event Keeps
------------------------------------------------------------

namespace CircuitDllm

variable
  {cfg : CoordSetup} {T : SessionTable} {s : Nat}

namespace Coordinating

/- Some decode owes the key, or its session stays warm. -/
def Covered
    (w : Coordinating)
    (T : SessionTable)
    (s : Nat) :
    Prop :=
  (∃ q ∈ w.decodes, q.Owes T s) ∨
    (T ≠ .localBatchCaches ∧
      ∃ c, w.tables.warm.get? c = some s ∧
        ∀ q ∈ w.decodes, q.conn = c → ¬ q.Rewrites s)

/- What every event keeps. -/
structure Ok (cfg : CoordSetup) (w : Coordinating) :
    Prop where
  decodes : ∀ q ∈ w.decodes, q.Ok cfg
  used : ∀ T s, w.tables.Has T s → T.Used cfg
  covered : ∀ T s, w.tables.Has T s → w.Covered T s

variable
  {w : Coordinating} {i : Nat} {q q' : Decoding}
  {t : SessionTables}

/- Replacing a decode keeps the others. -/
theorem eq_or_mem_set
    (q' : Decoding)
    (hAt : w.decodes[i]? = some q)
    {q₀ : Decoding}
    (hMem : q₀ ∈ w.decodes) :
    q₀ = q ∨ q₀ ∈ w.decodes.set i q' := by
  rcases List.mem_iff_getElem?.mp hMem with ⟨j, hJ⟩
  by_cases hSame : i = j
  · rw [← hSame, hAt] at hJ
    exact Or.inl (Option.some.inj hJ).symm
  · refine Or.inr (List.mem_iff_getElem?.mpr ⟨j, ?_⟩)
    rw [List.getElem?_set_ne hSame, hJ]

theorem mem_set
    (hAt : w.decodes[i]? = some q) :
    q' ∈ w.decodes.set i q' := by
  rcases List.getElem?_eq_some_iff.mp hAt with ⟨hLt, -⟩
  exact List.mem_set hLt q'

/- A key stays covered when one decode goes on. -/
theorem Covered.replace
    (hCovered : w.Covered T s)
    (hAt : w.decodes[i]? = some q)
    (hOwes : q.Owes T s → q'.Owes T s)
    (hWarm :
      ∀ c, T ≠ .localBatchCaches →
        w.tables.warm.get? c = some s →
          (q.conn = c → ¬ q.Rewrites s) →
            q'.Owes T s ∨
              (t.warm.get? c = some s ∧
                (q'.conn = c → ¬ q'.Rewrites s))) :
    Covered ⟨t, w.decodes.set i q'⟩ T s := by
  rcases hCovered with
    ⟨q₀, hMem, hOwed⟩ | ⟨hSession, c, hHeld, hSafe⟩
  · rcases eq_or_mem_set q' hAt hMem with rfl | hKept
    · exact Or.inl ⟨q', mem_set hAt, hOwes hOwed⟩
    · exact Or.inl ⟨q₀, hKept, hOwed⟩
  · have hMem : q ∈ w.decodes := List.mem_of_getElem? hAt
    rcases hWarm c hSession hHeld (hSafe q hMem) with
      hOwed | ⟨hKept, hStill⟩
    · exact Or.inl ⟨q', mem_set hAt, hOwed⟩
    · refine Or.inr ⟨hSession, c, hKept, fun q₀ hIn => ?_⟩
      rcases List.mem_or_eq_of_mem_set hIn with hOld | rfl
      · exact hSafe q₀ hOld
      · exact hStill

/- A decode in the middle of no call begins or ends one. -/
theorem Ok.replace
    (hOk : w.Ok cfg)
    (hAt : w.decodes[i]? = some q)
    (hBegun : q'.Begun cfg)
    (hOwes :
      ∀ T s, T.Used cfg → q.Owes T s → q'.Owes T s) :
    (w.put i q').Ok cfg where
  decodes q₀ hMem := by
    rcases List.mem_or_eq_of_mem_set hMem with hOld | rfl
    · exact hOk.decodes q₀ hOld
    · exact hBegun.toOk
  used := hOk.used
  covered T s hHas := by
    apply (hOk.covered T s hHas).replace hAt
      (hOwes T s (hOk.used T s hHas))
    intro c hSession hHeld hSafe
    exact Or.inr ⟨hHeld, fun _ => hBegun.still s⟩

/- Nothing is owed of a call that is over. -/
theorem body_of_owes
    (hIdle : q.block.todo = [])
    (hOwes : q.Owes T s) :
    q.Body T s := by
  rcases hOwes with hBody | hDue
  · exact hBody
  · unfold Unwind.Block.Due at hDue
    rw [hIdle] at hDue
    exact hDue.elim

theorem updating_of_rewrites
    (hRewrites : q.Rewrites s) :
    q.Updating := by
  rcases hRewrites with ⟨st, hMem, hSt⟩
  refine ⟨st, hMem, ?_⟩
  cases st with
  | record s' => rfl
  | clear => rfl
  | _ => exact hSt.elim

/- A session just recorded stays warm, with no overlap. -/
theorem covered_record
    {fault : Option Fault}
    {rest : List TableStmt}
    (hExclusive : w.Exclusive)
    (hAt : w.decodes[i]? = some q)
    (hTodo : q.block.todo = .record s :: rest)
    (hSession : T ≠ .localBatchCaches) :
    (w.statement cfg i q fault (.record s)).Covered T s := by
  refine Or.inr ⟨hSession, q.conn, ?_, ?_⟩
  · exact Dict.get?_set_self w.tables.warm q.conn s
  · intro q₀ hMem hConn hRewrites
    rcases List.getElem?_eq_some_iff.mp hAt with ⟨hLt, hI⟩
    rcases List.mem_iff_getElem?.mp hMem with ⟨j, hJ⟩
    by_cases hSame : i = j
    · rw [← hSame] at hJ
      simp only [statement,
        List.getElem?_set_self hLt] at hJ
      cases hJ
      rcases hRewrites with ⟨st, hNone, -⟩
      exact absurd hNone List.not_mem_nil
    · simp only [statement,
        List.getElem?_set_ne hSame] at hJ
      rcases List.getElem?_eq_some_iff.mp hJ with ⟨hLt', hJ'⟩
      have hApart :=
        hExclusive ⟨i, hLt⟩ ⟨j, hLt'⟩ (by simpa using hSame)
      simp only [List.get_eq_getElem, hI, hJ'] at hApart
      refine hApart ⟨hConn.symm, Or.inl ⟨?_, Or.inl ?_⟩⟩
      · exact ⟨.record s, by simp [hTodo], rfl⟩
      · exact updating_of_rewrites hRewrites

theorem Ok.statement
    {fault : Option Fault}
    {st : TableStmt}
    {rest : List TableStmt}
    (hOk : w.Ok cfg)
    (hExclusive : w.Exclusive)
    (hAt : w.decodes[i]? = some q)
    (hTodo : q.block.todo = st :: rest) :
    (w.statement cfg i q fault st).Ok cfg := by
  have hQ : q.Ok cfg :=
    hOk.decodes q (List.mem_of_getElem? hAt)
  have hFits : q.Fits cfg st := hQ.fits.1 st (by simp [hTodo])
  have hUsed :
      ∀ T s,
        (w.statement cfg i q fault st).tables.Has T s →
          T.Used cfg := by
    intro T s hHas
    rcases TableStmt.of_has_run hHas with hOld | hAdds
    · exact hOk.used T s hOld
    · exact (hFits.1 T s hAdds).1
  refine
    { decodes := fun q₀ hMem => ?_
      used := hUsed
      covered := fun T s hHas => ?_ }
  · rcases List.mem_or_eq_of_mem_set hMem with hOld | rfl
    · exact hOk.decodes q₀ hOld
    · exact hQ.after hTodo
  · rcases TableStmt.of_has_run hHas with hOld | hAdds
    swap
    · refine Or.inl
        ⟨q.after cfg fault w.tables st, mem_set hAt, Or.inl ?_⟩
      exact (hFits.1 T s hAdds).2.after hFits
    by_cases hRecord :
        T ≠ .localBatchCaches ∧ st = .record s
    · rcases hRecord with ⟨hSession, rfl⟩
      exact covered_record hExclusive hAt hTodo hSession
    · have hUsedT := hUsed T s hHas
      apply (hOk.covered T s hOld).replace hAt
      · intro hOwes
        exact hOwes.after hQ hTodo hUsedT hHas
          fun hSession hEq => hRecord ⟨hSession, hEq⟩
      · intro c hSession hHeld hSafe
        exact Decoding.warm_after hQ hTodo hUsedT hSession
          hHeld hSafe fun hEq => hRecord ⟨hSession, hEq⟩

/- A new coordinator holds nothing. -/
theorem not_has_new
    (r : Registry)
    (T : SessionTable)
    (s : Nat) :
    ¬ SessionTables.Has { registry := r } T s := by
  cases T <;> simp [SessionTables.Has]

theorem ok_new (r : Registry) :
    (new r).Ok cfg where
  decodes _ hMem := absurd hMem List.not_mem_nil
  used T s hHas := absurd hHas (not_has_new r T s)
  covered T s hHas := absurd hHas (not_has_new r T s)

/- What others do adds no key of the coordinator's. -/
theorem Ok.registry
    (hOk : w.Ok cfg)
    (op : RegistryOp) :
    (w.step cfg (.registry op)).Ok cfg := by
  have hFewer :
      ∀ (r : Registry) (taken : Finset Nat),
        (∀ s, s ∈ taken → r.sessionLoad.get? s ≠ none →
          w.tables.Has .sessionLoad s) →
        Ok cfg
          { w with
            tables :=
              { w.tables with
                registry := r
                taken := taken } } := by
    intro r taken hLoad
    have hHas :
        ∀ T s,
          SessionTables.Has
              { w.tables with
                registry := r
                taken := taken } T s →
            w.tables.Has T s := by
      intro T s hHas
      cases T with
      | sessionLoad => exact hLoad s hHas.1 hHas.2
      | _ => exact hHas
    exact
      { decodes := hOk.decodes
        used := fun T s h => hOk.used T s (hHas T s h)
        covered := fun T s h => hOk.covered T s (hHas T s h) }
  by_cases hRestart : op = .restart
  · subst hRestart
    exact ok_new _
  by_cases hTake : ∃ s₀, op = .acquireRoute s₀
  · rcases hTake with ⟨s₀, rfl⟩
    apply hFewer
    intro s hTaken hGet
    rcases Finset.mem_erase.mp hTaken with ⟨hNe, hIn⟩
    refine ⟨hIn, ?_⟩
    rw [← w.tables.registry.get?_acquireRoute_of_ne
      (Ne.symm hNe)]
    exact hGet
  by_cases hFree : ∃ s₀, op = .releaseRoute s₀
  · rcases hFree with ⟨s₀, rfl⟩
    apply hFewer
    intro s hTaken hGet
    refine ⟨hTaken, fun hNone => hGet ?_⟩
    simp [Registry.step, Registry.releaseRoute,
      Dict.get?_erase, hNone]
  · have hSame :
        (w.tables.registry.step cfg.registry op).sessionLoad =
          w.tables.registry.sessionLoad :=
      w.tables.registry.sessionLoad_step
        (fun s₀ hEq => hTake ⟨s₀, hEq⟩)
        (fun s₀ hEq => hFree ⟨s₀, hEq⟩) hRestart
    have hStep :
        w.step cfg (.registry op) =
          { w with
            tables :=
              { w.tables with
                registry :=
                  w.tables.registry.step cfg.registry op } } := by
      cases op with
      | acquireRoute s₀ => exact absurd ⟨s₀, rfl⟩ hTake
      | restart => exact absurd rfl hRestart
      | _ => rfl
    rw [hStep]
    apply hFewer
    intro s hTaken hGet
    rw [hSame] at hGet
    exact ⟨hTaken, hGet⟩

/- Every event keeps it, with no overlap before. -/
theorem ok_step
    (hOk : w.Ok cfg)
    (hExclusive : w.Exclusive)
    (event : CoordinatingEvent) :
    (w.step cfg event).Ok cfg := by
  cases event with
  | start entry id c =>
      have hBegun : (Decoding.started entry id c).Begun cfg :=
        Decoding.begun_idle (.started entry id c)
      refine
        { decodes := fun q₀ hMem => ?_
          used := hOk.used
          covered := fun T s hHas => ?_ }
      · rcases List.mem_append.mp hMem with hOld | hNew
        · exact hOk.decodes q₀ hOld
        · rw [List.mem_singleton.mp hNew]
          exact hBegun.toOk
      · rcases hOk.covered T s hHas with
          ⟨q₀, hMem, hOwes⟩ | ⟨hSession, c', hHeld, hSafe⟩
        · exact Or.inl ⟨q₀, List.mem_append_left _ hMem, hOwes⟩
        · refine Or.inr
            ⟨hSession, c', hHeld, fun q₀ hMem hConn => ?_⟩
          rcases List.mem_append.mp hMem with hOld | hNew
          · exact hSafe q₀ hOld hConn
          · rw [List.mem_singleton.mp hNew]
            exact hBegun.still s
  | call i what =>
      simp only [step]
      split
      · exact hOk
      · rename_i q hAt
        split
        · exact hOk
        · rename_i hIdle
          simp only [not_or, not_not, Bool.not_eq_true]
            at hIdle
          split
          · exact hOk
          · rename_i block hBlock
            apply hOk.replace hAt
              (Decoding.begun_of_blockOf hBlock hIdle.1)
            intro T s _ hOwes
            exact Or.inl (body_of_owes (q := q) hIdle.2 hOwes)
  | statement i fault =>
      simp only [step]
      split
      · exact hOk
      · rename_i q hAt
        split
        · exact hOk
        · rename_i st rest hTodo
          exact hOk.statement hExclusive hAt hTodo
  | resume i c =>
      simp only [step]
      split
      · exact hOk
      · rename_i q hAt
        split
        · exact hOk
        · rename_i hIdle
          simp only [not_or, not_not, Bool.not_eq_true]
            at hIdle
          have hQ := hOk.decodes q (List.mem_of_getElem? hAt)
          apply hOk.replace hAt
          · refine
              { fits := hQ.fits
                quiet := hQ.quiet
                caught := hQ.caught
                still := ?_ }
            rintro s ⟨st, hMem, -⟩
            rw [hIdle.2] at hMem
            exact absurd hMem List.not_mem_nil
          · intro T s _ hOwes
            exact Or.inl (body_of_owes hIdle.2 hOwes)
  | leave i =>
      simp only [step]
      split
      · exact hOk
      · rename_i q hAt
        split
        · exact hOk
        · rename_i hIdle
          simp only [not_or, not_not, Bool.not_eq_true]
            at hIdle
          apply hOk.replace hAt (Decoding.begun_cleanup q)
          intro T s hUsed hOwes
          exact Decoding.owes_cleanup
            (body_of_owes hIdle.2 hOwes) hUsed
  | registry op => exact hOk.registry op

/- With nothing in flight only warm sessions are covered. -/
theorem Covered.of_idle
    (hCovered : w.Covered T s)
    (hOver : ∀ q ∈ w.decodes, ¬ q.InFlight) :
    T ≠ .localBatchCaches ∧ s ∈ w.tables.warm.values := by
  rcases hCovered with
    ⟨q, hMem, hOwes⟩ | ⟨hSession, c, hHeld, -⟩
  · have hIdle : q.block.todo = [] := by
      by_contra hTodo
      exact hOver q hMem (Or.inr hTodo)
    have hTry := (body_of_owes hIdle hOwes).1
    exact absurd (Or.inl hTry) (hOver q hMem)
  · exact ⟨hSession, Dict.mem_values.mpr ⟨c, hHeld⟩⟩

theorem Ok.noLeak
    (hOk : w.Ok cfg) :
    w.NoLeak := by
  intro hOver
  have hWarm :
      ∀ T s, w.tables.Has T s →
        T ≠ .localBatchCaches ∧ s ∈ w.tables.warm.values :=
    fun T s hHas => (hOk.covered T s hHas).of_idle hOver
  refine ⟨fun s hMem => ?_, fun s hMem => ?_,
    fun s hMem hTaken => ?_, ?_⟩
  · exact (hWarm .localCaches s hMem).2
  · rcases Dict.mem_keys.mp hMem with ⟨route, hRoute⟩
    refine (hWarm .sessionRoutes s ?_).2
    simp [SessionTables.Has, hRoute]
  · rcases Dict.mem_keys.mp hMem with ⟨ids, hIds⟩
    refine (hWarm .sessionLoad s ⟨hTaken, ?_⟩).2
    simp [hIds]
  · apply Finset.eq_empty_of_forall_notMem
    intro b hMem
    exact (hWarm .localBatchCaches b hMem).1 rfl

/-
  In every run in which no two decodes overlap in their use
  of a warm slot, nothing is left behind.
-/
theorem noLeak_run
    (r : Registry)
    (events : List CoordinatingEvent)
    (hExclusive :
      ∀ e ∈ trail cfg (new r) events, e.1.Exclusive) :
    (run cfg (new r) events).NoLeak := by
  have hOk :=
    History.induction_of (step cfg) (fun e => e.1.Exclusive)
      (fun _ w => w.Ok cfg) (ok_new r)
      (fun _ w event hAllowed hOk =>
        ok_step hOk hAllowed event) hExclusive
  exact hOk.noLeak

end Coordinating

end CircuitDllm

------------------------------------------------------------
-- Two Streams
------------------------------------------------------------

namespace CircuitDllm

namespace Coordinating

/- A co-located stage and a mesh of one slot. -/
def oneStage : CoordSetup where
  registry := Registry.oneSlot
  dynamic := true
  localStage := true
  prefixCache := true

/- The mesh gets its node. -/
def staffed : List CoordinatingEvent :=
  [.registry (.register (Registry.joining "seed") 0 none),
    .registry (.markReady "seed")]

/- A stream runs up to its first yield, on its own set. -/
def opened (i id : Nat) : List CoordinatingEvent :=
  [.start .generateSpeculativeStream id (i + 1),
    .call i (.beginSession false id),
    .statement i none,
    .statement i none,
    .call i (.relay true)] ++
  List.replicate 5 (.statement i none)

/- Its client is gone: it is closed on the default set. -/
def closed (i : Nat) : List CoordinatingEvent :=
  [.resume i defaultConn, .leave i]

/- Two streams are closed, in the order of `turns`. -/
def twoClosed (turns : List Nat) : List CoordinatingEvent :=
  staffed ++ opened 0 1 ++ opened 1 2 ++ closed 0 ++ closed 1 ++
    turns.map (fun i => .statement i none)

/- Both read the warm slot before either writes it. -/
theorem exists_not_noLeak :
    ∃ r₀,
      Registry.create Registry.oneSlot = .ok r₀ ∧
        ¬ (run oneStage (new r₀)
          (twoClosed [0, 1, 0, 1, 0, 1])).NoLeak := by
  refine ⟨_, rfl, fun hNoLeak => ?_⟩
  have hWarm := (hNoLeak (by decide)).1 1 (by decide)
  exact absurd hWarm (by decide)

/- One after the other they leave the second one warm. -/
theorem noLeak_run_twoClosed :
    ∃ r₀,
      Registry.create Registry.oneSlot = .ok r₀ ∧
        (run oneStage (new r₀)
          (twoClosed [0, 0, 0, 1, 1, 1, 1, 1, 1, 1])).NoLeak :=
  ⟨_, rfl, noLeak_run _ _ (by decide)⟩

end Coordinating

end CircuitDllm
