import CircuitDllm.Coord.State
import CircuitDllm.Lib.History

/-
  The frames of one session and the workers that act on them
  (engine/coordinator.py, engine/stage_worker.py).

  A worker has one handler for each connection, and all of
  them share the session's cache.  A failover abandons the
  frames of an attempt but cannot call them back, and the
  frames do not say which attempt they belong to.

  Main declarations:
    * `Handler`, `Attempts`
    * `Attempts.take`, `Attempts.act`, `Attempts.step`
    * `Attempts.BuiltByLatest`, `Attempts.overtakes`
    * `Attempts.builtByLatest_run`
-/

------------------------------------------------------------
-- Frames and Handlers
------------------------------------------------------------

namespace CircuitDllm

/- What a frame of the session asks for. -/
inductive FrameBody (H : Type) where
  /- `rest` is the route a chain frame carries -/
  | activation
      (pos : Nat)
      (hidden : List H)
      (rest : List String)
  | control (op : KvOp)
deriving Repr

/-
  A frame, and the attempt that wrote it: the number of
  pos == 0 prefills so far.  The number is not on the wire.
-/
structure SessionFrame (H : Type) where
  attempt : Nat
  body : FrameBody H
deriving Repr

namespace SessionFrame

variable {H : Type}

/- The nodes the frame is still to be forwarded to. -/
def rest (f : SessionFrame H) : List String :=
  match f.body with
  | .activation _ _ rest => rest
  | .control _ => []

/- A prefill, which starts the session afresh. -/
def isPrefill (f : SessionFrame H) : Bool :=
  match f.body with
  | .activation pos _ _ => pos = 0
  | .control _ => false

end SessionFrame

/- A StageKV object, and the attempts that acted on it. -/
structure CacheObject (H : Type) where
  kv : StageKV H := []
  attempts : List Nat := []

/-
  The thread of one connection at a node: who dialed it (the
  coordinator, or the handler of a chain worker) and whether
  they still use it, the frames received, and the one it is
  busy with and the cache fetched for it.
-/
structure Handler (H : Type) where
  node : String
  peer : Option Nat
  opened : Bool := true
  queue : List (SessionFrame H) := []
  working : Option (SessionFrame H × Nat) := none

/-
  One session: the coordinator's attempt and pinned route,
  the handlers of all connections, and the cache objects.
  `prefilled` has the nodes that have taken up the latest
  prefill.
-/
structure Attempts (H : Type) where
  attempt : Nat := 0
  route : List String := []
  handlers : List (Handler H) := []
  store : String → Option Nat := fun _ => none
  caches : Nat → CacheObject H := fun _ => {}
  made : Nat := 0
  prefilled : List String := []

/- What happens to the session. -/
inductive AttemptEvent (H : Type) where
  /- a pos == 0 relay; a re-prefill resets first -/
  | prefill (reset : Bool) (route : List String)
  /- the frame of a relay at `pos` -/
  | write (nodeId : String) (pos : Nat) (hidden : List H)
  /- the coordinator's read raises -/
  | timeout (nodeId : String)
  /- KV_CTRL to every open connection -/
  | control (op : KvOp)
  /- a KV_CTRL write raises -/
  | drop (nodeId : String)
  /- handler k takes up its next frame -/
  | take (k : Nat)
  /- handler k runs it, and forwards a chain frame -/
  | act (k : Nat)
  /- the read of a forward raises -/
  | forwardTimeout (k : Nat) (nodeId : String)
  /- a closed connection loses what was not received -/
  | lose (k : Nat) (received : Nat)

/- The layers of the workers, and how the route is used. -/
structure AttemptConfig (H : Type) where
  chain : Bool
  stageOf : String → Stage H

namespace Attempts

variable {H : Type} (cfg : AttemptConfig H)

/- A frame arrives at handler k. -/
def deliver
    (s : Attempts H)
    (k : Nat)
    (f : SessionFrame H) :
    Attempts H :=
  match s.handlers[k]? with
  | none => s
  | some h =>
    { s with
      handlers :=
        s.handlers.set k { h with queue := h.queue ++ [f] } }

/-
  The connection from a peer to a node: _conn_for for the
  coordinator, _fwd_conn for a chain worker.
-/
def connTo
    (s : Attempts H)
    (peer : Option Nat)
    (nodeId : String) :
    Option Nat :=
  s.handlers.findIdx? (fun h =>
    h.node = nodeId && h.peer = peer && h.opened)

/- Write over that connection, dialed if there is none. -/
def send
    (s : Attempts H)
    (peer : Option Nat)
    (nodeId : String)
    (f : SessionFrame H) :
    Attempts H :=
  match s.connTo peer nodeId with
  | some k => s.deliver k f
  | none =>
    { s with
      handlers :=
        s.handlers ++
          [{ node := nodeId, peer := peer, queue := [f] }] }

/- The connection is closed by its peer. -/
def hangUp
    (s : Attempts H)
    (peer : Option Nat)
    (nodeId : String) :
    Attempts H :=
  match s.connTo peer nodeId with
  | none => s
  | some k =>
    match s.handlers[k]? with
    | none => s
    | some h =>
      { s with
        handlers :=
          s.handlers.set k { h with opened := false } }

/- KV_CTRL to every open connection of the coordinator. -/
def sendControl (s : Attempts H) (op : KvOp) : Attempts H :=
  { s with
    handlers :=
      s.handlers.map (fun h =>
        if h.peer = none ∧ h.opened then
          { h with
            queue := h.queue ++ [⟨s.attempt, .control op⟩] }
        else h) }

/-
  Where a relay writes: the star to each node of the route,
  the chain to the first with the rest of the route.
-/
def restFor
    (s : Attempts H)
    (nodeId : String) :
    Option (List String) :=
  if cfg.chain then
    match s.route with
    | [] => none
    | head :: rest => if head = nodeId then some rest else none
  else if nodeId ∈ s.route then some [] else none

/-
  _get_cache: the session's cache at a node; pos == 0 starts
  a new one, and so does a session that is not in the store.
-/
def getCache
    (s : Attempts H)
    (nodeId : String)
    (pos : Nat) :
    Nat × Attempts H :=
  match s.store nodeId with
  | some c => if pos = 0 then fresh else (c, s)
  | none => fresh
where
  fresh :=
    (s.made,
      { s with
        store := Function.update s.store nodeId (some s.made)
        caches := Function.update s.caches s.made {}
        made := s.made + 1 })

/-
  The frame is read: an activation fetches the session's
  cache, a control frame looks it up.
-/
def take (s : Attempts H) (k : Nat) : Attempts H :=
  match s.handlers[k]? with
  | none => s
  | some h =>
    match h.working, h.queue with
    | none, f :: queue =>
      let h := { h with queue := queue }
      match f.body with
      | .activation pos _ _ =>
        let prefilled :=
          if f.isPrefill && f.attempt = s.attempt then
            h.node :: s.prefilled
          else s.prefilled
        let (c, s) := s.getCache h.node pos
        { s with
          handlers :=
            s.handlers.set k { h with working := some (f, c) }
          prefilled := prefilled }
      | .control .free =>
        { s with
          handlers := s.handlers.set k h
          store := Function.update s.store h.node none }
      | .control _ =>
        { s with
          handlers :=
            s.handlers.set k
              { h with
                working :=
                  (s.store h.node).map (fun c => (f, c)) } }
    | _, _ => s

/- The cache object after the frame has acted on it. -/
def actOn
    (stage : Stage H)
    (f : SessionFrame H)
    (cache : CacheObject H) :
    CacheObject H :=
  { kv :=
      match f.body with
      | .activation pos hidden _ =>
        (stage.forward hidden pos cache.kv).2
      | .control op =>
        match op with
        | .reset => cache.kv.reset
        | .truncate length => cache.kv.truncateTo length
        | .free => cache.kv
    attempts := cache.attempts ++ [f.attempt] }

/- The frame a chain worker sends on. -/
def forwarded
    (stage : Stage H)
    (f : SessionFrame H)
    (cache : CacheObject H) :
    Option (String × SessionFrame H) :=
  match f.body with
  | .activation pos hidden (next :: rest) =>
    some (next,
      ⟨f.attempt,
        .activation pos
          (stage.forward hidden pos cache.kv).1 rest⟩)
  | _ => none

/- Handler k runs the frame it has taken up. -/
def act (s : Attempts H) (k : Nat) : Attempts H :=
  match s.handlers[k]? with
  | none => s
  | some h =>
    match h.working with
    | none => s
    | some (f, c) =>
      let stage := cfg.stageOf h.node
      let done : Attempts H :=
        { s with
          caches :=
            Function.update s.caches c
              (actOn stage f (s.caches c))
          handlers :=
            s.handlers.set k { h with working := none } }
      match forwarded stage f (s.caches c) with
      | none => done
      | some (next, f) => done.send (some k) next f

/- Of the frames on connection k only some are received. -/
def lose
    (s : Attempts H)
    (k received : Nat) :
    Attempts H :=
  match s.handlers[k]? with
  | none => s
  | some h =>
    { s with
      handlers :=
        s.handlers.set k
          { h with queue := h.queue.take received } }

def step (s : Attempts H) : AttemptEvent H → Attempts H
| .prefill reset route =>
    let s :=
      { s with
        attempt := s.attempt + 1
        prefilled := [] }
    let s := if reset then s.sendControl .reset else s
    { s with route := route }
| .write nodeId pos hidden =>
    match s.restFor cfg nodeId with
    | none => s
    | some rest =>
      s.send none nodeId
        ⟨s.attempt, .activation pos hidden rest⟩
| .timeout nodeId =>
    { s.hangUp none nodeId with route := [] }
| .control op => s.sendControl op
| .drop nodeId => s.hangUp none nodeId
| .take k => s.take k
| .act k => s.act cfg k
| .forwardTimeout k nodeId => s.hangUp (some k) nodeId
| .lose k received => s.lose k received

def run
    (s : Attempts H)
    (es : List (AttemptEvent H)) :
    Attempts H :=
  es.foldl (step cfg) s

def trail
    (s : Attempts H)
    (es : List (AttemptEvent H)) :
    List (Attempts H × AttemptEvent H) :=
  History.trail (step cfg) s es

/-
  On the pinned route, a node that has taken up the latest
  prefill holds what the frames of that attempt have made.
-/
def BuiltByLatest (s : Attempts H) : Prop :=
  ∀ nodeId ∈ s.route, nodeId ∈ s.prefilled →
    ∀ c, s.store nodeId = some c →
      ∀ a ∈ (s.caches c).attempts, a = s.attempt

/- The frames that a node is still to take up. -/
def onTheWay
    (s : Attempts H)
    (nodeId : String) :
    List (SessionFrame H) :=
  s.handlers.flatMap (fun h =>
    (if h.node = nodeId then h.queue else []) ++
      (h.queue ++ (h.working.map (·.1)).toList).filter
        (fun f => nodeId ∈ f.rest))

/-
  A worker takes up the latest prefill while a frame of an
  abandoned attempt is still to come to it.
-/
def overtakes (s : Attempts H) : AttemptEvent H → Bool
| .take k =>
    match s.handlers[k]? with
    | none => false
    | some h =>
      match h.working, h.queue with
      | none, f :: _ =>
        f.isPrefill && f.attempt = s.attempt &&
          (s.onTheWay h.node).any
            (fun g => g.attempt ≠ s.attempt)
      | _, _ => false
| _ => false

end Attempts

end CircuitDllm

------------------------------------------------------------
-- Invariant
------------------------------------------------------------

namespace CircuitDllm

namespace Attempts

variable {H : Type} {cfg : AttemptConfig H} {s : Attempts H}

/- A frame that node `nodeId` is still to take up from h. -/
def Coming
    (h : Handler H)
    (nodeId : String)
    (f : SessionFrame H) : Prop :=
  (h.node = nodeId ∧ f ∈ h.queue) ∨
    (nodeId ∈ f.rest ∧
      (f ∈ h.queue ∨ ∃ c, h.working = some (f, c)))

theorem mem_onTheWay
    {nodeId : String}
    {f : SessionFrame H} :
    f ∈ s.onTheWay nodeId ↔
      ∃ h ∈ s.handlers, Coming h nodeId f := by
  unfold onTheWay Coming
  simp only [List.mem_flatMap, List.mem_append,
    List.mem_filter, decide_eq_true_eq, Option.mem_toList,
    Option.map_eq_some_iff, Prod.exists, exists_and_right,
    exists_eq_right]
  constructor
  · rintro ⟨h, hMem, hHere | ⟨hFrom, hRest⟩⟩
    · refine ⟨h, hMem, Or.inl ?_⟩
      split at hHere
      next hNode => exact ⟨hNode, hHere⟩
      next => exact absurd hHere List.not_mem_nil
    · exact ⟨h, hMem, Or.inr ⟨hRest, hFrom⟩⟩
  · rintro ⟨h, hMem, ⟨hNode, hHere⟩ | ⟨hRest, hFrom⟩⟩
    · refine ⟨h, hMem, Or.inl ?_⟩
      rw [if_pos hNode]
      exact hHere
    · exact ⟨h, hMem, Or.inr ⟨hFrom, hRest⟩⟩

/-
  Nothing of an abandoned attempt is in or on its way to a
  node that has taken up the latest prefill.
-/
structure Clean (s : Attempts H) (nodeId : String) : Prop where
  coming :
    ∀ h ∈ s.handlers, ∀ f, Coming h nodeId f →
      f.attempt = s.attempt
  held :
    ∀ c, s.store nodeId = some c →
      ∀ a ∈ (s.caches c).attempts, a = s.attempt
  working :
    ∀ h ∈ s.handlers, ∀ f c, h.working = some (f, c) →
      s.store nodeId = some c → f.attempt = s.attempt

structure AttemptInv (s : Attempts H) : Prop where
  clean : ∀ nodeId ∈ s.prefilled, s.Clean nodeId
  stored :
    ∀ nodeId c, s.store nodeId = some c → c < s.made
  fetched :
    ∀ h ∈ s.handlers, ∀ f c, h.working = some (f, c) →
      c < s.made
  once :
    ∀ n n' c, s.store n = some c → s.store n' = some c →
      n = n'
  own :
    ∀ h ∈ s.handlers, ∀ f c n, h.working = some (f, c) →
      s.store n = some c → h.node = n

theorem attemptInv_new : ({} : Attempts H).AttemptInv := by
  constructor <;> simp

theorem AttemptInv.builtByLatest
    (hInv : s.AttemptInv) :
    s.BuiltByLatest := by
  intro nodeId _ hPrefilled
  exact (hInv.clean nodeId hPrefilled).held

/- Only the handlers and the connections differ. -/
structure SameCaches (s s' : Attempts H) : Prop where
  attempt : s'.attempt = s.attempt
  store : s'.store = s.store
  caches : s'.caches = s.caches
  made : s'.made = s.made
  prefilled : s'.prefilled = s.prefilled

/-
  Handlers that work on nothing new, and get nothing new but
  frames of the latest attempt.
-/
theorem AttemptInv.of_handlers
    {s' : Attempts H}
    (hInv : s.AttemptInv)
    (hSame : SameCaches s s')
    (hWork :
      ∀ h' ∈ s'.handlers, ∀ f c, h'.working = some (f, c) →
        ∃ h ∈ s.handlers,
          h.node = h'.node ∧ h.working = some (f, c))
    (hComing :
      ∀ h' ∈ s'.handlers, ∀ n ∈ s.prefilled, ∀ f,
        Coming h' n f →
          f.attempt = s.attempt ∨
            ∃ h ∈ s.handlers, Coming h n f) :
    s'.AttemptInv := by
  rcases hSame with
    ⟨hAttempt, hStore, hCaches, hMade, hPrefilled⟩
  constructor
  · intro n hIn
    rw [hPrefilled] at hIn
    have hClean := hInv.clean n hIn
    constructor
    · intro h' hMem f hTo
      rw [hAttempt]
      rcases hComing h' hMem n hIn f hTo with
        hLatest | ⟨h, hOld, hTo'⟩
      · exact hLatest
      · exact hClean.coming h hOld f hTo'
    · rw [hStore, hCaches, hAttempt]
      exact hClean.held
    · intro h' hMem f c hWorking hStored
      rcases hWork h' hMem f c hWorking with
        ⟨h, hOld, _, hOldWork⟩
      rw [hStore] at hStored
      rw [hAttempt]
      exact hClean.working h hOld f c hOldWork hStored
  · rw [hStore, hMade]
    exact hInv.stored
  · intro h' hMem f c hWorking
    rcases hWork h' hMem f c hWorking with
      ⟨h, hOld, _, hOldWork⟩
    rw [hMade]
    exact hInv.fetched h hOld f c hOldWork
  · rw [hStore]
    exact hInv.once
  · intro h' hMem f c n hWorking hStored
    rcases hWork h' hMem f c hWorking with
      ⟨h, hOld, hNode, hOldWork⟩
    rw [hStore] at hStored
    rw [← hNode]
    exact hInv.own h hOld f c n hOldWork hStored

end Attempts

end CircuitDllm

------------------------------------------------------------
-- Frames on Their Way
------------------------------------------------------------

namespace CircuitDllm

namespace Attempts

variable {H : Type} {cfg : AttemptConfig H} {s : Attempts H}

/- The pinned route does not matter. -/
theorem AttemptInv.with_route
    (hInv : s.AttemptInv)
    (route : List String) :
    AttemptInv { s with route := route } :=
  hInv.of_handlers ⟨rfl, rfl, rfl, rfl, rfl⟩
    (fun h hMem _ _ hWork => ⟨h, hMem, rfl, hWork⟩)
    (fun h hMem _ _ _ hTo => Or.inr ⟨h, hMem, hTo⟩)

/- A handler that comes to have less to do. -/
theorem AttemptInv.set_fewer
    (hInv : s.AttemptInv)
    {k : Nat}
    {h h' : Handler H}
    (hGet : s.handlers[k]? = some h)
    (hNode : h'.node = h.node)
    (hQueue : ∀ f ∈ h'.queue, f ∈ h.queue)
    (hWorking :
      h'.working = h.working ∨ h'.working = none) :
    AttemptInv
      { s with handlers := s.handlers.set k h' } := by
  have hOld := List.mem_of_getElem? hGet
  refine
    hInv.of_handlers ⟨rfl, rfl, rfl, rfl, rfl⟩ ?_ ?_
  · intro x hMem f c hWork
    rcases List.mem_or_eq_of_mem_set hMem with hIn | rfl
    · exact ⟨x, hIn, rfl, hWork⟩
    · rcases hWorking with hSame | hNone
      · exact ⟨h, hOld, hNode.symm, hSame ▸ hWork⟩
      · rw [hNone] at hWork
        cases hWork
  · intro x hMem n _ f hTo
    right
    rcases List.mem_or_eq_of_mem_set hMem with hIn | rfl
    · exact ⟨x, hIn, hTo⟩
    · refine ⟨h, hOld, ?_⟩
      rcases hTo with ⟨hAt, hIn⟩ | ⟨hRest, hIn | ⟨c, hIn⟩⟩
      · exact Or.inl ⟨hNode ▸ hAt, hQueue f hIn⟩
      · exact Or.inr ⟨hRest, Or.inl (hQueue f hIn)⟩
      · rcases hWorking with hSame | hNone
        · exact Or.inr ⟨hRest, Or.inr ⟨c, hSame ▸ hIn⟩⟩
        · rw [hNone] at hIn
          cases hIn

/- A frame may be sent where it is of the latest attempt. -/
def MaySend
    (s : Attempts H)
    (nodeId : String)
    (f : SessionFrame H) : Prop :=
  ∀ n ∈ s.prefilled, n = nodeId ∨ n ∈ f.rest →
    f.attempt = s.attempt

/- What is coming after one more frame has arrived. -/
theorem coming_enqueue
    {h : Handler H}
    {f g : SessionFrame H}
    {n : String}
    (hTo : Coming { h with queue := h.queue ++ [f] } n g) :
    Coming h n g ∨ (g = f ∧ (n = h.node ∨ n ∈ f.rest)) := by
  have hQueue :
      g ∈ h.queue ++ [f] → g ∈ h.queue ∨ g = f := by
    intro hG
    simpa using hG
  rcases hTo with ⟨hAt, hIn⟩ | ⟨hRest, hIn | ⟨c, hIn⟩⟩
  · rcases hQueue hIn with hBefore | rfl
    · exact Or.inl (Or.inl ⟨hAt, hBefore⟩)
    · exact Or.inr ⟨rfl, Or.inl hAt.symm⟩
  · rcases hQueue hIn with hBefore | rfl
    · exact Or.inl (Or.inr ⟨hRest, Or.inl hBefore⟩)
    · exact Or.inr ⟨rfl, Or.inr hRest⟩
  · exact Or.inl (Or.inr ⟨hRest, Or.inr ⟨c, hIn⟩⟩)

theorem AttemptInv.deliver
    (hInv : s.AttemptInv)
    {k : Nat}
    {f : SessionFrame H}
    (hMay :
      ∀ h, s.handlers[k]? = some h → s.MaySend h.node f) :
    (s.deliver k f).AttemptInv := by
  unfold Attempts.deliver
  split
  next => exact hInv
  next h hGet =>
    have hOld := List.mem_of_getElem? hGet
    refine
      hInv.of_handlers ⟨rfl, rfl, rfl, rfl, rfl⟩ ?_ ?_
    · intro x hMem g c hWork
      rcases List.mem_or_eq_of_mem_set hMem with hIn | rfl
      · exact ⟨x, hIn, rfl, hWork⟩
      · exact ⟨h, hOld, rfl, hWork⟩
    · intro x hMem n hN g hTo
      rcases List.mem_or_eq_of_mem_set hMem with hIn | rfl
      · exact Or.inr ⟨x, hIn, hTo⟩
      · rcases coming_enqueue hTo with
          hBefore | ⟨rfl, hBound⟩
        · exact Or.inr ⟨h, hOld, hBefore⟩
        · exact Or.inl (hMay h hGet n hN hBound)

/- A connection that is found goes to the node. -/
theorem node_of_connTo
    {peer : Option Nat}
    {nodeId : String}
    {k : Nat}
    (hConn : s.connTo peer nodeId = some k)
    {h : Handler H}
    (hGet : s.handlers[k]? = some h) :
    h.node = nodeId := by
  unfold connTo at hConn
  rcases List.findIdx?_eq_some_iff_getElem.mp hConn with
    ⟨hLt, hFound, _⟩
  rw [List.getElem?_eq_getElem hLt] at hGet
  rw [Option.some.inj hGet] at hFound
  simp only [Bool.and_eq_true, decide_eq_true_eq] at hFound
  exact hFound.1.1

theorem AttemptInv.send
    (hInv : s.AttemptInv)
    (peer : Option Nat)
    {nodeId : String}
    {f : SessionFrame H}
    (hMay : s.MaySend nodeId f) :
    (s.send peer nodeId f).AttemptInv := by
  unfold Attempts.send
  split
  next k hConn =>
    apply hInv.deliver
    intro h hGet
    rw [node_of_connTo hConn hGet]
    exact hMay
  next =>
    refine
      hInv.of_handlers ⟨rfl, rfl, rfl, rfl, rfl⟩ ?_ ?_
    · intro x hMem g c hWork
      rcases List.mem_append.mp hMem with hIn | hNew
      · exact ⟨x, hIn, rfl, hWork⟩
      · rw [List.mem_singleton] at hNew
        rw [hNew] at hWork
        cases hWork
    · intro x hMem n hN g hTo
      rcases List.mem_append.mp hMem with hIn | hNew
      · exact Or.inr ⟨x, hIn, hTo⟩
      · rw [List.mem_singleton] at hNew
        subst hNew
        left
        rcases hTo with
          ⟨rfl, hIn⟩ | ⟨hRest, hIn | ⟨c, hIn⟩⟩
        · rw [List.mem_singleton] at hIn
          subst hIn
          exact hMay _ hN (Or.inl rfl)
        · rw [List.mem_singleton] at hIn
          subst hIn
          exact hMay n hN (Or.inr hRest)
        · cases hIn

theorem AttemptInv.hangUp
    (hInv : s.AttemptInv)
    (peer : Option Nat)
    (nodeId : String) :
    (s.hangUp peer nodeId).AttemptInv := by
  unfold Attempts.hangUp
  split
  next => exact hInv
  next k _ =>
    split
    next => exact hInv
    next h hGet =>
      exact hInv.set_fewer hGet rfl (fun _ hF => hF)
        (Or.inl rfl)

theorem AttemptInv.lose
    (hInv : s.AttemptInv)
    (k received : Nat) :
    (s.lose k received).AttemptInv := by
  unfold Attempts.lose
  split
  next => exact hInv
  next h hGet =>
    exact hInv.set_fewer hGet rfl
      (fun _ hF => List.mem_of_mem_take hF) (Or.inl rfl)

/- Control frames are of the latest attempt. -/
theorem AttemptInv.sendControl
    (hInv : s.AttemptInv)
    (op : KvOp) :
    (s.sendControl op).AttemptInv := by
  refine
    hInv.of_handlers ⟨rfl, rfl, rfl, rfl, rfl⟩ ?_ ?_
  · intro x hMem f c hWork
    rcases List.mem_map.mp hMem with ⟨h, hOld, rfl⟩
    refine ⟨h, hOld, ?_⟩
    split at hWork
    next hOpen =>
      rw [if_pos hOpen]
      exact ⟨rfl, hWork⟩
    next hClosed =>
      rw [if_neg hClosed]
      exact ⟨rfl, hWork⟩
  · intro x hMem n _ f hTo
    rcases List.mem_map.mp hMem with ⟨h, hOld, rfl⟩
    split at hTo
    next =>
      rcases coming_enqueue hTo with hBefore | ⟨rfl, _⟩
      · exact Or.inr ⟨h, hOld, hBefore⟩
      · exact Or.inl rfl
    next => exact Or.inr ⟨h, hOld, hTo⟩

end Attempts

end CircuitDllm

------------------------------------------------------------
-- Steps of the Workers
------------------------------------------------------------

namespace CircuitDllm

namespace Attempts

variable {H : Type} {cfg : AttemptConfig H} {s : Attempts H}

/- _get_cache returns the stored cache or a new one. -/
theorem getCache_cases
    (s : Attempts H)
    (nodeId : String)
    (pos : Nat) :
    (∃ c, pos ≠ 0 ∧ s.store nodeId = some c ∧
      s.getCache nodeId pos = (c, s)) ∨
      s.getCache nodeId pos = getCache.fresh s nodeId := by
  unfold getCache
  split
  next c hStored =>
    split
    next => exact Or.inr rfl
    next hPos => exact Or.inl ⟨c, hPos, hStored, rfl⟩
  next => exact Or.inr rfl

/- What is coming after a frame has been taken up. -/
theorem coming_take
    {h : Handler H}
    {f : SessionFrame H}
    {queue : List (SessionFrame H)}
    (hQueue : h.queue = f :: queue)
    {c : Nat}
    {n : String}
    {g : SessionFrame H}
    (hTo :
      Coming
        { h with
          queue := queue
          working := some (f, c) } n g) :
    Coming h n g := by
  have hTail : ∀ g ∈ queue, g ∈ h.queue := by
    intro g hG
    rw [hQueue]
    exact List.mem_cons_of_mem f hG
  rcases hTo with ⟨hAt, hIn⟩ | ⟨hRest, hIn | ⟨c', hIn⟩⟩
  · exact Or.inl ⟨hAt, hTail g hIn⟩
  · exact Or.inr ⟨hRest, Or.inl (hTail g hIn)⟩
  · rcases Prod.mk.inj (Option.some.inj hIn) with ⟨rfl, _⟩
    refine Or.inr ⟨hRest, Or.inl ?_⟩
    rw [hQueue]
    exact List.mem_cons_self

/- The head of a queue is on its way to the node. -/
theorem coming_head
    {h : Handler H}
    {f : SessionFrame H}
    {queue : List (SessionFrame H)}
    (hQueue : h.queue = f :: queue) :
    Coming h h.node f := by
  refine Or.inl ⟨rfl, ?_⟩
  rw [hQueue]
  exact List.mem_cons_self

/- A frame is taken up on the cache in the store. -/
theorem AttemptInv.take_stored
    (hInv : s.AttemptInv)
    {k c : Nat}
    {h : Handler H}
    {f : SessionFrame H}
    {queue : List (SessionFrame H)}
    (hGet : s.handlers[k]? = some h)
    (hQueue : h.queue = f :: queue)
    (hStored : s.store h.node = some c) :
    AttemptInv
      { s with
        handlers :=
          s.handlers.set k
            { h with
              queue := queue
              working := some (f, c) } } := by
  have hOld := List.mem_of_getElem? hGet
  constructor
  · intro n hN
    have hClean := hInv.clean n hN
    constructor
    · intro x hMem g hTo
      rcases List.mem_or_eq_of_mem_set hMem with hIn | rfl
      · exact hClean.coming x hIn g hTo
      · exact hClean.coming h hOld g (coming_take hQueue hTo)
    · exact hClean.held
    · intro x hMem g c' hWork hAt
      rcases List.mem_or_eq_of_mem_set hMem with hIn | rfl
      · exact hClean.working x hIn g c' hWork hAt
      · rcases Prod.mk.inj (Option.some.inj hWork) with
          ⟨rfl, rfl⟩
        rcases hInv.once n h.node c hAt hStored with rfl
        exact hClean.coming h hOld f (coming_head hQueue)
  · exact hInv.stored
  · intro x hMem g c' hWork
    rcases List.mem_or_eq_of_mem_set hMem with hIn | rfl
    · exact hInv.fetched x hIn g c' hWork
    · rcases Prod.mk.inj (Option.some.inj hWork) with
        ⟨rfl, rfl⟩
      exact hInv.stored h.node c hStored
  · exact hInv.once
  · intro x hMem g c' n hWork hAt
    rcases List.mem_or_eq_of_mem_set hMem with hIn | rfl
    · exact hInv.own x hIn g c' n hWork hAt
    · rcases Prod.mk.inj (Option.some.inj hWork) with
        ⟨rfl, rfl⟩
      exact hInv.once h.node n c hStored hAt

/- An object is the new one at the node, or an old one. -/
theorem AttemptInv.stored_update
    (hInv : s.AttemptInv)
    (node n : String)
    (c : Nat)
    (hC :
      Function.update s.store node (some s.made) n = some c) :
    (n = node ∧ c = s.made) ∨
      (n ≠ node ∧ s.store n = some c ∧ c < s.made) := by
  by_cases hNode : n = node
  · rw [hNode, Function.update_self] at hC
    exact Or.inl ⟨hNode, (Option.some.inj hC).symm⟩
  · rw [Function.update_of_ne hNode] at hC
    exact Or.inr ⟨hNode, hC, hInv.stored n c hC⟩

/- The handler that takes a frame up is on the new object. -/
theorem AttemptInv.working_set
    (hInv : s.AttemptInv)
    (k : Nat)
    (h : Handler H)
    (f : SessionFrame H)
    (queue : List (SessionFrame H))
    (x : Handler H)
    (hMem :
      x ∈ s.handlers.set k
        { h with
          queue := queue
          working := some (f, s.made) })
    (g : SessionFrame H)
    (c : Nat)
    (hWork : x.working = some (g, c)) :
    (x.node = h.node ∧ g = f ∧ c = s.made) ∨
      (x ∈ s.handlers ∧ c < s.made) := by
  rcases List.mem_or_eq_of_mem_set hMem with hIn | rfl
  · exact Or.inr ⟨hIn, hInv.fetched x hIn g c hWork⟩
  · rcases Prod.mk.inj (Option.some.inj hWork) with
      ⟨rfl, rfl⟩
    exact Or.inl ⟨rfl, rfl, rfl⟩

/-
  A frame is taken up on a new cache.  The node may count as
  prefilled from now on if nothing old is coming to it.
-/
theorem AttemptInv.take_fresh
    (hInv : s.AttemptInv)
    {k : Nat}
    {h : Handler H}
    {f : SessionFrame H}
    {queue : List (SessionFrame H)}
    (hGet : s.handlers[k]? = some h)
    (hQueue : h.queue = f :: queue)
    {prefilled : List String}
    (hPrefilled :
      ∀ n ∈ prefilled,
        n ∈ s.prefilled ∨
          (n = h.node ∧
            ∀ x ∈ s.handlers, ∀ g, Coming x n g →
              g.attempt = s.attempt)) :
    AttemptInv
      { s with
        store :=
          Function.update s.store h.node (some s.made)
        caches := Function.update s.caches s.made {}
        made := s.made + 1
        handlers :=
          s.handlers.set k
            { h with
              queue := queue
              working := some (f, s.made) }
        prefilled := prefilled } := by
  have hOld := List.mem_of_getElem? hGet
  have hStore := hInv.stored_update h.node
  have hWorking := hInv.working_set k h f queue
  have hComing :
      ∀ n ∈ prefilled, ∀ x ∈ s.handlers, ∀ g,
        Coming x n g → g.attempt = s.attempt := by
    intro n hN
    rcases hPrefilled n hN with hBefore | ⟨_, hNew⟩
    · exact (hInv.clean n hBefore).coming
    · exact hNew
  constructor
  · intro n hN
    constructor
    · intro x hMem g hTo
      rcases List.mem_or_eq_of_mem_set hMem with hIn | rfl
      · exact hComing n hN x hIn g hTo
      · exact hComing n hN h hOld g (coming_take hQueue hTo)
    · intro c hC a hA
      rcases hStore n c hC with
        ⟨_, rfl⟩ | ⟨hNe, hStored, hLt⟩
      · simp at hA
      · simp only [Function.update_of_ne (Nat.ne_of_lt hLt)]
          at hA
        rcases hPrefilled n hN with hBefore | ⟨hEq, _⟩
        · exact (hInv.clean n hBefore).held c hStored a hA
        · exact absurd hEq hNe
    · intro x hMem g c hWork hC
      rcases hStore n c hC with
        ⟨rfl, rfl⟩ | ⟨hNe, hStored, hLt⟩
      · rcases hWorking x hMem g _ hWork with
          ⟨_, rfl, _⟩ | ⟨_, hLt⟩
        · exact hComing _ hN h hOld g (coming_head hQueue)
        · exact absurd hLt (Nat.lt_irrefl _)
      · rcases hWorking x hMem g c hWork with
          ⟨_, _, rfl⟩ | ⟨hIn, _⟩
        · exact absurd hLt (Nat.lt_irrefl _)
        · rcases hPrefilled n hN with hBefore | ⟨hEq, _⟩
          · exact
              (hInv.clean n hBefore).working x hIn g c hWork
                hStored
          · exact absurd hEq hNe
  · intro n c hC
    rcases hStore n c hC with ⟨_, rfl⟩ | ⟨_, _, hLt⟩
    · exact Nat.lt_succ_self _
    · exact Nat.lt_succ_of_lt hLt
  · intro x hMem g c hWork
    rcases hWorking x hMem g c hWork with
      ⟨_, _, rfl⟩ | ⟨_, hLt⟩
    · exact Nat.lt_succ_self _
    · exact Nat.lt_succ_of_lt hLt
  · intro n n' c hC hC'
    rcases hStore n c hC with
      ⟨rfl, rfl⟩ | ⟨_, hStored, hLt⟩
    · rcases hStore n' _ hC' with ⟨rfl, _⟩ | ⟨_, _, hLt⟩
      · rfl
      · exact absurd hLt (Nat.lt_irrefl _)
    · rcases hStore n' c hC' with
        ⟨_, rfl⟩ | ⟨_, hStored', _⟩
      · exact absurd hLt (Nat.lt_irrefl _)
      · exact hInv.once n n' c hStored hStored'
  · intro x hMem g c n hWork hC
    rcases hWorking x hMem g c hWork with
      ⟨hNode, _, rfl⟩ | ⟨hIn, hLt⟩
    · rcases hStore n _ hC with ⟨rfl, _⟩ | ⟨_, _, hLt⟩
      · exact hNode
      · exact absurd hLt (Nat.lt_irrefl _)
    · rcases hStore n c hC with ⟨_, rfl⟩ | ⟨_, hStored, _⟩
      · exact absurd hLt (Nat.lt_irrefl _)
      · exact hInv.own x hIn g c n hWork hStored

/- KVOP_FREE drops the session from the store. -/
theorem AttemptInv.free
    (hInv : s.AttemptInv)
    (nodeId : String) :
    AttemptInv
      { s with
        store := Function.update s.store nodeId none } := by
  have hStore :
      ∀ n c,
        Function.update s.store nodeId none n = some c →
          s.store n = some c := by
    intro n c hC
    by_cases hNode : n = nodeId
    · rw [hNode, Function.update_self] at hC
      cases hC
    · rwa [Function.update_of_ne hNode] at hC
  constructor
  · intro n hN
    have hClean := hInv.clean n hN
    constructor
    · exact hClean.coming
    · exact fun c hC => hClean.held c (hStore n c hC)
    · exact fun x hMem g c hWork hC =>
        hClean.working x hMem g c hWork (hStore n c hC)
  · exact fun n c hC => hInv.stored n c (hStore n c hC)
  · exact hInv.fetched
  · exact fun n n' c hC hC' =>
      hInv.once n n' c (hStore n c hC) (hStore n' c hC')
  · exact fun x hMem g c n hWork hC =>
      hInv.own x hMem g c n hWork (hStore n c hC)

/- A handler runs its frame on the cache it has fetched. -/
theorem AttemptInv.acted
    (hInv : s.AttemptInv)
    {k c : Nat}
    {h : Handler H}
    {f : SessionFrame H}
    (hGet : s.handlers[k]? = some h)
    (hWork : h.working = some (f, c))
    (stage : Stage H) :
    AttemptInv
      { s with
        caches :=
          Function.update s.caches c
            (actOn stage f (s.caches c)) } := by
  have hOld := List.mem_of_getElem? hGet
  constructor
  · intro n hN
    have hClean := hInv.clean n hN
    refine ⟨hClean.coming, ?_, hClean.working⟩
    intro c' hC a hA
    simp only at hA
    by_cases hSame : c' = c
    · rw [hSame, Function.update_self] at hA
      rcases List.mem_append.mp hA with hBefore | hNew
      · exact hClean.held c (hSame ▸ hC) a hBefore
      · rw [List.mem_singleton] at hNew
        rw [hNew]
        exact hClean.working h hOld f c hWork (hSame ▸ hC)
    · rw [Function.update_of_ne hSame] at hA
      exact hClean.held c' hC a hA
  · exact hInv.stored
  · exact hInv.fetched
  · exact hInv.once
  · exact hInv.own

/-
  A forwarded frame is of its frame's attempt and goes on
  along its route.
-/
theorem of_forwarded
    {stage : Stage H}
    {f f' : SessionFrame H}
    {cache : CacheObject H}
    {next : String}
    (hForward :
      forwarded stage f cache = some (next, f')) :
    f'.attempt = f.attempt ∧
      ∀ n, n = next ∨ n ∈ f'.rest → n ∈ f.rest := by
  unfold forwarded at hForward
  split at hForward
  next pos hidden next' rest hBody =>
    rcases Prod.mk.inj (Option.some.inj hForward) with
      ⟨rfl, rfl⟩
    refine ⟨rfl, fun n hN => ?_⟩
    unfold SessionFrame.rest at hN ⊢
    rw [hBody]
    exact List.mem_cons.mpr hN
  next => cases hForward

theorem AttemptInv.act
    (hInv : s.AttemptInv)
    (k : Nat) :
    (s.act cfg k).AttemptInv := by
  unfold Attempts.act
  split
  next => exact hInv
  next h hGet =>
    split
    next => exact hInv
    next f c hWork =>
      have hActed :=
        (hInv.acted hGet hWork (cfg.stageOf h.node)).set_fewer
          hGet
          (rfl :
            ({ h with working := none } : Handler H).node =
              h.node)
          (fun _ hF => hF) (Or.inr rfl)
      simp only
      split
      next => exact hActed
      next next f' hForward =>
        apply hActed.send (some k)
        rcases of_forwarded hForward with ⟨hSame, hBound⟩
        intro n hN hTo
        rw [hSame]
        exact
          (hInv.clean n hN).coming h
            (List.mem_of_getElem? hGet) f
            (Or.inr ⟨hBound n hTo, Or.inr ⟨c, hWork⟩⟩)

theorem AttemptInv.take
    (hInv : s.AttemptInv)
    {k : Nat}
    (hKeeps : s.overtakes (.take k) = false) :
    (s.take k).AttemptInv := by
  simp only [overtakes] at hKeeps
  unfold Attempts.take
  split
  next => exact hInv
  next h hGet =>
    rw [hGet] at hKeeps
    split
    next f queue hIdle hQueue =>
      simp only [hIdle, hQueue] at hKeeps
      have hTail : ∀ g ∈ queue, g ∈ h.queue := by
        intro g hG
        rw [hQueue]
        exact List.mem_cons_of_mem f hG
      simp only
      split
      next pos hidden rest hBody =>
        rcases s.getCache_cases h.node pos with
          ⟨c, hPos, hStored, hCache⟩ | hCache
        · have hLater : f.isPrefill = false := by
            simp [SessionFrame.isPrefill, hBody, hPos]
          rw [hCache, hLater]
          exact hInv.take_stored hGet hQueue hStored
        · rw [hCache]
          apply hInv.take_fresh hGet hQueue
          intro n hN
          by_cases hLatest :
              (f.isPrefill && f.attempt = s.attempt) = true
          · rw [if_pos hLatest] at hN
            rcases List.mem_cons.mp hN with rfl | hBefore
            · right
              refine ⟨rfl, fun x hX g hTo => ?_⟩
              by_contra hOther
              have hAny :
                  (s.onTheWay h.node).any
                    (fun g => g.attempt ≠ s.attempt) =
                    true := by
                rw [List.any_eq_true]
                exact
                  ⟨g, mem_onTheWay.mpr ⟨x, hX, hTo⟩,
                    by simpa using hOther⟩
              rw [hAny, hLatest] at hKeeps
              cases hKeeps
            · exact Or.inl hBefore
          · rw [if_neg hLatest] at hN
            exact Or.inl hN
      next hBody =>
        exact
          (hInv.set_fewer hGet
            (rfl :
              ({ h with queue := queue } : Handler H).node =
                h.node)
            hTail (Or.inl rfl)).free h.node
      next op _ hBody =>
        cases hStored : s.store h.node with
        | none =>
            exact hInv.set_fewer hGet rfl hTail (Or.inr rfl)
        | some c =>
            exact hInv.take_stored hGet hQueue hStored
    next => exact hInv

end Attempts

end CircuitDllm

------------------------------------------------------------
-- Runs
------------------------------------------------------------

namespace CircuitDllm

namespace Attempts

variable {H : Type} {cfg : AttemptConfig H} {s : Attempts H}

/- A new attempt: no node has taken it up. -/
theorem AttemptInv.prefill
    (hInv : s.AttemptInv) :
    AttemptInv
      { s with
        attempt := s.attempt + 1
        prefilled := [] } where
  clean := by simp
  stored := hInv.stored
  fetched := hInv.fetched
  once := hInv.once
  own := hInv.own

theorem attemptInv_step
    (hInv : s.AttemptInv)
    {e : AttemptEvent H}
    (hKeeps : s.overtakes e = false) :
    (s.step cfg e).AttemptInv := by
  cases e with
  | prefill reset route =>
      simp only [step]
      apply AttemptInv.with_route
      split
      · exact hInv.prefill.sendControl .reset
      · exact hInv.prefill
  | write nodeId pos hidden =>
      simp only [step]
      split
      · exact hInv
      · exact hInv.send none fun _ _ _ => rfl
  | timeout nodeId => exact (hInv.hangUp none nodeId).with_route []
  | control op => exact hInv.sendControl op
  | drop nodeId => exact hInv.hangUp none nodeId
  | take k => exact hInv.take hKeeps
  | act k => exact hInv.act k
  | forwardTimeout k nodeId =>
      exact hInv.hangUp (some k) nodeId
  | lose k received => exact hInv.lose k received

theorem attemptInv_run
    (cfg : AttemptConfig H)
    (es : List (AttemptEvent H))
    (hKeeps :
      ∀ e ∈ trail cfg {} es, e.1.overtakes e.2 = false) :
    (run cfg {} es).AttemptInv :=
  History.induction_of
    (step cfg)
    (fun e => e.1.overtakes e.2 = false)
    (fun _ s => s.AttemptInv)
    attemptInv_new
    (fun _ _ _ hE hInv => attemptInv_step hInv hE)
    hKeeps

/-
  Whatever times out: if no worker takes up the latest
  prefill before the frames of abandoned attempts that are
  on their way to it, the session's KV along the pinned
  route is built by the latest attempt alone.
-/
theorem builtByLatest_run
    (cfg : AttemptConfig H)
    (es : List (AttemptEvent H))
    (hKeeps :
      ∀ e ∈ trail cfg {} es, e.1.overtakes e.2 = false) :
    (run cfg {} es).BuiltByLatest :=
  (attemptInv_run cfg es hKeeps).builtByLatest

/- A chain whose head is slow, and a failover around it. -/
def slowChain : List (AttemptEvent Nat) :=
  [.prefill false ["a", "b"], .write "a" 0 [5],
    .take 0, .act 0, .take 1, .act 1,
    .write "a" 1 [6], .take 0, .act 0, .timeout "a",
    .prefill true ["c", "b"], .write "c" 0 [5],
    .take 2, .act 2]

def chainConfig : AttemptConfig Nat where
  chain := true
  stageOf _ := List.length

/- The late frame is handled first: nothing is wrong. -/
theorem builtByLatest_run_chain :
    (run chainConfig {}
      (slowChain ++
        [.take 1, .act 1, .take 3, .act 3])).BuiltByLatest :=
  builtByLatest_run _ _ (by decide)

/-
  The re-prefill overtakes it: the second node appends a
  position of the abandoned attempt to the new session.
-/
theorem exists_not_builtByLatest :
    ∃ (cfg : AttemptConfig Nat) (es : List (AttemptEvent Nat)),
      ¬ (run cfg {} es).BuiltByLatest := by
  refine
    ⟨chainConfig,
      slowChain ++ [.take 3, .act 3, .take 1, .act 1], ?_⟩
  intro hBuilt
  have hZombie :=
    hBuilt "b" (by decide) (by decide) 3 (by decide) 1
      (by decide)
  exact absurd hZombie (by decide)

end Attempts

end CircuitDllm
