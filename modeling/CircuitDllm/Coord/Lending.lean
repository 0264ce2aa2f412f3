import CircuitDllm.Lib.History

/-
  Connection sets lent to requests
  (engine/coordinator.py, engine/api.py,
  engine/scheduler.py).

  Every thread finds the connection set to write to
  through its context variable: the lent one inside
  request_gate, the coordinator's default one elsewhere.
  The auditor and the batch scheduler never enter the gate.

  Main declarations:
    * `ConnPool.lend`, `ConnPool.takeBack`
    * `ApiRequest.next`, `Server.step`
    * `Server.KeepsToLent`, `Server.Strays`
    * `Server.keepsToLent_run`
-/

------------------------------------------------------------
-- Connection Pool
------------------------------------------------------------

namespace CircuitDllm

/- A _Conn: 0 is the default, the pool's count from 1. -/
abbrev ConnId := Nat

/- self._default_conn -/
def defaultConn : ConnId := 0

/- _active_conn(), under the thread's _current_conn. -/
def activeConn (current : Option ConnId) : ConnId :=
  current.getD defaultConn

/-
  A _ConnPool: the semaphore, the idle stack, its top
  first, and how many it has made.
-/
structure ConnPool where
  permits : Nat
  idle : List ConnId := []
  made : Nat := 0
deriving DecidableEq, Repr

namespace ConnPool

def new (maxsize : Nat) : ConnPool :=
  { permits := max 1 maxsize }

/- scope() up to its yield; none while acquire blocks. -/
def lend (p : ConnPool) : Option (ConnId × ConnPool) :=
  if p.permits = 0 then
    none
  else
    match p.idle with
    | c :: idle =>
        some (c,
          { p with
            permits := p.permits - 1
            idle := idle })
    | [] =>
        some (p.made + 1,
          { p with
            permits := p.permits - 1
            made := p.made + 1 })

/- The finally block of scope(). -/
def takeBack (p : ConnPool) (c : ConnId) : ConnPool :=
  { p with
    permits := p.permits + 1
    idle := c :: p.idle }

/- A lent one was idle before, or is new. -/
theorem of_lend
    {p p' : ConnPool}
    {c : ConnId}
    (hLend : p.lend = some (c, p')) :
    (p.idle = c :: p'.idle ∧ p'.made = p.made) ∨
      (p.idle = [] ∧ p'.idle = [] ∧ c = p.made + 1 ∧
        p'.made = p.made + 1) := by
  unfold lend at hLend
  split at hLend
  · cases hLend
  · split at hLend
    next hIdle =>
      rcases Prod.mk.inj (Option.some.inj hLend) with
        ⟨rfl, rfl⟩
      exact Or.inl ⟨hIdle, rfl⟩
    next hIdle =>
      rcases Prod.mk.inj (Option.some.inj hLend) with
        ⟨rfl, rfl⟩
      exact Or.inr ⟨hIdle, hIdle, rfl, rfl⟩

/-
  Of a pool that has each of its connection sets once, the
  lent one is not among the others, nor any that was out.
-/
theorem lend_spec
    {p p' : ConnPool}
    {c : ConnId}
    (hLend : p.lend = some (c, p'))
    (hNodup : p.idle.Nodup)
    (hMade :
      ∀ c ∈ p.idle, defaultConn < c ∧ c ≤ p.made) :
    p'.idle.Nodup ∧ c ∉ p'.idle ∧
      (∀ c' ∈ p'.idle, c' ∈ p.idle) ∧
      p.made ≤ p'.made ∧
      (defaultConn < c ∧ c ≤ p'.made) ∧
      ∀ c', c' ∉ p.idle → c' ≤ p.made → c' ≠ c := by
  rcases of_lend hLend with
    ⟨hIdle, hEq⟩ | ⟨hEmpty, hNil, hC, hEq⟩
  · have hIn : c ∈ p.idle := by simp [hIdle]
    rw [hIdle] at hNodup
    rcases List.nodup_cons.mp hNodup with ⟨hNot, hRest⟩
    refine
      ⟨hRest, hNot, fun c' hC' => ?_, Nat.le_of_eq hEq.symm,
        ?_, fun c' hOut _ hSame => ?_⟩
    · rw [hIdle]
      exact List.mem_cons_of_mem c hC'
    · rw [hEq]
      exact hMade c hIn
    · rw [hSame] at hOut
      exact hOut hIn
  · have hNone : ∀ c' : ConnId, c' ∉ p'.idle := by
      simp [hNil]
    refine
      ⟨hNil ▸ List.nodup_nil, hNone c,
        fun c' hC' => absurd hC' (hNone c'),
        hEq ▸ Nat.le_succ _, ?_, fun c' _ hLe hSame => ?_⟩
    · rw [hEq, hC]
      exact ⟨Nat.succ_pos _, Nat.le_refl _⟩
    · rw [hSame, hC] at hLe
      exact absurd hLe (Nat.not_succ_le_self _)

end ConnPool

end CircuitDllm

------------------------------------------------------------
-- Requests
------------------------------------------------------------

namespace CircuitDllm

/- Where the decode of a request stands. -/
inductive Phase where
  /- not yet inside request_gate -/
  | waiting
  | running
  /- a stream's generator stands at a yield -/
  | suspended
  /- in its finally block -/
  | cleaning
  | over
deriving DecidableEq, Repr

/- An API request and the thread that serves it. -/
structure ApiRequest where
  streaming : Bool
  phase : Phase := .waiting
  /- the _Conn lent to it, while inside request_gate -/
  lent : Option ConnId := none
  /- _current_conn in its thread -/
  current : Option ConnId := none
  /- the _Conn it is using at the moment -/
  busy : Option ConnId := none
deriving DecidableEq, Repr

/-
  What a request does by itself.  A use of a connection set
  sends frames, awaits their replies or updates the prefix
  cache.
-/
inductive ApiRequestEvent where
  | use
  | used
  /- a stream yields a piece -/
  | emit
  /- the client has the piece -/
  | written
  /- the decode raises, or reaches its end -/
  | fail
  | finish
  /- a suspended generator is finalized -/
  | finalize
  /- the finally block is done -/
  | close
deriving DecidableEq, Repr

namespace ApiRequest

/- A step of a request; none where it cannot be taken. -/
def next (r : ApiRequest) : ApiRequestEvent → Option ApiRequest
| .use =>
    if (r.phase = .running ∨ r.phase = .cleaning) ∧
        r.busy = none then
      some { r with busy := some (activeConn r.current) }
    else none
| .used => some { r with busy := none }
| .emit =>
    if r.streaming ∧ r.phase = .running ∧
        r.busy = none then
      some { r with phase := .suspended }
    else none
| .written =>
    if r.phase = .suspended ∧ r.lent ≠ none then
      some { r with phase := .running }
    else none
| .fail =>
    if r.phase = .running then
      some { r with phase := .cleaning, busy := none }
    else none
| .finish =>
    if r.phase = .running ∧ r.busy = none then
      some { r with phase := .cleaning }
    else none
| .finalize =>
    -- the with block is left before the generator goes
    if r.phase = .suspended ∧ r.lent = none then
      some { r with phase := .cleaning }
    else none
| .close =>
    if r.phase = .cleaning ∧ r.busy = none then
      some { r with phase := .over }
    else none

/- with request_gate(): the decode starts. -/
def enter (r : ApiRequest) (c : ConnId) : ApiRequest :=
  { r with
    phase := .running
    lent := some c
    current := some c }

/- The with block is left, normally or by an exception. -/
def leave (r : ApiRequest) : ApiRequest :=
  { r with
    lent := none
    current := none }

/- A decode under way holds the connection set it uses. -/
structure Holds (r : ApiRequest) : Prop where
  current_eq : r.current = r.lent
  uses : ∀ c, r.busy = some c → r.lent = some c
  outside :
    r.lent = none → r.phase = .waiting ∨ r.phase = .over
  quiet :
    r.phase ≠ .running → r.phase ≠ .cleaning → r.busy = none

/- What a request does by itself leaves the gate alone. -/
theorem lent_of_next
    {r r' : ApiRequest}
    {ev : ApiRequestEvent}
    (hNext : r.next ev = some r') :
    r'.lent = r.lent ∧ r'.current = r.current := by
  cases ev <;> simp only [next] at hNext <;>
    grind

theorem Holds.of_next
    {r r' : ApiRequest}
    (hHolds : r.Holds)
    {ev : ApiRequestEvent}
    (hNext : r.next ev = some r') :
    r'.Holds := by
  rcases hHolds with ⟨hCurrent, hUses, hOutside, hQuiet⟩
  rcases lent_of_next hNext with ⟨hLent, hCurrent'⟩
  refine ⟨by rw [hLent, hCurrent', hCurrent], ?_, ?_, ?_⟩
  · intro c hBusy
    rw [hLent]
    cases ev with
    | use =>
        simp only [next] at hNext
        split at hNext
        next hCan =>
          rw [← Option.some.inj hNext] at hBusy
          -- a decode under way is inside the gate
          cases hL : r.lent with
          | none =>
              rcases hOutside hL with hP | hP <;>
                simp [hP] at hCan
          | some c' =>
              rw [hL] at hCurrent
              simpa [activeConn, hCurrent] using hBusy
        next => cases hNext
    | used | fail =>
        simp only [next] at hNext
        grind
    | emit | written | finish | finalize | close =>
        simp only [next] at hNext
        apply hUses
        grind
  · intro hNone
    have hOld := hOutside (hLent ▸ hNone)
    cases ev <;> simp only [next] at hNext <;> grind
  · intro hRunning hCleaning
    cases ev <;> simp only [next] at hNext <;> grind

/- A waiting request enters. -/
theorem Holds.enter
    {r : ApiRequest}
    (hHolds : r.Holds)
    (hWaiting : r.phase = .waiting)
    (c : ConnId) :
    (r.enter c).Holds := by
  have hBusy : r.busy = none :=
    hHolds.quiet (by simp [hWaiting]) (by simp [hWaiting])
  constructor
  · exact rfl
  · intro c' hC
    exact absurd hC (by simp [ApiRequest.enter, hBusy])
  · intro hNone
    exact absurd hNone (by simp [ApiRequest.enter])
  · intro hRunning
    exact absurd rfl hRunning

/- A request whose decode is over leaves. -/
theorem Holds.leave
    {r : ApiRequest}
    (hHolds : r.Holds)
    (hOver : r.phase = .over) :
    r.leave.Holds := by
  have hBusy : r.busy = none :=
    hHolds.quiet (by simp [hOver]) (by simp [hOver])
  constructor
  · exact rfl
  · intro c' hC
    exact absurd hC (by simp [ApiRequest.leave, hBusy])
  · intro _
    exact Or.inr hOver
  · intro _ _
    exact hBusy

end ApiRequest

end CircuitDllm

------------------------------------------------------------
-- Server
------------------------------------------------------------

namespace CircuitDllm

/- What the server is started with. -/
structure ServerConfig where
  maxConcurrency : Nat
  -- CIRCUIT_BATCH
  batching : Bool
  -- CIRCUIT_VERIFY
  auditing : Bool

/-
  The pool, the requests, and the _Conn that the auditor
  and the scheduler are using.
-/
structure Server where
  pool : ConnPool
  requests : List ApiRequest := []
  auditor : Option ConnId := none
  scheduler : Option ConnId := none
deriving DecidableEq, Repr

/- What happens in the server, in any thread. -/
inductive ServerEvent where
  | arrive (streaming : Bool)
  /- request k passes request_gate -/
  | enter (k : Nat)
  | request (k : Nat) (ev : ApiRequestEvent)
  /- the client's socket raises while its stream waits -/
  | disconnect (k : Nat)
  | leave (k : Nat)
  /- the auditor challenges a node, and has its answer -/
  | audit
  | audited
  /- the scheduler relays a batch, or resets it -/
  | batch
  | batched
deriving DecidableEq, Repr

/- The threads that use connection sets. -/
inductive Thread where
  | handler (k : Nat)
  | auditor
  | scheduler
deriving DecidableEq, Repr

namespace Server

variable (cfg : ServerConfig)

def new : Server :=
  { pool := ConnPool.new cfg.maxConcurrency }

/- ApiRequest k takes a step of its own. -/
def update
    (s : Server)
    (k : Nat)
    (f : ApiRequest → Option ApiRequest) :
    Server :=
  match s.requests[k]? with
  | none => s
  | some r =>
    match f r with
    | none => s
    | some r' =>
        { s with requests := s.requests.set k r' }

/- ApiRequest k leaves the gate if `can` says so. -/
def leaveGate
    (s : Server)
    (k : Nat)
    (can : ApiRequest → Bool) :
    Server :=
  match s.requests[k]? with
  | none => s
  | some r =>
    match r.lent with
    | none => s
    | some c =>
      if can r then
        { s with
          pool := s.pool.takeBack c
          requests := s.requests.set k r.leave }
      else s

/- ApiRequest k enters the gate once a permit is free. -/
def enterGate (s : Server) (k : Nat) : Server :=
  match s.requests[k]? with
  | none => s
  | some r =>
    if r.phase = .waiting then
      match s.pool.lend with
      | none => s
      | some (c, pool) =>
          { s with
            pool := pool
            requests := s.requests.set k (r.enter c) }
    else s

/- A handler of batch mode only submits to the scheduler. -/
def step (s : Server) : ServerEvent → Server
| .arrive streaming =>
    if cfg.batching then s
    else
      { s with
        requests :=
          s.requests ++ [{ streaming := streaming }] }
| .enter k => s.enterGate k
| .request k ev => s.update k (·.next ev)
| .disconnect k =>
    s.leaveGate k (fun r => r.phase = .suspended)
| .leave k => s.leaveGate k (fun r => r.phase = .over)
| .audit =>
    if cfg.auditing then
      { s with auditor := some (activeConn none) }
    else s
| .audited => { s with auditor := none }
| .batch =>
    if cfg.batching then
      { s with scheduler := some (activeConn none) }
    else s
| .batched => { s with scheduler := none }

def run (s : Server) (evs : List ServerEvent) : Server :=
  evs.foldl (step cfg) s

def trail (s : Server) (evs : List ServerEvent) :
    List (Server × ServerEvent) :=
  History.trail (step cfg) s evs

/- The connection set a thread is using. -/
def usedBy (s : Server) : Thread → Option ConnId
| .handler k => s.requests[k]?.bind (·.busy)
| .auditor => s.auditor
| .scheduler => s.scheduler

/-
  A request uses the connection set that is lent to it and
  not back in the pool, and no two threads use the same.
-/
structure KeepsToLent (s : Server) : Prop where
  lent :
    ∀ (k : Nat) (r : ApiRequest) (c : ConnId),
      s.requests[k]? = some r → r.busy = some c →
        r.lent = some c ∧ c ∉ s.pool.idle
  apart :
    ∀ (t t' : Thread) (c : ConnId),
      s.usedBy t = some c → s.usedBy t' = some c → t = t'

/-
  What the code does not guard against: a stream abandoned
  at a yield, and the auditor and the scheduler both at
  work on the default connection set.
-/
def Strays (s : Server) : ServerEvent → Prop
| .disconnect k =>
    ∃ r,
      s.requests[k]? = some r ∧ r.lent ≠ none ∧
        r.phase = .suspended
| .audit => s.scheduler ≠ none
| .batch => s.auditor ≠ none
| _ => False

end Server

end CircuitDllm

------------------------------------------------------------
-- Invariant
------------------------------------------------------------

namespace CircuitDllm

namespace Server

variable {cfg : ServerConfig} {s : Server}

/- The connection set that is lent to request k. -/
def lentTo (s : Server) (k : Nat) : Option ConnId :=
  s.requests[k]?.bind (·.lent)

/- Every connection set of the pool is in one place. -/
structure PoolInv (s : Server) : Prop where
  nodup : s.pool.idle.Nodup
  made :
    ∀ c ∈ s.pool.idle, defaultConn < c ∧ c ≤ s.pool.made
  lentMade :
    ∀ k c, s.lentTo k = some c →
      defaultConn < c ∧ c ≤ s.pool.made
  notIdle :
    ∀ k c, s.lentTo k = some c → c ∉ s.pool.idle
  once :
    ∀ k k' c,
      s.lentTo k = some c → s.lentTo k' = some c → k = k'

structure LendInv (s : Server) : Prop where
  holds : ∀ r ∈ s.requests, r.Holds
  pool : s.PoolInv
  auditor : ∀ c, s.auditor = some c → c = defaultConn
  scheduler : ∀ c, s.scheduler = some c → c = defaultConn
  oneOfThem : s.auditor = none ∨ s.scheduler = none

/- The invariant gives the discipline. -/
theorem LendInv.keepsToLent
    (hInv : s.LendInv) :
    s.KeepsToLent := by
  have hLentTo :
      ∀ k c, s.usedBy (.handler k) = some c →
        s.lentTo k = some c := by
    intro k c hUsed
    rcases Option.bind_eq_some_iff.mp hUsed with
      ⟨r, hR, hBusy⟩
    have hHolds := hInv.holds r (List.mem_of_getElem? hR)
    exact Option.bind_eq_some_iff.mpr
      ⟨r, hR, hHolds.uses c hBusy⟩
  have hNotDefault :
      ∀ k c, s.usedBy (.handler k) = some c →
        c ≠ defaultConn := by
    intro k c hUsed
    exact Nat.ne_of_gt
      (hInv.pool.lentMade k c (hLentTo k c hUsed)).1
  constructor
  · intro k r c hR hBusy
    have hLent :=
      (hInv.holds r (List.mem_of_getElem? hR)).uses c hBusy
    refine ⟨hLent, hInv.pool.notIdle k c ?_⟩
    exact Option.bind_eq_some_iff.mpr ⟨r, hR, hLent⟩
  · intro t t' c hT hT'
    cases t with
    | handler k =>
        cases t' with
        | handler k' =>
            rw [hInv.pool.once k k' c
              (hLentTo k c hT) (hLentTo k' c hT')]
        | auditor =>
            exact absurd (hInv.auditor c hT')
              (hNotDefault k c hT)
        | scheduler =>
            exact absurd (hInv.scheduler c hT')
              (hNotDefault k c hT)
    | auditor =>
        cases t' with
        | handler k' =>
            exact absurd (hInv.auditor c hT)
              (hNotDefault k' c hT')
        | auditor => rfl
        | scheduler =>
            rcases hInv.oneOfThem with hNone | hNone <;>
              simp_all [usedBy]
    | scheduler =>
        cases t' with
        | handler k' =>
            exact absurd (hInv.scheduler c hT)
              (hNotDefault k' c hT')
        | auditor =>
            rcases hInv.oneOfThem with hNone | hNone <;>
              simp_all [usedBy]
        | scheduler => rfl

theorem lendInv_new (cfg : ServerConfig) :
    (new cfg).LendInv where
  holds := by simp [new]
  pool := by
    constructor <;> simp [new, ConnPool.new, lentTo]
  auditor := by simp [new]
  scheduler := by simp [new]
  oneOfThem := Or.inl rfl

end Server

end CircuitDllm

------------------------------------------------------------
-- Steps
------------------------------------------------------------

namespace CircuitDllm

namespace Server

variable {cfg : ServerConfig} {s : Server}

/- What request k holds after one of them is replaced. -/
theorem lentTo_set
    (s : Server)
    (p : ConnPool)
    {k : Nat}
    {r r' : ApiRequest}
    (hR : s.requests[k]? = some r)
    (k' : Nat) :
    ({ s with
        pool := p
        requests := s.requests.set k r' } : Server).lentTo
        k' =
      if k' = k then r'.lent else s.lentTo k' := by
  have hLt := (List.getElem?_eq_some_iff.mp hR).1
  unfold lentTo
  by_cases hEq : k' = k
  · rw [if_pos hEq, hEq, List.getElem?_set_self hLt]
    rfl
  · rw [if_neg hEq,
      List.getElem?_set_ne (fun h => hEq h.symm)]

theorem lentTo_eq
    {k : Nat}
    {r : ApiRequest}
    (hR : s.requests[k]? = some r) :
    s.lentTo k = r.lent := by
  unfold lentTo
  rw [hR]
  rfl

/- A request that keeps what it holds. -/
theorem LendInv.update
    (hInv : s.LendInv)
    (k : Nat)
    (ev : ApiRequestEvent) :
    (s.update k (·.next ev)).LendInv := by
  unfold Server.update
  split
  next => exact hInv
  next r hR =>
    have hHolds := hInv.holds r (List.mem_of_getElem? hR)
    split
    next => exact hInv
    next r' hNext =>
      have hSame :
          ∀ k',
            ({ s with
                requests := s.requests.set k r' } :
              Server).lentTo k' = s.lentTo k' := by
        intro k'
        rw [lentTo_set s s.pool hR]
        split
        next hEq =>
          rw [hEq, lentTo_eq hR]
          exact (ApiRequest.lent_of_next hNext).1
        next => rfl
      rcases hInv with ⟨hAll, hPool, hAud, hSched, hOne⟩
      refine ⟨?_, ?_, hAud, hSched, hOne⟩
      · intro x hX
        rcases List.mem_or_eq_of_mem_set hX with hOld | rfl
        · exact hAll x hOld
        · exact hHolds.of_next hNext
      · rcases hPool with ⟨hNd, hMade, hLM, hNI, hOnce⟩
        constructor
        · exact hNd
        · exact hMade
        · intro k' c hC
          exact hLM k' c (hSame k' ▸ hC)
        · intro k' c hC
          exact hNI k' c (hSame k' ▸ hC)
        · intro k₁ k₂ c h₁ h₂
          exact hOnce k₁ k₂ c (hSame k₁ ▸ h₁) (hSame k₂ ▸ h₂)

/- The pool lends a connection set to request k. -/
theorem PoolInv.enter
    (hPool : s.PoolInv)
    {k : Nat}
    {r : ApiRequest}
    (hR : s.requests[k]? = some r)
    {c : ConnId}
    {pool : ConnPool}
    (hLend : s.pool.lend = some (c, pool)) :
    ({ s with
        pool := pool
        requests := s.requests.set k (r.enter c) } :
      Server).PoolInv := by
  rcases hPool with ⟨hNd, hMade, hLM, hNI, hOnce⟩
  rcases ConnPool.lend_spec hLend hNd hMade with
    ⟨hNodup, hNotIdle, hSub, hLe, hC, hOut⟩
  -- the lent one was nobody's
  have hFresh : ∀ k', s.lentTo k' ≠ some c := by
    intro k' hK
    exact hOut c (hNI k' c hK) (hLM k' c hK).2 rfl
  constructor
  · exact hNodup
  · intro c' hC'
    rcases hMade c' (hSub c' hC') with ⟨hPos, hOld⟩
    exact ⟨hPos, Nat.le_trans hOld hLe⟩
  · intro k' c' hK
    rw [lentTo_set s pool hR] at hK
    split at hK
    · rw [← Option.some.inj hK]
      exact hC
    · rcases hLM k' c' hK with ⟨hPos, hOld⟩
      exact ⟨hPos, Nat.le_trans hOld hLe⟩
  · intro k' c' hK hMem
    rw [lentTo_set s pool hR] at hK
    split at hK
    · rw [← Option.some.inj hK] at hMem
      exact hNotIdle hMem
    · exact hNI k' c' hK (hSub c' hMem)
  · intro k₁ k₂ c' h₁ h₂
    rw [lentTo_set s pool hR] at h₁ h₂
    split at h₁ <;> split at h₂
    · simp_all
    · rw [← Option.some.inj h₁] at h₂
      exact absurd h₂ (hFresh k₂)
    · rw [← Option.some.inj h₂] at h₁
      exact absurd h₁ (hFresh k₁)
    · exact hOnce k₁ k₂ c' h₁ h₂

/- The pool takes the connection set of request k back. -/
theorem PoolInv.leave
    (hPool : s.PoolInv)
    {k : Nat}
    {r : ApiRequest}
    (hR : s.requests[k]? = some r)
    {c : ConnId}
    (hLent : r.lent = some c) :
    ({ s with
        pool := s.pool.takeBack c
        requests := s.requests.set k r.leave } :
      Server).PoolInv := by
  rcases hPool with ⟨hNd, hMade, hLM, hNI, hOnce⟩
  have hK : s.lentTo k = some c := by
    rw [lentTo_eq hR, hLent]
  have hOther :
      ∀ {k' c'},
        ({ s with
            pool := s.pool.takeBack c
            requests := s.requests.set k r.leave } :
          Server).lentTo k' = some c' →
          k' ≠ k ∧ s.lentTo k' = some c' := by
    intro k' c' h
    rw [lentTo_set s _ hR] at h
    split at h
    · cases h
    next hNe => exact ⟨hNe, h⟩
  constructor
  · exact List.nodup_cons.mpr ⟨hNI k c hK, hNd⟩
  · intro c' hC
    rcases List.mem_cons.mp hC with rfl | hOld
    · exact hLM k c' hK
    · exact hMade c' hOld
  · intro k' c' h
    exact hLM k' c' (hOther h).2
  · intro k' c' h hMem
    rcases hOther h with ⟨hNe, hOld⟩
    rcases List.mem_cons.mp hMem with rfl | hIdle
    · exact hNe (hOnce k' k c' hOld hK)
    · exact hNI k' c' hOld hIdle
  · intro k₁ k₂ c' h₁ h₂
    exact hOnce k₁ k₂ c' (hOther h₁).2 (hOther h₂).2

theorem LendInv.enterGate
    (hInv : s.LendInv)
    (k : Nat) :
    (s.enterGate k).LendInv := by
  rcases hInv with ⟨hAll, hPool, hAud, hSched, hOne⟩
  unfold Server.enterGate
  split
  next => exact ⟨hAll, hPool, hAud, hSched, hOne⟩
  next r hR =>
    have hHolds := hAll r (List.mem_of_getElem? hR)
    split
    next hWaiting =>
      split
      next => exact ⟨hAll, hPool, hAud, hSched, hOne⟩
      next c pool hLend =>
        refine
          ⟨?_, hPool.enter hR hLend, hAud, hSched, hOne⟩
        intro x hX
        rcases List.mem_or_eq_of_mem_set hX with hOld | rfl
        · exact hAll x hOld
        · exact hHolds.enter hWaiting c
    next => exact ⟨hAll, hPool, hAud, hSched, hOne⟩

theorem LendInv.leave
    (hInv : s.LendInv)
    (k : Nat) :
    (s.leaveGate k
      (fun r => r.phase = .over)).LendInv := by
  rcases hInv with ⟨hAll, hPool, hAud, hSched, hOne⟩
  unfold Server.leaveGate
  split
  next => exact ⟨hAll, hPool, hAud, hSched, hOne⟩
  next r hR =>
    have hHolds := hAll r (List.mem_of_getElem? hR)
    split
    next => exact ⟨hAll, hPool, hAud, hSched, hOne⟩
    next c hLent =>
      split
      next hOver =>
        refine
          ⟨?_, hPool.leave hR hLent, hAud, hSched, hOne⟩
        intro x hX
        rcases List.mem_or_eq_of_mem_set hX with hOld | rfl
        · exact hAll x hOld
        · exact hHolds.leave (by simpa using hOver)
      next => exact ⟨hAll, hPool, hAud, hSched, hOne⟩

/- A request arrives. -/
theorem LendInv.arrive
    (hInv : s.LendInv)
    (streaming : Bool) :
    ({ s with
        requests :=
          s.requests ++ [{ streaming := streaming }] } :
      Server).LendInv := by
  have hSame :
      ∀ k,
        ({ s with
            requests :=
              s.requests ++ [{ streaming := streaming }] } :
          Server).lentTo k = s.lentTo k := by
    intro k
    unfold lentTo
    rw [List.getElem?_append]
    split
    next => rfl
    next hLt =>
      rw [List.getElem?_eq_none (Nat.le_of_not_lt hLt)]
      cases k - s.requests.length <;> rfl
  rcases hInv with ⟨hAll, hPool, hAud, hSched, hOne⟩
  refine ⟨?_, ?_, hAud, hSched, hOne⟩
  · intro r hR
    rcases List.mem_append.mp hR with hOld | hNew
    · exact hAll r hOld
    · rw [List.mem_singleton] at hNew
      rw [hNew]
      constructor <;> simp
  · rcases hPool with ⟨hNd, hMade, hLM, hNI, hOnce⟩
    constructor
    · exact hNd
    · exact hMade
    · intro k c hC
      exact hLM k c (hSame k ▸ hC)
    · intro k c hC
      exact hNI k c (hSame k ▸ hC)
    · intro k₁ k₂ c h₁ h₂
      exact hOnce k₁ k₂ c (hSame k₁ ▸ h₁) (hSame k₂ ▸ h₂)

/- A step that does not stray keeps the invariant. -/
theorem lendInv_step
    (hInv : s.LendInv)
    {ev : ServerEvent}
    (hKeeps : ¬ s.Strays ev) :
    (s.step cfg ev).LendInv := by
  cases ev with
  | arrive streaming =>
      simp only [step]
      split
      · exact hInv
      · exact hInv.arrive streaming
  | enter k => exact hInv.enterGate k
  | request k ev => exact hInv.update k ev
  | leave k => exact hInv.leave k
  | disconnect k =>
      have hSame : s.step cfg (.disconnect k) = s := by
        simp only [step, leaveGate]
        split
        next => rfl
        next r hR =>
          split
          next => rfl
          next c hLent =>
            split
            next hSusp =>
              refine absurd ⟨r, hR, ?_, ?_⟩ hKeeps
              · simp [hLent]
              · simpa using hSusp
            next => rfl
      rw [hSame]
      exact hInv
  | audit =>
      simp only [step]
      split
      · have hNone : s.scheduler = none := by
          simpa [Strays] using hKeeps
        rcases hInv with ⟨hAll, hPool, hAud, hSched, hOne⟩
        refine ⟨hAll, ?_, ?_, hSched, Or.inr hNone⟩
        · exact ⟨hPool.nodup, hPool.made, hPool.lentMade,
            hPool.notIdle, hPool.once⟩
        · intro c hC
          exact (Option.some.inj hC).symm
      · exact hInv
  | audited =>
      rcases hInv with ⟨hAll, hPool, hAud, hSched, hOne⟩
      refine ⟨hAll, ?_, ?_, hSched, Or.inl rfl⟩
      · exact ⟨hPool.nodup, hPool.made, hPool.lentMade,
          hPool.notIdle, hPool.once⟩
      · intro c hC
        cases hC
  | batch =>
      simp only [step]
      split
      · have hNone : s.auditor = none := by
          simpa [Strays] using hKeeps
        rcases hInv with ⟨hAll, hPool, hAud, hSched, hOne⟩
        refine ⟨hAll, ?_, hAud, ?_, Or.inl hNone⟩
        · exact ⟨hPool.nodup, hPool.made, hPool.lentMade,
            hPool.notIdle, hPool.once⟩
        · intro c hC
          exact (Option.some.inj hC).symm
      · exact hInv
  | batched =>
      rcases hInv with ⟨hAll, hPool, hAud, hSched, hOne⟩
      refine ⟨hAll, ?_, hAud, ?_, Or.inr rfl⟩
      · exact ⟨hPool.nodup, hPool.made, hPool.lentMade,
          hPool.notIdle, hPool.once⟩
      · intro c hC
        cases hC

end Server

end CircuitDllm

------------------------------------------------------------
-- Runs
------------------------------------------------------------

namespace CircuitDllm

namespace Server

theorem lendInv_run
    (cfg : ServerConfig)
    (evs : List ServerEvent)
    (hKeeps :
      ∀ e ∈ trail cfg (new cfg) evs, ¬ e.1.Strays e.2) :
    (run cfg (new cfg) evs).LendInv :=
  History.induction_of
    (step cfg)
    (fun e => ¬ e.1.Strays e.2)
    (fun _ s => s.LendInv)
    (lendInv_new cfg)
    (fun _ _ _ hE hInv => lendInv_step hInv hE)
    hKeeps

/-
  While no stream is abandoned at a yield, and the auditor
  and the scheduler are never at work at once, every
  request uses the connection set lent to it.
-/
theorem keepsToLent_run
    (cfg : ServerConfig)
    (evs : List ServerEvent)
    (hKeeps :
      ∀ e ∈ trail cfg (new cfg) evs, ¬ e.1.Strays e.2) :
    (run cfg (new cfg) evs).KeepsToLent :=
  (lendInv_run cfg evs hKeeps).keepsToLent

/- Two streams in turn over the same connection set. -/
theorem keepsToLent_run_two :
    (run
      { maxConcurrency := 1, batching := false,
        auditing := true }
      (new
        { maxConcurrency := 1, batching := false,
          auditing := true })
      [.arrive true, .arrive true, .enter 0, .enter 1,
        .request 0 .use, .audit, .request 0 .used,
        .request 0 .emit, .request 0 .written,
        .request 0 .finish, .request 0 .use,
        .request 0 .used, .request 0 .close, .leave 0,
        .audited, .enter 1, .request 1 .use]).KeepsToLent :=
  keepsToLent_run _ _ fun e hE => by
    simp only [trail, History.trail, List.mem_cons,
      List.not_mem_nil, or_false] at hE
    rcases hE with rfl | rfl | rfl | rfl | rfl | rfl | rfl |
      rfl | rfl | rfl | rfl | rfl | rfl | rfl | rfl | rfl |
      rfl <;> first | exact id | exact fun h => h rfl

/-
  A client goes away at the first piece: the cleanup of
  its stream runs outside the gate, on the default set.
-/
theorem exists_not_keepsToLent :
    ∃ (cfg : ServerConfig) (evs : List ServerEvent),
      ¬ (run cfg (new cfg) evs).KeepsToLent := by
  refine
    ⟨{ maxConcurrency := 1, batching := false,
       auditing := false },
      [.arrive true, .enter 0, .request 0 .use,
        .request 0 .used, .request 0 .emit, .disconnect 0,
        .request 0 .finalize, .request 0 .use], ?_⟩
  intro hKeeps
  have hBusy :
      (run
        { maxConcurrency := 1, batching := false,
          auditing := false }
        (new
          { maxConcurrency := 1, batching := false,
            auditing := false })
        [.arrive true, .enter 0, .request 0 .use,
          .request 0 .used, .request 0 .emit,
          .disconnect 0, .request 0 .finalize,
          .request 0 .use]).requests[0]? =
        some
          { streaming := true
            phase := .cleaning
            busy := some defaultConn } := by
    decide
  exact absurd (hKeeps.lent 0 _ _ hBusy rfl).1 (by simp)

end Server

end CircuitDllm
