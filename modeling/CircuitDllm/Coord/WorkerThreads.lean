import CircuitDllm.Coord.State
import CircuitDllm.Lib.LockedStore

/-
  The threads of a stage worker (engine/stage_worker.py:
  _serve_conn, _handle, _get_cache, _session_reaper).

  A peer's thread looks its session's cache up under the
  store's lock, and runs the stage or changes the cache when
  it has left it.  Only the stage runs under a lock of its
  own, so two threads must not have one cache; then the
  threads and the reaper do what `Worker` does frame after
  frame, in the order of the lookups.

  Main declarations:
    * `WorkerFrame`, `WorkerFrame.call`
    * `WorkerThreads.step`, `WorkerThreads.SingleOwner`
    * `Served`, `WorkerThreads.log`
    * `WorkerThreads.threads_serve`
    * `WorkerThreads.peer_alone`
-/

------------------------------------------------------------
-- Frames and Caches
------------------------------------------------------------

namespace CircuitDllm

open LockedStore

variable {H : Type}

/- A frame that a cache is looked up for. -/
inductive WorkerFrame (H : Type) where
  | activation (session pos : Nat) (hidden : List H)
  | control (op : KvOp) (session : Nat)

/- How the frame's thread comes to a cache. -/
def WorkerFrame.call :
    WorkerFrame H → Call Nat (WorkerFrame H)
| .activation session pos hidden =>
    ⟨session, if pos = 0 then .renew else .ensure,
      .activation session pos hidden⟩
| .control .free session =>
    ⟨session, .drop, .control .free session⟩
| .control .reset session =>
    ⟨session, .find, .control .reset session⟩
| .control (.truncate length) session =>
    ⟨session, .find, .control (.truncate length) session⟩

/- What the frame does to the cache, and its RESULT. -/
def caches (stage : Stage H) :
    Objects (StageKV H) (WorkerFrame H) (Option (List H)) where
  new := []
  act
  | .activation _ pos hidden, kv =>
    ((some (stage.forward hidden pos kv).1),
      (stage.forward hidden pos kv).2)
  | .control .reset _, kv => (none, kv.reset)
  | .control (.truncate length) _, kv =>
    (none, kv.truncateTo length)
  | .control .free _, kv => (none, kv)

end CircuitDllm

------------------------------------------------------------
-- Threads
------------------------------------------------------------

namespace CircuitDllm

namespace WorkerThreads

open LockedStore

variable {H : Type}

abbrev State (H : Type) :=
  Shared Nat (StageKV H) (WorkerFrame H) (Option (List H)) ℚ

/- No session yet, and every thread waits for a frame. -/
def start : State H := { heap := fun _ => [] }

inductive Event (H : Type) where
  /- thread t has read a frame -/
  | frame (t : Nat) (request : WorkerFrame H)
  /- it is under the lock -/
  | lookup (t : Nat) (now : ℚ)
  /- it works on its cache, and answers -/
  | work (t : Nat)
  | reap (sessionTtl now : ℚ)

def Event.move : Event H → Move Nat (WorkerFrame H) ℚ
| .frame t request => .ask t request.call
| .lookup t now => .lookup t now
| .work t => .act t
| .reap sessionTtl now =>
    .reap (fun t => t < now - sessionTtl)

def step
    (stage : Stage H)
    (s : State H)
    (e : Event H) :
    State H :=
  s.step (caches stage) e.move

/- No other thread has the cache that is looked up. -/
def SingleOwner (e : State H × Event H) : Prop :=
  e.1.Apart e.2.move

/- The RESULT frames of a thread's peer. -/
def replies (s : State H) (t : Nat) : List (List H) :=
  (s.results t).filterMap Option.join

end WorkerThreads

end CircuitDllm

------------------------------------------------------------
-- Frame After Frame
------------------------------------------------------------

namespace CircuitDllm

variable {H : Type}

namespace Worker

/- One frame, from its lookup to its RESULT. -/
def serve
    (stage : Stage H)
    (request : WorkerFrame H)
    (now : ℚ)
    (w : Worker H) :
    Option (List H) × Worker H :=
  match request with
  | .activation session pos hidden =>
    let (out, w) := w.activate stage session pos hidden now
    (some out, w)
  | .control op session => (none, w.control op session now)

end Worker

/- A worker, and the RESULT frames of each thread's peer. -/
structure Served (H : Type) where
  worker : Worker H := {}
  replies : Nat → List (List H) := fun _ => []

/- A frame of a thread, or a sweep of the reaper. -/
inductive Service (H : Type) where
  | frame (t : Nat) (request : WorkerFrame H) (now : ℚ)
  | reap (sessionTtl now : ℚ)

def Served.step
    (stage : Stage H)
    (served : Served H) :
    Service H → Served H
| .frame t request now =>
    { worker := (served.worker.serve stage request now).2
      replies :=
        Function.update served.replies t
          (served.replies t ++
            (served.worker.serve stage
              request now).1.toList) }
| .reap sessionTtl now =>
    { served with
      worker := served.worker.reap sessionTtl now }

namespace WorkerThreads

open LockedStore

/- A frame counts when its cache is looked up. -/
def service (e : State H × Event H) : Option (Service H) :=
  match e.2 with
  | .lookup t now =>
    match e.1.pc t with
    | .asked call => some (.frame t call.code now)
    | _ => none
  | .reap sessionTtl now => some (.reap sessionTtl now)
  | _ => none

/- The frames of a run in the order of their lookups. -/
def log
    (stage : Stage H)
    (events : List (Event H)) :
    List (Service H) :=
  (History.trail (step stage) start events).filterMap service

end WorkerThreads

end CircuitDllm

------------------------------------------------------------
-- Threads Serve Frame After Frame
------------------------------------------------------------

namespace CircuitDllm

namespace WorkerThreads

open LockedStore

variable {H : Type} (stage : Stage H)

/- A worker as a store of caches. -/
def store (w : Worker H) : Store Nat (StageKV H) ℚ :=
  ⟨w.sessions, w.touch⟩

/- A call on the store is the worker's own serving. -/
theorem perform_call
    (request : WorkerFrame H)
    (now : ℚ)
    (w : Worker H) :
    ((store w).perform (caches stage) request.call now).1.join =
        (w.serve stage request now).1 ∧
      ((store w).perform (caches stage) request.call now).2 =
        store (w.serve stage request now).2 := by
  cases request with
  | activation session pos hidden =>
      cases hKv : w.sessions.get? session with
      | none =>
          by_cases hPos : pos = 0 <;>
            simp [Store.perform, Store.update, WorkerFrame.call,
              Worker.serve, Worker.activate, Worker.getCache,
              Worker.kv, caches, store, hPos, hKv]
      | some kv =>
          by_cases hPos : pos = 0 <;>
            simp [Store.perform, Store.update, WorkerFrame.call,
              Worker.serve, Worker.activate, Worker.getCache,
              Worker.kv, caches, store, hPos, hKv]
  | control op session =>
      cases hKv : w.sessions.get? session with
      | none =>
          cases op <;>
            simp [Store.perform, WorkerFrame.call, Worker.serve,
              Worker.control, store, hKv]
      | some kv =>
          cases op <;>
            simp [Store.perform, Store.update, WorkerFrame.call,
              Worker.serve, Worker.control, caches, store, hKv]

/- The RESULT frame of one call, if it has one. -/
theorem filterMap_join {R : Type} (r : Option (Option R)) :
    [r].filterMap Option.join = r.join.toList := by
  rcases r with _ | _ | r <;> rfl

/- Both sides have the same caches and the same answers. -/
structure Agree
    (a : Serial Nat (StageKV H) (Option (List H)) ℚ)
    (served : Served H) :
    Prop where
  store : a.store = store served.worker
  replies :
    ∀ t, (a.results t).filterMap Option.join =
      served.replies t

theorem Agree.frame
    {a : Serial Nat (StageKV H) (Option (List H)) ℚ}
    {served : Served H}
    (hAgree : Agree a served)
    (t : Nat)
    (request : WorkerFrame H)
    (now : ℚ) :
    Agree
      (a.step (caches stage) (.call t request.call now))
      (served.step stage (.frame t request now)) := by
  have hServe :=
    perform_call stage request now served.worker
  rw [← hAgree.store] at hServe
  refine ⟨hServe.2, ?_⟩
  intro t'
  by_cases hEq : t' = t
  · subst hEq
    simp only [Serial.step, Served.step, Function.update_self,
      List.filterMap_append, hAgree.replies, ← hServe.1,
      filterMap_join]
  · simpa [Serial.step, Served.step, hEq]
      using hAgree.replies t'

theorem Agree.reap
    {a : Serial Nat (StageKV H) (Option (List H)) ℚ}
    {served : Served H}
    (hAgree : Agree a served)
    (sessionTtl now : ℚ) :
    Agree
      (a.step (caches stage)
        (.reap (fun t => t < now - sessionTtl)))
      (served.step stage (.reap sessionTtl now)) := by
  refine ⟨?_, hAgree.replies⟩
  change a.store.reap _ = _
  rw [hAgree.store]
  rfl

/- A thread's call is the one its frame asks for. -/
def Asking (s : State H) : Prop :=
  ∀ t call,
    s.pc t = .asked call → ∃ request : WorkerFrame H,
      call = request.call

theorem code_call (request : WorkerFrame H) :
    request.call.code = request := by
  rcases request with _ | ⟨_ | _ | _, _⟩ <;> rfl

/- Only reading a frame gives a thread something to ask. -/
theorem asking_step
    {s : State H}
    (hAsking : Asking s)
    (e : Event H) :
    Asking (step stage s e) := by
  have hOther :
      ∀ (s' : State H) (t : Nat) (pc : Pc Nat (WorkerFrame H)),
        (∀ call, pc ≠ .asked call) →
          s'.pc = Function.update s.pc t pc → Asking s' := by
    intro s' t pc hNot hPc t' call hAsked
    rw [hPc] at hAsked
    by_cases hEq : t' = t
    · subst hEq
      rw [Function.update_self] at hAsked
      exact absurd hAsked (hNot call)
    · rw [Function.update_of_ne hEq] at hAsked
      exact hAsking t' call hAsked
  unfold step
  cases e with
  | frame t request =>
      simp only [Event.move, Shared.step]
      split
      next hIdle =>
          intro t' call hAsked
          by_cases hEq : t' = t
          · subst hEq
            simp only [Shared.goto, Function.update_self,
              Pc.asked.injEq] at hAsked
            exact ⟨request, hAsked.symm⟩
          · simp only [Shared.goto,
              Function.update_of_ne hEq] at hAsked
            exact hAsking t' call hAsked
      next => exact hAsking
  | lookup t now =>
      simp only [Event.move, Shared.step]
      split
      next call _ =>
          unfold Shared.look
          split
          · exact hOther _ t (.holding call s.next)
              (by simp) rfl
          · exact hOther _ t (.holding call s.next)
              (by simp) rfl
          next address _ _ =>
              exact hOther _ t (.holding call address)
                (by simp) rfl
          · exact hOther _ t .idle (by simp) rfl
          next address _ _ =>
              exact hOther _ t (.holding call address)
                (by simp) rfl
          · exact hOther _ t .idle (by simp) rfl
      next => exact hAsking
  | work t =>
      simp only [Event.move, Shared.step]
      split
      · exact hOther _ t .idle (by simp) rfl
      next => exact hAsking
  | reap sessionTtl now => exact hAsking

/- The logs of one run agree. -/
theorem agree_log (events : List (Event H)) :
    Agree
      ((Shared.log (caches stage) start
        (events.map Event.move)).foldl
          (Serial.step (caches stage)) {})
      ((log stage events).foldl (Served.step stage) {}) := by
  unfold Shared.log log
  rw [History.trail_map, List.filterMap_map]
  let Holds := fun (past : List (State H × Event H)) (s : State H) =>
    Asking s ∧
      Agree
        ((past.filterMap (fun e : State H × Event H =>
          e.1.entryOf e.2.move)).foldl
            (Serial.step (caches stage)) {})
        ((past.filterMap service).foldl
          (Served.step stage) {})
  have hInit : Holds [] start :=
    ⟨fun _ _ h => (nomatch h), rfl, fun _ => rfl⟩
  refine (History.induction (step stage) Holds hInit
    ?_ events).2
  intro past s e ⟨hAsking, hAgree⟩
  refine ⟨asking_step stage hAsking e, ?_⟩
  rw [List.filterMap_append, List.filterMap_append,
    List.foldl_append, List.foldl_append]
  cases e with
  | frame t request => exact hAgree
  | work t => exact hAgree
  | reap sessionTtl now => exact hAgree.reap stage sessionTtl now
  | lookup t now =>
      cases hPc : s.pc t with
      | idle =>
          simpa [Shared.entryOf, Event.move, service, hPc]
            using hAgree
      | holding call address =>
          simpa [Shared.entryOf, Event.move, service, hPc]
            using hAgree
      | asked call =>
          rcases hAsking t call hPc with ⟨request, rfl⟩
          have hFrame :=
            hAgree.frame stage t request now
          simpa [Shared.entryOf, Event.move, service, hPc,
            code_call] using hFrame

variable {events : List (Event H)}

/- The run is one of the locked store. -/
theorem linear_run
    (hOwner :
      ∀ e ∈ History.trail (step stage) start events,
        SingleOwner e) :
    let s := events.foldl (step stage) start
    let a :=
      (Shared.log (caches stage) start
        (events.map Event.move)).foldl
          (Serial.step (caches stage)) {}
    (∀ t, s.results t <+: a.results t) ∧
      (∀ t, (∀ call address, s.pc t ≠ .holding call address) →
        s.results t = a.results t) ∧
      s.touch = a.store.touch ∧
      ((∀ t call address, s.pc t ≠ .holding call address) →
        ∀ k, (s.table.get? k).map s.heap =
          a.store.objects.get? k) := by
  have hApart :
      ∀ e ∈ History.trail (Shared.step (caches stage)) start
          (events.map Event.move),
        e.1.Apart e.2 := by
    intro e hMem
    rw [History.trail_map] at hMem
    rcases List.mem_map.mp hMem with ⟨e', hMem', rfl⟩
    exact hOwner e' hMem'
  have hLinear := linearizable (fun _ => []) hApart
  rw [List.foldl_map] at hLinear
  exact hLinear

/- Every RESULT of the threads is one of the worker's. -/
theorem replies_served
    (hOwner :
      ∀ e ∈ History.trail (step stage) start events,
        SingleOwner e)
    (t : Nat) :
    let s := events.foldl (step stage) start
    let served :=
      (log stage events).foldl (Served.step stage) {}
    replies s t <+: served.replies t ∧
      ((∀ call address, s.pc t ≠ .holding call address) →
        replies s t = served.replies t) := by
  intro s served
  have hAnswers := (agree_log stage events).replies t
  rcases linear_run stage hOwner with ⟨hPrefix, hDone, _, _⟩
  rw [← hAnswers]
  refine ⟨(hPrefix t).filterMap Option.join, ?_⟩
  intro hIdle
  rw [← hDone t hIdle]
  rfl

/-
  Where each cache has one owner at a time, the peers'
  threads and the reaper answer what the worker answers
  when it serves one frame after the other, in the order of
  the lookups, and leave its caches.
-/
theorem threads_serve
    (hOwner :
      ∀ e ∈ History.trail (step stage) start events,
        SingleOwner e) :
    let s := events.foldl (step stage) start
    let served :=
      (log stage events).foldl (Served.step stage) {}
    (∀ t, replies s t <+: served.replies t) ∧
      (∀ t, (∀ call address, s.pc t ≠ .holding call address) →
        replies s t = served.replies t) ∧
      s.touch = served.worker.touch ∧
      ((∀ t call address, s.pc t ≠ .holding call address) →
        ∀ session,
          (s.table.get? session).map s.heap =
            served.worker.sessions.get? session) := by
  intro s served
  have hStore := (agree_log stage events).store
  rcases linear_run stage hOwner with ⟨_, _, hTouch, hKept⟩
  refine ⟨fun t => (replies_served stage hOwner t).1,
    fun t => (replies_served stage hOwner t).2, ?_, ?_⟩
  · rw [hTouch, hStore]
    rfl
  · intro hIdle session
    rw [hKept hIdle session, hStore]
    rfl

end WorkerThreads

end CircuitDllm

------------------------------------------------------------
-- Sessions Apart
------------------------------------------------------------

namespace CircuitDllm

variable {H : Type}

def WorkerFrame.session : WorkerFrame H → Nat
| .activation session _ _ => session
| .control _ session => session

/- A frame of the session, or a sweep. -/
def Service.concerns (session : Nat) : Service H → Bool
| .frame _ request _ => request.session = session
| .reap _ _ => true

namespace Worker

/- Two workers that have the same of one session. -/
structure Same
    (session : Nat)
    (w w' : Worker H) :
    Prop where
  kv : w.sessions.get? session = w'.sessions.get? session
  touch : w.touch.get? session = w'.touch.get? session

variable {session : Nat} {w w' : Worker H}

/- The session's frames find the same, and leave the same. -/
theorem Same.serve
    (hSame : Same session w w')
    (stage : Stage H)
    {request : WorkerFrame H}
    (hSession : request.session = session)
    (now : ℚ) :
    (w.serve stage request now).1 =
        (w'.serve stage request now).1 ∧
      Same session (w.serve stage request now).2
        (w'.serve stage request now).2 := by
  subst hSession
  cases request with
  | activation session pos hidden =>
      have hCache :
          w.getCache session pos = w'.getCache session pos := by
        have hKv : w.sessions.get? session =
            w'.sessions.get? session := hSame.kv
        simp only [getCache, Worker.kv, hKv]
      refine ⟨?_, ?_, ?_⟩ <;>
        simp [Worker.serve, activate, hCache, WorkerFrame.session]
  | control op session =>
      have hKv : w.sessions.get? session =
          w'.sessions.get? session := hSame.kv
      have hTouch : w.touch.get? session =
          w'.touch.get? session := hSame.touch
      refine ⟨rfl, ?_⟩
      change Same session (w.control op session now)
        (w'.control op session now)
      unfold control
      cases op with
      | free => exact ⟨by simp [Dict.get?_erase],
          by simp [Dict.get?_erase]⟩
      | reset =>
          simp only [hKv]
          cases w'.sessions.get? session with
          | none => exact hSame
          | some kv => exact ⟨by simp, by simp⟩
      | truncate length =>
          simp only [hKv]
          cases w'.sessions.get? session with
          | none => exact hSame
          | some kv => exact ⟨by simp, by simp⟩

/- Another session's frame leaves the session alone. -/
theorem same_serve_other
    (stage : Stage H)
    {request : WorkerFrame H}
    (hOther : request.session ≠ session)
    (now : ℚ)
    (w : Worker H) :
    Same session (w.serve stage request now).2 w := by
  cases request with
  | activation other pos hidden =>
      have hNe : other ≠ session := hOther
      refine ⟨?_, ?_⟩ <;>
        simp [Worker.serve, activate, Dict.get?_set, hNe]
  | control op other =>
      have hNe : other ≠ session := hOther
      change Same session (w.control op other now) w
      unfold control
      cases op with
      | free =>
          exact ⟨by simp [Dict.get?_erase, hNe],
            by simp [Dict.get?_erase, hNe]⟩
      | reset =>
          cases w.sessions.get? other with
          | none => exact ⟨rfl, rfl⟩
          | some kv =>
              exact ⟨by simp [Dict.get?_set, hNe],
                by simp [Dict.get?_set, hNe]⟩
      | truncate length =>
          cases w.sessions.get? other with
          | none => exact ⟨rfl, rfl⟩
          | some kv =>
              exact ⟨by simp [Dict.get?_set, hNe],
                by simp [Dict.get?_set, hNe]⟩

/- The reaper goes by the session's own last activity. -/
theorem mem_stale
    {p : Nat × ℚ → Bool} :
    session ∈ (w.touch.entries.filter p).map (·.1) ↔
      ∃ t, w.touch.get? session = some t ∧
        p (session, t) = true := by
  simp only [List.mem_map, List.mem_filter, Prod.exists,
    exists_and_right, exists_eq_right, Dict.get?_eq_some]

theorem Same.reap
    (hSame : Same session w w')
    (sessionTtl now : ℚ) :
    Same session (w.reap sessionTtl now)
      (w'.reap sessionTtl now) := by
  unfold Worker.reap
  by_cases hStale :
      session ∈ (w.touch.entries.filter (fun e =>
        e.2 < now - sessionTtl)).map (·.1)
  · have hStale' :
        session ∈ (w'.touch.entries.filter (fun e =>
          e.2 < now - sessionTtl)).map (·.1) := by
      rw [mem_stale] at hStale ⊢
      rwa [← hSame.touch]
    constructor <;>
      simp only [Dict.get?_foldl_erase_of_mem _ hStale,
        Dict.get?_foldl_erase_of_mem _ hStale']
  · have hStale' :
        session ∉ (w'.touch.entries.filter (fun e =>
          e.2 < now - sessionTtl)).map (·.1) := by
      rw [mem_stale] at hStale ⊢
      rwa [← hSame.touch]
    constructor <;>
      simp only [
        Dict.get?_foldl_erase_of_not_mem _ hStale,
        Dict.get?_foldl_erase_of_not_mem _ hStale', hSame.kv,
        hSame.touch]

end Worker

/-
  A thread that serves one session answers as if the worker
  had no other.
-/
theorem Served.alone
    (stage : Stage H)
    {t session : Nat}
    {log : List (Service H)}
    (hOnly :
      ∀ request now, Service.frame t request now ∈ log →
        request.session = session) :
    let served := log.foldl (Served.step stage) {}
    let alone :=
      (log.filter (Service.concerns session)).foldl
        (Served.step stage) {}
    served.replies t = alone.replies t ∧
      Worker.Same session served.worker alone.worker := by
  induction log using List.reverseRecOn with
  | nil => exact ⟨rfl, rfl, rfl⟩
  | append_singleton log service ih =>
      rcases ih (fun request now hMem => hOnly request now
        (List.mem_append_left _ hMem)) with ⟨hReplies, hSame⟩
      simp only [List.filter_append, List.foldl_append]
      cases service with
      | reap sessionTtl now =>
          exact ⟨hReplies, hSame.reap sessionTtl now⟩
      | frame t' request now =>
          by_cases hSession : request.session = session
          · have hServe := hSame.serve stage hSession now
            have hConcerns :
                [Service.frame t' request now].filter
                    (Service.concerns session) =
                  [.frame t' request now] := by
              simp [Service.concerns, hSession]
            rw [hConcerns]
            refine ⟨?_, hServe.2⟩
            by_cases hEq : t' = t
            · subst hEq
              simp [Served.step, hReplies, hServe.1]
            · simp [Served.step, Ne.symm hEq, hReplies]
          · have hOther : t' ≠ t := by
              rintro rfl
              exact hSession (hOnly request now (by simp))
            have hConcerns :
                [Service.frame t' request now].filter
                    (Service.concerns session) = [] := by
              simp [Service.concerns, hSession]
            rw [hConcerns]
            have hStep := Worker.same_serve_other stage
              hSession now
            refine ⟨?_, ?_, ?_⟩
            · simp [Served.step, Ne.symm hOther, hReplies]
            · exact (hStep _).kv.trans hSame.kv
            · exact (hStep _).touch.trans hSame.touch

namespace WorkerThreads

open LockedStore

/- Each call of the store's log is a frame of the log. -/
theorem frame_of_call
    (stage : Stage H)
    {events : List (Event H)}
    {t : Nat}
    {call : Call Nat (WorkerFrame H)}
    {now : ℚ}
    (hMem :
      Entry.call t call now ∈
        Shared.log (caches stage) start
          (events.map Event.move)) :
    ∃ request : WorkerFrame H,
      call = request.call ∧
        Service.frame t request now ∈ log stage events := by
  unfold Shared.log at hMem
  rw [History.trail_map, List.filterMap_map] at hMem
  rcases List.mem_filterMap.mp hMem with
    ⟨⟨s, e⟩, hTrail, hEntry⟩
  rcases History.split_of_trail hTrail with
    ⟨before, after, -, hState⟩
  have hAsking : Asking s := by
    change before.foldl (step stage) start = s at hState
    rw [← hState]
    exact History.induction (step stage) (fun _ s => Asking s)
      (by
        intro t' call' hAsked
        cases hAsked)
      (fun _ _ e hAsking => asking_step stage hAsking e) before
  cases e with
  | frame t' request => cases hEntry
  | work t' => cases hEntry
  | reap sessionTtl now' => cases hEntry
  | lookup t' now' =>
      cases hPc : s.pc t' with
      | idle => simp [Event.move, Shared.entryOf, hPc] at hEntry
      | holding call' address =>
          simp [Event.move, Shared.entryOf, hPc] at hEntry
      | asked call' =>
          simp only [Function.comp_apply, Event.move,
            Shared.entryOf, hPc, Option.some.injEq,
            Entry.call.injEq] at hEntry
          rcases hEntry with ⟨rfl, rfl, rfl⟩
          rcases hAsking t' call' hPc with ⟨request, rfl⟩
          refine ⟨request, rfl, ?_⟩
          refine List.mem_filterMap.mpr ⟨_, hTrail, ?_⟩
          simp only [service, hPc, code_call]

theorem key_call (request : WorkerFrame H) :
    request.call.key = request.session := by
  rcases request with _ | ⟨_ | _ | _, _⟩ <;> rfl

/-
  A peer that serves one session, which no other thread
  serves, gets what a worker with no other session would
  answer.  The other threads may share what they like.
-/
theorem peer_alone
    (stage : Stage H)
    {events : List (Event H)}
    {t session : Nat}
    (hOnly :
      ∀ request now,
        Service.frame t request now ∈ log stage events →
          request.session = session)
    (hSole :
      ∀ t' request now,
        Service.frame t' request now ∈ log stage events →
          request.session = session → t' = t) :
    let s := events.foldl (step stage) start
    let alone :=
      ((log stage events).filter
        (Service.concerns session)).foldl
          (Served.step stage) {}
    replies s t <+: alone.replies t ∧
      ((∀ call address, s.pc t ≠ .holding call address) →
        replies s t = alone.replies t) := by
  intro s alone
  have hCallOnly :
      ∀ call now,
        Entry.call t call now ∈
            Shared.log (caches stage) start
              (events.map Event.move) →
          call.key = session := by
    intro call now hMem
    rcases frame_of_call stage hMem with ⟨request, rfl, hLog⟩
    exact (key_call request).trans (hOnly request now hLog)
  have hCallSole :
      ∀ t' call now,
        Entry.call t' call now ∈
            Shared.log (caches stage) start
              (events.map Event.move) →
          call.key = session → t' = t := by
    intro t' call now hMem hKey
    rcases frame_of_call stage hMem with ⟨request, rfl, hLog⟩
    exact hSole t' request now hLog
      ((key_call request).symm.trans hKey)
  have hCalls :=
    linearizable_sole (fun _ => []) (P := (· = session))
      hCallOnly hCallSole
  rw [List.foldl_map] at hCalls
  have hAnswers := (agree_log stage events).replies t
  have hAlone : _ = alone.replies t :=
    (Served.alone stage hOnly).1
  rw [← hAlone, ← hAnswers]
  refine ⟨hCalls.1.filterMap Option.join, ?_⟩
  intro hIdle
  exact congrArg (List.filterMap Option.join)
    (hCalls.2 hIdle)

end WorkerThreads

end CircuitDllm

------------------------------------------------------------
-- Two Peers
------------------------------------------------------------

namespace CircuitDllm

namespace WorkerThreads

open LockedStore

/-
  Two peers, whose threads look their caches up before
  either has run the stage; the first goes on.
-/
def twoPeers : List (Event Nat) :=
  [.frame 0 (.activation 7 0 [1]),
    .lookup 0 10,
    .frame 1 (.activation 8 0 [5]),
    .lookup 1 11,
    .work 0,
    .frame 0 (.activation 7 1 [2]),
    .lookup 0 12,
    .work 1,
    .work 0]

/- Only the last lookup finds a cache, and it is free. -/
theorem singleOwner_twoPeers :
    ∀ e ∈ History.trail (step List.length) start twoPeers,
      SingleOwner e := by
  intro e hMem
  simp only [twoPeers, History.trail, List.mem_cons,
    List.not_mem_nil, or_false] at hMem
  rcases hMem with
    rfl | rfl | rfl | rfl | rfl | rfl | rfl | rfl | rfl
  · trivial
  · intro call address hAsked hAccess
    change Pc.asked (WorkerFrame.activation 7 0 [1]).call =
      Pc.asked call at hAsked
    cases hAsked
    simp [WorkerFrame.call] at hAccess
  · trivial
  · intro call address hAsked hAccess
    change Pc.asked (WorkerFrame.activation 8 0 [5]).call =
      Pc.asked call at hAsked
    cases hAsked
    simp [WorkerFrame.call] at hAccess
  · trivial
  · trivial
  · intro call address hAsked _ hEntry t call' hHeld
    change Pc.asked (WorkerFrame.activation 7 1 [2]).call =
      Pc.asked call at hAsked
    cases hAsked
    change some 0 = some address at hEntry
    cases hEntry
    rcases t with _ | _ | t <;> cases hHeld
  · trivial
  · trivial

theorem threads_serve_twoPeers :
    replies (twoPeers.foldl (step List.length) start) 0 =
        [[1], [2]] ∧
      replies (twoPeers.foldl (step List.length) start) 1 =
        [[1]] := by
  have hServe :=
    (threads_serve List.length singleOwner_twoPeers).2.1
  refine ⟨(hServe 0 ?_).trans rfl, (hServe 1 ?_).trans rfl⟩
  · intro call address hHeld
    cases hHeld
  · intro call address hHeld
    cases hHeld

/-
  Two more peers share a session, and the second looks its
  cache up while the first one works on it.
-/
def sharing : List (Event Nat) :=
  twoPeers ++
    [.frame 2 (.activation 9 0 [1]),
      .lookup 2 20,
      .frame 3 (.activation 9 1 [2]),
      .lookup 3 21,
      .work 3,
      .work 2]

theorem peer_alone_twoPeers :
    replies (sharing.foldl (step List.length) start) 0 =
      ([.frame 0 (.activation 7 0 [1]) 10,
        .frame 0 (.activation 7 1 [2]) 12].foldl
          (Served.step List.length) {}).replies 0 := by
  have hLog :
      log List.length sharing =
        [.frame 0 (.activation 7 0 [1]) 10,
          .frame 1 (.activation 8 0 [5]) 11,
          .frame 0 (.activation 7 1 [2]) 12,
          .frame 2 (.activation 9 0 [1]) 20,
          .frame 3 (.activation 9 1 [2]) 21] := rfl
  have hOnly :
      ∀ request now,
        Service.frame 0 request now ∈
            log List.length sharing →
          request.session = 7 := by
    intro request now hMem
    rw [hLog] at hMem
    simp only [List.mem_cons, List.not_mem_nil, or_false]
      at hMem
    rcases hMem with h | h | h | h | h <;> cases h <;> rfl
  have hSole :
      ∀ t' request now,
        Service.frame t' request now ∈
            log List.length sharing →
          request.session = 7 → t' = 0 := by
    intro t' request now hMem hSession
    rw [hLog] at hMem
    simp only [List.mem_cons, List.not_mem_nil, or_false]
      at hMem
    rcases hMem with h | h | h | h | h <;> cases h <;>
      first | rfl | cases hSession
  refine
    ((peer_alone List.length hOnly hSole).2 ?_).trans rfl
  intro call address hHeld
  cases hHeld

end WorkerThreads

end CircuitDllm
