import CircuitDllm.Lib.RateLimit
import CircuitDllm.Mesh.SignedRequests

/-
  The rate limit on /route/suspect
  (engine/control_server.py, do_POST).

  A caller's reports are logged under its verified id, and
  refused once the last minute holds too many.  A report is
  logged before its `suspect` field is read.

  Main declarations:
    * `PlaneEvent`, `ControlServer.planeStep`
    * `ControlServer.reportOf`
    * `ControlServer.reports_in_a_minute`
-/

------------------------------------------------------------
-- Reports
------------------------------------------------------------

namespace CircuitDllm

variable {Sig : Type}

/- A request, or what else the registry is asked for. -/
inductive PlaneEvent (Sig : Type) where
  | post
      (now : ℚ) (path : ControlPath) (body : ControlBody Sig)
  | registry (op : RegistryOp)

/- When a request came. -/
def PlaneEvent.time : PlaneEvent Sig → Option ℚ
| .post now _ _ => some now
| .registry _ => none

namespace ControlServer

variable (server : ControlServer Sig)

def planeStep (s : ControlState) :
    PlaneEvent Sig → ControlState
| .post now path body => (server.doPost now path body s).2
| .registry op =>
    { s with registry := s.registry.step server.cfg op }

/- The time of a report of the caller's that was taken. -/
def reportOf
    (caller : String)
    (e : ControlState × PlaneEvent Sig) :
    Option ℚ :=
  match e.2 with
  | .post now .routeSuspect body =>
    if body.nodeId = some caller ∧
        (server.doPost now .routeSuspect body e.1).1.accepts
    then some now
    else none
  | _ => none

/- The caller's log. -/
def logOf (caller : String) (s : ControlState) : List ℚ :=
  (s.suspectLog.get? caller).getD []

end ControlServer

end CircuitDllm

------------------------------------------------------------
-- What A Request Does To The Log
------------------------------------------------------------

namespace CircuitDllm

namespace ControlServer

variable {Sig : Type} {server : ControlServer Sig}

theorem suspectLog_postRegister
    (now : ℚ)
    (body : ControlBody Sig)
    (s : ControlState) :
    (server.postRegister now body s).2.suspectLog =
      s.suspectLog := by
  unfold postRegister
  repeat' split
  all_goals rfl

theorem suspectLog_postLiveness
    (now : ℚ)
    (body : ControlBody Sig)
    (act : String → Registry → ControlReply × Registry)
    (s : ControlState) :
    (server.postLiveness now body act s).2.suspectLog =
      s.suspectLog := by
  unfold postLiveness
  repeat' split
  all_goals rfl

theorem suspectLog_postEntry
    (now : ℚ)
    (body : ControlBody Sig)
    (act : Nat → Registry → ControlReply × Registry)
    (s : ControlState) :
    (server.postEntry now body act s).2.suspectLog =
      s.suspectLog := by
  unfold postEntry
  repeat' split
  all_goals rfl

theorem suspectLog_postRoute
    (now : ℚ)
    (body : ControlBody Sig)
    (act : Nat → Registry → ControlReply × Registry)
    (s : ControlState) :
    (server.postRoute now body act s).2.suspectLog =
      s.suspectLog := by
  unfold postRoute
  repeat' split
  all_goals rfl

/- Only reports touch the log. -/
theorem suspectLog_doPost
    (now : ℚ)
    {path : ControlPath}
    (body : ControlBody Sig)
    (s : ControlState)
    (hPath : path ≠ .routeSuspect) :
    (server.doPost now path body s).2.suspectLog =
      s.suspectLog := by
  cases path with
  | register => exact suspectLog_postRegister now body s
  | ready => exact suspectLog_postLiveness now body _ s
  | heartbeat => exact suspectLog_postLiveness now body _ s
  | drain => exact suspectLog_postLiveness now body _ s
  | entryAcquire => exact suspectLog_postEntry now body _ s
  | entryRelease => exact suspectLog_postEntry now body _ s
  | routeAcquire => exact suspectLog_postRoute now body _ s
  | routeRelease => exact suspectLog_postRoute now body _ s
  | routeSuspect => exact absurd rfl hPath
  | other => rfl

/-
  A report is refused and leaves the log, or it is admitted
  into the log of the node that signed it.
-/
theorem postSuspect_cases
    (server : ControlServer Sig)
    (now : ℚ)
    (body : ControlBody Sig)
    (s : ControlState) :
    ((server.postSuspect now body s).1.accepts = false ∧
        (server.postSuspect now body s).2.suspectLog =
          s.suspectLog) ∨
      ∃ signer log,
        body.nodeId = some signer ∧
          RateLimit.allow 60 server.suspectMaxPerMin now
            (logOf signer s) = some log ∧
          (server.postSuspect now body s).2.suspectLog =
            s.suspectLog.set signer log := by
  unfold postSuspect
  cases hError : server.routeError now body with
  | some e => exact Or.inl ⟨rfl, rfl⟩
  | none =>
      cases hWindow : server.verifySig with
      | none => simp [routeError, hWindow] at hError
      | some window =>
          have hVerify :=
            (routeError_eq_none_iff hWindow).mp hError
          rcases valid_of_verify hVerify with
            ⟨signer, _, hSigner, _, _⟩
          simp only [hSigner, Option.getD_some]
          split
          · exact Or.inl ⟨rfl, rfl⟩
          rename_i hRoom
          refine Or.inr ⟨signer, _, rfl, if_neg hRoom, ?_⟩
          split <;> rfl

/- What one event does to the log and the reports. -/
theorem planeStep_cases
    (server : ControlServer Sig)
    (caller : String)
    (s : ControlState)
    (e : PlaneEvent Sig) :
    (server.reportOf caller (s, e) = none ∧
        logOf caller (server.planeStep s e) = logOf caller s) ∨
      ∃ now,
        e.time = some now ∧
          RateLimit.allow 60 server.suspectMaxPerMin now
              (logOf caller s) =
            some (logOf caller (server.planeStep s e)) ∧
          (server.reportOf caller (s, e) = some now ∨
            server.reportOf caller (s, e) = none) := by
  rcases e with ⟨now, path, body⟩ | op
  · by_cases hPath : path = .routeSuspect
    · subst hPath
      rcases server.postSuspect_cases now body s with
        ⟨hRefused, hLog⟩ | ⟨signer, log, hSigner, hAllow, hLog⟩
      · refine Or.inl ⟨?_, ?_⟩
        · simp [reportOf, doPost, hRefused]
        · simp [logOf, planeStep, doPost, hLog]
      · by_cases hCaller : signer = caller
        · subst hCaller
          refine Or.inr ⟨now, rfl, ?_, ?_⟩
          · simpa [logOf, planeStep, doPost, hLog] using hAllow
          · simp only [reportOf]
            split
            · exact Or.inl rfl
            · exact Or.inr rfl
        · refine Or.inl ⟨?_, ?_⟩
          · simp [reportOf, hSigner, hCaller]
          · simp [logOf, planeStep, doPost, hLog,
              Dict.get?_set, hCaller]
    · refine Or.inl ⟨?_, ?_⟩
      · simp only [reportOf]
        split
        · rename_i hEq
          cases hEq
          exact absurd rfl hPath
        · rfl
      · simp [logOf, planeStep,
          suspectLog_doPost now body s hPath]
  · exact Or.inl ⟨rfl, rfl⟩

end ControlServer

end CircuitDllm

------------------------------------------------------------
-- Reports In A Minute
------------------------------------------------------------

namespace CircuitDllm

namespace ControlServer

variable {Sig : Type} {server : ControlServer Sig}

/- A run goes on from a log that is bounded. -/
theorem bounded_run
    {caller : String}
    (events : List (PlaneEvent Sig))
    {s : ControlState}
    {admitted reports : List ℚ}
    {last : ℚ}
    (hBounded :
      RateLimit.Bounded 60 server.suspectMaxPerMin
        (logOf caller s) admitted last)
    (hReports : reports.Sublist admitted)
    (hClock :
      (last :: events.filterMap PlaneEvent.time).Pairwise
        (· ≤ ·)) :
    ∃ admitted' last',
      RateLimit.Bounded 60 server.suspectMaxPerMin
          (logOf caller (events.foldl server.planeStep s))
          admitted' last' ∧
        (reports ++
          (History.trail server.planeStep s events).filterMap
            (server.reportOf caller)).Sublist admitted' := by
  induction events generalizing s admitted reports last with
  | nil =>
      exact ⟨admitted, last, hBounded, by simpa [History.trail]⟩
  | cons e events ih =>
      rw [List.foldl_cons, History.trail]
      rcases server.planeStep_cases caller s e with
        ⟨hNone, hSame⟩ | ⟨now, hTime, hAllow, hReport⟩
      · rw [List.filterMap_cons_none hNone]
        refine ih (by rwa [hSame]) hReports ?_
        cases hTime : e.time with
        | none => simpa [hTime] using hClock
        | some now =>
            rw [List.filterMap_cons_some hTime] at hClock
            exact hClock.sublist (by simp)
      · rw [List.filterMap_cons_some hTime] at hClock
        have hNow : last ≤ now :=
          List.rel_of_pairwise_cons hClock (by simp)
        have hNext := hBounded.allow hNow hAllow
        have hRest := hClock.sublist
          (List.sublist_cons_self _ _)
        rcases hReport with hTaken | hNone
        · rw [List.filterMap_cons_some hTaken]
          have hMore := ih hNext
            (hReports.append (List.Sublist.refl [now])) hRest
          simpa using hMore
        · rw [List.filterMap_cons_none hNone]
          exact ih hNext
            (hReports.trans (List.sublist_append_left _ _))
            hRest

/-
  With a clock that does not go back, no caller gets more
  reports through in any minute than the limit.
-/
theorem reports_in_a_minute
    (server : ControlServer Sig)
    (registry : Registry)
    {events : List (PlaneEvent Sig)}
    (hClock :
      (events.filterMap PlaneEvent.time).Pairwise (· ≤ ·))
    (caller : String)
    (stop : ℚ) :
    (RateLimit.window 60 stop
      ((History.trail server.planeStep
        { registry := registry } events).filterMap
          (server.reportOf caller))).length ≤
      server.suspectMaxPerMin.toNat := by
  have hFirst :
      ∃ last : ℚ,
        (last :: events.filterMap PlaneEvent.time).Pairwise
          (· ≤ ·) := by
    cases hTimes : events.filterMap PlaneEvent.time with
    | nil => exact ⟨0, by simp⟩
    | cons first times =>
        rw [hTimes] at hClock
        refine ⟨first, List.pairwise_cons.mpr ⟨?_, hClock⟩⟩
        intro t hMem
        rcases List.mem_cons.mp hMem with rfl | hLater
        · exact le_rfl
        · exact List.rel_of_pairwise_cons hClock hLater
  rcases hFirst with ⟨last, hLast⟩
  have hNew :
      RateLimit.Bounded 60 server.suspectMaxPerMin
        (logOf caller { registry := registry }) [] last :=
    RateLimit.bounded_new _ _ _
  rcases bounded_run events hNew (List.Sublist.refl []) hLast
    with ⟨admitted, _, hBounded, hSublist⟩
  have hFew := hBounded.few stop
  have hWindow := (hSublist.filter (fun t =>
    decide (stop - 60 < t ∧ t ≤ stop))).length_le
  rw [List.nil_append] at hWindow
  rw [RateLimit.window] at hFew ⊢
  omega

/- One report a minute. -/
def oneReport : ControlServer Nat where
  cfg := Registry.oneSlot
  valid _ _ sig := sig == 7
  verifySig := some 300
  strictLiveness := true
  suspectMaxPerMin := 1
  entryRequireSig := false

/- An orchestrator reports a node at three times. -/
def threeReports : List (PlaneEvent Nat) :=
  [0, 30, 61].map (fun now =>
    .post now .routeSuspect
      { nodeId := some "o"
        ts := some now
        sig := some 7
        suspect := some "a" })

theorem reports_in_a_minute_oneReport :
    let taken :=
      (History.trail oneReport.planeStep emptyMesh
        threeReports).filterMap (oneReport.reportOf "o")
    taken = [0, 61] ∧
      (RateLimit.window 60 61 taken).length ≤ 1 :=
  ⟨by decide +kernel,
    reports_in_a_minute oneReport emptyMesh.registry
      (by decide +kernel) "o" 61⟩

end ControlServer

end CircuitDllm
