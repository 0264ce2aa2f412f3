import CircuitDllm.Mesh.Representation
import Mathlib.Data.List.Dedup

/-
  The load tables count the sessions.

  A registry records the route and the entry of every
  session, and keeps a count of the sessions on each node.
  Whatever happens to the topology between the calls, the
  counts are those of the recorded routes and entries.

  Main declarations:
    * `Counts`
    * `Registry.LoadsExact`
    * `Registry.loadsExact_run`
-/

------------------------------------------------------------
-- Load Tables
------------------------------------------------------------

namespace CircuitDllm

/- The table holds these counts and no zero. -/
structure Counts
    (load : Dict String Nat)
    (sessions : String → Nat) : Prop where
  count : ∀ h, (load.get? h).getD 0 = sessions h
  positive : ∀ h c, load.get? h = some c → 0 < c

variable {load : Dict String Nat} {sessions : String → Nat}

theorem counts_empty : Counts .empty (fun _ => 0) where
  count h := by rw [Dict.get?_empty, Option.getD_none]
  positive h c hC := by
    rw [Dict.get?_empty] at hC
    cases hC

theorem Counts.congr
    (hCounts : Counts load sessions)
    {sessions' : String → Nat}
    (hEq : ∀ h, sessions h = sessions' h) :
    Counts load sessions' where
  count h := (hCounts.count h).trans (hEq h)
  positive := hCounts.positive

theorem Counts.addLoad
    (hCounts : Counts load sessions)
    (nodeId : String) :
    Counts (addLoad load nodeId)
      (fun h => sessions h + [nodeId].count h) where
  count h := by
    unfold CircuitDllm.addLoad
    rw [Dict.get?_set, List.count_singleton]
    by_cases hEq : nodeId = h
    · subst hEq
      simp [hCounts.count]
    · simp [hEq, hCounts.count]
  positive h c hC := by
    unfold CircuitDllm.addLoad at hC
    rw [Dict.get?_set] at hC
    split at hC
    · cases hC
      omega
    · exact hCounts.positive h c hC

theorem Counts.dropLoad
    (hCounts : Counts load sessions)
    (nodeId : String) :
    Counts (dropLoad load nodeId)
      (fun h => sessions h - [nodeId].count h) where
  count h := by
    have hCount := hCounts.count h
    unfold CircuitDllm.dropLoad
    rw [List.count_singleton]
    by_cases hEq : nodeId = h
    · subst hEq
      rw [hCount]
      by_cases hPos : 0 < sessions nodeId - 1
      · simp [hPos]
      · have hZero : sessions nodeId - 1 = 0 := by omega
        simp [hZero, Dict.get?_erase]
    · by_cases hPos : 0 < (load.get? nodeId).getD 0 - 1
      · simp [hPos, hEq, Dict.get?_set, hCount]
      · simp [hPos, hEq, Dict.get?_erase, hCount]
  positive h c hC := by
    unfold CircuitDllm.dropLoad at hC
    simp only at hC
    split at hC
    · rename_i hPos
      rw [Dict.get?_set] at hC
      split at hC
      · cases hC
        exact hPos
      · exact hCounts.positive h c hC
    · rw [Dict.get?_erase] at hC
      split at hC
      · cases hC
      · exact hCounts.positive h c hC

theorem Counts.foldl_addLoad
    (hCounts : Counts load sessions)
    (ids : List String) :
    Counts (ids.foldl CircuitDllm.addLoad load)
      (fun h => sessions h + ids.count h) := by
  induction ids generalizing load sessions with
  | nil => exact hCounts
  | cons nodeId ids ih =>
      refine (ih (hCounts.addLoad nodeId)).congr (fun h => ?_)
      rw [List.count_singleton, List.count_cons]
      omega

theorem Counts.foldl_dropLoad
    (hCounts : Counts load sessions)
    (ids : List String) :
    Counts (ids.foldl CircuitDllm.dropLoad load)
      (fun h => sessions h - ids.count h) := by
  induction ids generalizing load sessions with
  | nil => exact hCounts
  | cons nodeId ids ih =>
      refine (ih (hCounts.dropLoad nodeId)).congr (fun h => ?_)
      rw [List.count_singleton, List.count_cons]
      omega

/- A table without sessions is empty. -/
theorem Counts.eq_empty
    (hCounts : Counts load sessions)
    (hZero : ∀ h, sessions h = 0) :
    load = .empty := by
  apply Dict.eq_empty
  intro h
  cases hGet : load.get? h with
  | none => rfl
  | some c =>
      have hPos := hCounts.positive h c hGet
      have hCount := hCounts.count h
      rw [hGet, hZero h, Option.getD_some] at hCount
      omega

/- A list without repetitions has an id once or not at all. -/
theorem count_of_nodup
    {ids : List String}
    (hNodup : ids.Nodup)
    (h : String) :
    ids.count h = [ids].countP (fun ids => h ∈ ids) := by
  rw [List.Nodup.count hNodup, List.countP_singleton]
  simp

end CircuitDllm

------------------------------------------------------------
-- Recorded Sessions
------------------------------------------------------------

namespace CircuitDllm

namespace Registry

/- The sessions whose recorded route has the node. -/
def sessionsOn (r : Registry) (h : String) : Nat :=
  r.sessionLoad.values.countP (fun ids => h ∈ ids)

/- The sessions whose recorded entry is the node. -/
def entriesOn (r : Registry) (h : String) : Nat :=
  r.sessionEntry.values.countP (fun nodeId => nodeId = h)

/- What every operation keeps of the load tables. -/
structure LoadInv (r : Registry) : Prop where
  load : Counts r.load r.sessionsOn
  nodup :
    ∀ session ids,
      r.sessionLoad.get? session = some ids → ids.Nodup
  entry : Counts r.entryLoad r.entriesOn

variable {r : Registry}

/- The load tables and the records behind them. -/
def loadTables (r : Registry) :=
  (r.load, r.sessionLoad, r.entryLoad, r.sessionEntry)

theorem LoadInv.of_eq
    (hInv : r.LoadInv)
    {r' : Registry}
    (hTables : r'.loadTables = r.loadTables) :
    r'.LoadInv := by
  simp only [loadTables, Prod.mk.injEq] at hTables
  rcases hTables with
    ⟨hLoad, hSessionLoad, hEntryLoad, hSessionEntry⟩
  have hSessions : r'.sessionsOn = r.sessionsOn := by
    unfold sessionsOn
    rw [hSessionLoad]
  have hEntries : r'.entriesOn = r.entriesOn := by
    unfold entriesOn
    rw [hSessionEntry]
  refine ⟨?_, ?_, ?_⟩
  · rw [hLoad, hSessions]
    exact hInv.load
  · rw [hSessionLoad]
    exact hInv.nodup
  · rw [hEntryLoad, hEntries]
    exact hInv.entry

/- The same records for a new route of a session. -/
theorem LoadInv.setRoute
    (hInv : r.LoadInv)
    (session : Nat)
    {ids : List String}
    (hNodup : ids.Nodup)
    {load' : Dict String Nat}
    (hLoad :
      Counts load' (fun h =>
        r.sessionsOn h -
            ((r.sessionLoad.get? session).getD []).count h +
          ids.count h)) :
    LoadInv
      { r with
        load := load'
        sessionLoad := r.sessionLoad.set session ids } where
  load := by
    refine hLoad.congr (fun h => ?_)
    have hSet :=
      r.sessionLoad.countP_set session ids
        (fun ids => h ∈ ids)
    have hErase :=
      r.sessionLoad.countP_erase session (fun ids => h ∈ ids)
    rw [count_of_nodup hNodup]
    unfold sessionsOn
    cases hOld : r.sessionLoad.get? session with
    | none =>
        rw [hOld] at hSet hErase
        simp only [Option.toList_none, List.countP_nil] at hSet
        simp only [Option.getD_none, List.count_nil]
        omega
    | some old =>
        have hOldNodup := hInv.nodup session old hOld
        rw [hOld] at hSet hErase
        simp only [Option.toList_some] at hSet hErase
        simp only [Option.getD_some]
        rw [count_of_nodup hOldNodup]
        omega
  nodup session' ids' hGet := by
    rw [Dict.get?_set] at hGet
    split at hGet
    · cases hGet
      exact hNodup
    · exact hInv.nodup session' ids' hGet
  entry := hInv.entry

theorem LoadInv.releaseRoute
    (hInv : r.LoadInv)
    (session : Nat) :
    (r.releaseRoute session).LoadInv where
  load := by
    refine
      (hInv.load.foldl_dropLoad
        ((r.sessionLoad.get? session).getD [])).congr
          (fun h => ?_)
    have hErase :=
      r.sessionLoad.countP_erase session (fun ids => h ∈ ids)
    unfold sessionsOn Registry.releaseRoute
    simp only
    cases hOld : r.sessionLoad.get? session with
    | none =>
        rw [hOld] at hErase
        simp only [Option.toList_none, List.countP_nil]
          at hErase
        simp only [Option.getD_none, List.count_nil]
        omega
    | some old =>
        have hOldNodup := hInv.nodup session old hOld
        rw [hOld] at hErase
        simp only [Option.toList_some] at hErase
        rw [Option.getD_some, count_of_nodup hOldNodup]
        omega
  nodup session' ids' hGet := by
    simp only [Registry.releaseRoute, Dict.get?_erase] at hGet
    split at hGet
    · cases hGet
    · exact hInv.nodup session' ids' hGet
  entry := hInv.entry

/- A recorded session is one of those on its nodes. -/
theorem LoadInv.count_le
    (hInv : r.LoadInv)
    {session : Nat}
    {ids : List String}
    (hGet : r.sessionLoad.get? session = some ids)
    (h : String) :
    ids.count h ≤ r.sessionsOn h := by
  have hErase :=
    r.sessionLoad.countP_erase session (fun ids => h ∈ ids)
  rw [hGet] at hErase
  simp only [Option.toList_some] at hErase
  rw [count_of_nodup (hInv.nodup session ids hGet)]
  unfold sessionsOn
  omega

/- The nodes lost and gained are those in one list only. -/
theorem count_lost
    (ids ids' : List String)
    (h : String) :
    (ids.dedup.filter (fun i => i ∉ ids')).count h =
      if h ∈ ids ∧ h ∉ ids' then 1 else 0 := by
  rw [List.Nodup.count ((List.nodup_dedup ids).filter _)]
  simp

theorem LoadInv.acquireRoute
    (hInv : r.LoadInv)
    (hWf : r.topo.WellFormed)
    (session : Nat) :
    (r.acquireRoute session).2.LoadInv := by
  cases hOk : (r.acquireRoute session).1 with
  | error e =>
      rw [acquireRoute_atomic hOk]
      exact hInv
  | ok route =>
      have hNodup := nodup_acquireRoute hWf hOk
      have hRoute := r.acquireRoute_ok hOk
      rcases hRoute with ⟨plan, hPlan, rfl⟩
      cases hOld : r.sessionLoad.get? session with
      | none =>
          simp only [pins, hOld, Option.getD_none] at hNodup
          simp only [Registry.acquireRoute, hPlan, hOld]
          refine hInv.setRoute session hNodup ?_
          refine
            (hInv.load.foldl_addLoad _).congr (fun h => ?_)
          rw [hOld, Option.getD_none, List.count_nil,
            Nat.sub_zero]
      | some pinned =>
          simp only [pins, hOld, Option.getD_some] at hNodup
          simp only [Registry.acquireRoute, hPlan, hOld]
          refine hInv.setRoute session hNodup ?_
          refine
            ((hInv.load.foldl_dropLoad _).foldl_addLoad
              _).congr (fun h => ?_)
          have hOn := hInv.count_le hOld h
          rw [count_lost, count_lost, hOld, Option.getD_some]
          rw [List.Nodup.count (hInv.nodup session _ hOld)]
            at hOn ⊢
          rw [List.Nodup.count hNodup]
          split at hOn
          · rename_i hPinned
            split
            · rename_i hLost
              simp [hPinned, hLost.2]
            · rename_i hKept
              have hNew := not_and_not_right.mp hKept hPinned
              simp only [hPinned, hNew, not_true_eq_false,
                and_false, if_true, if_false]
              omega
          · rename_i hFresh
            simp [hFresh]

theorem LoadInv.releaseEntry
    (hInv : r.LoadInv)
    (session : Nat) :
    (r.releaseEntry session).LoadInv := by
  unfold Registry.releaseEntry
  cases hOld : r.sessionEntry.get? session with
  | none => exact hInv
  | some nodeId =>
      refine
        { load := hInv.load
          nodup := hInv.nodup
          entry := ?_ }
      refine (hInv.entry.dropLoad nodeId).congr (fun h => ?_)
      have hErase :=
        r.sessionEntry.countP_erase session
          (fun nodeId => nodeId = h)
      rw [hOld] at hErase
      simp only [Option.toList_some, List.countP_singleton]
        at hErase
      unfold entriesOn
      simp only
      rw [List.count_singleton]
      simp only [decide_eq_true_eq, beq_iff_eq] at hErase ⊢
      omega

/- A released session has no entry, the others keep theirs. -/
theorem get?_releaseEntry
    (r : Registry)
    (session session' : Nat) :
    (r.releaseEntry session).sessionEntry.get? session' =
      if session = session' then none
      else r.sessionEntry.get? session' := by
  unfold Registry.releaseEntry
  cases hOld : r.sessionEntry.get? session with
  | none =>
      simp only
      by_cases hEq : session = session'
      · rw [if_pos hEq, ← hEq]
        exact hOld
      · rw [if_neg hEq]
  | some nodeId => exact Dict.get?_erase _ _ _

@[simp] theorem releaseEntry_sessionLoad
    (r : Registry)
    (session : Nat) :
    (r.releaseEntry session).sessionLoad = r.sessionLoad := by
  unfold Registry.releaseEntry
  split
  · rfl
  · rfl

theorem LoadInv.acquireEntry
    (hInv : r.LoadInv)
    (session : Nat) :
    (r.acquireEntry session).2.LoadInv := by
  have hReleased := hInv.releaseEntry session
  have hFree := r.get?_releaseEntry session session
  rw [if_pos rfl] at hFree
  unfold Registry.acquireEntry
  simp only
  split
  · exact hReleased
  · rename_i pick hPick
    refine
      { load := hReleased.load
        nodup := hReleased.nodup
        entry := ?_ }
    refine
      (hReleased.entry.addLoad pick.nodeId).congr
        (fun h => ?_)
    have hSet :=
      (r.releaseEntry session).sessionEntry.countP_set session
        pick.nodeId (fun nodeId => nodeId = h)
    rw [hFree] at hSet
    simp only [Option.toList_none, List.countP_nil,
      List.countP_singleton] at hSet
    unfold entriesOn
    simp only
    rw [List.count_singleton]
    simp only [decide_eq_true_eq, beq_iff_eq] at hSet ⊢
    omega

end Registry

end CircuitDllm

------------------------------------------------------------
-- Recorded Routes
------------------------------------------------------------

namespace CircuitDllm

namespace Registry

variable {cfg : RegistryConfig} (r : Registry)

/- The routes on record and the loads they make. -/
def routeTables : Dict String Nat × Dict Nat (List String) :=
  (r.load, r.sessionLoad)

theorem routeTables_saveState :
    (r.saveState cfg).routeTables = r.routeTables := by
  unfold saveState
  split <;> rfl

theorem routeTables_releaseEntry (session : Nat) :
    (r.releaseEntry session).routeTables = r.routeTables := by
  unfold releaseEntry
  split <;> rfl

theorem routeTables_grant
    (node : Node)
    (assignment : Option (Int × Int))
    (orchIndex : Option Nat) :
    (r.grant cfg node assignment orchIndex).2.routeTables =
      r.routeTables := by
  unfold grant
  cases cfg.deriveNodeKey node.nodeId with
  | none => rfl
  | some key => exact routeTables_saveState _

theorem routeTables_register
    (node : Node)
    (now : ℚ)
    (preferRange : Option PreferRange) :
    (r.register cfg node now preferRange).2.routeTables =
      r.routeTables := by
  cases register_cases cfg node now preferRange r with
  | refused e hReach hEnd => rw [hEnd]
  | dropped e hReach hHolder hEntry hEnd =>
      rw [hEnd]
      rfl
  | entered slot assignment orchIndex hReach hEntry hSlot
      hEnd =>
      rw [hEnd]
      exact routeTables_grant _ node assignment orchIndex

/- Routes are taken, kept or freed by these only. -/
theorem routeTables_step
    {op : RegistryOp}
    (hTake : ∀ session, op ≠ .acquireRoute session)
    (hFree : ∀ session, op ≠ .releaseRoute session)
    (hRestart : op ≠ .restart) :
    (r.step cfg op).routeTables = r.routeTables := by
  cases op with
  | register node now preferRange =>
      exact r.routeTables_register node now preferRange
  | recordCheck nodeId ok promoteAfter strikeMax =>
      simp only [step, recordCheck]
      split
      · exact routeTables_saveState _
      · rfl
  | acquireRoute session => exact absurd rfl (hTake session)
  | releaseRoute session => exact absurd rfl (hFree session)
  | acquireEntry session =>
      simp only [step, acquireEntry]
      split <;> exact r.routeTables_releaseEntry session
  | releaseEntry session =>
      exact r.routeTables_releaseEntry session
  | recordWork route paidRaw =>
      simp only [step, recordWork]
      split
      · rfl
      · exact routeTables_saveState _
  | settle minPayoutRaw => exact routeTables_saveState _
  | restart => exact absurd rfl hRestart
  | _ => rfl

theorem sessionLoad_step
    {op : RegistryOp}
    (hTake : ∀ session, op ≠ .acquireRoute session)
    (hFree : ∀ session, op ≠ .releaseRoute session)
    (hRestart : op ≠ .restart) :
    (r.step cfg op).sessionLoad = r.sessionLoad :=
  congrArg (·.2) (r.routeTables_step hTake hFree hRestart)

end Registry

end CircuitDllm

------------------------------------------------------------
-- Runs
------------------------------------------------------------

namespace CircuitDllm

namespace Registry

variable {cfg : RegistryConfig} {r : Registry}

theorem LoadInv.saveState
    (hInv : r.LoadInv) :
    (r.saveState cfg).LoadInv := by
  unfold Registry.saveState
  split
  · exact hInv.of_eq rfl
  · exact hInv

theorem LoadInv.grant
    (hInv : r.LoadInv)
    (node : Node)
    (assignment : Option (Int × Int))
    (orchIndex : Option Nat) :
    (r.grant cfg node assignment orchIndex).2.LoadInv := by
  unfold Registry.grant
  cases cfg.deriveNodeKey node.nodeId with
  | none => exact hInv.of_eq rfl
  | some key =>
      apply LoadInv.saveState
      exact hInv.of_eq rfl

theorem LoadInv.register
    (hInv : r.LoadInv)
    (node : Node)
    (now : ℚ)
    (preferRange : Option PreferRange) :
    (r.register cfg node now preferRange).2.LoadInv := by
  cases register_cases cfg node now preferRange r with
  | refused e hReach hEnd =>
      rw [hEnd]
      exact hInv
  | dropped e hReach hHolder hEntry hEnd =>
      rw [hEnd]
      exact hInv.of_eq rfl
  | entered slot assignment orchIndex hReach hEntry hSlot
      hEnd =>
      rw [hEnd]
      apply LoadInv.grant
      exact hInv.of_eq rfl

theorem LoadInv.recordCheck
    (hInv : r.LoadInv)
    (nodeId : String)
    (ok : Bool)
    (promoteAfter strikeMax : Int) :
    (r.recordCheck cfg nodeId ok promoteAfter
      strikeMax).2.LoadInv := by
  unfold Registry.recordCheck
  simp only
  split
  · apply LoadInv.saveState
    exact hInv.of_eq rfl
  · exact hInv.of_eq rfl

theorem LoadInv.recordWork
    (hInv : r.LoadInv)
    (route : List (String × Int × Int))
    (paidRaw : Int) :
    (r.recordWork cfg route paidRaw).LoadInv := by
  unfold Registry.recordWork
  simp only
  split
  · exact hInv
  · apply LoadInv.saveState
    exact hInv.of_eq rfl

/- Tables without sessions. -/
theorem loadInv_empty
    (hLoad : r.load = .empty)
    (hSessionLoad : r.sessionLoad = .empty)
    (hEntryLoad : r.entryLoad = .empty)
    (hSessionEntry : r.sessionEntry = .empty) :
    r.LoadInv where
  load := by
    rw [hLoad]
    refine counts_empty.congr (fun h => ?_)
    unfold sessionsOn
    rw [hSessionLoad]
    rfl
  nodup session ids hGet := by
    rw [hSessionLoad, Dict.get?_empty] at hGet
    cases hGet
  entry := by
    rw [hEntryLoad]
    refine counts_empty.congr (fun h => ?_)
    unfold entriesOn
    rw [hSessionEntry]
    rfl

theorem loadInv_restart
    {r' : Registry}
    (hRestart : r.restart cfg = .ok r') :
    r'.LoadInv := by
  rcases restart_ok hRestart with
    ⟨_, hLoad, hSessionLoad, hEntryLoad, hSessionEntry⟩
  exact
    loadInv_empty hLoad hSessionLoad hEntryLoad hSessionEntry

theorem loadInv_create
    (hCreate : create cfg = .ok r) :
    r.LoadInv := by
  rcases create_ok hCreate with ⟨topo, _, rfl⟩
  exact loadInv_empty rfl rfl rfl rfl

theorem LoadInv.step
    (hInv : r.LoadInv)
    (hWf : r.topo.WellFormed)
    (op : RegistryOp) :
    (r.step cfg op).LoadInv := by
  cases op with
  | register node now preferRange =>
      exact hInv.register node now preferRange
  | recordCheck nodeId ok promoteAfter strikeMax =>
      exact hInv.recordCheck nodeId ok promoteAfter strikeMax
  | acquireRoute session => exact hInv.acquireRoute hWf session
  | releaseRoute session => exact hInv.releaseRoute session
  | acquireEntry session => exact hInv.acquireEntry session
  | releaseEntry session => exact hInv.releaseEntry session
  | recordWork route paidRaw =>
      exact hInv.recordWork route paidRaw
  | settle minPayoutRaw =>
      apply LoadInv.saveState
      exact hInv.of_eq rfl
  | restart =>
      simp only [Registry.step]
      split
      · exact hInv
      · rename_i r' hRestart
        exact loadInv_restart hRestart
  | heartbeat nodeId now => exact hInv.of_eq rfl
  | drain nodeId => exact hInv.of_eq rfl
  | markReady nodeId => exact hInv.of_eq rfl
  | markSuspect nodeId => exact hInv.of_eq rfl
  | setTrusted nodeId => exact hInv.of_eq rfl
  | setRtt nodeId ms => exact hInv.of_eq rfl
  | tick now => exact hInv.of_eq rfl
  | disk up => exact hInv.of_eq rfl

/- Changes of the topology do not concern the tables. -/
theorem LoadInv.tableStep
    (hInv : r.LoadInv)
    (hWf : r.topo.WellFormed)
    (op : TableOp) :
    (op.step cfg r).LoadInv := by
  cases op with
  | registry op => exact hInv.step hWf op
  | register node now preferRange =>
      exact hInv.of_eq rfl
  | registerOrchestrator node now =>
      exact hInv.of_eq rfl
  | recordCheck nodeId ok promoteAfter strikeMax =>
      exact hInv.of_eq rfl
  | reap now => exact hInv.of_eq rfl
  | purge now => exact hInv.of_eq rfl
  | remove nodeId => exact hInv.of_eq rfl

/- Release the routes and the entries of some sessions. -/
def releaseAll
    (sessions : List Nat)
    (r : Registry) :
    Registry :=
  sessions.foldl
    (fun r session =>
      (r.releaseRoute session).releaseEntry session) r

theorem get?_releaseAll
    (r : Registry)
    (sessions : List Nat)
    (session : Nat) :
    (r.releaseAll sessions).sessionLoad.get? session =
        (if session ∈ sessions then none
        else r.sessionLoad.get? session) ∧
      (r.releaseAll sessions).sessionEntry.get? session =
        if session ∈ sessions then none
        else r.sessionEntry.get? session := by
  unfold releaseAll
  induction sessions generalizing r with
  | nil => exact ⟨rfl, rfl⟩
  | cons head sessions ih =>
      rw [List.foldl_cons]
      rcases ih ((r.releaseRoute head).releaseEntry head) with
        ⟨hRoute, hEntry⟩
      rw [hRoute, hEntry, get?_releaseEntry,
        releaseEntry_sessionLoad]
      simp only [Registry.releaseRoute, Dict.get?_erase,
        List.mem_cons]
      by_cases hHead : head = session
      · simp [hHead]
      · have hHead' : session ≠ head :=
          fun hEq => hHead hEq.symm
        simp [hHead, hHead']

theorem LoadInv.releaseAll
    (hInv : r.LoadInv)
    (sessions : List Nat) :
    (r.releaseAll sessions).LoadInv := by
  unfold Registry.releaseAll
  induction sessions generalizing r with
  | nil => exact hInv
  | cons head sessions ih =>
      exact ih ((hInv.releaseRoute head).releaseEntry head)

/- Load accounting. -/
structure LoadsExact (r : Registry) : Prop where
  load : Counts r.load r.sessionsOn
  entryLoad : Counts r.entryLoad r.entriesOn
  atomic :
    ∀ session e,
      (r.acquireRoute session).1 = .error e →
        (r.acquireRoute session).2 = r
  released :
    ∀ sessions,
      (∀ session ∈ r.sessionLoad.keys,
          session ∈ sessions) →
        (∀ session ∈ r.sessionEntry.keys,
          session ∈ sessions) →
          (r.releaseAll sessions).load = .empty ∧
            (r.releaseAll sessions).entryLoad = .empty

/- Without records the tables are empty. -/
theorem LoadInv.eq_empty
    (hInv : r.LoadInv)
    (hRoutes : ∀ session, r.sessionLoad.get? session = none)
    (hEntries :
      ∀ session, r.sessionEntry.get? session = none) :
    r.load = .empty ∧ r.entryLoad = .empty := by
  have hLoad : r.sessionLoad = .empty :=
    Dict.eq_empty hRoutes
  have hEntry : r.sessionEntry = .empty :=
    Dict.eq_empty hEntries
  constructor
  · refine hInv.load.eq_empty (fun h => ?_)
    unfold sessionsOn
    rw [hLoad]
    rfl
  · refine hInv.entry.eq_empty (fun h => ?_)
    unfold entriesOn
    rw [hEntry]
    rfl

theorem LoadInv.loadsExact
    (hInv : r.LoadInv) :
    r.LoadsExact where
  load := hInv.load
  entryLoad := hInv.entry
  atomic _ _ hError := acquireRoute_atomic hError
  released sessions hRoutes hEntries := by
    refine
      (hInv.releaseAll sessions).eq_empty
        (fun session => ?_) (fun session => ?_)
    · rw [(r.get?_releaseAll sessions session).1]
      split
      · rfl
      · rename_i hOut
        exact
          Dict.get?_eq_none.mpr
            (fun hMem => hOut (hRoutes session hMem))
    · rw [(r.get?_releaseAll sessions session).2]
      split
      · rfl
      · rename_i hOut
        exact
          Dict.get?_eq_none.mpr
            (fun hMem => hOut (hEntries session hMem))

/- After every run the load tables count the sessions. -/
theorem loadsExact_run
    {r₀ : Registry}
    (hCreate : create cfg = .ok r₀)
    (ops : List TableOp) :
    (TableOp.run cfg r₀ ops).LoadsExact := by
  have hRun :
      (TableOp.run cfg r₀ ops).topo.WellFormed ∧
        (TableOp.run cfg r₀ ops).LoadInv :=
    History.induction (TableOp.step cfg)
      (fun _ r => r.topo.WellFormed ∧ r.LoadInv)
      ⟨wellFormed_create cfg hCreate, loadInv_create hCreate⟩
      (fun _ r op hInv =>
        ⟨TableOp.wellFormed_step hInv.1 op,
          hInv.2.tableStep hInv.1 op⟩)
      ops
  exact hRun.2.loadsExact

/- Two sessions of a mesh with one node. -/
theorem loadsExact_run_seed :
    ∃ r₀,
      create oneSlot = .ok r₀ ∧
        (TableOp.run oneSlot r₀
          [.registry (.register (joining "seed") 0 none),
            .registry (.markReady "seed"),
            .registry (.acquireRoute 1),
            .registry (.acquireRoute 2),
            .registry (.releaseRoute 1)]).LoadsExact :=
  ⟨_, rfl, loadsExact_run rfl _⟩

end Registry

end CircuitDllm
