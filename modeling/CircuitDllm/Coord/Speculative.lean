import CircuitDllm.Coord.StageKvs

/-
  Speculative decoding over the star mesh
  (engine/coordinator.py).

  An activation that fails ends the decode.  A truncate that
  fails only drops the connection, and the worker keeps the
  rejected positions for the next forward to append to.

  Main declarations:
    * `generateSpeculative`, `generateSpeculativeStream`
    * `TruncateLost`
    * `speculative_failStop`
-/

------------------------------------------------------------
-- Generation Calls
------------------------------------------------------------

namespace CircuitDllm

namespace CoordEnv

variable {Tok H P D : Type} (env : CoordEnv Tok H P)
variable [DecidableEq Tok]

/- generate_speculative: its session is freed at the end. -/
def generateSpeculative
    (active : Nat)
    (draft : Draft D Tok H)
    (d₀ : D)
    (ids : List Tok)
    (nNew K : Nat)
    (stats : Option SpecStats)
    (s : CoordState Tok H P) :
    Except SpecError (List Tok) × CoordState Tok H P :=
  let (sid, s) := env.nextSession s
  let (r, t, _) :=
    speculativeGreedy (env.socketTarget active sid 0) draft
      ids nNew K none stats { coord := s, kv := 0 } d₀
  (r.map (·.1), env.resetSessions active sid t.coord)

/-
  generate_speculative_stream: the tokens it has yielded,
  how it ended and the state after its finally block.
-/
def generateSpeculativeStream
    (active : Nat)
    (draft : Draft D Tok H)
    (d₀ : D)
    (eos : Tok → Bool)
    (ids : List Tok)
    (nNew K : Nat)
    (stats : Option SpecStats)
    (s : CoordState Tok H P) :
    (List Tok × Except SpecError Unit) ×
      CoordState Tok H P :=
  let ((sid, prefilled), s) := env.beginSession active ids s
  let r :=
    speculativeGreedyStream
      (env.socketTarget active sid prefilled) draft ids nNew
      K eos none stats { coord := s, kv := prefilled } d₀
  ((r.yielded, r.ended),
    env.endSession active sid ids r.target.coord)

end CoordEnv

end CircuitDllm

------------------------------------------------------------
-- Truncates That Are Lost
------------------------------------------------------------

namespace CircuitDllm

namespace CoordEnv

variable {Tok H P : Type} (env : CoordEnv Tok H P)

/-
  A holder on the pinned route keeps positions past
  `length`: the write to it fails, or it is not connected.
-/
def TruncateLost
    (active session : Nat)
    (t : SocketState Tok H P)
    (length : Nat) : Prop :=
  ∃ route n,
    t.coord.sessionRoutes.get? session = some route ∧
      n ∈ route ∧
      length < (t.coord.workerKv n.nodeId session).length ∧
      ¬ env.Reached (t.coord.conn active).conns t.coord.tick
        n.nodeId

variable {env}

end CoordEnv

end CircuitDllm

------------------------------------------------------------
-- Sessions Under Failures
------------------------------------------------------------

namespace CircuitDllm

namespace CoordEnv

variable {Tok H P : Type} {env : CoordEnv Tok H P}
variable {remote : List (Stage H)}

/- After a relay the whole pinned route is connected. -/
theorem relay_conns
    (hMesh : env.StarMesh remote)
    {active session pos : Nat}
    {hidden out : List H}
    {route : List RouteHop}
    {s s' : CoordState Tok H P}
    (hOk :
      env.relay active session pos hidden s = (.ok out, s'))
    (hPin : s'.sessionRoutes.get? session = some route) :
    ∀ n ∈ route, n.nodeId ∈ (s'.conn active).conns := by
  rcases env.relay_inv hMesh.dynamic hMesh.star hOk with
    ⟨route', s₂, hPin', hRelay⟩
  rcases env.relayStar_conns hRelay with
    ⟨hConns, _, hPins⟩
  have hPinned := (env.pinRoute_ok hPin').2.2
  rw [← hPins, hPin] at hPinned
  rcases Option.some.inj hPinned with rfl
  exact hConns

end CoordEnv

end CircuitDllm

------------------------------------------------------------
-- Fail-Stop
------------------------------------------------------------

namespace CircuitDllm

namespace CoordEnv

variable {Tok H P D : Type} {env : CoordEnv Tok H P}
variable {remote : List (Stage H)}

/- The session holds `kv`, which is not empty. -/
def SocketHolds
    (env : CoordEnv Tok H P)
    (remote : List (Stage H))
    (session : Nat)
    (t : SocketState Tok H P)
    (kv : List Tok) : Prop :=
  kv ≠ [] ∧ env.HoldsKv remote session t.coord kv

theorem StarMesh.servesModel
    (hMesh : env.StarMesh remote) :
    env.ServesModel remote where
  star _ := hMesh.star
  routes _ := hMesh.serve
  static hStatic := by
    rw [hMesh.dynamic] at hStatic
    cases hStatic

/- On the star the static sockets do not matter. -/
theorem socketExact_eq
    (hDynamic : env.dynamic = true)
    (active session : Nat) :
    SocketExact env remote active session =
      env.SocketHolds remote session := by
  funext t kv
  apply propext
  unfold SocketExact SocketHolds SocksServe
  rw [holdsExactly_dynamic hDynamic]
  simp [hDynamic]

theorem cutLost_eq
    (hDynamic : env.dynamic = true)
    (active session : Nat) :
    (fun (t : SocketState Tok H P) length =>
        env.CutLost active session t.coord length) =
      env.TruncateLost active session := by
  funext t length
  unfold CutLost TruncateLost routeOf controlNodes
  simp only [hDynamic, if_true]

/- The socket target is fail-stop but for its truncates. -/
theorem socketTarget_failStop
    [Inhabited Tok]
    (hMesh : env.StarMesh remote)
    (active session prefilled : Nat) :
    FailStopSpec (env.socketTarget active session prefilled)
      (env.model remote).next
      (env.SocketHolds remote session)
      (env.TruncateLost active session) := by
  rw [← socketExact_eq hMesh.dynamic active session,
    ← cutLost_eq hMesh.dynamic active session]
  exact
    socketTarget_exactly hMesh.servesModel active session
      prefilled

/- What the request's start leaves for the prefill. -/
def StartsOn
    (env : CoordEnv Tok H P)
    (remote : List (Stage H))
    (sid prefilled : Nat)
    (ids : List Tok)
    (s : CoordState Tok H P) : Prop :=
  0 < prefilled →
    prefilled ≤ ids.length ∧
      env.HoldsKv remote sid s (ids.take prefilled)

theorem socketTarget_prefills
    [Inhabited Tok]
    (hMesh : env.StarMesh remote)
    (active sid prefilled : Nat)
    (ids : List Tok)
    (s : CoordState Tok H P)
    (hStart : env.StartsOn remote sid prefilled ids s) :
    Prefills (env.socketTarget active sid prefilled)
      (env.model remote).next (env.SocketHolds remote sid)
      ids { coord := s, kv := prefilled } := by
  rw [← socketExact_eq hMesh.dynamic active sid]
  apply socketTarget_prefills_exactly hMesh.servesModel
  · intro hStatic
    rw [hMesh.dynamic] at hStatic
    cases hStatic
  · intro hPos
    rw [holdsExactly_dynamic hMesh.dynamic]
    exact hStart hPos

end CoordEnv

end CircuitDllm

------------------------------------------------------------
-- Requests
------------------------------------------------------------

namespace CircuitDllm

namespace CoordEnv

variable {Tok H P D : Type} (env : CoordEnv Tok H P)
variable [DecidableEq Tok]

/-
  No truncate between two rounds of a request is lost.  The
  request runs from `s` on session `sid`, which holds the
  first `prefilled` tokens of the prompt.
-/
def KeepsTruncates
    (active : Nat)
    (draft : Draft D Tok H)
    (d₀ : D)
    (eos : Tok → Bool)
    (ids : List Tok)
    (nNew K : Nat)
    (stats : Option SpecStats)
    (sid prefilled : Nat)
    (s : CoordState Tok H P) : Prop :=
  KeepsRollbacks (env.socketTarget active sid prefilled)
    draft (env.TruncateLost active sid) ids nNew K eos none
    stats { coord := s, kv := prefilled } d₀

/-
  Every forward of a round, at position p, runs on stages
  that hold exactly the p tokens committed before it.
-/
def ForwardsExact
    (remote : List (Stage H))
    (active : Nat)
    (draft : Draft D Tok H)
    (d₀ : D)
    (eos : Tok → Bool)
    (ids : List Tok)
    (nNew K : Nat)
    (stats : Option SpecStats)
    (sid prefilled : Nat)
    (s : CoordState Tok H P) : Prop :=
  ∀ round,
    Rounds (env.socketTarget active sid prefilled) draft ids
      nNew K eos none stats { coord := s, kv := prefilled }
      d₀ round →
    GoesOn eos nNew round.out →
    ∃ kv,
      kv ++ [round.head] = ids ++ round.out ∧
        kv.length = round.pos ∧
        env.HoldsKv remote sid round.target.coord kv

variable {env} {remote : List (Stage H)}

theorem forwardsExact
    [Inhabited Tok]
    (hMesh : env.StarMesh remote)
    {active : Nat}
    {draft : Draft D Tok H}
    {d₀ : D}
    {eos : Tok → Bool}
    {ids : List Tok}
    {nNew K : Nat}
    {stats : Option SpecStats}
    {sid prefilled : Nat}
    {s : CoordState Tok H P}
    (hStart : env.StartsOn remote sid prefilled ids s)
    (hKept :
      env.KeepsTruncates active draft d₀ eos ids nNew K
        stats sid prefilled s) :
    env.ForwardsExact remote active draft d₀ eos ids nNew K
      stats sid prefilled s := by
  intro round hRounds hGoesOn
  rcases hRounds.sound
      (socketTarget_failStop hMesh active sid prefilled)
      (socketTarget_prefills hMesh active sid prefilled ids s
        hStart) hKept with
    ⟨hEmitted, hHolds⟩
  refine ⟨ids ++ round.out.dropLast, ?_,
    hEmitted.pos_eq.symm, (hHolds hGoesOn).2⟩
  rw [List.append_assoc, ← hEmitted.out_eq]

/- Where no frame fails before it arrives, none is lost. -/
theorem keepsTruncates_of_arrive
    (hMesh : env.StarMesh remote)
    (hArrive : ∀ n, env.outcome n ≠ .failBefore)
    (active : Nat)
    (draft : Draft D Tok H)
    (d₀ : D)
    (eos : Tok → Bool)
    (ids : List Tok)
    (nNew K : Nat)
    (stats : Option SpecStats)
    (sid prefilled : Nat)
    (s : CoordState Tok H P) :
    env.KeepsTruncates active draft d₀ eos ids nNew K stats
      sid prefilled s := by
  intro round r round' t length _ _ hRound _ hCall
  rcases specRound_ok hRound with
    ⟨drafts, picks, t', hForward, _, _, _, hCall', _⟩
  rw [hCall] at hCall'
  rcases Option.some.inj hCall' with ⟨rfl, rfl⟩
  rintro ⟨route, n, hPin, hN, _, hNot⟩
  apply hNot
  simp only [socketTarget, targetForward] at hForward
  split at hForward
  · cases hForward
  · rename_i hidden s' hRelay
    cases hForward
    have hMem := relay_conns hMesh hRelay hPin n hN
    rcases List.mem_iff_getElem?.mp hMem with ⟨i, hI⟩
    exact ⟨i, hI, hArrive _⟩

/-
  Whatever fails in a request: if it starts on what its
  session holds and loses no truncate between two rounds,
  it emits greedy tokens only.
-/
theorem speculative_failStop
    [Inhabited Tok]
    (env : CoordEnv Tok H P)
    (remote : List (Stage H))
    (hMesh : env.StarMesh remote)
    (active : Nat)
    (draft : Draft D Tok H)
    (d₀ : D)
    (eos : Tok → Bool)
    (ids : List Tok)
    (nNew K : Nat)
    (stats : Option SpecStats)
    (s : CoordState Tok H P) :
    (∀ sid s',
      env.nextSession s = (sid, s') →
      env.KeepsTruncates active draft d₀ (fun _ => false)
        ids nNew K stats sid 0 s' →
      env.ForwardsExact remote active draft d₀
          (fun _ => false) ids nNew K stats sid 0 s' ∧
        ∀ out,
          (env.generateSpeculative active draft d₀ ids nNew
              K stats s).1 = .ok out →
            out =
              Causal.greedy (env.model remote).next ids
                nNew) ∧
    (∀ sid prefilled s',
      env.beginSession active ids s =
          ((sid, prefilled), s') →
      env.StartsOn remote sid prefilled ids s' →
      env.KeepsTruncates active draft d₀ eos ids nNew K
        stats sid prefilled s' →
      env.ForwardsExact remote active draft d₀ eos ids nNew
          K stats sid prefilled s' ∧
        (env.generateSpeculativeStream active draft d₀ eos
            ids nNew K stats s).1.1 <+:
          (Causal.greedy (env.model remote).next ids
            (max 1 nNew)).takeWhile (fun tok => !eos tok)) := by
  constructor
  · intro sid s' hSession hKept
    have hStart : env.StartsOn remote sid 0 ids s' :=
      fun h => absurd h (Nat.lt_irrefl 0)
    refine ⟨forwardsExact hMesh hStart hKept, ?_⟩
    intro out hOk
    unfold generateSpeculative at hOk
    rw [hSession] at hOk
    simp only at hOk
    rcases hRun :
        (speculativeGreedy (env.socketTarget active sid 0)
          draft ids nNew K none stats
          { coord := s', kv := 0 } d₀).1 with
      e | ⟨out', lastStats, stats'⟩
    · rw [hRun] at hOk
      cases hOk
    · rw [hRun] at hOk
      cases hOk
      exact
        speculativeGreedy_failStop
          (socketTarget_failStop hMesh active sid 0)
          (socketTarget_prefills hMesh active sid 0 ids s'
            hStart)
          hKept hRun
  · intro sid prefilled s' hBegin hStart hKept
    refine ⟨forwardsExact hMesh hStart hKept, ?_⟩
    unfold generateSpeculativeStream
    rw [hBegin]
    exact
      speculativeGreedyStream_failStop
        (socketTarget_failStop hMesh active sid prefilled)
        (socketTarget_prefills hMesh active sid prefilled ids
          s' hStart)
        hKept

/- A draft the target never agrees with. -/
def wrongDraft : Draft Unit Nat Nat where
  needsHidden := false
  prefill _ d := d
  propose _ K _ _ _ := fun d => (.ok (List.replicate K 99), d)
  rollback _ d := d
  eaglePrefill _ _ d := d
  eagleCommit _ _ d := d

/- One worker that counts; the third frame ends so. -/
def countingMesh (third : Outcome) : CoordEnv Nat Nat Unit where
  embed tok := tok
  lmHead hidden := hidden
  stageOf _ := List.length
  dynamic := true
  provider :=
    { acquire := fun _ p =>
        (.ok [⟨"a", ⟨"", 0⟩, true, none⟩], p)
      release := fun _ p => p
      markSuspect := fun _ p => p }
  outcome n := if n = 2 then third else .ok

theorem countingMesh_starMesh (third : Outcome) :
    (countingMesh third).StarMesh [List.length] where
  dynamic := rfl
  star := rfl
  serve := by
    intro session p route p' hOk
    cases hOk
    exact ⟨List.nodup_singleton _, rfl, by simp⟩

/- A truncate that arrives although its write raises. -/
theorem speculative_failStop_counting :
    ((countingMesh .failAfter).generateSpeculativeStream 0
        wrongDraft () (fun _ => false) [7] 3 1 none
        { provider := () }).1.1 = [1, 2, 3] ∧
      ((countingMesh .failAfter).generateSpeculativeStream 0
          wrongDraft () (fun _ => false) [7] 3 1 none
          { provider := () }).1.1 <+:
        (Causal.greedy
          ((countingMesh .failAfter).model
            [List.length]).next [7] 3).takeWhile
          (fun _ => true) := by
  have hMesh := countingMesh_starMesh .failAfter
  have hArrive :
      ∀ n, (countingMesh .failAfter).outcome n ≠
        .failBefore := by
    intro n
    unfold countingMesh
    simp only
    split <;> simp
  refine ⟨by decide, ?_⟩
  exact
    ((speculative_failStop (countingMesh .failAfter)
        [List.length] hMesh 0 wrongDraft () (fun _ => false)
        [7] 3 1 none { provider := () }).2 1 0 _ rfl
      (fun h => absurd h (Nat.lt_irrefl 0))
      (keepsTruncates_of_arrive hMesh hArrive 0 wrongDraft ()
        (fun _ => false) [7] 3 1 none 1 0 _)).2

/-
  The write of a truncate raises and the next forward
  appends to the rejected draft: the third token is wrong.
-/
theorem exists_not_failStop :
    ∃ (env : CoordEnv Nat Nat Unit)
      (remote : List (Stage Nat))
      (draft : Draft Unit Nat Nat)
      (ids : List Nat)
      (nNew K : Nat),
      env.StarMesh remote ∧
        ¬ (env.generateSpeculativeStream 0 draft ()
            (fun _ => false) ids nNew K none
            { provider := () }).1.1 <+:
          Causal.greedy (env.model remote).next ids nNew := by
  refine
    ⟨countingMesh .failBefore, [List.length], wrongDraft,
      [7], 3, 1, countingMesh_starMesh .failBefore, ?_⟩
  have hYielded :
      ((countingMesh .failBefore).generateSpeculativeStream 0
        wrongDraft () (fun _ => false) [7] 3 1 none
        { provider := () }).1.1 = [1, 2, 4] := by
    decide
  have hGreedy :
      Causal.greedy
        ((countingMesh .failBefore).model
          [List.length]).next [7] 3 = [1, 2, 3] := by
    decide
  rw [hYielded, hGreedy]
  decide

end CoordEnv

end CircuitDllm
