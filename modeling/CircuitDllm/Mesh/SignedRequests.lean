import Mathlib.Data.List.Perm.Subperm
import CircuitDllm.Lib.History
import CircuitDllm.Mesh.ControlServer
import CircuitDllm.Mesh.TrustRouting

/-
  Signed requests take effect as they were made
  (engine/control_server.py, engine/stage_worker.py).

  Anyone may post any body to any endpoint at any time.  The
  server does not know for which endpoint a body was signed,
  nor that it has seen it before: within the window a body
  is as good as made again, anywhere its fields are enough.
  `ControlWorld` keeps the requests that nodes made, those
  that passed the checks, and those that were accepted.

  Main declarations:
    * `ControlServer.live`
    * `ControlEvent`, `ControlWorld`
    * `Unforged`, `PostedAsMade`
    * `accepted_subperm_made`
-/

------------------------------------------------------------
-- Requests in the World
------------------------------------------------------------

namespace CircuitDllm

variable {Sig : Type}

/- The endpoints that ask for a signature. -/
def ControlPath.signed : ControlPath → Bool
| .entryAcquire => false
| .entryRelease => false
| .other => false
| _ => true

/- The fields the endpoint reads beside `node_id`. -/
def ControlPath.fits (body : ControlBody Sig) :
    ControlPath → Bool
| .register =>
    body.endpoint.isSome && body.capacityLayers.isSome
| .routeAcquire => body.session.isSome
| .routeRelease => body.session.isSome
| .routeSuspect => body.suspect.isSome
| _ => true

/-
  The signature is valid and fresh, and the endpoint finds
  the fields it reads.
-/
def ControlServer.live
    (server : ControlServer Sig)
    (now : ℚ)
    (path : ControlPath)
    (body : ControlBody Sig) :
    Bool :=
  path.signed && path.fits body &&
    server.verifySig.any (fun window =>
      server.verify window now body)

/- What can happen. -/
inductive ControlEvent (Sig : Type) where
  /- the node of the body signs a request to an endpoint -/
  | made (path : ControlPath) (body : ControlBody Sig)
  /- a body arrives, from whoever sent it -/
  | post
      (now : ℚ)
      (path : ControlPath)
      (body : ControlBody Sig)
  /- anything else that moves the registry -/
  | registry (op : RegistryOp)

/- A request: where it goes, and what was signed. -/
structure ControlRequest (Sig : Type) where
  path : ControlPath
  message : ControlBody Sig
deriving DecidableEq, Repr

/- The server's state, and what has happened so far. -/
structure ControlWorld (Sig : Type) where
  state : ControlState
  made : List (ControlRequest Sig) := []
  passed : List (ControlRequest Sig) := []
  accepted : List (ControlRequest Sig) := []

namespace ControlWorld

def step
    (server : ControlServer Sig)
    (w : ControlWorld Sig) :
    ControlEvent Sig → ControlWorld Sig
| .made path body =>
    { w with made := ⟨path, body.message⟩ :: w.made }
| .post now path body =>
    let (reply, state) := server.doPost now path body w.state
    { w with
      state := state
      passed :=
        if server.live now path body then
          ⟨path, body.message⟩ :: w.passed
        else w.passed
      accepted :=
        if path.signed && reply.accepts then
          ⟨path, body.message⟩ :: w.accepted
        else w.accepted }
| .registry op =>
    { w with
      state :=
        { w.state with
          registry := w.state.registry.step server.cfg op } }

def run
    (server : ControlServer Sig)
    (w : ControlWorld Sig)
    (events : List (ControlEvent Sig)) :
    ControlWorld Sig :=
  events.foldl (step server) w

/- The message of some request that was made. -/
def Signed (w : ControlWorld Sig) (message : ControlBody Sig) :
    Prop :=
  message ∈ w.made.map (·.message)

/- A valid signature is one its node made. -/
def Unforged
    (server : ControlServer Sig)
    (w : ControlWorld Sig) :
    ControlEvent Sig → Prop
| .post _ _ body =>
    match body.nodeId, body.sig with
    | some nodeId, some sig =>
      server.valid nodeId body.message sig = true →
        w.Signed body.message
    | _, _ => True
| _ => True

variable [DecidableEq Sig]

instance (w : ControlWorld Sig) (message : ControlBody Sig) :
    Decidable (w.Signed message) :=
  inferInstanceAs
    (Decidable (message ∈ w.made.map (·.message)))

instance
    (server : ControlServer Sig)
    (w : ControlWorld Sig)
    (event : ControlEvent Sig) :
    Decidable (w.Unforged server event) :=
  match event with
  | .made _ _ => inferInstanceAs (Decidable True)
  | .registry _ => inferInstanceAs (Decidable True)
  | .post _ _ body =>
    match hNode : body.nodeId, hSig : body.sig with
    | some nodeId, some sig =>
      decidable_of_iff
        (server.valid nodeId body.message sig = true →
          w.Signed body.message)
        (by simp [Unforged, hNode, hSig])
    | none, _ => .isTrue (by simp [Unforged, hNode])
    | some _, none =>
        .isTrue (by simp [Unforged, hNode, hSig])

/-
  A signed body that is fresh reaches only endpoints it was
  made for, and no more often than it was made.
-/
def PostedAsMade
    (server : ControlServer Sig)
    (w : ControlWorld Sig) :
    ControlEvent Sig → Prop
| .post now path body =>
    server.live now path body = true →
    w.Signed body.message →
      w.passed.count ⟨path, body.message⟩ <
        w.made.count ⟨path, body.message⟩
| _ => True

instance
    (server : ControlServer Sig)
    (w : ControlWorld Sig)
    (event : ControlEvent Sig) :
    Decidable (w.PostedAsMade server event) :=
  match event with
  | .made _ _ => inferInstanceAs (Decidable True)
  | .registry _ => inferInstanceAs (Decidable True)
  | .post now path body =>
    inferInstanceAs
      (Decidable
        (server.live now path body = true →
          w.Signed body.message →
            w.passed.count ⟨path, body.message⟩ <
              w.made.count ⟨path, body.message⟩))

end ControlWorld

end CircuitDllm

------------------------------------------------------------
-- What the Checks Let Through
------------------------------------------------------------

namespace CircuitDllm

namespace ControlServer

variable {Sig : Type}
variable {server : ControlServer Sig}
variable {window now : ℚ}
variable {body : ControlBody Sig}

/- A body that verifies is signed by the node it names. -/
theorem valid_of_verify
    (hVerify : server.verify window now body = true) :
    ∃ nodeId sig,
      body.nodeId = some nodeId ∧ body.sig = some sig ∧
        server.valid nodeId body.message sig = true := by
  unfold verify at hVerify
  split at hVerify
  · next nodeId sig hNode hSig =>
      exact
        ⟨nodeId, sig, hNode, hSig,
          (Bool.and_eq_true_iff.mp hVerify).2⟩
  · cases hVerify

/- With a window, a strict server takes only signed liveness. -/
theorem livenessError_eq_none_iff
    (hWindow : server.verifySig = some window)
    (hStrict : server.strictLiveness = true) :
    server.livenessError now body = none ↔
      server.verify window now body = true := by
  unfold livenessError
  rw [hWindow]
  cases hSig : body.sig with
  | none =>
      have hUnsigned :
          server.verify window now body = false := by
        unfold verify
        rw [hSig]
        cases body.nodeId <;> rfl
      simp [hUnsigned, hStrict]
  | some sig =>
      by_cases hVerify : server.verify window now body = true <;>
        simp [hVerify]

theorem routeError_eq_none_iff
    (hWindow : server.verifySig = some window) :
    server.routeError now body = none ↔
      server.verify window now body = true := by
  unfold routeError
  rw [hWindow]
  by_cases hVerify : server.verify window now body = true <;>
    simp [hVerify]

theorem rejects_eq_false_iff
    (hWindow : server.verifySig = some window) :
    server.rejects now body = false ↔
      server.verify window now body = true := by
  unfold rejects
  rw [hWindow]
  simp

theorem live_iff
    (hWindow : server.verifySig = some window)
    (path : ControlPath) :
    server.live now path body = true ↔
      path.signed = true ∧ path.fits body = true ∧
        server.verify window now body = true := by
  unfold live
  rw [hWindow]
  simp [and_assoc]

/- A registration is accepted only with its fields. -/
theorem live_of_postRegister
    (hWindow : server.verifySig = some window)
    {s : ControlState}
    (hAccepts :
      (server.postRegister now body s).1.accepts = true) :
    server.live now .register body = true := by
  rw [live_iff hWindow]
  unfold postRegister at hAccepts
  split at hAccepts
  · cases hAccepts
  · next hRejects =>
      rw [Bool.not_eq_true, rejects_eq_false_iff hWindow]
        at hRejects
      refine ⟨rfl, ?_, hRejects⟩
      split at hAccepts
      · cases hAccepts
      · next node hNode =>
          unfold nodeOf at hNode
          split at hNode
          · cases hNode
          · cases hNode
          · cases hNode
          · next hEndpoint hLayers =>
              simp [ControlPath.fits, hEndpoint, hLayers]

/- Liveness is accepted exactly when it is live. -/
theorem accepts_postLiveness
    (hWindow : server.verifySig = some window)
    (hStrict : server.strictLiveness = true)
    {act : String → Registry → ControlReply × Registry}
    (hAct : ∀ nodeId r, (act nodeId r).1.accepts = true)
    (s : ControlState) :
    (server.postLiveness now body act s).1.accepts = true ↔
      server.verify window now body = true := by
  have hNone :
      server.livenessError now body = none ↔
        server.verify window now body = true :=
    livenessError_eq_none_iff hWindow hStrict
  unfold postLiveness
  split
  · next e hError =>
      rw [hError] at hNone
      rw [← hNone]
      simp [ControlReply.accepts]
  · next hError =>
      have hVerify := hNone.mp hError
      rcases valid_of_verify hVerify with
        ⟨nodeId, _, hNode, _⟩
      rw [hNode]
      exact iff_of_true (hAct nodeId s.registry) hVerify

/- The endpoints of a node's own liveness. -/
def liveness : ControlPath → Bool
| .ready => true
| .heartbeat => true
| .drain => true
| _ => false

theorem accepts_iff_live
    (hWindow : server.verifySig = some window)
    (hStrict : server.strictLiveness = true)
    {path : ControlPath}
    (hPath : liveness path = true)
    (s : ControlState) :
    (server.doPost now path body s).1.accepts = true ↔
      server.live now path body = true := by
  rw [live_iff hWindow]
  have hBoth :
      path.signed = true ∧ path.fits body = true ∧
        ((server.doPost now path body s).1.accepts = true ↔
          server.verify window now body = true) := by
    cases path with
    | ready =>
        refine ⟨rfl, rfl, ?_⟩
        apply accepts_postLiveness hWindow hStrict
        exact fun _ _ => rfl
    | heartbeat =>
        refine ⟨rfl, rfl, ?_⟩
        apply accepts_postLiveness hWindow hStrict
        exact fun _ _ => rfl
    | drain =>
        refine ⟨rfl, rfl, ?_⟩
        apply accepts_postLiveness hWindow hStrict
        exact fun _ _ => rfl
    | register => cases hPath
    | entryAcquire => cases hPath
    | entryRelease => cases hPath
    | routeAcquire => cases hPath
    | routeRelease => cases hPath
    | routeSuspect => cases hPath
    | other => cases hPath
  rcases hBoth with ⟨hSigned, hFits, hIff⟩
  rw [hIff]
  simp [hSigned, hFits]

/- A route RPC is refused unless it is live. -/
theorem live_of_postRoute
    (hWindow : server.verifySig = some window)
    {act : Nat → Registry → ControlReply × Registry}
    {s : ControlState}
    (hAccepts :
      (server.postRoute now body act s).1.accepts = true) :
    body.session.isSome = true ∧
      server.verify window now body = true := by
  unfold postRoute at hAccepts
  split at hAccepts
  · cases hAccepts
  · next hError =>
      rw [routeError_eq_none_iff hWindow] at hError
      refine ⟨?_, hError⟩
      split at hAccepts
      · cases hAccepts
      · next session hSession =>
          rw [hSession]
          rfl

theorem live_of_postSuspect
    (hWindow : server.verifySig = some window)
    {s : ControlState}
    (hAccepts :
      (server.postSuspect now body s).1.accepts = true) :
    body.suspect.isSome = true ∧
      server.verify window now body = true := by
  unfold postSuspect at hAccepts
  split at hAccepts
  · cases hAccepts
  · next hError =>
      rw [routeError_eq_none_iff hWindow] at hError
      refine ⟨?_, hError⟩
      dsimp only at hAccepts
      split at hAccepts
      · cases hAccepts
      · split at hAccepts
        · cases hAccepts
        · next suspect hSuspect =>
            rw [hSuspect]
            rfl

/- What a signed endpoint accepts is live. -/
theorem live_of_accepts
    (hWindow : server.verifySig = some window)
    (hStrict : server.strictLiveness = true)
    {path : ControlPath}
    {s : ControlState}
    (hSigned : path.signed = true)
    (hAccepts :
      (server.doPost now path body s).1.accepts = true) :
    server.live now path body = true := by
  cases path with
  | register => exact live_of_postRegister hWindow hAccepts
  | ready =>
      exact
        (accepts_iff_live hWindow hStrict rfl s).mp hAccepts
  | heartbeat =>
      exact
        (accepts_iff_live hWindow hStrict rfl s).mp hAccepts
  | drain =>
      exact
        (accepts_iff_live hWindow hStrict rfl s).mp hAccepts
  | routeSuspect =>
      rw [live_iff hWindow]
      exact ⟨rfl, live_of_postSuspect hWindow hAccepts⟩
  | routeAcquire =>
      rw [live_iff hWindow]
      exact ⟨rfl, live_of_postRoute hWindow hAccepts⟩
  | routeRelease =>
      rw [live_iff hWindow]
      exact ⟨rfl, live_of_postRoute hWindow hAccepts⟩
  | entryAcquire => cases hSigned
  | entryRelease => cases hSigned
  | other => cases hSigned

/- The endpoints that refuse no live request. -/
def steady : ControlPath → Bool
| .ready => true
| .heartbeat => true
| .drain => true
| .routeRelease => true
| _ => false

theorem accepts_of_live
    (hWindow : server.verifySig = some window)
    (hStrict : server.strictLiveness = true)
    {path : ControlPath}
    (hSteady : steady path = true)
    (hLive : server.live now path body = true)
    (s : ControlState) :
    (server.doPost now path body s).1.accepts = true := by
  cases path with
  | ready =>
      exact (accepts_iff_live hWindow hStrict rfl s).mpr hLive
  | heartbeat =>
      exact (accepts_iff_live hWindow hStrict rfl s).mpr hLive
  | drain =>
      exact (accepts_iff_live hWindow hStrict rfl s).mpr hLive
  | routeRelease =>
      rcases (live_iff hWindow .routeRelease).mp hLive with
        ⟨_, hFits, hVerify⟩
      rcases Option.isSome_iff_exists.mp hFits with
        ⟨session, hSession⟩
      have hError := (routeError_eq_none_iff hWindow).mpr hVerify
      simp [doPost, postRoute, hError, hSession,
        ControlReply.accepts]
  | register => cases hSteady
  | entryAcquire => cases hSteady
  | entryRelease => cases hSteady
  | routeAcquire => cases hSteady
  | routeSuspect => cases hSteady
  | other => cases hSteady

end ControlServer

end CircuitDllm

------------------------------------------------------------
-- Matching Requests
------------------------------------------------------------

namespace CircuitDllm

namespace ControlWorld

variable {Sig : Type} [DecidableEq Sig]
variable {server : ControlServer Sig}
variable {window : ℚ}

/- No request was accepted more often than it passed. -/
def AcceptedPassed (w : ControlWorld Sig) : Prop :=
  ∀ request,
    w.accepted.count request ≤ w.passed.count request

theorem acceptedPassed_step
    (hWindow : server.verifySig = some window)
    (hStrict : server.strictLiveness = true)
    {w : ControlWorld Sig}
    (hPassed : w.AcceptedPassed)
    (event : ControlEvent Sig) :
    (w.step server event).AcceptedPassed := by
  intro request
  have hBefore := hPassed request
  cases event with
  | made path body => exact hBefore
  | registry op => exact hBefore
  | post now path body =>
      simp only [step]
      by_cases hAccepts :
          (path.signed &&
            (server.doPost now path body w.state).1.accepts) =
            true
      · rcases Bool.and_eq_true_iff.mp hAccepts with
          ⟨hSigned, hReply⟩
        have hLive :=
          server.live_of_accepts hWindow hStrict hSigned hReply
        rw [if_pos hAccepts, if_pos hLive, List.count_cons,
          List.count_cons]
        omega
      · rw [if_neg hAccepts]
        split
        · rw [List.count_cons]
          omega
        · exact hBefore

/- Where nothing live is refused, all that passed is accepted. -/
theorem accepted_eq_passed
    (hWindow : server.verifySig = some window)
    (hStrict : server.strictLiveness = true)
    (state : ControlState)
    (events : List (ControlEvent Sig))
    {path : ControlPath}
    (hSteady : ControlServer.steady path = true)
    (message : ControlBody Sig) :
    (run server { state := state } events).accepted.count
        ⟨path, message⟩ =
      (run server { state := state } events).passed.count
        ⟨path, message⟩ := by
  refine
    History.induction (step server)
      (fun _ w =>
        w.accepted.count ⟨path, message⟩ =
          w.passed.count ⟨path, message⟩)
      rfl ?_ events
  intro _ w event hSame
  cases event with
  | made path' body => exact hSame
  | registry op => exact hSame
  | post now path' body =>
      simp only [step]
      by_cases hPath : path' = path
      · rw [hPath]
        by_cases hLive : server.live now path body = true
        · have hReply :=
            server.accepts_of_live hWindow hStrict hSteady hLive
              w.state
          have hSigned :=
            ((server.live_iff hWindow path).mp hLive).1
          rw [if_pos hLive, hSigned, hReply]
          simp [List.count_cons, hSame]
        · rw [if_neg hLive, if_neg, hSame]
          intro hAccepts
          rcases Bool.and_eq_true_iff.mp hAccepts with
            ⟨hSigned, hReply⟩
          exact
            hLive
              (server.live_of_accepts hWindow hStrict hSigned
                hReply)
      · -- a request to another endpoint
        have hOther :
            ((⟨path', body.message⟩ : ControlRequest Sig) ==
              ⟨path, message⟩) = false := by
          simp [hPath]
        split <;> split <;>
          simp only [List.count_cons, hOther, hSame,
            Bool.false_eq_true, ↓reduceIte, Nat.add_zero]

/- No request passed more often than it was made. -/
def PassedMade (w : ControlWorld Sig) : Prop :=
  ∀ request, w.passed.count request ≤ w.made.count request

theorem passedMade_step
    (hWindow : server.verifySig = some window)
    {w : ControlWorld Sig}
    (hMade : w.PassedMade)
    (event : ControlEvent Sig)
    (hUnforged : w.Unforged server event)
    (hAsMade : w.PostedAsMade server event) :
    (w.step server event).PassedMade := by
  intro request
  have hBefore := hMade request
  cases event with
  | made path body =>
      simp only [step]
      rw [List.count_cons]
      omega
  | registry op => exact hBefore
  | post now path body =>
      simp only [step]
      split
      · next hLive =>
          rcases (server.live_iff hWindow path).mp hLive with
            ⟨_, _, hVerify⟩
          rcases ControlServer.valid_of_verify hVerify with
            ⟨nodeId, sig, hNode, hSig, hValid⟩
          have hSigned : w.Signed body.message := by
            simp only [Unforged, hNode, hSig] at hUnforged
            exact hUnforged hValid
          have hFewer := hAsMade hLive hSigned
          by_cases hEq : ⟨path, body.message⟩ = request
          · rw [← hEq] at hBefore ⊢
            rw [List.count_cons_self]
            exact hFewer
          · rw [List.count_cons_of_ne hEq]
            exact hBefore
      · exact hBefore

end ControlWorld

/-
  A strict server that verifies accepts, in every run with
  signatures that are not forged and signed bodies that are
  posted as they were made, only requests that were made:
  each to its endpoint, and once for each time.
-/
theorem accepted_subperm_made
    {Sig : Type} [DecidableEq Sig]
    (server : ControlServer Sig)
    (window : ℚ)
    (hWindow : server.verifySig = some window)
    (hStrict : server.strictLiveness = true)
    (state : ControlState)
    (events : List (ControlEvent Sig))
    (hUnforged :
      ∀ e ∈ History.trail (ControlWorld.step server)
          { state := state } events,
        e.1.Unforged server e.2)
    (hAsMade :
      ∀ e ∈ History.trail (ControlWorld.step server)
          { state := state } events,
        e.1.PostedAsMade server e.2) :
    let w := ControlWorld.run server { state := state } events
    List.Subperm w.accepted w.made := by
  have hInit :
      (ControlWorld.AcceptedPassed
          ({ state := state } : ControlWorld Sig)) ∧
        ControlWorld.PassedMade
          ({ state := state } : ControlWorld Sig) :=
    ⟨fun _ => Nat.le_refl _, fun _ => Nat.le_refl _⟩
  have hAllowed :
      ∀ e ∈ History.trail (ControlWorld.step server)
          { state := state } events,
        e.1.Unforged server e.2 ∧
          e.1.PostedAsMade server e.2 :=
    fun e hMem => ⟨hUnforged e hMem, hAsMade e hMem⟩
  have hRun :=
    History.induction_of (ControlWorld.step server)
      (fun e =>
        e.1.Unforged server e.2 ∧ e.1.PostedAsMade server e.2)
      (fun _ w => w.AcceptedPassed ∧ w.PassedMade)
      hInit
      (fun _ w event hEvent hBefore =>
        ⟨ControlWorld.acceptedPassed_step hWindow hStrict
            hBefore.1 event,
          ControlWorld.passedMade_step hWindow hBefore.2 event
            hEvent.1 hEvent.2⟩)
      hAllowed
  intro w
  rw [List.subperm_iff_count]
  intro request
  exact (hRun.1 request).trans (hRun.2 request)

/- The requests a node signs: to register, and to live on. -/
def signedByA : List (ControlBody Nat) :=
  [{ nodeId := some "a"
     ts := some 0
     endpoint := some ⟨"a", 7000⟩
     capacityLayers := some 1
     modelFp := some "m" },
    { nodeId := some "a", ts := some 1 }]

/- Its signatures are numbered. -/
def strictServer : ControlServer Nat where
  cfg := Registry.oneSlot
  valid nodeId message sig :=
    nodeId == "a" && signedByA[sig]? == some message
  verifySig := some 300
  strictLiveness := true
  suspectMaxPerMin := 20
  entryRequireSig := false

/- A signed body. -/
def signedBody (sig : Nat) : ControlBody Nat :=
  { signedByA[sig]?.getD {} with sig := some sig }

/- No node is in the mesh. -/
def emptyMesh : ControlState where
  registry :=
    { topo :=
        { numLayers := 2
          coordinatorEnd := 1
          modelFp := "m"
          replication := 2
          deadAfterS := 30
          coordinatorRegion := none
          routeByLatency := false
          rtts := .empty
          nodes := .empty
          slots := [⟨0, 1, 2, []⟩]
          indexed := rfl } }

/- The node registers and sends one heartbeat. -/
def oneBeat : List (ControlEvent Nat) :=
  [.made .register (signedBody 0),
    .post 0 .register (signedBody 0),
    .made .heartbeat (signedBody 1),
    .post 1 .heartbeat (signedBody 1)]

theorem accepted_subperm_made_oneBeat :
    let w :=
      ControlWorld.run strictServer { state := emptyMesh }
        oneBeat
    w.accepted.length = 2 ∧ List.Subperm w.accepted w.made := by
  refine ⟨by decide +kernel, ?_⟩
  exact
    accepted_subperm_made strictServer 300 rfl rfl emptyMesh
      oneBeat (by decide +kernel) (by decide +kernel)

/-
  The heartbeat posted to /drain makes the node leave, which
  it never asked for.
-/
theorem exists_not_subperm :
    let events :=
      oneBeat ++ [.post 2 .drain (signedBody 1)]
    let w :=
      ControlWorld.run strictServer { state := emptyMesh } events
    (∀ e ∈ History.trail (ControlWorld.step strictServer)
        { state := emptyMesh } events,
      e.1.Unforged strictServer e.2) ∧
      w.accepted.count ⟨.drain, (signedBody 1).message⟩ = 1 ∧
      w.made.count ⟨.drain, (signedBody 1).message⟩ = 0 ∧
      (w.state.registry.topo.nodes.get? "a").map (·.state) =
        some .draining ∧
      ¬ List.Subperm w.accepted w.made := by
  intro events w
  have hAccepted :
      w.accepted.count ⟨.drain, (signedBody 1).message⟩ = 1 := by
    decide +kernel
  have hMade :
      w.made.count ⟨.drain, (signedBody 1).message⟩ = 0 := by
    decide +kernel
  refine ⟨by decide +kernel, hAccepted, hMade, by decide +kernel, ?_⟩
  intro hSubperm
  have hCount :=
    hSubperm.count_le ⟨.drain, (signedBody 1).message⟩
  omega

end CircuitDllm
