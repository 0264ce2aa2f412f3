import CircuitDllm.Coord.State
import CircuitDllm.Mesh.Canonical
import CircuitDllm.Mesh.SuspectRate

/-
  Routes from remote control planes (engine/route_provider.py:
  ControlEndpoints, RemoteRouteProvider).

  A signed request goes to the control plane that answered
  last, then to the others, until one answers.  An answer is
  read as the JSON value that was written, as
  `PyJson.loads_dumps` has it.  An attempt can fail before
  or after the control plane acted on it.

  Main declarations:
    * `ControlPlanes.failover`, `ControlEnv.post`
    * `hopOf`, `remoteProvider`
    * `localProviders`, `remoteProvider_eq`
    * `failover_spec`
    * `remote_run`
-/

------------------------------------------------------------
-- Failover
------------------------------------------------------------

namespace CircuitDllm

/- The first place that answers, and its answer. -/
def firstOf
    {S R : Type}
    (send : Nat → S → Option R × S) :
    List Nat → S → Option (Nat × R) × S
| [], s => (none, s)
| i :: is, s =>
    match send i s with
    | (some r, s) => (some (i, r), s)
    | (none, s) => firstOf send is s

/- One attempt: its end, and the times on both sides. -/
structure Attempt where
  outcome : Outcome := .ok
  ts : ℚ := 0
  now : ℚ := 0

/- make_ed25519_signer -/
structure Signer (Sig : Type) where
  nodeId : String
  sign : ControlBody Sig → Sig

/- The control planes' servers, one for each url. -/
structure ControlEnv (Sig : Type) where
  servers : List (ControlServer Sig)
  signer : Option (Signer Sig)
  -- the n-th attempt
  net : Nat → Attempt

/- The control planes, and which of them answered last. -/
structure ControlPlanes where
  planes : Nat → ControlState
  preferred : Nat := 0
  tick : Nat := 0

variable {Sig R : Type}

namespace ControlPlanes

/- What a control plane does with a request. -/
abbrev PlaneHandler (Sig R : Type) :=
  ControlServer Sig → Attempt → ControlState →
    Option R × ControlState

/- The i-th control plane, and one more attempt. -/
def setPlane
    (s : ControlPlanes)
    (i : Nat)
    (plane : ControlState) :
    ControlPlanes :=
  { s with
    planes := Function.update s.planes i plane
    tick := s.tick + 1 }

/- _post_one, up to what the control plane does. -/
def attempt
    (env : ControlEnv Sig)
    (handle : PlaneHandler Sig R)
    (i : Nat)
    (s : ControlPlanes) :
    Option R × ControlPlanes :=
  match env.servers[i]? with
  | none => (none, s)
  | some server =>
    let a := env.net s.tick
    let (r, plane) := handle server a (s.planes i)
    match a.outcome with
    | .failBefore => (none, { s with tick := s.tick + 1 })
    | .failAfter => (none, s.setPlane i plane)
    | .ok => (r, s.setPlane i plane)

/- The sticky control plane first, then the others. -/
def order (env : ControlEnv Sig) (s : ControlPlanes) :
    List Nat :=
  s.preferred ::
    (List.range env.servers.length).filter (· ≠ s.preferred)

/- The loop of post: who answers is preferred from then on. -/
def failover
    (env : ControlEnv Sig)
    (handle : PlaneHandler Sig R)
    (s : ControlPlanes) :
    Option R × ControlPlanes :=
  match firstOf (attempt env handle) (s.order env) s with
  | (none, s) => (none, s)
  | (some (i, r), s) => (some r, { s with preferred := i })

end ControlPlanes

end CircuitDllm

------------------------------------------------------------
-- Requests And Answers
------------------------------------------------------------

namespace CircuitDllm

variable {Sig F : Type}

/- `node_id` and `ts` are stamped on, and all is signed. -/
def Signer.stamp
    (signer : Signer Sig)
    (ts : ℚ)
    (body : ControlBody Sig) :
    ControlBody Sig :=
  let message :=
    { body with
      nodeId := some signer.nodeId
      ts := some ts
      sig := none }
  { message with sig := some (signer.sign message) }

/- sign(dict(body)), or the body as it is. -/
def ControlEnv.stamped
    (env : ControlEnv Sig)
    (ts : ℚ)
    (body : ControlBody Sig) :
    ControlBody Sig :=
  match env.signer with
  | none => body
  | some signer => signer.stamp ts body

def Trust.text : Trust → String
| .probation => "probation"
| .trusted => "trusted"

/- A node's metadata; a missing key is left out. -/
def NodeJson.json (n : NodeJson) : PyJson F :=
  .obj
    ([member "node_id" (jsonText n.nodeId),
      member "endpoint"
        (.arr [jsonText n.endpoint.host, .int n.endpoint.port]),
      member "layers"
        (match n.layers with
          | none => .null
          | some (start, stop) =>
            .arr [.int start, .int stop]),
      member "reachability"
        (jsonText (if n.isPublic then "public" else "relay")),
      member "trust" (jsonText n.trust.text),
      member "orchestrator" (.bool n.orchestrator)] ++
      (match n.wireKey with
        | none => []
        | some key => [member "wire_key" (.str (hexBytes key))]))

/-
  The body of a 200 to the requests of a route provider and
  of a live node; an HTTP error raises in urlopen.
-/
def ControlReply.body : ControlReply → Option (PyJson F)
| .admitted admission =>
    some (.obj
      [member "assignment"
        (match admission.assignment with
          | none => .null
          | some (start, stop) =>
            .obj [member "start" (.int start),
              member "end" (.int stop)]),
        member "orch_index"
          (match admission.orchIndex with
            | none => .null
            | some index => .int index),
        member "model_fp" (jsonText admission.modelFp),
        member "session_key"
          (.str (hexBytes admission.sessionKey)),
        member "coordinator"
          (.arr [jsonText admission.coordinator.host,
            .int admission.coordinator.port]),
        member "replication" (.int admission.replication)])
| .ok => some (.obj [member "ok" (.bool true)])
| .registered known =>
    some (.obj [member "ok" (.bool true),
      member "registered" (.bool known)])
| .orchestrator node =>
    some (.obj [member "orchestrator"
      ((node.map NodeJson.json).getD .null)])
| .route nodes =>
    some (.obj [member "route"
      (.arr (nodes.map NodeJson.json))])
| .failed _ => none

/- The request, signed anew, and what do_POST answers. -/
def ControlEnv.request
    (env : ControlEnv Sig)
    (path : ControlPath)
    (body : ControlBody Sig) :
    ControlPlanes.PlaneHandler Sig (PyJson F) :=
  fun server a plane =>
    let (reply, plane) :=
      server.doPost a.now path (env.stamped a.ts body) plane
    (reply.body, plane)

/- ControlEndpoints.post -/
def ControlEnv.post
    (env : ControlEnv Sig)
    (path : ControlPath)
    (body : ControlBody Sig) :
    ControlPlanes → Option (PyJson F) × ControlPlanes :=
  ControlPlanes.failover env (env.request path body)

end CircuitDllm

------------------------------------------------------------
-- The Remote Provider
------------------------------------------------------------

namespace CircuitDllm

variable {Sig F : Type}

/- `h.get(key)` where a falsy value is none. -/
def truthy : Option (PyJson F) → Option (PyJson F)
| some .null => none
| some (.str []) => none
| some (.arr []) => none
| v => v

/- The endpoint of a hop; only ("host", port) has a place. -/
def endpointOf : Option (PyJson F) → Option Endpoint
| some (.arr [host, .int port]) =>
    (textOf host).map (fun host => ⟨host, port⟩)
| _ => none

/- The layers of a hop, if it has any. -/
def layersOf :
    Option (PyJson F) → Option (Option (Int × Int))
| none => some none
| some (.arr [.int start, .int stop]) =>
    some (some (start, stop))
| _ => none

/- The key of a hop, if it has one. -/
def wireKeyOf : Option (PyJson F) → Option (Option WireKey)
| none => some none
| some (.str digits) => (fromHex digits).map some
| _ => none

/- A hop of the answer, with its layers; none raises. -/
def hopOf (h : PyJson F) :
    Option (RouteHop × Option (Int × Int)) := do
  let h ← membersOf h
  let endpoint ← endpointOf (PyJson.get? h "endpoint")
  let layers ← layersOf (truthy (PyJson.get? h "layers"))
  let wireKey ← wireKeyOf (truthy (PyJson.get? h "wire_key"))
  let nodeId ← (PyJson.get? h "node_id").bind textOf
  let reachability ←
    match PyJson.get? h "reachability" with
    | none => some "public"
    | some v => textOf v
  some
    (⟨nodeId, endpoint, reachability != "relay", wireKey⟩,
      layers)

/- The hops of `resp.get("route", [])`. -/
def routeOf (resp : PyJson F) :
    Option (List (RouteHop × Option (Int × Int))) := do
  let resp ← membersOf resp
  match PyJson.get? resp "route" with
  | none => some []
  | some (.arr hops) => hops.mapM hopOf
  | some _ => none

/- RemoteRouteProvider -/
def remoteProvider
    (F : Type)
    (env : ControlEnv Sig) :
    RouteProvider ControlPlanes where
  acquire session s :=
    match env.post (F := F) .routeAcquire
        { session := some session } s with
    | (none, s) => (.error .wire, s)
    | (some resp, s) =>
      match routeOf resp with
      | none => (.error .value, s)
      | some hops => (.ok (hops.map (·.1)), s)
  release session s :=
    (env.post (F := F) .routeRelease
      { session := some session } s).2
  markSuspect nodeId s :=
    (env.post (F := F) .routeSuspect
      { suspect := some nodeId } s).2

end CircuitDllm

------------------------------------------------------------
-- Answers Are Read Back
------------------------------------------------------------

namespace CircuitDllm

variable {F : Type}

/- An empty key is written, but read as none. -/
def NodeJson.hop (n : NodeJson) : RouteHop :=
  ⟨n.nodeId, n.endpoint, n.isPublic, n.wireKey.filter (· ≠ [])⟩

theorem hexBytes_eq_nil {bs : Wire.Bytes} :
    hexBytes bs = [] ↔ bs = [] := by
  cases bs <;> simp [hexBytes]

theorem layersOf_json (layers : Option (Int × Int)) :
    layersOf (truthy (some
      (match layers with
        | none => (.null : PyJson F)
        | some (start, stop) =>
          .arr [.int start, .int stop]))) = some layers := by
  rcases layers with _ | ⟨start, stop⟩ <;> rfl

theorem wireKeyOf_none :
    wireKeyOf (truthy (none : Option (PyJson F))) =
      some none := rfl

theorem wireKeyOf_json (key : WireKey) :
    wireKeyOf (truthy (some (.str (hexBytes key) : PyJson F))) =
      some ((some key).filter (· ≠ [])) := by
  cases key with
  | nil => rfl
  | cons b key =>
      have hSome : hexBytes (b :: key) ≠ [] :=
        fun h => nomatch hexBytes_eq_nil.mp h
      rw [truthy]
      · simp [wireKeyOf, fromHex_hexBytes, Option.filter]
      · simp
      · simpa using hSome
      · simp

/- A hop is read back with its layers. -/
theorem hopOf_json (n : NodeJson) :
    hopOf (n.json : PyJson F) = some (n.hop, n.layers) := by
  have hPublic :
      ((if n.isPublic then "public" else "relay") !=
        "relay") = n.isPublic := by
    cases n.isPublic <;> rfl
  unfold hopOf NodeJson.json NodeJson.hop
  cases hKey : n.wireKey with
  | none =>
      simp [membersOf, get?_member, get?_nil, endpointOf,
        textOf_jsonText, layersOf_json, hPublic,
        wireKeyOf_none]
  | some key =>
      simp [membersOf, get?_member, endpointOf,
        textOf_jsonText, layersOf_json, hPublic,
        wireKeyOf_json]

/- A route is read back hop by hop. -/
theorem routeOf_body (nodes : List NodeJson) :
    (ControlReply.route nodes).body.bind
        (routeOf (F := F)) =
      some (nodes.map (fun n => (n.hop, n.layers))) := by
  have hHops :
      (nodes.map NodeJson.json).mapM (hopOf (F := F)) =
        some (nodes.map (fun n => (n.hop, n.layers))) := by
    induction nodes with
    | nil => rfl
    | cons n nodes ih => simp [hopOf_json, ih]
  simpa [ControlReply.body, routeOf, membersOf, get?_member]
    using hHops

end CircuitDllm

------------------------------------------------------------
-- Who Is Asked
------------------------------------------------------------

namespace CircuitDllm

namespace ControlPlanes

variable {Sig R R' : Type} {env : ControlEnv Sig}

/- What one attempt has done, by its end. -/
structure Attempted
    (env : ControlEnv Sig)
    (handle : PlaneHandler Sig R)
    (i : Nat)
    (s : ControlPlanes)
    (result : Option R)
    (s' : ControlPlanes) :
    Prop where
  tick : s'.tick = s.tick + 1
  preferred : s'.preferred = s.preferred
  others : ∀ j, j ≠ i → s'.planes j = s.planes j
  handled :
    ∀ hIn : i < env.servers.length,
      s'.planes i =
        if (env.net s.tick).outcome = .failBefore then
          s.planes i
        else
          (handle env.servers[i] (env.net s.tick)
            (s.planes i)).2
  answered :
    ∀ (hIn : i < env.servers.length) r, result = some r →
      (env.net s.tick).outcome = .ok ∧
        (handle env.servers[i] (env.net s.tick)
          (s.planes i)).1 = some r
  refused :
    ∀ hIn : i < env.servers.length, result = none →
      (env.net s.tick).outcome ≠ .ok ∨
        (handle env.servers[i] (env.net s.tick)
          (s.planes i)).1 = none

theorem attempted
    (handle : PlaneHandler Sig R)
    {i : Nat}
    (hIn : i < env.servers.length)
    (s : ControlPlanes) :
    Attempted env handle i s (attempt env handle i s).1
      (attempt env handle i s).2 := by
  have hServer : env.servers[i]? = some env.servers[i] :=
    List.getElem?_eq_getElem hIn
  have hOther :
      ∀ plane j, j ≠ i →
        (s.setPlane i plane).planes j = s.planes j :=
    fun _ _ hNe => Function.update_of_ne hNe _ _
  have hSelf :
      ∀ plane, (s.setPlane i plane).planes i = plane :=
    fun _ => Function.update_self _ _ _
  simp only [attempt, hServer]
  cases hOutcome : (env.net s.tick).outcome with
  | ok =>
      exact
        { tick := rfl
          preferred := rfl
          others := hOther _
          handled := fun _ => by simp [hOutcome, hSelf]
          answered := fun _ _ h => ⟨hOutcome, h⟩
          refused := fun _ h => Or.inr h }
  | failBefore =>
      exact
        { tick := rfl
          preferred := rfl
          others := fun _ _ => rfl
          handled := fun _ => by simp [hOutcome]
          answered := fun _ _ h => nomatch h
          refused := fun _ _ => Or.inl (by simp [hOutcome]) }
  | failAfter =>
      exact
        { tick := rfl
          preferred := rfl
          others := hOther _
          handled := fun _ => by simp [hOutcome, hSelf]
          answered := fun _ _ h => nomatch h
          refused := fun _ _ => Or.inl (by simp [hOutcome]) }

/- The k-th attempt, to plane i, brought no answer. -/
def Refused
    (env : ControlEnv Sig)
    (handle : PlaneHandler Sig R)
    (s : ControlPlanes)
    (k i : Nat) :
    Prop :=
  ∀ hIn : i < env.servers.length,
    (env.net (s.tick + k)).outcome ≠ .ok ∨
      (handle env.servers[i] (env.net (s.tick + k))
        (s.planes i)).1 = none

/-
  What asking around has done after `asked` attempts: the
  k-th went to the k-th place, which handled it unless it
  got lost on the way; all but the last brought no answer.
-/
structure Asked
    (env : ControlEnv Sig)
    (handle : PlaneHandler Sig R)
    (places : List Nat)
    (s : ControlPlanes)
    (result : Option (Nat × R))
    (s' : ControlPlanes)
    (asked : Nat) :
    Prop where
  preferred : s'.preferred = s.preferred
  tick : s'.tick = s.tick + asked
  attempts : asked ≤ places.length
  others : ∀ j, j ∉ places → s'.planes j = s.planes j
  handled :
    ∀ (k i : Nat) (hIn : i < env.servers.length),
      places[k]? = some i →
        s'.planes i =
          if k < asked ∧
              (env.net (s.tick + k)).outcome ≠ .failBefore then
            (handle env.servers[i] (env.net (s.tick + k))
              (s.planes i)).2
          else s.planes i
  answered :
    ∀ i r, result = some (i, r) →
      ∃ (k : Nat) (hIn : i < env.servers.length),
        asked = k + 1 ∧ places[k]? = some i ∧
          (env.net (s.tick + k)).outcome = .ok ∧
          (handle env.servers[i] (env.net (s.tick + k))
            (s.planes i)).1 = some r ∧
          ∀ k' j, k' < k → places[k']? = some j →
            Refused env handle s k' j
  refused :
    result = none →
      asked = places.length ∧
        ∀ k i, places[k]? = some i → Refused env handle s k i

/- The first attempt brought an answer. -/
theorem Asked.found
    {handle : PlaneHandler Sig R}
    {i : Nat}
    {places : List Nat}
    (hNodup : (i :: places).Nodup)
    (hIn : i < env.servers.length)
    {s s' : ControlPlanes}
    {r : R}
    (hFirst : Attempted env handle i s (some r) s') :
    Asked env handle (i :: places) s (some (i, r)) s' 1 where
  preferred := hFirst.preferred
  tick := hFirst.tick
  attempts := by simp
  others := by
    intro j hJ
    exact
      hFirst.others j (fun h => hJ (h ▸ List.mem_cons_self))
  handled := by
    intro k j hJ hAt
    cases k with
    | zero =>
        cases hAt
        rw [hFirst.handled hJ]
        by_cases hLost :
            (env.net s.tick).outcome = .failBefore <;>
          simp [hLost]
    | succ k =>
        have hNe : j ≠ i := by
          rintro rfl
          exact
            (List.nodup_cons.mp hNodup).1
              (List.mem_of_getElem? hAt)
        simpa using hFirst.others j hNe
  answered := by
    intro j r' hResult
    cases hResult
    rcases hFirst.answered hIn r rfl with ⟨hOk, hHandled⟩
    exact
      ⟨0, hIn, rfl, rfl, hOk, hHandled,
        fun _ _ h => absurd h (Nat.not_lt_zero _)⟩
  refused := nofun

/- An attempt of the rest is one attempt later. -/
theorem Refused.later
    {handle : PlaneHandler Sig R}
    {i k j : Nat}
    {s s' : ControlPlanes}
    {result : Option R}
    (hFirst : Attempted env handle i s result s')
    (hNe : j ≠ i)
    (hRefused : Refused env handle s' k j) :
    Refused env handle s (k + 1) j := by
  intro hIn
  have hBefore := hRefused hIn
  have hTick : s'.tick + k = s.tick + (k + 1) := by
    rw [hFirst.tick]
    omega
  rwa [hTick, hFirst.others j hNe] at hBefore

/- The first attempt brought none, and the rest are asked. -/
theorem Asked.next
    {handle : PlaneHandler Sig R}
    {i : Nat}
    {places : List Nat}
    (hNodup : (i :: places).Nodup)
    {s s' s'' : ControlPlanes}
    {result : Option (Nat × R)}
    {asked : Nat}
    (hFirst : Attempted env handle i s none s')
    (hRest : Asked env handle places s' result s'' asked) :
    Asked env handle (i :: places) s result s''
      (asked + 1) := by
  rw [List.nodup_cons] at hNodup
  have hLater :
      ∀ (k j : Nat), places[k]? = some j → j ≠ i := by
    rintro k j hAt rfl
    exact hNodup.1 (List.mem_of_getElem? hAt)
  have hTick : ∀ k, s'.tick + k = s.tick + (k + 1) := by
    intro k
    rw [hFirst.tick]
    omega
  have hHead : Refused env handle s 0 i :=
    fun hIn => hFirst.refused hIn rfl
  refine
    { preferred := hRest.preferred.trans hFirst.preferred
      tick := by rw [hRest.tick, hTick]
      attempts := Nat.succ_le_succ hRest.attempts
      others := ?_
      handled := ?_
      answered := ?_
      refused := ?_ }
  · intro j hJ
    rw [List.mem_cons, not_or] at hJ
    rw [hRest.others j hJ.2, hFirst.others j hJ.1]
  · intro k j hJ hAt
    cases k with
    | zero =>
        cases hAt
        rw [hRest.others i hNodup.1, hFirst.handled hJ]
        by_cases hLost :
            (env.net s.tick).outcome = .failBefore <;>
          simp [hLost]
    | succ k =>
        have hHandled := hRest.handled k j hJ hAt
        rw [hTick, hFirst.others j (hLater k j hAt)]
          at hHandled
        rw [hHandled]
        simp only [Nat.add_lt_add_iff_right]
  · intro j r hResult
    rcases hRest.answered j r hResult with
      ⟨k, hJ, hAsked, hAt, hOk, hHandled, hBefore⟩
    rw [hTick] at hOk hHandled
    rw [hFirst.others j (hLater k j hAt)] at hHandled
    refine ⟨k + 1, hJ, by omega, hAt, hOk, hHandled, ?_⟩
    intro k' j' hLt hAt'
    cases k' with
    | zero =>
        cases hAt'
        exact hHead
    | succ k' =>
        exact
          (hBefore k' j' (by omega) hAt').later hFirst
            (hLater k' j' hAt')
  · intro hResult
    rcases hRest.refused hResult with ⟨hAsked, hRefused⟩
    refine ⟨by simp [hAsked], ?_⟩
    intro k j hAt
    cases k with
    | zero =>
        cases hAt
        exact hHead
    | succ k =>
        exact
          (hRefused k j hAt).later hFirst (hLater k j hAt)

theorem asked_firstOf
    (handle : PlaneHandler Sig R)
    {places : List Nat}
    (hNodup : places.Nodup)
    (hIn : ∀ i ∈ places, i < env.servers.length)
    (s : ControlPlanes) :
    ∃ asked,
      Asked env handle places s
        (firstOf (attempt env handle) places s).1
        (firstOf (attempt env handle) places s).2 asked := by
  induction places generalizing s with
  | nil =>
      exact
        ⟨0,
          { preferred := rfl
            tick := rfl
            attempts := le_rfl
            others := fun _ _ => rfl
            handled := by simp
            answered := fun _ _ h => nomatch h
            refused := fun _ => ⟨rfl, by simp⟩ }⟩
  | cons i places ih =>
      have hI : i < env.servers.length := hIn i (by simp)
      have hFirst := attempted handle hI s
      rcases hSend : attempt env handle i s with ⟨result, s'⟩
      rw [hSend] at hFirst
      rw [firstOf, hSend]
      cases result with
      | some r => exact ⟨1, .found hNodup hI hFirst⟩
      | none =>
          rcases ih hNodup.of_cons
            (fun j hJ => hIn j (List.mem_cons_of_mem _ hJ)) s'
            with ⟨asked, hRest⟩
          exact ⟨asked + 1, .next hNodup hFirst hRest⟩

/- Every control plane has its place in the order, once. -/
theorem order_perm
    {s : ControlPlanes}
    (hPreferred : s.preferred < env.servers.length) :
    (s.order env).Perm (List.range env.servers.length) := by
  have hErase :
      (List.range env.servers.length).erase s.preferred =
        (List.range env.servers.length).filter
          (· ≠ s.preferred) := by
    rw [List.nodup_range.erase_eq_filter]
    apply List.filter_congr
    intro i _
    simp [bne, beq_eq_decide]
  rw [order, ← hErase]
  exact (List.perm_cons_erase
    (List.mem_range.mpr hPreferred)).symm

/-
  The control planes are asked one after the other, each
  once, the preferred one first, and each that a request
  reached has handled it.  The first answer is returned, and
  who gave it is preferred from then on.  Without an answer
  every control plane was asked and none answered.
-/
theorem failover_spec
    (env : ControlEnv Sig)
    (handle : PlaneHandler Sig R)
    {s : ControlPlanes}
    (hPreferred : s.preferred < env.servers.length) :
    let result := (failover env handle s).1
    let s' := (failover env handle s).2
    let places := s.order env
    places.Perm (List.range env.servers.length) ∧
      places.head? = some s.preferred ∧
      ∃ asked,
        s'.tick = s.tick + asked ∧
        asked ≤ env.servers.length ∧
        (∀ (k i : Nat) (hIn : i < env.servers.length),
          places[k]? = some i →
            s'.planes i =
              if k < asked ∧
                  (env.net (s.tick + k)).outcome ≠
                    .failBefore then
                (handle env.servers[i]
                  (env.net (s.tick + k)) (s.planes i)).2
              else s.planes i) ∧
        (∀ r, result = some r →
          ∃ (k : Nat)
              (hIn : s'.preferred < env.servers.length),
            asked = k + 1 ∧
              places[k]? = some s'.preferred ∧
              (env.net (s.tick + k)).outcome = .ok ∧
              (handle env.servers[s'.preferred]
                (env.net (s.tick + k))
                (s.planes s'.preferred)).1 = some r ∧
              ∀ k' i, k' < k → places[k']? = some i →
                Refused env handle s k' i) ∧
        (result = none →
          asked = env.servers.length ∧
            s'.preferred = s.preferred ∧
              ∀ k i, places[k]? = some i →
                Refused env handle s k i) := by
  have hPerm := order_perm hPreferred
  rcases asked_firstOf handle
    (hPerm.nodup_iff.mpr List.nodup_range)
    (fun i hMem => List.mem_range.mp (hPerm.mem_iff.mp hMem)) s
    with ⟨asked, hAsked⟩
  have hLength : (s.order env).length = env.servers.length := by
    rw [hPerm.length_eq, List.length_range]
  intro result s' places
  refine ⟨hPerm, rfl, asked, ?_⟩
  unfold result s' failover
  rcases hFirst : firstOf (attempt env handle) (s.order env) s
    with ⟨_ | ⟨i, r⟩, s₁⟩
  · rw [hFirst] at hAsked
    refine ⟨hAsked.tick, hLength ▸ hAsked.attempts,
      hAsked.handled, nofun, ?_⟩
    intro _
    rcases hAsked.refused rfl with ⟨hAll, hRefused⟩
    exact ⟨hAll.trans hLength, hAsked.preferred, hRefused⟩
  · rw [hFirst] at hAsked
    refine ⟨hAsked.tick, hLength ▸ hAsked.attempts,
      hAsked.handled, ?_, nofun⟩
    intro r' hResult
    cases hResult
    exact hAsked.answered i r rfl

/- What the control planes do is all that matters. -/
theorem failover_congr
    {handle handle' : PlaneHandler Sig R}
    (hSame :
      ∀ server ∈ env.servers, ∀ n plane,
        handle server (env.net n) plane =
          handle' server (env.net n) plane)
    (s : ControlPlanes) :
    failover env handle s = failover env handle' s := by
  have hAttempt :
      ∀ i s, attempt env handle i s =
        attempt env handle' i s := by
    intro i s
    unfold attempt
    cases hServer : env.servers[i]? with
    | none => rfl
    | some server =>
        simp only [hSame server (List.mem_of_getElem? hServer)]
  have hEq : attempt env handle = attempt env handle' :=
    funext fun i => funext fun s => hAttempt i s
  simp only [failover, hEq]

/- An answer may be read on the way. -/
def PlaneHandler.map (f : R → R') (handle : PlaneHandler Sig R) :
    PlaneHandler Sig R' :=
  fun server a plane =>
    ((handle server a plane).1.map f,
      (handle server a plane).2)

theorem failover_map
    (f : R → R')
    (handle : PlaneHandler Sig R)
    (s : ControlPlanes) :
    failover env (handle.map f) s =
      ((failover env handle s).1.map f,
        (failover env handle s).2) := by
  have hAttempt :
      ∀ i s, attempt env (handle.map f) i s =
        ((attempt env handle i s).1.map f,
          (attempt env handle i s).2) := by
    intro i s
    unfold attempt PlaneHandler.map
    cases env.servers[i]? with
    | none => rfl
    | some server =>
        simp only []
        cases (env.net s.tick).outcome <;> rfl
  have hFirst :
      ∀ places s,
        firstOf (attempt env (handle.map f)) places s =
          ((firstOf (attempt env handle) places s).1.map
              (fun e => (e.1, f e.2)),
            (firstOf (attempt env handle) places s).2) := by
    intro places
    induction places with
    | nil => exact fun _ => rfl
    | cons i places ih =>
        intro s
        rw [firstOf, firstOf, hAttempt]
        rcases attempt env handle i s with ⟨_ | r, s₁⟩
        · exact ih s₁
        · rfl
  simp only [failover, hFirst]
  rcases firstOf (attempt env handle) (s.order env) s
    with ⟨_ | ⟨i, r⟩, s₁⟩ <;> rfl

end ControlPlanes

end CircuitDllm

------------------------------------------------------------
-- Routes Without The Wire
------------------------------------------------------------

namespace CircuitDllm

open ControlPlanes

variable {Sig F : Type}

/- An empty key is no key. -/
def RouteHop.keyed (hop : RouteHop) : RouteHop :=
  { hop with wireKey := hop.wireKey.filter (· ≠ []) }

/- The registry's own route. -/
def acquireAt (session : Nat) : PlaneHandler Sig (List RouteHop) :=
  fun _ _ plane =>
    let (route, r) :=
      (registryProvider true).acquire session plane.registry
    (route.toOption.map (·.map RouteHop.keyed),
      { plane with registry := r })

def releaseAt (session : Nat) : PlaneHandler Sig Unit :=
  fun _ _ plane =>
    (some (),
      { plane with
        registry :=
          (registryProvider true).release session
            plane.registry })

/- The registry's own mark. -/
def markAt (nodeId : String) : PlaneHandler Sig Unit :=
  fun _ _ plane =>
    (some (),
      { plane with
        registry :=
          (registryProvider true).markSuspect nodeId
            plane.registry })

/-
  The mark of a report: it counts against the caller's
  limit, and above it nothing is marked.
-/
def suspectAt (caller nodeId : String) : PlaneHandler Sig Unit :=
  fun server a plane =>
    match RateLimit.allow 60 server.suspectMaxPerMin a.now
        (ControlServer.logOf caller plane) with
    | none => (none, plane)
    | some log =>
      (some (),
        { registry :=
            (registryProvider true).markSuspect nodeId
              plane.registry
          suspectLog := plane.suspectLog.set caller log })

/-
  The registries of the control planes as providers of
  their own, tried one after the other.
-/
def localProviders (env : ControlEnv Sig) :
    RouteProvider ControlPlanes where
  acquire session s :=
    match failover env (acquireAt session) s with
    | (none, s) => (.error .wire, s)
    | (some hops, s) => (.ok hops, s)
  release session s :=
    (failover env (releaseAt session) s).2
  markSuspect nodeId s :=
    (failover env (markAt nodeId) s).2

/- The same with the control planes' limit on reports. -/
def failoverProvider
    (caller : String)
    (env : ControlEnv Sig) :
    RouteProvider ControlPlanes :=
  { localProviders env with
    markSuspect := fun nodeId s =>
      (failover env (suspectAt caller nodeId) s).2 }

/- The limit leaves room for a report of the caller. -/
def ControlEnv.WithinLimit
    (env : ControlEnv Sig)
    (caller : String)
    (s : ControlPlanes) :
    Prop :=
  ∀ (i : Nat) (hIn : i < env.servers.length) (n : Nat),
    RateLimit.allow 60 env.servers[i].suspectMaxPerMin
      (env.net n).now
      (ControlServer.logOf caller (s.planes i)) ≠ none

/- The same control planes, but for their logs of reports. -/
structure ControlPlanes.SameRegistries
    (s s' : ControlPlanes) :
    Prop where
  registry :
    ∀ i, (s.planes i).registry = (s'.planes i).registry
  preferred : s.preferred = s'.preferred
  tick : s.tick = s'.tick

/-
  The orchestrator signs, its signatures are valid, and
  every control plane checks them and finds them fresh.
-/
structure ControlEnv.Honest
    (env : ControlEnv Sig)
    (signer : Signer Sig) :
    Prop where
  signs : env.signer = some signer
  checks :
    ∀ server ∈ env.servers, ∃ window,
      server.verifySig = some window ∧
        ∀ n, window = 0 ∨
          |(env.net n).now - (env.net n).ts| ≤ window
  valid :
    ∀ server ∈ env.servers, ∀ message : ControlBody Sig,
      message.nodeId = some signer.nodeId →
        message.sig = none →
          server.valid signer.nodeId message
            (signer.sign message) = true

variable {env : ControlEnv Sig} {signer : Signer Sig}
variable {server : ControlServer Sig}

/- A stamped request passes the check of the route RPCs. -/
theorem ControlEnv.Honest.routeError
    (hHonest : env.Honest signer)
    (hServer : server ∈ env.servers)
    (n : Nat)
    (body : ControlBody Sig) :
    server.routeError (env.net n).now
      (env.stamped (env.net n).ts body) = none := by
  rcases hHonest.checks server hServer with
    ⟨window, hWindow, hTimes⟩
  rw [ControlServer.routeError_eq_none_iff hWindow,
    ControlEnv.stamped, hHonest.signs]
  have hFresh :
      ControlServer.fresh window (env.net n).now
        (signer.stamp (env.net n).ts body) = true := by
    unfold ControlServer.fresh
    rcases hTimes n with hZero | hNear
    · rw [if_pos hZero]
    · split
      · rfl
      · exact decide_eq_true hNear
  have hValid := hHonest.valid server hServer
    { body with
      nodeId := some signer.nodeId
      ts := some (env.net n).ts
      sig := none } rfl rfl
  exact Bool.and_eq_true_iff.mpr ⟨hFresh, hValid⟩

/- A control plane answers its registry's route. -/
theorem request_acquire
    (hHonest : env.Honest signer)
    (session : Nat)
    (hServer : server ∈ env.servers)
    (n : Nat)
    (plane : ControlState) :
    ((env.request (F := F) .routeAcquire
        { session := some session }).map (fun resp =>
          (routeOf resp).map (·.map (·.1))))
        server (env.net n) plane =
      (acquireAt session).map some server (env.net n) plane := by
  have hError := hHonest.routeError hServer n
    { session := some session }
  have hSession :
      (env.stamped (env.net n).ts
        { session := some session }).session =
          some session := by
    rw [ControlEnv.stamped, hHonest.signs]
    rfl
  simp only [PlaneHandler.map, ControlEnv.request,
    ControlServer.doPost, ControlServer.postRoute, hError,
    hSession, acquireAt, registryProvider]
  rcases plane.registry.acquireRoute session with
    ⟨e | route, r⟩
  · rfl
  · have hRead := routeOf_body (F := F)
      (route.map (ControlServer.nodeJson r true))
    rw [ControlReply.body, Option.bind_some] at hRead
    have hHops :
        ((route.map (ControlServer.nodeJson r true)).map
          (fun n => (n.hop, n.layers))).map (·.1) =
          (route.map Node.toHop).map RouteHop.keyed := by
      simp [Function.comp_def, RouteHop.keyed, Node.toHop,
        NodeJson.hop, ControlServer.nodeJson]
    simp only [ControlReply.body, Option.map_some, hRead]
    rw [hHops]
    rfl

theorem request_release
    (hHonest : env.Honest signer)
    (session : Nat)
    (hServer : server ∈ env.servers)
    (n : Nat)
    (plane : ControlState) :
    ((env.request (F := F) .routeRelease
        { session := some session }).map (fun _ => ()))
        server (env.net n) plane =
      releaseAt session server (env.net n) plane := by
  have hError := hHonest.routeError hServer n
    { session := some session }
  have hSession :
      (env.stamped (env.net n).ts
        { session := some session }).session =
          some session := by
    rw [ControlEnv.stamped, hHonest.signs]
    rfl
  simp only [PlaneHandler.map, ControlEnv.request,
    ControlServer.doPost, ControlServer.postRoute, hError,
    hSession, releaseAt, registryProvider]
  rfl

theorem request_suspect
    (hHonest : env.Honest signer)
    (nodeId : String)
    (hServer : server ∈ env.servers)
    (n : Nat)
    (plane : ControlState) :
    ((env.request (F := F) .routeSuspect
        { suspect := some nodeId }).map (fun _ => ()))
        server (env.net n) plane =
      suspectAt signer.nodeId nodeId server (env.net n)
        plane := by
  have hError := hHonest.routeError hServer n
    { suspect := some nodeId }
  have hBody :
      (env.stamped (env.net n).ts
          { suspect := some nodeId }).nodeId =
          some signer.nodeId ∧
        (env.stamped (env.net n).ts
          { suspect := some nodeId }).suspect =
            some nodeId := by
    rw [ControlEnv.stamped, hHonest.signs]
    exact ⟨rfl, rfl⟩
  simp only [PlaneHandler.map, ControlEnv.request,
    ControlServer.doPost, ControlServer.postSuspect, hError,
    hBody, suspectAt, registryProvider, Option.getD_some]
  split
  next hFull =>
      have hAllow :
          RateLimit.allow 60 server.suspectMaxPerMin
            (env.net n).now
            (ControlServer.logOf signer.nodeId plane) = none :=
        if_pos hFull
      rw [hAllow]
      rfl
  next hRoom =>
      have hAllow :
          RateLimit.allow 60 server.suspectMaxPerMin
            (env.net n).now
            (ControlServer.logOf signer.nodeId plane) =
              some _ :=
        if_neg hRoom
      rw [hAllow]
      rfl

/- A route comes back as the registry gave it. -/
theorem remote_acquire
    (F : Type)
    (hHonest : env.Honest signer)
    (session : Nat)
    (s : ControlPlanes) :
    (remoteProvider F env).acquire session s =
      (failoverProvider signer.nodeId env).acquire session
        s := by
  have hRead := failover_congr
    (fun server hServer n plane =>
      request_acquire (F := F) hHonest session hServer n
        plane) s
  rw [failover_map, failover_map] at hRead
  have hAnswer := congrArg Prod.fst hRead
  have hAfter := congrArg Prod.snd hRead
  simp only at hAnswer hAfter
  simp only [remoteProvider, failoverProvider,
    localProviders, ControlEnv.post]
  rcases hPost : failover env
    (env.request (F := F) .routeAcquire
      { session := some session }) s with ⟨resp, s₁⟩
  rcases hLocal : failover env (acquireAt session) s with
    ⟨hops, s₂⟩
  rw [hPost, hLocal] at hAnswer hAfter
  cases hAfter
  rcases resp with _ | resp <;> rcases hops with _ | hops
  · rfl
  · cases hAnswer
  · cases hAnswer
  · simp only [Option.map_some, Option.some.injEq] at hAnswer
    rcases hRoute : routeOf resp with _ | route
    · rw [hRoute] at hAnswer
      cases hAnswer
    · rw [hRoute] at hAnswer
      cases hAnswer
      simp only [hRoute]

/- The other answers are not read. -/
theorem failover_unread
    {handle : PlaneHandler Sig (PyJson F)}
    {handle' : PlaneHandler Sig Unit}
    (hSame :
      ∀ server ∈ env.servers, ∀ n plane,
        handle.map (fun _ => ()) server (env.net n) plane =
          handle' server (env.net n) plane)
    (s : ControlPlanes) :
    (failover env handle s).2 = (failover env handle' s).2 := by
  rw [← failover_congr hSame, failover_map]

theorem remote_release
    (F : Type)
    (hHonest : env.Honest signer)
    (session : Nat)
    (s : ControlPlanes) :
    (remoteProvider F env).release session s =
      (failoverProvider signer.nodeId env).release session
        s :=
  failover_unread
    (fun _ hServer n plane =>
      request_release hHonest session hServer n plane) s

theorem remote_suspect
    (F : Type)
    (hHonest : env.Honest signer)
    (nodeId : String)
    (s : ControlPlanes) :
    (remoteProvider F env).markSuspect nodeId s =
      (failoverProvider signer.nodeId env).markSuspect nodeId
        s :=
  failover_unread
    (fun _ hServer n plane =>
      request_suspect hHonest nodeId hServer n plane) s

/- One report within the limit marks as the registry does. -/
theorem attempt_suspect
    {caller : String}
    (nodeId : String)
    {i : Nat}
    (hIn : i < env.servers.length)
    {s s' : ControlPlanes}
    (hSame : s.SameRegistries s')
    (hRoom :
      ∀ n,
        RateLimit.allow 60 env.servers[i].suspectMaxPerMin
          (env.net n).now
          (ControlServer.logOf caller (s.planes i)) ≠ none) :
    (attempt env (suspectAt caller nodeId) i s).1 =
        (attempt env (markAt nodeId) i s').1 ∧
      (attempt env (suspectAt caller nodeId) i
          s).2.SameRegistries
        (attempt env (markAt nodeId) i s').2 := by
  rcases hSame with ⟨hRegistry, hPreferred, hTick⟩
  have hServer : env.servers[i]? = some env.servers[i] :=
    List.getElem?_eq_getElem hIn
  rcases Option.ne_none_iff_exists'.mp (hRoom s.tick) with
    ⟨log, hLog⟩
  -- what the control plane has marked on both sides
  have hMarked :
      ∀ plane plane' : ControlState,
        plane.registry = plane'.registry →
          (s.setPlane i plane).SameRegistries
            (s'.setPlane i plane') := by
    intro plane plane' hPlane
    refine ⟨?_, hPreferred, congrArg (· + 1) hTick⟩
    intro j
    by_cases hEq : j = i
    · subst hEq
      simpa [setPlane] using hPlane
    · simpa [setPlane, hEq] using hRegistry j
  simp only [attempt, hServer, suspectAt, hLog, markAt,
    ← hTick]
  cases (env.net s.tick).outcome with
  | ok => exact ⟨rfl, hMarked _ _ (by rw [hRegistry])⟩
  | failBefore =>
      exact ⟨rfl, hRegistry, hPreferred, rfl⟩
  | failAfter =>
      exact ⟨rfl, hMarked _ _ (by rw [hRegistry])⟩

theorem firstOf_suspect
    (caller nodeId : String)
    {places : List Nat}
    (hNodup : places.Nodup)
    (hIn : ∀ i ∈ places, i < env.servers.length)
    {s s' : ControlPlanes}
    (hSame : s.SameRegistries s')
    (hRoom :
      ∀ i ∈ places, ∀ (hI : i < env.servers.length) (n : Nat),
        RateLimit.allow 60 env.servers[i].suspectMaxPerMin
          (env.net n).now
          (ControlServer.logOf caller (s.planes i)) ≠ none) :
    (firstOf (attempt env (suspectAt caller nodeId)) places
        s).1 =
        (firstOf (attempt env (markAt nodeId)) places s').1 ∧
      (firstOf (attempt env (suspectAt caller nodeId)) places
          s).2.SameRegistries
        (firstOf (attempt env (markAt nodeId)) places
          s').2 := by
  induction places generalizing s s' with
  | nil => exact ⟨rfl, hSame⟩
  | cons i places ih =>
      rw [List.nodup_cons] at hNodup
      have hI : i < env.servers.length := hIn i (by simp)
      rcases attempt_suspect nodeId hI hSame
        (hRoom i (by simp) hI) with ⟨hFirst, hAfter⟩
      have hOther :=
        (attempted (suspectAt caller nodeId) hI s).others
      rw [firstOf, firstOf]
      rcases hLeft : attempt env (suspectAt caller nodeId) i s
        with ⟨result, s₁⟩
      rcases hRight : attempt env (markAt nodeId) i s' with
        ⟨result', s₁'⟩
      simp only [hLeft, hRight] at hFirst hAfter hOther
      subst hFirst
      cases result with
      | some r => exact ⟨rfl, hAfter⟩
      | none =>
          refine ih hNodup.2
            (fun j hJ => hIn j (List.mem_cons_of_mem _ hJ))
            hAfter ?_
          intro j hMem hJ n
          have hNe : j ≠ i := by
            rintro rfl
            exact hNodup.1 hMem
          rw [hOther j hNe]
          exact hRoom j (List.mem_cons_of_mem _ hMem) hJ n

theorem failover_suspect
    {caller : String}
    (nodeId : String)
    {s : ControlPlanes}
    (hPreferred : s.preferred < env.servers.length)
    (hRoom : env.WithinLimit caller s) :
    (failover env (suspectAt caller nodeId)
        s).2.SameRegistries
      (failover env (markAt nodeId) s).2 := by
  have hPerm := order_perm hPreferred
  have hFirst := firstOf_suspect caller nodeId
    (hPerm.nodup_iff.mpr List.nodup_range)
    (fun i hMem => List.mem_range.mp (hPerm.mem_iff.mp hMem))
    (⟨fun _ => rfl, rfl, rfl⟩ : s.SameRegistries s)
    (fun i _ hI n => hRoom i hI n)
  unfold failover
  rcases hLeft : firstOf
    (attempt env (suspectAt caller nodeId)) (s.order env) s
    with ⟨answer, s₁⟩
  rcases hRight : firstOf (attempt env (markAt nodeId))
    (s.order env) s with ⟨answer', s₁'⟩
  rw [hLeft, hRight] at hFirst
  rcases hFirst with ⟨hAnswer, hAfter⟩
  cases hAnswer
  rcases answer with _ | ⟨i, r⟩
  · exact hAfter
  · exact ⟨hAfter.registry, rfl, hAfter.tick⟩

/-
  Over signed requests and JSON a route provider gives and
  releases the routes of the registries' own providers,
  tried one after the other.  A report marks what theirs
  marks while the caller is within the limit; always it is
  their mark behind the limit.
-/
theorem remoteProvider_eq
    (F : Type)
    (hHonest : env.Honest signer) :
    (remoteProvider F env).acquire =
        (localProviders env).acquire ∧
      (remoteProvider F env).release =
        (localProviders env).release ∧
      (∀ nodeId s,
        (remoteProvider F env).markSuspect nodeId s =
          (failover env
            (suspectAt signer.nodeId nodeId) s).2) ∧
      ∀ nodeId s,
        s.preferred < env.servers.length →
          env.WithinLimit signer.nodeId s →
            ((remoteProvider F env).markSuspect nodeId
                s).SameRegistries
              ((localProviders env).markSuspect nodeId s) := by
  refine ⟨?_, ?_, ?_, ?_⟩
  · funext session s
    exact remote_acquire F hHonest session s
  · funext session s
    exact remote_release F hHonest session s
  · intro nodeId s
    exact remote_suspect F hHonest nodeId s
  · intro nodeId s hPreferred hRoom
    rw [remote_suspect F hHonest nodeId s]
    exact failover_suspect nodeId hPreferred hRoom

end CircuitDllm

------------------------------------------------------------
-- One Control Plane That Answers
------------------------------------------------------------

namespace CircuitDllm

open ControlPlanes

variable {Sig P : Type}

/- What a coordinator asks its route provider for. -/
inductive RouteCall where
  | acquire (session : Nat)
  | release (session : Nat)
  | markSuspect (nodeId : String)
deriving DecidableEq, Repr

abbrev RouteAnswer := Except CoordError (List RouteHop)

def RouteProvider.call
    (provider : RouteProvider P)
    (s : P) :
    RouteCall → List RouteAnswer × P
| .acquire session =>
    let (answer, s) := provider.acquire session s
    ([answer], s)
| .release session => ([], provider.release session s)
| .markSuspect nodeId => ([], provider.markSuspect nodeId s)

/- A call, or an operation on one control plane's registry. -/
inductive RouteEvent where
  | call (c : RouteCall)
  | registry (i : Nat) (op : RegistryOp)

/- The control planes and the answers so far. -/
def ControlEnv.step
    (env : ControlEnv Sig)
    (provider : RouteProvider ControlPlanes)
    (s : ControlPlanes × List RouteAnswer) :
    RouteEvent → ControlPlanes × List RouteAnswer
| .call c =>
    let (answers, planes) := provider.call s.1 c
    (planes, s.2 ++ answers)
| .registry i op =>
    match env.servers[i]? with
    | none => s
    | some server =>
      let plane := s.1.planes i
      ({ s.1 with
          planes :=
            Function.update s.1.planes i
              { plane with
                registry :=
                  plane.registry.step server.cfg op } },
        s.2)

/- The registry of the p-th control plane and the answers. -/
def localStep
    (cfg : RegistryConfig)
    (p : Nat)
    (s : Registry × List RouteAnswer) :
    RouteEvent → Registry × List RouteAnswer
| .call c =>
    let (answers, r) := (registryProvider true).call s.1 c
    (r, s.2 ++ answers)
| .registry i op =>
    if i = p then (s.1.step cfg op, s.2) else s

/-
  The control plane answers a call: the network delivers it,
  the mesh is covered by nodes with keys, and a report is
  within the limit.
-/
def ControlEnv.Answers
    (env : ControlEnv Sig)
    (caller : String)
    (p : Nat)
    (e : (ControlPlanes × List RouteAnswer) × RouteEvent) :
    Prop :=
  match e.2 with
  | .registry _ _ => True
  | .call c =>
    let a := env.net e.1.1.tick
    let plane := e.1.1.planes p
    a.outcome = .ok ∧
      match c with
      | .acquire session =>
        ∃ hops,
          ((registryProvider true).acquire session
            plane.registry).1 = .ok hops ∧
            ∀ hop ∈ hops, hop.wireKey ≠ some []
      | .release _ => True
      | .markSuspect _ =>
        ∀ server, env.servers[p]? = some server →
          ∃ log,
            RateLimit.allow 60 server.suspectMaxPerMin a.now
              (ControlServer.logOf caller plane) = some log

variable {env : ControlEnv Sig} {signer : Signer Sig}
variable {server : ControlServer Sig} {p : Nat}

/- The sticky control plane is asked first. -/
theorem failover_preferred
    {R : Type}
    {handle : PlaneHandler Sig R}
    {s : ControlPlanes}
    {r : R}
    {plane : ControlState}
    (hServer : env.servers[s.preferred]? = some server)
    (hOk : (env.net s.tick).outcome = .ok)
    (hHandle :
      handle server (env.net s.tick) (s.planes s.preferred) =
        (some r, plane)) :
    failover env handle s =
      (some r, s.setPlane s.preferred plane) := by
  have hAttempt :
      attempt env handle s.preferred s =
        (some r, s.setPlane s.preferred plane) := by
    simp only [attempt, hServer, hOk, hHandle]
  simp only [failover, order, firstOf, hAttempt]
  rfl

theorem keyed_of_ne
    {hop : RouteHop}
    (hKey : hop.wireKey ≠ some []) :
    hop.keyed = hop := by
  rcases hop with ⟨_, _, _, _ | key⟩
  · rfl
  · have hSome : key ≠ [] := fun h => hKey (by rw [h])
    simp [RouteHop.keyed, Option.filter, hSome]

/- The sticky control plane's registry stands for all. -/
structure Stuck
    (p : Nat)
    (s : ControlPlanes × List RouteAnswer)
    (l : Registry × List RouteAnswer) :
    Prop where
  answers : s.2 = l.2
  registry : (s.1.planes p).registry = l.1
  preferred : s.1.preferred = p

theorem Stuck.call
    {s : ControlPlanes × List RouteAnswer}
    {l : Registry × List RouteAnswer}
    (hStuck : Stuck p s l)
    (hServer : env.servers[p]? = some server)
    {c : RouteCall}
    (hAnswers :
      env.Answers signer.nodeId p (s, .call c)) :
    Stuck p
      (env.step (failoverProvider signer.nodeId env) s
        (.call c))
      (localStep server.cfg p l (.call c)) := by
  rcases s with ⟨s, answers⟩
  rcases l with ⟨r, answers'⟩
  rcases hStuck with ⟨rfl, rfl, rfl⟩
  rcases hAnswers with ⟨hOk, hCall⟩
  have hSelf :
      ∀ plane, (s.setPlane s.preferred plane).planes
        s.preferred = plane :=
    fun _ => Function.update_self _ _ _
  cases c with
  | acquire session =>
      rcases hCall with ⟨hops, hRoute, hKeys⟩
      rcases hAcquire : (registryProvider true).acquire session
        (s.planes s.preferred).registry with ⟨route, r'⟩
      rw [hAcquire] at hRoute
      cases hRoute
      have hKeyed : hops.map RouteHop.keyed = hops := by
        rw [List.map_congr_left
          (fun hop hMem => keyed_of_ne (hKeys hop hMem))]
        exact List.map_id _
      have hHandle :
          acquireAt session server (env.net s.tick)
              (s.planes s.preferred) =
            (some hops,
              { s.planes s.preferred with registry := r' }) := by
        simp only [acquireAt, hAcquire, Except.toOption,
          Option.map_some, hKeyed]
      have hFailover := failover_preferred hServer hOk hHandle
      simp only [ControlEnv.step, localStep,
        RouteProvider.call, failoverProvider, localProviders,
        hFailover, hAcquire]
      exact ⟨rfl, by rw [hSelf], rfl⟩
  | release session =>
      have hHandle :
          releaseAt session server (env.net s.tick)
              (s.planes s.preferred) =
            (some (), _) := rfl
      have hFailover := failover_preferred hServer hOk hHandle
      simp only [ControlEnv.step, localStep,
        RouteProvider.call, failoverProvider, localProviders,
        hFailover]
      exact ⟨rfl, by rw [hSelf], rfl⟩
  | markSuspect nodeId =>
      rcases hCall server hServer with ⟨log, hLog⟩
      have hHandle :
          suspectAt signer.nodeId nodeId server
              (env.net s.tick) (s.planes s.preferred) =
            (some (),
              { registry :=
                  (registryProvider true).markSuspect nodeId
                    (s.planes s.preferred).registry
                suspectLog :=
                  (s.planes s.preferred).suspectLog.set
                    signer.nodeId log }) := by
        simp only [suspectAt, hLog]
      have hFailover := failover_preferred hServer hOk hHandle
      simp only [ControlEnv.step, localStep,
        RouteProvider.call, failoverProvider, localProviders,
        hFailover]
      exact ⟨rfl, by rw [hSelf], rfl⟩

theorem Stuck.other
    {s : ControlPlanes × List RouteAnswer}
    {l : Registry × List RouteAnswer}
    (hStuck : Stuck p s l)
    (hServer : env.servers[p]? = some server)
    (provider : RouteProvider ControlPlanes)
    (i : Nat)
    (op : RegistryOp) :
    Stuck p (env.step provider s (.registry i op))
      (localStep server.cfg p l (.registry i op)) := by
  simp only [ControlEnv.step, localStep]
  by_cases hEq : i = p
  · subst hEq
    rw [hServer, if_pos rfl]
    refine ⟨hStuck.answers, ?_, hStuck.preferred⟩
    simp only [Function.update_self, hStuck.registry]
  · rw [if_neg hEq]
    cases env.servers[i]? with
    | none => exact hStuck
    | some server' =>
        refine ⟨hStuck.answers, ?_, hStuck.preferred⟩
        simp only [Function.update_of_ne (Ne.symm hEq),
          hStuck.registry]

/- Every event of a remote run is one of the failover run. -/
theorem remote_step
    (F : Type)
    (hHonest : env.Honest signer) :
    env.step (remoteProvider F env) =
      env.step (failoverProvider signer.nodeId env) := by
  funext s e
  cases e with
  | registry i op => rfl
  | call c =>
      cases c with
      | acquire session =>
          simp only [ControlEnv.step, RouteProvider.call,
            remote_acquire F hHonest]
      | release session =>
          simp only [ControlEnv.step, RouteProvider.call,
            remote_release F hHonest]
      | markSuspect nodeId =>
          simp only [ControlEnv.step, RouteProvider.call,
            remote_suspect F hHonest]

/-
  While one control plane answers, a remote coordinator is
  given what its registry gives a coordinator in its own
  process, whatever happens to that registry in between.
-/
theorem remote_run
    (F : Type)
    (hHonest : env.Honest signer)
    (hServer : env.servers[p]? = some server)
    (planes : Nat → ControlState)
    {events : List RouteEvent}
    (hAnswers :
      ∀ e ∈ History.trail (env.step (remoteProvider F env))
          ({ planes := planes, preferred := p }, []) events,
        env.Answers signer.nodeId p e) :
    let s :=
      events.foldl (env.step (remoteProvider F env))
        ({ planes := planes, preferred := p }, [])
    let l :=
      events.foldl (localStep server.cfg p)
        ((planes p).registry, [])
    s.2 = l.2 ∧ (s.1.planes p).registry = l.1 ∧
      s.1.preferred = p := by
  rw [remote_step F hHonest] at hAnswers ⊢
  have hRun :
      ∀ (events : List RouteEvent)
        (s : ControlPlanes × List RouteAnswer)
        (l : Registry × List RouteAnswer),
        Stuck p s l →
        (∀ e ∈ History.trail
            (env.step (failoverProvider signer.nodeId env)) s
            events,
          env.Answers signer.nodeId p e) →
        Stuck p
          (events.foldl
            (env.step (failoverProvider signer.nodeId env)) s)
          (events.foldl (localStep server.cfg p) l) := by
    intro events
    induction events with
    | nil => exact fun _ _ hStuck _ => hStuck
    | cons e events ih =>
        intro s l hStuck hAnswers
        refine ih _ _ ?_ (fun e' hMem =>
          hAnswers e' (List.mem_cons_of_mem _ hMem))
        cases e with
        | call c =>
            exact hStuck.call hServer
              (hAnswers (s, .call c) List.mem_cons_self)
        | registry i op =>
            exact hStuck.other hServer _ i op
  have hStuck := hRun events
    ({ planes := planes, preferred := p }, [])
    ((planes p).registry, []) ⟨rfl, rfl, rfl⟩ hAnswers
  exact ⟨hStuck.answers, hStuck.registry, hStuck.preferred⟩

end CircuitDllm

------------------------------------------------------------
-- Two Control Planes
------------------------------------------------------------

namespace CircuitDllm

open ControlPlanes

/- It takes any signature of the orchestrator "o". -/
def keyedServer : ControlServer Nat where
  cfg :=
    { Registry.oneSlot with
      deriveNodeKey := fun _ => some [7] }
  valid nodeId _ sig := nodeId == "o" && sig == 7
  verifySig := some 300
  strictLiveness := true
  suspectMaxPerMin := 1
  entryRequireSig := false

def orchestratorO : Signer Nat := ⟨"o", fun _ => 7⟩

/- The tenth attempt does not get through. -/
def twoPlanes : ControlEnv Nat where
  servers := [keyedServer, keyedServer]
  signer := some orchestratorO
  net n := if n = 9 then { outcome := .failBefore } else {}

theorem honest_twoPlanes : twoPlanes.Honest orchestratorO where
  signs := rfl
  checks := by
    intro server hServer
    have hEq : server = keyedServer := by
      simpa [twoPlanes] using hServer
    subst hEq
    refine ⟨300, rfl, fun n => Or.inr ?_⟩
    have hTimes :
        (twoPlanes.net n).now = 0 ∧
          (twoPlanes.net n).ts = 0 := by
      simp only [twoPlanes]
      split <;> exact ⟨rfl, rfl⟩
    simp [hTimes.1, hTimes.2]
  valid := by
    intro server hServer _ _ _
    have hEq : server = keyedServer := by
      simpa [twoPlanes] using hServer
    subst hEq
    rfl

/- The second control plane answers, and stays preferred. -/
theorem failover_spec_twoPlanes :
    let s : ControlPlanes :=
      { planes := fun _ => emptyMesh, tick := 9 }
    (failover twoPlanes (releaseAt 1) s).2.preferred = 1 ∧
      ∃ asked ≤ 2,
        (failover twoPlanes (releaseAt 1) s).2.tick =
          9 + asked := by
  intro s
  refine ⟨rfl, ?_⟩
  rcases failover_spec twoPlanes (releaseAt 1)
    (by decide : s.preferred < twoPlanes.servers.length) with
    ⟨-, -, asked, hTick, hAsked, -⟩
  exact ⟨asked, hAsked, hTick⟩

/- The limit is one report a minute, and none was made. -/
theorem remoteProvider_eq_twoPlanes :
    let s : ControlPlanes :=
      { planes := fun _ => emptyMesh, tick := 9 }
    (remoteProvider Nat twoPlanes).acquire 5 s =
        (localProviders twoPlanes).acquire 5 s ∧
      ((remoteProvider Nat twoPlanes).markSuspect "a"
          s).SameRegistries
        ((localProviders twoPlanes).markSuspect "a" s) := by
  intro s
  rcases remoteProvider_eq Nat honest_twoPlanes with
    ⟨hAcquire, -, -, hMark⟩
  refine ⟨by rw [hAcquire], hMark "a" s (by decide) ?_⟩
  intro i hIn n
  have hServer : twoPlanes.servers[i] = keyedServer := by
    rcases i with _ | _ | i
    · rfl
    · rfl
    · exact absurd hIn (by simp [twoPlanes])
  rw [hServer]
  exact Option.some_ne_none _

/- A node joins and is reported; a session comes and goes. -/
def oneSession : List RouteEvent :=
  [.registry 1
      (.register
        { nodeId := "a"
          endpoint := ⟨"h", 7000⟩
          capacityLayers := 1
          modelFp := "m" } 0 none),
    .registry 1 (.markReady "a"),
    .call (.acquire 5),
    .call (.release 5),
    .call (.markSuspect "a")]

theorem remote_run_oneSession :
    (oneSession.foldl
      (twoPlanes.step (remoteProvider Nat twoPlanes))
      ({ planes := fun _ => emptyMesh, preferred := 1 },
        [])).2 =
      [.ok [⟨"a", ⟨"h", 7000⟩, true, some [7]⟩]] := by
  have hServer : twoPlanes.servers[1]? = some keyedServer := rfl
  refine (remote_run Nat honest_twoPlanes hServer
    (fun _ => emptyMesh) ?_).1.trans rfl
  · rw [remote_step Nat honest_twoPlanes]
    intro e hMem
    simp only [oneSession, History.trail, List.mem_cons,
      List.not_mem_nil, or_false] at hMem
    rcases hMem with rfl | rfl | rfl | rfl | rfl
    · trivial
    · trivial
    · refine ⟨rfl, _, rfl, ?_⟩
      intro hop hHop
      rw [List.mem_singleton.mp hHop]
      intro hEmpty
      cases hEmpty
    · exact ⟨rfl, trivial⟩
    · refine ⟨rfl, ?_⟩
      intro server hEq
      cases hServer.symm.trans hEq
      exact ⟨_, rfl⟩

end CircuitDllm
