import CircuitDllm.Coord.Relay
import CircuitDllm.Wire.Tensor

/-
  The route a chain activation carries (engine/chain.py) and
  the frames it travels in (engine/stage_worker.py,
  engine/coordinator.py).

  Every frame is the downstream route and the packed
  activation; a worker takes its own next hop off the route
  and sends the rest on, sealed with that hop's key.

  Main declarations:
    * `encodeRoute`, `decodeRoute`
    * `reads_decodeRoute`, `exact_decodeRoute`
    * `ChainFrame`, `handleChain`, `follow`
    * `chain_route_delivery`
-/

------------------------------------------------------------
-- The Route Header
------------------------------------------------------------

namespace CircuitDllm

open Wire

/- What the route header raises. -/
inductive RouteError where
  | tooLong
  | hostTooLong
  | portOutOfRange (port : Int)
  | wireKeyLength
  | emptyPayload
  | truncatedHeader
  | truncatedKey
  /- UnicodeDecodeError -/
  | unicode
  /- struct.error -/
  | struct
deriving DecidableEq, Repr

/- host.encode("utf-8") -/
def utf8 (host : String) : Bytes :=
  host.toUTF8.data.toList

/- bytes.decode("utf-8") -/
def decodeUtf8 (bs : Bytes) : Option String :=
  String.fromUTF8? ⟨bs.toArray⟩

def encodeHop (hop : ChainHop) : Except RouteError Bytes :=
  let hb := utf8 hop.endpoint.host
  if 255 < hb.length then .error .hostTooLong
  else if ¬ (0 ≤ hop.endpoint.port ∧
      hop.endpoint.port ≤ 65535) then
    .error (.portOutOfRange hop.endpoint.port)
  else if hop.key.length ≠ 32 then .error .wireKeyLength
  else
    .ok
      (.ofNat hb.length :: hb ++
        pack16 hop.endpoint.port.toNat ++ hop.key)

def encodeHops : List ChainHop → Except RouteError Bytes
| [] => .ok []
| hop :: hops =>
    match encodeHop hop with
    | .error e => .error e
    | .ok head =>
      match encodeHops hops with
      | .error e => .error e
      | .ok rest => .ok (head ++ rest)

/- Serialize a downstream route. -/
def encodeRoute (hops : List ChainHop) :
    Except RouteError Bytes :=
  if 255 < hops.length then .error .tooLong
  else (encodeHops hops).map (.ofNat hops.length :: ·)

/-
  One hop of the header.  The host is a slice, so it may
  come out short; the port after it then raises.
-/
def decodeHop : Parser RouteError UInt8 ChainHop
| [] => .error .truncatedHeader
| hl :: buf =>
    match decodeUtf8 (buf.take hl.toNat) with
    | none => .error .unicode
    | some host =>
      match u16 .struct (buf.drop hl.toNat) with
      | .error e => .error e
      | .ok (port, buf) =>
        match Parser.exactly .truncatedKey 32 buf with
        | .error e => .error e
        | .ok (key, buf) => .ok (⟨⟨host, port⟩, key⟩, buf)

/- Inverse of encode_route, and what follows the route. -/
def decodeRoute : Parser RouteError UInt8 (List ChainHop)
| [] => .error .emptyPayload
| n :: buf => decodeHop.times n.toNat buf

/- The next hop, none at the tail, and the route after it. -/
def popNext :
    List ChainHop → Option ChainHop × List ChainHop
| [] => (none, [])
| hop :: hops => (some hop, hops)

end CircuitDllm

------------------------------------------------------------
-- The Header Is Read Back
------------------------------------------------------------

namespace CircuitDllm

open Wire

theorem length_utf8 (host : String) :
    (utf8 host).length = host.utf8ByteSize := rfl

theorem decodeUtf8_utf8 (host : String) :
    decodeUtf8 (utf8 host) = some host := by
  have hBytes : (⟨(utf8 host).toArray⟩ : ByteArray) =
      host.toUTF8 := by
    rw [utf8, Array.toArray_toList]
  have hValid : host.toUTF8.IsValidUTF8 := host.isValidUTF8
  rw [decodeUtf8, hBytes, String.fromUTF8?, dif_pos hValid]
  rfl

theorem utf8_of_decodeUtf8
    {bs : Bytes}
    {host : String}
    (hDecode : decodeUtf8 bs = some host) :
    utf8 host = bs := by
  rw [decodeUtf8, String.fromUTF8?] at hDecode
  split at hDecode
  · cases hDecode
    rfl
  · cases hDecode

/- The bytes of an encodable hop. -/
def hopBytes (hop : ChainHop) : Bytes :=
  .ofNat (utf8 hop.endpoint.host).length ::
    (utf8 hop.endpoint.host ++
      (pack16 hop.endpoint.port.toNat ++ hop.key))

theorem encodeHop_ok
    {hop : ChainHop}
    (hHop : hop.Encodable) :
    encodeHop hop = .ok (hopBytes hop) := by
  rcases hHop with ⟨hHost, hLow, hHigh, hKey⟩
  rw [← length_utf8] at hHost
  simp only [encodeHop, Nat.not_lt.mpr hHost, hLow, hHigh,
    hKey, and_self, not_true_eq_false, if_false, ne_eq,
    hopBytes]
  simp

theorem reads_decodeHop :
    Parser.Reads decodeHop hopBytes ChainHop.Encodable := by
  rintro ⟨⟨host, port⟩, key⟩ ⟨hHost, hLow, hHigh, hKey⟩ rest
  simp only at hHost hLow hHigh hKey
  rw [← length_utf8] at hHost
  have hLength :
      (UInt8.ofNat (utf8 host).length).toNat =
        (utf8 host).length := by
    rw [UInt8.toNat_ofNat']
    omega
  have hPort := reads_u16 RouteError.struct port.toNat
    (by omega) (key ++ rest)
  have hRest :=
    Parser.reads_exactly RouteError.truncatedKey 32 key hKey
      rest
  rw [id] at hRest
  rw [hopBytes, List.cons_append, decodeHop]
  simp only [hLength, List.append_assoc, List.take_left,
    List.drop_left, decodeUtf8_utf8, hPort, hRest,
    Int.toNat_of_nonneg hLow]

/- A port after the host means that the host is whole. -/
theorem hopBytes_of_fields
    {hl : UInt8}
    {buf left rest : Bytes}
    {host : String}
    {port : Nat}
    {key : WireKey}
    (hHost : decodeUtf8 (buf.take hl.toNat) = some host)
    (hPort :
      port < 2 ^ 16 ∧
        buf.drop hl.toNat = pack16 port ++ left)
    (hKey : key.length = 32 ∧ left = id key ++ rest) :
    ChainHop.Encodable ⟨⟨host, port⟩, key⟩ ∧
      hl :: buf = hopBytes ⟨⟨host, port⟩, key⟩ ++ rest := by
  have hBytes := utf8_of_decodeUtf8 hHost
  have hWhole : hl.toNat ≤ buf.length := by
    have hLength := congrArg List.length hPort.2
    rw [List.length_drop, List.length_append,
      length_pack16] at hLength
    omega
  have hLength : (utf8 host).length = hl.toNat := by
    rw [hBytes, List.length_take, Nat.min_eq_left hWhole]
  have hSmall := hl.toNat_lt
  refine ⟨⟨?_, ?_, ?_, hKey.1⟩, ?_⟩
  · rw [← length_utf8, hLength]
    omega
  · simp
  · have hLt := hPort.1
    simp only
    omega
  · have hSplit := List.take_append_drop hl.toNat buf
    rw [hPort.2, hKey.2, id] at hSplit
    simp only [hopBytes, hLength, UInt8.ofNat_toNat]
    simp only [hBytes, Int.toNat_natCast, List.cons_append,
      List.append_assoc, hSplit]

theorem exact_decodeHop :
    Parser.Exact decodeHop hopBytes ChainHop.Encodable := by
  intro bs hop rest hParse
  cases bs with
  | nil => cases hParse
  | cons hl buf =>
      rw [decodeHop] at hParse
      cases hHost : decodeUtf8 (buf.take hl.toNat) with
      | none =>
          simp only [hHost] at hParse
          cases hParse
      | some host =>
          simp only [hHost] at hParse
          cases hPort : u16 RouteError.struct
              (buf.drop hl.toNat) with
          | error e =>
              simp only [hPort] at hParse
              cases hParse
          | ok got =>
              rcases got with ⟨port, left⟩
              simp only [hPort] at hParse
              cases hKey : Parser.exactly
                  RouteError.truncatedKey 32 left with
              | error e =>
                  simp only [hKey] at hParse
                  cases hParse
              | ok got =>
                  rcases got with ⟨key, last⟩
                  simp only [hKey] at hParse
                  cases hParse
                  exact
                    hopBytes_of_fields hHost
                      (exact_u16 _ _ _ _ hPort)
                      (Parser.exact_exactly _ _ _ _ _ hKey)

/- The bytes of an encodable route. -/
def routeBytes (hops : List ChainHop) : Bytes :=
  .ofNat hops.length :: hops.flatMap hopBytes

theorem encodeRoute_ok
    {hops : List ChainHop}
    (hHops : EncodableRoute hops) :
    encodeRoute hops = .ok (routeBytes hops) := by
  have hEach : ∀ hops : List ChainHop,
      (∀ hop ∈ hops, hop.Encodable) →
        encodeHops hops = .ok (hops.flatMap hopBytes) := by
    intro hops hAll
    induction hops with
    | nil => rfl
    | cons hop hops ih =>
        rcases List.forall_mem_cons.mp hAll with
          ⟨hHop, hRest⟩
        simp only [encodeHops, encodeHop_ok hHop, ih hRest]
        rfl
  rw [encodeRoute, if_neg (Nat.not_lt.mpr hHops.1),
    hEach hops hHops.2]
  rfl

theorem reads_decodeRoute :
    Parser.Reads decodeRoute routeBytes EncodableRoute := by
  rintro hops ⟨hMax, hAll⟩ rest
  have hCount :
      (UInt8.ofNat hops.length).toNat = hops.length := by
    rw [UInt8.toNat_ofNat']
    omega
  rw [routeBytes, List.cons_append, decodeRoute, hCount]
  exact reads_decodeHop.times hAll rest

theorem exact_decodeRoute :
    Parser.Exact decodeRoute routeBytes EncodableRoute := by
  intro bs hops rest hParse
  cases bs with
  | nil => cases hParse
  | cons n buf =>
      rw [decodeRoute] at hParse
      rcases exact_decodeHop.times hParse with
        ⟨hLength, hAll, hBuf⟩
      have hSmall := n.toNat_lt
      refine ⟨⟨by omega, hAll⟩, ?_⟩
      rw [routeBytes, hLength, UInt8.ofNat_toNat, hBuf]
      rfl

end CircuitDllm

------------------------------------------------------------
-- Frames Along the Chain
------------------------------------------------------------

namespace CircuitDllm

open Wire

/- A CHAIN_ACTIVATION: where it is dialed, sealed with what. -/
structure ChainFrame where
  endpoint : Endpoint
  key : WireKey
  payload : Bytes

/- What a worker reads from its frame. -/
structure ChainSeen where
  route : List ChainHop
  session : Nat
  position : Nat

inductive ChainFrameError where
  | coord (e : CoordError)
  | route (e : RouteError)
  | tensor (e : TensorError)
deriving DecidableEq, Repr

/- The payload of a chain frame. -/
def chainPayload
    (hops : List ChainHop)
    (session pos : Int)
    (hidden : Wire.Tensor) :
    Except ChainFrameError Bytes :=
  match encodeRoute hops with
  | .error e => .error (.route e)
  | .ok header =>
    match packActivation session pos hidden 0 with
    | .error e => .error (.tensor e)
    | .ok body => .ok (header ++ body)

/- The key of the node, else the key of the cluster. -/
def nodeKey (clusterKey : WireKey) (node : RouteHop) : WireKey :=
  node.wireKey.getD clusterKey

/- What the coordinator sends to the head. -/
def firstFrame
    (clusterKey : WireKey)
    (route : List RouteHop)
    (session pos : Int)
    (hidden : Wire.Tensor) :
    Except ChainFrameError ChainFrame :=
  match chainHeadAndRoute route with
  | .error e => .error (.coord e)
  | .ok (head, downstream) =>
    match chainPayload downstream session pos hidden with
    | .error e => .error e
    | .ok payload =>
      .ok ⟨head.endpoint, nodeKey clusterKey head, payload⟩

/- The layers of the worker at an endpoint. -/
abbrev StageFn :=
  Endpoint → Activation Wire.Tensor → Wire.Tensor

/- What a worker does next. -/
inductive ChainStep where
  /- a RESULT upstream -/
  | result (payload : Bytes)
  /- the frame to the next hop -/
  | forward (next : ChainFrame)

/- CHAIN_ACTIVATION at a worker: compute, forward the rest. -/
def handleChain
    (stage : StageFn)
    (frame : ChainFrame) :
    Except ChainFrameError (ChainSeen × ChainStep) :=
  match decodeRoute frame.payload with
  | .error e => .error (.route e)
  | .ok (route, rest) =>
    match unpackActivation rest with
    | .error e => .error (.tensor e)
    | .ok act =>
      let out := stage frame.endpoint act
      let seen := ⟨route, act.session, act.position⟩
      match popNext route with
      | (none, _) =>
        match packActivation act.session act.position out 0 with
        | .error e => .error (.tensor e)
        | .ok payload => .ok (seen, .result payload)
      | (some next, remaining) =>
        match chainPayload remaining act.session act.position
            out with
        | .error e => .error e
        | .ok payload =>
          .ok (seen, .forward ⟨next.endpoint, next.key, payload⟩)

/- A frame and what the worker that got it read. -/
structure Visit where
  frame : ChainFrame
  seen : ChainSeen

/- The frames of one activation, and the result at the end. -/
def follow (stage : StageFn) :
    Nat → ChainFrame → Option (List Visit × Bytes)
| 0, _ => none
| fuel + 1, frame =>
    match handleChain stage frame with
    | .error _ => none
    | .ok (seen, .result payload) =>
      some ([⟨frame, seen⟩], payload)
    | .ok (seen, .forward next) =>
      match follow stage fuel next with
      | none => none
      | some (visits, payload) =>
        some (⟨frame, seen⟩ :: visits, payload)

end CircuitDllm

------------------------------------------------------------
-- Delivery
------------------------------------------------------------

namespace CircuitDllm

open Wire

/- A node whose endpoint and key fit the route header. -/
def RouteHop.Encodable (n : RouteHop) : Prop :=
  ∃ key, n.wireKey = some key ∧
    ChainHop.Encodable ⟨n.endpoint, key⟩

/- The hop of a node with a key. -/
def RouteHop.hop (n : RouteHop) : ChainHop :=
  ⟨n.endpoint, n.wireKey.getD []⟩

theorem RouteHop.Encodable.hop
    {n : RouteHop}
    (hNode : n.Encodable) :
    n.hop.Encodable := by
  rcases hNode with ⟨key, hKey, hHop⟩
  rw [RouteHop.hop, hKey]
  exact hHop

theorem downstreamHops_eq
    {route : List RouteHop}
    (hRoute : ∀ n ∈ route, n.Encodable) :
    downstreamHops route = .ok (route.map RouteHop.hop) := by
  induction route with
  | nil => rfl
  | cons n route ih =>
      rcases List.forall_mem_cons.mp hRoute with
        ⟨⟨key, hKey, hHop⟩, hRest⟩
      have hLength : key.length = 32 := hHop.2.2.2
      simp only [downstreamHops, hKey, hLength, ne_eq,
        not_true_eq_false, if_false, ih hRest, List.map_cons,
        RouteHop.hop, Option.getD_some]

/- The frame for a node that carries the nodes after it. -/
structure Carries
    (frame : ChainFrame)
    (node : RouteHop)
    (after : List RouteHop)
    (session pos : Nat) :
    Prop where
  endpoint : frame.endpoint = node.endpoint
  key : some frame.key = node.wireKey
  payload :
    ∃ hidden, hidden.Packable ∧
      ∃ body,
        frame.payload =
            routeBytes (after.map RouteHop.hop) ++ body ∧
          unpackActivation body =
            .ok ⟨session, pos, 0, hidden⟩

theorem chainPayload_ok
    {hops : List ChainHop}
    (hHops : EncodableRoute hops)
    (session pos : Int)
    {hidden : Wire.Tensor}
    (hPack : hidden.Packable) :
    ∃ body,
      chainPayload hops session pos hidden =
          .ok (routeBytes hops ++ body) ∧
        unpackActivation body =
          .ok ⟨mask32 session, mask32 pos, 0, hidden⟩ := by
  rcases unpackActivation_packActivation session pos 0 hPack
    with ⟨body, hBody, hRead⟩
  refine ⟨body, ?_, hRead⟩
  have hBody' : packActivation session pos hidden 0 =
      .ok body := hBody
  simp only [chainPayload, encodeRoute_ok hHops, hBody']

theorem encodable_map_hop
    {route : List RouteHop}
    (hRoute : ∀ n ∈ route, n.Encodable)
    (hMax : route.length ≤ 255) :
    EncodableRoute (route.map RouteHop.hop) := by
  refine ⟨?_, ?_⟩
  · rw [List.length_map]
    exact hMax
  · intro hop hMem
    rcases List.mem_map.mp hMem with ⟨n, hN, rfl⟩
    exact (hRoute n hN).hop

/- The coordinator's frame is for the head. -/
theorem firstFrame_carries
    (clusterKey : WireKey)
    {head : RouteHop}
    {tail : List RouteHop}
    (hRoute : ∀ n ∈ head :: tail, n.Encodable)
    (hMax : tail.length ≤ 255)
    (session pos : Int)
    {hidden : Wire.Tensor}
    (hPack : hidden.Packable) :
    ∃ frame,
      firstFrame clusterKey (head :: tail) session pos hidden =
          .ok frame ∧
        Carries frame head tail (mask32 session)
          (mask32 pos) := by
  rcases List.forall_mem_cons.mp hRoute with
    ⟨⟨key, hKey, -⟩, hTail⟩
  have hHops := encodable_map_hop hTail hMax
  rcases chainPayload_ok hHops session pos hPack with
    ⟨body, hPayload, hRead⟩
  refine ⟨⟨head.endpoint, key, _⟩, ?_, rfl, hKey.symm, hidden,
    hPack, body, rfl, hRead⟩
  simp only [firstFrame, chainHeadAndRoute,
    downstreamHops_eq hTail, hPayload, nodeKey, hKey,
    Option.getD_some]

variable {stage : StageFn}

/- What a worker reads from a frame that carries a route. -/
theorem Carries.decoded
    {frame : ChainFrame}
    {node : RouteHop}
    {after : List RouteHop}
    {session pos : Nat}
    (hCarries : Carries frame node after session pos)
    (hAfter : ∀ n ∈ after, n.Encodable)
    (hMax : after.length ≤ 255) :
    ∃ hidden body, hidden.Packable ∧
      decodeRoute frame.payload =
          .ok (after.map RouteHop.hop, body) ∧
        unpackActivation body =
          .ok ⟨session, pos, 0, hidden⟩ := by
  rcases hCarries.payload with
    ⟨hidden, hPack, body, hPayload, hRead⟩
  refine ⟨hidden, body, hPack, ?_, hRead⟩
  rw [hPayload]
  exact
    reads_decodeRoute _ (encodable_map_hop hAfter hMax) body

/- The tail answers. -/
theorem handleChain_tail
    (hStage : ∀ endpoint act,
      act.tensors.Packable → (stage endpoint act).Packable)
    {frame : ChainFrame}
    {node : RouteHop}
    {session pos : Nat}
    (hSession : session < 2 ^ 32)
    (hPos : pos < 2 ^ 32)
    (hCarries : Carries frame node [] session pos) :
    ∃ payload out,
      handleChain stage frame =
          .ok (⟨[], session, pos⟩, .result payload) ∧
        unpackActivation payload =
          .ok ⟨session, pos, 0, out⟩ := by
  rcases hCarries.decoded (by simp) (by simp) with
    ⟨hidden, body, hPack, hDecode, hRead⟩
  rcases unpackActivation_packActivation session pos 0
      (hStage frame.endpoint ⟨session, pos, 0, hidden⟩ hPack)
    with ⟨payload, hPayload, hBack⟩
  rw [mask32_of_lt hSession, mask32_of_lt hPos] at hBack
  have hPayload' :
      packActivation session pos
          (stage frame.endpoint ⟨session, pos, 0, hidden⟩) 0 =
        .ok payload := hPayload
  refine ⟨payload, _, ?_, hBack⟩
  simp only [handleChain, hDecode, hRead, List.map_nil,
    popNext, hPayload']

/- Every other node sends the rest of the route on. -/
theorem handleChain_forward
    (hStage : ∀ endpoint act,
      act.tensors.Packable → (stage endpoint act).Packable)
    {frame : ChainFrame}
    {node next : RouteHop}
    {after : List RouteHop}
    {session pos : Nat}
    (hSession : session < 2 ^ 32)
    (hPos : pos < 2 ^ 32)
    (hAfter : ∀ n ∈ next :: after, n.Encodable)
    (hMax : (next :: after).length ≤ 255)
    (hCarries : Carries frame node (next :: after) session pos) :
    ∃ frame',
      handleChain stage frame =
          .ok
            (⟨(next :: after).map RouteHop.hop, session, pos⟩,
              .forward frame') ∧
        Carries frame' next after session pos := by
  rcases hCarries.decoded hAfter hMax with
    ⟨hidden, body, hPack, hDecode, hRead⟩
  rcases List.forall_mem_cons.mp hAfter with
    ⟨⟨key, hKey, -⟩, hRest⟩
  have hShort : after.length ≤ 255 := by
    rw [List.length_cons] at hMax
    omega
  have hOut :=
    hStage frame.endpoint ⟨session, pos, 0, hidden⟩ hPack
  rcases chainPayload_ok (encodable_map_hop hRest hShort)
      session pos hOut with ⟨body', hPayload, hRead'⟩
  rw [mask32_of_lt hSession, mask32_of_lt hPos] at hRead'
  refine ⟨⟨next.endpoint, key, _⟩, ?_, rfl, hKey.symm, _, hOut,
    body', rfl, hRead'⟩
  simp only [handleChain, hDecode, hRead, List.map_cons,
    popNext, hPayload, RouteHop.hop, hKey, Option.getD_some]

/- The frames visit the nodes of a route, one after another. -/
structure Tours
    (visits : List Visit)
    (route : List RouteHop)
    (session pos : Nat) :
    Prop where
  endpoints :
    visits.map (·.frame.endpoint) = route.map (·.endpoint)
  keys :
    visits.map (fun v => some v.frame.key) =
      route.map (·.wireKey)
  seen :
    ∀ v ∈ visits,
      v.seen.session = session ∧ v.seen.position = pos
  routes :
    ∀ (i : Nat) (v : Visit), visits[i]? = some v →
      v.seen.route = (route.drop (i + 1)).map RouteHop.hop

theorem Tours.cons
    {visits : List Visit}
    {route : List RouteHop}
    {session pos : Nat}
    (hTours : Tours visits route session pos)
    {frame : ChainFrame}
    {node : RouteHop}
    (hEndpoint : frame.endpoint = node.endpoint)
    (hKey : some frame.key = node.wireKey) :
    Tours
      (⟨frame, route.map RouteHop.hop, session, pos⟩ :: visits)
      (node :: route) session pos where
  endpoints := by
    rw [List.map_cons, List.map_cons, hTours.endpoints,
      hEndpoint]
  keys := by
    rw [List.map_cons, List.map_cons, hTours.keys, hKey]
  seen v hMem := by
    rcases List.mem_cons.mp hMem with rfl | hLater
    · exact ⟨rfl, rfl⟩
    · exact hTours.seen v hLater
  routes i v hAt := by
    cases i with
    | zero =>
        rw [List.getElem?_cons_zero] at hAt
        rw [← Option.some.inj hAt]
        rfl
    | succ i =>
        rw [List.getElem?_cons_succ] at hAt
        exact hTours.routes i v hAt

/- By induction on the nodes after the one with the frame. -/
theorem follow_tours
    (hStage : ∀ endpoint act,
      act.tensors.Packable → (stage endpoint act).Packable)
    {session pos : Nat}
    (hSession : session < 2 ^ 32)
    (hPos : pos < 2 ^ 32)
    {after : List RouteHop}
    (hAfter : ∀ n ∈ after, n.Encodable)
    (hMax : after.length ≤ 255)
    {frame : ChainFrame}
    {node : RouteHop}
    (hCarries : Carries frame node after session pos)
    {fuel : Nat}
    (hFuel : after.length < fuel) :
    ∃ visits payload out,
      follow stage fuel frame = some (visits, payload) ∧
        Tours visits (node :: after) session pos ∧
        unpackActivation payload =
          .ok ⟨session, pos, 0, out⟩ := by
  have hNone : Tours [] [] session pos := by
    refine ⟨rfl, rfl, by simp, by simp⟩
  induction after generalizing frame node fuel with
  | nil =>
      rcases handleChain_tail hStage hSession hPos hCarries with
        ⟨payload, out, hHandle, hBack⟩
      cases fuel with
      | zero => exact absurd hFuel (Nat.not_lt_zero _)
      | succ fuel =>
          refine ⟨_, payload, out, ?_,
            hNone.cons hCarries.endpoint hCarries.key, hBack⟩
          simp only [follow, hHandle, List.map_nil]
  | cons next after ih =>
      rcases handleChain_forward hStage hSession hPos hAfter
          hMax hCarries with ⟨frame', hHandle, hNext⟩
      rcases List.forall_mem_cons.mp hAfter with ⟨-, hRest⟩
      rw [List.length_cons] at hMax hFuel
      cases fuel with
      | zero => exact absurd hFuel (Nat.not_lt_zero _)
      | succ fuel =>
          rcases @ih hRest (by omega) frame' next hNext fuel
              (by omega) with
            ⟨visits, payload, out, hFollow, hTours, hBack⟩
          refine ⟨_, payload, out, ?_,
            hTours.cons hCarries.endpoint hCarries.key, hBack⟩
          simp only [follow, hHandle, hFollow]

theorem Tours.length
    {visits : List Visit}
    {route : List RouteHop}
    {session pos : Nat}
    (hTours : Tours visits route session pos) :
    visits.length = route.length := by
  have hLength := congrArg List.length hTours.endpoints
  rw [List.length_map, List.length_map] at hLength
  exact hLength

/- Only the tail reads an empty route. -/
theorem Tours.tail_iff
    {visits : List Visit}
    {route : List RouteHop}
    {session pos : Nat}
    (hTours : Tours visits route session pos)
    {i : Nat}
    {v : Visit}
    (hAt : visits[i]? = some v) :
    v.seen.route = [] ↔ i + 1 = route.length := by
  rcases List.getElem?_eq_some_iff.mp hAt with ⟨hLt, -⟩
  rw [hTours.length] at hLt
  rw [hTours.routes i v hAt, List.map_eq_nil_iff,
    List.drop_eq_nil_iff]
  omega

/-
  The header is read back, broken off headers raise, and
  what is accepted is a header.  A pinned route is walked
  node by node, each frame under the key of its node.
-/
theorem chain_route_delivery
    (clusterKey : WireKey)
    (stage : StageFn)
    (hStage : ∀ endpoint act,
      act.tensors.Packable → (stage endpoint act).Packable) :
    (∀ hops, EncodableRoute hops →
      ∃ enc, encodeRoute hops = .ok enc ∧
        (∀ rest,
          decodeRoute (enc ++ rest) = .ok (hops, rest)) ∧
        ∀ front, front <+: enc → front ≠ enc →
          ∃ e, decodeRoute front = .error e) ∧
    (∀ buf hops rest, decodeRoute buf = .ok (hops, rest) →
      ∃ enc, encodeRoute hops = .ok enc ∧ buf = enc ++ rest) ∧
    (∀ (route : List RouteHop) (session pos : Int)
        (hidden : Wire.Tensor),
      1 ≤ route.length → route.length ≤ 256 →
      (∀ n ∈ route, n.Encodable) → hidden.Packable →
      ∃ first,
        firstFrame clusterKey route session pos hidden =
            .ok first ∧
          ∀ fuel, route.length ≤ fuel →
            ∃ visits payload out,
              follow stage fuel first =
                  some (visits, payload) ∧
                Tours visits route (mask32 session)
                  (mask32 pos) ∧
                (∀ i v, visits[i]? = some v →
                  (v.seen.route = [] ↔
                    i + 1 = route.length)) ∧
                unpackActivation payload =
                  .ok ⟨mask32 session, mask32 pos, 0, out⟩) ∧
    ∀ n : Nat, n < 2 ^ 32 → mask32 n = n := by
  refine ⟨?_, ?_, ?_, ?_⟩
  · intro hops hHops
    refine ⟨routeBytes hops, encodeRoute_ok hHops, ?_, ?_⟩
    · apply reads_decodeRoute
      exact hHops
    · intro front hFront hShort
      exact
        Parser.error_of_prefix reads_decodeRoute
          exact_decodeRoute hHops hFront hShort
  · intro buf hops rest hParse
    rcases exact_decodeRoute buf hops rest hParse with
      ⟨hHops, hBuf⟩
    exact ⟨routeBytes hops, encodeRoute_ok hHops, hBuf⟩
  · intro route session pos hidden hSome hMax hRoute hPack
    cases route with
    | nil => exact absurd hSome (Nat.not_succ_le_zero 0)
    | cons head tail =>
        rw [List.length_cons] at hMax
        have hTail : tail.length ≤ 255 := by omega
        rcases firstFrame_carries clusterKey hRoute hTail
            session pos hPack with ⟨first, hFirst, hCarries⟩
        refine ⟨first, hFirst, ?_⟩
        intro fuel hFuel
        rcases List.forall_mem_cons.mp hRoute with ⟨-, hAfter⟩
        rcases follow_tours hStage (mask32_lt session)
            (mask32_lt pos) hAfter hTail hCarries hFuel with
          ⟨visits, payload, out, hFollow, hTours, hBack⟩
        refine ⟨visits, payload, out, hFollow, hTours, ?_,
          hBack⟩
        intro i v hAt
        exact hTours.tail_iff hAt
  · intro n hLt
    exact mask32_of_lt hLt

/- Two nodes, each with a key of its own. -/
def twoNodes : List RouteHop :=
  [⟨"head", ⟨"10.0.0.1", 9000⟩, true,
      some (List.replicate 32 1)⟩,
    ⟨"tail", ⟨"10.0.0.2", 9001⟩, true,
      some (List.replicate 32 2)⟩]

theorem twoNodes_encodable : ∀ n ∈ twoNodes, n.Encodable := by
  intro n hMem
  rcases List.mem_pair.mp hMem with rfl | rfl
  · refine ⟨_, rfl, ?_⟩
    decide +kernel
  · refine ⟨_, rfl, ?_⟩
    decide +kernel

theorem zeros_packable :
    (zeros .float32 [1, 1, 2]).Packable where
  one_le := by decide
  le_max := by decide
  numel_pos := by decide
  registered := by decide
  dims_lt := by decide

theorem chain_route_delivery_two :
    ∃ first,
      firstFrame [] twoNodes 7 0 (zeros .float32 [1, 1, 2]) =
          .ok first ∧
        ∃ visits payload,
          follow (fun _ act => act.tensors) 2 first =
              some (visits, payload) ∧
            Tours visits twoNodes 7 0 := by
  have hAll :=
    chain_route_delivery [] (fun _ act => act.tensors)
      (fun _ _ hPack => hPack)
  rcases hAll.2.2.1 twoNodes 7 0 (zeros .float32 [1, 1, 2])
      (by decide) (by decide) twoNodes_encodable zeros_packable
    with ⟨first, hFirst, hFollow⟩
  rcases hFollow 2 (by decide) with
    ⟨visits, payload, out, hRun, hTours, -⟩
  refine ⟨first, hFirst, visits, payload, hRun, ?_⟩
  apply hTours

end CircuitDllm
