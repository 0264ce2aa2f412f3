import CircuitDllm.Lib.History
import CircuitDllm.Lib.PyJsonOrder
import CircuitDllm.Wire.JsonBytes

/-
  Signed JSON bodies (engine/canonical.py; their signers and
  their verifier in engine/control_server.py and
  engine/stage_worker.py).

  What is signed are the canonical bytes of the body without
  its `sig`; what is sent is the body as json.dumps writes
  it.  The key library is a part of the model, and so is
  the test of a `ts` against the clock.

  Main declarations:
    * `canonical`, `canonical_inj`
    * `hexBytes`, `fromHex`, `KeyLib`
    * `JsonServer`, `JsonServer.signBody`
    * `JsonServer.sent`, `JsonServer.readUtf8`
    * `JsonServer.verify`, `signed_bodies_pass`
    * `SigningWorld`, `SigningWorld.passed_was_signed`
-/

------------------------------------------------------------
-- Canonical Bytes
------------------------------------------------------------

namespace CircuitDllm

open Wire (Bytes)

variable {F : Type}

/- canonical_str: sorted keys, nothing but what is needed. -/
def canonicalStr (json : JsonOps F) (v : PyJson F) :
    Except PyJson.DumpsError (List Char) :=
  PyJson.dumpsWith json.ops json.limits .compact v.sortKeys

/- canonical: the text in UTF-8; none if anything raises. -/
def canonical (json : JsonOps F) (v : PyJson F) :
    Option Bytes :=
  match canonicalStr json v with
  | .error _ => none
  | .ok text =>
    -- encode raises on a lone surrogate
    if v.sortKeys.scalars then
      some (utf8 (String.ofList text))
    else none

theorem utf8_injective
    {text text' : List Char}
    (hEq :
      utf8 (String.ofList text) = utf8 (String.ofList text')) :
    text = text' := by
  have hDecode := congrArg decodeUtf8 hEq
  rw [decodeUtf8_utf8, decodeUtf8_utf8, Option.some.injEq]
    at hDecode
  exact String.ofList_injective hDecode

/- What has canonical bytes is read back from its text. -/
theorem canonical_eq_some
    {json : JsonOps F}
    {v : PyJson F}
    {bytes : Bytes}
    (hDicts : v.Dicts) :
    canonical json v = some bytes ↔
      PyJson.Sound json.limits v ∧
        bytes = utf8 (String.ofList
          (PyJson.encodeWith json.ops .compact
            v.sortKeys)) := by
  rw [← PyJson.sound_sortKeys hDicts]
  constructor
  · intro hSome
    rw [canonical] at hSome
    split at hSome
    · cases hSome
    · rename_i text hText
      rcases PyJson.dumpsWith_eq_ok.mp hText with ⟨hFits, rfl⟩
      split at hSome
      · rename_i hScalars
        cases hSome
        exact ⟨⟨hFits, hDicts.sortKeys, hScalars⟩, rfl⟩
      · cases hSome
  · rintro ⟨hSound, rfl⟩
    have hText :
        canonicalStr json v =
          .ok (PyJson.encodeWith json.ops .compact
            v.sortKeys) :=
      PyJson.dumpsWith_eq_ok.mpr ⟨hSound.fits, rfl⟩
    rw [canonical, hText]
    simp only [hSound.scalars, if_true]

/-
  Values have the same canonical bytes when they are the
  same value, whatever the order of their members.
-/
theorem canonical_inj
    {json : JsonOps F}
    (hLawful : json.ops.Lawful)
    {v w : PyJson F}
    (hDicts : v.Dicts)
    (hDicts' : w.Dicts)
    {bytes : Bytes}
    (hSome : canonical json v = some bytes) :
    canonical json w = some bytes ↔ v.Equal w := by
  rw [PyJson.equal_iff_sortKeys hDicts hDicts']
  constructor
  · intro hSome'
    rcases (canonical_eq_some hDicts).mp hSome with
      ⟨hSound, hBytes⟩
    rcases (canonical_eq_some hDicts').mp hSome' with
      ⟨hSound', hBytes'⟩
    have hSorted := (PyJson.sound_sortKeys hDicts).mpr hSound
    have hSorted' :=
      (PyJson.sound_sortKeys hDicts').mpr hSound'
    have hText := utf8_injective (hBytes.symm.trans hBytes')
    have hRead := PyJson.loads_encodeWith hLawful
      PyJson.spaced_compact hSorted.fits hSorted.dicts
      hSorted.scalars
    have hRead' := PyJson.loads_encodeWith hLawful
      PyJson.spaced_compact hSorted'.fits hSorted'.dicts
      hSorted'.scalars
    rw [hText, hRead'] at hRead
    exact (Option.some.inj hRead).symm
  · intro hEq
    rw [← hSome, canonical, canonical, canonicalStr,
      canonicalStr, hEq]

/- One value, its members in two orders. -/
def halvesForth : PyJson Nat :=
  .obj [([98], .float (.finite 1)), ([97], .bool true)]

def halvesBack : PyJson Nat :=
  .obj [([97], .bool true), ([98], .float (.finite 1))]

theorem canonical_inj_halves :
    ∃ bytes,
      canonical halvesJson halvesForth = some bytes ∧
        (canonical halvesJson halvesBack = some bytes ↔
          halvesForth.Equal halvesBack) := by
  have hDicts : halvesForth.Dicts := by
    refine .obj (by decide) ?_
    simp only [List.forall_mem_cons]
    exact ⟨.float, .bool, fun _ hM => absurd hM List.not_mem_nil⟩
  have hDicts' : halvesBack.Dicts := by
    refine .obj (by decide) ?_
    simp only [List.forall_mem_cons]
    exact ⟨.bool, .float, fun _ hM => absurd hM List.not_mem_nil⟩
  have hFits :
      PyJson.Fits halvesJson.limits 1000 halvesForth := by
    refine @PyJson.Fits.obj Nat _ 999 _ ?_
    simp only [List.forall_mem_cons]
    exact ⟨.float, .bool, fun _ hM => absurd hM List.not_mem_nil⟩
  have hSome := (canonical_eq_some hDicts).mpr
    ⟨⟨hFits, hDicts, rfl⟩, rfl⟩
  exact ⟨_, hSome,
    canonical_inj halves_lawful hDicts hDicts' hSome⟩

end CircuitDllm

------------------------------------------------------------
-- Hexadecimal
------------------------------------------------------------

namespace CircuitDllm

open Wire (Bytes)

/- bytes.hex() -/
def hexBytes (bs : Bytes) : List Nat :=
  bs.flatMap (fun b =>
    [(Json.hexDigit (b.toNat / 16)).toNat,
      (Json.hexDigit (b.toNat % 16)).toNat])

/- What bytes.fromhex skips between two bytes. -/
def fromHexSpace (c : Nat) : Bool :=
  c = 32 ∨ (9 ≤ c ∧ c ≤ 13)

/- bytes.fromhex; none if it raises. -/
def fromHex : List Nat → Option Bytes
| [] => some []
| c :: cs =>
  if fromHexSpace c then fromHex cs
  else
    match cs with
    | [] => none
    | d :: cs =>
      match Json.hexVal (Char.ofNat c),
          Json.hexVal (Char.ofNat d) with
      | some a, some b =>
        (fromHex cs).map (.ofNat (16 * a + b) :: ·)
      | _, _ => none

theorem hexDigit_facts :
    ∀ d, d < 16 →
      fromHexSpace (Json.hexDigit d).toNat = false ∧
        Json.hexVal (Char.ofNat (Json.hexDigit d).toNat) =
          some d ∧
        ((Json.hexDigit d).toNat).isValidChar := by
  decide

/- Bytes are read back from their digits. -/
theorem fromHex_hexBytes (bs : Bytes) :
    fromHex (hexBytes bs) = some bs := by
  induction bs with
  | nil => rfl
  | cons b bs ih =>
      have hByte : b.toNat < 256 := b.toNat_lt
      rcases hexDigit_facts (b.toNat / 16) (by omega) with
        ⟨hSpace, hHigh, -⟩
      rcases hexDigit_facts (b.toNat % 16) (by omega) with
        ⟨-, hLow, -⟩
      have hJoin :
          16 * (b.toNat / 16) + b.toNat % 16 = b.toNat :=
        Nat.div_add_mod b.toNat 16
      rw [hexBytes, List.flatMap_cons, List.cons_append,
        List.cons_append, List.nil_append, fromHex, hSpace,
        if_neg Bool.false_ne_true, hHigh, hLow]
      simp only [hJoin, UInt8.ofNat_toNat]
      rw [← hexBytes, ih]
      rfl

theorem scalarText_hexBytes (bs : Bytes) :
    PyJson.scalarText (hexBytes bs) = true := by
  rw [PyJson.scalarText, List.all_eq_true]
  intro n hMem
  rw [hexBytes, List.mem_flatMap] at hMem
  rcases hMem with ⟨b, -, hDigit⟩
  have hByte : b.toNat < 256 := b.toNat_lt
  apply decide_eq_true
  rcases List.mem_cons.mp hDigit with rfl | hRest
  · exact (hexDigit_facts _ (by omega)).2.2
  · rw [List.mem_singleton.mp hRest]
    exact (hexDigit_facts _ (by omega)).2.2

end CircuitDllm

------------------------------------------------------------
-- Signing And Verifying
------------------------------------------------------------

namespace CircuitDllm

open Wire (Bytes)

variable {F Priv : Type}

/- The key library; `verify` is false where it raises. -/
structure KeyLib (Priv : Type) where
  publicKey : Priv → Bytes
  sign : Priv → Bytes → Bytes
  verify : Bytes → Bytes → Bytes → Bool

/- A key's signature is valid under its public key. -/
def KeyLib.Lawful (lib : KeyLib Priv) : Prop :=
  ∀ priv message,
    lib.verify (lib.publicKey priv) (lib.sign priv message)
      message = true

/- A body before it is sent. -/
abbrev JsonBody (F : Type) := Dict (List Nat) (PyJson F)

/- A field's name as json knows it. -/
def fieldKey (field : String) : List Nat :=
  PyJson.codePoints field.toList

def JsonBody.json (body : JsonBody F) : PyJson F :=
  .obj body.entries

/- The body without its `sig`. -/
def JsonBody.message (body : JsonBody F) : PyJson F :=
  JsonBody.json (body.erase (fieldKey "sig"))

/-
  How a server reads and checks; `lib` is its key library.
  `stale` is the test of a `ts` against the clock, true
  where it raises, and none with no window.
-/
structure JsonServer (F Priv : Type) extends JsonOps F where
  lib : KeyLib Priv
  stale : Option (PyJson F → Bool)

namespace JsonServer

variable (server : JsonServer F Priv)

/- body["sig"] = key.sign(canonical(body minus sig)).hex() -/
def signBody (priv : Priv) (body : JsonBody F) :
    Option (JsonBody F) :=
  (canonical server.toJsonOps body.message).map (fun bytes =>
    body.set (fieldKey "sig")
      (.str (hexBytes (server.lib.sign priv bytes))))

/- make_ed25519_signer -/
def signRequest
    (priv : Priv)
    (nodeId : List Nat)
    (ts : PyJson F)
    (body : JsonBody F) :
    Option (JsonBody F) :=
  server.signBody priv
    ((body.set (fieldKey "node_id") (.str nodeId)).set
      (fieldKey "ts") ts)

/- _sign_register -/
def signRegister
    (priv : Priv)
    (ts : PyJson F)
    (reg : JsonBody F) :
    Option (JsonBody F) :=
  server.signBody priv
    ((reg.set (fieldKey "ts") ts).erase (fieldKey "sig"))

/- What is posted. -/
def sent (body : JsonBody F) : Option Bytes :=
  dumpsBytes server.toJsonOps body.json

/-
  What _read makes of UTF-8 text without a byte order mark
  or a NUL, such as `sent` posts; of nothing, an empty dict.
  Bytes in the other encodings that json.loads knows are
  not read here: the runs below let any value arrive.
-/
def readUtf8 (data : Bytes) : Option (PyJson F) :=
  loadsBytes server.toJsonOps
    (if data = [] then utf8 "\x7b\x7d" else data)

/- The members that were signed. -/
def messageOf : PyJson F → PyJson F
| .obj members =>
    .obj (members.filter (fun m => m.1 ≠ fieldKey "sig"))
| v => v

/- Key, signature and message; none if reading them raises. -/
def signatureOf (v : PyJson F) :
    Option (Bytes × Bytes × Bytes) :=
  match v with
  | .obj members =>
    match PyJson.get? members "sig",
        PyJson.get? members "node_id" with
    | some (.str sig), some (.str nodeId) =>
      match fromHex sig, fromHex nodeId,
          canonical server.toJsonOps (messageOf v) with
      | some sig, some nodeId, some message =>
        some (nodeId, sig, message)
      | _, _, _ => none
    | _, _ => none
  | _ => none

/- The body has a `ts`, and it is in the window. -/
def freshBody (v : PyJson F) : Bool :=
  match server.stale, v with
  | none, _ => true
  | some stale, .obj members =>
    (PyJson.get? members "ts").any (fun ts => !stale ts)
  | some _, _ => false

/- make_ed25519_verifier -/
def verify (v : PyJson F) : Bool :=
  server.freshBody v &&
    (server.signatureOf v).any (fun (nodeId, sig, message) =>
      server.lib.verify nodeId sig message)

end JsonServer

end CircuitDllm

------------------------------------------------------------
-- A Signed Body Passes
------------------------------------------------------------

namespace CircuitDllm

open Wire (Bytes)

variable {F Priv : Type}

/- A dict answers from its entries. -/
theorem get?_entries
    (body : JsonBody F)
    (field : String) :
    PyJson.get? body.entries field =
      body.get? (fieldKey field) := by
  apply Option.ext
  intro v
  rw [PyJson.get?, PyJson.lookup_eq_some_iff body.nodup,
    Dict.get?_eq_some]
  rfl

/- Setting a key does not change what is left without it. -/
theorem erase_set_entries
    {K V : Type}
    [DecidableEq K]
    (d : Dict K V)
    (k : K)
    (v : V) :
    ((d.set k v).erase k).entries = (d.erase k).entries := by
  by_cases hMem : k ∈ d.keys
  · simp only [Dict.set, dif_pos hMem, Dict.erase, Dict.modify]
    clear hMem
    induction d.entries with
    | nil => rfl
    | cons e entries ih =>
        by_cases hKey : e.1 = k
        · rw [List.map_cons, if_pos hKey,
            List.filter_cons_of_neg (by simp [hKey]),
            List.filter_cons_of_neg (by simp [hKey]), ih]
        · rw [List.map_cons, if_neg hKey,
            List.filter_cons_of_pos (by simp [hKey]),
            List.filter_cons_of_pos (by simp [hKey]), ih]
  · simp [Dict.set, hMem, Dict.erase]

theorem message_set_sig
    (body : JsonBody F)
    (v : PyJson F) :
    JsonBody.message (body.set (fieldKey "sig") v) =
      body.message := by
  rw [JsonBody.message, JsonBody.message, JsonBody.json,
    JsonBody.json, erase_set_entries]

theorem dicts_erase
    {body : JsonBody F}
    (hDicts : body.json.Dicts)
    (key : List Nat) :
    (JsonBody.json (body.erase key)).Dicts := by
  cases hDicts with
  | obj hNodup hMembers =>
      refine .obj (Dict.nodup _) ?_
      intro m hM
      exact hMembers m (List.mem_of_mem_filter hM)

theorem dicts_message
    {body : JsonBody F}
    (hDicts : body.json.Dicts) :
    body.message.Dicts :=
  dicts_erase hDicts _

/- A field of a set body is the new one or an old one. -/
theorem mem_set
    {body : JsonBody F}
    {key : List Nat}
    {v : PyJson F}
    {m : List Nat × PyJson F}
    (hMem : m ∈ (body.set key v).entries) :
    m = (key, v) ∨ m ∈ (body.erase key).entries := by
  rcases m with ⟨k, w⟩
  rw [← Dict.get?_eq_some, Dict.get?_set] at hMem
  split at hMem
  · rename_i hKey
    cases hMem
    exact .inl (by rw [hKey])
  · rename_i hKey
    rw [← Dict.get?_eq_some, Dict.get?_erase, if_neg hKey]
    exact .inr hMem

theorem dicts_set
    {body : JsonBody F}
    (hDicts : body.json.Dicts)
    (key : List Nat)
    {v : PyJson F}
    (hValue : v.Dicts) :
    (JsonBody.json (body.set key v)).Dicts := by
  cases hDicts with
  | obj hNodup hMembers =>
      refine .obj (Dict.nodup _) ?_
      intro m hM
      rcases mem_set hM with rfl | hOld
      · exact hValue
      · exact hMembers m (List.mem_of_mem_filter hOld)

theorem scalarText_sig :
    PyJson.scalarText (fieldKey "sig") = true := by
  decide

/- What is written and read stays so with a text as `sig`. -/
theorem sound_set_sig
    {limits : Limits}
    {body : JsonBody F}
    (hSound : PyJson.Sound limits body.message)
    {sig : List Nat}
    (hScalar : PyJson.scalarText sig = true) :
    PyJson.Sound limits
      (JsonBody.json
        (body.set (fieldKey "sig") (.str sig))) := by
  rcases hSound with ⟨hFits, hDicts, hScalars⟩
  rw [JsonBody.message, JsonBody.json] at hFits hDicts hScalars
  refine ⟨?_, ?_, ?_⟩
  · rw [JsonBody.json]
    generalize limits.depth = depth at hFits ⊢
    cases hFits with
    | obj hMembers =>
        apply PyJson.Fits.obj
        intro m hM
        rcases mem_set hM with rfl | hOld
        · exact .str
        · exact hMembers m hOld
  · cases hDicts with
    | obj hNodup hMembers =>
        refine .obj (Dict.nodup _) ?_
        intro m hM
        rcases mem_set hM with rfl | hOld
        · exact .str
        · exact hMembers m hOld
  · rw [PyJson.scalars_obj] at hScalars
    rw [JsonBody.json, PyJson.scalars_obj]
    intro m hM
    rcases mem_set hM with rfl | hOld
    · exact ⟨scalarText_sig, hScalar⟩
    · exact hScalars m hOld

/- A signature leaves the other fields as they were. -/
theorem get?_set_sig
    (body : JsonBody F)
    (v : PyJson F)
    (field : String) :
    PyJson.get? (body.set (fieldKey "sig") v).entries field =
      if fieldKey "sig" = fieldKey field then some v
      else body.get? (fieldKey field) := by
  rw [get?_entries, Dict.get?_set]

variable {server : JsonServer F Priv}

/- What is sent is received as it was. -/
theorem readUtf8_sent
    (hLawful : server.ops.Lawful)
    {body : JsonBody F}
    (hSound : PyJson.Sound server.limits body.json) :
    ∃ data, server.sent body = some data ∧
      server.readUtf8 data = some body.json := by
  have hDumps :
      PyJson.dumps server.ops server.limits body.json =
        .ok (PyJson.encode server.ops body.json) :=
    PyJson.dumps_eq_encode hSound.fits
  have hSent :
      server.sent body =
        some (utf8 (String.ofList
          (PyJson.encode server.ops body.json))) := by
    rw [JsonServer.sent, dumpsBytes, hDumps]
  have hSome :
      utf8 (String.ofList
        (PyJson.encode server.ops body.json)) ≠ [] := by
    intro hNil
    have hText :
        utf8 (String.ofList
            (PyJson.encode server.ops body.json)) =
          utf8 (String.ofList []) := by
      rw [hNil]
      rfl
    have hEmpty := utf8_injective hText
    rw [JsonBody.json, PyJson.encode,
      PyJson.encodeWith] at hEmpty
    cases hEmpty
  refine ⟨_, hSent, ?_⟩
  rw [JsonServer.readUtf8, if_neg hSome]
  exact loadsBytes_dumpsBytes hLawful hSound.dicts
    hSound.scalars hSent

theorem signBody_of_canonical
    {priv : Priv}
    {body : JsonBody F}
    {bytes : Bytes}
    (hBytes :
      canonical server.toJsonOps body.message = some bytes) :
    ∃ signed, server.signBody priv body = some signed := by
  rw [JsonServer.signBody, hBytes]
  exact ⟨_, rfl⟩

/- The server checks what the key's holder signed. -/
theorem signatureOf_signed
    {priv : Priv}
    {body : JsonBody F}
    (hNode :
      body.get? (fieldKey "node_id") =
        some (.str (hexBytes (server.lib.publicKey priv))))
    {bytes : Bytes}
    (hBytes :
      canonical server.toJsonOps body.message = some bytes) :
    server.signatureOf
        (JsonBody.json
          (body.set (fieldKey "sig")
            (.str (hexBytes (server.lib.sign priv bytes))))) =
      some (server.lib.publicKey priv,
        server.lib.sign priv bytes, bytes) := by
  have hId := get?_set_sig body
    (.str (hexBytes (server.lib.sign priv bytes))) "node_id"
  have hSig := get?_set_sig body
    (.str (hexBytes (server.lib.sign priv bytes))) "sig"
  rw [if_neg (by decide)] at hId
  rw [if_pos rfl] at hSig
  have hCanonical :
      canonical server.toJsonOps
          (JsonServer.messageOf (.obj
            (body.set (fieldKey "sig")
              (.str (hexBytes
                (server.lib.sign priv bytes)))).entries)) =
        some bytes := by
    rw [← hBytes, ← message_set_sig body
      (.str (hexBytes (server.lib.sign priv bytes)))]
    rfl
  simp only [JsonServer.signatureOf, JsonBody.json, hSig, hId,
    hNode, fromHex_hexBytes, hCanonical]

/- A signed body arrives as it was sent. -/
theorem readUtf8_signed
    (hLawful : server.ops.Lawful)
    {priv : Priv}
    {body signed : JsonBody F}
    (hDicts : body.json.Dicts)
    (hSigned : server.signBody priv body = some signed) :
    ∃ data, server.sent signed = some data ∧
      server.readUtf8 data = some signed.json := by
  rcases Option.map_eq_some_iff.mp hSigned with
    ⟨bytes, hBytes, rfl⟩
  have hSound :=
    ((canonical_eq_some (dicts_message hDicts)).mp hBytes).1
  exact readUtf8_sent hLawful
    (sound_set_sig hSound (scalarText_hexBytes _))

/- The body is sent and passes where it arrives. -/
def JsonServer.Passes
    (server : JsonServer F Priv)
    (signed : JsonBody F) :
    Prop :=
  ∃ data v, server.sent signed = some data ∧
    server.readUtf8 data = some v ∧ server.verify v = true

theorem passes_of_signBody
    (hLawful : server.ops.Lawful)
    (hLib : server.lib.Lawful)
    {priv : Priv}
    {body signed : JsonBody F}
    (hDicts : body.json.Dicts)
    (hNode :
      body.get? (fieldKey "node_id") =
        some (.str (hexBytes (server.lib.publicKey priv))))
    {ts : PyJson F}
    (hTime : body.get? (fieldKey "ts") = some ts)
    (hFresh :
      ∀ stale, server.stale = some stale → stale ts = false)
    (hSigned : server.signBody priv body = some signed) :
    server.Passes signed := by
  rcases readUtf8_signed hLawful hDicts hSigned with
    ⟨data, hSent, hRead⟩
  refine ⟨data, _, hSent, hRead, ?_⟩
  rcases Option.map_eq_some_iff.mp hSigned with
    ⟨bytes, hBytes, rfl⟩
  have hTs := get?_set_sig body
    (.str (hexBytes (server.lib.sign priv bytes))) "ts"
  rw [if_neg (by decide)] at hTs
  rw [JsonServer.verify, Bool.and_eq_true]
  constructor
  · cases hStale : server.stale with
    | none => simp only [JsonServer.freshBody, hStale]
    | some stale =>
        have hIn := hFresh stale hStale
        simp only [JsonServer.freshBody, hStale, JsonBody.json,
          hTs, hTime, Option.any_some, hIn, Bool.not_false]
  · rw [signatureOf_signed hNode hBytes]
    exact hLib priv bytes

/-
  What an orchestrator or a worker signs with its own key
  passes where it arrives, while its `ts` is in the window.
-/
theorem signed_bodies_pass
    (hLawful : server.ops.Lawful)
    (hLib : server.lib.Lawful)
    (priv : Priv)
    {ts : PyJson F}
    (hTs : ts.Dicts)
    (hFresh :
      ∀ stale, server.stale = some stale → stale ts = false)
    {body : JsonBody F}
    (hDicts : body.json.Dicts) :
    (∀ signed,
      server.signRequest priv
          (hexBytes (server.lib.publicKey priv)) ts body =
        some signed → server.Passes signed) ∧
    (body.get? (fieldKey "node_id") =
        some (.str (hexBytes (server.lib.publicKey priv))) →
      ∀ signed,
        server.signRegister priv ts body = some signed →
          server.Passes signed) := by
  constructor
  · intro signed hSigned
    refine passes_of_signBody hLawful hLib
      (dicts_set (dicts_set hDicts _ .str) _ hTs)
      ?_ ?_ hFresh hSigned
    · rw [Dict.get?_set, if_neg (by decide), Dict.get?_set_self]
    · rw [Dict.get?_set_self]
  · intro hNode signed hSigned
    refine passes_of_signBody hLawful hLib
      (dicts_erase (dicts_set hDicts _ hTs) _)
      ?_ ?_ hFresh hSigned
    · rw [Dict.get?_erase, if_neg (by decide), Dict.get?_set,
        if_neg (by decide)]
      exact hNode
    · rw [Dict.get?_erase, if_neg (by decide),
        Dict.get?_set_self]

/- A signature is the public key and the message. -/
def openLib : KeyLib Bytes where
  publicKey priv := priv
  sign priv message := priv ++ message
  verify nodeId sig message :=
    decide (sig = nodeId ++ message)

theorem openLib_lawful : openLib.Lawful := by
  intro priv message
  exact decide_eq_true rfl

/- A clock at 1000, and a window of 300. -/
def openServer : JsonServer Nat Bytes where
  toJsonOps := halvesJson
  lib := openLib
  stale :=
    some (fun ts =>
      match ts with
      | .int n => decide (300 < |n - 1000|)
      | _ => true)

/- A request for session 7 by the node with key 1. -/
def openBody : JsonBody Nat where
  entries :=
    [(fieldKey "session", .int 7),
      (fieldKey "node_id", .str (hexBytes [1]))]
  nodup := by decide

theorem dicts_openBody : openBody.json.Dicts := by
  refine .obj openBody.nodup ?_
  simp only [openBody, List.forall_mem_cons]
  exact ⟨.int, .str, fun _ hM => absurd hM List.not_mem_nil⟩

/- What is signed of it at 1000. -/
def openMessage : PyJson Nat :=
  .obj
    [(fieldKey "session", .int 7),
      (fieldKey "node_id", .str (hexBytes [1])),
      (fieldKey "ts", .int 1000)]

theorem canonical_openMessage :
    ∃ bytes,
      canonical openServer.toJsonOps openMessage =
        some bytes := by
  have hDicts : openMessage.Dicts := by
    refine .obj (by decide) ?_
    simp only [List.forall_mem_cons]
    exact ⟨.int, .str, .int,
      fun _ hM => absurd hM List.not_mem_nil⟩
  have hFits :
      PyJson.Fits halvesJson.limits 1000 openMessage := by
    refine @PyJson.Fits.obj Nat _ 999 _ ?_
    simp only [List.forall_mem_cons]
    exact ⟨.int (by decide), .str, .int (by decide),
      fun _ hM => absurd hM List.not_mem_nil⟩
  exact ⟨_, (canonical_eq_some hDicts).mpr
    ⟨⟨hFits, hDicts, rfl⟩, rfl⟩⟩

theorem signed_bodies_pass_open :
    ∃ request register,
      openServer.signRequest [1] (hexBytes [1]) (.int 1000)
          openBody =
        some request ∧ openServer.Passes request ∧
      openServer.signRegister [1] (.int 1000) openBody =
        some register ∧ openServer.Passes register := by
  rcases canonical_openMessage with ⟨bytes, hBytes⟩
  have hFresh :
      ∀ stale, openServer.stale = some stale →
        stale (.int 1000) = false := by
    intro stale hStale
    cases hStale
    decide
  rcases signed_bodies_pass halves_lawful openLib_lawful [1]
    .int hFresh dicts_openBody with ⟨hRequest, hRegister⟩
  have hRequested :
      ∃ signed,
        openServer.signRequest [1] (hexBytes [1]) (.int 1000)
            openBody =
          some signed :=
    signBody_of_canonical hBytes
  have hRegistered :
      ∃ signed,
        openServer.signRegister [1] (.int 1000) openBody =
          some signed :=
    signBody_of_canonical hBytes
  rcases hRequested with ⟨request, hRequested⟩
  rcases hRegistered with ⟨register, hRegistered⟩
  exact ⟨request, register, hRequested,
    hRequest request hRequested, hRegistered,
    hRegister rfl register hRegistered⟩

end CircuitDllm

------------------------------------------------------------
-- What Passes Was Signed
------------------------------------------------------------

namespace CircuitDllm

open Wire (Bytes)

variable {F Priv : Type}

/- What can happen. -/
inductive SigningEvent (F Priv : Type) where
  /- the holder of a key signs a body and sends it anywhere -/
  | signs
      (priv : Priv)
      (body : JsonBody F)
      (hDicts : body.json.Dicts)
  /-
    the server has read a body, whoever sent it and however
    it was written
  -/
  | arrives (v : PyJson F) (hDicts : v.Dicts)

/- A public key and the message of a body. -/
abbrev SignedMessage (F : Type) := Bytes × PyJson F

/- The messages that were signed, and those that passed. -/
structure SigningWorld (F : Type) where
  signed : List (SignedMessage F) := []
  passed : List (SignedMessage F) := []

namespace SigningWorld

variable (server : JsonServer F Priv)

def step (w : SigningWorld F) :
    SigningEvent F Priv → SigningWorld F
| .signs priv body _ =>
    match server.signBody priv body with
    | none => w
    | some _ =>
      { w with
        signed :=
          (server.lib.publicKey priv, body.message) ::
            w.signed }
| .arrives v _ =>
    if server.verify v then
      match server.signatureOf v with
      | none => w
      | some (nodeId, _, _) =>
        { w with
          passed :=
            (nodeId, JsonServer.messageOf v) :: w.passed }
    else w

def run (events : List (SigningEvent F Priv)) :
    SigningWorld F :=
  events.foldl (step server) {}

/-
  A valid signature that arrives is on bytes that the holder
  of the key signed before.
-/
def Unforged :
    SigningWorld F × SigningEvent F Priv → Prop
| (_, .signs _ _ _) => True
| (w, .arrives v _) =>
    ∀ nodeId sig bytes,
      server.signatureOf v = some (nodeId, sig, bytes) →
      server.lib.verify nodeId sig bytes = true →
        ∃ message, (nodeId, message) ∈ w.signed ∧
          canonical server.toJsonOps message = some bytes

/- Every message that passed is one that was signed. -/
structure Genuine (w : SigningWorld F) : Prop where
  dicts : ∀ m ∈ w.signed, m.2.Dicts
  passed :
    ∀ m ∈ w.passed, ∃ message,
      (m.1, message) ∈ w.signed ∧ message.Equal m.2

variable {server}

theorem dicts_messageOf
    {v : PyJson F}
    (hDicts : v.Dicts) :
    (JsonServer.messageOf v).Dicts := by
  cases hDicts with
  | null => exact .null
  | bool => exact .bool
  | int => exact .int
  | float => exact .float
  | str => exact .str
  | arr hItems => exact .arr hItems
  | obj hNodup hMembers =>
      refine .obj ?_ ?_
      · exact hNodup.sublist (List.filter_sublist.map _)
      · intro m hM
        exact hMembers m (List.mem_of_mem_filter hM)

theorem readUtf8_dicts
    {data : Bytes}
    {v : PyJson F}
    (hRead : server.readUtf8 data = some v) :
    v.Dicts := by
  rw [JsonServer.readUtf8, loadsBytes] at hRead
  rcases Option.bind_eq_some_iff.mp hRead with
    ⟨text, -, hLoads⟩
  exact PyJson.loads_dicts hLoads

/- The bytes a signature is checked on are the message's. -/
theorem signatureOf_canonical
    {v : PyJson F}
    {nodeId sig bytes : Bytes}
    (hRead :
      server.signatureOf v = some (nodeId, sig, bytes)) :
    canonical server.toJsonOps (JsonServer.messageOf v) =
      some bytes := by
  unfold JsonServer.signatureOf at hRead
  split at hRead
  · split at hRead
    · split at hRead
      · rename_i hCanonical
        cases hRead
        exact hCanonical
      · cases hRead
    · cases hRead
  · cases hRead

theorem genuine_step
    (hLawful : server.ops.Lawful)
    {w : SigningWorld F}
    {event : SigningEvent F Priv}
    (hUnforged : Unforged server (w, event))
    (hGenuine : w.Genuine) :
    (w.step server event).Genuine := by
  cases event with
  | signs priv body hDicts =>
      simp only [step]
      split
      · exact hGenuine
      · refine ⟨?_, ?_⟩
        · intro m hM
          rcases List.mem_cons.mp hM with rfl | hOld
          · exact dicts_message hDicts
          · exact hGenuine.dicts m hOld
        · intro m hM
          rcases hGenuine.passed m hM with
            ⟨message, hSigned, hEqual⟩
          exact ⟨message, List.mem_cons_of_mem _ hSigned,
            hEqual⟩
  | arrives v hDicts =>
      simp only [step]
      split
      · rename_i hVerify
        split
        · exact hGenuine
        · rename_i nodeId sig bytes hSignature
          refine ⟨hGenuine.dicts, ?_⟩
          intro m hM
          rcases List.mem_cons.mp hM with rfl | hOld
          · rw [JsonServer.verify, Bool.and_eq_true,
              hSignature] at hVerify
            rcases hUnforged nodeId sig bytes hSignature
              hVerify.2 with
              ⟨message, hSigned, hBytes⟩
            refine ⟨message, hSigned, ?_⟩
            exact (canonical_inj hLawful
              (hGenuine.dicts _ hSigned)
              (dicts_messageOf hDicts)
              hBytes).mp (signatureOf_canonical hSignature)
          · exact hGenuine.passed m hOld
      · exact hGenuine

/-
  Whatever arrives, and in whatever order: a body that
  passes has, under every key but `sig`, the values of a
  body that the key's holder signed.
-/
theorem passed_was_signed
    (hLawful : server.ops.Lawful)
    (events : List (SigningEvent F Priv))
    (hUnforged :
      ∀ e ∈ History.trail (step server) {} events,
        Unforged server e) :
    (run server events).Genuine := by
  have hInit : ({} : SigningWorld F).Genuine :=
    ⟨fun _ hM => absurd hM List.not_mem_nil,
      fun _ hM => absurd hM List.not_mem_nil⟩
  exact History.induction_of (step server) (Unforged server)
    (fun _ w => w.Genuine) hInit
    (fun _ _ _ hAllowed hGenuine =>
      genuine_step hLawful hAllowed hGenuine)
    hUnforged

/- The body as the worker signs it at 1000. -/
def openRegister : JsonBody Nat :=
  (openBody.set (fieldKey "ts") (.int 1000)).erase
    (fieldKey "sig")

theorem dicts_openRegister : openRegister.json.Dicts :=
  dicts_erase (dicts_set dicts_openBody _ .int) _

/- A body is signed, sent and passes. -/
theorem passed_was_signed_open :
    ∃ v hDicts,
      (run openServer
          [.signs [1] openRegister dicts_openRegister,
            .arrives v hDicts]).Genuine ∧
        (run openServer
          [.signs [1] openRegister dicts_openRegister,
            .arrives v hDicts]).passed ≠ [] := by
  rcases canonical_openMessage with ⟨bytes, hBytes⟩
  have hMessage : openRegister.message = openMessage := rfl
  rw [← hMessage] at hBytes
  have hNode :
      openRegister.get? (fieldKey "node_id") =
        some (.str (hexBytes
          (openServer.lib.publicKey [1]))) := rfl
  have hFresh :
      ∀ stale, openServer.stale = some stale →
        stale (.int 1000) = false := by
    intro stale hStale
    cases hStale
    decide
  rcases @signBody_of_canonical _ _ openServer [1] _ _ hBytes
    with ⟨signed, hSigned⟩
  rcases passes_of_signBody halves_lawful openLib_lawful
    dicts_openRegister hNode rfl hFresh hSigned with
    ⟨data, v, hSent, hReceived, hVerify⟩
  rcases readUtf8_signed halves_lawful dicts_openRegister
    hSigned with ⟨data', hSent', hReceived'⟩
  have hData : data' = data := by
    rw [hSent] at hSent'
    exact (Option.some.inj hSent').symm
  have hValue : v = signed.json := by
    rw [hData, hReceived] at hReceived'
    exact Option.some.inj hReceived'
  have hRead :
      openServer.signatureOf v =
        some ([1], openServer.lib.sign [1] bytes, bytes) := by
    have hSet := hSigned
    rw [JsonServer.signBody, hBytes] at hSet
    rw [hValue, ← Option.some.inj hSet]
    exact signatureOf_signed hNode hBytes
  have hFirst :
      step openServer {}
          (.signs [1] openRegister dicts_openRegister) =
        { signed := [([1], openRegister.message)] } := by
    simp only [step, hSigned]
    rfl
  refine ⟨v, readUtf8_dicts hReceived, ?_, ?_⟩
  · apply passed_was_signed halves_lawful
    intro e hE
    simp only [History.trail, List.mem_cons, List.not_mem_nil,
      or_false] at hE
    rcases hE with rfl | rfl
    · trivial
    · intro nodeId sig bytes' hRead' _
      rw [hRead] at hRead'
      cases hRead'
      refine ⟨openRegister.message, ?_, hBytes⟩
      rw [hFirst]
      exact List.mem_cons_self
  · simp only [run, List.foldl_cons, List.foldl_nil, hFirst]
    simp [step, hVerify, hRead]

end SigningWorld

end CircuitDllm
