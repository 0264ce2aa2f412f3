import CircuitDllm.Coord.ChainRoute
import CircuitDllm.Lib.PyJsonOrder

/-
  JSON on a socket (engine/relay.py, and the bodies of
  engine/route_provider.py and engine/control_server.py).

  A value is sent as the UTF-8 of its text.  A preamble has
  the length of its text in front; what is read of it ends
  there, however the socket hands it over.

  Main declarations:
    * `JsonOps`, `dumpsBytes`, `loadsBytes`
    * `loadsBytes_dumpsBytes`, `dumpsBytes_plain`
    * `member`, `jsonText`, `get?_member`
    * `writePreamble`, `readPreamble`, `IsPreamble`
    * `readPreambles`, `readPreambles_exact`
-/

------------------------------------------------------------
-- Bytes
------------------------------------------------------------

namespace CircuitDllm

open Wire (Bytes)

variable {F : Type}

/- What json reads and writes with. -/
structure JsonOps (F : Type) where
  ops : FloatOps F
  limits : Limits

/- json.dumps(v).encode(); none if it raises. -/
def dumpsBytes (json : JsonOps F) (v : PyJson F) :
    Option Bytes :=
  match PyJson.dumps json.ops json.limits v with
  | .error _ => none
  | .ok text => some (utf8 (String.ofList text))

/- json.loads(data.decode("utf-8")); none if it raises. -/
def loadsBytes (json : JsonOps F) (data : Bytes) :
    Option (PyJson F) :=
  (decodeUtf8 data).bind (fun text =>
    PyJson.loads json.ops json.limits text.toList)

/- What is written is read back. -/
theorem loadsBytes_dumpsBytes
    {json : JsonOps F}
    (hLawful : json.ops.Lawful)
    {v : PyJson F}
    (hDicts : v.Dicts)
    (hScalars : v.scalars = true)
    {data : Bytes}
    (hSome : dumpsBytes json v = some data) :
    loadsBytes json data = some v := by
  rw [dumpsBytes] at hSome
  split at hSome
  · cases hSome
  · rename_i text hDumps
    cases hSome
    have hLoads :=
      PyJson.loads_dumps hLawful hDicts hScalars hDumps
    rw [loadsBytes, decodeUtf8_utf8]
    simpa using hLoads

/- Printable text is one byte a character. -/
theorem utf8_ofList (text : List Char) :
    utf8 (String.ofList text) =
      text.flatMap String.utf8EncodeChar := by
  simp [utf8, String.toUTF8, List.utf8Encode]

/- A text has no more characters than bytes. -/
theorem length_le_utf8 (text : List Char) :
    text.length ≤ (utf8 (String.ofList text)).length := by
  rw [utf8_ofList]
  induction text with
  | nil => exact Nat.le_refl _
  | cons c text ih =>
      have hSome := c.utf8Size_pos
      rw [List.flatMap_cons, List.length_append,
        String.length_utf8EncodeChar, List.length_cons]
      omega

theorem utf8_plain
    {text : List Char}
    (hPlain : PyJson.Plain text) :
    utf8 (String.ofList text) =
      text.map (fun c => UInt8.ofNat c.toNat) := by
  have hChar :
      ∀ c ∈ text, String.utf8EncodeChar c =
        [UInt8.ofNat c.toNat] := by
    intro c hMem
    have hAscii := (hPlain c hMem).2
    have hSmall : c.val.toNat ≤ 0x7f := by
      change c.toNat ≤ 127
      omega
    unfold String.utf8EncodeChar
    exact if_pos hSmall
  rw [utf8_ofList, List.map_eq_flatMap]
  exact List.flatMap_congr hChar

/- The text of a value has no line feed. -/
theorem dumpsBytes_plain
    {json : JsonOps F}
    (hLawful : json.ops.Lawful)
    {v : PyJson F}
    {data : Bytes}
    (hSome : dumpsBytes json v = some data) :
    10 ∉ data ∧
      data = (PyJson.encode json.ops v).map
        (fun c => UInt8.ofNat c.toNat) := by
  rw [dumpsBytes] at hSome
  split at hSome
  · cases hSome
  · rename_i text hDumps
    cases hSome
    rcases PyJson.dumpsWith_eq_ok.mp hDumps with ⟨-, rfl⟩
    have hPlain := PyJson.plain_encode hLawful v
    rw [PyJson.encode] at hPlain ⊢
    rw [utf8_plain hPlain]
    refine ⟨?_, rfl⟩
    intro hMem
    rcases List.mem_map.mp hMem with ⟨c, hC, hTen⟩
    have hRange := hPlain c hC
    have hNat := congrArg UInt8.toNat hTen
    rw [UInt8.toNat_ofNat', Nat.mod_eq_of_lt (by omega)] at hNat
    have hEq : c.toNat = 10 := hNat
    omega

end CircuitDllm

------------------------------------------------------------
-- Members By Name
------------------------------------------------------------

namespace CircuitDllm

variable {F : Type}

/- A text as json knows it, and back. -/
def jsonText (s : String) : PyJson F :=
  .str (PyJson.codePoints s.toList)

def textOf : PyJson F → Option String
| .str cs => some (String.ofList (cs.map Char.ofNat))
| _ => none

def member (key : String) (value : PyJson F) :
    List Nat × PyJson F :=
  (PyJson.codePoints key.toList, value)

/- The members of a JSON object. -/
def membersOf : PyJson F → Option (List (List Nat × PyJson F))
| .obj members => some members
| _ => none

theorem codePoints_injective
    {a b : String}
    (hEq :
      PyJson.codePoints a.toList =
        PyJson.codePoints b.toList) :
    a = b := by
  have hToNat : Function.Injective Char.toNat :=
    fun _ _ h => Char.toNat_inj.mp h
  exact String.toList_inj.mp
    (List.map_injective_iff.mpr hToNat hEq)

/- The value of a key is that of its first member. -/
theorem get?_member
    (key key' : String)
    (value : PyJson F)
    (members : List (List Nat × PyJson F)) :
    PyJson.get? (member key value :: members) key' =
      if key' = key then some value
      else PyJson.get? members key' := by
  unfold PyJson.get? member
  rw [List.lookup_cons]
  by_cases hEq : key' = key
  · simp [hEq]
  · have hNe :
        PyJson.codePoints key'.toList ≠
          PyJson.codePoints key.toList :=
      fun h => hEq (codePoints_injective h)
    simp [hEq, beq_eq_false_iff_ne.mpr hNe]

theorem get?_nil (key : String) :
    PyJson.get? ([] : List (List Nat × PyJson F)) key =
      none := rfl

theorem textOf_jsonText (s : String) :
    textOf (jsonText s : PyJson F) = some s := by
  simp [textOf, jsonText, PyJson.codePoints,
    Function.comp_def]

/- Every string of the language can be encoded. -/
theorem scalarText_codePoints (s : List Char) :
    PyJson.scalarText (PyJson.codePoints s) = true := by
  rw [PyJson.scalarText, List.all_eq_true]
  intro n hMem
  rcases List.mem_map.mp hMem with ⟨c, -, rfl⟩
  exact decide_eq_true c.valid

end CircuitDllm

------------------------------------------------------------
-- Preambles
------------------------------------------------------------

namespace CircuitDllm

open Wire

variable {F : Type}

/- _PREAMBLE_MAX -/
def preambleMax : Nat := 64 * 1024

/- What reading a preamble raises. -/
inductive PreambleError where
  /- ConnectionError -/
  | closed
  | tooLarge (length : Nat)
  /- the text is no UTF-8 or no JSON -/
  | invalid
deriving DecidableEq, Repr

/- write_preamble; none if it raises. -/
def writePreamble (json : JsonOps F) (v : PyJson F) :
    Option Bytes :=
  match dumpsBytes json v with
  | none => none
  | some body =>
    if body.length < 2 ^ 32 then
      some (pack body.length ++ body)
    else none

/- read_preamble; _recvall is recv_exact of another name. -/
def readPreamble (json : JsonOps F) (sock : Wire.Socket) :
    Except PreambleError (PyJson F × Wire.Socket) :=
  match recvExact 4 sock with
  | .error _ => .error .closed
  | .ok (head, sock) =>
    if preambleMax < unpack head then
      .error (.tooLarge (unpack head))
    else
      match recvExact (unpack head) sock with
      | .error _ => .error .closed
      | .ok (body, sock) =>
        match loadsBytes json body with
        | none => .error .invalid
        | some v => .ok (v, sock)

/- The length that is in front of a text is read first. -/
theorem recvExact_head
    {length : Nat}
    (hLt : length < 2 ^ 32)
    {sock : Wire.Socket}
    {rest : Bytes}
    (hBytes : sock.bytes = pack length ++ rest) :
    ∃ head sock',
      recvExact 4 sock = .ok (head, sock') ∧
        unpack head = length ∧ sock'.bytes = rest := by
  have hHead : 4 ≤ sock.bytes.length := by
    rw [hBytes, List.length_append, length_pack]
    omega
  rcases recvExact_of_le hHead with ⟨sock', hRead, hLeft⟩
  rw [hBytes] at hRead hLeft
  rw [List.take_left' (length_pack _)] at hRead
  rw [List.drop_left' (length_pack _)] at hLeft
  exact ⟨_, sock', hRead, unpack_pack hLt, hLeft⟩

/- The value of a preamble that read_preamble takes. -/
structure IsPreamble
    (json : JsonOps F)
    (v : PyJson F)
    (bytes : Bytes) :
    Prop where
  dicts : v.Dicts
  scalars : v.scalars = true
  written : writePreamble json v = some bytes
  fits : bytes.length ≤ preambleMax + 4

variable {json : JsonOps F}

/- A short value is a preamble. -/
theorem isPreamble_of_short
    (hLawful : json.ops.Lawful)
    {v : PyJson F}
    (hSound : PyJson.Sound json.limits v)
    (hShort :
      (PyJson.encode json.ops v).length ≤ preambleMax) :
    ∃ bytes, IsPreamble json v bytes := by
  have hDumps :
      dumpsBytes json v =
        some (utf8 (String.ofList
          (PyJson.encode json.ops v))) := by
    rw [dumpsBytes, PyJson.dumps_eq_encode hSound.fits]
  have hLength :
      (utf8 (String.ofList
          (PyJson.encode json.ops v))).length =
        (PyJson.encode json.ops v).length := by
    rw [(dumpsBytes_plain hLawful hDumps).2, List.length_map]
  have hSmall :
      (utf8 (String.ofList
        (PyJson.encode json.ops v))).length < 2 ^ 32 := by
    rw [preambleMax] at hShort
    omega
  have hWritten :
      writePreamble json v =
        some (pack (utf8 (String.ofList
            (PyJson.encode json.ops v))).length ++
          utf8 (String.ofList
            (PyJson.encode json.ops v))) := by
    rw [writePreamble, hDumps]
    exact if_pos hSmall
  refine ⟨_, hSound.dicts, hSound.scalars, hWritten, ?_⟩
  rw [List.length_append, length_pack, hLength]
  omega

/- What stands behind the length is read back. -/
theorem IsPreamble.body
    (hLawful : json.ops.Lawful)
    {v : PyJson F}
    {bytes : Bytes}
    (hPreamble : IsPreamble json v bytes) :
    ∃ body, bytes = pack body.length ++ body ∧
      body.length < 2 ^ 32 ∧ ¬ preambleMax < body.length ∧
        loadsBytes json body = some v := by
  rcases hPreamble with ⟨hDicts, hScalars, hWritten, hFits⟩
  rw [writePreamble] at hWritten
  split at hWritten
  · cases hWritten
  · rename_i body hBody
    split at hWritten
    · rename_i hLt
      cases hWritten
      rw [List.length_append, length_pack] at hFits
      exact ⟨body, rfl, hLt, by omega,
        loadsBytes_dumpsBytes hLawful hDicts hScalars hBody⟩
    · cases hWritten

/- It is read, and nothing that comes after it. -/
theorem readPreamble_of_preamble
    (hLawful : json.ops.Lawful)
    {v : PyJson F}
    {bytes rest : Bytes}
    (hPreamble : IsPreamble json v bytes)
    {sock : Wire.Socket}
    (hBytes : sock.bytes = bytes ++ rest) :
    ∃ sock', readPreamble json sock = .ok (v, sock') ∧
      sock'.bytes = rest := by
  rcases hPreamble.body hLawful with
    ⟨body, rfl, hLt, hSmall, hLoads⟩
  rw [List.append_assoc] at hBytes
  rcases recvExact_head hLt hBytes with
    ⟨head, sock₁, hRead₁, hUnpack, hLeft₁⟩
  have hLe : body.length ≤ sock₁.bytes.length := by
    rw [hLeft₁, List.length_append]
    omega
  rcases recvExact_of_le hLe with ⟨sock₂, hRead₂, hLeft₂⟩
  rw [hLeft₁, List.take_left] at hRead₂
  rw [hLeft₁, List.drop_left] at hLeft₂
  refine ⟨sock₂, ?_, hLeft₂⟩
  simp only [readPreamble, hRead₁, hUnpack, hSmall, if_false,
    hRead₂, hLoads]

/- One that was cut is not. -/
theorem readPreamble_of_cut
    (hLawful : json.ops.Lawful)
    {v : PyJson F}
    {bytes : Bytes}
    (hPreamble : IsPreamble json v bytes)
    {sock : Wire.Socket}
    {cut : Nat}
    (hCut : cut < bytes.length)
    (hBytes : sock.bytes = bytes.take cut) :
    readPreamble json sock = .error .closed := by
  rcases hPreamble.body hLawful with
    ⟨body, rfl, hLt, hSmall, -⟩
  rw [List.length_append, length_pack] at hCut
  by_cases hShort : cut < 4
  · have hFew : sock.bytes.length < 4 := by
      rw [hBytes, List.length_take]
      omega
    simp only [readPreamble, recvExact_of_lt hFew]
  · have hHead :
        sock.bytes =
          pack body.length ++ body.take (cut - 4) := by
      rw [hBytes, List.take_append,
        List.take_of_length_le (by
          rw [length_pack]
          omega),
        length_pack]
    rcases recvExact_head hLt hHead with
      ⟨head, sock₁, hRead₁, hUnpack, hLeft₁⟩
    have hFew : sock₁.bytes.length < body.length := by
      rw [hLeft₁, List.length_take]
      omega
    simp only [readPreamble, hRead₁, hUnpack, hSmall, if_false,
      recvExact_of_lt hFew]

end CircuitDllm

------------------------------------------------------------
-- A Channel Of Preambles
------------------------------------------------------------

namespace CircuitDllm

open Wire

variable {F : Type}

/-
  The values of that many calls, and the socket they leave
  or what stopped them.
-/
def readPreambles (json : JsonOps F) :
    Nat → Wire.Socket →
      List (PyJson F) × Except PreambleError Wire.Socket
| 0, sock => ([], .ok sock)
| calls + 1, sock =>
    match readPreamble json sock with
    | .error e => ([], .error e)
    | .ok (v, sock) =>
      (v :: (readPreambles json calls sock).1,
        (readPreambles json calls sock).2)

variable {json : JsonOps F}

/-
  Preambles are read back one by one, whatever the chunks,
  and what follows them is left; a stream that is cut gives
  those that are complete.
-/
theorem readPreambles_exact
    (hLawful : json.ops.Lawful)
    {vs : List (PyJson F)}
    {texts : List Bytes}
    (hPreambles : List.Forall₂ (IsPreamble json) vs texts) :
    (∀ (sock : Wire.Socket) (rest : Bytes),
      sock.bytes = texts.flatten ++ rest →
        ∃ sock', readPreambles json vs.length sock =
            (vs, .ok sock') ∧
          sock'.bytes = rest) ∧
    (∀ (sock : Wire.Socket) (cut : Nat),
      cut < texts.flatten.length →
        sock.bytes = texts.flatten.take cut →
          readPreambles json vs.length sock =
            (vs.take (complete texts cut), .error .closed)) := by
  induction hPreambles with
  | nil =>
      constructor
      · intro sock rest hBytes
        exact ⟨sock, rfl, hBytes⟩
      · intro sock cut hCut _
        exact absurd hCut (Nat.not_lt_zero _)
  | @cons v text vs texts hPreamble hRest ih =>
      constructor
      · intro sock rest hBytes
        rw [List.flatten_cons, List.append_assoc] at hBytes
        rcases readPreamble_of_preamble hLawful hPreamble
          hBytes with ⟨sock₁, hRead, hLeft⟩
        rcases ih.1 sock₁ rest hLeft with
          ⟨sock₂, hReads, hEnd⟩
        refine ⟨sock₂, ?_, hEnd⟩
        simp only [List.length_cons, readPreambles, hRead,
          hReads]
      · intro sock cut hCut hBytes
        rw [List.flatten_cons] at hCut hBytes
        by_cases hWhole : text.length ≤ cut
        · rw [List.take_append,
            List.take_of_length_le hWhole] at hBytes
          rcases readPreamble_of_preamble hLawful hPreamble
            hBytes with ⟨sock₁, hRead, hLeft⟩
          rw [List.length_append] at hCut
          have hReads := ih.2 sock₁ _ (by omega) hLeft
          simp only [List.length_cons, readPreambles, hRead,
            hReads, complete, hWhole, if_true,
            List.take_succ_cons]
        · have hShort : cut < text.length :=
            Nat.lt_of_not_le hWhole
          rw [List.take_append_of_le_length
            (Nat.le_of_lt hShort)] at hBytes
          have hRead :=
            readPreamble_of_cut hLawful hPreamble hShort hBytes
          simp only [List.length_cons, readPreambles, hRead,
            complete, hWhole, if_false, List.take_zero]

/- Floats that end in .5, by their whole part. -/
def halves : FloatOps Nat where
  ofText text :=
    .finite
      (Nat.ofDigitChars 10 (text.takeWhile Char.isDigit) 0)
  repr n := Numeral.decimal n ++ ['.', '5']
  isZero _ := false

theorem halves_lawful : halves.Lawful where
  text n := by
    refine ⟨[], n, ['.', '5'], [], ?_, .inl rfl, ?_, ?_⟩
    · simp [halves]
    · refine ⟨.inr ⟨['5'], rfl, ?_, ?_⟩, .inl rfl⟩
      · exact List.cons_ne_nil _ _
      · intro c hC
        rw [List.mem_singleton.mp hC]
        rfl
    · simp
  ofText_repr n := by
    have hStops : Json.Stops ['.', '5'] :=
      Json.stops_cons (by decide) _
    simp only [halves, (Json.span_decimal n hStops).1]
    rw [Numeral.decimal, Nat.ofDigitChars_ten_toDigits]

def halvesJson : JsonOps Nat := ⟨halves, ⟨1000, 4300⟩⟩

/- What a worker sends to have a control connection. -/
def controlRequest : PyJson Nat :=
  .obj
    [member "role" (jsonText "control"),
      member "node_id" (jsonText "a1")]

/- And its answer to the relay's challenge. -/
def controlReply : PyJson Nat :=
  .obj [member "sig" (jsonText "07")]

theorem isPreamble_controlRequest :
    ∃ bytes, IsPreamble halvesJson controlRequest bytes := by
  refine isPreamble_of_short halves_lawful ⟨?_, ?_, rfl⟩
    (by decide)
  · refine @PyJson.Fits.obj Nat _ 999 _ ?_
    simp only [List.forall_mem_cons]
    exact ⟨.str, .str, fun _ hM => absurd hM List.not_mem_nil⟩
  · refine .obj (by decide) ?_
    simp only [List.forall_mem_cons]
    exact ⟨.str, .str, fun _ hM => absurd hM List.not_mem_nil⟩

theorem isPreamble_controlReply :
    ∃ bytes, IsPreamble halvesJson controlReply bytes := by
  refine isPreamble_of_short halves_lawful ⟨?_, ?_, rfl⟩
    (by decide)
  · refine @PyJson.Fits.obj Nat _ 999 _ ?_
    simp only [List.forall_mem_cons]
    exact ⟨.str, fun _ hM => absurd hM List.not_mem_nil⟩
  · refine .obj (by decide) ?_
    simp only [List.forall_mem_cons]
    exact ⟨.str, fun _ hM => absurd hM List.not_mem_nil⟩

/- A control connection's preambles, and what follows. -/
theorem readPreambles_exact_halves :
    ∃ request reply,
      writePreamble halvesJson controlRequest = some request ∧
        writePreamble halvesJson controlReply = some reply ∧
        ∀ sock : Wire.Socket,
          sock.bytes = [request, reply].flatten ++ [7] →
            ∃ sock',
              readPreambles halvesJson 2 sock =
                  ([controlRequest, controlReply],
                    .ok sock') ∧
                sock'.bytes = [7] := by
  rcases isPreamble_controlRequest with ⟨request, hRequest⟩
  rcases isPreamble_controlReply with ⟨reply, hReply⟩
  refine ⟨request, reply, hRequest.written, hReply.written, ?_⟩
  intro sock hBytes
  exact (readPreambles_exact halves_lawful
    (.cons hRequest (.cons hReply .nil))).1 sock [7] hBytes

end CircuitDllm
