import Mathlib.Algebra.Ring.Nat
import Mathlib.Data.List.Basic
import Mathlib.Data.List.Forall2
import Mathlib.Tactic.Common

/-
  Wire framing (engine/wire.py).

  A message is encrypted into a frame with a length in
  front.  The reader gets the frames back whatever chunks
  the socket hands it, and stops where the stream is cut.
  The cipher is a parameter.

  Main declarations:
    * `Aead`, `Aead.Lawful`
    * `sealFrame`, `openBody`
    * `Socket`, `recvExact`, `readFrameKeyed`
    * `wire_exact`
-/

------------------------------------------------------------
-- Frames
------------------------------------------------------------

namespace CircuitDllm

namespace Wire

abbrev Bytes := List UInt8

/- An authenticated cipher: key, nonce, text, extra data. -/
structure Aead (Key : Type) where
  encrypt : Key → Bytes → Bytes → Bytes → Bytes
  decrypt : Key → Bytes → Bytes → Bytes → Option Bytes

def nonceLen : Nat := 12

def tagLen : Nat := 16

def maxFrame : Nat := 256 * 1024 * 1024

/- _VERSION_AAD -/
def versionAad : Bytes := [1]

/- What the framing relies on. -/
structure Aead.Lawful {Key : Type} (aead : Aead Key) : Prop where
  decrypt_encrypt :
    ∀ key nonce text aad,
      aead.decrypt key nonce (aead.encrypt key nonce text aad)
        aad = some text
  length_encrypt :
    ∀ key nonce text aad,
      (aead.encrypt key nonce text aad).length =
        text.length + tagLen

/- os.urandom(NONCE_LEN) -/
structure Nonce where
  bytes : Bytes
  length_eq : bytes.length = nonceLen

/- What sealing and reading raise. -/
inductive WireError where
  | msgType
  | frameTooLarge (length : Nat)
  | frameLength (length : Nat)
  | tooShort
  | authentication
  /- the connection closed mid-frame -/
  | closed
  /- no WireError: plaintext[0] of an empty plaintext -/
  | indexError
deriving DecidableEq, Repr

/- struct.pack(">I", n) -/
def pack (n : Nat) : Bytes :=
  [.ofNat (n / 2 ^ 24), .ofNat (n / 2 ^ 16),
    .ofNat (n / 2 ^ 8), .ofNat n]

/- struct.unpack(">I", bs) -/
def unpack (bs : Bytes) : Nat :=
  bs.foldl (fun n b => 2 ^ 8 * n + b.toNat) 0

variable {Key : Type} (aead : Aead Key) (key : Key)

/- The body of a frame: nonce, ciphertext and tag. -/
def frameBody
    (nonce : Nonce)
    (msgType : Int)
    (payload : Bytes) :
    Bytes :=
  nonce.bytes ++
    aead.encrypt key nonce.bytes
      (.ofNat msgType.toNat :: payload) versionAad

/- Encrypt one message into a complete frame. -/
def sealFrame
    (nonce : Nonce)
    (msgType : Int)
    (payload : Bytes) :
    Except WireError Bytes :=
  if ¬ (0 ≤ msgType ∧ msgType ≤ 255) then .error .msgType
  else
    let body := frameBody aead key nonce msgType payload
    if maxFrame < body.length then
      .error (.frameTooLarge body.length)
    else .ok (pack body.length ++ body)

/- Decrypt the body of a frame. -/
def openBody (body : Bytes) : Except WireError (Int × Bytes) :=
  if body.length < nonceLen + tagLen + 1 then .error .tooShort
  else
    match aead.decrypt key (body.take nonceLen)
        (body.drop nonceLen) versionAad with
    | none => .error .authentication
    | some [] => .error .indexError
    | some (msgType :: payload) =>
      .ok ((msgType.toNat : Int), payload)

end Wire

end CircuitDllm

------------------------------------------------------------
-- Sockets
------------------------------------------------------------

namespace CircuitDllm

namespace Wire

/-
  What a blocking socket still delivers, in the chunks it
  delivers it in.
-/
structure Socket where
  chunks : List Bytes
  nonempty : ∀ chunk ∈ chunks, chunk ≠ []

namespace Socket

/- All of it. -/
def bytes (sock : Socket) : Bytes :=
  sock.chunks.flatten

/- recv_into: at most `n` bytes, none when it was closed. -/
def recvInto (n : Nat) : Socket → Bytes × Socket
| ⟨[], hChunks⟩ => ([], ⟨[], hChunks⟩)
| ⟨chunk :: chunks, hChunks⟩ =>
    if hLe : chunk.length ≤ n then
      (chunk,
        ⟨chunks, fun c hC =>
          hChunks c (List.mem_cons_of_mem _ hC)⟩)
    else
      (chunk.take n,
        ⟨chunk.drop n :: chunks, fun c hC => by
          rcases List.mem_cons.mp hC with rfl | hRest
          · rw [ne_eq, List.drop_eq_nil_iff]
            exact hLe
          · exact hChunks c (List.mem_cons_of_mem _ hRest)⟩)

/- What was received and what is left are the stream. -/
theorem recvInto_bytes (n : Nat) (sock : Socket) :
    (sock.recvInto n).1 ++ (sock.recvInto n).2.bytes =
      sock.bytes := by
  rcases sock with ⟨chunks, hChunks⟩
  cases chunks with
  | nil => rfl
  | cons chunk chunks =>
      simp only [recvInto]
      split
      · rfl
      · simp only [bytes, List.flatten_cons]
        rw [← List.append_assoc, List.take_append_drop]

theorem length_recvInto_le (n : Nat) (sock : Socket) :
    (sock.recvInto n).1.length ≤ n := by
  rcases sock with ⟨chunks, hChunks⟩
  cases chunks with
  | nil => exact Nat.zero_le n
  | cons chunk chunks =>
      simp only [recvInto]
      split
      · rename_i hLe
        exact hLe
      · exact List.length_take_le n chunk

/- Only a closed socket delivers nothing. -/
theorem recvInto_eq_nil
    {n : Nat}
    (hPos : 0 < n)
    {sock : Socket}
    (hNone : (sock.recvInto n).1 = []) :
    sock.bytes = [] := by
  rcases sock with ⟨chunks, hChunks⟩
  cases chunks with
  | nil => rfl
  | cons chunk chunks =>
      have hChunk := hChunks chunk List.mem_cons_self
      simp only [recvInto] at hNone
      split at hNone
      · exact absurd hNone hChunk
      · rcases List.take_eq_nil_iff.mp hNone with hZero | hNil
        · omega
        · exact absurd hNil hChunk

end Socket

/- Read exactly `n` bytes, or raise on an early close. -/
def recvExact
    (n : Nat)
    (sock : Socket) :
    Except WireError (Bytes × Socket) :=
  if _hZero : n = 0 then .ok ([], sock)
  else
    match (sock.recvInto n).1 with
    | [] => .error .closed
    | b :: bs =>
      match recvExact (n - (b :: bs).length)
          (sock.recvInto n).2 with
      | .error e => .error e
      | .ok (rest, sock) => .ok (b :: bs ++ rest, sock)
termination_by n
decreasing_by
  simp only [List.length_cons]
  omega

/- The chunks do not matter, only the bytes do. -/
theorem recvExact_of_le
    {n : Nat}
    {sock : Socket}
    (hLe : n ≤ sock.bytes.length) :
    ∃ sock', recvExact n sock = .ok (sock.bytes.take n, sock') ∧
      sock'.bytes = sock.bytes.drop n := by
  induction n using Nat.strongRecOn generalizing sock with
  | ind n ih =>
      rw [recvExact]
      by_cases hZero : n = 0
      · subst hZero
        exact ⟨sock, by simp, by simp⟩
      rw [dif_neg hZero]
      have hBytes := sock.recvInto_bytes n
      have hLength := sock.length_recvInto_le n
      cases hRecv : (sock.recvInto n).1 with
      | nil =>
          have hNil :=
            Socket.recvInto_eq_nil (Nat.pos_of_ne_zero hZero)
              hRecv
          rw [hNil, List.length_nil] at hLe
          omega
      | cons b bs =>
          rw [hRecv] at hBytes hLength
          have hLess : n - (b :: bs).length < n := by
            rw [List.length_cons]
            omega
          have hRest :
              n - (b :: bs).length ≤
                (sock.recvInto n).2.bytes.length := by
            rw [← hBytes, List.length_append] at hLe
            omega
          rcases ih _ hLess hRest with ⟨sock', hRead, hLeft⟩
          refine ⟨sock', ?_, ?_⟩
          · simp only [hRead]
            rw [← hBytes, List.take_append,
              List.take_of_length_le hLength]
          · rw [hLeft, ← hBytes, List.drop_append,
              List.drop_of_length_le hLength, List.nil_append]

/- Where there are fewer, the close is noticed. -/
theorem recvExact_of_lt
    {n : Nat}
    {sock : Socket}
    (hLt : sock.bytes.length < n) :
    recvExact n sock = .error .closed := by
  induction n using Nat.strongRecOn generalizing sock with
  | ind n ih =>
      rw [recvExact, dif_neg (by omega)]
      have hBytes := sock.recvInto_bytes n
      have hLength := sock.length_recvInto_le n
      cases hRecv : (sock.recvInto n).1 with
      | nil => rfl
      | cons b bs =>
          rw [hRecv] at hBytes hLength
          have hLess : n - (b :: bs).length < n := by
            rw [List.length_cons]
            omega
          have hRest :
              (sock.recvInto n).2.bytes.length <
                n - (b :: bs).length := by
            rw [← hBytes, List.length_append] at hLt
            omega
          simp only [ih _ hLess hRest]

variable {Key : Type} (aead : Aead Key) (key : Key)

/- The reader does not take a body of that length. -/
def RefusesLength (length : Nat) : Prop :=
  maxFrame < length ∨ length < nonceLen + tagLen + 1

instance (length : Nat) : Decidable (RefusesLength length) := by
  unfold RefusesLength
  infer_instance

/- Read one frame from a socket and decrypt it. -/
def readFrameKeyed (sock : Socket) :
    Except WireError ((Int × Bytes) × Socket) :=
  match recvExact 4 sock with
  | .error e => .error e
  | .ok (head, sock) =>
    if RefusesLength (unpack head) then
      .error (.frameLength (unpack head))
    else
      match recvExact (unpack head) sock with
      | .error e => .error e
      | .ok (body, sock) =>
        (openBody aead key body).map (fun m => (m, sock))

/-
  The messages of that many calls, and what stopped them
  early.
-/
def readFrames :
    Nat → Socket → List (Int × Bytes) × Option WireError
| 0, _ => ([], none)
| calls + 1, sock =>
    match readFrameKeyed aead key sock with
    | .error e => ([], some e)
    | .ok (m, sock) =>
      ((m :: (readFrames calls sock).1),
        (readFrames calls sock).2)

end Wire

end CircuitDllm

------------------------------------------------------------
-- Reading What Was Sealed
------------------------------------------------------------

namespace CircuitDllm

namespace Wire

@[simp] theorem length_pack (n : Nat) : (pack n).length = 4 :=
  rfl

/- A length survives its four bytes. -/
theorem unpack_pack
    {n : Nat}
    (hLt : n < 2 ^ 32) :
    unpack (pack n) = n := by
  simp only [unpack, pack, List.foldl_cons, List.foldl_nil,
    UInt8.toNat_ofNat']
  omega

variable {Key : Type} {aead : Aead Key} {key : Key}

theorem length_frameBody
    (hLawful : aead.Lawful)
    (key : Key)
    (nonce : Nonce)
    (msgType : Int)
    (payload : Bytes) :
    (frameBody aead key nonce msgType payload).length =
      nonceLen + (1 + payload.length + tagLen) := by
  rw [frameBody, List.length_append, nonce.length_eq,
    hLawful.length_encrypt, List.length_cons,
    Nat.add_comm payload.length 1]

/- Opening the body of a sealed message. -/
theorem openBody_frameBody
    (hLawful : aead.Lawful)
    (nonce : Nonce)
    {msgType : Int}
    (hByte : 0 ≤ msgType ∧ msgType ≤ 255)
    (payload : Bytes) :
    openBody aead key (frameBody aead key nonce msgType payload) =
      .ok (msgType, payload) := by
  have hLength :=
    length_frameBody hLawful key nonce msgType payload
  have hType :
      ((UInt8.ofNat msgType.toNat).toNat : Int) = msgType := by
    rw [UInt8.toNat_ofNat']
    omega
  unfold openBody
  rw [if_neg (by omega)]
  simp only [frameBody, ← nonce.length_eq, List.take_left,
    List.drop_left, hLawful.decrypt_encrypt, hType]

/- A sealed message is one the reader takes. -/
theorem sealFrame_ok
    (hLawful : aead.Lawful)
    {nonce : Nonce}
    {msgType : Int}
    {payload frame : Bytes}
    (hSeal :
      sealFrame aead key nonce msgType payload = .ok frame) :
    ∃ body, frame = pack body.length ++ body ∧
      body.length < 2 ^ 32 ∧ ¬ RefusesLength body.length ∧
        openBody aead key body = .ok (msgType, payload) := by
  unfold sealFrame at hSeal
  split at hSeal
  · cases hSeal
  · rename_i hByte
    simp only at hSeal
    split at hSeal
    · cases hSeal
    · rename_i hFits
      cases hSeal
      have hLength :=
        length_frameBody hLawful key nonce msgType payload
      have hSmall : maxFrame < 2 ^ 32 := by decide
      refine ⟨_, rfl, by omega, ?_, ?_⟩
      · unfold RefusesLength
        omega
      · exact
          openBody_frameBody hLawful nonce (not_not.mp hByte)
            payload

/- A complete frame is read, whatever comes after it. -/
theorem readFrameKeyed_of_frame
    (hLawful : aead.Lawful)
    {nonce : Nonce}
    {msgType : Int}
    {payload frame rest : Bytes}
    (hSeal :
      sealFrame aead key nonce msgType payload = .ok frame)
    {sock : Socket}
    (hBytes : sock.bytes = frame ++ rest) :
    ∃ sock',
      readFrameKeyed aead key sock =
          .ok ((msgType, payload), sock') ∧
        sock'.bytes = rest := by
  rcases sealFrame_ok hLawful hSeal with
    ⟨body, rfl, hLt, hTakes, hOpen⟩
  rw [List.append_assoc] at hBytes
  have hHead : 4 ≤ sock.bytes.length := by
    rw [hBytes, List.length_append, length_pack]
    omega
  rcases recvExact_of_le hHead with ⟨sock₁, hRead₁, hLeft₁⟩
  rw [hBytes] at hRead₁ hLeft₁
  rw [List.take_left' (length_pack _)] at hRead₁
  rw [List.drop_left' (length_pack _)] at hLeft₁
  have hBody : body.length ≤ sock₁.bytes.length := by
    rw [hLeft₁, List.length_append]
    omega
  rcases recvExact_of_le hBody with ⟨sock₂, hRead₂, hLeft₂⟩
  rw [hLeft₁, List.take_left] at hRead₂
  rw [hLeft₁, List.drop_left] at hLeft₂
  refine ⟨sock₂, ?_, hLeft₂⟩
  simp only [readFrameKeyed, hRead₁, unpack_pack hLt, hTakes,
    if_false, hRead₂, hOpen, Except.map]

/- A frame that was cut is not. -/
theorem readFrameKeyed_of_cut
    (hLawful : aead.Lawful)
    {nonce : Nonce}
    {msgType : Int}
    {payload frame : Bytes}
    (hSeal :
      sealFrame aead key nonce msgType payload = .ok frame)
    {sock : Socket}
    {cut : Nat}
    (hCut : cut < frame.length)
    (hBytes : sock.bytes = frame.take cut) :
    readFrameKeyed aead key sock = .error .closed := by
  rcases sealFrame_ok hLawful hSeal with
    ⟨body, rfl, hLt, hTakes, hOpen⟩
  rw [List.length_append, length_pack] at hCut
  by_cases hShort : cut < 4
  · have hFew : sock.bytes.length < 4 := by
      rw [hBytes, List.length_take]
      omega
    simp only [readFrameKeyed, recvExact_of_lt hFew]
  · have hHead : 4 ≤ sock.bytes.length := by
      rw [hBytes, List.length_take, List.length_append,
        length_pack]
      omega
    rcases recvExact_of_le hHead with ⟨sock₁, hRead₁, hLeft₁⟩
    rw [hBytes, List.take_take, Nat.min_eq_left (by omega),
      List.take_left' (length_pack _)] at hRead₁
    have hFew : sock₁.bytes.length < body.length := by
      rw [hLeft₁, hBytes, List.length_drop, List.length_take,
        List.length_append, length_pack]
      omega
    simp only [readFrameKeyed, hRead₁, unpack_pack hLt, hTakes,
      if_false, recvExact_of_lt hFew]

/- A closed socket raises. -/
theorem readFrameKeyed_of_nil
    {sock : Socket}
    (hBytes : sock.bytes = []) :
    readFrameKeyed aead key sock = .error .closed := by
  have hFew : sock.bytes.length < 4 := by
    rw [hBytes]
    decide
  simp only [readFrameKeyed, recvExact_of_lt hFew]

end Wire

end CircuitDllm

------------------------------------------------------------
-- Exact Framing
------------------------------------------------------------

namespace CircuitDllm

namespace Wire

/- How many frames end within the first `cut` bytes. -/
def complete : List Bytes → Nat → Nat
| [], _ => 0
| frame :: frames, cut =>
    if frame.length ≤ cut then
      complete frames (cut - frame.length) + 1
    else 0

theorem complete_whole (frames : List Bytes) :
    complete frames frames.flatten.length = frames.length := by
  induction frames with
  | nil => rfl
  | cons frame frames ih =>
      simp only [complete, List.flatten_cons,
        List.length_append, Nat.le_add_right, if_true,
        Nat.add_sub_cancel_left, ih, List.length_cons]

variable {Key : Type} (aead : Aead Key) (key : Key)

/- The message, under its nonce, is sealed into the frame. -/
def Seals (m : Nonce × Int × Bytes) (frame : Bytes) : Prop :=
  sealFrame aead key m.1 m.2.1 m.2.2 = .ok frame

/- What the wire promises of what was sealed. -/
structure Exact : Prop where
  /- the frames are read back -/
  whole :
    ∀ msgs frames, List.Forall₂ (Seals aead key) msgs frames →
      ∀ sock : Socket, sock.bytes = frames.flatten →
        readFrames aead key msgs.length sock =
          (msgs.map (·.2), none)
  /- those that are complete, and then the close is noticed -/
  cut :
    ∀ msgs frames, List.Forall₂ (Seals aead key) msgs frames →
      ∀ (sock : Socket) (cut : Nat),
        sock.bytes = frames.flatten.take cut →
          ∀ calls, complete frames cut < calls →
            readFrames aead key calls sock =
              ((msgs.map (·.2)).take (complete frames cut),
                some .closed)
  /- the writer and the reader have the same limits -/
  refuses :
    ∀ nonce msgType payload, 0 ≤ msgType ∧ msgType ≤ 255 →
      ((∃ e,
          sealFrame aead key nonce msgType payload =
            .error e) ↔
        RefusesLength
          (frameBody aead key nonce msgType payload).length)

variable {aead key}

/- However often it is called, the reader gets that far. -/
theorem readFrames_cut
    (hLawful : aead.Lawful)
    {msgs : List (Nonce × Int × Bytes)}
    {frames : List Bytes}
    (hSeals : List.Forall₂ (Seals aead key) msgs frames)
    {sock : Socket}
    {cut : Nat}
    (hBytes : sock.bytes = frames.flatten.take cut)
    (calls : Nat) :
    readFrames aead key calls sock =
      ((msgs.map (·.2)).take (min calls (complete frames cut)),
        if calls ≤ complete frames cut then none
        else some .closed) := by
  induction hSeals generalizing sock cut calls with
  | nil =>
      cases calls with
      | zero => rfl
      | succ calls =>
          rw [List.flatten_nil, List.take_nil] at hBytes
          simp [readFrames, readFrameKeyed_of_nil hBytes,
            complete]
  | @cons m frame msgs frames hSeal hRest ih =>
      cases calls with
      | zero => simp [readFrames]
      | succ calls =>
          rw [List.flatten_cons] at hBytes
          by_cases hWhole : frame.length ≤ cut
          · rw [List.take_append,
              List.take_of_length_le hWhole] at hBytes
            rcases readFrameKeyed_of_frame hLawful hSeal hBytes
              with ⟨sock', hRead, hLeft⟩
            have hNext := ih hLeft calls
            simp only [readFrames, hRead, hNext, complete,
              hWhole, if_true, List.map_cons]
            rw [Nat.add_min_add_right, List.take_succ_cons]
            simp only [Nat.add_le_add_iff_right]
          · have hCut : cut < frame.length := Nat.lt_of_not_le hWhole
            rw [List.take_append_of_le_length
              (Nat.le_of_lt hCut)] at hBytes
            have hRead :=
              readFrameKeyed_of_cut hLawful hSeal hCut hBytes
            simp [readFrames, hRead, complete, hWhole]

/-
  Whatever is sealed is read back exactly, up to where the
  stream is cut.
-/
theorem wire_exact
    (hLawful : aead.Lawful)
    (key : Key) :
    Exact aead key where
  whole msgs frames hSeals sock hBytes := by
    have hAll :
        sock.bytes =
          frames.flatten.take frames.flatten.length := by
      rw [hBytes, List.take_length]
    rw [readFrames_cut hLawful hSeals hAll, complete_whole,
      hSeals.length_eq, Nat.min_self, if_pos (Nat.le_refl _)]
    rw [← hSeals.length_eq, ← List.length_map (f := (·.2)),
      List.take_length]
  cut msgs frames hSeals sock cut hBytes calls hMore := by
    rw [readFrames_cut hLawful hSeals hBytes,
      Nat.min_eq_right (Nat.le_of_lt hMore),
      if_neg (Nat.not_le_of_lt hMore)]
  refuses nonce msgType payload hByte := by
    have hLength :=
      length_frameBody hLawful key nonce msgType payload
    unfold sealFrame RefusesLength
    rw [if_neg (not_not.mpr hByte)]
    simp only
    split
    · rename_i hLarge
      simp [hLarge]
    · rename_i hFits
      simp only [reduceCtorEq, exists_false, false_iff]
      omega

/- A cipher that hides nothing: the text and 16 zeros. -/
def plainAead : Aead Unit where
  encrypt _ _ text _ := text ++ List.replicate tagLen 0
  decrypt _ _ ct _ :=
    if ct.drop (ct.length - tagLen) = List.replicate tagLen 0
    then some (ct.take (ct.length - tagLen))
    else none

theorem plainAead_lawful : plainAead.Lawful where
  decrypt_encrypt key nonce text aad := by
    simp [plainAead]
  length_encrypt key nonce text aad := by
    simp [plainAead]

theorem wire_exact_plain : Exact plainAead () :=
  wire_exact plainAead_lawful ()

/-
  A type that does not fit its byte is refused, though the
  reader would take the length.
-/
theorem sealFrame_bigType :
    ¬ ∀ (nonce : Nonce) (msgType : Int) (payload : Bytes),
      ((∃ e,
          sealFrame plainAead () nonce msgType payload =
            .error e) ↔
        RefusesLength
          (frameBody plainAead () nonce msgType
            payload).length) := by
  intro hAll
  have hIff :=
    hAll ⟨List.replicate nonceLen 0, rfl⟩ 256 []
  exact absurd (hIff.mp ⟨.msgType, rfl⟩) (by decide)

end Wire

end CircuitDllm
