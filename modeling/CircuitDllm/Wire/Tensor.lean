import CircuitDllm.Wire.Fields

/-
  Tensors on the wire (engine/tensors.py).

  A tensor is its dtype, its shape and the bytes of its
  elements, which are as many as the shape wants.  The
  conversions of torch are a parameter.

  Main declarations:
    * `DType`, `Tensor`
    * `packTensor`, `unpackTensor`
    * `packActivation`, `packBatchActivation`,
      `packTreeActivation` and their inverses
    * `tensor_codecs`
-/

------------------------------------------------------------
-- Tensors
------------------------------------------------------------

namespace CircuitDllm

namespace Wire

/- torch dtypes; `other` has no code, elements of that width. -/
inductive DType where
  | float32
  | float16
  | bfloat16
  | int32
  | int64
  | uint8
  | other (width : Nat)
deriving DecidableEq, Repr

namespace DType

/- The bytes of one element. -/
def width : DType → Nat
| .float32 => 4
| .float16 => 2
| .bfloat16 => 2
| .int32 => 4
| .int64 => 8
| .uint8 => 1
| .other width => width

/- _DT_TO_CODE -/
def code : DType → Option UInt8
| .float32 => some 1
| .float16 => some 2
| .bfloat16 => some 3
| .int32 => some 4
| .int64 => some 5
| .uint8 => some 6
| .other _ => none

/- _CODE_TO_DT -/
def ofCode (code : UInt8) : Option DType :=
  if code = 1 then some .float32
  else if code = 2 then some .float16
  else if code = 3 then some .bfloat16
  else if code = 4 then some .int32
  else if code = 5 then some .int64
  else if code = 6 then some .uint8
  else none

end DType

/- The elements a shape has. -/
def numel (shape : List Nat) : Nat :=
  shape.foldl (fun numel d => numel * d) 1

structure Tensor where
  dtype : DType
  shape : List Nat
  /- the elements in order, little-endian -/
  bytes : Bytes
  length_eq : bytes.length = numel shape * dtype.width

/- What the codecs raise. -/
inductive TensorError where
  | unsupportedDtype (dtype : DType)
  | tooManyDimensions
  | bufferTooShort
  | unknownDtypeCode (code : Nat)
  | byteCount (got want : Nat)
  | activationTooShort
  | batchActivationTooShort
  | treeActivationTooShort
  /- struct.error: a number out of range, a field cut short -/
  | struct
  /- torch: a view that does not come out, an empty buffer -/
  | torch
deriving DecidableEq, Repr

end Wire

end CircuitDllm

------------------------------------------------------------
-- Packing a Tensor
------------------------------------------------------------

namespace CircuitDllm

namespace Wire

def packDims : List Nat → Except TensorError Bytes
| [] => .ok []
| d :: shape =>
    match packU32 .struct d with
    | .error e => .error e
    | .ok dim =>
      match packDims shape with
      | .error e => .error e
      | .ok dims => .ok (dim ++ dims)

/- Serialize a tensor to bytes. -/
def packTensor (t : Tensor) : Except TensorError Bytes :=
  match t.dtype.code with
  | none => .error (.unsupportedDtype t.dtype)
  | some code =>
    if 255 < t.shape.length then .error .tooManyDimensions
    else
      match packDims t.shape with
      | .error e => .error e
      | .ok dims =>
        -- a scalar is viewed as bytes only if it is one
        if t.shape = [] ∧ t.dtype.width ≠ 1 then
          .error .torch
        else
          .ok (code :: .ofNat t.shape.length :: dims ++ t.bytes)

/- The elements of a buffer, if they fill the shape. -/
def reshape
    (dtype : DType)
    (shape : List Nat)
    (raw : Bytes) :
    Except TensorError Tensor :=
  -- frombuffer wants a byte, view whole elements
  if hView : raw = [] ∨ raw.length % dtype.width ≠ 0 then
    .error .torch
  else if hCount : raw.length / dtype.width ≠ numel shape then
    .error (.byteCount (raw.length / dtype.width) (numel shape))
  else
    .ok
      { dtype := dtype
        shape := shape
        bytes := raw
        length_eq := by
          have hWhole := (not_or.mp hView).2
          rw [← not_ne_iff.mp hCount]
          exact
            (Nat.div_mul_cancel
              (Nat.dvd_of_mod_eq_zero (not_ne_iff.mp hWhole))).symm }

/- Inverse of pack_tensor. -/
def unpackTensor : Bytes → Except TensorError Tensor
| [] => .error .bufferTooShort
| [_] => .error .bufferTooShort
| code :: ndim :: buf =>
    match DType.ofCode code with
    | none => .error (.unknownDtypeCode code.toNat)
    | some dtype =>
      match (u32 .struct).times ndim.toNat buf with
      | .error e => .error e
      | .ok (shape, raw) => reshape dtype shape raw

/- One to 255 dimensions and an element. -/
structure Tensor.Sized (t : Tensor) : Prop where
  one_le : 1 ≤ t.shape.length
  le_max : t.shape.length ≤ 255
  numel_pos : 0 < numel t.shape

/- A tensor pack_tensor has a byte string for. -/
structure Tensor.Packable (t : Tensor) : Prop
    extends t.Sized where
  registered : t.dtype.code ≠ none
  dims_lt : ∀ d ∈ t.shape, d < 2 ^ 32

end Wire

end CircuitDllm

------------------------------------------------------------
-- Tensors Survive Their Bytes
------------------------------------------------------------

namespace CircuitDllm

namespace Wire

theorem DType.ofCode_eq_some
    {code : UInt8}
    {dtype : DType} :
    ofCode code = some dtype ↔ dtype.code = some code := by
  refine ⟨?_, ?_⟩
  · intro hCode
    unfold ofCode at hCode
    split_ifs at hCode <;> cases hCode <;> simp [DType.code, *]
  · intro hCode
    cases dtype <;> cases hCode <;> rfl

theorem DType.width_pos
    {dtype : DType}
    (hCode : dtype.code ≠ none) :
    0 < dtype.width := by
  cases dtype with
  | other width => exact absurd rfl hCode
  | _ => decide

theorem packDims_of_lt
    {shape : List Nat}
    (hLt : ∀ d ∈ shape, d < 2 ^ 32) :
    packDims shape = .ok (shape.flatMap pack) := by
  induction shape with
  | nil => rfl
  | cons d shape ih =>
      rcases List.forall_mem_cons.mp hLt with ⟨hD, hShape⟩
      rw [packDims, packU32_of_lt _ hD]
      simp only [ih hShape]
      rfl

/- A dimension that has no four bytes stops the packing. -/
theorem packDims_error
    {shape : List Nat}
    {d : Nat}
    (hMem : d ∈ shape)
    (hLarge : 2 ^ 32 ≤ d) :
    packDims shape = .error .struct := by
  induction shape with
  | nil => cases hMem
  | cons first shape ih =>
      rw [packDims, packU32]
      by_cases hFirst : first < 2 ^ 32
      · have hRest : d ∈ shape := by
          rcases List.mem_cons.mp hMem with rfl | hRest
          · omega
          · exact hRest
        simp only [hFirst, if_true, ih hRest]
      · simp only [hFirst, if_false]

/- The bytes of a tensor with a code. -/
def tensorBytes (t : Tensor) : Bytes :=
  t.dtype.code.getD 0 :: .ofNat t.shape.length ::
    (t.shape.flatMap pack ++ t.bytes)

theorem packTensor_ok
    {t : Tensor}
    (hPack : t.Packable) :
    packTensor t = .ok (tensorBytes t) := by
  rcases Option.ne_none_iff_exists'.mp hPack.registered with
    ⟨code, hCode⟩
  have hShape : t.shape ≠ [] :=
    List.length_pos_iff.mp hPack.one_le
  have hMax : ¬ 255 < t.shape.length :=
    Nat.not_lt.mpr hPack.le_max
  rw [packTensor, hCode]
  simp only [hMax, if_false, packDims_of_lt hPack.dims_lt,
    hShape, false_and]
  rw [tensorBytes, hCode]
  rfl

theorem Tensor.Packable.bytes_ne_nil
    {t : Tensor}
    (hPack : t.Packable) :
    t.bytes ≠ [] := by
  have hWidth := DType.width_pos hPack.registered
  have hCount := Nat.mul_pos hPack.numel_pos hWidth
  rw [← t.length_eq] at hCount
  exact List.length_pos_iff.mp hCount

/- The elements of a tensor fill its shape. -/
theorem reshape_self
    {t : Tensor}
    (hPack : t.Packable) :
    reshape t.dtype t.shape t.bytes = .ok t := by
  have hWidth := DType.width_pos hPack.registered
  have hView : ¬ (t.bytes = [] ∨
      t.bytes.length % t.dtype.width ≠ 0) := by
    rw [t.length_eq, Nat.mul_mod_left]
    simp [hPack.bytes_ne_nil]
  have hCount : ¬ t.bytes.length / t.dtype.width ≠
      numel t.shape := by
    rw [t.length_eq, Nat.mul_div_cancel _ hWidth]
    exact not_not_intro rfl
  rw [reshape, dif_neg hView, dif_neg hCount]

theorem unpackTensor_tensorBytes
    {t : Tensor}
    (hPack : t.Packable) :
    unpackTensor (tensorBytes t) = .ok t := by
  rcases Option.ne_none_iff_exists'.mp hPack.registered with
    ⟨code, hCode⟩
  have hNdim : (UInt8.ofNat t.shape.length).toNat =
      t.shape.length := by
    have hMax := hPack.le_max
    rw [UInt8.toNat_ofNat']
    omega
  have hDims :=
    (reads_u32 TensorError.struct).times hPack.dims_lt t.bytes
  rw [tensorBytes, hCode, Option.getD_some, unpackTensor]
  simp only [DType.ofCode_eq_some.mpr hCode, hNdim, hDims]
  exact reshape_self hPack

theorem reshape_ok
    {dtype : DType}
    {shape : List Nat}
    {raw : Bytes}
    {t : Tensor}
    (hOk : reshape dtype shape raw = .ok t) :
    t.dtype = dtype ∧ t.shape = shape ∧ t.bytes = raw ∧
      raw ≠ [] := by
  rw [reshape] at hOk
  split at hOk
  · cases hOk
  · rename_i hView
    split at hOk
    · cases hOk
    · cases hOk
      exact ⟨rfl, rfl, rfl, (not_or.mp hView).1⟩

/- Where there are bytes there is an element. -/
theorem Tensor.numel_pos
    {t : Tensor}
    (hBytes : t.bytes ≠ []) :
    0 < numel t.shape := by
  have hLength := List.length_pos_iff.mpr hBytes
  rw [t.length_eq] at hLength
  exact Nat.pos_of_mul_pos_right hLength

/- What is accepted has the bytes of its tensor. -/
theorem unpackTensor_exact
    {buf : Bytes}
    {t : Tensor}
    (hUnpack : unpackTensor buf = .ok t)
    (hShape : t.shape ≠ []) :
    t.Packable ∧ buf = tensorBytes t := by
  unfold unpackTensor at hUnpack
  split at hUnpack
  · cases hUnpack
  · cases hUnpack
  · rename_i code ndim buf
    split at hUnpack
    · cases hUnpack
    · rename_i dtype hCode
      split at hUnpack
      · cases hUnpack
      · rename_i shape raw hDims
        rcases reshape_ok hUnpack with
          ⟨rfl, rfl, rfl, hBytes⟩
        rcases (exact_u32 TensorError.struct).times hDims with
          ⟨hLength, hLt, hBuf⟩
        have hDtype := DType.ofCode_eq_some.mp hCode
        have hNdim := ndim.toNat_lt
        refine ⟨⟨⟨?_, ?_, ?_⟩, ?_, hLt⟩, ?_⟩
        · exact List.length_pos_iff.mpr hShape
        · omega
        · exact t.numel_pos hBytes
        · rw [hDtype]
          exact Option.some_ne_none code
        · rw [tensorBytes, hDtype, hBuf, hLength,
            UInt8.ofNat_toNat]
          rfl

end Wire

end CircuitDllm

------------------------------------------------------------
-- Activations
------------------------------------------------------------

namespace CircuitDllm

namespace Wire

/- struct.pack(">IIB", a & 0xFFFFFFFF, b & 0xFFFFFFFF, flags) -/
def packHeader
    (session position flags : Int) :
    Except TensorError Bytes :=
  if 0 ≤ flags ∧ flags ≤ 255 then
    .ok
      (pack (mask32 session) ++ pack (mask32 position) ++
        [.ofNat flags.toNat])
  else .error .struct

/- struct.unpack(">IIB", payload[:9]), and what follows -/
def unpackHeader (short : TensorError) :
    Parser TensorError UInt8 (Nat × Nat × Nat) :=
  fun payload =>
    match Parser.exactly short 9 payload with
    | .error e => .error e
    | .ok (head, rest) =>
      .ok
        ((unpack (head.take 4), unpack ((head.drop 4).take 4),
          unpack (head.drop 8)), rest)

/- An unpacked payload: ids, position, flags and tensors. -/
structure Activation (A : Type) where
  session : Nat
  position : Nat
  flags : Nat
  tensors : A

def packActivation
    (session position : Int)
    (hidden : Tensor)
    (flags : Int) :
    Except TensorError Bytes :=
  match packHeader session position flags with
  | .error e => .error e
  | .ok head =>
    match packTensor hidden with
    | .error e => .error e
    | .ok body => .ok (head ++ body)

def unpackActivation (payload : Bytes) :
    Except TensorError (Activation Tensor) :=
  match unpackHeader .activationTooShort payload with
  | .error e => .error e
  | .ok ((session, position, flags), rest) =>
    match unpackTensor rest with
    | .error e => .error e
    | .ok hidden => .ok ⟨session, position, flags, hidden⟩

/- t.to(dtype) of torch -/
abbrev Conversion := DType → Tensor → Tensor

/- What the codecs rely on. -/
structure Conversion.Lawful (convert : Conversion) : Prop where
  dtype : ∀ d t, (convert d t).dtype = d
  shape : ∀ d t, (convert d t).shape = t.shape

/- struct.pack(">I", len(p)) + p for each part -/
def joinParts : List Bytes → Except TensorError Bytes
| [] => .ok []
| p :: parts =>
    match packU32 .struct p.length with
    | .error e => .error e
    | .ok length =>
      match joinParts parts with
      | .error e => .error e
      | .ok body => .ok (length ++ p ++ body)

/- The payload of three tensors, each after its length. -/
def packThree
    (session position : Int)
    (hidden second third : Tensor)
    (flags : Int) :
    Except TensorError Bytes := do
  let hidden ← packTensor hidden
  let second ← packTensor second
  let third ← packTensor third
  let body ← joinParts [hidden, second, third]
  let head ← packHeader session position flags
  return head ++ body

/- A length and the tensor in that many bytes. -/
def sizedTensor : Parser TensorError UInt8 Tensor :=
  fun buf =>
    match u32 .struct buf with
    | .error e => .error e
    | .ok (n, buf) =>
      match unpackTensor (buf.take n) with
      | .error e => .error e
      | .ok t => .ok (t, buf.drop n)

def unpackThree
    (short : TensorError)
    (payload : Bytes) :
    Except TensorError
      (Activation (Tensor × Tensor × Tensor)) :=
  match unpackHeader short payload with
  | .error e => .error e
  | .ok ((session, position, flags), rest) =>
    match sizedTensor.times 3 rest with
    | .ok ([hidden, second, third], _) =>
      .ok ⟨session, position, flags, hidden, second, third⟩
    -- three were asked for
    | .ok _ => .error short
    | .error e => .error e

variable (convert : Conversion)

def packBatchActivation
    (batchId position : Int)
    (hidden positionIds attentionMask : Tensor)
    (flags : Int) :
    Except TensorError Bytes :=
  packThree batchId position hidden
    (convert .int32 positionIds)
    (convert .uint8 attentionMask) flags

def unpackBatchActivation (payload : Bytes) :
    Except TensorError
      (Activation (Tensor × Tensor × Tensor)) :=
  unpackThree .batchActivationTooShort payload

def packTreeActivation
    (session pos : Int)
    (hidden treePositions treeParents : Tensor)
    (flags : Int) :
    Except TensorError Bytes :=
  packThree session pos hidden
    (convert .int32 treePositions)
    (convert .int32 treeParents) flags

def unpackTreeActivation (payload : Bytes) :
    Except TensorError
      (Activation (Tensor × Tensor × Tensor)) :=
  unpackThree .treeActivationTooShort payload

end Wire

end CircuitDllm

------------------------------------------------------------
-- Activations Survive Their Bytes
------------------------------------------------------------

namespace CircuitDllm

namespace Wire

theorem unpackHeader_packHeader
    (short : TensorError)
    (session position : Int)
    (flags : UInt8) :
    ∃ head, packHeader session position flags.toNat = .ok head ∧
      ∀ rest, unpackHeader short (head ++ rest) =
        .ok
          ((mask32 session, mask32 position, flags.toNat),
            rest) := by
  have hFlags := flags.toNat_lt
  have hByte :
      UInt8.ofNat ((flags.toNat : Int).toNat) = flags := by
    rw [Int.toNat_natCast, UInt8.ofNat_toNat]
  refine ⟨_, if_pos ⟨by omega, by omega⟩, ?_⟩
  intro rest
  rw [hByte]
  have hHead := Parser.reads_exactly short 9
    (pack (mask32 session) ++ pack (mask32 position) ++
      [flags]) rfl rest
  rw [id] at hHead
  simp only [unpackHeader, hHead]
  have hSession := unpack_pack (mask32_lt session)
  have hPosition := unpack_pack (mask32_lt position)
  have hFlag : unpack [flags] = flags.toNat := by
    simp [unpack]
  rw [List.append_assoc, List.take_left' (length_pack _),
    List.drop_left' (length_pack _),
    List.take_left' (length_pack _), hSession, hPosition]
  have hLast :
      (pack (mask32 session) ++
        (pack (mask32 position) ++ [flags])).drop 8 =
          [flags] := rfl
  rw [hLast, hFlag]

theorem unpackActivation_packActivation
    (session position : Int)
    (flags : UInt8)
    {hidden : Tensor}
    (hPack : hidden.Packable) :
    ∃ payload,
      packActivation session position hidden flags.toNat =
          .ok payload ∧
        unpackActivation payload =
          .ok
            ⟨mask32 session, mask32 position, flags.toNat,
              hidden⟩ := by
  rcases unpackHeader_packHeader .activationTooShort session
      position flags with ⟨head, hHead, hRead⟩
  refine ⟨head ++ tensorBytes hidden, ?_, ?_⟩
  · simp only [packActivation, hHead, packTensor_ok hPack]
  · simp only [unpackActivation, hRead,
      unpackTensor_tensorBytes hPack]

/- How many bytes a packed tensor has. -/
def packedLength (t : Tensor) : Nat :=
  2 + 4 * t.shape.length + t.bytes.length

theorem length_tensorBytes (t : Tensor) :
    (tensorBytes t).length = packedLength t := by
  have hDims :
      (t.shape.flatMap pack).length = 4 * t.shape.length := by
    induction t.shape with
    | nil => rfl
    | cons d shape ih =>
        rw [List.flatMap_cons, List.length_append, ih,
          length_pack, List.length_cons]
        omega
  simp only [tensorBytes, packedLength, List.length_cons,
    List.length_append, hDims]
  omega

/- A tensor after its length. -/
def sizedBytes (t : Tensor) : Bytes :=
  pack (tensorBytes t).length ++ tensorBytes t

theorem reads_sizedTensor :
    Parser.Reads sizedTensor sizedBytes
      (fun t => t.Packable ∧ packedLength t < 2 ^ 32) := by
  rintro t ⟨hPack, hLength⟩ rest
  rw [← length_tensorBytes] at hLength
  have hSize := reads_u32 TensorError.struct _ hLength
    (tensorBytes t ++ rest)
  rw [sizedBytes, List.append_assoc]
  simp only [sizedTensor, hSize, List.take_left,
    List.drop_left, unpackTensor_tensorBytes hPack]

theorem joinParts_of_lt
    {parts : List Bytes}
    (hLt : ∀ p ∈ parts, p.length < 2 ^ 32) :
    joinParts parts =
      .ok (parts.flatMap (fun p => pack p.length ++ p)) := by
  induction parts with
  | nil => rfl
  | cons p parts ih =>
      rcases List.forall_mem_cons.mp hLt with ⟨hP, hParts⟩
      rw [joinParts, packU32_of_lt _ hP]
      simp only [ih hParts]
      rfl

/- Three tensors in front of each other stay apart. -/
theorem unpackThree_packThree
    (short : TensorError)
    (session position : Int)
    (flags : UInt8)
    {hidden second third : Tensor}
    (hHidden : hidden.Packable ∧ packedLength hidden < 2 ^ 32)
    (hSecond : second.Packable ∧ packedLength second < 2 ^ 32)
    (hThird : third.Packable ∧ packedLength third < 2 ^ 32) :
    ∃ payload,
      packThree session position hidden second third
          flags.toNat = .ok payload ∧
        unpackThree short payload =
          .ok
            ⟨mask32 session, mask32 position, flags.toNat,
              hidden, second, third⟩ := by
  rcases unpackHeader_packHeader short session position flags
    with ⟨head, hHead, hRead⟩
  have hValid : ∀ t ∈ [hidden, second, third],
      t.Packable ∧ packedLength t < 2 ^ 32 := by
    simp only [List.forall_mem_cons]
    exact ⟨hHidden, hSecond, hThird, by simp⟩
  have hBody :
      joinParts
          [tensorBytes hidden, tensorBytes second,
            tensorBytes third] =
        .ok ([hidden, second, third].flatMap sizedBytes) := by
    rw [joinParts_of_lt]
    · rfl
    · intro p hMem
      have hMem' : p ∈ [hidden, second, third].map
          tensorBytes := hMem
      rcases List.mem_map.mp hMem' with ⟨t, hT, rfl⟩
      rw [length_tensorBytes]
      exact (hValid t hT).2
  have hTensors := reads_sizedTensor.times hValid []
  rw [List.append_nil] at hTensors
  refine ⟨head ++ [hidden, second, third].flatMap sizedBytes,
    ?_, ?_⟩
  · simp only [packThree, packTensor_ok hHidden.1,
      packTensor_ok hSecond.1, packTensor_ok hThird.1, hBody,
      hHead, bind, Except.bind, pure, Except.pure]
  · have hThree :
        sizedTensor.times 3
            ([hidden, second, third].flatMap sizedBytes) =
          .ok ([hidden, second, third], []) := hTensors
    simp only [unpackThree, hRead, hThree]

/- A number of elements is no smaller than a dimension. -/
theorem le_numel
    {shape : List Nat}
    (hPos : 0 < numel shape)
    {d : Nat}
    (hMem : d ∈ shape) :
    d ≤ numel shape := by
  have hFold : ∀ (ds : List Nat) (k : Nat),
      ds.foldl (fun n d => n * d) k =
        k * ds.foldl (fun n d => n * d) 1 := by
    intro ds
    induction ds with
    | nil => simp
    | cons e ds ih =>
        intro k
        rw [List.foldl_cons, List.foldl_cons, ih (k * e),
          ih (1 * e), Nat.one_mul, Nat.mul_assoc]
  induction shape with
  | nil => cases hMem
  | cons e shape ih =>
      have hSplit : numel (e :: shape) = e * numel shape := by
        rw [numel, List.foldl_cons, Nat.one_mul, hFold]
        rfl
      rw [hSplit] at hPos ⊢
      have hE := Nat.pos_of_mul_pos_right hPos
      have hShape := Nat.pos_of_mul_pos_left hPos
      rcases List.mem_cons.mp hMem with rfl | hIn
      · exact Nat.le_mul_of_pos_right d hShape
      · exact Nat.le_trans (ih hShape hIn)
          (Nat.le_mul_of_pos_left _ hE)

/- A packed length in range leaves the dimensions in range. -/
theorem Tensor.Sized.packable
    {t : Tensor}
    (hSized : t.Sized)
    (hCode : t.dtype.code ≠ none)
    (hLength : packedLength t < 2 ^ 32) :
    t.Packable where
  toSized := hSized
  registered := hCode
  dims_lt d hMem := by
    have hLe := le_numel hSized.numel_pos hMem
    have hWidth := DType.width_pos hCode
    have hBytes : numel t.shape ≤ t.bytes.length := by
      rw [t.length_eq]
      exact Nat.le_mul_of_pos_right _ hWidth
    rw [packedLength] at hLength
    omega

variable {convert : Conversion}

/- A converted tensor has the shape it had. -/
theorem Conversion.Lawful.packable
    (hLawful : convert.Lawful)
    {d : DType}
    (hCode : d.code ≠ none)
    {t : Tensor}
    (hSized : t.Sized)
    (hLength : packedLength (convert d t) < 2 ^ 32) :
    (convert d t).Packable ∧
      packedLength (convert d t) < 2 ^ 32 := by
  have hShape := hLawful.shape d t
  refine ⟨Tensor.Sized.packable ?_ ?_ hLength, hLength⟩
  · refine ⟨?_, ?_, ?_⟩
    · rw [hShape]
      exact hSized.one_le
    · rw [hShape]
      exact hSized.le_max
    · rw [hShape]
      exact hSized.numel_pos
  · rw [hLawful.dtype]
    exact hCode

/-
  The codecs give back what they were given, and nothing
  else is accepted as a tensor with a dimension.
-/
theorem tensor_codecs
    (hLawful : convert.Lawful) :
    (∀ t : Tensor, t.Packable →
      ∃ buf, packTensor t = .ok buf ∧
        unpackTensor buf = .ok t) ∧
    (∀ buf t, unpackTensor buf = .ok t → t.shape ≠ [] →
      packTensor t = .ok buf) ∧
    (∀ (session position : Int) (flags : UInt8)
        (hidden : Tensor), hidden.Packable →
      ∃ payload,
        packActivation session position hidden flags.toNat =
            .ok payload ∧
          unpackActivation payload =
            .ok
              ⟨mask32 session, mask32 position, flags.toNat,
                hidden⟩) ∧
    (∀ (batchId position : Int) (flags : UInt8)
        (hidden positionIds attentionMask : Tensor),
      hidden.dtype.code ≠ none ∧ hidden.Sized ∧
          packedLength hidden < 2 ^ 32 →
        positionIds.Sized ∧
            packedLength (convert .int32 positionIds) <
              2 ^ 32 →
          attentionMask.Sized ∧
              packedLength (convert .uint8 attentionMask) <
                2 ^ 32 →
            ∃ payload,
              packBatchActivation convert batchId position
                  hidden positionIds attentionMask
                  flags.toNat = .ok payload ∧
                unpackBatchActivation payload =
                  .ok
                    ⟨mask32 batchId, mask32 position,
                      flags.toNat, hidden,
                      convert .int32 positionIds,
                      convert .uint8 attentionMask⟩) ∧
    (∀ (session pos : Int) (flags : UInt8)
        (hidden treePositions treeParents : Tensor),
      hidden.dtype.code ≠ none ∧ hidden.Sized ∧
          packedLength hidden < 2 ^ 32 →
        treePositions.Sized ∧
            packedLength (convert .int32 treePositions) <
              2 ^ 32 →
          treeParents.Sized ∧
              packedLength (convert .int32 treeParents) <
                2 ^ 32 →
            ∃ payload,
              packTreeActivation convert session pos hidden
                  treePositions treeParents flags.toNat =
                  .ok payload ∧
                unpackTreeActivation payload =
                  .ok
                    ⟨mask32 session, mask32 pos, flags.toNat,
                      hidden, convert .int32 treePositions,
                      convert .int32 treeParents⟩) := by
  refine ⟨?_, ?_, ?_, ?_, ?_⟩
  · intro t hPack
    exact ⟨tensorBytes t, packTensor_ok hPack,
      unpackTensor_tensorBytes hPack⟩
  · intro buf t hUnpack hShape
    rcases unpackTensor_exact hUnpack hShape with
      ⟨hPack, rfl⟩
    exact packTensor_ok hPack
  · intro session position flags hidden hPack
    exact
      unpackActivation_packActivation session position flags
        hPack
  · rintro batchId position flags hidden positionIds
      attentionMask ⟨hCode, hHidden, hLength⟩ hIds hMask
    apply unpackThree_packThree
    · exact ⟨hHidden.packable hCode hLength, hLength⟩
    · exact hLawful.packable (by decide) hIds.1 hIds.2
    · exact hLawful.packable (by decide) hMask.1 hMask.2
  · rintro session pos flags hidden treePositions treeParents
      ⟨hCode, hHidden, hLength⟩ hPositions hParents
    apply unpackThree_packThree
    · exact ⟨hHidden.packable hCode hLength, hLength⟩
    · exact
        hLawful.packable (by decide) hPositions.1 hPositions.2
    · exact hLawful.packable (by decide) hParents.1 hParents.2

/- Zeros of a dtype and a shape. -/
def zeros (dtype : DType) (shape : List Nat) : Tensor where
  dtype := dtype
  shape := shape
  bytes := List.replicate (numel shape * dtype.width) 0
  length_eq := List.length_replicate

/- A tensor of the dtype is returned as it is. -/
def toZeros : Conversion :=
  fun d t => if t.dtype = d then t else zeros d t.shape

theorem lawful_toZeros : toZeros.Lawful where
  dtype d t := by
    unfold toZeros
    split
    · assumption
    · rfl
  shape d t := by
    unfold toZeros
    split
    · rfl
    · rfl

/- Two rows of one token each. -/
theorem tensor_codecs_batch :
    ∃ payload,
      packBatchActivation toZeros 7 (-1)
          (zeros .bfloat16 [2, 1, 4]) (zeros .int32 [2, 1])
          (zeros .uint8 [2, 3]) 1 = .ok payload ∧
        unpackBatchActivation payload =
          .ok
            ⟨7, 2 ^ 32 - 1, 1, zeros .bfloat16 [2, 1, 4],
              zeros .int32 [2, 1], zeros .uint8 [2, 3]⟩ := by
  refine (tensor_codecs lawful_toZeros).2.2.2.1 7 (-1) 1 _ _ _
    ⟨by decide, ⟨by decide, by decide, by decide⟩, by decide⟩
    ⟨⟨by decide, by decide, by decide⟩, by decide⟩
    ⟨⟨by decide, by decide, by decide⟩, by decide⟩

/- One dimension of 2^32 bytes has no four bytes. -/
theorem exists_not_packed :
    ¬ ∀ t : Tensor,
      t.dtype.code ≠ none → 1 ≤ t.shape.length →
        t.shape.length ≤ 255 → 0 < numel t.shape →
          ∃ buf, packTensor t = .ok buf ∧
            unpackTensor buf = .ok t := by
  intro hAll
  rcases hAll (zeros .uint8 [2 ^ 32]) (by decide) (by decide)
      (by decide) (by decide) with ⟨buf, hPack, -⟩
  have hDims : packDims (zeros .uint8 [2 ^ 32]).shape =
      .error .struct :=
    packDims_error List.mem_cons_self (Nat.le_refl _)
  have hCode : (zeros .uint8 [2 ^ 32]).dtype.code = some 6 :=
    rfl
  have hFew : ¬ 255 < (zeros .uint8 [2 ^ 32]).shape.length := by
    decide
  simp only [packTensor, hCode, hFew, if_false, hDims,
    reduceCtorEq] at hPack

end Wire

end CircuitDllm
