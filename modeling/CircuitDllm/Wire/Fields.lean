import CircuitDllm.Lib.Codec
import CircuitDllm.Wire.Frame
import Mathlib.Algebra.Order.Ring.Int

/-
  Fixed-width big-endian fields, as struct packs them.

  Main declarations:
    * `Wire.packU32`, `Wire.u32`
    * `Wire.pack16`, `Wire.u16`
    * `Wire.mask32`
-/

------------------------------------------------------------
-- Bytes of a Number
------------------------------------------------------------

namespace CircuitDllm

namespace Wire

/- struct.pack(">H", n) of a number in range -/
def pack16 (n : Nat) : Bytes :=
  [.ofNat (n / 2 ^ 8), .ofNat n]

/- n & 0xFFFFFFFF -/
def mask32 (n : Int) : Nat :=
  (n % 2 ^ 32).toNat

theorem mask32_lt (n : Int) : mask32 n < 2 ^ 32 := by
  unfold mask32
  omega

theorem mask32_of_lt
    {n : Nat}
    (hLt : n < 2 ^ 32) :
    mask32 n = n := by
  unfold mask32
  omega

theorem unpack_pack16
    {n : Nat}
    (hLt : n < 2 ^ 16) :
    unpack (pack16 n) = n := by
  simp only [unpack, pack16, List.foldl_cons, List.foldl_nil,
    UInt8.toNat_ofNat']
  omega

@[simp] theorem length_pack16 (n : Nat) :
    (pack16 n).length = 2 := rfl

/- Every four bytes are a number's. -/
theorem pack_unpack
    {bs : Bytes}
    (hLength : bs.length = 4) :
    unpack bs < 2 ^ 32 ∧ pack (unpack bs) = bs := by
  match bs, hLength with
  | [a, b, c, d], _ =>
    have hA := a.toNat_lt
    have hB := b.toNat_lt
    have hC := c.toNat_lt
    have hD := d.toNat_lt
    simp only [unpack, pack, List.foldl_cons, List.foldl_nil,
      List.cons.injEq, and_true, ← UInt8.toNat_inj,
      UInt8.toNat_ofNat']
    omega

theorem pack16_unpack
    {bs : Bytes}
    (hLength : bs.length = 2) :
    unpack bs < 2 ^ 16 ∧ pack16 (unpack bs) = bs := by
  match bs, hLength with
  | [a, b], _ =>
    have hA := a.toNat_lt
    have hB := b.toNat_lt
    simp only [unpack, pack16, List.foldl_cons,
      List.foldl_nil, List.cons.injEq, and_true,
      ← UInt8.toNat_inj, UInt8.toNat_ofNat']
    omega

end Wire

end CircuitDllm

------------------------------------------------------------
-- Fields
------------------------------------------------------------

namespace CircuitDllm

namespace Wire

variable {E : Type} (e : E)

/- struct.pack(">I", n), which raises out of range -/
def packU32 (n : Nat) : Except E Bytes :=
  if n < 2 ^ 32 then .ok (pack n) else .error e

/- struct.unpack(">I", buf[off:off + 4]) -/
def u32 : Parser E UInt8 Nat :=
  fun buf =>
    match Parser.exactly e 4 buf with
    | .error e => .error e
    | .ok (field, buf) => .ok (unpack field, buf)

/- struct.unpack(">H", buf[off:off + 2]) -/
def u16 : Parser E UInt8 Nat :=
  fun buf =>
    match Parser.exactly e 2 buf with
    | .error e => .error e
    | .ok (field, buf) => .ok (unpack field, buf)

theorem packU32_of_lt
    {n : Nat}
    (hLt : n < 2 ^ 32) :
    packU32 e n = .ok (pack n) :=
  if_pos hLt

/- A fixed-width number is read exactly. -/
theorem reads_u32 :
    Parser.Reads (u32 e) pack (fun n => n < 2 ^ 32) := by
  intro n hLt rest
  have hField := Parser.reads_exactly e 4 (pack n) rfl rest
  rw [id] at hField
  simp only [u32, hField, unpack_pack hLt]

theorem exact_u32 :
    Parser.Exact (u32 e) pack (fun n => n < 2 ^ 32) := by
  intro bs n rest hParse
  rw [u32] at hParse
  split at hParse
  · cases hParse
  · rename_i field left hField
    cases hParse
    rcases Parser.exact_exactly e 4 bs field rest hField with
      ⟨hLength, hBytes⟩
    rcases pack_unpack hLength with ⟨hLt, hPack⟩
    refine ⟨hLt, ?_⟩
    rw [hPack]
    exact hBytes

theorem reads_u16 :
    Parser.Reads (u16 e) pack16 (fun n => n < 2 ^ 16) := by
  intro n hLt rest
  have hField := Parser.reads_exactly e 2 (pack16 n) rfl rest
  rw [id] at hField
  simp only [u16, hField, unpack_pack16 hLt]

theorem exact_u16 :
    Parser.Exact (u16 e) pack16 (fun n => n < 2 ^ 16) := by
  intro bs n rest hParse
  rw [u16] at hParse
  split at hParse
  · cases hParse
  · rename_i field left hField
    cases hParse
    rcases Parser.exact_exactly e 2 bs field rest hField with
      ⟨hLength, hBytes⟩
    rcases pack16_unpack hLength with ⟨hLt, hPack⟩
    refine ⟨hLt, ?_⟩
    rw [hPack]
    exact hBytes

end Wire

end CircuitDllm
