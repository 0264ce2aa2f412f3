import CircuitDllm.Lib.PyJson

/-
  What json.dumps writes, json.loads reads.

  A lone surrogate and a key that comes twice are not read
  back, and a float is only if repr of it is.

  Main declarations:
    * `PyJson.Dicts`, `PyJson.scalars`
    * `FloatOps.Lawful`
    * `PyJson.loads_encodeWith`
    * `PyJson.dumpsWith_eq_ok`, `PyJson.loads_dumps`
    * `PyJson.loads_dicts`
    * `PyJson.Plain`, `PyJson.plain_encode`
-/

------------------------------------------------------------
-- Values
------------------------------------------------------------

namespace PyJson

variable {F : Type}

/- What holds of the parts of a value holds of it. -/
@[elab_as_elim]
theorem ind
    {P : PyJson F → Prop}
    (null : P .null)
    (bool : ∀ b, P (.bool b))
    (int : ∀ n, P (.int n))
    (float : ∀ x, P (.float x))
    (str : ∀ s, P (.str s))
    (arr : ∀ items, (∀ v ∈ items, P v) → P (.arr items))
    (obj :
      ∀ members, (∀ m ∈ members, P m.2) → P (.obj members))
    (v : PyJson F) :
    P v :=
  @PyJson.rec F P (fun items => ∀ v ∈ items, P v)
    (fun members => ∀ m ∈ members, P m.2)
    (fun m => P m.2)
    null bool int float str
    (fun items ih => arr items ih)
    (fun members ih => obj members ih)
    (fun _ hMem => absurd hMem List.not_mem_nil)
    (fun _ _ hHead hTail =>
      List.forall_mem_cons.mpr ⟨hHead, hTail⟩)
    (fun _ hMem => absurd hMem List.not_mem_nil)
    (fun _ _ hHead hTail =>
      List.forall_mem_cons.mpr ⟨hHead, hTail⟩)
    (fun _ _ hValue => hValue)
    v

/- Every dict of the value has each key once. -/
inductive Dicts : PyJson F → Prop
| null : Dicts .null
| bool {b : Bool} : Dicts (.bool b)
| int {n : Int} : Dicts (.int n)
| float {x : PyFloat F} : Dicts (.float x)
| str {s : List Nat} : Dicts (.str s)
| arr
    {items : List (PyJson F)}
    (hItems : ∀ v ∈ items, Dicts v) :
    Dicts (.arr items)
| obj
    {members : List (List Nat × PyJson F)}
    (hNodup : (members.map (·.1)).Nodup)
    (hMembers : ∀ m ∈ members, Dicts m.2) :
    Dicts (.obj members)

/- No lone surrogate stands in a string. -/
def scalarText (s : List Nat) : Bool :=
  s.all (fun n => decide n.isValidChar)

mutual

/- Every string of the value can be encoded. -/
def scalars : PyJson F → Bool
| .str s => scalarText s
| .arr items => scalarsItems items
| .obj members => scalarsMembers members
| _ => true

def scalarsItems : List (PyJson F) → Bool
| [] => true
| item :: items => scalars item && scalarsItems items

def scalarsMembers : List (List Nat × PyJson F) → Bool
| [] => true
| (key, value) :: members =>
    scalarText key && scalars value && scalarsMembers members

end

theorem scalars_arr {items : List (PyJson F)} :
    scalars (.arr items) = true ↔
      ∀ v ∈ items, scalars v = true := by
  rw [scalars]
  induction items with
  | nil => simp [scalarsItems]
  | cons item items ih =>
      rw [scalarsItems, Bool.and_eq_true, ih,
        List.forall_mem_cons]

theorem scalars_obj {members : List (List Nat × PyJson F)} :
    scalars (.obj members) = true ↔
      ∀ m ∈ members,
        scalarText m.1 = true ∧ scalars m.2 = true := by
  rw [scalars]
  induction members with
  | nil => simp [scalarsMembers]
  | cons m members ih =>
      rcases m with ⟨key, value⟩
      rw [scalarsMembers, Bool.and_eq_true, Bool.and_eq_true,
        ih, List.forall_mem_cons]

end PyJson

------------------------------------------------------------
-- Strings Are Read Back
------------------------------------------------------------

namespace PyJson

/-
  A character is written so that it is read back; it does
  not end the string.
-/
def Written (n : Nat) (text : List Char) : Prop :=
  ∃ c cs, text = c :: cs ∧ c ≠ '"' ∧
    ∀ rest, readChar c (cs ++ rest) = some (n, rest)

/- The two halves of a character beyond U+FFFF. -/
theorem readUnicode_pair
    {n : Nat}
    (hLarge : 65536 ≤ n)
    (hBound : n < 1114112)
    (rest : List Char) :
    readUnicode
        (Json.hex (55296 + (n - 65536) / 1024) ++
          '\\' :: 'u' ::
            (Json.hex (56320 + (n - 65536) % 1024) ++ rest)) =
      some (n, rest) := by
  have hHigh :
      55296 ≤ 55296 + (n - 65536) / 1024 ∧
        55296 + (n - 65536) / 1024 < 56320 := by
    omega
  have hLow :
      56320 ≤ 56320 + (n - 65536) % 1024 ∧
        56320 + (n - 65536) % 1024 < 57344 := by
    omega
  have hJoin :
      65536 + 1024 * (55296 + (n - 65536) / 1024 - 55296) +
          (56320 + (n - 65536) % 1024 - 56320) =
        n := by
    omega
  have hHalf :
      lowHalf ('\\' :: 'u' ::
          (Json.hex (56320 + (n - 65536) % 1024) ++ rest)) =
        some (56320 + (n - 65536) % 1024, rest) := by
    simp only [lowHalf]
    rw [Json.readHex_hex (lt_trans hLow.2 (by omega))]
    simp only [hLow, and_self, if_true]
  rw [readUnicode,
    Json.readHex_hex (lt_trans hHigh.2 (by omega))]
  simp only [hHigh, and_self, if_true, hHalf, hJoin]

/- Four digits that are no surrogate stand for themselves. -/
theorem readUnicode_hex
    {n : Nat}
    (hSmall : n < 65536)
    (hScalar : n.isValidChar)
    (rest : List Char) :
    readUnicode (Json.hex n ++ rest) = some (n, rest) := by
  have hNot : ¬ (55296 ≤ n ∧ n < 56320) := by
    rcases hScalar with hLow | hHigh
    · exact fun h => absurd h.1 (Nat.not_le_of_lt hLow)
    · omega
  rw [readUnicode, Json.readHex_hex hSmall]
  simp only [hNot, if_false]

theorem written_unicode
    {n : Nat}
    (hSmall : n < 65536)
    (hScalar : n.isValidChar) :
    Written n ('\\' :: 'u' :: Json.hex n) := by
  refine ⟨'\\', 'u' :: Json.hex n, rfl, by decide, ?_⟩
  intro rest
  simpa [readChar] using readUnicode_hex hSmall hScalar rest

theorem toNat_ofNat
    {n : Nat}
    (hScalar : n.isValidChar) :
    (Char.ofNat n).toNat = n := by
  rw [Char.ofNat, dif_pos hScalar]
  rfl

/- An escape of one character. -/
theorem written_short
    {n : Nat}
    {e : Char}
    (hScalar : n.isValidChar)
    (hLookup :
      Json.shortEscapes.lookup (Char.ofNat n) = some e) :
    Written n ['\\', e] := by
  refine ⟨'\\', [e], rfl, by decide, fun rest => ?_⟩
  have hShort :
      ∀ p ∈ Json.shortEscapes,
        p.2 ≠ 'u' ∧ Json.unescape p.2 = some p.1 := by
    decide
  have hMem : (Char.ofNat n, e) ∈ Json.shortEscapes := by
    rcases List.lookup_eq_some_iff.mp hLookup with
      ⟨before, after, hTable, -⟩
    rw [hTable]
    exact List.mem_append_right _ List.mem_cons_self
  rcases hShort _ hMem with ⟨hNe, hBack⟩
  simp only at hNe hBack
  simp [readChar, hNe, hBack, toNat_ofNat hScalar]

/- A character that stands for itself. -/
theorem written_self
    {n : Nat}
    (hScalar : n.isValidChar)
    (hLookup :
      Json.shortEscapes.lookup (Char.ofNat n) = none)
    (hPlain : 32 ≤ n) :
    Written n [Char.ofNat n] := by
  have hQuote : Char.ofNat n ≠ '"' := by
    intro hEq
    rw [hEq] at hLookup
    cases hLookup
  have hSlash : Char.ofNat n ≠ '\\' := by
    intro hEq
    rw [hEq] at hLookup
    cases hLookup
  refine ⟨Char.ofNat n, [], rfl, hQuote, fun rest => ?_⟩
  simp [readChar, hSlash, toNat_ofNat hScalar,
    Nat.not_lt.mpr hPlain]

theorem written_escapePlain
    {n : Nat}
    (hScalar : n.isValidChar) :
    Written n (escapePlain n) := by
  unfold escapePlain
  split
  · rename_i hLookup
    exact written_short hScalar hLookup
  · rename_i hLookup
    split
    · exact written_unicode (by omega) hScalar
    · rename_i hPlain
      exact written_self hScalar hLookup (Nat.not_lt.mp hPlain)

theorem written_escape
    {n : Nat}
    (hScalar : n.isValidChar) :
    Written n (escape n) := by
  have hNot : ¬ (55296 ≤ n ∧ n < 57344) := by
    rcases hScalar with hLow | hHigh
    · exact fun h => absurd h.1 (Nat.not_le_of_lt hLow)
    · omega
  have hBound : n < 1114112 := by
    rcases hScalar with hLow | hHigh
    · exact lt_trans hLow (by omega)
    · exact hHigh.2
  rw [escape, if_neg hNot]
  unfold Json.escape
  split
  · rename_i hLookup
    exact written_short hScalar hLookup
  · rename_i hLookup
    rw [toNat_ofNat hScalar]
    split
    · rename_i hPlain
      exact written_self hScalar hLookup hPlain.1
    · split
      · rename_i hSmall
        exact written_unicode hSmall hScalar
      · rename_i hLarge
        refine ⟨'\\', _, rfl, by decide, fun rest => ?_⟩
        simpa [readChar] using
          readUnicode_pair (Nat.not_lt.mp hLarge) hBound rest

theorem written_style
    (style : Style)
    {n : Nat}
    (hScalar : n.isValidChar) :
    Written n (style.escape n) := by
  rw [Style.escape]
  split
  · exact written_escape hScalar
  · exact written_escapePlain hScalar

theorem length_le_flatMap
    (style : Style)
    {s : List Nat}
    (hScalar : scalarText s = true) :
    s.length ≤ (s.flatMap style.escape).length := by
  induction s with
  | nil => exact Nat.le_refl _
  | cons n s ih =>
      rw [scalarText, List.all_cons, Bool.and_eq_true] at hScalar
      rcases written_style style (of_decide_eq_true hScalar.1)
        with ⟨c, cs, hEq, -, -⟩
      have hRest := ih hScalar.2
      rw [List.flatMap_cons, hEq, List.length_append,
        List.length_cons, List.length_cons]
      omega

theorem readChars_escape
    (style : Style)
    {s : List Nat}
    (hScalar : scalarText s = true)
    (rest : List Char)
    {fuel : Nat}
    (hFuel : s.length < fuel) :
    readChars fuel (s.flatMap style.escape ++ '"' :: rest) =
      some (s, rest) := by
  induction s generalizing fuel with
  | nil =>
      cases fuel with
      | zero => exact absurd hFuel (Nat.not_lt_zero _)
      | succ fuel => simp [readChars]
  | cons n s ih =>
      rw [scalarText, List.all_cons, Bool.and_eq_true] at hScalar
      cases fuel with
      | zero => exact absurd hFuel (Nat.not_lt_zero _)
      | succ fuel =>
          rcases written_style style
            (of_decide_eq_true hScalar.1) with
            ⟨c, cs, hEq, hNe, hRead⟩
          have hRest :=
            ih hScalar.2 (Nat.lt_of_succ_lt_succ hFuel)
          rw [List.flatMap_cons, hEq, List.append_assoc,
            List.cons_append, readChars, if_neg hNe, hRead]
          simp only [hRest, Option.map_some]

/- What a string is written as is read. -/
theorem readStr_dumpsStr
    (style : Style)
    {s : List Nat}
    (hScalar : scalarText s = true)
    (rest : List Char) :
    readStr (style.dumpsStr s ++ rest) = some (s, rest) := by
  have hLength := length_le_flatMap style hScalar
  have hText :
      style.dumpsStr s ++ rest =
        '"' :: (s.flatMap style.escape ++ '"' :: rest) := by
    simp [Style.dumpsStr]
  rw [hText]
  simp only [readStr]
  apply readChars_escape style hScalar
  rw [List.length_append]
  omega

end PyJson

------------------------------------------------------------
-- Numbers Are Read Back
------------------------------------------------------------

namespace PyJson

/- What follows a number is no part of one. -/
def Ends (rest : List Char) : Prop :=
  ∀ c ∈ rest.head?,
    c.isDigit = false ∧ c ≠ '.' ∧ c ≠ 'e' ∧ c ≠ 'E'

theorem ends_cons
    {c : Char}
    (hDigit : c.isDigit = false)
    (hPoint : c ≠ '.')
    (hLower : c ≠ 'e')
    (hUpper : c ≠ 'E')
    (rest : List Char) :
    Ends (c :: rest) := by
  intro c' hC'
  rw [← Option.mem_some.mp hC']
  exact ⟨hDigit, hPoint, hLower, hUpper⟩

theorem Ends.stops
    {rest : List Char}
    (hEnds : Ends rest) :
    Json.Stops rest := by
  intro c hC
  rw [(hEnds c hC).1]
  exact Bool.false_ne_true

/- The part of a number's text after its whole part. -/
structure Tail (fraction exponent : List Char) : Prop where
  fraction_eq :
    fraction = [] ∨
      ∃ ds, fraction = '.' :: ds ∧ ds ≠ [] ∧
        ∀ c ∈ ds, c.isDigit
  exponent_eq :
    exponent = [] ∨
      ∃ sign ds, exponent = 'e' :: (sign ++ ds) ∧
        (sign = [] ∨ sign = ['+'] ∨ sign = ['-']) ∧
        ds ≠ [] ∧ ∀ c ∈ ds, c.isDigit

/- A number of JSON that is no integer. -/
def FloatText (text : List Char) : Prop :=
  ∃ sign whole fraction exponent,
    text = sign ++ Numeral.decimal whole ++ fraction ++
      exponent ∧
    (sign = [] ∨ sign = ['-']) ∧
    Tail fraction exponent ∧
    ¬ (fraction = [] ∧ exponent = [])

end PyJson

/- repr of a finite float is a number that float reads. -/
structure FloatOps.Lawful
    {F : Type}
    (ops : FloatOps F) :
    Prop where
  text : ∀ x, PyJson.FloatText (ops.repr x)
  ofText_repr : ∀ x, ops.ofText (ops.repr x) = .finite x

namespace PyJson

variable {F : Type} {ops : FloatOps F} {limits : Limits}

/- Digits before anything else are all taken. -/
theorem span_digits
    {ds rest : List Char}
    (hDigits : ∀ c ∈ ds, c.isDigit)
    (hStops : Json.Stops rest) :
    (ds ++ rest).takeWhile Char.isDigit = ds ∧
      (ds ++ rest).dropWhile Char.isDigit = rest := by
  have hRest :
      rest.takeWhile Char.isDigit = [] ∧
        rest.dropWhile Char.isDigit = rest := by
    cases rest with
    | nil => exact ⟨rfl, rfl⟩
    | cons c rest =>
        have hNot := hStops c rfl
        simp [hNot]
  rw [List.takeWhile_append_of_pos hDigits,
    List.dropWhile_append_of_pos hDigits, hRest.1, hRest.2]
  exact ⟨List.append_nil _, rfl⟩

theorem readWhole_decimal
    (n : Nat)
    {rest : List Char}
    (hStops : Json.Stops rest) :
    readWhole (Numeral.decimal n ++ rest) =
      some (Numeral.decimal n, rest) := by
  rcases Json.span_decimal n hStops with ⟨hTake, hDrop⟩
  unfold readWhole
  split
  · rename_i rest' hZero
    rcases Json.head_decimal n with ⟨c, cs, hEq, -⟩
    rw [hEq, List.cons_append, List.cons.injEq] at hZero
    rcases hZero with ⟨rfl, hRest⟩
    rcases Numeral.eq_zero_of_decimal hEq with ⟨rfl, rfl⟩
    rw [hEq, ← hRest]
    rfl
  · rw [hTake]
    split
    · rename_i hNil
      exact absurd hNil (Numeral.decimal_ne_nil n)
    · rw [hDrop]

theorem readFraction_append
    {fraction exponent rest : List Char}
    (hTail : Tail fraction exponent)
    (hEnds : Ends rest) :
    readFraction (fraction ++ (exponent ++ rest)) =
      (fraction, exponent ++ rest) := by
  have hAfter : Json.Stops (exponent ++ rest) := by
    rcases hTail.exponent_eq with rfl | ⟨sign, ds, rfl, -⟩
    · exact hEnds.stops
    · exact Json.stops_cons (by decide) _
  rcases hTail.fraction_eq with rfl | ⟨ds, rfl, hSome, hDigits⟩
  · have hNoPoint :
        ∀ cs, exponent ++ rest ≠ '.' :: cs := by
      intro cs hEq
      rcases hTail.exponent_eq with rfl | ⟨sign, ds, rfl, -⟩
      · rw [List.nil_append] at hEq
        exact (hEnds '.' (by rw [hEq]; rfl)).2.1 rfl
      · rw [List.cons_append, List.cons.injEq] at hEq
        exact absurd hEq.1 (by decide)
    rw [List.nil_append]
    unfold readFraction
    split
    · rename_i hPoint
      exact absurd hPoint (hNoPoint _)
    · rfl
  · rcases span_digits hDigits hAfter with ⟨hTake, hDrop⟩
    rw [List.cons_append]
    simp only [readFraction, hTake, hDrop]

theorem takeOne_sign
    {sign ds rest : List Char}
    (hSign : sign = [] ∨ sign = ['+'] ∨ sign = ['-'])
    (hSome : ds ≠ [])
    (hDigits : ∀ c ∈ ds, c.isDigit) :
    takeOne (fun c => c = '+' ∨ c = '-')
        (sign ++ (ds ++ rest)) =
      (sign, ds ++ rest) := by
  rcases hSign with rfl | rfl | rfl
  · cases ds with
    | nil => exact absurd rfl hSome
    | cons d ds =>
        have hDigit := hDigits d List.mem_cons_self
        have hPlus : d ≠ '+' := by
          rintro rfl
          cases hDigit
        have hMinus : d ≠ '-' := by
          rintro rfl
          cases hDigit
        simp [takeOne, hPlus, hMinus]
  · rfl
  · rfl

theorem readExponent_append
    {fraction exponent rest : List Char}
    (hTail : Tail fraction exponent)
    (hEnds : Ends rest) :
    readExponent (exponent ++ rest) = (exponent, rest) := by
  rcases hTail.exponent_eq with
    rfl | ⟨sign, ds, rfl, hSign, hSome, hDigits⟩
  · rw [List.nil_append]
    cases rest with
    | nil => rfl
    | cons c rest =>
        rcases hEnds c rfl with ⟨-, -, hLower, hUpper⟩
        simp [readExponent, hLower, hUpper]
  · rcases span_digits hDigits hEnds.stops with ⟨hTake, hDrop⟩
    rw [List.cons_append, List.append_assoc]
    simp only [readExponent, true_or, if_true,
      takeOne_sign hSign hSome hDigits, hTake, hDrop]
    rfl

/- The sign of a number is a minus, if there is one. -/
theorem takeOne_minus
    {sign : List Char}
    (hSign : sign = [] ∨ sign = ['-'])
    (n : Nat)
    (rest : List Char) :
    takeOne (· = '-') (sign ++ (Numeral.decimal n ++ rest)) =
      (sign, Numeral.decimal n ++ rest) := by
  rcases hSign with rfl | rfl
  · rcases Json.head_decimal n with ⟨c, cs, hEq, hDigit⟩
    have hNe : c ≠ '-' := by
      rintro rfl
      cases hDigit
    rw [hEq]
    simp [takeOne, hNe]
  · rfl

theorem readNumber_int
    {n : Int}
    (hShort :
      ¬ limits.tooLong (Numeral.decimal n.natAbs).length)
    {rest : List Char}
    (hEnds : Ends rest) :
    readNumber ops limits (Json.dumpsInt n ++ rest) =
      some (.int n, rest) := by
  have hNone : Tail [] [] := ⟨.inl rfl, .inl rfl⟩
  have hFraction := readFraction_append hNone hEnds
  have hExponent := readExponent_append hNone hEnds
  simp only [List.nil_append] at hFraction hExponent
  have hDigits (k : Nat) :
      Nat.ofDigitChars 10 (Numeral.decimal k) 0 = k := by
    rw [Numeral.decimal, Nat.ofDigitChars_ten_toDigits]
  cases n with
  | ofNat n =>
      have hSign := takeOne_minus (.inl rfl) n rest
      rw [List.nil_append] at hSign
      simp only [Int.natAbs_natCast, Int.ofNat_eq_natCast]
        at hShort
      simp [readNumber, Json.dumpsInt, hSign,
        readWhole_decimal n hEnds.stops, hFraction, hExponent,
        hDigits, hShort]
  | negSucc n =>
      have hSign := takeOne_minus (.inr rfl) (n + 1) rest
      rw [List.cons_append, List.nil_append] at hSign
      rw [Int.natAbs_negSucc] at hShort
      simp only [Json.dumpsInt, List.cons_append, readNumber,
        hSign, readWhole_decimal (n + 1) hEnds.stops, hFraction,
        hExponent, hDigits, and_self, if_true, hShort]
      rfl

theorem readNumber_float
    (hLawful : ops.Lawful)
    (x : F)
    {rest : List Char}
    (hEnds : Ends rest) :
    readNumber ops limits (ops.repr x ++ rest) =
      some (.float (.finite x), rest) := by
  have hBack := hLawful.ofText_repr x
  rcases hLawful.text x with
    ⟨sign, whole, fraction, exponent, hText, hSign, hTail,
      hFloat⟩
  have hStops :
      Json.Stops (fraction ++ (exponent ++ rest)) := by
    rcases hTail.fraction_eq with rfl | ⟨ds, rfl, -⟩
    · rcases hTail.exponent_eq with rfl | ⟨s, ds, rfl, -⟩
      · exact hEnds.stops
      · exact Json.stops_cons (by decide) _
    · exact Json.stops_cons (by decide) _
  rw [hText] at hBack ⊢
  simp only [List.append_assoc, readNumber,
    takeOne_minus hSign, readWhole_decimal whole hStops,
    readFraction_append hTail hEnds,
    readExponent_append hTail hEnds, hFloat, if_false]
  simp only [List.append_assoc] at hBack
  rw [hBack]

end PyJson

------------------------------------------------------------
-- Items Are Read Back
------------------------------------------------------------

namespace PyJson

variable {α : Type}

/-
  A text that stands for a value, wherever no part of a
  number follows; it starts with no space and no bracket.
-/
structure Stands
    (read : Json.Reader α)
    (x : α)
    (text : List Char) :
    Prop where
  reads :
    ∀ rest, Ends rest → read (text ++ rest) = some (x, rest)
  starts :
    ∃ c cs, text = c :: cs ∧ Json.isSpace c = false ∧
      c ≠ ']' ∧ c ≠ '}'

/- Only spaces stand between the items. -/
structure Style.Spaced (style : Style) : Prop where
  comma : ∀ c ∈ style.afterComma, Json.isSpace c
  colon : ∀ c ∈ style.afterColon, Json.isSpace c

theorem spaced_default : ({} : Style).Spaced where
  comma := by
    intro c hC
    rw [List.mem_singleton.mp hC]
    rfl
  colon := by
    intro c hC
    rw [List.mem_singleton.mp hC]
    rfl

theorem spaced_compact : Style.compact.Spaced where
  comma := fun _ hC => absurd hC List.not_mem_nil
  colon := fun _ hC => absurd hC List.not_mem_nil

theorem Stands.skip
    {read : Json.Reader α}
    {x : α}
    {text : List Char}
    (hStands : Stands read x text)
    {spaces : List Char}
    (hSpaces : ∀ c ∈ spaces, Json.isSpace c)
    (rest : List Char) :
    Json.skip (spaces ++ (text ++ rest)) = text ++ rest := by
  rcases hStands.starts with ⟨c, cs, rfl, hSpace, -, -⟩
  rw [Json.skip, List.dropWhile_append_of_pos hSpaces]
  exact Json.skip_cons hSpace (cs ++ rest)

abbrev AllStand
    (read : Json.Reader α)
    (xs : List α)
    (texts : List (List Char)) :
    Prop :=
  List.Forall₂ (Stands read) xs texts

/- The bracket that closes a list or a dict. -/
structure Closes (close : Char) : Prop where
  space : Json.isSpace close = false
  comma : ',' ≠ close
  ends : ∀ rest, Ends (close :: rest)
  bracket : close = ']' ∨ close = '}'

theorem closes_arr : Closes ']' where
  space := rfl
  comma := by decide
  ends := ends_cons rfl (by decide) (by decide) (by decide)
  bracket := .inl rfl

theorem closes_obj : Closes '}' where
  space := rfl
  comma := by decide
  ends := ends_cons rfl (by decide) (by decide) (by decide)
  bracket := .inr rfl

variable {style : Style} {close : Char}
  {read : Json.Reader α}

/- The first item stands at the head. -/
theorem joined_cons
    (text : List Char)
    (texts : List (List Char)) :
    ∃ tail,
      style.joined close (text :: texts) = text ++ tail := by
  cases texts with
  | nil => exact ⟨[close], rfl⟩
  | cons text' texts => exact ⟨_, rfl⟩

theorem readMore_joined
    (hSpaced : style.Spaced)
    (hClose : Closes close)
    {x : α}
    {xs : List α}
    {text : List Char}
    {texts : List (List Char)}
    (hStands : Stands read x text)
    (hAll : AllStand read xs texts)
    {fuel : Nat}
    (hFuel : xs.length < fuel)
    (rest : List Char) :
    Json.readMore close read fuel
        (style.joined close (text :: texts) ++ rest) =
      some (x :: xs, rest) := by
  induction hAll generalizing x text fuel with
  | nil =>
      cases fuel with
      | zero => exact absurd hFuel (Nat.not_lt_zero _)
      | succ fuel =>
          rw [Style.joined, List.append_assoc,
            List.singleton_append, Json.readMore,
            hStands.reads _ (hClose.ends rest)]
          simp only [Json.skip_cons hClose.space, if_true]
  | cons hNext hAll ih =>
      cases fuel with
      | zero => exact absurd hFuel (Nat.not_lt_zero _)
      | succ fuel =>
          rename_i x' text' xs texts
          have hRest := @ih _ _ hNext fuel
            (Nat.lt_of_succ_lt_succ hFuel)
          rcases @joined_cons style close text' texts with
            ⟨tail, hTail⟩
          have hSkip :
              Json.skip (style.afterComma ++
                  (style.joined close (text' :: texts) ++
                    rest)) =
                style.joined close (text' :: texts) ++ rest := by
            rw [hTail, List.append_assoc]
            exact hNext.skip hSpaced.comma (tail ++ rest)
          have hComma :
              Ends (',' :: (style.afterComma ++
                (style.joined close (text' :: texts) ++
                  rest))) :=
            ends_cons rfl (by decide) (by decide) (by decide) _
          rw [Style.joined, List.append_assoc, List.cons_append,
            List.append_assoc, Json.readMore,
            hStands.reads _ hComma]
          simp only [Json.skip_cons (c := ',') rfl,
            if_neg hClose.comma, if_true, hSkip, hRest,
            Option.map_some]

/- What stands between the brackets is read. -/
theorem readAll_joined
    (hSpaced : style.Spaced)
    (hClose : Closes close)
    {xs : List α}
    {texts : List (List Char)}
    (hAll : AllStand read xs texts)
    {fuel : Nat}
    (hFuel : xs.length ≤ fuel)
    (rest : List Char) :
    Json.readAll close read fuel
        (style.joined close texts ++ rest) =
      some (xs, rest) := by
  cases hAll with
  | nil =>
      simp [Style.joined, Json.readAll,
        Json.skip_cons hClose.space]
  | cons hHead hAll =>
      rename_i x text xs texts
      have hMore :=
        readMore_joined hSpaced hClose hHead hAll hFuel rest
      rcases @joined_cons style close text texts with
        ⟨tail, hTail⟩
      rcases hHead.starts with ⟨c, cs, rfl, hSpace, hArr, hObj⟩
      have hNe : c ≠ close := by
        rcases hClose.bracket with rfl | rfl
        · exact hArr
        · exact hObj
      rw [hTail, List.cons_append, List.cons_append] at hMore ⊢
      rw [Json.readAll, Json.skip_cons hSpace]
      simp only [if_neg hNe, hMore]

theorem length_le_joined (texts : List (List Char)) :
    texts.length ≤ (style.joined close texts).length := by
  induction texts with
  | nil => exact Nat.zero_le _
  | cons first texts ih =>
      cases texts with
      | nil => simp [Style.joined]
      | cons second texts =>
          simp only [Style.joined, List.length_append,
            List.length_cons] at ih ⊢
          omega

/- Each text is a part of the joined one. -/
theorem length_le_joined_of_mem
    (style : Style)
    (close : Char)
    {text : List Char}
    {texts : List (List Char)}
    (hMem : text ∈ texts) :
    text.length ≤ (style.joined close texts).length := by
  induction texts with
  | nil => cases hMem
  | cons first texts ih =>
      cases texts with
      | nil =>
          rw [List.mem_singleton.mp hMem, Style.joined,
            List.length_append]
          omega
      | cons second texts =>
          simp only [Style.joined, List.length_append,
            List.length_cons] at ih ⊢
          rcases List.mem_cons.mp hMem with rfl | hLater
          · omega
          · have hRest := ih hLater
            omega

/- A text is not longer than what it is written as. -/
theorem length_le_dumpsStr
    (style : Style)
    {s : List Nat}
    (hScalar : scalarText s = true) :
    s.length ≤ (style.dumpsStr s).length := by
  have hWritten := length_le_flatMap style hScalar
  rw [Style.dumpsStr, List.length_append, List.length_cons]
  omega

/- The value of a member stands within its object. -/
theorem length_le_encodeWith_obj
    {F : Type}
    (ops : FloatOps F)
    (style : Style)
    {members : List (List Nat × PyJson F)}
    {m : List Nat × PyJson F}
    (hMem : m ∈ members) :
    (encodeWith ops style m.2).length ≤
      (encodeWith ops style (.obj members)).length := by
  have hMember :
      (encodeWith ops style m.2).length ≤
        (style.dumpsMember m.1
          (encodeWith ops style m.2)).length := by
    simp only [Style.dumpsMember, List.length_append,
      List.length_cons]
    omega
  have hPart :=
    length_le_joined_of_mem style '\x7d'
      (List.mem_map_of_mem
        (f := fun m : List Nat × PyJson F =>
          style.dumpsMember m.1 (encodeWith ops style m.2))
        hMem)
  rw [encodeWith, encodeMembersWith_eq, List.length_cons]
  omega

end PyJson

------------------------------------------------------------
-- Values Are Read Back
------------------------------------------------------------

namespace PyJson

variable {F : Type} {ops : FloatOps F} {limits : Limits}
  {style : Style}

/- Keys that are new keep the order they were read in. -/
theorem asDict_of_nodup
    {members : List (List Nat × PyJson F)}
    (hNodup : (members.map (·.1)).Nodup) :
    asDict members = members := by
  have hUpdate :=
    @Dict.entries_update _ _ _ Dict.empty members hNodup
  exact hUpdate

/- The constants, letter by letter. -/
def constantTexts : List (List Char × PyJson F) :=
  [(['n', 'u', 'l', 'l'], .null),
    (['t', 'r', 'u', 'e'], .bool true),
    (['f', 'a', 'l', 's', 'e'], .bool false),
    (['N', 'a', 'N'], .float .nan),
    (['I', 'n', 'f', 'i', 'n', 'i', 't', 'y'], .float .inf),
    (['-', 'I', 'n', 'f', 'i', 'n', 'i', 't', 'y'],
      .float .negInf)]

theorem constants_map :
    constants.map (fun w => (w.1.toList, w.2)) =
      @constantTexts F := by
  simp [constants, constantTexts]

theorem readConstant_eq (cs : List Char) :
    readConstant cs =
      (@constantTexts F).findSome? (fun w =>
        if w.1.isPrefixOf cs then
          some (w.2, cs.drop w.1.length)
        else none) := by
  rw [← constants_map, List.findSome?_map]
  rfl

/- A number starts like no string and no constant. -/
theorem readScalar_number
    {sign : List Char}
    (hSign : sign = [] ∨ sign = ['-'])
    (n : Nat)
    (rest : List Char) :
    readScalar ops limits
        (sign ++ (Numeral.decimal n ++ rest)) =
      readNumber ops limits
        (sign ++ (Numeral.decimal n ++ rest)) := by
  rcases Json.head_decimal n with ⟨c, cs, hEq, hDigit⟩
  have hNe (d : Char) (hOther : ¬ d.isDigit) : c ≠ d := by
    rintro rfl
    exact hOther hDigit
  have hNull := (hNe 'n' (by decide)).symm
  have hTrue := (hNe 't' (by decide)).symm
  have hFalse := (hNe 'f' (by decide)).symm
  have hNaN := (hNe 'N' (by decide)).symm
  have hInf := (hNe 'I' (by decide)).symm
  have hMinus := (hNe '-' (by decide)).symm
  have hQuote := hNe '"' (by decide)
  rw [hEq]
  rcases hSign with rfl | rfl
  · have hStr : readStr (c :: (cs ++ rest)) = none := by
      unfold readStr
      split
      · rename_i hHead
        exact absurd (List.head_eq_of_cons_eq hHead) hQuote
      · rfl
    have hConstant :
        readConstant (F := F) (c :: (cs ++ rest)) = none := by
      rw [readConstant_eq]
      simp [constantTexts, hNull, hTrue, hFalse,
        hNaN, hInf, hMinus]
    simp only [List.nil_append, List.cons_append, readScalar,
      hStr, hConstant]
  · have hStr :
        readStr ('-' :: c :: (cs ++ rest)) = none := rfl
    have hConstant :
        readConstant (F := F) ('-' :: c :: (cs ++ rest)) =
          none := by
      rw [readConstant_eq]
      simp [constantTexts, hInf]
    simp only [List.nil_append, List.cons_append, readScalar,
      hStr, hConstant]

theorem readValue_scalar
    {c : Char}
    {cs : List Char}
    (hArr : c ≠ '[')
    (hObj : c ≠ '{')
    (depth : Nat) :
    readValue ops limits depth (c :: cs) =
      readScalar ops limits (c :: cs) := by
  cases depth with
  | zero => rw [readValue]
  | succ depth =>
      unfold readValue
      split
      · contradiction
      · rename_i hHead
        exact absurd (List.head_eq_of_cons_eq hHead) hArr
      · rename_i hHead
        exact absurd (List.head_eq_of_cons_eq hHead) hObj
      · rfl

/- A constant stands for what it is. -/
theorem stands_constant
    {word : List Char}
    {v : PyJson F}
    (hMem : (word, v) ∈ constantTexts)
    (depth : Nat) :
    Stands (readValue ops limits depth) v word := by
  simp only [constantTexts, List.mem_cons, List.not_mem_nil,
    or_false, Prod.mk.injEq] at hMem
  have hScalar :
      ∀ rest,
        readScalar ops limits (word ++ rest) =
          some (v, rest) := by
    intro rest
    rw [readScalar, readConstant_eq]
    rcases hMem with ⟨rfl, rfl⟩ | ⟨rfl, rfl⟩ | ⟨rfl, rfl⟩ |
      ⟨rfl, rfl⟩ | ⟨rfl, rfl⟩ | ⟨rfl, rfl⟩
    all_goals
      simp [readStr, constantTexts]
  have hStarts :
      ∃ c cs, word = c :: cs ∧
        Json.isSpace c = false ∧ c ≠ ']' ∧ c ≠ '}' ∧
          c ≠ '[' ∧ c ≠ '{' := by
    rcases hMem with ⟨rfl, -⟩ | ⟨rfl, -⟩ | ⟨rfl, -⟩ |
      ⟨rfl, -⟩ | ⟨rfl, -⟩ | ⟨rfl, -⟩
    all_goals
      refine ⟨_, _, rfl, ?_⟩
      decide
  rcases hStarts with
    ⟨c, cs, hEq, hSpace, hArr, hObj, hArr', hObj'⟩
  refine ⟨?_, c, cs, hEq, hSpace, hArr, hObj⟩
  intro rest _
  rw [← hScalar rest, hEq, List.cons_append,
    readValue_scalar hArr' hObj']

theorem stands_str
    {s : List Nat}
    (hScalar : scalarText s = true)
    (depth : Nat) :
    Stands (readValue ops limits depth) (.str s)
      (style.dumpsStr s) := by
  refine ⟨?_, '"', _, rfl, rfl, by decide, by decide⟩
  intro rest _
  have hRead := readStr_dumpsStr style hScalar rest
  rw [Style.dumpsStr, List.cons_append, List.cons_append]
    at hRead ⊢
  rw [readValue_scalar (by decide) (by decide), readScalar,
    hRead]

/- A text that starts like a number, and is one. -/
theorem stands_number
    {v : PyJson F}
    {sign rest : List Char}
    {n : Nat}
    (hSign : sign = [] ∨ sign = ['-'])
    (hNumber :
      ∀ rest', Ends rest' →
        readNumber ops limits
            (sign ++ (Numeral.decimal n ++ (rest ++ rest'))) =
          some (v, rest'))
    (depth : Nat) :
    Stands (readValue ops limits depth) v
      (sign ++ (Numeral.decimal n ++ rest)) := by
  have hStarts :
      ∃ c, (c.isDigit ∨ c = '-') ∧ ∀ rest', ∃ cs,
        sign ++ (Numeral.decimal n ++ rest') = c :: cs := by
    rcases hSign with rfl | rfl
    · rcases Json.head_decimal n with ⟨c, cs, hEq, hDigit⟩
      refine ⟨c, .inl hDigit, fun rest' => ?_⟩
      exact ⟨cs ++ rest', by rw [hEq]; rfl⟩
    · exact ⟨'-', .inr rfl, fun rest' => ⟨_, rfl⟩⟩
  rcases hStarts with ⟨c, hChar, hEq⟩
  have hNe (d : Char) (hOther : ¬ d.isDigit ∧ d ≠ '-') :
      c ≠ d :=
    Json.ne_of_number hChar hOther
  refine ⟨?_, ?_⟩
  · intro rest' hEnds
    rcases hEq (rest ++ rest') with ⟨cs, hCons⟩
    rw [← hNumber rest' hEnds, List.append_assoc,
      List.append_assoc, hCons,
      readValue_scalar (hNe '[' (by decide))
        (hNe '{' (by decide)),
      ← hCons, readScalar_number hSign]
  · rcases hEq rest with ⟨cs, hCons⟩
    exact ⟨c, cs, hCons, Json.isSpace_of_number hChar,
      hNe ']' (by decide), hNe '}' (by decide)⟩

theorem stands_int
    {n : Int}
    (hShort :
      ¬ limits.tooLong (Numeral.decimal n.natAbs).length)
    (depth : Nat) :
    Stands (readValue ops limits depth) (.int n)
      (Json.dumpsInt n) := by
  have hNumber :=
    fun rest (hEnds : Ends rest) =>
      @readNumber_int F ops limits n hShort rest hEnds
  cases n with
  | ofNat n =>
      rw [Json.dumpsInt] at hNumber ⊢
      have hStands :=
        @stands_number F ops limits _ _ [] _ (.inl rfl) hNumber
          depth
      rwa [List.nil_append, List.append_nil] at hStands
  | negSucc n =>
      rw [Json.dumpsInt] at hNumber ⊢
      have hStands :=
        @stands_number F ops limits _ _ [] _ (.inr rfl) hNumber
          depth
      rwa [List.append_nil] at hStands

theorem stands_float
    (hLawful : ops.Lawful)
    (x : PyFloat F)
    (depth : Nat) :
    Stands (readValue ops limits depth) (.float x)
      (dumpsFloat ops x) := by
  cases x with
  | nan =>
      have hEq :
          dumpsFloat ops .nan =
            ['N', 'a', 'N'] := by
        change "NaN".toList = _
        simp
      rw [hEq]
      exact stands_constant (by simp [constantTexts]) depth
  | inf =>
      have hEq :
          dumpsFloat ops .inf =
            ['I', 'n', 'f', 'i', 'n', 'i', 't', 'y'] := by
        change "Infinity".toList = _
        simp
      rw [hEq]
      exact stands_constant (by simp [constantTexts]) depth
  | negInf =>
      have hEq :
          dumpsFloat ops .negInf =
            ['-', 'I', 'n', 'f', 'i', 'n', 'i', 't', 'y'] := by
        change "-Infinity".toList = _
        simp
      rw [hEq]
      exact stands_constant (by simp [constantTexts]) depth
  | finite x =>
      have hNumber :=
        fun rest (hEnds : Ends rest) =>
          @readNumber_float F ops limits hLawful x rest hEnds
      rcases hLawful.text x with
        ⟨sign, whole, fraction, exponent, hText, hSign, -⟩
      have hEq : dumpsFloat ops (.finite x) = ops.repr x := rfl
      rw [hEq]
      rw [hText] at hNumber ⊢
      simp only [List.append_assoc] at hNumber ⊢
      apply stands_number hSign
      intro rest hEnds
      rw [List.append_assoc]
      exact hNumber rest hEnds

theorem stands_member
    (hSpaced : style.Spaced)
    {read : Json.Reader (PyJson F)}
    {key : List Nat}
    {value : PyJson F}
    {text : List Char}
    (hKey : scalarText key = true)
    (hValue : Stands read value text) :
    Stands (readMember read) (key, value)
      (style.dumpsMember key text) := by
  refine ⟨?_, '"', _, rfl, rfl, by decide, by decide⟩
  intro rest hEnds
  have hSkip := hValue.skip hSpaced.colon rest
  rw [Style.dumpsMember, List.append_assoc, List.cons_append,
    List.append_assoc, readMember,
    readStr_dumpsStr style hKey]
  simp only [Json.skip_cons (c := ':') rfl, hSkip,
    hValue.reads rest hEnds, Option.map_some]

/- Whatever fits is read back from its text. -/
theorem stands_encodeWith
    (hLawful : ops.Lawful)
    (hSpaced : style.Spaced)
    {depth : Nat}
    {v : PyJson F}
    (hFits : Fits limits depth v)
    (hDicts : Dicts v)
    (hScalars : scalars v = true) :
    Stands (readValue ops limits depth) v
      (encodeWith ops style v) := by
  induction hFits with
  | null =>
      have hEq :
          encodeWith ops style .null =
            ['n', 'u', 'l', 'l'] := by
        rw [encodeWith]
        rfl
      rw [hEq]
      exact stands_constant (by simp [constantTexts]) _
  | @bool depth b =>
      cases b with
      | false =>
          have hEq :
              encodeWith ops style (.bool false) =
                ['f', 'a', 'l', 's', 'e'] := by
            rw [encodeWith]
            rfl
          rw [hEq]
          exact stands_constant (by simp [constantTexts]) _
      | true =>
          have hEq :
              encodeWith ops style (.bool true) =
                ['t', 'r', 'u', 'e'] := by
            rw [encodeWith]
            rfl
          rw [hEq]
          exact stands_constant (by simp [constantTexts]) _
  | int hShort =>
      rw [encodeWith]
      exact stands_int hShort _
  | float =>
      rw [encodeWith]
      exact stands_float hLawful _ _
  | str =>
      rw [encodeWith]
      rw [scalars] at hScalars
      exact stands_str hScalars _
  | @arr depth items hItems ih =>
      cases hDicts with
      | arr hParts =>
          rw [scalars_arr] at hScalars
          have hAll :
              AllStand (readValue ops limits depth) items
                (items.map (encodeWith ops style)) := by
            rw [AllStand, List.forall₂_map_right_iff,
              List.forall₂_same]
            intro item hItem
            exact ih item hItem (hParts item hItem)
              (hScalars item hItem)
          rw [encodeWith, encodeItemsWith_eq]
          refine ⟨?_, '[', _, rfl, rfl, by decide, by decide⟩
          intro rest _
          have hCount := @length_le_joined style ']'
            (items.map (encodeWith ops style))
          rw [List.length_map] at hCount
          rw [List.cons_append, readValue,
            readAll_joined hSpaced closes_arr hAll
              (by rw [List.length_append]; omega)]
          rfl
  | @obj depth members hMembers ih =>
      cases hDicts with
      | obj hNodup hParts =>
          rw [scalars_obj] at hScalars
          have hAll :
              AllStand
                (readMember (readValue ops limits depth)) members
                (members.map (fun m =>
                  style.dumpsMember m.1
                    (encodeWith ops style m.2))) := by
            rw [AllStand, List.forall₂_map_right_iff,
              List.forall₂_same]
            intro m hM
            exact stands_member hSpaced (hScalars m hM).1
              (ih m hM (hParts m hM) (hScalars m hM).2)
          rw [encodeWith, encodeMembersWith_eq]
          refine ⟨?_, '{', _, rfl, rfl, by decide, by decide⟩
          intro rest _
          have hCount := @length_le_joined style '}'
            (members.map (fun m =>
              style.dumpsMember m.1
                (encodeWith ops style m.2)))
          rw [List.length_map] at hCount
          rw [List.cons_append, readValue,
            readAll_joined hSpaced closes_obj hAll
              (by rw [List.length_append]; omega),
            Option.map_some, asDict_of_nodup hNodup]

/- What is written in a style, json.loads reads. -/
theorem loads_encodeWith
    (hLawful : ops.Lawful)
    (hSpaced : style.Spaced)
    {v : PyJson F}
    (hFits : Fits limits limits.depth v)
    (hDicts : Dicts v)
    (hScalars : scalars v = true) :
    loads ops limits (encodeWith ops style v) = some v := by
  have hStands := stands_encodeWith hLawful hSpaced hFits
    hDicts hScalars
  have hEnds : Ends [] := by
    intro c hC
    cases hC
  have hRead := hStands.reads [] hEnds
  have hNone : ∀ c ∈ ([] : List Char), Json.isSpace c :=
    fun _ hC => absurd hC List.not_mem_nil
  have hSkip := hStands.skip hNone []
  rw [List.append_nil] at hRead hSkip
  rw [List.nil_append] at hSkip
  rw [loads, hSkip, hRead]
  rfl

end PyJson

------------------------------------------------------------
-- What Is Written Fits
------------------------------------------------------------

namespace PyJson

variable {F : Type} {ops : FloatOps F} {limits : Limits}
  {style : Style}

theorem mapM_forall
    {α β ε : Type}
    {f : α → Except ε β}
    {xs : List α}
    {ys : List β}
    (hOk : xs.mapM f = .ok ys) :
    ∀ x ∈ xs, ∃ y, f x = .ok y := by
  induction xs generalizing ys with
  | nil => exact fun x hX => absurd hX List.not_mem_nil
  | cons x xs ih =>
      rw [List.mapM_cons] at hOk
      cases hHead : f x with
      | error e =>
          rw [hHead] at hOk
          cases hOk
      | ok y =>
          cases hTail : xs.mapM f with
          | error e =>
              rw [hHead, hTail] at hOk
              cases hOk
          | ok ys' =>
              rw [List.forall_mem_cons]
              exact ⟨⟨y, hHead⟩, ih hTail⟩

theorem fits_of_dumpsScalar
    {depth : Nat}
    {v : PyJson F}
    {text : List Char}
    (hOk : dumpsScalar ops limits style v = .ok text) :
    Fits limits depth v := by
  cases v with
  | null => exact .null
  | bool b => exact .bool
  | int n =>
      simp only [dumpsScalar] at hOk
      split at hOk
      · cases hOk
      · rename_i hShort
        exact .int hShort
  | float x => exact .float
  | str s => exact .str
  | arr items => cases hOk
  | obj members => cases hOk

/- What json.dumps does not raise on fits. -/
theorem fits_of_dumpsValue
    {depth : Nat}
    {v : PyJson F}
    {text : List Char}
    (hOk : dumpsValue ops limits style depth v = .ok text) :
    Fits limits depth v := by
  induction depth generalizing v text with
  | zero =>
      rw [dumpsValue] at hOk
      exact fits_of_dumpsScalar hOk
  | succ depth ih =>
      cases v with
      | arr items =>
          rw [dumpsValue] at hOk
          cases hTexts :
              items.mapM
                (dumpsValue ops limits style depth) with
          | error e =>
              rw [hTexts] at hOk
              cases hOk
          | ok texts =>
              apply Fits.arr
              intro item hItem
              rcases mapM_forall hTexts item hItem with
                ⟨t, hT⟩
              exact ih hT
      | obj members =>
          rw [dumpsValue] at hOk
          cases hTexts : members.mapM (fun m => do
              let value ←
                dumpsValue ops limits style depth m.2
              return style.dumpsMember m.1 value) with
          | error e =>
              rw [hTexts] at hOk
              cases hOk
          | ok texts =>
              apply Fits.obj
              intro m hM
              rcases mapM_forall hTexts m hM with ⟨t, hT⟩
              cases hValue :
                  dumpsValue ops limits style depth m.2 with
              | error e =>
                  rw [hValue] at hT
                  cases hT
              | ok value => exact ih hValue
      | null => exact .null
      | bool b => exact .bool
      | int n => exact fits_of_dumpsScalar hOk
      | float x => exact .float
      | str s => exact .str

theorem dumpsWith_eq_ok
    {v : PyJson F}
    {text : List Char} :
    dumpsWith ops limits style v = .ok text ↔
      Fits limits limits.depth v ∧
        text = encodeWith ops style v := by
  constructor
  · intro hOk
    have hFits := fits_of_dumpsValue hOk
    rw [dumpsWith_eq_encode hFits] at hOk
    cases hOk
    exact ⟨hFits, rfl⟩
  · rintro ⟨hFits, rfl⟩
    exact dumpsWith_eq_encode hFits

/- What json.dumps wrote, json.loads reads. -/
theorem loads_dumps
    (hLawful : ops.Lawful)
    {v : PyJson F}
    {text : List Char}
    (hDicts : Dicts v)
    (hScalars : scalars v = true)
    (hOk : dumps ops limits v = .ok text) :
    loads ops limits text = some v := by
  rcases dumpsWith_eq_ok.mp hOk with ⟨hFits, rfl⟩
  exact loads_encodeWith hLawful spaced_default hFits hDicts
    hScalars

end PyJson

------------------------------------------------------------
-- What Is Read Has Each Key Once
------------------------------------------------------------

namespace PyJson

variable {F : Type} {ops : FloatOps F} {limits : Limits}

theorem readNumber_dicts
    {cs rest : List Char}
    {v : PyJson F}
    (hRead : readNumber ops limits cs = some (v, rest)) :
    Dicts v := by
  unfold readNumber at hRead
  simp only at hRead
  split at hRead
  · cases hRead
  · split at hRead
    · split at hRead
      · cases hRead
      · cases hRead
        exact .int
    · cases hRead
      exact .float

theorem readScalar_dicts
    {cs rest : List Char}
    {v : PyJson F}
    (hRead : readScalar ops limits cs = some (v, rest)) :
    Dicts v := by
  unfold readScalar at hRead
  split at hRead
  · cases hRead
    exact .str
  · split at hRead
    · rename_i found hConstant
      rw [readConstant_eq] at hConstant
      rcases List.exists_of_findSome?_eq_some hConstant with
        ⟨w, hMem, hW⟩
      split at hW
      · cases hW
        cases hRead
        simp only [constantTexts, List.mem_cons,
          List.not_mem_nil, or_false] at hMem
        rcases hMem with rfl | rfl | rfl | rfl | rfl | rfl
        · exact .null
        · exact .bool
        · exact .bool
        · exact .float
        · exact .float
        · exact .float
      · cases hW
    · exact readNumber_dicts hRead

theorem readMember_dicts
    {value : Json.Reader (PyJson F)}
    (hValue :
      ∀ cs v rest, value cs = some (v, rest) → Dicts v)
    {cs rest : List Char}
    {m : List Nat × PyJson F}
    (hRead : readMember value cs = some (m, rest)) :
    Dicts m.2 := by
  unfold readMember at hRead
  split at hRead
  · cases hRead
  · split at hRead
    · rcases Option.map_eq_some_iff.mp hRead with
        ⟨r, hR, hEq⟩
      cases hEq
      exact hValue _ _ _ hR
    · cases hRead

theorem readValue_dicts
    {depth : Nat}
    {cs rest : List Char}
    {v : PyJson F}
    (hRead : readValue ops limits depth cs = some (v, rest)) :
    Dicts v := by
  induction depth generalizing cs rest v with
  | zero => exact readScalar_dicts hRead
  | succ depth ih =>
      unfold readValue at hRead
      split at hRead
      · contradiction
      · rename_i hDepth
        cases hDepth
        rcases Option.map_eq_some_iff.mp hRead with
          ⟨r, hItems, hEq⟩
        cases hEq
        apply Dicts.arr
        exact Json.readAll_forall (fun _ _ _ => ih) hItems
      · rename_i hDepth
        cases hDepth
        rcases Option.map_eq_some_iff.mp hRead with
          ⟨r, hMembers, hEq⟩
        cases hEq
        refine .obj (Dict.nodup _) ?_
        intro m hM
        exact Json.readAll_forall
          (fun _ _ _ h => readMember_dicts (fun _ _ _ => ih) h)
          hMembers m (mem_asDict hM)
      · exact readScalar_dicts hRead

theorem loads_dicts
    {text : List Char}
    {v : PyJson F}
    (hLoads : loads ops limits text = some v) :
    Dicts v := by
  unfold loads at hLoads
  split at hLoads
  · cases hLoads
  · rename_i hRead
    split at hLoads
    · cases hLoads
      exact readValue_dicts hRead
    · cases hLoads

end PyJson

------------------------------------------------------------
-- What Is Written Is Plain
------------------------------------------------------------

namespace PyJson

variable {F : Type} {ops : FloatOps F}

/- Printable ASCII. -/
def Plain (text : List Char) : Prop :=
  ∀ c ∈ text, 32 ≤ c.toNat ∧ c.toNat ≤ 126

theorem plain_append
    {text text' : List Char} :
    Plain (text ++ text') ↔ Plain text ∧ Plain text' :=
  List.forall_mem_append

theorem plain_cons
    {c : Char}
    {text : List Char} :
    Plain (c :: text) ↔
      (32 ≤ c.toNat ∧ c.toNat ≤ 126) ∧ Plain text :=
  List.forall_mem_cons

theorem plain_nil : Plain [] := nofun

theorem plain_of_digits
    {text : List Char}
    (hDigits : ∀ c ∈ text, c.isDigit) :
    Plain text := by
  intro c hMem
  have hDigit := hDigits c hMem
  rw [Char.isDigit, Bool.and_eq_true, decide_eq_true_eq,
    decide_eq_true_eq] at hDigit
  have hLow : 48 ≤ c.toNat := hDigit.1
  have hHigh : c.toNat ≤ 57 := hDigit.2
  omega

theorem plain_decimal (n : Nat) : Plain (Numeral.decimal n) :=
  plain_of_digits (fun _ => Numeral.isDigit_of_mem_decimal)

theorem plain_hex (n : Nat) : Plain (Json.hex n) := by
  have hDigit :
      ∀ d, d < 16 →
        32 ≤ (Json.hexDigit d).toNat ∧
          (Json.hexDigit d).toNat ≤ 126 := by
    decide
  have hMod : ∀ m, m % 16 < 16 := fun m => Nat.mod_lt m (by omega)
  simp only [Json.hex, plain_cons]
  exact ⟨hDigit _ (hMod _), hDigit _ (hMod _),
    hDigit _ (hMod _), hDigit _ (hMod _), plain_nil⟩

theorem plain_escapeChar (c : Char) : Plain (Json.escape c) := by
  have hShort :
      ∀ p ∈ Json.shortEscapes, Plain ['\\', p.2] := by
    simp [Plain, Json.shortEscapes]
  unfold Json.escape
  split
  · next e hLookup =>
      rcases List.lookup_eq_some_iff.mp hLookup with
        ⟨before, after, hTable, -⟩
      refine hShort (c, e) ?_
      rw [hTable]
      exact List.mem_append_right _ List.mem_cons_self
  · have hMark : Plain ['\\', 'u'] := by
      simp [Plain]
    have hHex : ∀ n, Plain ('\\' :: 'u' :: Json.hex n) :=
      fun n => plain_append.mpr ⟨hMark, plain_hex n⟩
    split
    next hPlain => exact plain_cons.mpr ⟨hPlain, plain_nil⟩
    next =>
      split
      · exact hHex _
      · exact plain_append.mpr ⟨hHex _, hHex _⟩

theorem plain_escape (n : Nat) : Plain (escape n) := by
  have hMark : Plain ['\\', 'u'] := by
    simp [Plain]
  unfold escape
  split
  · exact plain_append.mpr ⟨hMark, plain_hex n⟩
  · exact plain_escapeChar _

theorem plain_dumpsStr (s : List Nat) :
    Plain (({} : Style).dumpsStr s) := by
  have hQuote : Plain ['"'] := by
    simp [Plain]
  rw [Style.dumpsStr, plain_append, plain_cons]
  refine ⟨⟨(plain_cons.mp hQuote).1, ?_⟩, hQuote⟩
  intro c hMem
  rcases List.mem_flatMap.mp hMem with ⟨n, -, hC⟩
  exact plain_escape n c hC

theorem plain_dumpsInt (n : Int) : Plain (Json.dumpsInt n) := by
  cases n with
  | ofNat n => exact plain_decimal n
  | negSucc n =>
      exact plain_cons.mpr ⟨by decide, plain_decimal _⟩

theorem plain_floatText
    {text : List Char}
    (hText : FloatText text) :
    Plain text := by
  rcases hText with
    ⟨sign, whole, fraction, exponent, rfl, hSign, hTail, -⟩
  have hSigns : Plain ['-'] ∧ Plain ['+'] := by
    simp [Plain]
  refine plain_append.mpr ⟨plain_append.mpr
    ⟨plain_append.mpr ⟨?_, plain_decimal whole⟩, ?_⟩, ?_⟩
  · rcases hSign with rfl | rfl
    · exact plain_nil
    · exact hSigns.1
  · rcases hTail.fraction_eq with rfl | ⟨ds, rfl, -, hDigits⟩
    · exact plain_nil
    · exact plain_cons.mpr
        ⟨by decide, plain_of_digits hDigits⟩
  · rcases hTail.exponent_eq with
      rfl | ⟨sign, ds, rfl, hSign, -, hDigits⟩
    · exact plain_nil
    · refine plain_cons.mpr ⟨by decide, plain_append.mpr
        ⟨?_, plain_of_digits hDigits⟩⟩
      rcases hSign with rfl | rfl | rfl
      · exact plain_nil
      · exact hSigns.2
      · exact hSigns.1

theorem plain_joined
    {close : Char}
    {texts : List (List Char)}
    (hClose : Plain [close])
    (hTexts : ∀ text ∈ texts, Plain text) :
    Plain (({} : Style).joined close texts) := by
  have hComma : Plain [',', ' '] := by
    simp [Plain]
  induction texts with
  | nil => exact hClose
  | cons text texts ih =>
      have hText := hTexts text (by simp)
      have hRest := ih (fun t hMem => hTexts t (by simp [hMem]))
      cases texts with
      | nil => exact plain_append.mpr ⟨hText, hClose⟩
      | cons text' texts =>
          exact plain_append.mpr ⟨hText,
            plain_append.mpr ⟨hComma, hRest⟩⟩

/- All that is written is printable ASCII. -/
theorem plain_encode
    (hLawful : ops.Lawful)
    (v : PyJson F) :
    Plain (encode ops v) := by
  have hWords :
      Plain "null".toList ∧ Plain "true".toList ∧
        Plain "false".toList ∧ Plain "NaN".toList ∧
          Plain "Infinity".toList ∧ Plain "-Infinity".toList := by
    simp [Plain]
  have hMarks :
      Plain [']'] ∧ Plain ['\x7d'] ∧ Plain [':', ' '] := by
    simp [Plain]
  induction v using ind with
  | null => exact hWords.1
  | bool b =>
      cases b
      · exact hWords.2.2.1
      · exact hWords.2.1
  | int n => exact plain_dumpsInt n
  | float x =>
      rw [encode, encodeWith]
      cases x with
      | nan => exact hWords.2.2.2.1
      | inf => exact hWords.2.2.2.2.1
      | negInf => exact hWords.2.2.2.2.2
      | finite x => exact plain_floatText (hLawful.text x)
  | str s => exact plain_dumpsStr s
  | arr items ih =>
      rw [encode, encodeWith, encodeItemsWith_eq]
      refine plain_cons.mpr
        ⟨by decide, plain_joined hMarks.1 ?_⟩
      intro text hMem
      rcases List.mem_map.mp hMem with ⟨v, hV, rfl⟩
      exact ih v hV
  | obj members ih =>
      rw [encode, encodeWith, encodeMembersWith_eq]
      refine plain_cons.mpr
        ⟨by decide, plain_joined hMarks.2.1 ?_⟩
      intro text hMem
      rcases List.mem_map.mp hMem with ⟨m, hM, rfl⟩
      exact plain_append.mpr
        ⟨plain_dumpsStr m.1,
          plain_append.mpr ⟨hMarks.2.2, ih m hM⟩⟩

end PyJson
