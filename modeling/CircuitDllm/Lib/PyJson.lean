import CircuitDllm.Lib.Dict
import CircuitDllm.Lib.Json
import Mathlib.Data.List.TakeWhile

/-
  Python's json.loads and json.dumps on values of any shape.

  Strings are code points, lone surrogates among them.
  Numbers are integers or floats, the constants NaN and
  Infinity too.  Containers nested too deep and integers of
  too many digits raise, in reading and in writing alike.

  Main declarations:
    * `PyJson`, `PyFloat`, `FloatOps`, `Limits`
    * `PyJson.loads`
    * `PyJson.Style`, `PyJson.dumpsWith`, `PyJson.dumps`
    * `PyJson.Fits`, `PyJson.loads_fits`
    * `PyJson.dumpsWith_eq_encode`
-/

------------------------------------------------------------
-- Values
------------------------------------------------------------

/- A Python float; `F` are the finite ones. -/
inductive PyFloat (F : Type) where
  | nan
  | inf
  | negInf
  | finite (x : F)

/- What json uses of float. -/
structure FloatOps (F : Type) where
  ofText : List Char → PyFloat F
  repr : F → List Char
  isZero : F → Bool

/- What json.loads returns; a dict keeps each key once. -/
inductive PyJson (F : Type) where
  | null
  | bool (b : Bool)
  | int (n : Int)
  | float (x : PyFloat F)
  | str (s : List Nat)
  | arr (items : List (PyJson F))
  | obj (members : List (List Nat × PyJson F))

/-
  How deep containers may nest, and how many digits an
  integer may have; with digits = 0 it may have any number.
-/
structure Limits where
  depth : Nat
  digits : Nat

namespace Limits

def tooLong (limits : Limits) (digits : Nat) : Bool :=
  limits.digits ≠ 0 ∧ limits.digits < digits

end Limits

namespace PyJson

variable {F : Type}

/- The code points of a text. -/
def codePoints (s : List Char) : List Nat :=
  s.map Char.toNat

/- The value of a key, if the dict has it. -/
def get?
    (members : List (List Nat × PyJson F))
    (key : String) :
    Option (PyJson F) :=
  members.lookup (codePoints key.toList)

/- bool(value) -/
def truthy (ops : FloatOps F) : PyJson F → Bool
| .null => false
| .bool b => b
| .int n => n ≠ 0
| .float (.finite x) => !ops.isZero x
| .float _ => true
| .str s => !s.isEmpty
| .arr items => !items.isEmpty
| .obj members => !members.isEmpty

def isObj : PyJson F → Bool
| .obj _ => true
| _ => false

end PyJson

------------------------------------------------------------
-- Reading
------------------------------------------------------------

namespace PyJson

variable {F : Type}

/- The second half of a surrogate pair. -/
def lowHalf : Json.Reader Nat
| '\\' :: 'u' :: rest =>
  match Json.readHex rest with
  | none => none
  | some (m, rest) =>
    if 56320 ≤ m ∧ m < 57344 then some (m, rest) else none
| _ => none

/- Two halves are joined; one alone stands for itself. -/
def readUnicode : Json.Reader Nat :=
  fun cs =>
    match Json.readHex cs with
    | none => none
    | some (n, rest) =>
      if 55296 ≤ n ∧ n < 56320 then
        match lowHalf rest with
        | none => some (n, rest)
        | some (m, rest) =>
          some (65536 + 1024 * (n - 55296) + (m - 56320), rest)
      else some (n, rest)

/- A character that starts with `c`, maybe an escape. -/
def readChar (c : Char) (rest : List Char) :
    Option (Nat × List Char) :=
  if c = '\\' then
    match rest with
    | [] => none
    | e :: rest =>
      if e = 'u' then readUnicode rest
      else (Json.unescape e).map (fun c => (c.toNat, rest))
  else if c.toNat < 32 then none
  else some (c.toNat, rest)

/- The characters of a string up to its closing quote. -/
def readChars : Nat → Json.Reader (List Nat)
| 0, _ => none
| _, [] => none
| fuel + 1, c :: rest =>
    if c = '"' then some ([], rest)
    else
      match readChar c rest with
      | none => none
      | some (n, rest) =>
        (readChars fuel rest).map (fun r => (n :: r.1, r.2))

/- Every character takes one of the text at least. -/
def readStr : Json.Reader (List Nat)
| '"' :: rest => readChars (rest.length + 1) rest
| _ => none

/- The first character, if it is in the class. -/
def takeOne (p : Char → Bool) :
    List Char → List Char × List Char
| [] => ([], [])
| c :: rest => if p c then ([c], rest) else ([], c :: rest)

/- No number but 0 starts with a zero. -/
def readWhole : Json.Reader (List Char)
| '0' :: rest => some (['0'], rest)
| cs =>
  match cs.takeWhile Char.isDigit with
  | [] => none
  | ds => some (ds, cs.dropWhile Char.isDigit)

/- A point is taken with a digit after it only. -/
def readFraction : List Char → List Char × List Char
| '.' :: rest =>
  match rest.takeWhile Char.isDigit with
  | [] => ([], '.' :: rest)
  | ds => ('.' :: ds, rest.dropWhile Char.isDigit)
| cs => ([], cs)

def readExponent : List Char → List Char × List Char
| [] => ([], [])
| e :: rest =>
    if e = 'e' ∨ e = 'E' then
      let sign := takeOne (fun c => c = '+' ∨ c = '-') rest
      match sign.2.takeWhile Char.isDigit with
      | [] => ([], e :: rest)
      | ds =>
        (e :: sign.1 ++ ds, sign.2.dropWhile Char.isDigit)
    else ([], e :: rest)

/- int(text) or float(text), as the text has a point or not. -/
def readNumber (ops : FloatOps F) (limits : Limits) :
    Json.Reader (PyJson F) :=
  fun cs =>
    let sign := takeOne (· = '-') cs
    match readWhole sign.2 with
    | none => none
    | some (whole, rest) =>
      let fraction := readFraction rest
      let exponent := readExponent fraction.2
      if fraction.1 = [] ∧ exponent.1 = [] then
        let n : Int := Nat.ofDigitChars 10 whole 0
        if limits.tooLong whole.length then none
        else some (.int (if sign.1 = [] then n else -n), rest)
      else
        some (.float (ops.ofText
          (sign.1 ++ whole ++ fraction.1 ++ exponent.1)),
          exponent.2)

def constants : List (String × PyJson F) :=
  [("null", .null), ("true", .bool true),
    ("false", .bool false), ("NaN", .float .nan),
    ("Infinity", .float .inf), ("-Infinity", .float .negInf)]

def readConstant : Json.Reader (PyJson F) :=
  fun cs =>
    constants.findSome? (fun w =>
      if w.1.toList.isPrefixOf cs then
        some (w.2, cs.drop w.1.toList.length)
      else none)

/- A value that is no container. -/
def readScalar (ops : FloatOps F) (limits : Limits) :
    Json.Reader (PyJson F) :=
  fun cs =>
    match readStr cs with
    | some (s, rest) => some (.str s, rest)
    | none =>
      match readConstant cs with
      | some found => some found
      | none => readNumber ops limits cs

def readMember (value : Json.Reader (PyJson F)) :
    Json.Reader (List Nat × PyJson F) :=
  fun cs =>
    match readStr cs with
    | none => none
    | some (key, rest) =>
      match Json.skip rest with
      | ':' :: rest =>
        (value (Json.skip rest)).map (fun r =>
          ((key, r.1), r.2))
      | _ => none

/- A key that comes again keeps its place, not its value. -/
def asDict (members : List (List Nat × PyJson F)) :
    List (List Nat × PyJson F) :=
  (Dict.empty.setAll some members).entries

/- With no depth left a container is not read. -/
def readValue (ops : FloatOps F) (limits : Limits) :
    Nat → Json.Reader (PyJson F)
| 0, cs => readScalar ops limits cs
| depth + 1, '[' :: rest =>
    (Json.readAll ']' (readValue ops limits depth)
      rest.length rest).map (fun r => (.arr r.1, r.2))
| depth + 1, '{' :: rest =>
    (Json.readAll '}' (readMember (readValue ops limits depth))
      rest.length rest).map (fun r =>
        (.obj (asDict r.1), r.2))
| _ + 1, cs => readScalar ops limits cs

/- json.loads; none if it raises. -/
def loads
    (ops : FloatOps F)
    (limits : Limits)
    (text : List Char) :
    Option (PyJson F) :=
  match readValue ops limits limits.depth (Json.skip text) with
  | none => none
  | some (v, rest) =>
    if Json.skip rest = [] then some v else none

end PyJson

------------------------------------------------------------
-- Writing
------------------------------------------------------------

namespace PyJson

variable {F : Type}

/- What json.dumps puts between items; its defaults. -/
structure Style where
  afterComma : List Char := [' ']
  afterColon : List Char := [' ']
  ensureAscii : Bool := true

/- separators=(",", ":"), ensure_ascii=False -/
def Style.compact : Style where
  afterComma := []
  afterColon := []
  ensureAscii := false

/- A lone surrogate is written as one escape. -/
def escape (n : Nat) : List Char :=
  if 55296 ≤ n ∧ n < 57344 then '\\' :: 'u' :: Json.hex n
  else Json.escape (Char.ofNat n)

/- Only quotes, backslashes and controls are escaped. -/
def escapePlain (n : Nat) : List Char :=
  match Json.shortEscapes.lookup (Char.ofNat n) with
  | some e => ['\\', e]
  | none =>
    if n < 32 then '\\' :: 'u' :: Json.hex n
    else [Char.ofNat n]

namespace Style

variable (style : Style)

def escape (n : Nat) : List Char :=
  if style.ensureAscii then PyJson.escape n else escapePlain n

def dumpsStr (s : List Nat) : List Char :=
  '"' :: s.flatMap style.escape ++ ['"']

def dumpsMember (key : List Nat) (value : List Char) :
    List Char :=
  style.dumpsStr key ++ ':' :: (style.afterColon ++ value)

/- Texts with commas between them, up to the bracket. -/
def joined (close : Char) : List (List Char) → List Char
| [] => [close]
| [text] => text ++ [close]
| text :: text' :: texts =>
    text ++ ',' ::
      (style.afterComma ++ joined close (text' :: texts))

end Style

def dumpsFloat (ops : FloatOps F) : PyFloat F → List Char
| .nan => "NaN".toList
| .inf => "Infinity".toList
| .negInf => "-Infinity".toList
| .finite x => ops.repr x

mutual

/- The text of a value in a style. -/
def encodeWith (ops : FloatOps F) (style : Style) :
    PyJson F → List Char
| .null => "null".toList
| .bool true => "true".toList
| .bool false => "false".toList
| .int n => Json.dumpsInt n
| .float x => dumpsFloat ops x
| .str s => style.dumpsStr s
| .arr items =>
    '[' :: style.joined ']' (encodeItemsWith ops style items)
| .obj members =>
    '{' :: style.joined '}'
      (encodeMembersWith ops style members)

def encodeItemsWith (ops : FloatOps F) (style : Style) :
    List (PyJson F) → List (List Char)
| [] => []
| item :: items =>
    encodeWith ops style item ::
      encodeItemsWith ops style items

def encodeMembersWith (ops : FloatOps F) (style : Style) :
    List (List Nat × PyJson F) → List (List Char)
| [] => []
| (key, value) :: members =>
    style.dumpsMember key (encodeWith ops style value) ::
      encodeMembersWith ops style members

end

/- The text of a value in the default style. -/
def encode (ops : FloatOps F) (v : PyJson F) : List Char :=
  encodeWith ops {} v

/- What json.dumps raises. -/
inductive DumpsError where
  | recursionError
  | valueError
deriving DecidableEq, Repr

def dumpsScalar
    (ops : FloatOps F)
    (limits : Limits)
    (style : Style) :
    PyJson F → Except DumpsError (List Char)
| .arr _ => .error .recursionError
| .obj _ => .error .recursionError
| .int n =>
    if limits.tooLong (Numeral.decimal n.natAbs).length then
      .error .valueError
    else .ok (Json.dumpsInt n)
| v => .ok (encodeWith ops style v)

def dumpsValue
    (ops : FloatOps F)
    (limits : Limits)
    (style : Style) :
    Nat → PyJson F → Except DumpsError (List Char)
| 0, v => dumpsScalar ops limits style v
| depth + 1, .arr items => do
    let texts ←
      items.mapM (dumpsValue ops limits style depth)
    return '[' :: style.joined ']' texts
| depth + 1, .obj members => do
    let texts ← members.mapM (fun m => do
      let value ← dumpsValue ops limits style depth m.2
      return style.dumpsMember m.1 value)
    return '{' :: style.joined '}' texts
| _ + 1, v => dumpsScalar ops limits style v

/- json.dumps with the options of a style. -/
def dumpsWith
    (ops : FloatOps F)
    (limits : Limits)
    (style : Style)
    (v : PyJson F) :
    Except DumpsError (List Char) :=
  dumpsValue ops limits style limits.depth v

/- json.dumps with its default options. -/
def dumps
    (ops : FloatOps F)
    (limits : Limits)
    (v : PyJson F) :
    Except DumpsError (List Char) :=
  dumpsWith ops limits {} v

end PyJson

------------------------------------------------------------
-- Values Within The Limits
------------------------------------------------------------

namespace PyJson

variable {F : Type} {ops : FloatOps F} {limits : Limits}

/- A value that is nested at most so deep. -/
inductive Fits (limits : Limits) : Nat → PyJson F → Prop
| null {depth : Nat} : Fits limits depth .null
| bool {depth : Nat} {b : Bool} : Fits limits depth (.bool b)
| int
    {depth : Nat}
    {n : Int}
    (hShort :
      ¬ limits.tooLong (Numeral.decimal n.natAbs).length) :
    Fits limits depth (.int n)
| float {depth : Nat} {x : PyFloat F} :
    Fits limits depth (.float x)
| str {depth : Nat} {s : List Nat} :
    Fits limits depth (.str s)
| arr
    {depth : Nat}
    {items : List (PyJson F)}
    (hItems : ∀ v ∈ items, Fits limits depth v) :
    Fits limits (depth + 1) (.arr items)
| obj
    {depth : Nat}
    {members : List (List Nat × PyJson F)}
    (hMembers : ∀ m ∈ members, Fits limits depth m.2) :
    Fits limits (depth + 1) (.obj members)

theorem Fits.succ
    {depth : Nat}
    {v : PyJson F}
    (hFits : Fits limits depth v) :
    Fits limits (depth + 1) v := by
  induction hFits with
  | null => exact .null
  | bool => exact .bool
  | int hShort => exact .int hShort
  | float => exact .float
  | str => exact .str
  | arr hItems ih => exact .arr ih
  | obj hMembers ih => exact .obj ih

/- What a dict holds fits where the dict does. -/
theorem Fits.of_obj
    {depth : Nat}
    {members : List (List Nat × PyJson F)}
    (hFits : Fits limits depth (.obj members))
    {m : List Nat × PyJson F}
    (hMem : m ∈ members) :
    Fits limits depth m.2 := by
  cases hFits with
  | obj hMembers => exact (hMembers m hMem).succ

end PyJson

------------------------------------------------------------
-- What Is Read Fits
------------------------------------------------------------

namespace PyJson

variable {F : Type} {ops : FloatOps F} {limits : Limits}

/- Digits stand for a number that takes no more of them. -/
theorem length_decimal_le
    {ds : List Char}
    (hDigits : ∀ c ∈ ds, c.isDigit)
    (hSome : ds ≠ []) :
    (Numeral.decimal (Nat.ofDigitChars 10 ds 0)).length ≤
      ds.length := by
  have hLt : Nat.ofDigitChars 10 ds 0 < 10 ^ ds.length := by
    clear hSome
    induction ds with
    | nil => exact Nat.one_pos
    | cons c ds ih =>
        have hC := Numeral.isDigit_le
          (hDigits c List.mem_cons_self)
        have hRest := ih
          (fun d hD => hDigits d (List.mem_cons_of_mem c hD))
        rw [Nat.ofDigitChars_cons,
          Nat.ofDigitChars_eq_ofDigitChars_zero,
          List.length_cons, Nat.pow_succ]
        calc
          10 ^ ds.length * (10 * 0 + (c.toNat - '0'.toNat)) +
              Nat.ofDigitChars 10 ds 0
              < 10 ^ ds.length *
                  (10 * 0 + (c.toNat - '0'.toNat)) +
                10 ^ ds.length := Nat.add_lt_add_left hRest _
          _ = 10 ^ ds.length *
                (10 * 0 + (c.toNat - '0'.toNat) + 1) := by
              rw [Nat.mul_succ]
          _ ≤ 10 ^ ds.length * 10 := by
              apply Nat.mul_le_mul_left
              have hZero : '0'.toNat = 48 := rfl
              omega
  rw [Numeral.decimal, Nat.length_toDigits_le_iff (by omega)
    (List.length_pos_of_ne_nil hSome)]
  exact hLt

theorem readWhole_digits
    {cs rest ds : List Char}
    (hRead : readWhole cs = some (ds, rest)) :
    (∀ c ∈ ds, c.isDigit) ∧ ds ≠ [] := by
  unfold readWhole at hRead
  split at hRead
  · cases hRead
    refine ⟨?_, List.cons_ne_nil _ _⟩
    intro c hC
    rw [List.mem_singleton.mp hC]
    rfl
  · split at hRead
    · cases hRead
    · rename_i hTake hSome
      cases hRead
      exact ⟨fun c hC => List.mem_takeWhile_imp hC, hSome⟩

theorem tooLong_mono
    {m n : Nat}
    (hLe : m ≤ n)
    (hLong : limits.tooLong m) :
    limits.tooLong n := by
  simp only [Limits.tooLong, decide_eq_true_eq] at hLong ⊢
  exact ⟨hLong.1, lt_of_lt_of_le hLong.2 hLe⟩

theorem readNumber_fits
    {depth : Nat}
    {cs rest : List Char}
    {v : PyJson F}
    (hRead : readNumber ops limits cs = some (v, rest)) :
    Fits limits depth v := by
  unfold readNumber at hRead
  simp only at hRead
  split at hRead
  · cases hRead
  · rename_i whole rest' hWhole
    split at hRead
    · split at hRead
      · cases hRead
      · rename_i hShort
        cases hRead
        apply Fits.int
        rcases readWhole_digits hWhole with ⟨hDigits, hSome⟩
        have hLe := length_decimal_le hDigits hSome
        intro hLong
        apply hShort
        split at hLong
        · exact tooLong_mono hLe hLong
        · rw [Int.natAbs_neg] at hLong
          exact tooLong_mono hLe hLong
    · cases hRead
      exact .float

theorem constants_fit
    {depth : Nat}
    (w : String × PyJson F)
    (hMem : w ∈ constants) :
    Fits limits depth w.2 := by
  simp only [constants, List.mem_cons, List.not_mem_nil,
    or_false] at hMem
  rcases hMem with rfl | rfl | rfl | rfl | rfl | rfl
  · exact .null
  · exact .bool
  · exact .bool
  · exact .float
  · exact .float
  · exact .float

theorem readScalar_fits
    {depth : Nat}
    {cs rest : List Char}
    {v : PyJson F}
    (hRead : readScalar ops limits cs = some (v, rest)) :
    Fits limits depth v := by
  unfold readScalar at hRead
  split at hRead
  · cases hRead
    exact .str
  · split at hRead
    · rename_i found hConstant
      rcases List.exists_of_findSome?_eq_some hConstant with
        ⟨w, hMem, hW⟩
      split at hW
      · cases hW
        cases hRead
        exact constants_fit w hMem
      · cases hW
    · exact readNumber_fits hRead

theorem mem_asDict
    {members : List (List Nat × PyJson F)}
    {m : List Nat × PyJson F}
    (hMem : m ∈ asDict members) :
    m ∈ members := by
  have hAll :
      ∀ (d : Dict (List Nat) (PyJson F)) members,
        m ∈ (d.setAll some members).entries →
          m ∈ d.entries ∨ m ∈ members := by
    intro d members hM
    induction members generalizing d with
    | nil => exact .inl hM
    | cons m' members ih =>
        rcases m' with ⟨k, w⟩
        rcases ih (d.set k w) hM with hSet | hRest
        · rw [← Dict.get?_eq_some, Dict.get?_set] at hSet
          split at hSet
          · rename_i hKey
            cases hSet
            rw [hKey]
            exact .inr List.mem_cons_self
          · exact .inl (Dict.get?_eq_some.mp hSet)
        · exact .inr (List.mem_cons_of_mem _ hRest)
  rcases hAll Dict.empty members hMem with hNone | hIn
  · cases hNone
  · exact hIn

theorem readMember_fits
    {depth : Nat}
    {value : Json.Reader (PyJson F)}
    (hValue : ∀ cs v rest, value cs = some (v, rest) →
      Fits limits depth v)
    {cs rest : List Char}
    {m : List Nat × PyJson F}
    (hRead : readMember value cs = some (m, rest)) :
    Fits limits depth m.2 := by
  unfold readMember at hRead
  split at hRead
  · cases hRead
  · split at hRead
    · rcases Option.map_eq_some_iff.mp hRead with
        ⟨r, hR, hEq⟩
      cases hEq
      exact hValue _ _ _ hR
    · cases hRead

/- Whatever is read is within the limits. -/
theorem readValue_fits
    {depth : Nat}
    {cs rest : List Char}
    {v : PyJson F}
    (hRead : readValue ops limits depth cs = some (v, rest)) :
    Fits limits depth v := by
  induction depth generalizing cs rest v with
  | zero => exact readScalar_fits hRead
  | succ depth ih =>
      unfold readValue at hRead
      split at hRead
      · contradiction
      · rename_i hDepth
        cases hDepth
        rcases Option.map_eq_some_iff.mp hRead with
          ⟨r, hItems, hEq⟩
        cases hEq
        apply Fits.arr
        exact Json.readAll_forall (fun _ _ _ => ih) hItems
      · rename_i hDepth
        cases hDepth
        rcases Option.map_eq_some_iff.mp hRead with
          ⟨r, hMembers, hEq⟩
        cases hEq
        apply Fits.obj
        intro m hM
        exact Json.readAll_forall
          (fun _ _ _ h => readMember_fits (fun _ _ _ => ih) h)
          hMembers m (mem_asDict hM)
      · exact readScalar_fits hRead

theorem loads_fits
    {text : List Char}
    {v : PyJson F}
    (hLoads : loads ops limits text = some v) :
    Fits limits limits.depth v := by
  unfold loads at hLoads
  split at hLoads
  · cases hLoads
  · rename_i hRead
    split at hLoads
    · cases hLoads
      exact readValue_fits hRead
    · cases hLoads

end PyJson

------------------------------------------------------------
-- What Fits Is Written
------------------------------------------------------------

namespace PyJson

variable {F : Type} {ops : FloatOps F} {limits : Limits}
  {style : Style}

theorem encodeItemsWith_eq (items : List (PyJson F)) :
    encodeItemsWith ops style items =
      items.map (encodeWith ops style) := by
  induction items with
  | nil => rw [encodeItemsWith, List.map_nil]
  | cons item items ih =>
      rw [encodeItemsWith, List.map_cons, ih]

theorem encodeMembersWith_eq
    (members : List (List Nat × PyJson F)) :
    encodeMembersWith ops style members =
      members.map (fun m =>
        style.dumpsMember m.1 (encodeWith ops style m.2)) := by
  induction members with
  | nil => rw [encodeMembersWith, List.map_nil]
  | cons m members ih =>
      rw [encodeMembersWith, List.map_cons, ih]

theorem mapM_ok
    {α β ε : Type}
    {f : α → Except ε β}
    {g : α → β}
    {xs : List α}
    (hOk : ∀ x ∈ xs, f x = .ok (g x)) :
    xs.mapM f = .ok (xs.map g) := by
  induction xs with
  | nil => rfl
  | cons x xs ih =>
      rw [List.mapM_cons, hOk x List.mem_cons_self,
        ih (fun y hY => hOk y (List.mem_cons_of_mem x hY))]
      rfl

/- Within the limits json.dumps does not raise. -/
theorem dumpsValue_eq_encode
    {depth : Nat}
    {v : PyJson F}
    (hFits : Fits limits depth v) :
    dumpsValue ops limits style depth v =
      .ok (encodeWith ops style v) := by
  induction hFits with
  | @null depth => cases depth <;> rfl
  | @bool depth b => cases depth <;> rfl
  | @int depth n hShort =>
      have hScalar :
          dumpsScalar ops limits style (.int n) =
            .ok (encodeWith ops style (.int n)) := by
        rw [dumpsScalar, if_neg hShort, encodeWith]
      cases depth with
      | zero => exact hScalar
      | succ depth => exact hScalar
  | @float depth x => cases depth <;> rfl
  | @str depth s => cases depth <;> rfl
  | arr hItems ih =>
      rw [dumpsValue, mapM_ok ih, encodeWith,
        encodeItemsWith_eq]
      rfl
  | @obj depth members hMembers ih =>
      have hOk :
          ∀ m ∈ members,
            (do
              let value ←
                dumpsValue ops limits style depth m.2
              return style.dumpsMember m.1 value :
                Except DumpsError (List Char)) =
              .ok (style.dumpsMember m.1
                (encodeWith ops style m.2)) := by
        intro m hM
        rw [ih m hM]
        rfl
      rw [dumpsValue, mapM_ok hOk, encodeWith,
        encodeMembersWith_eq]
      rfl

theorem dumpsWith_eq_encode
    {v : PyJson F}
    (hFits : Fits limits limits.depth v) :
    dumpsWith ops limits style v =
      .ok (encodeWith ops style v) :=
  dumpsValue_eq_encode hFits

theorem dumps_eq_encode
    {v : PyJson F}
    (hFits : Fits limits limits.depth v) :
    dumps ops limits v = .ok (encode ops v) :=
  dumpsWith_eq_encode hFits

/- A value of a dict that is read, or else an empty dict. -/
theorem get?_getD_fits
    {depth : Nat}
    {members : List (List Nat × PyJson F)}
    (hFits : Fits limits depth (.obj members))
    (key : String) :
    Fits limits depth ((get? members key).getD (.obj [])) := by
  cases hGet : get? members key with
  | none =>
      cases hFits with
      | obj hMembers =>
          apply Fits.obj
          intro m hM
          cases hM
  | some v =>
      rcases List.lookup_eq_some_iff.mp hGet with
        ⟨before, after, hMembers, -⟩
      apply hFits.of_obj (m := (codePoints key.toList, v))
      rw [hMembers]
      exact List.mem_append_right _ List.mem_cons_self

end PyJson
