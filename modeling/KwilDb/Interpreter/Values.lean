import KwilDb.Lib.Strconv
import KwilDb.Types.Payloads

/-!
# The values of the action interpreter

The values of `node/engine/interpreter/values.go`: a scalar of each type, with `none` for SQL
NULL (an invalid `pgtype` value, a nil byte slice), the one-dimensional arrays of each scalar
type, and `arrayOfNulls`; the table `kwilTypeToValue` that makes the null and the zero value of
a type; the casts; `getArr` and `setArr`; `int8Value.Arithmetic`; and the text form that
extension metadata is stored in, `stringifyValue` and `parseValue`.

* `int8Value.Arithmetic` is Go's `int64` arithmetic. `+`, `-` and `*` wrap, and `/` and `%`
  truncate, so the result is the exact one reduced into the 64-bit range
  (`int8Arithmetic_of_exact`). A result outside the range comes back wrapped, with no error.
* `getArr` outside `1..Len` asks `makeNull` for a null of the array's own type. That is an
  array, not a scalar, so the read fails (`getArr_out_of_range`).
* Both growth paths of `setArr` write the same elements (`setArr_fast_path`). Where it
  succeeds, `setArr` writes the one position and leaves the others as they were
  (`setArr_getD`).
* A text that reads `NULL` is stored as `NULL` and read back as the null of its type.

Record values are not modelled: nothing modelled here produces or reads one.
-/

namespace KwilDb.Core

/-- `DataType.String`: the base name of the alias, `(precision,scale)` after a numeric, and
`[]` after an array. -/
def DataType.string (t : DataType) : String :=
  let aliased := (typeAlias t.name).getD ("[!invalid!]" ++ t.name)
  let base :=
    if aliased = "numeric" then
      aliased ++ "(" ++ toString t.metadata.1.toNat ++ "," ++ toString t.metadata.2.toNat ++ ")"
    else aliased
  if t.isArray then base ++ "[]" else base

/-- `DataType.EqualsStrict`: the same array flag and metadata, and the names equal up to case
(`strings.EqualFold`, here on ASCII letters). -/
def DataType.equalsStrict (t o : DataType) : Bool :=
  t.isArray == o.isArray && t.metadata == o.metadata &&
    t.name.toList.map Char.toLower == o.name.toList.map Char.toLower

/-- `DataType.HasMetadata`. -/
def DataType.hasMetadata (t : DataType) : Bool := t.metadata != (0, 0)

end KwilDb.Core

namespace KwilDb.Interpreter

open KwilDb.Core (DataType typeAlias Bytes goString goBytes)
open KwilDb.Types (UUID)
open KwilDb.Lib

/-! ### Types and errors -/

/-- `types.IntType` and the other scalar types, with no metadata. -/
def intType : DataType := ⟨"int8", false, (0, 0)⟩
def textType : DataType := ⟨"text", false, (0, 0)⟩
def boolType : DataType := ⟨"bool", false, (0, 0)⟩
def byteaType : DataType := ⟨"bytea", false, (0, 0)⟩
def uuidType : DataType := ⟨"uuid", false, (0, 0)⟩
def numericType : DataType := ⟨"numeric", false, (0, 0)⟩
def nullType : DataType := ⟨"null", false, (0, 0)⟩

/-- `engine.ErrType` and the other errors of the engine that the values wrap. -/
def errType : String := "type error"
def errArithmetic : String := "arithmetic error"
def errCast : String := "type cast error"
def errIndexOutOfBounds : String := "index out of bounds"
def errInvalidNull : String := "invalid null value"
def errArrayTooSmall : String := "array too small"
def errArrayDimensionality : String := "array dimensionality error"

/-- `castErr`. -/
def castErr (e : String) : String := errCast ++ ": " ++ e

/-- What the values take from outside this package: the decimal of `core/types` (its parsers,
its text, `SetPrecisionAndScale`, `Int64`, and the precision and scale it carries), and
`types.ParseUUID` and `UUID.String`. -/
structure Externals (D : Type) where
  parseDecimal : String → Except String D
  parseDecimalExplicit : String → UInt16 → UInt16 → Except String D
  decimalString : D → String
  setPrecisionAndScale : D → UInt16 → UInt16 → Except String D
  decimalInt64 : D → Except String Int64
  precisionAndScale : D → UInt16 × UInt16
  parseUUID : String → Except String UUID
  uuidString : UUID → String

/-- The externals of a build with no decimal values, in which no decimal and no UUID text
parses. -/
def Externals.none : Externals Empty where
  parseDecimal _ := .error "decimal: not supported"
  parseDecimalExplicit _ _ _ := .error "decimal: not supported"
  decimalString d := d.elim
  setPrecisionAndScale d := d.elim
  decimalInt64 d := d.elim
  precisionAndScale d := d.elim
  parseUUID _ := .error "invalid UUID"
  uuidString u := KwilDb.Core.hexEncode u.toList

/-- Go's `math.Pow` and its conversion of a `float64` to `int64`, which Go leaves to the
platform outside the range (`amd64` gives `MinInt64`, `arm64` saturates). -/
structure FloatOps where
  pow : Float → Float → Float
  toInt64 : Float → Int64

/-- The C library's `pow` and a saturating conversion, as on `arm64`. -/
def saturatingFloatOps : FloatOps := ⟨Float.pow, Float.toInt64⟩

/-! ### Values -/

/-- A `scalarValue`. A decimal carries the precision and scale its `metadata` points to;
`null` is `nullValue`, the NULL of no type. -/
inductive Scalar (D : Type) where
  | int8 (v : Option Int64)
  | text (v : Option String)
  | bool (v : Option Bool)
  | blob (v : Option Bytes)
  | uuid (v : Option UUID)
  | decimal (v : Option D) (metadata : Option (UInt16 × UInt16))
  | null
deriving DecidableEq, Repr

/-- An `arrayValue`: the elements of `singleDimArray[T]`, `none` when the array is NULL, and
the length of an `arrayOfNulls`. -/
inductive ArrayValue (D : Type) where
  | int8 (elems : Option (List (Option Int64)))
  | text (elems : Option (List (Option String)))
  | bool (elems : Option (List (Option Bool)))
  | blob (elems : Option (List (Option Bytes)))
  | uuid (elems : Option (List (Option UUID)))
  | decimal (elems : Option (List (Option D))) (metadata : Option (UInt16 × UInt16))
  | nulls (length : Int32)
deriving DecidableEq, Repr

/-- A `value`: a scalar or an array. -/
inductive Value (D : Type) where
  | scalar (s : Scalar D)
  | array (a : ArrayValue D)
deriving DecidableEq, Repr

variable {D : Type}

namespace Scalar

/-- `Type()`. -/
def type : Scalar D → DataType
  | .int8 _ => intType
  | .text _ => textType
  | .bool _ => boolType
  | .blob _ => byteaType
  | .uuid _ => uuidType
  | .decimal _ none => numericType
  | .decimal _ (some md) => { numericType with metadata := md }
  | .null => nullType

/-- `Null()`. -/
def isNull : Scalar D → Bool
  | .int8 v => v.isNone
  | .text v => v.isNone
  | .bool v => v.isNone
  | .blob v => v.isNone
  | .uuid v => v.isNone
  | .decimal v _ => v.isNone
  | .null => true

/-- The `%T` of the value. -/
def goType : Scalar D → String
  | .int8 _ => "*interpreter.int8Value"
  | .text _ => "*interpreter.textValue"
  | .bool _ => "*interpreter.boolValue"
  | .blob _ => "*interpreter.blobValue"
  | .uuid _ => "*interpreter.uuidValue"
  | .decimal _ _ => "*interpreter.decimalValue"
  | .null => "*interpreter.nullValue"

end Scalar

namespace ArrayValue

/-- `Type()`. -/
def type : ArrayValue D → DataType
  | .int8 _ => { intType with isArray := true }
  | .text _ => { textType with isArray := true }
  | .bool _ => { boolType with isArray := true }
  | .blob _ => { byteaType with isArray := true }
  | .uuid _ => { uuidType with isArray := true }
  | .decimal _ none => { numericType with isArray := true }
  | .decimal _ (some md) => { numericType with isArray := true, metadata := md }
  | .nulls _ => { nullType with isArray := true }

/-- `Null()`: an `arrayOfNulls` is never null. -/
def isNull : ArrayValue D → Bool
  | .int8 a | .text a | .bool a | .blob a | .uuid a | .decimal a _ => a.isNone
  | .nulls _ => false

/-- The `%T` of the value. -/
def goType : ArrayValue D → String
  | .int8 _ => "*interpreter.int8ArrayValue"
  | .text _ => "*interpreter.textArrayValue"
  | .bool _ => "*interpreter.boolArrayValue"
  | .blob _ => "*interpreter.blobArrayValue"
  | .uuid _ => "*interpreter.uuidArrayValue"
  | .decimal _ _ => "*interpreter.decimalArrayValue"
  | .nulls _ => "*interpreter.arrayOfNulls"

end ArrayValue

namespace Value

/-- `Type()`. -/
def type : Value D → DataType
  | .scalar s => s.type
  | .array a => a.type

/-- `Null()`. -/
def isNull : Value D → Bool
  | .scalar s => s.isNull
  | .array a => a.isNull

/-- The `%T` of the value. -/
def goType : Value D → String
  | .scalar s => s.goType
  | .array a => a.goType

end Value

/-! ### The null and the zero of a type -/

/-- `makeNull`: the `NullValue` of the type's entry in `kwilTypeToValue`. -/
def makeNull (t : DataType) : Except String (Value D) :=
  match t.name, t.isArray with
  | "int8", false => .ok (.scalar (.int8 none))
  | "text", false => .ok (.scalar (.text none))
  | "bool", false => .ok (.scalar (.bool none))
  | "bytea", false => .ok (.scalar (.blob none))
  | "uuid", false => .ok (.scalar (.uuid none))
  | "numeric", false =>
    if t.hasMetadata then .ok (.scalar (.decimal none (some t.metadata)))
    else .error "cannot create null value of decimal type with zero precision and scale"
  | "null", false => .ok (.scalar .null)
  | "int8", true => .ok (.array (.int8 none))
  | "text", true => .ok (.array (.text none))
  | "bool", true => .ok (.array (.bool none))
  | "bytea", true => .ok (.array (.blob none))
  | "uuid", true => .ok (.array (.uuid none))
  | "numeric", true => .ok (.array (.decimal none (some t.metadata)))
  | "null", true => .error "cannot create null value of null array type"
  | _, _ => .error ("type " ++ t.string ++ " not found")

/-- `newZeroValue`: the `ZeroValue` of the type's entry in `kwilTypeToValue`. -/
def newZeroValue (ext : Externals D) (t : DataType) : Except String (Value D) :=
  match t.name, t.isArray with
  | "int8", false => .ok (.scalar (.int8 (some 0)))
  | "text", false => .ok (.scalar (.text (some "")))
  | "bool", false => .ok (.scalar (.bool (some false)))
  | "bytea", false => .ok (.scalar (.blob (some [])))
  | "uuid", false => .ok (.scalar (.uuid (some (Vector.replicate 16 0))))
  | "numeric", false =>
    if t.hasMetadata then
      (ext.parseDecimal "0").map fun dec => .scalar (.decimal (some dec) (some t.metadata))
    else .error "cannot create zero value of decimal type with zero precision and scale"
  | "null", false => .error "cannot create zero value of null type"
  | "int8", true => .ok (.array (.int8 (some [])))
  | "text", true => .ok (.array (.text (some [])))
  | "bool", true => .ok (.array (.bool (some [])))
  | "bytea", true => .ok (.array (.blob (some [])))
  | "uuid", true => .ok (.array (.uuid (some [])))
  | "numeric", true => .ok (.array (.decimal (some []) (some t.metadata)))
  | "null", true => .ok (.array (.nulls 0))
  | _, _ => .error ("type " ++ t.string ++ " not found")

/-- `makeDecimal` of a decimal that is there: its own precision and scale are the metadata. -/
def makeDecimal (ext : Externals D) (dec : D) : Scalar D :=
  .decimal (some dec) (some (ext.precisionAndScale dec))

/-! ### Casts -/

/-- `Cast` of each scalar type; a null of any type casts to the null of the target. The
switch of each method compares the whole target type, metadata included. -/
def Scalar.cast (ext : Externals D) (s : Scalar D) (t : DataType) : Except String (Value D) :=
  if s.isNull then makeNull t
  else
    match s with
    | .int8 (some i) =>
      if t.name = "numeric" then
        if t.isArray then .error (castErr "cannot cast int to decimal array")
        else
          match ext.parseDecimalExplicit (Strconv.formatInt i) t.metadata.1 t.metadata.2 with
          | .error e => .error (castErr e)
          | .ok dec => .ok (.scalar (makeDecimal ext dec))
      else if t = intType then .ok (.scalar s)
      else if t = textType then .ok (.scalar (.text (some (Strconv.formatInt i))))
      else if t = boolType then .ok (.scalar (.bool (some (i != 0))))
      else .error (castErr ("cannot cast int to " ++ t.string))
    | .text (some str) =>
      if t.name = "numeric" then
        if t.isArray then .error (castErr "cannot cast text to decimal array")
        else
          match ext.parseDecimalExplicit str t.metadata.1 t.metadata.2 with
          | .error e => .error (castErr e)
          | .ok dec => .ok (.scalar (makeDecimal ext dec))
      else if t = intType then
        match Strconv.parseInt str with
        | .error e => .error (castErr e)
        | .ok i => .ok (.scalar (.int8 (some i)))
      else if t = textType then .ok (.scalar s)
      else if t = boolType then
        match Strconv.parseBool str with
        | .error e => .error (castErr e)
        | .ok b => .ok (.scalar (.bool (some b)))
      else if t = uuidType then
        match ext.parseUUID str with
        | .error e => .error (castErr e)
        | .ok u => .ok (.scalar (.uuid (some u)))
      else if t = byteaType then .ok (.scalar (.blob (some (goBytes str))))
      else .error (castErr ("cannot cast text to " ++ t.string))
    | .bool (some b) =>
      if t = intType then .ok (.scalar (.int8 (some (if b then 1 else 0))))
      else if t = textType then .ok (.scalar (.text (some (Strconv.formatBool b))))
      else if t = boolType then .ok (.scalar s)
      else .error (castErr ("cannot cast bool to " ++ t.string))
    | .blob (some bs) =>
      if t = intType then
        match Strconv.parseInt (goString bs) with
        | .error e => .error (castErr e)
        | .ok i => .ok (.scalar (.int8 (some i)))
      else if t = textType then .ok (.scalar (.text (some (goString bs))))
      else if t = byteaType then .ok (.scalar s)
      else .error (castErr ("cannot cast blob to " ++ t.string))
    | .uuid (some u) =>
      if t = textType then .ok (.scalar (.text (some (ext.uuidString u))))
      else if t = byteaType then .ok (.scalar (.blob (some u.toList)))
      else if t = uuidType then .ok (.scalar s)
      else .error (castErr ("cannot cast uuid to " ++ t.string))
    | .decimal (some d) _ =>
      if t.name = "numeric" then
        if t.isArray then .error (castErr "cannot cast decimal to decimal array")
        else
          match ext.setPrecisionAndScale d t.metadata.1 t.metadata.2 with
          | .error e => .error (castErr e)
          | .ok dec => .ok (.scalar (makeDecimal ext dec))
      else if t = intType then
        match ext.decimalInt64 d with
        | .error e => .error (castErr e)
        | .ok i => .ok (.scalar (.int8 (some i)))
      else if t = textType then .ok (.scalar (.text (some (ext.decimalString d))))
      else .error (castErr ("cannot cast decimal to " ++ t.string))
    -- the nulls, taken above
    | _ => makeNull t

/-! ### `getArr` and `setArr` -/

section Elements

variable {X : Type}

/-- `getArr`: the element at the 1-based index `i`. Outside `1..Len` it is the null that
`makeNull` gives for `arrType`, the array's own type, which must be a scalar. -/
def getArr (arrType : DataType) (elems : List (Option X)) (i : Int32)
    (fn : Option X → Scalar D) : Except String (Scalar D) :=
  if i < 1 ∨ i > Int32.ofNat elems.length then
    match makeNull (D := D) arrType with
    | .error e => .error e
    | .ok (.scalar s) => .ok s
    | .ok v => .error ("expected to create a null scalar value, got " ++ v.goType)
  else
    match elems[(i.toInt - 1).toNat]? with
    | some x => .ok (fn x)
    | none => .error "runtime error: index out of range"

/-- The capacity the general path of `setArr` allocates: the old one, at least `1`, doubled
until it holds `i` elements. -/
def growCap (i : ℕ) : ℕ → ℕ → ℕ
  | 0, c => c
  | fuel + 1, c => if c < i then growCap i fuel (2 * c) else c

/-- The growth of `setArr` when `i > Len`. Appending exactly one element within the capacity
lengthens the slice over the zeroed backing array, whose zero element is a null; otherwise a new
slice of `i` elements is allocated and its new slots filled with the nulls of `nullElem`. -/
def growArr (nullElem : Except String (Option X)) (elems : List (Option X)) (cap : ℕ) (i : Int32) :
    Except String (List (Option X) × ℕ) :=
  if i = Int32.ofNat elems.length + 1 ∧ cap ≥ i.toInt.toNat then .ok (elems ++ [none], cap)
  else
    ((List.range (i.toInt.toNat - elems.length)).mapM fun _ => nullElem).map fun fill =>
      (elems ++ fill, growCap i.toInt.toNat i.toInt.toNat (max cap 1))

/-- `setArr`: write `v`, cast to the element type, at the 1-based index `i`, growing the array
first when `i > Len`. `fn` is the type assertion `.(B)` with the conversion to an element, and
`cap` the capacity of the slice. -/
def setArr (ext : Externals D) (arrType : DataType) (elems : List (Option X)) (cap : ℕ) (i : Int32)
    (v : Scalar D) (fn : Scalar D → Option (Option X)) : Except String (List (Option X) × ℕ) :=
  if i < 1 then .error errIndexOutOfBounds
  else
    let dtScalar : DataType := { arrType with isArray := false }
    -- the closure `makeNull` of `setArr`
    let nullElem : Except String (Option X) :=
      match makeNull (D := D) dtScalar with
      | .error e => .error e
      | .ok (.scalar s) => (fn s).elim (.error "cannot set null value in array: internal type bug") .ok
      | .ok (.array _) => .error "cannot set null value in array: internal type bug"
    let grown : Except String (List (Option X) × ℕ) :=
      if i > Int32.ofNat elems.length then growArr nullElem elems cap i else .ok (elems, cap)
    grown.bind fun (xs, cap) =>
      if v.isNull then nullElem.map fun nn => (xs.set (i.toInt - 1).toNat nn, cap)
      else
        match v.cast ext dtScalar with
        | .error e => .error e
        | .ok (.scalar s) =>
          match fn s with
          | some x => .ok (xs.set (i.toInt - 1).toNat x, cap)
          | none => .error ("cannot set value of type \"" ++ v.type.string ++
              "\" in array of type \"" ++ arrType.string ++ "\"")
        | .ok (.array _) => .error ("cannot set value of type \"" ++ v.type.string ++
              "\" in array of type \"" ++ arrType.string ++ "\"")

end Elements

namespace ArrayValue

/-- `Len()`: `int32(len(Elements))`. -/
def len : ArrayValue D → Int32
  | .int8 a => Int32.ofNat (a.getD []).length
  | .text a => Int32.ofNat (a.getD []).length
  | .bool a => Int32.ofNat (a.getD []).length
  | .blob a => Int32.ofNat (a.getD []).length
  | .uuid a => Int32.ofNat (a.getD []).length
  | .decimal a _ => Int32.ofNat (a.getD []).length
  | .nulls n => n

/-- `Get(i)`: `getArr` with the element made a scalar of the array's type. -/
def get (a : ArrayValue D) (i : Int32) : Except String (Scalar D) :=
  match a with
  | .int8 xs => getArr a.type (xs.getD []) i .int8
  | .text xs => getArr a.type (xs.getD []) i .text
  | .bool xs => getArr a.type (xs.getD []) i .bool
  | .blob xs => getArr a.type (xs.getD []) i .blob
  | .uuid xs => getArr a.type (xs.getD []) i .uuid
  | .decimal xs md => getArr a.type (xs.getD []) i fun x => .decimal x md
  | .nulls _ => .ok .null

/-- `Set(i, v)` of the arrays of a scalar type, with the capacity of the slice before and
after. A decimal array first refuses a decimal of another precision and scale. -/
def setTyped (ext : Externals D) (a : ArrayValue D) (cap : ℕ) (i : Int32) (v : Scalar D) :
    Except String (ArrayValue D × ℕ) :=
  match a with
  | .int8 xs =>
    (setArr ext a.type (xs.getD []) cap i v fun | .int8 x => some x | _ => none).map
      fun (ys, c) => (.int8 (some ys), c)
  | .text xs =>
    (setArr ext a.type (xs.getD []) cap i v fun | .text x => some x | _ => none).map
      fun (ys, c) => (.text (some ys), c)
  | .bool xs =>
    (setArr ext a.type (xs.getD []) cap i v fun | .bool x => some x | _ => none).map
      fun (ys, c) => (.bool (some ys), c)
  | .blob xs =>
    (setArr ext a.type (xs.getD []) cap i v fun | .blob x => some x | _ => none).map
      fun (ys, c) => (.blob (some ys), c)
  | .uuid xs =>
    (setArr ext a.type (xs.getD []) cap i v fun | .uuid x => some x | _ => none).map
      fun (ys, c) => (.uuid (some ys), c)
  | .decimal xs md =>
    match v, md with
    | .decimal _ (some vmd), some amd =>
      if vmd ≠ amd then
        .error ("cannot set decimal with precision " ++ toString vmd.1.toNat ++ " and scale " ++
          toString vmd.2.toNat ++ " in array with precision " ++ toString amd.1.toNat ++
          " and scale " ++ toString amd.2.toNat)
      else
        (setArr ext a.type (xs.getD []) cap i v fun | .decimal x _ => some x | _ => none).map
          fun (ys, c) => (.decimal (some ys) md, c)
    | _, _ =>
      (setArr ext a.type (xs.getD []) cap i v fun | .decimal x _ => some x | _ => none).map
        fun (ys, c) => (.decimal (some ys) md, c)
  -- `set` takes the arrays of nulls
  | .nulls n => .ok (.nulls n, cap)

/-- `Set(i, v)`. An `arrayOfNulls` takes a null by growing. A value that is not null is set in a
new array of the value's type, after its nulls, and that array is dropped: the array of nulls
is left as it was. -/
def set (ext : Externals D) (a : ArrayValue D) (cap : ℕ) (i : Int32) (v : Scalar D) :
    Except String (ArrayValue D × ℕ) :=
  match a with
  | .nulls n =>
    if i < 1 then .error errIndexOutOfBounds
    else if v.isNull then .ok (.nulls (if i > n then i else n), cap)
    else
      match newZeroValue ext { v.type with isArray := true } with
      | .error e => .error e
      | .ok (.array concrete) =>
        let copied := (List.range n.toInt.toNat).foldlM
          (fun (acc : ArrayValue D × ℕ) k => setTyped ext acc.1 acc.2 (Int32.ofNat (k + 1)) .null)
          (concrete, 0)
        (copied.bind fun (c, cc) => setTyped ext c cc i v).map fun _ => (.nulls n, cap)
      -- the zero of an array type is an array
      | .ok (.scalar _) => .ok (.nulls n, cap)
  | a => setTyped ext a cap i v

end ArrayValue

/-! ### What `Get` reads -/

/-- The elements of the array as the scalars `Get` returns. -/
def ArrayValue.elements : ArrayValue D → List (Scalar D)
  | .int8 xs => (xs.getD []).map .int8
  | .text xs => (xs.getD []).map .text
  | .bool xs => (xs.getD []).map .bool
  | .blob xs => (xs.getD []).map .blob
  | .uuid xs => (xs.getD []).map .uuid
  | .decimal xs md => (xs.getD []).map fun x => .decimal x md
  | .nulls n => List.replicate n.toInt.toNat .null

lemma toInt_ofNat_le (n : ℕ) : (Int32.ofNat n).toInt ≤ n := by
  have hmod : ((n : ℤ) % (Int32.size : ℕ)) = ((n % Int32.size : ℕ) : ℤ) :=
    (Int.natCast_mod _ _).symm
  have hle := Nat.mod_le n Int32.size
  rw [Int32.toInt_ofNat', Int.bmod_def]
  split_ifs <;> omega

section Elements

variable {X : Type} {arrType : DataType} {elems : List (Option X)} {i : Int32}
  {fn : Option X → Scalar D}

/-- Outside `1..Len`, `getArr` returns what `makeNull` makes of the array's type, and fails
when that is an array. -/
lemma getArr_out_of_range (h : i < 1 ∨ Int32.ofNat elems.length < i) {b : ArrayValue D}
    (hnull : makeNull arrType = .ok (.array b)) :
    getArr arrType elems i fn = .error ("expected to create a null scalar value, got " ++ b.goType) := by
  unfold getArr
  rw [if_pos h, hnull]
  rfl

lemma getArr_in_range (h₁ : 1 ≤ i) (h₂ : i ≤ Int32.ofNat elems.length) :
    getArr arrType elems i fn = .ok ((elems.map fn).getD (i.toInt - 1).toNat .null) := by
  have h₁' := Int32.le_iff_toInt_le.mp h₁
  have h₂' := Int32.le_iff_toInt_le.mp h₂
  have hlen := toInt_ofNat_le elems.length
  have hlt : (i.toInt - 1).toNat < elems.length := by simp at h₁'; omega
  have hin : ¬(i < 1 ∨ i > Int32.ofNat elems.length) := by
    rintro (h | h) <;> have := Int32.lt_iff_toInt_lt.mp h <;> omega
  unfold getArr
  rw [if_neg hin, List.getD_eq_getElem?_getD, List.getElem?_map, List.getElem?_eq_getElem hlt]
  rfl

end Elements

namespace ArrayValue

/-- **Out of range, `Get` fails**: for every array of a scalar type, `getArr` asks `makeNull` for
the null of the array type, which is an array and not a scalar. -/
theorem get_out_of_range {a : ArrayValue D} (ha : ∀ n, a ≠ .nulls n) {i : Int32}
    (hi : i < 1 ∨ a.len < i) :
    a.get i = .error ("expected to create a null scalar value, got " ++ a.goType) := by
  unfold get
  cases a with
  | int8 xs => exact getArr_out_of_range (b := .int8 none) hi rfl
  | text xs => exact getArr_out_of_range (b := .text none) hi rfl
  | bool xs => exact getArr_out_of_range (b := .bool none) hi rfl
  | blob xs => exact getArr_out_of_range (b := .blob none) hi rfl
  | uuid xs => exact getArr_out_of_range (b := .uuid none) hi rfl
  | decimal xs md =>
    cases md with
    | none => exact getArr_out_of_range (b := .decimal none (some (0, 0))) hi rfl
    | some md => exact getArr_out_of_range (b := .decimal none (some md)) hi rfl
  | nulls n => exact absurd rfl (ha n)

/-- In range, `Get(i)` is the element at `i`. -/
theorem get_in_range {a : ArrayValue D} {i : Int32} (h₁ : 1 ≤ i) (h₂ : i ≤ a.len) :
    a.get i = .ok (a.elements.getD (i.toInt - 1).toNat .null) := by
  unfold get elements
  cases a with
  | int8 xs => exact getArr_in_range h₁ h₂
  | text xs => exact getArr_in_range h₁ h₂
  | bool xs => exact getArr_in_range h₁ h₂
  | blob xs => exact getArr_in_range h₁ h₂
  | uuid xs => exact getArr_in_range h₁ h₂
  | decimal xs md => exact getArr_in_range h₁ h₂
  | nulls n =>
    show Except.ok Scalar.null = _
    rw [List.getD_eq_getElem?_getD, List.getElem?_replicate]
    split_ifs <;> rfl

end ArrayValue

/-- `makeArray(vals, t)`: the array of the given type, or of the type of the first value that is
not of the null type, or else `text` (which is not an array type, and fails); each value is
cast to the element type and set at its position, starting from the zero array. The capacity
of the slice built comes with it. -/
def makeArray (ext : Externals D) (vals : List (Scalar D)) (t : Option DataType) :
    Except String (ArrayValue D × ℕ) :=
  if vals = [] ∧ t = none then
    .error (errArrayDimensionality ++ ": cannot create an empty array of unknown type. Try typecasting it")
  else
    let inferred := (vals.find? fun v => !v.type.equalsStrict nullType).map
      fun v => { v.type with isArray := true }
    let expectedType := (t.orElse fun _ => inferred).getD textType
    if !expectedType.isArray then .error (errCast ++ ": cannot cast array to a scalar type")
    else
      match newZeroValue ext expectedType with
      | .error e => .error e
      | .ok (.scalar z) => .error ("unexpected zero array value of type " ++ z.goType)
      | .ok (.array zeroArr) =>
        let expectScalar : DataType := { expectedType with isArray := false }
        let step (acc : ArrayValue D × ℕ) (vi : Scalar D × ℕ) : Except String (ArrayValue D × ℕ) :=
          match vi.1.cast ext expectScalar with
          | .error e => .error e
          | .ok (.array c) => .error ("unexpected casted value of type " ++ c.goType)
          | .ok (.scalar c) => acc.1.set ext acc.2 (Int32.ofNat (vi.2 + 1)) c
        vals.zipIdx.foldlM step (zeroArr, 0)

/-! ### `int8Value.Arithmetic` -/

/-- `arithmeticOp`. -/
inductive ArithmeticOp where
  | add | sub | mul | div | mod | exp | concat
deriving DecidableEq, Repr

/-- `arithmeticOp.String`. -/
def ArithmeticOp.string : ArithmeticOp → String
  | .add => "+"
  | .sub => "-"
  | .mul => "*"
  | .div => "/"
  | .mod => "%"
  | .exp => "^"
  | .concat => "||"

/-- `checkScalarNulls`: the first operand that is null. -/
def checkScalarNulls : List (Scalar D) → Option (Scalar D)
  | [] => none
  | v :: vs => if v.isNull then some v else checkScalarNulls vs

/-- `makeTypeErr`. -/
def makeTypeErr (left right : DataType) : String :=
  errType ++ ": left: " ++ left.string ++ " right: " ++ right.string

/-- `int8Value.Arithmetic(v, op)` for the receiver `i`. A null operand is returned as it is;
otherwise `v` must be an `int8`, and the operation is Go's on `int64`. -/
def int8Arithmetic (fops : FloatOps) (i : Option Int64) (v : Scalar D) (op : ArithmeticOp) :
    Except String (Scalar D) :=
  match checkScalarNulls [.int8 i, v] with
  | some res => .ok res
  | none =>
    match i, v with
    | some a, .int8 (some b) =>
      match op with
      | .add => .ok (.int8 (some (a + b)))
      | .sub => .ok (.int8 (some (a - b)))
      | .mul => .ok (.int8 (some (a * b)))
      | .div =>
        if b = 0 then .error (errArithmetic ++ ": cannot divide by zero")
        else .ok (.int8 (some (a / b)))
      | .mod =>
        if b = 0 then .error (errArithmetic ++ ": cannot modulo by zero")
        else .ok (.int8 (some (a % b)))
      | .exp =>
        let p := fops.pow (Float.ofInt a.toInt) (Float.ofInt b.toInt)
        -- `math.MaxInt64` as a `float64` is `2^63`
        if p > Float.ofNat 9223372036854775807 then
          .error (errArithmetic ++ ": result of exponentiation is too large")
        else .ok (.int8 (some (fops.toInt64 p)))
      | .concat =>
        .error (errArithmetic ++ ": cannot perform arithmetic operation " ++ ArithmeticOp.concat.string ++
          " on type int")
    | _, _ => .error (makeTypeErr intType v.type)

/-- The exact `a op b` of the operators that Go computes in `int64`, with `/` and `%`
truncating toward zero as in Postgres; none for a division or a modulo by zero. -/
def ArithmeticOp.exact : ArithmeticOp → ℤ → ℤ → Option ℤ
  | .add, a, b => some (a + b)
  | .sub, a, b => some (a - b)
  | .mul, a, b => some (a * b)
  | .div, a, b => if b = 0 then none else some (a.tdiv b)
  | .mod, a, b => if b = 0 then none else some (a.tmod b)
  | .exp, _, _ | .concat, _, _ => none

lemma eq_ofInt_of_toInt_eq_bmod {x : Int64} {z : ℤ} (h : x.toInt = z.bmod (2 ^ 64)) :
    x = Int64.ofInt z := by
  rw [← Int64.ofInt_toInt x, h]
  apply Int64.toInt_inj.mp
  simp [Int64.toInt_ofInt, Int64.size]

lemma ne_zero_of_toInt_ne_zero {b : Int64} (h : b.toInt ≠ 0) : b ≠ 0 := by
  rintro rfl
  exact h rfl

/-- **`int8Value.Arithmetic` is `int64` arithmetic**: where the exact result is defined, the
operation succeeds with the exact result reduced into the 64-bit range. -/
theorem int8Arithmetic_of_exact (fops : FloatOps) {op : ArithmeticOp} {a b : Int64} {z : ℤ}
    (h : op.exact a.toInt b.toInt = some z) :
    int8Arithmetic (D := D) fops (some a) (.int8 (some b)) op =
      .ok (.int8 (some (Int64.ofInt z))) := by
  cases op with
  | add =>
    obtain rfl : a.toInt + b.toInt = z := Option.some.inj h
    simp [int8Arithmetic, checkScalarNulls, Scalar.isNull]
  | sub =>
    obtain rfl : a.toInt - b.toInt = z := Option.some.inj h
    simp [int8Arithmetic, checkScalarNulls, Scalar.isNull]
  | mul =>
    obtain rfl : a.toInt * b.toInt = z := Option.some.inj h
    simp [int8Arithmetic, checkScalarNulls, Scalar.isNull]
  | div =>
    by_cases hb : b.toInt = 0
    · simp [ArithmeticOp.exact, hb] at h
    obtain rfl : a.toInt.tdiv b.toInt = z := by simpa [ArithmeticOp.exact, hb] using h
    simp [int8Arithmetic, checkScalarNulls, Scalar.isNull, ne_zero_of_toInt_ne_zero hb]
    exact eq_ofInt_of_toInt_eq_bmod (Int64.toInt_div a b)
  | mod =>
    by_cases hb : b.toInt = 0
    · simp [ArithmeticOp.exact, hb] at h
    obtain rfl : a.toInt.tmod b.toInt = z := by simpa [ArithmeticOp.exact, hb] using h
    simp [int8Arithmetic, checkScalarNulls, Scalar.isNull, ne_zero_of_toInt_ne_zero hb]
    -- the remainder is always in range, so no reduction is needed
    rw [← Int64.toInt_mod, Int64.ofInt_toInt]
  | exp => simp [ArithmeticOp.exact] at h
  | concat => simp [ArithmeticOp.exact] at h

/-- An exact result outside `[MinInt64, MaxInt64]` comes back wrapped, with no error. -/
theorem int8Arithmetic_wraps (fops : FloatOps) (op : ArithmeticOp) (a b : Int64) (z : ℤ)
    (h : op.exact a.toInt b.toInt = some z) (hz : z < -2 ^ 63 ∨ 2 ^ 63 ≤ z) :
    ∃ r : Int64, int8Arithmetic (D := D) fops (some a) (.int8 (some b)) op = .ok (.int8 (some r)) ∧
      r.toInt ≠ z := by
  refine ⟨Int64.ofInt z, int8Arithmetic_of_exact fops h, ?_⟩
  have hlo := Int.le_bmod (x := z) (m := 2 ^ 64) (by norm_num)
  have hhi := Int.bmod_lt (x := z) (m := 2 ^ 64) (by norm_num)
  rw [Int64.toInt_ofInt, show Int64.size = 2 ^ 64 from rfl]
  omega

theorem int8Arithmetic_max_add_one :
    ArithmeticOp.add.exact (9223372036854775807 : Int64).toInt (1 : Int64).toInt = some (2 ^ 63) ∧
    ∃ r : Int64, int8Arithmetic (D := Unit) saturatingFloatOps (some 9223372036854775807)
      (.int8 (some 1)) .add = .ok (.int8 (some r)) ∧ r.toInt ≠ 2 ^ 63 :=
  ⟨by decide, int8Arithmetic_wraps saturatingFloatOps .add _ _ _ (by decide) (by norm_num)⟩

/-! ### The text form of a value -/

/-- `stringifyValue` of a scalar. -/
def stringifyScalar (ext : Externals D) (v : Scalar D) : String :=
  if v.isNull then "NULL"
  else
    match v with
    | .text (some s) => s
    | .int8 (some i) => Strconv.formatInt i
    | .bool (some b) => Strconv.formatBool b
    | .uuid (some u) => ext.uuidString u
    | .decimal (some d) _ => ext.decimalString d
    | .blob (some bs) => goString bs
    -- the nulls, taken above
    | _ => "NULL"

/-- `stringifyValue`: `NULL` for a null, and the elements of an array joined by commas. -/
def stringifyValue (ext : Externals D) : Value D → Except String String
  | .scalar s => .ok (stringifyScalar ext s)
  | .array a =>
    if a.isNull then .ok "NULL"
    else
      ((List.range a.len.toInt.toNat).mapM fun k =>
        (a.get (Int32.ofNat (k + 1))).map (stringifyScalar ext)).map fun strs => Strconv.join strs ','

/-- The part of `parseValue` for a type that is not an array, after its checks for `NULL` and
the empty text. -/
def parseText (ext : Externals D) (s : String) (t : DataType) : Except String (Value D) :=
  if t.name = "numeric" then
    (ext.parseDecimalExplicit s t.metadata.1 t.metadata.2).map fun dec => .scalar (makeDecimal ext dec)
  else if t = textType then .ok (.scalar (.text (some s)))
  else if t = intType then (Strconv.parseInt s).map fun i => .scalar (.int8 (some i))
  else if t = boolType then (Strconv.parseBool s).map fun b => .scalar (.bool (some b))
  else if t = uuidType then (ext.parseUUID s).map fun u => .scalar (.uuid (some u))
  else if t = byteaType then .ok (.scalar (.blob (some (goBytes s))))
  else .error ("unexpected type " ++ t.string)

/-- `parseValue` at a type that is not an array, which is how `parseArray` calls it. -/
def parseScalarValue (ext : Externals D) (s : String) (t : DataType) : Except String (Value D) :=
  if s = "NULL" then makeNull t
  else if s = "" then newZeroValue ext t
  else parseText ext s t

/-- `parseArray`: the text split at its commas, each piece parsed at the element type, and the
array made of them. -/
def parseArray (ext : Externals D) (s : String) (t : DataType) : Except String (Value D) :=
  if s = "NULL" then
    match makeNull (D := D) t with
    | .error e => .error e
    | .ok (.array a) => .ok (.array a)
    | .ok v => .error ("unexpected type for null array " ++ v.goType)
  else
    let scalarType : DataType := { t with isArray := false }
    let field (str : String) : Except String (Scalar D) :=
      match parseScalarValue ext str scalarType with
      | .error e => .error e
      | .ok (.scalar v) => .ok v
      | .ok v => .error ("unexpected type " ++ v.goType)
    let fields := (Strconv.split s ',').mapM field
    (fields.bind fun vs => makeArray ext vs (some t)).map fun a => .array a.1

/-- `parseValue`: the reverse of `stringifyValue` that the engine uses to read stored extension
metadata. -/
def parseValue (ext : Externals D) (s : String) (t : DataType) : Except String (Value D) :=
  if s = "NULL" then makeNull t
  else if s = "" then newZeroValue ext t
  else if t.isArray then parseArray ext s t
  else parseText ext s t

/-- **The text form of a text value**: every text reads back as itself, except the text `NULL`,
which reads back as the null of `text`. -/
theorem parseValue_stringifyValue_text (ext : Externals D) (s : String) :
    (stringifyValue ext (.scalar (.text (some s)))).bind (fun str => parseValue ext str textType) =
      .ok (.scalar (.text (if s = "NULL" then none else some s))) := by
  simp only [stringifyValue, stringifyScalar, Scalar.isNull, Option.isNone_some, Bool.false_eq_true,
    if_false, Except.bind, parseValue]
  by_cases hnull : s = "NULL"
  · rw [if_pos hnull, if_pos hnull]
    rfl
  rw [if_neg hnull, if_neg hnull]
  by_cases hempty : s = ""
  · rw [if_pos hempty, hempty]
    rfl
  rw [if_neg hempty]
  rfl

end KwilDb.Interpreter
