import KwilDb.Interpreter.Values

/-!
# Encoding Go values: `EncodeValue`

`EncodeValue` turns a Go value into an `EncodedValue` through reflection: it follows one
pointer, sends a slice (other than a byte slice) element by element through `encodeScalar`, and
any other value through it once. `encodeScalar` follows one pointer more and writes the null
marker and the payload that `Decode` reads back.

* A string, an integer of 64 bits other than a `uint8`, a bool, a non-nil byte slice, a UUID
  and a decimal whose text reads back at its precision and scale decode as themselves, and a nil
  pointer as nil (`decode_encodeValue_scalar`, `decode_encodeValue_nil`). A `uint8` is refused:
  the type switch leaves it out on purpose, as `byte`.
* A slice whose non-null elements share one type decodes as the typed slice of its elements,
  with nil at the null ones (`decode_encodeValue_slice`); a slice of nulls only has the type
  `null[]`, and decodes as `[]any` (`decode_encodeValue_nulls`).
* `MarshalBinary` writes the element count as a `uint16`. After `UnmarshalBinary`, a slice of
  `n` elements decodes as its first `n % 65536` (`decode_unmarshal_encodeValue_slice`).

A decimal is the parameter type `D`, with its text, precision and scale and its parser taken
from `Externals`, as in the interpreter.
-/

namespace KwilDb.Core

open KwilDb.Lib KwilDb.Lib.Strconv
open KwilDb.Types (UUID)
open KwilDb.Interpreter (Externals intType textType boolType byteaType uuidType nullType)

/-- The kinds of Go integers. `uint8` is `byte`. -/
inductive IntKind where
  | int | int8 | int16 | int32 | int64 | uint | uint8 | uint16 | uint32 | uint64
deriving DecidableEq, Repr

/-- A Go value as `EncodeValue` sees it through reflection. A pointer and a slice carry their
`%T`; a slice here is one whose elements are not bytes. -/
inductive GoValue (D : Type) where
  | nil
  | string (s : String)
  | int (kind : IntKind) (n : ℤ)
  | bytes (b : Option Bytes)
  | uuid (u : UUID)
  | bool (b : Bool)
  | decimal (d : D)
  | ptr (typeName : String) (target : Option (GoValue D))
  | slice (typeName : String) (elems : Option (List (GoValue D)))
  | other (typeName : String)

/-- `DataType.Equals`: a scalar `null` equals every type, and an array `null` every array. -/
def DataType.equals (c o : DataType) : Bool :=
  if (c.name = "null" && !c.isArray) || (o.name = "null" && !o.isArray) then true
  else if (c.name = "null" && c.isArray) && o.isArray then true
  else if (o.name = "null" && o.isArray) && c.isArray then true
  else c.equalsStrict o

/-- `NewNumericType`, with the checks of `CheckDecimalPrecisionAndScale`. -/
def newNumericType (precision scale : UInt16) : Except String DataType :=
  if precision < 1 then .error ("precision must be at least 1: " ++ toString precision.toNat)
  else if precision > 1000 then .error ("precision too large: " ++ toString precision.toNat)
  else if scale > precision then
    .error ("scale must be less than or equal to precision: " ++ toString scale.toNat ++ " > " ++
      toString precision.toNat)
  else .ok ⟨"numeric", false, (precision, scale)⟩

/-- `encodeNull`. -/
def encodeNull : Bytes := [0]

/-- `encodeNotNull`. -/
def encodeNotNull (v : Bytes) : Bytes := 1 :: v

section Encode

variable {D : Type} (ext : Externals D)

/-- The type switch of `encodeScalar`, on a value whose pointer, if any, has been followed. -/
def encodeSwitch : GoValue D → Except Failure (Bytes × DataType)
  | .string s => pure (encodeNotNull (goBytes s), textType)
  -- `uint8` is left out of the case on purpose, as `byte`
  | .int .uint8 _ => throw (.error "cannot encode type uint8")
  | .int _ n =>
    -- `strconv.ParseInt(fmt.Sprint(t), 10, 64)`
    match parseInt (toString n) with
    | .error e => throw (.error e)
    | .ok i => pure (encodeNotNull (beBytes 8 i.toUInt64.toNat), intType)
  | .bytes none => pure (encodeNull, nullType)
  | .bytes (some b) => pure (encodeNotNull b, byteaType)
  | .uuid u => pure (encodeNotNull u.toList, uuidType)
  | .ptr typeName target =>
    if typeName = "*types.UUID" then
      match target with
      | some (.uuid u) => pure (encodeNotNull u.toList, uuidType)
      -- `t[:]` on a nil `*UUID`
      | _ => throw nilDereference
    else throw (.error ("cannot encode type " ++ typeName))
  | .bool b => pure (encodeNotNull [if b then 1 else 0], boolType)
  | .nil => pure (encodeNull, nullType)
  | .decimal d =>
    match newNumericType (ext.precisionAndScale d).1 (ext.precisionAndScale d).2 with
    | .error e => throw (.error e)
    | .ok t => pure (encodeNotNull (goBytes (ext.decimalString d)), t)
  | .slice typeName _ => throw (.error ("cannot encode type " ++ typeName))
  | .other typeName => throw (.error ("cannot encode type " ++ typeName))

/-- `encodeScalar`: a nil pointer is null, another pointer is followed once. -/
def encodeScalar (v : GoValue D) : Except Failure (Bytes × DataType) :=
  match v with
  | .ptr _ none => pure (encodeNull, nullType)
  | .ptr _ (some v) => encodeSwitch ext v
  | v => encodeSwitch ext v

/-- The type of an array so far, after one more element of type `t`: the first type, unless it
is null, and otherwise one that `Equals` the new one. -/
def mergeFirstType (firstDt : Option DataType) (t : DataType) : Except Failure DataType :=
  match firstDt with
  | none => pure t
  | some f =>
    if f.equalsStrict nullType then pure t
    else if !f.equals t then
      throw (.error ("mismatched types in array: " ++ f.string ++ " and " ++ t.string))
    else pure f

/-- One turn of the element loop of `EncodeValue`. -/
def encodeElement (acc : Option DataType × List Bytes) (elem : GoValue D) :
    Except Failure (Option DataType × List Bytes) := do
  let (enc, t) ← encodeScalar ext elem
  let firstDt ← mergeFirstType acc.1 t
  pure (some firstDt, acc.2 ++ [enc])

/-- The slice branch of `EncodeValue`. -/
def encodeArray (elems : List (GoValue D)) : Except Failure EncodedValue := do
  let (firstDt, encoded) ← elems.foldlM (encodeElement ext) (none, [])
  match firstDt with
  | none => throw (.error "no elements in array")
  | some f =>
    if f.name = "" then pure ⟨nullType, encoded⟩
    else pure ⟨{ f with isArray := true }, encoded⟩

/-- `EncodeValue` on a value whose pointer, if any, has been followed. -/
def encodeDeref (v : GoValue D) : Except Failure EncodedValue :=
  match v with
  | .slice _ none => pure ⟨nullType, []⟩
  | .slice _ (some elems) => encodeArray ext elems
  | v => (encodeScalar ext v).map fun (enc, t) => ⟨t, [enc]⟩

/-- `EncodeValue`. -/
def encodeValue (v : GoValue D) : Except Failure EncodedValue :=
  match v with
  | .nil => pure ⟨nullType, []⟩
  | .bytes none => pure ⟨nullType, []⟩
  | .ptr _ none => pure ⟨nullType, []⟩
  -- a pointer to a nil interface
  | .ptr _ (some .nil) => pure ⟨nullType, []⟩
  | .ptr _ (some v) => encodeDeref ext v
  | v => encodeDeref ext v

/-! ### What reads back -/

/-- A decimal `EncodeValue` writes and `Decode` reads back: a valid precision and scale, and a
text of bytes that parses back to it at them. -/
structure ValidDecimal (d : D) : Prop where
  precision_pos : 1 ≤ (ext.precisionAndScale d).1
  precision_le : (ext.precisionAndScale d).1 ≤ 1000
  scale_le : (ext.precisionAndScale d).2 ≤ (ext.precisionAndScale d).1
  text : IsGoString (ext.decimalString d)
  parse : ext.parseDecimalExplicit (ext.decimalString d) (ext.precisionAndScale d).1
    (ext.precisionAndScale d).2 = .ok d

/-- The values that `Decode` reads back as themselves: a string of bytes, an integer of 64 bits
other than a `uint8`, a non-nil byte slice, a UUID, a bool, a valid decimal. -/
def Supported : GoValue D → Prop
  | .string s => IsGoString s
  | .int k n => k ≠ .uint8 ∧ -2 ^ 63 ≤ n ∧ n < 2 ^ 63
  | .bytes b => b ≠ none
  | .uuid _ => True
  | .bool _ => True
  | .decimal d => ValidDecimal ext d
  | _ => False

variable {ext}

/-- The type `EncodeValue` gives a supported value. -/
def GoValue.dataType (ext : Externals D) : GoValue D → DataType
  | .string _ => textType
  | .int _ _ => intType
  | .bytes _ => byteaType
  | .uuid _ => uuidType
  | .bool _ => boolType
  | .decimal d => ⟨"numeric", false, ext.precisionAndScale d⟩
  | _ => nullType

/-- The payload `EncodeValue` writes for a supported value, after the not-null marker. -/
def GoValue.payload (ext : Externals D) : GoValue D → Bytes
  | .string s => goBytes s
  | .int _ n => beBytes 8 (Int64.ofInt n).toUInt64.toNat
  | .bytes b => b.getD []
  | .uuid u => u.toList
  | .bool b => [if b then 1 else 0]
  | .decimal d => goBytes (ext.decimalString d)
  | _ => []

/-- What `Decode` returns for a supported value. -/
def GoValue.scalar : GoValue D → Option (Scalar D)
  | .string s => some (.text s)
  | .int _ n => some (.int8 (Int64.ofInt n))
  | .bytes b => b.map .bytea
  | .uuid u => some (.uuid u.toList)
  | .bool b => some (.bool b)
  | .decimal d => some (.numeric d)
  | _ => none

lemma encodeSwitch_of_supported {x : GoValue D} (hx : Supported ext x) :
    encodeSwitch ext x = .ok (encodeNotNull (x.payload ext), x.dataType ext) := by
  cases x with
  | string s => rfl
  | int k n =>
    obtain ⟨hk, h₁, h₂⟩ := hx
    have hparse := parseInt_toString h₁ h₂
    cases k <;> first | exact absurd rfl hk | (simp only [encodeSwitch, hparse]; rfl)
  | bytes b =>
    obtain ⟨b, rfl⟩ := Option.ne_none_iff_exists'.mp hx
    rfl
  | uuid u => rfl
  | bool b => rfl
  | decimal d =>
    have hnum : newNumericType (ext.precisionAndScale d).1 (ext.precisionAndScale d).2 =
        .ok ⟨"numeric", false, ext.precisionAndScale d⟩ := by
      have h₁ := hx.precision_pos
      have h₂ := hx.precision_le
      have h₃ := hx.scale_le
      rw [newNumericType, if_neg (UInt16.not_lt.mpr h₁), if_neg (UInt16.not_lt.mpr h₂),
        if_neg (UInt16.not_lt.mpr h₃)]
    simp only [encodeSwitch, hnum]
    rfl
  | _ => exact absurd hx id

lemma int64_ofNat_toUInt64 (i : Int64) : Int64.ofNat i.toUInt64.toNat = i := by
  rw [← Int64.toBitVec_inj]
  simp

/-- The not-null marker is stripped and the payload decoded. -/
lemma decodeScalar_encodeNotNull (parseDecimal : String → UInt16 → UInt16 → Except String D)
    (p : Bytes) (typename : String) (md : UInt16 × UInt16) :
    decodeScalar parseDecimal (encodeNotNull p) typename md = decodePayload parseDecimal p typename md := by
  simp [decodeScalar, decodeNullable, encodeNotNull, bind, Except.bind, pure, Except.pure]

lemma decodeScalar_encodeNull (parseDecimal : String → UInt16 → UInt16 → Except String D)
    (typename : String) (md : UInt16 × UInt16) :
    decodeScalar parseDecimal encodeNull typename md = .ok none := rfl

lemma decodeScalar_of_supported {x : GoValue D} (hx : Supported ext x) :
    decodeScalar ext.parseDecimalExplicit (encodeNotNull (x.payload ext)) (x.dataType ext).name
      (x.dataType ext).metadata = .ok x.scalar := by
  rw [decodeScalar_encodeNotNull]
  cases x with
  | string s => simp [decodePayload, GoValue.payload, GoValue.dataType, GoValue.scalar, textType,
      goString_goBytes hx, pure, Except.pure]
  | int k n =>
    have hlt := (Int64.ofInt n).toUInt64.toNat_lt
    simp [decodePayload, GoValue.payload, GoValue.dataType, GoValue.scalar, intType,
      Nat.mod_eq_of_lt hlt, int64_ofNat_toUInt64, pure, Except.pure]
  | bytes b =>
    obtain ⟨b, rfl⟩ := Option.ne_none_iff_exists'.mp hx
    rfl
  | uuid u => simp [decodePayload, GoValue.payload, GoValue.dataType, GoValue.scalar, uuidType,
      pure, Except.pure]
  | bool b => cases b <;> rfl
  | decimal d => simp [decodePayload, GoValue.payload, GoValue.dataType, GoValue.scalar,
      goString_goBytes hx.text, hx.parse, pure, Except.pure]
  | _ => exact absurd hx id

/-- The type of a supported value is one of the base types that `Decode` knows, as a scalar and
as an array. -/
structure BaseType (t : DataType) : Prop where
  not_null : t.name ≠ "null"
  name_alias : typeAlias t.name = some t.name
  not_array : t.isArray = false
  array_name : t.name ∈ arrayTypeNames

lemma baseType_dataType {x : GoValue D} (hx : Supported ext x) : BaseType (x.dataType ext) := by
  cases x <;> first | exact absurd hx id |
    exact ⟨by simp [GoValue.dataType, textType, intType, byteaType, uuidType, boolType], rfl, rfl,
      by simp [GoValue.dataType, arrayTypeNames, textType, intType, byteaType, uuidType, boolType]⟩

/-- `Decode` of one element of a base type decodes the element. -/
lemma decode_single {t : DataType} (ht : BaseType t)
    (parseDecimal : String → UInt16 → UInt16 → Except String D) (b : Bytes) :
    EncodedValue.decode parseDecimal ⟨t, [b]⟩ =
      (fun v => (v.map Decoded.scalar).getD .nil) <$> decodeScalar parseDecimal b t.name t.metadata := by
  simp [EncodedValue.decode, ht.not_null, ht.name_alias, ht.not_array]

lemma encodeValue_of_supported {x : GoValue D} (hx : Supported ext x) :
    encodeValue ext x = .ok ⟨x.dataType ext, [encodeNotNull (x.payload ext)]⟩ := by
  have h := encodeSwitch_of_supported hx
  cases x <;> first | exact absurd hx id | (obtain ⟨b, rfl⟩ := Option.ne_none_iff_exists'.mp hx) |
    skip
  all_goals simp [encodeValue, encodeDeref, encodeScalar, h, Except.map]

/-- **A supported value decodes as itself.** -/
theorem decode_encodeValue_scalar {x : GoValue D} (hx : Supported ext x) :
    (encodeValue ext x).bind (EncodedValue.decode ext.parseDecimalExplicit) =
      .ok ((x.scalar.map Decoded.scalar).getD .nil) := by
  rw [encodeValue_of_supported hx]
  show EncodedValue.decode _ _ = _
  rw [decode_single (baseType_dataType hx), decodeScalar_of_supported hx]
  rfl

/-! ### Slices -/

/-- A value that `encodeScalar` writes as itself, and `none` for one it writes as null: a nil
interface, a nil byte slice or a nil pointer. A pointer is followed once. -/
def GoValue.target : GoValue D → Option (GoValue D)
  | .nil | .bytes none | .ptr _ none | .ptr _ (some .nil) | .ptr _ (some (.bytes none)) => none
  | .ptr _ (some v) => some v
  | v => some v

/-- An element that reads back: a null, or a supported value behind a pointer or not. -/
def Element (ext : Externals D) (e : GoValue D) : Prop :=
  ∀ x, e.target = some x → Supported ext x

/-- The type `encodeScalar` gives an element. -/
def GoValue.elemType (ext : Externals D) (e : GoValue D) : DataType :=
  match e.target with
  | none => nullType
  | some x => x.dataType ext

/-- The bytes `encodeScalar` writes for an element. -/
def GoValue.encoding (ext : Externals D) (e : GoValue D) : Bytes :=
  match e.target with
  | none => encodeNull
  | some x => encodeNotNull (x.payload ext)

lemma encodeScalar_of_element {e : GoValue D} (he : Element ext e) :
    encodeScalar ext e = .ok (e.encoding ext, e.elemType ext) := by
  -- the nulls, then a supported value behind a pointer or not
  match e, he with
  | .nil, _ | .bytes none, _ | .ptr _ none, _ | .ptr _ (some .nil), _
  | .ptr _ (some (.bytes none)), _ => rfl
  | .ptr _ (some (.string s)), he | .ptr _ (some (.int k n)), he
  | .ptr _ (some (.bytes (some b))), he | .ptr _ (some (.uuid u)), he
  | .ptr _ (some (.bool b)), he | .ptr _ (some (.decimal d)), he
  | .ptr _ (some (.ptr tn v)), he | .ptr _ (some (.slice tn v)), he
  | .ptr _ (some (.other tn)), he =>
    exact encodeSwitch_of_supported (he _ rfl)
  | .string s, he | .int k n, he | .bytes (some b), he | .uuid u, he | .bool b, he
  | .decimal d, he | .slice tn v, he | .other tn, he =>
    exact encodeSwitch_of_supported (he _ rfl)

/-- The type an array has so far when its elements do not clash: the first one that is not
null. -/
def firstType : Option DataType → DataType → DataType
  | none, t => t
  | some f, t => if f.equalsStrict nullType then t else f

lemma equalsStrict_nullType {t : DataType} (ht : BaseType t) : t.equalsStrict nullType = false := by
  have h := ht.array_name
  simp only [arrayTypeNames, List.mem_cons, List.not_mem_nil, or_false] at h
  rcases h with h | h | h | h | h | h <;> simp [DataType.equalsStrict, h, nullType]

lemma mergeFirstType_eq {T : DataType} (hT : BaseType T) {f : Option DataType} {t : DataType}
    (hf : f = none ∨ f = some nullType ∨ f = some T) (ht : t = nullType ∨ t = T) :
    mergeFirstType f t = .ok (firstType f t) := by
  have hnull : nullType.equalsStrict nullType = true := by simp [DataType.equalsStrict]
  have hTnull := equalsStrict_nullType hT
  rcases hf with rfl | rfl | rfl
  · rfl
  · simp [mergeFirstType, firstType, hnull, pure, Except.pure]
  · -- the array is typed: a null and an element of its own type both keep the type
    have hequals : T.equals t = true := by
      rcases ht with rfl | rfl
      · simp [DataType.equals, nullType]
      · simp [DataType.equals, DataType.equalsStrict, hT.not_null, hT.not_array]
    simp [mergeFirstType, firstType, hTnull, hequals, pure, Except.pure]

section Fold

variable {T : DataType}

/-- The types an array of type `T` can have so far. -/
def SoFar (T : DataType) (f : Option DataType) : Prop := f = none ∨ f = some nullType ∨ f = some T

lemma soFar_firstType (hT : BaseType T) {f : Option DataType} {t : DataType} (hf : SoFar T f)
    (ht : t = nullType ∨ t = T) : SoFar T (some (firstType f t)) := by
  have hnull : nullType.equalsStrict nullType = true := by simp [DataType.equalsStrict]
  rcases hf with rfl | rfl | rfl
  · rcases ht with rfl | rfl <;> simp [SoFar, firstType]
  · rcases ht with rfl | rfl <;> simp [SoFar, firstType, hnull]
  · simp [SoFar, firstType, equalsStrict_nullType hT]

/-- **The element loop of `EncodeValue`** on elements that are null or of type `T`: it writes
each element's bytes and keeps the first type that is not null. -/
theorem foldlM_encodeElement (hT : BaseType T) :
    ∀ (es : List (GoValue D)) (f : Option DataType) (enc : List Bytes), SoFar T f →
      (∀ e ∈ es, Element ext e ∧ (e.elemType ext = nullType ∨ e.elemType ext = T)) →
      es.foldlM (encodeElement ext) (f, enc) =
        .ok (es.foldl (fun f e => some (firstType f (e.elemType ext))) f,
          enc ++ es.map (GoValue.encoding ext))
  | [], f, enc, _, _ => by simp [pure, Except.pure]
  | e :: es, f, enc, hf, hes => by
    obtain ⟨he, ht⟩ := hes e (by simp)
    have hstep : encodeElement ext (f, enc) e =
        .ok (some (firstType f (e.elemType ext)), enc ++ [e.encoding ext]) := by
      simp only [encodeElement, encodeScalar_of_element he, bind, Except.bind,
        mergeFirstType_eq hT hf ht]
      rfl
    rw [List.foldlM_cons, hstep]
    simp only [bind, Except.bind]
    rw [foldlM_encodeElement hT es _ _ (soFar_firstType hT hf ht)
      (fun e' h' => hes e' (by simp [h']))]
    simp

lemma firstType_typed (hT : BaseType T) (t : DataType) : firstType (some T) t = T := by
  simp [firstType, equalsStrict_nullType hT]

lemma firstType_self {f : Option DataType} (hf : SoFar T f) : firstType f T = T := by
  have hnull : nullType.equalsStrict nullType = true := by simp [DataType.equalsStrict]
  rcases hf with rfl | rfl | rfl <;> simp [firstType, hnull]

lemma foldl_firstType_typed (hT : BaseType T) (es : List (GoValue D)) :
    es.foldl (fun f e => some (firstType f (e.elemType ext))) (some T) = some T := by
  induction es with
  | nil => rfl
  | cons e es ih => rw [List.foldl_cons, firstType_typed hT, ih]

/-- An element of type `T` makes the array of type `T`. -/
lemma foldl_firstType_of_typed (hT : BaseType T) :
    ∀ (es : List (GoValue D)) (f : Option DataType), SoFar T f →
      (∀ e ∈ es, e.elemType ext = nullType ∨ e.elemType ext = T) →
      (∃ e ∈ es, e.elemType ext = T) →
      es.foldl (fun f e => some (firstType f (e.elemType ext))) f = some T
  | [], _, _, _, ⟨_, h, _⟩ => absurd h (by simp)
  | e :: es, f, hf, hes, ⟨e', he', hT'⟩ => by
    rw [List.foldl_cons]
    by_cases he : e.elemType ext = T
    · rw [he, firstType_self hf, foldl_firstType_typed hT]
    · -- the typed element comes later
      have hnull : e.elemType ext = nullType := (hes e (by simp)).resolve_right he
      have hlater : e' ∈ es := by
        rcases List.mem_cons.mp he' with rfl | h
        · exact absurd hT' he
        · exact h
      exact foldl_firstType_of_typed hT es _ (soFar_firstType hT hf (.inl hnull))
        (fun e'' h'' => hes e'' (by simp [h''])) ⟨e', hlater, hT'⟩

/-- A slice of nulls only has the type `null`. -/
lemma foldl_firstType_of_nulls :
    ∀ (es : List (GoValue D)) (f : Option DataType), (f = none ∨ f = some nullType) →
      (∀ e ∈ es, e.elemType ext = nullType) → es ≠ [] →
      es.foldl (fun f e => some (firstType f (e.elemType ext))) f = some nullType
  | [], _, _, _, hne => absurd rfl hne
  | e :: es, f, hf, hes, _ => by
    have hnull : nullType.equalsStrict nullType = true := by simp [DataType.equalsStrict]
    have hstep : firstType f (e.elemType ext) = nullType := by
      rw [hes e (by simp)]
      rcases hf with rfl | rfl <;> simp [firstType, hnull]
    rw [List.foldl_cons, hstep]
    cases es with
    | nil => rfl
    | cons e' es' =>
      exact foldl_firstType_of_nulls (e' :: es') _ (.inr rfl)
        (fun e'' h'' => hes e'' (by simp [h''])) (by simp)

end Fold

lemma scalar_typeName {x : GoValue D} (hx : Supported ext x) :
    ∃ v, x.scalar = some v ∧ v.typeName = (x.dataType ext).name := by
  cases x <;> first | exact absurd hx id | skip
  case bytes b =>
    obtain ⟨b, rfl⟩ := Option.ne_none_iff_exists'.mp hx
    exact ⟨_, rfl, rfl⟩
  all_goals exact ⟨_, rfl, rfl⟩

/-- `decodeAnyArr` reads back the elements of type `T` and the nulls. -/
lemma decodeAnyArr_encoding {T : DataType} :
    ∀ es : List (GoValue D), (∀ e ∈ es, Element ext e ∧ (e.target ≠ none → e.elemType ext = T)) →
      decodeAnyArr ext.parseDecimalExplicit T.name T.metadata (es.map (GoValue.encoding ext)) =
        .ok (es.map fun e => e.target.bind GoValue.scalar)
  | [], _ => rfl
  | e :: es, hes => by
    obtain ⟨he, hT⟩ := hes e (by simp)
    have ih := decodeAnyArr_encoding es (fun e' h' => hes e' (by simp [h']))
    rw [List.map_cons, decodeAnyArr]
    cases htarget : e.target with
    | none =>
      simp only [GoValue.encoding, htarget, decodeScalar_encodeNull, bind, Except.bind, ih]
      simp [htarget, pure, Except.pure]
    | some x =>
      -- a supported element of the array's own type
      have hx := he x htarget
      have hxT : x.dataType ext = T := by
        rw [← hT (by simp [htarget])]
        simp [GoValue.elemType, htarget]
      obtain ⟨v, hv, hname⟩ := scalar_typeName hx
      have hdec := decodeScalar_of_supported hx
      subst hxT
      rw [hv] at hdec
      simp only [GoValue.encoding, htarget, hdec, bind, Except.bind, hname, if_true, ih]
      simp [htarget, hv, pure, Except.pure]

lemma elemType_of_target {e : GoValue D} (h : e.target = none) : e.elemType ext = nullType := by
  simp [GoValue.elemType, h]

/-- A slice whose non-null elements all have type `T` is written with the type `T[]` and the
bytes of its elements. -/
lemma encodeValue_slice {es : List (GoValue D)} {T : DataType} (tn : String)
    (hes : ∀ e ∈ es, Element ext e ∧ (e.target ≠ none → e.elemType ext = T))
    (htyped : ∃ e ∈ es, e.target ≠ none) :
    BaseType T ∧ encodeValue ext (.slice tn (some es)) =
      .ok ⟨{ T with isArray := true }, es.map (GoValue.encoding ext)⟩ := by
  obtain ⟨e, he, htarget⟩ := htyped
  obtain ⟨x, hx⟩ := Option.ne_none_iff_exists'.mp htarget
  have hT : BaseType T := by
    have h := (hes e he).2 htarget
    simp only [GoValue.elemType, hx] at h
    exact h ▸ baseType_dataType ((hes e he).1 x hx)
  have hes' : ∀ e ∈ es, Element ext e ∧ (e.elemType ext = nullType ∨ e.elemType ext = T) := by
    intro e he
    refine ⟨(hes e he).1, ?_⟩
    by_cases h : e.target = none
    · exact .inl (elemType_of_target h)
    · exact .inr ((hes e he).2 h)
  have hfold := foldlM_encodeElement hT es none [] (.inl rfl) hes'
  rw [foldl_firstType_of_typed hT es none (.inl rfl) (fun e he => (hes' e he).2)
    ⟨e, he, (hes e he).2 htarget⟩, List.nil_append] at hfold
  have hname : T.name ≠ "" := by
    intro h
    have := hT.array_name
    simp [h, arrayTypeNames] at this
  refine ⟨hT, ?_⟩
  simp only [encodeValue, encodeDeref, encodeArray, hfold, bind, Except.bind, hname, if_false]
  rfl

/-- **A slice decodes as the typed slice of its elements**, with nil at the null ones, when its
non-null elements share one type. -/
theorem decode_encodeValue_slice {es : List (GoValue D)} {T : DataType} (tn : String)
    (hes : ∀ e ∈ es, Element ext e ∧ (e.target ≠ none → e.elemType ext = T))
    (htyped : ∃ e ∈ es, e.target ≠ none) :
    (encodeValue ext (.slice tn (some es))).bind (EncodedValue.decode ext.parseDecimalExplicit) =
      .ok (.array (es.map fun e => e.target.bind GoValue.scalar)) := by
  obtain ⟨hT, henc⟩ := encodeValue_slice tn hes htyped
  rw [henc]
  show EncodedValue.decode _ _ = _
  simp only [EncodedValue.decode, hT.not_null, if_false, hT.name_alias, if_true, hT.array_name,
    decodeAnyArr_encoding es hes]
  rfl

/-- A slice of nulls only is written with the type `null[]`, and decodes as `make([]any, n)`,
not as a typed slice. -/
theorem decode_encodeValue_nulls {es : List (GoValue D)} (tn : String) (hne : es ≠ [])
    (hnull : ∀ e ∈ es, e.target = none) :
    (encodeValue ext (.slice tn (some es))).bind (EncodedValue.decode ext.parseDecimalExplicit) =
      .ok (.nulls es.length) := by
  have hT : BaseType textType := ⟨by decide, rfl, rfl, by decide⟩
  have hfold := @foldlM_encodeElement D ext textType hT es none [] (.inl rfl)
    (fun e he => ⟨fun x hx => by simp [hnull e he] at hx, .inl (elemType_of_target (hnull e he))⟩)
  rw [foldl_firstType_of_nulls es none (.inl rfl) (fun e he => elemType_of_target (hnull e he))
    hne, List.nil_append] at hfold
  simp only [encodeValue, encodeDeref, encodeArray, hfold, bind, Except.bind]
  simp [nullType, EncodedValue.decode, pure, Except.pure]

/-- Every null decodes as nil: a nil interface, a nil byte slice, a nil pointer, a pointer to a
nil interface or to a nil byte slice. -/
theorem decode_encodeValue_nil {v : GoValue D} (hv : v.target = none) :
    (encodeValue ext v).bind (EncodedValue.decode ext.parseDecimalExplicit) = .ok .nil := by
  match v, hv with
  | .nil, _ | .bytes none, _ | .ptr _ none, _ | .ptr _ (some .nil), _ => rfl
  | .ptr _ (some (.bytes none)), _ => rfl

lemma baseType_fits {T : DataType} (hT : BaseType T) :
    IsGoString T.name ∧ T.name.length + 11 < 2 ^ 32 - 1 := by
  have h := hT.array_name
  simp only [arrayTypeNames, List.mem_cons, List.not_mem_nil, or_false] at h
  rcases h with h | h | h | h | h | h <;> simp [h, IsGoString, ← String.length_toList]

/-- **After `MarshalBinary` and `UnmarshalBinary`, a slice of `n` elements decodes as its first
`n % 65536`**: the count is written as a `uint16`, and the elements after it are not read. -/
theorem decode_unmarshal_encodeValue_slice {es : List (GoValue D)} {T : DataType} (tn : String)
    (hes : ∀ e ∈ es, Element ext e ∧ (e.target ≠ none → e.elemType ext = T))
    (htyped : ∃ e ∈ es, e.target ≠ none)
    (hsize : ∀ e ∈ es, (e.encoding ext).length < 2 ^ 32 - 1) :
    ((encodeValue ext (.slice tn (some es))).bind fun e =>
        (EncodedValue.unmarshalBinary e.marshalBinary).mapError .error).bind
      (EncodedValue.decode ext.parseDecimalExplicit) =
      .ok (.array ((es.take (es.length % 2 ^ 16)).map fun e => e.target.bind GoValue.scalar)) := by
  obtain ⟨hT, henc⟩ := encodeValue_slice tn hes htyped
  obtain ⟨hgo, hlen⟩ := baseType_fits hT
  have hfits : EncodedValue.Fits ⟨{ T with isArray := true }, es.map (GoValue.encoding ext)⟩ :=
    ⟨hgo, hlen, by simpa using hsize⟩
  -- the count read back is the one written, cut to sixteen bits
  have hread := Reader.run'_of_ok (EncodedValue.readFrom_marshalBinary _ hfits [])
  rw [List.length_map, ← List.map_take] at hread
  rw [henc]
  show ((EncodedValue.unmarshalBinary _).mapError Failure.error).bind _ = _
  rw [EncodedValue.unmarshalBinary, List.append_nil] at *
  rw [hread]
  show EncodedValue.decode _ _ = _
  simp only [EncodedValue.decode, hT.not_null, if_false, hT.name_alias, if_true, hT.array_name,
    decodeAnyArr_encoding _ (fun e he => hes e (List.mem_of_mem_take he))]
  rfl

end Encode

theorem decode_unmarshal_encodeValue_65536_strings :
    ((encodeValue Externals.none (.slice "[]string" (some (List.replicate 65536 (.string "a"))))).bind
        fun e => (EncodedValue.unmarshalBinary e.marshalBinary).mapError .error).bind
      (EncodedValue.decode Externals.none.parseDecimalExplicit) = .ok (.array []) := by
  have hsupported : Supported Externals.none (GoValue.string "a") := by simp [Supported, IsGoString]
  have h := @decode_unmarshal_encodeValue_slice Empty Externals.none
    (List.replicate 65536 (GoValue.string "a")) textType "[]string"
    (fun e he => by
      rw [List.eq_of_mem_replicate he]
      exact ⟨fun x hx => by cases hx; exact hsupported, fun _ => rfl⟩)
    ⟨.string "a", List.mem_replicate.mpr ⟨by norm_num, rfl⟩, by simp [GoValue.target]⟩
    (fun e he => by rw [List.eq_of_mem_replicate he]; decide)
  rwa [List.length_replicate, show 65536 % 2 ^ 16 = 0 by norm_num, List.take_zero,
    List.map_nil] at h

end KwilDb.Core
