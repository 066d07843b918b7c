import KwilDb.Core.Types

/-!
# Decoding action arguments: `EncodedValue.Decode`

An action call carries its arguments as `EncodedValue`s: a `DataType` and a list of byte
strings, one per element. The `executeAction` route decodes every argument of every call with
`EncodedValue.Decode` before running it, on bytes taken straight from the transaction.

`Decode` treats the `null` type apart, resolves the type name through `typeAlias`, and sends each
element through `decodeScalar`, whose first step `decodeNullable` strips the null marker. Two
inputs make it panic instead of returning: an empty element (`decodeNullable` panics on purpose)
and a non-null `bool` element with no payload byte (`data[0]` on an empty slice), where the `int8`
and `uuid` cases check the length first. `decodeScalar_returnsNormally_iff` says these are the
only ones, and `decode_returnsNormally` lifts that to whole arguments and
`decodeArguments_returnsNormally` to the arguments of an action call.

Decimal parsing (`ParseDecimalExplicit`, over the `apd` library) is the parameter
`parseDecimal`, a function that returns a decimal or an error.
-/

namespace KwilDb.Core

open KwilDb.Lib

/-- `types.DataType`. -/
structure DataType where
  name : String
  isArray : Bool
  metadata : UInt16 × UInt16
deriving DecidableEq, Repr

/-- `types.EncodedValue`: the type, and one byte string per element. -/
structure EncodedValue where
  type : DataType
  data : List Bytes
deriving DecidableEq, Repr

/-- `typeAlias`: the accepted type names and their base names. `null` is not among them. -/
def typeAlias (name : String) : Option String :=
  match name with
  | "string" | "text" => some "text"
  | "int" | "integer" | "bigint" | "int8" => some "int8"
  | "bool" | "boolean" => some "bool"
  | "blob" | "bytea" => some "bytea"
  | "uuid" => some "uuid"
  | "decimal" | "numeric" => some "numeric"
  | _ => none

/-- A non-null value that `decodeScalar` returns behind a Go pointer. -/
inductive Scalar (D : Type) where
  | text (s : String)
  | int8 (i : Int64)
  | bytea (b : Bytes)
  | uuid (u : Bytes)
  | bool (b : Bool)
  | numeric (d : D)
deriving DecidableEq, Repr

/-- The base type whose decoding yields the value: the `*T` that `decodeAnyArr[T]` asserts. -/
def Scalar.typeName {D : Type} : Scalar D → String
  | .text _ => "text"
  | .int8 _ => "int8"
  | .bytea _ => "bytea"
  | .uuid _ => "uuid"
  | .bool _ => "bool"
  | .numeric _ => "numeric"

/-- What `Decode` returns as an `any`. -/
inductive Decoded (D : Type) where
  /-- A nil interface: a null. -/
  | nil
  /-- A pointer to a scalar. -/
  | scalar (v : Scalar D)
  /-- A typed slice `[]*T`, with nil for the null elements. -/
  | array (elems : List (Option (Scalar D)))
  /-- `make([]any, n)`, the value of a `null` array. -/
  | nulls (n : ℕ)
deriving DecidableEq, Repr

/-! ### Elements -/

/-- **`decodeNullable`**: a first byte `0` is a null and must stand alone, a first byte `1`
prefixes the payload. An empty slice panics. -/
def decodeNullable (v : Bytes) : Except Failure (Bytes × Bool) :=
  match v with
  | [] => throw (.panic "empty byte slice")
  | b :: rest =>
    if b = 0 then
      if rest ≠ [] then throw (.error "null byte must be only byte") else pure ([], true)
    else if b ≠ 1 then throw (.error s!"expected 0 or 1 for first byte, got {b}")
    else pure (rest, false)

section Decode

variable {D : Type} (parseDecimal : String → UInt16 → UInt16 → Except String D)

/-- The switch of `decodeScalar` on a non-null payload. The `bool` case reads `data[0]` with no
length check. -/
def decodePayload (data : Bytes) (typename : String) (metadata : UInt16 × UInt16) :
    Except Failure (Option (Scalar D)) :=
  match typename with
  | "text" => pure (some (.text (goString data)))
  | "int8" =>
    if data.length ≠ 8 then throw (.error "int must be 8 bytes")
    else pure (some (.int8 (Int64.ofNat (beNat data))))
  | "bytea" => pure (some (.bytea data))
  | "uuid" =>
    if data.length ≠ 16 then throw (.error "uuid must be 16 bytes") else pure (some (.uuid data))
  | "bool" =>
    match data with
    | [] => throw (.panic "runtime error: index out of range [0] with length 0")
    | b :: _ => pure (some (.bool (b = 1)))
  | "null" => pure none
  | "numeric" =>
    match parseDecimal (goString data) metadata.1 metadata.2 with
    | .ok d => pure (some (.numeric d))
    | .error e => throw (.error e)
  | _ => throw (.error s!"cannot decode type {typename}")

/-- **`decodeScalar`**: strip the null marker, then decode the payload. -/
def decodeScalar (data : Bytes) (typename : String) (metadata : UInt16 × UInt16) :
    Except Failure (Option (Scalar D)) := do
  let (payload, null) ← decodeNullable data
  if null then return none
  decodePayload parseDecimal payload typename metadata

/-- **`decodeAnyArr[T]`**: the elements in order, stopping at the first error; a decoded value
that is not a `*T` panics. -/
def decodeAnyArr (typename : String) (metadata : UInt16 × UInt16) :
    List Bytes → Except Failure (List (Option (Scalar D)))
  | [] => pure []
  | elem :: rest => do
    let dec ← decodeScalar parseDecimal elem typename metadata
    let decT ← match dec with
      | none => pure none
      | some s =>
        if s.typeName = typename then pure (some s)
        else throw (.panic s!"expected type {typename}, got another type")
    let tail ← decodeAnyArr typename metadata rest
    pure (decT :: tail)

/-- The base types `Decode` builds typed slices for. -/
def arrayTypeNames : List String := ["text", "int8", "bytea", "uuid", "bool", "numeric"]

/-- **`EncodedValue.Decode`.** -/
def EncodedValue.decode (e : EncodedValue) : Except Failure (Decoded D) :=
  if e.type.name = "null" then
    if e.type.isArray then pure (.nulls e.data.length)
    else match e.data with
      | [] => pure .nil
      | [x] =>
        match x with
        | [] => pure .nil
        | [b] =>
          if b = 0 then pure .nil
          else throw (.error "expected zero first byte for type \x27null\x27")
        | _ => throw (.error "expected nil data for type \x27null\x27")
      | _ => throw (.error "expected nil data for type \x27null\x27")
  else
    match typeAlias e.type.name with
    | none =>
      let name := e.type.name
      throw (.error s!"unknown type \"{name}\"")
    | some typeName =>
      if e.type.isArray then
        if typeName ∈ arrayTypeNames then
          Decoded.array <$> decodeAnyArr parseDecimal typeName e.type.metadata e.data
        else throw (.error s!"unknown type \x60{typeName}\x60")
      else match e.data with
        | [x] => (fun v => (v.map Decoded.scalar).getD .nil) <$>
            decodeScalar parseDecimal x typeName e.type.metadata
        | data =>
          let n := data.length
          throw (.error s!"expected 1 element, got {n}")

/-! ### When decoding returns -/

lemma decodeNullable_returnsNormally_iff (v : Bytes) :
    ReturnsNormally (decodeNullable v) ↔ v ≠ [] := by
  cases v with
  | nil => simp [decodeNullable]
  | cons b rest =>
    simp only [decodeNullable, ne_eq, reduceCtorEq, not_false_eq_true, iff_true]
    split_ifs <;> simp

lemma decodeNullable_eq_ok_payload {v payload : Bytes} :
    decodeNullable v = .ok (payload, false) ↔ v = 1 :: payload := by
  cases v with
  | nil => simp [decodeNullable]
  | cons b rest =>
    simp only [decodeNullable]
    split_ifs <;> simp_all [pure, Except.pure]

/-- The payload switch panics only on a `bool` with no byte. -/
theorem decodePayload_returnsNormally_iff (data : Bytes) (typename : String)
    (md : UInt16 × UInt16) :
    ReturnsNormally (decodePayload parseDecimal data typename md) ↔
      ¬ (typename = "bool" ∧ data = []) := by
  unfold decodePayload
  split
  case h_2 | h_4 => split <;> simp
  case h_5 => cases data <;> simp
  case h_7 => split <;> simp
  case h_8 => simp_all
  all_goals simp

lemma decodePayload_typeName {data : Bytes} {typename : String} {md : UInt16 × UInt16}
    {s : Scalar D} (h : decodePayload parseDecimal data typename md = .ok (some s)) :
    s.typeName = typename := by
  unfold decodePayload at h
  split at h
  case h_1 | h_3 => cases h; rfl
  case h_2 | h_4 | h_7 =>
    split at h <;> cases h
    rfl
  case h_5 =>
    cases data <;> cases h
    rfl
  all_goals cases h

/-- **When `decodeScalar` panics.** Exactly on an empty element, and on the non-null `bool`
element that is the marker alone. -/
theorem decodeScalar_returnsNormally_iff (data : Bytes) (typename : String)
    (md : UInt16 × UInt16) :
    ReturnsNormally (decodeScalar parseDecimal data typename md) ↔
      data ≠ [] ∧ ¬ (typename = "bool" ∧ data = [1]) := by
  rw [decodeScalar, returnsNormally_bind_iff, decodeNullable_returnsNormally_iff]
  refine and_congr_right fun hne => ⟨fun h hb => ?_, fun h => ?_⟩
  · obtain ⟨rfl, rfl⟩ := hb
    have := h ([], false) (decodeNullable_eq_ok_payload.mpr rfl)
    simp [decodePayload_returnsNormally_iff] at this
  · rintro ⟨payload, null⟩ hdec
    cases null with
    | true => simp
    | false =>
      rw [decodeNullable_eq_ok_payload] at hdec
      subst hdec
      simpa [decodePayload_returnsNormally_iff] using h

/-- A decoded value has the base type it was decoded as. -/
lemma decodeScalar_typeName {data : Bytes} {typename : String} {md : UInt16 × UInt16}
    {s : Scalar D} (h : decodeScalar parseDecimal data typename md = .ok (some s)) :
    s.typeName = typename := by
  rw [decodeScalar, bind_eq_ok] at h
  obtain ⟨⟨payload, null⟩, -, h⟩ := h
  cases null with
  | true => cases h
  | false => exact decodePayload_typeName parseDecimal h

/-- The element loop of an array panics only where `decodeScalar` does: its type assertion
holds. -/
theorem decodeAnyArr_returnsNormally (typename : String) (md : UInt16 × UInt16) :
    ∀ elems : List Bytes,
      (∀ x ∈ elems, ReturnsNormally (decodeScalar parseDecimal x typename md)) →
      ReturnsNormally (decodeAnyArr parseDecimal typename md elems)
  | [], _ => by simp [decodeAnyArr]
  | x :: rest, h => by
    rw [List.forall_mem_cons] at h
    have ih := decodeAnyArr_returnsNormally typename md rest h.2
    simp only [decodeAnyArr, returnsNormally_bind_iff]
    refine ⟨h.1, fun dec hdec => ?_⟩
    -- the assertion `dec.(*T)` cannot fail: `dec` has the type it was decoded as
    cases dec with
    | none => simp [ih]
    | some s => simp [decodeScalar_typeName parseDecimal hdec, ih]

/-- **Guarded arguments decode without a panic.** If no element is empty and no element of a
`bool` type is the bare marker `[1]`, `Decode` returns a value or an error. -/
theorem decode_returnsNormally (e : EncodedValue)
    (h : ∀ x ∈ e.data, x ≠ [] ∧ ¬ (typeAlias e.type.name = some "bool" ∧ x = [1])) :
    ReturnsNormally (e.decode parseDecimal) := by
  obtain ⟨⟨name, isArray, md⟩, data⟩ := e
  dsimp only at h
  by_cases hnull : name = "null"
  · -- the `null` type checks the lengths before it reads a byte
    simp only [EncodedValue.decode, hnull, if_true]
    cases isArray
    · rcases data with _ | ⟨x, _ | ⟨y, rest⟩⟩
      · simp
      · rcases x with _ | ⟨b, _ | ⟨c, bs⟩⟩
        · simp
        · by_cases hb : b = 0 <;> simp [hb]
        · simp
      · simp
    · simp
  · simp only [EncodedValue.decode, hnull, if_false]
    cases halias : typeAlias name with
    | none => simp
    | some tn =>
      have hel : ∀ x ∈ data, ReturnsNormally (decodeScalar parseDecimal x tn md) := by
        intro x hx
        obtain ⟨hne, hbool⟩ := h x hx
        rw [decodeScalar_returnsNormally_iff]
        exact ⟨hne, fun ⟨htn, hx1⟩ => hbool ⟨htn ▸ halias, hx1⟩⟩
      cases isArray
      · rcases data with _ | ⟨x, _ | ⟨y, rest⟩⟩
        · simp
        · simpa using hel x (List.mem_singleton_self x)
        · simp
      · simp only [if_true]
        split_ifs
        · rw [returnsNormally_map_iff]
          exact decodeAnyArr_returnsNormally parseDecimal tn md data hel
        · simp

lemma typeAlias_null : typeAlias "null" = none := rfl

/-- For a scalar of an accepted type, the guard of `decode_returnsNormally` is also necessary. -/
theorem decode_scalar_returnsNormally_iff {name tn : String} (md : UInt16 × UInt16) (x : Bytes)
    (halias : typeAlias name = some tn) :
    ReturnsNormally (EncodedValue.decode parseDecimal ⟨⟨name, false, md⟩, [x]⟩) ↔
      x ≠ [] ∧ ¬ (tn = "bool" ∧ x = [1]) := by
  have hnull : name ≠ "null" := by
    rintro rfl
    rw [typeAlias_null] at halias
    cases halias
  simp only [EncodedValue.decode, hnull, if_false, halias, Bool.false_eq_true,
    returnsNormally_map_iff]
  exact decodeScalar_returnsNormally_iff parseDecimal x tn md

/-- **`Decode` panics on arguments a transaction can carry**: a non-null `bool` scalar whose element
is the marker byte alone, and a scalar whose element is empty. -/
theorem decode_panics_on_short_elements :
    ¬ ReturnsNormally (EncodedValue.decode parseDecimal ⟨⟨"bool", false, (0, 0)⟩, [[1]]⟩) ∧
      ¬ ReturnsNormally (EncodedValue.decode parseDecimal ⟨⟨"text", false, (0, 0)⟩, [[]]⟩) := by
  constructor
  · intro h
    have hbool := (decode_scalar_returnsNormally_iff parseDecimal (0, 0) [1] rfl).mp h
    exact hbool.2 ⟨rfl, rfl⟩
  · intro h
    have htext := (decode_scalar_returnsNormally_iff parseDecimal (0, 0) [] rfl).mp h
    exact htext.1 rfl

/-! ### The `executeAction` route -/

/-- The argument loop of `executeActionRoute.PreTx`: every value of every argument list is
decoded in order, and the first error ends the transaction with `CodeEncodingError`. -/
def decodeArguments (args : List (List EncodedValue)) :
    Except Failure (List (List (Decoded D))) :=
  args.mapM fun arg => arg.mapM fun v => v.decode parseDecimal

/-- An action call whose arguments pass the guard of `decode_returnsNormally` gets through
`PreTx` without a panic. -/
theorem decodeArguments_returnsNormally (args : List (List EncodedValue))
    (h : ∀ arg ∈ args, ∀ v ∈ arg, ∀ x ∈ v.data,
      x ≠ [] ∧ ¬ (typeAlias v.type.name = some "bool" ∧ x = [1])) :
    ReturnsNormally (decodeArguments parseDecimal args) :=
  returnsNormally_mapM _ fun arg harg =>
    returnsNormally_mapM _ fun v hv => decode_returnsNormally parseDecimal v (h arg harg v hv)

end Decode

/-- A call with a `bool` argument `true` and a `text` argument `"h"`, each behind the non-null
marker, decodes without a panic. -/
theorem decodeArguments_returnsNormally_bool_text :
    ReturnsNormally (decodeArguments (fun _ _ _ => (.error "no decimals" : Except String Unit))
      [[⟨⟨"bool", false, (0, 0)⟩, [[1, 1]]⟩, ⟨⟨"text", false, (0, 0)⟩, [[1, 104]]⟩]]) :=
  decodeArguments_returnsNormally _ _ (by decide)

end KwilDb.Core
