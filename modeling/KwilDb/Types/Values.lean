import KwilDb.Core.EncodedValue
import KwilDb.Types.Compact

/-!
# Typed values on the wire, and the payloads that carry them

`DataType.MarshalBinary` writes a type big-endian: a version, the name after its length, an
array flag and the two metadata numbers. `EncodedValue.MarshalBinary` writes a version, the
type's bytes, the number of elements as a `uint16`, and the elements, each behind a `WriteBytes`
length. The readers ignore what follows the value.

A name is a Go string, kept one byte per character (`goBytes`, `goString`), so it reads back
when every character is a byte. Every count of this file is cut to sixteen bits when written:
of `n` elements, parameters or calls the reader reads back the first `n % 65536`
(`EncodedValue.readFrom_marshalBinary`, `RawStatement.unmarshal_marshalBinary`,
`ActionExecution.unmarshal_marshalBinary`), so below `65536` everything comes back.

`RawStatement` and `ActionExecution`, the two payloads that carry values, are here; a nil
pointer among their parameters or arguments makes `MarshalBinary` panic.
-/

namespace KwilDb.Core

open KwilDb.Lib
open KwilDb.Types (readBytes readBytes_writeBytes writeBytes_some)

/-! ## Data types -/

/-- `DataType.SerializeSize`. -/
def DataType.serializeSize (c : DataType) : ℕ := 2 + 4 + (goBytes c.name).length + 1 + 4

/-- `DataType.MarshalBinary`. -/
def DataType.marshalBinary (c : DataType) : Bytes :=
  beBytes 2 0 ++ beBytes 4 (goBytes c.name).length ++ goBytes c.name ++
    [if c.isArray then 1 else 0] ++ beBytes 2 c.metadata.1.toNat ++ beBytes 2 c.metadata.2.toNat

/-- `DataType.UnmarshalBinary`. The bytes after the metadata are not looked at. -/
def DataType.unmarshalBinary (data : Bytes) : Except String DataType :=
  let lengthError : Except String DataType := .error ("invalid data length: " ++ toString data.length)
  if data.length < 6 then lengthError
  else if beNat (data.take 2) ≠ 0 then
    .error ("invalid tuple data, unknown version " ++ toString (beNat (data.take 2)))
  else
    let nameLen := beNat ((data.drop 2).take 4)
    if data.length < 6 + nameLen + 1 + 2 * 2 then lengthError
    else
      let name := goString ((data.drop 6).take nameLen)
      match data.drop (6 + nameLen) with
      | flag :: md =>
        if flag = 0 ∨ flag = 1 then
          let c : DataType := ⟨name, decide (flag = 1),
            (UInt16.ofNat (beNat (md.take 2)), UInt16.ofNat (beNat ((md.drop 2).take 2)))⟩
          -- the check the source marks as a bug if it fails: the offset is the size
          if 6 + nameLen + 1 + 4 ≠ c.serializeSize then lengthError else .ok c
        else lengthError
      -- out of reach: the length check leaves a flag byte
      | [] => lengthError

/-- A name of bytes, as a Go string has. -/
def IsGoString (s : String) : Prop := ∀ c ∈ s.toList, c.toNat < 256

lemma DataType.length_marshalBinary (c : DataType) :
    c.marshalBinary.length = c.name.length + 11 := by
  simp only [DataType.marshalBinary, List.length_append, length_beBytes, length_goBytes,
    List.length_singleton]
  omega

/-- A type reads back from its bytes, whatever follows them. -/
theorem DataType.unmarshal_marshalBinary_append (c : DataType) (hname : IsGoString c.name)
    (hlen : c.name.length < 2 ^ 32) (rest : Bytes) :
    DataType.unmarshalBinary (c.marshalBinary ++ rest) = .ok c := by
  -- the bytes as the reader takes them: six fixed bytes, the name, the flag and the metadata
  set md := beBytes 2 c.metadata.1.toNat ++ (beBytes 2 c.metadata.2.toNat ++ rest) with hmd
  have hsplit : c.marshalBinary ++ rest = beBytes 2 0 ++ (beBytes 4 c.name.length ++
      (goBytes c.name ++ ((if c.isArray then 1 else 0) :: md))) := by
    simp [DataType.marshalBinary, md]
  have hl : (c.marshalBinary ++ rest).length = c.name.length + 11 + rest.length := by
    rw [List.length_append, c.length_marshalBinary]
  have hn : c.name.length % 256 ^ 4 = c.name.length := Nat.mod_eq_of_lt (by simpa using hlen)
  have hver : (c.marshalBinary ++ rest).take 2 = beBytes 2 0 := by
    rw [hsplit, List.take_left' (length_beBytes 2 0)]
  have hnameLen : ((c.marshalBinary ++ rest).drop 2).take 4 = beBytes 4 c.name.length := by
    rw [hsplit, List.drop_left' (length_beBytes 2 0), List.take_left' (length_beBytes 4 _)]
  have hrest : (c.marshalBinary ++ rest).drop 6 =
      goBytes c.name ++ ((if c.isArray then 1 else 0) :: md) := by
    rw [hsplit, ← List.append_assoc, List.drop_left' (by simp)]
  have hname' : ((c.marshalBinary ++ rest).drop 6).take c.name.length = goBytes c.name := by
    rw [hrest, List.take_left' (length_goBytes c.name)]
  have htail : (c.marshalBinary ++ rest).drop (6 + c.name.length) =
      (if c.isArray then 1 else 0) :: md := by
    rw [← List.drop_drop, hrest, List.drop_left' (length_goBytes c.name)]
  have hmd1 : md.take 2 = beBytes 2 c.metadata.1.toNat := List.take_left' (length_beBytes 2 _)
  have hmd2 : (md.drop 2).take 2 = beBytes 2 c.metadata.2.toNat := by
    rw [List.drop_left' (length_beBytes 2 _), List.take_left' (length_beBytes 2 _)]
  unfold DataType.unmarshalBinary
  simp only [hl, hver, hnameLen, hname', htail, beNat_beBytes, hn, goString_goBytes hname, hmd1,
    hmd2, DataType.serializeSize, length_goBytes]
  rw [if_neg (by omega), if_neg (by simp), if_neg (by omega)]
  cases c
  rename_i name isArray metadata
  cases isArray <;> simp

theorem DataType.unmarshal_marshalBinary (c : DataType) (hname : IsGoString c.name)
    (hlen : c.name.length < 2 ^ 32) :
    DataType.unmarshalBinary c.marshalBinary = .ok c := by
  simpa using c.unmarshal_marshalBinary_append hname hlen []

/-! ## Encoded values -/

/-- `evVersion`. -/
def evVersion : ℕ := 0

/-- `EncodedValue.MarshalBinary`. The element count is written as a `uint16`. -/
def EncodedValue.marshalBinary (e : EncodedValue) : Bytes :=
  leBytes 2 evVersion ++ writeBytes e.type.marshalBinary ++ leBytes 2 e.data.length ++
    e.data.flatMap writeBytes

/-- One element of `EncodedValue.UnmarshalBinary`'s loop. -/
def readElement : Reader Bytes := do
  let d ← readBytes true
  pure (d.getD [])

/-- `EncodedValue.UnmarshalBinary`, on the `bytes.Buffer` over its input. -/
def EncodedValue.readFrom : Reader EncodedValue := do
  let version ← readUint 2
  if version ≠ evVersion then throw ("unknown version " ++ toString version)
  let typeBytes ← readBytes true
  let type ← monadLift (DataType.unmarshalBinary (typeBytes.getD []))
  let dataLen ← readUint 2
  let data ← Reader.readN readElement dataLen
  pure ⟨type, data⟩

/-- `EncodedValue.UnmarshalBinary`. -/
def EncodedValue.unmarshalBinary (bts : Bytes) : Except String EncodedValue :=
  EncodedValue.readFrom.run' bts

/-- What an encoded value needs to read back: a type name of bytes whose encoding `WriteBytes`
can count, and elements it can count. -/
structure EncodedValue.Fits (e : EncodedValue) : Prop where
  name : IsGoString e.type.name
  nameLength : e.type.name.length + 11 < 2 ^ 32 - 1
  elements : ∀ d ∈ e.data, d.length < 2 ^ 32 - 1

lemma readBytes_writeBytes_some {d : Bytes} (hd : d.length < 2 ^ 32 - 1) (rest : Bytes) :
    readBytes true (writeBytes d ++ rest) = .ok (some d, rest) := by
  rw [← writeBytes_some]
  exact readBytes_writeBytes true (some d) rest (by rintro _ ⟨⟩; exact hd)

lemma readElement_writeBytes {d : Bytes} (hd : d.length < 2 ^ 32 - 1) (rest : Bytes) :
    readElement (writeBytes d ++ rest) = .ok (d, rest) := by
  rw [readElement, Reader.bind_of_ok (readBytes_writeBytes_some hd rest)]
  rfl

/-- `EncodedValue.UnmarshalBinary` reads the type and then as many elements as the count says:
all of them below `65536`, the first `n % 65536` of `n` in general. -/
theorem EncodedValue.readFrom_marshalBinary (e : EncodedValue) (he : e.Fits) (rest : Bytes) :
    EncodedValue.readFrom (e.marshalBinary ++ rest) =
      .ok (⟨e.type, e.data.take (e.data.length % 2 ^ 16)⟩,
        (e.data.drop (e.data.length % 2 ^ 16)).flatMap writeBytes ++ rest) := by
  have htype : DataType.unmarshalBinary e.type.marshalBinary = .ok e.type :=
    e.type.unmarshal_marshalBinary he.name (by have := he.nameLength; omega)
  have hloop := Reader.readN_flatMap_take readElement writeBytes id e.data
    (fun d hd rest => readElement_writeBytes (he.elements d hd) rest) rest
    (e.data.length % 2 ^ 16) (Nat.mod_le _ _)
  simp only [EncodedValue.marshalBinary, List.append_assoc, EncodedValue.readFrom]
  rw [Reader.bind_of_ok (readUint_leBytes 2 _ _), if_neg (by simp [evVersion]),
    Reader.bind_of_ok (readBytes_writeBytes_some
      (by rw [e.type.length_marshalBinary]; exact he.nameLength) _),
    Option.getD_some, Reader.bind_of_ok (Reader.lift_of_ok htype _),
    Reader.bind_of_ok (readUint_leBytes 2 _ _), show (256 : ℕ) ^ 2 = 2 ^ 16 by norm_num,
    Reader.bind_of_ok hloop, List.map_id]
  rfl

theorem EncodedValue.unmarshal_marshalBinary (e : EncodedValue) (he : e.Fits)
    (hcount : e.data.length < 2 ^ 16) : EncodedValue.unmarshalBinary e.marshalBinary = .ok e := by
  have h := e.readFrom_marshalBinary he []
  rw [Nat.mod_eq_of_lt hcount, List.take_length, List.append_nil] at h
  exact Reader.run'_of_ok h

/-- An encoded value that reads back from behind a `WriteBytes` length. -/
structure EncodedValue.Writable (e : EncodedValue) : Prop where
  fits : e.Fits
  count : e.data.length < 2 ^ 16
  length : e.marshalBinary.length < 2 ^ 32 - 1

end KwilDb.Core

namespace KwilDb.Types

open KwilDb.Lib
open KwilDb.Core (Bytes EncodedValue)

/-! ## Statements -/

/-- `types.NamedValue`; a nil value is `none`. -/
structure NamedValue where
  name : Bytes
  value : Option EncodedValue
deriving DecidableEq, Repr

/-- `types.RawStatement`; a nil parameter is `none`. -/
structure RawStatement where
  statement : Bytes
  parameters : List (Option NamedValue)
deriving DecidableEq, Repr

/-- `rsVersion`. -/
def rsVersion : ℕ := 0

/-- The bytes `RawStatement.MarshalBinary` writes for one parameter: its name, then its value's
bytes. A nil parameter or value panics. -/
def paramBytes : Option NamedValue → Except Failure Bytes
  | some ⟨name, some v⟩ => .ok (writeString name ++ writeBytes (some v.marshalBinary))
  | _ => .error nilDereference

/-- `RawStatement.MarshalBinary`. The number of parameters is written as a `uint16`. -/
def RawStatement.marshalBinary (r : RawStatement) : Except Failure Bytes := do
  let params ← r.parameters.mapM paramBytes
  pure (leBytes 2 rsVersion ++ writeString r.statement ++ leBytes 2 r.parameters.length ++
    params.flatten)

/-- One parameter of `RawStatement.UnmarshalBinary`'s loop. -/
def readParam : Reader (Option NamedValue) := do
  let name ← readString true
  let encValBts ← readBytes true
  let encVal ← monadLift (EncodedValue.unmarshalBinary (encValBts.getD []))
  pure (some ⟨name, some encVal⟩)

/-- `RawStatement.UnmarshalBinary`, on the `bytes.Reader` over its input. -/
def RawStatement.readFrom : Reader RawStatement := do
  let version ← readUint 2
  if version ≠ rsVersion then throw ("unsupported version " ++ toString version)
  let statement ← readString true
  let numParams ← readUint 2
  let params ← Reader.readN readParam numParams
  pure ⟨statement, params⟩

/-- `RawStatement.UnmarshalBinary`. -/
def RawStatement.unmarshalBinary (b : Bytes) : Except String RawStatement :=
  RawStatement.readFrom.run' b

lemma readParam_paramBytes {n : Bytes} {v : EncodedValue} (hn : n.length < 2 ^ 32 - 1)
    (hv : v.Writable) (rest : Bytes) :
    readParam (writeString n ++ writeBytes (some v.marshalBinary) ++ rest) =
      .ok (some ⟨n, some v⟩, rest) := by
  rw [readParam, List.append_assoc, Reader.bind_of_ok (readString_writeString true n _ hn),
    Reader.bind_of_ok (readBytes_writeBytes true (some v.marshalBinary) rest
      (by rintro _ ⟨⟩; exact hv.length)), Option.getD_some,
    Reader.bind_of_ok (Reader.lift_of_ok (v.unmarshal_marshalBinary hv.fits hv.count) _)]
  rfl

/-- **`RawStatement.UnmarshalBinary` reads back `MarshalBinary`** of a statement with no nil
parameter, up to the sixteen bits of the parameter count: of `n` parameters it reads the first
`n % 65536`. -/
theorem RawStatement.unmarshal_marshalBinary (stmt : Bytes) (ps : List (Bytes × EncodedValue))
    (hstmt : stmt.length < 2 ^ 32 - 1) (hps : ∀ p ∈ ps, p.1.length < 2 ^ 32 - 1 ∧ p.2.Writable) :
    ∃ bytes, (⟨stmt, ps.map fun p => some ⟨p.1, some p.2⟩⟩ : RawStatement).marshalBinary = .ok bytes ∧
      RawStatement.unmarshalBinary bytes =
        .ok ⟨stmt, (ps.take (ps.length % 2 ^ 16)).map fun p => some ⟨p.1, some p.2⟩⟩ := by
  let enc : Bytes × EncodedValue → Bytes := fun p => writeString p.1 ++ writeBytes (some p.2.marshalBinary)
  have hmap : (ps.map fun p => some (NamedValue.mk p.1 (some p.2))).mapM paramBytes = .ok (ps.map enc) :=
    mapM_map_eq_ok ps fun _ _ => rfl
  have hloop := Reader.readN_flatMap_take readParam enc (fun p => some ⟨p.1, some p.2⟩) ps
    (fun p hp rest => readParam_paramBytes (hps p hp).1 (hps p hp).2 rest) []
    (ps.length % 2 ^ 16) (Nat.mod_le _ _)
  refine ⟨_, by rw [RawStatement.marshalBinary, hmap]; rfl,
    @Reader.run'_of_ok _ _ _ ((ps.drop (ps.length % 2 ^ 16)).flatMap enc ++ []) _ ?_⟩
  rw [List.length_map, ← List.flatMap_def, RawStatement.readFrom, List.append_assoc,
    List.append_assoc, ← List.append_nil (ps.flatMap enc),
    Reader.bind_of_ok (readUint_leBytes 2 _ _), if_neg (by simp [rsVersion])]
  dsimp only
  rw [Reader.bind_of_ok (readString_writeString true stmt _ hstmt),
    Reader.bind_of_ok (readUint_leBytes 2 _ _), show (256 : ℕ) ^ 2 = 2 ^ 16 by norm_num,
    Reader.bind_of_ok hloop]
  rfl

/-- What a statement needs to read back as it is: a statement and names that `WriteBytes` can
count, fewer than `65536` parameters, and every parameter named and valued, with a value that
reads back. -/
structure RawStatement.Fits (r : RawStatement) : Prop where
  statement : r.statement.length < 2 ^ 32 - 1
  count : r.parameters.length < 2 ^ 16
  parameters : ∀ p ∈ r.parameters, ∃ nv : Bytes × EncodedValue, p = some ⟨nv.1, some nv.2⟩ ∧
    nv.1.length < 2 ^ 32 - 1 ∧ nv.2.Writable

lemma RawStatement.unmarshal_of_fits {r : RawStatement} (hr : r.Fits) :
    ∃ bytes, r.marshalBinary = .ok bytes ∧ RawStatement.unmarshalBinary bytes = .ok r := by
  obtain ⟨ps, hps, hfit⟩ := exists_eq_map_of_forall_mem r.parameters hr.parameters
  have hcount : ps.length % 2 ^ 16 = ps.length :=
    Nat.mod_eq_of_lt (by simpa [hps] using hr.count)
  obtain ⟨bytes, henc, hdec⟩ := RawStatement.unmarshal_marshalBinary r.statement ps hr.statement hfit
  rw [hcount, List.take_length, ← hps] at hdec
  rw [← hps] at henc
  exact ⟨bytes, henc, hdec⟩

/-! ## Action calls -/

/-- `types.ActionExecution`; a nil argument is `none`. -/
structure ActionExecution where
  (namespace' : Bytes)
  action : Bytes
  arguments : List (List (Option EncodedValue))
deriving DecidableEq, Repr

/-- `aeVersion`. -/
def aeVersion : ℕ := 0

/-- The bytes `ActionExecution.MarshalBinary` writes for one argument. A nil argument panics. -/
def argBytes : Option EncodedValue → Except Failure Bytes
  | some v => .ok (writeBytes (some v.marshalBinary))
  | none => .error nilDereference

/-- The bytes of one batched call: its number of arguments as a `uint16`, then the arguments. -/
def callBytes (args : List (Option EncodedValue)) : Except Failure Bytes := do
  let encs ← args.mapM argBytes
  pure (leBytes 2 args.length ++ encs.flatten)

/-- `ActionExecution.MarshalBinary`. The number of calls is written as a `uint16`. -/
def ActionExecution.marshalBinary (a : ActionExecution) : Except Failure Bytes := do
  let calls ← a.arguments.mapM callBytes
  pure (leBytes 2 aeVersion ++ writeString a.namespace' ++ writeString a.action ++
    leBytes 2 a.arguments.length ++ calls.flatten)

/-- One argument of `ActionExecution.UnmarshalBinary`'s inner loop. -/
def readArg : Reader (Option EncodedValue) := do
  let encValBts ← readBytes true
  let ev ← monadLift (EncodedValue.unmarshalBinary (encValBts.getD []))
  pure (some ev)

/-- One batched call of `ActionExecution.UnmarshalBinary`'s outer loop. -/
def readCall : Reader (List (Option EncodedValue)) := do
  let numArgs ← readUint 2
  Reader.readN readArg numArgs

/-- `ActionExecution.UnmarshalBinary`, on the `bytes.Reader` over its input. -/
def ActionExecution.readFrom : Reader ActionExecution := do
  let version ← readUint 2
  if version ≠ aeVersion then throw ("unsupported version " ++ toString version)
  let namespace' ← readString true
  let action ← readString true
  let numCalls ← readUint 2
  let args ← Reader.readN readCall numCalls
  pure ⟨namespace', action, args⟩

/-- `ActionExecution.UnmarshalBinary`. -/
def ActionExecution.unmarshalBinary (b : Bytes) : Except String ActionExecution :=
  ActionExecution.readFrom.run' b

lemma readArg_argBytes {v : EncodedValue} (hv : v.Writable) (rest : Bytes) :
    readArg (writeBytes (some v.marshalBinary) ++ rest) = .ok (some v, rest) := by
  rw [readArg, Reader.bind_of_ok (readBytes_writeBytes true (some v.marshalBinary) rest
      (by rintro _ ⟨⟩; exact hv.length)), Option.getD_some,
    Reader.bind_of_ok (Reader.lift_of_ok (v.unmarshal_marshalBinary hv.fits hv.count) _)]
  rfl

/-- The bytes of a batched call with no nil argument. -/
lemma callBytes_map_some (vs : List EncodedValue) :
    callBytes (vs.map some) =
      .ok (leBytes 2 vs.length ++ vs.flatMap fun v => writeBytes (some v.marshalBinary)) := by
  rw [callBytes, mapM_map_eq_ok (f := argBytes) (h := some)
    (g := fun v => writeBytes (some v.marshalBinary)) vs fun _ _ => rfl, List.length_map,
    List.flatMap_def]
  rfl

lemma readCall_callBytes {vs : List EncodedValue} (hvs : ∀ v ∈ vs, v.Writable)
    (hcount : vs.length < 2 ^ 16) (rest : Bytes) :
    readCall (leBytes 2 vs.length ++ vs.flatMap (fun v => writeBytes (some v.marshalBinary)) ++
      rest) = .ok (vs.map some, rest) := by
  have h16 : vs.length % 256 ^ 2 = vs.length :=
    Nat.mod_eq_of_lt (lt_of_lt_of_eq hcount (by norm_num))
  have hx : ∀ v ∈ vs, ∀ rest, readArg (writeBytes (some v.marshalBinary) ++ rest) =
      .ok (some v, rest) := fun v hv rest => readArg_argBytes (hvs v hv) rest
  have hloop : Reader.readN readArg vs.length
      (vs.flatMap (fun v => writeBytes (some v.marshalBinary)) ++ rest) = .ok (vs.map some, rest) :=
    @Reader.readN_flatMap (Option EncodedValue) EncodedValue readArg
      (fun v => writeBytes (some v.marshalBinary)) (fun v => some v) vs hx rest
  rw [readCall, List.append_assoc, Reader.bind_of_ok (readUint_leBytes 2 _ _), h16, hloop]

/-- **`ActionExecution.UnmarshalBinary` reads back `MarshalBinary`** of an execution with no nil
argument and fewer than `65536` arguments a call, up to the sixteen bits of the call count: of
`n` calls it reads the first `n % 65536`. -/
theorem ActionExecution.unmarshal_marshalBinary (ns action : Bytes)
    (calls : List (List EncodedValue)) (hns : ns.length < 2 ^ 32 - 1)
    (haction : action.length < 2 ^ 32 - 1)
    (hcalls : ∀ c ∈ calls, c.length < 2 ^ 16 ∧ ∀ v ∈ c, v.Writable) :
    ∃ bytes, (⟨ns, action, calls.map (·.map some)⟩ : ActionExecution).marshalBinary = .ok bytes ∧
      ActionExecution.unmarshalBinary bytes =
        .ok ⟨ns, action, (calls.take (calls.length % 2 ^ 16)).map (·.map some)⟩ := by
  let enc : List EncodedValue → Bytes := fun vs =>
    leBytes 2 vs.length ++ vs.flatMap fun v => writeBytes (some v.marshalBinary)
  have hmap : (calls.map (·.map some)).mapM callBytes = .ok (calls.map enc) :=
    mapM_map_eq_ok calls fun vs _ => callBytes_map_some vs
  have hloop := Reader.readN_flatMap_take readCall enc (·.map some) calls
    (fun c hc rest => readCall_callBytes (hcalls c hc).2 (hcalls c hc).1 rest) []
    (calls.length % 2 ^ 16) (Nat.mod_le _ _)
  refine ⟨_, by rw [ActionExecution.marshalBinary, hmap]; rfl,
    @Reader.run'_of_ok _ _ _ ((calls.drop (calls.length % 2 ^ 16)).flatMap enc ++ []) _ ?_⟩
  rw [List.length_map, ← List.flatMap_def, ActionExecution.readFrom, List.append_assoc,
    List.append_assoc, List.append_assoc, ← List.append_nil (calls.flatMap enc),
    Reader.bind_of_ok (readUint_leBytes 2 _ _), if_neg (by simp [aeVersion])]
  dsimp only
  rw [Reader.bind_of_ok (readString_writeString true ns _ hns),
    Reader.bind_of_ok (readString_writeString true action _ haction),
    Reader.bind_of_ok (readUint_leBytes 2 _ _), show (256 : ℕ) ^ 2 = 2 ^ 16 by norm_num,
    Reader.bind_of_ok hloop]
  rfl

/-- What an action call needs to read back as it is: names that `WriteBytes` can count, fewer
than `65536` calls of fewer than `65536` arguments each, and every argument a value that reads
back. -/
structure ActionExecution.Fits (a : ActionExecution) : Prop where
  (namespace' : a.namespace'.length < 2 ^ 32 - 1)
  action : a.action.length < 2 ^ 32 - 1
  count : a.arguments.length < 2 ^ 16
  arguments : ∀ c ∈ a.arguments, c.length < 2 ^ 16 ∧ ∀ v ∈ c, ∃ w, v = some w ∧ w.Writable

lemma ActionExecution.unmarshal_of_fits {a : ActionExecution} (ha : a.Fits) :
    ∃ bytes, a.marshalBinary = .ok bytes ∧ ActionExecution.unmarshalBinary bytes = .ok a := by
  -- each call is a list of values, and the calls a list of those
  have hcall : ∀ c ∈ a.arguments, ∃ vs : List EncodedValue, c = vs.map some ∧
      (vs.length < 2 ^ 16 ∧ ∀ v ∈ vs, v.Writable) := by
    intro c hc
    obtain ⟨vs, rfl, hvs⟩ := exists_eq_map_of_forall_mem c (ha.arguments c hc).2
    exact ⟨vs, rfl, by simpa using (ha.arguments _ hc).1, hvs⟩
  obtain ⟨calls, hcalls, hfit⟩ := exists_eq_map_of_forall_mem a.arguments hcall
  have hcount : calls.length % 2 ^ 16 = calls.length :=
    Nat.mod_eq_of_lt (by simpa [hcalls] using ha.count)
  obtain ⟨bytes, henc, hdec⟩ :=
    ActionExecution.unmarshal_marshalBinary a.namespace' a.action calls ha.namespace' ha.action hfit
  rw [hcount, List.take_length, ← hcalls] at hdec
  rw [← hcalls] at henc
  exact ⟨bytes, henc, hdec⟩

end KwilDb.Types
