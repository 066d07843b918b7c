import KwilDb.Core.Types
import KwilDb.Lib.Fold

/-!
# The replication commit hash

Every change the node writes to Postgres comes back over logical replication. `captureRepl`
feeds each change of a tracked schema to a `MuHash` through the byte encodings of
`encodeInsertMsg`, `encodeUpdateMsg`, `encodeDeleteMsg` and `encodeTruncateMsg`, and at the end of
a transaction emits the commit ID: the sequence number that the transaction wrote to the sentry
table, then the SHA-256 of the `MuHash` value. The commit ID is consensus data.

`MuHash` multiplies the hashes of its elements modulo a prime, so the commit ID depends on the
multiset of encodings only (`MuHash.addAll_perm`). The encodings are where the commitment is
lost: `encodeTupleData` writes a column's type byte and its data, but the call that appends the
column length discards its result, so the boundaries between columns are not in the bytes.
`encodeTupleData_eq` gives the encoding in closed form, and `decodeWALData_insert_congr` with
`captureRun_congr` shows that the whole capture loop sees an insert only through the encoding of
its tuple.

The `pgoutput` decoding of WAL bytes into messages (`parseV3`) is not modelled; messages arrive
decoded, with the tuples that the protocol always sends (an insert's tuple, a delete's old tuple,
an update's new tuple) present. A Go string is its bytes here. The changeset writer is a
parameter, a check that may fail on a change; it is empty when no changeset is requested.
SHA-256 is a parameter as well.
-/

namespace KwilDb.Pg

open KwilDb.Lib KwilDb.Core

/-! ### Change messages -/

/-- `pglogrepl.TupleDataColumn`: a type byte, the length the server sent, and the data. -/
structure TupleDataColumn where
  dataType : UInt8
  length : UInt32
  data : Bytes
deriving DecidableEq, Repr

/-- `pglogrepl.TupleDataTypeNull`, `'n'`. -/
def tupleDataTypeNull : UInt8 := 110
/-- `pglogrepl.TupleDataTypeToast`, `'u'`: an unchanged TOAST value. -/
def tupleDataTypeToast : UInt8 := 117
/-- `pglogrepl.TupleDataTypeText`, `'t'`. -/
def tupleDataTypeText : UInt8 := 116
/-- `pglogrepl.TupleDataTypeBinary`, `'b'`. -/
def tupleDataTypeBinary : UInt8 := 98

/-- `pglogrepl.TupleData`. -/
structure TupleData where
  columnNum : UInt16
  columns : List TupleDataColumn
deriving DecidableEq, Repr

/-- `pglogrepl.RelationMessageV2`, with the fields the hash reads; `relNamespace` is `Namespace`. -/
structure RelationMessage where
  relationID : UInt32
  relNamespace : Bytes
  relationName : Bytes
deriving DecidableEq, Repr

/-- `rel.Namespace + "." + rel.RelationName`. -/
def RelationMessage.relName (rel : RelationMessage) : Bytes :=
  rel.relNamespace ++ [0x2e] ++ rel.relationName

/-- `pglogrepl.InsertMessage`. -/
structure InsertMessage where
  relationID : UInt32
  tuple : TupleData
deriving DecidableEq, Repr

/-- `pglogrepl.UpdateMessage`; the old tuple is sent only when the key changes. -/
structure UpdateMessage where
  relationID : UInt32
  oldTupleType : UInt8
  oldTuple : Option TupleData
  newTuple : TupleData
deriving DecidableEq, Repr

/-- `pglogrepl.DeleteMessage`. -/
structure DeleteMessage where
  relationID : UInt32
  oldTupleType : UInt8
  oldTuple : TupleData
deriving DecidableEq, Repr

/-- `pglogrepl.TruncateMessage`. -/
structure TruncateMessage where
  option : UInt8
  relationIDs : List UInt32
deriving DecidableEq, Repr

/-! ### The encodings -/

/-- **`encodeTupleData`.** A nil tuple is one zero byte. Otherwise the column count, then for each
column its type byte and, for a text or binary column, its data. The source calls
`pgIntCoder.AppendUint32(data, col.Length)` and drops the slice it returns, so no length is
written. -/
def encodeTupleData : Option TupleData → Bytes
  | none => [0]
  | some td =>
    td.columns.foldl (fun data col =>
        let data := data ++ [col.dataType]
        if col.dataType = tupleDataTypeText ∨ col.dataType = tupleDataTypeBinary then
          data ++ col.data
        else data)
      (beBytes 2 td.columnNum.toNat)

/-- `encodeInsertMsg`. -/
def encodeInsertMsg (relName : Bytes) (im : InsertMessage) : Bytes :=
  relName ++ encodeTupleData (some im.tuple)

/-- `encodeUpdateMsg`. -/
def encodeUpdateMsg (relName : Bytes) (um : UpdateMessage) : Bytes :=
  relName ++ [um.oldTupleType] ++ encodeTupleData um.oldTuple ++ encodeTupleData (some um.newTuple)

/-- `encodeDeleteMsg`. -/
def encodeDeleteMsg (relName : Bytes) (dm : DeleteMessage) : Bytes :=
  relName ++ [dm.oldTupleType] ++ encodeTupleData (some dm.oldTuple)

/-- `encodeTruncateMsg`: the option byte, then the names of the tracked relations, with nothing
between them. -/
def encodeTruncateMsg (rels : GoMap UInt32 RelationMessage) (tm : TruncateMessage) : Bytes :=
  tm.option :: tm.relationIDs.flatMap fun rid =>
    match rels.lookup rid with
    | none => []
    | some rel => rel.relName

/-- The bytes one column contributes. -/
def columnBytes (col : TupleDataColumn) : Bytes :=
  col.dataType :: if col.dataType = tupleDataTypeText ∨ col.dataType = tupleDataTypeBinary then
    col.data else []

lemma foldl_encodeColumn (cols : List TupleDataColumn) (acc : Bytes) :
    cols.foldl (fun data col =>
        let data := data ++ [col.dataType]
        if col.dataType = tupleDataTypeText ∨ col.dataType = tupleDataTypeBinary then
          data ++ col.data
        else data) acc = acc ++ cols.flatMap columnBytes := by
  induction cols generalizing acc with
  | nil => simp
  | cons col cols ih =>
    rw [List.foldl_cons, ih, List.flatMap_cons]
    by_cases h : col.dataType = tupleDataTypeText ∨ col.dataType = tupleDataTypeBinary
    · simp [columnBytes, h]
    · simp [columnBytes, h]

/-- **The tuple encoding in closed form**: the count, then each column's type byte and data. -/
theorem encodeTupleData_eq (td : TupleData) :
    encodeTupleData (some td) = beBytes 2 td.columnNum.toNat ++ td.columns.flatMap columnBytes :=
  foldl_encodeColumn td.columns _

/-! ### `MuHash` -/

/-- The `MuHash` modulus, the secp256k1 prime `2^256 - 2^32 - 977`. -/
def muhashP : ℕ := 2 ^ 256 - 2 ^ 32 - 977

lemma one_lt_muhashP : 1 < muhashP := by
  norm_num [muhashP]

/-- `muhash.MuHash`: a residue modulo `muhashP`. -/
@[ext] structure MuHash where
  value : ℕ
  value_lt : value < muhashP

section MuHash

variable (sha256 : Bytes → Hash)

/-- `hashToBigInt`: the SHA-256 of the data, read as a big-endian number. -/
def hashToBigInt (data : Bytes) : ℕ := beNat (sha256 data).toList

/-- `muhash.New` and `Reset`: the multiplicative identity. -/
def MuHash.new : MuHash := ⟨1, one_lt_muhashP⟩

/-- `MuHash.Add`. -/
def MuHash.add (m : MuHash) (data : Bytes) : MuHash :=
  ⟨m.value * hashToBigInt sha256 data % muhashP, Nat.mod_lt _ (Nat.zero_lt_of_lt one_lt_muhashP)⟩

/-- `big.Int.Bytes`: the big-endian bytes of a number, with no leading zero. -/
def bigIntBytes (n : ℕ) : Bytes := ((Nat.digits 256 n).reverse).map fun d => UInt8.ofNat d

/-- `MuHash.DigestHash`. -/
def MuHash.digestHash (m : MuHash) : Hash := sha256 (bigIntBytes m.value)

end MuHash

/-- The logical replication messages, as `parseV3` returns them. -/
inductive LogicalMessage where
  | relation (rel : RelationMessage)
  | commit
  | insert (m : InsertMessage)
  | update (m : UpdateMessage)
  | delete (m : DeleteMessage)
  | truncate (m : TruncateMessage)
  /-- `PrepareMessageV3`: the end of the changes of a prepared transaction. -/
  | prepare
  | streamStart
  | streamStop
  /-- A message that `decodeWALData` only logs: a begin, type, origin or logical decoding message,
  begin prepare, commit or rollback prepared, stream commit or abort, or an unknown type. -/
  | logged
deriving DecidableEq, Repr

/-- The state that `decodeWALData` changes through its pointer arguments. -/
structure WalState where
  relations : GoMap UInt32 RelationMessage
  hasher : MuHash
  inStream : Bool

/-- `InternalSchemaName`. -/
def internalSchemaName : Bytes := goBytes "kwild_internal"

/-- `sentryTableName`. -/
def sentryTableName : Bytes := goBytes "sentry"

/-- The state of `captureRepl` between messages: the WAL state and the sequence number of the
tracked transaction, `-1` when none has been seen. -/
structure CaptureState where
  wal : WalState
  seq : Int64

/-- A changeset writer with no channel: every `decode*` call returns nil at once. -/
def noChangeset : LogicalMessage → RelationMessage → Except String Unit := fun _ _ => pure ()

section Capture

variable (sha256 : Bytes → Hash) (okSchema : Bytes → Bool)
  (columnInt64 : TupleDataColumn → Except String Int64)
  (writeChange : LogicalMessage → RelationMessage → Except String Unit)

/-- The sequence number an update of the sentry table carries, read before the schema filter;
`-1` for any other update, or when the new tuple is not one integer column (only logged). -/
def sentrySeq (rel : RelationMessage) (m : UpdateMessage) : Int64 :=
  if rel.relNamespace = internalSchemaName ∧ rel.relationName = sentryTableName then
    match m.newTuple.columns with
    | [col] =>
      match columnInt64 col with
      | .ok newSeq => newSeq
      | .error _ => -1
    | _ => -1
  else -1

/-- The tracked relations of a truncate, the map `rels` that `decodeWALData` builds. -/
def truncateRels (relations : GoMap UInt32 RelationMessage) (relIDs : List UInt32) :
    GoMap UInt32 RelationMessage :=
  relIDs.foldl (fun rels rid =>
      match relations.lookup rid with
      | none => rels
      | some rel => if okSchema rel.relNamespace then rels.insert rid rel else rels)
    ∅

/-- **`decodeWALData`**: one message. It returns the new state, whether the message ends a
transaction, and a sequence number or `-1`. A change of a tracked schema is written to the
changeset and added to the hasher. -/
def decodeWALData (st : WalState) : LogicalMessage → Except String (WalState × Bool × Int64)
  | .relation rel =>
    -- `WriteNewRelation` only registers metadata, and its result is not checked
    pure ({ st with relations := st.relations.insert rel.relationID rel }, false, -1)
  | .commit => pure (st, true, -1)
  | .insert m =>
    match st.relations.lookup m.relationID with
    | none =>
      let rid := m.relationID
      throw s!"insert: unknown relation ID {rid}"
    | some rel =>
      if okSchema rel.relNamespace then do
        (writeChange (.insert m) rel).mapError ("decode insert: " ++ ·)
        pure ({ st with hasher := st.hasher.add sha256 (encodeInsertMsg rel.relName m) }, false, -1)
      else pure (st, false, -1)
  | .update m =>
    match st.relations.lookup m.relationID with
    | none =>
      let rid := m.relationID
      throw s!"update: unknown relation ID {rid}"
    | some rel =>
      let seq := sentrySeq columnInt64 rel m
      if okSchema rel.relNamespace then do
        (writeChange (.update m) rel).mapError ("decode update: " ++ ·)
        pure ({ st with hasher := st.hasher.add sha256 (encodeUpdateMsg rel.relName m) }, false, seq)
      else pure (st, false, seq)
  | .delete m =>
    match st.relations.lookup m.relationID with
    | none =>
      let rid := m.relationID
      throw s!"delete: unknown relation ID {rid}"
    | some rel =>
      if okSchema rel.relNamespace then do
        (writeChange (.delete m) rel).mapError ("decode delete: " ++ ·)
        pure ({ st with hasher := st.hasher.add sha256 (encodeDeleteMsg rel.relName m) }, false, -1)
      else pure (st, false, -1)
  | .truncate m =>
    let rels := truncateRels okSchema st.relations m.relationIDs
    if rels.entries = [] then pure (st, false, -1)
    else pure ({ st with hasher := st.hasher.add sha256 (encodeTruncateMsg rels m) }, false, -1)
  | .prepare => pure (st, true, -1)
  | .streamStart => pure ({ st with inStream := true }, false, -1)
  | .streamStop => pure ({ st with inStream := false }, false, -1)
  | .logged => pure (st, false, -1)

/-- **One `XLogData` message of `captureRepl`.** A sequence number is taken once per transaction;
at the end of a transaction the hasher is digested and reset, and a tracked transaction emits its
commit ID: the sequence number as eight big-endian bytes, then the digest. -/
def captureStep (st : CaptureState) (msg : LogicalMessage) :
    Except String (CaptureState × Option Bytes) := do
  let (wal, final, anySeq) ← (decodeWALData sha256 okSchema columnInt64 writeChange st.wal msg).mapError
    ("decodeWALData failed: " ++ ·)
  let seq ← if anySeq ≠ -1 then
      if st.seq ≠ -1 then throw "sequence already set" else pure anySeq
    else pure st.seq
  if final then
    let cHash := wal.hasher.digestHash sha256
    let wal := { wal with hasher := MuHash.new }
    if seq = -1 then pure (⟨wal, seq⟩, none)
    else pure (⟨wal, -1⟩, some (beBytes 8 seq.toUInt64.toNat ++ cHash.toList))
  else pure (⟨wal, seq⟩, none)

/-- The capture loop over a stream of messages: the final state and the commit IDs emitted, in
order. The first error stops it. -/
def captureRun : CaptureState → List LogicalMessage → Except String (CaptureState × List Bytes)
  | st, [] => pure (st, [])
  | st, msg :: msgs => do
    let (st', cid) ← captureStep sha256 okSchema columnInt64 writeChange st msg
    let (st'', cids) ← captureRun st' msgs
    pure (st'', cid.toList ++ cids)

/-- **A message seen alike is seen alike by the whole loop.** If two messages give the same step
from every state, two streams that differ only there give the same run. -/
theorem captureRun_congr {msg₁ msg₂ : LogicalMessage}
    (h : ∀ st, captureStep sha256 okSchema columnInt64 writeChange st msg₁ =
      captureStep sha256 okSchema columnInt64 writeChange st msg₂)
    (pre post : List LogicalMessage) (st : CaptureState) :
    captureRun sha256 okSchema columnInt64 writeChange st (pre ++ msg₁ :: post) =
      captureRun sha256 okSchema columnInt64 writeChange st (pre ++ msg₂ :: post) := by
  induction pre generalizing st with
  | nil => simp only [List.nil_append, captureRun, h]
  | cons msg pre ih => simp only [List.cons_append, captureRun, ih]

/-- **`decodeWALData` reads an insert through the encoding of its tuple.** Two inserts into the
same relation whose tuples encode alike, and that the changeset writer treats alike, change the
state in the same way. -/
theorem decodeWALData_insert_congr {m₁ m₂ : InsertMessage} (hrel : m₁.relationID = m₂.relationID)
    (henc : encodeTupleData (some m₁.tuple) = encodeTupleData (some m₂.tuple))
    (hw : ∀ rel, writeChange (.insert m₁) rel = writeChange (.insert m₂) rel) (st : WalState) :
    decodeWALData sha256 okSchema columnInt64 writeChange st (.insert m₁) =
      decodeWALData sha256 okSchema columnInt64 writeChange st (.insert m₂) := by
  obtain ⟨rid, t₁⟩ := m₁
  obtain ⟨rid₂, t₂⟩ := m₂
  obtain rfl : rid = rid₂ := hrel
  have hmsg : ∀ rel : RelationMessage,
      encodeInsertMsg rel.relName ⟨rid, t₁⟩ = encodeInsertMsg rel.relName ⟨rid, t₂⟩ := by
    intro rel
    rw [encodeInsertMsg, encodeInsertMsg, henc]
  simp only [decodeWALData, hw, hmsg]

end Capture

/-! ### Two inserts with one commit ID -/

/-- A text column with its length, as the server sends it. -/
def textColumn (data : Bytes) : TupleDataColumn := ⟨tupleDataTypeText, UInt32.ofNat data.length, data⟩

/-- **The commit ID does not see column boundaries.** Inserting the text columns `("at", "b")` or
`("a", "tb")` into the same relation encodes to the same bytes, and in any stream of replication
messages, from any state, the one insert in place of the other leaves every emitted commit ID and
the final state as they were, whatever the hash function and the tracked schemas. -/
theorem commitID_ignores_column_boundaries (rid : UInt32) :
    let m₁ : InsertMessage := ⟨rid, ⟨2, [textColumn (goBytes "at"), textColumn (goBytes "b")]⟩⟩
    let m₂ : InsertMessage := ⟨rid, ⟨2, [textColumn (goBytes "a"), textColumn (goBytes "tb")]⟩⟩
    m₁ ≠ m₂ ∧ (∀ relName, encodeInsertMsg relName m₁ = encodeInsertMsg relName m₂) ∧
      ∀ sha256 okSchema columnInt64 (st : CaptureState) (pre post : List LogicalMessage),
        captureRun sha256 okSchema columnInt64 noChangeset st (pre ++ .insert m₁ :: post) =
          captureRun sha256 okSchema columnInt64 noChangeset st (pre ++ .insert m₂ :: post) := by
  intro m₁ m₂
  -- both tuples write the count, then `t` `at` `t` `b` against `t` `a` `t` `tb`
  have henc : encodeTupleData (some m₁.tuple) = encodeTupleData (some m₂.tuple) := by
    show encodeTupleData (some ⟨2, [textColumn (goBytes "at"), textColumn (goBytes "b")]⟩) =
      encodeTupleData (some ⟨2, [textColumn (goBytes "a"), textColumn (goBytes "tb")]⟩)
    rw [encodeTupleData_eq, encodeTupleData_eq]
    decide
  refine ⟨fun h => ?_, fun relName => ?_, fun sha256 okSchema columnInt64 st pre post => ?_⟩
  · -- the first columns differ
    have hcol : some (textColumn (goBytes "at")) = some (textColumn (goBytes "a")) :=
      congrArg (fun m : InsertMessage => m.tuple.columns.head?) h
    revert hcol
    decide
  · rw [encodeInsertMsg, encodeInsertMsg, henc]
  · apply captureRun_congr
    intro st
    have hdec : decodeWALData sha256 okSchema columnInt64 noChangeset st.wal (.insert m₁) =
        decodeWALData sha256 okSchema columnInt64 noChangeset st.wal (.insert m₂) :=
      decodeWALData_insert_congr sha256 okSchema columnInt64 noChangeset rfl henc (fun _ => rfl) _
    simp only [captureStep, hdec]

end KwilDb.Pg
