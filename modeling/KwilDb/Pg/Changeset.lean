import KwilDb.Types.Values

/-!
# The changesets of a migration

A migration streams the changes of each block as elements: relations, changeset entries and
block spends, each written by `StreamElement` behind a type byte and its length, and read back
by the loop of `applyChangeset`. A `ChangesetEntry` writes its counts little-endian and its
`TupleColumn`s big-endian, and `UnmarshalBinary` reads them back at offsets it computes from each
column's `SerializeSize`.

* A `TupleColumn` reads back as itself unless it is a `NullValue` that carries data
  (`TupleColumn.unmarshal_marshal`).
* An entry with a new tuple reads back as itself (`ChangesetEntry.unmarshal_marshal`).
* A delete, whose new tuple is empty, never does: the check before the count of the new tuple
  asks for a byte after the count, and a delete ends with it (`ChangesetEntry.unmarshal_delete`).

The entries are decoded and not applied: `ApplyChangesetEntry` and `ApplySpend` are not modelled,
and the relations and block spends are read by decoders given as parameters.
-/

namespace KwilDb.Pg

open KwilDb.Lib KwilDb.Core

/-- `NullValue`, the first `ValueType`. -/
def nullValue : UInt8 := 0

/-- `TupleColumn`; a nil `Data` is the empty one. -/
structure TupleColumn where
  valueType : UInt8
  data : Bytes
deriving DecidableEq, Repr

namespace TupleColumn

def serializeSize (tc : TupleColumn) : ℕ := 2 + 1 + 8 + tc.data.length

/-- `MarshalBinary`: the version, the value type, the length of the data as a `uint64`, the data,
all big-endian. -/
def marshalBinary (tc : TupleColumn) : Bytes :=
  beBytes 2 0 ++ [tc.valueType] ++ beBytes 8 tc.data.length ++ tc.data

/-- `UnmarshalBinary` of the bytes from the column on; what follows the column is not read. -/
def unmarshalBinary (data : Bytes) : Except String TupleColumn :=
  if data.length < 11 then .error "invalid tuple column data"
  else if beNat (data.take 2) ≠ 0 then
    .error ("invalid tuple column version: " ++ toString (beNat (data.take 2)))
  else
    let valueType := data.getD 2 0
    let dataLen := beNat ((data.drop 3).take 8)
    if dataLen ≥ 2 ^ 32 - 1 then .error ("data length too long: " ++ toString dataLen)
    else if valueType = nullValue then
      if dataLen ≠ 0 then .error ("invalid tuple column data length: " ++ toString dataLen)
      else .ok ⟨valueType, []⟩
    else if data.length < 11 + dataLen then
      .error ("invalid tuple column data length: " ++ toString dataLen)
    -- the offset is then the column's `SerializeSize`, so the source's last check passes
    else .ok ⟨valueType, (data.drop 11).take dataLen⟩

/-- A column that reads back: not a null carrying data, and less than `MaxUint32` bytes of it. -/
structure Fits (tc : TupleColumn) : Prop where
  null_data : tc.valueType = nullValue → tc.data = []
  data_lt : tc.data.length < 2 ^ 32 - 1

lemma length_marshalBinary (tc : TupleColumn) : tc.marshalBinary.length = tc.serializeSize := by
  simp [marshalBinary, serializeSize]
  omega

theorem unmarshal_marshal {tc : TupleColumn} (h : tc.Fits) (rest : Bytes) :
    unmarshalBinary (tc.marshalBinary ++ rest) = .ok tc := by
  have hver : beNat ((tc.marshalBinary ++ rest).take 2) = 0 := by
    simp [marshalBinary, beNat]
  have hlen : beNat (((tc.marshalBinary ++ rest).drop 3).take 8) = tc.data.length := by
    have := h.data_lt
    simp [marshalBinary]
    omega
  have hdata : (tc.marshalBinary ++ rest).drop 11 = tc.data ++ rest := by
    simp [marshalBinary]
  have htype : (tc.marshalBinary ++ rest).getD 2 0 = tc.valueType := by
    simp [marshalBinary]
  have hsize : 11 + tc.data.length ≤ (tc.marshalBinary ++ rest).length := by
    simp [marshalBinary]
    omega
  rw [unmarshalBinary, if_neg (by omega), hver, if_neg (by simp)]
  simp only [hlen, htype, hdata, if_neg (not_le.mpr h.data_lt)]
  by_cases hnull : tc.valueType = nullValue
  · -- a null is written with no data, and read with none
    have hnil := h.null_data hnull
    cases tc
    simp_all
  · rw [if_neg hnull, if_neg (by omega)]
    simp

end TupleColumn

/-! ### Changeset entries -/

/-- `ChangesetEntry`; `RelationIdx` indexes the relations streamed before it. -/
structure ChangesetEntry where
  relationIdx : UInt32
  oldTuple : List TupleColumn
  newTuple : List TupleColumn
deriving DecidableEq, Repr

namespace ChangesetEntry

def kind (ce : ChangesetEntry) : String :=
  if ce.newTuple = [] then "delete"
  else if ce.oldTuple = [] then "insert"
  else "update"

def serializeSize (ce : ChangesetEntry) : ℕ :=
  2 + 4 + 4 + (ce.oldTuple.map TupleColumn.serializeSize).sum + 4 +
    (ce.newTuple.map TupleColumn.serializeSize).sum

/-- `MarshalBinary`: the version, the relation index and the two counts are little-endian, each
column is its own big-endian `MarshalBinary`. -/
def marshalBinary (ce : ChangesetEntry) : Bytes :=
  leBytes 2 0 ++ leBytes 4 ce.relationIdx.toNat ++ leBytes 4 ce.oldTuple.length ++
    ce.oldTuple.flatMap TupleColumn.marshalBinary ++ leBytes 4 ce.newTuple.length ++
    ce.newTuple.flatMap TupleColumn.marshalBinary

end ChangesetEntry

/-- `binary.LittleEndian.Uint32(data[offset:])` (with `leNat`) or `binary.BigEndian.Uint32`
(with `beNat`), which panic when fewer than four bytes are left. -/
def uint32At (order : Bytes → ℕ) (data : Bytes) (offset : ℕ) : Except Failure ℕ :=
  if offset + 4 ≤ data.length then .ok (order ((data.drop offset).take 4))
  else .error (.panic ("runtime error: index out of range [3] with length " ++
    toString (data.length - offset)))

/-- The loops over the columns of a tuple, each column read at the offset after the one before. -/
def readTupleColumns (data : Bytes) (n offset : ℕ) : Except Failure (List TupleColumn × ℕ) :=
  readAt (fun b => (TupleColumn.unmarshalBinary b).mapError .error) TupleColumn.serializeSize
    (.error "unexpected end of data") data n offset

namespace ChangesetEntry

/-- `UnmarshalBinary`. The version and the relation index go through `binary.Read` on a
`bytes.Reader`; the rest is read at offsets into the bytes. -/
def unmarshalBinary (data : Bytes) : Except Failure ChangesetEntry := do
  let (ver, rest) ← (readUint 2 data).mapError .error
  if ver ≠ 0 then throw (.error ("unsupported version " ++ toString ver))
  let (relationIdx, rest) ← (readUint 4 rest).mapError .error
  -- `int(rd.Size()) - rd.Len()`: the bytes read so far
  let offset := data.length - rest.length
  let numOld ← uint32At leNat data offset
  let (oldTuple, offset) ← readTupleColumns data numOld (offset + 4)
  if offset + 4 ≥ data.length then throw (.error "unexpected end of data")
  let numNew ← uint32At leNat data offset
  let (newTuple, offset) ← readTupleColumns data numNew (offset + 4)
  let ce : ChangesetEntry := ⟨UInt32.ofNat relationIdx, oldTuple, newTuple⟩
  if offset ≠ ce.serializeSize then
    throw (.error ("read " ++ toString offset ++ " bytes, expected " ++ toString ce.serializeSize))
  pure ce

end ChangesetEntry

/-! ### Reading an entry back -/

lemma uint32At_of_drop {order : Bytes → ℕ} {data bs rest : Bytes} {offset : ℕ}
    (hbs : bs.length = 4) (h : data.drop offset = bs ++ rest) :
    uint32At order data offset = .ok (order bs) := by
  have hlen : offset + 4 ≤ data.length := by
    have := congrArg List.length h
    simp only [List.length_drop, List.length_append, hbs] at this
    omega
  rw [uint32At, if_pos hlen, h, List.take_left' hbs]

lemma uint32At_leBytes {data rest : Bytes} {offset n : ℕ} (hn : n < 2 ^ 32)
    (h : data.drop offset = leBytes 4 n ++ rest) : uint32At leNat data offset = .ok n := by
  rw [uint32At_of_drop (length_leBytes 4 n) h, leNat_leBytes, Nat.mod_eq_of_lt (by simpa using hn)]

lemma uint32At_beBytes {data rest : Bytes} {offset n : ℕ} (hn : n < 2 ^ 32)
    (h : data.drop offset = beBytes 4 n ++ rest) : uint32At beNat data offset = .ok n := by
  rw [uint32At_of_drop (length_beBytes 4 n) h, beNat_beBytes, Nat.mod_eq_of_lt (by simpa using hn)]

/-- The loop reads back the columns written from `offset` on, whatever follows them. -/
theorem readTupleColumns_marshal {data rest : Bytes} {cols : List TupleColumn} {offset : ℕ}
    (hcols : ∀ c ∈ cols, c.Fits)
    (h : data.drop offset = cols.flatMap TupleColumn.marshalBinary ++ rest) :
    readTupleColumns data cols.length offset =
      .ok (cols, offset + (cols.map TupleColumn.serializeSize).sum) := by
  refine readAt_flatMap (fun c hc rest => ?_) (fun c _ => c.length_marshalBinary)
    (fun c _ => by simp [TupleColumn.marshalBinary]) h
  simp [TupleColumn.unmarshal_marshal (hcols c hc), Except.mapError]

namespace ChangesetEntry

/-- An entry whose columns read back and whose counts fit the `uint32` they are written as. -/
structure Fits (ce : ChangesetEntry) : Prop where
  old_fits : ∀ c ∈ ce.oldTuple, c.Fits
  new_fits : ∀ c ∈ ce.newTuple, c.Fits
  old_lt : ce.oldTuple.length < 2 ^ 32
  new_lt : ce.newTuple.length < 2 ^ 32

lemma length_flatMap_marshalBinary (cols : List TupleColumn) :
    (cols.flatMap TupleColumn.marshalBinary).length = (cols.map TupleColumn.serializeSize).sum := by
  simp [List.length_flatMap, TupleColumn.length_marshalBinary]

lemma sum_serializeSize_eq_zero {cols : List TupleColumn} :
    (cols.map TupleColumn.serializeSize).sum = 0 ↔ cols = [] := by
  cases cols with
  | nil => simp
  | cons c cs => simp [TupleColumn.serializeSize]

/-- What `UnmarshalBinary` makes of an entry's own bytes: the entry, unless its new tuple is
empty, which the guard before the count of the new tuple refuses. -/
theorem unmarshal_marshal_eq {ce : ChangesetEntry} (hce : ce.Fits) :
    unmarshalBinary ce.marshalBinary =
      if ce.newTuple = [] then .error (.error "unexpected end of data") else .ok ce := by
  obtain ⟨idx, old, new⟩ := ce
  have hidx := idx.toNat_lt
  generalize hsumOld : (old.map TupleColumn.serializeSize).sum = sumOld
  generalize hsumNew : (new.map TupleColumn.serializeSize).sum = sumNew
  have hB := length_flatMap_marshalBinary old
  have hB' := length_flatMap_marshalBinary new
  generalize hdata : marshalBinary ⟨idx, old, new⟩ = data
  -- the bytes as the reads see them: the header, the old columns, the new count, the new columns
  have hsplit : data = (leBytes 2 0 ++ leBytes 4 idx.toNat ++ leBytes 4 old.length ++
      old.flatMap TupleColumn.marshalBinary) ++ (leBytes 4 new.length ++
      new.flatMap TupleColumn.marshalBinary) := by
    simp [← hdata, marshalBinary]
  have hlen : data.length = 14 + sumOld + sumNew := by
    simp only [hsplit, List.length_append, length_leBytes, hB, hB', hsumOld, hsumNew]
    omega
  have hd2 : data.drop 2 = leBytes 4 idx.toNat ++ data.drop 6 := by
    simp [← hdata, marshalBinary]
  have hd6 : data.drop 6 = leBytes 4 old.length ++ (old.flatMap TupleColumn.marshalBinary ++
      (leBytes 4 new.length ++ new.flatMap TupleColumn.marshalBinary)) := by
    simp [← hdata, marshalBinary]
  have hmid : data.drop (10 + sumOld) = leBytes 4 new.length ++
      (new.flatMap TupleColumn.marshalBinary ++ []) := by
    rw [hsplit, List.append_nil]
    exact List.drop_left' (by simp [hB, hsumOld]; omega)
  -- each read, in the order `UnmarshalBinary` makes it
  have hver : readUint 2 data = .ok (0, data.drop 2) := by
    simpa [hsplit, List.drop_append] using readUint_leBytes 2 0 (data.drop 2)
  have hread : readUint 4 (data.drop 2) = .ok (idx.toNat, data.drop 6) := by
    rw [hd2, readUint_leBytes, Nat.mod_eq_of_lt (by simpa using hidx)]
  have hoffset : data.length - (data.drop 6).length = 6 := by
    simp only [List.length_drop]
    omega
  have hnumOld : uint32At leNat data 6 = .ok old.length := uint32At_leBytes hce.old_lt hd6
  have hd10 : data.drop (6 + 4) = old.flatMap TupleColumn.marshalBinary ++
      (leBytes 4 new.length ++ new.flatMap TupleColumn.marshalBinary) := by
    rw [← List.drop_drop, hd6]
    exact List.drop_left' (length_leBytes 4 _)
  have hold : readTupleColumns data old.length (6 + 4) = .ok (old, 6 + 4 + sumOld) := by
    rw [← hsumOld]
    exact readTupleColumns_marshal hce.old_fits hd10
  simp only [unmarshalBinary, hver, hread, hoffset, hnumOld, hold, Except.mapError, bind,
    Except.bind]
  rw [if_neg (by simp)]
  by_cases hdel : new = []
  · -- a delete ends with its count, so the guard finds no byte after it
    have : sumNew = 0 := by rw [← hsumNew, hdel]; rfl
    rw [if_pos (by omega), if_pos hdel]
    rfl
  · have hpos : 0 < sumNew := by
      rw [← hsumNew]
      exact Nat.pos_of_ne_zero (mt sum_serializeSize_eq_zero.mp hdel)
    have hnumNew : uint32At leNat data (6 + 4 + sumOld) = .ok new.length :=
      uint32At_leBytes hce.new_lt (by rw [← hmid])
    have hnew : readTupleColumns data new.length (6 + 4 + sumOld + 4) =
        .ok (new, 6 + 4 + sumOld + 4 + sumNew) := by
      have hd : data.drop (6 + 4 + sumOld + 4) = new.flatMap TupleColumn.marshalBinary ++ [] := by
        rw [← List.drop_drop, show 6 + 4 + sumOld = 10 + sumOld by omega, hmid]
        exact List.drop_left' (length_leBytes 4 _)
      rw [← hsumNew]
      exact readTupleColumns_marshal hce.new_fits hd
    rw [if_neg (by omega), if_neg hdel, hnumNew]
    have hsize : serializeSize ⟨idx, old, new⟩ = 6 + 4 + sumOld + 4 + sumNew := by
      simp only [serializeSize, hsumOld, hsumNew]
    simp only [hnew, UInt32.ofNat_toNat, hsize, ne_eq, not_true_eq_false, if_false]
    rfl

end ChangesetEntry

namespace ChangesetEntry

lemma kind_eq_delete {ce : ChangesetEntry} : ce.kind = "delete" ↔ ce.newTuple = [] := by
  unfold kind
  split_ifs with h₁ h₂ <;> simp [h₁]

/-- An insert or an update reads back as itself. -/
theorem unmarshal_marshal {ce : ChangesetEntry} (hce : ce.Fits) (hkind : ce.kind ≠ "delete") :
    unmarshalBinary ce.marshalBinary = .ok ce := by
  rw [unmarshal_marshal_eq hce, if_neg (mt kind_eq_delete.mpr hkind)]

/-- A delete does not read back. -/
theorem unmarshal_delete {ce : ChangesetEntry} (hce : ce.Fits) (hkind : ce.kind = "delete") :
    unmarshalBinary ce.marshalBinary = .error (.error "unexpected end of data") := by
  rw [unmarshal_marshal_eq hce, if_pos (kind_eq_delete.mp hkind)]

end ChangesetEntry

/-! ### Relations -/

/-- `Column`; a nil `Type` is `none`. -/
structure Column where
  name : String
  type : Option DataType
deriving DecidableEq, Repr

namespace Column

def serializeSize (c : Column) : ℕ :=
  let base := 2 + 4 + (goBytes c.name).length
  match c.type with
  | none => base
  | some t => base + t.serializeSize

/-- `MarshalBinary`: the version and the name's length big-endian, the name, then the type's own
bytes, if it has one. -/
def marshalBinary (c : Column) : Bytes :=
  let b := beBytes 2 0 ++ beBytes 4 (goBytes c.name).length ++ goBytes c.name
  match c.type with
  | none => b
  | some t => b ++ t.marshalBinary

/-- `UnmarshalBinary` of the bytes from the column on: a column whose name ends the bytes has no
type, and otherwise the type is read from the bytes after the name. -/
def unmarshalBinary (b : Bytes) : Except String Column :=
  if b.length < 6 then .error "invalid data"
  else if beNat (b.take 2) ≠ 0 then
    .error ("invalid column data, unknown version " ++ toString (beNat (b.take 2)))
  else
    let nameLen := beNat ((b.drop 2).take 4)
    if nameLen + 6 > b.length then .error "invalid data, name length too long"
    else
      let name := goString ((b.drop 6).take nameLen)
      if 6 + nameLen = b.length then .ok ⟨name, none⟩
      else
        match DataType.unmarshalBinary (b.drop (6 + nameLen)) with
        | .error e => .error e
        | .ok t =>
          let c : Column := ⟨name, some t⟩
          if 6 + nameLen + t.serializeSize ≠ c.serializeSize then
            .error ("read " ++ toString (6 + nameLen + t.serializeSize) ++ " bytes, expected " ++
              toString c.serializeSize)
          else .ok c

/-- A column that reads back wherever it stands: its name and its type's name are bytes that
fit their lengths, and it has a type. -/
structure Fits (c : Column) : Prop where
  name_go : IsGoString c.name
  name_lt : c.name.length < 2 ^ 32
  typed : ∃ t, c.type = some t ∧ IsGoString t.name ∧ t.name.length < 2 ^ 32

lemma length_marshalBinary (c : Column) : c.marshalBinary.length = c.serializeSize := by
  obtain ⟨name, _ | t⟩ := c
  · simp [marshalBinary, serializeSize]
    omega
  · simp only [marshalBinary, serializeSize, List.length_append, length_beBytes, length_goBytes,
      DataType.length_marshalBinary, DataType.serializeSize]
    omega

theorem unmarshal_marshal {c : Column} (hc : c.Fits) (rest : Bytes) :
    unmarshalBinary (c.marshalBinary ++ rest) = .ok c := by
  obtain ⟨name, type⟩ := c
  obtain ⟨t, rfl, ht, htl⟩ := hc.typed
  have hn : name.length % 256 ^ 4 = name.length := Nat.mod_eq_of_lt (by simpa using hc.name_lt)
  have htlen := t.length_marshalBinary
  -- the bytes as the reader takes them: six fixed bytes, the name, the type and what follows
  have hsplit : marshalBinary ⟨name, some t⟩ ++ rest = beBytes 2 0 ++ (beBytes 4 name.length ++
      (goBytes name ++ (t.marshalBinary ++ rest))) := by
    simp [marshalBinary]
  have hl : (marshalBinary ⟨name, some t⟩ ++ rest).length =
      6 + name.length + t.marshalBinary.length + rest.length := by
    simp only [hsplit, List.length_append, length_beBytes, length_goBytes]
    omega
  have hver : (marshalBinary ⟨name, some t⟩ ++ rest).take 2 = beBytes 2 0 := by
    rw [hsplit, List.take_left' (length_beBytes 2 0)]
  have hnameLen : ((marshalBinary ⟨name, some t⟩ ++ rest).drop 2).take 4 =
      beBytes 4 name.length := by
    rw [hsplit, List.drop_left' (length_beBytes 2 0), List.take_left' (length_beBytes 4 _)]
  have hrest : (marshalBinary ⟨name, some t⟩ ++ rest).drop 6 =
      goBytes name ++ (t.marshalBinary ++ rest) := by
    rw [hsplit, ← List.append_assoc, List.drop_left' (by simp)]
  have hname : ((marshalBinary ⟨name, some t⟩ ++ rest).drop 6).take name.length =
      goBytes name := by
    rw [hrest, List.take_left' (length_goBytes name)]
  have htype : (marshalBinary ⟨name, some t⟩ ++ rest).drop (6 + name.length) =
      t.marshalBinary ++ rest := by
    rw [← List.drop_drop, hrest, List.drop_left' (length_goBytes name)]
  unfold unmarshalBinary
  simp only [hl, hver, hnameLen, hname, htype, beNat_beBytes, hn, goString_goBytes hc.name_go,
    DataType.unmarshal_marshalBinary_append t ht htl rest]
  rw [if_neg (by omega), if_neg (by simp), if_neg (by omega), if_neg (by omega)]
  simp [serializeSize]

end Column

/-- `Relation`; a nil `Columns` is `none`. -/
structure Relation where
  schema : String
  table : String
  columns : Option (List Column)
deriving DecidableEq, Repr

namespace Relation

def serializeSize (r : Relation) : ℕ :=
  2 + 4 + (goBytes r.schema).length + 4 + (goBytes r.table).length + 4 +
    ((r.columns.getD []).map Column.serializeSize).sum

/-- `MarshalBinary`, big-endian, with `MaxUint32` as the count of nil columns. Its two checks
on the buffer cannot fail: the buffer is as long as `SerializeSize` says. -/
def marshalBinary (r : Relation) : Bytes :=
  beBytes 2 0 ++ beBytes 4 (goBytes r.schema).length ++ goBytes r.schema ++
    beBytes 4 (goBytes r.table).length ++ goBytes r.table ++
    beBytes 4 (match r.columns with | none => 2 ^ 32 - 1 | some cols => cols.length) ++
    (r.columns.getD []).flatMap Column.marshalBinary

/-- The loop over the columns of a relation. -/
def readColumns (data : Bytes) (n offset : ℕ) : Except String (List Column × ℕ) :=
  readAt Column.unmarshalBinary Column.serializeSize "insufficient data" data n offset

/-- `UnmarshalBinary`. The lengths of the table name and the count of columns are read at an
offset with no check that four bytes are left. -/
def unmarshalBinary (data : Bytes) : Except Failure Relation := do
  if data.length < 6 then throw (.error "invalid data")
  let ver := beNat (data.take 2)
  if ver ≠ 0 then throw (.error ("unknown version " ++ toString ver))
  let schemaLen := beNat ((data.drop 2).take 4)
  if 6 + schemaLen > data.length then throw (.error "insufficient data")
  let schema := goString ((data.drop 6).take schemaLen)
  let tableLen ← uint32At beNat data (6 + schemaLen)
  let offset := 6 + schemaLen + 4
  if offset + tableLen > data.length then throw (.error "insufficient data")
  let table := goString ((data.drop offset).take tableLen)
  let colLen ← uint32At beNat data (offset + tableLen)
  let offset := offset + tableLen + 4
  -- `MaxUint32` stands for nil columns, and no column is read
  let (columns, offset) ←
    (readColumns data (if colLen = 2 ^ 32 - 1 then 0 else colLen) offset).mapError .error
  let r : Relation := ⟨schema, table, if colLen = 2 ^ 32 - 1 then none else some columns⟩
  if offset ≠ r.serializeSize then
    throw (.error ("read " ++ toString offset ++ " bytes, expected " ++ toString r.serializeSize))
  pure r

/-- A relation that reads back: its names are bytes that fit their lengths, and its columns, if
any, fit and are fewer than `MaxUint32`. -/
structure Fits (r : Relation) : Prop where
  schema_go : IsGoString r.schema
  schema_lt : r.schema.length < 2 ^ 32
  table_go : IsGoString r.table
  table_lt : r.table.length < 2 ^ 32
  columns_fit : ∀ cols, r.columns = some cols → (∀ c ∈ cols, c.Fits) ∧ cols.length < 2 ^ 32 - 1

/-- The columns read back from `offset` on, whatever follows them. -/
lemma readColumns_marshal {data rest : Bytes} {cols : List Column} {offset : ℕ}
    (hcols : ∀ c ∈ cols, c.Fits) (h : data.drop offset = cols.flatMap Column.marshalBinary ++ rest) :
    readColumns data cols.length offset = .ok (cols, offset + (cols.map Column.serializeSize).sum) :=
  readAt_flatMap (fun c hc rest => Column.unmarshal_marshal (hcols c hc) rest)
    (fun c _ => c.length_marshalBinary)
    (fun c _ => by unfold Column.marshalBinary; split <;> simp) h

theorem unmarshal_marshal {r : Relation} (hr : r.Fits) : unmarshalBinary r.marshalBinary = .ok r := by
  obtain ⟨schema, table, columns⟩ := r
  -- the count written for the columns, and their bytes
  set cnt := match columns with | none => 2 ^ 32 - 1 | some cols => cols.length with hcnt
  set cols := columns.getD []
  have hcntlt : cnt < 2 ^ 32 := by
    cases columns with
    | none => simp [cnt]
    | some cs => have := (hr.columns_fit cs rfl).2; simp only [cnt]; omega
  have hsplit : marshalBinary ⟨schema, table, columns⟩ = beBytes 2 0 ++ (beBytes 4 schema.length ++
      (goBytes schema ++ (beBytes 4 table.length ++ (goBytes table ++ (beBytes 4 cnt ++
      cols.flatMap Column.marshalBinary))))) := by
    simp [marshalBinary, cnt, cols]
  generalize hdata : marshalBinary ⟨schema, table, columns⟩ = data at hsplit
  have hl : data.length = 14 + schema.length + table.length +
      (cols.flatMap Column.marshalBinary).length := by
    simp only [hsplit, List.length_append, length_beBytes, length_goBytes]
    omega
  have hs : schema.length % 256 ^ 4 = schema.length :=
    Nat.mod_eq_of_lt (by simpa using hr.schema_lt)
  have hver : data.take 2 = beBytes 2 0 := by rw [hsplit, List.take_left' (length_beBytes 2 0)]
  have hschemaLen : (data.drop 2).take 4 = beBytes 4 schema.length := by
    rw [hsplit, List.drop_left' (length_beBytes 2 0), List.take_left' (length_beBytes 4 _)]
  have hd6 : data.drop 6 = goBytes schema ++ (beBytes 4 table.length ++ (goBytes table ++
      (beBytes 4 cnt ++ cols.flatMap Column.marshalBinary))) := by
    rw [hsplit, ← List.append_assoc, List.drop_left' (by simp)]
  have hschema : (data.drop 6).take schema.length = goBytes schema := by
    rw [hd6, List.take_left' (length_goBytes schema)]
  have htableAt : data.drop (6 + schema.length) = beBytes 4 table.length ++ (goBytes table ++
      (beBytes 4 cnt ++ cols.flatMap Column.marshalBinary)) := by
    rw [← List.drop_drop, hd6, List.drop_left' (length_goBytes schema)]
  have hd10 : data.drop (6 + schema.length + 4) = goBytes table ++ (beBytes 4 cnt ++
      cols.flatMap Column.marshalBinary) := by
    rw [← List.drop_drop, htableAt, List.drop_left' (length_beBytes 4 _)]
  have htable : (data.drop (6 + schema.length + 4)).take table.length = goBytes table := by
    rw [hd10, List.take_left' (length_goBytes table)]
  have hcntAt : data.drop (6 + schema.length + 4 + table.length) =
      beBytes 4 cnt ++ cols.flatMap Column.marshalBinary := by
    rw [← List.drop_drop, hd10, List.drop_left' (length_goBytes table)]
  have hcols : data.drop (6 + schema.length + 4 + table.length + 4) =
      cols.flatMap Column.marshalBinary ++ [] := by
    rw [← List.drop_drop, hcntAt, List.drop_left' (length_beBytes 4 _), List.append_nil]
  have htableLen := uint32At_beBytes hr.table_lt htableAt
  have hcolLen := uint32At_beBytes hcntlt hcntAt
  unfold unmarshalBinary
  simp only [hl, hver, hschemaLen, beNat_beBytes, hs, hschema, htableLen, hcolLen, htable,
    goString_goBytes hr.schema_go, goString_goBytes hr.table_go, Except.mapError, bind,
    Except.bind]
  rw [if_neg (by omega), if_neg (by simp), if_neg (by omega), if_neg (by omega)]
  -- nil columns are counted as `MaxUint32` and none is read; otherwise each is read back
  have hcolumns : (if cnt = 2 ^ 32 - 1 then none else some cols) = columns := by
    cases columns with
    | none => simp [cnt]
    | some cs =>
      have := (hr.columns_fit cs rfl).2
      simp only [cnt, cols, Option.getD_some, if_neg this.ne]
  have hread : readColumns data (if cnt = 2 ^ 32 - 1 then 0 else cnt)
      (6 + schema.length + 4 + table.length + 4) =
      .ok (cols, 6 + schema.length + 4 + table.length + 4 + (cols.map Column.serializeSize).sum) := by
    cases columns with
    | none => rfl
    | some cs =>
      rw [if_neg (hr.columns_fit cs rfl).2.ne]
      exact readColumns_marshal (hr.columns_fit cs rfl).1 hcols
  have hsize : serializeSize ⟨schema, table, columns⟩ =
      6 + schema.length + 4 + table.length + 4 + (cols.map Column.serializeSize).sum := by
    simp only [serializeSize, length_goBytes, cols]
  simp only [hread, hcolumns, hsize, ne_eq, not_true_eq_false, if_false]
  rfl

end Relation

example : Relation.unmarshalBinary (Relation.marshalBinary
    ⟨"s", "t", some [⟨"a", some ⟨"int8", false, (0, 0)⟩⟩, ⟨"b", some ⟨"text", true, (0, 0)⟩⟩]⟩) =
    .ok ⟨"s", "t", some [⟨"a", some ⟨"int8", false, (0, 0)⟩⟩, ⟨"b", some ⟨"text", true, (0, 0)⟩⟩]⟩ := by
  decide +kernel

example : ChangesetEntry.unmarshalBinary (ChangesetEntry.marshalBinary ⟨3, [⟨2, [7]⟩], [⟨2, [8]⟩]⟩) =
    .ok ⟨3, [⟨2, [7]⟩], [⟨2, [8]⟩]⟩ := by decide +kernel

example : ChangesetEntry.unmarshalBinary (ChangesetEntry.marshalBinary ⟨3, [⟨2, [7]⟩], []⟩) =
    .error (.error "unexpected end of data") := by decide +kernel

end KwilDb.Pg
