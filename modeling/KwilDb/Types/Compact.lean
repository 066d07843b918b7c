import KwilDb.Lib.Binary
import KwilDb.Core.Types

/-!
# The length-prefixed fields of `core/types`

`transaction.go` writes byte slices and strings behind a length prefix in two ways: the compact
forms, with a varint length (signed for bytes, so that `-1` marks a nil slice; unsigned for
strings), and the plain forms, with a four-byte length (`0xffffffff` for a nil slice). A
`big.Int` is a flag byte, then its decimal string. Writing to a `bytes.Buffer` cannot fail, so a
writer here is the bytes it writes; a reader is a `Reader`.

`safeReadBytes` reads a field's bytes in one of two ways, according to the reader it is given.
From a reader that knows its length (`bytes.Reader`) it refuses a length beyond what is left.
From any other (the `CountingReader` that the transaction decoder wraps around its input) it
copies with `io.CopyN`, which reads nothing, and reports nothing, for a length that is negative
as an `int64`.

Each reader reads back what its writer wrote, for every field Go can hold, whose length is below
`2^63` (`readCompactBytes_writeCompactBytes`, `readCompactString_writeCompactString`,
`readBytes_writeBytes`, `readBigInt_writeBigInt`).
-/

namespace KwilDb.Types

open KwilDb.Lib
open KwilDb.Core (Bytes)

/-! ### Writers -/

/-- `WriteCompactBytes`: a signed varint length, `-1` for a nil slice, then the bytes. -/
def writeCompactBytes : Option Bytes → Bytes
  | none => appendVarint (-1)
  | some data => appendVarint data.length ++ data

/-- `WriteCompactString`: an unsigned varint length, then the bytes. -/
def writeCompactString (s : Bytes) : Bytes := appendUvarint s.length ++ s

/-- `WriteBytes`: a four-byte little-endian length, `MaxUint32` for a nil slice, then the bytes. -/
def writeBytes : Option Bytes → Bytes
  | none => leBytes 4 (2 ^ 32 - 1)
  | some data => leBytes 4 data.length ++ data

/-- A slice that is not nil is written as `KwilDb.Core.writeBytes` writes it. -/
lemma writeBytes_some (d : Bytes) : writeBytes (some d) = KwilDb.Core.writeBytes d := rfl

/-- `WriteString`: `WriteBytes` of `[]byte(s)`, which is never nil. -/
def writeString (s : Bytes) : Bytes := writeBytes (some s)

/-! ### Decimal strings of `big.Int` -/

/-- The ASCII digits of `n`, most significant first. -/
def decimalDigits (n : ℕ) : Bytes :=
  if n = 0 then [48] else (Nat.digits 10 n).reverse.map fun d => UInt8.ofNat (48 + d)

/-- `big.Int.String`: the decimal digits, after a `-` for a negative number. -/
def bigIntString (z : ℤ) : Bytes :=
  if z < 0 then 45 :: decimalDigits z.natAbs else decimalDigits z.natAbs

/-- The number of a nonempty string of ASCII digits. -/
def parseDigits (ds : Bytes) : Option ℕ :=
  if ds ≠ [] ∧ ∀ d ∈ ds, 48 ≤ d.toNat ∧ d.toNat ≤ 57 then
    some (ds.foldl (fun acc d => acc * 10 + (d.toNat - 48)) 0)
  else none

/-- `(*big.Int).SetString(s, 10)`: an optional sign, then one or more decimal digits, with
nothing after them. -/
def setString (s : Bytes) : Option ℤ :=
  match s with
  | 43 :: ds => (parseDigits ds).map Int.ofNat
  | 45 :: ds => (parseDigits ds).map fun n => -Int.ofNat n
  | ds => (parseDigits ds).map Int.ofNat

/-- `WriteBigInt`: `0` for nil; else `1`, then the decimal string as a compact string. -/
def writeBigInt : Option ℤ → Bytes
  | none => [0]
  | some b => 1 :: writeCompactString (bigIntString b)

/-! ### Readers -/

/-- `safeReadBytes`. With `hasLen` the reader is a `bytes.Reader`, which says how much is left;
without, the bytes are copied with `io.CopyN(buf, r, int64(length))`. -/
def safeReadBytes (hasLen : Bool) (length : ℕ) : Reader Bytes := fun s =>
  if hasLen then
    if s.length < length then
      .error ("encoded length " ++ toString length ++ " is longer than data length " ++
        toString s.length)
    else .ok (s.take length, s.drop length)
  -- `int64(length)` is negative: `CopyN` copies nothing and returns no error
  else if 2 ^ 63 ≤ length then .ok ([], s)
  else if s.length < length then .error ("failed to read signature data: " ++ Reader.eof)
  else .ok (s.take length, s.drop length)

lemma consumes_safeReadBytes (hasLen : Bool) (length : ℕ) :
    Reader.Consumes (safeReadBytes hasLen length) := by
  intro s a s' h
  unfold safeReadBytes at h
  split_ifs at h <;> cases h
  · exact List.drop_suffix length s
  · exact List.suffix_refl s
  · exact List.drop_suffix length s

/-- `ReadCompactBytes`: `none` for the nil marker `-1`. -/
def readCompactBytes (hasLen : Bool) : Reader (Option Bytes) := do
  let length ← readVarint
  if length = -1 then return none
  if length = 0 then return some []
  if length < 0 then throw ("encoded length is negative (" ++ toString length ++ ")")
  some <$> safeReadBytes hasLen length.toNat

lemma consumes_readCompactBytes (hasLen : Bool) : Reader.Consumes (readCompactBytes hasLen) := by
  unfold readCompactBytes
  refine consumes_readVarint.bind fun length => ?_
  have hread := (consumes_safeReadBytes hasLen length.toNat).map some
  split_ifs
  · exact Reader.consumes_pure _
  · exact Reader.consumes_pure _
  · exact (Reader.consumes_throw _).bind fun _ => hread
  · exact hread

/-- `ReadCompactString`. -/
def readCompactString (hasLen : Bool) : Reader Bytes := do
  let length ← readUvarint
  if length = 0 then return []
  safeReadBytes hasLen length

/-- `ReadBytes`: `none` for the nil marker `MaxUint32`. -/
def readBytes (hasLen : Bool) : Reader (Option Bytes) := do
  let length ← readUint 4
  if length = 0 then return some []
  if length = 2 ^ 32 - 1 then return none
  some <$> safeReadBytes hasLen length

/-- `ReadString`: a nil slice is the empty string. -/
def readString (hasLen : Bool) : Reader Bytes := do
  let bts ← readBytes hasLen
  pure (bts.getD [])

/-- `ReadBigInt`: the flag byte, then a decimal string that `SetString` accepts and that is the
number's own `String()`. -/
def readBigInt (hasLen : Bool) : Reader (Option ℤ) := do
  let nilByte ← Reader.readByte
  if nilByte = 0 then return none
  if nilByte ≠ 1 then throw "invalid nil int byte"
  let intStr ← readCompactString hasLen
  match setString intStr with
  | none => throw "bad big int string"
  | some b => if bigIntString b ≠ intStr then throw "non-canonical big int encoding" else pure (some b)

/-! ### Sizes -/

/-- `uvarintLen`: the loop that counts the bytes of `AppendUvarint`. -/
def uvarintLen (x : ℕ) : ℕ := if x < 128 then 1 else uvarintLen (x / 128) + 1
termination_by x
decreasing_by omega

/-- `varintLen`: the bytes of `AppendVarint`. -/
def varintLen (x : ℤ) : ℕ := uvarintLen (zigzag x)

/-- `uvarintLen` counts the bytes `AppendUvarint` writes. -/
theorem uvarintLen_eq (x : ℕ) : uvarintLen x = (appendUvarint x).length := by
  induction x using Nat.strongRecOn with
  | ind x ih =>
    rw [uvarintLen, length_appendUvarint]
    split
    · rfl
    · rw [ih (x / 128) (by omega)]

theorem varintLen_eq (x : ℤ) : varintLen x = (appendVarint x).length := uvarintLen_eq _

/-! ### Reading back what was written -/

section RoundTrip

variable (hasLen : Bool)

/-- `safeReadBytes` of a length that is there, below `2^63`, takes those bytes. -/
lemma safeReadBytes_append (data rest : Bytes) (h : data.length < 2 ^ 63) :
    safeReadBytes hasLen data.length (data ++ rest) = .ok (data, rest) := by
  have hn : ¬ 2 ^ 63 ≤ data.length := by omega
  cases hasLen
  · simp only [safeReadBytes, Bool.false_eq_true, if_false, hn, List.length_append]
    simp
  · simp [safeReadBytes]

/-- **`ReadCompactBytes` reads back `WriteCompactBytes`**, a nil slice as nil. -/
theorem readCompactBytes_writeCompactBytes (data : Option Bytes) (rest : Bytes)
    (h : ∀ d, data = some d → d.length < 2 ^ 63) :
    readCompactBytes hasLen (writeCompactBytes data ++ rest) = .ok (data, rest) := by
  cases data with
  | none =>
    have hr := readVarint_appendVarint (x := -1) (by norm_num) (by norm_num) rest
    rw [writeCompactBytes, readCompactBytes, Reader.bind_of_ok hr]
    simp
  | some d =>
    have hd := h d rfl
    have hr := readVarint_appendVarint (x := d.length) (by omega) (by omega) (d ++ rest)
    rw [writeCompactBytes, List.append_assoc, readCompactBytes, Reader.bind_of_ok hr]
    -- an empty slice is read by its length alone; a longer one by `safeReadBytes`
    cases d with
    | nil => simp
    | cons c d =>
      have hne : ((c :: d).length : ℤ) ≠ 0 := by simp; omega
      have hne' : ((c :: d).length : ℤ) ≠ -1 := by omega
      have hpos : ¬ ((c :: d).length : ℤ) < 0 := by omega
      simp only [hne, hne', hpos, if_false, Int.toNat_natCast]
      exact Reader.map_of_ok (safeReadBytes_append hasLen _ _ hd) some

/-- **`ReadCompactString` reads back `WriteCompactString`.** -/
theorem readCompactString_writeCompactString (s rest : Bytes) (h : s.length < 2 ^ 63) :
    readCompactString hasLen (writeCompactString s ++ rest) = .ok (s, rest) := by
  have hr := readUvarint_appendUvarint (x := s.length) (by omega) (s ++ rest)
  rw [writeCompactString, List.append_assoc, readCompactString, Reader.bind_of_ok hr]
  cases s with
  | nil => simp
  | cons c s => simpa using safeReadBytes_append hasLen (c :: s) rest h

/-- **`ReadBytes` reads back `WriteBytes`** for a slice shorter than `MaxUint32`, a nil slice as
nil. -/
theorem readBytes_writeBytes (data : Option Bytes) (rest : Bytes)
    (h : ∀ d, data = some d → d.length < 2 ^ 32 - 1) :
    readBytes hasLen (writeBytes data ++ rest) = .ok (data, rest) := by
  cases data with
  | none =>
    rw [writeBytes, readBytes, Reader.bind_of_ok (readUint_leBytes 4 _ rest)]
    simp
  | some d =>
    have hd := h d rfl
    rw [writeBytes, List.append_assoc, readBytes, Reader.bind_of_ok (readUint_leBytes 4 _ _),
      Nat.mod_eq_of_lt (by norm_num; omega)]
    cases d with
    | nil => simp
    | cons c d =>
      simp only [List.length_cons, Nat.add_one_ne_zero, if_false,
        show d.length + 1 ≠ 2 ^ 32 - 1 by simp at hd; omega]
      exact Reader.map_of_ok (safeReadBytes_append hasLen (c :: d) _ (by simp at hd ⊢; omega)) some

/-- `ReadString` reads back `WriteString` for a string shorter than `MaxUint32`. -/
theorem readString_writeString (s rest : Bytes) (h : s.length < 2 ^ 32 - 1) :
    readString hasLen (writeString s ++ rest) = .ok (s, rest) := by
  rw [readString, writeString,
    Reader.bind_of_ok (readBytes_writeBytes hasLen (some s) rest (by rintro _ ⟨⟩; exact h))]
  rfl

end RoundTrip

/-! ### Decimal strings -/

/-- Reading digits most significant first is `ofDigits` of the digits least significant first. -/
lemma foldl_digits (l : List ℕ) (hl : ∀ d ∈ l, d < 10) :
    ((l.reverse.map fun d => UInt8.ofNat (48 + d)).foldl
      (fun acc d => acc * 10 + (d.toNat - 48)) 0) = Nat.ofDigits 10 l := by
  rw [List.foldl_map, List.foldl_reverse]
  induction l with
  | nil => rfl
  | cons d l ih =>
    rw [List.forall_mem_cons] at hl
    rw [List.foldr_cons, ih hl.2, Nat.ofDigits_cons]
    have hd : (UInt8.ofNat (48 + d)).toNat = 48 + d := by simp; omega
    rw [hd]
    omega

lemma decimalDigits_digit (n : ℕ) : ∀ c ∈ decimalDigits n, 48 ≤ c.toNat ∧ c.toNat ≤ 57 := by
  unfold decimalDigits
  split
  · simp
  · simp only [List.mem_map, List.mem_reverse]
    rintro c ⟨d, hd, rfl⟩
    have := Nat.digits_lt_base (by norm_num) hd
    simp
    omega

/-- `parseDigits` reads back the digits of a number. -/
lemma parseDigits_decimalDigits (n : ℕ) : parseDigits (decimalDigits n) = some n := by
  have hne : decimalDigits n ≠ [] := by
    unfold decimalDigits
    split
    · simp
    · simp_all [Nat.digits_ne_nil_iff_ne_zero]
  rw [parseDigits, if_pos ⟨hne, decimalDigits_digit n⟩]
  unfold decimalDigits
  split
  · simp_all
  · rw [foldl_digits _ fun d hd => Nat.digits_lt_base (by norm_num) hd, Nat.ofDigits_digits]

/-- A string of digits has no sign: `SetString` reads it as a natural number. -/
lemma setString_of_digits {s : Bytes} (h : ∀ c ∈ s, 48 ≤ c.toNat ∧ c.toNat ≤ 57) :
    setString s = (parseDigits s).map Int.ofNat := by
  unfold setString
  split
  · simp at h
  · simp at h
  · rfl

/-- **`SetString` reads back `String()`.** -/
theorem setString_bigIntString (z : ℤ) : setString (bigIntString z) = some z := by
  unfold bigIntString
  split
  · rename_i hneg
    simp [setString, parseDigits_decimalDigits, abs_of_neg hneg]
  · rename_i hnonneg
    rw [setString_of_digits (decimalDigits_digit _), parseDigits_decimalDigits]
    simp [abs_of_nonneg (not_lt.mp hnonneg)]

/-- **`ReadBigInt` reads back `WriteBigInt`**, nil as nil. -/
theorem readBigInt_writeBigInt (hasLen : Bool) (b : Option ℤ) (rest : Bytes)
    (h : ∀ z, b = some z → (bigIntString z).length < 2 ^ 63) :
    readBigInt hasLen (writeBigInt b ++ rest) = .ok (b, rest) := by
  cases b with
  | none => rfl
  | some z =>
    rw [writeBigInt, List.cons_append, readBigInt, Reader.bind_of_ok (Reader.readByte_cons _ _)]
    simp only [show (1 : UInt8) ≠ 0 by decide, if_false, ne_eq, not_true_eq_false]
    rw [Reader.bind_of_ok (readCompactString_writeCompactString hasLen _ rest (h z rfl))]
    simp [setString_bigIntString]

end KwilDb.Types
