import KwilDb.Types.Compact

/-!
# The binary form of a transaction

`auth.Signature` is its data and its type, each behind an unsigned varint length. A transaction
body is its description, payload, payload type, fee, nonce and chain ID; a transaction is a
version, its signature's bytes, its body's bytes, its serialization type and its sender
(`Transaction.serialize`). The signature, the body and the sender go through
`WriteCompactBytes`, whose length is a signed varint; the strings through `WriteCompactString`.
A nil signature or body is written as an empty slice and read back as nil.

`SerializeSize` counts every length prefix as an unsigned varint. For the three fields written
with a signed one, whose zig-zag code is twice the length, it undercounts by a byte whenever the
length lies in `[64, 128)`, `[8192, 16384)`, and the like (`Transaction.length_bytes`,
`serializeSize_lt_length`); a secp256k1 or ed25519 signature's bytes fall in the first band.

Decoding the bytes of a transaction gives it back and reads every byte
(`unmarshalBinary_marshalBinary`). Decoding is not canonical the other way round: the strict decoder accepts bytes that no
transaction encodes to, as the nil marker `-1` for the sender (`unmarshalBinary_not_canonical`).
-/

namespace KwilDb.Auth

open KwilDb.Lib KwilDb.Types
open KwilDb.Core (Bytes)

/-- `auth.Signature`: the signature bytes, and the name of the authenticator that checks them. -/
structure Signature where
  data : Bytes
  type : Bytes
deriving DecidableEq, Repr

/-- `Signature.WriteTo`, hence `MarshalBinary` and `Bytes`. -/
def Signature.bytes (s : Signature) : Bytes :=
  appendUvarint s.data.length ++ s.data ++ appendUvarint s.type.length ++ s.type

/-- `serializedLen`, with `uvarintLen` of this package: `len(binary.AppendUvarint(nil, x))`. -/
def serializedLen (x : ℕ) : ℕ := x + (appendUvarint x).length

/-- `Signature.SerializeSize`. -/
def Signature.serializeSize (s : Signature) : ℕ :=
  serializedLen s.data.length + serializedLen s.type.length

/-- A field of `Signature.ReadFrom` on a reader that knows its length: an unsigned varint length,
then, when it is positive, that many bytes, refused when more are asked for than are left. -/
def readField (lenMsg tooLongMsg dataMsg : String) : Reader Bytes := do
  let n ← Reader.wrap lenMsg readUvarint
  if n = 0 then return []
  let rl ← Reader.len
  if rl < n then throw (tooLongMsg ++ toString n)
  Reader.wrap dataMsg (Reader.readFull n)

/-- `Signature.ReadFrom`, from a `bytes.Reader`. -/
def Signature.readFrom : Reader Signature := do
  let data ← readField "failed to read signature length" "impossibly long signature length: "
    "failed to read signature data"
  let type ← readField "failed to read signature type length" "impossibly long sig type length: "
    "failed to read signature type"
  pure ⟨data, type⟩

/-- `Signature.UnmarshalBinary`: `ReadFrom`, which must read every byte. -/
def Signature.unmarshalBinary (data : Bytes) : Except String Signature := do
  let (s, rest) ← Signature.readFrom data
  if rest ≠ [] then throw "extra signature data"
  pure s

/-- `SerializeSize` of a signature is the length of its bytes. -/
theorem Signature.serializeSize_eq (s : Signature) : s.serializeSize = s.bytes.length := by
  simp only [Signature.serializeSize, serializedLen, Signature.bytes, List.length_append]
  omega

/-- A field is read back. -/
lemma readField_append (lenMsg tooLongMsg dataMsg : String) (d rest : Bytes)
    (h : d.length < 2 ^ 64) :
    readField lenMsg tooLongMsg dataMsg (appendUvarint d.length ++ d ++ rest) = .ok (d, rest) := by
  rw [readField, List.append_assoc,
    Reader.bind_of_ok (Reader.wrap_of_ok (readUvarint_appendUvarint h (d ++ rest)) _)]
  cases d with
  | nil => rfl
  | cons c d =>
    simp only [List.length_cons, Nat.add_one_ne_zero, if_false]
    rw [Reader.bind_of_ok (Reader.len_apply _)]
    simp only [List.length_append, List.length_cons, show ¬ (d.length + 1 + rest.length <
      d.length + 1) by omega, if_false]
    exact Reader.wrap_of_ok (Reader.readFull_append (c :: d) rest) _

/-- **`UnmarshalBinary` reads back a signature's bytes.** -/
theorem Signature.unmarshalBinary_bytes (s : Signature) (h : s.bytes.length < 2 ^ 64) :
    Signature.unmarshalBinary s.bytes = .ok s := by
  have hd : s.data.length < 2 ^ 64 := by simp [Signature.bytes] at h; omega
  have ht : s.type.length < 2 ^ 64 := by simp [Signature.bytes] at h; omega
  have hread : Signature.readFrom s.bytes = .ok (s, []) := by
    have h₁ := readField_append "failed to read signature length"
      "impossibly long signature length: " "failed to read signature data" s.data
      (appendUvarint s.type.length ++ s.type) hd
    have h₂ := readField_append "failed to read signature type length"
      "impossibly long sig type length: " "failed to read signature type" s.type [] ht
    simp only [List.append_assoc, List.append_nil] at h₁ h₂
    simp only [Signature.bytes, List.append_assoc, Signature.readFrom]
    rw [Reader.bind_of_ok h₁, Reader.bind_of_ok h₂]
    rfl
  simp [Signature.unmarshalBinary, hread, bind, Except.bind]
  rfl

end KwilDb.Auth

namespace KwilDb.Types

open KwilDb.Lib
open KwilDb.Core (Bytes)

/-- `types.TransactionBody`. Its strings are their bytes; a nil payload is an empty one. -/
structure TransactionBody where
  description : Bytes
  payload : Bytes
  payloadType : Bytes
  fee : Option ℤ
  nonce : UInt64
  chainID : Bytes
deriving DecidableEq, Repr

/-- `types.Transaction`, without the fields that are not serialized (the strictness flag and the
cached hash). A nil sender is an empty one. -/
structure Transaction where
  signature : Option Auth.Signature
  body : Option TransactionBody
  serialization : Bytes
  sender : Bytes
deriving DecidableEq, Repr

/-- `txVersion`. -/
def txVersion : ℕ := 0

/-- `TransactionBody.WriteTo`, hence `MarshalBinary` and `Bytes`. -/
def TransactionBody.bytes (tb : TransactionBody) : Bytes :=
  writeCompactString tb.description ++ writeCompactBytes (some tb.payload) ++
    writeCompactString tb.payloadType ++ writeBigInt tb.fee ++ leBytes 8 tb.nonce.toNat ++
    writeCompactString tb.chainID

/-- `sigBytes` of `serialize`: `Signature.Bytes()`, or a nil slice for a nil signature. -/
def Transaction.sigBytes (t : Transaction) : Bytes := (t.signature.map Auth.Signature.bytes).getD []

/-- `bodyBytes` of `serialize`: `Body.Bytes()`, or a nil slice for a nil body. -/
def Transaction.bodyBytes (t : Transaction) : Bytes := (t.body.map TransactionBody.bytes).getD []

/-- `Transaction.serialize`, hence `MarshalBinary` and `Bytes`: the compact fields are written
with `EmptyIfNil`. -/
def Transaction.bytes (t : Transaction) : Bytes :=
  leBytes 2 txVersion ++ writeCompactBytes (some t.sigBytes) ++ writeCompactBytes (some t.bodyBytes) ++
    writeCompactString t.serialization ++ writeCompactBytes (some t.sender)

/-- `TransactionBody.ReadFrom`, on the `CountingReader` it wraps around its reader. -/
def TransactionBody.readFrom : Reader TransactionBody := do
  let desc ← Reader.wrap "failed to read transaction body description" (readCompactString false)
  let payload ← Reader.wrap "failed to read transaction body payload" (readCompactBytes false)
  let payloadType ←
    Reader.wrap "failed to read transaction body payload type" (readCompactString false)
  let fee ← Reader.wrap "failed to read transaction body fee" (readBigInt false)
  let nonce ← Reader.wrap "failed to read transaction body nonce" (readUint 8)
  let chainID ← Reader.wrap "failed to read transaction body chain ID" (readCompactString false)
  pure ⟨desc, payload.getD [], payloadType, fee, UInt64.ofNat nonce, chainID⟩

/-- `TransactionBody.UnmarshalBinary`; a strict one must read every byte. -/
def TransactionBody.unmarshalBinary (strict : Bool) (data : Bytes) :
    Except String TransactionBody := do
  let (tb, rest) ← TransactionBody.readFrom data
  if strict ∧ rest ≠ [] then throw "extra tx body data"
  pure tb

/-- What `deserialize` makes of the signature's bytes: nil when there are none, else
`Signature.UnmarshalBinary` of them. -/
def decodeSignature (sigBytes : Bytes) : Except String (Option Auth.Signature) :=
  if sigBytes.length ≠ 0 then
    match Auth.Signature.unmarshalBinary sigBytes with
    | .ok s => .ok (some s)
    | .error e => .error ("failed to unmarshal transaction signature: " ++ e)
  else .ok none

/-- What `deserialize` makes of the body's bytes: nil when there are none, else a strict
`UnmarshalBinary` of them. -/
def decodeBody (bodyBytes : Bytes) : Except String (Option TransactionBody) :=
  if bodyBytes.length ≠ 0 then
    match TransactionBody.unmarshalBinary true bodyBytes with
    | .ok b => .ok (some b)
    | .error e => .error ("failed to unmarshal transaction body: " ++ e)
  else .ok none

/-- `Transaction.deserialize`, on a `CountingReader`. A nil slice read for the signature, the
body or the sender is an empty one. -/
def Transaction.deserialize : Reader Transaction := do
  let ver ← Reader.wrap "failed to read transaction version" (readUint 2)
  if ver ≠ txVersion then throw ("unsupported transaction version " ++ toString ver)
  let sigBytes ← Reader.wrap "failed to read transaction signature" (readCompactBytes false)
  let signature ← decodeSignature (sigBytes.getD [])
  let bodyBytes ← Reader.wrap "failed to read transaction body" (readCompactBytes false)
  let body ← decodeBody (bodyBytes.getD [])
  let serType ←
    Reader.wrap "failed to read transaction serialization type" (readCompactString false)
  let sender ← Reader.wrap "failed to read transaction sender" (readCompactBytes false)
  pure ⟨signature, body, serType, sender.getD []⟩

/-- `Transaction.UnmarshalBinary`; a strict one must read every byte. -/
def Transaction.unmarshalBinary (strict : Bool) (data : Bytes) : Except String Transaction := do
  let (t, rest) ← Transaction.deserialize data
  if strict ∧ rest ≠ [] then throw "failed to read all"
  pure t

/-- The closure `totalLen` of both `SerializeSize` methods. -/
def totalLen (l : ℕ) : ℕ := l + uvarintLen l

/-- `TransactionBody.SerializeSize`. -/
def TransactionBody.serializeSize (tb : TransactionBody) : ℕ :=
  totalLen tb.description.length + totalLen tb.payload.length + totalLen tb.payloadType.length +
    (writeBigInt tb.fee).length + 8 + totalLen tb.chainID.length

/-- `Transaction.SerializeSize`. -/
def Transaction.serializeSize (t : Transaction) : ℕ :=
  2 + totalLen ((t.signature.map Auth.Signature.serializeSize).getD 0) +
    totalLen ((t.body.map TransactionBody.serializeSize).getD 0) +
    totalLen t.serialization.length + totalLen t.sender.length

/-- `smallestTxSize`: the `SerializeSize` of the empty transaction. -/
def smallestTxSize : ℕ := 6

/-! ### Sizes -/

section Sizes

lemma uvarintLen_pos (x : ℕ) : 1 ≤ uvarintLen x := by
  rw [uvarintLen]
  split <;> omega

/-- A longer length never takes fewer varint bytes. -/
lemma uvarintLen_mono {a b : ℕ} (h : a ≤ b) : uvarintLen a ≤ uvarintLen b := by
  induction b using Nat.strongRecOn generalizing a with
  | ind b ih =>
    by_cases ha : a < 128
    · rw [uvarintLen.eq_def a, if_pos ha]
      exact uvarintLen_pos b
    · -- both take a byte and go on with seven bits less
      rw [uvarintLen.eq_def a, if_neg ha, uvarintLen.eq_def b, if_neg (by omega)]
      have := ih (b / 128) (by omega) (Nat.div_le_div_right (c := 128) h)
      omega

/-- The signed varint of a length is never shorter than the unsigned one: its code is twice the
length. -/
lemma uvarintLen_le_varintLen (l : ℕ) : uvarintLen l ≤ varintLen l := by
  have hz : zigzag l = 2 * l := by simp [zigzag]
  exact uvarintLen_mono (by rw [hz]; omega)

/-- Between 64 and 127 the signed varint of a length takes two bytes, the unsigned one. -/
lemma varintLen_of_band {l : ℕ} (h₁ : 64 ≤ l) (h₂ : l < 128) : uvarintLen l = 1 ∧ varintLen l = 2 := by
  have hz : zigzag l = 2 * l := by simp [zigzag]
  constructor
  · rw [uvarintLen, if_pos h₂]
  · rw [varintLen, hz, uvarintLen, if_neg (by omega), uvarintLen, if_pos (by omega)]

@[simp] lemma length_writeCompactBytes (d : Bytes) :
    (writeCompactBytes (some d)).length = varintLen d.length + d.length := by
  simp [writeCompactBytes, varintLen_eq]

@[simp] lemma length_writeCompactString (s : Bytes) :
    (writeCompactString s).length = uvarintLen s.length + s.length := by
  simp [writeCompactString, uvarintLen_eq]

/-- **The bytes of a body** are its `SerializeSize`, with the payload's length prefix counted
as the signed varint it is. -/
theorem TransactionBody.length_bytes (tb : TransactionBody) :
    tb.bytes.length + uvarintLen tb.payload.length =
      tb.serializeSize + varintLen tb.payload.length := by
  simp only [TransactionBody.bytes, TransactionBody.serializeSize, totalLen, List.length_append,
    length_writeCompactBytes, length_writeCompactString, length_leBytes]
  omega

/-- **The bytes of a transaction**: the version, then each field after its length prefix, signed
for the signature, the body and the sender. -/
theorem Transaction.length_bytes (t : Transaction) :
    t.bytes.length = 2 + (varintLen t.sigBytes.length + t.sigBytes.length) +
      (varintLen t.bodyBytes.length + t.bodyBytes.length) +
      (uvarintLen t.serialization.length + t.serialization.length) +
      (varintLen t.sender.length + t.sender.length) := by
  simp only [Transaction.bytes, List.length_append, length_writeCompactBytes,
    length_writeCompactString, length_leBytes]

/-- A transaction takes at least `smallestTxSize` bytes: its version and four length prefixes. -/
lemma Transaction.smallestTxSize_le (t : Transaction) : smallestTxSize ≤ t.bytes.length := by
  have hs := (uvarintLen_pos _).trans (uvarintLen_le_varintLen t.sigBytes.length)
  have hb := (uvarintLen_pos _).trans (uvarintLen_le_varintLen t.bodyBytes.length)
  have hr := (uvarintLen_pos _).trans (uvarintLen_le_varintLen t.sender.length)
  have hz := uvarintLen_pos t.serialization.length
  rw [Transaction.length_bytes, smallestTxSize]
  omega

/-- A body's `SerializeSize` is at most the length of its bytes. -/
lemma TransactionBody.serializeSize_le (tb : TransactionBody) : tb.serializeSize ≤ tb.bytes.length := by
  have := tb.length_bytes
  have := uvarintLen_le_varintLen tb.payload.length
  omega

/-- The signature's part of `SerializeSize` is the length of its bytes. -/
lemma sigSize_eq (t : Transaction) :
    (t.signature.map Auth.Signature.serializeSize).getD 0 = t.sigBytes.length := by
  unfold Transaction.sigBytes
  cases t.signature <;> simp [Auth.Signature.serializeSize_eq]

/-- The body's part of `SerializeSize` is at most the length of its bytes. -/
lemma bodySize_le (t : Transaction) :
    (t.body.map TransactionBody.serializeSize).getD 0 ≤ t.bodyBytes.length := by
  unfold Transaction.bodyBytes
  cases t.body <;> simp [TransactionBody.serializeSize_le]

/-- **`SerializeSize` never overcounts.** -/
theorem Transaction.serializeSize_le (t : Transaction) : t.serializeSize ≤ t.bytes.length := by
  rw [Transaction.length_bytes, Transaction.serializeSize, sigSize_eq]
  have hb := bodySize_le t
  have h₁ := uvarintLen_le_varintLen t.sigBytes.length
  have h₂ := uvarintLen_mono hb
  have h₃ := uvarintLen_le_varintLen t.bodyBytes.length
  have h₄ := uvarintLen_le_varintLen t.sender.length
  simp only [totalLen]
  omega

/-- **`SerializeSize` undercounts a signed transaction** whose signature's bytes number between
64 and 127, as a secp256k1 (65 bytes and `secp256k1_ep`) or an ed25519 (64 bytes and
`ed25519`) signature does: its length prefix takes two bytes, and `SerializeSize` counts one. -/
theorem serializeSize_lt_length (t : Transaction) (s : Auth.Signature) (hs : t.signature = some s)
    (h₁ : 64 ≤ s.bytes.length) (h₂ : s.bytes.length < 128) : t.serializeSize < t.bytes.length := by
  have hsig : t.sigBytes = s.bytes := by simp [Transaction.sigBytes, hs]
  rw [Transaction.length_bytes, Transaction.serializeSize, sigSize_eq, hsig]
  obtain ⟨hu, hv⟩ := varintLen_of_band h₁ h₂
  have hb := bodySize_le t
  have h₃ := uvarintLen_mono hb
  have h₄ := uvarintLen_le_varintLen t.bodyBytes.length
  have h₅ := uvarintLen_le_varintLen t.sender.length
  simp only [totalLen]
  omega

/-- A transaction signed by a secp256k1 key with the `secp256k1_ep` authenticator, with no body,
no serialization type and an empty sender. -/
theorem serializeSize_lt_length_witness :
    let s : Auth.Signature := ⟨List.replicate 65 0, KwilDb.Core.goBytes "secp256k1_ep"⟩
    let t : Transaction := ⟨some s, none, [], []⟩
    t.signature = some s ∧ 64 ≤ s.bytes.length ∧ s.bytes.length < 128 ∧
      t.serializeSize < t.bytes.length :=
  ⟨rfl, by decide +kernel, by decide +kernel, serializeSize_lt_length _ _ rfl (by decide +kernel)
    (by decide +kernel)⟩

end Sizes

/-! ### Decoding what was encoded -/

section RoundTrip

/-- **A body is read back from its bytes**, every field of it. -/
theorem TransactionBody.readFrom_bytes (tb : TransactionBody) (rest : Bytes)
    (h : tb.bytes.length < 2 ^ 63) : TransactionBody.readFrom (tb.bytes ++ rest) = .ok (tb, rest) := by
  -- every field is shorter than the whole
  have hl := h
  simp only [TransactionBody.bytes, List.length_append, length_writeCompactBytes,
    length_writeCompactString, length_leBytes] at hl
  have hdesc : tb.description.length < 2 ^ 63 := by omega
  have hpay : ∀ d, some tb.payload = some d → d.length < 2 ^ 63 := by
    rintro d ⟨⟩
    omega
  have htype : tb.payloadType.length < 2 ^ 63 := by omega
  have hfee : ∀ z, tb.fee = some z → (bigIntString z).length < 2 ^ 63 := by
    intro z hz
    simp only [hz, writeBigInt, List.length_cons, length_writeCompactString] at hl
    omega
  have hchain : tb.chainID.length < 2 ^ 63 := by omega
  simp only [TransactionBody.bytes, List.append_assoc, TransactionBody.readFrom]
  rw [Reader.bind_of_ok (Reader.wrap_of_ok
      (readCompactString_writeCompactString false tb.description _ hdesc) _),
    Reader.bind_of_ok (Reader.wrap_of_ok
      (readCompactBytes_writeCompactBytes false (some tb.payload) _ hpay) _),
    Reader.bind_of_ok (Reader.wrap_of_ok
      (readCompactString_writeCompactString false tb.payloadType _ htype) _),
    Reader.bind_of_ok (Reader.wrap_of_ok (readBigInt_writeBigInt false tb.fee _ hfee) _),
    Reader.bind_of_ok (Reader.wrap_of_ok (readUint_leBytes 8 tb.nonce.toNat _) _),
    Reader.bind_of_ok (Reader.wrap_of_ok
      (readCompactString_writeCompactString false tb.chainID rest hchain) _)]
  -- the nonce is read modulo `2^64`, which it is below
  simp

/-- A strict decoder reads back a body's bytes. -/
theorem TransactionBody.unmarshalBinary_bytes (strict : Bool) (tb : TransactionBody)
    (h : tb.bytes.length < 2 ^ 63) : TransactionBody.unmarshalBinary strict tb.bytes = .ok tb := by
  have hr := tb.readFrom_bytes [] h
  rw [List.append_nil] at hr
  simp [TransactionBody.unmarshalBinary, hr, bind, Except.bind]
  rfl

lemma decodeSignature_sigBytes (t : Transaction) (h : t.sigBytes.length < 2 ^ 64) :
    decodeSignature t.sigBytes = .ok t.signature := by
  unfold decodeSignature Transaction.sigBytes at *
  cases hs : t.signature with
  | none => simp
  | some s =>
    simp only [hs, Option.map_some, Option.getD_some] at h ⊢
    have hne : s.bytes.length ≠ 0 := by
      simp [Auth.Signature.bytes, appendUvarint_ne_nil]
    simp only [hne, ne_eq, not_false_eq_true, if_true, Auth.Signature.unmarshalBinary_bytes s h]

lemma decodeBody_bodyBytes (t : Transaction) (h : t.bodyBytes.length < 2 ^ 63) :
    decodeBody t.bodyBytes = .ok t.body := by
  unfold decodeBody Transaction.bodyBytes at *
  cases hb : t.body with
  | none => simp
  | some b =>
    simp only [hb, Option.map_some, Option.getD_some] at h ⊢
    have hne : b.bytes.length ≠ 0 := by
      simp [TransactionBody.bytes, writeCompactString, appendUvarint_ne_nil]
    simp only [hne, ne_eq, not_false_eq_true, if_true, TransactionBody.unmarshalBinary_bytes true b h]

/-- **The decoder reads a transaction back** from its fields, whatever sender field stands last,
as long as it reads as the sender: its own, or the nil marker for an empty sender. -/
theorem Transaction.deserialize_fields (t : Transaction) (sender : Option Bytes) (rest : Bytes)
    (h : t.bytes.length < 2 ^ 63) (hs : sender.getD [] = t.sender)
    (hsl : ∀ d, sender = some d → d.length < 2 ^ 63) :
    Transaction.deserialize (leBytes 2 txVersion ++ writeCompactBytes (some t.sigBytes) ++
      writeCompactBytes (some t.bodyBytes) ++ writeCompactString t.serialization ++
      writeCompactBytes sender ++ rest) = .ok (t, rest) := by
  have hl := h
  simp only [Transaction.bytes, List.length_append, length_writeCompactBytes,
    length_writeCompactString, length_leBytes] at hl
  have hsig : ∀ d, some t.sigBytes = some d → d.length < 2 ^ 63 := by
    rintro d ⟨⟩
    omega
  have hbody : ∀ d, some t.bodyBytes = some d → d.length < 2 ^ 63 := by
    rintro d ⟨⟩
    omega
  have hser : t.serialization.length < 2 ^ 63 := by omega
  simp only [List.append_assoc, Transaction.deserialize]
  rw [Reader.bind_of_ok (Reader.wrap_of_ok (readUint_leBytes 2 txVersion _) _),
    if_neg (by simp [txVersion]),
    Reader.bind_of_ok (Reader.wrap_of_ok
      (readCompactBytes_writeCompactBytes false (some t.sigBytes) _ hsig) _),
    Option.getD_some,
    Reader.bind_of_ok (Reader.lift_of_ok (decodeSignature_sigBytes t (by omega)) _),
    Reader.bind_of_ok (Reader.wrap_of_ok
      (readCompactBytes_writeCompactBytes false (some t.bodyBytes) _ hbody) _),
    Option.getD_some,
    Reader.bind_of_ok (Reader.lift_of_ok (decodeBody_bodyBytes t (by omega)) _),
    Reader.bind_of_ok (Reader.wrap_of_ok
      (readCompactString_writeCompactString false t.serialization _ hser) _),
    Reader.bind_of_ok (Reader.wrap_of_ok (readCompactBytes_writeCompactBytes false sender rest hsl) _),
    hs]
  rfl

/-- `Deserialize` reads a transaction back from its bytes and leaves what follows them. -/
lemma Transaction.deserialize_bytes (t : Transaction) (rest : Bytes) (h : t.bytes.length < 2 ^ 63) :
    Transaction.deserialize (t.bytes ++ rest) = .ok (t, rest) := by
  have hsender : ∀ d, some t.sender = some d → d.length < 2 ^ 63 := by
    rintro d ⟨⟩
    simp only [Transaction.bytes, List.length_append, length_writeCompactBytes] at h
    omega
  have hd := t.deserialize_fields (some t.sender) rest h rfl hsender
  rwa [← Transaction.bytes] at hd

/-- `UnmarshalBinary` of a transaction's bytes and a tail: without strictness it ignores the
tail, with strictness it refuses any. -/
lemma Transaction.unmarshalBinary_bytes_append (t : Transaction) (rest : Bytes)
    (h : t.bytes.length < 2 ^ 63) :
    Transaction.unmarshalBinary false (t.bytes ++ rest) = .ok t ∧
      (rest ≠ [] → Transaction.unmarshalBinary true (t.bytes ++ rest) = .error "failed to read all") := by
  have hd := t.deserialize_bytes rest h
  constructor
  · simp [Transaction.unmarshalBinary, hd, bind, Except.bind]
    rfl
  · intro hne
    simp [Transaction.unmarshalBinary, hd, bind, Except.bind, hne]

/-- **A strict decoder reads back the bytes of every transaction** Go can hold, and reads all of
them: the signature, the body (its fee too) and the nil-ness of both come back. -/
theorem unmarshalBinary_marshalBinary (t : Transaction) (h : t.bytes.length < 2 ^ 63) :
    Transaction.unmarshalBinary true t.bytes = .ok t := by
  have hd := t.deserialize_bytes [] h
  rw [List.append_nil] at hd
  simp [Transaction.unmarshalBinary, hd, bind, Except.bind]
  rfl

/-- The empty transaction is six bytes long. -/
theorem unmarshalBinary_marshalBinary_witness :
    (⟨none, none, [], []⟩ : Transaction).bytes.length < 2 ^ 63 ∧
      Transaction.unmarshalBinary true (⟨none, none, [], []⟩ : Transaction).bytes =
        .ok ⟨none, none, [], []⟩ :=
  ⟨by decide +kernel, unmarshalBinary_marshalBinary _ (by decide +kernel)⟩

/-- **The strict decoder accepts a second encoding** of every transaction with an empty sender:
its bytes with the sender's length `0` replaced by the nil marker `-1`, the byte `1`. -/
theorem unmarshalBinary_not_canonical (t : Transaction) (h : t.bytes.length < 2 ^ 63)
    (hs : t.sender = []) :
    Transaction.unmarshalBinary true (t.bytes.dropLast ++ [1]) = .ok t ∧
      t.bytes.dropLast ++ [1] ≠ t.bytes := by
  -- the sender is the last field, written `AppendVarint(0)`, one byte `0`
  have hlast : t.bytes = (leBytes 2 txVersion ++ writeCompactBytes (some t.sigBytes) ++
      writeCompactBytes (some t.bodyBytes) ++ writeCompactString t.serialization) ++ [0] := by
    have hzero : writeCompactBytes (some []) = [0] := by decide +kernel
    rw [Transaction.bytes, hs, hzero]
  have hnil : writeCompactBytes none = [1] := by decide +kernel
  have hd := t.deserialize_fields none [] h (by simp [hs]) (by simp)
  rw [hnil, List.append_nil] at hd
  rw [hlast, List.dropLast_concat]
  refine ⟨?_, by simp⟩
  simp only [Transaction.unmarshalBinary, hd, bind, Except.bind]
  rfl

/-- The empty transaction, `00 00 00 00 00 00`, is also read from `00 00 00 00 00 01`. -/
theorem unmarshalBinary_not_canonical_witness :
    (⟨none, none, [], []⟩ : Transaction).bytes.length < 2 ^ 63 ∧
      (⟨none, none, [], []⟩ : Transaction).sender = [] ∧
      Transaction.unmarshalBinary true ((⟨none, none, [], []⟩ : Transaction).bytes.dropLast ++ [1]) =
        .ok ⟨none, none, [], []⟩ ∧
      (⟨none, none, [], []⟩ : Transaction).bytes.dropLast ++ [1] ≠
        (⟨none, none, [], []⟩ : Transaction).bytes :=
  ⟨by decide +kernel, rfl, unmarshalBinary_not_canonical _ (by decide +kernel) rfl⟩

end RoundTrip

end KwilDb.Types
