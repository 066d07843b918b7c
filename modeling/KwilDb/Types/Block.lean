import KwilDb.Types.Transaction
import KwilDb.Lib.Pairs

/-!
# The binary form of a block

A block is its header, a varint-prefixed signature, and its transactions, each behind a varint
length (`EncodeBlock`). The header is fixed-width fields, then a flag byte and, for a leader
change, the new leader's key as compact bytes (`writeBlockHeader`). `crypto.WireEncodeKey`
panics on a key type outside the registry, so encoding is an `Except Failure`. The key is read
back with `UnmarshalPublicKey`, which is a parameter here.

`DecodeBlock` reads a block back; `GetRawBlockTx` skips to one transaction and returns its bytes
without decoding the others. Both read the same lengths; `DecodeBlock` checks each against what
is left and `GetRawBlockTx` against the whole block, which is weaker, so wherever `DecodeBlock`
succeeds the two agree (`getRawBlockTx_of_decodeBlock`). `DecodeBlock` decodes each transaction
without strictness, so the bytes of an entry can carry bytes after the transaction.

`CalcMerkleRoot` builds each level of the tree over the transactions' hashes in the front of its
own copy of the slice; each round is the level of `Lib.Pairs`, so the root is the tree's
(`calcMerkleRoot_eq_treeRoot`). `HashBytes` (SHA-256) is a parameter.
-/

namespace KwilDb.Types

open KwilDb.Lib
open KwilDb.Core (Bytes Hash KeyType keyTypeEncodeFlag)

/-- `crypto.PublicKey`: its type and `Bytes()`. -/
structure PublicKey where
  keyType : KeyType
  bytes : Bytes
deriving DecidableEq, Repr

/-- `encodingIDs`: the key type that a registered flag encodes. -/
def encodingIDs (flag : ℕ) : Option KeyType :=
  if flag = 0 then some .secp256k1 else if flag = 1 then some .ed25519 else none

/-- `crypto.WireEncodeKey`: the type's four-byte flag, then the key. -/
def wireEncodeKey (key : PublicKey) : Except Failure Bytes :=
  match keyTypeEncodeFlag key.keyType with
  | some flag => .ok (leBytes 4 flag ++ key.bytes)
  | none => .error (.panic "unknown key type")

/-- `crypto.WireDecodeKeyType`. -/
def wireDecodeKeyType (b : Bytes) : Except String (KeyType × Bytes) :=
  if b.length < 4 then .error "invalid key type encoding"
  else match encodingIDs (leNat (b.take 4)) with
    | some kt => .ok (kt, b.drop 4)
    | none => .error ("unknown key type encoding: " ++ toString (leNat (b.take 4)))

/-- `types.BlockHeader`, with the timestamp as its `UnixMilli`. -/
structure BlockHeader where
  version : UInt16
  height : Int64
  numTxns : UInt32
  prevHash : Hash
  prevAppHash : Hash
  timestamp : Int64
  merkleRoot : Hash
  validatorSetHash : Hash
  networkParamsHash : Hash
  newLeader : Option PublicKey
deriving DecidableEq, Repr

/-- `types.Block`. -/
structure Block where
  header : BlockHeader
  txns : List Transaction
  signature : Bytes
deriving DecidableEq, Repr

/-- The fixed-width fields of `writeBlockHeader`, in the order it writes them. -/
def BlockHeader.fixedBytes (hdr : BlockHeader) : Bytes :=
  leBytes 2 hdr.version.toNat ++ leBytes 8 hdr.height.toUInt64.toNat ++ leBytes 4 hdr.numTxns.toNat ++
    hdr.prevHash.toList ++ hdr.prevAppHash.toList ++ hdr.validatorSetHash.toList ++
    hdr.networkParamsHash.toList ++ leBytes 8 hdr.timestamp.toUInt64.toNat ++ hdr.merkleRoot.toList

/-- `EncodeBlockHeader`: the fixed fields, then `0`, or `1` and the new leader's wire key. -/
def encodeBlockHeader (hdr : BlockHeader) : Except Failure Bytes :=
  match hdr.newLeader with
  | none => .ok (hdr.fixedBytes ++ [0])
  | some key => do
    let k ← wireEncodeKey key
    pure (hdr.fixedBytes ++ [1] ++ writeCompactBytes (some k))

/-- The entries of `EncodeBlock`'s loop: each transaction's bytes after their varint length. -/
def txEntries (raws : List Bytes) : Bytes := raws.flatMap fun r => appendUvarint r.length ++ r

/-- `EncodeBlock`. -/
def encodeBlock (b : Block) : Except Failure Bytes := do
  let headerBytes ← encodeBlockHeader b.header
  pure (headerBytes ++ appendUvarint b.signature.length ++ b.signature ++
    txEntries (b.txns.map Transaction.bytes))

/-- `Block.TxnsSize`: the `SerializeSize` of every transaction. -/
def Block.txnsSize (b : Block) : ℕ := (b.txns.map Transaction.serializeSize).sum

/-- `Block.Size`: the block's size and its transactions', both from `SerializeSize`. -/
def Block.size (b : Block) : Except Failure (ℕ × ℕ) := do
  let headerBytes ← encodeBlockHeader b.header
  let sigLen := b.signature.length
  pure (headerBytes.length + uvarintLen sigLen + sigLen +
      (b.txns.map fun tx => (appendUvarint tx.serializeSize).length + tx.serializeSize).sum,
    b.txnsSize)

/-- The hash that `io.ReadFull` fills from 32 bytes. -/
def hashOfBytes (bs : Bytes) : Hash := Vector.ofFn fun i => bs.getD i 0

/-- `io.ReadFull` into a hash. -/
def readHash : Reader Hash := do
  let bs ← Reader.readFull 32
  pure (hashOfBytes bs)

/-- `types.ErrNotFound`. -/
def errNotFound : String := "not found"

section Decode

variable (unmarshalPublicKey : Bytes → KeyType → Except String PublicKey)

/-- `crypto.WireDecodePubKey`. -/
def wireDecodePubKey (b : Bytes) : Except String PublicKey := do
  let (kt, rest) ← wireDecodeKeyType b
  unmarshalPublicKey rest kt

/-- `DecodeBlockHeader`, on the block's `bytes.Reader`. A nonzero flag byte is `true`. -/
def decodeBlockHeader : Reader BlockHeader := do
  let version ← Reader.wrap "failed to read version" (readUint 2)
  let height ← Reader.wrap "failed to read height" (readUint 8)
  let numTxns ← Reader.wrap "failed to read number of transactions" (readUint 4)
  let prevHash ← Reader.wrap "failed to read previous block hash" readHash
  let prevAppHash ← Reader.wrap "failed to read previous block hash" readHash
  let validatorSetHash ← Reader.wrap "failed to read validator hash" readHash
  let networkParamsHash ← Reader.wrap "failed to read network params hash" readHash
  let timeStamp ← Reader.wrap "failed to read number of transactions" (readUint 8)
  let merkleRoot ← Reader.wrap "failed to read merkel root" readHash
  let leaderUpdate ← Reader.wrap "failed to read leader update flag" (readUint 1)
  let newLeader ← if leaderUpdate ≠ 0 then do
      let keyBts ← Reader.wrap "failed to read leader update key" (readCompactBytes true)
      match wireDecodePubKey unmarshalPublicKey (keyBts.getD []) with
      | .ok key => pure (some key)
      | .error e => throw ("failed to decode leader update key: " ++ e)
    else pure none
  pure ⟨UInt16.ofNat version, (UInt64.ofNat height).toInt64, UInt32.ofNat numTxns, prevHash,
    prevAppHash, (UInt64.ofNat timeStamp).toInt64, merkleRoot, validatorSetHash,
    networkParamsHash, newLeader⟩

/-- The loop of `DecodeBlock` over the transactions, at index `i` with `n` to go: a length that
must be positive and no more than is left, then that many bytes, decoded without strictness. -/
def decodeTxns : (i n : ℕ) → Reader (List Transaction)
  | _, 0 => pure []
  | i, n + 1 => do
    let txLen ← Reader.wrap "failed to read tx length" readUvarint
    let rl ← Reader.len
    if rl < txLen then throw ("invalid transaction length " ++ toString txLen)
    if txLen = 0 then throw ("invalid empty transaction idx " ++ toString i)
    let rawTx ← Reader.wrap "failed to read tx data" (Reader.readFull txLen)
    match Transaction.unmarshalBinary false rawTx with
    | .error e => throw ("invalid transaction (" ++ toString i ++ "): " ++ e)
    | .ok tx => do
      let txns ← decodeTxns (i + 1) n
      pure (tx :: txns)

/-- `DecodeBlock`, as a read of the block's bytes. -/
def decodeBlockReader : Reader Block := do
  let hdr ← decodeBlockHeader unmarshalPublicKey
  let sigLen ← Reader.wrap "failed to read signature length" readUvarint
  let rl ← Reader.len
  if rl < sigLen then throw ("invalid signature length " ++ toString sigLen)
  let sig ← Reader.wrap "failed to read signature" (Reader.readFull sigLen)
  -- a transaction takes at least `smallestTxSize` bytes
  let rl ← Reader.len
  if rl < hdr.numTxns.toNat * smallestTxSize then
    throw ("invalid number of transactions " ++ toString hdr.numTxns)
  let txns ← decodeTxns 0 hdr.numTxns.toNat
  pure ⟨hdr, txns, sig⟩

/-- `DecodeBlock`. -/
def decodeBlock (rawBlk : Bytes) : Except String Block := do
  let (b, _) ← decodeBlockReader unmarshalPublicKey rawBlk
  pure b

/-- The loop of `GetRawBlockTx`, at index `i` with `n` to go, looking for `idx`: each length is
checked against the whole block's, `total`, and the transactions before `idx` are skipped. -/
def scanTxns (total idx : ℕ) : (i n : ℕ) → Reader Bytes
  | _, 0 => throw errNotFound
  | i, n + 1 => do
    let txLen ← Reader.wrap "failed to read tx length" readUvarint
    if total < txLen then throw ("invalid transaction length " ++ toString txLen)
    if txLen = 0 then throw ("invalid empty transaction idx " ++ toString i)
    if idx = i then Reader.wrap "failed to read tx data" (Reader.readFull txLen)
    else do
      Reader.seek txLen
      scanTxns total idx (i + 1) n

/-- `GetRawBlockTx`: the bytes of the transaction at `idx`, read past the header, the signature
and the transactions before it. -/
def getRawBlockTx (rawBlk : Bytes) (idx : UInt32) : Except String Bytes := do
  let read : Reader Bytes := do
    let hdr ← decodeBlockHeader unmarshalPublicKey
    let sigLen ← Reader.wrap "failed to read signature length" readUvarint
    if rawBlk.length < sigLen then throw ("invalid signature length " ++ toString sigLen)
    Reader.seek sigLen
    scanTxns rawBlk.length idx.toNat 0 hdr.numTxns.toNat
  let (tx, _) ← read rawBlk
  pure tx

end Decode

/-! ### Reading a header back -/

section Header

lemma hashOfBytes_toList (h : Hash) : hashOfBytes h.toList = h := by
  ext i hi
  simp [hashOfBytes]

lemma readHash_append (h : Hash) (rest : Bytes) : readHash (h.toList ++ rest) = .ok (h, rest) := by
  have hr := Reader.readFull_append h.toList rest
  rw [Vector.length_toList] at hr
  rw [readHash, Reader.bind_of_ok hr, Reader.pure_apply, hashOfBytes_toList]

/-- A registered flag is read back as its key type. -/
lemma encodingIDs_of_flag {kt : KeyType} {flag : ℕ} (h : keyTypeEncodeFlag kt = some flag) :
    encodingIDs flag = some kt ∧ flag < 2 := by
  rcases KwilDb.Core.registered_cases h with rfl | rfl
  · obtain rfl : flag = 0 := by simpa [keyTypeEncodeFlag] using h.symm
    exact ⟨rfl, by omega⟩
  · obtain rfl : flag = 1 := by
      simpa [keyTypeEncodeFlag, KwilDb.Core.KeyType.secp256k1,
        KwilDb.Core.KeyType.ed25519] using h.symm
    exact ⟨rfl, by omega⟩

/-- `WireDecodeKeyType` reads back the flag of `WireEncodeKey`. -/
lemma wireDecodeKeyType_wireEncodeKey {key : PublicKey} {k : Bytes}
    (h : wireEncodeKey key = .ok k) : wireDecodeKeyType k = .ok (key.keyType, key.bytes) := by
  unfold wireEncodeKey at h
  split at h
  · rename_i flag hflag
    cases h
    obtain ⟨hid, hlt⟩ := encodingIDs_of_flag hflag
    have htake : (leBytes 4 flag ++ key.bytes).take 4 = leBytes 4 flag := by simp
    have hdrop : (leBytes 4 flag ++ key.bytes).drop 4 = key.bytes := by simp
    have hnat : leNat (leBytes 4 flag) = flag := by
      rw [leNat_leBytes, Nat.mod_eq_of_lt (by omega)]
    simp [wireDecodeKeyType, htake, hdrop, hnat, hid]
  · cases h

/-- What `EncodeBlockHeader` can write: the fixed fields and `0`, or the fixed fields, `1` and
the new leader's wire key. -/
lemma encodeBlockHeader_eq_ok {hdr : BlockHeader} {bytes : Bytes}
    (h : encodeBlockHeader hdr = .ok bytes) :
    (hdr.newLeader = none ∧ bytes = hdr.fixedBytes ++ [0]) ∨
      ∃ key k, hdr.newLeader = some key ∧ wireEncodeKey key = .ok k ∧
        bytes = hdr.fixedBytes ++ [1] ++ writeCompactBytes (some k) := by
  unfold encodeBlockHeader at h
  cases hl : hdr.newLeader with
  | none =>
    rw [hl] at h
    exact .inl ⟨rfl, (Except.ok.inj h).symm⟩
  | some key =>
    rw [hl] at h
    cases hw : wireEncodeKey key with
    | error e => simp [hw, bind, Except.bind] at h
    | ok k =>
      simp only [hw, bind, Except.bind, pure, Except.pure, Except.ok.injEq] at h
      exact .inr ⟨key, k, rfl, hw, h.symm⟩

/-- `EncodeBlockHeader` succeeds when the new leader, if any, has a registered key type. -/
lemma encodeBlockHeader_of_registered (hdr : BlockHeader)
    (hreg : ∀ k, hdr.newLeader = some k → (keyTypeEncodeFlag k.keyType).isSome) :
    ∃ hb, encodeBlockHeader hdr = .ok hb := by
  unfold encodeBlockHeader
  cases hl : hdr.newLeader with
  | none => exact ⟨_, rfl⟩
  | some key =>
    obtain ⟨flag, hflag⟩ := Option.isSome_iff_exists.mp (hreg key hl)
    exact ⟨_, by simp [wireEncodeKey, hflag, bind, Except.bind]; rfl⟩

variable (unmarshalPublicKey : Bytes → KeyType → Except String PublicKey)

/-- `DecodeBlockHeader` reads the fixed fields back, whatever follows them. -/
lemma decodeBlockHeader_fixedBytes (hdr : BlockHeader) (tail : Bytes) :
    decodeBlockHeader unmarshalPublicKey (hdr.fixedBytes ++ tail) =
      (do
        let leaderUpdate ← Reader.wrap "failed to read leader update flag" (readUint 1)
        let newLeader ← if leaderUpdate ≠ 0 then do
            let keyBts ← Reader.wrap "failed to read leader update key" (readCompactBytes true)
            match wireDecodePubKey unmarshalPublicKey (keyBts.getD []) with
            | .ok key => pure (some key)
            | .error e => throw ("failed to decode leader update key: " ++ e)
          else pure none
        pure { hdr with newLeader := newLeader } : Reader BlockHeader) tail := by
  simp only [BlockHeader.fixedBytes, List.append_assoc, decodeBlockHeader]
  rw [Reader.bind_of_ok (Reader.wrap_of_ok (readUint_leBytes 2 _ _) _),
    Reader.bind_of_ok (Reader.wrap_of_ok (readUint_leBytes 8 _ _) _),
    Reader.bind_of_ok (Reader.wrap_of_ok (readUint_leBytes 4 _ _) _),
    Reader.bind_of_ok (Reader.wrap_of_ok (readHash_append _ _) _),
    Reader.bind_of_ok (Reader.wrap_of_ok (readHash_append _ _) _),
    Reader.bind_of_ok (Reader.wrap_of_ok (readHash_append _ _) _),
    Reader.bind_of_ok (Reader.wrap_of_ok (readHash_append _ _) _),
    Reader.bind_of_ok (Reader.wrap_of_ok (readUint_leBytes 8 _ _) _),
    Reader.bind_of_ok (Reader.wrap_of_ok (readHash_append _ _) _)]
  simp

/-- **`DecodeBlockHeader` reads back `EncodeBlockHeader`**, the new leader too when
`UnmarshalPublicKey` reads back its key. -/
theorem decodeBlockHeader_encodeBlockHeader (hdr : BlockHeader) (bytes rest : Bytes)
    (h : encodeBlockHeader hdr = .ok bytes) (hlen : bytes.length < 2 ^ 63)
    (hkey : ∀ k, hdr.newLeader = some k → unmarshalPublicKey k.bytes k.keyType = .ok k) :
    decodeBlockHeader unmarshalPublicKey (bytes ++ rest) = .ok (hdr, rest) := by
  rcases encodeBlockHeader_eq_ok h with ⟨hl, rfl⟩ | ⟨key, k, hl, hk, rfl⟩
  · have hflag : readUint 1 (0 :: rest) = .ok (0, rest) := readUint_leBytes 1 0 rest
    rw [List.append_assoc, decodeBlockHeader_fixedBytes, List.singleton_append,
      Reader.bind_of_ok (Reader.wrap_of_ok hflag _)]
    simp [← hl]
  · have hklen : k.length < 2 ^ 63 := by
      simp only [List.length_append, length_writeCompactBytes] at hlen
      omega
    have hflag : readUint 1 (1 :: (writeCompactBytes (some k) ++ rest)) =
        .ok (1, writeCompactBytes (some k) ++ rest) := readUint_leBytes 1 1 _
    rw [List.append_assoc, List.append_assoc, decodeBlockHeader_fixedBytes,
      List.singleton_append, Reader.bind_of_ok (Reader.wrap_of_ok hflag _), if_pos (by decide),
      Reader.bind_of_ok (Reader.wrap_of_ok
        (readCompactBytes_writeCompactBytes true (some k) rest (by rintro d ⟨⟩; exact hklen)) _)]
    have hpk : wireDecodePubKey unmarshalPublicKey k = .ok key := by
      simp [wireDecodePubKey, wireDecodeKeyType_wireEncodeKey hk, hkey key hl, bind, Except.bind]
    simp only [Option.getD_some, hpk, ← hl]
    rfl

end Header

/-! ### Reading the transactions back -/

section Txns

@[simp] lemma txEntries_cons (r : Bytes) (raws : List Bytes) :
    txEntries (r :: raws) = appendUvarint r.length ++ r ++ txEntries raws := by
  simp [txEntries]

/-- Each entry takes at least `smallestTxSize` bytes when its transaction does. -/
lemma length_txEntries_ge {raws : List Bytes} (h : ∀ r ∈ raws, smallestTxSize ≤ r.length) :
    raws.length * smallestTxSize ≤ (txEntries raws).length := by
  induction raws with
  | nil => simp
  | cons r raws ih =>
    have hr := h r List.mem_cons_self
    have hrest := ih fun r' hr' => h r' (List.mem_cons_of_mem r hr')
    simp only [txEntries_cons, List.length_append, List.length_cons]
    rw [Nat.succ_mul]
    omega

/-- One step of `DecodeBlock`'s loop reads one entry: a positive length that fits, then that
many bytes, decoded without strictness. -/
lemma decodeTxns_cons (i n : ℕ) {r : Bytes} (rest : Bytes) {t : Transaction}
    (hpos : 0 < r.length) (hlen : r.length < 2 ^ 64) (ht : Transaction.unmarshalBinary false r = .ok t) :
    decodeTxns i (n + 1) (appendUvarint r.length ++ r ++ rest) =
      (do let txns ← decodeTxns (i + 1) n; pure (t :: txns) : Reader (List Transaction)) rest := by
  rw [decodeTxns, List.append_assoc,
    Reader.bind_of_ok (Reader.wrap_of_ok (readUvarint_appendUvarint hlen _) _),
    Reader.bind_of_ok (Reader.len_apply _)]
  have hfit : ¬(r ++ rest).length < r.length := by simp
  simp only [hfit, if_false, Nat.pos_iff_ne_zero.mp hpos]
  rw [Reader.bind_of_ok (Reader.wrap_of_ok (Reader.readFull_append r rest) _), ht]

/-- What one step of `DecodeBlock`'s loop can read: a length that fits and is not zero, then
bytes that decode without strictness, and the rest of the loop. -/
lemma decodeTxns_succ_eq_ok {i n : ℕ} {s s' : Bytes} {txs : List Transaction}
    (h : decodeTxns i (n + 1) s = .ok (txs, s')) :
    ∃ txLen s₁ t txs', readUvarint s = .ok (txLen, s₁) ∧ txLen ≤ s₁.length ∧ txLen ≠ 0 ∧
      Transaction.unmarshalBinary false (s₁.take txLen) = .ok t ∧
      decodeTxns (i + 1) n (s₁.drop txLen) = .ok (txs', s') ∧ txs = t :: txs' := by
  rw [decodeTxns, Reader.bind_eq_ok] at h
  obtain ⟨txLen, s₁, h₁, h⟩ := h
  rw [Reader.bind_of_ok (Reader.len_apply s₁)] at h
  -- the two guards fail the read when they hold
  by_cases hfit : s₁.length < txLen
  · simp [hfit, Reader.bind_apply, Except.bind] at h
  by_cases hzero : txLen = 0
  · simp [hzero, Reader.bind_apply, Except.bind] at h
  simp only [hfit, hzero, if_false] at h
  rw [Reader.bind_of_ok (Reader.wrap_of_ok (Reader.readFull_of_le (not_lt.mp hfit)) _)] at h
  cases hu : Transaction.unmarshalBinary false (s₁.take txLen) with
  | error e => simp [hu] at h
  | ok t =>
    simp only [hu] at h
    obtain ⟨txs', s₂, hrest, hp⟩ := Reader.bind_eq_ok.mp h
    cases hp
    exact ⟨txLen, s₁, t, txs', Reader.eq_ok_of_wrap h₁, not_lt.mp hfit, hzero, hu, hrest, rfl⟩

/-- **`DecodeBlock`'s loop reads the entries back**, each a positive length that Go can hold
before bytes that decode without strictness. -/
theorem decodeTxns_txEntries {raws : List Bytes} {txs : List Transaction} (i : ℕ) (rest : Bytes)
    (hlen : ∀ r ∈ raws, 0 < r.length ∧ r.length < 2 ^ 64)
    (h : List.Forall₂ (fun r t => Transaction.unmarshalBinary false r = .ok t) raws txs) :
    decodeTxns i raws.length (txEntries raws ++ rest) = .ok (txs, rest) := by
  induction h generalizing i with
  | nil => rfl
  | @cons r t raws txs ht _ ih =>
    obtain ⟨hpos, hr⟩ := hlen r List.mem_cons_self
    rw [List.length_cons, txEntries_cons, List.append_assoc, decodeTxns_cons i _ _ hpos hr ht,
      Reader.bind_of_ok (ih (i + 1) fun r' hr' => hlen r' (List.mem_cons_of_mem r hr'))]
    rfl

/-- An entry is no longer than all of them. -/
lemma length_le_length_txEntries {r : Bytes} {raws : List Bytes} (h : r ∈ raws) :
    r.length ≤ (txEntries raws).length := by
  induction raws with
  | nil => cases h
  | cons r' raws ih =>
    simp only [txEntries_cons, List.length_append]
    rcases List.mem_cons.mp h with rfl | h
    · omega
    · have := ih h
      omega

lemma decodeTxns_length : ∀ {i n : ℕ} {s s' : Bytes} {txs : List Transaction},
    decodeTxns i n s = .ok (txs, s') → txs.length = n
  | _, 0, _, _, _, h => by cases h; rfl
  | _, n + 1, _, _, _, h => by
    obtain ⟨_, _, _, _, -, -, -, -, hrest, rfl⟩ := decodeTxns_succ_eq_ok h
    rw [List.length_cons, decodeTxns_length hrest]

/-- One step of `GetRawBlockTx`'s loop past a length that passes its checks: it reads the entry
at `idx`, or skips it. -/
lemma scanTxns_succ {total idx i n txLen : ℕ} {s s₁ : Bytes} (h₁ : readUvarint s = .ok (txLen, s₁))
    (hle : txLen ≤ total) (hne : txLen ≠ 0) :
    scanTxns total idx i (n + 1) s =
      if idx = i then Reader.wrap "failed to read tx data" (Reader.readFull txLen) s₁
      else scanTxns total idx (i + 1) n (s₁.drop txLen) := by
  rw [scanTxns, Reader.bind_of_ok (Reader.wrap_of_ok h₁ _)]
  simp only [not_lt.mpr hle, hne, if_false]
  split_ifs
  · rfl
  · rw [Reader.bind_of_ok (Reader.seek_apply txLen s₁)]

/-- **`GetRawBlockTx`'s loop agrees with `DecodeBlock`'s** wherever the latter succeeds on bytes
no longer than the block: at an index in range it returns bytes that decode, without
strictness, to the transaction that `DecodeBlock` read there, and elsewhere it finds none. -/
theorem scanTxns_of_decodeTxns {total idx : ℕ} :
    ∀ {i n : ℕ} {s s' : Bytes} {txs : List Transaction},
      decodeTxns i n s = .ok (txs, s') → s.length ≤ total →
      (i ≤ idx → idx < i + n → ∃ r s'', scanTxns total idx i n s = .ok (r, s'') ∧
          (Transaction.unmarshalBinary false r).toOption = txs[idx - i]?) ∧
      (idx < i ∨ i + n ≤ idx → scanTxns total idx i n s = .error errNotFound)
  | i, 0, s, s', txs, _, _ => ⟨fun h₁ h₂ => absurd h₂ (by omega), fun _ => rfl⟩
  | i, n + 1, s, s', txs, h, hs => by
    obtain ⟨txLen, s₁, t, txs', h₁, hfit, hne, ht, hrest, rfl⟩ := decodeTxns_succ_eq_ok h
    -- the length read fits in what is left, so in the block
    have hs₁ : s₁.length ≤ total := ((consumes_readUvarint s txLen s₁ h₁).length_le).trans hs
    rw [scanTxns_succ h₁ (hfit.trans hs₁) hne]
    by_cases hi : idx = i
    · subst hi
      rw [if_pos rfl]
      refine ⟨fun _ _ => ⟨_, _, Reader.wrap_of_ok (Reader.readFull_of_le hfit) _, ?_⟩,
        fun h => by omega⟩
      simp [ht, Except.toOption]
    · have ih := @scanTxns_of_decodeTxns total idx (i + 1) n _ _ _ hrest
        ((List.drop_suffix txLen s₁).length_le.trans hs₁)
      rw [if_neg hi]
      refine ⟨fun h₁ h₂ => ?_, fun h => ih.2 (by omega)⟩
      obtain ⟨r, s'', hr, hdec⟩ := ih.1 (by omega) (by omega)
      refine ⟨r, s'', hr, ?_⟩
      rw [hdec, show idx - i = idx - (i + 1) + 1 by omega, List.getElem?_cons_succ]

/-- **`GetRawBlockTx`'s loop finds the entry at its index**, or none past the last. -/
theorem scanTxns_txEntries {total idx i : ℕ} {raws : List Bytes} (rest : Bytes) (hi : i ≤ idx)
    (h : ∀ r ∈ raws, 0 < r.length ∧ r.length < 2 ^ 64 ∧ r.length ≤ total) :
    (scanTxns total idx i raws.length (txEntries raws ++ rest)).map Prod.fst =
      match raws[idx - i]? with
      | some r => .ok r
      | none => .error errNotFound := by
  induction raws generalizing i with
  | nil => simp [scanTxns, Except.map]
  | cons r raws ih =>
    obtain ⟨hpos, hlen, hle⟩ := h r List.mem_cons_self
    rw [List.length_cons, txEntries_cons, List.append_assoc, List.append_assoc,
      scanTxns_succ (readUvarint_appendUvarint hlen _) hle (by omega)]
    by_cases hidx : idx = i
    · subst hidx
      rw [if_pos rfl, Reader.wrap_of_ok (Reader.readFull_append r _) _]
      simp [Except.map]
    · rw [if_neg hidx, List.drop_left,
        ih (by omega) fun r' hr' => h r' (List.mem_cons_of_mem r hr'),
        show idx - i = idx - (i + 1) + 1 by omega, List.getElem?_cons_succ]

end Txns

/-! ### Blocks -/

section Blocks

variable (unmarshalPublicKey : Bytes → KeyType → Except String PublicKey)

lemma consumes_readHash : Reader.Consumes readHash :=
  (Reader.consumes_readFull 32).bind fun _ => Reader.consumes_pure _

/-- `DecodeBlockHeader` only reads forward. -/
lemma consumes_decodeBlockHeader : Reader.Consumes (decodeBlockHeader unmarshalPublicKey) := by
  unfold decodeBlockHeader
  refine ((consumes_readUint 2).wrap _).bind fun _ => ?_
  refine ((consumes_readUint 8).wrap _).bind fun _ => ?_
  refine ((consumes_readUint 4).wrap _).bind fun _ => ?_
  refine (consumes_readHash.wrap _).bind fun _ => ?_
  refine (consumes_readHash.wrap _).bind fun _ => ?_
  refine (consumes_readHash.wrap _).bind fun _ => ?_
  refine (consumes_readHash.wrap _).bind fun _ => ?_
  refine ((consumes_readUint 8).wrap _).bind fun _ => ?_
  refine (consumes_readHash.wrap _).bind fun _ => ?_
  refine ((consumes_readUint 1).wrap _).bind fun _ => ?_
  -- the flag decides whether a key is read; both ends build the header
  dsimp only
  split
  · refine ((consumes_readCompactBytes true).wrap _).bind fun _ => ?_
    split
    · exact (Reader.consumes_pure _).bind fun _ => Reader.consumes_pure _
    · exact (Reader.consumes_throw _).bind fun _ => Reader.consumes_pure _
  · exact (Reader.consumes_pure _).bind fun _ => Reader.consumes_pure _

/-- What `DecodeBlock` reads when it succeeds: the header, a signature length that fits, and
the transactions after the signature. -/
lemma decodeBlockReader_eq_ok {raw s' : Bytes} {blk : Block}
    (h : decodeBlockReader unmarshalPublicKey raw = .ok (blk, s')) :
    ∃ s₁ sigLen s₂, decodeBlockHeader unmarshalPublicKey raw = .ok (blk.header, s₁) ∧
      readUvarint s₁ = .ok (sigLen, s₂) ∧ sigLen ≤ s₂.length ∧
      decodeTxns 0 blk.header.numTxns.toNat (s₂.drop sigLen) = .ok (blk.txns, s') := by
  rw [decodeBlockReader, Reader.bind_eq_ok] at h
  obtain ⟨hdr, s₁, hh, h⟩ := h
  obtain ⟨sigLen, s₂, hl, h⟩ := Reader.bind_eq_ok.mp h
  rw [Reader.bind_of_ok (Reader.len_apply s₂)] at h
  -- the signature's guard, then the guard on the number of transactions
  by_cases hfit : s₂.length < sigLen
  · simp [hfit, Reader.bind_apply, Except.bind] at h
  simp only [hfit, if_false] at h
  rw [Reader.bind_of_ok (Reader.wrap_of_ok (Reader.readFull_of_le (not_lt.mp hfit)) _),
    Reader.bind_of_ok (Reader.len_apply _)] at h
  by_cases hroom : (s₂.drop sigLen).length < hdr.numTxns.toNat * smallestTxSize
  · rw [List.length_drop] at hroom
    simp [hroom, Reader.bind_apply, Except.bind] at h
  simp only [hroom, if_false] at h
  obtain ⟨txs, s₃, htx, hp⟩ := Reader.bind_eq_ok.mp h
  cases hp
  exact ⟨s₁, sigLen, s₂, hh, Reader.eq_ok_of_wrap hl, not_lt.mp hfit, htx⟩

/-- `GetRawBlockTx` reads the header and the signature length as `DecodeBlock` does, and then
skips the signature. -/
lemma getRawBlockTx_eq {raw s₁ s₂ : Bytes} {hdr : BlockHeader} {sigLen : ℕ}
    (hh : decodeBlockHeader unmarshalPublicKey raw = .ok (hdr, s₁))
    (hl : readUvarint s₁ = .ok (sigLen, s₂)) (hsig : sigLen ≤ raw.length) (idx : UInt32) :
    getRawBlockTx unmarshalPublicKey raw idx =
      (scanTxns raw.length idx.toNat 0 hdr.numTxns.toNat (s₂.drop sigLen)).map Prod.fst := by
  rw [getRawBlockTx, Reader.bind_of_ok hh, Reader.bind_of_ok (Reader.wrap_of_ok hl _)]
  simp only [not_lt.mpr hsig, if_false]
  rw [Reader.bind_of_ok (Reader.seek_apply sigLen s₂)]
  cases scanTxns raw.length idx.toNat 0 hdr.numTxns.toNat (s₂.drop sigLen) <;> rfl

/-- `DecodeBlock` is its reader with what is left dropped. -/
lemma decodeBlock_eq_ok {raw : Bytes} {blk : Block} :
    decodeBlock unmarshalPublicKey raw = .ok blk ↔
      ∃ s, decodeBlockReader unmarshalPublicKey raw = .ok (blk, s) := by
  unfold decodeBlock
  cases decodeBlockReader unmarshalPublicKey raw with
  | error e => simp [bind, Except.bind]
  | ok p =>
    obtain ⟨b, s⟩ := p
    simp [bind, Except.bind, pure, Except.pure, eq_comm]

/-- **`DecodeBlock` reads a block made of entries**: a header's encoding, a signature after its
length, and entries of at least `smallestTxSize` bytes that decode without strictness. -/
theorem decodeBlockReader_entries {hdr : BlockHeader} {hb sig : Bytes} {raws : List Bytes}
    {txs : List Transaction} (henc : encodeBlockHeader hdr = .ok hb)
    (hn : hdr.numTxns.toNat = raws.length)
    (hkey : ∀ k, hdr.newLeader = some k → unmarshalPublicKey k.bytes k.keyType = .ok k)
    (hsize : ∀ r ∈ raws, smallestTxSize ≤ r.length)
    (hraws : List.Forall₂ (fun r t => Transaction.unmarshalBinary false r = .ok t) raws txs)
    (hlen : (hb ++ appendUvarint sig.length ++ sig ++ txEntries raws).length < 2 ^ 63) :
    decodeBlockReader unmarshalPublicKey (hb ++ appendUvarint sig.length ++ sig ++ txEntries raws) =
      .ok (⟨hdr, txs, sig⟩, []) := by
  simp only [List.length_append] at hlen
  have hentry : ∀ r ∈ raws, 0 < r.length ∧ r.length < 2 ^ 64 := fun r hr => by
    have h₁ := hsize r hr
    have h₂ := length_le_length_txEntries hr
    simp only [smallestTxSize] at h₁
    omega
  have htx := decodeTxns_txEntries 0 [] hentry hraws
  rw [List.append_nil] at htx
  have hroom := length_txEntries_ge hsize
  rw [List.append_assoc, List.append_assoc, decodeBlockReader,
    Reader.bind_of_ok (decodeBlockHeader_encodeBlockHeader unmarshalPublicKey hdr hb _ henc
      (by omega) hkey),
    Reader.bind_of_ok (Reader.wrap_of_ok (readUvarint_appendUvarint (by omega) _) _),
    Reader.bind_of_ok (Reader.len_apply _)]
  -- the signature fits, and the entries leave room for every transaction
  have hsig : ¬(sig ++ txEntries raws).length < sig.length := by simp
  simp only [hsig, if_false]
  rw [Reader.bind_of_ok (Reader.wrap_of_ok (Reader.readFull_append sig _) _),
    Reader.bind_of_ok (Reader.len_apply _)]
  simp only [hn, not_lt.mpr hroom, if_false]
  rw [Reader.bind_of_ok htx]
  rfl

/-- **`GetRawBlockTx` returns the entry at its index** of a block made of entries, and
`ErrNotFound` past the last. -/
theorem getRawBlockTx_entries {hdr : BlockHeader} {hb sig : Bytes} {raws : List Bytes}
    (henc : encodeBlockHeader hdr = .ok hb) (hn : hdr.numTxns.toNat = raws.length)
    (hkey : ∀ k, hdr.newLeader = some k → unmarshalPublicKey k.bytes k.keyType = .ok k)
    (hpos : ∀ r ∈ raws, 0 < r.length)
    (hlen : (hb ++ appendUvarint sig.length ++ sig ++ txEntries raws).length < 2 ^ 63)
    (idx : UInt32) :
    getRawBlockTx unmarshalPublicKey (hb ++ appendUvarint sig.length ++ sig ++ txEntries raws) idx =
      match raws[idx.toNat]? with
      | some r => .ok r
      | none => .error errNotFound := by
  have hl := hlen
  simp only [List.length_append] at hl
  have hh := decodeBlockHeader_encodeBlockHeader unmarshalPublicKey hdr hb
    (appendUvarint sig.length ++ sig ++ txEntries raws) henc (by omega) hkey
  simp only [List.append_assoc] at hh
  have hsl := readUvarint_appendUvarint (x := sig.length) (by omega) (sig ++ txEntries raws)
  -- past the signature the loop reads the entries, each no longer than the block
  have hentries : ∀ r ∈ raws, 0 < r.length ∧ r.length < 2 ^ 64 ∧
      r.length ≤ (hb ++ (appendUvarint sig.length ++ (sig ++ txEntries raws))).length := by
    intro r hr
    have := length_le_length_txEntries hr
    simp only [List.length_append]
    exact ⟨hpos r hr, by omega, by omega⟩
  have hscan := scanTxns_txEntries [] (Nat.zero_le idx.toNat) hentries
  rw [List.append_nil, Nat.sub_zero] at hscan
  rw [List.append_assoc, List.append_assoc,
    getRawBlockTx_eq unmarshalPublicKey hh hsl (by simp only [List.length_append]; omega), hn,
    List.drop_left, hscan]

lemma encodeBlock_eq {b : Block} {hb : Bytes} (h : encodeBlockHeader b.header = .ok hb) :
    encodeBlock b = .ok (hb ++ appendUvarint b.signature.length ++ b.signature ++
      txEntries (b.txns.map Transaction.bytes)) := by
  simp [encodeBlock, h, bind, Except.bind]
  rfl

/-- A transaction in an encoded block is shorter than the block. -/
lemma length_bytes_lt_of_mem {hb sig : Bytes} {txs : List Transaction} {t : Transaction}
    (ht : t ∈ txs)
    (hlen : (hb ++ appendUvarint sig.length ++ sig ++ txEntries (txs.map Transaction.bytes)).length <
      2 ^ 63) :
    t.bytes.length < 2 ^ 63 := by
  have := length_le_length_txEntries (List.mem_map_of_mem (f := Transaction.bytes) ht)
  simp only [List.length_append] at hlen
  omega

/-- The transactions of a block are the entries of its encoding. -/
lemma forall₂_unmarshalBinary {hb sig : Bytes} {txs : List Transaction}
    (hlen : (hb ++ appendUvarint sig.length ++ sig ++ txEntries (txs.map Transaction.bytes)).length <
      2 ^ 63) :
    List.Forall₂ (fun r t => Transaction.unmarshalBinary false r = .ok t)
      (txs.map Transaction.bytes) txs := by
  rw [List.forall₂_map_left_iff, List.forall₂_same]
  intro t ht
  simpa using (t.unmarshalBinary_bytes_append [] (length_bytes_lt_of_mem ht hlen)).1

/-- **`DecodeBlock` reads back `EncodeBlock`** for every block whose header counts its
transactions and whose new leader, if any, has a registered key type that `UnmarshalPublicKey`
reads back, as long as Go can hold the bytes. -/
theorem decodeBlock_encodeBlock (b : Block) (hn : b.header.numTxns.toNat = b.txns.length)
    (hreg : ∀ k, b.header.newLeader = some k → (keyTypeEncodeFlag k.keyType).isSome)
    (hkey : ∀ k, b.header.newLeader = some k → unmarshalPublicKey k.bytes k.keyType = .ok k) :
    ∃ bytes, encodeBlock b = .ok bytes ∧
      (bytes.length < 2 ^ 63 → decodeBlock unmarshalPublicKey bytes = .ok b) := by
  obtain ⟨hb, henc⟩ := encodeBlockHeader_of_registered b.header hreg
  refine ⟨_, encodeBlock_eq henc, fun hlen => ?_⟩
  have hsize : ∀ r ∈ b.txns.map Transaction.bytes, smallestTxSize ≤ r.length := by
    simp only [List.mem_map]
    rintro r ⟨t, -, rfl⟩
    exact t.smallestTxSize_le
  exact decodeBlock_eq_ok unmarshalPublicKey |>.mpr ⟨[], decodeBlockReader_entries unmarshalPublicKey
    henc (by rw [hn, List.length_map]) hkey hsize (forall₂_unmarshalBinary hlen) hlen⟩

/-- A block of one transaction that hands the leader's role to a 32-byte ed25519 key, under a
decoder that accepts ed25519 keys of that length only. -/
theorem decodeBlock_encodeBlock_witness :
    let h₀ : Hash := Vector.replicate 32 0
    let b : Block := ⟨⟨1, 1, 1, h₀, h₀, 1, h₀, h₀, h₀, some ⟨.ed25519, List.replicate 32 5⟩⟩,
      [⟨none, none, [], []⟩], [7]⟩
    let u : Bytes → KeyType → Except String PublicKey := fun bs kt =>
      if kt = .ed25519 ∧ bs.length = 32 then .ok ⟨kt, bs⟩ else .error "invalid ed25519 public key"
    b.header.numTxns.toNat = b.txns.length ∧
      (∀ k, b.header.newLeader = some k → (keyTypeEncodeFlag k.keyType).isSome) ∧
      (∀ k, b.header.newLeader = some k → u k.bytes k.keyType = .ok k) ∧
      ∃ bytes, encodeBlock b = .ok bytes ∧ (bytes.length < 2 ^ 63 → decodeBlock u bytes = .ok b) := by
  intro h₀ b u
  have hn : b.header.numTxns.toNat = b.txns.length := rfl
  have hreg : ∀ k, b.header.newLeader = some k → (keyTypeEncodeFlag k.keyType).isSome := by
    rintro k ⟨⟩
    decide
  have hkey : ∀ k, b.header.newLeader = some k → u k.bytes k.keyType = .ok k := by
    rintro k ⟨⟩
    rfl
  exact ⟨hn, hreg, hkey, decodeBlock_encodeBlock u b hn hreg hkey⟩

/-- `GetRawBlockTx` agrees with `DecodeBlock` wherever the latter succeeds: the bytes at an
index in range decode without strictness to the transaction there, and past the last index
there is none. -/
lemma getRawBlockTx_agrees {raw : Bytes} {blk : Block}
    (h : decodeBlock unmarshalPublicKey raw = .ok blk) (idx : UInt32) :
    (∀ hi : idx.toNat < blk.txns.length, ∃ r, getRawBlockTx unmarshalPublicKey raw idx = .ok r ∧
        Transaction.unmarshalBinary false r = .ok blk.txns[idx.toNat]) ∧
      (blk.txns.length ≤ idx.toNat →
        getRawBlockTx unmarshalPublicKey raw idx = .error errNotFound) := by
  obtain ⟨s', hr⟩ := (decodeBlock_eq_ok unmarshalPublicKey).mp h
  obtain ⟨s₁, sigLen, s₂, hh, hl, hfit, htx⟩ := decodeBlockReader_eq_ok unmarshalPublicKey hr
  -- what `DecodeBlock` left is a suffix of the block, so the whole block's bounds hold for it
  have hs₂ : s₂ <:+ raw :=
    (consumes_readUvarint s₁ sigLen s₂ hl).trans (consumes_decodeBlockHeader unmarshalPublicKey raw _ _ hh)
  have hrest : (s₂.drop sigLen).length ≤ raw.length :=
    (List.drop_suffix sigLen s₂).length_le.trans hs₂.length_le
  have hscan := @scanTxns_of_decodeTxns raw.length idx.toNat 0 _ _ _ _ htx hrest
  have hn := decodeTxns_length htx
  rw [getRawBlockTx_eq unmarshalPublicKey hh hl (hfit.trans hs₂.length_le) idx]
  refine ⟨fun hi => ?_, fun hi => by rw [hscan.2 (.inr (by omega))]; rfl⟩
  obtain ⟨r, s'', hr', hdec⟩ := hscan.1 (Nat.zero_le _) (by omega)
  refine ⟨r, by rw [hr']; rfl, ?_⟩
  rw [Nat.sub_zero, List.getElem?_eq_getElem hi] at hdec
  cases hu : Transaction.unmarshalBinary false r <;> simp_all [Except.toOption]

/-- `GetRawBlockTx` of an encoded block returns the bytes of the transaction at its index. -/
lemma getRawBlockTx_encodeBlock {b : Block} {bytes : Bytes} (henc : encodeBlock b = .ok bytes)
    (hn : b.header.numTxns.toNat = b.txns.length)
    (hkey : ∀ k, b.header.newLeader = some k → unmarshalPublicKey k.bytes k.keyType = .ok k)
    (hlen : bytes.length < 2 ^ 63) (idx : UInt32) :
    getRawBlockTx unmarshalPublicKey bytes idx =
      match b.txns[idx.toNat]? with
      | some t => .ok t.bytes
      | none => .error errNotFound := by
  obtain ⟨hb, hhb⟩ : ∃ hb, encodeBlockHeader b.header = .ok hb := by
    cases h : encodeBlockHeader b.header with
    | error e => simp [encodeBlock, h, bind, Except.bind] at henc
    | ok hb => exact ⟨hb, rfl⟩
  rw [encodeBlock_eq hhb, Except.ok.injEq] at henc
  subst henc
  have hpos : ∀ r ∈ b.txns.map Transaction.bytes, 0 < r.length := by
    simp only [List.mem_map]
    rintro r ⟨t, -, rfl⟩
    have := t.smallestTxSize_le
    simp only [smallestTxSize] at this
    omega
  rw [getRawBlockTx_entries unmarshalPublicKey hhb (by rw [hn, List.length_map]) hkey hpos hlen,
    List.getElem?_map]
  cases b.txns[idx.toNat]? <;> rfl

/-- **`DecodeBlock` accepts bytes after a transaction in its entry**, since it decodes without
strictness, and `GetRawBlockTx` returns the entry with those bytes. -/
theorem decodeBlock_padded_entry {hdr : BlockHeader} {hb : Bytes} (t : Transaction)
    (junk sig : Bytes) (henc : encodeBlockHeader hdr = .ok hb) (hn : hdr.numTxns.toNat = 1)
    (hkey : ∀ k, hdr.newLeader = some k → unmarshalPublicKey k.bytes k.keyType = .ok k)
    (hlen : (hb ++ appendUvarint sig.length ++ sig ++ txEntries [t.bytes ++ junk]).length < 2 ^ 63) :
    decodeBlock unmarshalPublicKey (hb ++ appendUvarint sig.length ++ sig ++
        txEntries [t.bytes ++ junk]) = .ok ⟨hdr, [t], sig⟩ ∧
      getRawBlockTx unmarshalPublicKey (hb ++ appendUvarint sig.length ++ sig ++
        txEntries [t.bytes ++ junk]) 0 = .ok (t.bytes ++ junk) := by
  have hentry := length_le_length_txEntries (List.mem_singleton_self (t.bytes ++ junk))
  have hsize : ∀ r ∈ [t.bytes ++ junk], smallestTxSize ≤ r.length := by
    intro r hr
    rw [List.mem_singleton.mp hr, List.length_append]
    exact t.smallestTxSize_le.trans (Nat.le_add_right _ _)
  have ht : t.bytes.length < 2 ^ 63 := by
    simp only [List.length_append] at hlen hentry
    omega
  have hraws : List.Forall₂ (fun r t => Transaction.unmarshalBinary false r = .ok t)
      [t.bytes ++ junk] [t] := .cons (t.unmarshalBinary_bytes_append junk ht).1 .nil
  refine ⟨(decodeBlock_eq_ok unmarshalPublicKey).mpr
    ⟨[], decodeBlockReader_entries unmarshalPublicKey henc hn hkey hsize hraws hlen⟩, ?_⟩
  have hpos : ∀ r ∈ [t.bytes ++ junk], 0 < r.length := fun r hr => by
    have := hsize r hr
    simp only [smallestTxSize] at this
    omega
  rw [@getRawBlockTx_entries unmarshalPublicKey hdr hb sig [t.bytes ++ junk] henc hn hkey hpos hlen]
  rfl

/-- The empty transaction and a zero byte, alone in a block with no leader change, under a
key decoder that accepts every key. -/
theorem getRawBlockTx_not_strict :
    let h₀ : Hash := Vector.replicate 32 0
    let hdr : BlockHeader := ⟨1, 1, 1, h₀, h₀, 1, h₀, h₀, h₀, none⟩
    let t : Transaction := ⟨none, none, [], []⟩
    let raw := hdr.fixedBytes ++ [0] ++ appendUvarint 0 ++ [] ++ txEntries [t.bytes ++ [0]]
    let u : Bytes → KeyType → Except String PublicKey := fun bs kt => .ok ⟨kt, bs⟩
    decodeBlock u raw = .ok ⟨hdr, [t], []⟩ ∧
      getRawBlockTx u raw 0 = .ok (t.bytes ++ [0]) ∧
      Transaction.unmarshalBinary true (t.bytes ++ [0]) = .error "failed to read all" := by
  intro h₀ hdr t raw u
  have hlen : raw.length < 2 ^ 63 := by decide +kernel
  obtain ⟨hdec, hget⟩ := @decodeBlock_padded_entry u hdr (hdr.fixedBytes ++ [0]) t
    [0] [] rfl rfl (by rintro k ⟨⟩) hlen
  exact ⟨hdec, hget, (t.unmarshalBinary_bytes_append [0] (by decide +kernel)).2 (by simp)⟩

/-- **`GetRawBlockTx` agrees with `DecodeBlock`** wherever the latter succeeds: at an index below
the number of transactions it returns bytes that decode, without strictness, to the transaction
there, and at any other index `ErrNotFound`. On an encoded block the bytes it returns are those
of the transaction at the index. -/
theorem getRawBlockTx_of_decodeBlock :
    (∀ (raw : Bytes) (blk : Block) (idx : UInt32), decodeBlock unmarshalPublicKey raw = .ok blk →
      (∀ hi : idx.toNat < blk.txns.length, ∃ r, getRawBlockTx unmarshalPublicKey raw idx = .ok r ∧
          Transaction.unmarshalBinary false r = .ok blk.txns[idx.toNat]) ∧
        (blk.txns.length ≤ idx.toNat →
          getRawBlockTx unmarshalPublicKey raw idx = .error errNotFound)) ∧
    (∀ b : Block, b.header.numTxns.toNat = b.txns.length →
      (∀ k, b.header.newLeader = some k → (keyTypeEncodeFlag k.keyType).isSome) →
      (∀ k, b.header.newLeader = some k → unmarshalPublicKey k.bytes k.keyType = .ok k) →
      ∃ bytes, encodeBlock b = .ok bytes ∧ (bytes.length < 2 ^ 63 → ∀ idx : UInt32,
        getRawBlockTx unmarshalPublicKey bytes idx =
          match b.txns[idx.toNat]? with
          | some t => .ok t.bytes
          | none => .error errNotFound)) := by
  refine ⟨fun raw blk idx h => getRawBlockTx_agrees unmarshalPublicKey h idx,
    fun b hn hreg hkey => ?_⟩
  obtain ⟨hb, hhb⟩ := encodeBlockHeader_of_registered b.header hreg
  exact ⟨_, encodeBlock_eq hhb, fun hlen idx =>
    getRawBlockTx_encodeBlock unmarshalPublicKey (encodeBlock_eq hhb) hn hkey hlen idx⟩

/-- The block of one padded entry at index `0`, and the same block encoded. -/
theorem getRawBlockTx_of_decodeBlock_witness :
    let h₀ : Hash := Vector.replicate 32 0
    let blk : Block := ⟨⟨1, 1, 1, h₀, h₀, 1, h₀, h₀, h₀, none⟩, [⟨none, none, [], []⟩], []⟩
    let raw := blk.header.fixedBytes ++ [0] ++ appendUvarint 0 ++ [] ++
      txEntries [(⟨none, none, [], []⟩ : Transaction).bytes ++ [0]]
    let u : Bytes → KeyType → Except String PublicKey := fun bs kt => .ok ⟨kt, bs⟩
    (decodeBlock u raw = .ok blk ∧
      (∀ hi : (0 : UInt32).toNat < blk.txns.length, ∃ r, getRawBlockTx u raw 0 = .ok r ∧
          Transaction.unmarshalBinary false r = .ok blk.txns[(0 : UInt32).toNat]) ∧
        (blk.txns.length ≤ (0 : UInt32).toNat → getRawBlockTx u raw 0 = .error errNotFound)) ∧
    (blk.header.numTxns.toNat = blk.txns.length ∧
      (∀ k, blk.header.newLeader = some k → (keyTypeEncodeFlag k.keyType).isSome) ∧
      (∀ k, blk.header.newLeader = some k → u k.bytes k.keyType = .ok k) ∧
      ∃ bytes, encodeBlock blk = .ok bytes ∧ (bytes.length < 2 ^ 63 → ∀ idx : UInt32,
        getRawBlockTx u bytes idx =
          match blk.txns[idx.toNat]? with
          | some t => .ok t.bytes
          | none => .error errNotFound)) := by
  intro h₀ blk raw u
  have hlen : raw.length < 2 ^ 63 := by decide +kernel
  have hdec := (@decodeBlock_padded_entry u blk.header (blk.header.fixedBytes ++ [0])
    ⟨none, none, [], []⟩ [0] [] rfl rfl (by rintro k ⟨⟩) hlen).1
  have hn : blk.header.numTxns.toNat = blk.txns.length := rfl
  have hreg : ∀ k, blk.header.newLeader = some k → (keyTypeEncodeFlag k.keyType).isSome := by
    rintro k ⟨⟩
  have hkey : ∀ k, blk.header.newLeader = some k → u k.bytes k.keyType = .ok k := by
    rintro k ⟨⟩
  exact ⟨⟨hdec, (getRawBlockTx_of_decodeBlock u).1 raw blk 0 hdec⟩,
    ⟨hn, hreg, hkey, (getRawBlockTx_of_decodeBlock u).2 blk hn hreg hkey⟩⟩

end Blocks

/-! ### Merkle roots -/

section Merkle

variable (hashBytes : Bytes → Hash)

/-- A parent node: `HashBytes` of the left child's bytes, then the right's. -/
def merkleNode (left right : Hash) : Hash := hashBytes (left.toList ++ right.toList)

/-- One round of the loop of `CalcMerkleRoot`: an odd level gets its last hash once more, the
parents overwrite the front of the slice, and the slice is cut to them. -/
def merkleRound (leaves : List Hash) : List Hash :=
  let leaves := if leaves.length &&& 1 ≠ 0 then leaves ++ [leaves[leaves.length - 1]!] else leaves
  let leaves := pairInPlace (merkleNode hashBytes) leaves (leaves.length / 2)
  leaves.take (leaves.length / 2)

/-- A round builds the level above, the last hash of an odd level paired with itself. -/
theorem merkleRound_eq (leaves : List Hash) :
    merkleRound hashBytes leaves = pairLevel (merkleNode hashBytes) leaves := by
  unfold merkleRound
  rw [Nat.and_one_is_mod]
  by_cases hodd : leaves.length % 2 = 1
  · have hne : leaves ≠ [] := by rintro rfl; simp at hodd
    have hlast : leaves[leaves.length - 1]! = leaves.getLast hne := by
      rw [List.getLast_eq_getElem, getElem!_pos]
    have heven : (leaves ++ [leaves.getLast hne]).length % 2 = 0 := by simp; omega
    simp only [hodd, ne_eq, one_ne_zero, not_false_eq_true, if_true, hlast, length_pairInPlace]
    rw [take_pairInPlace _ heven, pairLevel_append_getLast _ hodd hne]
  · have heven : leaves.length % 2 = 0 := by omega
    simp only [heven, ne_eq, not_true_eq_false, if_false, length_pairInPlace]
    exact take_pairInPlace _ heven

lemma length_merkleRound (leaves : List Hash) :
    (merkleRound hashBytes leaves).length = (leaves.length + 1) / 2 := by
  rw [merkleRound_eq, length_pairLevel]

/-- The loop `for len(leaves) > 1` of `CalcMerkleRoot`, then `leaves[0]`. -/
def merkleLoop (leaves : List Hash) : Hash :=
  if 1 < leaves.length then merkleLoop (merkleRound hashBytes leaves) else leaves[0]!
termination_by leaves.length
decreasing_by rw [length_merkleRound]; omega

/-- **`CalcMerkleRoot`**: the zero hash over no leaves, the leaf over one, else the loop over
`slices.Clone(leaves)`, which leaves the caller's slice as it was. -/
def calcMerkleRoot (leaves : List Hash) : Hash :=
  match leaves.length with
  | 0 => Vector.replicate 32 0
  | 1 => leaves[0]!
  | _ => merkleLoop hashBytes leaves

/-- The loop is the root of the tree over a nonempty level; the induction is on the level's
length, each round a level up. -/
theorem merkleLoop_eq_treeRoot (zero : Hash) :
    ∀ n (leaves : List Hash), leaves.length = n → leaves ≠ [] →
      merkleLoop hashBytes leaves = treeRoot (merkleNode hashBytes) zero leaves := by
  intro n
  induction n using Nat.strong_induction_on with
  | _ n ih =>
    intro leaves hn hne
    rw [merkleLoop]
    split
    · rename_i h2
      have hlen := length_merkleRound hashBytes leaves
      rw [ih _ (by omega) _ rfl (by rw [← List.length_pos_iff, hlen]; omega), merkleRound_eq,
        ← treeRoot_of_two_le _ zero h2]
    · -- one leaf is the root
      obtain ⟨a, rfl⟩ : ∃ a, leaves = [a] := by
        match leaves, hne with
        | [a], _ => exact ⟨a, rfl⟩
        | _ :: _ :: _, _ => simp at *
      simp [treeRoot]

/-- **`CalcMerkleRoot` computes the Merkle tree**: the zero hash over no leaves, the leaf over
one, and over more the root of the level above, which pairs neighbours under `HashBytes(l ‖ r)`
and an odd level's last hash with itself. -/
theorem calcMerkleRoot_eq_treeRoot (leaves : List Hash) :
    calcMerkleRoot hashBytes leaves =
      treeRoot (merkleNode hashBytes) (Vector.replicate 32 0) leaves := by
  unfold calcMerkleRoot
  split
  · rename_i h0
    rw [List.length_eq_zero_iff.mp h0, treeRoot]
  · rename_i h1
    obtain ⟨a, rfl⟩ := List.length_eq_one_iff.mp h1
    simp [treeRoot]
  · rename_i h0 h1
    exact merkleLoop_eq_treeRoot hashBytes _ _ leaves rfl (by rintro rfl; exact h0 rfl)

end Merkle

end KwilDb.Types
