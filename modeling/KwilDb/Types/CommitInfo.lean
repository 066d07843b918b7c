import KwilDb.Types.ParamUpdates
import KwilDb.Types.Payloads
import KwilDb.Core.Commit

/-!
# The binary form of commit information

`core/types/commit.go`: `CommitInfo.MarshalBinary` writes the app hash, the votes behind their
count, the parameter updates, and the validator updates behind their count; each vote, the
updates and each validator go as compact bytes of their own `MarshalBinary`. `UnmarshalBinary`
reads them back, refusing a count that exceeds what is left. A vote is its signature, its status
as an `int32` and, for a forked vote, its app hash; a validator is a version, its account ID and
its power (`types.go`).

The three entries are read alike (`readEntry`), and the two counted loops too (`readCounted`).
For a commit whose votes, updates and validators fit, the round trip succeeds exactly as the
updates' own round trip does, and gives back everything else (`CommitInfo.readFrom_marshalBinary`).
So a commit reads back, its updates as the same map (`CommitInfo.roundTrip_of_fits`), unless its
updates set the migration status to the empty string: then `UnmarshalBinary` fails with
`failed to unmarshal param updates: EOF` (`CommitInfo.unmarshalBinary_fails_of_empty_status`).

Byte slices of the model are never nil, and `WriteCompactBytes` to a `bytes.Buffer` does not
fail.
-/

namespace KwilDb.Core

open KwilDb.Lib
open KwilDb.Types (writeCompactBytes readCompactBytes readBytes readHash readHash_append
  readCompactBytes_writeCompactBytes uvarintLen varintLen length_writeCompactBytes)

/-! ### Votes -/

/-- `Signature.WriteTo`: the key type, then the public key and the signature data as compact
bytes. A key type outside the registry fails before anything is written. -/
def Signature.writeTo (s : Signature) : Except String Bytes := do
  let kt ← s.pubKeyType.writeTo
  pure (kt ++ writeCompactBytes (some s.pubKey) ++ writeCompactBytes (some s.data))

/-- `Signature.ReadFrom`, through the `CountingReader` it wraps around its input, which does not
say how much is left. -/
def Signature.readFrom : Reader Signature := do
  let kt ← Reader.wrap "failed to read public key type" KeyType.readFrom
  let pubKey ← Reader.wrap "failed to read public key" (readCompactBytes false)
  let sig ← Reader.wrap "failed to read signature" (readCompactBytes false)
  pure ⟨kt, pubKey.getD [], sig.getD []⟩

/-- `VoteInfo.MarshalBinary`: the signature, the status as an `int32`, and the app hash of a
forked vote. -/
def VoteInfo.marshalBinary (v : VoteInfo) : Except String Bytes := do
  let sig ← v.signature.writeTo.mapError ("failed to write signature: " ++ ·)
  let status := leBytes 4 (Int32.ofInt v.ackStatus.code).toUInt32.toNat
  if v.ackStatus = .forked then
    match v.appHash with
    | none => throw "missing app hash for diverged vote"
    | some appHash => pure (sig ++ status ++ appHash.toList)
  else pure (sig ++ status)

/-- `VoteInfo.UnmarshalBinary`, on the `bytes.Reader` over its input. -/
def VoteInfo.readFrom : Reader VoteInfo := do
  let sig ← Reader.wrap "failed to read signature" Signature.readFrom
  let status ← Reader.wrap "failed to read ack status" (readUint 4)
  let ackStatus : AckStatus := ⟨(UInt32.ofNat status).toInt32.toInt⟩
  if ackStatus = .forked then
    let appHash ← Reader.wrap "failed to read app hash" readHash
    pure ⟨ackStatus, some appHash, sig⟩
  else pure ⟨ackStatus, none, sig⟩

/-- `VoteInfo.UnmarshalBinary`. -/
def VoteInfo.unmarshalBinary (data : Bytes) : Except String VoteInfo := VoteInfo.readFrom.run' data

/-! ### Validators -/

/-- `ValidatorVersion`. -/
def validatorVersion : ℕ := 0

/-- `Validator.MarshalBinary`: the version, the account ID behind a four-byte length, the power. -/
def Validator.marshalBinary (v : Validator) : Except String Bytes := do
  let acctBts ← v.accountID.marshalBinary.mapError ("failed to marshal account ID: " ++ ·)
  pure (leBytes 2 validatorVersion ++ writeBytes acctBts ++ leBytes 8 v.power.toUInt64.toNat)

/-- `Validator.UnmarshalBinary`, on the `bytes.Reader` over its input. -/
def Validator.readFrom : Reader Validator := do
  let version ← Reader.wrap "failed to read version" (readUint 2)
  if version ≠ validatorVersion then throw ("invalid version: " ++ toString version)
  let acctBts ← Reader.wrap "failed to read account ID" (readBytes true)
  let accountID ← match AccountID.unmarshalBinary (acctBts.getD []) with
    | .ok id => pure id
    | .error e => throw ("failed to unmarshal account ID: " ++ e)
  let power ← Reader.wrap "failed to read power" (readUint 8)
  pure ⟨accountID, (UInt64.ofNat power).toInt64⟩

/-- `Validator.UnmarshalBinary`. -/
def Validator.unmarshalBinary (b : Bytes) : Except String Validator := Validator.readFrom.run' b

/-! ### Commit information -/

/-- One entry of `CommitInfo.MarshalBinary`: the bytes of the entry's `MarshalBinary`, as compact
bytes. Its error is wrapped; a panic goes through. -/
def writeEntry (what : String) (bytes : Except Failure Bytes) : Except Failure Bytes := do
  let bts ← bytes.mapError (Failure.wrap ("failed to marshal " ++ what))
  pure (writeCompactBytes (some bts))

/-- `CommitInfo.MarshalBinary`. -/
def CommitInfo.marshalBinary (ci : CommitInfo ParamUpdates) : Except Failure Bytes := do
  let votes ← ci.votes.mapM fun v => writeEntry "vote" (v.marshalBinary.mapError .error)
  let paramUpdates ← writeEntry "param updates" ci.paramUpdates.marshalBinary
  let validators ← ci.validatorUpdates.mapM fun v =>
    writeEntry "validator" (v.marshalBinary.mapError .error)
  pure (ci.appHash.toList ++ appendUvarint ci.votes.length ++ votes.flatten ++ paramUpdates ++
    appendUvarint ci.validatorUpdates.length ++ validators.flatten)

/-- One entry of `CommitInfo.UnmarshalBinary`: compact bytes, decoded on their own. -/
def readEntry {α : Type} (what : String) (unmarshal : Bytes → Except String α) : Reader α := do
  let bts ← Reader.wrap ("failed to read " ++ what) (readCompactBytes true)
  match unmarshal (bts.getD []) with
  | .ok a => pure a
  | .error e => throw ("failed to unmarshal " ++ what ++ ": " ++ e)

/-- A loop of `CommitInfo.UnmarshalBinary`: a count, refused when it exceeds what is left, then
as many elements. -/
def readCounted {α : Type} (what : String) (x : Reader α) : Reader (List α) := do
  let count ← Reader.wrap ("failed to read " ++ what ++ " count") readUvarint
  let left ← Reader.len
  if count > left then
    throw (what ++ " count " ++ toString count ++ " exceeds remaining data length " ++
      toString left)
  Reader.readN x count

section Decode

variable (unmarshalPublicKey : Bytes → KeyType → Except String Types.PublicKey)

/-- `CommitInfo.UnmarshalBinary`, on the `bytes.Reader` over its input. -/
def CommitInfo.readFrom : Reader (CommitInfo ParamUpdates) := do
  let appHash ← Reader.wrap "failed to read app hash" readHash
  let votes ← readCounted "vote" (readEntry "vote" VoteInfo.unmarshalBinary)
  let paramUpdates ← readEntry "param updates" (ParamUpdates.unmarshalBinary unmarshalPublicKey)
  let validatorUpdates ←
    readCounted "validator update" (readEntry "validator" Validator.unmarshalBinary)
  pure ⟨appHash, votes, paramUpdates, validatorUpdates⟩

/-- `CommitInfo.UnmarshalBinary`. -/
def CommitInfo.unmarshalBinary (data : Bytes) : Except String (CommitInfo ParamUpdates) :=
  (CommitInfo.readFrom unmarshalPublicKey).run' data

end Decode

/-! ### What fits -/

/-- A vote that is written and read back: a status of the three, with an app hash exactly when it
is `forked`, a registered key type, and a key and a signature shorter than `2^31` bytes. -/
structure VoteInfo.Fits (v : VoteInfo) : Prop where
  status : v.ackStatus = .reject ∨ v.ackStatus = .agree ∨ v.ackStatus = .forked
  appHash : v.appHash.isSome ↔ v.ackStatus = .forked
  keyType : (keyTypeEncodeFlag v.signature.pubKeyType).isSome
  pubKey : v.signature.pubKey.length < 2 ^ 31
  data : v.signature.data.length < 2 ^ 31

/-- A validator that is written and read back: a registered key type and an identifier shorter
than `2^31` bytes. -/
structure Validator.Fits (v : Validator) : Prop where
  keyType : (keyTypeEncodeFlag v.accountID.keyType).isSome
  identifier : v.accountID.identifier.length < 2 ^ 31

/-- Commit information whose every part fits, with as many votes and validators as a Go slice
can hold. -/
structure CommitInfo.Fits (ci : CommitInfo ParamUpdates) : Prop where
  votes : ∀ v ∈ ci.votes, v.Fits
  paramUpdates : ci.paramUpdates.Fits
  validators : ∀ v ∈ ci.validatorUpdates, v.Fits
  votesLength : ci.votes.length < 2 ^ 63
  validatorsLength : ci.validatorUpdates.length < 2 ^ 63

/-! ### Reading back a vote and a validator -/

lemma uvarintLen_le (x : ℕ) : uvarintLen x ≤ x + 1 := by
  induction x using Nat.strongRecOn with
  | ind x ih =>
    rw [uvarintLen]
    split
    · omega
    · have := ih (x / 128) (by omega)
      omega

/-- Compact bytes take at most three bytes for each byte they hold, and one. -/
lemma length_writeCompactBytes_le (d : Bytes) :
    (writeCompactBytes (some d)).length ≤ 3 * d.length + 1 := by
  have h := uvarintLen_le (zigzag d.length)
  rw [length_writeCompactBytes, varintLen]
  simp only [zigzag, Int.natCast_nonneg, not_lt.mpr, if_false, Int.toNat_natCast] at h ⊢
  omega

lemma Signature.writeTo_of_flag {s : Signature} {flag : ℕ}
    (hflag : keyTypeEncodeFlag s.pubKeyType = some flag) :
    s.writeTo = .ok (leBytes 4 flag ++ writeCompactBytes (some s.pubKey) ++
      writeCompactBytes (some s.data)) := by
  rw [Signature.writeTo, KeyType.writeTo, hflag]
  rfl

/-- `ReadFrom` reads back what `WriteTo` wrote, whatever follows. -/
lemma Signature.readFrom_writeTo {s : Signature} {flag : ℕ}
    (hflag : keyTypeEncodeFlag s.pubKeyType = some flag) (hpk : s.pubKey.length < 2 ^ 63)
    (hd : s.data.length < 2 ^ 63) (rest : Bytes) :
    Signature.readFrom (leBytes 4 flag ++ writeCompactBytes (some s.pubKey) ++
      writeCompactBytes (some s.data) ++ rest) = .ok (s, rest) := by
  have hkt := KeyType.readFrom_written hflag
    (writeCompactBytes (some s.pubKey) ++ (writeCompactBytes (some s.data) ++ rest))
  rw [KeyType.written_of_flag hflag] at hkt
  rw [List.append_assoc, List.append_assoc, Signature.readFrom,
    Reader.bind_of_ok (Reader.wrap_of_ok hkt _),
    Reader.bind_of_ok (Reader.wrap_of_ok
      (readCompactBytes_writeCompactBytes false (some s.pubKey) _ (by rintro d ⟨⟩; exact hpk)) _),
    Reader.bind_of_ok (Reader.wrap_of_ok
      (readCompactBytes_writeCompactBytes false (some s.data) rest (by rintro d ⟨⟩; exact hd)) _)]
  rfl

/-- The statuses of a vote survive the `int32` they are written as. -/
lemma AckStatus.ofInt32_toInt32 {s : AckStatus} (h : s = .reject ∨ s = .agree ∨ s = .forked) :
    (⟨(UInt32.ofNat ((Int32.ofInt s.code).toUInt32.toNat % 256 ^ 4)).toInt32.toInt⟩ : AckStatus) =
      s := by
  rcases h with rfl | rfl | rfl <;> decide

/-- **A vote reads back.** A fitting vote is written, in fewer than `2^63` bytes, and its bytes
read back as it, whatever follows. -/
theorem VoteInfo.readFrom_marshalBinary {v : VoteInfo} (hv : v.Fits) :
    ∃ bs, v.marshalBinary = .ok bs ∧ bs.length < 2 ^ 63 ∧
      ∀ rest, VoteInfo.readFrom (bs ++ rest) = .ok (v, rest) := by
  obtain ⟨flag, hflag⟩ := Option.isSome_iff_exists.mp hv.keyType
  have hpk := hv.pubKey
  have hd := hv.data
  have happ := hv.appHash
  have hst := AckStatus.ofInt32_toInt32 hv.status
  obtain ⟨⟨code⟩, appHash, sig⟩ := v
  simp only at hflag hpk hd happ hst
  have hsigBts := Signature.writeTo_of_flag hflag
  set sigBts := leBytes 4 flag ++ writeCompactBytes (some sig.pubKey) ++
    writeCompactBytes (some sig.data) with hsigBts_def
  have hsiglen : sigBts.length < 2 ^ 62 := by
    have := length_writeCompactBytes_le sig.pubKey
    have := length_writeCompactBytes_le sig.data
    simp only [sigBts, List.length_append, length_leBytes]
    omega
  -- the signature and the status read back; what follows turns on the status
  have hhead (tail rest : Bytes) :
      VoteInfo.readFrom (sigBts ++ leBytes 4 (Int32.ofInt code).toUInt32.toNat ++ tail ++ rest) =
        (if (⟨code⟩ : AckStatus) = .forked then do
          let appHash ← Reader.wrap "failed to read app hash" readHash
          pure ⟨⟨code⟩, some appHash, sig⟩
        else pure ⟨⟨code⟩, none, sig⟩ : Reader VoteInfo) (tail ++ rest) := by
    rw [List.append_assoc, List.append_assoc, VoteInfo.readFrom,
      Reader.bind_of_ok (Reader.wrap_of_ok
        (Signature.readFrom_writeTo hflag (by omega) (by omega) _) _),
      Reader.bind_of_ok (Reader.wrap_of_ok (readUint_leBytes 4 _ _) _)]
    rw [hst]
  by_cases hf : (⟨code⟩ : AckStatus) = .forked
  · -- a forked vote carries its app hash after the status
    obtain ⟨h, rfl⟩ := Option.isSome_iff_exists.mp (happ.mpr hf)
    refine ⟨sigBts ++ leBytes 4 (Int32.ofInt code).toUInt32.toNat ++ h.toList, ?_, ?_,
      fun rest => ?_⟩
    · simp only [VoteInfo.marshalBinary, hsigBts, Except.mapError, if_pos hf]
      rfl
    · simp only [List.length_append, length_leBytes, Vector.length_toList]
      omega
    · rw [hhead, if_pos hf, Reader.bind_of_ok (Reader.wrap_of_ok (readHash_append _ _) _)]
      rfl
  · have hnone : appHash = none := Option.not_isSome_iff_eq_none.mp (mt happ.mp hf)
    subst hnone
    refine ⟨sigBts ++ leBytes 4 (Int32.ofInt code).toUInt32.toNat, ?_, ?_, fun rest => ?_⟩
    · simp only [VoteInfo.marshalBinary, hsigBts, Except.mapError, if_neg hf]
      rfl
    · simp only [List.length_append, length_leBytes]
      omega
    · have := hhead [] rest
      rw [List.append_nil, if_neg hf] at this
      exact this

/-- **A validator reads back.** A fitting validator is written, in fewer than `2^63` bytes, and
its bytes read back as it, whatever follows. -/
theorem Validator.readFrom_marshalBinary {v : Validator} (hv : v.Fits) :
    ∃ bs, v.marshalBinary = .ok bs ∧ bs.length < 2 ^ 63 ∧
      ∀ rest, Validator.readFrom (bs ++ rest) = .ok (v, rest) := by
  obtain ⟨flag, hflag⟩ := Option.isSome_iff_exists.mp hv.keyType
  have hacct : v.accountID.marshalBinary = .ok (leBytes 2 accountIDVersion ++
      writeBytes v.accountID.identifier ++ leBytes 4 flag) := by
    rw [AccountID.marshalBinary, hflag]
  set acctBts := leBytes 2 accountIDVersion ++ writeBytes v.accountID.identifier ++
    leBytes 4 flag with hacctBts
  have hacctlen : acctBts.length < 2 ^ 32 - 1 := by
    have := hv.identifier
    simp only [acctBts, writeBytes, List.length_append, length_leBytes]
    omega
  have hid : AccountID.unmarshalBinary acctBts = .ok v.accountID :=
    Reader.run'_of_readBack (AccountID.readFrom_marshalBinary hacct (by have := hv.identifier; omega))
  refine ⟨leBytes 2 validatorVersion ++ writeBytes acctBts ++ leBytes 8 v.power.toUInt64.toNat,
    by simp only [Validator.marshalBinary, hacct, Except.mapError]; rfl, ?_, fun rest => ?_⟩
  · simp only [writeBytes, List.length_append, length_leBytes]
    omega
  rw [List.append_assoc, List.append_assoc, Validator.readFrom,
    Reader.bind_of_ok (Reader.wrap_of_ok (readUint_leBytes 2 _ _) _), if_neg (by decide)]
  dsimp only
  rw [Reader.bind_of_ok (Reader.wrap_of_ok (readBytes_writeBytes_some hacctlen _) _),
    Option.getD_some, hid]
  dsimp only
  rw [Reader.bind_of_ok (Reader.pure_apply _ _),
    Reader.bind_of_ok (Reader.wrap_of_ok (readUint_leBytes 8 _ _) _)]
  simp

/-! ### The entries and the loops -/

section Entries

variable {α : Type} {what : String}

lemma writeEntry_of_ok {bytes : Except Failure Bytes} {bts : Bytes} (h : bytes = .ok bts) :
    writeEntry what bytes = .ok (writeCompactBytes (some bts)) := by
  rw [writeEntry, h]
  rfl

/-- An entry's compact bytes are read, and the entry decoded from them. -/
lemma readEntry_writeCompactBytes {unmarshal : Bytes → Except String α} {bts : Bytes}
    (hlen : bts.length < 2 ^ 63) (rest : Bytes) :
    readEntry what unmarshal (writeCompactBytes (some bts) ++ rest) =
      (match unmarshal bts with
        | .ok a => pure a
        | .error e => throw ("failed to unmarshal " ++ what ++ ": " ++ e) : Reader α) rest := by
  rw [readEntry, Reader.bind_of_ok (Reader.wrap_of_ok
    (readCompactBytes_writeCompactBytes true (some bts) rest (by rintro d ⟨⟩; exact hlen)) _)]
  rfl

/-- An entry whose bytes decode as it reads back. -/
lemma readEntry_of_unmarshal {unmarshal : Bytes → Except String α} {bts : Bytes} {a : α}
    (hlen : bts.length < 2 ^ 63) (ha : unmarshal bts = .ok a) (rest : Bytes) :
    readEntry what unmarshal (writeCompactBytes (some bts) ++ rest) = .ok (a, rest) := by
  rw [readEntry_writeCompactBytes hlen, ha]
  rfl

/-- An entry whose bytes do not decode fails with the decoder's error, wrapped. -/
lemma readEntry_of_unmarshal_error {unmarshal : Bytes → Except String α} {bts : Bytes}
    {e : String} (hlen : bts.length < 2 ^ 63) (he : unmarshal bts = .error e) (rest : Bytes) :
    readEntry what unmarshal (writeCompactBytes (some bts) ++ rest) =
      .error ("failed to unmarshal " ++ what ++ ": " ++ e) := by
  rw [readEntry_writeCompactBytes hlen, he]
  rfl

lemma writeCompactBytes_ne_nil (d : Bytes) : writeCompactBytes (some d) ≠ [] := by
  simp [writeCompactBytes, appendVarint, appendUvarint_ne_nil]

/-- Elements of non-empty bytes are no more than the bytes. -/
lemma length_le_length_flatten {l : List α} {bss : List Bytes} :
    List.Forall₂ (fun _ bs => bs ≠ []) l bss → l.length ≤ bss.flatten.length
  | .nil => le_rfl
  | .cons hbs h => by
    have := length_le_length_flatten h
    have := List.length_pos_iff.mpr hbs
    simp only [List.length_cons, List.flatten_cons, List.length_append]
    omega

/-- **The loop rule for a counted loop.** Elements each read back from non-empty bytes are read
back behind their count, which is never more than what is left. -/
theorem readCounted_flatten {x : Reader α} {l : List α} {bss : List Bytes}
    (h : List.Forall₂ (fun a bs => bs ≠ [] ∧ ∀ rest, x (bs ++ rest) = .ok (a, rest)) l bss)
    (hl : l.length < 2 ^ 64) (rest : Bytes) :
    readCounted what x (appendUvarint l.length ++ bss.flatten ++ rest) = .ok (l, rest) := by
  have hcount : l.length ≤ (bss.flatten ++ rest).length := by
    have := length_le_length_flatten (h.imp fun _ _ h => h.1)
    simp only [List.length_append]
    omega
  rw [List.append_assoc, readCounted,
    Reader.bind_of_ok (Reader.wrap_of_ok (readUvarint_appendUvarint hl _) _),
    Reader.bind_of_ok (Reader.len_apply _), if_neg (by omega)]
  exact Reader.readN_flatten (h.imp fun _ _ h => h.2) rest

/-- Elements each written in fewer than `2^63` bytes that decode back are written as entries,
and each entry reads back from non-empty bytes. -/
lemma entries_of_readBack {l : List α} {marshal : α → Except String Bytes}
    {unmarshal : Bytes → Except String α}
    (h : ∀ v ∈ l, ∃ bs, marshal v = .ok bs ∧ bs.length < 2 ^ 63 ∧ unmarshal bs = .ok v) :
    ∃ bss, (l.mapM fun v => writeEntry what ((marshal v).mapError .error)) = .ok bss ∧
      List.Forall₂ (fun v bs => bs ≠ [] ∧ ∀ rest,
        readEntry what unmarshal (bs ++ rest) = .ok (v, rest)) l bss :=
  mapM_forall₂ _ fun v hv => by
    obtain ⟨vb, hvb, hlen, hun⟩ := h v hv
    exact ⟨_, writeEntry_of_ok (by rw [hvb]; rfl), writeCompactBytes_ne_nil vb,
      readEntry_of_unmarshal hlen hun⟩

end Entries

/-! ### Reading back commit information -/

section RoundTrip

variable (unmarshalPublicKey : Bytes → KeyType → Except String Types.PublicKey)
variable {ci : CommitInfo ParamUpdates}

/-- Fitting votes are written, and each reads back from non-empty bytes. -/
lemma CommitInfo.votes_of_fits (hfits : ci.Fits) :
    ∃ bss, (ci.votes.mapM fun v => writeEntry "vote" (v.marshalBinary.mapError .error)) = .ok bss ∧
      List.Forall₂ (fun v bs => bs ≠ [] ∧ ∀ rest,
        readEntry "vote" VoteInfo.unmarshalBinary (bs ++ rest) = .ok (v, rest)) ci.votes bss :=
  entries_of_readBack fun v hv => by
    obtain ⟨vb, hvb, hlen, hread⟩ := VoteInfo.readFrom_marshalBinary (hfits.votes v hv)
    exact ⟨vb, hvb, hlen, Reader.run'_of_readBack hread⟩

/-- Fitting validators are written, and each reads back from non-empty bytes. -/
lemma CommitInfo.validators_of_fits (hfits : ci.Fits) :
    ∃ bss, (ci.validatorUpdates.mapM fun v =>
        writeEntry "validator" (v.marshalBinary.mapError .error)) = .ok bss ∧
      List.Forall₂ (fun v bs => bs ≠ [] ∧ ∀ rest,
        readEntry "validator" Validator.unmarshalBinary (bs ++ rest) = .ok (v, rest))
        ci.validatorUpdates bss :=
  entries_of_readBack fun v hv => by
    obtain ⟨vb, hvb, hlen, hread⟩ := Validator.readFrom_marshalBinary (hfits.validators v hv)
    exact ⟨vb, hvb, hlen, Reader.run'_of_readBack hread⟩

/-- **The round trip turns on the updates.** What `MarshalBinary` writes for fitting commit
information reads back with its app hash, votes and validators, exactly when the updates' own
bytes decode; and fails with their error when they do not. -/
theorem CommitInfo.readFrom_marshalBinary (hfits : ci.Fits) :
    ∃ puBts bts, ci.paramUpdates.marshalBinary = .ok puBts ∧ ci.marshalBinary = .ok bts ∧
      CommitInfo.readFrom unmarshalPublicKey bts =
        match ParamUpdates.unmarshalBinary unmarshalPublicKey puBts with
        | .ok pu => .ok (⟨ci.appHash, ci.votes, pu, ci.validatorUpdates⟩, [])
        | .error e => .error ("failed to unmarshal param updates: " ++ e) := by
  obtain ⟨vbs, hvbs, hvotes⟩ := ci.votes_of_fits hfits
  obtain ⟨valbs, hvalbs, hvals⟩ := ci.validators_of_fits hfits
  obtain ⟨puBts, hpu, hpulen⟩ := ParamUpdates.marshalBinary_of_fits hfits.paramUpdates
  refine ⟨puBts, _, hpu, by
    rw [CommitInfo.marshalBinary, hvbs]
    simp only [bind, Except.bind, writeEntry_of_ok hpu, hvalbs]
    rfl, ?_⟩
  rw [show ci.appHash.toList ++ appendUvarint ci.votes.length ++ vbs.flatten ++
      writeCompactBytes (some puBts) ++ appendUvarint ci.validatorUpdates.length ++
      valbs.flatten = ci.appHash.toList ++ (appendUvarint ci.votes.length ++ vbs.flatten ++
      (writeCompactBytes (some puBts) ++
        (appendUvarint ci.validatorUpdates.length ++ valbs.flatten ++ []))) by simp,
    CommitInfo.readFrom, Reader.bind_of_ok (Reader.wrap_of_ok (readHash_append _ _) _),
    Reader.bind_of_ok (readCounted_flatten hvotes (by have := hfits.votesLength; omega) _)]
  -- the updates' own bytes decide
  cases hun : ParamUpdates.unmarshalBinary unmarshalPublicKey puBts with
  | error e =>
    rw [Reader.bind_of_error (readEntry_of_unmarshal_error hpulen hun _)]
    simp
  | ok pu =>
    rw [Reader.bind_of_ok (readEntry_of_unmarshal hpulen hun _), Reader.bind_of_ok
      (readCounted_flatten hvals (by have := hfits.validatorsLength; omega) _)]
    rfl

/-- **Commit information reads back**, its updates as the same map, when no update sets the
migration status to the empty string. -/
theorem CommitInfo.roundTrip_of_fits (hfits : ci.Fits)
    (hkey : ∀ k, ci.paramUpdates.lookup paramNameLeader = some (.publicKey k) →
      unmarshalPublicKey k.bytes k.keyType = .ok k)
    (hms : ci.paramUpdates.lookup paramNameMigrationStatus ≠ some emptyStatus) :
    ∃ bts ci', ci.marshalBinary = .ok bts ∧
      CommitInfo.unmarshalBinary unmarshalPublicKey bts = .ok ci' ∧
      ci'.appHash = ci.appHash ∧ ci'.votes = ci.votes ∧
      (∀ k, ci'.paramUpdates.lookup k = ci.paramUpdates.lookup k) ∧
      ci'.validatorUpdates = ci.validatorUpdates := by
  obtain ⟨puBts, bts, hpu, hbts, hread⟩ := ci.readFrom_marshalBinary unmarshalPublicKey hfits
  obtain ⟨puBts', pu', hpu', hun, hlookup⟩ :=
    ParamUpdates.roundTrip_of_fits unmarshalPublicKey hfits.paramUpdates hkey hms
  rw [hpu] at hpu'
  cases hpu'
  rw [hun] at hread
  exact ⟨bts, _, hbts, Reader.run'_of_ok hread, rfl, rfl, hlookup, rfl⟩

/-- **An empty migration status breaks the round trip.** For commit information whose parts fit
and whose updates set the migration status to the empty string, `MarshalBinary` succeeds and
`UnmarshalBinary` of its bytes fails: the status is the last update written, and the read of
its empty value at the end of the updates' bytes is `EOF`. -/
theorem CommitInfo.unmarshalBinary_fails_of_empty_status (hfits : ci.Fits)
    (hkey : ∀ k, ci.paramUpdates.lookup paramNameLeader = some (.publicKey k) →
      unmarshalPublicKey k.bytes k.keyType = .ok k)
    (hms : ci.paramUpdates.lookup paramNameMigrationStatus = some emptyStatus) :
    ∃ bts, ci.marshalBinary = .ok bts ∧
      CommitInfo.unmarshalBinary unmarshalPublicKey bts =
        .error "failed to unmarshal param updates: EOF" := by
  obtain ⟨puBts, bts, hpu, hbts, hread⟩ := ci.readFrom_marshalBinary unmarshalPublicKey hfits
  obtain ⟨puBts', hpu', hun⟩ :=
    ParamUpdates.unmarshalBinary_eof_of_empty_status unmarshalPublicKey
      hfits.paramUpdates hkey hms
  rw [hpu] at hpu'
  cases hpu'
  rw [hun] at hread
  exact ⟨bts, hbts, Reader.run'_of_error hread⟩

/-- No votes, no validators, and one update, which sets the migration status to the empty
string. -/
theorem unmarshalBinary_fails_of_empty_status_example :
    let ci : CommitInfo ParamUpdates :=
      ⟨Vector.replicate 32 0, [], AList.singleton paramNameMigrationStatus emptyStatus, []⟩
    ∃ bts, ci.marshalBinary = .ok bts ∧
      CommitInfo.unmarshalBinary (fun _ _ => .error "invalid key") bts =
        .error "failed to unmarshal param updates: EOF" := by
  intro ci
  have hfits : ci.Fits := by
    refine ⟨by simp [ci], fun e he => ?_, by simp [ci], by simp [ci], by simp [ci]⟩
    obtain rfl : e = ⟨paramNameMigrationStatus, emptyStatus⟩ := by simpa [ci] using he
    exact ⟨rfl, by decide⟩
  have hleader : ci.paramUpdates.lookup paramNameLeader = none := by decide
  exact CommitInfo.unmarshalBinary_fails_of_empty_status _ hfits
    (fun k hk => by rw [hleader] at hk; cases hk) (by decide)

end RoundTrip

end KwilDb.Core
