import KwilDb.Types.Block
import KwilDb.Types.Values

/-!
# Transaction payloads

Each payload type of `payloadConcreteTypes` has a binary codec, and `UnmarshalPayload` runs the
decoder of the type a transaction names. Most codecs write a little-endian version first and
read back what they write; the readers ignore what follows the payload. `Payload.Fits` says which
payloads read back as they are (`unmarshalPayload_marshalBinary`): counts below the width they are
written at, lengths that `WriteBytes` can count, no nil pointer and a registered key type.

`ValidatorApprove` and `ValidatorRemove` write their key type with `KeyType.WriteTo` and drop its
error, so for a key type outside the registry `MarshalBinary` succeeds without the key type and
`UnmarshalPayload` fails on the missing bytes (`unmarshalPayload_unregistered_keyType`).
`ValidatorVoteBodies` writes any number of events but reads at most `500000`. A nil pointer in a
payload makes `MarshalBinary` panic, except the two that it checks.
-/

namespace KwilDb.Core

open KwilDb.Lib
open KwilDb.Types (encodingIDs readBytes)

/-! ## Key types and accounts -/

/-- `KeyType.WriteTo`: the encoding flag as four little-endian bytes, or an error and nothing
written for a key type outside the registry. -/
def KeyType.writeTo (kt : KeyType) : Except String Bytes :=
  match keyTypeEncodeFlag kt with
  | some flag => .ok (leBytes 4 flag)
  | none => .error ("invalid key type: " ++ kt.name)

/-- What `WriteTo` leaves in the buffer when its error is dropped. -/
def KeyType.written (kt : KeyType) : Bytes :=
  match kt.writeTo with
  | .ok b => b
  | .error _ => []

/-- `KeyType.ReadFrom`. -/
def KeyType.readFrom : Reader KeyType := do
  let ktInt ← readUint 4
  match encodingIDs ktInt with
  | some kt => pure kt
  | none => throw ("invalid key type encoding flag " ++ toString ktInt)

/-- `AccountID.UnmarshalBinary`, on the `bytes.Reader` over its input. -/
def AccountID.readFrom : Reader AccountID := do
  let version ← Reader.wrap "failed to read version" (readUint 2)
  if version ≠ accountIDVersion then throw ("invalid version: " ++ toString version)
  let ident ← Reader.wrap "failed to read account identifier" (readBytes true)
  let keyEncoding ← Reader.wrap "failed to read key type" (readUint 4)
  match encodingIDs keyEncoding with
  | some kt => pure ⟨ident.getD [], kt⟩
  | none => throw ("failed to parse key type: unknown key type ID: " ++ toString keyEncoding)

/-- `AccountID.UnmarshalBinary`. -/
def AccountID.unmarshalBinary (b : Bytes) : Except String AccountID := AccountID.readFrom.run' b

lemma KeyType.written_of_flag {kt : KeyType} {flag : ℕ} (h : keyTypeEncodeFlag kt = some flag) :
    kt.written = leBytes 4 flag := by
  simp [KeyType.written, KeyType.writeTo, h]

lemma KeyType.written_of_unregistered {kt : KeyType} (h : keyTypeEncodeFlag kt = none) :
    kt.written = [] := by
  simp [KeyType.written, KeyType.writeTo, h]

/-- The flag of a registered key type reads back as the key type. -/
lemma readUint_flag {kt : KeyType} {flag : ℕ} (h : keyTypeEncodeFlag kt = some flag)
    (rest : Bytes) : readUint 4 (leBytes 4 flag ++ rest) = .ok (flag, rest) ∧
      encodingIDs flag = some kt := by
  obtain ⟨hid, hlt⟩ := KwilDb.Types.encodingIDs_of_flag h
  refine ⟨?_, hid⟩
  rw [readUint_leBytes, Nat.mod_eq_of_lt (by omega)]

lemma KeyType.readFrom_written {kt : KeyType} {flag : ℕ} (h : keyTypeEncodeFlag kt = some flag)
    (rest : Bytes) : KeyType.readFrom (kt.written ++ rest) = .ok (kt, rest) := by
  obtain ⟨hread, hid⟩ := readUint_flag h rest
  rw [KeyType.written_of_flag h, KeyType.readFrom, Reader.bind_of_ok hread, hid]
  rfl

/-- With nothing left, `ReadFrom` fails as `binary.Read` does: `EOF`. -/
lemma KeyType.readFrom_nil : KeyType.readFrom [] = .error Reader.eof := rfl

/-- `AccountID.UnmarshalBinary` reads back `MarshalBinary`, whatever follows. -/
theorem AccountID.readFrom_marshalBinary {id : AccountID} {bytes : Bytes}
    (h : id.marshalBinary = .ok bytes) (hid : id.identifier.length < 2 ^ 32 - 1) (rest : Bytes) :
    AccountID.readFrom (bytes ++ rest) = .ok (id, rest) := by
  unfold AccountID.marshalBinary at h
  split at h
  · cases h
  · rename_i flag hflag
    cases h
    obtain ⟨hread, hid'⟩ := readUint_flag hflag rest
    simp only [List.append_assoc, AccountID.readFrom]
    rw [Reader.bind_of_ok (Reader.wrap_of_ok (readUint_leBytes 2 _ _) _),
      if_neg (by simp [accountIDVersion]),
      Reader.bind_of_ok (Reader.wrap_of_ok (readBytes_writeBytes_some hid _) _),
      Reader.bind_of_ok (Reader.wrap_of_ok hread _), hid']
    rfl

end KwilDb.Core

namespace KwilDb.Types

open KwilDb.Lib
open KwilDb.Core (Bytes KeyType keyTypeEncodeFlag AccountID EncodedValue)

/-! ## Resolutions -/

/-- `types.UUID`. -/
abbrev UUID := Vector UInt8 16

/-- `UUID.UnmarshalBinary`. -/
def UUID.unmarshalBinary (b : Bytes) : Except String UUID :=
  if h : b.length = 16 then .ok ⟨b.toArray, by simpa using h⟩ else .error "invalid UUID length"

/-- `types.VotableEvent`; a nil body is `none`. -/
structure VotableEvent where
  type : Bytes
  body : Option Bytes
deriving DecidableEq, Repr

/-- `veVersion`. -/
def veVersion : ℕ := 0

/-- `VotableEvent.MarshalBinary`: the version big-endian, then the type and the body. -/
def VotableEvent.marshalBinary (e : VotableEvent) : Bytes :=
  beBytes 2 veVersion ++ writeString e.type ++ writeBytes e.body

/-- `VotableEvent.UnmarshalBinary`, on the `bytes.Buffer` over its input. -/
def VotableEvent.readFrom : Reader VotableEvent := do
  let versionBytes ← Reader.readFull 2
  let version := beNat versionBytes
  if version ≠ veVersion then throw ("invalid version: " ++ toString version)
  let eType ← readString true
  let eBody ← readBytes true
  pure ⟨eType, eBody⟩

/-- `VotableEvent.UnmarshalBinary`. -/
def VotableEvent.unmarshalBinary (b : Bytes) : Except String VotableEvent :=
  VotableEvent.readFrom.run' b

/-! ## Payloads -/

/-- `types.Transfer`; a nil recipient or amount is `none`. -/
structure Transfer where
  to' : Option AccountID
  amount : Option ℤ
deriving DecidableEq, Repr

/-- `tVersion`. -/
def tVersion : ℕ := 0

/-- `Transfer.MarshalBinary`. -/
def Transfer.marshalBinary (v : Transfer) : Except Failure Bytes :=
  match v.to' with
  | none => .error (.error "missing To field in transfer")
  | some toID =>
    match toID.marshalBinary with
    | .error e => .error (.error e)
    | .ok toBts => .ok (leBytes 2 tVersion ++ writeBytes (some toBts) ++ writeBigInt v.amount)

/-- `Transfer.UnmarshalBinary`, on the `bytes.Reader` over its input. -/
def Transfer.readFrom : Reader Transfer := do
  let version ← readUint 2
  if version ≠ tVersion then throw ("unsupported transfer payload version " ++ toString version)
  let toBts ← readBytes true
  let toID ← monadLift (AccountID.unmarshalBinary (toBts.getD []))
  let amount ← readBigInt true
  pure ⟨some toID, amount⟩

/-- `Transfer.UnmarshalBinary`. -/
def Transfer.unmarshalBinary (b : Bytes) : Except String Transfer := Transfer.readFrom.run' b

/-- `types.ValidatorJoin`. -/
structure ValidatorJoin where
  power : UInt64
deriving DecidableEq, Repr

/-- `vjVersion`. -/
def vjVersion : ℕ := 0

/-- `ValidatorJoin.MarshalBinary`. -/
def ValidatorJoin.marshalBinary (v : ValidatorJoin) : Bytes :=
  leBytes 2 vjVersion ++ leBytes 8 v.power.toNat

/-- `ValidatorJoin.UnmarshalBinary`: ten bytes at least, the power after the version. -/
def ValidatorJoin.unmarshalBinary (b : Bytes) : Except String ValidatorJoin :=
  if b.length < 2 + 8 then .error ("invalid length " ++ toString b.length)
  else if leNat (b.take 2) ≠ vjVersion then .error ("invalid version " ++ toString (leNat (b.take 2)))
  else .ok ⟨UInt64.ofNat (leNat ((b.drop 2).take 8))⟩

/-- The `MarshalBinary` that `ValidatorApprove` and `ValidatorRemove` share: the version, the
key's bytes, then whatever `KeyType.WriteTo` wrote, its error dropped. -/
def keyPayloadBytes (version : ℕ) (key : Option Bytes) (kt : KeyType) : Bytes :=
  leBytes 2 version ++ writeBytes key ++ kt.written

/-- The `UnmarshalBinary` that `ValidatorApprove` and `ValidatorRemove` share. -/
def readKeyPayload (version : ℕ) : Reader (Option Bytes × KeyType) := do
  let v ← readUint 2
  if v ≠ version then throw "invalid validator remove payload version"
  let key ← readBytes true
  let keyType ← KeyType.readFrom
  pure (key, keyType)

/-- `types.ValidatorApprove`. -/
structure ValidatorApprove where
  candidate : Option Bytes
  keyType : KeyType
deriving DecidableEq, Repr

/-- `types.ValidatorRemove`. -/
structure ValidatorRemove where
  validator : Option Bytes
  keyType : KeyType
deriving DecidableEq, Repr

/-- `vaVersion`. -/
def vaVersion : ℕ := 0

/-- `vrVersion`. -/
def vrVersion : ℕ := 0

/-- `ValidatorApprove.MarshalBinary`. -/
def ValidatorApprove.marshalBinary (v : ValidatorApprove) : Bytes :=
  keyPayloadBytes vaVersion v.candidate v.keyType

/-- `ValidatorApprove.UnmarshalBinary`, which checks the version against `vrVersion`. -/
def ValidatorApprove.unmarshalBinary (b : Bytes) : Except String ValidatorApprove :=
  (readKeyPayload vrVersion).run' b |>.map fun (candidate, keyType) => ⟨candidate, keyType⟩

/-- `ValidatorRemove.MarshalBinary`. -/
def ValidatorRemove.marshalBinary (v : ValidatorRemove) : Bytes :=
  keyPayloadBytes vrVersion v.validator v.keyType

/-- `ValidatorRemove.UnmarshalBinary`. -/
def ValidatorRemove.unmarshalBinary (b : Bytes) : Except String ValidatorRemove :=
  (readKeyPayload vrVersion).run' b |>.map fun (validator, keyType) => ⟨validator, keyType⟩

/-- `vlVersion`. -/
def vlVersion : ℕ := 0

/-- `ValidatorLeave.MarshalBinary`: the version and nothing else. -/
def validatorLeaveBytes : Bytes := leBytes 2 vlVersion

/-- `ValidatorLeave.UnmarshalBinary`: exactly the version. -/
def ValidatorLeave.unmarshalBinary (b : Bytes) : Except String Unit :=
  if b.length ≠ 2 then .error "invalid validator leave payload"
  else if leNat b ≠ vlVersion then .error "invalid validator leave payload version"
  else .ok ()

/-- `types.ValidatorVoteIDs`; a nil ID is `none`. -/
structure ValidatorVoteIDs where
  resolutionIDs : List (Option UUID)
deriving DecidableEq, Repr

/-- `vvidVersion`. -/
def vvidVersion : ℕ := 0

/-- One ID of `ValidatorVoteIDs.MarshalBinary`'s loop; `MarshalBinary` of a nil ID panics. -/
def idEntry : Option UUID → Except Failure Bytes
  | some u => .ok (writeBytes (some u.toList))
  | none => .error nilDereference

/-- `ValidatorVoteIDs.MarshalBinary`. The number of IDs is written as a `uint32`. -/
def ValidatorVoteIDs.marshalBinary (v : ValidatorVoteIDs) : Except Failure Bytes := do
  let encs ← v.resolutionIDs.mapM idEntry
  pure (leBytes 2 vvidVersion ++ leBytes 4 v.resolutionIDs.length ++ encs.flatten)

/-- One ID of `ValidatorVoteIDs.UnmarshalBinary`'s loop. -/
def readID : Reader (Option UUID) := do
  let idBts ← readBytes true
  let id ← monadLift (UUID.unmarshalBinary (idBts.getD []))
  pure (some id)

/-- `ValidatorVoteIDs.UnmarshalBinary`, on the `bytes.Buffer` over its input. -/
def ValidatorVoteIDs.readFrom : Reader ValidatorVoteIDs := do
  let version ← readUint 2
  if version ≠ vvidVersion then throw ("unknown version: " ++ toString version)
  let length ← readUint 4
  let ids ← Reader.readN readID length
  pure ⟨ids⟩

/-- `ValidatorVoteIDs.UnmarshalBinary`. -/
def ValidatorVoteIDs.unmarshalBinary (b : Bytes) : Except String ValidatorVoteIDs :=
  ValidatorVoteIDs.readFrom.run' b

/-- `types.ValidatorVoteBodies`; a nil event is `none`. -/
structure ValidatorVoteBodies where
  events : List (Option VotableEvent)
deriving DecidableEq, Repr

/-- `vvbbVersion`. -/
def vvbbVersion : ℕ := 0

/-- One event of `ValidatorVoteBodies.MarshalBinary`'s loop; a nil event panics. -/
def eventEntry : Option VotableEvent → Except Failure Bytes
  | some e => .ok (writeBytes (some e.marshalBinary))
  | none => .error nilDereference

/-- `ValidatorVoteBodies.MarshalBinary`. The number of events is written as a `uint32`. -/
def ValidatorVoteBodies.marshalBinary (v : ValidatorVoteBodies) : Except Failure Bytes := do
  let encs ← v.events.mapM eventEntry
  pure (leBytes 2 vvbbVersion ++ leBytes 4 v.events.length ++ encs.flatten)

/-- One event of `ValidatorVoteBodies.UnmarshalBinary`'s loop. -/
def readEvent : Reader (Option VotableEvent) := do
  let evtBts ← readBytes true
  let event ← monadLift (VotableEvent.unmarshalBinary (evtBts.getD []))
  pure (some event)

/-- `ValidatorVoteBodies.UnmarshalBinary`, on the `bytes.Buffer` over its input: at most
`500000` events, and no more than bytes left. -/
def ValidatorVoteBodies.readFrom : Reader ValidatorVoteBodies := do
  let version ← readUint 2
  if version ≠ vvbbVersion then throw ("unknown version: " ++ toString version)
  let numEvents ← readUint 4
  let rl ← Reader.len
  if numEvents > min 500000 rl then throw ("invalid event count: " ++ toString numEvents)
  let events ← Reader.readN readEvent numEvents
  pure ⟨events⟩

/-- `ValidatorVoteBodies.UnmarshalBinary`. -/
def ValidatorVoteBodies.unmarshalBinary (b : Bytes) : Except String ValidatorVoteBodies :=
  ValidatorVoteBodies.readFrom.run' b

/-- `types.CreateResolution`; a nil resolution is `none`. -/
structure CreateResolution where
  resolution : Option VotableEvent
deriving DecidableEq, Repr

/-- `crVersion`. -/
def crVersion : ℕ := 0

/-- `CreateResolution.MarshalBinary`: the version, then the event's bytes with no length. A nil
resolution panics. -/
def CreateResolution.marshalBinary (v : CreateResolution) : Except Failure Bytes :=
  match v.resolution with
  | some e => .ok (leBytes 2 crVersion ++ e.marshalBinary)
  | none => .error nilDereference

/-- `CreateResolution.UnmarshalBinary`. -/
def CreateResolution.unmarshalBinary (bts : Bytes) : Except String CreateResolution :=
  if bts.length ≤ 2 then .error "invalid payload"
  else if leNat (bts.take 2) ≠ crVersion then
    .error ("unknown version: " ++ toString (leNat (bts.take 2)))
  else (VotableEvent.unmarshalBinary (bts.drop 2)).map fun e => ⟨some e⟩

/-- `types.ApproveResolution`; a nil ID is `none`. -/
structure ApproveResolution where
  resolutionID : Option UUID
deriving DecidableEq, Repr

/-- `arVersion`. -/
def arVersion : ℕ := 0

/-- `ApproveResolution.MarshalBinary`, which refuses a nil ID. -/
def ApproveResolution.marshalBinary (v : ApproveResolution) : Except Failure Bytes :=
  match v.resolutionID with
  | some u => .ok (leBytes 2 arVersion ++ u.toList)
  | none => .error (.error "resolution ID is nil")

/-- `ApproveResolution.UnmarshalBinary`: the ID must be all that follows the version. -/
def ApproveResolution.unmarshalBinary (bts : Bytes) : Except String ApproveResolution :=
  if bts.length ≤ 2 then .error "invalid payload"
  else if leNat (bts.take 2) ≠ arVersion then
    .error ("unknown version: " ++ toString (leNat (bts.take 2)))
  else (UUID.unmarshalBinary (bts.drop 2)).map fun u => ⟨some u⟩

/-! ## Reading payloads back -/

lemma UUID.unmarshalBinary_toList (u : UUID) : UUID.unmarshalBinary u.toList = .ok u := by
  rw [UUID.unmarshalBinary, dif_pos (by simp)]
  rfl

/-- What an event needs to read back: lengths that `WriteBytes` can count. -/
structure VotableEvent.Fits (e : VotableEvent) : Prop where
  type : e.type.length < 2 ^ 32 - 1
  body : ∀ d, e.body = some d → d.length < 2 ^ 32 - 1

theorem VotableEvent.readFrom_marshalBinary {e : VotableEvent} (he : e.Fits) (rest : Bytes) :
    VotableEvent.readFrom (e.marshalBinary ++ rest) = .ok (e, rest) := by
  have hver := Reader.readFull_append (beBytes 2 veVersion)
    (writeString e.type ++ (writeBytes e.body ++ rest))
  rw [length_beBytes] at hver
  rw [VotableEvent.marshalBinary, VotableEvent.readFrom]
  simp only [List.append_assoc]
  rw [Reader.bind_of_ok hver, if_neg (by rw [beNat_beBytes]; simp [veVersion]),
    Reader.bind_of_ok (readString_writeString true e.type _ he.type),
    Reader.bind_of_ok (readBytes_writeBytes true e.body rest he.body)]
  rfl

lemma VotableEvent.unmarshal_marshalBinary {e : VotableEvent} (he : e.Fits) :
    VotableEvent.unmarshalBinary e.marshalBinary = .ok e :=
  Reader.run'_of_readBack (VotableEvent.readFrom_marshalBinary he)

/-- A key payload reads back when its key type is in the registry. -/
lemma readKeyPayload_keyPayloadBytes {version : ℕ} (hv : version < 2 ^ 16) {key : Option Bytes}
    {kt : KeyType} {flag : ℕ} (hkt : keyTypeEncodeFlag kt = some flag)
    (hkey : ∀ d, key = some d → d.length < 2 ^ 32 - 1) (rest : Bytes) :
    readKeyPayload version (keyPayloadBytes version key kt ++ rest) = .ok ((key, kt), rest) := by
  have hver : version % 256 ^ 2 = version := Nat.mod_eq_of_lt (lt_of_lt_of_eq hv (by norm_num))
  rw [keyPayloadBytes, List.append_assoc, List.append_assoc, readKeyPayload,
    Reader.bind_of_ok (readUint_leBytes 2 _ _), hver, if_neg (by simp)]
  dsimp only
  rw [Reader.bind_of_ok (readBytes_writeBytes true key _ hkey),
    Reader.bind_of_ok (KeyType.readFrom_written hkt rest)]
  rfl

/-- A key payload whose key type is not in the registry has no key type to read. -/
lemma readKeyPayload_of_unregistered {version : ℕ} (hv : version < 2 ^ 16) {key : Option Bytes}
    {kt : KeyType} (hkt : keyTypeEncodeFlag kt = none)
    (hkey : ∀ d, key = some d → d.length < 2 ^ 32 - 1) :
    readKeyPayload version (keyPayloadBytes version key kt) = .error Reader.eof := by
  have hver : version % 256 ^ 2 = version := Nat.mod_eq_of_lt (lt_of_lt_of_eq hv (by norm_num))
  rw [keyPayloadBytes, KeyType.written_of_unregistered hkt, List.append_nil, readKeyPayload,
    Reader.bind_of_ok (readUint_leBytes 2 _ _), hver, if_neg (by simp)]
  dsimp only
  rw [← List.append_nil (writeBytes key), Reader.bind_of_ok (readBytes_writeBytes true key [] hkey),
    Reader.bind_of_error KeyType.readFrom_nil]

/-- What a transfer needs to read back: a recipient whose key type is registered and whose
encoding `WriteBytes` can count, and an amount that `ReadBigInt` takes. -/
structure Transfer.Fits (v : Transfer) : Prop where
  recipient : ∃ id, v.to' = some id ∧ (keyTypeEncodeFlag id.keyType).isSome ∧
    id.identifier.length + 10 < 2 ^ 32 - 1
  amount : ∀ z, v.amount = some z → (bigIntString z).length < 2 ^ 63

theorem Transfer.unmarshal_marshalBinary {v : Transfer} (hv : v.Fits) :
    ∃ bytes, v.marshalBinary = .ok bytes ∧ Transfer.unmarshalBinary bytes = .ok v := by
  obtain ⟨⟨id, hto, hflag, hid⟩, hamount⟩ := hv
  obtain ⟨flag, hkt⟩ := Option.isSome_iff_exists.mp hflag
  obtain ⟨to', amount⟩ := v
  subst hto
  -- the recipient is written whole, as one length-prefixed slice
  have henc : id.marshalBinary = .ok (leBytes 2 KwilDb.Core.accountIDVersion ++
      KwilDb.Core.writeBytes id.identifier ++ leBytes 4 flag) := by
    simp [KwilDb.Core.AccountID.marshalBinary, hkt]
  have hrecipient := KwilDb.Core.AccountID.readFrom_marshalBinary henc (by omega) []
  rw [List.append_nil] at hrecipient
  have hlen : ∀ d, some (leBytes 2 KwilDb.Core.accountIDVersion ++
      KwilDb.Core.writeBytes id.identifier ++ leBytes 4 flag) = some d → d.length < 2 ^ 32 - 1 := by
    rintro d ⟨⟩
    simp [KwilDb.Core.writeBytes]
    omega
  refine ⟨_, by simp [Transfer.marshalBinary, henc]; rfl, @Reader.run'_of_ok _ _ _ [] _ ?_⟩
  simp only [List.append_assoc] at hrecipient hlen
  rw [Transfer.readFrom, Reader.bind_of_ok (readUint_leBytes 2 _ _),
    if_neg (by simp [tVersion])]
  dsimp only
  rw [Reader.bind_of_ok (readBytes_writeBytes true _ _ hlen),
    Option.getD_some, Reader.bind_of_ok (Reader.lift_of_ok
      (show AccountID.unmarshalBinary _ = _ from Reader.run'_of_ok hrecipient) _),
    ← List.append_nil (writeBigInt amount),
    Reader.bind_of_ok (readBigInt_writeBigInt true amount [] hamount)]
  rfl

lemma ValidatorJoin.unmarshal_marshalBinary (v : ValidatorJoin) :
    ValidatorJoin.unmarshalBinary v.marshalBinary = .ok v := by
  have htake : v.marshalBinary.take 2 = leBytes 2 vjVersion :=
    List.take_left' (length_leBytes 2 _)
  have hdrop : (v.marshalBinary.drop 2).take 8 = leBytes 8 v.power.toNat := by
    rw [ValidatorJoin.marshalBinary, List.drop_left' (length_leBytes 2 _),
      List.take_of_length_le (by simp)]
  rw [ValidatorJoin.unmarshalBinary, if_neg (by simp [ValidatorJoin.marshalBinary]), htake,
    if_neg (by rw [leNat_leBytes]; simp [vjVersion]), hdrop, leNat_leBytes,
    Nat.mod_eq_of_lt (lt_of_lt_of_eq v.power.toNat_lt (by norm_num)), UInt64.ofNat_toNat]

lemma ValidatorLeave.unmarshal_validatorLeaveBytes :
    ValidatorLeave.unmarshalBinary validatorLeaveBytes = .ok () := rfl

lemma run_readKeyPayload {key : Option Bytes} {kt : KeyType}
    (hkt : (keyTypeEncodeFlag kt).isSome) (hkey : ∀ d, key = some d → d.length < 2 ^ 32 - 1) :
    (readKeyPayload vrVersion).run' (keyPayloadBytes vrVersion key kt) = .ok (key, kt) := by
  obtain ⟨flag, hflag⟩ := Option.isSome_iff_exists.mp hkt
  exact Reader.run'_of_readBack (readKeyPayload_keyPayloadBytes (by decide) hflag hkey)

lemma ValidatorRemove.unmarshal_marshalBinary {v : ValidatorRemove}
    (hkt : (keyTypeEncodeFlag v.keyType).isSome)
    (hkey : ∀ d, v.validator = some d → d.length < 2 ^ 32 - 1) :
    ValidatorRemove.unmarshalBinary v.marshalBinary = .ok v := by
  rw [ValidatorRemove.unmarshalBinary, ValidatorRemove.marshalBinary, run_readKeyPayload hkt hkey]
  rfl

lemma ValidatorApprove.unmarshal_marshalBinary {v : ValidatorApprove}
    (hkt : (keyTypeEncodeFlag v.keyType).isSome)
    (hkey : ∀ d, v.candidate = some d → d.length < 2 ^ 32 - 1) :
    ValidatorApprove.unmarshalBinary v.marshalBinary = .ok v := by
  -- written with `vaVersion` and read with `vrVersion`, which agree
  rw [ValidatorApprove.unmarshalBinary, ValidatorApprove.marshalBinary,
    show vaVersion = vrVersion from rfl, run_readKeyPayload hkt hkey]
  rfl

lemma readID_writeBytes (u : UUID) (rest : Bytes) :
    readID (writeBytes (some u.toList) ++ rest) = .ok (some u, rest) := by
  rw [readID, Reader.bind_of_ok (readBytes_writeBytes true (some u.toList) rest
      (by rintro _ ⟨⟩; simp)), Option.getD_some,
    Reader.bind_of_ok (Reader.lift_of_ok (UUID.unmarshalBinary_toList u) _)]
  rfl

/-- `ValidatorVoteIDs` reads back the first `n % 2^32` of `n` IDs, all of them below `2^32`. -/
theorem ValidatorVoteIDs.unmarshal_marshalBinary (ids : List UUID) :
    ∃ bytes, (⟨ids.map some⟩ : ValidatorVoteIDs).marshalBinary = .ok bytes ∧
      ValidatorVoteIDs.unmarshalBinary bytes = .ok ⟨(ids.take (ids.length % 2 ^ 32)).map some⟩ := by
  let enc : UUID → Bytes := fun u => writeBytes (some u.toList)
  have hmap : (ids.map some).mapM idEntry = .ok (ids.map enc) := mapM_map_eq_ok ids fun _ _ => rfl
  have hloop := Reader.readN_flatMap_take readID enc some ids (fun u _ rest => readID_writeBytes u rest)
    [] (ids.length % 2 ^ 32) (Nat.mod_le _ _)
  refine ⟨_, by rw [ValidatorVoteIDs.marshalBinary, hmap]; rfl,
    @Reader.run'_of_ok _ _ _ ((ids.drop (ids.length % 2 ^ 32)).flatMap enc ++ []) _ ?_⟩
  rw [List.length_map, ← List.flatMap_def, ValidatorVoteIDs.readFrom, List.append_assoc,
    ← List.append_nil (ids.flatMap enc), Reader.bind_of_ok (readUint_leBytes 2 _ _),
    if_neg (by simp [vvidVersion])]
  dsimp only
  rw [Reader.bind_of_ok (readUint_leBytes 4 _ _), show (256 : ℕ) ^ 4 = 2 ^ 32 by norm_num,
    Reader.bind_of_ok hloop]
  rfl

lemma readEvent_writeBytes {e : VotableEvent} (he : e.Fits)
    (hlen : e.marshalBinary.length < 2 ^ 32 - 1) (rest : Bytes) :
    readEvent (writeBytes (some e.marshalBinary) ++ rest) = .ok (some e, rest) := by
  rw [readEvent, Reader.bind_of_ok (readBytes_writeBytes true _ rest (by rintro _ ⟨⟩; exact hlen)),
    Option.getD_some, Reader.bind_of_ok (Reader.lift_of_ok (VotableEvent.unmarshal_marshalBinary he) _)]
  rfl

/-- `ValidatorVoteBodies` reads back its events when the count it writes is at most `500000`, and
refuses a larger count: its check against the bytes left never fires on its own output, as every
event takes four bytes at least. -/
theorem ValidatorVoteBodies.unmarshal_marshalBinary (evs : List VotableEvent)
    (hevs : ∀ e ∈ evs, e.Fits ∧ e.marshalBinary.length < 2 ^ 32 - 1) :
    ∃ bytes, (⟨evs.map some⟩ : ValidatorVoteBodies).marshalBinary = .ok bytes ∧
      ValidatorVoteBodies.unmarshalBinary bytes =
        if 500000 < evs.length % 2 ^ 32 then
          .error ("invalid event count: " ++ toString (evs.length % 2 ^ 32))
        else .ok ⟨(evs.take (evs.length % 2 ^ 32)).map some⟩ := by
  let enc : VotableEvent → Bytes := fun e => writeBytes (some e.marshalBinary)
  have hmap : (evs.map some).mapM eventEntry = .ok (evs.map enc) :=
    mapM_map_eq_ok evs fun _ _ => rfl
  have hloop := Reader.readN_flatMap_take readEvent enc some evs
    (fun e he rest => readEvent_writeBytes (hevs e he).1 (hevs e he).2 rest) []
    (evs.length % 2 ^ 32) (Nat.mod_le _ _)
  have hleft : evs.length ≤ (evs.flatMap enc ++ []).length := by
    rw [List.append_nil, List.length_flatMap]
    refine le_of_eq_of_le (List.length_map _).symm (List.length_le_sum_of_one_le _ ?_)
    simp only [List.mem_map, forall_exists_index, and_imp, forall_apply_eq_imp_iff₂]
    intro e _
    simp only [enc, writeBytes, List.length_append, length_leBytes]
    omega
  have hread : ValidatorVoteBodies.readFrom
      (leBytes 2 vvbbVersion ++ (leBytes 4 evs.length ++ (evs.flatMap enc ++ []))) =
      if 500000 < evs.length % 2 ^ 32 then
        .error ("invalid event count: " ++ toString (evs.length % 2 ^ 32))
      else .ok (⟨(evs.take (evs.length % 2 ^ 32)).map some⟩,
        (evs.drop (evs.length % 2 ^ 32)).flatMap enc ++ []) := by
    rw [ValidatorVoteBodies.readFrom, Reader.bind_of_ok (readUint_leBytes 2 _ _),
      if_neg (by simp [vvbbVersion])]
    dsimp only
    rw [Reader.bind_of_ok (readUint_leBytes 4 _ _), show (256 : ℕ) ^ 4 = 2 ^ 32 by norm_num,
      Reader.bind_of_ok (Reader.len_apply _)]
    have hmod : evs.length % 2 ^ 32 ≤ evs.length := Nat.mod_le _ _
    -- the count is below what is left, so only the bound of `500000` can refuse it
    split_ifs with hbig hcheck hcheck
    · rfl
    · omega
    · omega
    · rw [Reader.bind_of_ok hloop]
      rfl
  refine ⟨_, by rw [ValidatorVoteBodies.marshalBinary, hmap]; rfl, ?_⟩
  rw [ValidatorVoteBodies.unmarshalBinary, List.length_map, ← List.flatMap_def, List.append_assoc,
    ← List.append_nil (evs.flatMap enc)]
  split_ifs at hread ⊢
  · exact Reader.run'_of_error hread
  · exact Reader.run'_of_ok hread

lemma CreateResolution.unmarshal_marshalBinary {e : VotableEvent} (he : e.Fits) :
    ∃ bytes, (⟨some e⟩ : CreateResolution).marshalBinary = .ok bytes ∧
      CreateResolution.unmarshalBinary bytes = .ok ⟨some e⟩ := by
  refine ⟨_, rfl, ?_⟩
  rw [CreateResolution.unmarshalBinary, if_neg (by simp [VotableEvent.marshalBinary]),
    List.take_left' (length_leBytes 2 _), if_neg (by rw [leNat_leBytes]; simp [crVersion]),
    List.drop_left' (length_leBytes 2 _), VotableEvent.unmarshal_marshalBinary he]
  rfl

lemma ApproveResolution.unmarshal_marshalBinary (u : UUID) :
    ∃ bytes, (⟨some u⟩ : ApproveResolution).marshalBinary = .ok bytes ∧
      ApproveResolution.unmarshalBinary bytes = .ok ⟨some u⟩ := by
  refine ⟨_, rfl, ?_⟩
  rw [ApproveResolution.unmarshalBinary, if_neg (by simp),
    List.take_left' (length_leBytes 2 _), if_neg (by rw [leNat_leBytes]; simp [arVersion]),
    List.drop_left' (length_leBytes 2 _), UUID.unmarshalBinary_toList]
  rfl

/-- Vote IDs that read back as they are: fewer than `2^32`, none of them nil. -/
structure ValidatorVoteIDs.Fits (v : ValidatorVoteIDs) : Prop where
  count : v.resolutionIDs.length < 2 ^ 32
  ids : ∀ u ∈ v.resolutionIDs, u.isSome

lemma ValidatorVoteIDs.unmarshal_of_fits {v : ValidatorVoteIDs} (hv : v.Fits) :
    ∃ bytes, v.marshalBinary = .ok bytes ∧ ValidatorVoteIDs.unmarshalBinary bytes = .ok v := by
  obtain ⟨ids, hids, -⟩ := @exists_eq_map_of_forall_mem _ _ some (fun _ => True) v.resolutionIDs
    fun u hu => (Option.isSome_iff_exists.mp (hv.ids u hu)).imp fun _ hw => ⟨hw, trivial⟩
  have hcount : ids.length % 2 ^ 32 = ids.length :=
    Nat.mod_eq_of_lt (by simpa [hids] using hv.count)
  obtain ⟨bytes, henc, hdec⟩ := ValidatorVoteIDs.unmarshal_marshalBinary ids
  rw [hcount, List.take_length, ← hids] at hdec
  rw [← hids] at henc
  exact ⟨bytes, henc, hdec⟩

/-- Vote bodies that read back as they are: at most `500000` events, none of them nil, each of
them fitting and with an encoding that `WriteBytes` can count. -/
structure ValidatorVoteBodies.Fits (v : ValidatorVoteBodies) : Prop where
  count : v.events.length ≤ 500000
  events : ∀ e ∈ v.events, ∃ w, e = some w ∧ (w.Fits ∧ w.marshalBinary.length < 2 ^ 32 - 1)

lemma ValidatorVoteBodies.unmarshal_of_fits {v : ValidatorVoteBodies} (hv : v.Fits) :
    ∃ bytes, v.marshalBinary = .ok bytes ∧ ValidatorVoteBodies.unmarshalBinary bytes = .ok v := by
  obtain ⟨evs, hevs, hfit⟩ := exists_eq_map_of_forall_mem v.events hv.events
  have hcount : evs.length % 2 ^ 32 = evs.length :=
    Nat.mod_eq_of_lt (by have := hv.count; simp [hevs] at this; omega)
  obtain ⟨bytes, henc, hdec⟩ := ValidatorVoteBodies.unmarshal_marshalBinary evs hfit
  rw [hcount, if_neg (by have := hv.count; simp [hevs] at this; omega), List.take_length,
    ← hevs] at hdec
  rw [← hevs] at henc
  exact ⟨bytes, henc, hdec⟩

/-! ## `UnmarshalPayload` -/

/-- A payload of one of the types in `payloadConcreteTypes`. -/
inductive Payload where
  | rawStatement (p : RawStatement)
  | execute (p : ActionExecution)
  | transfer (p : Transfer)
  | validatorJoin (p : ValidatorJoin)
  | validatorLeave
  | validatorRemove (p : ValidatorRemove)
  | validatorApprove (p : ValidatorApprove)
  | validatorVoteIDs (p : ValidatorVoteIDs)
  | validatorVoteBodies (p : ValidatorVoteBodies)
  | createResolution (p : CreateResolution)
  | approveResolution (p : ApproveResolution)
deriving DecidableEq, Repr

/-- `Payload.Type()`. -/
def Payload.type : Payload → String
  | .rawStatement _ => "raw_statement"
  | .execute _ => "execute"
  | .transfer _ => "transfer"
  | .validatorJoin _ => "validator_join"
  | .validatorLeave => "validator_leave"
  | .validatorRemove _ => "validator_remove"
  | .validatorApprove _ => "validator_approve"
  | .validatorVoteIDs _ => "validator_vote_ids"
  | .validatorVoteBodies _ => "validator_vote_bodies"
  | .createResolution _ => "create_resolution"
  | .approveResolution _ => "approve_resolution"

/-- `Payload.MarshalBinary()`. -/
def Payload.marshalBinary : Payload → Except Failure Bytes
  | .rawStatement p => p.marshalBinary
  | .execute p => p.marshalBinary
  | .transfer p => p.marshalBinary
  | .validatorJoin p => .ok p.marshalBinary
  | .validatorLeave => .ok validatorLeaveBytes
  | .validatorRemove p => .ok p.marshalBinary
  | .validatorApprove p => .ok p.marshalBinary
  | .validatorVoteIDs p => p.marshalBinary
  | .validatorVoteBodies p => p.marshalBinary
  | .createResolution p => p.marshalBinary
  | .approveResolution p => p.marshalBinary

/-- `ErrUnknownPayloadType`. -/
def errUnknownPayloadType : String := "unknown payload type"

/-- `UnmarshalPayload`: the decoder of the type registered for `payloadType` in
`payloadConcreteTypes`. -/
def unmarshalPayload (payloadType : String) (payload : Bytes) : Except String Payload :=
  match payloadType with
  | "raw_statement" => Payload.rawStatement <$> RawStatement.unmarshalBinary payload
  | "execute" => Payload.execute <$> ActionExecution.unmarshalBinary payload
  | "validator_join" => Payload.validatorJoin <$> ValidatorJoin.unmarshalBinary payload
  | "validator_approve" => Payload.validatorApprove <$> ValidatorApprove.unmarshalBinary payload
  | "validator_remove" => Payload.validatorRemove <$> ValidatorRemove.unmarshalBinary payload
  | "validator_leave" => (fun _ => Payload.validatorLeave) <$> ValidatorLeave.unmarshalBinary payload
  | "transfer" => Payload.transfer <$> Transfer.unmarshalBinary payload
  | "validator_vote_ids" => Payload.validatorVoteIDs <$> ValidatorVoteIDs.unmarshalBinary payload
  | "validator_vote_bodies" =>
    Payload.validatorVoteBodies <$> ValidatorVoteBodies.unmarshalBinary payload
  | "create_resolution" => Payload.createResolution <$> CreateResolution.unmarshalBinary payload
  | "approve_resolution" => Payload.approveResolution <$> ApproveResolution.unmarshalBinary payload
  | _ => .error errUnknownPayloadType

/-- What a payload needs to read back as it was written; `MarshalBinary` succeeds on all of these. -/
def Payload.Fits : Payload → Prop
  | .rawStatement p => p.Fits
  | .execute p => p.Fits
  | .transfer p => p.Fits
  | .validatorJoin _ => True
  | .validatorLeave => True
  | .validatorRemove p =>
    (keyTypeEncodeFlag p.keyType).isSome ∧ ∀ d, p.validator = some d → d.length < 2 ^ 32 - 1
  | .validatorApprove p =>
    (keyTypeEncodeFlag p.keyType).isSome ∧ ∀ d, p.candidate = some d → d.length < 2 ^ 32 - 1
  | .validatorVoteIDs p => p.Fits
  | .validatorVoteBodies p => p.Fits
  | .createResolution p => ∃ e, p.resolution = some e ∧ e.Fits
  | .approveResolution p => p.resolutionID.isSome

/-- **Every payload that fits reads back**: `UnmarshalPayload` of the payload's own type returns
it. -/
theorem unmarshalPayload_marshalBinary (p : Payload) (hp : p.Fits) :
    ∃ bytes, p.marshalBinary = .ok bytes ∧ unmarshalPayload p.type bytes = .ok p := by
  -- each type's codec by its own lemma; the dispatch is `rfl`
  cases p with
  | rawStatement r =>
    obtain ⟨bytes, henc, hdec⟩ := RawStatement.unmarshal_of_fits hp
    exact ⟨bytes, henc, show Payload.rawStatement <$> _ = _ by rw [hdec]; rfl⟩
  | execute a =>
    obtain ⟨bytes, henc, hdec⟩ := ActionExecution.unmarshal_of_fits hp
    exact ⟨bytes, henc, show Payload.execute <$> _ = _ by rw [hdec]; rfl⟩
  | transfer t =>
    obtain ⟨bytes, henc, hdec⟩ := Transfer.unmarshal_marshalBinary hp
    exact ⟨bytes, henc, show Payload.transfer <$> _ = _ by rw [hdec]; rfl⟩
  | validatorJoin v =>
    exact ⟨_, rfl, show Payload.validatorJoin <$> _ = _ by
      rw [ValidatorJoin.unmarshal_marshalBinary]; rfl⟩
  | validatorLeave =>
    exact ⟨_, rfl, show (fun _ => Payload.validatorLeave) <$> _ = _ by
      rw [ValidatorLeave.unmarshal_validatorLeaveBytes]; rfl⟩
  | validatorRemove v =>
    exact ⟨_, rfl, show Payload.validatorRemove <$> _ = _ by
      rw [ValidatorRemove.unmarshal_marshalBinary hp.1 hp.2]; rfl⟩
  | validatorApprove v =>
    exact ⟨_, rfl, show Payload.validatorApprove <$> _ = _ by
      rw [ValidatorApprove.unmarshal_marshalBinary hp.1 hp.2]; rfl⟩
  | validatorVoteIDs v =>
    obtain ⟨bytes, henc, hdec⟩ := ValidatorVoteIDs.unmarshal_of_fits hp
    exact ⟨bytes, henc, show Payload.validatorVoteIDs <$> _ = _ by rw [hdec]; rfl⟩
  | validatorVoteBodies v =>
    obtain ⟨bytes, henc, hdec⟩ := ValidatorVoteBodies.unmarshal_of_fits hp
    exact ⟨bytes, henc, show Payload.validatorVoteBodies <$> _ = _ by rw [hdec]; rfl⟩
  | createResolution c =>
    obtain ⟨e, he', he⟩ := hp
    obtain ⟨r⟩ := c
    cases he'
    obtain ⟨bytes, henc, hdec⟩ := CreateResolution.unmarshal_marshalBinary he
    exact ⟨bytes, henc, show Payload.createResolution <$> _ = _ by rw [hdec]; rfl⟩
  | approveResolution a =>
    obtain ⟨u, hu⟩ := Option.isSome_iff_exists.mp hp
    obtain ⟨id⟩ := a
    cases hu
    obtain ⟨bytes, henc, hdec⟩ := ApproveResolution.unmarshal_marshalBinary u
    exact ⟨bytes, henc, show Payload.approveResolution <$> _ = _ by rw [hdec]; rfl⟩

/-- A transfer of 5 to the secp256k1 account `[2]` reads back as itself. -/
theorem unmarshalPayload_transfer_five :
    ∃ bytes, (Payload.transfer ⟨some ⟨[2], .secp256k1⟩, some 5⟩).marshalBinary = .ok bytes ∧
      unmarshalPayload "transfer" bytes = .ok (.transfer ⟨some ⟨[2], .secp256k1⟩, some 5⟩) :=
  unmarshalPayload_marshalBinary _ ⟨⟨_, rfl, by decide, by decide⟩, by rintro z ⟨⟩; decide⟩

/-! ## Payloads that do not read back -/

/-- **A validator key payload whose key type is not in the registry does not read back**:
`MarshalBinary` returns its bytes without the key type and no error, and `UnmarshalPayload` of
the payload's own type fails with `EOF` where the key type should be. -/
theorem unmarshalPayload_unregistered_keyType (key : Option Bytes) (kt : KeyType)
    (hkt : keyTypeEncodeFlag kt = none) (hkey : ∀ d, key = some d → d.length < 2 ^ 32 - 1) :
    (∃ bytes, (Payload.validatorRemove ⟨key, kt⟩).marshalBinary = .ok bytes ∧
      unmarshalPayload (Payload.validatorRemove ⟨key, kt⟩).type bytes = .error Reader.eof) ∧
    (∃ bytes, (Payload.validatorApprove ⟨key, kt⟩).marshalBinary = .ok bytes ∧
      unmarshalPayload (Payload.validatorApprove ⟨key, kt⟩).type bytes = .error Reader.eof) := by
  -- both write with version `0` and read with `vrVersion`, which is `0`
  have hread := Reader.run'_of_error
    (@readKeyPayload_of_unregistered vrVersion (by decide) key kt hkt hkey)
  refine ⟨⟨_, rfl, ?_⟩, ⟨_, rfl, ?_⟩⟩
  · show Payload.validatorRemove <$> ValidatorRemove.unmarshalBinary _ = _
    rw [ValidatorRemove.unmarshalBinary, ValidatorRemove.marshalBinary, hread]
    rfl
  · show Payload.validatorApprove <$> ValidatorApprove.unmarshalBinary _ = _
    rw [ValidatorApprove.unmarshalBinary, ValidatorApprove.marshalBinary,
      show vaVersion = vrVersion from rfl, hread]
    rfl

/-- A `bls` key type, which the registry does not have, and a one-byte key. -/
theorem unmarshalPayload_unregistered_keyType_witness :
    keyTypeEncodeFlag ⟨"bls"⟩ = none ∧ (∀ d : Bytes, some [1] = some d → d.length < 2 ^ 32 - 1) ∧
    ((∃ bytes, (Payload.validatorRemove ⟨some [1], ⟨"bls"⟩⟩).marshalBinary = .ok bytes ∧
      unmarshalPayload (Payload.validatorRemove ⟨some [1], ⟨"bls"⟩⟩).type bytes =
        .error Reader.eof) ∧
    (∃ bytes, (Payload.validatorApprove ⟨some [1], ⟨"bls"⟩⟩).marshalBinary = .ok bytes ∧
      unmarshalPayload (Payload.validatorApprove ⟨some [1], ⟨"bls"⟩⟩).type bytes =
        .error Reader.eof)) := by
  have hkt : keyTypeEncodeFlag ⟨"bls"⟩ = none := by decide
  have hkey : ∀ d : Bytes, some [1] = some d → d.length < 2 ^ 32 - 1 := by
    rintro d ⟨⟩
    decide
  exact ⟨hkt, hkey, unmarshalPayload_unregistered_keyType (some [1]) ⟨"bls"⟩ hkt hkey⟩

end KwilDb.Types
