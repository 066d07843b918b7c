import KwilDb.Core.Types

/-!
# Votes and commit information

`core/types/commit.go`: the leader's reading of a validator's ack (`AckStatus`), a vote's
signature, `VoteInfo` with its `Verify`, the message `SignVote` signs, and `CommitInfo`, the
votes that justify a committed block.

Public-key decoding and signature checking are `crypto` code over elliptic curves; the model
takes them as a `SigScheme`, the two calls `VoteInfo.Verify` makes. The parameter updates of a
`CommitInfo` are a type parameter: the network-parameter code that validates them is not part
of this model.
-/

namespace KwilDb.Core

open KwilDb.Lib

/-- `types.AckStatus`, a Go `int`; a decoded vote can carry any value. -/
structure AckStatus where
  code : ℤ
deriving DecidableEq, Repr

namespace AckStatus

/-- The validator sent a nack. -/
def reject : AckStatus := ⟨0⟩
/-- The validator acked and computed the leader's app hash. -/
def agree : AckStatus := ⟨1⟩
/-- The validator acked with another app hash. -/
def forked : AckStatus := ⟨2⟩

end AckStatus

/-- `types.Signature`: the signer's key type and public key, and the signature bytes. -/
structure Signature where
  pubKeyType : KeyType
  pubKey : Bytes
  data : Bytes
deriving DecidableEq, Repr

/-- `types.VoteInfo`. -/
structure VoteInfo where
  ackStatus : AckStatus
  appHash : Option Hash
  signature : Signature
deriving DecidableEq, Repr

/-- `types.CommitInfo`, with parameter updates of type `P`. -/
structure CommitInfo (P : Type) where
  appHash : Hash
  votes : List VoteInfo
  paramUpdates : P
  validatorUpdates : List Validator
deriving DecidableEq

/-- The two `crypto` calls of `VoteInfo.Verify`: `crypto.UnmarshalPublicKey` and
`PublicKey.Verify`, both fallible. -/
structure SigScheme (PK : Type) where
  unmarshalPublicKey : Bytes → KeyType → Except String PK
  verify : PK → Bytes → Bytes → Except String Bool

/-! ### The signed message -/

/-- The bytes `SignVote` signs: the block hash, the ack as one byte, and the app hash of an ack. -/
def signVoteMessage (blkID : Hash) (ack : Bool) (appHash : Option Hash) : Except String Bytes :=
  if ack then
    match appHash with
    | none => .error "missing app hash for ack vote"
    | some h => .ok (blkID.toList ++ [1] ++ h.toList)
  else .ok (blkID.toList ++ [0])

/-- **`SignVote`**, with the node's private key given by the three calls it makes on it: `Sign`,
`Public().Bytes()` and `Type()`. -/
def signVote (sign : Bytes → Except String Bytes) (pubKey : Bytes) (kt : KeyType) (blkID : Hash)
    (ack : Bool) (appHash : Option Hash) : Except String Signature := do
  let msg ← signVoteMessage blkID ack appHash
  let sig ← (sign msg).mapError ("failed to sign vote: " ++ ·)
  pure ⟨kt, pubKey, sig⟩

/-- The bytes `VoteInfo.Verify` checks the signature over: an agree vote is read against the
commit's app hash, a forked vote against its own, a reject against none. An unknown status
falls through the Go `switch` and leaves the block hash alone. -/
def VoteInfo.message (v : VoteInfo) (blkID appHash : Hash) : Except String Bytes :=
  if v.ackStatus = .forked then
    match v.appHash with
    | none => .error "missing app hash for diverged vote"
    | some h => .ok (blkID.toList ++ [1] ++ h.toList)
  else if v.ackStatus = .agree then .ok (blkID.toList ++ [1] ++ appHash.toList)
  else if v.ackStatus = .reject then .ok (blkID.toList ++ [0])
  else .ok blkID.toList

section Verify

variable {PK : Type} (S : SigScheme PK)

/-- **`VoteInfo.Verify`**: the signature is checked under the public key the vote carries. -/
def VoteInfo.verify (v : VoteInfo) (blkID appHash : Hash) : Except String Unit := do
  let pubKey ← (S.unmarshalPublicKey v.signature.pubKey v.signature.pubKeyType).mapError
    ("failed to unmarshal public key: " ++ ·)
  let msg ← v.message blkID appHash
  let valid ← (S.verify pubKey msg v.signature.data).mapError ("failed to verify signature: " ++ ·)
  if valid then .ok () else .error "invalid voteInfo signature"

/-- What a successful `Verify` of an agree vote establishes: the key the vote carries decodes,
and the signature checks under it over `(blkID, true, appHash)`, the message `SignVote` signs. -/
theorem VoteInfo.verify_agree {v : VoteInfo} {blkID appHash : Hash} (hs : v.ackStatus = .agree)
    (h : v.verify S blkID appHash = .ok ()) :
    ∃ pk, S.unmarshalPublicKey v.signature.pubKey v.signature.pubKeyType = .ok pk ∧
      signVoteMessage blkID true (some appHash) = .ok (blkID.toList ++ [1] ++ appHash.toList) ∧
      S.verify pk (blkID.toList ++ [1] ++ appHash.toList) v.signature.data = .ok true := by
  have hmsg : v.message blkID appHash = .ok (blkID.toList ++ [1] ++ appHash.toList) := by
    simp [VoteInfo.message, hs, AckStatus.agree, AckStatus.forked]
  simp only [VoteInfo.verify, bind_eq_ok, mapError_eq_ok] at h
  obtain ⟨pk, hpk, msg, hm, valid, hv, hok⟩ := h
  rw [hmsg] at hm
  cases hm
  cases valid with
  | false => simp at hok
  | true => exact ⟨pk, hpk, rfl, hv⟩

/-- **An agree vote signed by its key verifies**, whatever app hash the vote itself carries. -/
lemma VoteInfo.verify_of_signed {key : Bytes} {kt : KeyType} {pk : PK} {sign : Bytes → Bytes}
    (hk : S.unmarshalPublicKey key kt = .ok pk) (hs : ∀ msg, S.verify pk msg (sign msg) = .ok true)
    (a : Option Hash) (blkID appHash : Hash) :
    VoteInfo.verify S ⟨.agree, a, ⟨kt, key, sign (blkID.toList ++ [1] ++ appHash.toList)⟩⟩
      blkID appHash = .ok () := by
  simp [VoteInfo.verify, VoteInfo.message, hk, hs, AckStatus.agree, AckStatus.forked]

end Verify

end KwilDb.Core
