import KwilDb.Consensus.Leader
import KwilDb.Types.Payloads

/-!
# Blocks and `validateBlock`

`ktypes.Block` and its header, the last commit a node builds on, and the checks a node makes on
a block before it executes it (`consensus/block.go`): the version; that the block extends the
last commit in height, previous hash and previous app hash; the transaction count and Merkle
root; the validator set's and the network parameters' hashes; and the transaction limits, the
block's `TxnsSize` and the vote count of each validator vote transaction. A transaction without a
body makes the vote-count loop panic.

`validateBlock_eq_ok` states the checks as one conjunction, `validateBlock_extends` keeps the
three that link a block to the last commit, and `validateBlock_newBlock` says that the block the
leader builds on its last commit passes all but the transaction limits by construction.

Header hashing, the Merkle root, `sha256`, the network parameters and the block processor's
`ExecuteBlock` are outside the consensus package; the model takes them as a `Chain`.
-/

namespace KwilDb.Consensus

open KwilDb.Lib KwilDb.Core

/-- `ktypes.BlockVersion`. -/
def blockVersion : UInt16 := 0

/-- `ktypes.BlockHeader`, with the timestamp in Unix milliseconds. `NewLeader` is left out:
leader changes are not modelled. -/
structure BlockHeader where
  version : UInt16
  height : ℤ
  numTxns : UInt32
  prevHash : Hash
  prevAppHash : Hash
  timestamp : ℤ
  merkleRoot : Hash
  validatorSetHash : Hash
  networkParamsHash : Hash
deriving DecidableEq, Repr

/-- `ktypes.Block`: the header, the transactions and the producer's signature. -/
structure Block where
  header : BlockHeader
  txns : List Types.Transaction
  signature : Bytes
deriving DecidableEq, Repr

/-- What the consensus engine calls outside its package. -/
structure Chain (P : Type) where
  /-- `BlockHeader.Hash`. -/
  headerHash : BlockHeader → Hash
  /-- `Block.CalcMerkleRoot`, over the transactions' hashes. -/
  merkleRoot : List Types.Transaction → Hash
  /-- `sha256`, which digests the validator set. -/
  sha256 : Bytes → Hash
  /-- `ConsensusParams().Hash()`. -/
  paramsHash : Hash
  /-- `ConsensusParams().MaxBlockSize`. -/
  maxBlockSize : ℕ
  /-- `ConsensusParams().MaxVotesPerTx`. -/
  maxVotesPerTx : ℤ
  /-- `blockProcessor.ExecuteBlock`, on the state that the given app hash commits to. -/
  execute : Hash → Block → BlockResult P
  /-- `ktypes.ValidateUpdates`. -/
  validateUpdates : P → Except String Unit

/-- `lastCommit`: the height, hash and app hash of the node's last committed block. -/
structure LastCommit where
  height : ℤ
  blkHash : Hash
  appHash : Hash
deriving DecidableEq, Repr

/-- `Hash.String`. -/
def hashString (h : Hash) : String := hexEncode h.toList

section Validate

variable {P : Type} (C : Chain P) (V : ValidatorSet)

/-- `Block.TxnsSize`: the sum of the transactions' `SerializeSize`. -/
def txnsSize (txns : List Types.Transaction) : ℕ := (txns.map Types.Transaction.serializeSize).sum

/-- One turn of `validateBlock`'s loop over the transactions: a validator vote transaction may
carry at most `MaxVotesPerTx` event bodies or resolution IDs. Reading the payload type of a
transaction without a body panics. -/
def checkVoteCount (maxVotesPerTx : ℤ) (txn : Types.Transaction) : Except Failure Unit :=
  match txn.body with
  | none => .error nilDereference
  | some body =>
    if body.payloadType = goBytes "validator_vote_bodies" then
      match Types.ValidatorVoteBodies.unmarshalBinary body.payload with
      | .error e => .error (.error ("failed to unmarshal validator vote body: " ++ e))
      | .ok vote =>
        if maxVotesPerTx < vote.events.length then
          .error (.error ("max votes exceeded in tx of type " ++ goString body.payloadType ++
            " : " ++ toString vote.events.length ++ " > " ++ toString maxVotesPerTx))
        else .ok ()
    else if body.payloadType = goBytes "validator_vote_ids" then
      match Types.ValidatorVoteIDs.unmarshalBinary body.payload with
      | .error e => .error (.error ("failed to unmarshal validator vote id: " ++ e))
      | .ok vote =>
        if maxVotesPerTx < vote.resolutionIDs.length then
          .error (.error ("max votes exceeded in tx of type " ++ goString body.payloadType ++
            " : " ++ toString vote.resolutionIDs.length ++ " > " ++ toString maxVotesPerTx))
        else .ok ()
    else .ok ()

/-- A vote-body transaction whose payload reads back with at most `MaxVotesPerTx` events passes. -/
lemma checkVoteCount_voteBodies {maxVotesPerTx : ℤ} {txn : Types.Transaction}
    {body : Types.TransactionBody} {vote : Types.ValidatorVoteBodies} (hbody : txn.body = some body)
    (htype : body.payloadType = goBytes "validator_vote_bodies")
    (hvote : Types.ValidatorVoteBodies.unmarshalBinary body.payload = .ok vote)
    (hle : (vote.events.length : ℤ) ≤ maxVotesPerTx) : checkVoteCount maxVotesPerTx txn = .ok () := by
  simp only [checkVoteCount, hbody, htype, if_true, hvote, if_neg (not_lt.mpr hle)]

/-- The last checks of `validateBlock`: the block's size, then each transaction's vote count. -/
def checkTxns (txns : List Types.Transaction) : Except Failure Unit :=
  if C.maxBlockSize < txnsSize txns then
    .error (.error ("block size " ++ toString (txnsSize txns) ++ " exceeds max block size " ++
      toString C.maxBlockSize))
  else txns.forM (checkVoteCount C.maxVotesPerTx)

/-- An empty block is within every limit. -/
lemma checkTxns_nil : checkTxns C [] = .ok () := by
  simp [checkTxns, txnsSize]
  rfl

/-- **`ConsensusEngine.validateBlock`**, against the node's last commit. -/
def validateBlock (lc : LastCommit) (blk : Block) : Except Failure Unit :=
  let hdr := blk.header
  if hdr.version ≠ blockVersion then
    .error (.error ("block version mismatch, expected " ++ toString blockVersion ++ ", got " ++
      toString hdr.version))
  else if lc.height + 1 ≠ hdr.height then
    .error (.error ("block proposal for height " ++ toString hdr.height ++ " does not follow " ++
      toString lc.height))
  else if lc.blkHash ≠ hdr.prevHash then
    .error (.error ("prevBlockHash mismatch, expected " ++ hashString hdr.prevHash ++ ", got " ++
      hashString lc.blkHash))
  else if hdr.prevAppHash ≠ lc.appHash then
    .error (.error ("apphash mismatch, expected " ++ hashString lc.appHash ++ ", got " ++
      hashString hdr.prevAppHash))
  else if hdr.numTxns ≠ UInt32.ofNat blk.txns.length then
    .error (.error ("transaction count mismatch, expected " ++ toString hdr.numTxns ++ ", got " ++
      toString blk.txns.length))
  else if C.merkleRoot blk.txns ≠ hdr.merkleRoot then
    .error (.error ("merkleroot mismatch, expected " ++ hashString (C.merkleRoot blk.txns) ++
      ", got " ++ hashString hdr.merkleRoot))
  else if validatorSetHash C.sha256 V ≠ hdr.validatorSetHash then
    .error (.error ("validator set hash mismatch, expected " ++
      hashString (validatorSetHash C.sha256 V) ++ ", got " ++ hashString hdr.validatorSetHash))
  else if hdr.networkParamsHash ≠ C.paramsHash then
    .error (.error ("network params hash mismatch, expected " ++ hashString C.paramsHash ++
      ", got " ++ hashString hdr.networkParamsHash))
  else checkTxns C blk.txns

/-- **The specification of `validateBlock`.** -/
theorem validateBlock_eq_ok {lc : LastCommit} {blk : Block} :
    validateBlock C V lc blk = .ok () ↔
      blk.header.version = blockVersion ∧ blk.header.height = lc.height + 1 ∧
      blk.header.prevHash = lc.blkHash ∧ blk.header.prevAppHash = lc.appHash ∧
      blk.header.numTxns = UInt32.ofNat blk.txns.length ∧
      blk.header.merkleRoot = C.merkleRoot blk.txns ∧
      blk.header.validatorSetHash = validatorSetHash C.sha256 V ∧
      blk.header.networkParamsHash = C.paramsHash ∧ checkTxns C blk.txns = .ok () := by
  unfold validateBlock
  dsimp only
  split_ifs <;> simp_all [eq_comm]

/-- **A validated block extends the last commit**: it is one higher, and its previous hash and
previous app hash are the last commit's. -/
theorem validateBlock_extends {lc : LastCommit} {blk : Block}
    (h : validateBlock C V lc blk = .ok ()) :
    blk.header.height = lc.height + 1 ∧ blk.header.prevHash = lc.blkHash ∧
      blk.header.prevAppHash = lc.appHash := by
  obtain ⟨-, hh, hp, ha, -⟩ := (validateBlock_eq_ok C V).mp h
  exact ⟨hh, hp, ha⟩

/-- `ktypes.NewBlock` on the last commit, signed by `Block.Sign`: the signature is over the
header's hash. -/
def newBlock (sign : Bytes → Bytes) (lc : LastCommit) (stamp : ℤ) (txns : List Types.Transaction) :
    Block :=
  let hdr : BlockHeader :=
    ⟨blockVersion, lc.height + 1, UInt32.ofNat txns.length, lc.blkHash, lc.appHash, stamp,
      C.merkleRoot txns, validatorSetHash C.sha256 V, C.paramsHash⟩
  ⟨hdr, txns, sign (C.headerHash hdr).toList⟩

/-- **The leader's own block passes the header checks**: only the transaction limits remain. -/
theorem validateBlock_newBlock (sign : Bytes → Bytes) (lc : LastCommit) (stamp : ℤ)
    (txns : List Types.Transaction) :
    validateBlock C V lc (newBlock C V sign lc stamp txns) = checkTxns C txns := by
  simp [validateBlock, newBlock]

end Validate

end KwilDb.Consensus
