import KwilDb.BlockProcessor.Prepare
import KwilDb.Consensus.Engine

/-!
# The vote-body transaction and the leader's proposal

`prepareValidatorVoteBodyTx` takes the events without a resolution, at most `MaxVotesPerTx` of
them, each while its estimated size `4 + 4 + len(Type) + len(Body)` fits in the bytes left after
the size of an empty signed vote-body transaction (`emptyVoteBodyTxSize`). The transaction it
signs carries the events as `ValidatorVoteBodies` does, each behind a four-byte length and with
its own version and length fields, so an event takes six bytes more than its estimate. The
leader's block (`createBlockProposal`: `PrepareProposal` on what the mempool gives) can then be
larger than `MaxBlockSize`, and `proposeBlock` rejects its own block
(`leader_block_exceeds_max_block_size`).

Whatever the inputs, the vote-body transaction holds at most `MaxVotesPerTx` events
(`prepareValidatorVoteBodyTx_votes_le`), so when the pending events are written and read back it
passes the vote count of `validateBlock` (`prepareValidatorVoteBodyTx_passes_vote_count`).

`Node` holds what the block processor reads: the network parameters, the signer, the account
reads, the pending events, their IDs and the price of a transaction. `Node.reads` plugs the
vote-body transaction into `prepareBlockTransactions`.
-/

namespace KwilDb.BlockProcessor

open KwilDb.Lib KwilDb.Core KwilDb.Types KwilDb.Consensus

/-- `UUID.String`: the hex form in groups of `8-4-4-4-12` digits. -/
def UUID.string (u : UUID) : String :=
  let b := u.toList
  hexEncode (b.take 4) ++ "-" ++ hexEncode ((b.drop 4).take 2) ++ "-" ++
    hexEncode ((b.drop 6).take 2) ++ "-" ++ hexEncode ((b.drop 8).take 2) ++ "-" ++
    hexEncode (b.drop 10)

/-- `types.PayloadTypeValidatorVoteBodies`. -/
def payloadTypeValidatorVoteBodies : Bytes := goBytes "validator_vote_bodies"

/-- `types.DefaultSignedMsgSerType`, that is `SignedMsgConcat`. -/
def defaultSignedMsgSerType : Bytes := goBytes "concat"

/-- The block processor's `auth.Signer`: `CompactID`, `AuthType`, and `Sign` of a body's
`SerializeMsg`. -/
structure Signer where
  compactID : Bytes
  authType : Bytes
  signBody : TransactionBody → Except String Auth.Signature

/-- What the leader's block processor reads. -/
structure Node where
  maxBlockSize : ℤ
  maxVotesPerTx : ℤ
  disabledGasCosts : Bool
  chainID : Bytes
  signer : Signer
  /-- `types.GetSignerAccount(bp.signer)`. -/
  signerAccount : Except String AccountID
  txSenderAcctID : Transaction → Except Failure AccountID
  /-- `bp.AccountInfo`: the balance and the nonce. -/
  accountInfo : AccountID → Except Failure (ℤ × ℤ)
  /-- `getEvents`: the events without a resolution. -/
  getEvents : Except String (List VotableEvent)
  /-- `VotableEvent.ID`. -/
  eventID : VotableEvent → UUID
  /-- `bp.Price`. -/
  price : Transaction → Except String ℤ

/-- `types.CreateTransaction` of a `ValidatorVoteBodies`: unsigned, with a zero fee. -/
def createVoteBodiesTx (events : List VotableEvent) (chainID : Bytes) (nonce : UInt64) :
    Except Failure Transaction := do
  let data ← (ValidatorVoteBodies.mk (events.map some)).marshalBinary
  pure ⟨none, some ⟨[], data, payloadTypeValidatorVoteBodies, some 0, nonce, chainID⟩,
    defaultSignedMsgSerType, []⟩

/-- `Transaction.Sign`: the body's signature, and the signer's compact ID as the sender. -/
def Signer.sign (sg : Signer) (tx : Transaction) : Except Failure Transaction :=
  match tx.body with
  | none => .error nilDereference
  | some body =>
    match sg.signBody body with
    | .ok sig => .ok { tx with signature := some sig, sender := sg.compactID }
    | .error e => .error (.error e)

section VoteBody

variable (nd : Node)

/-- `emptyVoteBodyTxSize`: the length of the signed vote-body transaction with no events. -/
def emptyVoteBodyTxSize : Except Failure ℤ := do
  let tx ← createVoteBodiesTx [] nd.chainID 0
  let tx ← nd.signer.sign tx
  pure tx.bytes.length

/-- An event's estimated size in `prepareValidatorVoteBodyTx`. -/
def estimatedSize (evt : VotableEvent) : ℤ := 4 + 4 + evt.type.length + (evt.body.getD []).length

/-- The loop over the IDs of `prepareValidatorVoteBodyTx`: each event, from `eventMap`, while its
estimated size fits in what is left. -/
def fitEvents (eventMap : UUID → Option VotableEvent) :
    ℤ → List UUID → Except Failure (List VotableEvent)
  | _, [] => .ok []
  | maxTxSize, id :: ids =>
    match eventMap id with
    | none => .error (.error ("event  " ++ UUID.string id ++ " not found in event map"))
    | some evt =>
      if estimatedSize evt > maxTxSize then .ok []
      else do
        let rest ← fitEvents eventMap (maxTxSize - estimatedSize evt) ids
        pure (⟨evt.type, evt.body⟩ :: rest)

/-- `ids[:MaxVotesPerTx]` when there are more IDs than that; a negative bound panics. -/
def limitIDs (maxVotesPerTx : ℤ) (ids : List UUID) : Except Failure (List UUID) :=
  if (ids.length : ℤ) > maxVotesPerTx then
    if maxVotesPerTx < 0 then .error (.panic "slice bounds out of range")
    else .ok (ids.take maxVotesPerTx.toNat)
  else .ok ids

/-- **`BlockProcessor.prepareValidatorVoteBodyTx`**, from a nonce and the bytes left. The map
from IDs to events keeps the last event of each ID. -/
def prepareValidatorVoteBodyTx (nonce maxTxSize : ℤ) : Except Failure (Option Transaction) := do
  let acctID ← nd.signerAccount.mapError Failure.error
  let (bal, n) ← nd.accountInfo acctID
  let nonce := if nonce = 0 then n else nonce
  let events ← nd.getEvents.mapError Failure.error
  if events = [] then return none
  if !nd.disabledGasCosts ∧ n = 0 ∧ bal = 0 then return none
  let ids ← limitIDs nd.maxVotesPerTx (events.map nd.eventID)
  let emptyTxSz ← emptyVoteBodyTxSize nd
  let eventMap := fun id => events.reverse.find? (nd.eventID · = id)
  let finalEvents ← fitEvents eventMap (maxTxSize - emptyTxSz) ids
  if finalEvents = [] ∧ ids ≠ [] then return none
  let tx ← createVoteBodiesTx finalEvents nd.chainID (UInt64.ofInt nonce + 1)
  let fee ← (nd.price tx).mapError Failure.error
  let tx := { tx with body := tx.body.map fun b => { b with fee := some fee } }
  let tx ← nd.signer.sign tx
  return some tx

/-- The block processor's reads, with its own `prepareValidatorVoteBodyTx`. -/
def Node.reads : Reads :=
  ⟨nd.maxBlockSize, nd.maxVotesPerTx, nd.disabledGasCosts, nd.signer.compactID,
    nd.signer.authType, nd.txSenderAcctID, nd.accountInfo, prepareValidatorVoteBodyTx nd⟩

end VoteBody

/-! ### What the vote-body transaction carries -/

/-- The events `fitEvents` keeps are no more than the IDs, and each is the event of one ID. -/
lemma fitEvents_spec {eventMap : UUID → Option VotableEvent} :
    ∀ (maxTxSize : ℤ) (ids : List UUID) {evs : List VotableEvent},
      fitEvents eventMap maxTxSize ids = .ok evs →
        evs.length ≤ ids.length ∧ ∀ e ∈ evs, ∃ id, eventMap id = some e
  | _, [], _, h => by
    cases h
    simp
  | maxTxSize, id :: ids, evs, h => by
    unfold fitEvents at h
    split at h
    · cases h
    · rename_i evt hevt
      split_ifs at h
      · cases h
        simp
      · rw [bind_eq_ok] at h
        obtain ⟨rest, hrest, h⟩ := h
        cases h
        obtain ⟨hlen, hmem⟩ := fitEvents_spec _ ids hrest
        refine ⟨by simpa using hlen, ?_⟩
        intro e he
        rcases List.mem_cons.mp he with rfl | he
        · exact ⟨id, hevt⟩
        · exact hmem e he

lemma limitIDs_length_le {maxVotesPerTx : ℤ} {ids ids' : List UUID}
    (h : limitIDs maxVotesPerTx ids = .ok ids') : (ids'.length : ℤ) ≤ maxVotesPerTx := by
  unfold limitIDs at h
  split_ifs at h with hmore hneg
  · cases h
    rw [List.length_take]
    have := Int.toNat_of_nonneg (not_lt.mp hneg)
    omega
  · cases h
    omega

lemma Signer.sign_body {sg : Signer} {tx tx' : Transaction} (h : sg.sign tx = .ok tx') :
    tx'.body = tx.body := by
  unfold Signer.sign at h
  split at h
  · cases h
  · split at h
    · cases h
      rfl
    · cases h

lemma createVoteBodiesTx_body {events : List VotableEvent} {chainID : Bytes} {nonce : UInt64}
    {tx : Transaction} (h : createVoteBodiesTx events chainID nonce = .ok tx) :
    ∃ data, (ValidatorVoteBodies.mk (events.map some)).marshalBinary = .ok data ∧
      tx.body = some ⟨[], data, payloadTypeValidatorVoteBodies, some 0, nonce, chainID⟩ := by
  unfold createVoteBodiesTx at h
  rw [bind_eq_ok] at h
  obtain ⟨data, hdata, h⟩ := h
  cases h
  exact ⟨data, hdata, rfl⟩

/-- **The vote-body transaction holds at most `MaxVotesPerTx` events**: its payload is the
`ValidatorVoteBodies` of some of the pending events, which are no more than the IDs taken. -/
theorem prepareValidatorVoteBodyTx_votes_le {nd : Node} {nonce maxTxSize : ℤ} {tx : Transaction}
    (h : prepareValidatorVoteBodyTx nd nonce maxTxSize = .ok (some tx)) :
    ∃ (body : TransactionBody) (events : List VotableEvent), tx.body = some body ∧
      body.payloadType = payloadTypeValidatorVoteBodies ∧
      (ValidatorVoteBodies.mk (events.map some)).marshalBinary = .ok body.payload ∧
      (events.length : ℤ) ≤ nd.maxVotesPerTx ∧
      ∃ pending, nd.getEvents = .ok pending ∧ ∀ e ∈ events, e ∈ pending := by
  unfold prepareValidatorVoteBodyTx at h
  rw [bind_eq_ok] at h
  obtain ⟨acctID, -, h⟩ := h
  rw [bind_eq_ok] at h
  obtain ⟨⟨bal, n⟩, -, h⟩ := h
  dsimp only at h
  rw [bind_eq_ok] at h
  obtain ⟨events, hevents, h⟩ := h
  -- the two early returns give no transaction
  by_cases hnil : events = []
  · rw [if_pos hnil] at h
    cases h
  rw [if_neg hnil] at h
  by_cases hgas : (!nd.disabledGasCosts) = true ∧ n = 0 ∧ bal = 0
  · rw [if_pos hgas] at h
    cases h
  rw [if_neg hgas, bind_eq_ok] at h
  obtain ⟨ids, hids, h⟩ := h
  rw [bind_eq_ok] at h
  obtain ⟨emptyTxSz, -, h⟩ := h
  rw [bind_eq_ok] at h
  obtain ⟨finalEvents, hfit, h⟩ := h
  by_cases hnone : finalEvents = [] ∧ ids ≠ []
  · rw [if_pos hnone] at h
    cases h
  rw [if_neg hnone, bind_eq_ok] at h
  obtain ⟨tx₀, htx₀, h⟩ := h
  rw [bind_eq_ok] at h
  obtain ⟨fee, -, h⟩ := h
  rw [bind_eq_ok] at h
  obtain ⟨tx₁, hsign, h⟩ := h
  cases h
  -- the fee and the signature leave the payload as `CreateTransaction` wrote it
  obtain ⟨data, hdata, hbody⟩ := createVoteBodiesTx_body htx₀
  obtain ⟨hlen, hmem⟩ := fitEvents_spec _ _ hfit
  refine ⟨_, finalEvents, by rw [Signer.sign_body hsign, hbody]; rfl, rfl, hdata,
    (Int.ofNat_le.mpr hlen).trans (limitIDs_length_le hids), events, mapError_eq_ok.mp hevents,
    fun e he => ?_⟩
  -- each event kept is the last pending event of its ID
  obtain ⟨id, hid⟩ := hmem e he
  exact List.mem_reverse.mp (List.mem_of_find?_eq_some hid)

/-- **The leader's vote-body transaction passes `validateBlock`'s vote count.** When every pending
event is written and read back and `MaxVotesPerTx` is within the 500000 events that
`UnmarshalBinary` accepts, the payload of the transaction reads back with at most `MaxVotesPerTx`
events. -/
theorem prepareValidatorVoteBodyTx_passes_vote_count {nd : Node} {nonce maxTxSize : ℤ}
    {tx : Transaction} (h : prepareValidatorVoteBodyTx nd nonce maxTxSize = .ok (some tx))
    (hmax : nd.maxVotesPerTx ≤ 500000)
    (hfits : ∀ pending, nd.getEvents = .ok pending →
      ∀ e ∈ pending, e.Fits ∧ e.marshalBinary.length < 2 ^ 32 - 1) :
    checkVoteCount nd.maxVotesPerTx tx = .ok () := by
  obtain ⟨body, events, hbody, htype, hdata, hle, pending, hpending, hmem⟩ :=
    prepareValidatorVoteBodyTx_votes_le h
  -- the payload is within what `UnmarshalBinary` reads back
  have hv : (ValidatorVoteBodies.mk (events.map some)).Fits := by
    refine ⟨by simp only [List.length_map]; omega, fun e he => ?_⟩
    obtain ⟨w, hw, rfl⟩ := List.mem_map.mp he
    exact ⟨w, rfl, hfits pending hpending w (hmem w hw)⟩
  obtain ⟨bytes, henc, hdec⟩ := ValidatorVoteBodies.unmarshal_of_fits hv
  rw [hdata, Except.ok.injEq] at henc
  subst henc
  exact checkVoteCount_voteBodies hbody htype hdec (by simpa using hle)

/-- **A block over the size limit stops the leader**: `validateBlock` of its own block fails, which
`proposeBlock` takes as fatal. -/
theorem proposeBlock_halts_of_oversize {P : Type} (C : Chain P) (V : ValidatorSet) (me : Identity)
    (n : NodeState P) {txns : List Transaction} (stamp : ℤ) (cancelled : Bool)
    (hsize : C.maxBlockSize < txnsSize txns) :
    (proposeBlock C V me n txns stamp cancelled).1.halted = true := by
  have hcheck : checkTxns C txns = .error (.error ("block size " ++ toString (txnsSize txns) ++
      " exceeds max block size " ++ toString C.maxBlockSize)) := by
    rw [checkTxns, if_pos hsize]
  unfold proposeBlock
  dsimp only
  rw [validateBlock_newBlock, hcheck]

/-! ### A block the leader rejects -/

/-- A leader of the failing input: gas disabled, `MaxVotesPerTx` one, a secp256k1 signer (a
33-byte compact ID, 65-byte signatures) and one pending event with a one-byte type and body.
`MaxBlockSize` is `189`: the `179` bytes of the empty signed vote-body transaction, and the
event's estimate of `10`. -/
def tightNode : Node :=
  ⟨189, 1, true, goBytes "kwil-testnet",
    ⟨List.replicate 33 2, goBytes "secp256k1_ep",
      fun _ => .ok ⟨List.replicate 65 1, goBytes "secp256k1_ep"⟩⟩,
    .ok ⟨List.replicate 33 2, .secp256k1⟩, fun _ => .error (.error "not funded"),
    fun _ => .ok (1, 1), .ok [⟨goBytes "t", some [1]⟩], fun _ => Vector.replicate 16 0,
    fun _ => .ok 0⟩

/-- **The leader's block can exceed `MaxBlockSize`.** With an empty mempool and one pending
event, the event's estimate fits exactly in what the empty vote-body transaction leaves, but the
signed transaction is `196` bytes long (`SerializeSize` `194`), over the `189` allowed; the
leader's `validateBlock` rejects the block, and `proposeBlock` stops the leader. -/
theorem leader_block_exceeds_max_block_size :
    ∃ finalTxs, prepareBlockTransactions tightNode.reads [] [] = .ok (finalTxs, []) ∧
      tightNode.maxBlockSize < txnsSize finalTxs ∧
      ∀ {P : Type} (C : Chain P) (V : ValidatorSet) (me : Identity) (n : NodeState P)
        (stamp : ℤ) (cancelled : Bool), (C.maxBlockSize : ℤ) = tightNode.maxBlockSize →
        (proposeBlock C V me n finalTxs stamp cancelled).1.halted = true := by
  -- the block is the one vote-body transaction, as the run computes it
  let finalTxs := ((prepareBlockTransactions tightNode.reads [] []).toOption.map Prod.fst).getD []
  have hprep : prepareBlockTransactions tightNode.reads [] [] = .ok (finalTxs, []) := by
    decide +kernel
  have hserialize : txnsSize finalTxs = 194 := by decide +kernel
  refine ⟨finalTxs, hprep, ?_, fun C V me n stamp cancelled hC => ?_⟩
  · rw [hserialize]
    decide
  · refine proposeBlock_halts_of_oversize C V me n stamp cancelled ?_
    have h189 : tightNode.maxBlockSize = 189 := rfl
    omega

/-- The vote-body transaction of `tightNode`'s block carries its one pending event, within a
`MaxVotesPerTx` of one. -/
theorem prepareValidatorVoteBodyTx_passes_vote_count_tight :
    ∃ tx, prepareValidatorVoteBodyTx tightNode 0 189 = .ok (some tx) ∧
      checkVoteCount tightNode.maxVotesPerTx tx = .ok () := by
  have hok : (prepareValidatorVoteBodyTx tightNode 0 189).isOk = true := by decide +kernel
  have hsome : prepareValidatorVoteBodyTx tightNode 0 189 ≠ .ok none := by decide +kernel
  obtain ⟨tx, htx⟩ : ∃ tx, prepareValidatorVoteBodyTx tightNode 0 189 = .ok (some tx) := by
    cases h : prepareValidatorVoteBodyTx tightNode 0 189 with
    | error e =>
      rw [h] at hok
      cases hok
    | ok o =>
      cases o with
      | none => exact absurd h hsome
      | some tx => exact ⟨tx, rfl⟩
  refine ⟨tx, htx, prepareValidatorVoteBodyTx_passes_vote_count htx (by decide) ?_⟩
  intro pending hpending e he
  simp only [tightNode, Except.ok.injEq] at hpending
  subst hpending
  rw [List.mem_singleton] at he
  subst he
  exact ⟨⟨by decide, by rintro d ⟨⟩; decide⟩, by decide⟩

end KwilDb.BlockProcessor
