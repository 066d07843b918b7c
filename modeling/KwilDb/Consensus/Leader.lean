import KwilDb.Consensus.Votes

/-!
# The leader's votes: `addVote` and `processVotes`

After proposing and executing a block, the leader records its own agree vote under
`string(pubKey.Bytes())` and collects the validators' acks. `addVote` files each ack under the
hex of its p2p sender, after checking that the sender is a validator and that the vote verifies
under the public key the vote itself carries. `processVotes` then halts on enough nacks or
commits on a majority of agree entries, with the sorted votes as the block's `CommitInfo`.

The entries are distinct senders, not distinct signers: `addVote_foreign_signature` files a
sender's vote whatever key signed it. The commit rule is `processVotes_commit`.
-/

namespace KwilDb.Consensus

open KwilDb.Lib KwilDb.Core

/-! ### Acks as they arrive -/

/-- `types.NackStatus`, a Go string type. -/
structure NackStatus where
  name : String
deriving DecidableEq, Repr

/-- `NackStatusOutOfSync`. -/
def NackStatus.outOfSync : NackStatus := ⟨"out_of_sync"⟩

/-- What the leader reads of the block header in an out-of-sync proof: its hash and height. -/
structure ProofHeader where
  hash : Hash
  height : ℤ
deriving DecidableEq, Repr

/-- `types.OutOfSyncProof`. -/
structure OutOfSyncProof where
  header : Option ProofHeader
  signature : Bytes
deriving DecidableEq, Repr

/-- `types.AckRes`, a validator's response to a proposal. -/
structure AckRes where
  ack : Bool
  nackStatus : Option NackStatus
  height : ℤ
  blkHash : Hash
  appHash : Option Hash
  outOfSyncProof : Option OutOfSyncProof
  signature : Option Signature
deriving DecidableEq, Repr

/-- `AckRes.OutOfSync`: the proof of a nack with status out-of-sync. -/
def AckRes.outOfSync (ar : AckRes) : Option OutOfSyncProof :=
  if ar.ack || ar.nackStatus ≠ some .outOfSync then none else ar.outOfSyncProof

/-! ### The leader's round -/

/-- The proposal the leader is collecting votes for (`blockProposal`, without the block). -/
structure BlockProposal where
  height : ℤ
  blkHash : Hash
deriving DecidableEq, Repr

/-- What executing the proposal gave (`blockResult`). -/
structure BlockResult (P : Type) where
  appHash : Hash
  paramUpdates : P
  valUpdates : List Validator
deriving DecidableEq

/-- **The leader's round**, the part of the engine's `state` that `addVote` and `processVotes`
use. `proposeBlock` holds the state lock from setting `blkProp` until `blockRes` is set, so
votes are only ever processed with both set or both unset: one option here. -/
structure LeaderRound (P : Type) where
  current : Option (BlockProposal × BlockResult P)
  votes : GoMap String VoteInfo
deriving DecidableEq

/-- What `processVotes` leads to. -/
inductive VotesDecision (P : Type) where
  /-- No proposal, or no majority yet. -/
  | wait
  /-- `sendHalt` with this reason. -/
  | halt (reason : String)
  /-- Commit the block with this commit info. -/
  | commit (ci : CommitInfo P)
deriving DecidableEq

/-- The order of the votes in the leader's commit info: by public key (`bytes.Compare`), then by
key type. -/
def voteLE (a b : VoteInfo) : Prop :=
  a.signature.pubKey < b.signature.pubKey ∨
    (a.signature.pubKey = b.signature.pubKey ∧
      a.signature.pubKeyType.name ≤ b.signature.pubKeyType.name)

instance : DecidableRel voteLE := fun _ _ => inferInstanceAs (Decidable (_ ∨ _))

section Round

variable {PK P : Type} (S : SigScheme PK) (V : ValidatorSet)

/-- The votes the leader holds, in the map's iteration order. -/
def LeaderRound.values (r : LeaderRound P) : List VoteInfo := r.votes.entries.map (·.2)

/-- **`ConsensusEngine.processVotes`.** Agree entries are acks, every other entry a nack. Enough
nacks halt the network; a majority of acks commits with the votes sorted by key. -/
def processVotes (r : LeaderRound P) : VotesDecision P :=
  match r.current with
  | none => .wait
  | some (_, res) =>
    let acks := r.values.countP (·.ackStatus = .agree)
    let nacks := r.values.countP (·.ackStatus ≠ .agree)
    if hasEnoughNacks V nacks then
      .halt s!"at least half the validators have rejected the block, preventing network progress. Halting the network: {acks} acks, {nacks} nacks"
    else if ¬ hasMajority V acks then .wait
    else .commit ⟨res.appHash, r.values.insertionSort voteLE, res.paramUpdates, res.valUpdates⟩

/-- **When the leader commits.** The commit carries the leader's app hash and exactly the votes
it holds, and more than half of the validator set's size of them are agree entries. -/
theorem processVotes_commit {r : LeaderRound P} {ci : CommitInfo P}
    (h : processVotes V r = .commit ci) :
    ∃ prop res, r.current = some (prop, res) ∧ ci.appHash = res.appHash ∧
      ci.votes.Perm r.values ∧ hasMajority V (agreeCount ci) := by
  unfold processVotes at h
  rcases hc : r.current with _ | ⟨prop, res⟩
  · simp [hc] at h
  · simp only [hc] at h
    split_ifs at h with hn hm
    cases h
    have hperm := List.perm_insertionSort voteLE r.values
    refine ⟨prop, res, rfl, rfl, hperm, ?_⟩
    rw [agreeCount, hperm.countP_eq]
    simpa using hm

/-- **`processVotes` on agree votes only**: it commits once they are a majority, and waits
before. -/
theorem processVotes_of_agree {r : LeaderRound P} {prop : BlockProposal} {res : BlockResult P}
    (hcur : r.current = some (prop, res)) (hV : 0 < V.size)
    (hall : ∀ v ∈ r.values, v.ackStatus = .agree) :
    processVotes V r =
      if hasMajority V r.values.length then
        .commit ⟨res.appHash, r.values.insertionSort voteLE, res.paramUpdates, res.valUpdates⟩
      else .wait := by
  have hacks : r.values.countP (·.ackStatus = .agree) = r.values.length :=
    List.countP_eq_length.mpr (by simpa using hall)
  have hnacks : r.values.countP (·.ackStatus ≠ .agree) = 0 :=
    List.countP_eq_zero.mpr (by simpa using hall)
  have hfew : hasEnoughNacks V 0 = false := by
    simp only [hasEnoughNacks, ceilDiv, decide_eq_false_iff_not, Nat.le_zero]
    omega
  simp only [processVotes, hcur, hacks, hnacks, hfew, Bool.false_eq_true, if_false]
  split_ifs <;> simp_all

/-- What `addVote` did with an ack. -/
inductive AddVoteResult (P : Type) where
  /-- Dropped without an error: no proposal, another height or block, or a bad out-of-sync
  proof. -/
  | ignored
  /-- Returned an error. -/
  | error (msg : String)
  /-- A valid out-of-sync proof: roll back and sync up to this height. -/
  | resync (height : ℤ)
  /-- The votes after filing the ack, and what `processVotes` decided on them. -/
  | processed (r : LeaderRound P) (decision : VotesDecision P)
deriving DecidableEq

/-- How the leader reads an ack against its own app hash: a nack is a reject, an ack with the
leader's app hash an agree, an ack with another one a forked vote carrying it. -/
def ackStatusOf (vote : AckRes) (appHash : Hash) : AckStatus × Option Hash :=
  if vote.ack then
    if vote.appHash ≠ some appHash then (.forked, vote.appHash) else (.agree, none)
  else (.reject, none)

/-- **`ConsensusEngine.addVote`**, with `leaderVerify` the leader's own `pubKey.Verify` that checks
the header signature of an out-of-sync proof. -/
def addVote (leaderVerify : Bytes → Bytes → Except String Bool) (r : LeaderRound P)
    (vote : AckRes) (sender : String) : AddVoteResult P :=
  match r.current with
  | none => .ignored
  | some (prop, res) =>
    if prop.height ≠ vote.height then .ignored
    else if prop.blkHash ≠ vote.blkHash then .ignored
    else if ¬ V.Mem sender then .error ("vote received from an unknown validator " ++ sender)
    else if vote.ack ∧ vote.appHash = none then .error "missing appHash in the vote"
    else match vote.signature with
    | none => .error "missing signature in the vote"
    | some sig =>
      match vote.outOfSync with
      | some proof =>
        match proof.header with
        | none => .ignored
        | some hdr =>
          match leaderVerify hdr.hash.toList proof.signature with
          | .ok true => .resync hdr.height
          | _ => .ignored
      | none =>
        if (r.votes.lookup sender).isSome then .processed r (processVotes V r)
        else
          let voteInfo : VoteInfo :=
            ⟨(ackStatusOf vote res.appHash).1, (ackStatusOf vote res.appHash).2, sig⟩
          match voteInfo.verify S vote.blkHash res.appHash with
          | .error e => .error ("error verifying the vote signature: " ++ e)
          | .ok () =>
            let r' : LeaderRound P := { r with votes := r.votes.insert sender voteInfo }
            .processed r' (processVotes V r')

/-- `proposeBlock` files the leader's own agree vote under `string(pubKey.Bytes())`. -/
def addOwnVote (leaderPubKey : Bytes) (r : LeaderRound P) (appHash : Hash) (sig : Signature) :
    LeaderRound P :=
  { r with votes := r.votes.insert (goString leaderPubKey) ⟨.agree, some appHash, sig⟩ }

/-- **The leader files an ack under its sender, whatever key signed it.** A validator's agree
ack for the current block is stored under the sender as soon as its signature verifies under the
key in the signature, with no check that the key is the sender's. -/
theorem addVote_foreign_signature {leaderVerify : Bytes → Bytes → Except String Bool}
    {r : LeaderRound P} {prop : BlockProposal} {res : BlockResult P} {vote : AckRes}
    {sender : String} {sig : Signature}
    (hcur : r.current = some (prop, res)) (hh : vote.height = prop.height)
    (hb : vote.blkHash = prop.blkHash) (hs : V.Mem sender) (hack : vote.ack = true)
    (happ : vote.appHash = some res.appHash) (hsig : vote.signature = some sig)
    (hnew : r.votes.lookup sender = none)
    (hver : VoteInfo.verify S ⟨.agree, none, sig⟩ prop.blkHash res.appHash = .ok ()) :
    addVote S V leaderVerify r vote sender =
      .processed { r with votes := r.votes.insert sender ⟨.agree, none, sig⟩ }
        (processVotes V { r with votes := r.votes.insert sender ⟨.agree, none, sig⟩ }) := by
  have hoos : vote.outOfSync = none := by simp [AckRes.outOfSync, hack]
  have hstatus : ackStatusOf vote res.appHash = (.agree, none) := by
    simp [ackStatusOf, hack, happ]
  simp only [addVote, hcur, hh, hb, hs, hack, happ, hsig, hoos, hnew, hstatus, ne_eq,
    not_true_eq_false, if_false, reduceCtorEq, and_false, Option.isSome_none, Bool.false_eq_true]
  rw [hver]

end Round

/-! ### A commit without a majority of distinct signers -/

/-- **Both vote counts accept repeated signers.** Five validators with keys `[1]` to `[5]`, and a
signature scheme whose signature of a message is the message followed by the key. A follower's
`verifyVotes` accepts validator `[1]`'s agree vote listed three times: one signer of five. The
leader, holding its own vote as `[1]`, files validator `[3]`'s ack under `[3]` and, relayed, under
`[2]`, and commits on three agree entries signed by two keys. -/
theorem commit_without_distinct_majority :
    let S : SigScheme Bytes := ⟨fun pk _ => .ok pk, fun pk msg sig => .ok (sig == msg ++ pk)⟩
    let V := updateValidatorSet ([1, 2, 3, 4, 5].map fun k => ⟨⟨[k], .secp256k1⟩, 1⟩)
    let h₀ : Hash := Vector.replicate 32 0
    let vote (k : UInt8) : VoteInfo :=
      ⟨.agree, none, ⟨.secp256k1, [k], h₀.toList ++ [1] ++ h₀.toList ++ [k]⟩⟩
    let ci : CommitInfo Unit := ⟨h₀, List.replicate 3 (vote 1), (), []⟩
    let r₁ : LeaderRound Unit :=
      addOwnVote [1] ⟨some (⟨1, h₀⟩, ⟨h₀, (), []⟩), ∅⟩ h₀ (vote 1).signature
    let ack : AckRes := ⟨true, none, 1, h₀, some h₀, none, some (vote 3).signature⟩
    let r₂ : LeaderRound Unit := { r₁ with votes := r₁.votes.insert (hexEncode [3]) (vote 3) }
    let r₃ : LeaderRound Unit := { r₂ with votes := r₂.votes.insert (hexEncode [2]) (vote 3) }
    (verifyVotes S V ci h₀ = .ok () ∧ 2 * (agreeSigners ci).card ≤ V.size) ∧
    ∀ leaderVerify, addVote S V leaderVerify r₁ ack (hexEncode [3]) = .processed r₂ .wait ∧
      ∃ ci', addVote S V leaderVerify r₂ ack (hexEncode [2]) = .processed r₃ (.commit ci') ∧
        2 * (agreeSigners ci').card ≤ V.size := by
  intro S V h₀ vote ci r₁ ack r₂ r₃
  have hsize : V.size = 5 := by decide
  refine ⟨?_, fun leaderVerify => ⟨?_, ?_⟩⟩
  · -- the follower: one validator's vote, three times
    have h := @verifyVotes_replicate Bytes Unit S V (vote 1) h₀ ci (by decide) (by decide) rfl
      (by rw [hsize])
    refine ⟨h.1, ?_⟩
    rw [h.2, Finset.card_singleton, hsize]
    decide
  · -- the leader: validator `[3]`'s ack, under its own name
    rw [@addVote_foreign_signature Bytes Unit S V leaderVerify r₁ ⟨1, h₀⟩ ⟨h₀, (), []⟩ ack
      (hexEncode [3]) (vote 3).signature rfl rfl rfl (by decide) rfl rfl rfl (by decide)
      (by decide)]
    have hwait : processVotes V r₂ = .wait := by decide
    exact congrArg (AddVoteResult.processed r₂) hwait
  · -- and again under validator `[2]`'s name: three agree entries, two keys
    rw [@addVote_foreign_signature Bytes Unit S V leaderVerify r₂ ⟨1, h₀⟩ ⟨h₀, (), []⟩ ack
      (hexEncode [2]) (vote 3).signature rfl rfl rfl (by decide) rfl rfl rfl (by decide)
      (by decide)]
    let ci' : CommitInfo Unit := ⟨h₀, [⟨.agree, some h₀, (vote 1).signature⟩, vote 3, vote 3], (), []⟩
    have hcommit : processVotes V r₃ = .commit ci' := by decide
    exact ⟨ci', congrArg (AddVoteResult.processed r₃) hcommit, by decide⟩

end KwilDb.Consensus
