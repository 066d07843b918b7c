import KwilDb.Consensus.ValidatorSet
import KwilDb.Lib.Fold
import KwilDb.Core.Commit

/-!
# Counting votes: `hasMajority` and `verifyVotes`

A validator or sentry that commits a block it did not propose accepts the leader's
`CommitInfo` through `acceptCommitInfo`, whose `verifyVotes` walks the listed votes: each must
carry the public key of a validator and verify, and the agree votes must reach `hasMajority`.

`verifyVotes_eq_ok` says what this establishes, and `verifyVotes_quorum_of_nodup` turns it into
a majority of distinct validators when no key is listed twice. Nothing in `verifyVotes` checks
that: `verifyVotes_replicate` passes one validator's agree vote listed `|V|/2 + 1` times.
-/

namespace KwilDb.Consensus

open KwilDb.Lib KwilDb.Core

/-! ### Thresholds -/

/-- `ConsensusEngine.hasMajority`: more than half of the validator set. -/
def hasMajority (V : ValidatorSet) (cnt : ℕ) : Bool := V.size / 2 + 1 ≤ cnt

/-- `ceilDiv`. -/
def ceilDiv (a b : ℕ) : ℕ := (a + b - 1) / b

/-- `ConsensusEngine.hasEnoughNacks`: at least half of the validator set. -/
def hasEnoughNacks (V : ValidatorSet) (cnt : ℕ) : Bool := ceilDiv V.size 2 ≤ cnt

/-- A majority count is more than half. -/
theorem hasMajority_iff (V : ValidatorSet) (cnt : ℕ) : hasMajority V cnt ↔ V.size < 2 * cnt := by
  simp only [hasMajority, decide_eq_true_eq]
  omega

/-- `_, ok := ce.validatorSet[k]`: the key is a member's. -/
def ValidatorSet.Mem (V : ValidatorSet) (k : String) : Bool := (V.members.lookup k).isSome

/-! ### `verifyVotes` -/

section Verify

variable {PK P : Type} (S : SigScheme PK) (V : ValidatorSet)

/-- The checks `verifyVotes` makes on one vote: its key is a validator's, and it verifies
against the block and the commit's app hash. -/
def checkVote (blkID appHash : Hash) (vote : VoteInfo) : Except String Unit := do
  if ¬ V.Mem (hexEncode vote.signature.pubKey) then
    throw ("vote is from a non-validator: " ++ hexEncode vote.signature.pubKey)
  (vote.verify S blkID appHash).mapError ("error verifying vote: " ++ ·)

/-- **`ConsensusEngine.verifyVotes`.** -/
def verifyVotes (ci : CommitInfo P) (blkID : Hash) : Except String Unit := do
  let acks ← ci.votes.foldlM (fun acks vote => do
      checkVote S V blkID ci.appHash vote
      pure (if vote.ackStatus = .agree then acks + 1 else acks)) 0
  if hasMajority V acks then pure ()
  else throw s!"invalid blkAnn message, not enough acks in the commitInfo, leader misbehavior: {acks}"

/-- The agree votes of a commit, counted with repetition. -/
def agreeCount (ci : CommitInfo P) : ℕ := ci.votes.countP fun v => v.ackStatus = .agree

lemma checkVote_eq_ok {blkID appHash : Hash} {vote : VoteInfo} :
    checkVote S V blkID appHash vote = .ok () ↔
      V.Mem (hexEncode vote.signature.pubKey) ∧ vote.verify S blkID appHash = .ok () := by
  unfold checkVote
  by_cases hm : V.Mem (hexEncode vote.signature.pubKey)
  · simp [hm]
  · simp [hm]

/-- **The specification of `verifyVotes`.** It succeeds exactly when every listed vote carries a
validator's key and verifies, and the agree votes, counted with repetition, are a majority. -/
theorem verifyVotes_eq_ok (ci : CommitInfo P) (blkID : Hash) :
    verifyVotes S V ci blkID = .ok () ↔
      (∀ v ∈ ci.votes, V.Mem (hexEncode v.signature.pubKey) ∧ v.verify S blkID ci.appHash = .ok ()) ∧
      hasMajority V (agreeCount ci) := by
  unfold verifyVotes
  rw [bind_eq_ok]
  constructor
  · rintro ⟨acks, hloop, hmaj⟩
    obtain ⟨hall, rfl⟩ := (foldlM_check_eq_ok _ _ _).mp hloop
    refine ⟨fun v hv => (checkVote_eq_ok S V).mp (hall v hv), ?_⟩
    rw [foldl_count_eq, Nat.zero_add] at hmaj
    by_cases hm : hasMajority V (agreeCount ci)
    · exact hm
    · simp only [agreeCount] at hm
      simp [hm] at hmaj
  · rintro ⟨hall, hmaj⟩
    refine ⟨agreeCount ci, (foldlM_check_eq_ok _ _ _).mpr
      ⟨fun v hv => (checkVote_eq_ok S V).mpr (hall v hv), ?_⟩, ?_⟩
    · rw [foldl_count_eq, Nat.zero_add]
      rfl
    · simp only [hmaj, if_true]
      rfl

/-- The distinct public keys of a commit's agree votes. -/
def agreeSigners (ci : CommitInfo P) : Finset Bytes :=
  ((ci.votes.filter fun v => v.ackStatus = .agree).map (·.signature.pubKey)).toFinset

/-- **A majority of distinct validators, when no key repeats.** If the agree votes of an accepted
commit carry pairwise distinct keys, more than half of the validator set signed the agree
message under its own key. -/
theorem verifyVotes_quorum_of_nodup {ci : CommitInfo P} {blkID : Hash}
    (h : verifyVotes S V ci blkID = .ok ())
    (hnd : ((ci.votes.filter fun v => v.ackStatus = .agree).map (·.signature.pubKey)).Nodup) :
    V.size < 2 * (agreeSigners ci).card ∧
      ∀ v ∈ ci.votes, v.ackStatus = .agree → V.Mem (hexEncode v.signature.pubKey) ∧
        ∃ pk, S.unmarshalPublicKey v.signature.pubKey v.signature.pubKeyType = .ok pk ∧
          S.verify pk (blkID.toList ++ [1] ++ ci.appHash.toList) v.signature.data = .ok true := by
  obtain ⟨hall, hmaj⟩ := (verifyVotes_eq_ok S V ci blkID).mp h
  have hcard : (agreeSigners ci).card = agreeCount ci := by
    rw [agreeSigners, List.toFinset_card_of_nodup hnd, List.length_map, agreeCount,
      List.countP_eq_length_filter]
  refine ⟨hcard ▸ (hasMajority_iff V _).mp hmaj, fun v hv ha => ⟨(hall v hv).1, ?_⟩⟩
  obtain ⟨pk, hpk, -, hver⟩ := VoteInfo.verify_agree S ha (hall v hv).2
  exact ⟨pk, hpk, hver⟩

/-- Three validators with keys `[1]` to `[3]`, and a signature scheme whose signature of a
message is the message followed by the key: the agree votes of `[1]` and `[2]` are accepted, and
they are two distinct signers of three. -/
theorem verifyVotes_quorum_two_of_three :
    let S : SigScheme Bytes := ⟨fun pk _ => .ok pk, fun pk msg sig => .ok (sig == msg ++ pk)⟩
    let V := updateValidatorSet ([1, 2, 3].map fun k => ⟨⟨[k], .secp256k1⟩, 1⟩)
    let h₀ : Hash := Vector.replicate 32 0
    let vote (k : UInt8) : VoteInfo :=
      ⟨.agree, none, ⟨.secp256k1, [k], h₀.toList ++ [1] ++ h₀.toList ++ [k]⟩⟩
    let ci : CommitInfo Unit := ⟨h₀, [vote 1, vote 2], (), []⟩
    verifyVotes S V ci h₀ = .ok () ∧ V.size < 2 * (agreeSigners ci).card := by
  intro S V h₀ vote ci
  have h : verifyVotes S V ci h₀ = .ok () := by decide
  exact ⟨h, (verifyVotes_quorum_of_nodup S V h (by decide)).1⟩

/-- **`verifyVotes` counts votes, not voters.** One validator's verifying agree vote, listed
`|V|/2 + 1` times, is accepted. -/
theorem verifyVotes_replicate {v : VoteInfo} {blkID : Hash} {ci : CommitInfo P}
    (hmem : V.Mem (hexEncode v.signature.pubKey)) (hv : v.verify S blkID ci.appHash = .ok ())
    (ha : v.ackStatus = .agree) (hvotes : ci.votes = List.replicate (V.size / 2 + 1) v) :
    verifyVotes S V ci blkID = .ok () ∧ agreeSigners ci = {v.signature.pubKey} := by
  refine ⟨(verifyVotes_eq_ok S V ci blkID).mpr ⟨?_, ?_⟩, ?_⟩
  · intro w hw
    rw [hvotes, List.mem_replicate] at hw
    rw [hw.2]
    exact ⟨hmem, hv⟩
  · simp [hasMajority, agreeCount, hvotes, List.countP_replicate, ha]
  · ext pk
    simp [agreeSigners, hvotes, ha]

/-! ### `acceptCommitInfo` -/

/-- **`ConsensusEngine.acceptCommitInfo`**: a nil commit info fails; the votes are verified and
the parameter updates validated (`ktypes.ValidateUpdates`, here `validateUpdates`); the result is
the commit info the engine stores. -/
def acceptCommitInfo (validateUpdates : P → Except String Unit) (ci : Option (CommitInfo P))
    (blkID : Hash) : Except String (CommitInfo P) :=
  match ci with
  | none => throw "commitInfo is nil"
  | some ci => do
    (verifyVotes S V ci blkID).mapError ("error verifying votes: " ++ ·)
    (validateUpdates ci.paramUpdates).mapError ("paramUpdates failed validation: " ++ ·)
    pure ci

/-- An accepted commit info passed `verifyVotes`. -/
theorem verifyVotes_of_acceptCommitInfo {validateUpdates : P → Except String Unit}
    {ci : Option (CommitInfo P)} {blkID : Hash} {ci' : CommitInfo P}
    (h : acceptCommitInfo S V validateUpdates ci blkID = .ok ci') :
    ci = some ci' ∧ verifyVotes S V ci' blkID = .ok () := by
  cases ci with
  | none => cases h
  | some c =>
    simp only [acceptCommitInfo, bind_eq_ok, mapError_eq_ok] at h
    obtain ⟨⟨⟩, hv, ⟨⟩, -, hc⟩ := h
    cases hc
    exact ⟨rfl, hv⟩

end Verify

end KwilDb.Consensus
