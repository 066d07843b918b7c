import KwilDb.Consensus.Chain

/-!
# The nodes of one leader agree on every committed block

A network whose nodes only run the protocol, with no message put on the network from outside it,
and in which one node holds the leader's role, never forks: two nodes that have committed a block
at a height have committed the same block, under the same block hash, app hash and commit info
(`honest_nodes_agree`). The assumption on hashes is that the blocks proposed in the run have
distinct header hashes.

The leader's block store is the reference (`AgreeInv`). Every staged block is the proposal of a
block proposed on the network, named by its header hash; every entry of every node's store is an
entry of the leader's; every announcement carries a block and commit info the leader stored; and
no block-sync response is on the network, since nodes answer none. The leader adds to its store
only by committing its own staged block (`applyDecision_agree`) and announces just that. Any
other node adds to its store only the entry of the block and commit info it was handed
(`handleAnnounce_agree`, `catchUp_agree`): when it commits its own staged block instead, that block
has the handed block's hash and so is the same block.

Without the assumption that nothing comes from outside the nodes this fails. `AcceptCommit` takes
an announcement from any peer, and the acks a validator sent for a block the leader cancelled
(`proposeBlock` with a cancelled execution, which re-proposes at the same height) still verify:
a peer that gathers them announces a block the leader never committed.
-/

namespace KwilDb.Consensus

open KwilDb.Lib KwilDb.Core Relation

variable {P : Type}

/-- The proposal of a block, as every handler builds it: its height and its header hash. -/
def Proposal.of (C : Chain P) (blk : Block) : Proposal :=
  ⟨blk.header.height, C.headerHash blk.header, blk⟩

/-- The entry a block store gets when its node commits `blk` under `ci`. -/
def entryOf (C : Chain P) (blk : Block) (ci : CommitInfo P) : Committed P :=
  ⟨⟨blk.header.height, C.headerHash blk.header, ci.appHash⟩, blk, some ci⟩

/-- A node's staged block is the proposal of a block proposed on the network. -/
def StagedOK (C : Chain P) (net : List (Msg P)) (n : NodeState P) : Prop :=
  ∀ prop ∈ n.blkProp, ∃ blk, prop = Proposal.of C blk ∧ Msg.proposal blk ∈ net

/-- A node's store is as it was, or has gained the entry of `blk` under `ci`. -/
def Appends (C : Chain P) (blk : Block) (ci : CommitInfo P) (n n' : NodeState P) : Prop :=
  n'.store = n.store ∨ n'.store = entryOf C blk ci :: n.store

/-- No two blocks proposed on the network share a header hash. -/
def ProposalsDistinct (C : Chain P) (net : List (Msg P)) : Prop :=
  ∀ b₁ b₂, Msg.proposal b₁ ∈ net → Msg.proposal b₂ ∈ net →
    C.headerHash b₁.header = C.headerHash b₂.header → b₁ = b₂

/-- A node's step that stores nothing, stages only proposed blocks, and sends neither an
announcement nor a block-sync response. -/
structure Quiet (C : Chain P) (net : List (Msg P)) (n : NodeState P)
    (r : NodeState P × List (Msg P)) : Prop where
  staged : StagedOK C net r.1
  store : r.1.store = n.store
  noAnnounce : ∀ blk ci, Msg.announce blk ci ∉ r.2
  noResponse : ∀ blkID blk ci, Msg.blockResponse blkID blk ci ∉ r.2

/-- **What the leader's step may do**: stage a proposed block, store at most the entry of a
proposed block, and announce only entries it has stored. The blocks it proposes are on the
network once its output is. -/
structure LeaderOK (C : Chain P) (net : List (Msg P)) (n : NodeState P)
    (r : NodeState P × List (Msg P)) : Prop where
  staged : StagedOK C (net ++ r.2) r.1
  store : r.1.store = n.store ∨
    ∃ blk ci, r.1.store = entryOf C blk ci :: n.store ∧ Msg.proposal blk ∈ net ++ r.2
  announced : ∀ blk ci, Msg.announce blk ci ∈ r.2 → entryOf C blk ci ∈ r.1.store
  noResponse : ∀ blkID blk ci, Msg.blockResponse blkID blk ci ∉ r.2

section Basics

variable {C : Chain P} {net net' : List (Msg P)} {n m n' : NodeState P} {blk : Block}
  {ci : CommitInfo P}

theorem StagedOK.mono (h : StagedOK C net n) (hsub : net ⊆ net') : StagedOK C net' n :=
  fun prop hp => (h prop hp).imp fun _ h => ⟨h.1, hsub h.2⟩

theorem StagedOK.of_blkProp (h : StagedOK C net n) (hp : m.blkProp = n.blkProp) :
    StagedOK C net m :=
  fun prop hq => h prop (hp ▸ hq)

theorem StagedOK.of_none (hp : m.blkProp = none) : StagedOK C net m := by
  intro prop hq
  rw [Option.mem_def, hp] at hq
  cases hq

theorem StagedOK.of_proposal (hp : m.blkProp = some (Proposal.of C blk))
    (hblk : Msg.proposal blk ∈ net) : StagedOK C net m := by
  intro prop hq
  rw [Option.mem_def, hp] at hq
  exact ⟨blk, (Option.some.inj hq).symm, hblk⟩

theorem ProposalsDistinct.mono (h : ProposalsDistinct C net') (hsub : net ⊆ net') :
    ProposalsDistinct C net :=
  fun b₁ b₂ h₁ h₂ => h b₁ b₂ (hsub h₁) (hsub h₂)

theorem Quiet.of_acks {r : NodeState P × List (Msg P)} (hst : StagedOK C net r.1)
    (hs : r.1.store = n.store) (hout : ∀ msg ∈ r.2, ∃ ar, msg = .ack ar) : Quiet C net n r where
  staged := hst
  store := hs
  noAnnounce _ _ hm := by
    obtain ⟨_, h⟩ := hout _ hm
    cases h
  noResponse _ _ _ hm := by
    obtain ⟨_, h⟩ := hout _ hm
    cases h

/-- A node that does nothing. -/
theorem Quiet.self (hst : StagedOK C net n) : Quiet C net n (n, []) :=
  .of_acks hst rfl (by simp)

theorem Quiet.of_base {r : NodeState P × List (Msg P)} (h : Quiet C net m r)
    (hs : m.store = n.store) : Quiet C net n r :=
  ⟨h.staged, h.store.trans hs, h.noAnnounce, h.noResponse⟩

theorem LeaderOK.of_quiet {r : NodeState P × List (Msg P)} (h : Quiet C (net ++ r.2) n r) :
    LeaderOK C net n r :=
  ⟨h.staged, .inl h.store, fun blk ci hm => absurd hm (h.noAnnounce blk ci), h.noResponse⟩

theorem LeaderOK.of_base {r : NodeState P × List (Msg P)} (h : LeaderOK C net m r)
    (hs : m.store = n.store) : LeaderOK C net n r :=
  ⟨h.staged, hs ▸ h.store, h.announced, h.noResponse⟩

/-- A leader's step that puts a proposal on the network before the rest of its output. -/
theorem LeaderOK.cons_proposal {r : NodeState P × List (Msg P)}
    (h : LeaderOK C (net ++ [.proposal blk]) n r) : LeaderOK C net n (r.1, .proposal blk :: r.2) := by
  obtain ⟨hst, hstore, hann, hresp⟩ := h
  have hnet : net ++ [.proposal blk] ++ r.2 = net ++ .proposal blk :: r.2 := by simp
  rw [hnet] at hst hstore
  refine ⟨hst, hstore, fun b c hm => hann b c ?_, fun blkID b c hm => hresp blkID b c ?_⟩
  · simpa using hm
  · simpa using hm

theorem Appends.refl : Appends C blk ci n n := .inl rfl

theorem Appends.of_base (hs : m.store = n.store) (h : Appends C blk ci m n') :
    Appends C blk ci n n' := by
  unfold Appends at h ⊢
  rwa [hs] at h

/-- Committing the proposal of `blk`, with a result whose app hash is the commit info's, stores
the entry of `blk` under that commit info and leaves nothing staged. -/
theorem commit_withInfo {res : BlockResult P} (hp : n.blkProp = some (Proposal.of C blk))
    (hr : n.blockRes = some res) (happ : res.appHash = ci.appHash) :
    ({ n with commitInfo := some ci } : NodeState P).commit.store = entryOf C blk ci :: n.store ∧
      ({ n with commitInfo := some ci } : NodeState P).commit.blkProp = none := by
  rw [NodeState.commit_of (n := { n with commitInfo := some ci }) hp hr]
  simp [NodeState.resetState, entryOf, Proposal.of, happ]

/-- A round with a proposal has the node's block result. -/
lemma NodeState.blockRes_of_round {bp : BlockProposal} {res : BlockResult P}
    (h : n.round.current = some (bp, res)) : n.blockRes = some res := by
  unfold NodeState.round at h
  split at h
  · cases h
    assumption
  · cases h

/-- A commit decision carries the app hash of the node's block result. -/
lemma processVotes_appHash (V : ValidatorSet) (h : processVotes V n.round = .commit ci) :
    ∃ res, n.blockRes = some res ∧ res.appHash = ci.appHash := by
  obtain ⟨_, res, hcur, happ, -⟩ := processVotes_commit V h
  exact ⟨res, NodeState.blockRes_of_round hcur, happ.symm⟩

/-- The staged block a handler finds under a proposed block's hash is that block. -/
theorem staged_eq_of_hash (hcf : ProposalsDistinct C net) (hst : StagedOK C net n)
    {prop : Proposal} (hp : n.blkProp = some prop) {b : Block} (hb : Msg.proposal b ∈ net)
    (hid : prop.blkHash = C.headerHash b.header) : prop = Proposal.of C b := by
  obtain ⟨blk', rfl, hblk'⟩ := hst _ hp
  rw [hcf _ _ hblk' hb hid]

/-- `AcceptCommit` hands over the node's own staged block only under the announced hash. -/
lemma acceptCommit_own {height : ℤ} {blkID : Hash} {b : Block}
    (h : acceptCommit n height blkID = .own b) :
    ∃ prop, n.blkProp = some prop ∧ prop.blkHash = blkID ∧ prop.blk = b := by
  cases hp : n.blkProp with
  | none =>
    simp only [acceptCommit, hp, Option.filter_none, Option.isSome_none, Bool.false_eq_true,
      and_false, if_false] at h
    split_ifs at h
  | some prop =>
    by_cases hh : prop.blkHash = blkID
    · simp only [acceptCommit, hp, Option.filter_some, hh, decide_true, if_true,
        Option.isSome_some, and_true] at h
      split_ifs at h
      cases h
      exact ⟨prop, rfl, hh, rfl⟩
    · simp only [acceptCommit, hp, Option.filter_some, hh, decide_false, Bool.false_eq_true,
        if_false, Option.isSome_none, and_false] at h
      split_ifs at h

end Basics

/-! ### What each handler stores -/

section Handlers

variable {PK : Type} (S : SigScheme PK) (C : Chain P) (V : ValidatorSet) (me : Identity)
  {net : List (Msg P)} {n : NodeState P}

/-- **The leader's decision.** It stores the entry of its staged block under the commit info and
announces exactly that, or stores nothing and announces nothing. -/
theorem applyDecision_leaderOK (hst : StagedOK C net n) {d : VotesDecision P}
    (hd : ∀ ci, d = .commit ci → ∃ res, n.blockRes = some res ∧ res.appHash = ci.appHash) :
    LeaderOK C net n (n.applyDecision d) := by
  have hst' := hst.mono (List.subset_append_left net [])
  cases d with
  | wait => exact .of_quiet (.self hst')
  | halt _ =>
    exact .of_quiet (.of_acks (hst'.of_blkProp rfl) rfl (by simp [NodeState.applyDecision]))
  | commit ci =>
    obtain ⟨res, hr, happ⟩ := hd ci rfl
    cases hp : n.blkProp with
    | none =>
      simp only [NodeState.applyDecision]
      rw [hp]
      exact .of_quiet (.self hst')
    | some prop =>
      obtain ⟨blk, rfl, hblk⟩ := hst _ hp
      obtain ⟨hs, hnone⟩ := commit_withInfo hp hr happ
      simp only [NodeState.applyDecision]
      rw [hp] at hs hnone ⊢
      refine ⟨.of_none hnone, .inr ⟨blk, ci, hs, List.mem_append_left _ hblk⟩, ?_, by simp⟩
      intro b c hm
      obtain ⟨rfl, rfl⟩ : b = blk ∧ c = ci := by simpa [Proposal.of] using hm
      rw [hs]
      exact List.mem_cons_self

/-- `addVote` files an ack without touching the proposal, and decides on the votes it files. -/
lemma addVote_processed {leaderVerify : Bytes → Bytes → Except String Bool} {r r' : LeaderRound P}
    {vote : AckRes} {sender : String} {d : VotesDecision P}
    (h : addVote S V leaderVerify r vote sender = .processed r' d) :
    r'.current = r.current ∧ d = processVotes V r' := by
  unfold addVote at h
  split at h
  · cases h
  split_ifs at h
  -- a vote the sender already filed, and a new one
  all_goals
    split at h
    · cases h
    split at h
    · -- an out-of-sync proof resyncs or is ignored
      split at h
      · cases h
      · split at h <;> cases h
  · cases h
    exact ⟨rfl, rfl⟩
  · dsimp only at h
    split at h
    · cases h
    · cases h
      exact ⟨rfl, rfl⟩

/-- The node's round after the leader files votes of its round. -/
lemma NodeState.round_withVotes {r : LeaderRound P} (h : r.current = n.round.current) :
    ({ n with votes := r.votes } : NodeState P).round = r := by
  cases r
  simp only at h
  subst h
  rfl

/-- **`proposeBlock`**: the leader proposes its block and, on its own vote, decides. -/
theorem proposeBlock_leaderOK (hst : StagedOK C net n) (txns : List Types.Transaction) (stamp : ℤ)
    (cancelled : Bool) : LeaderOK C net n (proposeBlock C V me n txns stamp cancelled) := by
  unfold proposeBlock
  dsimp only
  split
  · exact .of_quiet (.of_acks ((hst.mono (List.subset_append_left _ _)).of_blkProp rfl) rfl
      (by simp))
  split
  · -- a cancelled execution: the block is proposed and the leader rolls back
    exact .of_quiet ⟨.of_none rfl, rfl, by simp, by simp⟩
  split
  · exact .of_quiet ⟨.of_proposal rfl (by simp), rfl, by simp, by simp⟩
  · -- the leader files its own vote on the staged block, then decides on the votes
    refine LeaderOK.cons_proposal ((applyDecision_leaderOK C (.of_proposal rfl ?_)
      fun ci hci => processVotes_appHash V hci).of_base rfl)
    simp

theorem executeProposal_quiet (hst : StagedOK C net n) {blk : Block}
    (hblk : Msg.proposal blk ∈ net) : Quiet C net n (executeProposal C V me n (Proposal.of C blk)) := by
  unfold executeProposal
  dsimp only
  split
  · exact .of_acks (hst.of_blkProp rfl) rfl (by simp)
  · split <;> exact .of_acks hst rfl (by simp)
  · split <;> exact .of_acks (.of_proposal rfl hblk) rfl (by simp)

theorem processBlockProposal_quiet (hst : StagedOK C net n) {blk : Block}
    (hblk : Msg.proposal blk ∈ net) :
    Quiet C net n (processBlockProposal C V me n (Proposal.of C blk)) := by
  unfold processBlockProposal
  split
  · exact .self hst
  split
  · exact .self hst
  split
  · split
    · exact .self hst
    split
    · exact .self hst
    · -- another staged block is rolled back first
      exact (executeProposal_quiet C V me (n := n.resetState) (.of_none rfl) hblk).of_base rfl
  · exact executeProposal_quiet C V me hst hblk

/-- `AcceptProposal` sends at most an out-of-sync nack. -/
lemma acceptProposal_acks (n : NodeState P) (height : ℤ) (blkID : Hash) (leaderSig : Bytes)
    (timestamp : ℤ) :
    ∀ msg ∈ (acceptProposal S C V me n height blkID leaderSig timestamp).2, ∃ ar, msg = .ack ar := by
  unfold acceptProposal
  -- every branch sends nothing, or the out-of-sync nack for a height the node has passed
  repeat' split
  all_goals simp

/-- **A proposal** stages, if anything, the proposed block, and is answered by acks only. -/
theorem handleProposal_quiet (hst : StagedOK C net n) {blk : Block}
    (hblk : Msg.proposal blk ∈ net) : Quiet C net n (handleProposal S C V me n blk) := by
  unfold handleProposal
  dsimp only
  split
  · exact processBlockProposal_quiet C V me hst hblk
  · rename_i out hacc
    have hout := acceptProposal_acks S C V me n blk.header.height (C.headerHash blk.header)
      blk.signature blk.header.timestamp
    rw [hacc] at hout
    exact .of_acks hst rfl hout

/-- **An ack** makes the leader decide on its votes; any other node ignores it. -/
theorem handleAck_leaderOK (hst : StagedOK C net n) (ar : AckRes) :
    LeaderOK C net n (handleAck S V me n ar) ∧
      (me.role V ≠ .leader → handleAck S V me n ar = (n, [])) := by
  have hst' := hst.mono (List.subset_append_left net [])
  unfold handleAck
  split
  · exact ⟨.of_quiet (.self hst'), fun _ => rfl⟩
  rename_i hrole
  refine ⟨?_, fun h => absurd h hrole⟩
  split
  · exact .of_quiet (.self hst')
  split
  · rename_i r d hadd
    obtain ⟨hcur, rfl⟩ := addVote_processed S V hadd
    have hround := NodeState.round_withVotes hcur
    refine (applyDecision_leaderOK C (n := { n with votes := r.votes }) (hst.of_blkProp rfl)
      fun ci hci => ?_).of_base rfl
    rw [← hround] at hci
    exact processVotes_appHash V hci
  · exact .of_quiet (.of_acks (.of_none rfl) rfl (by simp))
  · exact .of_quiet (.self hst')

theorem handleReset_quiet (hst : StagedOK C net n) (toHeight : ℤ) (sender : Bytes) :
    Quiet C net n (handleReset V me n toHeight sender, []) := by
  unfold handleReset
  split_ifs
  · exact .self hst
  · exact .of_acks (.of_none rfl) rfl (by simp)
  · exact .self hst

variable [DecidableEq P]

/-- **`processAndCommit` of a proposed block** stages it under its hash and stores, if anything,
its entry under the commit info. -/
theorem processAndCommit_agree (hst : StagedOK C net n) {blk : Block}
    (hblk : Msg.proposal blk ∈ net) (ci : CommitInfo P) :
    StagedOK C net (finalState (processAndCommit S C V n blk ci (C.headerHash blk.header))) ∧
      Appends C blk ci n (finalState (processAndCommit S C V n blk ci (C.headerHash blk.header))) := by
  unfold processAndCommit
  dsimp only
  split
  · exact ⟨hst.of_blkProp rfl, .inl rfl⟩
  split
  · exact ⟨hst.of_blkProp rfl, .inl rfl⟩
  · exact ⟨hst.of_blkProp rfl, .inl rfl⟩
  split
  · exact ⟨hst.of_blkProp rfl, .inl rfl⟩
  · rename_i ci' hacc
    obtain rfl := Option.some.inj (verifyVotes_of_acceptCommitInfo S V hacc).1
    split_ifs with hpu hah
    · exact ⟨.of_proposal rfl hblk, .inl rfl⟩
    · exact ⟨.of_proposal rfl hblk, .inl rfl⟩
    · -- the block's execution matched the commit info: its entry is stored
      obtain ⟨hs, hnone⟩ := commit_withInfo (n := { n with
          hasBlock := blk.header.height
          blkProp := some (Proposal.of C blk)
          blockRes := some (C.execute n.lc.appHash blk) })
        rfl rfl (not_not.mp hah)
      exact ⟨.of_none hnone, .inr hs⟩

/-- **`commitProcessed`** stores, if anything, the entry of the node's own staged block. -/
theorem commitProcessed_agree (hst : StagedOK C net n) {b : Block}
    (hown : ∀ prop ∈ n.blkProp, prop.blk = b) (blk : Block) (ci : CommitInfo P) (blkID : Hash) :
    StagedOK C net (finalState (commitProcessed S C V n blk ci blkID)) ∧
      Appends C b ci n (finalState (commitProcessed S C V n blk ci blkID)) := by
  unfold commitProcessed
  dsimp only
  split
  · exact ⟨hst.of_blkProp rfl, .inl rfl⟩
  split
  · rename_i prop res hp hr
    split_ifs with hpu hah
    · exact ⟨hst.of_blkProp rfl, .inl rfl⟩
    · exact ⟨hst.of_blkProp rfl, .inl rfl⟩
    split
    · exact ⟨hst.of_blkProp rfl, .inl rfl⟩
    · rename_i ci' hacc
      obtain rfl := Option.some.inj (verifyVotes_of_acceptCommitInfo S V hacc).1
      obtain ⟨blk', rfl, -⟩ := hst _ hp
      obtain rfl : blk' = b := hown _ hp
      obtain ⟨hs, hnone⟩ :=
        commit_withInfo (n := { n with hasBlock := blk.header.height }) hp hr (not_not.mp hah)
      exact ⟨.of_none hnone, .inr hs⟩
  · exact ⟨hst.of_blkProp rfl, .inl rfl⟩

/-- **`commitBlock` of a proposed block** stores, if anything, that block's entry: a staged block
under its hash is the same block. -/
theorem commitBlock_agree (hcf : ProposalsDistinct C net) (hst : StagedOK C net n) {b : Block}
    (hb : Msg.proposal b ∈ net) (ci : CommitInfo P) :
    StagedOK C net (finalState (commitBlock S C V me n b ci (C.headerHash b.header))) ∧
      Appends C b ci n (finalState (commitBlock S C V me n b ci (C.headerHash b.header))) := by
  unfold commitBlock
  split
  · exact ⟨hst, .refl⟩
  split
  · exact processAndCommit_agree S C V hst hb ci
  split
  · exact processAndCommit_agree S C V hst hb ci
  · rename_i prop hp
    split
    · -- another staged block is rolled back first
      obtain ⟨h₁, h₂⟩ := processAndCommit_agree S C V (n := n.resetState) (.of_none rfl) hb ci
      exact ⟨h₁, h₂.of_base rfl⟩
    · rename_i hid
      have hprop := staged_eq_of_hash hcf hst hp hb (not_not.mp hid)
      refine commitProcessed_agree S C V hst (fun q hq => ?_) b ci _
      rw [Option.mem_def, hp, hprop] at hq
      rw [← Option.some.inj hq]
      rfl

theorem notifyBlockCommit_agree (hcf : ProposalsDistinct C net) (hst : StagedOK C net n)
    {b : Block} (hb : Msg.proposal b ∈ net) (ci : CommitInfo P) :
    StagedOK C net (notifyBlockCommit S C V me n b ci (C.headerHash b.header)) ∧
      Appends C b ci n (notifyBlockCommit S C V me n b ci (C.headerHash b.header)) := by
  unfold notifyBlockCommit
  split
  · exact commitBlock_agree S C V me hcf hst hb ci
  · exact ⟨hst, .refl⟩

/-- **An announcement of a proposed block** adds, if anything, that block's entry under the
announced commit info, whoever announced it. -/
theorem handleAnnounce_agree (hcf : ProposalsDistinct C net) (hst : StagedOK C net n)
    {blk : Block} (hblk : Msg.proposal blk ∈ net) (ci : CommitInfo P) :
    StagedOK C net (handleAnnounce S C V me n blk ci) ∧
      Appends C blk ci n (handleAnnounce S C V me n blk ci) := by
  unfold handleAnnounce
  dsimp only
  split
  · exact ⟨hst, .refl⟩
  split
  · exact ⟨hst, .refl⟩
  · rename_i b hown
    -- the node's own block has the announced hash, so it is the announced block
    obtain ⟨prop, hp, hid, rfl⟩ := acceptCommit_own hown
    rw [staged_eq_of_hash hcf hst hp hblk hid]
    exact notifyBlockCommit_agree S C V me hcf hst hblk ci
  · split
    · exact ⟨hst, .refl⟩
    · exact notifyBlockCommit_agree S C V me hcf hst hblk ci

theorem processCurrentBlock_agree (hcf : ProposalsDistinct C net) (hst : StagedOK C net n)
    {blk : Block} (hblk : Msg.proposal blk ∈ net) (ci : CommitInfo P) :
    StagedOK C net (finalState (processCurrentBlock S C V n (C.headerHash blk.header) blk ci)) ∧
      Appends C blk ci n
        (finalState (processCurrentBlock S C V n (C.headerHash blk.header) blk ci)) := by
  unfold processCurrentBlock
  split
  · rename_i prop res hp hr
    split_ifs with hid happ
    · obtain ⟨h₁, h₂⟩ := processAndCommit_agree S C V (n := n.resetState) (.of_none rfl) hblk ci
      exact ⟨h₁, h₂.of_base rfl⟩
    · exact ⟨hst.of_blkProp rfl, .inl rfl⟩
    split
    · exact ⟨hst, .refl⟩
    · rename_i ci' hacc
      obtain rfl := Option.some.inj (verifyVotes_of_acceptCommitInfo S V hacc).1
      -- the response names the staged block by its hash: it is the response's block
      rw [staged_eq_of_hash hcf hst hp hblk (not_not.mp hid).symm] at hp
      obtain ⟨hs, hnone⟩ := commit_withInfo hp hr (not_not.mp happ).symm
      exact ⟨.of_none hnone, .inr hs⟩
  · exact ⟨hst, .refl⟩

/-- **Catching up on a proposed block** adds, if anything, that block's entry under the
response's commit info. -/
theorem catchUp_agree (hcf : ProposalsDistinct C net) (hst : StagedOK C net n) {blk : Block}
    (hblk : Msg.proposal blk ∈ net) (ci : CommitInfo P) :
    StagedOK C net (catchUp S C V me n (C.headerHash blk.header) blk ci) ∧
      Appends C blk ci n (catchUp S C V me n (C.headerHash blk.header) blk ci) := by
  unfold catchUp
  split
  · exact ⟨hst, .refl⟩
  have hr : StagedOK C net (finalState (if me.role V = .validator ∧ n.blkProp.isSome ∧
      n.blockRes.isSome then processCurrentBlock S C V n (C.headerHash blk.header) blk ci
      else processAndCommit S C V n blk ci (C.headerHash blk.header))) ∧
      Appends C blk ci n (finalState (if me.role V = .validator ∧ n.blkProp.isSome ∧
      n.blockRes.isSome then processCurrentBlock S C V n (C.headerHash blk.header) blk ci
      else processAndCommit S C V n blk ci (C.headerHash blk.header))) := by
    split
    · exact processCurrentBlock_agree S C V hcf hst hblk ci
    · exact processAndCommit_agree S C V hst hblk ci
  dsimp only
  split
  · rename_i hres
    rw [hres] at hr
    exact hr
  · rename_i hres
    rw [hres] at hr
    exact ⟨hr.1.of_blkProp rfl, hr.2⟩

end Handlers

section Runs

variable {N PK : Type} {S : SigScheme PK} {C : Chain P} {V : ValidatorSet} {net : Net N}
  {g : LastCommit} {L : N} {w w' : World N P}

/-- **The invariant of a run in which `L` leads.** -/
structure AgreeInv (C : Chain P) (L : N) (w : World N P) : Prop where
  /-- Every node stages only proposed blocks. -/
  staged : ∀ n, StagedOK C w.network (w.node n)
  /-- The leader stores entries of proposed blocks. -/
  entries : ∀ c ∈ (w.node L).store, ∃ blk ci, c = entryOf C blk ci ∧ Msg.proposal blk ∈ w.network
  /-- Every node's store is drawn from the leader's. -/
  follows : ∀ n, ∀ c ∈ (w.node n).store, c ∈ (w.node L).store
  /-- Every announcement carries an entry of the leader's store. -/
  announced : ∀ blk ci, Msg.announce blk ci ∈ w.network → entryOf C blk ci ∈ (w.node L).store
  /-- No node has sent a block-sync response. -/
  noResponse : ∀ blkID blk ci, Msg.blockResponse blkID blk ci ∉ w.network

/-- What a step of node `n` with result `r` must do to keep `AgreeInv`: stage proposed blocks,
store at most the entry of a proposed block that the leader stores or that `n`, the leader,
stores now, and announce as the leader only what it stores. -/
structure StepOK (C : Chain P) (L : N) (w : World N P) (n : N)
    (r : NodeState P × List (Msg P)) : Prop where
  staged : StagedOK C (w.network ++ r.2) r.1
  store : r.1.store = (w.node n).store ∨ ∃ blk ci, r.1.store = entryOf C blk ci :: (w.node n).store ∧
    Msg.proposal blk ∈ w.network ++ r.2 ∧ (n = L ∨ entryOf C blk ci ∈ (w.node L).store)
  announced : ∀ blk ci, Msg.announce blk ci ∈ r.2 → n = L ∧ entryOf C blk ci ∈ r.1.store
  noResponse : ∀ blkID blk ci, Msg.blockResponse blkID blk ci ∉ r.2

section StepOK

variable {n : N} {r : NodeState P × List (Msg P)}

theorem StepOK.of_leader (hn : n = L) (h : LeaderOK C w.network (w.node n) r) :
    StepOK C L w n r :=
  ⟨h.staged, h.store.imp_right fun ⟨blk, ci, hs, hblk⟩ => ⟨blk, ci, hs, hblk, .inl hn⟩,
    fun blk ci hm => ⟨hn, h.announced blk ci hm⟩, h.noResponse⟩

theorem StepOK.of_quiet (h : Quiet C w.network (w.node n) r) : StepOK C L w n r :=
  ⟨h.staged.mono (List.subset_append_left _ _), .inl h.store,
    fun blk ci hm => absurd hm (h.noAnnounce blk ci), h.noResponse⟩

/-- A node that sends nothing and stores at most an entry the leader stores. -/
theorem StepOK.of_appends {blk : Block} {ci : CommitInfo P} (hst : StagedOK C w.network r.1)
    (hout : r.2 = []) (happ : Appends C blk ci (w.node n) r.1) (hblk : Msg.proposal blk ∈ w.network)
    (hin : entryOf C blk ci ∈ (w.node L).store) : StepOK C L w n r := by
  refine ⟨hst.mono (List.subset_append_left _ _), ?_, ?_, ?_⟩
  · exact happ.imp_right fun hs => ⟨blk, ci, hs, List.mem_append_left _ hblk, .inr hin⟩
  · simp [hout]
  · simp [hout]

end StepOK

theorem AgreeInv.genesis : AgreeInv C L (World.genesis g : World N P) where
  staged _ := .of_none rfl
  entries _ h := absurd h List.not_mem_nil
  follows _ _ h := absurd h List.not_mem_nil
  announced _ _ h := absurd h List.not_mem_nil
  noResponse _ _ _ := List.not_mem_nil

variable [DecidableEq N]

/-- **A node's step that does what `StepOK` asks keeps the invariant.** The leader's store only
grows, so every clause that draws from it survives the step. -/
theorem AgreeInv.update (hw : AgreeInv C L w) {n : N} {r : NodeState P × List (Msg P)}
    (h : StepOK C L w n r) : AgreeInv C L (w.update n r) := by
  have hgrow : ∀ c ∈ (w.node L).store, c ∈ ((w.update n r).node L).store := by
    intro c hc
    by_cases hnL : L = n
    · subst hnL
      rw [World.update_node_self]
      rcases h.store with hs | ⟨blk, ci, hs, -⟩ <;> rw [hs]
      · exact hc
      · exact List.mem_cons_of_mem _ hc
    · rw [World.update_node_ne _ _ hnL]
      exact hc
  have hnet : w.network ⊆ (w.update n r).network := List.subset_append_left _ _
  refine ⟨fun m => ?_, fun c hc => ?_, fun m c hc => ?_, fun blk ci hm => ?_, fun blkID blk ci => ?_⟩
  · -- staged: the stepping node by `StepOK`, the others on a larger network
    by_cases hm : m = n
    · subst hm
      rw [World.update_node_self]
      exact h.staged
    · rw [World.update_node_ne _ _ hm]
      exact (hw.staged m).mono hnet
  · -- entries: the leader's new entry is of a proposed block
    have hold : ∀ c ∈ (w.node L).store,
        ∃ blk ci, c = entryOf C blk ci ∧ Msg.proposal blk ∈ (w.update n r).network := by
      intro c hc
      obtain ⟨blk, ci, hc, hblk⟩ := hw.entries c hc
      exact ⟨blk, ci, hc, hnet hblk⟩
    by_cases hnL : L = n
    · subst hnL
      rw [World.update_node_self] at hc
      rcases h.store with hs | ⟨blk, ci, hs, hblk, -⟩ <;> rw [hs] at hc
      · exact hold c hc
      · rcases List.mem_cons.mp hc with rfl | hc
        · exact ⟨blk, ci, rfl, hblk⟩
        · exact hold c hc
    · rw [World.update_node_ne _ _ hnL] at hc
      exact hold c hc
  · -- follows: a new entry is the leader's own, or one the leader stores
    by_cases hm : m = n
    · subst hm
      rw [World.update_node_self] at hc
      rcases h.store with hs | ⟨blk, ci, hs, -, hwho⟩ <;> rw [hs] at hc
      · exact hgrow c (hw.follows m c hc)
      · rcases List.mem_cons.mp hc with rfl | hc
        · rcases hwho with rfl | hin
          · rw [World.update_node_self, hs]
            exact List.mem_cons_self
          · exact hgrow _ hin
        · exact hgrow c (hw.follows m c hc)
    · rw [World.update_node_ne _ _ hm] at hc
      exact hgrow c (hw.follows m c hc)
  · -- announced: the leader announces only what it has just stored
    rcases List.mem_append.mp hm with hm | hm
    · exact hgrow _ (hw.announced blk ci hm)
    · obtain ⟨rfl, hin⟩ := h.announced blk ci hm
      rw [World.update_node_self]
      exact hin
  · intro hm
    rcases List.mem_append.mp hm with hm | hm
    · exact hw.noResponse blkID blk ci hm
    · exact h.noResponse blkID blk ci hm

variable [DecidableEq P]

/-- **A step of a node keeps the invariant**, when the proposals of the run have distinct
hashes: by the node's handler, with the leader's store as what every other node draws from. -/
theorem AgreeInv.step (hL : ∀ n, (net.id n).role V = .leader → n = L) (hw : AgreeInv C L w)
    (hs : NodeStep S C V net w w') (hcf : ProposalsDistinct C w'.network) : AgreeInv C L w' := by
  have hcf₀ := hcf.mono hs.network_subset
  cases hs with
  | propose n txns stamp cancelled _ hrole =>
    exact hw.update (.of_leader (hL n hrole) (proposeBlock_leaderOK C V _ (hw.staged n) _ _ _))
  | deliver n m _ _ hm =>
    cases m with
    | proposal blk => exact hw.update (.of_quiet (handleProposal_quiet S C V _ (hw.staged n) hm))
    | ack ar =>
      obtain ⟨hok, hother⟩ := handleAck_leaderOK S C V (net.id n) (hw.staged n) ar
      by_cases hrole : (net.id n).role V = .leader
      · exact hw.update (.of_leader (hL n hrole) hok)
      · -- any node but the leader ignores acks
        change AgreeInv C L (w.update n (handleAck S V (net.id n) (w.node n) ar))
        rw [hother hrole]
        exact hw.update (.of_quiet (.self (hw.staged n)))
    | reset toHeight sender =>
      exact hw.update (.of_quiet (handleReset_quiet C V _ (hw.staged n) toHeight sender))
    | announce blk ci =>
      -- the announced entry is the leader's, and so of a proposed block
      have hin := hw.announced blk ci hm
      obtain ⟨blk', ci', heq, hblk⟩ := hw.entries _ hin
      obtain rfl : blk = blk' := congrArg Committed.blk heq
      obtain ⟨hst, happ⟩ := handleAnnounce_agree S C V (net.id n) hcf₀ (hw.staged n) hblk ci
      exact hw.update (.of_appends hst rfl happ hblk hin)
    | blockResponse blkID blk ci => exact absurd hm (hw.noResponse blkID blk ci)
  | sync n p c ci _ _ _ hc hci =>
    -- the peer's entry is the leader's, and so the entry of a proposed block
    have hin := hw.follows p c hc
    obtain ⟨blk, ci', rfl, hblk⟩ := hw.entries c hin
    obtain rfl : ci' = ci := Option.some.inj hci
    obtain ⟨hst, happ⟩ := catchUp_agree S C V (net.id n) hcf₀ (hw.staged n) hblk ci'
    exact hw.update (.of_appends hst rfl happ hblk hin)

theorem nodeReachable_agreeInv (hL : ∀ n, (net.id n).role V = .leader → n = L)
    (hw : NodeReachable S C V net g w) (hcf : ProposalsDistinct C w.network) : AgreeInv C L w :=
  ReflTransGen.invariant_of_final (Q := fun w => ProposalsDistinct C w.network) AgreeInv.genesis
    (fun hs hcf => hcf.mono hs.network_subset) (fun hinv hcf hs => hinv.step hL hs hcf) hw hcf

/-- **The nodes of one leader agree.** In a run in which only the nodes send and one node
leads, two entries that any two nodes stored at the same height are the same entry: the same
block, under the same hash, app hash and commit info, provided the blocks proposed in the run
have distinct header hashes. -/
theorem honest_nodes_agree (hL : ∀ n, (net.id n).role V = .leader → n = L)
    (hw : NodeReachable S C V net g w) (hcf : ProposalsDistinct C w.network) {m n : N}
    {c₁ c₂ : Committed P} (h₁ : c₁ ∈ (w.node m).store) (h₂ : c₂ ∈ (w.node n).store)
    (hh : c₁.lc.height = c₂.lc.height) : c₁ = c₂ := by
  have hinv := nodeReachable_agreeInv hL hw hcf
  -- both entries are in the leader's store, which is a chain
  have hchain := (reachable_worldInv hw.reachable L).chained
  exact hchain.eq_of_height (hinv.follows m c₁ h₁) (hinv.follows n c₂ h₂) hh

end Runs

/-- The five-validator network of `fork_two_commit`, run by its nodes alone: the leader and
validator `[4]` both commit height one, and their entries there are one entry. -/
theorem honest_nodes_agree_pair :
    ∃ w, NodeReachable appendScheme forkChain fiveValidators (forkNet appendSign)
        ⟨0, Vector.replicate 32 0, Vector.replicate 32 0⟩ w ∧
      (w.node 0).committedAt 1 = (w.node 3).committedAt 1 ∧ ((w.node 3).committedAt 1).isSome ∧
      ∀ c₁ ∈ (w.node 0).store, ∀ c₂ ∈ (w.node 3).store, c₁.lc.height = c₂.lc.height → c₁ = c₂ := by
  obtain ⟨w, hw, h0, h3, hprop⟩ := fork_two_commit appendScheme forkChain appendSign forkKey _ _
    (fun _ => rfl) (fun _ _ => by simp [appendScheme, appendSign]) (fun _ _ => rfl)
  have hL : ∀ n, ((forkNet appendSign).id n).role fiveValidators = .leader → n = 0 := by
    intro n hn
    rw [forkNet_role] at hn
    split_ifs at hn with hn0
    · exact hn0
  have hcf : ProposalsDistinct forkChain w.network := fun b₁ b₂ h₁ h₂ _ =>
    (hprop b₁ h₁).trans (hprop b₂ h₂).symm
  refine ⟨w, hw, h0.trans h3.symm, by simp [h3], fun c₁ h₁ c₂ h₂ hh => ?_⟩
  exact honest_nodes_agree (L := 0) hL hw hcf h₁ h₂ hh

end KwilDb.Consensus
