import KwilDb.Consensus.Block

/-!
# The consensus engine of one node

The state a node's `ConsensusEngine` keeps between messages, and what it does with each message
(`consensus/leader.go`, `follower.go`, `block.go`, `blocksync.go` and the stream handlers that
feed them). Each handler holds the state lock for its whole run, so it is one step here, with
block execution inside it.

* The leader proposes a block on its last commit, executes it and files its own vote, or has
  the execution cancelled, rolls back and broadcasts a reset (`proposeBlock`).
* A validator accepts a proposal (`acceptProposal`), executes it and acks it, or nacks it
  (`processBlockProposal`).
* The leader files acks and commits on a majority (`handleAck`, with `addVote`).
* A validator rolls back on the leader's reset (`handleReset`).
* Every node commits an announced block whose commit info verifies (`handleAnnounce`, through
  `AcceptCommit`, `commitBlock` and `processAndCommit`).
* A node that catches up applies a block-sync response (`catchUp`).

The app state is the state the last commit's app hash commits to: `rollbackState` returns to
it, and `Chain.execute` runs a block from it. Nothing in the engine recovers a panic: one stops
the node, which halts here.
-/

namespace KwilDb.Consensus

open KwilDb.Lib KwilDb.Core

/-- `types.Role`. -/
inductive Role where
  | leader
  | validator
  | sentry
deriving DecidableEq, Repr

/-- `blockProposal`: a block with its height and hash. -/
structure Proposal where
  height : ℤ
  blkHash : Hash
  blk : Block
deriving DecidableEq, Repr

/-- A block in the node's block store, with its commit info and the last commit the engine
made of it. -/
structure Committed (P : Type) where
  lc : LastCommit
  blk : Block
  commitInfo : Option (CommitInfo P)

/-- The engine's `state`, and what the model needs of `stateInfo`: `hasBlock`, and whether the
engine has halted. The status of `stateInfo` is `Committed` exactly when `blkProp` is empty. -/
structure NodeState (P : Type) where
  lc : LastCommit
  blkProp : Option Proposal
  blockRes : Option (BlockResult P)
  votes : GoMap String VoteInfo
  commitInfo : Option (CommitInfo P)
  hasBlock : ℤ
  store : List (Committed P)
  halted : Bool

/-- A node at the start: its last commit is the genesis one. -/
def NodeState.genesis (g : LastCommit) : NodeState P :=
  ⟨g, none, none, ∅, none, g.height, [], false⟩

/-- What a node knows of itself and of the leader: its public key, its signer, and the leader's
public key. All keys of the network are of one type. -/
structure Identity where
  pubKey : Bytes
  sign : Bytes → Bytes
  leader : Bytes
  keyType : KeyType

/-- `updateRole`. -/
def Identity.role (V : ValidatorSet) (me : Identity) : Role :=
  if me.pubKey = me.leader then .leader
  else if V.Mem (hexEncode me.pubKey) then .validator
  else .sentry

/-- The messages of the protocol. -/
inductive Msg (P : Type) where
  /-- A block proposal; the leader's signature is the block's. -/
  | proposal (blk : Block)
  /-- An ack or nack, gossiped; the network admits it only from the key that signed it. -/
  | ack (res : AckRes)
  /-- `ConsensusReset`, with the key of the node that published it. -/
  | reset (toHeight : ℤ) (sender : Bytes)
  /-- A block announcement, with the block the announcer serves. -/
  | announce (blk : Block) (ci : CommitInfo P)
  /-- A block-sync response: a hash, a commit info and a block. -/
  | blockResponse (blkID : Hash) (blk : Block) (ci : CommitInfo P)

namespace NodeState

variable {P : Type}

/-- `resetState`, and `rollbackState`, whose `blockProcessor.Rollback` returns the application to
the last commit's state. -/
def resetState (n : NodeState P) : NodeState P :=
  { n with
    blkProp := none
    blockRes := none
    votes := ∅
    commitInfo := none
    hasBlock := n.lc.height }

/-- **`commit`** with `nextState`: the proposal and its commit info go to the block store, and the
last commit becomes the proposal's block with the app hash its execution gave. -/
def commit (n : NodeState P) : NodeState P :=
  match n.blkProp, n.blockRes with
  | some prop, some res =>
    let lc : LastCommit := ⟨prop.height, prop.blkHash, res.appHash⟩
    resetState { n with lc := lc, store := ⟨lc, prop.blk, n.commitInfo⟩ :: n.store }
  | _, _ => n

/-- `commit` of a state with a proposal and its result. -/
lemma commit_of {n : NodeState P} {prop : Proposal} {res : BlockResult P}
    (hp : n.blkProp = some prop) (hr : n.blockRes = some res) :
    n.commit = resetState { n with
      lc := ⟨prop.height, prop.blkHash, res.appHash⟩
      store := ⟨⟨prop.height, prop.blkHash, res.appHash⟩, prop.blk, n.commitInfo⟩ :: n.store } := by
  simp [commit, hp, hr]

/-- The block the node committed at a height. -/
def committedAt (n : NodeState P) (h : ℤ) : Option Block :=
  (n.store.find? fun c => c.lc.height = h).map (·.blk)

/-- `blockStore.GetByHeight`. -/
def blockAt (n : NodeState P) (h : ℤ) : Option Block :=
  (n.store.find? fun c => c.blk.header.height = h).map (·.blk)

/-- The leader's round: the proposal and its result, set and cleared together, and the votes. -/
def round (n : NodeState P) : LeaderRound P :=
  ⟨match n.blkProp, n.blockRes with
    | some prop, some res => some (⟨prop.height, prop.blkHash⟩, res)
    | _, _ => none, n.votes⟩

/-- What the leader does with the decision of `processVotes`: halt, wait, or commit and announce
the block. -/
def applyDecision (n : NodeState P) : VotesDecision P → NodeState P × List (Msg P)
  | .wait => (n, [])
  | .halt _ => ({ n with halted := true }, [])
  | .commit ci =>
    match n.blkProp with
    | some prop => (({ n with commitInfo := some ci } : NodeState P).commit, [.announce prop.blk ci])
    | none => (n, [])

end NodeState

section Handlers

variable {PK P : Type} (S : SigScheme PK) (C : Chain P) (V : ValidatorSet) (me : Identity)

/-- `ce.leader.Verify`: a signature checked under the leader's public key. -/
def Identity.leaderVerify (msg sig : Bytes) : Except String Bool := do
  let pk ← S.unmarshalPublicKey me.leader me.keyType
  S.verify pk msg sig

/-- `SignVote` with the node's key. -/
def Identity.signVote (blkID : Hash) (ack : Bool) (appHash : Option Hash) :
    Except String Signature :=
  Core.signVote (fun msg => .ok (me.sign msg)) me.pubKey me.keyType blkID ack appHash

/-- An ack's signature: the block hash, `1` and the app hash, signed with the node's key. -/
lemma Identity.signVote_ack (blkID appHash : Hash) :
    me.signVote blkID true (some appHash) =
      .ok ⟨me.keyType, me.pubKey, me.sign (blkID.toList ++ [1] ++ appHash.toList)⟩ := rfl

/-! ### The leader's proposal -/

/-- **`proposeBlock`**, on the transactions the mempool gave and a timestamp. `cancelled` is a
cancellation of the block's execution, after which the leader rolls back and broadcasts a reset
to its last commit's height. An error is fatal. -/
def proposeBlock (n : NodeState P) (txns : List Types.Transaction) (stamp : ℤ) (cancelled : Bool) :
    NodeState P × List (Msg P) :=
  let blk := newBlock C V me.sign n.lc stamp txns
  let prop : Proposal := ⟨blk.header.height, C.headerHash blk.header, blk⟩
  match validateBlock C V n.lc blk with
  | .error _ => ({ n with halted := true }, [])
  | .ok () =>
    if cancelled then
      (NodeState.resetState { n with blkProp := some prop },
        [.proposal blk, .reset n.lc.height me.pubKey])
    else
      let res := C.execute n.lc.appHash blk
      let n := { n with blkProp := some prop, blockRes := some res }
      match me.signVote prop.blkHash true (some res.appHash) with
      | .error _ => ({ n with halted := true }, [.proposal blk])
      | .ok sig =>
        let n := { n with votes := (addOwnVote me.pubKey n.round res.appHash sig).votes }
        let (n, out) := n.applyDecision (processVotes V n.round)
        (n, .proposal blk :: out)

/-- **The leader's executed proposal**: the block on the last commit, its result and the
leader's own agree vote, and then `processVotes`. -/
theorem proposeBlock_executed {n : NodeState P} {txns : List Types.Transaction} {stamp : ℤ}
    (htx : checkTxns C txns = .ok ()) :
    let blk := newBlock C V me.sign n.lc stamp txns
    let res := C.execute n.lc.appHash blk
    let blkID := C.headerHash blk.header
    let n' : NodeState P := { n with
      blkProp := some ⟨blk.header.height, blkID, blk⟩
      blockRes := some res
      votes := n.votes.insert (goString me.pubKey) ⟨.agree, some res.appHash,
        ⟨me.keyType, me.pubKey, me.sign (blkID.toList ++ [1] ++ res.appHash.toList)⟩⟩ }
    proposeBlock C V me n txns stamp false =
      ((n'.applyDecision (processVotes V n'.round)).1,
        .proposal blk :: (n'.applyDecision (processVotes V n'.round)).2) := by
  intro blk res blkID n'
  simp only [proposeBlock, validateBlock_newBlock, htx, Identity.signVote_ack, Bool.false_eq_true,
    if_false]
  rfl

/-! ### A validator's proposal -/

/-- **`AcceptProposal`**, on the height, hash, leader signature and timestamp of a proposal, with
the out-of-sync nack it broadcasts for a height the node has passed. -/
def acceptProposal (n : NodeState P) (height : ℤ) (blkID : Hash) (leaderSig : Bytes)
    (timestamp : ℤ) : Bool × List (Msg P) :=
  if me.role V ≠ .validator then (false, [])
  else match me.leaderVerify S blkID.toList leaderSig with
  | .ok true =>
    if height < n.lc.height then
      match n.blockAt height, n.store.head?, me.signVote blkID false none with
      | some blk, some best, .ok sig =>
        if C.headerHash blk.header = blkID then (false, [])
        else if timestamp < blk.header.timestamp then (false, [])
        else
          let proof : OutOfSyncProof :=
            ⟨some ⟨C.headerHash best.blk.header, best.blk.header.height⟩, best.blk.signature⟩
          (false, [.ack ⟨false, some .outOfSync, height, blkID, none, some proof, some sig⟩])
      | _, _, _ => (false, [])
    else if height ≠ n.lc.height + 1 then (false, [])
    else match n.blkProp with
      | some cur => (cur.blkHash ≠ blkID ∧ cur.blk.header.timestamp < timestamp, [])
      | none => (true, [])
  | _ => (false, [])

/-- `types.NackStatusInvalidBlock`. -/
def NackStatus.invalidBlock : NackStatus := ⟨"invalid_block"⟩

/-- The rest of `processBlockProposal` once any earlier proposal is out of the way: validate the
block, then execute it and ack it, or nack it. A panic in `validateBlock` stops the node. -/
def executeProposal (n : NodeState P) (prop : Proposal) : NodeState P × List (Msg P) :=
  match validateBlock C V n.lc prop.blk with
  | .error (.panic _) => ({ n with halted := true }, [])
  | .error (.error _) =>
    match me.signVote prop.blkHash false none with
    | .ok sig =>
      (n, [.ack ⟨false, some .invalidBlock, prop.height, prop.blkHash, none, none, some sig⟩])
    | .error _ => (n, [])
  | .ok () =>
    let res := C.execute n.lc.appHash prop.blk
    let n := { n with blkProp := some prop, blockRes := some res }
    match me.signVote prop.blkHash true (some res.appHash) with
    | .ok sig =>
      (n, [.ack ⟨true, none, prop.height, prop.blkHash, some res.appHash, none, some sig⟩])
    | .error _ => (n, [])

/-- **`processBlockProposal`**: a proposal for the next height replaces a different one the
validator is processing unless it is older, after a rollback. -/
def processBlockProposal (n : NodeState P) (prop : Proposal) : NodeState P × List (Msg P) :=
  if me.role V ≠ .validator then (n, [])
  else if n.lc.height + 1 ≠ prop.height then (n, [])
  else match n.blkProp with
    | some cur =>
      if cur.blkHash = prop.blkHash then (n, [])
      else if prop.blk.header.timestamp < cur.blk.header.timestamp then (n, [])
      else executeProposal C V me n.resetState prop
    | none => executeProposal C V me n prop

/-- A proposal message: the stream handler computes the block's hash, and `AcceptProposal`
decides whether the engine processes it. -/
def handleProposal (n : NodeState P) (blk : Block) : NodeState P × List (Msg P) :=
  let blkID := C.headerHash blk.header
  match acceptProposal S C V me n blk.header.height blkID blk.signature blk.header.timestamp with
  | (true, _) => processBlockProposal C V me n ⟨blk.header.height, blkID, blk⟩
  | (false, out) => (n, out)

/-- **A free validator executes and acks the next block** the leader signed. -/
theorem handleProposal_acks {n : NodeState P} {blk : Block} (hrole : me.role V = .validator)
    (hsig : me.leaderVerify S (C.headerHash blk.header).toList blk.signature = .ok true)
    (hfree : n.blkProp = none) (hv : validateBlock C V n.lc blk = .ok ()) :
    let blkID := C.headerHash blk.header
    let res := C.execute n.lc.appHash blk
    handleProposal S C V me n blk =
      ({ n with blkProp := some ⟨blk.header.height, blkID, blk⟩, blockRes := some res },
        [.ack ⟨true, none, blk.header.height, blkID, some res.appHash, none,
          some ⟨me.keyType, me.pubKey, me.sign (blkID.toList ++ [1] ++ res.appHash.toList)⟩⟩]) := by
  intro blkID res
  have hh : blk.header.height = n.lc.height + 1 := (validateBlock_extends C V hv).1
  have hnot : ¬ n.lc.height + 1 < n.lc.height := by omega
  simp only [handleProposal, acceptProposal, processBlockProposal, executeProposal, hrole, hsig,
    hfree, hv, hh, hnot, Identity.signVote_ack, ne_eq, not_true_eq_false, if_false]
  rfl

/-! ### Acks and resets -/

/-- **An ack at the leader**: `NotifyACK` and `addVote`, with the ack filed under the hex of the
key that signed it; a valid out-of-sync proof rolls the leader back to catch up. -/
def handleAck (n : NodeState P) (ar : AckRes) : NodeState P × List (Msg P) :=
  if me.role V ≠ .leader then (n, [])
  else match ar.signature with
  | none => (n, [])
  | some sig =>
    match addVote S V (me.leaderVerify S) n.round ar (hexEncode sig.pubKey) with
    | .processed r d => ({ n with votes := r.votes } : NodeState P).applyDecision d
    | .resync _ => (n.resetState, [])
    | _ => (n, [])

/-- **The leader files a validator's agree ack** for its block under the signer's key, and
runs `processVotes` on the new votes. -/
theorem handleAck_agree {n : NodeState P} {ar : AckRes} {sig : Signature} {prop : Proposal}
    {res : BlockResult P} (hrole : me.role V = .leader) (hprop : n.blkProp = some prop)
    (hres : n.blockRes = some res) (hh : ar.height = prop.height)
    (hb : ar.blkHash = prop.blkHash) (hmem : V.Mem (hexEncode sig.pubKey)) (hack : ar.ack = true)
    (happ : ar.appHash = some res.appHash) (hsig : ar.signature = some sig)
    (hnew : n.votes.lookup (hexEncode sig.pubKey) = none)
    (hver : VoteInfo.verify S ⟨.agree, none, sig⟩ prop.blkHash res.appHash = .ok ()) :
    let n' : NodeState P :=
      { n with votes := n.votes.insert (hexEncode sig.pubKey) ⟨.agree, none, sig⟩ }
    handleAck S V me n ar = n'.applyDecision (processVotes V n'.round) := by
  intro n'
  have hcur : n.round.current = some (⟨prop.height, prop.blkHash⟩, res) := by
    simp [NodeState.round, hprop, hres]
  simp only [handleAck, hrole, hsig, ne_eq, not_true_eq_false, if_false]
  rw [addVote_foreign_signature S V hcur hh hb hmem hack happ hsig hnew hver]
  simp only [NodeState.round, hprop, hres, n']

/-- **A reset at a validator**: `NotifyResetState` and `resetBlockProp`, whose `cancelBlock` rolls
back only for a reset to the height after the last commit. -/
def handleReset (n : NodeState P) (toHeight : ℤ) (sender : Bytes) : NodeState P :=
  if me.role V ≠ .validator ∨ sender ≠ me.leader then n
  else if n.lc.height + 1 = toHeight ∧ n.blkProp.isSome then n.resetState
  else n

/-! ### Committing a block -/

/-- `acceptCommitInfo` returns a commit info whose votes verify and whose updates validate. -/
lemma acceptCommitInfo_of_verify {validateUpdates : P → Except String Unit} {ci : CommitInfo P}
    {blkID : Hash} (hv : verifyVotes S V ci blkID = .ok ())
    (hu : validateUpdates ci.paramUpdates = .ok ()) :
    acceptCommitInfo S V validateUpdates (some ci) blkID = .ok ci := by
  simp only [acceptCommitInfo, hv, hu]
  rfl

variable [DecidableEq P]

/-- **`processAndCommit`**: validate the block and its commit info, execute it, and commit it if
the results match the commit info; a mismatch halts the node. -/
def processAndCommit (n : NodeState P) (blk : Block) (ci : CommitInfo P) (blkID : Hash) :
    EStateM.Result String (NodeState P) Unit :=
  let oldH := n.hasBlock
  let n := { n with hasBlock := blk.header.height }
  if oldH ≠ n.lc.height then
    .error ("block " ++ toString oldH ++ " already processed, duplicate block announcement " ++
      "received " ++ hashString blkID) n
  else match validateBlock C V n.lc blk with
  | .error (.error e) => .error e n
  | .error (.panic m) => .error m { n with halted := true }
  | .ok () =>
    match acceptCommitInfo S V C.validateUpdates (some ci) blkID with
    | .error e => .error ("error validating commitInfo: " ++ e) n
    | .ok ci =>
      let res := C.execute n.lc.appHash blk
      let n := { n with
        commitInfo := some ci
        blkProp := some ⟨blk.header.height, blkID, blk⟩
        blockRes := some res }
      if res.paramUpdates ≠ ci.paramUpdates then
        .error "processAndCommit: Incorrect ParamUpdates, halting the node." { n with halted := true }
      else if res.appHash ≠ ci.appHash then
        .error ("processAndCommit: AppHash mismatch, halting the node. expected: " ++
          hashString res.appHash ++ ", received: " ++ hashString ci.appHash) { n with halted := true }
      else .ok () n.commit

/-- **`processAndCommit` commits** a block that validates, under a commit info that verifies and
that the block's execution matches. -/
theorem processAndCommit_commits {n : NodeState P} {blk : Block} {ci : CommitInfo P}
    {blkID : Hash} (hb : n.hasBlock = n.lc.height) (hv : validateBlock C V n.lc blk = .ok ())
    (hci : verifyVotes S V ci blkID = .ok ()) (hu : C.validateUpdates ci.paramUpdates = .ok ())
    (hpu : (C.execute n.lc.appHash blk).paramUpdates = ci.paramUpdates)
    (hah : (C.execute n.lc.appHash blk).appHash = ci.appHash) :
    processAndCommit S C V n blk ci blkID = .ok () (NodeState.resetState { n with
      lc := ⟨blk.header.height, blkID, ci.appHash⟩
      store := ⟨⟨blk.header.height, blkID, ci.appHash⟩, blk, some ci⟩ :: n.store }) := by
  simp only [processAndCommit, hb, hv, acceptCommitInfo_of_verify S V hci hu, hpu, hah, ne_eq,
    not_true_eq_false, if_false]
  rw [NodeState.commit_of rfl rfl, hah]
  rfl

/-- The branch of `commitBlock` for the block the validator has already executed: the results
must match the commit info, which must verify. -/
def commitProcessed (n : NodeState P) (blk : Block) (ci : CommitInfo P) (blkID : Hash) :
    EStateM.Result String (NodeState P) Unit :=
  let oldH := n.hasBlock
  let n := { n with hasBlock := blk.header.height }
  if oldH ≠ n.lc.height then
    .error ("block " ++ toString oldH ++ " already processed, duplicate commitBlock " ++
      hashString blkID) n
  else match n.blkProp, n.blockRes with
  | some prop, some res =>
    if res.paramUpdates ≠ ci.paramUpdates then .ok () { n with halted := true }
    else if res.appHash ≠ ci.appHash then .ok () { n with halted := true }
    else match acceptCommitInfo S V C.validateUpdates (some ci) prop.blkHash with
      | .error e => .error e n
      | .ok ci => .ok () ({ n with commitInfo := some ci } : NodeState P).commit
  | _, _ => .ok () n

/-- **`commitBlock`**: a sentry, or a validator without a proposal, processes the block; a
validator that executed another block rolls it back first. -/
def commitBlock (n : NodeState P) (blk : Block) (ci : CommitInfo P) (blkID : Hash) :
    EStateM.Result String (NodeState P) Unit :=
  if n.lc.height + 1 ≠ blk.header.height then .ok () n
  else if me.role V = .sentry then processAndCommit S C V n blk ci blkID
  else match n.blkProp with
    | none => processAndCommit S C V n blk ci blkID
    | some prop =>
      if prop.blkHash ≠ blkID then processAndCommit S C V n.resetState blk ci blkID
      else commitProcessed S C V n blk ci blkID

/-- `NotifyBlockCommit`: the engine is handed the block unless it already knows of one at that
height. Its error is only logged. -/
def notifyBlockCommit (n : NodeState P) (blk : Block) (ci : CommitInfo P) (blkID : Hash) :
    NodeState P :=
  if n.hasBlock ≠ blk.header.height then finalState (commitBlock S C V me n blk ci blkID)
  else n

/-- What the announcement handler does after `AcceptCommit`. -/
inductive CommitAction where
  /-- Nothing. -/
  | skip
  /-- Hand the block of the node's own proposal to the engine. -/
  | own (blk : Block)
  /-- Fetch the announced block. -/
  | fetch

/-- **`AcceptCommit`**. It makes no check of who announced the block. -/
def acceptCommit (n : NodeState P) (height : ℤ) (blkID : Hash) : CommitAction :=
  let mine := n.blkProp.filter (·.blkHash = blkID)
  if n.hasBlock = height ∧ mine.isSome then .skip
  else match mine with
    | some prop => .own prop.blk
    | none => if n.lc.height + 1 ≠ height then .skip else .fetch

/-- **A block announcement**: `blkAnnStreamHandler` checks the height and the served block's
hash, skips a block the store has, and hands the block to the engine after `AcceptCommit`. -/
def handleAnnounce (n : NodeState P) (blk : Block) (ci : CommitInfo P) : NodeState P :=
  let blkID := C.headerHash blk.header
  if blk.header.height < 0 then n
  else match acceptCommit n blk.header.height blkID with
  | .skip => n
  | .own b => notifyBlockCommit S C V me n b ci blkID
  | .fetch =>
    if n.store.any (fun c => C.headerHash c.blk.header = blkID) then n
    else notifyBlockCommit S C V me n blk ci blkID

/-- **A node without a proposal hands an announced next block to `processAndCommit`**,
whoever announced it. -/
theorem handleAnnounce_of_free {n : NodeState P} {blk : Block} {ci : CommitInfo P}
    (hfree : n.blkProp = none) (hb : n.hasBlock = n.lc.height)
    (hh : blk.header.height = n.lc.height + 1) (hpos : 0 ≤ blk.header.height)
    (hnew : ∀ c ∈ n.store, C.headerHash c.blk.header ≠ C.headerHash blk.header) :
    handleAnnounce S C V me n blk ci =
      finalState (processAndCommit S C V n blk ci (C.headerHash blk.header)) := by
  have hstore : n.store.any (fun c => C.headerHash c.blk.header = C.headerHash blk.header) =
      false := by
    simpa using hnew
  have hneg : ¬ n.lc.height + 1 < 0 := by omega
  have hne : ¬ n.hasBlock = n.lc.height + 1 := by omega
  unfold handleAnnounce
  simp only [hh, hneg, if_false, acceptCommit, hfree, Option.filter_none, Option.isSome_none,
    Bool.false_eq_true, and_false, ne_eq, not_true_eq_false, hstore, notifyBlockCommit, hne,
    not_false_eq_true, if_true, commitBlock, ite_self]

/-! ### Catching up -/

/-- **`processCurrentBlock`**: a validator waiting for the commit of the block it executed
commits it when the response has its hash and app hash, and otherwise replays the response's
block. -/
def processCurrentBlock (n : NodeState P) (blkID : Hash) (blk : Block) (ci : CommitInfo P) :
    EStateM.Result String (NodeState P) Unit :=
  match n.blkProp, n.blockRes with
  | some prop, some res =>
    if blkID ≠ prop.blkHash then processAndCommit S C V n.resetState blk ci blkID
    else if ci.appHash ≠ res.appHash then .ok () { n with halted := true }
    else match acceptCommitInfo S V C.validateUpdates (some ci) blkID with
      | .error e => .error e n
      | .ok ci => .ok () ({ n with commitInfo := some ci } : NodeState P).commit
  | _, _ => .ok () n

/-- **`doCatchup`** on one block-sync response for the next height: a validator waiting for a
commit resolves its own block, any other node applies the response (`applyBlock`, which does not
compare the response's hash with the block's). The leader does not catch up, and an error stops
the engine. -/
def catchUp (n : NodeState P) (blkID : Hash) (blk : Block) (ci : CommitInfo P) : NodeState P :=
  if me.role V = .leader then n
  else
    let r :=
      if me.role V = .validator ∧ n.blkProp.isSome ∧ n.blockRes.isSome then
        processCurrentBlock S C V n blkID blk ci
      else processAndCommit S C V n blk ci blkID
    match r with
    | .ok () n' => n'
    | .error _ n' => { n' with halted := true }

/-- **A node's handling of a message.** -/
def handle (n : NodeState P) : Msg P → NodeState P × List (Msg P)
  | .proposal blk => handleProposal S C V me n blk
  | .ack ar => handleAck S V me n ar
  | .reset h sender => (handleReset V me n h sender, [])
  | .announce blk ci => (handleAnnounce S C V me n blk ci, [])
  | .blockResponse blkID blk ci => (catchUp S C V me n blkID blk ci, [])

end Handlers

end KwilDb.Consensus
