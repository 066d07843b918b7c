import KwilDb.Consensus.Engine
import KwilDb.Lib.Run

/-!
# The network: nodes, gossip and Byzantine validators

A state of the network is every node's engine state and the messages sent so far. Gossip keeps
every message: any node may receive any of them, any number of times and in any order. An
honest node steps by proposing (when it leads and is free), by handling a message, or by
catching up on a block an honest peer stored. A Byzantine node steps by sending what it can:
its own signatures, and signatures it has seen.

`announced_block_forks` is a run in which one Byzantine validator of five makes an honest
validator and a sentry commit a block at the height where the leader committed another: a
follower accepts any announced block whose commit info passes `verifyVotes`, and one agree vote
listed three times passes it.
-/

namespace KwilDb.Consensus

open KwilDb.Lib KwilDb.Core Relation

/-- The nodes of a network: each node's identity, and which nodes are Byzantine. -/
structure Net (N : Type) where
  id : N → Identity
  byz : N → Bool

/-- A state of the whole network. -/
structure World (N P : Type) where
  node : N → NodeState P
  network : List (Msg P)

namespace World

variable {N P : Type} [DecidableEq N]

/-- Every node at the genesis commit, and nothing sent. -/
def genesis (g : LastCommit) : World N P := ⟨fun _ => NodeState.genesis g, []⟩

/-- A node's step: its new state, and what it sent joins the network. -/
def update (w : World N P) (n : N) (r : NodeState P × List (Msg P)) : World N P :=
  ⟨Function.update w.node n r.1, w.network ++ r.2⟩

@[simp] lemma update_node_self (w : World N P) (n : N) (r : NodeState P × List (Msg P)) :
    (w.update n r).node n = r.1 := by
  simp [update]

@[simp] lemma update_node_ne (w : World N P) {m n : N} (r : NodeState P × List (Msg P))
    (h : m ≠ n) : (w.update n r).node m = w.node m := by
  simp [update, h]

@[simp] lemma update_network (w : World N P) (n : N) (r : NodeState P × List (Msg P)) :
    (w.update n r).network = w.network ++ r.2 := rfl

end World

/-- The vote signatures a message carries. -/
def Msg.signatures {P : Type} : Msg P → List Signature
  | .ack ar => ar.signature.toList
  | .announce _ ci => ci.votes.map (·.signature)
  | .blockResponse _ _ ci => ci.votes.map (·.signature)
  | _ => []

section Steps

variable {N PK P : Type} [DecidableEq N] [DecidableEq P] (S : SigScheme PK) (C : Chain P)
  (V : ValidatorSet) (net : Net N)

/-- A key that a Byzantine node holds. -/
def Net.ByzKey (k : Bytes) : Prop := ∃ b, net.byz b = true ∧ (net.id b).pubKey = k

/-- A signature a Byzantine node can put in a message: one made with its own key, or one already
sent. -/
def KnownSig (w : World N P) (sig : Signature) : Prop :=
  net.ByzKey sig.pubKey ∨ ∃ m ∈ w.network, sig ∈ m.signatures

/-- **What Byzantine nodes can send.** A proposal needs the leader's signature on the block; the
network admits a gossiped ack or reset only under the key of the node that publishes it; the
votes of a commit info are signatures the Byzantine nodes made or have seen. -/
def Forgeable (w : World N P) : Msg P → Prop
  | .proposal _ => ∃ b, net.byz b = true ∧ (net.id b).role V = .leader
  | .ack ar => ∀ sig ∈ ar.signature, net.ByzKey sig.pubKey
  | .reset _ sender => net.ByzKey sender
  | .announce _ ci => ∀ v ∈ ci.votes, KnownSig net w v.signature
  | .blockResponse _ _ ci => ∀ v ∈ ci.votes, KnownSig net w v.signature

/-- **A step of the network.** -/
inductive Step (w : World N P) : World N P → Prop
  /-- An honest leader with no proposal proposes a block on its last commit. -/
  | propose (n : N) (txns : List Types.Transaction) (stamp : ℤ) (cancelled : Bool) :
      net.byz n = false → (net.id n).role V = .leader → (w.node n).blkProp = none →
      (w.node n).halted = false →
      Step w (w.update n (proposeBlock C V (net.id n) (w.node n) txns stamp cancelled))
  /-- An honest node handles a message of the network. -/
  | deliver (n : N) (m : Msg P) :
      net.byz n = false → (w.node n).halted = false → m ∈ w.network →
      Step w (w.update n (handle S C V (net.id n) (w.node n) m))
  /-- An honest node catches up on the block an honest peer stored at its next height. -/
  | sync (n p : N) (c : Committed P) (ci : CommitInfo P) :
      net.byz n = false → (w.node n).halted = false → net.byz p = false →
      c ∈ (w.node p).store → c.commitInfo = some ci →
      c.blk.header.height = (w.node n).lc.height + 1 →
      Step w (w.update n
        (catchUp S C V (net.id n) (w.node n) (C.headerHash c.blk.header) c.blk ci, []))
  /-- A Byzantine node sends what it can. -/
  | forge (m : Msg P) : Forgeable V net w m → Step w ⟨w.node, w.network ++ [m]⟩

/-- The states of the network that runs from the genesis commit reach. -/
def Reachable (g : LastCommit) (w : World N P) : Prop :=
  ReflTransGen (Step S C V net) (World.genesis g) w

/-- **A step of a network in which only the nodes send**: the steps of `Step` but `forge`. -/
inductive NodeStep (w : World N P) : World N P → Prop
  | propose (n : N) (txns : List Types.Transaction) (stamp : ℤ) (cancelled : Bool) :
      net.byz n = false → (net.id n).role V = .leader → (w.node n).blkProp = none →
      (w.node n).halted = false →
      NodeStep w (w.update n (proposeBlock C V (net.id n) (w.node n) txns stamp cancelled))
  | deliver (n : N) (m : Msg P) :
      net.byz n = false → (w.node n).halted = false → m ∈ w.network →
      NodeStep w (w.update n (handle S C V (net.id n) (w.node n) m))
  | sync (n p : N) (c : Committed P) (ci : CommitInfo P) :
      net.byz n = false → (w.node n).halted = false → net.byz p = false →
      c ∈ (w.node p).store → c.commitInfo = some ci →
      c.blk.header.height = (w.node n).lc.height + 1 →
      NodeStep w (w.update n
        (catchUp S C V (net.id n) (w.node n) (C.headerHash c.blk.header) c.blk ci, []))

/-- The states that runs of `NodeStep` from the genesis commit reach. -/
def NodeReachable (g : LastCommit) (w : World N P) : Prop :=
  ReflTransGen (NodeStep S C V net) (World.genesis g) w

end Steps

/-! ### Building runs -/

section Runs

variable {N PK P : Type} [DecidableEq N] [DecidableEq P] {S : SigScheme PK} {C : Chain P}
  {V : ValidatorSet} {net : Net N} {g : LastCommit} {w : World N P}

theorem Reachable.propose (hw : Reachable S C V net g w) {n : N} {txns : List Types.Transaction} {stamp : ℤ}
    {cancelled : Bool} {r : NodeState P × List (Msg P)} (hn : net.byz n = false)
    (hl : (net.id n).role V = .leader) (hp : (w.node n).blkProp = none)
    (hh : (w.node n).halted = false)
    (hr : proposeBlock C V (net.id n) (w.node n) txns stamp cancelled = r) :
    Reachable S C V net g (w.update n r) :=
  hr ▸ hw.tail (Step.propose n txns stamp cancelled hn hl hp hh)

theorem Reachable.deliver (hw : Reachable S C V net g w) {n : N} {s : NodeState P} {m : Msg P}
    {r : NodeState P × List (Msg P)} (hn : net.byz n = false) (hs : w.node n = s)
    (hh : s.halted = false) (hm : m ∈ w.network) (hr : handle S C V (net.id n) s m = r) :
    Reachable S C V net g (w.update n r) := by
  subst hs hr
  exact hw.tail (Step.deliver n m hn hh hm)

theorem Reachable.forge (hw : Reachable S C V net g w) {m : Msg P} (hf : Forgeable V net w m) :
    Reachable S C V net g ⟨w.node, w.network ++ [m]⟩ :=
  hw.tail (Step.forge m hf)

theorem NodeStep.step {w w' : World N P} (h : NodeStep S C V net w w') : Step S C V net w w' := by
  cases h with
  | propose n txns stamp cancelled h₁ h₂ h₃ h₄ => exact .propose n txns stamp cancelled h₁ h₂ h₃ h₄
  | deliver n m h₁ h₂ h₃ => exact .deliver n m h₁ h₂ h₃
  | sync n p c ci h₁ h₂ h₃ h₄ h₅ h₆ => exact .sync n p c ci h₁ h₂ h₃ h₄ h₅ h₆

theorem NodeStep.network_subset {w w' : World N P} (h : NodeStep S C V net w w') :
    w.network ⊆ w'.network := by
  cases h <;> exact List.subset_append_left _ _

theorem NodeReachable.reachable (h : NodeReachable S C V net g w) : Reachable S C V net g w :=
  ReflTransGen.mono (fun _ _ hs => NodeStep.step hs) _ _ h

theorem NodeReachable.propose (hw : NodeReachable S C V net g w) {n : N} {txns : List Types.Transaction}
    {stamp : ℤ} {cancelled : Bool} {r : NodeState P × List (Msg P)} (hn : net.byz n = false)
    (hl : (net.id n).role V = .leader) (hp : (w.node n).blkProp = none)
    (hh : (w.node n).halted = false)
    (hr : proposeBlock C V (net.id n) (w.node n) txns stamp cancelled = r) :
    NodeReachable S C V net g (w.update n r) :=
  hr ▸ hw.tail (NodeStep.propose n txns stamp cancelled hn hl hp hh)

theorem NodeReachable.deliver (hw : NodeReachable S C V net g w) {n : N} {s : NodeState P}
    {m : Msg P} {r : NodeState P × List (Msg P)} (hn : net.byz n = false) (hs : w.node n = s)
    (hh : s.halted = false) (hm : m ∈ w.network) (hr : handle S C V (net.id n) s m = r) :
    NodeReachable S C V net g (w.update n r) := by
  subst hs hr
  exact hw.tail (NodeStep.deliver n m hn hh hm)

/-- **A free node commits an announced next block** whose commit info verifies and whose
execution matches it, whoever announced it. -/
theorem handle_announce_commits {me : Identity} {n : NodeState P} {blk : Block}
    {ci : CommitInfo P} (hfree : n.blkProp = none) (hknown : n.hasBlock = n.lc.height)
    (hh : blk.header.height = n.lc.height + 1) (hpos : 0 ≤ blk.header.height)
    (hnew : ∀ c ∈ n.store, C.headerHash c.blk.header ≠ C.headerHash blk.header)
    (hvalid : validateBlock C V n.lc blk = .ok ())
    (hvotes : verifyVotes S V ci (C.headerHash blk.header) = .ok ())
    (hu : C.validateUpdates ci.paramUpdates = .ok ())
    (hpu : (C.execute n.lc.appHash blk).paramUpdates = ci.paramUpdates)
    (hah : (C.execute n.lc.appHash blk).appHash = ci.appHash) :
    handle S C V me n (.announce blk ci) = (NodeState.resetState { n with
      lc := ⟨blk.header.height, C.headerHash blk.header, ci.appHash⟩
      store := ⟨⟨blk.header.height, C.headerHash blk.header, ci.appHash⟩, blk, some ci⟩ :: n.store },
      []) := by
  change (handleAnnounce S C V me n blk ci, []) = _
  rw [handleAnnounce_of_free S C V me hfree hknown hh hpos hnew,
    processAndCommit_commits S C V hknown hvalid hvotes hu hpu hah]
  rfl

/-- **One Byzantine validator is enough to announce a block.** From any reachable state, a
Byzantine validator can announce a block on the last commit of an honest node that has no
proposal, with its own agree vote listed `|V|/2 + 1` times as the commit info; the node commits
the block, and no other node changes. -/
theorem Reachable.byzantine_announce (hw : Reachable S C V net g w) {b n : N} {pk : PK}
    (hb : net.byz b = true) (hbv : V.Mem (hexEncode (net.id b).pubKey) = true)
    (hk : S.unmarshalPublicKey (net.id b).pubKey (net.id b).keyType = .ok pk)
    (hs : ∀ msg, S.verify pk msg ((net.id b).sign msg) = .ok true)
    (hupd : ∀ a blk, C.validateUpdates (C.execute a blk).paramUpdates = .ok ())
    (hn : net.byz n = false) (hfree : (w.node n).blkProp = none)
    (hknown : (w.node n).hasBlock = (w.node n).lc.height) (hrun : (w.node n).halted = false)
    (hpos : 0 ≤ (w.node n).lc.height + 1) (stamp : ℤ)
    (hnew : ∀ c ∈ (w.node n).store, C.headerHash c.blk.header ≠
      C.headerHash (newBlock C V (net.id b).sign (w.node n).lc stamp []).header) :
    ∃ w', Reachable S C V net g w' ∧
      (w'.node n).committedAt ((w.node n).lc.height + 1) =
        some (newBlock C V (net.id b).sign (w.node n).lc stamp []) ∧
      ∀ m, m ≠ n → w'.node m = w.node m := by
  set lc := (w.node n).lc
  set blk := newBlock C V (net.id b).sign lc stamp []
  set blkID := C.headerHash blk.header
  set res := C.execute lc.appHash blk
  let v : VoteInfo := ⟨.agree, none, ⟨(net.id b).keyType, (net.id b).pubKey,
    (net.id b).sign (blkID.toList ++ [1] ++ res.appHash.toList)⟩⟩
  let ci : CommitInfo P := ⟨res.appHash, List.replicate (V.size / 2 + 1) v, res.paramUpdates, []⟩
  have hvotes : verifyVotes S V ci blkID = .ok () :=
    (verifyVotes_replicate S V hbv (VoteInfo.verify_of_signed S hk hs none blkID res.appHash) rfl
      rfl).1
  have hvalid : validateBlock C V lc blk = .ok () := by
    rw [validateBlock_newBlock, checkTxns_nil]
  -- the announcement carries the Byzantine validator's signatures only
  let w₁ : World N P := ⟨w.node, w.network ++ [.announce blk ci]⟩
  have r₁ : Reachable S C V net g w₁ :=
    hw.forge fun u hu => .inl ⟨b, hb, (List.eq_of_mem_replicate hu).symm ▸ rfl⟩
  let committed : NodeState P := NodeState.resetState { w.node n with
    lc := ⟨blk.header.height, blkID, ci.appHash⟩
    store := ⟨⟨blk.header.height, blkID, ci.appHash⟩, blk, some ci⟩ :: (w.node n).store }
  have hcommit : handle S C V (net.id n) (w.node n) (.announce blk ci) = (committed, []) :=
    handle_announce_commits hfree hknown rfl hpos hnew hvalid hvotes (hupd lc.appHash blk) rfl rfl
  refine ⟨w₁.update n (committed, []), r₁.deliver hn rfl hrun (by simp [w₁]) hcommit, ?_,
    fun m hm => World.update_node_ne _ _ hm⟩
  rw [World.update_node_self]
  simp [committed, NodeState.committedAt, NodeState.resetState, blk, newBlock]

end Runs

/-! ### Two blocks at height one -/

/-- The validators of the run: keys `[1]` to `[5]`, each with power `1`. -/
def fiveValidators : ValidatorSet :=
  updateValidatorSet ([1, 2, 3, 4, 5].map fun k => ⟨⟨[k], .secp256k1⟩, 1⟩)

/-- The key of node `i` of the run: `[i + 1]`. -/
def forkKey (i : Fin 6) : Bytes := [UInt8.ofNat (i.val + 1)]

/-- The network of the run: node `0` leads, nodes `1` to `4` validate, node `4` is Byzantine,
and node `5`, whose key is no validator's, is a sentry. -/
def forkNet (sign : Fin 6 → Bytes → Bytes) : Net (Fin 6) :=
  ⟨fun i => ⟨forkKey i, sign i, forkKey 0, .secp256k1⟩, fun i => i = 4⟩

lemma forkNet_role (sign : Fin 6 → Bytes → Bytes) (i : Fin 6) :
    ((forkNet sign).id i).role fiveValidators =
      if i = 0 then .leader else if i = 5 then .sentry else .validator := by
  fin_cases i <;> simp +decide [Identity.role, forkNet]

section Fork

variable {PK P : Type} [DecidableEq P] (S : SigScheme PK) (C : Chain P)
  (sign : Fin 6 → Bytes → Bytes) (pk : Fin 6 → PK) (h₀ a₀ : Hash)

/-- **The leader commits its first block** on its own vote and the acks of validators `[2]` and
`[3]`, in a run in which only the nodes send, while the other nodes are still at genesis. The
block is the one proposal of the run, and its announcement carries a commit info that verifies
and that the block's execution matches. -/
theorem fork_leader_commits
    (hkey : ∀ i, S.unmarshalPublicKey (forkKey i) .secp256k1 = .ok (pk i))
    (hsig : ∀ i msg, S.verify (pk i) msg (sign i msg) = .ok true) :
    ∃ w, NodeReachable S C fiveValidators (forkNet sign) ⟨0, h₀, a₀⟩ w ∧
      (w.node 0).committedAt 1 = some (newBlock C fiveValidators (sign 0) ⟨0, h₀, a₀⟩ 1 []) ∧
      (∀ i : Fin 6, i ≠ 0 → i ≠ 1 → i ≠ 2 → w.node i = NodeState.genesis ⟨0, h₀, a₀⟩) ∧
      (∀ b, Msg.proposal b ∈ w.network → b = newBlock C fiveValidators (sign 0) ⟨0, h₀, a₀⟩ 1 []) ∧
      ∃ ci, Msg.announce (newBlock C fiveValidators (sign 0) ⟨0, h₀, a₀⟩ 1 []) ci ∈ w.network ∧
        verifyVotes S fiveValidators ci
          (C.headerHash (newBlock C fiveValidators (sign 0) ⟨0, h₀, a₀⟩ 1 []).header) = .ok () ∧
        (C.execute a₀ (newBlock C fiveValidators (sign 0) ⟨0, h₀, a₀⟩ 1 [])).paramUpdates =
          ci.paramUpdates ∧
        (C.execute a₀ (newBlock C fiveValidators (sign 0) ⟨0, h₀, a₀⟩ 1 [])).appHash = ci.appHash := by
  set V := fiveValidators
  set net := forkNet sign
  set g : LastCommit := ⟨0, h₀, a₀⟩
  have hV : V.size = 5 := by decide
  set B := newBlock C V (sign 0) g 1 []
  set hB := C.headerHash B.header
  set res := C.execute a₀ B
  let agreeSig (i : Fin 6) : Signature :=
    ⟨.secp256k1, forkKey i, sign i (hB.toList ++ [1] ++ res.appHash.toList)⟩
  let own : VoteInfo := ⟨.agree, some res.appHash, agreeSig 0⟩
  let pB : Proposal := ⟨B.header.height, hB, B⟩
  have hver : ∀ (i : Fin 6) (a : Option Hash),
      VoteInfo.verify S ⟨.agree, a, agreeSig i⟩ hB res.appHash = .ok () :=
    fun i a => VoteInfo.verify_of_signed S (hkey i) (hsig i) a hB res.appHash
  have hcur : ∀ L : NodeState P, L.blkProp = some pB → L.blockRes = some res →
      L.round.current = some (⟨B.header.height, hB⟩, res) := fun L hp hr => by
    simp [NodeState.round, hp, hr, pB]
  have hpos : 0 < V.size := by rw [hV]; decide
  -- the leader proposes `B` and files its own vote: one agree vote of five
  let L₁ : NodeState P := { NodeState.genesis g with
    blkProp := some pB
    blockRes := some res
    votes := (∅ : GoMap String VoteInfo).insert (goString (forkKey 0)) own }
  have e₁ : proposeBlock C V (net.id 0) (NodeState.genesis g) [] 1 false = (L₁, [.proposal B]) := by
    have hwait : processVotes V L₁.round = .wait := by
      rw [processVotes_of_agree V (hcur L₁ rfl rfl) hpos]
      · simp [L₁, NodeState.round, LeaderRound.values, hasMajority, hV]
      · simp [L₁, NodeState.round, LeaderRound.values, own]
    rw [proposeBlock_executed C V _ (checkTxns_nil C)]
    change ((L₁.applyDecision (processVotes V L₁.round)).1,
      .proposal B :: (L₁.applyDecision (processVotes V L₁.round)).2) = _
    rw [hwait]
    rfl
  -- a validator at genesis executes `B` and acks it
  let ack (i : Fin 6) : AckRes :=
    ⟨true, none, B.header.height, hB, some res.appHash, none, some (agreeSig i)⟩
  let executed : NodeState P := { NodeState.genesis g with blkProp := some pB, blockRes := some res }
  have e₂ : ∀ i : Fin 6, i ≠ 0 → i ≠ 5 →
      handle S C V (net.id i) (NodeState.genesis g) (.proposal B) = (executed, [.ack (ack i)]) := by
    intro i h0 h5
    have hleader : (net.id i).leaderVerify S hB.toList B.signature = .ok true := by
      have hs : B.signature = sign 0 hB.toList := rfl
      simp [Identity.leaderVerify, net, forkNet, hkey, hs, hsig]
    have hvalid : validateBlock C V g B = .ok () := by rw [validateBlock_newBlock, checkTxns_nil]
    exact handleProposal_acks S C V (net.id i) (by simp [net, V, forkNet_role, h0, h5]) hleader rfl
      hvalid
  -- the leader files a validator's agree ack of `B` under the validator's key
  have hfile : ∀ (L : NodeState P) (i : Fin 6), L.blkProp = some pB → L.blockRes = some res →
      V.Mem (hexEncode (forkKey i)) = true → L.votes.lookup (hexEncode (forkKey i)) = none →
      let L' : NodeState P :=
        { L with votes := L.votes.insert (hexEncode (forkKey i)) ⟨.agree, none, agreeSig i⟩ }
      handle S C V (net.id 0) L (.ack (ack i)) = L'.applyDecision (processVotes V L'.round) :=
    fun L i hp hr hmem hnew => @handleAck_agree _ _ S V (net.id 0) L (ack i) (agreeSig i) pB res
      (by simp [net, V, forkNet_role]) hp hr rfl rfl hmem rfl rfl rfl hnew (hver i none)
  -- the ack of `[2]` makes two agree votes
  let L₂ : NodeState P :=
    { L₁ with votes := L₁.votes.insert (hexEncode (forkKey 1)) ⟨.agree, none, agreeSig 1⟩ }
  have e₃ : handle S C V (net.id 0) L₁ (.ack (ack 1)) = (L₂, []) := by
    have hwait : processVotes V L₂.round = .wait := by
      rw [processVotes_of_agree V (hcur L₂ rfl rfl) hpos]
      · simp +decide [L₂, L₁, NodeState.round, LeaderRound.values, hasMajority, hV]
      · simp +decide [L₂, L₁, NodeState.round, LeaderRound.values, own]
    have hnew : L₁.votes.lookup (hexEncode (forkKey 1)) = none := by
      change ((∅ : GoMap String VoteInfo).insert (goString (forkKey 0)) own).lookup _ = none
      rw [AList.lookup_insert_ne (by decide)]
      rfl
    rw [hfile L₁ 1 rfl rfl (by decide) hnew]
    change L₂.applyDecision (processVotes V L₂.round) = _
    rw [hwait]
    rfl
  -- the ack of `[3]` makes three agree votes of five: the leader commits `B` and announces it
  let L₃ : NodeState P :=
    { L₂ with votes := L₂.votes.insert (hexEncode (forkKey 2)) ⟨.agree, none, agreeSig 2⟩ }
  let ci : CommitInfo P :=
    ⟨res.appHash, L₃.round.values.insertionSort voteLE, res.paramUpdates, res.valUpdates⟩
  let L₄ : NodeState P := ({ L₃ with commitInfo := some ci } : NodeState P).commit
  have hall : ∀ v ∈ L₃.round.values, v.ackStatus = .agree := by
    simp +decide [L₃, L₂, L₁, NodeState.round, LeaderRound.values, own]
  have hmaj : hasMajority V L₃.round.values.length := by
    simp +decide [L₃, L₂, L₁, NodeState.round, LeaderRound.values, hasMajority, hV]
  -- the three votes are validators' signatures of `B` and its app hash: the commit info verifies
  have hvotes : verifyVotes S V ci hB = .ok () := by
    have hsigned : ∀ v ∈ L₃.round.values,
        V.Mem (hexEncode v.signature.pubKey) ∧ v.verify S hB res.appHash = .ok () := by
      intro v hv
      simp +decide [L₃, L₂, L₁, NodeState.round, LeaderRound.values, own] at hv
      rcases hv with rfl | rfl | rfl
      · exact ⟨(by decide : V.Mem (hexEncode (forkKey 2)) = true), hver 2 none⟩
      · exact ⟨(by decide : V.Mem (hexEncode (forkKey 1)) = true), hver 1 none⟩
      · exact ⟨(by decide : V.Mem (hexEncode (forkKey 0)) = true), hver 0 (some res.appHash)⟩
    have hperm := List.perm_insertionSort voteLE L₃.round.values
    refine (verifyVotes_eq_ok S V ci hB).mpr ⟨fun v hv => hsigned v (hperm.mem_iff.mp hv), ?_⟩
    rw [agreeCount, hperm.countP_eq, List.countP_eq_length.mpr (fun v hv => by simp [hall v hv])]
    exact hmaj
  have e₄ : handle S C V (net.id 0) L₂ (.ack (ack 2)) = (L₄, [.announce B ci]) := by
    have hcommit : processVotes V L₃.round = .commit ci := by
      rw [processVotes_of_agree V (hcur L₃ rfl rfl) hpos hall, if_pos hmaj]
    have hnew : L₂.votes.lookup (hexEncode (forkKey 2)) = none := by
      change (((∅ : GoMap String VoteInfo).insert (goString (forkKey 0)) own).insert
        (hexEncode (forkKey 1)) ⟨.agree, none, agreeSig 1⟩).lookup _ = none
      rw [AList.lookup_insert_ne (by decide), AList.lookup_insert_ne (by decide)]
      rfl
    rw [hfile L₂ 2 rfl rfl (by decide) hnew]
    change L₃.applyDecision (processVotes V L₃.round) = _
    rw [hcommit]
    rfl
  -- the run: proposal, two acks at validators `[2]` and `[3]`, and both acks at the leader
  let w₀ : World (Fin 6) P := World.genesis g
  let w₁ := w₀.update 0 (L₁, [.proposal B])
  let w₂ := w₁.update 1 (executed, [.ack (ack 1)])
  let w₃ := w₂.update 2 (executed, [.ack (ack 2)])
  let w₄ := w₃.update 0 (L₂, [])
  let w₅ := w₄.update 0 (L₄, [.announce B ci])
  have r₁ : NodeReachable S C V net g w₁ :=
    NodeReachable.propose ReflTransGen.refl rfl (by simp [net, V, forkNet_role]) rfl rfl e₁
  have r₂ : NodeReachable S C V net g w₂ :=
    r₁.deliver rfl (World.update_node_ne _ _ (by decide)) rfl (by simp [w₁, w₀, World.genesis])
      (e₂ 1 (by decide) (by decide))
  have r₃ : NodeReachable S C V net g w₃ := by
    have hn : w₂.node 2 = NodeState.genesis g := by
      rw [World.update_node_ne _ _ (by decide)]
      exact World.update_node_ne _ _ (by decide)
    exact r₂.deliver rfl hn rfl (by simp [w₂, w₁, w₀, World.genesis]) (e₂ 2 (by decide) (by decide))
  have r₄ : NodeReachable S C V net g w₄ := by
    have hn : w₃.node 0 = L₁ := by
      rw [World.update_node_ne _ _ (by decide), World.update_node_ne _ _ (by decide)]
      exact World.update_node_self _ _ _
    exact r₃.deliver rfl hn rfl (by simp [w₃, w₂, w₁, w₀, World.genesis]) e₃
  have r₅ : NodeReachable S C V net g w₅ :=
    r₄.deliver rfl (World.update_node_self _ _ _) rfl (by simp [w₄, w₃, w₂, w₁, w₀, World.genesis])
      e₄
  refine ⟨w₅, r₅, ?_, fun i h0 h1 h2 => by simp [w₅, w₄, w₃, w₂, w₁, w₀, World.genesis, h0, h1, h2],
    fun b hb => ?_, ci, by simp [w₅, w₄, w₃, w₂, w₁, w₀, World.genesis], hvotes, rfl, rfl⟩
  · rw [show w₅.node 0 = L₄ from World.update_node_self _ _ _]
    simp [L₄, NodeState.commit_of (show ({ L₃ with commitInfo := some ci } : NodeState P).blkProp =
      some pB from rfl) rfl, NodeState.committedAt, NodeState.resetState, pB, B, newBlock, g]
  · simp [w₅, w₄, w₃, w₂, w₁, w₀, World.genesis] at hb
    exact hb

/-- **Validator `[4]` commits the leader's block** when the leader's announcement reaches it: the
run of `fork_leader_commits`, in which only the nodes send, with one more delivery. -/
theorem fork_two_commit
    (hkey : ∀ i, S.unmarshalPublicKey (forkKey i) .secp256k1 = .ok (pk i))
    (hsig : ∀ i msg, S.verify (pk i) msg (sign i msg) = .ok true)
    (hupd : ∀ a blk, C.validateUpdates (C.execute a blk).paramUpdates = .ok ()) :
    ∃ w, NodeReachable S C fiveValidators (forkNet sign) ⟨0, h₀, a₀⟩ w ∧
      (w.node 0).committedAt 1 = some (newBlock C fiveValidators (sign 0) ⟨0, h₀, a₀⟩ 1 []) ∧
      (w.node 3).committedAt 1 = some (newBlock C fiveValidators (sign 0) ⟨0, h₀, a₀⟩ 1 []) ∧
      ∀ b, Msg.proposal b ∈ w.network → b = newBlock C fiveValidators (sign 0) ⟨0, h₀, a₀⟩ 1 [] := by
  set g : LastCommit := ⟨0, h₀, a₀⟩
  set B := newBlock C fiveValidators (sign 0) g 1 []
  obtain ⟨w₅, r₅, hleader, hfresh, hprop, ci, hann, hvotes, hpu, hah⟩ :=
    fork_leader_commits S C sign pk h₀ a₀ hkey hsig
  have h₃ : w₅.node 3 = NodeState.genesis g := hfresh 3 (by decide) (by decide) (by decide)
  have hvalid : validateBlock C fiveValidators g B = .ok () := by
    rw [validateBlock_newBlock, checkTxns_nil]
  have hcommit : handle S C fiveValidators ((forkNet sign).id 3) (NodeState.genesis g)
      (.announce B ci) = _ :=
    handle_announce_commits rfl rfl rfl (by decide : (0 : ℤ) ≤ 0 + 1)
      (fun _ h => absurd h List.not_mem_nil) hvalid hvotes (hpu ▸ hupd a₀ B) hpu hah
  refine ⟨_, r₅.deliver rfl h₃ rfl hann hcommit, ?_, ?_, fun b hb => hprop b (by simpa using hb)⟩
  · rw [World.update_node_ne _ _ (by decide)]
    exact hleader
  · rw [World.update_node_self]
    simp [NodeState.committedAt, NodeState.resetState, NodeState.genesis, B, newBlock, g]

theorem announced_block_forks
    (hkey : ∀ i, S.unmarshalPublicKey (forkKey i) .secp256k1 = .ok (pk i))
    (hsig : ∀ i msg, S.verify (pk i) msg (sign i msg) = .ok true)
    (hupd : ∀ a blk, C.validateUpdates (C.execute a blk).paramUpdates = .ok ()) :
    2 * (Finset.univ.filter fun i => (forkNet sign).byz i = true).card < fiveValidators.size ∧
    ∃ w, Reachable S C fiveValidators (forkNet sign) ⟨0, h₀, a₀⟩ w ∧
      ∃ b b', (w.node 0).committedAt 1 = some b ∧ (w.node 3).committedAt 1 = some b' ∧
        (w.node 5).committedAt 1 = some b' ∧ b ≠ b' := by
  refine ⟨by simp +decide [forkNet], ?_⟩
  set g : LastCommit := ⟨0, h₀, a₀⟩
  obtain ⟨w₅, r₅', hleader, hfresh, -⟩ := fork_leader_commits S C sign pk h₀ a₀ hkey hsig
  have r₅ := r₅'.reachable
  -- the Byzantine validator `[5]` announces its own block on genesis, to validator `[4]` and
  -- then to the sentry
  have hbyz := fun (w : World (Fin 6) P) (hw : Reachable S C fiveValidators (forkNet sign) g w)
      (i : Fin 6) (hi : w.node i = NodeState.genesis g) (hh : (forkNet sign).byz i = false) =>
    hw.byzantine_announce (b := 4) (n := i) rfl (by simp +decide [forkNet]) (hkey 4) (hsig 4)
      hupd hh (by rw [hi]; rfl) (by rw [hi]; rfl) (by rw [hi]; rfl)
      (by rw [hi]; simp [NodeState.genesis, g]) 2 (by rw [hi]; simp [NodeState.genesis])
  obtain ⟨w₆, r₆, h₆, f₆⟩ := hbyz w₅ r₅ 3 (hfresh 3 (by decide) (by decide) (by decide)) rfl
  obtain ⟨w₇, r₇, h₇, f₇⟩ := hbyz w₆ r₆ 5
    (by rw [f₆ 5 (by decide)]; exact hfresh 5 (by decide) (by decide) (by decide)) rfl
  refine ⟨w₇, r₇, newBlock C fiveValidators (sign 0) g 1 [],
    newBlock C fiveValidators (sign 4) g 2 [], ?_, ?_, ?_, ?_⟩
  · rw [f₇ 0 (by decide), f₆ 0 (by decide)]
    exact hleader
  · rw [f₇ 3 (by decide)]
    rw [hfresh 3 (by decide) (by decide) (by decide)] at h₆
    exact h₆
  · rw [f₆ 5 (by decide), hfresh 5 (by decide) (by decide) (by decide)] at h₇
    exact h₇
  · -- the two blocks differ in their timestamps
    intro h
    have := congrArg (fun b : Block => b.header.timestamp) h
    simp [newBlock] at this

end Fork

/-- The signatures of the witness run: a signature is the message followed by the signer's key,
and verifying one rebuilds it. -/
def appendScheme : SigScheme Bytes := ⟨fun k _ => .ok k, fun k msg sig => .ok (sig == msg ++ k)⟩

/-- Node `i`'s signing in the witness run. -/
def appendSign (i : Fin 6) (msg : Bytes) : Bytes := msg ++ forkKey i

/-- The chain of the witness run: a header hashes to its timestamp, repeated; executing a block
keeps the app hash and updates nothing. -/
def forkChain : Chain Unit where
  headerHash hdr := Vector.replicate 32 (UInt8.ofNat hdr.timestamp.toNat)
  merkleRoot _ := Vector.replicate 32 0
  sha256 _ := Vector.replicate 32 0
  paramsHash := Vector.replicate 32 0
  maxBlockSize := 6 * 1024 * 1024
  maxVotesPerTx := 1
  execute appHash _ := ⟨appHash, (), []⟩
  validateUpdates _ := .ok ()

theorem announced_block_forks_witness :
    2 * (Finset.univ.filter fun i => (forkNet appendSign).byz i = true).card <
      fiveValidators.size ∧
    ∃ w, Reachable appendScheme forkChain fiveValidators (forkNet appendSign)
        ⟨0, Vector.replicate 32 0, Vector.replicate 32 0⟩ w ∧
      ∃ b b', (w.node 0).committedAt 1 = some b ∧ (w.node 3).committedAt 1 = some b' ∧
        (w.node 5).committedAt 1 = some b' ∧ b ≠ b' :=
  announced_block_forks appendScheme forkChain appendSign forkKey _ _ (fun _ => rfl)
    (fun _ _ => by simp [appendScheme, appendSign]) (fun _ _ => rfl)

/-! ### A run of one node -/

/-- The validators of the one-node run: the leader alone, with power `1`. -/
def soloValidators : ValidatorSet := updateValidatorSet [⟨⟨forkKey 0, .secp256k1⟩, 1⟩]

/-- The one-node network: its node leads, under key `[1]`. -/
def soloNet : Net Unit := ⟨fun _ => ⟨forkKey 0, appendSign 0, forkKey 0, .secp256k1⟩, fun _ => false⟩

/-- The genesis commit of the one-node run. -/
def soloGenesis : LastCommit := ⟨0, Vector.replicate 32 0, Vector.replicate 32 0⟩

/-- The one-node run: the leader proposes its first block, which commits on its own vote. -/
def soloRun : World Unit Unit :=
  (World.genesis soloGenesis).update ()
    (proposeBlock forkChain soloValidators (soloNet.id ()) (NodeState.genesis soloGenesis) [] 1 false)

lemma soloRun_store_ne_nil : (soloRun.node ()).store ≠ [] := by
  have hlen : (soloRun.node ()).store.length = 1 := by
    rw [soloRun, World.update_node_self]
    decide
  intro h
  simp [h] at hlen

end KwilDb.Consensus
