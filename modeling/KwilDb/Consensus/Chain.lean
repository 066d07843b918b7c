import KwilDb.Consensus.Network

/-!
# Each node's committed blocks form a chain

Whatever the Byzantine nodes send and in whatever order messages arrive, every node's block
store is a chain from genesis: each block is one higher than the block before it, its previous
hash is the hash the node recorded for that block, its previous app hash is the app hash the
node computed for it, and the node's last commit is the newest entry's (`reachable_chained`).

The invariant of one node (`NodeInv`) adds what the engine keeps of the block it is working
on: a staged block extends the last commit, and its result is its execution on the last
commit's app hash. Every state change of a handler is one of four: a change of fields the
invariant does not read (`NodeInv.frame`), a reset (`NodeInv.reset`), staging a validated block
with its execution (`NodeInv.stage`), and `commit` (`NodeInv.commit`). Each handler keeps the
invariant by these four, and the network's steps by the handlers.

The recorded hash need not be the block's header hash: `applyBlock` does not compare the hash of
a block-sync response with the block's, so the chain is one of the hashes the node recorded.
-/

namespace KwilDb.Consensus

open KwilDb.Lib KwilDb.Core Relation

variable {P : Type}

/-- A block extends a last commit: it is one higher, and its previous hash and previous app hash
are the last commit's. -/
def Extends (lc : LastCommit) (blk : Block) : Prop :=
  blk.header.height = lc.height + 1 ∧ blk.header.prevHash = lc.blkHash ∧
    blk.header.prevAppHash = lc.appHash

theorem Extends.of_validateBlock (C : Chain P) (V : ValidatorSet) {lc : LastCommit} {blk : Block}
    (h : validateBlock C V lc blk = .ok ()) : Extends lc blk :=
  validateBlock_extends C V h

/-- The last commit of a block store, newest entry first: the newest entry's, or genesis. -/
def tip (g : LastCommit) : List (Committed P) → LastCommit
  | [] => g
  | c :: _ => c.lc

@[simp] lemma tip_cons (g : LastCommit) (c : Committed P) (store : List (Committed P)) :
    tip g (c :: store) = c.lc := rfl

/-- **A block store that is a chain from genesis**, newest entry first: each block extends the
last commit before it, and the store records it at its own height with the app hash of its
execution on the previous app hash. -/
def Chained (C : Chain P) (g : LastCommit) : List (Committed P) → Prop
  | [] => True
  | c :: store => Extends (tip g store) c.blk ∧ c.lc.height = c.blk.header.height ∧
      c.lc.appHash = (C.execute (tip g store).appHash c.blk).appHash ∧ Chained C g store

/-- No entry of a chained store is above its tip. -/
theorem Chained.height_le_tip {C : Chain P} {g : LastCommit} {store : List (Committed P)}
    (h : Chained C g store) : ∀ c ∈ store, c.lc.height ≤ (tip g store).height := by
  induction store with
  | nil => simp
  | cons c store ih =>
    obtain ⟨⟨hh, -⟩, hc, -, hrest⟩ := h
    intro c' hc'
    rcases List.mem_cons.mp hc' with rfl | hc'
    · exact le_refl _
    · have hle := ih hrest c' hc'
      simp only [tip_cons, hc, hh]
      omega

/-- **A chained store holds one entry per height.** -/
theorem Chained.eq_of_height {C : Chain P} {g : LastCommit} {store : List (Committed P)}
    (h : Chained C g store) {c₁ c₂ : Committed P} (h₁ : c₁ ∈ store) (h₂ : c₂ ∈ store)
    (hh : c₁.lc.height = c₂.lc.height) : c₁ = c₂ := by
  induction store with
  | nil => simp at h₁
  | cons c store ih =>
    obtain ⟨⟨hext, -⟩, hc, -, hrest⟩ := h
    -- every older entry is below the newest
    have hlt : ∀ c' ∈ store, c'.lc.height < c.lc.height := fun c' hc' => by
      have hle := hrest.height_le_tip c' hc'
      rw [hc, hext]
      omega
    rcases List.mem_cons.mp h₁ with rfl | hm₁ <;> rcases List.mem_cons.mp h₂ with rfl | hm₂
    · rfl
    · exact absurd hh (hlt _ hm₂).ne'
    · exact absurd hh (hlt _ hm₁).ne
    · exact ih hrest hm₁ hm₂

/-! ### The invariant of one node -/

/-- **What every node's state satisfies**: its store is a chain from genesis ending at its last
commit, and a staged block extends the last commit, with its execution as its result. -/
structure NodeInv (C : Chain P) (g : LastCommit) (n : NodeState P) : Prop where
  chained : Chained C g n.store
  lc_tip : n.lc = tip g n.store
  staged_extends : ∀ prop ∈ n.blkProp, Extends n.lc prop.blk ∧ prop.height = prop.blk.header.height
  staged_result : ∀ prop ∈ n.blkProp, ∀ res ∈ n.blockRes, res = C.execute n.lc.appHash prop.blk

namespace NodeInv

variable {C : Chain P} {g : LastCommit} {n m : NodeState P}

theorem genesis : NodeInv C g (NodeState.genesis g) :=
  ⟨trivial, rfl, by simp [NodeState.genesis], by simp [NodeState.genesis]⟩

/-- A state with no staged block needs only its store. -/
theorem of_free (hc : Chained C g m.store) (ht : m.lc = tip g m.store) (hp : m.blkProp = none) :
    NodeInv C g m :=
  ⟨hc, ht, by simp [hp], by simp [hp]⟩

/-- A change of the fields the invariant does not read: votes, commit info, `hasBlock`, and
whether the node halted. -/
theorem frame (h : NodeInv C g n) (hlc : m.lc = n.lc) (hs : m.store = n.store)
    (hp : m.blkProp = n.blkProp) (hr : m.blockRes = n.blockRes) : NodeInv C g m :=
  ⟨hs ▸ h.chained, hlc ▸ hs ▸ h.lc_tip, hlc ▸ hp ▸ h.staged_extends,
    hlc ▸ hp ▸ hr ▸ h.staged_result⟩

/-- `resetState` of a state on the same last commit and store. -/
theorem reset (h : NodeInv C g n) (hlc : m.lc = n.lc) (hs : m.store = n.store) :
    NodeInv C g m.resetState :=
  of_free (hs ▸ h.chained) (hlc ▸ hs ▸ h.lc_tip) rfl

/-- Staging a block that extends the last commit, with its execution as the result. -/
theorem stage {prop : Proposal} (h : NodeInv C g n) (hlc : m.lc = n.lc) (hs : m.store = n.store)
    (hp : m.blkProp = some prop) (hr : m.blockRes = some (C.execute n.lc.appHash prop.blk))
    (hext : Extends n.lc prop.blk) (hh : prop.height = prop.blk.header.height) :
    NodeInv C g m := by
  refine ⟨hs ▸ h.chained, hlc ▸ hs ▸ h.lc_tip, ?_, ?_⟩
  · intro q hq
    obtain rfl : q = prop := by simpa [hp] using hq.symm
    exact ⟨hlc ▸ hext, hh⟩
  · intro q hq res hres
    obtain rfl : q = prop := by simpa [hp] using hq.symm
    obtain rfl : res = C.execute n.lc.appHash q.blk := by simpa [hr] using hres.symm
    rw [hlc]

/-- **`commit` keeps the invariant**: the staged block extends the last commit, which is the
store's newest, and its result gives the app hash the new entry records. -/
theorem commit (h : NodeInv C g n) : NodeInv C g n.commit := by
  unfold NodeState.commit
  split
  · rename_i prop res hp hr
    obtain ⟨hext, hh⟩ := h.staged_extends prop hp
    have hres := h.staged_result prop hp res hr
    refine of_free ?_ rfl rfl
    refine ⟨?_, hh, ?_, h.chained⟩
    · rw [← h.lc_tip]
      exact hext
    · rw [← h.lc_tip, hres]
  · exact h

end NodeInv

/-! ### The handlers keep the invariant -/

section Handlers

variable {PK : Type} (S : SigScheme PK) (C : Chain P) (V : ValidatorSet) (me : Identity)
  {g : LastCommit} {n : NodeState P}

theorem applyDecision_inv (h : NodeInv C g n) (d : VotesDecision P) :
    NodeInv C g (n.applyDecision d).1 := by
  cases d with
  | wait => exact h
  | halt _ => exact h.frame rfl rfl rfl rfl
  | commit ci =>
    simp only [NodeState.applyDecision]
    split
    · refine NodeInv.commit ?_
      exact h.frame rfl rfl rfl rfl
    · exact h

theorem proposeBlock_inv (h : NodeInv C g n) (txns : List Types.Transaction) (stamp : ℤ) (cancelled : Bool) :
    NodeInv C g (proposeBlock C V me n txns stamp cancelled).1 := by
  unfold proposeBlock
  dsimp only
  split
  · exact h.frame rfl rfl rfl rfl
  · rename_i hv
    have hext := Extends.of_validateBlock C V hv
    split
    · exact h.reset rfl rfl
    · -- the leader stages its block with its execution, then files its own vote
      split
      · exact h.stage rfl rfl rfl rfl hext rfl
      · refine applyDecision_inv C ?_ _
        exact h.stage rfl rfl rfl rfl hext rfl

theorem executeProposal_inv (h : NodeInv C g n) {prop : Proposal}
    (hh : prop.height = prop.blk.header.height) :
    NodeInv C g (executeProposal C V me n prop).1 := by
  unfold executeProposal
  dsimp only
  split
  · exact h.frame rfl rfl rfl rfl
  · split <;> exact h
  · rename_i hv
    split <;> exact h.stage rfl rfl rfl rfl (Extends.of_validateBlock C V hv) hh

theorem processBlockProposal_inv (h : NodeInv C g n) {prop : Proposal}
    (hh : prop.height = prop.blk.header.height) :
    NodeInv C g (processBlockProposal C V me n prop).1 := by
  unfold processBlockProposal
  split
  · exact h
  split
  · exact h
  -- a different proposal for the next height replaces the staged one after a rollback
  split
  · split
    · exact h
    split
    · exact h
    exact executeProposal_inv C V me (h.reset rfl rfl) hh
  · exact executeProposal_inv C V me h hh

theorem handleProposal_inv (h : NodeInv C g n) (blk : Block) :
    NodeInv C g (handleProposal S C V me n blk).1 := by
  unfold handleProposal
  dsimp only
  split
  · exact processBlockProposal_inv C V me h rfl
  · exact h

theorem handleAck_inv (h : NodeInv C g n) (ar : AckRes) : NodeInv C g (handleAck S V me n ar).1 := by
  unfold handleAck
  split
  · exact h
  split
  · exact h
  split
  · refine applyDecision_inv C ?_ _
    exact h.frame rfl rfl rfl rfl
  · exact h.reset rfl rfl
  · exact h

theorem handleReset_inv (h : NodeInv C g n) (toHeight : ℤ) (sender : Bytes) :
    NodeInv C g (handleReset V me n toHeight sender) := by
  unfold handleReset
  split_ifs
  · exact h
  · exact h.reset rfl rfl
  · exact h

variable [DecidableEq P]

/-- **`processAndCommit` keeps the invariant**, whether it commits, halts or fails: it stages
only a block that validates against the last commit, with its execution. -/
theorem processAndCommit_inv (h : NodeInv C g n) (blk : Block) (ci : CommitInfo P) (blkID : Hash) :
    NodeInv C g (finalState (processAndCommit S C V n blk ci blkID)) := by
  unfold processAndCommit
  dsimp only
  split
  · exact h.frame rfl rfl rfl rfl
  split
  · exact h.frame rfl rfl rfl rfl
  · exact h.frame rfl rfl rfl rfl
  · rename_i hv
    have hext := Extends.of_validateBlock C V hv
    split
    · exact h.frame rfl rfl rfl rfl
    split_ifs
    · exact h.stage rfl rfl rfl rfl hext (by rfl)
    · exact h.stage rfl rfl rfl rfl hext (by rfl)
    · dsimp only [finalState]
      refine NodeInv.commit ?_
      exact h.stage rfl rfl rfl rfl hext (by rfl)

theorem commitProcessed_inv (h : NodeInv C g n) (blk : Block) (ci : CommitInfo P) (blkID : Hash) :
    NodeInv C g (finalState (commitProcessed S C V n blk ci blkID)) := by
  unfold commitProcessed
  dsimp only
  split
  · exact h.frame rfl rfl rfl rfl
  split
  · split_ifs
    · exact h.frame rfl rfl rfl rfl
    · exact h.frame rfl rfl rfl rfl
    split
    · exact h.frame rfl rfl rfl rfl
    · refine NodeInv.commit ?_
      exact h.frame rfl rfl rfl rfl
  · exact h.frame rfl rfl rfl rfl

theorem commitBlock_inv (h : NodeInv C g n) (blk : Block) (ci : CommitInfo P) (blkID : Hash) :
    NodeInv C g (finalState (commitBlock S C V me n blk ci blkID)) := by
  unfold commitBlock
  split
  · exact h
  split
  · exact processAndCommit_inv S C V h blk ci blkID
  split
  · exact processAndCommit_inv S C V h blk ci blkID
  split
  · exact processAndCommit_inv S C V (h.reset rfl rfl) blk ci blkID
  · exact commitProcessed_inv S C V h blk ci blkID

theorem handleAnnounce_inv (h : NodeInv C g n) (blk : Block) (ci : CommitInfo P) :
    NodeInv C g (handleAnnounce S C V me n blk ci) := by
  have hnotify : ∀ b blkID, NodeInv C g (notifyBlockCommit S C V me n b ci blkID) := by
    intro b blkID
    unfold notifyBlockCommit
    split
    · exact commitBlock_inv S C V me h b ci blkID
    · exact h
  unfold handleAnnounce
  dsimp only
  split
  · exact h
  split
  · exact h
  · exact hnotify _ _
  · split
    · exact h
    · exact hnotify _ _

theorem processCurrentBlock_inv (h : NodeInv C g n) (blkID : Hash) (blk : Block)
    (ci : CommitInfo P) : NodeInv C g (finalState (processCurrentBlock S C V n blkID blk ci)) := by
  unfold processCurrentBlock
  split
  · split_ifs
    · exact processAndCommit_inv S C V (h.reset rfl rfl) blk ci blkID
    · exact h.frame rfl rfl rfl rfl
    split
    · exact h
    · refine NodeInv.commit ?_
      exact h.frame rfl rfl rfl rfl
  · exact h

theorem catchUp_inv (h : NodeInv C g n) (blkID : Hash) (blk : Block) (ci : CommitInfo P) :
    NodeInv C g (catchUp S C V me n blkID blk ci) := by
  unfold catchUp
  split
  · exact h
  -- the response is applied, or resolves the staged block; an error only halts the node
  have hr : NodeInv C g (finalState (if me.role V = .validator ∧ n.blkProp.isSome ∧
      n.blockRes.isSome then processCurrentBlock S C V n blkID blk ci
      else processAndCommit S C V n blk ci blkID)) := by
    split
    · exact processCurrentBlock_inv S C V h blkID blk ci
    · exact processAndCommit_inv S C V h blk ci blkID
  dsimp only
  split
  · rename_i hres
    rw [hres] at hr
    exact hr
  · rename_i hres
    rw [hres] at hr
    exact hr.frame rfl rfl rfl rfl

/-- **Every handler keeps the invariant.** -/
theorem handle_inv (h : NodeInv C g n) (m : Msg P) : NodeInv C g (handle S C V me n m).1 := by
  cases m with
  | proposal blk => exact handleProposal_inv S C V me h blk
  | ack ar => exact handleAck_inv S C V me h ar
  | reset toHeight sender => exact handleReset_inv C V me h toHeight sender
  | announce blk ci => exact handleAnnounce_inv S C V me h blk ci
  | blockResponse blkID blk ci => exact catchUp_inv S C V me h blkID blk ci

end Handlers

/-! ### Every run keeps it -/

section Runs

variable {N PK : Type} [DecidableEq N] {S : SigScheme PK} {C : Chain P} {V : ValidatorSet}
  {net : Net N} {g : LastCommit} {w w' : World N P}

/-- Every node's state satisfies `NodeInv`. -/
def WorldInv (C : Chain P) (g : LastCommit) (w : World N P) : Prop :=
  ∀ n, NodeInv C g (w.node n)

theorem WorldInv.update (hw : WorldInv C g w) {n : N} {r : NodeState P × List (Msg P)}
    (hn : NodeInv C g r.1) : WorldInv C g (w.update n r) := by
  intro m
  by_cases hm : m = n
  · subst hm
    rw [World.update_node_self]
    exact hn
  · rw [World.update_node_ne _ _ hm]
    exact hw m

variable [DecidableEq P]

/-- **A step of the network keeps the invariant**: honest nodes step by the handlers, and a
Byzantine node's message changes no node. -/
theorem WorldInv.step (hw : WorldInv C g w) (hs : Step S C V net w w') : WorldInv C g w' := by
  cases hs with
  | propose n txns stamp cancelled => exact hw.update (proposeBlock_inv C V _ (hw n) _ _ _)
  | deliver n m => exact hw.update (handle_inv S C V _ (hw n) m)
  | sync n p c ci => exact hw.update (catchUp_inv S C V _ (hw n) _ _ _)
  | forge m => exact hw

theorem reachable_worldInv (hw : Reachable S C V net g w) : WorldInv C g w :=
  ReflTransGen.invariant (fun _ => NodeInv.genesis) (fun h hs => h.step hs) hw

/-- **Every node's committed blocks form a chain from genesis**, in every run: each block is one
higher than the block before it, on the hash the node recorded for that block and the app hash it
computed for it, and the node's last commit is its newest block's. -/
theorem reachable_chained (hw : Reachable S C V net g w) (n : N) :
    Chained C g (w.node n).store ∧ (w.node n).lc = tip g (w.node n).store :=
  ⟨(reachable_worldInv hw n).chained, (reachable_worldInv hw n).lc_tip⟩

/-- The leader of a one-node network, once it has committed its first block, holds a chain. -/
theorem reachable_chained_solo :
    ∃ w : World Unit Unit, Reachable appendScheme forkChain soloValidators soloNet soloGenesis w ∧
      (w.node ()).store ≠ [] ∧ Chained forkChain soloGenesis (w.node ()).store ∧
        (w.node ()).lc = tip soloGenesis (w.node ()).store := by
  have hw : Reachable appendScheme forkChain soloValidators soloNet soloGenesis soloRun :=
    Reachable.propose ReflTransGen.refl rfl (by decide) rfl rfl rfl
  exact ⟨soloRun, hw, soloRun_store_ne_nil, reachable_chained hw ()⟩

end Runs

end KwilDb.Consensus
