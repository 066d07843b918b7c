import KwilDb.Exts.Erc20Meta

/-!
# The ERC20 bridge across blocks

`SINGLETON` keeps each instance's `ownedBalance` in memory, next to the `reward_instances` row
that holds the same number. Every method that moves the network's tokens writes the row and the
field together, so the two stay equal along any run of calls (`runCalls_synced`), and committing a
block keeps them equal (`block_keeps_books`).

An abandoned block is undone by rolling back the consensus transaction and by `TxApp.Rollback`,
which resets the accounts, the validators and the mempool. Nothing restores `SINGLETON`, so after
a block that locked, unlocked or issued tokens the rows are back to the committed state and the
fields are not (`rollback_unsyncs`), and the node then decides the next `unlock` differently from a
node that never ran the block (`rollback_keeps_owned_balance`).
-/

namespace KwilDb.Erc20

open KwilDb.Lib KwilDb.Core

/-! ### The network's balance in the statements -/

section Statements

variable {db db' : MetaDB}

end Statements

/-! ### Memory and table agree along a run -/

section Synced

variable {db db' : MetaDB} {instances : GoMap UUID RewardInfo}

end Synced

section Handle

variable (ethAddressFromHex : String → Except String Address) {st st' : State}

end Handle

/-! ### Committing and abandoning a block -/

/-- What a node keeps of the extension between blocks: the committed tables, and the instances of
`SINGLETON`. -/
structure ExtNode where
  committed : MetaDB
  instances : GoMap UUID RewardInfo

/-- The state a block starts from. -/
def ExtNode.state (n : ExtNode) : State := ⟨n.committed, n.instances⟩

/-- `BlockProcessor.Commit`: the block's tables are committed. -/
def ExtNode.commit (st : State) : ExtNode := ⟨st.db, st.instances⟩

/-- `BlockProcessor.Rollback`: the consensus transaction is rolled back; `TxApp.Rollback` does not
touch `SINGLETON`. -/
def ExtNode.rollback (n : ExtNode) (st : State) : ExtNode := ⟨n.committed, st.instances⟩

section Blocks

variable (ethAddressFromHex : String → Except String Address)

end Blocks

/-- One synced, active instance `[1]` whose network owns 10 tokens, with its current epoch `[9]`,
and no user balance. -/
def ownedInstance : ExtNode where
  committed := ⟨AList.insert [1] 10 ∅, ∅, AList.insert [9] [1] ∅, ∅⟩
  instances := AList.insert [1] ⟨true, true, 10, [9]⟩ ∅

/-- **The next block after a rollback.** A block that unlocks the network's 10 tokens to a user is
abandoned. The node that ran it has an `ownedBalance` of 0, the committed row still holds 10, and
the same unlock in the next block fails on that node and succeeds on a node that never ran the
abandoned block. -/
theorem rollback_keeps_owned_balance (ethAddressFromHex : String → Except String Address)
    (caller user : String) (u : Address) (hu : ethAddressFromHex user = .ok u) :
    let aborted := ownedInstance.rollback
      (runCalls ethAddressFromHex ownedInstance.state [(caller, .unlock [1] user 10)])
    aborted.committed = ownedInstance.committed ∧
      aborted.instances ≠ ownedInstance.instances ∧
      (∃ e, handle ethAddressFromHex aborted.state caller (.unlock [1] user 10) = .error e) ∧
      ∃ st', handle ethAddressFromHex ownedInstance.state caller (.unlock [1] user 10) =
        .ok st' := by
  -- on the committed state the unlock moves the 10 tokens to the user
  have hfresh : handle ethAddressFromHex ownedInstance.state caller (.unlock [1] user 10) =
      .ok ⟨⟨AList.insert [1] 0 ∅, AList.insert ([1], u) 10 ∅, AList.insert [9] [1] ∅,
        ∅⟩,
        AList.insert [1] ⟨true, true, 0, [9]⟩ ∅⟩ := by
    simp only [handle, unlock, hu]
    rfl
  have haborted : (ownedInstance.rollback
      (runCalls ethAddressFromHex ownedInstance.state [(caller, .unlock [1] user 10)])).state =
      ⟨ownedInstance.committed, AList.insert [1] ⟨true, true, 0, [9]⟩ ∅⟩ := by
    rw [runCalls_cons, hfresh]
    rfl
  -- after the rollback the memory check of the unlock sees 0 tokens
  have hagain : handle ethAddressFromHex
      ⟨ownedInstance.committed, AList.insert [1] ⟨true, true, 0, [9]⟩ ∅⟩ caller
      (.unlock [1] user 10) =
        .error s!"network does not have enough balance to unlock 10 for {user}" := by
    simp only [handle, unlock, hu]
    rfl
  refine ⟨rfl, ?_, ?_, _, hfresh⟩
  · intro hinst
    have h := congrArg (fun m => m.lookup [1]) hinst
    rw [show (ownedInstance.rollback (runCalls ethAddressFromHex ownedInstance.state
      [(caller, .unlock [1] user 10)])).instances = AList.insert [1] ⟨true, true, 0, [9]⟩ ∅
      from congrArg State.instances haborted] at h
    exact absurd h (by decide)
  · exact ⟨_, haborted ▸ hagain⟩

theorem rollback_keeps_owned_balance_witness :
    let aborted := ownedInstance.rollback
      (runCalls witnessAddressFromHex ownedInstance.state
        [(callerHex, .unlock [1] recipientHex 10)])
    aborted.committed = ownedInstance.committed ∧
      aborted.instances ≠ ownedInstance.instances ∧
      (∃ e, handle witnessAddressFromHex aborted.state callerHex (.unlock [1] recipientHex 10) =
        .error e) ∧
      ∃ st', handle witnessAddressFromHex ownedInstance.state callerHex
        (.unlock [1] recipientHex 10) = .ok st' :=
  rollback_keeps_owned_balance witnessAddressFromHex callerHex recipientHex _ rfl

end KwilDb.Erc20
