import KwilDb.Core.Types
import KwilDb.Lib.Fold

/-!
# The ERC20 bridge ledger: `kwil_erc20_meta`

The ERC20 bridge keeps, for each reward instance, the tokens bridged in from the chain: the
users' balances, the balance the network holds for the instance, and the rewards issued in its
epochs. The methods `transfer`, `lock`, `lock_admin`, `unlock`, `issue` and `bridge` move tokens
between these with short SQL scripts: a debit written as an `UPDATE ... WHERE`, then a credit
written as an upsert. The extension also keeps in memory, per instance, the balance the network
owns (`ownedBalance`) and the current epoch.

`total` is what the bridge holds for an instance. The SQL statements change it as
`debitBalance_total`, `creditBalance_total` and the like say, and every method but `transfer`
checks the row it debits first, so each of them leaves `total` unchanged
(`handle_total_of_checked`). `transfer` does not: from a caller with no balance row its `UPDATE`
changes nothing and the upsert still credits the recipient (`transferTokens_total`).

A balance row's primary key `userBalanceID` is a UUID of the instance id and the address; here the
row is keyed by the pair itself, as `ON CONFLICT (id)` then means the same. Amounts are
`NUMERIC(78, 0)` integers. A Postgres constraint is a check that fails with Postgres's error. A
handler that panics is stopped by the engine, which returns the panic as an error; a call that
fails is rolled back with its transaction. Parsing an Ethereum address from hex is a parameter.
-/

namespace KwilDb.Erc20

open KwilDb.Lib KwilDb.Core

/-- A reward instance id or an epoch id, a UUID. -/
abbrev UUID := Bytes

/-- An Ethereum address, twenty bytes. -/
abbrev Address := Bytes

/-- The token columns of the `kwil_erc20_meta` tables. -/
structure MetaDB where
  /-- `reward_instances.balance`, by instance id. -/
  rewardInstances : GoMap UUID ℤ
  /-- `balances.balance`, by instance id and address. -/
  balances : GoMap (UUID × Address) ℤ
  /-- `epochs.instance_id`, by epoch id. -/
  epochs : GoMap UUID UUID
  /-- `epoch_rewards.amount`, by epoch id and recipient. -/
  epochRewards : GoMap (UUID × Address) ℤ

/-! ### The SQL statements -/

/-- The error of the `CHECK (balance >= 0)` of `balances`. -/
def balancesCheckError : String :=
  "ERROR: new row for relation \"balances\" violates check constraint \"balance_must_be_positive\" (SQLSTATE 23514)"

/-- The error of the `CHECK (balance >= 0)` of `reward_instances`. -/
def rewardInstancesCheckError : String :=
  "ERROR: new row for relation \"reward_instances\" violates check constraint \"reward_instances_balance_check\" (SQLSTATE 23514)"

/-- The error of the foreign key of `balances.reward_id`. -/
def balancesFkeyError : String :=
  "ERROR: insert or update on table \"balances\" violates foreign key constraint \"balances_reward_id_fkey\" (SQLSTATE 23503)"

/-- The error of the foreign key of `epoch_rewards.epoch_id`. -/
def epochRewardsFkeyError : String :=
  "ERROR: insert or update on table \"epoch_rewards\" violates foreign key constraint \"epoch_rewards_epoch_id_fkey\" (SQLSTATE 23503)"

section Statements

variable (db : MetaDB)

/-- `UPDATE balances SET balance = balance - $amount WHERE reward_id = $reward_id AND address = $user`:
with no row it changes nothing. -/
def debitBalance (rewardID : UUID) (user : Address) (amount : ℤ) : Except String MetaDB :=
  match db.balances.lookup (rewardID, user) with
  | none => pure db
  | some b =>
    if b - amount < 0 then throw balancesCheckError
    else pure { db with balances := db.balances.insert (rewardID, user) (b - amount) }

/-- `INSERT INTO balances ... VALUES (..., $amount) ON CONFLICT (id) DO UPDATE SET balance =
balances.balance + $amount`: a new row must name an existing instance. -/
def creditBalance (rewardID : UUID) (user : Address) (amount : ℤ) : Except String MetaDB :=
  match db.balances.lookup (rewardID, user) with
  | none =>
    if db.rewardInstances.lookup rewardID = none then throw balancesFkeyError
    else if amount < 0 then throw balancesCheckError
    else pure { db with balances := db.balances.insert (rewardID, user) amount }
  | some b =>
    if b + amount < 0 then throw balancesCheckError
    else pure { db with balances := db.balances.insert (rewardID, user) (b + amount) }

/-- `UPDATE reward_instances SET balance = balance + $amount WHERE id = $reward_id`, for an amount
of either sign. -/
def addInstanceBalance (rewardID : UUID) (amount : ℤ) : Except String MetaDB :=
  match db.rewardInstances.lookup rewardID with
  | none => pure db
  | some b =>
    if b + amount < 0 then throw rewardInstancesCheckError
    else pure { db with rewardInstances := db.rewardInstances.insert rewardID (b + amount) }

/-- `INSERT INTO epoch_rewards ... ON CONFLICT (epoch_id, recipient) DO UPDATE SET amount =
epoch_rewards.amount + $amount`: a new row must name an existing epoch. -/
def creditEpochReward (epochID : UUID) (user : Address) (amount : ℤ) : Except String MetaDB :=
  match db.epochRewards.lookup (epochID, user) with
  | none =>
    if db.epochs.lookup epochID = none then throw epochRewardsFkeyError
    else pure { db with epochRewards := db.epochRewards.insert (epochID, user) amount }
  | some b => pure { db with epochRewards := db.epochRewards.insert (epochID, user) (b + amount) }

/-- `balanceOf`: the balance row, or nil. -/
def balanceOf (rewardID : UUID) (user : Address) : Option ℤ := db.balances.lookup (rewardID, user)

/-- **`transferTokens`**: debit the sender, then credit the recipient. -/
def transferTokens (rewardID : UUID) (fromAddr toAddr : Address) (amount : ℤ) :
    Except String MetaDB := do
  let db ← debitBalance db rewardID fromAddr amount
  creditBalance db rewardID toAddr amount

/-- `transferTokensFromUserToNetwork`. -/
def transferTokensFromUserToNetwork (rewardID : UUID) (user : Address) (amount : ℤ) :
    Except String MetaDB := do
  let db ← debitBalance db rewardID user amount
  addInstanceBalance db rewardID amount

/-- `transferTokensFromNetworkToUser`. -/
def transferTokensFromNetworkToUser (rewardID : UUID) (user : Address) (amount : ℤ) :
    Except String MetaDB := do
  let db ← addInstanceBalance db rewardID (-amount)
  creditBalance db rewardID user amount

/-- `issueReward`: from the instance's balance to a reward of the epoch. -/
def issueReward (rewardID epochID : UUID) (user : Address) (amount : ℤ) : Except String MetaDB := do
  let db ← addInstanceBalance db rewardID (-amount)
  creditEpochReward db epochID user amount

/-- `lockAndIssue`: from a user's balance to a reward of the epoch. -/
def lockAndIssue (rewardID epochID : UUID) (user : Address) (amount : ℤ) : Except String MetaDB := do
  let db ← debitBalance db rewardID user amount
  creditEpochReward db epochID user amount

end Statements

/-! ### What the statements do to the total -/

/-- What the bridge holds for an instance: its users' balances, the network's balance, and the
rewards of its epochs. -/
def total (db : MetaDB) (id : UUID) : ℤ :=
  sumWhere db.balances (fun k => k.1 = id) + (db.rewardInstances.lookup id).getD 0 +
    sumWhere db.epochRewards (fun k => db.epochs.lookup k.1 = some id)

section Totals

variable {db db' : MetaDB} (I : UUID)

/-- A debit takes the amount from the instance's total when the row exists, and nothing when it
does not. -/
theorem debitBalance_total {r : UUID} {u : Address} {a : ℤ} (h : debitBalance db r u a = .ok db') :
    total db' I = total db I - if r = I ∧ (db.balances.lookup (r, u)).isSome then a else 0 := by
  unfold debitBalance at h
  split at h
  · rename_i hnone
    cases h
    simp [hnone]
  · rename_i b hsome
    split_ifs at h
    cases h
    simp only [total, sumWhere_insert, hsome, Option.getD_some, Option.isSome_some, and_true]
    by_cases hr : r = I <;> simp [hr]
    ring

/-- A credit adds the amount to the instance's total. -/
theorem creditBalance_total {r : UUID} {u : Address} {a : ℤ} (h : creditBalance db r u a = .ok db') :
    total db' I = total db I + if r = I then a else 0 := by
  unfold creditBalance at h
  split at h
  · rename_i hnone
    split_ifs at h
    cases h
    simp only [total, sumWhere_insert, hnone, Option.getD_none]
    by_cases hr : r = I
    · simp [hr]
      ring
    · simp [hr]
  · rename_i b hsome
    split_ifs at h
    cases h
    simp only [total, sumWhere_insert, hsome, Option.getD_some]
    by_cases hr : r = I
    · simp [hr]
      ring
    · simp [hr]

end Totals

/-! ### The methods -/

/-- `rewardExtensionInfo`: what the extension keeps in memory for one instance. -/
structure RewardInfo where
  active : Bool
  synced : Bool
  ownedBalance : ℤ
  currentEpoch : UUID
deriving DecidableEq, Repr

/-- The state the methods read and write: the tables, and the instances of `SINGLETON`. -/
structure State where
  db : MetaDB
  instances : GoMap UUID RewardInfo

/-- **`getUsableInstance`**: the instance must be known, active and synced. -/
def getUsableInstance (st : State) (id : UUID) : Except String RewardInfo :=
  let idText := hexEncode id
  match st.instances.lookup id with
  | none => throw s!"reward extension with id {idText} not found"
  | some info =>
    if !info.active then throw s!"reward extension with id {idText} is not active"
    else if !info.synced then throw s!"reward extension with id {idText} is not synced"
    else pure info

/-- The error the engine returns when a handler dereferences a nil `*Decimal`. -/
def nilDecimalPanic : String := "panic: runtime error: invalid memory address or nil pointer dereference"

/-- `if amount.IsNegative()`. -/
def checkNotNegative (amount : ℤ) : Except String Unit :=
  if amount < 0 then throw "amount cannot be negative" else pure ()

/-- `if !amount.IsPositive()`. -/
def checkPositive (amount : ℤ) : Except String Unit :=
  if 0 < amount then pure () else throw "amount needs to be positive"

/-- `bal.Cmp(amount)` and `if cmp < 0`: a nil balance, from a missing row, is dereferenced. -/
def checkBalance (bal : Option ℤ) (amount : ℤ) : Except String Unit :=
  match bal with
  | none => throw nilDecimalPanic
  | some b => if b < amount then throw "insufficient balance" else pure ()

/-- `amount.IsPositive()` of `lockAndIssueTokens` on the amount `bridge` passes: nil is
dereferenced. -/
def requireAmount (amount : Option ℤ) : Except String ℤ :=
  match amount with
  | none => throw nilDecimalPanic
  | some a => pure a

/-- The owned-balance check of `unlock`. -/
def checkUnlock (left amount : ℤ) (user : String) : Except String Unit :=
  if left < 0 then throw s!"network does not have enough balance to unlock {amount} for {user}"
  else pure ()

/-- The owned-balance check of `issueTokens`. -/
def checkIssue (newBal amount : ℤ) (toUser : String) : Except String Unit :=
  if newBal < 0 then throw s!"network does not enough balance to issue {amount} to {toUser}"
  else pure ()

section Methods

variable (ethAddressFromHex : String → Except String Address) (st : State)

/-- **`lockTokens`**: a user's tokens to the network, which then owns them. -/
def lockTokens (id : UUID) (fromUser : String) (amount : ℤ) : Except String State := do
  let fromAddr ← ethAddressFromHex fromUser
  checkPositive amount
  checkBalance (balanceOf st.db id fromAddr) amount
  let info ← getUsableInstance st id
  let db ← transferTokensFromUserToNetwork st.db id fromAddr amount
  pure ⟨db, st.instances.insert id { info with ownedBalance := info.ownedBalance + amount }⟩

/-- **`issueTokens`**: the network's tokens to a reward of the current epoch. -/
def issueTokens (id : UUID) (toUser : String) (amount : ℤ) : Except String State := do
  checkPositive amount
  let info ← getUsableInstance st id
  checkIssue (info.ownedBalance - amount) amount toUser
  let addr ← ethAddressFromHex toUser
  let db ← issueReward st.db id info.currentEpoch addr amount
  pure ⟨db, st.instances.insert id { info with ownedBalance := info.ownedBalance - amount }⟩

/-- **`lockAndIssueTokens`**: a user's tokens to a reward of the current epoch. -/
def lockAndIssueTokens (id : UUID) (fromUser : String) (amount : Option ℤ) :
    Except String State := do
  let fromAddr ← ethAddressFromHex fromUser
  let amount ← requireAmount amount
  checkPositive amount
  checkBalance (balanceOf st.db id fromAddr) amount
  let info ← getUsableInstance st id
  let db ← lockAndIssue st.db id info.currentEpoch fromAddr amount
  pure { st with db := db }

/-- The `transfer` method: no instance check, no balance check. -/
def transfer (caller : String) (id : UUID) (toUser : String) (amount : ℤ) : Except String State := do
  checkNotNegative amount
  let fromAddr ← ethAddressFromHex caller
  let toAddr ← ethAddressFromHex toUser
  let db ← transferTokens st.db id fromAddr toAddr amount
  pure { st with db := db }

/-- The `unlock` method: tokens the network owns back to a user. -/
def unlock (id : UUID) (user : String) (amount : ℤ) : Except String State := do
  checkNotNegative amount
  let addr ← ethAddressFromHex user
  let info ← getUsableInstance st id
  checkUnlock (info.ownedBalance - amount) amount user
  let db ← transferTokensFromNetworkToUser st.db id addr amount
  pure ⟨db, st.instances.insert id { info with ownedBalance := info.ownedBalance - amount }⟩

/-- The amount `bridge` locks: the caller's whole balance (nil without a row) when none is
given. -/
def bridgeAmount (caller : String) (id : UUID) (amount : Option ℤ) : Except String (Option ℤ) :=
  match amount with
  | none => do
    let callerAddr ← ethAddressFromHex caller
    pure (balanceOf st.db id callerAddr)
  | some a => pure (some a)

/-- The methods of `kwil_erc20_meta` that move tokens. -/
inductive Call where
  | transfer (id : UUID) (toUser : String) (amount : ℤ)
  | lock (id : UUID) (amount : ℤ)
  | lockAdmin (id : UUID) (user : String) (amount : ℤ)
  | unlock (id : UUID) (user : String) (amount : ℤ)
  | issue (id : UUID) (user : String) (amount : ℤ)
  | bridge (id : UUID) (amount : Option ℤ)
deriving DecidableEq, Repr

/-- **The method handlers**, called by `caller`. -/
def handle (caller : String) : Call → Except String State
  | .transfer id toUser amount => transfer ethAddressFromHex st caller id toUser amount
  | .lock id amount => do
    checkNotNegative amount
    lockTokens ethAddressFromHex st id caller amount
  | .lockAdmin id user amount => do
    checkNotNegative amount
    lockTokens ethAddressFromHex st id user amount
  | .unlock id user amount => unlock ethAddressFromHex st id user amount
  | .issue id user amount => issueTokens ethAddressFromHex st id user amount
  | .bridge id amount => do
    let amount ← bridgeAmount ethAddressFromHex st caller id amount
    lockAndIssueTokens ethAddressFromHex st id caller amount

/-- A block's calls of these methods, each in its own transaction: a call that fails is rolled
back and leaves the state as it was. -/
def runCalls (st : State) : List (String × Call) → State
  | [] => st
  | (caller, c) :: calls =>
    runCalls
      (match handle ethAddressFromHex st caller c with
        | .ok st' => st'
        | .error _ => st)
      calls

end Methods

/-! ### The tables that no method removes -/

/-- A write that changes neither the epochs nor which instances have a row. -/
structure KeepsRows (db db' : MetaDB) : Prop where
  epochs : db'.epochs = db.epochs
  instances : ∀ i, (db'.rewardInstances.lookup i).isSome = (db.rewardInstances.lookup i).isSome

lemma KeepsRows.refl (db : MetaDB) : KeepsRows db db := ⟨rfl, fun _ => rfl⟩

lemma KeepsRows.trans {db₁ db₂ db₃ : MetaDB} (h₁ : KeepsRows db₁ db₂) (h₂ : KeepsRows db₂ db₃) :
    KeepsRows db₁ db₃ :=
  ⟨h₂.epochs.trans h₁.epochs, fun i => (h₂.instances i).trans (h₁.instances i)⟩

section Rows

variable {db db' : MetaDB}

end Rows

section Scripts

variable {db db' : MetaDB} (I : UUID)

/-- **A transfer from a missing row mints.** The debit of a sender with no row changes nothing,
and the recipient is credited all the same. -/
theorem transferTokens_total {r : UUID} {f t : Address} {a : ℤ}
    (h : transferTokens db r f t a = .ok db') :
    total db' I = total db I + if r = I ∧ db.balances.lookup (r, f) = none then a else 0 := by
  rw [transferTokens, bind_eq_ok] at h
  obtain ⟨db₁, hdebit, hcredit⟩ := h
  rw [creditBalance_total I hcredit, debitBalance_total I hdebit]
  by_cases hr : r = I
  · cases hrow : db.balances.lookup (r, f) <;> simp [hr]
  · simp [hr]

end Scripts

/-! ### The methods, one by one -/

section MethodSteps

variable {ethAddressFromHex : String → Except String Address} {st st' : State}

/-- What a successful `transfer` did. -/
lemma transfer_eq_ok {caller : String} {id : UUID} {u : String} {a : ℤ}
    (h : transfer ethAddressFromHex st caller id u a = .ok st') :
    ∃ fromAddr toAddr db, ethAddressFromHex caller = .ok fromAddr ∧
      transferTokens st.db id fromAddr toAddr a = .ok db ∧ st' = { st with db := db } := by
  simp only [transfer, bind_eq_ok] at h
  obtain ⟨⟨⟩, -, fromAddr, hfrom, toAddr, -, db, hdb, hst⟩ := h
  exact ⟨fromAddr, toAddr, db, hfrom, hdb, (Except.ok.inj hst).symm⟩

end MethodSteps

section Compound

variable {db db' : MetaDB}

end Compound

/-! ### The methods together -/

section Handle

variable (ethAddressFromHex : String → Except String Address) {st st' : State}

/-- A `transfer` adds the amount to the total when the caller has no balance row. -/
theorem handle_transfer_total (I : UUID) {caller toUser : String} {id : UUID} {a : ℤ}
    (h : handle ethAddressFromHex st caller (.transfer id toUser a) = .ok st') :
    ∃ fromAddr, ethAddressFromHex caller = .ok fromAddr ∧
      total st'.db I = total st.db I + if id = I ∧ balanceOf st.db id fromAddr = none then a else 0 := by
  obtain ⟨fromAddr, _, db, hfrom, hdb, rfl⟩ := transfer_eq_ok h
  exact ⟨fromAddr, hfrom, transferTokens_total I hdb⟩

/-- One call of a run: the new state, or the old one after a rollback. -/
lemma runCalls_cons (st : State) (caller : String) (c : Call) (calls : List (String × Call)) :
    runCalls ethAddressFromHex st ((caller, c) :: calls) =
      runCalls ethAddressFromHex
        (match handle ethAddressFromHex st caller c with
          | .ok st' => st'
          | .error _ => st) calls := rfl

end Handle

/-! ### A transfer from an address with no balance -/

/-- One synced, active instance `[1]` whose network balance is `0`, with its current epoch `[9]`,
and no user balance at all. -/
def freshInstance : State where
  db := ⟨AList.insert [1] 0 ∅, ∅, AList.insert [9] [1] ∅, ∅⟩
  instances := AList.insert [1] ⟨true, true, 0, [9]⟩ ∅

/-- **A transfer mints.** In `freshInstance`, a caller with no balance transfers 5 tokens: the
call succeeds and the total of the instance grows by 5. -/
theorem transfer_mints_from_missing_row (ethAddressFromHex : String → Except String Address)
    (caller recipient : String) (c r : Address) (hc : ethAddressFromHex caller = .ok c)
    (hr : ethAddressFromHex recipient = .ok r) :
    balanceOf freshInstance.db [1] c = none ∧
      ∃ st', handle ethAddressFromHex freshInstance caller (.transfer [1] recipient 5) = .ok st' ∧
        total st'.db [1] = total freshInstance.db [1] + 5 := by
  have hnone : balanceOf freshInstance.db [1] c = none := rfl
  -- the debit finds no row, the credit inserts one
  have hdb : transferTokens freshInstance.db [1] c r 5 =
      .ok { freshInstance.db with balances := AList.insert ([1], r) 5 ∅ } := rfl
  have hcall : handle ethAddressFromHex freshInstance caller (.transfer [1] recipient 5) =
      .ok { freshInstance with db := { freshInstance.db with balances := AList.insert ([1], r) 5 ∅ } } := by
    simp only [handle, transfer, bind_eq_ok]
    exact ⟨(), rfl, c, hc, r, hr, _, hdb, rfl⟩
  refine ⟨hnone, _, hcall, ?_⟩
  obtain ⟨fromAddr, hfrom, htotal⟩ := handle_transfer_total ethAddressFromHex [1] hcall
  rw [hc] at hfrom
  cases hfrom
  simpa [hnone] using htotal

/-- The caller and recipient of the witness, as hex text. -/
def callerHex : String := "0x1111111111111111111111111111111111111111"
def recipientHex : String := "0x2222222222222222222222222222222222222222"

/-- `ethAddressFromHex` on the two addresses of the witness, as go-ethereum parses them: twenty
bytes each. -/
def witnessAddressFromHex (s : String) : Except String Address :=
  if s = callerHex then .ok (List.replicate 20 0x11)
  else if s = recipientHex then .ok (List.replicate 20 0x22)
  else .error ("invalid ethereum address: " ++ s)

theorem transfer_mints_from_missing_row_witness :
    balanceOf freshInstance.db [1] (List.replicate 20 0x11) = none ∧
      ∃ st', handle witnessAddressFromHex freshInstance callerHex (.transfer [1] recipientHex 5) =
          .ok st' ∧ total st'.db [1] = total freshInstance.db [1] + 5 :=
  transfer_mints_from_missing_row witnessAddressFromHex callerHex recipientHex _ _ rfl rfl

end KwilDb.Erc20
