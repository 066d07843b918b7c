import KwilDb.Accounts.Store

/-!
# Executing a transaction: `checkAndSpend` and the transfer route

`baseRoute.Execute` runs a transaction in its own database transaction, nested in the block's.
`checkAndSpend` first charges the sender the route's price, or the fee when the fee is below it;
when the balance does not cover the charge it spends what `GetAccount` reports as the balance.
The route's own work follows in a further nested transaction. The transfer route is the route
modelled here; its payload comes decoded, and `TxSenderAcctID` is taken as done (`sender`).

A block is a run of `execute` from the node's committed table and `Accounts` value. The block is
then committed (`TxApp.Commit` and the consensus transaction's commit) or abandoned
(`TxApp.Rollback` and the consensus transaction's rollback).

`GetAccount` reads `records` before the table, and on a miss it caches the row the running block
has written. `Rollback` leaves `records` alone, so a block that is abandoned can leave one of its
rows in the cache, and the next block then charges an account that the database does not have
(`rollback_leaves_block_row_in_cache`).
-/

namespace KwilDb.TxApp

open KwilDb.Lib KwilDb.Core KwilDb.AccountStore

/-- `types.TxCode`, the codes this route returns. -/
inductive TxCode where
  | ok
  | insufficientBalance
  | insufficientFee
  | invalidAmount
  | networkInMigration
  | unknownError
deriving DecidableEq, Repr

/-- `TxResponse`: the code, `spend.Int64()`, the log and the error's text. -/
structure TxResponse where
  code : TxCode
  spend : ℤ
  log : String
  error : Option String
deriving DecidableEq, Repr

/-- `txRes`: a nil spend is zero. -/
def txRes (spend : Option ℤ) (code : TxCode) (log : String) (err : Option String) : TxResponse :=
  ⟨code, spend.getD 0, log, err⟩

/-- `types.Transfer`, decoded. -/
structure Transfer where
  recipient : AccountID
  amount : ℤ
deriving DecidableEq, Repr

/-- A transaction of the transfer route: its sender as `TxSenderAcctID` derives it, the fee, the
nonce and the payload. -/
structure Transaction where
  sender : AccountID
  fee : ℤ
  nonce : ℤ
  transfer : Transfer
deriving DecidableEq, Repr

/-- The network parameters `checkAndSpend` and the route read. `inMigration` is a migration status
of `MigrationInProgress` or `MigrationCompleted`. -/
structure NetworkParams where
  disabledGasCosts : Bool
  inMigration : Bool
deriving DecidableEq, Repr

/-- What `checkAndSpend` returns: `(*big.Int, types.TxCode, error)`. -/
structure Charge where
  spend : Option ℤ
  code : TxCode
  err : Option String
deriving DecidableEq, Repr

/-- The result of a spend that found no account. -/
def zeroBalance : Charge := ⟨none, .insufficientBalance, some "account has zero balance"⟩

/-- The result of a spend that failed otherwise. -/
def unknownCharge (e : AccountsError) : Charge := ⟨none, .unknownError, some e.error⟩

/-! ### `checkAndSpend` -/

section Charging

variable (tx : Transaction) (amt : ℤ)

/-- The branch of `checkAndSpend` for a fee below the price: the fee is spent, or, when the balance
does not cover it, the balance `GetAccount` reports. -/
def spendFee : AccountsM Charge := do
  match ← attempt (spend tx.sender tx.fee tx.nonce) with
  | .ok () =>
    let fee := toString tx.fee
    let required := toString amt
    pure ⟨some tx.fee, .insufficientFee, some ("transaction does not consent to spending " ++
      s!"enough tokens. transaction fee: {fee}, required fee: {required}")⟩
  | .error (.insufficientFunds _ _ _) =>
    match ← attempt (GetAccount tx.sender) with
    | .error e => pure (unknownCharge e)
    | .ok account =>
      match ← attempt (spend tx.sender account.balance tx.nonce) with
      | .ok () =>
        let required := toString amt
        let fee := toString tx.fee
        pure ⟨some account.balance, .insufficientBalance,
          some (s!"transaction tries to spend {required} tokens, " ++
            s!"but account only has {fee} tokens")⟩
      | .error .accountNotFound => pure zeroBalance
      | .error e2 => pure (unknownCharge e2)
  | .error .accountNotFound => pure zeroBalance
  | .error e => pure (unknownCharge e)

/-- The branch of `checkAndSpend` for a fee that covers the price: the price is spent, or, when the
balance does not cover it, the balance `GetAccount` reports. -/
def spendPrice : AccountsM Charge := do
  match ← attempt (spend tx.sender amt tx.nonce) with
  | .ok () => pure ⟨some amt, .ok, none⟩
  | .error (.insufficientFunds _ _ _) =>
    match ← attempt (GetAccount tx.sender) with
    | .error e => pure (unknownCharge e)
    | .ok account =>
      match ← attempt (spend tx.sender account.balance tx.nonce) with
      | .ok () =>
        let required := toString amt
        let balance := toString account.balance
        pure ⟨some account.balance, .insufficientBalance,
          some s!"transaction tries to spend {required} tokens, but account has {balance} tokens"⟩
      | .error e2 => pure (unknownCharge e2)
  | .error .accountNotFound => pure zeroBalance
  | .error e => pure (unknownCharge e)

end Charging

/-- **`checkAndSpend`** at the route's price. -/
def checkAndSpend (params : NetworkParams) (price : ℤ) (tx : Transaction) : AccountsM Charge := do
  let amt := if params.disabledGasCosts then 0 else price
  -- read for a debug log only, but the read fills the cache
  let _ ← attempt (GetAccount tx.sender)
  if tx.fee < amt then spendFee tx amt else spendPrice tx amt

/-! ### The transfer route -/

/-- The code `transferRoute.InTx` gives a failed transfer. -/
def transferErrorCode : AccountsError → TxCode
  | .insufficientFunds _ _ _ => .insufficientBalance
  | .negativeBalance => .invalidAmount
  | _ => .unknownError

/-- The codes for which `Execute` commits what a failed `checkAndSpend` spent. -/
def keepsSpend : TxCode → Bool
  | .ok | .insufficientBalance | .insufficientFee => true
  | _ => false

/-- `transferRoute.Price`. -/
def transferPrice : ℤ := 210000

/-- `transferRoute.PreTx` and `InTx`, the latter in a nested transaction. -/
def transferRoute (params : NetworkParams) (tx : Transaction) (spent : Option ℤ) :
    AccountsM TxResponse :=
  if params.inMigration then
    pure (txRes spent .networkInMigration "" (some "cannot transfer during migration"))
  else if tx.transfer.amount < 0 then
    let amount := toString tx.transfer.amount
    pure (txRes spent .invalidAmount "" (some s!"invalid transfer amount: {amount}"))
  else do
    match ← attempt (nestedTx (transfer tx.sender tx.transfer.recipient tx.transfer.amount)) with
    | .ok () => pure (txRes spent .ok "" none)
    | .error e => pure (txRes spent (transferErrorCode e) "" (some e.error))

/-- **`baseRoute.Execute`** of the transfer route. -/
def execute (params : NetworkParams) (tx : Transaction) : AccountsM TxResponse := do
  let dbTx := (← get).table
  let c ← checkAndSpend params transferPrice tx
  match c.err with
  | some err =>
    modify fun env => if keepsSpend c.code then env else { env with table := dbTx }
    pure (txRes c.spend c.code "" (some err))
  | none => transferRoute params tx c.spend

/-! ### Blocks -/

/-- What a node keeps from block to block: its `Accounts` value and the committed table. -/
structure Node where
  accounts : Accounts
  committed : Table

/-- The transactions of a block, in order, in the block's database transaction. -/
def executeTxs (params : NetworkParams) (txs : List Transaction) : AccountsM (List TxResponse) :=
  txs.mapM (execute params)

/-- A block run from the node's committed state: the responses, and the store the block leaves. -/
def runBlock (params : NetworkParams) (n : Node) (txs : List Transaction) :
    List TxResponse × Env :=
  match executeTxs params txs ⟨n.accounts, n.committed⟩ with
  | .ok rs env => (rs, env)
  | .error _ env => ([], env)

/-- `TxApp.Commit`, with the block's database transaction committed. -/
def Node.commit (env : Env) : Node := ⟨env.accounts.commit, env.table⟩

/-- `TxApp.Rollback`, with the block's database transaction rolled back. -/
def Node.rollback (n : Node) (env : Env) : Node := ⟨env.accounts.rollback, n.committed⟩

theorem rollback_leaves_block_row_in_cache :
    let params : NetworkParams := ⟨false, false⟩
    let payer : AccountID := ⟨[2], .secp256k1⟩
    let payee : AccountID := ⟨[1], .secp256k1⟩
    let committed : Table := AList.insert ([2], 0) ⟨1000000, 0⟩ ∅
    let fresh : Node := ⟨⟨∅, ∅, []⟩, committed⟩
    -- the payer's transfer creates the payee's account, which then pays for a transaction
    let block : List Transaction :=
      [⟨payer, 210000, 1, ⟨payee, 500000⟩⟩, ⟨payee, 210000, 1, ⟨payer, 0⟩⟩]
    let aborted := fresh.rollback (runBlock params fresh block).2
    let next : List Transaction := [⟨payee, 210000, 1, ⟨payer, 0⟩⟩]
    committed.row payee = none ∧
      aborted.accounts.records.lookup (acctMapKey payee) = some ⟨500000, 0⟩ ∧
      (runBlock params aborted next).1 ≠ (runBlock params fresh next).1 := by
  decide +kernel

end KwilDb.TxApp
