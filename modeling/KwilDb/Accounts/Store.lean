import KwilDb.Core.Types

/-!
# The account store

`node/accounts` keeps every account's balance and nonce in `kwild_accts.accounts`, and in front
of the table an `Accounts` value: `records`, a cache of rows read before, `updates`, the rows the
current block has written, and `spends`, the block's spends. Both maps are keyed by `acctMapKey`.

A call reads and writes the `Accounts` value and the table as the block's database transaction
sees it. `Env` holds the two, and a call is an `EStateM` over it, so a call that fails keeps what it
changed before failing, as the Go methods do. The SQL of `sql.go` is in the namespace `Sql`.

`records` is an `lru.Map` of 4000 entries; here it is a finite map, which is what an LRU map is
below its capacity. Eviction is not modelled.
-/

namespace KwilDb.AccountStore

open KwilDb.Lib KwilDb.Core

/-- `types.Account` without its ID: the balance, a `big.Int`, and the nonce. -/
structure Account where
  balance : ℤ
  nonce : ℤ
deriving DecidableEq, Repr

/-- `kwild_accts.accounts`, keyed by its primary key `(identifier, id_type)`. -/
abbrev Table := GoMap (Bytes × ℕ) Account

/-- The row of an account whose key type is in the registry. -/
def Table.row (t : Table) (id : AccountID) : Option Account :=
  (keyTypeEncodeFlag id.keyType).bind fun flag => t.lookup (id.identifier, flag)

/-- A spend recorded for migrations. -/
structure Spend where
  account : AccountID
  amount : ℤ
  nonce : ℤ
deriving DecidableEq, Repr

/-- The `Accounts` value of the node. -/
structure Accounts where
  records : GoMap Bytes Account
  updates : GoMap Bytes Account
  spends : List Spend

/-- What a call of the store reads and writes. -/
structure Env where
  accounts : Accounts
  table : Table

/-- The errors of the store; `errors.Is` tells them apart by constructor. -/
inductive AccountsError where
  | accountNotFound
  | insufficientFunds (account : AccountID) (amount balance : ℤ)
  | invalidNonce (expected got : ℤ)
  | negativeBalance
  | negativeTransfer
  | invalidKeyType (keyType : KeyType)
  | duplicateKey
deriving DecidableEq, Repr

/-- `err.Error()`. -/
def AccountsError.error : AccountsError → String
  | .accountNotFound => "account not found"
  | .insufficientFunds account amount balance =>
    "insufficient funds: account " ++ account.string ++ " tried to use " ++ toString amount ++
      ", but only has balance " ++ toString balance
  | .invalidNonce expected got =>
    "invalid nonce: expected nonce " ++ toString expected ++ ", got " ++ toString got
  | .negativeBalance => "negative balance not permitted"
  | .negativeTransfer => "negative transfer not permitted"
  | .invalidKeyType keyType => "invalid key type: " ++ keyType.name
  | .duplicateKey =>
    "ERROR: duplicate key value violates unique constraint \"accounts_pkey\" (SQLSTATE 23505)"

/-- A call of the store. -/
abbrev AccountsM := EStateM AccountsError Env

/-- `acctMapKey`: `string(account.Identifier) + "#" + account.KeyType.String()`. -/
def acctMapKey (id : AccountID) : Bytes := id.identifier ++ goBytes "#" ++ goBytes id.keyType.name

/-- `crypto.KeyTypeDefinition(kt).EncodeFlag()`, failing for a key type outside the registry. -/
def encodeFlag (id : AccountID) : AccountsM ℕ :=
  match keyTypeEncodeFlag id.keyType with
  | some flag => pure flag
  | none => throw (.invalidKeyType id.keyType)

/-! ### The SQL -/

namespace Sql

/-- `getAccount` of `sql.go`: `SELECT balance, nonce ... WHERE identifier = $1 AND id_type = $2`. -/
def getAccount (id : AccountID) : AccountsM Account := do
  let flag ← encodeFlag id
  match (← get).table.lookup (id.identifier, flag) with
  | some acct => pure acct
  | none => throw .accountNotFound

/-- `createAccount`: an `INSERT`, which the primary key refuses for a row that exists. -/
def createAccount (identifier : Bytes) (flag : ℕ) (amt nonce : ℤ) : AccountsM Unit := do
  let env ← get
  if (env.table.lookup (identifier, flag)).isSome then throw .duplicateKey
  else set { env with table := env.table.insert (identifier, flag) ⟨amt, nonce⟩ }

/-- `updateAccount`: an `UPDATE ... WHERE`, which changes nothing when no row matches. -/
def updateAccount (identifier : Bytes) (flag : ℕ) (amount nonce : ℤ) : AccountsM Unit :=
  modify fun env => { env with table := env.table.replace (identifier, flag) ⟨amount, nonce⟩ }

end Sql

/-! ### The methods of `Accounts` -/

/-- What `getAccount` finds in memory: the block's own write when `uncommitted` asks for it, else a
cached record. -/
def Accounts.cached (a : Accounts) (mapKey : Bytes) (uncommitted : Bool) : Option Account :=
  match uncommitted, a.updates.lookup mapKey with
  | true, some acct => some acct
  | _, _ => a.records.lookup mapKey

/-- `a.records.Put(mapKey, acct)`. -/
def putRecord (mapKey : Bytes) (acct : Account) (env : Env) : Env :=
  { env with accounts := { env.accounts with records := env.accounts.records.insert mapKey acct } }

/-- `a.updates[mapKey] = acct`. -/
def setUpdate (mapKey : Bytes) (acct : Account) (env : Env) : Env :=
  { env with accounts := { env.accounts with updates := env.accounts.updates.insert mapKey acct } }

/-- **`getAccount`**: from memory if it is there, else from the table, and then into `records`,
whatever block wrote the row. -/
def getAccount (id : AccountID) (uncommitted : Bool) : AccountsM Account := do
  match (← get).accounts.cached (acctMapKey id) uncommitted with
  | some acct => pure acct
  | none =>
    let acct ← Sql.getAccount id
    modify (putRecord (acctMapKey id) acct)
    pure acct

/-- **`GetAccount`** (Go tells the two apart by case): `getAccount` of the committed view, with a
zero account for one that is not found. -/
def GetAccount (id : AccountID) : AccountsM Account := do
  match ← attempt (getAccount id false) with
  | .ok acct => pure acct
  | .error .accountNotFound => pure ⟨0, 0⟩
  | .error e => throw e

/-- `createAccount`: the row, and the block's update. -/
def createAccount (id : AccountID) (amt nonce : ℤ) : AccountsM Unit := do
  let flag ← encodeFlag id
  Sql.createAccount id.identifier flag amt nonce
  modify (setUpdate (acctMapKey id) ⟨amt, nonce⟩)

/-- `updateAccount`: the row, and the block's update. -/
def updateAccount (id : AccountID) (amount nonce : ℤ) : AccountsM Unit := do
  let flag ← encodeFlag id
  Sql.updateAccount id.identifier flag amount nonce
  modify (setUpdate (acctMapKey id) ⟨amount, nonce⟩)

/-- `recordSpend`. -/
def recordSpend (id : AccountID) (amount nonce : ℤ) : AccountsM Unit :=
  modify fun env =>
    { env with
      accounts := { env.accounts with spends := env.accounts.spends ++ [⟨id, amount, nonce⟩] } }

/-- **`Credit`**: a negative amount is a debit; a missing account is created. -/
def credit (id : AccountID) (amt : ℤ) : AccountsM Unit := do
  match ← attempt (getAccount id true) with
  | .ok acct =>
    let newBal := acct.balance + amt
    if newBal < 0 then throw .negativeBalance
    else updateAccount id newBal acct.nonce
  | .error .accountNotFound =>
    if amt < 0 then throw .negativeBalance else createAccount id amt 0
  | .error e => throw e

/-- **`Spend`**: the nonce must be the next one and the balance must cover the amount; a missing
account is created by a spend of zero at nonce one. -/
def spend (id : AccountID) (amount nonce : ℤ) : AccountsM Unit := do
  match ← attempt (getAccount id true) with
  | .ok acct =>
    if acct.nonce + 1 ≠ nonce then throw (.invalidNonce (acct.nonce + 1) nonce)
    else if acct.balance - amount < 0 then throw (.insufficientFunds id amount acct.balance)
    else do
      recordSpend id amount nonce
      updateAccount id (acct.balance - amount) nonce
  | .error e =>
    if e = .accountNotFound ∧ amount = 0 ∧ nonce = 1 then createAccount id amount nonce
    else throw e

/-- A nested database transaction, `BeginTx` with `Rollback` deferred: when the call fails, its
writes to the table are undone; what it changed in memory stays. -/
def nestedTx {α : Type} (x : AccountsM α) : AccountsM α := fun env =>
  match x env with
  | .ok a env' => .ok a env'
  | .error e env' => .error e { env' with table := env.table }

/-- The receiving half of `Transfer`: a missing account is created with the amount. -/
def deposit (toAcct : AccountID) (amt : ℤ) : AccountsM Unit := do
  match ← attempt (getAccount toAcct true) with
  | .ok receiver => updateAccount toAcct (receiver.balance + amt) receiver.nonce
  | .error .accountNotFound => createAccount toAcct amt 0
  | .error e => throw e

/-- **`Transfer`**, in a nested transaction: the sender's balance is read first and written last. -/
def transfer (fromAcct toAcct : AccountID) (amt : ℤ) : AccountsM Unit :=
  if amt < 0 then throw .negativeTransfer
  else nestedTx do
    let account ← getAccount fromAcct true
    let newFromBal := account.balance - amt
    if newFromBal < 0 then throw (.insufficientFunds fromAcct amt account.balance)
    else do
      deposit toAcct amt
      updateAccount fromAcct newFromBal account.nonce

/-- **`Commit`**: every update goes into `records`; the block's updates and spends are cleared. -/
def Accounts.commit (a : Accounts) : Accounts where
  records := a.updates ∪ a.records
  updates := ∅
  spends := []

/-- **`Rollback`**: the block's updates and spends are dropped; `records` is left as it is. -/
def Accounts.rollback (a : Accounts) : Accounts := { a with updates := ∅, spends := [] }

/-! ### What a read returns -/

section Reads

variable {env : Env} {id : AccountID} {acct : Account}

/-- A read that finds the account in memory changes nothing. -/
theorem getAccount_of_cached {uncommitted : Bool}
    (h : env.accounts.cached (acctMapKey id) uncommitted = some acct) :
    getAccount id uncommitted env = .ok acct env := by
  simp only [getAccount, EStateM.bind_apply, EStateM.get_apply, h]
  rfl

/-- A read that misses memory returns the row the table has now, and caches it. -/
theorem getAccount_of_miss {uncommitted : Bool}
    (h : env.accounts.cached (acctMapKey id) uncommitted = none)
    (hrow : env.table.row id = some acct) :
    getAccount id uncommitted env = .ok acct (putRecord (acctMapKey id) acct env) := by
  obtain ⟨flag, hflag, hlookup⟩ := Option.bind_eq_some_iff.mp hrow
  simp only [getAccount, Sql.getAccount, encodeFlag, EStateM.bind_apply, EStateM.get_apply, h,
    hflag, hlookup, EStateM.pure_apply, EStateM.modify_apply]

/-- **`GetAccount` answers from `records` first.** A cached record is returned as it is, whatever
the block has written to the account since. -/
theorem GetAccount_of_record (h : env.accounts.records.lookup (acctMapKey id) = some acct) :
    GetAccount id env = .ok acct env := by
  -- outside a block's reads, the cache is `records`
  have hget : getAccount id false env = .ok acct env := getAccount_of_cached h
  simp only [GetAccount, EStateM.bind_apply, attempt, hget]
  rfl

end Reads

end KwilDb.AccountStore
