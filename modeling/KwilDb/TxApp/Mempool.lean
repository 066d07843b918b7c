import KwilDb.Core.Params
import KwilDb.Accounts.Store
import KwilDb.Types.Payloads

/-!
# The mempool's pending accounts

Between two resets, `txapp`'s `mempool` keeps the pending nonce and balance of every account it
has seen a transaction from. `accountInfo` reads an account from the store on its first
transaction and caches it under the encoding of its `AccountID`; `applyTransaction` checks each
next transaction's nonce against the pending one, and an accepted transaction moves the pending
nonce on by one and the balance down by its spend, to no less than zero (`nextAccount_ok`). A
call writes the pending state only under the sender's key (`applyToAccount_lookup_ne`), with one
exception: an unfunded sender is turned away by deleting `string(tx.Sender)`, the raw sender
bytes, which are not the key the map uses.

Raw sender bytes are a public key or an address that a registered authenticator has checked the
signature against before `ApplyMempool` runs, never the encoding of another account. Behind that
check, the transactions a run accepts from one sender form its pending ledger (`Ledger`) from its
committed account: their nonces are the ones after the committed nonce, one by one, each balance
is the one before less the fee and the transfer's amount, to no less than zero, and a refused
transaction leaves the sender's pending account as it was (`applyMempool_admits_next_nonces`).
-/

namespace KwilDb.TxApp

open KwilDb.Lib KwilDb.Core
open KwilDb.AccountStore (Account)

/-- What `applyTransaction` reads besides the pending accounts: the network parameters, the
routes and the authenticators registered, the node's identity, and the calls it makes on the
database and the event store. `getAccount` is `Accounts.GetAccount` on the read transaction: the
committed account, or a zero one for an account not found. -/
structure MempoolEnv where
  params : NetworkParameters
  hasRoute : Bytes → Bool
  authKeyType : Bytes → Option KeyType
  getAccount : AccountID → Except String Account
  getValidatorPower : Bytes → KeyType → Except String ℤ
  resolutionType : Option Types.UUID → Except String Bytes
  markRebroadcast : List (Option Types.UUID) → Except String Unit
  nodeAuthType : Bytes
  nodeCompactID : Bytes

/-- `mempool.accounts`, keyed by `string(acctID.MarshalBinary())`. -/
abbrev PendingAccounts := GoMap Bytes Account

/-- A call under `acctsMtx`. -/
abbrev MempoolM := EStateM Failure PendingAccounts

/-- `reset`. -/
def reset : PendingAccounts := ∅

def errDisallowedInMigration : String := "transaction type not allowed during migration"
def errInsufficientBalance : String := "insufficient balance for fee or transfer"
def errInvalidNonce : String := "invalid nonce"
def errInvalidAmount : String := "invalid amount"

/-- `voting.StartMigrationEventType`. -/
def startMigrationEventType : String := "migration"

/-- A field read through a pointer: a nil one panics. -/
def deref {α : Type} : Option α → Except Failure α
  | some a => .ok a
  | none => .error nilDereference

/-- A call that touches no pending account. -/
def liftCall {α : Type} (x : Except Failure α) : MempoolM α :=
  match x with
  | .ok a => pure a
  | .error f => throw f

/-- The payload types a migration in progress or completed refuses, with the words of the
error. -/
def migrationBans : List (String × String) :=
  [("validator_join", "validator join"), ("validator_leave", "validator leave"),
    ("validator_approve", "validator approve"), ("validator_remove", "validator remove"),
    ("validator_vote_ids", "validator vote ids"),
    ("validator_vote_bodies", "validator vote bodies"), ("raw_statement", "raw statement"),
    ("transfer", "transfer")]

/-- The `switch` on the payload type during a migration. -/
def migrationBanned (payloadType : Bytes) : Option String :=
  (migrationBans.find? fun b => decide (goBytes b.1 = payloadType)).map Prod.snd

section Calls

variable (env : MempoolEnv)

/-- `authExt.GetAuthenticatorKeyType`. -/
def getAuthenticatorKeyType (authType : Bytes) : Except String KeyType :=
  match env.authKeyType authType with
  | some kt => .ok kt
  | none => .error ("authenticator not found: " ++ goString authType)

/-- `TxSenderAcctID`. -/
def txSenderAcctID (t : Types.Transaction) : Except Failure AccountID :=
  if t.sender = [] then .error (.error "transaction sender is nil")
  else do
    let sig ← deref t.signature
    let keyType ← (getAuthenticatorKeyType env sig.type).mapError .error
    pure ⟨t.sender, keyType⟩

/-- `applyTransaction` up to `TxSenderAcctID`: the payload types a migration refuses, migration
resolutions, and the sender and the size of vote IDs. -/
def precheck (tx : Types.Transaction) (body : Types.TransactionBody) : Except Failure Unit := do
  let status := env.params.migrationStatus
  let inMigration := decide (status = .migrationInProgress) || decide (status = .migrationCompleted)
  let activeMigration := status.active
  let genesisMigration := decide (status = .genesisMigration)
  if inMigration then
    if let some what := migrationBanned body.payloadType then
      throw (.error (errDisallowedInMigration ++ ": " ++ what))
  if body.payloadType = goBytes "create_resolution" then
    let res ← (Types.CreateResolution.unmarshalBinary body.payload).mapError .error
    let resolution ← deref res.resolution
    if (activeMigration || genesisMigration) &&
        decide (resolution.type = goBytes startMigrationEventType) then
      throw (.error (errDisallowedInMigration ++ ": migration resolutions"))
  if body.payloadType = goBytes "approve_resolution" then
    let res ← (Types.ApproveResolution.unmarshalBinary body.payload).mapError .error
    match env.resolutionType res.resolutionID with
    | .error _ => throw (.error "migration proposal not found")
    | .ok type =>
      if (activeMigration || genesisMigration) &&
          decide (type = goBytes startMigrationEventType) then
        throw (.error "approving migration resolutions are not allowed during migration")
  if body.payloadType = goBytes "validator_vote_ids" then
    let sig ← deref tx.signature
    let keyType ← (getAuthenticatorKeyType env sig.type).mapError
      fun e => .error ("invalid key type: " ++ e)
    let power ← (env.getValidatorPower tx.sender keyType).mapError .error
    if power = 0 then throw (.error "only validators can submit validator vote transactions")
    let voteID ← (Types.ValidatorVoteIDs.unmarshalBinary body.payload).mapError .error
    if (voteID.resolutionIDs.length : ℤ) > env.params.maxVotesPerTx then
      throw (.error ("number of voteIDs exceeds the limit of " ++
        toString env.params.maxVotesPerTx))
  if body.payloadType = goBytes "validator_vote_bodies" then
    throw (.error ("validator vote bodies can not enter the mempool, " ++
      "and can only be submitted during block proposal"))

/-- `accountInfo`: the pending account under the encoding of the ID; on a miss, the store's,
cached. -/
def accountInfo (acctID : AccountID) : MempoolM Account := do
  let id ← liftCall (acctID.marshalBinary.mapError .error)
  match (← get).lookup id with
  | some acctInfo => pure acctInfo
  | none =>
    let acct ← liftCall ((env.getAccount acctID).mapError .error)
    modify fun accounts => accounts.insert id acct
    pure acct

/-- The `switch` on the payload type: a transfer adds its amount to the spend, once it is checked
against the balance. -/
def transferSpend (body : Types.TransactionBody) (balance spend : ℤ) : Except Failure ℤ :=
  if body.payloadType = goBytes "transfer" then do
    let transfer ← (Types.Transfer.unmarshalBinary body.payload).mapError .error
    let amt ← deref transfer.amount
    if amt < 0 then throw (.error (errInvalidAmount ++ "\nnegative transfer not permitted"))
    if amt > balance then throw (.error errInsufficientBalance)
    pure (spend + amt)
  else pure spend

/-- `applyTransaction` after the gas check, up to its writes: the nonce check, with the
rebroadcast of the node's own votes, then the fee and the transfer, and the pending account they
leave. It reads the pending account `acct` and writes none. -/
def nextAccount (tx : Types.Transaction) (body : Types.TransactionBody) (acct : Account) :
    Except Failure Account := do
  if body.nonce ≠ UInt64.ofInt acct.nonce + 1 then
    if body.payloadType = goBytes "validator_vote_ids" then
      let sig ← deref tx.signature
      if sig.type = env.nodeAuthType ∧ tx.sender = env.nodeCompactID then
        let voteID ← (Types.ValidatorVoteIDs.unmarshalBinary body.payload).mapError .error
        (env.markRebroadcast voteID.resolutionIDs).mapError .error
    throw (.error (errInvalidNonce ++ " for account " ++ hexEncode tx.sender ++ ": got " ++
      toString body.nonce.toNat ++ ", expected " ++ toString (acct.nonce + 1)))
  let fee ← deref body.fee
  let spend ← transferSpend body acct.balance fee
  pure ⟨if spend > acct.balance then 0 else acct.balance - spend, body.nonce.toInt64.toInt⟩

/-- The check that turns an unfunded account away when gas is on. -/
def gasRefuses (acct : Account) : Bool :=
  !env.params.disabledGasCosts && decide (acct.nonce = 0) && decide (acct.balance = 0)

/-- `applyTransaction` from the lock on. The pointer `accountInfo` returns is the map's entry, so
the writes to it are writes under the sender's key; the unfunded path deletes under the raw
sender bytes instead. -/
def applyToAccount (tx : Types.Transaction) (body : Types.TransactionBody) (acctID : AccountID) :
    MempoolM Unit := do
  let acct ← accountInfo env acctID
  if gasRefuses env acct then
    modify fun accounts => accounts.erase tx.sender
    throw (.error errInsufficientBalance)
  let acct' ← liftCall (nextAccount env tx body acct)
  modify fun accounts => accounts.insert acctID.bytes acct'

/-- `applyTransaction`. A nil body panics at its first field. -/
def applyTransaction (tx : Types.Transaction) : MempoolM Unit := do
  let body ← liftCall (deref tx.body)
  liftCall (precheck env tx body)
  let acctID ← liftCall (txSenderAcctID env tx)
  applyToAccount env tx body acctID

/-- `TxApp.ApplyMempool`: a payload type without a route is refused first. -/
def applyMempool (tx : Types.Transaction) : MempoolM Unit := do
  let body ← liftCall (deref tx.body)
  if !env.hasRoute body.payloadType then
    throw (.error (Types.errUnknownPayloadType ++ ": " ++ goString body.payloadType))
  applyTransaction env tx

/-- What `ApplyMempool` does before it takes the lock: it reads no pending account. -/
def beforeLock (tx : Types.Transaction) : Except Failure (Types.TransactionBody × AccountID) := do
  let body ← deref tx.body
  if !env.hasRoute body.payloadType then
    throw (.error (Types.errUnknownPayloadType ++ ": " ++ goString body.payloadType))
  precheck env tx body
  let acctID ← txSenderAcctID env tx
  pure (body, acctID)

end Calls

/-! ### One lemma per call -/

section Lemmas

variable {env : MempoolEnv} {accts accts₁ : PendingAccounts} {acctID : AccountID} {id : Bytes}
  {a a' : Account} {tx : Types.Transaction} {body : Types.TransactionBody}

lemma throw_bind_ne_ok {α β : Type} {e : Failure} {f : α → Except Failure β} {b : β} :
    ¬ ((throw e : Except Failure α) >>= f) = .ok b := by
  simp [Except.bind, bind]

@[simp] lemma deref_eq_ok {α : Type} {x : Option α} {v : α} : deref x = .ok v ↔ x = some v := by
  cases x <;> simp [deref]

lemma accountID_bytes_of_marshalBinary (h : acctID.marshalBinary = .ok id) : acctID.bytes = id := by
  simp [AccountID.bytes, h]

lemma accountInfo_of_lookup (hid : acctID.marshalBinary = .ok id) (h : accts.lookup id = some a) :
    accountInfo env acctID accts = .ok a accts := by
  simp [accountInfo, hid, h, liftCall, Except.mapError]

lemma accountInfo_of_getAccount (hid : acctID.marshalBinary = .ok id) (h : accts.lookup id = none)
    (hget : env.getAccount acctID = .ok a) :
    accountInfo env acctID accts = .ok a (accts.insert id a) := by
  simp [accountInfo, hid, h, hget, liftCall, Except.mapError]

lemma applyToAccount_of_accountInfo_error {f : Failure}
    (hinfo : accountInfo env acctID accts = .error f accts₁) :
    applyToAccount env tx body acctID accts = .error f accts₁ := by
  simp [applyToAccount, hinfo]

lemma applyToAccount_unfunded (hinfo : accountInfo env acctID accts = .ok a accts₁)
    (hgate : gasRefuses env a = true) :
    applyToAccount env tx body acctID accts =
      .error (.error errInsufficientBalance) (accts₁.erase tx.sender) := by
  simp [applyToAccount, hinfo, hgate]

lemma applyToAccount_reject {f : Failure} (hinfo : accountInfo env acctID accts = .ok a accts₁)
    (hgate : gasRefuses env a = false) (hnext : nextAccount env tx body a = .error f) :
    applyToAccount env tx body acctID accts = .error f accts₁ := by
  simp [applyToAccount, hinfo, hgate, hnext, liftCall]

lemma applyToAccount_accept (hinfo : accountInfo env acctID accts = .ok a accts₁)
    (hgate : gasRefuses env a = false) (hnext : nextAccount env tx body a = .ok a') :
    applyToAccount env tx body acctID accts = .ok () (accts₁.insert acctID.bytes a') := by
  simp [applyToAccount, hinfo, hgate, hnext, liftCall]

/-- What a successful `beforeLock` found: the body, a route for it, the checks passed, and the
sender. -/
lemma beforeLock_ok (h : beforeLock env tx = .ok (body, acctID)) :
    tx.body = some body ∧ env.hasRoute body.payloadType = true ∧
      precheck env tx body = .ok () ∧ txSenderAcctID env tx = .ok acctID := by
  simp only [beforeLock, bind_eq_ok, deref_eq_ok] at h
  obtain ⟨b, hb, h⟩ := h
  -- the `if` without `else` carries the rest of the block in both branches
  split at h
  · simp [Except.bind, bind] at h
  · rename_i hroute
    simp only [bind_eq_ok] at h
    obtain ⟨u, hpre, id', hsend, heq⟩ := h
    simp only [pure, Except.pure, Except.ok.injEq, Prod.mk.injEq] at heq
    obtain ⟨rfl, rfl⟩ := heq
    exact ⟨hb, by simpa using hroute, hpre, hsend⟩

lemma applyMempool_of_beforeLock (h : beforeLock env tx = .ok (body, acctID)) :
    applyMempool env tx = applyToAccount env tx body acctID := by
  obtain ⟨hbody, hroute, hpre, hsender⟩ := beforeLock_ok h
  funext s
  simp [applyMempool, applyTransaction, hbody, hroute, hpre, hsender, deref, liftCall]

/-- **An accepted transaction.** Its nonce is the one after the pending nonce, which it becomes;
the balance goes down by the spend, to no less than zero. -/
theorem nextAccount_ok {acct : Account} (h : nextAccount env tx body acct = .ok a') :
    body.nonce = UInt64.ofInt acct.nonce + 1 ∧ a'.nonce = body.nonce.toInt64.toInt ∧
      ∃ fee spend, body.fee = some fee ∧ transferSpend body acct.balance fee = .ok spend ∧
        a'.balance = max 0 (acct.balance - spend) := by
  unfold nextAccount at h
  split at h
  · -- a nonce that is not the next one: every branch ends in the `throw`
    exfalso
    split at h
    · obtain ⟨sig, -, h⟩ := bind_eq_ok.mp h
      split at h
      · obtain ⟨_, -, h⟩ := bind_eq_ok.mp h
        obtain ⟨_, -, h⟩ := bind_eq_ok.mp h
        exact throw_bind_ne_ok h
      · exact throw_bind_ne_ok h
    · exact throw_bind_ne_ok h
  · rename_i hnonce
    obtain ⟨fee, hfee, h⟩ := bind_eq_ok.mp h
    cases hspend : transferSpend body acct.balance fee with
    | error e =>
      rw [hspend] at h
      cases h
    | ok spend =>
      rw [hspend] at h
      cases h
      refine ⟨not_not.mp hnonce, rfl, fee, spend, deref_eq_ok.mp hfee, hspend, ?_⟩
      dsimp only
      split_ifs <;> omega

/-- `accountInfo` fails before it writes, or returns the pending account, cached under the
sender's key when it was not there. -/
lemma accountInfo_cases (env : MempoolEnv) (acctID : AccountID) (accts : PendingAccounts) :
    (∃ f, accountInfo env acctID accts = .error f accts) ∨
    ∃ a, (accountInfo env acctID accts = .ok a accts ∧ accts.lookup acctID.bytes = some a) ∨
      (accountInfo env acctID accts = .ok a (accts.insert acctID.bytes a) ∧
        accts.lookup acctID.bytes = none ∧ env.getAccount acctID = .ok a) := by
  cases hid : acctID.marshalBinary with
  | error e =>
    left
    exact ⟨.error e, by simp [accountInfo, hid, liftCall, Except.mapError]⟩
  | ok id =>
    rw [accountID_bytes_of_marshalBinary hid]
    cases hlook : accts.lookup id with
    | some a => exact .inr ⟨a, .inl ⟨accountInfo_of_lookup hid hlook, rfl⟩⟩
    | none =>
      cases hget : env.getAccount acctID with
      | error e =>
        left
        exact ⟨.error e, by simp [accountInfo, hid, hlook, hget, liftCall, Except.mapError]⟩
      | ok a => exact .inr ⟨a, .inr ⟨accountInfo_of_getAccount hid hlook hget, rfl, rfl⟩⟩

/-- After `accountInfo`, a call writes under the sender's key or, refusing an unfunded account,
deletes under the raw sender bytes. -/
lemma lookup_applyToAccount_of_accountInfo {k : Bytes}
    (hinfo : accountInfo env acctID accts = .ok a accts₁) (hk : k ≠ acctID.bytes)
    (hs : k ≠ tx.sender) :
    (finalState (applyToAccount env tx body acctID accts)).lookup k = accts₁.lookup k := by
  cases hgate : gasRefuses env a
  · cases hnext : nextAccount env tx body a with
    | error f =>
      rw [applyToAccount_reject hinfo hgate hnext]
      rfl
    | ok a' =>
      rw [applyToAccount_accept hinfo hgate hnext]
      exact AList.lookup_insert_ne hk
  · rw [applyToAccount_unfunded hinfo hgate]
    exact AList.lookup_erase_ne hs

/-- **What a call writes.** Whatever the outcome, the pending state changes only under the
sender's key and, on the unfunded path, under the raw sender bytes. -/
theorem applyToAccount_lookup_ne {k : Bytes} (hk : k ≠ acctID.bytes) (hs : k ≠ tx.sender) :
    (finalState (applyToAccount env tx body acctID accts)).lookup k = accts.lookup k := by
  rcases accountInfo_cases env acctID accts with ⟨f, hinfo⟩ | ⟨a, ⟨hinfo, -⟩ | ⟨hinfo, -, -⟩⟩
  · rw [applyToAccount_of_accountInfo_error hinfo]
    rfl
  · exact lookup_applyToAccount_of_accountInfo hinfo hk hs
  · rw [lookup_applyToAccount_of_accountInfo hinfo hk hs]
    exact AList.lookup_insert_ne hk

end Lemmas

/-! ### One sender's ledger between two resets -/

section Ledger

/-- One step of a sender's pending ledger: the transaction's nonce is the one after the pending
nonce, and becomes the pending nonce; the balance goes down by the fee and the transfer's amount,
to no less than zero. -/
def Admits (a : Account) (body : Types.TransactionBody) (a' : Account) : Prop :=
  ∃ fee spend, body.nonce = UInt64.ofInt a.nonce + 1 ∧ body.fee = some fee ∧
    transferSpend body a.balance fee = .ok spend ∧
    a' = ⟨max 0 (a.balance - spend), body.nonce.toInt64.toInt⟩

/-- **A sender's pending ledger**: from the pending account `a`, the transactions accepted in
order lead to the pending account `a'`. -/
inductive Ledger : Account → List Types.TransactionBody → Account → Prop
  | nil (a : Account) : Ledger a [] a
  | cons {a a₁ a' : Account} {body : Types.TransactionBody} {bodies : List Types.TransactionBody} :
      Admits a body a₁ → Ledger a₁ bodies a' → Ledger a (body :: bodies) a'

/-- The nonces of a ledger are the ones after its first nonce, one by one. -/
theorem Ledger.nonces {a a' : Account} {bodies : List Types.TransactionBody}
    (h : Ledger a bodies a') :
    bodies.map (·.nonce) = (List.range bodies.length).map fun i : ℕ => UInt64.ofInt (a.nonce + i + 1) := by
  induction h with
  | nil => rfl
  | cons hadm _ ih =>
    obtain ⟨fee, spend, hn, -, -, rfl⟩ := hadm
    rw [List.map_cons, ih, List.length_cons, List.range_succ_eq_map, List.map_cons, List.map_map]
    -- the first nonce is the one after `a`'s, and the rest count on from it
    congr 1
    · simp [hn]
    · refine List.map_congr_left fun i _ => ?_
      simp only [Function.comp_apply, UInt64.ofInt_add, UInt64.ofInt_toInt64_toInt, hn]
      push_cast
      simp only [UInt64.ofInt_add, UInt64.ofInt_one]
      ac_rfl

variable {env : MempoolEnv} {s acctID : AccountID} {c a : Account}
  {accts accts₁ accts' : PendingAccounts} {tx : Types.Transaction} {body : Types.TransactionBody}

/-- The pending account of `s` that its next transaction is checked against: the cached one, or
else its committed account `c`. -/
def pendingOf (c : Account) (s : AccountID) (accts : PendingAccounts) : Account :=
  (accts.lookup s.bytes).getD c

/-- A run of `ApplyMempool` calls between two resets: each call starts from the pending accounts
the one before left, whatever it returned. -/
def applyMempoolAll (env : MempoolEnv) : List Types.Transaction → PendingAccounts → PendingAccounts
  | [], accts => accts
  | tx :: txs, accts => applyMempoolAll env txs (finalState (applyMempool env tx accts))

/-- The bodies of the transactions of `s` that a run accepts, in order. -/
def acceptedFrom (env : MempoolEnv) (s : AccountID) :
    List Types.Transaction → PendingAccounts → List Types.TransactionBody
  | [], _ => []
  | tx :: txs, accts =>
    let rest := acceptedFrom env s txs (finalState (applyMempool env tx accts))
    match applyMempool env tx accts, beforeLock env tx with
    | .ok () _, .ok (body, acctID) => if acctID = s then body :: rest else rest
    | _, _ => rest

lemma accountInfo_error_state {f : Failure} (h : accountInfo env acctID accts = .error f accts₁) :
    accts₁ = accts := by
  rcases accountInfo_cases env acctID accts with ⟨f', h'⟩ | ⟨a, ⟨h', -⟩ | ⟨h', -, -⟩⟩ <;>
    rw [h'] at h <;> cases h
  rfl

/-- What `accountInfo` returns for `s` is its pending account, now cached. -/
lemma accountInfo_pendingOf (hget : env.getAccount s = .ok c)
    (h : accountInfo env s accts = .ok a accts₁) :
    a = pendingOf c s accts ∧ accts₁.lookup s.bytes = some a := by
  rcases accountInfo_cases env s accts with ⟨f, h'⟩ | ⟨a', ⟨h', hl⟩ | ⟨h', hnone, hget'⟩⟩ <;>
    rw [h'] at h <;> cases h
  · exact ⟨by simp [pendingOf, hl], hl⟩
  · rw [hget] at hget'
    cases hget'
    exact ⟨by simp [pendingOf, hnone], AList.lookup_insert _⟩

lemma pendingOf_erase {k : Bytes} (hk : k ≠ s.bytes) :
    pendingOf c s (accts.erase k) = pendingOf c s accts := by
  simp [pendingOf, AList.lookup_erase_ne (Ne.symm hk)]

/-- **A transaction of the sender itself.** Accepted, it moves the sender's pending account on by
one step of the ledger; refused, it leaves it. -/
theorem applyToAccount_self (hget : env.getAccount s = .ok c) (hs : tx.sender ≠ s.bytes) :
    (applyToAccount env tx body s accts = .ok () accts' →
      Admits (pendingOf c s accts) body (pendingOf c s accts')) ∧
    ∀ f, applyToAccount env tx body s accts = .error f accts' →
      pendingOf c s accts' = pendingOf c s accts := by
  cases hinfo : accountInfo env s accts with
  | error f accts₁ =>
    obtain rfl := accountInfo_error_state hinfo
    rw [applyToAccount_of_accountInfo_error hinfo]
    exact ⟨by rintro ⟨⟩, fun _ h => by cases h; rfl⟩
  | ok a accts₁ =>
    obtain ⟨rfl, hl⟩ := accountInfo_pendingOf hget hinfo
    have hp₁ : pendingOf c s accts₁ = pendingOf c s accts := by simp [pendingOf, hl]
    cases hgate : gasRefuses env (pendingOf c s accts)
    · cases hnext : nextAccount env tx body (pendingOf c s accts) with
      | error f =>
        rw [applyToAccount_reject hinfo hgate hnext]
        exact ⟨by rintro ⟨⟩, fun _ h => by cases h; exact hp₁⟩
      | ok a' =>
        rw [applyToAccount_accept hinfo hgate hnext]
        refine ⟨fun h => ?_, fun _ h => by cases h⟩
        cases h
        obtain ⟨hn, hnonce, fee, spend, hfee, hspend, hbal⟩ := nextAccount_ok hnext
        refine ⟨fee, spend, hn, hfee, hspend, ?_⟩
        obtain ⟨b', n'⟩ := a'
        simp only at hnonce hbal
        simp [pendingOf, AList.lookup_insert, hnonce, hbal]
    · rw [applyToAccount_unfunded hinfo hgate]
      exact ⟨by rintro ⟨⟩, fun _ h => by cases h; rw [pendingOf_erase hs, hp₁]⟩

/-- **A transaction of another sender** leaves the pending account of `s`. Only an account that
does not encode shares `s`'s key, and its call fails before it writes. -/
lemma pendingOf_applyToAccount_other (hne : acctID ≠ s) (hs : tx.sender ≠ s.bytes) :
    pendingOf c s (finalState (applyToAccount env tx body acctID accts)) = pendingOf c s accts := by
  by_cases hk : s.bytes = acctID.bytes
  · cases hid : acctID.marshalBinary with
    | ok k => exact absurd (AccountID.eq_of_bytes_eq hid hk.symm) hne
    | error e =>
      have hinfo : accountInfo env acctID accts = .error (.error e) accts := by
        simp [accountInfo, hid, liftCall, Except.mapError]
      rw [applyToAccount_of_accountInfo_error hinfo]
      rfl
  · simp only [pendingOf]
    rw [applyToAccount_lookup_ne hk (Ne.symm hs)]

/-- `ApplyMempool` of a transaction refused before the lock changes nothing. -/
lemma applyMempool_of_beforeLock_error {f : Failure} (h : beforeLock env tx = .error f) :
    applyMempool env tx accts = .error f accts := by
  cases hb : tx.body with
  | none =>
    simp only [beforeLock, hb, deref, bind, Except.bind] at h
    cases h
    simp [applyMempool, hb, deref, liftCall]
  | some body =>
    by_cases hr : env.hasRoute body.payloadType = true
    · cases hp : precheck env tx body with
      | error e =>
        simp [beforeLock, hb, hr, hp, deref, bind, Except.bind] at h
        subst h
        simp [applyMempool, applyTransaction, hb, hr, hp, deref, liftCall]
      | ok u =>
        cases hsnd : txSenderAcctID env tx with
        | error e =>
          simp [beforeLock, hb, hr, hp, hsnd, deref, bind, Except.bind] at h
          subst h
          simp [applyMempool, applyTransaction, hb, hr, hp, hsnd, deref, liftCall]
        | ok id => simp [beforeLock, hb, hr, hp, hsnd, deref, bind, Except.bind, pure,
            Except.pure] at h
    · simp [beforeLock, hb, hr, deref, bind, Except.bind] at h
      subst h
      simp [applyMempool, hb, hr, deref, liftCall]

/-- An accepted transaction of `s` is one step of its ledger. -/
lemma admits_of_applyMempool (hget : env.getAccount s = .ok c) (hs : tx.sender ≠ s.bytes)
    (hbl : beforeLock env tx = .ok (body, s)) (h : applyMempool env tx accts = .ok () accts') :
    Admits (pendingOf c s accts) body (pendingOf c s accts') := by
  rw [applyMempool_of_beforeLock hbl] at h
  exact (applyToAccount_self hget hs).1 h

/-- Every call but an accepted transaction of `s` leaves the pending account of `s`. -/
lemma pendingOf_applyMempool (hget : env.getAccount s = .ok c) (hs : tx.sender ≠ s.bytes)
    (hne : ∀ body accts', beforeLock env tx = .ok (body, s) → applyMempool env tx accts ≠ .ok () accts') :
    pendingOf c s (finalState (applyMempool env tx accts)) = pendingOf c s accts := by
  cases hbl : beforeLock env tx with
  | error f =>
    rw [applyMempool_of_beforeLock_error hbl]
    rfl
  | ok p =>
    obtain ⟨body, acctID⟩ := p
    rw [applyMempool_of_beforeLock hbl]
    by_cases hid : acctID = s
    · subst hid
      -- refused, since an accepted call is ruled out
      cases happ : applyToAccount env tx body acctID accts with
      | ok u accts' =>
        exact absurd (by rw [applyMempool_of_beforeLock hbl, happ]) (hne body accts' hbl)
      | error f accts' => exact (applyToAccount_self hget hs).2 f happ
    · exact pendingOf_applyToAccount_other hid hs

/-- **The run lemma**: along a run whose raw senders are not `s`'s key, the transactions of `s`
that the run accepts form its ledger, from its pending account before the run to the one after. -/
theorem ledger_acceptedFrom (hget : env.getAccount s = .ok c) :
    ∀ (txs : List Types.Transaction) (accts : PendingAccounts), (∀ tx ∈ txs, tx.sender ≠ s.bytes) →
      Ledger (pendingOf c s accts) (acceptedFrom env s txs accts)
        (pendingOf c s (applyMempoolAll env txs accts))
  | [], _, _ => .nil _
  | tx :: txs, accts, hsig => by
    have hs := hsig tx List.mem_cons_self
    have ih := ledger_acceptedFrom hget txs (finalState (applyMempool env tx accts))
      fun t ht => hsig t (List.mem_cons_of_mem _ ht)
    simp only [acceptedFrom, applyMempoolAll]
    -- the step is one of the ledger exactly when the call accepts a transaction of `s`
    have hkeep : (∀ body accts', beforeLock env tx = .ok (body, s) →
        applyMempool env tx accts ≠ .ok () accts') →
        Ledger (pendingOf c s accts) (acceptedFrom env s txs (finalState (applyMempool env tx accts)))
          (pendingOf c s (applyMempoolAll env txs (finalState (applyMempool env tx accts)))) :=
      fun hne => pendingOf_applyMempool hget hs hne ▸ ih
    cases happ : applyMempool env tx accts with
    | error f accts' =>
      rw [happ] at hkeep
      exact hkeep fun _ _ _ h => by cases h
    | ok u accts' =>
      rw [happ] at hkeep ih
      cases hbl : beforeLock env tx with
      | error f => exact absurd (happ.symm.trans (applyMempool_of_beforeLock_error hbl)) (by simp)
      | ok p =>
        obtain ⟨body, acctID⟩ := p
        dsimp only
        by_cases hid : acctID = s
        · subst hid
          rw [if_pos rfl]
          exact .cons (admits_of_applyMempool hget hs hbl happ) ih
        · rw [if_neg hid]
          exact hkeep fun b _ hb _ => hid (Prod.mk.inj (Except.ok.inj (hbl.symm.trans hb))).2

/-- **Mempool nonce admission.** For a sender `s` with committed account `c`, and a run of
`ApplyMempool` calls from a reset in which no raw sender bytes are the encoding of `s` (they are
public keys or addresses that a registered authenticator checked): the transactions of `s` that
the run accepts form its ledger from `c` to its pending account after the run, so their nonces
are `c + 1, c + 2, ...` in the order accepted, and each leaves the balance before less its fee and
transfer amount, or zero; and every refused call leaves the pending account of `s` as it was. -/
theorem applyMempool_admits_next_nonces (hget : env.getAccount s = .ok c)
    {txs : List Types.Transaction} (hsig : ∀ tx ∈ txs, tx.sender ≠ s.bytes) :
    Ledger c (acceptedFrom env s txs reset) (pendingOf c s (applyMempoolAll env txs reset)) ∧
    (acceptedFrom env s txs reset).map (·.nonce) =
      (List.range (acceptedFrom env s txs reset).length).map
        (fun i : ℕ => UInt64.ofInt (c.nonce + i + 1)) ∧
    ∀ accts tx f accts', tx.sender ≠ s.bytes → applyMempool env tx accts = .error f accts' →
      pendingOf c s accts' = pendingOf c s accts := by
  have hl := ledger_acceptedFrom hget txs reset hsig
  have h₀ : pendingOf c s reset = c := rfl
  rw [h₀] at hl
  refine ⟨hl, hl.nonces, fun accts tx f accts' hs h => ?_⟩
  have hkeep := pendingOf_applyMempool hget hs fun _ _ _ h' => by rw [h] at h'; cases h'
  rwa [h] at hkeep

/-- The network of the witness run: gas on, no migration, every payload type routed; account
`[1]` has 10 at nonce 5 and every other account is unfunded. -/
def nonceEnv : MempoolEnv :=
  ⟨⟨none, 0, 0, false, 0, .noActiveMigration⟩, fun _ => true, fun _ => some .secp256k1,
    fun id => if id.identifier = [1] then .ok ⟨10, 5⟩ else .ok ⟨0, 0⟩,
    fun _ _ => .ok 0, fun _ => .error "", fun _ => .ok (), [], []⟩

/-- An `execute` transaction from `sender` with a fee and a nonce. -/
def executeTx (sender : Bytes) (fee : ℤ) (nonce : UInt64) : Types.Transaction :=
  ⟨some ⟨[], []⟩, some ⟨[], [], goBytes "execute", some fee, nonce, []⟩, [], sender⟩

/-- The witness run: `[1]` at nonce 6, the unfunded `[7]`, `[1]` at nonce 6 again, and `[1]` at
nonce 7. -/
def nonceRun : List Types.Transaction :=
  [executeTx [1] 1 6, executeTx [7] 0 1, executeTx [1] 1 6, executeTx [1] 2 7]

/-- Of the run, `[1]`'s transactions at nonces 6 and 7 are accepted, and the repeat of nonce 6
refused; `[1]` ends with 7 at nonce 7. -/
theorem applyMempool_admits_next_nonces_run :
    (acceptedFrom nonceEnv ⟨[1], .secp256k1⟩ nonceRun reset).map (·.nonce) = [6, 7] ∧
    pendingOf ⟨10, 5⟩ ⟨[1], .secp256k1⟩ (applyMempoolAll nonceEnv nonceRun reset) = ⟨7, 7⟩ ∧
    (acceptedFrom nonceEnv ⟨[1], .secp256k1⟩ nonceRun reset).map (·.nonce) =
      (List.range (acceptedFrom nonceEnv ⟨[1], .secp256k1⟩ nonceRun reset).length).map
        (fun i : ℕ => UInt64.ofInt (5 + i + 1)) :=
  ⟨by decide, by decide,
    (applyMempool_admits_next_nonces (c := ⟨10, 5⟩) rfl (by decide)).2.1⟩

end Ledger

end KwilDb.TxApp
