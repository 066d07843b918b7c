import KwilDb.Accounts.Store

/-!
# Transfers between accounts

`Accounts.Transfer` reads the sender's account, then the receiver's, then writes the receiver's
new balance and last the sender's, all in a nested database transaction. The writes go to the
table and to the block's `updates`.

When the sender and the receiver are one account, both reads see the same balance `b`, the
receiver's write puts `b + amt` and the sender's write then puts `b - amt` over it: the account
loses the amount and the table's total drops by it (`transfer_self_loses_amount`). The transfer
route does not refuse a transfer to the sender itself.

Between two accounts of registered key types whose reads agree with the table, a transfer moves
the amount and keeps the total (`transfer_conserves`): on registered types `acctMapKey` is
injective, so the two reads and the two writes do not meet.

A failed transfer leaves the table as it was (`transfer_error_table`): the nested transaction is
rolled back. The block's `updates` are not: a receiver written before the sender's write fails
stays there (`transfer_error_keeps_update`). The sender's write fails when its key type is not
registered, which a read can miss because `acctMapKey` puts a `#` between identifier and type, so
an unregistered sender can share its key with a registered account in memory.
-/

namespace KwilDb.AccountStore

open KwilDb.Lib KwilDb.Core

/-- The sum of the balances of all rows of the table. -/
def Table.total (t : Table) : ℤ := (t.entries.map fun e => e.2.balance).sum

/-- Replacing a row changes the total by the difference of the two balances. -/
theorem Table.total_replace {t : Table} {k : Bytes × ℕ} {a : Account} (a' : Account)
    (h : t.lookup k = some a) :
    Table.total (t.replace k a') = Table.total t - a.balance + a'.balance := by
  obtain ⟨entries, nodup⟩ := t
  simp only [Table.total, AList.replace, AList.lookup] at h ⊢
  induction entries with
  | nil => simp at h
  | cons e entries ih =>
    obtain ⟨k', v⟩ := e
    by_cases hk : k' = k
    · -- the first row is the one replaced
      subst hk
      simp only [List.dlookup_cons_eq, Option.some.injEq] at h
      subst h
      have hrep : List.kreplace k' a' (⟨k', v⟩ :: entries) = ⟨k', a'⟩ :: entries := by
        simp [List.kreplace, List.lookmap_cons_some]
      rw [hrep, List.map_cons, List.sum_cons, List.map_cons, List.sum_cons]
      ring
    · rw [List.dlookup_cons_ne _ _ (Ne.symm hk)] at h
      have hrep : List.kreplace k a' (⟨k', v⟩ :: entries) =
          ⟨k', v⟩ :: List.kreplace k a' entries := by
        simp [List.kreplace, List.lookmap_cons_none, Ne.symm hk]
      rw [hrep, List.map_cons, List.sum_cons, ih (List.nodupKeys_cons.mp nodup).2 h,
        List.map_cons, List.sum_cons]
      ring

/-- The state a successful `updateAccount` of an account of a registered key type leaves: the row
replaced, and the block's update set. -/
def Env.write (env : Env) (id : AccountID) (flag : ℕ) (acct : Account) : Env :=
  setUpdate (acctMapKey id) acct { env with table := env.table.replace (id.identifier, flag) acct }

/-- A read of the uncommitted view finds `acct` in memory, or nothing there: it returns the row
`acct` of the table either way. -/
def Env.Agrees (env : Env) (id : AccountID) (acct : Account) : Prop :=
  env.accounts.cached (acctMapKey id) true = none ∨ env.accounts.cached (acctMapKey id) true = some acct

section Calls

variable {env env₁ : Env} {id : AccountID} {flag : ℕ} {acct : Account}

@[simp] lemma Env.write_table (a : Account) :
    (env.write id flag a).table = env.table.replace (id.identifier, flag) a := rfl

/-- A second write of one account replaces the first, in the table and in `updates`. -/
lemma Env.write_write (a b : Account) :
    (env.write id flag a).write id flag b = env.write id flag b := by
  simp [Env.write, setUpdate, GoMap.replace_replace, AList.insert_insert]

/-- Caching a record under another key changes nothing that a read of `id` sees. -/
lemma Env.agrees_putRecord_ne {k : Bytes} {a : Account} (h : acctMapKey id ≠ k) :
    (putRecord k a env).Agrees id acct ↔ env.Agrees id acct := by
  simp [Env.Agrees, Accounts.cached, putRecord, AList.lookup_insert_ne h]

/-- `updateAccount` of an account of a registered key type: the row is replaced (when there is
one) and the block's update is set. -/
theorem updateAccount_eq (hflag : keyTypeEncodeFlag id.keyType = some flag) (amount nonce : ℤ) :
    updateAccount id amount nonce env = .ok () (env.write id flag ⟨amount, nonce⟩) := by
  simp only [updateAccount, encodeFlag, hflag, Sql.updateAccount, EStateM.bind_apply,
    EStateM.pure_apply, EStateM.modify_apply]
  rfl

/-- `updateAccount` of an account whose key type is not registered fails and changes nothing. -/
theorem updateAccount_of_unregistered (hflag : keyTypeEncodeFlag id.keyType = none)
    (amount nonce : ℤ) :
    updateAccount id amount nonce env = .error (.invalidKeyType id.keyType) env := by
  simp only [updateAccount, encodeFlag, hflag, EStateM.bind_apply, EStateM.throw_apply]

/-- A read that misses memory and succeeds returned the table's row. -/
theorem row_of_getAccount_miss {uncommitted : Bool}
    (hc : env.accounts.cached (acctMapKey id) uncommitted = none)
    (h : getAccount id uncommitted env = .ok acct env₁) :
    env.table.row id = some acct := by
  cases hrow : env.table.row id with
  | some a =>
    rw [getAccount_of_miss hc hrow] at h
    cases h
    rfl
  | none =>
    -- the table has no row: the read throws, from `encodeFlag` or from the query
    have hfail : getAccount id uncommitted env ≠ .ok acct env₁ := by
      cases hf : keyTypeEncodeFlag id.keyType with
      | none =>
        simp [getAccount, Sql.getAccount, encodeFlag, hf, hc]
      | some f =>
        have hl : env.table.lookup (id.identifier, f) = none := by simpa [Table.row, hf] using hrow
        simp [getAccount, Sql.getAccount, encodeFlag, hf, hc, hl]
    exact absurd h hfail

/-- A second read of an account returns what the first returned and changes nothing: the first
left it in memory. -/
theorem getAccount_again {uncommitted : Bool} (h : getAccount id uncommitted env = .ok acct env₁) :
    getAccount id uncommitted env₁ = .ok acct env₁ := by
  cases hc : env.accounts.cached (acctMapKey id) uncommitted with
  | some a =>
    rw [getAccount_of_cached hc] at h
    cases h
    exact getAccount_of_cached hc
  | none =>
    -- a miss: the row went into `records`, and `updates` has no entry for the key
    rw [getAccount_of_miss hc (row_of_getAccount_miss hc h)] at h
    cases h
    apply getAccount_of_cached
    cases hu : env.accounts.updates.lookup (acctMapKey id) <;>
      cases uncommitted <;> simp_all [Accounts.cached, putRecord]

/-- A read whose memory agrees with the table's row returns the row, and at most caches it. -/
theorem getAccount_of_agrees (hflag : keyTypeEncodeFlag id.keyType = some flag)
    (hrow : env.table.lookup (id.identifier, flag) = some acct) (hmem : env.Agrees id acct) :
    ∃ env₁, getAccount id true env = .ok acct env₁ ∧
      (env₁ = env ∨ env₁ = putRecord (acctMapKey id) acct env) := by
  rcases hmem with hnone | hsome
  · exact ⟨_, getAccount_of_miss hnone (by simp [Table.row, hflag, hrow]), .inr rfl⟩
  · exact ⟨_, getAccount_of_cached hsome, .inl rfl⟩

/-- The receiving half of a transfer to an account that a read finds. -/
theorem deposit_of_found (hflag : keyTypeEncodeFlag id.keyType = some flag)
    (h : getAccount id true env = .ok acct env₁) (amt : ℤ) :
    deposit id amt env = .ok () (env₁.write id flag ⟨acct.balance + amt, acct.nonce⟩) := by
  simp only [deposit, EStateM.bind_apply, attempt, h, updateAccount_eq hflag]

end Calls

/-! ### A transfer that succeeds -/

section Success

variable {env env₁ env₂ : Env} {fromAcct toAcct : AccountID} {fF fT : ℕ} {a b : Account}
  {amt : ℤ}

/-- **A transfer whose two reads succeed** and whose sender can pay writes the receiver's balance
plus the amount, then the sender's balance less the amount, each read before either write. -/
theorem transfer_eq (hF : keyTypeEncodeFlag fromAcct.keyType = some fF)
    (hT : keyTypeEncodeFlag toAcct.keyType = some fT)
    (h₁ : getAccount fromAcct true env = .ok a env₁) (h₂ : getAccount toAcct true env₁ = .ok b env₂)
    (h0 : 0 ≤ amt) (hamt : amt ≤ a.balance) :
    transfer fromAcct toAcct amt env = .ok ()
      ((env₂.write toAcct fT ⟨b.balance + amt, b.nonce⟩).write fromAcct fF
        ⟨a.balance - amt, a.nonce⟩) := by
  have hneg : ¬ amt < 0 := by omega
  have hfrom : ¬ a.balance - amt < 0 := by omega
  simp only [transfer, hneg, if_false, nestedTx, EStateM.bind_apply, h₁, hfrom,
    deposit_of_found hT h₂, updateAccount_eq hF]

/-- **A transfer from an account to itself** leaves the balance less the amount, read before the
transfer: the sender's write replaces the receiver's. -/
theorem transfer_self (hF : keyTypeEncodeFlag fromAcct.keyType = some fF)
    (h : getAccount fromAcct true env = .ok a env₁) (h0 : 0 ≤ amt) (hamt : amt ≤ a.balance) :
    transfer fromAcct fromAcct amt env = .ok () (env₁.write fromAcct fF ⟨a.balance - amt, a.nonce⟩) := by
  rw [transfer_eq hF hF h (getAccount_again h) h0 hamt, Env.write_write]

/-- **A transfer to oneself loses the amount.** From a state whose memory agrees with the
table on the account, a transfer of a positive amount that the balance covers succeeds, the
account's balance drops by the amount, and so does the total of all balances. -/
theorem transfer_self_loses_amount (hF : keyTypeEncodeFlag fromAcct.keyType = some fF)
    (hrow : env.table.lookup (fromAcct.identifier, fF) = some a) (hmem : env.Agrees fromAcct a)
    (h0 : 0 < amt) (hamt : amt ≤ a.balance) :
    ∃ env', transfer fromAcct fromAcct amt env = .ok () env' ∧
      env'.table.lookup (fromAcct.identifier, fF) = some ⟨a.balance - amt, a.nonce⟩ ∧
      Table.total env'.table = Table.total env.table - amt := by
  obtain ⟨env₁, hread, henv⟩ := getAccount_of_agrees hF hrow hmem
  have htable : env₁.table = env.table := by rcases henv with rfl | rfl <;> rfl
  refine ⟨_, transfer_self hF hread h0.le hamt, ?_, ?_⟩
  · have hmemb : (fromAcct.identifier, fF) ∈ env₁.table :=
      AList.lookup_isSome.mp (by simp [htable, hrow])
    simp [GoMap.lookup_replace_self hmemb]
  · rw [Env.write_table, Table.total_replace _ (htable ▸ hrow), htable]
    ring

/-- One secp256k1 account of balance 10 and nonce 0, `[2]`, with nothing in memory, sends 4 to
itself: its balance is 6 after, and so is the total. -/
theorem transfer_self_loses_amount_witness :
    ∃ env', transfer ⟨[2], .secp256k1⟩ ⟨[2], .secp256k1⟩ 4
        ⟨⟨∅, ∅, []⟩, AList.insert ([2], 0) ⟨10, 0⟩ ∅⟩ = .ok () env' ∧
      env'.table.lookup ([2], 0) = some ⟨6, 0⟩ ∧ Table.total env'.table = 10 - 4 :=
  @transfer_self_loses_amount ⟨⟨∅, ∅, []⟩, AList.insert ([2], 0) ⟨10, 0⟩ ∅⟩ ⟨[2], .secp256k1⟩ 0
    ⟨10, 0⟩ 4 (by decide) (by decide) (.inl (by decide)) (by decide) (by decide)

end Success

/-! ### A transfer between two accounts -/

section Distinct

/-- **`acctMapKey` is injective on registered key types**: the names of the two types end in
different bytes. -/
theorem acctMapKey_inj {id₁ id₂ : AccountID} {f₁ f₂ : ℕ}
    (h₁ : keyTypeEncodeFlag id₁.keyType = some f₁) (h₂ : keyTypeEncodeFlag id₂.keyType = some f₂)
    (h : acctMapKey id₁ = acctMapKey id₂) : id₁ = id₂ := by
  obtain ⟨i₁, k₁⟩ := id₁
  obtain ⟨i₂, k₂⟩ := id₂
  -- two names of one type: the identifiers agree; of two types: the last bytes differ
  rcases registered_cases h₁ with rfl | rfl <;> rcases registered_cases h₂ with rfl | rfl
  · simpa [acctMapKey] using h
  · have hlast := congrArg List.getLast? h
    simp [acctMapKey, goBytes, KeyType.secp256k1, KeyType.ed25519, List.getLast?_append] at hlast
  · have hlast := congrArg List.getLast? h
    simp [acctMapKey, goBytes, KeyType.secp256k1, KeyType.ed25519, List.getLast?_append] at hlast
  · simpa [acctMapKey] using h

variable {env : Env} {fromAcct toAcct : AccountID} {fF fT : ℕ} {a b : Account} {amt : ℤ}

/-- **A transfer between two accounts conserves the total.** Two different accounts of registered
key types, with rows that memory agrees with, and a sender that can pay: the transfer succeeds,
the amount moves from one row to the other, and the total of all balances is kept. -/
theorem transfer_conserves (hne : fromAcct ≠ toAcct)
    (hF : keyTypeEncodeFlag fromAcct.keyType = some fF)
    (hT : keyTypeEncodeFlag toAcct.keyType = some fT)
    (hrowF : env.table.lookup (fromAcct.identifier, fF) = some a)
    (hrowT : env.table.lookup (toAcct.identifier, fT) = some b)
    (hmemF : env.Agrees fromAcct a) (hmemT : env.Agrees toAcct b)
    (h0 : 0 ≤ amt) (hamt : amt ≤ a.balance) :
    ∃ env', transfer fromAcct toAcct amt env = .ok () env' ∧
      env'.table.lookup (fromAcct.identifier, fF) = some ⟨a.balance - amt, a.nonce⟩ ∧
      env'.table.lookup (toAcct.identifier, fT) = some ⟨b.balance + amt, b.nonce⟩ ∧
      Table.total env'.table = Table.total env.table := by
  -- the two accounts have different keys, in memory and in the table
  have hkey : acctMapKey fromAcct ≠ acctMapKey toAcct := fun h => hne (acctMapKey_inj hF hT h)
  have hrow : (toAcct.identifier, fT) ≠ (fromAcct.identifier, fF) := by
    intro h
    obtain ⟨hid, hflag⟩ := Prod.mk.inj h
    have hkt := keyType_eq_of_flag hT (hflag ▸ hF)
    cases fromAcct
    cases toAcct
    simp_all
  -- the sender's read, then the receiver's, leave the table as it was
  obtain ⟨env₁, h₁, henv₁⟩ := getAccount_of_agrees hF hrowF hmemF
  have htab₁ : env₁.table = env.table := by rcases henv₁ with rfl | rfl <;> rfl
  have hmemT₁ : env₁.Agrees toAcct b := by
    rcases henv₁ with rfl | rfl
    · exact hmemT
    · exact (Env.agrees_putRecord_ne (Ne.symm hkey)).2 hmemT
  obtain ⟨env₂, h₂, henv₂⟩ := getAccount_of_agrees hT (htab₁ ▸ hrowT) hmemT₁
  have htab₂ : env₂.table = env.table := by rcases henv₂ with rfl | rfl <;> exact htab₁
  -- the receiver's write does not touch the sender's row
  have hrowF' : (env₂.table.replace (toAcct.identifier, fT) ⟨b.balance + amt, b.nonce⟩).lookup
      (fromAcct.identifier, fF) = some a := by
    rw [GoMap.lookup_replace_ne _ (Ne.symm hrow), htab₂, hrowF]
  refine ⟨_, transfer_eq hF hT h₁ h₂ h0 hamt, ?_, ?_, ?_⟩
  · exact GoMap.lookup_replace_self (AList.lookup_isSome.mp (by simp [hrowF']))
  · have hmemb : (toAcct.identifier, fT) ∈ env₂.table :=
      AList.lookup_isSome.mp (by simp [htab₂, hrowT])
    rw [Env.write_table, GoMap.lookup_replace_ne _ hrow, Env.write_table,
      GoMap.lookup_replace_self hmemb]
  · simp only [Env.write_table]
    rw [Table.total_replace _ hrowF', Table.total_replace _ (htab₂ ▸ hrowT), htab₂]
    ring

/-- A transfer of 4 from the secp256k1 account `[2]`, read before with a balance of 10, to the
secp256k1 account `[3]` holding 1: the rows become 6 and 5, and the total stays 11. -/
theorem transfer_conserves_two :
    let env : Env := ⟨⟨AList.insert (acctMapKey ⟨[2], .secp256k1⟩) ⟨10, 0⟩ ∅, ∅, []⟩,
      AList.insert ([2], 0) ⟨10, 0⟩ (AList.insert ([3], 0) ⟨1, 0⟩ ∅)⟩
    ∃ env', transfer ⟨[2], .secp256k1⟩ ⟨[3], .secp256k1⟩ 4 env = .ok () env' ∧
      env'.table.lookup ([2], 0) = some ⟨6, 0⟩ ∧ env'.table.lookup ([3], 0) = some ⟨5, 0⟩ ∧
      Table.total env'.table = Table.total env.table :=
  @transfer_conserves ⟨⟨AList.insert (acctMapKey ⟨[2], .secp256k1⟩) ⟨10, 0⟩ ∅, ∅, []⟩,
      AList.insert ([2], 0) ⟨10, 0⟩ (AList.insert ([3], 0) ⟨1, 0⟩ ∅)⟩
    ⟨[2], .secp256k1⟩ ⟨[3], .secp256k1⟩ 0 0 ⟨10, 0⟩ ⟨1, 0⟩ 4 (by decide) (by decide) (by decide)
    (by decide) (by decide) (.inr (by decide)) (.inl (by decide)) (by decide) (by decide)

end Distinct

/-! ### A failed transfer -/

/-- A failed transfer leaves the table as it was: the nested transaction is rolled back. -/
theorem transfer_error_table {env env' : Env} {fromAcct toAcct : AccountID} {amt : ℤ}
    {e : AccountsError} (h : transfer fromAcct toAcct amt env = .error e env') :
    env'.table = env.table := by
  unfold transfer at h
  split at h
  · simp only [EStateM.throw_apply] at h
    cases h
    rfl
  · simp only [nestedTx] at h
    split at h
    · cases h
    · cases h
      rfl

/-- **A failed transfer keeps the receiver's update.** A sender of an unregistered key type that a
read finds in memory, and a receiver that a read finds: the transfer fails on the sender's write,
after the receiver's write has gone into the block's `updates`, where it stays. -/
theorem transfer_error_keeps_update {env env₂ : Env} {fromAcct toAcct : AccountID} {fT : ℕ}
    {a b : Account} {amt : ℤ} (hF : keyTypeEncodeFlag fromAcct.keyType = none)
    (hcache : env.accounts.cached (acctMapKey fromAcct) true = some a)
    (hT : keyTypeEncodeFlag toAcct.keyType = some fT) (h₂ : getAccount toAcct true env = .ok b env₂)
    (h0 : 0 ≤ amt) (hamt : amt ≤ a.balance) :
    ∃ env', transfer fromAcct toAcct amt env = .error (.invalidKeyType fromAcct.keyType) env' ∧
      env'.accounts.updates.lookup (acctMapKey toAcct) = some ⟨b.balance + amt, b.nonce⟩ := by
  have hneg : ¬ amt < 0 := by omega
  have hfrom : ¬ a.balance - amt < 0 := by omega
  -- the nested transaction puts the table back; memory keeps the receiver's write
  refine ⟨{ env₂.write toAcct fT ⟨b.balance + amt, b.nonce⟩ with table := env.table }, ?_, ?_⟩
  · simp only [transfer, hneg, if_false, nestedTx, EStateM.bind_apply, getAccount_of_cached hcache,
      hfrom, deposit_of_found hT h₂, updateAccount_of_unregistered hF]
  · exact AList.lookup_insert _

/-- The sender `[2]` of key type `x#secp256k1` shares its key in memory with the secp256k1 account
`[2]#x` read before: a transfer of 4 from it to the secp256k1 account `[3]` fails, and the block's
`updates`, empty before, keep the receiver's balance 4. -/
theorem transfer_error_keeps_update_of_collision :
    ∃ env', transfer ⟨[2], ⟨"x#secp256k1"⟩⟩ ⟨[3], .secp256k1⟩ 4
        ⟨⟨AList.insert (acctMapKey ⟨[2] ++ goBytes "#x", .secp256k1⟩) ⟨10, 0⟩ ∅, ∅, []⟩,
          AList.insert ([3], 0) ⟨0, 0⟩ ∅⟩ =
        .error (.invalidKeyType ⟨"x#secp256k1"⟩) env' ∧
      env'.accounts.updates.lookup (acctMapKey ⟨[3], .secp256k1⟩) = some ⟨4, 0⟩ :=
  @transfer_error_keeps_update ⟨⟨AList.insert (acctMapKey ⟨[2] ++ goBytes "#x", .secp256k1⟩) ⟨10, 0⟩ ∅,
      ∅, []⟩, AList.insert ([3], 0) ⟨0, 0⟩ ∅⟩ _ ⟨[2], ⟨"x#secp256k1"⟩⟩ ⟨[3], .secp256k1⟩ 0 ⟨10, 0⟩
    ⟨0, 0⟩ 4 (by decide) (by decide) (by decide) (getAccount_of_miss (by decide) (by decide))
    (by decide) (by decide)

end KwilDb.AccountStore
