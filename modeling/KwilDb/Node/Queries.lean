import KwilDb.Store.Results

/-!
# The node's queries of committed transactions

`Node.TxQuery` answers a transaction hash from the mempool, or else from the block store: `GetTx`
gives the block and the position, and `Result` the result there; any error of the store is
`ErrTxNotFound`. `Node.ChainTx` reads all results of the block with `Results` and takes the one at
the position. The node reaches the store through its interface, so both are modelled over the
interface's calls.

Along every run of commits both queries answer on the badger store as on the memory store, save
that no result has gas (`queries_refine`): the agreement of `GetTx` and of the results that
`Store.Results` proves along commits, carried through the two compositions.
-/

namespace KwilDb.Node

open KwilDb.Lib KwilDb.Types KwilDb.Store
open KwilDb.Core (Bytes Hash KeyType CommitInfo ParamUpdates)

/-- `ErrTxNotFound`. -/
def errTxNotFound : String := "transaction not found"

/-- `TxQueryResponse`. -/
structure TxQueryResponse where
  hash : Hash
  height : Int64
  tx : Option Transaction
  result : Option TxResult

/-- `chain.Tx`, the answer of `ChainTx`. -/
structure ChainTx where
  hash : Hash
  height : Int64
  index : UInt32
  tx : Option Transaction
  txResult : TxResult

/-- **`Node.TxQuery`**, over the mempool's `Get` and the block store's `GetTx` and `Result`. A
transaction still in the mempool has height `-1` and no result. -/
def txQuery (mempoolGet : Hash → Option Transaction)
    (getTx : Hash → Except Failure (Option Transaction × Int64 × Hash × UInt32))
    (result : Hash → UInt32 → Except Failure TxResult) (hash : Hash) :
    Except Failure TxQueryResponse :=
  match mempoolGet hash with
  | some tx => .ok ⟨hash, -1, some tx, none⟩
  | none =>
    match getTx hash with
    | .error (.panic msg) => .error (.panic msg)
    | .error (.error _) => .error (.error errTxNotFound)
    | .ok (tx, height, blkHash, blkIdx) =>
      match result blkHash blkIdx with
      | .error (.panic msg) => .error (.panic msg)
      | .error (.error _) => .error (.error errTxNotFound)
      | .ok res => .ok ⟨hash, height, tx, some res⟩

/-- **`Node.ChainTx`**, over the block store's `GetTx` and `Results`. -/
def chainTx (getTx : Hash → Except Failure (Option Transaction × Int64 × Hash × UInt32))
    (results : Hash → Except Failure (List TxResult)) (hash : Hash) : Except Failure ChainTx := do
  let (tx, height, blkHash, blkIdx) ← getTx hash
  let blkResults ← results blkHash
  if h : blkIdx.toNat < blkResults.length then
    pure ⟨hash, height, blkIdx, tx, blkResults[blkIdx.toNat]⟩
  else throw (.error "invalid block index")

/-- An answer of `TxQuery` with its result's gas zero. -/
def TxQueryResponse.withoutGas (r : TxQueryResponse) : TxQueryResponse :=
  { r with result := r.result.map TxResult.withoutGas }

/-- An answer of `ChainTx` with its result's gas zero. -/
def ChainTx.withoutGas (c : ChainTx) : ChainTx := { c with txResult := c.txResult.withoutGas }

section Agree

variable {blockHash : Block → Hash} {txHash : Transaction → Hash}
  {unmarshalPublicKey : Bytes → KeyType → Except String PublicKey} {bs : BlockStore} {ms : MemBS}

/-- Where the stores agree, `TxQuery` answers alike but for the gas. -/
lemma txQuery_eq_of_agree (ha : CommitsAgree blockHash txHash unmarshalPublicKey bs ms)
    (mempoolGet : Hash → Option Transaction) (hash : Hash) :
    txQuery mempoolGet (bs.getTx unmarshalPublicKey) bs.result hash =
      (txQuery mempoolGet (ms.getTx blockHash txHash) ms.result hash).map
        TxQueryResponse.withoutGas := by
  cases hmp : mempoolGet hash with
  | some tx => simp [txQuery, hmp, Except.map, TxQueryResponse.withoutGas]
  | none =>
    simp only [txQuery, hmp, ha.txIndexed.getTx_eq hash]
    cases hg : ms.getTx blockHash txHash hash with
    | error f => cases f <;> rfl
    | ok q =>
      obtain ⟨tx, height, H, idx⟩ := q
      simp only
      rw [ha.results.result_eq H idx]
      -- the memory store's `Result` gives a result or an error, and then so does the badger's
      cases hr : ms.result H idx with
      | ok r => rfl
      | error f =>
        cases f with
        | error e => rfl
        | panic msg => exact absurd hr (MemBS.result_ne_panic ms H idx msg)

/-- Where the stores agree, `ChainTx` answers alike but for the gas: the results of a block that
`GetTx` names are held. -/
lemma chainTx_eq_of_agree (ha : CommitsAgree blockHash txHash unmarshalPublicKey bs ms)
    (hash : Hash) :
    chainTx (bs.getTx unmarshalPublicKey) (bs.results unmarshalPublicKey) hash =
      (chainTx (ms.getTx blockHash txHash) ms.results hash).map ChainTx.withoutGas := by
  rw [show bs.getTx unmarshalPublicKey = ms.getTx blockHash txHash from
    funext ha.txIndexed.getTx_eq]
  cases hg : ms.getTx blockHash txHash hash with
  | error f => simp [chainTx, hg, bind, Except.bind, Except.map]
  | ok q =>
    obtain ⟨tx, height, H, idx⟩ := q
    obtain ⟨blk, hb⟩ := ha.txIndexed.getTx_block hg
    obtain ⟨rs, hrs⟩ : ∃ rs, ms.txResults.lookup H = some rs := by
      have hc := ha.results.counts H
      rw [hb, Option.map_some] at hc
      obtain ⟨rs, hrs, -⟩ := Option.map_eq_some_iff.mp hc
      exact ⟨rs, hrs⟩
    have hbr := (ha.results.held H rs hrs).results_eq
    have hmr : ms.results H = .ok rs := by simp [MemBS.results, hrs]
    simp only [chainTx, hg, hbr, hmr, bind, Except.bind]
    by_cases hi : idx.toNat < rs.length
    · simp [hi, pure, Except.pure, Except.map, ChainTx.withoutGas]
    · simp [hi, throw, throwThe, MonadExceptOf.throw, Except.map]

end Agree

section Runs

variable {blockHash : Block → Hash} {txHash : Transaction → Hash}
  {unmarshalPublicKey : Bytes → KeyType → Except String PublicKey}

/-- **The node's queries agree along commits, but for the gas.** Along any run of commits that
both stores take alike, in which no hash names two blocks, both stores succeed, and `TxQuery` and
`ChainTx` answer every hash, with any mempool, on the badger store as on the memory store, each
result without its gas: the same transaction, height, position and result, or the same error. -/
theorem queries_refine {commits : List (Block × CommitInfo ParamUpdates × List TxResult)}
    (hc : ∀ c ∈ commits, Committable txHash unmarshalPublicKey c)
    (hcf : ∀ c ∈ commits, ∀ d ∈ commits, blockHash c.1 = blockHash d.1 → c.1 = d.1) :
    ∃ bs ms, BlockStore.empty.commitAll blockHash txHash commits = .ok bs ∧
      MemBS.empty.commitAll blockHash txHash commits = .ok ms ∧
      ∀ (mempoolGet : Hash → Option Transaction) (hash : Hash),
        txQuery mempoolGet (bs.getTx unmarshalPublicKey) bs.result hash =
          (txQuery mempoolGet (ms.getTx blockHash txHash) ms.result hash).map
            TxQueryResponse.withoutGas ∧
        chainTx (bs.getTx unmarshalPublicKey) (bs.results unmarshalPublicKey) hash =
          (chainTx (ms.getTx blockHash txHash) ms.results hash).map ChainTx.withoutGas := by
  obtain ⟨bs, ms, hbs, hms, ha⟩ :=
    CommitsAgree.empty.commitAll hc hcf fun _ _ _ h => by cases h
  exact ⟨bs, ms, hbs, hms, fun mempoolGet hash =>
    ⟨txQuery_eq_of_agree ha mempoolGet hash, chainTx_eq_of_agree ha hash⟩⟩

/-- The commit of a block of one transaction. -/
theorem queries_refine_one :
    ∃ bs ms, BlockStore.empty.commitAll (·.header.merkleRoot) (fun _ => zeroHash) [oneTxCommit] =
        .ok bs ∧
      MemBS.empty.commitAll (·.header.merkleRoot) (fun _ => zeroHash) [oneTxCommit] = .ok ms ∧
      ∀ (mempoolGet : Hash → Option Transaction) (hash : Hash),
        txQuery mempoolGet (bs.getTx anyKey) bs.result hash =
          (txQuery mempoolGet (ms.getTx (·.header.merkleRoot) (fun _ => zeroHash)) ms.result
            hash).map TxQueryResponse.withoutGas ∧
        chainTx (bs.getTx anyKey) (bs.results anyKey) hash =
          (chainTx (ms.getTx (·.header.merkleRoot) (fun _ => zeroHash)) ms.results hash).map
            ChainTx.withoutGas :=
  queries_refine
    (fun c hc => by rw [List.mem_singleton.mp hc]; exact committable_oneTxCommit)
    (fun c hc d hd _ => by rw [List.mem_singleton.mp hc, List.mem_singleton.mp hd])

end Runs

end KwilDb.Node
