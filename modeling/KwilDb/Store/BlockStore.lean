import KwilDb.Lib.Slices
import KwilDb.Types.Block
import KwilDb.Types.CommitInfo
import KwilDb.Types.TxResult

/-!
# The block store and the memory store

`node/store` keeps the committed blocks in a badger database, a map from keys to values, with an
index of them in memory: the height of each block under its hash, the hash, app hash and time of
the block at each height, and the best height with its hash. `Store` writes, in one database
transaction, the header and signature, the block and the commit info under `h:`, `b:` and `c:`
before the block's hash, and for each transaction its height, block and index under `t:` before
its hash; then it updates the index. `Get` reads the block and the commit info back through their
codecs (`Types.Block`, `Types.CommitInfo`).

`node/store/memstore` implements the same interface over maps of the values themselves, and the
node's tests run on it. Along any run of stores whose blocks and commit infos read back, the
badger store answers `Have`, `HaveTx`, `Get` and `GetByHeight` as the memory store does
(`runStores_refines`), and `Best` too while no height is stored twice (`best_of_fresh_heights`).

They part when a second block is stored at the best height. The badger store keeps the best hash
of the first block but the app hash and time of the second, so `Best` pairs one block's hash with
another's app hash (`best_mixes_blocks`); the memory store reports the second block throughout.

`GetTx` reads a transaction back through its entry under `t:` and `GetRawBlockTx` in the badger
store, and by a search of the block the index names in the memory store. The entries of a block's
transactions are written in order, so a hash the block holds twice is indexed at its last position,
where the memory store's search stops at the first (`getTx_last_vs_first`). Along runs of blocks
with no transaction hash twice the two agree (`getTx_refines`).

The block hash (`Block.Hash`, the SHA-256 of the header's encoding) and the transaction hash
(`Transaction.HashCache`) are parameters. The results of the transactions are stored and read in
`Store.Results`; the splitting of a database transaction that grows too big is left out.
-/

namespace KwilDb.Store

open KwilDb.Lib KwilDb.Types
open KwilDb.Core (Bytes Hash KeyType CommitInfo ParamUpdates goBytes hexEncode)

/-- The zero hash. -/
def zeroHash : Hash := Vector.replicate 32 0

/-- `time.Time{}.UnixMilli()`: the time of a zero `time.Time`. -/
def zeroTime : Int64 := -62135596800000

/-- `blockHashes`: what the index keeps of the block at a height, its time as `UnixMilli`. -/
structure BlockHashes where
  hash : Hash
  appHash : Hash
  stamp : Int64
deriving DecidableEq, Repr

/-- A block's hash and app hash, without the time. -/
def BlockHashes.ids (hs : BlockHashes) : Hash × Hash := (hs.hash, hs.appHash)

/-- The zero `blockHashes` a missed map lookup gives. -/
def BlockHashes.zero : BlockHashes := ⟨zeroHash, zeroHash, zeroTime⟩

/-- The body both `PreFetch` methods share: fetch a block that is neither stored nor being
fetched, and mark it as being fetched. -/
def preFetchIn (stored : Bool) (fetching : GoMap Hash Bool) (blkid : Hash) :
    Bool × GoMap Hash Bool :=
  if stored then (false, fetching)
  else if fetching.lookup blkid = some true then (false, fetching)
  else (true, fetching.insert blkid true)

/-! ### The badger store -/

/-- `nsHeader`. -/
def nsHeader : Bytes := goBytes "h:"

/-- `nsBlock`. -/
def nsBlock : Bytes := goBytes "b:"

/-- `nsTxn`. -/
def nsTxn : Bytes := goBytes "t:"

/-- `nsCommitInfo`. -/
def nsCommitInfo : Bytes := goBytes "c:"

/-- **`BlockStore`**, without its mutex, logger and metrics: the index in memory and the
database. -/
structure BlockStore where
  bestHeight : Int64
  bestHash : Hash
  idx : GoMap Hash Int64
  hashes : GoMap Int64 BlockHashes
  fetching : GoMap Hash Bool
  db : GoMap Bytes Bytes

/-- `NewBlockStore` on an empty database. -/
def BlockStore.empty : BlockStore := ⟨0, zeroHash, ∅, ∅, ∅, ∅⟩

/-- `makeTxVal`: the height, the block hash and the transaction's index (`uint32`). -/
def makeTxVal (height : Int64) (blkHash : Hash) (idx : ℕ) : Bytes :=
  leBytes 8 height.toUInt64.toNat ++ blkHash.toList ++ leBytes 4 idx

section Badger

variable (blockHash : Block → Hash) (txHash : Transaction → Hash)
  (unmarshalPublicKey : Bytes → KeyType → Except String PublicKey)

/-- The hashes `Store` indexes: `make([]Hash, NumTxns)` filled by the loop over the block's
transactions, which runs off the slice when the header counts fewer than the block has. -/
def txHashesOf (blk : Block) : Except Failure (List Hash) :=
  let n := blk.header.numTxns.toNat
  if n < blk.txns.length then
    .error (.panic ("runtime error: index out of range [" ++ toString n ++ "] with length " ++
      toString n))
  else .ok (blk.txns.map txHash ++ List.replicate (n - blk.txns.length) zeroHash)

/-- The three writes of `Store` under the block's hash: the header and signature, the block and the
commit info. -/
def writeBlock (db : GoMap Bytes Bytes) (blkHash : Hash) (header rawBlk ciBytes : Bytes) :
    GoMap Bytes Bytes :=
  ((db.insert (nsHeader ++ blkHash.toList) header).insert (nsBlock ++ blkHash.toList) rawBlk).insert
    (nsCommitInfo ++ blkHash.toList) ciBytes

/-- The loop of `Store` over the hashes: each goes to its position, a later index over an
earlier one of the same hash. -/
def writeTxIndex (height : Int64) (blkHash : Hash) (db : GoMap Bytes Bytes) (hs : List Hash) :
    GoMap Bytes Bytes :=
  hs.zipIdx.foldl (fun db p => db.insert (nsTxn ++ p.1.toList) (makeTxVal height blkHash p.2)) db

/-- **`BlockStore.Store`.** Everything that can fail comes before the transaction commits, and
the transaction is discarded on a failure: a failed store changes nothing. -/
def BlockStore.store (bs : BlockStore) (blk : Block) (ci : CommitInfo ParamUpdates) :
    Except Failure BlockStore := do
  let blkHash := blockHash blk
  let height := blk.header.height
  let rawBlk ← encodeBlock blk
  let txHashes ← txHashesOf txHash blk
  let headerBytes ← encodeBlockHeader blk.header
  let ciBytes ← ci.marshalBinary
  let db := writeBlock bs.db blkHash (headerBytes ++ blk.signature) rawBlk ciBytes
  pure {
    bestHeight := if bs.bestHeight < height then height else bs.bestHeight
    bestHash := if bs.bestHeight < height then blkHash else bs.bestHash
    idx := bs.idx.insert blkHash height
    hashes := bs.hashes.insert height ⟨blkHash, ci.appHash, blk.header.timestamp⟩
    fetching := bs.fetching.erase blkHash
    db := writeTxIndex height blkHash db txHashes }

/-- The stores of a run of commits, one `Store` a block, stopping at the first failure. -/
def BlockStore.storeAll (bs : BlockStore) (stores : List (Block × CommitInfo ParamUpdates)) :
    Except Failure BlockStore :=
  stores.foldlM (fun bs p => bs.store blockHash txHash p.1 p.2) bs

/-- `BlockStore.Have`. -/
def BlockStore.have (bs : BlockStore) (blkHash : Hash) : Bool := (bs.idx.lookup blkHash).isSome

/-- `BlockStore.HaveTx`. -/
def BlockStore.haveTx (bs : BlockStore) (txh : Hash) : Bool :=
  (bs.db.lookup (nsTxn ++ txh.toList)).isSome

/-- **`BlockStore.Get`.** A key the database lacks is `ErrNotFound`. A block that does not decode
leaves the block pointer nil, and the metrics call after the read dereferences it. -/
def BlockStore.get (bs : BlockStore) (blkHash : Hash) :
    Except Failure (Block × CommitInfo ParamUpdates) :=
  if ¬ bs.have blkHash then .error (.error errNotFound)
  else match bs.db.lookup (nsBlock ++ blkHash.toList) with
    | none => .error (.error errNotFound)
    | some raw =>
      match decodeBlock unmarshalPublicKey raw with
      | .error _ => .error nilDereference
      | .ok blk =>
        match bs.db.lookup (nsCommitInfo ++ blkHash.toList) with
        | none => .error (.error errNotFound)
        | some craw =>
          match CommitInfo.unmarshalBinary unmarshalPublicKey craw with
          | .error e => .error (.error e)
          | .ok ci => .ok (blk, ci)

/-- **`BlockStore.GetByHeight`**: the block the index holds at the height, whose commit info must
carry the app hash the index recorded. -/
def BlockStore.getByHeight (bs : BlockStore) (height : Int64) :
    Except Failure (Hash × Block × CommitInfo ParamUpdates) :=
  match bs.hashes.lookup height with
  | none => .error (.error errNotFound)
  | some hs => do
    let (blk, ci) ← bs.get unmarshalPublicKey hs.hash
    if ci.appHash ≠ hs.appHash then
      throw (.error ("appHash mismatch: " ++ hexEncode ci.appHash.toList ++ " != " ++
        hexEncode hs.appHash.toList))
    pure (hs.hash, blk, ci)

/-- **`BlockStore.Best`**: the best height and hash, with the app hash and time the index holds
at that height. -/
def BlockStore.best (bs : BlockStore) : Int64 × Hash × Hash × Int64 :=
  let hs := (bs.hashes.lookup bs.bestHeight).getD .zero
  (bs.bestHeight, bs.bestHash, hs.appHash, hs.stamp)

/-- `blkInfoLen`: the height, the block hash and the index a transaction's entry holds. -/
def blkInfoLen : ℕ := 8 + 32 + 4

/-- **`BlockStore.GetTx`.** The transaction's entry under `t:` gives the height, the block hash and
the index; the transaction's bytes are read at that index from the block under `b:` with
`GetRawBlockTx`, and decoded without strictness. Empty bytes give no transaction and no error. -/
def BlockStore.getTx (bs : BlockStore) (txh : Hash) :
    Except Failure (Option Transaction × Int64 × Hash × UInt32) :=
  match bs.db.lookup (nsTxn ++ txh.toList) with
  | none => .error (.error errNotFound)
  | some val =>
    if val.length < blkInfoLen then .error (.error "invalid block info for tx")
    else
      let height := (UInt64.ofNat (leNat (val.take 8))).toInt64
      let blkHash := hashOfBytes (val.drop 8)
      let blkIdx := UInt32.ofNat (leNat ((val.drop 40).take 4))
      match bs.db.lookup (nsBlock ++ blkHash.toList) with
      | none => .error (.error errNotFound)
      | some raw =>
        match getRawBlockTx unmarshalPublicKey raw blkIdx with
        | .error e => .error (.error e)
        | .ok [] => .ok (none, height, blkHash, blkIdx)
        | .ok rawTx =>
          match Transaction.unmarshalBinary false rawTx with
          | .error e => .error (.error e)
          | .ok tx => .ok (some tx, height, blkHash, blkIdx)

/-- `BlockStore.PreFetch`: whether the caller should fetch the block, marked as being fetched. -/
def BlockStore.preFetch (bs : BlockStore) (blkid : Hash) : Bool × BlockStore :=
  let (fetch, fetching) := preFetchIn (bs.have blkid) bs.fetching blkid
  (fetch, { bs with fetching })

end Badger

/-! ### The memory store -/

/-- **`MemBS`**, without its mutex. -/
structure MemBS where
  idx : GoMap Hash Int64
  hashes : GoMap Int64 BlockHashes
  blocks : GoMap Hash Block
  commitInfo : GoMap Hash (CommitInfo ParamUpdates)
  txResults : GoMap Hash (List TxResult)
  txIds : GoMap Hash Hash
  fetching : GoMap Hash Bool

/-- `NewMemBS`. -/
def MemBS.empty : MemBS := ⟨∅, ∅, ∅, ∅, ∅, ∅, ∅⟩

section Memory

variable (blockHash : Block → Hash) (txHash : Transaction → Hash)

/-- **`MemBS.Store`**, which records no time. -/
def MemBS.store (bs : MemBS) (blk : Block) (ci : Option (CommitInfo ParamUpdates)) :
    Except String MemBS :=
  match ci with
  | none => .error "commit info is nil"
  | some ci =>
    let blkHash := blockHash blk
    .ok { bs with
      blocks := bs.blocks.insert blkHash blk
      idx := bs.idx.insert blkHash blk.header.height
      commitInfo := bs.commitInfo.insert blkHash ci
      hashes := bs.hashes.insert blk.header.height ⟨blkHash, ci.appHash, zeroTime⟩
      txIds := blk.txns.foldl (fun m tx => m.insert (txHash tx) blkHash) bs.txIds }

/-- The stores of a run of commits on the memory store. -/
def MemBS.storeAll (bs : MemBS) (stores : List (Block × CommitInfo ParamUpdates)) :
    Except String MemBS :=
  stores.foldlM (fun bs p => bs.store blockHash txHash p.1 (some p.2)) bs

/-- `MemBS.Have`. -/
def MemBS.have (bs : MemBS) (blkid : Hash) : Bool := (bs.idx.lookup blkid).isSome

/-- `MemBS.HaveTx`. -/
def MemBS.haveTx (bs : MemBS) (txh : Hash) : Bool := (bs.txIds.lookup txh).isSome

/-- `MemBS.Get`. -/
def MemBS.get (bs : MemBS) (blkHash : Hash) : Except Failure (Block × CommitInfo ParamUpdates) :=
  match bs.blocks.lookup blkHash, bs.commitInfo.lookup blkHash with
  | some blk, some ci => .ok (blk, ci)
  | _, _ => .error (.error errNotFound)

/-- `MemBS.GetByHeight`. -/
def MemBS.getByHeight (bs : MemBS) (height : Int64) :
    Except Failure (Hash × Block × CommitInfo ParamUpdates) :=
  match bs.hashes.lookup height with
  | none => .error (.error errNotFound)
  | some hs =>
    match bs.blocks.lookup hs.hash, bs.commitInfo.lookup hs.hash with
    | some blk, some ci => .ok (hs.hash, blk, ci)
    | _, _ => .error (.error errNotFound)

/-- `MemBS.PreFetch`. -/
def MemBS.preFetch (bs : MemBS) (blkid : Hash) : Bool × MemBS :=
  let (fetch, fetching) := preFetchIn (bs.have blkid) bs.fetching blkid
  (fetch, { bs with fetching })

/-- **`MemBS.GetTx`**: the block the index names, searched for its first transaction of the
hash. -/
def MemBS.getTx (bs : MemBS) (txh : Hash) :
    Except Failure (Option Transaction × Int64 × Hash × UInt32) :=
  match bs.txIds.lookup txh with
  | none => .error (.error errNotFound)
  | some blkHash =>
    match bs.blocks.lookup blkHash with
    | none => .error (.error errNotFound)
    | some blk =>
      match blk.txns.zipIdx.find? (fun p => txHash p.1 == txh) with
      | some (tx, idx) => .ok (some tx, blk.header.height, blockHash blk, UInt32.ofNat idx)
      | none => .error (.error errNotFound)

/-- One turn of `MemBS.Best`'s loop over the heights: a height at least the best so far takes
over. -/
def bestStep (acc : Int64 × Hash × Hash × Int64) (e : (_ : Int64) × BlockHashes) :
    Int64 × Hash × Hash × Int64 :=
  if acc.1 ≤ e.1 then (e.1, e.2.hash, e.2.appHash, e.2.stamp) else acc

/-- **`MemBS.Best`**, over the heights in the map's order, from zero results. -/
def MemBS.best (bs : MemBS) : Int64 × Hash × Hash × Int64 :=
  bs.hashes.entries.foldl bestStep (0, zeroHash, zeroHash, zeroTime)

/-- The loop of `MemBS.Best` over the heights in the order `order`: Go leaves the order of a
`range` over a map open, so a call may visit the map's entries in any order. -/
def bestIn (order : List ((_ : Int64) × BlockHashes)) : Int64 × Hash × Hash × Int64 :=
  order.foldl bestStep (0, zeroHash, zeroHash, zeroTime)

end Memory

/-! ### Keys

Every namespace is two bytes long: keys of two namespaces differ, and a key of one namespace
names its hash. -/

lemma ns_append_inj {ns : Bytes} {a b : Hash} : ns ++ a.toList = ns ++ b.toList ↔ a = b := by
  rw [List.append_cancel_left_eq, Vector.toList_inj]

lemma ns_append_ne {x y : Bytes} (ns ns' : Bytes) (hl : ns.length = ns'.length) (hn : ns ≠ ns') :
    ns ++ x ≠ ns' ++ y :=
  fun h => hn (List.append_inj h hl).1

section Lookups

variable (db : GoMap Bytes Bytes) (blkHash h : Hash) (header rawBlk ciBytes : Bytes)

lemma lookup_writeBlock_header :
    (writeBlock db blkHash header rawBlk ciBytes).lookup (nsHeader ++ h.toList) =
      if h = blkHash then some header else db.lookup (nsHeader ++ h.toList) := by
  rw [writeBlock, AList.lookup_insert_ne (ns_append_ne nsHeader nsCommitInfo rfl (by decide)),
    AList.lookup_insert_ne (ns_append_ne nsHeader nsBlock rfl (by decide))]
  split_ifs with hh
  · rw [hh, AList.lookup_insert]
  · rw [AList.lookup_insert_ne (mt ns_append_inj.mp hh)]

lemma lookup_writeBlock_block :
    (writeBlock db blkHash header rawBlk ciBytes).lookup (nsBlock ++ h.toList) =
      if h = blkHash then some rawBlk else db.lookup (nsBlock ++ h.toList) := by
  rw [writeBlock, AList.lookup_insert_ne (ns_append_ne nsBlock nsCommitInfo rfl (by decide))]
  split_ifs with hh
  · rw [hh, AList.lookup_insert]
  · rw [AList.lookup_insert_ne (mt ns_append_inj.mp hh),
      AList.lookup_insert_ne (ns_append_ne nsBlock nsHeader rfl (by decide))]

lemma lookup_writeBlock_commitInfo :
    (writeBlock db blkHash header rawBlk ciBytes).lookup (nsCommitInfo ++ h.toList) =
      if h = blkHash then some ciBytes else db.lookup (nsCommitInfo ++ h.toList) := by
  rw [writeBlock]
  split_ifs with hh
  · rw [hh, AList.lookup_insert]
  · rw [AList.lookup_insert_ne (mt ns_append_inj.mp hh),
      AList.lookup_insert_ne (ns_append_ne nsCommitInfo nsBlock rfl (by decide)),
      AList.lookup_insert_ne (ns_append_ne nsCommitInfo nsHeader rfl (by decide))]

lemma lookup_writeBlock_txn :
    (writeBlock db blkHash header rawBlk ciBytes).lookup (nsTxn ++ h.toList) =
      db.lookup (nsTxn ++ h.toList) := by
  rw [writeBlock, AList.lookup_insert_ne (ns_append_ne nsTxn nsCommitInfo rfl (by decide)),
    AList.lookup_insert_ne (ns_append_ne nsTxn nsBlock rfl (by decide)),
    AList.lookup_insert_ne (ns_append_ne nsTxn nsHeader rfl (by decide))]

/-- The transaction index writes under `t:` only. -/
lemma lookup_writeTxIndex_of_ne (ns : Bytes) {x : Bytes} (hl : ns.length = nsTxn.length) (hn : ns ≠ nsTxn)
    (height : Int64) (hs : List Hash) :
    (writeTxIndex height blkHash db hs).lookup (ns ++ x) = db.lookup (ns ++ x) := by
  refine GoMap.lookup_foldl_insert_of_not_mem _ _ db ?_
  simp only [List.mem_map, not_exists, not_and]
  exact fun _ _ hp => ns_append_ne ns nsTxn hl hn hp.symm

/-- A transaction is indexed after the loop when it is among the hashes or was before. -/
lemma isSome_lookup_writeTxIndex (height : Int64) (hs : List Hash) :
    ((writeTxIndex height blkHash db hs).lookup (nsTxn ++ h.toList)).isSome ↔
      h ∈ hs ∨ (db.lookup (nsTxn ++ h.toList)).isSome := by
  have hkeys : hs.zipIdx.map (fun p => nsTxn ++ p.1.toList) = hs.map (nsTxn ++ ·.toList) := by
    conv_rhs => rw [← List.zipIdx_map_fst 0 hs]
    rw [List.map_map]
    rfl
  rw [writeTxIndex, GoMap.isSome_lookup_foldl_insert, hkeys]
  simp only [List.mem_map, ns_append_inj, exists_eq_right]

/-- A transaction not among the hashes keeps its entry. -/
lemma lookup_writeTxIndex_of_not_mem (height : Int64) {hs : List Hash} (ht : h ∉ hs) :
    (writeTxIndex height blkHash db hs).lookup (nsTxn ++ h.toList) =
      db.lookup (nsTxn ++ h.toList) := by
  refine GoMap.lookup_foldl_insert_of_not_mem _ _ db ?_
  rw [List.mem_map]
  rintro ⟨p, hp, hk⟩
  exact ht (ns_append_inj.mp hk ▸ List.fst_mem_of_mem_zipIdx hp)

/-- A transaction among the hashes is indexed at its last position: a later entry of the same hash
overwrites an earlier one. -/
lemma lookup_writeTxIndex_of_mem (height : Int64) {hs : List Hash} (ht : h ∈ hs) :
    ∃ j, hs[j]? = some h ∧ (∀ k, j < k → hs[k]? ≠ some h) ∧
      (writeTxIndex height blkHash db hs).lookup (nsTxn ++ h.toList) =
        some (makeTxVal height blkHash j) := by
  obtain ⟨j, y, hy, hyh, hlast, hfind⟩ :=
    find?_reverse_zipIdx_of_mem (p := fun y => decide (nsTxn ++ y.toList = nsTxn ++ h.toList)) ht
      (by simp)
  obtain rfl : y = h := ns_append_inj.mp (of_decide_eq_true hyh)
  refine ⟨j, hy, fun k hk hk' => ?_, ?_⟩
  · simpa using hlast k hk y hk'
  · rw [writeTxIndex, GoMap.lookup_foldl_insert_find, hfind]
    rfl

end Lookups

/-! ### What `Store` leaves -/

section Store

variable {blockHash : Block → Hash} {txHash : Transaction → Hash}
  {unmarshalPublicKey : Bytes → KeyType → Except String PublicKey}
  {bs bs' : BlockStore} {blk : Block} {ci : CommitInfo ParamUpdates}

/-- With the transactions counted right, the hashes `Store` indexes are the transactions' own. -/
lemma txHashesOf_eq (hn : blk.header.numTxns.toNat = blk.txns.length) :
    txHashesOf txHash blk = .ok (blk.txns.map txHash) := by
  simp [txHashesOf, hn]

/-- A block encodes only when its header does, and then as `encodeBlock_eq` says. -/
lemma encodeBlock_eq_ok {rawBlk : Bytes} (h : encodeBlock blk = .ok rawBlk) :
    ∃ header, encodeBlockHeader blk.header = .ok header ∧
      rawBlk = header ++ appendUvarint blk.signature.length ++ blk.signature ++
        txEntries (blk.txns.map Transaction.bytes) := by
  cases hh : encodeBlockHeader blk.header with
  | error e => simp [encodeBlock, hh] at h
  | ok header => exact ⟨header, rfl, Except.ok.inj (h.symm.trans (encodeBlock_eq hh))⟩

/-- **`Store`'s spec.** A successful store has encoded the block, its hashes, its header and the
commit info, and holds the writes of `Store` over the old index and database. -/
lemma BlockStore.store_eq_ok (h : bs.store blockHash txHash blk ci = .ok bs') :
    ∃ rawBlk hs header ciBytes, encodeBlock blk = .ok rawBlk ∧ txHashesOf txHash blk = .ok hs ∧
      ci.marshalBinary = .ok ciBytes ∧ bs' = {
        bestHeight := if bs.bestHeight < blk.header.height then blk.header.height else bs.bestHeight
        bestHash := if bs.bestHeight < blk.header.height then blockHash blk else bs.bestHash
        idx := bs.idx.insert (blockHash blk) blk.header.height
        hashes := bs.hashes.insert blk.header.height
          ⟨blockHash blk, ci.appHash, blk.header.timestamp⟩
        fetching := bs.fetching.erase (blockHash blk)
        db := writeTxIndex blk.header.height (blockHash blk)
          (writeBlock bs.db (blockHash blk) header rawBlk ciBytes) hs } := by
  simp only [BlockStore.store, bind_eq_ok] at h
  obtain ⟨rawBlk, he, hs, htx, hb, _, ciBytes, hm, h⟩ := h
  exact ⟨rawBlk, hs, _, ciBytes, he, htx, hm, (Except.ok.inj h).symm⟩

/-- The index a successful `Store` leaves. -/
lemma BlockStore.store_index (h : bs.store blockHash txHash blk ci = .ok bs') :
    bs'.bestHeight =
        (if bs.bestHeight < blk.header.height then blk.header.height else bs.bestHeight) ∧
      bs'.bestHash = (if bs.bestHeight < blk.header.height then blockHash blk else bs.bestHash) ∧
      bs'.idx = bs.idx.insert (blockHash blk) blk.header.height ∧
      bs'.hashes = bs.hashes.insert blk.header.height
        ⟨blockHash blk, ci.appHash, blk.header.timestamp⟩ := by
  obtain ⟨_, _, _, _, _, _, _, rfl⟩ := BlockStore.store_eq_ok h
  exact ⟨rfl, rfl, rfl, rfl⟩

/-- `Get` reads what the database holds under a hash the index has. -/
lemma BlockStore.get_eq_ok {h : Hash} {rawBlk ciBytes : Bytes} (hh : bs.have h)
    (hb : bs.db.lookup (nsBlock ++ h.toList) = some rawBlk)
    (hd : decodeBlock unmarshalPublicKey rawBlk = .ok blk)
    (hc : bs.db.lookup (nsCommitInfo ++ h.toList) = some ciBytes)
    (hu : CommitInfo.unmarshalBinary unmarshalPublicKey ciBytes = .ok ci) :
    bs.get unmarshalPublicKey h = .ok (blk, ci) := by
  simp [BlockStore.get, hh, hb, hd, hc, hu]

/-- `Get` at a hash depends on the index there and the two keys of the hash only. -/
lemma BlockStore.get_congr {h : Hash} (hh : bs'.have h = bs.have h)
    (hb : bs'.db.lookup (nsBlock ++ h.toList) = bs.db.lookup (nsBlock ++ h.toList))
    (hc : bs'.db.lookup (nsCommitInfo ++ h.toList) = bs.db.lookup (nsCommitInfo ++ h.toList)) :
    bs'.get unmarshalPublicKey h = bs.get unmarshalPublicKey h := by
  simp only [BlockStore.get, hh, hb, hc]

/-- A store leaves `Get` at every other hash as it was. -/
lemma BlockStore.get_store_of_ne (h : bs.store blockHash txHash blk ci = .ok bs') {h' : Hash}
    (hne : h' ≠ blockHash blk) :
    bs'.get unmarshalPublicKey h' = bs.get unmarshalPublicKey h' := by
  obtain ⟨_, _, _, _, _, _, _, rfl⟩ := BlockStore.store_eq_ok h
  apply BlockStore.get_congr
  · simp [BlockStore.have, AList.lookup_insert_ne hne]
  · rw [lookup_writeTxIndex_of_ne _ _ nsBlock rfl (by decide), lookup_writeBlock_block, if_neg hne]
  · rw [lookup_writeTxIndex_of_ne _ _ nsCommitInfo rfl (by decide), lookup_writeBlock_commitInfo,
      if_neg hne]

/-- A store indexes the transactions of its hashes, and keeps those indexed before. -/
lemma BlockStore.haveTx_store (h : bs.store blockHash txHash blk ci = .ok bs')
    (hn : blk.header.numTxns.toNat = blk.txns.length) (t : Hash) :
    bs'.haveTx t ↔ t ∈ blk.txns.map txHash ∨ bs.haveTx t := by
  obtain ⟨_, hs, _, _, _, htx, _, rfl⟩ := BlockStore.store_eq_ok h
  obtain rfl := Except.ok.inj (htx.symm.trans (txHashesOf_eq hn))
  simp only [BlockStore.haveTx, isSome_lookup_writeTxIndex, lookup_writeBlock_txn]

/-- `Store` succeeds when the block and the commit info encode and the header counts the block's
transactions. -/
lemma BlockStore.store_ok (bs : BlockStore) {rawBlk ciBytes : Bytes}
    (he : encodeBlock blk = .ok rawBlk) (hn : blk.header.numTxns.toNat = blk.txns.length)
    (hm : ci.marshalBinary = .ok ciBytes) : ∃ bs', bs.store blockHash txHash blk ci = .ok bs' := by
  obtain ⟨header, hhdr, -⟩ := encodeBlock_eq_ok he
  simp [BlockStore.store, he, txHashesOf_eq hn, hhdr, hm]

variable (unmarshalPublicKey) in
/-- A block and a commit info that `Store` writes and `Get` reads back: the header counts the
block's transactions, and each codec reads back what the other writes. -/
structure ReadsBack (blk : Block) (ci : CommitInfo ParamUpdates) : Prop where
  numTxns : blk.header.numTxns.toNat = blk.txns.length
  block : ∃ rawBlk, encodeBlock blk = .ok rawBlk ∧ decodeBlock unmarshalPublicKey rawBlk = .ok blk
  commitInfo : ∃ ciBytes, ci.marshalBinary = .ok ciBytes ∧
    CommitInfo.unmarshalBinary unmarshalPublicKey ciBytes = .ok ci

/-- A block and commit info that read back are stored. -/
lemma BlockStore.store_ok_of_readsBack (bs : BlockStore)
    (hrb : ReadsBack unmarshalPublicKey blk ci) : ∃ bs', bs.store blockHash txHash blk ci = .ok bs' := by
  obtain ⟨rawBlk, he, -⟩ := hrb.block
  obtain ⟨ciBytes, hm, -⟩ := hrb.commitInfo
  exact bs.store_ok he hrb.numTxns hm

/-- And `Get` reads them back. -/
lemma BlockStore.get_store_self (h : bs.store blockHash txHash blk ci = .ok bs')
    (hrb : ReadsBack unmarshalPublicKey blk ci) :
    bs'.get unmarshalPublicKey (blockHash blk) = .ok (blk, ci) := by
  obtain ⟨rawBlk, _, _, ciBytes, he, _, hm, rfl⟩ := BlockStore.store_eq_ok h
  obtain ⟨rawBlk', he', hd⟩ := hrb.block
  obtain ⟨ciBytes', hm', hu⟩ := hrb.commitInfo
  obtain rfl : rawBlk' = rawBlk := Except.ok.inj (he'.symm.trans he)
  obtain rfl : ciBytes' = ciBytes := Except.ok.inj (hm'.symm.trans hm)
  refine BlockStore.get_eq_ok (by simp [BlockStore.have]) ?_ hd ?_ hu
  · rw [lookup_writeTxIndex_of_ne _ _ nsBlock rfl (by decide), lookup_writeBlock_block, if_pos rfl]
  · rw [lookup_writeTxIndex_of_ne _ _ nsCommitInfo rfl (by decide), lookup_writeBlock_commitInfo,
      if_pos rfl]

/-- A run of blocks and commit infos that read back is stored. -/
lemma BlockStore.storeAll_ok_of_readsBack {stores : List (Block × CommitInfo ParamUpdates)}
    (hrb : ∀ p ∈ stores, ReadsBack unmarshalPublicKey p.1 p.2) (bs : BlockStore) :
    ∃ bs', bs.storeAll blockHash txHash stores = .ok bs' := by
  induction stores generalizing bs with
  | nil => exact ⟨bs, rfl⟩
  | cons p stores ih =>
    obtain ⟨bs₁, h₁⟩ : ∃ bs₁, bs.store blockHash txHash p.1 p.2 = .ok bs₁ :=
      BlockStore.store_ok_of_readsBack bs (hrb p List.mem_cons_self)
    obtain ⟨bs', h⟩ := ih (fun q hq => hrb q (List.mem_cons_of_mem _ hq)) bs₁
    exact ⟨bs', by rw [BlockStore.storeAll, List.foldlM_cons, h₁]; exact h⟩

/-- A commit info of no votes, updates or validators reads back, whatever its app hash. -/
lemma commitInfo_readsBack_of_empty (appHash : Hash) :
    ∃ ciBytes, (⟨appHash, [], ∅, []⟩ : CommitInfo ParamUpdates).marshalBinary = .ok ciBytes ∧
      CommitInfo.unmarshalBinary unmarshalPublicKey ciBytes = .ok ⟨appHash, [], ∅, []⟩ := by
  have hfits : (⟨appHash, [], ∅, []⟩ : CommitInfo ParamUpdates).Fits :=
    ⟨by simp, fun e he => by simp at he, by simp, by simp, by simp⟩
  obtain ⟨bts, ⟨a, v, pu, val⟩, hm, hu, ha, hv, hl, hval⟩ :=
    CommitInfo.roundTrip_of_fits unmarshalPublicKey hfits (fun _ h => by simp at h) (by simp)
  simp only at ha hv hval
  subst ha hv hval
  -- the updates read back have no key, as the empty map
  have hpu : pu = ∅ := by
    refine AList.ext (List.eq_nil_iff_forall_not_mem.mpr fun e he => ?_)
    have := hl e.1
    rw [AList.mem_lookup_iff.mpr he] at this
    simp at this
  exact ⟨bts, hm, hpu ▸ hu⟩

end Store

/-! ### The badger store refines the memory store -/

section Refinement

variable {blockHash : Block → Hash} {txHash : Transaction → Hash}
  {unmarshalPublicKey : Bytes → KeyType → Except String PublicKey}
  {bs : BlockStore} {ms : MemBS}

/-- The two stores index the same hash and app hash at each height; only the badger store keeps
the time. -/
def SameIds (bs : BlockStore) (ms : MemBS) : Prop :=
  ∀ k, (bs.hashes.lookup k).map BlockHashes.ids = (ms.hashes.lookup k).map BlockHashes.ids

lemma SameIds.empty : SameIds BlockStore.empty MemBS.empty := fun _ => rfl

/-- One store of each keeps the heights alike, whatever the encodings were. -/
lemma SameIds.store (hs : SameIds bs ms) {blk : Block} {ci : CommitInfo ParamUpdates}
    {bs' : BlockStore} {ms' : MemBS} (h : bs.store blockHash txHash blk ci = .ok bs')
    (hm : ms.store blockHash txHash blk (some ci) = .ok ms') : SameIds bs' ms' := by
  cases hm
  intro k
  rw [(BlockStore.store_index h).2.2.2]
  by_cases hk : k = blk.header.height
  · subst hk
    simp [AList.lookup_insert, BlockHashes.ids]
  · simp [AList.lookup_insert_ne hk, hs k]

/-- Along a run, the memory store takes every store the badger store takes. -/
lemma SameIds.storeAll (hs : SameIds bs ms) {stores : List (Block × CommitInfo ParamUpdates)}
    {bs' : BlockStore} (h : bs.storeAll blockHash txHash stores = .ok bs') :
    ∃ ms', ms.storeAll blockHash txHash stores = .ok ms' ∧ SameIds bs' ms' := by
  induction stores generalizing bs ms with
  | nil => cases h; exact ⟨ms, rfl, hs⟩
  | cons p stores ih =>
    rw [BlockStore.storeAll, List.foldlM_cons, bind_eq_ok] at h
    obtain ⟨bs₁, h₁, h⟩ := h
    obtain ⟨ms', hms', hs'⟩ := ih (hs.store h₁ rfl) h
    exact ⟨ms', hms', hs'⟩

variable (unmarshalPublicKey) in
/-- **The badger store stands for the memory store.** Both hold the same index, the badger
store's `Get` reads back every block the memory store holds with its commit info, and both index
the same transactions. -/
structure Refines (bs : BlockStore) (ms : MemBS) : Prop where
  /-- The height under each block hash. -/
  idx : bs.idx = ms.idx
  /-- The hash and app hash at each height. -/
  hashes : SameIds bs ms
  /-- The memory store holds a block under each hash its index has, and under no other. -/
  blocks : ∀ h, (ms.blocks.lookup h).isSome = (ms.idx.lookup h).isSome
  /-- What the badger store's `Get` reads back. -/
  get : ∀ h b, ms.blocks.lookup h = some b →
    ∃ ci, ms.commitInfo.lookup h = some ci ∧ bs.get unmarshalPublicKey h = .ok (b, ci)
  /-- The block at each height is held, of that height, with a commit info of the app hash the
  index records. -/
  atHeight : ∀ k hs, ms.hashes.lookup k = some hs → ∃ b ci, ms.blocks.lookup hs.hash = some b ∧
    ms.commitInfo.lookup hs.hash = some ci ∧ b.header.height = k ∧ ci.appHash = hs.appHash
  /-- The same transactions are indexed. -/
  txs : ∀ t, bs.haveTx t = ms.haveTx t

lemma Refines.empty : Refines unmarshalPublicKey BlockStore.empty MemBS.empty where
  idx := rfl
  hashes _ := rfl
  blocks _ := rfl
  get _ _ h := by cases h
  atHeight _ _ h := by cases h
  txs _ := rfl

/-- **One store of each.** A block and commit info that read back are stored by both, and the
relation holds after, unless a block the memory store holds under the new block's hash has another
height. -/
theorem Refines.store (hr : Refines unmarshalPublicKey bs ms) {blk : Block}
    {ci : CommitInfo ParamUpdates} (hrb : ReadsBack unmarshalPublicKey blk ci)
    (hcol : ∀ b, ms.blocks.lookup (blockHash blk) = some b → b.header.height = blk.header.height) :
    ∃ bs' ms', bs.store blockHash txHash blk ci = .ok bs' ∧
      ms.store blockHash txHash blk (some ci) = .ok ms' ∧ Refines unmarshalPublicKey bs' ms' := by
  obtain ⟨bs', hbs⟩ : ∃ bs', bs.store blockHash txHash blk ci = .ok bs' :=
    BlockStore.store_ok_of_readsBack bs hrb
  obtain ⟨-, -, hidx, -⟩ := BlockStore.store_index hbs
  refine ⟨bs', _, hbs, rfl, ?_⟩
  constructor
  case idx => rw [hidx, hr.idx]
  case hashes => exact hr.hashes.store hbs rfl
  case blocks =>
    intro h
    by_cases hh : h = blockHash blk
    · subst hh
      simp [AList.lookup_insert]
    · simp [AList.lookup_insert_ne hh, hr.blocks h]
  case get =>
    intro h b hb
    by_cases hh : h = blockHash blk
    · -- the new block, read back from its encoding
      subst hh
      simp only [AList.lookup_insert, Option.some.injEq] at hb
      subst hb
      exact ⟨ci, AList.lookup_insert _, BlockStore.get_store_self hbs hrb⟩
    · simp only [AList.lookup_insert_ne hh] at hb
      obtain ⟨ci', hci', hget⟩ := hr.get h b hb
      refine ⟨ci', ?_, ?_⟩
      · simpa [AList.lookup_insert_ne hh] using hci'
      · rw [BlockStore.get_store_of_ne hbs hh, hget]
  case atHeight =>
    intro k hs hk
    by_cases hkb : k = blk.header.height
    · subst hkb
      simp only [AList.lookup_insert, Option.some.injEq] at hk
      subst hk
      exact ⟨blk, ci, AList.lookup_insert _, AList.lookup_insert _, rfl, rfl⟩
    · simp only [AList.lookup_insert_ne hkb] at hk
      obtain ⟨b, c, hb, hc, hbk, hca⟩ := hr.atHeight k hs hk
      -- the block at `k` is not under the new hash: that block has height `k`
      have hne : hs.hash ≠ blockHash blk := by
        rintro hh
        exact hkb (hbk ▸ hcol b (hh ▸ hb))
      exact ⟨b, c, by simpa [AList.lookup_insert_ne hne] using hb,
        by simpa [AList.lookup_insert_ne hne] using hc, hbk, hca⟩
  case txs =>
    intro t
    rw [Bool.eq_iff_iff, BlockStore.haveTx_store hbs hrb.numTxns, hr.txs t]
    simp only [MemBS.haveTx, GoMap.isSome_lookup_foldl_insert]

/-- **A run of stores of each.** Along a run of blocks and commit infos that read back, both
stores succeed and the relation holds after, unless two blocks of one hash have two heights. -/
theorem Refines.storeAll (hr : Refines unmarshalPublicKey bs ms)
    {stores : List (Block × CommitInfo ParamUpdates)}
    (hrb : ∀ p ∈ stores, ReadsBack unmarshalPublicKey p.1 p.2)
    (hcol : ∀ p ∈ stores, ∀ q ∈ stores, blockHash p.1 = blockHash q.1 →
      p.1.header.height = q.1.header.height)
    (hold : ∀ p ∈ stores, ∀ b, ms.blocks.lookup (blockHash p.1) = some b →
      b.header.height = p.1.header.height) :
    ∃ bs' ms', bs.storeAll blockHash txHash stores = .ok bs' ∧
      ms.storeAll blockHash txHash stores = .ok ms' ∧ Refines unmarshalPublicKey bs' ms' := by
  induction stores generalizing bs ms with
  | nil => exact ⟨bs, ms, rfl, rfl, hr⟩
  | cons p stores ih =>
    obtain ⟨bs₁, ms₁, hbs, hms, hr₁⟩ : ∃ bs₁ ms₁, bs.store blockHash txHash p.1 p.2 = .ok bs₁ ∧
        ms.store blockHash txHash p.1 (some p.2) = .ok ms₁ ∧ Refines unmarshalPublicKey bs₁ ms₁ :=
      hr.store (hrb p List.mem_cons_self) (hold p List.mem_cons_self)
    -- a block stored now has the height of any later block of its hash
    have hold₁ : ∀ q ∈ stores, ∀ b, ms₁.blocks.lookup (blockHash q.1) = some b →
        b.header.height = q.1.header.height := by
      intro q hq b hb
      cases hms
      by_cases hh : blockHash q.1 = blockHash p.1
      · rw [hh, AList.lookup_insert] at hb
        obtain rfl := Option.some.inj hb
        exact hcol p List.mem_cons_self q (List.mem_cons_of_mem _ hq) hh.symm
      · simp only [AList.lookup_insert_ne hh] at hb
        exact hold q (List.mem_cons_of_mem _ hq) b hb
    obtain ⟨bs', ms', hbs', hms', hr'⟩ := ih hr₁ (fun q hq => hrb q (List.mem_cons_of_mem _ hq))
      (fun q hq q' hq' => hcol q (List.mem_cons_of_mem _ hq) q' (List.mem_cons_of_mem _ hq'))
      hold₁
    refine ⟨bs', ms', ?_, ?_, hr'⟩
    · simpa [BlockStore.storeAll, hbs] using hbs'
    · simpa [MemBS.storeAll, hms] using hms'

/-! The two stores answer alike where they are related. -/

lemma Refines.have_eq (hr : Refines unmarshalPublicKey bs ms) (h : Hash) :
    bs.have h = ms.have h := by
  rw [BlockStore.have, MemBS.have, hr.idx]

lemma Refines.get_eq (hr : Refines unmarshalPublicKey bs ms) (h : Hash) :
    bs.get unmarshalPublicKey h = ms.get h := by
  cases hb : ms.blocks.lookup h with
  | none =>
    -- neither store has the hash
    have hh : bs.have h = false := by
      rw [hr.have_eq, MemBS.have, ← hr.blocks h, hb, Option.isSome_none]
    simp [BlockStore.get, MemBS.get, hh, hb]
  | some b =>
    obtain ⟨ci, hci, hget⟩ := hr.get h b hb
    rw [hget, MemBS.get, hb, hci]

lemma Refines.getByHeight_eq (hr : Refines unmarshalPublicKey bs ms) (k : Int64) :
    bs.getByHeight unmarshalPublicKey k = ms.getByHeight k := by
  have hk := hr.hashes k
  cases hm : ms.hashes.lookup k with
  | none =>
    rw [hm, Option.map_none, Option.map_eq_none_iff] at hk
    simp [BlockStore.getByHeight, MemBS.getByHeight, hk, hm]
  | some hs =>
    rw [hm, Option.map_some, Option.map_eq_some_iff] at hk
    obtain ⟨hs', hbk, hids⟩ := hk
    obtain ⟨b, ci, hb, hci, -, happ⟩ := hr.atHeight k hs hm
    obtain ⟨ci', hci', hget⟩ := hr.get hs.hash b hb
    obtain rfl : ci' = ci := Option.some.inj (hci'.symm.trans hci)
    -- the badger index at `k` has the memory store's hash and app hash
    have hhash : hs'.hash = hs.hash := congrArg Prod.fst hids
    have happ' : hs'.appHash = hs.appHash := congrArg Prod.snd hids
    simp [BlockStore.getByHeight, MemBS.getByHeight, hbk, hm, hhash, hget, hb, hci, happ, happ']
    rfl

/-- **The badger store refines the memory store.** Along any run of stores whose blocks and
commit infos read back, and in which one hash never names blocks of two heights, both stores
succeed and answer `Have`, `HaveTx`, `Get` and `GetByHeight` alike. -/
theorem runStores_refines {stores : List (Block × CommitInfo ParamUpdates)}
    (hrb : ∀ p ∈ stores, ReadsBack unmarshalPublicKey p.1 p.2)
    (hcol : ∀ p ∈ stores, ∀ q ∈ stores, blockHash p.1 = blockHash q.1 →
      p.1.header.height = q.1.header.height) :
    ∃ bs ms, BlockStore.empty.storeAll blockHash txHash stores = .ok bs ∧
      MemBS.empty.storeAll blockHash txHash stores = .ok ms ∧
      (∀ h, bs.have h = ms.have h ∧ bs.get unmarshalPublicKey h = ms.get h) ∧
      (∀ t, bs.haveTx t = ms.haveTx t) ∧
      ∀ k, bs.getByHeight unmarshalPublicKey k = ms.getByHeight k := by
  obtain ⟨bs, ms, hbs, hms, hr⟩ := Refines.empty.storeAll hrb hcol fun _ _ _ h => by cases h
  exact ⟨bs, ms, hbs, hms, fun h => ⟨hr.have_eq h, hr.get_eq h⟩, hr.txs, hr.getByHeight_eq⟩

end Refinement

/-- A block of no transactions at a height, told apart by its merkle root. -/
def blockAt (height : Int64) (root : Hash) : Block :=
  ⟨⟨1, height, 0, zeroHash, zeroHash, 1, root, zeroHash, zeroHash, none⟩, [], []⟩

/-- The commit info of an app hash, with no votes, updates or validators. -/
def commitOf (appHash : Hash) : CommitInfo ParamUpdates := ⟨appHash, [], ∅, []⟩

/-- A key decoder that takes any bytes. -/
def anyKey (bytes : Bytes) (keyType : KeyType) : Except String PublicKey := .ok ⟨keyType, bytes⟩

/-- Two blocks at heights one and two, with commit infos of two app hashes. -/
def heightsOneTwo : List (Block × CommitInfo ParamUpdates) :=
  [(blockAt 1 zeroHash, commitOf zeroHash),
    (blockAt 2 (Vector.replicate 32 1), commitOf (Vector.replicate 32 1))]

lemma readsBack_heightsOneTwo : ∀ p ∈ heightsOneTwo, ReadsBack anyKey p.1 p.2 := by
  intro p hp
  simp only [heightsOneTwo, List.mem_cons, List.not_mem_nil, or_false] at hp
  rcases hp with rfl | rfl
  · exact ⟨rfl, ⟨_, rfl, by decide +kernel⟩, commitInfo_readsBack_of_empty _⟩
  · exact ⟨rfl, ⟨_, rfl, by decide +kernel⟩, commitInfo_readsBack_of_empty _⟩

/-- The two blocks under their merkle roots as hashes. -/
theorem runStores_refines_two :
    ∃ bs ms, BlockStore.empty.storeAll (·.header.merkleRoot) (fun _ => zeroHash) heightsOneTwo =
        .ok bs ∧
      MemBS.empty.storeAll (·.header.merkleRoot) (fun _ => zeroHash) heightsOneTwo = .ok ms ∧
      (∀ h, bs.have h = ms.have h ∧ bs.get anyKey h = ms.get h) ∧
      (∀ t, bs.haveTx t = ms.haveTx t) ∧ ∀ k, bs.getByHeight anyKey k = ms.getByHeight k :=
  runStores_refines readsBack_heightsOneTwo (by decide)

/-! ### `Best` -/

/-- Turns at heights below the best so far change nothing. -/
lemma foldl_bestStep_of_lt :
    ∀ (l : List ((_ : Int64) × BlockHashes)) (acc : Int64 × Hash × Hash × Int64),
      (∀ e ∈ l, e.1 < acc.1) → l.foldl bestStep acc = acc
  | [], _, _ => rfl
  | e :: l, acc, h => by
    rw [List.foldl_cons, bestStep, if_neg (Int64.not_le.mpr (h e List.mem_cons_self))]
    exact foldl_bestStep_of_lt l acc fun e' he' => h e' (List.mem_cons_of_mem _ he')

/-- **The loop of `Best` finds the greatest height.** Over heights that appear once each, the
loop ends with the greatest, when it is at least the start. -/
lemma foldl_bestStep_of_max :
    ∀ (l : List ((_ : Int64) × BlockHashes)) (acc : Int64 × Hash × Hash × Int64)
      {e : (_ : Int64) × BlockHashes}, l.NodupKeys → e ∈ l → (∀ e' ∈ l, e'.1 ≤ e.1) →
        acc.1 ≤ e.1 → l.foldl bestStep acc = (e.1, e.2.hash, e.2.appHash, e.2.stamp)
  | [], _, _, _, he, _, _ => absurd he List.not_mem_nil
  | a :: l, acc, e, hnd, he, hmax, hacc => by
    rw [List.nodupKeys_cons] at hnd
    rw [List.foldl_cons]
    rcases List.mem_cons.mp he with rfl | he
    · -- the greatest height comes now, and every later one is below it
      rw [bestStep, if_pos hacc]
      refine foldl_bestStep_of_lt l _ fun e' he' => Int64.lt_of_le_of_ne ?_ ?_
      · exact hmax e' (List.mem_cons_of_mem _ he')
      · intro h
        have h' : e'.1 = e.1 := h
        exact hnd.1 (h' ▸ List.mem_keys_of_mem he')
    · refine foldl_bestStep_of_max l _ hnd.2 he (fun e' he' => hmax e' (List.mem_cons_of_mem _ he')) ?_
      unfold bestStep
      split_ifs
      · exact hmax a List.mem_cons_self
      · exact hacc

/-- The loop of `MemBS.Best`, in any order of the map's entries, reports the greatest height
held, when it is at least zero. -/
lemma bestIn_of_max {ms : MemBS} {order : List ((_ : Int64) × BlockHashes)}
    (hperm : order.Perm ms.hashes.entries) {k : Int64} {hs : BlockHashes}
    (hk : ms.hashes.lookup k = some hs) (hmax : ∀ k', (ms.hashes.lookup k').isSome → k' ≤ k)
    (h0 : 0 ≤ k) : bestIn order = (k, hs.hash, hs.appHash, hs.stamp) := by
  refine foldl_bestStep_of_max _ _ ((List.perm_nodupKeys hperm).mpr ms.hashes.nodupKeys)
    (hperm.mem_iff.mpr (AList.mem_lookup_iff.mp hk)) (fun e he => ?_) h0
  exact hmax e.1 (by rw [AList.mem_lookup_iff.mpr (hperm.mem_iff.mp he)]; rfl)

/-- `MemBS.Best` reports the greatest height held, when it is at least zero. -/
lemma MemBS.best_of_max {ms : MemBS} {k : Int64} {hs : BlockHashes}
    (hk : ms.hashes.lookup k = some hs) (hmax : ∀ k', (ms.hashes.lookup k').isSome → k' ≤ k)
    (h0 : 0 ≤ k) : ms.best = (k, hs.hash, hs.appHash, hs.stamp) :=
  bestIn_of_max (List.Perm.refl _) hk hmax h0

/-- `Best` where the index holds a block at the best height. -/
lemma BlockStore.best_of_lookup {bs : BlockStore} {hs : BlockHashes}
    (h : bs.hashes.lookup bs.bestHeight = some hs) :
    bs.best = (bs.bestHeight, bs.bestHash, hs.appHash, hs.stamp) := by
  simp [BlockStore.best, h]

section Best

variable {blockHash : Block → Hash} {txHash : Transaction → Hash}
  {unmarshalPublicKey : Bytes → KeyType → Except String PublicKey}
  {bs bs' : BlockStore} {ms : MemBS}

/-- The best height and hash while every stored height is positive and new: the greatest height
indexed with the hash indexed there, or zero before any block. -/
structure BestInv (bs : BlockStore) : Prop where
  pos : ∀ k, (bs.hashes.lookup k).isSome → 0 < k
  top : ∀ k, (bs.hashes.lookup k).isSome → k ≤ bs.bestHeight
  best : bs.bestHeight = 0 ∧ bs.bestHash = zeroHash ∨
    ∃ hs, bs.hashes.lookup bs.bestHeight = some hs ∧ hs.hash = bs.bestHash

lemma BestInv.empty : BestInv BlockStore.empty where
  pos _ h := by cases h
  top _ h := by cases h
  best := .inl ⟨rfl, rfl⟩

/-- A store at a new positive height keeps the best height the greatest. -/
theorem BestInv.store (hb : BestInv bs) {blk : Block} {ci : CommitInfo ParamUpdates}
    (h : bs.store blockHash txHash blk ci = .ok bs') (hpos : 0 < blk.header.height)
    (hnew : bs.hashes.lookup blk.header.height = none) : BestInv bs' := by
  obtain ⟨hbh, hbhash, -, hhashes⟩ := BlockStore.store_index h
  -- a height held before is not the new one
  have hold : ∀ k, (bs.hashes.lookup k).isSome → k ≠ blk.header.height := by
    rintro k hk rfl
    simp [hnew] at hk
  have hlookup : ∀ k, (bs'.hashes.lookup k).isSome →
      k = blk.header.height ∨ (bs.hashes.lookup k).isSome := by
    intro k hk
    by_cases hkb : k = blk.header.height
    · exact .inl hkb
    · rw [hhashes, AList.lookup_insert_ne hkb] at hk
      exact .inr hk
  by_cases hlt : bs.bestHeight < blk.header.height
  · -- the new block is the best
    rw [if_pos hlt] at hbh hbhash
    refine ⟨fun k hk => ?_, fun k hk => ?_,
      .inr ⟨⟨blockHash blk, ci.appHash, blk.header.timestamp⟩, ?_, hbhash.symm⟩⟩
    · rcases hlookup k hk with rfl | hk
      · exact hpos
      · exact hb.pos k hk
    · rw [hbh]
      rcases hlookup k hk with rfl | hk
      · exact Int64.le_refl _
      · exact Int64.le_of_lt (Int64.lt_of_le_of_lt (hb.top k hk) hlt)
    · rw [hbh, hhashes, AList.lookup_insert]
  · -- the best stays, below it or above it
    rw [if_neg hlt] at hbh hbhash
    refine ⟨fun k hk => ?_, fun k hk => ?_, ?_⟩
    · rcases hlookup k hk with rfl | hk
      · exact hpos
      · exact hb.pos k hk
    · rw [hbh]
      rcases hlookup k hk with rfl | hk
      · exact Int64.not_lt.mp hlt
      · exact hb.top k hk
    · rw [hbh, hbhash]
      rcases hb.best with h0 | ⟨hs, hhs, hhash⟩
      · exact .inl h0
      · have hne : bs.bestHeight ≠ blk.header.height := hold _ (by simp [hhs])
        exact .inr ⟨hs, by rw [hhashes, AList.lookup_insert_ne hne, hhs], hhash⟩

/-- Along a run of stores at new, distinct, positive heights. -/
theorem BestInv.storeAll (hb : BestInv bs) {stores : List (Block × CommitInfo ParamUpdates)}
    (hpos : ∀ p ∈ stores, 0 < p.1.header.height)
    (hfresh : stores.Pairwise fun p q => p.1.header.height ≠ q.1.header.height)
    (hnew : ∀ p ∈ stores, bs.hashes.lookup p.1.header.height = none)
    (h : bs.storeAll blockHash txHash stores = .ok bs') : BestInv bs' := by
  induction stores generalizing bs with
  | nil => cases h; exact hb
  | cons p stores ih =>
    rw [BlockStore.storeAll, List.foldlM_cons, bind_eq_ok] at h
    obtain ⟨bs₁, h₁, h⟩ := h
    rw [List.pairwise_cons] at hfresh
    have hb₁ := hb.store h₁ (hpos p List.mem_cons_self) (hnew p List.mem_cons_self)
    refine ih hb₁ (fun q hq => hpos q (List.mem_cons_of_mem _ hq)) hfresh.2 (fun q hq => ?_) h
    -- a later height is not the one just stored
    rw [(BlockStore.store_index h₁).2.2.2,
      AList.lookup_insert_ne (Ne.symm (hfresh.1 q hq))]
    exact hnew q (List.mem_cons_of_mem _ hq)

/-- The index a run of stores leaves: each height set, in turn, to its block's hash, app hash and
time. -/
lemma BlockStore.storeAll_hashes {stores : List (Block × CommitInfo ParamUpdates)}
    (h : bs.storeAll blockHash txHash stores = .ok bs') :
    bs'.hashes = stores.foldl (fun m p => m.insert p.1.header.height
      ⟨blockHash p.1, p.2.appHash, p.1.header.timestamp⟩) bs.hashes := by
  induction stores generalizing bs with
  | nil => cases h; rfl
  | cons p stores ih =>
    rw [BlockStore.storeAll, List.foldlM_cons, bind_eq_ok] at h
    obtain ⟨bs₁, h₁, h⟩ := h
    rw [ih h, List.foldl_cons, (BlockStore.store_index h₁).2.2.2]

/-- **What `Best` reports after a run of new heights**: zeros when nothing was stored, and else
the greatest height stored with the hash and app hash of the block stored there. -/
theorem BlockStore.best_of_storeAll {stores : List (Block × CommitInfo ParamUpdates)}
    (hpos : ∀ p ∈ stores, 0 < p.1.header.height)
    (hfresh : stores.Pairwise fun p q => p.1.header.height ≠ q.1.header.height)
    (h : BlockStore.empty.storeAll blockHash txHash stores = .ok bs) :
    (stores = [] ∧ (bs.best.1, bs.best.2.1, bs.best.2.2.1) = (0, zeroHash, zeroHash)) ∨
      ∃ p ∈ stores, (∀ q ∈ stores, q.1.header.height ≤ p.1.header.height) ∧
        (bs.best.1, bs.best.2.1, bs.best.2.2.1) = (p.1.header.height, blockHash p.1, p.2.appHash) := by
  have hb := BestInv.empty.storeAll hpos hfresh (fun _ _ => rfl) h
  have hidx := BlockStore.storeAll_hashes h
  have hnd : (stores.map (·.1.header.height)).Nodup := List.pairwise_map.mpr hfresh
  -- each height of the run holds its own block, and the index holds no other height
  have hmem : ∀ p ∈ stores, bs.hashes.lookup p.1.header.height =
      some ⟨blockHash p.1, p.2.appHash, p.1.header.timestamp⟩ := fun p hp => by
    rw [hidx]
    exact GoMap.lookup_foldl_insert_of_mem (·.1.header.height)
      (fun p => (⟨blockHash p.1, p.2.appHash, p.1.header.timestamp⟩ : BlockHashes)) hnd hp _
  have hheld : ∀ k, (bs.hashes.lookup k).isSome → ∃ p ∈ stores, p.1.header.height = k := by
    intro k hk
    rw [hidx, GoMap.isSome_lookup_foldl_insert (fun p : Block × CommitInfo ParamUpdates =>
      p.1.header.height) fun p => (⟨blockHash p.1, p.2.appHash, p.1.header.timestamp⟩ : BlockHashes)]
      at hk
    rcases hk with hk | hk
    · exact List.mem_map.mp hk
    · cases hk
  rcases hb.best with ⟨h0, hz⟩ | ⟨hs, hhs, hhash⟩
  · -- no height is held at or below zero, so the run stored nothing
    have hnone : stores = [] := List.eq_nil_iff_forall_not_mem.mpr fun p hp => by
      have hk : (bs.hashes.lookup p.1.header.height).isSome := by simp [hmem p hp]
      exact absurd (hb.top _ hk) (Int64.not_le.mpr (h0 ▸ hb.pos _ hk))
    have hb0 : bs.hashes.lookup bs.bestHeight = none := by
      rw [← Option.not_isSome_iff_eq_none]
      exact fun hk => Int64.lt_irrefl (h0 ▸ hb.pos _ hk)
    exact .inl ⟨hnone, by simp [BlockStore.best, hb0, h0, hz, BlockHashes.zero]⟩
  · obtain ⟨p, hp, hph⟩ := hheld bs.bestHeight (by simp [hhs])
    have hsp : hs = ⟨blockHash p.1, p.2.appHash, p.1.header.timestamp⟩ := by
      have hl := hmem p hp
      rw [hph, hhs] at hl
      exact Option.some.inj hl
    refine .inr ⟨p, hp, fun q hq => hph ▸ hb.top q.1.header.height (by simp [hmem q hq]), ?_⟩
    rw [BlockStore.best_of_lookup hhs, ← hhash, hsp, hph]

/-- Stores that index alike, the badger one with its best height the greatest, report the same
best height, hash and app hash, whatever order the memory store's loop takes; only the badger
store keeps the time. -/
theorem SameIds.bestIn_eq (hid : SameIds bs ms) (hb : BestInv bs)
    {order : List ((_ : Int64) × BlockHashes)} (hperm : order.Perm ms.hashes.entries) :
    (bs.best.1, bs.best.2.1, bs.best.2.2.1) =
      ((bestIn order).1, (bestIn order).2.1, (bestIn order).2.2.1) := by
  -- both stores hold the same heights
  have hkeys : ∀ k, (ms.hashes.lookup k).isSome = (bs.hashes.lookup k).isSome := by
    intro k
    rw [← Option.isSome_map (f := BlockHashes.ids), ← hid k, Option.isSome_map]
  rcases hb.best with ⟨h0, hz⟩ | ⟨hs, hhs, hhash⟩
  · -- no block yet: both report zeros
    have hnone : order = [] := by
      refine List.eq_nil_iff_forall_not_mem.mpr fun e he => ?_
      have hk : (bs.hashes.lookup e.1).isSome := by
        rw [← hkeys, AList.mem_lookup_iff.mpr (hperm.mem_iff.mp he)]; rfl
      exact absurd (hb.top _ hk) (Int64.not_le.mpr (h0 ▸ hb.pos _ hk))
    have hb0 : bs.hashes.lookup bs.bestHeight = none := by
      rw [← Option.not_isSome_iff_eq_none]
      exact fun hk => Int64.lt_irrefl (h0 ▸ hb.pos _ hk)
    simp only [BlockStore.best, bestIn, hnone, hb0, h0, hz, Option.getD_none, List.foldl_nil]
    rfl
  · -- the block at the best height, which the memory store finds as the greatest
    obtain ⟨hs', hms, hids⟩ : ∃ hs', ms.hashes.lookup bs.bestHeight = some hs' ∧
        hs.ids = hs'.ids := by
      have := hid bs.bestHeight
      rw [hhs, Option.map_some] at this
      exact Option.map_eq_some_iff.mp this.symm |>.imp fun _ h => ⟨h.1, h.2.symm⟩
    have hpos : 0 < bs.bestHeight := hb.pos _ (by simp [hhs])
    rw [bestIn_of_max hperm hms (fun k hk => hb.top k (hkeys k ▸ hk)) (Int64.le_of_lt hpos)]
    simp only [BlockStore.best, hhs, Option.getD_some, ← hhash]
    exact congrArg (Prod.mk bs.bestHeight) hids

/-- **`Best` agrees while heights are new, in every map order.** Along any run that the badger
store takes from empty, of blocks at distinct positive heights, the memory store takes it too. For
every order in which the memory store's loop may visit its map, both report the same best height,
hash and app hash: zeros when nothing was stored, and else the greatest height stored with the
hash and app hash of the block stored there. -/
theorem best_of_fresh_heights {stores : List (Block × CommitInfo ParamUpdates)}
    (hpos : ∀ p ∈ stores, 0 < p.1.header.height)
    (hfresh : stores.Pairwise fun p q => p.1.header.height ≠ q.1.header.height)
    (h : BlockStore.empty.storeAll blockHash txHash stores = .ok bs) :
    ∃ ms, MemBS.empty.storeAll blockHash txHash stores = .ok ms ∧
      ∀ order, order.Perm ms.hashes.entries →
        ((bestIn order).1, (bestIn order).2.1, (bestIn order).2.2.1) =
          (bs.best.1, bs.best.2.1, bs.best.2.2.1) ∧
        ((stores = [] ∧ (bs.best.1, bs.best.2.1, bs.best.2.2.1) = (0, zeroHash, zeroHash)) ∨
          ∃ p ∈ stores, (∀ q ∈ stores, q.1.header.height ≤ p.1.header.height) ∧
            (bs.best.1, bs.best.2.1, bs.best.2.2.1) =
              (p.1.header.height, blockHash p.1, p.2.appHash)) := by
  obtain ⟨ms, hms, hid⟩ := SameIds.empty.storeAll h
  have hb := BestInv.empty.storeAll hpos hfresh (fun _ _ => rfl) h
  exact ⟨ms, hms, fun order hperm =>
    ⟨(hid.bestIn_eq hb hperm).symm, BlockStore.best_of_storeAll hpos hfresh h⟩⟩

/-- The two blocks at heights one and two: both stores report the second, in either order. -/
theorem best_of_fresh_heights_two :
    ∃ bs, BlockStore.empty.storeAll (·.header.merkleRoot) (fun _ => zeroHash) heightsOneTwo =
        .ok bs ∧
      ∃ ms, MemBS.empty.storeAll (·.header.merkleRoot) (fun _ => zeroHash) heightsOneTwo = .ok ms ∧
        ∀ order, order.Perm ms.hashes.entries →
          ((bestIn order).1, (bestIn order).2.1, (bestIn order).2.2.1) =
            (bs.best.1, bs.best.2.1, bs.best.2.2.1) ∧
          ((heightsOneTwo = [] ∧ (bs.best.1, bs.best.2.1, bs.best.2.2.1) = (0, zeroHash, zeroHash)) ∨
            ∃ p ∈ heightsOneTwo, (∀ q ∈ heightsOneTwo, q.1.header.height ≤ p.1.header.height) ∧
              (bs.best.1, bs.best.2.1, bs.best.2.2.1) =
                (p.1.header.height, p.1.header.merkleRoot, p.2.appHash)) := by
  obtain ⟨bs, h⟩ := BlockStore.storeAll_ok_of_readsBack readsBack_heightsOneTwo BlockStore.empty
  exact ⟨bs, h, best_of_fresh_heights (by decide) (by decide) h⟩

/-- **`Best` mixes two blocks.** When a second block is stored at a new best height, the badger
store keeps the first block's hash as the best hash but reports the second's app hash and time,
where the memory store reports the second block. -/
theorem best_mixes_blocks {blk₁ blk₂ : Block} {ci₁ ci₂ : CommitInfo ParamUpdates}
    (h : bs.storeAll blockHash txHash [(blk₁, ci₁), (blk₂, ci₂)] = .ok bs')
    (hk : bs.bestHeight < blk₁.header.height) (hh : blk₂.header.height = blk₁.header.height)
    (hms : ∀ k, (ms.hashes.lookup k).isSome → k < blk₁.header.height)
    (h0 : 0 ≤ blk₁.header.height) :
    bs'.best = (blk₁.header.height, blockHash blk₁, ci₂.appHash, blk₂.header.timestamp) ∧
      ∃ ms', ms.storeAll blockHash txHash [(blk₁, ci₁), (blk₂, ci₂)] = .ok ms' ∧
        ms'.best = (blk₁.header.height, blockHash blk₂, ci₂.appHash, zeroTime) := by
  simp only [BlockStore.storeAll, List.foldlM_cons, List.foldlM_nil, bind_eq_ok] at h
  obtain ⟨bs₁, h₁, _, h₂, hpure⟩ := h
  cases hpure
  obtain ⟨hbh₁, hbhash₁, -, -⟩ := BlockStore.store_index h₁
  obtain ⟨hbh₂, hbhash₂, -, hhashes₂⟩ := BlockStore.store_index h₂
  rw [if_pos hk] at hbh₁ hbhash₁
  -- the second block is not above the first, so the best hash stays the first's
  have hnlt : ¬ bs₁.bestHeight < blk₂.header.height := by
    rw [hbh₁, hh]
    exact Int64.lt_irrefl
  rw [if_neg hnlt, hbh₁] at hbh₂
  rw [if_neg hnlt, hbhash₁] at hbhash₂
  refine ⟨?_, _, rfl, ?_⟩
  · rw [BlockStore.best_of_lookup (by rw [hhashes₂, hbh₂, hh, AList.lookup_insert]), hbh₂, hbhash₂]
  · -- the memory store's best is the second block, above every height held before
    refine @MemBS.best_of_max _ _ ⟨blockHash blk₂, ci₂.appHash, zeroTime⟩ ?_ (fun k hk' => ?_) h0
    · simp [hh, AList.lookup_insert]
    · by_cases hkb : k = blk₁.header.height
      · exact hkb ▸ Int64.le_refl _
      · have hk'' : (ms.hashes.lookup k).isSome := by
          simpa [hh, AList.lookup_insert_ne hkb] using hk'
        exact Int64.le_of_lt (hms k hk'')

/-- Two blocks at height one: the badger store reports the first's hash with the second's app
hash. -/
theorem best_mixes_blocks_at_one :
    ∃ bs', BlockStore.empty.storeAll (·.header.merkleRoot) (fun _ => zeroHash)
        [(blockAt 1 zeroHash, commitOf zeroHash), (blockAt 1 (Vector.replicate 32 1),
          commitOf (Vector.replicate 32 1))] = .ok bs' ∧
      bs'.best = (1, zeroHash, Vector.replicate 32 1, 1) ∧
      ∃ ms', MemBS.empty.storeAll (·.header.merkleRoot) (fun _ => zeroHash)
          [(blockAt 1 zeroHash, commitOf zeroHash), (blockAt 1 (Vector.replicate 32 1),
            commitOf (Vector.replicate 32 1))] = .ok ms' ∧
        ms'.best = (1, Vector.replicate 32 1, Vector.replicate 32 1, zeroTime) := by
  obtain ⟨bs', h⟩ : ∃ bs', BlockStore.empty.storeAll (·.header.merkleRoot) (fun _ => zeroHash)
      [(blockAt 1 zeroHash, commitOf zeroHash), (blockAt 1 (Vector.replicate 32 1),
        commitOf (Vector.replicate 32 1))] = .ok bs' :=
    @BlockStore.storeAll_ok_of_readsBack _ _ anyKey _ (fun p hp => by
      simp only [List.mem_cons, List.not_mem_nil, or_false] at hp
      rcases hp with rfl | rfl
      · exact ⟨rfl, ⟨_, rfl, by decide +kernel⟩, commitInfo_readsBack_of_empty _⟩
      · exact ⟨rfl, ⟨_, rfl, by decide +kernel⟩, commitInfo_readsBack_of_empty _⟩)
    BlockStore.empty
  exact ⟨bs', h, best_mixes_blocks h (by decide) rfl (fun _ hk => by cases hk) (by decide)⟩

end Best

/-! ### `GetTx` -/

/-- A hash read from its bytes, whatever follows them. -/
lemma hashOfBytes_append (h : Hash) (rest : Bytes) : hashOfBytes (h.toList ++ rest) = h := by
  ext i hi
  have hi' : i < h.toList.length := by simpa using hi
  simp [hashOfBytes, List.getElem?_append_left hi', Vector.getElem?_eq_getElem hi]

/-- The entry `makeTxVal` writes reads back as the height, the block hash and the index modulo
`2 ^ 32`. -/
lemma makeTxVal_reads (height : Int64) (blkHash : Hash) (i : ℕ) :
    ¬ (makeTxVal height blkHash i).length < blkInfoLen ∧
      (UInt64.ofNat (leNat ((makeTxVal height blkHash i).take 8))).toInt64 = height ∧
      hashOfBytes ((makeTxVal height blkHash i).drop 8) = blkHash ∧
      leNat (((makeTxVal height blkHash i).drop 40).take 4) = i % 2 ^ 32 := by
  have h8 : (leBytes 8 height.toUInt64.toNat).length = 8 := length_leBytes 8 _
  refine ⟨by simp [makeTxVal, blkInfoLen], ?_, ?_, ?_⟩
  · rw [makeTxVal, List.append_assoc, List.take_left' h8, leNat_leBytes]
    simp
  · rw [makeTxVal, List.append_assoc, List.drop_left' h8, hashOfBytes_append]
  · rw [makeTxVal, List.drop_left' (by simp), List.take_of_length_le (by simp), leNat_leBytes]
    norm_num

section GetTx

variable {blockHash : Block → Hash} {txHash : Transaction → Hash}
  {unmarshalPublicKey : Bytes → KeyType → Except String PublicKey}
  {bs bs' : BlockStore} {ms ms' : MemBS} {blk : Block} {ci : CommitInfo ParamUpdates}

variable (unmarshalPublicKey) in
/-- A block whose transactions `GetTx` reads from its encoding: the header counts them, the new
leader's key reads back, and the encoding's length fits an `int64`. -/
structure TxReadable (blk : Block) : Prop where
  numTxns : blk.header.numTxns.toNat = blk.txns.length
  newLeader : ∀ k, blk.header.newLeader = some k → unmarshalPublicKey k.bytes k.keyType = .ok k
  encoded : ∃ rawBlk, encodeBlock blk = .ok rawBlk ∧ rawBlk.length < 2 ^ 63

/-- **`GetTx` through an entry.** An entry naming a block held in its encoding, with a position in
the block, gives the transaction there. -/
lemma BlockStore.getTx_of_entry {t h : Hash} {i : ℕ} {rawBlk : Bytes}
    (hval : bs.db.lookup (nsTxn ++ t.toList) = some (makeTxVal blk.header.height h i))
    (hraw : bs.db.lookup (nsBlock ++ h.toList) = some rawBlk) (henc : encodeBlock blk = .ok rawBlk)
    (hb : TxReadable unmarshalPublicKey blk) (hi : i < blk.txns.length) :
    bs.getTx unmarshalPublicKey t = .ok (blk.txns[i]?, blk.header.height, h, UInt32.ofNat i) := by
  obtain ⟨hlen, hheight, hhash, hidx⟩ := makeTxVal_reads blk.header.height h i
  obtain ⟨raw', henc', hlen'⟩ := hb.encoded
  obtain rfl : raw' = rawBlk := Except.ok.inj (henc'.symm.trans henc)
  -- the position is below the header's `uint32` count
  have hi32 : i < 2 ^ 32 := hi.trans (hb.numTxns ▸ UInt32.toNat_lt _)
  have htx := getRawBlockTx_encodeBlock unmarshalPublicKey henc hb.numTxns hb.newLeader hlen'
    (UInt32.ofNat i)
  rw [UInt32.toNat_ofNat_of_lt' hi32] at htx
  simp only [List.getElem?_eq_getElem hi] at htx
  obtain ⟨header, -, rfl⟩ := encodeBlock_eq_ok henc
  have hun := (Transaction.unmarshalBinary_bytes_append blk.txns[i] []
    (length_bytes_lt_of_mem (List.getElem_mem hi) hlen')).1
  rw [List.append_nil] at hun
  -- bytes that are not empty, so that a transaction comes back
  obtain ⟨x, xs, hx⟩ := List.exists_cons_of_ne_nil
    (List.ne_nil_of_length_pos (by simp [Transaction.bytes]) : blk.txns[i].bytes ≠ [])
  rw [hx] at htx hun
  simp only [BlockStore.getTx, hval, if_neg hlen, hheight, hidx, Nat.mod_eq_of_lt hi32,
    List.getElem?_eq_getElem hi]
  rw [hhash, hraw]
  simp only [htx, hun]

/-- **`MemBS.GetTx` through the index**: the block the index names, searched up to the first
position of the hash. -/
lemma MemBS.getTx_of_first {t h : Hash} {i : ℕ} (hid : ms.txIds.lookup t = some h)
    (hb : ms.blocks.lookup h = some blk) (hkey : blockHash blk = h)
    (hi : (blk.txns.map txHash)[i]? = some t)
    (hfirst : ∀ k < i, (blk.txns.map txHash)[k]? ≠ some t) :
    ms.getTx blockHash txHash t = .ok (blk.txns[i]?, blk.header.height, h, UInt32.ofNat i) := by
  rw [List.getElem?_map, Option.map_eq_some_iff] at hi
  obtain ⟨x, hx, rfl⟩ := hi
  have hfind := find?_zipIdx_of_first (p := fun y => txHash y == txHash x) hx (by simp)
    (fun k hk y hy => by
      have := hfirst k hk
      rw [List.getElem?_map, hy] at this
      simpa using this)
  simp only [MemBS.getTx, hid, hb, hfind, hkey, hx]

/-- The memory store indexes each transaction of the block it stores under the block's hash. -/
lemma MemBS.lookup_txIds_store (hm : ms.store blockHash txHash blk (some ci) = .ok ms') {t : Hash}
    (ht : t ∈ blk.txns.map txHash) : ms'.txIds.lookup t = some (blockHash blk) := by
  cases hm
  obtain ⟨x, hx, rfl⟩ := List.mem_map.mp ht
  obtain ⟨a, ha⟩ : ∃ a, (blk.txns.reverse.find? fun a => txHash a = txHash x) = some a :=
    Option.isSome_iff_exists.mp (List.find?_isSome.mpr ⟨x, List.mem_reverse.mpr hx, by simp⟩)
  rw [GoMap.lookup_foldl_insert_find, ha]
  rfl

/-- **`GetTx` after a store: the last position against the first.** For every transaction hash
of a block just stored, the badger store's `GetTx` answers with the transaction at the last
position of the hash in the block, since each later entry overwrites the earlier one under the
same key, and the memory store's with the transaction at the first, where its search stops. -/
theorem getTx_last_vs_first (h : bs.store blockHash txHash blk ci = .ok bs')
    (hm : ms.store blockHash txHash blk (some ci) = .ok ms') (hb : TxReadable unmarshalPublicKey blk)
    {t : Hash} (ht : t ∈ blk.txns.map txHash) :
    ∃ i j, (blk.txns.map txHash)[i]? = some t ∧ (∀ k < i, (blk.txns.map txHash)[k]? ≠ some t) ∧
      (blk.txns.map txHash)[j]? = some t ∧ (∀ k, j < k → (blk.txns.map txHash)[k]? ≠ some t) ∧
      bs'.getTx unmarshalPublicKey t =
        .ok (blk.txns[j]?, blk.header.height, blockHash blk, UInt32.ofNat j) ∧
      ms'.getTx blockHash txHash t =
        .ok (blk.txns[i]?, blk.header.height, blockHash blk, UInt32.ofNat i) := by
  obtain ⟨rawBlk, hs, header, ciBytes, henc, htx, -, rfl⟩ := BlockStore.store_eq_ok h
  obtain rfl := Except.ok.inj (htx.symm.trans (txHashesOf_eq hb.numTxns))
  obtain ⟨j, hj, hlast, hval⟩ := lookup_writeTxIndex_of_mem _ _ _ blk.header.height ht
  have hex : ∃ i, (blk.txns.map txHash)[i]? = some t := List.mem_iff_getElem?.mp ht
  refine ⟨Nat.find hex, j, Nat.find_spec hex, fun k hk => Nat.find_min hex hk, hj, hlast, ?_, ?_⟩
  · have hjl : j < blk.txns.length := by simpa using (List.getElem?_eq_some_iff.mp hj).1
    refine BlockStore.getTx_of_entry hval ?_ henc hb hjl
    rw [lookup_writeTxIndex_of_ne _ _ nsBlock rfl (by decide), lookup_writeBlock_block, if_pos rfl]
  · cases hm
    exact MemBS.getTx_of_first (MemBS.lookup_txIds_store rfl ht) (AList.lookup_insert _) rfl
      (Nat.find_spec hex) fun k hk => Nat.find_min hex hk

/-- The empty transaction. -/
def emptyTx : Transaction := ⟨none, none, [], []⟩

/-- A block at height one of the given transactions, counted in its header. -/
def blockWith (txns : List Transaction) : Block :=
  ⟨⟨1, 1, UInt32.ofNat txns.length, zeroHash, zeroHash, 1, zeroHash, zeroHash, zeroHash, none⟩,
    txns, []⟩

/-- One transaction twice in a block, of one hash: the badger store answers with the second,
the memory store with the first. -/
theorem getTx_last_vs_first_twice :
    ∃ bs' ms', BlockStore.empty.store (·.header.merkleRoot) (fun _ => zeroHash)
        (blockWith [emptyTx, emptyTx]) (commitOf zeroHash) = .ok bs' ∧
      MemBS.empty.store (·.header.merkleRoot) (fun _ => zeroHash) (blockWith [emptyTx, emptyTx])
        (some (commitOf zeroHash)) = .ok ms' ∧
      bs'.getTx anyKey zeroHash = .ok (some emptyTx, 1, zeroHash, 1) ∧
      ms'.getTx (·.header.merkleRoot) (fun _ => zeroHash) zeroHash =
        .ok (some emptyTx, 1, zeroHash, 0) := by
  obtain ⟨ciBytes, hm, -⟩ := @commitInfo_readsBack_of_empty anyKey zeroHash
  obtain ⟨bs', h⟩ : ∃ bs', BlockStore.empty.store (·.header.merkleRoot) (fun _ => zeroHash)
      (blockWith [emptyTx, emptyTx]) (commitOf zeroHash) = .ok bs' :=
    BlockStore.empty.store_ok rfl rfl hm
  have hr : TxReadable anyKey (blockWith [emptyTx, emptyTx]) :=
    ⟨rfl, (fun _ h => by cases h), _, rfl, by decide +kernel⟩
  obtain ⟨i, j, -, hfirst, hj, hlast, hbs, hms⟩ :=
    getTx_last_vs_first h rfl hr (t := zeroHash) (by simp [blockWith])
  obtain rfl : i = 0 := by
    by_contra hne
    exact hfirst 0 (Nat.pos_of_ne_zero hne) rfl
  obtain rfl : j = 1 := by
    have hjl : j < 2 := by simpa [blockWith] using (List.getElem?_eq_some_iff.mp hj).1
    by_contra hne
    exact hlast 1 (by omega) rfl
  exact ⟨bs', _, h, rfl, hbs, hms⟩

variable (unmarshalPublicKey txHash) in
/-- A store whose block `GetTx` reads and holds no transaction hash twice, and whose commit info
encodes. -/
structure TxStorable (p : Block × CommitInfo ParamUpdates) : Prop where
  readable : TxReadable unmarshalPublicKey p.1
  distinct : (p.1.txns.map txHash).Nodup
  commitInfo : ∃ ciBytes, p.2.marshalBinary = .ok ciBytes

variable (unmarshalPublicKey blockHash txHash) in
/-- **The two transaction indexes agree.** Each block the memory store holds is under its own
hash, is read by `GetTx`, holds no transaction hash twice, and lies encoded in the badger store.
Each transaction hash is indexed by neither store, or by both, in one block at its position. -/
structure TxIndexed (bs : BlockStore) (ms : MemBS) : Prop where
  blocks : ∀ h b, ms.blocks.lookup h = some b → blockHash b = h ∧
    TxReadable unmarshalPublicKey b ∧ (b.txns.map txHash).Nodup ∧
      ∃ rawBlk, encodeBlock b = .ok rawBlk ∧ bs.db.lookup (nsBlock ++ h.toList) = some rawBlk
  txs : ∀ t, (ms.txIds.lookup t = none ∧ bs.db.lookup (nsTxn ++ t.toList) = none) ∨
    ∃ h b i, ms.txIds.lookup t = some h ∧ ms.blocks.lookup h = some b ∧
      (b.txns.map txHash)[i]? = some t ∧
        bs.db.lookup (nsTxn ++ t.toList) = some (makeTxVal b.header.height h i)

lemma TxIndexed.empty : TxIndexed blockHash txHash unmarshalPublicKey BlockStore.empty MemBS.empty where
  blocks _ _ h := by cases h
  txs _ := .inl ⟨rfl, rfl⟩

/-- Where the indexes agree, so does `GetTx`. -/
theorem TxIndexed.getTx_eq (hx : TxIndexed blockHash txHash unmarshalPublicKey bs ms) (t : Hash) :
    bs.getTx unmarshalPublicKey t = ms.getTx blockHash txHash t := by
  rcases hx.txs t with ⟨hm, hb⟩ | ⟨h, b, i, hid, hblk, hi, hval⟩
  · simp [BlockStore.getTx, MemBS.getTx, hm, hb]
  · obtain ⟨hkey, hr, hnd, rawBlk, henc, hraw⟩ := hx.blocks h b hblk
    obtain ⟨hil, hit⟩ := List.getElem?_eq_some_iff.mp hi
    rw [BlockStore.getTx_of_entry hval hraw henc hr (by simpa using hil),
      MemBS.getTx_of_first hid hblk hkey hi fun k hk hk' => ?_]
    -- no earlier position holds the hash: the block holds it once
    obtain ⟨hkl, hkt⟩ := List.getElem?_eq_some_iff.mp hk'
    exact absurd ((hnd.getElem_inj_iff).mp (hkt.trans hit.symm)) (by omega)

/-- **One store of each**, of a block under a hash that names no other block held. -/
theorem TxIndexed.store (hx : TxIndexed blockHash txHash unmarshalPublicKey bs ms)
    (h : bs.store blockHash txHash blk ci = .ok bs')
    (hm : ms.store blockHash txHash blk (some ci) = .ok ms')
    (hr : TxReadable unmarshalPublicKey blk) (hnd : (blk.txns.map txHash).Nodup)
    (hcf : ∀ b, ms.blocks.lookup (blockHash blk) = some b → b = blk) :
    TxIndexed blockHash txHash unmarshalPublicKey bs' ms' := by
  obtain ⟨rawBlk, hs, header, ciBytes, henc, htx, -, rfl⟩ := BlockStore.store_eq_ok h
  obtain rfl := Except.ok.inj (htx.symm.trans (txHashesOf_eq hr.numTxns))
  cases hm
  -- the block written under a hash, before and after the store
  have hraw : ∀ h', (writeTxIndex blk.header.height (blockHash blk)
      (writeBlock bs.db (blockHash blk) header rawBlk ciBytes) (blk.txns.map txHash)).lookup
        (nsBlock ++ h'.toList) =
        if h' = blockHash blk then some rawBlk else bs.db.lookup (nsBlock ++ h'.toList) := by
    intro h'
    rw [lookup_writeTxIndex_of_ne _ _ nsBlock rfl (by decide), lookup_writeBlock_block]
  constructor
  case blocks =>
    intro h' b hb
    by_cases hh : h' = blockHash blk
    · subst hh
      obtain rfl := Option.some.inj ((AList.lookup_insert _).symm.trans hb)
      exact ⟨rfl, hr, hnd, rawBlk, henc, by rw [hraw, if_pos rfl]⟩
    · rw [AList.lookup_insert_ne hh] at hb
      obtain ⟨hkey, hr', hnd', raw', henc', hraw'⟩ := hx.blocks h' b hb
      exact ⟨hkey, hr', hnd', raw', henc', by rw [hraw, if_neg hh, hraw']⟩
  case txs =>
    intro t
    by_cases ht : t ∈ blk.txns.map txHash
    · -- indexed now, at its one position in the new block
      obtain ⟨j, hj, -, hval⟩ := lookup_writeTxIndex_of_mem _ _ _ blk.header.height ht
      exact .inr ⟨blockHash blk, blk, j, MemBS.lookup_txIds_store rfl ht, AList.lookup_insert _, hj,
        hval⟩
    · -- indexed as before, in a block the store leaves in place
      have hid : (blk.txns.foldl (fun m tx => m.insert (txHash tx) (blockHash blk)) ms.txIds).lookup t =
          ms.txIds.lookup t := GoMap.lookup_foldl_insert_of_not_mem _ _ _ ht
      have hval := lookup_writeTxIndex_of_not_mem
        (writeBlock bs.db (blockHash blk) header rawBlk ciBytes) (blockHash blk) t blk.header.height ht
      rw [lookup_writeBlock_txn] at hval
      rcases hx.txs t with ⟨hm, hb⟩ | ⟨h', b, i, hid', hblk, hi, hval'⟩
      · exact .inl ⟨hid.trans hm, hval.trans hb⟩
      · refine .inr ⟨h', b, i, hid.trans hid', ?_, hi, hval.trans hval'⟩
        by_cases hh : h' = blockHash blk
        · subst hh
          rw [hcf b hblk]
          exact AList.lookup_insert _
        · rwa [AList.lookup_insert_ne hh]

/-- **A run of stores of each**, of blocks whose hashes name no two blocks. -/
theorem TxIndexed.storeAll (hx : TxIndexed blockHash txHash unmarshalPublicKey bs ms)
    {stores : List (Block × CommitInfo ParamUpdates)}
    (hst : ∀ p ∈ stores, TxStorable txHash unmarshalPublicKey p)
    (hcf : ∀ p ∈ stores, ∀ q ∈ stores, blockHash p.1 = blockHash q.1 → p.1 = q.1)
    (hold : ∀ p ∈ stores, ∀ b, ms.blocks.lookup (blockHash p.1) = some b → b = p.1) :
    ∃ bs' ms', bs.storeAll blockHash txHash stores = .ok bs' ∧
      ms.storeAll blockHash txHash stores = .ok ms' ∧
        TxIndexed blockHash txHash unmarshalPublicKey bs' ms' := by
  induction stores generalizing bs ms with
  | nil => exact ⟨bs, ms, rfl, rfl, hx⟩
  | cons p stores ih =>
    have hp := hst p List.mem_cons_self
    obtain ⟨rawBlk, henc, -⟩ := hp.readable.encoded
    obtain ⟨ciBytes, hm⟩ := hp.commitInfo
    obtain ⟨bs₁, h₁⟩ : ∃ bs₁, bs.store blockHash txHash p.1 p.2 = .ok bs₁ :=
      bs.store_ok henc hp.readable.numTxns hm
    have hx₁ := hx.store h₁ rfl hp.readable hp.distinct (hold p List.mem_cons_self)
    -- a block stored now is the block of any later store of its hash
    have hold₁ : ∀ q ∈ stores, ∀ b, (ms.blocks.insert (blockHash p.1) p.1).lookup (blockHash q.1) =
        some b → b = q.1 := by
      intro q hq b hb
      by_cases hh : blockHash q.1 = blockHash p.1
      · rw [hh, AList.lookup_insert] at hb
        obtain rfl := Option.some.inj hb
        exact hcf p List.mem_cons_self q (List.mem_cons_of_mem _ hq) hh.symm
      · rw [AList.lookup_insert_ne hh] at hb
        exact hold q (List.mem_cons_of_mem _ hq) b hb
    obtain ⟨bs', ms', hbs', hms', hx'⟩ := ih hx₁ (fun q hq => hst q (List.mem_cons_of_mem _ hq))
      (fun q hq q' hq' => hcf q (List.mem_cons_of_mem _ hq) q' (List.mem_cons_of_mem _ hq'))
      hold₁
    refine ⟨bs', ms', ?_, hms', hx'⟩
    rw [BlockStore.storeAll, List.foldlM_cons, h₁]
    exact hbs'

/-- **`GetTx` agrees along runs.** Along any run of stores of blocks that `GetTx` reads, with no
transaction hash twice in a block, and with no hash naming two blocks, both stores succeed, and
the badger store's `GetTx` answers every hash as the memory store's does: the same transaction,
height, block hash and position, or the same error. -/
theorem getTx_refines {stores : List (Block × CommitInfo ParamUpdates)}
    (hst : ∀ p ∈ stores, TxStorable txHash unmarshalPublicKey p)
    (hcf : ∀ p ∈ stores, ∀ q ∈ stores, blockHash p.1 = blockHash q.1 → p.1 = q.1) :
    ∃ bs ms, BlockStore.empty.storeAll blockHash txHash stores = .ok bs ∧
      MemBS.empty.storeAll blockHash txHash stores = .ok ms ∧
        ∀ t, bs.getTx unmarshalPublicKey t = ms.getTx blockHash txHash t := by
  obtain ⟨bs, ms, hbs, hms, hx⟩ := TxIndexed.empty.storeAll hst hcf fun _ _ _ h => by cases h
  exact ⟨bs, ms, hbs, hms, hx.getTx_eq⟩

/-- A block of one transaction. -/
theorem getTx_refines_one :
    ∃ bs ms, BlockStore.empty.storeAll (·.header.merkleRoot) (fun _ => zeroHash)
        [(blockWith [emptyTx], commitOf zeroHash)] = .ok bs ∧
      MemBS.empty.storeAll (·.header.merkleRoot) (fun _ => zeroHash)
        [(blockWith [emptyTx], commitOf zeroHash)] = .ok ms ∧
      ∀ t, bs.getTx anyKey t = ms.getTx (·.header.merkleRoot) (fun _ => zeroHash) t := by
  obtain ⟨ciBytes, hm, -⟩ := @commitInfo_readsBack_of_empty anyKey zeroHash
  refine getTx_refines (fun p hp => ?_) (fun p hp q hq _ => ?_)
  · rw [List.mem_singleton] at hp
    subst hp
    exact ⟨⟨rfl, (fun _ h => by cases h), _, rfl, by decide +kernel⟩, by decide, ciBytes, hm⟩
  · rw [List.mem_singleton] at hp hq
    rw [hp, hq]

end GetTx

end KwilDb.Store
