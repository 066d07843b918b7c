import KwilDb.Store.BlockStore

/-!
# The results of a block's transactions
-/

namespace KwilDb.Store

open KwilDb.Lib KwilDb.Types
open KwilDb.Core (Bytes Hash KeyType CommitInfo ParamUpdates goBytes)

/-- `nsResults`. -/
def nsResults : Bytes := goBytes "r:"

/-- The key of the result at an index: the namespace, the block hash and the index as a
little-endian `uint32`. -/
def resultKey (hash : Hash) (i : ℕ) : Bytes := nsResults ++ hash.toList ++ leBytes 4 i

/-- `badger.ErrKeyNotFound`, which `Results` and `Result` return as it is. -/
def errKeyNotFound : String := "Key not found"

/-! ### The badger store -/

/-- The loop of `StoreResults`: each result marshalled and set under its key. -/
def writeResults (hash : Hash) (db : GoMap Bytes Bytes) (results : List TxResult) :
    Except String (GoMap Bytes Bytes) :=
  results.zipIdx.foldlM (fun db p => do
    let resBts ← p.1.marshalBinary
    pure (db.insert (resultKey hash p.2) resBts)) db

/-- **`BlockStore.StoreResults`**, in one database transaction that a failure discards. The keys
of results stored before under the hash stay. -/
def BlockStore.storeResults (bs : BlockStore) (hash : Hash) (results : List TxResult) :
    Except Failure BlockStore :=
  match writeResults hash bs.db results with
  | .error e => .error (.error e)
  | .ok db => .ok { bs with db }

/-- The loop of `Results` over the entries under the block's prefix: the index after the prefix,
a `uint32`, must be below the header's count, and the value is read into a zero result set at
that index. -/
def readResults (prefixLen txCount : ℕ) :
    List ((_ : Bytes) × Bytes) → List TxResult → Except Failure (List TxResult)
  | [], results => .ok results
  | e :: rest, results =>
    let suffix := e.1.drop prefixLen
    if suffix.length < 4 then
      .error (.panic ("runtime error: index out of range [3] with length " ++
        toString suffix.length))
    else
      let idx := leNat (suffix.take 4)
      if txCount ≤ idx then .error (.error ("invalid tx index " ++ toString idx))
      else
        match TxResult.zero.unmarshalBinary e.2 with
        | .error err => .error (.error err)
        | .ok result => readResults prefixLen txCount rest (results.set idx result)

/-- **`BlockStore.Results`**: the header under `h:` gives the count of results, and the entries
under `r:` and the hash, in key order, fill a slice of that many zero results. -/
def BlockStore.results (unmarshalPublicKey : Bytes → KeyType → Except String PublicKey)
    (bs : BlockStore) (hash : Hash) : Except Failure (List TxResult) :=
  match bs.db.lookup (nsHeader ++ hash.toList) with
  | none => .error (.error errKeyNotFound)
  | some val =>
    match decodeBlockHeader unmarshalPublicKey val with
    | .error e => .error (.error e)
    | .ok (header, _) =>
      readResults (nsResults.length + 32) header.numTxns.toNat
        (bs.db.prefixed (nsResults ++ hash.toList))
        (List.replicate header.numTxns.toNat TxResult.zero)

/-- **`BlockStore.Result`**: the value under the result's key, read into a zero result. -/
def BlockStore.result (bs : BlockStore) (hash : Hash) (idx : UInt32) : Except Failure TxResult :=
  match bs.db.lookup (resultKey hash idx.toNat) with
  | none => .error (.error errKeyNotFound)
  | some val =>
    match TxResult.zero.unmarshalBinary val with
    | .error e => .error (.error e)
    | .ok res => .ok res

/-! ### The memory store -/

/-- `MemBS.StoreResults`. -/
def MemBS.storeResults (bs : MemBS) (hash : Hash) (results : List TxResult) : MemBS :=
  { bs with txResults := bs.txResults.insert hash results }

/-- `MemBS.Results`. -/
def MemBS.results (bs : MemBS) (hash : Hash) : Except Failure (List TxResult) :=
  match bs.txResults.lookup hash with
  | none => .error (.error errNotFound)
  | some res => .ok res

/-- `MemBS.Result`. -/
def MemBS.result (bs : MemBS) (hash : Hash) (idx : UInt32) : Except Failure TxResult :=
  match bs.txResults.lookup hash with
  | none => .error (.error errNotFound)
  | some res =>
    if h : idx.toNat < res.length then .ok res[idx.toNat]
    else .error (.error (errNotFound ++ ": invalid block index"))

/-! ### Commits -/

section Commit

variable (blockHash : Block → Hash) (txHash : Transaction → Hash)

/-- The block store's part of `ConsensusEngine.commit`: `Store`, then `StoreResults` under the
block's hash. -/
def BlockStore.commit (bs : BlockStore) (blk : Block) (ci : CommitInfo ParamUpdates)
    (results : List TxResult) : Except Failure BlockStore := do
  let bs ← bs.store blockHash txHash blk ci
  bs.storeResults (blockHash blk) results

/-- The commits of a run, one a block, stopping at the first failure. -/
def BlockStore.commitAll (bs : BlockStore)
    (commits : List (Block × CommitInfo ParamUpdates × List TxResult)) :
    Except Failure BlockStore :=
  commits.foldlM (fun bs c => bs.commit blockHash txHash c.1 c.2.1 c.2.2) bs

/-- The same on the memory store. -/
def MemBS.commit (bs : MemBS) (blk : Block) (ci : CommitInfo ParamUpdates)
    (results : List TxResult) : Except String MemBS := do
  let bs ← bs.store blockHash txHash blk (some ci)
  pure (bs.storeResults (blockHash blk) results)

/-- The commits of a run on the memory store. -/
def MemBS.commitAll (bs : MemBS)
    (commits : List (Block × CommitInfo ParamUpdates × List TxResult)) : Except String MemBS :=
  commits.foldlM (fun bs c => bs.commit blockHash txHash c.1 c.2.1 c.2.2) bs

end Commit

/-! ### Keys

The namespace of results is two bytes long as the others, so no key of another namespace starts
with a block's prefix, and a key under the prefix of one block is not under another's. -/

lemma not_prefix_of_ns_ne {x y : Bytes} (ns ns' : Bytes) (hl : ns.length = ns'.length)
    (hn : ns ≠ ns') : ¬ ns ++ x <+: ns' ++ y := by
  intro hp
  have hpre : ns <+: ns' :=
    List.prefix_of_prefix_length_le ((List.prefix_append ns x).trans hp) (List.prefix_append ns' y)
      hl.le
  exact hn (hpre.eq_of_length hl)

/-- A key is under the prefix of one hash at most. -/
lemma hash_eq_of_prefixes {h h' : Hash} {k : Bytes} (hp : nsResults ++ h.toList <+: k)
    (hp' : nsResults ++ h'.toList <+: k) : h = h' := by
  have hl : (nsResults ++ h.toList).length = (nsResults ++ h'.toList).length := by simp
  exact ns_append_inj.mp ((List.prefix_of_prefix_length_le hp hp' hl.le).eq_of_length hl)

lemma prefix_resultKey_iff {h h' : Hash} {i : ℕ} :
    nsResults ++ h.toList <+: resultKey h' i ↔ h = h' := by
  constructor
  · intro hp
    exact hash_eq_of_prefixes hp (List.prefix_append _ _)
  · rintro rfl
    exact List.prefix_append _ _

/-- A key under a block's prefix is in the namespace of results. -/
lemma eq_nsResults_append {h : Hash} {k : Bytes} (hp : nsResults ++ h.toList <+: k) :
    ∃ x, k = nsResults ++ x := by
  obtain ⟨t, rfl⟩ := hp
  exact ⟨h.toList ++ t, List.append_assoc _ _ _⟩

/-- The index `Results` reads from a result's key. -/
lemma drop_resultKey (h : Hash) (i : ℕ) :
    (resultKey h i).drop (nsResults.length + 32) = leBytes 4 i := by
  rw [resultKey, List.drop_left' (by simp)]

lemma resultKey_inj {h h' : Hash} {i j : ℕ} (hi : i < 2 ^ 32) (hj : j < 2 ^ 32)
    (hk : resultKey h i = resultKey h' j) : h = h' ∧ i = j := by
  have hh : h = h' := by
    rw [← prefix_resultKey_iff (i := j), ← hk]
    exact List.prefix_append _ _
  subst hh
  have hidx := congrArg (fun k => leNat (k.drop (nsResults.length + 32))) hk
  simp only [drop_resultKey, leNat_leBytes] at hidx
  rw [Nat.mod_eq_of_lt (by simpa using hi), Nat.mod_eq_of_lt (by simpa using hj)] at hidx
  exact ⟨rfl, hidx⟩

/-! ### What `Store` and `StoreResults` write -/

section Writes

variable {blockHash : Block → Hash} {txHash : Transaction → Hash}
  {bs bs' : BlockStore} {blk : Block} {ci : CommitInfo ParamUpdates}

lemma lookup_writeBlock_results (db : GoMap Bytes Bytes) (blkHash : Hash)
    (header rawBlk ciBytes x : Bytes) :
    (writeBlock db blkHash header rawBlk ciBytes).lookup (nsResults ++ x) =
      db.lookup (nsResults ++ x) := by
  rw [writeBlock, AList.lookup_insert_ne (ns_append_ne nsResults nsCommitInfo rfl (by decide)),
    AList.lookup_insert_ne (ns_append_ne nsResults nsBlock rfl (by decide)),
    AList.lookup_insert_ne (ns_append_ne nsResults nsHeader rfl (by decide))]

/-- `Store` writes no key under `r:`. -/
lemma BlockStore.lookup_store_results (h : bs.store blockHash txHash blk ci = .ok bs')
    (x : Bytes) : bs'.db.lookup (nsResults ++ x) = bs.db.lookup (nsResults ++ x) := by
  obtain ⟨_, _, _, _, _, _, _, rfl⟩ := BlockStore.store_eq_ok h
  rw [lookup_writeTxIndex_of_ne _ _ nsResults rfl (by decide), lookup_writeBlock_results]

/-- `Store` writes the header's encoding and the signature under `h:` and the block's hash. -/
lemma BlockStore.lookup_store_header (h : bs.store blockHash txHash blk ci = .ok bs') :
    ∃ hb, encodeBlockHeader blk.header = .ok hb ∧ ∀ h' : Hash,
      bs'.db.lookup (nsHeader ++ h'.toList) = if h' = blockHash blk then
        some (hb ++ blk.signature) else bs.db.lookup (nsHeader ++ h'.toList) := by
  simp only [BlockStore.store, bind_eq_ok] at h
  obtain ⟨_, -, _, -, hb, hhb, _, -, h⟩ := h
  cases h
  refine ⟨hb, hhb, fun h' => ?_⟩
  rw [lookup_writeTxIndex_of_ne _ _ nsHeader rfl (by decide), lookup_writeBlock_header]

/-- The loop of `StoreResults` over results whose events fit their count. -/
lemma writeResults_loop (hash : Hash) : ∀ (l : List (TxResult × ℕ)) (db : GoMap Bytes Bytes),
    (∀ p ∈ l, p.1.events.length ≤ 65535) →
    l.foldlM (fun db p => do
        let resBts ← p.1.marshalBinary
        pure (db.insert (resultKey hash p.2) resBts)) db =
      .ok (l.foldl (fun db p => db.insert (resultKey hash p.2) p.1.encoding) db)
  | [], _, _ => rfl
  | p :: l, db, hfit => by
    simp only [List.foldlM_cons, TxResult.marshalBinary_of_le (hfit p List.mem_cons_self)]
    exact writeResults_loop hash l _ fun q hq => hfit q (List.mem_cons_of_mem _ hq)

/-- **`StoreResults`' spec.** Results whose events fit their count are stored, each in its
encoding under its key. -/
lemma BlockStore.storeResults_eq {results : List TxResult}
    (hfit : ∀ r ∈ results, r.events.length ≤ 65535) (bs : BlockStore) (hash : Hash) :
    bs.storeResults hash results = .ok { bs with
      db := results.zipIdx.foldl (fun db p => db.insert (resultKey hash p.2) p.1.encoding) bs.db }
      := by
  rw [BlockStore.storeResults, writeResults,
    writeResults_loop hash _ _ fun p hp =>
      hfit p.1 (List.mem_of_getElem? (List.mem_zipIdx_iff_getElem?.mp hp))]

/-- `StoreResults` changes the database only. -/
lemma BlockStore.storeResults_eq_ok {hash : Hash} {results : List TxResult}
    (h : bs.storeResults hash results = .ok bs') :
    ∃ db, writeResults hash bs.db results = .ok db ∧ bs' = { bs with db } := by
  unfold BlockStore.storeResults at h
  split at h
  · cases h
  · cases h
    exact ⟨_, ‹_›, rfl⟩

/-- **`StoreResults`' frame**: it writes under the hash's prefix only. -/
lemma BlockStore.lookup_storeResults_outside {hash : Hash} {results : List TxResult}
    (h : bs.storeResults hash results = .ok bs') {k : Bytes}
    (hk : ¬ nsResults ++ hash.toList <+: k) : bs'.db.lookup k = bs.db.lookup k := by
  obtain ⟨db, hw, rfl⟩ := BlockStore.storeResults_eq_ok h
  -- every turn of the loop writes a key under the prefix
  refine foldlM_invariant (fun _ db => db.lookup k = bs.db.lookup k) (fun _ d p d' hd hp => ?_)
    results.zipIdx [] bs.db db rfl hw
  obtain ⟨resBts, -, hp⟩ := bind_eq_ok.mp hp
  cases hp
  have hne : k ≠ resultKey hash p.2 := by
    rintro rfl
    exact hk (prefix_resultKey_iff.mpr rfl)
  rw [AList.lookup_insert_ne hne]
  exact hd

variable {results : List TxResult} {hash : Hash} (db : GoMap Bytes Bytes)

/-- The result at an index is under its key, as long as no two indexes share a `uint32`. -/
lemma lookup_writeResults_self (hlen : results.length ≤ 2 ^ 32) {i : ℕ}
    (hi : i < results.length) :
    (results.zipIdx.foldl (fun db p => db.insert (resultKey hash p.2) p.1.encoding) db).lookup
      (resultKey hash i) = some results[i].encoding := by
  have hnd : (results.zipIdx.map fun p => resultKey hash p.2).Nodup := by
    rw [show (results.zipIdx.map fun p => resultKey hash p.2) =
      (results.zipIdx.map Prod.snd).map (resultKey hash) by rw [List.map_map]; rfl,
      List.zipIdx_map_snd]
    refine List.Nodup.map_on (fun x hx y hy hxy => ?_) (List.nodup_range' 1 (by omega))
    rw [List.mem_range'_1] at hx hy
    exact (resultKey_inj (by omega) (by omega) hxy).2
  exact GoMap.lookup_foldl_insert_of_mem (fun p => resultKey hash p.2) (fun p => p.1.encoding) hnd
    ((List.mem_zipIdx_iff_getElem? (x := (results[i], i))).mpr (List.getElem?_eq_getElem hi)) db

/-- Every other key keeps its value. -/
lemma lookup_writeResults_of_ne {k : Bytes} (hk : ∀ i < results.length, k ≠ resultKey hash i) :
    (results.zipIdx.foldl (fun db p => db.insert (resultKey hash p.2) p.1.encoding) db).lookup k =
      db.lookup k := by
  refine GoMap.lookup_foldl_insert_of_not_mem _ _ db ?_
  rw [List.mem_map]
  rintro ⟨⟨r, i⟩, hp, rfl⟩
  exact hk i (by simpa using (List.mem_zipIdx hp).2.1) rfl

end Writes

/-! ### What `Results` and `Result` read -/

/-- The index `Results` reads from a key, after the prefix. -/
lemma readResults_cons_idx (pl n : ℕ) (e : (_ : Bytes) × Bytes) (rest : List ((_ : Bytes) × Bytes))
    (results : List TxResult) (hlen : 4 ≤ (e.1.drop pl).length)
    (hidx : leNat ((e.1.drop pl).take 4) < n) :
    readResults pl n (e :: rest) results =
      match TxResult.zero.unmarshalBinary e.2 with
      | .error err => .error (.error err)
      | .ok result => readResults pl n rest (results.set (leNat ((e.1.drop pl).take 4)) result) := by
  rw [readResults, if_neg (by omega), if_neg (by omega)]

/-- **The loop of `Results` when every entry reads**: it is the loop of writes of each entry's
result at its index. -/
lemma readResults_eq_ok (pl n : ℕ) (f : (_ : Bytes) × Bytes → TxResult) :
    ∀ (l : List ((_ : Bytes) × Bytes)) (results : List TxResult),
      (∀ e ∈ l, 4 ≤ (e.1.drop pl).length ∧ leNat ((e.1.drop pl).take 4) < n ∧
        TxResult.zero.unmarshalBinary e.2 = .ok (f e)) →
      readResults pl n l results = .ok ((l.map fun e => (leNat ((e.1.drop pl).take 4), f e)).foldl
        (fun acc p => acc.set p.1 p.2) results)
  | [], _, _ => rfl
  | e :: l, results, he => by
    obtain ⟨hlen, hidx, hun⟩ := he e List.mem_cons_self
    rw [readResults_cons_idx pl n e l results hlen hidx, hun, List.map_cons, List.foldl_cons]
    exact readResults_eq_ok pl n f l _ fun e' he' => he e' (List.mem_cons_of_mem _ he')

section Reads

variable {unmarshalPublicKey : Bytes → KeyType → Except String PublicKey} {bs : BlockStore}

variable (unmarshalPublicKey) in
/-- **What the badger store holds of a block's results.** Its header counts them, each lies
under its key and reads back without its gas, and no other key lies under the block's prefix. -/
structure HoldsResults (bs : BlockStore) (h : Hash) (rs : List TxResult) : Prop where
  header : ∃ val hdr rest, bs.db.lookup (nsHeader ++ h.toList) = some val ∧
    decodeBlockHeader unmarshalPublicKey val = .ok (hdr, rest) ∧ hdr.numTxns.toNat = rs.length
  result : ∀ i (hi : i < rs.length), ∃ val, bs.db.lookup (resultKey h i) = some val ∧
    TxResult.zero.unmarshalBinary val = .ok rs[i].withoutGas
  keys : ∀ k v, bs.db.lookup k = some v → nsResults ++ h.toList <+: k →
    ∃ i < rs.length, k = resultKey h i

/-- No header and no result under a hash. -/
structure HoldsNoResults (bs : BlockStore) (h : Hash) : Prop where
  header : bs.db.lookup (nsHeader ++ h.toList) = none
  keys : ∀ k v, bs.db.lookup k = some v → ¬ nsResults ++ h.toList <+: k

lemma HoldsResults.length_lt {h : Hash} {rs : List TxResult}
    (hr : HoldsResults unmarshalPublicKey bs h rs) : rs.length < 2 ^ 32 := by
  obtain ⟨_, hdr, _, -, -, hn⟩ := hr.header
  exact hn ▸ hdr.numTxns.toNat_lt

/-- **`Results` reads back what the badger store holds**: the results, without their gas. -/
theorem HoldsResults.results_eq {h : Hash} {rs : List TxResult}
    (hr : HoldsResults unmarshalPublicKey bs h rs) :
    bs.results unmarshalPublicKey h = .ok (rs.map TxResult.withoutGas) := by
  obtain ⟨val, hdr, rest, hval, hdec, hn⟩ := hr.header
  have h32 := hr.length_lt
  -- each entry under the prefix is a result's key, with that result's bytes
  have hent : ∀ e ∈ bs.db.prefixed (nsResults ++ h.toList), ∃ i, ∃ hi : i < rs.length,
      e.1 = resultKey h i ∧ TxResult.zero.unmarshalBinary e.2 = .ok rs[i].withoutGas := by
    intro e he
    obtain ⟨hmem, hpre⟩ := GoMap.mem_prefixed.mp he
    have hlk : bs.db.lookup e.1 = some e.2 := AList.mem_lookup_iff.mpr hmem
    obtain ⟨i, hi, hk⟩ := hr.keys e.1 e.2 hlk hpre
    obtain ⟨v, hv, hun⟩ := hr.result i hi
    rw [hk, hv, Option.some.injEq] at hlk
    exact ⟨i, hi, hk, hlk ▸ hun⟩
  have hidx : ∀ i < rs.length,
      leNat (((resultKey h i).drop (nsResults.length + 32)).take 4) = i := by
    intro i hi
    rw [drop_resultKey, List.take_of_length_le (by simp), leNat_leBytes,
      Nat.mod_eq_of_lt (by simpa using hi.trans h32)]
  let f : (_ : Bytes) × Bytes → TxResult := fun e =>
    ((rs.map TxResult.withoutGas)[leNat ((e.1.drop (nsResults.length + 32)).take 4)]?).getD
      TxResult.zero
  have hread := readResults_eq_ok (nsResults.length + 32) rs.length f
    (bs.db.prefixed (nsResults ++ h.toList)) (List.replicate rs.length TxResult.zero)
    fun e he => by
      obtain ⟨i, hi, hk, hun⟩ := hent e he
      refine ⟨by simp [hk, drop_resultKey], by rw [hk, hidx i hi]; exact hi, ?_⟩
      simp only [f, hk, hidx i hi, List.getElem?_map, List.getElem?_eq_getElem hi]
      exact hun
  simp only [BlockStore.results, hval, hdec, hn, hread]
  congr 1
  refine foldl_set_of_cover (by simp) (fun p hp => ?_) (fun j hj => ?_)
  · -- each write is of the result at its index
    obtain ⟨e, he, rfl⟩ := List.mem_map.mp hp
    obtain ⟨i, hi, hk, -⟩ := hent e he
    simp only [f, hk, hidx i hi, List.getElem?_map, List.getElem?_eq_getElem hi]
    rfl
  · -- each index is written: its key is under the prefix
    rw [List.length_map] at hj
    obtain ⟨v, hv, -⟩ := hr.result j hj
    have he : (⟨resultKey h j, v⟩ : (_ : Bytes) × Bytes) ∈ bs.db.prefixed (nsResults ++ h.toList) :=
      GoMap.mem_prefixed.mpr ⟨AList.mem_lookup_iff.mp hv, prefix_resultKey_iff.mpr rfl⟩
    exact ⟨_, List.mem_map_of_mem he, hidx j hj⟩

/-- **`Result` reads back what the badger store holds**: the result at an index, without its
gas, and past the last index no key. -/
theorem HoldsResults.result_eq {h : Hash} {rs : List TxResult}
    (hr : HoldsResults unmarshalPublicKey bs h rs) (idx : UInt32) :
    bs.result h idx = if hi : idx.toNat < rs.length then .ok rs[idx.toNat].withoutGas
      else .error (.error errKeyNotFound) := by
  split_ifs with hi
  · obtain ⟨v, hv, hun⟩ := hr.result idx.toNat hi
    simp [BlockStore.result, hv, hun]
  · -- a key under the prefix is of an index below the count, and this one is not
    have hnone : bs.db.lookup (resultKey h idx.toNat) = none := by
      rw [← Option.not_isSome_iff_eq_none, Option.isSome_iff_exists]
      rintro ⟨v, hv⟩
      obtain ⟨i, hil, hk⟩ := hr.keys _ v hv (prefix_resultKey_iff.mpr rfl)
      have := (resultKey_inj idx.toNat_lt (hil.trans hr.length_lt) hk).2
      omega
    simp [BlockStore.result, hnone]

/-- Where the badger store holds no results, `Results` and `Result` find no key. -/
lemma HoldsNoResults.results_eq {h : Hash} (hn : HoldsNoResults bs h) :
    bs.results unmarshalPublicKey h = .error (.error errKeyNotFound) := by
  simp [BlockStore.results, hn.header]

lemma HoldsNoResults.result_eq {h : Hash} (hn : HoldsNoResults bs h) (idx : UInt32) :
    bs.result h idx = .error (.error errKeyNotFound) := by
  have hnone : bs.db.lookup (resultKey h idx.toNat) = none := by
    rw [← Option.not_isSome_iff_eq_none, Option.isSome_iff_exists]
    rintro ⟨v, hv⟩
    exact hn.keys _ v hv (prefix_resultKey_iff.mpr rfl)
  simp [BlockStore.result, hnone]

/-- What the badger store holds at a hash depends on the header's key and the keys under the
hash's prefix only. -/
lemma HoldsResults.of_agree {bs' : BlockStore} {h : Hash} {rs : List TxResult}
    (hr : HoldsResults unmarshalPublicKey bs h rs)
    (hh : bs'.db.lookup (nsHeader ++ h.toList) = bs.db.lookup (nsHeader ++ h.toList))
    (hk : ∀ k, nsResults ++ h.toList <+: k → bs'.db.lookup k = bs.db.lookup k) :
    HoldsResults unmarshalPublicKey bs' h rs where
  header := hh ▸ hr.header
  result i hi := hk _ (prefix_resultKey_iff.mpr rfl) ▸ hr.result i hi
  keys k v hv hp := hr.keys k v (hk k hp ▸ hv) hp

lemma HoldsNoResults.of_agree {bs' : BlockStore} {h : Hash} (hn : HoldsNoResults bs h)
    (hh : bs'.db.lookup (nsHeader ++ h.toList) = bs.db.lookup (nsHeader ++ h.toList))
    (hk : ∀ k, nsResults ++ h.toList <+: k → bs'.db.lookup k = bs.db.lookup k) :
    HoldsNoResults bs' h where
  header := hh.trans hn.header
  keys k v hv hp := hn.keys k v (hk k hp ▸ hv) hp

end Reads

/-! ### The two stores along commits -/

/-- The key of a header is under no block's prefix of results. -/
lemma not_prefix_header (h h' : Hash) : ¬ nsResults ++ h.toList <+: nsHeader ++ h'.toList :=
  not_prefix_of_ns_ne nsResults nsHeader rfl (by decide)

variable {unmarshalPublicKey : Bytes → KeyType → Except String PublicKey} in
/-- `Store` writes a header that `Results` reads back. -/
lemma TxReadable.decodeBlockHeader {blk : Block} (hr : TxReadable unmarshalPublicKey blk)
    {hb : Bytes} (hhb : encodeBlockHeader blk.header = .ok hb) :
    decodeBlockHeader unmarshalPublicKey (hb ++ blk.signature) = .ok (blk.header, blk.signature) := by
  obtain ⟨rawBlk, henc, hlen⟩ := hr.encoded
  obtain ⟨header, hh, rfl⟩ := encodeBlock_eq_ok henc
  obtain rfl : header = hb := Except.ok.inj (hh.symm.trans hhb)
  refine decodeBlockHeader_encodeBlockHeader unmarshalPublicKey blk.header header _ hh ?_
    hr.newLeader
  simp only [List.length_append] at hlen
  omega

section Agree

variable {blockHash : Block → Hash} {txHash : Transaction → Hash}
  {unmarshalPublicKey : Bytes → KeyType → Except String PublicKey}
  {bs bs' : BlockStore} {ms ms' : MemBS} {blk : Block} {ci : CommitInfo ParamUpdates}
  {results : List TxResult}

/-- **A commit's frame.** Under another hash than its block's, a commit leaves the header's key
and the keys of results as they were. -/
lemma BlockStore.lookup_commit_of_ne (h : bs.commit blockHash txHash blk ci results = .ok bs')
    {h' : Hash} (hne : h' ≠ blockHash blk) :
    bs'.db.lookup (nsHeader ++ h'.toList) = bs.db.lookup (nsHeader ++ h'.toList) ∧
      ∀ k, nsResults ++ h'.toList <+: k → bs'.db.lookup k = bs.db.lookup k := by
  obtain ⟨bs₁, h₁, h₂⟩ := bind_eq_ok.mp h
  obtain ⟨_, -, hhdr⟩ := BlockStore.lookup_store_header h₁
  constructor
  · rw [BlockStore.lookup_storeResults_outside h₂ (not_prefix_header _ _), hhdr, if_neg hne]
  · intro k hk
    -- a key under the prefix of `h'` is not under the block's
    have hnk : ¬ nsResults ++ (blockHash blk).toList <+: k := fun hH =>
      hne (hash_eq_of_prefixes hk hH)
    obtain ⟨x, rfl⟩ := eq_nsResults_append hk
    rw [BlockStore.lookup_storeResults_outside h₂ hnk, BlockStore.lookup_store_results h₁]

variable (unmarshalPublicKey) in
/-- **The results of the two stores agree.** The badger store holds the memory store's results
under each hash that has some, and nothing under any other hash; and the memory store holds
results for each block it holds, one for each transaction. -/
structure ResultsAgree (bs : BlockStore) (ms : MemBS) : Prop where
  held : ∀ h rs, ms.txResults.lookup h = some rs → HoldsResults unmarshalPublicKey bs h rs
  unheld : ∀ h, ms.txResults.lookup h = none → HoldsNoResults bs h
  counts : ∀ h, (ms.txResults.lookup h).map List.length = (ms.blocks.lookup h).map (·.txns.length)

lemma ResultsAgree.empty : ResultsAgree unmarshalPublicKey BlockStore.empty MemBS.empty where
  held _ _ h := by cases h
  unheld _ _ := ⟨rfl, fun _ _ h => by cases h⟩
  counts _ := rfl

/-- **One commit of each**, of a block whose transactions `GetTx` reads, with one result for each
transaction that `StoreResults` writes and reads back, under a hash that names no other block
held. -/
theorem ResultsAgree.commit (ha : ResultsAgree unmarshalPublicKey bs ms)
    (h : bs.commit blockHash txHash blk ci results = .ok bs')
    (hm : ms.commit blockHash txHash blk ci results = .ok ms')
    (hr : TxReadable unmarshalPublicKey blk) (hcount : results.length = blk.txns.length)
    (hfit : ∀ r ∈ results, r.events.length ≤ 65535 ∧ r.log.length < 2 ^ 32)
    (hcf : ∀ b, ms.blocks.lookup (blockHash blk) = some b → b = blk) :
    ResultsAgree unmarshalPublicKey bs' ms' := by
  have hother := fun h' (hne : h' ≠ blockHash blk) => BlockStore.lookup_commit_of_ne h hne
  obtain ⟨bs₁, h₁, h₂⟩ := bind_eq_ok.mp h
  obtain ⟨hb, hhb, hhdr⟩ := BlockStore.lookup_store_header h₁
  rw [BlockStore.storeResults_eq (fun r hr => (hfit r hr).1)] at h₂
  cases h₂
  obtain ⟨ms₁, hm₁, hm₂⟩ := bind_eq_ok.mp hm
  cases hm₁
  cases hm₂
  have h32 : results.length ≤ 2 ^ 32 := by
    have := blk.header.numTxns.toNat_lt
    rw [hr.numTxns] at this
    omega
  constructor
  case held =>
    intro h' rs hrs
    by_cases hh : h' = blockHash blk
    · subst hh
      simp only [MemBS.storeResults, AList.lookup_insert, Option.some.injEq] at hrs
      subst hrs
      -- the new block's header and results, over whatever was under its prefix
      refine ⟨⟨hb ++ blk.signature, blk.header, blk.signature, ?_, hr.decodeBlockHeader hhb,
        hr.numTxns.trans hcount.symm⟩, fun i hi => ⟨_, lookup_writeResults_self _ h32 hi,
          TxResult.zero_unmarshalBinary (TxResult.marshalBinary_of_le (hfit _ (List.getElem_mem hi)).1)
            (hfit _ (List.getElem_mem hi)).2⟩, fun k v hv hp => ?_⟩
      · rw [lookup_writeResults_of_ne _ fun i _ he => not_prefix_header _ _
          (he ▸ prefix_resultKey_iff.mpr rfl), hhdr, if_pos rfl]
      · by_cases hk : ∃ i < results.length, k = resultKey (blockHash blk) i
        · exact hk
        exfalso
        simp only [not_exists, not_and] at hk
        rw [lookup_writeResults_of_ne _ hk] at hv
        obtain ⟨x, rfl⟩ := eq_nsResults_append hp
        rw [BlockStore.lookup_store_results h₁] at hv
        -- a key from before is of an earlier result of the block, which had as many
        cases hold : ms.txResults.lookup (blockHash blk) with
        | none => exact (ha.unheld _ hold).keys _ v hv hp
        | some old =>
          obtain ⟨j, hj, hkj⟩ := (ha.held _ old hold).keys _ v hv hp
          have hc := ha.counts (blockHash blk)
          rw [hold, Option.map_some] at hc
          obtain ⟨b, hb', hlen⟩ := Option.map_eq_some_iff.mp hc.symm
          rw [hcf b hb'] at hlen
          exact hk j (by omega) hkj
    · rw [MemBS.storeResults, AList.lookup_insert_ne hh] at hrs
      exact (ha.held h' rs hrs).of_agree (hother h' hh).1 (hother h' hh).2
  case unheld =>
    intro h' hn
    have hh : h' ≠ blockHash blk := by
      rintro rfl
      simp [MemBS.storeResults, AList.lookup_insert] at hn
    rw [MemBS.storeResults, AList.lookup_insert_ne hh] at hn
    exact (ha.unheld h' hn).of_agree (hother h' hh).1 (hother h' hh).2
  case counts =>
    intro h'
    by_cases hh : h' = blockHash blk
    · subst hh
      simp [MemBS.storeResults, AList.lookup_insert, hcount]
    · simpa [MemBS.storeResults, AList.lookup_insert_ne hh] using ha.counts h'

/-- Where the results agree, `Results` on the badger store is the memory store's without the gas,
or badger's `ErrKeyNotFound`. -/
lemma ResultsAgree.results_eq (ha : ResultsAgree unmarshalPublicKey bs ms) (h : Hash) :
    bs.results unmarshalPublicKey h = match ms.results h with
      | .ok rs => .ok (rs.map TxResult.withoutGas)
      | .error _ => .error (.error errKeyNotFound) := by
  cases hl : ms.txResults.lookup h with
  | none => simp [MemBS.results, hl, (ha.unheld h hl).results_eq]
  | some rs => simp [MemBS.results, hl, (ha.held h rs hl).results_eq]

/-- And so is `Result`. -/
lemma ResultsAgree.result_eq (ha : ResultsAgree unmarshalPublicKey bs ms) (h : Hash)
    (idx : UInt32) :
    bs.result h idx = match ms.result h idx with
      | .ok r => .ok r.withoutGas
      | .error _ => .error (.error errKeyNotFound) := by
  cases hl : ms.txResults.lookup h with
  | none => simp [MemBS.result, hl, (ha.unheld h hl).result_eq]
  | some rs =>
    rw [(ha.held h rs hl).result_eq, MemBS.result, hl]
    by_cases hi : idx.toNat < rs.length <;> simp [hi]

/-- `StoreResults` leaves every key of another namespace. -/
lemma BlockStore.lookup_storeResults_of_ns {hash : Hash} {rs : List TxResult}
    (h : bs.storeResults hash rs = .ok bs') (ns : Bytes) (hl : ns.length = nsResults.length)
    (hn : ns ≠ nsResults) (x : Bytes) : bs'.db.lookup (ns ++ x) = bs.db.lookup (ns ++ x) :=
  BlockStore.lookup_storeResults_outside h (not_prefix_of_ns_ne nsResults ns hl.symm hn.symm)

/-- `StoreResults` keeps the relation of `Have`, `Get`, `GetByHeight` and `HaveTx`. -/
lemma Refines.storeResults (hr : Refines unmarshalPublicKey bs ms) {hash : Hash}
    {rs : List TxResult} (h : bs.storeResults hash rs = .ok bs') :
    Refines unmarshalPublicKey bs' (ms.storeResults hash rs) := by
  have hb := BlockStore.lookup_storeResults_of_ns h nsBlock rfl (by decide)
  have hc := BlockStore.lookup_storeResults_of_ns h nsCommitInfo rfl (by decide)
  have ht := BlockStore.lookup_storeResults_of_ns h nsTxn rfl (by decide)
  obtain ⟨db, -, rfl⟩ := BlockStore.storeResults_eq_ok h
  refine ⟨hr.idx, hr.hashes, hr.blocks, fun h' b hb' => ?_, hr.atHeight, fun t => ?_⟩
  · obtain ⟨ci, hci, hget⟩ := hr.get h' b hb'
    have hg : BlockStore.get unmarshalPublicKey { bs with db } h' = bs.get unmarshalPublicKey h' :=
      BlockStore.get_congr rfl (hb _) (hc _)
    exact ⟨ci, hci, hg.trans hget⟩
  · exact (congrArg Option.isSome (ht _)).trans (hr.txs t)

/-- `StoreResults` keeps the transaction indexes alike. -/
lemma TxIndexed.storeResults (hx : TxIndexed blockHash txHash unmarshalPublicKey bs ms)
    {hash : Hash} {rs : List TxResult} (h : bs.storeResults hash rs = .ok bs') :
    TxIndexed blockHash txHash unmarshalPublicKey bs' (ms.storeResults hash rs) := by
  have hb := BlockStore.lookup_storeResults_of_ns h nsBlock rfl (by decide)
  have ht := BlockStore.lookup_storeResults_of_ns h nsTxn rfl (by decide)
  refine ⟨fun h' b hb' => ?_, fun t => ?_⟩
  · obtain ⟨hkey, hr, hnd, rawBlk, henc, hraw⟩ := hx.blocks h' b hb'
    exact ⟨hkey, hr, hnd, rawBlk, henc, (hb _).trans hraw⟩
  · rcases hx.txs t with ⟨hm, hn⟩ | ⟨h'', b, i, hid, hblk, hi, hval⟩
    · exact .inl ⟨hm, (ht _).trans hn⟩
    · exact .inr ⟨h'', b, i, hid, hblk, hi, (ht _).trans hval⟩

variable (unmarshalPublicKey txHash) in
/-- **A commit the stores take alike.** Its block and commit info read back, `GetTx` reads the
block's transactions, which hold no hash twice, and there is one result for each transaction, with
its events counted in a `uint16` and its log's length in a `uint32`. -/
structure Committable (c : Block × CommitInfo ParamUpdates × List TxResult) : Prop where
  readsBack : ReadsBack unmarshalPublicKey c.1 c.2.1
  storable : TxStorable txHash unmarshalPublicKey (c.1, c.2.1)
  count : c.2.2.length = c.1.txns.length
  fits : ∀ r ∈ c.2.2, r.events.length ≤ 65535 ∧ r.log.length < 2 ^ 32

variable (unmarshalPublicKey blockHash txHash) in
/-- **The stores agree in all they answer**: the index, the blocks and commit infos, the
transactions and the results. -/
structure CommitsAgree (bs : BlockStore) (ms : MemBS) : Prop where
  refines : Refines unmarshalPublicKey bs ms
  txIndexed : TxIndexed blockHash txHash unmarshalPublicKey bs ms
  results : ResultsAgree unmarshalPublicKey bs ms

lemma CommitsAgree.empty :
    CommitsAgree blockHash txHash unmarshalPublicKey BlockStore.empty MemBS.empty :=
  ⟨Refines.empty, TxIndexed.empty, ResultsAgree.empty⟩

/-- **One commit of each**, under a hash that names no other block held: both stores take it, and
they agree after. -/
theorem CommitsAgree.commit (ha : CommitsAgree blockHash txHash unmarshalPublicKey bs ms)
    {c : Block × CommitInfo ParamUpdates × List TxResult}
    (hc : Committable txHash unmarshalPublicKey c)
    (hcf : ∀ b, ms.blocks.lookup (blockHash c.1) = some b → b = c.1) :
    ∃ bs' ms', bs.commit blockHash txHash c.1 c.2.1 c.2.2 = .ok bs' ∧
      ms.commit blockHash txHash c.1 c.2.1 c.2.2 = .ok ms' ∧
        CommitsAgree blockHash txHash unmarshalPublicKey bs' ms' := by
  obtain ⟨bs₁, ms₁, h₁, hm₁, hr₁⟩ : ∃ bs₁ ms₁, bs.store blockHash txHash c.1 c.2.1 = .ok bs₁ ∧
      ms.store blockHash txHash c.1 (some c.2.1) = .ok ms₁ ∧ Refines unmarshalPublicKey bs₁ ms₁ :=
    ha.refines.store hc.readsBack fun b hb => by rw [hcf b hb]
  have hx₁ := ha.txIndexed.store h₁ hm₁ hc.storable.readable hc.storable.distinct hcf
  obtain ⟨bs', h₂⟩ : ∃ bs', bs₁.storeResults (blockHash c.1) c.2.2 = .ok bs' :=
    ⟨_, BlockStore.storeResults_eq (fun r hr => (hc.fits r hr).1) bs₁ (blockHash c.1)⟩
  have h : bs.commit blockHash txHash c.1 c.2.1 c.2.2 = .ok bs' := by
    rw [BlockStore.commit, h₁]
    exact h₂
  have hm : ms.commit blockHash txHash c.1 c.2.1 c.2.2 =
      .ok (ms₁.storeResults (blockHash c.1) c.2.2) := by
    rw [MemBS.commit, hm₁]
    rfl
  exact ⟨_, _, h, hm, hr₁.storeResults h₂, hx₁.storeResults h₂,
    ha.results.commit h hm hc.storable.readable hc.count hc.fits hcf⟩

/-- **A run of commits of each**, in which no hash names two blocks. -/
theorem CommitsAgree.commitAll (ha : CommitsAgree blockHash txHash unmarshalPublicKey bs ms)
    {commits : List (Block × CommitInfo ParamUpdates × List TxResult)}
    (hc : ∀ c ∈ commits, Committable txHash unmarshalPublicKey c)
    (hcf : ∀ c ∈ commits, ∀ d ∈ commits, blockHash c.1 = blockHash d.1 → c.1 = d.1)
    (hold : ∀ c ∈ commits, ∀ b, ms.blocks.lookup (blockHash c.1) = some b → b = c.1) :
    ∃ bs' ms', bs.commitAll blockHash txHash commits = .ok bs' ∧
      ms.commitAll blockHash txHash commits = .ok ms' ∧
        CommitsAgree blockHash txHash unmarshalPublicKey bs' ms' := by
  -- the relation carries the commits still to come, and what the memory store holds of them
  let R : List (Block × CommitInfo ParamUpdates × List TxResult) → BlockStore → MemBS → Prop :=
    fun rest bs ms => CommitsAgree blockHash txHash unmarshalPublicKey bs ms ∧
      (∀ c ∈ rest, Committable txHash unmarshalPublicKey c) ∧
      (∀ c ∈ rest, ∀ d ∈ rest, blockHash c.1 = blockHash d.1 → c.1 = d.1) ∧
      ∀ c ∈ rest, ∀ b, ms.blocks.lookup (blockHash c.1) = some b → b = c.1
  obtain ⟨bs', ms', hbs, hms, hR⟩ := foldlM_lockstep R (fun c rest bs ms ⟨ha, hc, hcf, hold⟩ => by
      obtain ⟨bs₁, ms₁, h₁, hm₁, ha₁⟩ := ha.commit (hc c List.mem_cons_self)
        (hold c List.mem_cons_self)
      refine ⟨bs₁, ms₁, h₁, hm₁, ha₁, fun d hd => hc d (List.mem_cons_of_mem _ hd),
        fun d hd d' hd' => hcf d (List.mem_cons_of_mem _ hd) d' (List.mem_cons_of_mem _ hd'),
        fun d hd b hb => ?_⟩
      -- a block committed now is the block of any later commit of its hash
      obtain ⟨ms₂, hms₂, hpure⟩ := bind_eq_ok.mp hm₁
      obtain rfl : ms₂.storeResults (blockHash c.1) c.2.2 = ms₁ := Except.ok.inj hpure
      cases hms₂
      by_cases hh : blockHash d.1 = blockHash c.1
      · rw [MemBS.storeResults, hh, AList.lookup_insert] at hb
        obtain rfl := Option.some.inj hb
        exact hcf c List.mem_cons_self d (List.mem_cons_of_mem _ hd) hh.symm
      · rw [MemBS.storeResults, AList.lookup_insert_ne hh] at hb
        exact hold d (List.mem_cons_of_mem _ hd) b hb)
    commits bs ms ⟨ha, hc, hcf, hold⟩
  exact ⟨bs', ms', hbs, hms, hR.1⟩

/-- `MemBS.Result` fails with an error, never with a panic. -/
lemma MemBS.result_ne_panic (ms : MemBS) (h : Hash) (idx : UInt32) (msg : String) :
    ms.result h idx ≠ .error (.panic msg) := by
  unfold MemBS.result
  split
  · simp
  · split <;> simp

/-- A transaction the memory store's `GetTx` finds is in a block held under the hash it answers
with. -/
lemma TxIndexed.getTx_block (hx : TxIndexed blockHash txHash unmarshalPublicKey bs ms)
    {t H : Hash} {tx : Option Transaction} {height : Int64} {idx : UInt32}
    (h : ms.getTx blockHash txHash t = .ok (tx, height, H, idx)) :
    ∃ blk, ms.blocks.lookup H = some blk := by
  cases hid : ms.txIds.lookup t with
  | none => simp [MemBS.getTx, hid] at h
  | some h' =>
    cases hb : ms.blocks.lookup h' with
    | none => simp [MemBS.getTx, hid, hb] at h
    | some blk =>
      cases hf : blk.txns.zipIdx.find? (fun p => txHash p.1 == t) with
      | none => simp [MemBS.getTx, hid, hb, hf] at h
      | some p =>
        simp only [MemBS.getTx, hid, hb, hf, Except.ok.injEq, Prod.mk.injEq] at h
        obtain ⟨-, -, rfl, -⟩ := h
        exact ⟨blk, (hx.blocks h' blk hb).1 ▸ hb⟩

end Agree

section Runs

variable {blockHash : Block → Hash} {txHash : Transaction → Hash}
  {unmarshalPublicKey : Bytes → KeyType → Except String PublicKey}

/-- **`Results` and `Result` agree along commits, but for the gas.** Along any run of commits that
both stores take alike, in which no hash names two blocks, both stores succeed. The badger store
answers `Results` and `Result` with the memory store's results without their gas, and where the
memory store has none, with badger's `ErrKeyNotFound` in place of `ErrNotFound`. -/
theorem commits_results_refine
    {commits : List (Block × CommitInfo ParamUpdates × List TxResult)}
    (hc : ∀ c ∈ commits, Committable txHash unmarshalPublicKey c)
    (hcf : ∀ c ∈ commits, ∀ d ∈ commits, blockHash c.1 = blockHash d.1 → c.1 = d.1) :
    ∃ bs ms, BlockStore.empty.commitAll blockHash txHash commits = .ok bs ∧
      MemBS.empty.commitAll blockHash txHash commits = .ok ms ∧
      (∀ h, bs.results unmarshalPublicKey h = match ms.results h with
        | .ok rs => .ok (rs.map TxResult.withoutGas)
        | .error _ => .error (.error errKeyNotFound)) ∧
      ∀ h idx, bs.result h idx = match ms.result h idx with
        | .ok r => .ok r.withoutGas
        | .error _ => .error (.error errKeyNotFound) := by
  obtain ⟨bs, ms, hbs, hms, ha⟩ :=
    CommitsAgree.empty.commitAll hc hcf fun _ _ _ h => by cases h
  exact ⟨bs, ms, hbs, hms, ha.results.results_eq, ha.results.result_eq⟩

/-- The commit of a block of one transaction, whose result used some gas. -/
def oneTxCommit : Block × CommitInfo ParamUpdates × List TxResult :=
  (blockWith [emptyTx], commitOf zeroHash, [⟨0, 21, [], []⟩])

lemma committable_oneTxCommit : Committable (fun _ => zeroHash) anyKey oneTxCommit := by
  obtain ⟨ciBytes, hm, hu⟩ := @commitInfo_readsBack_of_empty anyKey zeroHash
  exact ⟨⟨rfl, ⟨_, rfl, by decide +kernel⟩, ciBytes, hm, hu⟩,
    ⟨⟨rfl, (fun _ h => by cases h), _, rfl, by decide +kernel⟩, by decide, ciBytes, hm⟩, rfl,
    by decide⟩

/-- That commit, under the merkle root as the block's hash. -/
theorem commits_results_refine_one :
    ∃ bs ms, BlockStore.empty.commitAll (·.header.merkleRoot) (fun _ => zeroHash) [oneTxCommit] =
        .ok bs ∧
      MemBS.empty.commitAll (·.header.merkleRoot) (fun _ => zeroHash) [oneTxCommit] = .ok ms ∧
      (∀ h, bs.results anyKey h = match ms.results h with
        | .ok rs => .ok (rs.map TxResult.withoutGas)
        | .error _ => .error (.error errKeyNotFound)) ∧
      ∀ h idx, bs.result h idx = match ms.result h idx with
        | .ok r => .ok r.withoutGas
        | .error _ => .error (.error errKeyNotFound) :=
  commits_results_refine
    (fun c hc => by rw [List.mem_singleton.mp hc]; exact committable_oneTxCommit)
    (fun c hc d hd _ => by rw [List.mem_singleton.mp hc, List.mem_singleton.mp hd])

end Runs

end KwilDb.Store
