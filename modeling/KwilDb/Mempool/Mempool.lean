import KwilDb.Core.Types
import KwilDb.Lib.Run
import KwilDb.Lib.Slices

/-!
# The mempool

`node/mempool` keeps the transactions a node has accepted and not yet put in a block: a map
`txns` from hash to the transaction and its size, the queue `txQ` of the same transactions in
the order they came, and the count `currentSize` of the bytes stored, under a cap `maxSize`.
Three calls take transactions out, each its own way: `Remove` at the position a search of the
queue finds, `ReapN` a prefix, and `RecheckTxs` the positions a scan picked, deleted from the
highest down.

The map and the counter keep the books of a queue `q` (`Tracks`) when the hashes of `q` are
distinct and are the keys of the map, every entry's size is its transaction's, and the counter
is the sum of the sizes. Each way of taking transactions out is `dropEntry` on the books and a
filter on the queue (`remove_eq`, `reapN_cases`, `foldl_recheckRemove`), and `dropEntry` keeps
the books of the filtered queue (`Tracks.dropEntry`); a store adds an entry and a queue element
together (`Tracks.insert`). So every call keeps the books, the queue only loses elements or
gains one at its end, and the counter grows only on a store that fits under the cap
(`Op.exec_inv`). This holds over every run from `New` with a cap that is not negative, and there
`PeekN` returns a prefix of the queue within its count and its byte limit
(`reachable_mempool_inv`).

`New` with a negative cap starts over it, and `PeekN` with a negative count panics
(`new_over_cap_peekN_panics`).

The transaction is a parameter: the pool reads only its hash and its size.
-/

namespace KwilDb.Node

open KwilDb.Lib KwilDb.Core Relation

variable {τ : Type}

/-- `sizedTx`: a stored transaction and its size in bytes. -/
structure SizedTx (τ : Type) where
  tx : τ
  size : ℤ

/-- `Mempool`, less its lock. -/
structure Mempool (τ : Type) where
  txns : GoMap Hash (SizedTx τ)
  txQ : List τ
  fetching : GoMap Hash Bool
  currentSize : ℤ
  maxSize : ℤ
  maxTxSize : ℤ

/-- `New`. -/
def new (sz txSz : ℤ) : Mempool τ := ⟨∅, [], ∅, 0, sz, txSz⟩

def setMaxSize (maxBytes : ℤ) (mp : Mempool τ) : Mempool τ := { mp with maxSize := maxBytes }

def setMaxTxSize (maxBytes : ℤ) (mp : Mempool τ) : Mempool τ := { mp with maxTxSize := maxBytes }

def capMaxTxSize (maxBlockSize : ℤ) (mp : Mempool τ) : Mempool τ :=
  { mp with maxTxSize := min mp.maxTxSize maxBlockSize }

/-- The loop body of `ReapN`: a stored transaction's size off the counter and its entry out of
the map; nothing for a hash that is not stored. -/
def dropEntry (txid : Hash) (mp : Mempool τ) : Mempool τ :=
  match mp.txns.lookup txid with
  | none => mp
  | some tx => { mp with currentSize := mp.currentSize - tx.size, txns := mp.txns.erase txid }

/-- `PreFetch`: whether to fetch, and the pool. The `done` function it returns is `fetchDone`. -/
def preFetch (txid : Hash) (mp : Mempool τ) : Bool × Mempool τ :=
  if txid ∈ mp.txns then (false, mp)
  else if (mp.fetching.lookup txid).getD false then (false, mp)
  else (true, { mp with fetching := mp.fetching.insert txid true })

def fetchDone (txid : Hash) (mp : Mempool τ) : Mempool τ :=
  { mp with fetching := mp.fetching.erase txid }

/-- One deletion of `RecheckTxs`: the size comes off if the entry is there, and the entry and
the queue position go in any case. -/
def recheckRemove (mp : Mempool τ) (itx : ℕ × Hash) : Mempool τ :=
  let mp := match mp.txns.lookup itx.2 with
    | some tx => { mp with currentSize := mp.currentSize - tx.size }
    | none => mp
  { mp with txns := mp.txns.erase itx.2, txQ := mp.txQ.eraseIdx itx.1 }

section Calls

variable (txHash : τ → Hash) (serializeSize : τ → ℕ)

/-- `remove`: forget the fetch; for a stored hash, its size and entry out of the books and its
transaction out of the queue at the position `slices.IndexFunc` finds. -/
def remove (txid : Hash) (mp : Mempool τ) : Mempool τ :=
  let mp := { mp with fetching := mp.fetching.erase txid }
  match mp.txns.lookup txid with
  | none => mp
  | some tx =>
    let mp := { mp with currentSize := mp.currentSize - tx.size, txns := mp.txns.erase txid }
    match mp.txQ.findIdx? (fun a => txHash a = txid) with
    | some idx => { mp with txQ := mp.txQ.eraseIdx idx }
    | none => mp

/-- `Store`: the pool and the error returned. -/
def store (tx : τ) (mp : Mempool τ) : Mempool τ × Except String Unit :=
  let txid := txHash tx
  let mp := { mp with fetching := mp.fetching.erase txid }
  if txid ∈ mp.txns then (mp, .error "transaction already exists")
  else
    let sz : ℤ := serializeSize tx
    if sz > mp.maxTxSize then (mp, .error "transaction size limit exceeded")
    else if mp.currentSize + sz > mp.maxSize then (mp, .error "mempool is full")
    else
      ({ mp with
          currentSize := mp.currentSize + sz
          txns := mp.txns.insert txid ⟨tx, sz⟩
          txQ := mp.txQ ++ [tx] }, .ok ())

/-- `ReapN`: the first `min n len(txQ)` transactions, cut off the queue and then taken out of the
books one by one. A negative count panics at the slice expression. -/
def reapN (n : ℤ) (mp : Mempool τ) : Except Failure (List τ × Mempool τ) :=
  let n := min n (mp.txQ.length : ℤ)
  if n < 0 then .error (.panic s!"runtime error: slice bounds out of range [:{n}]")
  else
    let txns := mp.txQ.take n.toNat
    let mp := { mp with txQ := mp.txQ.drop n.toNat }
    .ok (txns, txns.foldl (fun mp tx => dropEntry (txHash tx) mp) mp)

/-- The loop of `PeekN` from the running total `totalPickedSz`: under a positive limit, stop at
the first transaction that would take the total over it. -/
def peekLoop (szLimit : ℤ) : ℤ → List τ → List τ
  | _, [] => []
  | totalPickedSz, tx :: txs =>
    if szLimit > 0 then
      let txSz : ℤ := serializeSize tx
      if txSz + totalPickedSz > szLimit then []
      else tx :: peekLoop szLimit (totalPickedSz + txSz) txs
    else tx :: peekLoop szLimit totalPickedSz txs

/-- `PeekN`. The count is cut to the number of entries of the map: a negative count panics at the
`make`, and a count past the end of the queue at the slice (the capacity of the queue's array,
which Go would let the slice reach, is not modelled). -/
def peekN (n szLimit : ℤ) (mp : Mempool τ) : Except Failure (List τ) :=
  let n := min n (mp.txns.entries.length : ℤ)
  if n < 0 then .error (.panic "runtime error: makeslice: cap out of range")
  else if (mp.txQ.length : ℤ) < n then .error (.panic "runtime error: slice bounds out of range")
  else .ok (peekLoop serializeSize szLimit 0 (mp.txQ.take n.toNat))

/-- The scan of `RecheckTxs` over the queue from position `idx`: the positions and hashes of the
transactions over `maxTxSize` and of those the check fails (`fn idx tx` is whether it returned
an error), in queue order. A transaction not in the map is passed over. -/
def recheckScan (mp : Mempool τ) (fn : ℕ → τ → Bool) : ℕ → List τ → List (ℕ × Hash)
  | _, [] => []
  | idx, tx :: txs =>
    match mp.txns.lookup (txHash tx) with
    | none => recheckScan mp fn (idx + 1) txs
    | some rawTx =>
      if rawTx.size > mp.maxTxSize then (idx, txHash tx) :: recheckScan mp fn (idx + 1) txs
      else if fn idx tx then (idx, txHash tx) :: recheckScan mp fn (idx + 1) txs
      else recheckScan mp fn (idx + 1) txs

/-- `RecheckTxs`: scan the queue, then delete from the last position picked to the first. -/
def recheckTxs (fn : ℕ → τ → Bool) (mp : Mempool τ) : Mempool τ :=
  let toRemove := recheckScan txHash mp fn 0 mp.txQ
  if toRemove.length = 0 then mp
  else toRemove.reverse.foldl recheckRemove mp

/-- The calls on a pool. A `RecheckTxs` carries the outcomes of its check. -/
inductive Op (τ : Type) where
  | store (tx : τ)
  | remove (txid : Hash)
  | reapN (n : ℤ)
  | peekN (n szLimit : ℤ)
  | preFetch (txid : Hash)
  | fetchDone (txid : Hash)
  | recheckTxs (fn : ℕ → τ → Bool)
  | setMaxSize (maxBytes : ℤ)
  | setMaxTxSize (maxBytes : ℤ)
  | capMaxTxSize (maxBlockSize : ℤ)

/-- A pool with a ghost log of the transactions stored, in order, and whether `SetMaxSize` has
ever lowered the cap. -/
structure Traced (τ : Type) where
  pool : Mempool τ
  stored : List τ
  lowered : Bool

/-- One call. A call that panics has written nothing before the panic, and leaves the pool as it
was. -/
def Op.exec : Op τ → Traced τ → Traced τ
  | .store tx, s =>
    match Node.store txHash serializeSize tx s.pool with
    | (mp, .ok ()) => ⟨mp, s.stored ++ [tx], s.lowered⟩
    | (mp, .error _) => { s with pool := mp }
  | .remove txid, s => { s with pool := Node.remove txHash txid s.pool }
  | .reapN n, s =>
    match Node.reapN txHash n s.pool with
    | .ok (_, mp) => { s with pool := mp }
    | .error _ => s
  | .peekN _ _, s => s
  | .preFetch txid, s => { s with pool := (Node.preFetch txid s.pool).2 }
  | .fetchDone txid, s => { s with pool := Node.fetchDone txid s.pool }
  | .recheckTxs fn, s => { s with pool := Node.recheckTxs txHash fn s.pool }
  | .setMaxSize m, s =>
    ⟨Node.setMaxSize m s.pool, s.stored, s.lowered || decide (m < s.pool.maxSize)⟩
  | .setMaxTxSize m, s => { s with pool := Node.setMaxTxSize m s.pool }
  | .capMaxTxSize m, s => { s with pool := Node.capMaxTxSize m s.pool }

/-- A step of a run: some call. -/
def Step (s t : Traced τ) : Prop := ∃ op : Op τ, t = op.exec txHash serializeSize s

/-- The map and the counter of `mp` keep the books of the queue `q`. -/
structure Tracks (q : List τ) (mp : Mempool τ) : Prop where
  nodup : (q.map txHash).Nodup
  mem_txns : ∀ h, h ∈ mp.txns ↔ h ∈ q.map txHash
  size_eq : ∀ {h v}, mp.txns.lookup h = some v → v.size = serializeSize v.tx
  currentSize_eq : mp.currentSize = mapSum SizedTx.size mp.txns

/-- The representation invariant: the books are those of the pool's own queue. -/
def Inv (mp : Mempool τ) : Prop := Tracks txHash serializeSize mp.txQ mp

/-- A call that only takes transactions out: the books stay right, the queue loses elements,
the counter does not grow and the cap stays. -/
structure Shrinks (mp mp' : Mempool τ) : Prop where
  inv : Inv txHash serializeSize mp'
  sublist : mp'.txQ.Sublist mp.txQ
  currentSize_le : mp'.currentSize ≤ mp.currentSize
  maxSize_eq : mp'.maxSize = mp.maxSize

/-- The invariant of a traced pool: the books, the queue in the order of the log, and the cap
kept while it was never lowered. -/
structure TracedInv (s : Traced τ) : Prop where
  inv : Inv txHash serializeSize s.pool
  sublist : s.pool.txQ.Sublist s.stored
  bound : s.lowered = false → s.pool.currentSize ≤ s.pool.maxSize

end Calls

/-! ### Taking entries out of the books -/

section DropEntry

variable {mp : Mempool τ} {txid : Hash}

lemma dropEntry_of_lookup_none (hv : mp.txns.lookup txid = none) : dropEntry txid mp = mp := by
  simp only [dropEntry, hv]

lemma dropEntry_of_lookup_some {v : SizedTx τ} (hv : mp.txns.lookup txid = some v) :
    dropEntry txid mp =
      { mp with currentSize := mp.currentSize - v.size, txns := mp.txns.erase txid } := by
  simp only [dropEntry, hv]

@[simp] lemma dropEntry_txQ : (dropEntry txid mp).txQ = mp.txQ := by
  unfold dropEntry
  split <;> rfl

@[simp] lemma dropEntry_maxSize : (dropEntry txid mp).maxSize = mp.maxSize := by
  unfold dropEntry
  split <;> rfl

lemma dropEntry_setTxQ (q : List τ) : dropEntry txid { mp with txQ := q } =
    { dropEntry txid mp with txQ := q } := by
  cases hv : mp.txns.lookup txid <;> simp only [dropEntry, hv]

/-- `dropEntry` for each hash in turn. -/
def dropEntries (hs : List Hash) (mp : Mempool τ) : Mempool τ :=
  hs.foldl (fun mp h => dropEntry h mp) mp

@[simp] lemma dropEntries_cons (h : Hash) (hs : List Hash) :
    dropEntries (h :: hs) mp = dropEntries hs (dropEntry h mp) := rfl

@[simp] lemma dropEntries_txQ (hs : List Hash) : (dropEntries hs mp).txQ = mp.txQ := by
  induction hs generalizing mp with
  | nil => rfl
  | cons h hs ih => rw [dropEntries_cons, ih, dropEntry_txQ]

@[simp] lemma dropEntries_maxSize (hs : List Hash) :
    (dropEntries hs mp).maxSize = mp.maxSize := by
  induction hs generalizing mp with
  | nil => rfl
  | cons h hs ih => rw [dropEntries_cons, ih, dropEntry_maxSize]

lemma dropEntries_setTxQ (hs : List Hash) (q : List τ) :
    dropEntries hs { mp with txQ := q } = { dropEntries hs mp with txQ := q } := by
  induction hs generalizing mp with
  | nil => rfl
  | cons h hs ih => rw [dropEntries_cons, dropEntries_cons, dropEntry_setTxQ, ih]

/-- The deletion of `RecheckTxs` is `dropEntry` and a deletion from the queue. -/
lemma recheckRemove_eq (i : ℕ) (h : Hash) :
    recheckRemove mp (i, h) = { dropEntry h mp with txQ := mp.txQ.eraseIdx i } := by
  cases hv : mp.txns.lookup h with
  | none =>
    rw [dropEntry_of_lookup_none hv]
    simp only [recheckRemove, hv, erase_of_lookup_none hv]
  | some v => simp only [recheckRemove, hv, dropEntry_of_lookup_some hv]

/-- **The deletion loop of `RecheckTxs`**: the books lose the hashes, and the queue the positions,
each in the loop's order. -/
lemma foldl_recheckRemove (l : List (ℕ × Hash)) (mp : Mempool τ) :
    l.foldl recheckRemove mp =
      { dropEntries (l.map Prod.snd) mp with txQ := (l.map Prod.fst).foldl List.eraseIdx mp.txQ } := by
  induction l generalizing mp with
  | nil => rfl
  | cons p l ih =>
    obtain ⟨i, h⟩ := p
    rw [List.foldl_cons, ih, recheckRemove_eq, dropEntries_setTxQ]
    rfl

end DropEntry

section Books

variable {txHash : τ → Hash} {serializeSize : τ → ℕ} {q : List τ} {mp mp' : Mempool τ}

/-- The books read only the map and the counter. -/
lemma Tracks.of_eq (hq : Tracks txHash serializeSize q mp) (htxns : mp'.txns = mp.txns)
    (hsize : mp'.currentSize = mp.currentSize) : Tracks txHash serializeSize q mp' where
  nodup := hq.nodup
  mem_txns h := by rw [htxns]; exact hq.mem_txns h
  size_eq hv := hq.size_eq (htxns ▸ hv)
  currentSize_eq := by rw [hsize, htxns]; exact hq.currentSize_eq

lemma Tracks.size_nonneg (hq : Tracks txHash serializeSize q mp) {h : Hash} {v : SizedTx τ}
    (hv : mp.txns.lookup h = some v) : 0 ≤ v.size := by
  rw [hq.size_eq hv]
  exact Int.natCast_nonneg _

lemma Tracks.not_mem_of_lookup_none (hq : Tracks txHash serializeSize q mp) {txid : Hash}
    (hv : mp.txns.lookup txid = none) : txid ∉ q.map txHash := by
  rw [← hq.mem_txns]
  exact AList.lookup_eq_none.mp hv

/-- Filtering out a hash that is not queued keeps the queue. -/
lemma filter_ne_of_not_mem {txid : Hash} (h : txid ∉ q.map txHash) :
    q.filter (fun tx => txHash tx ≠ txid) = q :=
  List.filter_eq_self.mpr fun tx htx => by
    simpa using fun he : txHash tx = txid => h (he ▸ List.mem_map_of_mem htx)

/-- **One entry out.** Taking a hash out of the books keeps the books of the queue without it. -/
theorem Tracks.dropEntry (hq : Tracks txHash serializeSize q mp) (txid : Hash) :
    Tracks txHash serializeSize (q.filter fun tx => txHash tx ≠ txid) (Node.dropEntry txid mp) := by
  cases hv : mp.txns.lookup txid with
  | none =>
    rw [dropEntry_of_lookup_none hv, filter_ne_of_not_mem (hq.not_mem_of_lookup_none hv)]
    exact hq
  | some v =>
    rw [dropEntry_of_lookup_some hv]
    refine ⟨hq.nodup.sublist (List.filter_sublist.map _), fun h => ?_, fun {h w} hw => ?_, ?_⟩
    · simp only [AList.mem_erase, hq.mem_txns, List.mem_map, List.mem_filter]
      constructor
      · rintro ⟨hne, tx, htx, rfl⟩
        exact ⟨tx, ⟨htx, by simpa using hne⟩, rfl⟩
      · rintro ⟨tx, ⟨htx, hne⟩, rfl⟩
        exact ⟨by simpa using hne, tx, htx, rfl⟩
    · by_cases hh : h = txid
      · subst hh
        simp [AList.lookup_erase] at hw
      · rw [AList.lookup_erase_ne hh] at hw
        exact hq.size_eq hw
    · show mp.currentSize - v.size = mapSum SizedTx.size (mp.txns.erase txid)
      rw [mapSum_erase _ hv, hq.currentSize_eq]

lemma Tracks.currentSize_dropEntry_le (hq : Tracks txHash serializeSize q mp) (txid : Hash) :
    (Node.dropEntry txid mp).currentSize ≤ mp.currentSize := by
  cases hv : mp.txns.lookup txid with
  | none => rw [dropEntry_of_lookup_none hv]
  | some v =>
    rw [dropEntry_of_lookup_some hv]
    have := hq.size_nonneg hv
    dsimp only
    omega

/-- **Entries out, one by one**: the books of the queue without any of the hashes. -/
theorem Tracks.dropEntries (hq : Tracks txHash serializeSize q mp) (hs : List Hash) :
    Tracks txHash serializeSize (q.filter fun tx => txHash tx ∉ hs) (Node.dropEntries hs mp) := by
  induction hs generalizing q mp with
  | nil => simpa [dropEntries] using hq
  | cons h hs ih =>
    have hfilter : ((q.filter fun tx => txHash tx ≠ h).filter fun tx => txHash tx ∉ hs) =
        q.filter fun tx => txHash tx ∉ h :: hs := by
      rw [List.filter_filter]
      congr 1
      funext tx
      simp [Bool.and_comm]
    rw [dropEntries_cons, ← hfilter]
    exact ih (hq.dropEntry h)

lemma Tracks.currentSize_dropEntries_le (hq : Tracks txHash serializeSize q mp)
    (hs : List Hash) : (Node.dropEntries hs mp).currentSize ≤ mp.currentSize := by
  induction hs generalizing q mp with
  | nil => exact le_rfl
  | cons h hs ih =>
    calc (Node.dropEntries (h :: hs) mp).currentSize
        = (Node.dropEntries hs (Node.dropEntry h mp)).currentSize := rfl
      _ ≤ (Node.dropEntry h mp).currentSize := ih (hq.dropEntry h)
      _ ≤ mp.currentSize := hq.currentSize_dropEntry_le h

/-- **One entry in.** A new hash with its transaction's size, and the transaction at the end of
the queue. -/
theorem Tracks.insert (hq : Tracks txHash serializeSize q mp) {tx : τ}
    (hnew : txHash tx ∉ mp.txns)
    (htxns : mp'.txns = mp.txns.insert (txHash tx) ⟨tx, serializeSize tx⟩)
    (hsize : mp'.currentSize = mp.currentSize + serializeSize tx) :
    Tracks txHash serializeSize (q ++ [tx]) mp' := by
  have hq' : txHash tx ∉ q.map txHash := fun h => hnew ((hq.mem_txns _).mpr h)
  refine ⟨?_, fun h => ?_, fun {h v} hv => ?_, ?_⟩
  · rw [List.map_append, List.nodup_append]
    refine ⟨hq.nodup, List.nodup_singleton _, fun a ha b hb => ?_⟩
    rw [List.map_singleton, List.mem_singleton] at hb
    rintro rfl
    exact hq' (hb ▸ ha)
  · rw [htxns, AList.mem_insert, hq.mem_txns, List.map_append, List.mem_append]
    simp [or_comm]
  · rw [htxns] at hv
    by_cases hh : h = txHash tx
    · subst hh
      rw [AList.lookup_insert, Option.some.injEq] at hv
      rw [← hv]
    · rw [AList.lookup_insert_ne hh] at hv
      exact hq.size_eq hv
  · rw [hsize, htxns, mapSum_insert_of_not_mem _ hnew, hq.currentSize_eq]

end Books

/-! ### One lemma per call -/

section Calls

variable {txHash : τ → Hash} {serializeSize : τ → ℕ} {mp mp' : Mempool τ}

lemma Inv.shrinks_of_eq (hinv : Inv txHash serializeSize mp) (htxns : mp'.txns = mp.txns)
    (hq : mp'.txQ = mp.txQ) (hsize : mp'.currentSize = mp.currentSize)
    (hmax : mp'.maxSize = mp.maxSize) : Shrinks txHash serializeSize mp mp' where
  inv := by
    unfold Inv
    rw [hq]
    exact Tracks.of_eq hinv htxns hsize
  sublist := hq ▸ List.Sublist.refl _
  currentSize_le := hsize.le
  maxSize_eq := hmax

/-- **`Store`**: an error that leaves all but `fetching` as it was, or an entry added under the
cap. -/
theorem store_cases (txHash : τ → Hash) (serializeSize : τ → ℕ) (tx : τ) (mp : Mempool τ) :
    (∃ e, store txHash serializeSize tx mp =
        ({ mp with fetching := mp.fetching.erase (txHash tx) }, .error e)) ∨
    (txHash tx ∉ mp.txns ∧ mp.currentSize + serializeSize tx ≤ mp.maxSize ∧
      store txHash serializeSize tx mp =
        ({ mp with
            fetching := mp.fetching.erase (txHash tx)
            currentSize := mp.currentSize + serializeSize tx
            txns := mp.txns.insert (txHash tx) ⟨tx, serializeSize tx⟩
            txQ := mp.txQ ++ [tx] }, .ok ())) := by
  unfold store
  dsimp only
  split_ifs with hmem hbig hfull
  · exact .inl ⟨_, rfl⟩
  · exact .inl ⟨_, rfl⟩
  · exact .inl ⟨_, rfl⟩
  · exact .inr ⟨hmem, by simpa using hfull, rfl⟩

/-- **`Remove`** of any hash, on a pool whose books are right: the books without it, and the
queue filtered. -/
theorem remove_eq (hinv : Inv txHash serializeSize mp) (txid : Hash) :
    remove txHash txid mp =
      { dropEntry txid mp with
        fetching := mp.fetching.erase txid
        txQ := mp.txQ.filter fun tx => txHash tx ≠ txid } := by
  cases hv : mp.txns.lookup txid with
  | none =>
    rw [dropEntry_of_lookup_none hv, filter_ne_of_not_mem (hinv.not_mem_of_lookup_none hv)]
    simp only [remove, hv]
  | some v =>
    -- a stored hash is queued, so the search finds it
    cases hi : mp.txQ.findIdx? (fun a => txHash a = txid) with
    | none =>
      have hmem : txid ∈ mp.txQ.map txHash :=
        (hinv.mem_txns txid).mp (AList.lookup_isSome.mp (by simp [hv]))
      obtain ⟨tx, htx, rfl⟩ := List.mem_map.mp hmem
      have := List.findIdx?_eq_none_iff.mp hi tx htx
      simp at this
    | some idx =>
      rw [dropEntry_of_lookup_some hv, ← eraseP_eq_filter_of_nodup txHash txid hinv.nodup,
        ← eraseIdx_of_findIdx_eq hi]
      simp only [remove, hv, hi]

theorem Inv.remove_shrinks (hinv : Inv txHash serializeSize mp) (txid : Hash) :
    Shrinks txHash serializeSize mp (remove txHash txid mp) := by
  rw [remove_eq hinv]
  refine ⟨?_, List.filter_sublist, hinv.currentSize_dropEntry_le txid, dropEntry_maxSize⟩
  exact Tracks.of_eq (hinv.dropEntry txid) rfl rfl

/-- **`ReapN`**: a panic, or a prefix of the queue cut off and taken out of the books. -/
theorem reapN_cases (txHash : τ → Hash) (n : ℤ) (mp : Mempool τ) :
    (∃ f, reapN txHash n mp = .error f) ∨
    ∃ k : ℕ, reapN txHash n mp = .ok (mp.txQ.take k,
      dropEntries ((mp.txQ.take k).map txHash) { mp with txQ := mp.txQ.drop k }) := by
  unfold reapN
  dsimp only
  split_ifs
  · exact .inl ⟨_, rfl⟩
  · exact .inr ⟨_, by rw [dropEntries, List.foldl_map]⟩

theorem Inv.reapN_shrinks (hinv : Inv txHash serializeSize mp) {n : ℤ} {txs : List τ}
    (h : reapN txHash n mp = .ok (txs, mp')) : Shrinks txHash serializeSize mp mp' := by
  rcases reapN_cases txHash n mp with ⟨f, hf⟩ | ⟨k, hk⟩
  · rw [hf] at h
    cases h
  · rw [hk] at h
    cases h
    -- the books of the whole queue lose the prefix's hashes: those of the rest are left
    have hdrop : (mp.txQ.filter fun tx => txHash tx ∉ (mp.txQ.take k).map txHash) =
        mp.txQ.drop k := by
      have hnd : ((mp.txQ.take k ++ mp.txQ.drop k).map txHash).Nodup := by
        rw [List.take_append_drop]
        exact hinv.nodup
      have := filter_append_of_nodup txHash hnd fun tx => decide_eq_true_iff
      rwa [List.take_append_drop] at this
    have hq : Tracks txHash serializeSize mp.txQ { mp with txQ := mp.txQ.drop k } :=
      Tracks.of_eq hinv rfl rfl
    refine ⟨?_, ?_, hq.currentSize_dropEntries_le _, by simp⟩
    · have hbooks := hq.dropEntries ((mp.txQ.take k).map txHash)
      rw [hdrop] at hbooks
      unfold Inv
      rw [dropEntries_txQ]
      exact hbooks
    · rw [dropEntries_txQ]
      exact List.drop_sublist _ _

/-- The scan takes a position and its hash at the head, or passes it over. -/
lemma recheckScan_cons_sublist (mp : Mempool τ) (fn : ℕ → τ → Bool) (n : ℕ) (tx : τ)
    (l : List τ) : (recheckScan txHash mp fn n (tx :: l)).Sublist
      ((n, txHash tx) :: recheckScan txHash mp fn (n + 1) l) := by
  simp only [recheckScan]
  split
  · exact .cons _ (.refl _)
  · split_ifs
    · exact .refl _
    · exact .refl _
    · exact .cons _ (.refl _)

/-- Every pair the scan picks is a position of the queue and its hash. -/
lemma mem_recheckScan {mp : Mempool τ} {fn : ℕ → τ → Bool} :
    ∀ {n : ℕ} {l : List τ} {p : ℕ × Hash}, p ∈ recheckScan txHash mp fn n l →
      ∃ j, ∃ hj : j < l.length, p = (n + j, txHash l[j])
  | _, [], _, hp => by simp [recheckScan] at hp
  | n, tx :: l, p, hp => by
    rcases List.mem_cons.mp ((recheckScan_cons_sublist mp fn n tx l).subset hp) with rfl | hp
    · exact ⟨0, by simp, by simp⟩
    · obtain ⟨j, hj, rfl⟩ := mem_recheckScan hp
      exact ⟨j + 1, by simpa using hj, by simp only [List.getElem_cons_succ]; congr 1; omega⟩

/-- The scan's positions go up. -/
lemma recheckScan_sorted (mp : Mempool τ) (fn : ℕ → τ → Bool) :
    ∀ (n : ℕ) (l : List τ), ((recheckScan txHash mp fn n l).map Prod.fst).Pairwise (· < ·)
  | _, [] => by simp [recheckScan]
  | n, tx :: l => by
    refine List.Pairwise.sublist ((recheckScan_cons_sublist mp fn n tx l).map _) ?_
    rw [List.map_cons, List.pairwise_cons]
    refine ⟨fun i hi => ?_, recheckScan_sorted mp fn (n + 1) l⟩
    obtain ⟨p, hp, rfl⟩ := List.mem_map.mp hi
    obtain ⟨j, -, rfl⟩ := mem_recheckScan hp
    dsimp only
    omega

/-- On a pool whose hashes are distinct, a position is picked exactly when its hash is. -/
lemma Inv.mem_recheckScan_iff (hinv : Inv txHash serializeSize mp) (fn : ℕ → τ → Bool)
    {j : ℕ} (hj : j < mp.txQ.length) :
    j ∈ (recheckScan txHash mp fn 0 mp.txQ).map Prod.fst ↔
      txHash mp.txQ[j] ∈ (recheckScan txHash mp fn 0 mp.txQ).map Prod.snd := by
  constructor
  · intro hmem
    obtain ⟨p, hp, rfl⟩ := List.mem_map.mp hmem
    obtain ⟨j', hj', rfl⟩ := mem_recheckScan hp
    exact List.mem_map.mpr ⟨_, hp, by simp⟩
  · intro hmem
    obtain ⟨p, hp, hpj⟩ := List.mem_map.mp hmem
    obtain ⟨j', hj', rfl⟩ := mem_recheckScan hp
    -- the two positions have one hash, so they are one position
    have hjj : j' = j := by
      have hnd : (mp.txQ.map txHash).Nodup := hinv.nodup
      have hj'm : j' < (mp.txQ.map txHash).length := by simpa using hj'
      have hjm : j < (mp.txQ.map txHash).length := by simpa using hj
      have heq : (mp.txQ.map txHash)[j'] = (mp.txQ.map txHash)[j] := by simpa using hpj
      exact hnd.getElem_inj_iff.mp heq
    exact List.mem_map.mpr ⟨_, hp, by simp [hjj]⟩

/-- **`RecheckTxs`**: the deletions from the highest position down take out of the queue exactly
the transactions whose hashes leave the books. -/
theorem Inv.recheckTxs_shrinks (hinv : Inv txHash serializeSize mp) (fn : ℕ → τ → Bool) :
    Shrinks txHash serializeSize mp (recheckTxs txHash fn mp) := by
  unfold recheckTxs
  dsimp only
  split_ifs
  · exact hinv.shrinks_of_eq rfl rfl rfl rfl
  · set S := recheckScan txHash mp fn 0 mp.txQ
    have hsorted : (S.reverse.map Prod.fst).Pairwise (· > ·) := by
      rw [List.map_reverse, List.pairwise_reverse]
      exact recheckScan_sorted mp fn 0 mp.txQ
    have hbound : ∀ i ∈ S.reverse.map Prod.fst, i < mp.txQ.length := by
      intro i hi
      rw [List.map_reverse, List.mem_reverse] at hi
      obtain ⟨p, hp, rfl⟩ := List.mem_map.mp hi
      obtain ⟨j, hj, rfl⟩ := mem_recheckScan hp
      simpa using hj
    have hqueue : (S.reverse.map Prod.fst).foldl List.eraseIdx mp.txQ =
        mp.txQ.filter fun tx => txHash tx ∉ S.reverse.map Prod.snd := by
      rw [foldl_eraseIdx _ _ hsorted hbound]
      refine dropPositions_eq_filter _ fun j hj => ?_
      simp only [zero_add, List.map_reverse, List.mem_reverse, decide_not, Bool.not_not]
      exact decide_eq_decide.mpr (hinv.mem_recheckScan_iff fn hj)
    rw [foldl_recheckRemove]
    refine ⟨?_, ?_, hinv.currentSize_dropEntries_le _, dropEntries_maxSize _⟩
    · unfold Inv
      rw [hqueue]
      exact Tracks.of_eq (hinv.dropEntries _) rfl rfl
    · rw [hqueue]
      exact List.filter_sublist

theorem preFetch_cases (txid : Hash) (mp : Mempool τ) :
    ∃ f, (preFetch txid mp).2 = { mp with fetching := f } := by
  unfold preFetch
  split_ifs
  · exact ⟨_, rfl⟩
  · exact ⟨_, rfl⟩
  · exact ⟨_, rfl⟩

/-- **One step keeps the invariant.** -/
theorem Op.exec_inv (op : Op τ) {s : Traced τ} (hs : TracedInv txHash serializeSize s) :
    TracedInv txHash serializeSize (op.exec txHash serializeSize s) := by
  -- a call that only takes transactions out keeps the log and the flag
  have shrink : ∀ mp', Shrinks txHash serializeSize s.pool mp' →
      TracedInv txHash serializeSize { s with pool := mp' } := fun mp' h =>
    ⟨h.inv, h.sublist.trans hs.sublist,
      fun hl => h.currentSize_le.trans (h.maxSize_eq ▸ hs.bound hl)⟩
  cases op with
  | store tx =>
    rcases store_cases txHash serializeSize tx s.pool with ⟨e, he⟩ | ⟨hnew, hfit, he⟩
    · simp only [Op.exec, he]
      exact shrink _ (hs.inv.shrinks_of_eq rfl rfl rfl rfl)
    · simp only [Op.exec, he]
      exact ⟨hs.inv.insert hnew rfl rfl, hs.sublist.append (.refl _), fun _ => hfit⟩
  | remove txid => exact shrink _ (hs.inv.remove_shrinks txid)
  | reapN n =>
    simp only [Op.exec]
    split
    · exact shrink _ (hs.inv.reapN_shrinks ‹_›)
    · exact hs
  | peekN n szLimit => exact hs
  | preFetch txid =>
    obtain ⟨f, hf⟩ := preFetch_cases txid s.pool
    simp only [Op.exec, hf]
    exact shrink _ (hs.inv.shrinks_of_eq rfl rfl rfl rfl)
  | fetchDone txid => exact shrink _ (hs.inv.shrinks_of_eq rfl rfl rfl rfl)
  | recheckTxs fn => exact shrink _ (hs.inv.recheckTxs_shrinks fn)
  | setMaxSize m =>
    -- the cap may only go up while the flag stays down
    simp only [Op.exec]
    refine ⟨Tracks.of_eq hs.inv rfl rfl, hs.sublist, fun hl => ?_⟩
    simp only [Bool.or_eq_false_iff, decide_eq_false_iff_not, not_lt] at hl
    exact (hs.bound hl.1).trans hl.2
  | setMaxTxSize m => exact shrink _ (hs.inv.shrinks_of_eq rfl rfl rfl rfl)
  | capMaxTxSize m => exact shrink _ (hs.inv.shrinks_of_eq rfl rfl rfl rfl)

theorem TracedInv.start {sz : ℤ} (hsz : 0 ≤ sz) (txSz : ℤ) :
    TracedInv txHash serializeSize ⟨new sz txSz, [], false⟩ where
  inv := ⟨List.nodup_nil, fun h => by simp [new], fun hv => by simp [new] at hv, rfl⟩
  sublist := List.nil_sublist _
  bound _ := hsz

/-- **Every run keeps the invariant.** -/
theorem TracedInv.reachable {sz txSz : ℤ} (hsz : 0 ≤ sz) {s : Traced τ}
    (h : ReflTransGen (Step txHash serializeSize) ⟨new sz txSz, [], false⟩ s) :
    TracedInv txHash serializeSize s :=
  ReflTransGen.invariant (TracedInv.start hsz txSz)
    (fun hs hab => by obtain ⟨op, rfl⟩ := hab; exact op.exec_inv hs) h

end Calls

/-! ### `PeekN` -/

section Peek

variable {txHash : τ → Hash} {serializeSize : τ → ℕ} {mp : Mempool τ}

lemma peekLoop_prefix (szLimit : ℤ) :
    ∀ (total : ℤ) (l : List τ), (peekLoop serializeSize szLimit total l).IsPrefix l
  | _, [] => List.nil_prefix
  | total, tx :: l => by
    unfold peekLoop
    dsimp only
    split_ifs
    · exact List.nil_prefix
    · exact List.cons_prefix_cons.mpr ⟨rfl, peekLoop_prefix szLimit _ l⟩
    · exact List.cons_prefix_cons.mpr ⟨rfl, peekLoop_prefix szLimit _ l⟩

/-- Under a positive limit the loop keeps the running total within it. -/
lemma peekLoop_sum_le {szLimit : ℤ} (hpos : 0 < szLimit) :
    ∀ {total : ℤ} (l : List τ), total ≤ szLimit →
      total + ((peekLoop serializeSize szLimit total l).map fun tx => (serializeSize tx : ℤ)).sum
        ≤ szLimit
  | _, [], h => by simpa [peekLoop] using h
  | total, tx :: l, h => by
    unfold peekLoop
    rw [if_pos hpos]
    dsimp only
    split_ifs with hover
    · simpa using h
    · have hle : total + (serializeSize tx : ℤ) ≤ szLimit := by omega
      have := peekLoop_sum_le hpos l hle
      rw [List.map_cons, List.sum_cons]
      omega

/-- The map has as many entries as the queue has transactions. -/
lemma Inv.length_txns (hinv : Inv txHash serializeSize mp) :
    mp.txns.entries.length = mp.txQ.length := by
  have hperm : mp.txns.keys.Perm (mp.txQ.map txHash) :=
    (List.perm_ext_iff_of_nodup mp.txns.keys_nodup hinv.nodup).mpr fun h => by
      rw [← AList.mem_keys]
      exact hinv.mem_txns h
  rw [← List.length_map txHash, ← hperm.length_eq]
  simp [AList.keys, List.keys]

/-- **`PeekN`** with a count that is not negative returns a prefix of the queue within the count,
and within the byte limit when there is one. -/
theorem Inv.peekN_spec (hinv : Inv txHash serializeSize mp) {n : ℤ} (hn : 0 ≤ n) (szLimit : ℤ) :
    ∃ txs, peekN serializeSize n szLimit mp = .ok txs ∧ txs.IsPrefix mp.txQ ∧
      (txs.length : ℤ) ≤ n ∧
      (0 < szLimit → (txs.map fun tx => (serializeSize tx : ℤ)).sum ≤ szLimit) := by
  have hlen := hinv.length_txns
  set k := (min n (mp.txQ.length : ℤ)).toNat
  have hpre : (peekLoop serializeSize szLimit 0 (mp.txQ.take k)).IsPrefix (mp.txQ.take k) :=
    peekLoop_prefix szLimit 0 _
  refine ⟨_, ?_, hpre.trans (List.take_prefix _ _), ?_, fun hpos => ?_⟩
  · unfold peekN
    dsimp only
    rw [hlen, if_neg (by omega), if_neg (by omega)]
  · have := hpre.length_le
    rw [List.length_take] at this
    omega
  · simpa using peekLoop_sum_le hpos (mp.txQ.take k) hpos.le

end Peek

/-! ### Runs -/

section Runs

variable (txHash : τ → Hash) (serializeSize : τ → ℕ)

/-- **The mempool's representation invariant.** Over every run from `New` with a cap that is not
negative: the queue's hashes are distinct and are the keys of the map, the counter is the sum of
the stored sizes and stays under the cap while the cap was never lowered, the queue keeps the
order of the stores, and `PeekN` with a count that is not negative returns a prefix of the queue
within the count and the byte limit. -/
theorem reachable_mempool_inv {sz txSz : ℤ} (hsz : 0 ≤ sz) {s : Traced τ}
    (h : ReflTransGen (Step txHash serializeSize) ⟨new sz txSz, [], false⟩ s) :
    (s.pool.txQ.map txHash).Nodup ∧
    (∀ txid, txid ∈ s.pool.txns ↔ txid ∈ s.pool.txQ.map txHash) ∧
    s.pool.currentSize = mapSum SizedTx.size s.pool.txns ∧
    (s.lowered = false → s.pool.currentSize ≤ s.pool.maxSize) ∧
    s.pool.txQ.Sublist s.stored ∧
    ∀ n szLimit, 0 ≤ n → ∃ txs, peekN serializeSize n szLimit s.pool = .ok txs ∧
      txs.IsPrefix s.pool.txQ ∧ (txs.length : ℤ) ≤ n ∧
      (0 < szLimit → (txs.map fun tx => (serializeSize tx : ℤ)).sum ≤ szLimit) := by
  have hs := TracedInv.reachable hsz h
  exact ⟨hs.inv.nodup, hs.inv.mem_txns, hs.inv.currentSize_eq, hs.bound, hs.sublist,
    fun n szLimit hn => hs.inv.peekN_spec hn szLimit⟩

theorem reachable_mempool_inv_after_store :
    ((Op.store 7).exec (fun _ : ℕ => Vector.replicate 32 0) (fun _ => 1)
        ⟨new 10 5, [], false⟩).pool.currentSize ≤
      ((Op.store 7).exec (fun _ : ℕ => Vector.replicate 32 0) (fun _ => 1)
        ⟨new 10 5, [], false⟩).pool.maxSize :=
  (reachable_mempool_inv (fun _ : ℕ => Vector.replicate 32 0) (fun _ => 1) (by decide)
    (ReflTransGen.single ⟨.store 7, rfl⟩)).2.2.2.1 rfl

/-- A cap below zero is already passed by the empty pool, and a negative count panics `PeekN`. -/
theorem new_over_cap_peekN_panics :
    (new (-1) 0 : Mempool ℕ).maxSize < (new (-1) 0 : Mempool ℕ).currentSize ∧
    peekN (fun _ : ℕ => 1) (-1) 0 (new 0 0) =
      .error (.panic "runtime error: makeslice: cap out of range") :=
  ⟨by decide, rfl⟩

end Runs

end KwilDb.Node
