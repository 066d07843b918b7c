import KwilDb.Lib.GoSort
import KwilDb.Types.Payloads

/-!
# The leader's choice of transactions: `prepareBlockTransactions`

The leader takes the mempool's transactions, groups them by sender and sorts each group by
nonce with `sort.Stable` over a `txSubList`, whose `Swap` exchanges two elements of the group
and the two elements of `okTxns` at the positions given by their `i` fields. It then walks the
sorted `okTxns`, dropping a transaction whose nonce and sender repeat the last one kept, a
vote-ID transaction over `MaxVotesPerTx`, and in gas mode one from an unfunded account; the
rest is split into the proposer's own transactions and the others. The block is the proposer's
transactions while they fit in `MaxBlockSize`, the vote-body transaction, and then the others
that fit, a sender being skipped from the first of its transactions that does not.

Whatever the inputs, the block and the dropped transactions together hold each input at most
once besides the vote-body transaction, and the block is the proposer's transactions, the
vote-body transaction and the others, in this order (`prepareBlockTransactions_layout`).

The `i` fields are never updated, while `Swap` reads them after the elements have moved. A
`Swap` therefore moves the elements of `okTxns` that stood, before the sort, where the two
elements now at `i` and `j` came from, and a group's nonces end sorted only when the sort's
permutation is its own inverse; with nonces `1, 2, 0` they end `2, 0, 1`. The duplicate check
compares with `okTxns[i-1]` where `i` counts the transactions kept, not those visited, so it
misses a repeated nonce when another sender's transaction was dropped or lies between.

The reads of the node (the network parameters, the signer, `TxSenderAcctID`, `AccountInfo` and
`prepareValidatorVoteBodyTx`) are the fields of `Reads`, and the order in which `range` visits
the map of groups is an argument.
-/

namespace KwilDb.BlockProcessor

open KwilDb.Lib KwilDb.Core KwilDb.Types

/-- `types.PayloadTypeValidatorVoteIDs`. -/
def payloadTypeValidatorVoteIDs : Bytes := goBytes "validator_vote_ids"

/-- What `prepareBlockTransactions` reads of the node besides its arguments. A call that fails
with an `error` is one the code logs and goes on from; a panic stops the call. -/
structure Reads where
  /-- `NetworkParameters.MaxBlockSize`. -/
  maxBlockSize : ℤ
  /-- `NetworkParameters.MaxVotesPerTx`. -/
  maxVotesPerTx : ℤ
  /-- `NetworkParameters.DisabledGasCosts`. -/
  disabledGasCosts : Bool
  /-- `bp.signer.CompactID()`. -/
  compactID : Bytes
  /-- `bp.signer.AuthType()`. -/
  authType : Bytes
  /-- `txapp.TxSenderAcctID`. -/
  txSenderAcctID : Transaction → Except Failure AccountID
  /-- `bp.AccountInfo`: the balance and the nonce. -/
  accountInfo : AccountID → Except Failure (ℤ × ℤ)
  /-- `bp.prepareValidatorVoteBodyTx`, from a nonce and the bytes left. -/
  prepareValidatorVoteBodyTx : ℤ → ℤ → Except Failure (Option Transaction)

/-- `indexedTxn`, with the body that `tx.Body` dereferences; the hash is only logged. -/
structure IndexedTxn where
  i : ℕ
  tx : Transaction
  body : TransactionBody
  sz : ℕ
  is : ℕ
deriving DecidableEq, Repr

/-- The first loop of `prepareBlockTransactions`: `okTxns`, each transaction with its index. The
loop over `okTxns` below reads `tx.Body` of every one of them, so a nil body is a panic of the
call; the model has it here. -/
def indexTxns (txs : List Transaction) : Except Failure (List IndexedTxn) :=
  txs.zipIdx.mapM fun (tx, k) =>
    match tx.body with
    | some body => .ok ⟨k, tx, body, tx.bytes.length, k⟩
    | none => .error nilDereference

/-! ### `txSubList` -/

/-- `txSubList`: a group of `okTxns` and `okTxns` itself. -/
structure TxSubList where
  sub : List IndexedTxn
  super : List IndexedTxn

/-- `txSubList.Less`: by nonce. -/
def TxSubList.less (txl : TxSubList) (i j : ℕ) : Bool :=
  match txl.sub[i]?, txl.sub[j]? with
  | some a, some b => a.body.nonce < b.body.nonce
  | _, _ => false

/-- `txSubList.Swap`: swap in `sub`, then swap in `super` the positions named by the `i` fields of
the elements that are now at `i` and `j`. `sort.Stable` only swaps indices below `Len`; above it
Go panics, and the model leaves the lists as they are. -/
def TxSubList.swap (txl : TxSubList) (i j : ℕ) : TxSubList :=
  let sub := txl.sub.swap i j
  match sub[i]?, sub[j]? with
  | some a, some b => ⟨sub, txl.super.swap a.i b.i⟩
  | _, _ => ⟨sub, txl.super⟩

/-- `txSubList` as a `sort.Interface`. -/
def txSubList : SortInterface TxSubList := ⟨TxSubList.less, TxSubList.swap⟩

/-- The sorting loop: `sort.Stable(txSubList{group, okTxns})` for each sender, in the order
`senderOrder` in which `range` visits the map of groups. A group lists the sender's elements of
`okTxns` as they stood before any sorting. -/
def sortGroups (senderOrder : List Bytes) (okTxns : List IndexedTxn) : List IndexedTxn :=
  senderOrder.foldl (fun super sender =>
    let group := okTxns.filter (·.tx.sender = sender)
    (txSubList.stable group.length ⟨group, super⟩).super) okTxns

/-! ### The selection loop -/

/-- The variables of the loop over `okTxns`. Go's `i` is the length of `nonces`: both grow by one
with each transaction kept. -/
structure Selection where
  nonces : List UInt64
  invalidTxs : List Transaction
  propTxs : List IndexedTxn
  otherTxns : List IndexedTxn
  proposerNonce : UInt64

section Select

variable (r : Reads)

/-- The check of the loop against unfunded accounts, in gas mode: `none` drops the transaction
silently (the account could not be read), `some true` drops it as invalid. -/
def unfunded (tx : IndexedTxn) : Except Failure (Option Bool) :=
  if r.disabledGasCosts then .ok (some false)
  else
    match r.txSenderAcctID tx.tx with
    | .error (.panic p) => .error (.panic p)
    | .error (.error _) => .ok none
    | .ok ident =>
      match r.accountInfo ident with
      | .error (.panic p) => .error (.panic p)
      | .error (.error _) => .ok none
      | .ok (balance, nonce) => .ok (some (nonce = 0 ∧ balance = 0))

/-- The vote-ID check of the loop: the payload does not decode, or lists more than
`MaxVotesPerTx` IDs. -/
def tooManyVotes (tx : IndexedTxn) : Bool :=
  tx.body.payloadType == payloadTypeValidatorVoteIDs &&
    match ValidatorVoteIDs.unmarshalBinary tx.body.payload with
    | .error _ => true
    | .ok voteIDs => decide ((voteIDs.resolutionIDs.length : ℤ) > r.maxVotesPerTx)

/-- `bytes.Equal(tx.Sender, bp.signer.CompactID()) && tx.Signature.Type == bp.signer.AuthType()`;
the signature is dereferenced once the sender matches. -/
def isProposerTx (tx : Transaction) : Except Failure Bool :=
  if tx.sender = r.compactID then
    match tx.signature with
    | some sig => .ok (sig.type = r.authType)
    | none => .error nilDereference
  else .ok false

/-- One turn of the loop over the sorted `okTxns`. -/
def selectTx (okTxns : List IndexedTxn) (sel : Selection) (tx : IndexedTxn) :
    Except Failure Selection := do
  let i := sel.nonces.length
  if 0 < i ∧ sel.nonces[i - 1]? = some tx.body.nonce ∧
      (okTxns[i - 1]?.map (·.tx.sender)) = some tx.tx.sender then
    return { sel with invalidTxs := sel.invalidTxs ++ [tx.tx] }
  if tooManyVotes r tx then
    return { sel with invalidTxs := sel.invalidTxs ++ [tx.tx] }
  match ← unfunded r tx with
  | none => return sel
  | some true => return { sel with invalidTxs := sel.invalidTxs ++ [tx.tx] }
  | some false =>
    let sel := if ← isProposerTx r tx.tx then
        { sel with proposerNonce := tx.body.nonce, propTxs := sel.propTxs ++ [tx] }
      else { sel with otherTxns := sel.otherTxns ++ [tx] }
    return { sel with nonces := sel.nonces ++ [tx.body.nonce] }

end Select

/-! ### The block size -/

/-- The loop over `propTxs`: each while it fits in what is left of the block; the bytes left. -/
def takeWithin : ℤ → List IndexedTxn → List Transaction × ℤ
  | maxTxBytes, [] => ([], maxTxBytes)
  | maxTxBytes, tx :: txs =>
    if maxTxBytes < tx.sz then ([], maxTxBytes)
    else
      let rest := takeWithin (maxTxBytes - tx.sz) txs
      (tx.tx :: rest.1, rest.2)

/-- The loop over `otherTxns`: a sender in `senders` is skipped, and a transaction that does not
fit puts its sender there. -/
def fillWithin : ℤ → List Bytes → List IndexedTxn → List Transaction
  | _, _, [] => []
  | maxTxBytes, senders, tx :: txs =>
    if tx.tx.sender ∈ senders then fillWithin maxTxBytes senders txs
    else if maxTxBytes < tx.sz then fillWithin maxTxBytes (tx.tx.sender :: senders) txs
    else tx.tx :: fillWithin (maxTxBytes - tx.sz) senders txs

/-- The vote-body transaction's call, its error wrapped. -/
def voteBodyTx (r : Reads) (proposerNonce : UInt64) (maxTxBytes : ℤ) :
    Except Failure (Option Transaction) :=
  match r.prepareValidatorVoteBodyTx proposerNonce.toInt64.toInt maxTxBytes with
  | .error (.error e) =>
    .error (.error ("failed to prepare validator vote body transaction: " ++ e))
  | res => res

/-- **`BlockProcessor.prepareBlockTransactions`**: the block's transactions and the invalid
ones. -/
def prepareBlockTransactions (r : Reads) (senderOrder : List Bytes) (txs : List Transaction) :
    Except Failure (List Transaction × List Transaction) := do
  let okTxns := sortGroups senderOrder (← indexTxns txs)
  let sel ← okTxns.foldlM (selectTx r okTxns) ⟨[], [], [], [], 0⟩
  let (propFinal, maxTxBytes) := takeWithin r.maxBlockSize sel.propTxs
  let vote ← voteBodyTx r sel.proposerNonce maxTxBytes
  let maxTxBytes := maxTxBytes - ((vote.map fun tx => (tx.bytes.length : ℤ)).getD 0)
  return (propFinal ++ vote.toList ++ fillWithin maxTxBytes [] sel.otherTxns, sel.invalidTxs)

/-! ### Where the transactions go -/

/-- The transactions of `okTxns` are the input's, in its order. -/
theorem indexTxns_tx {txs : List Transaction} {okTxns : List IndexedTxn}
    (h : indexTxns txs = .ok okTxns) : okTxns.map IndexedTxn.tx = txs := by
  have hmap := map_of_mapM_eq_ok (h := IndexedTxn.tx) (k := Prod.fst) (fun (tx, k) b hb => by
    dsimp only at hb
    split at hb
    · cases hb
      rfl
    · cases hb) txs.zipIdx okTxns h
  rw [hmap, List.zipIdx_map_fst]

/-- `Swap` moves the elements of `okTxns` around and drops none. -/
lemma TxSubList.swap_super_perm (txl : TxSubList) (i j : ℕ) :
    (txl.swap i j).super.Perm txl.super := by
  unfold TxSubList.swap
  dsimp only
  split
  · exact List.swap_perm _ _ _
  · exact List.Perm.refl _

/-- The sorting loop rearranges `okTxns`. -/
theorem sortGroups_perm (senderOrder : List Bytes) (okTxns : List IndexedTxn) :
    (sortGroups senderOrder okTxns).Perm okTxns := by
  unfold sortGroups
  refine SortInterface.foldl_invariant (P := fun super => super.Perm okTxns)
    (fun super sender hsuper => ?_) senderOrder okTxns (List.Perm.refl _)
  -- every `Swap` keeps `super` a rearrangement of `okTxns`
  exact SortInterface.stable_invariant (P := fun txl : TxSubList => txl.super.Perm okTxns)
    (fun txl i j h => (txl.swap_super_perm i j).trans h) _ ⟨_, super⟩ hsuper

/-- What the loop over `okTxns` keeps, having visited `seen`: the invalid, the proposer's and the
other transactions hold each visited one at most once, and `isProposerTx` sorts the last two. -/
structure Selection.Inv (r : Reads) (sel : Selection) (seen : List IndexedTxn) : Prop where
  subperm : (sel.invalidTxs ++ sel.propTxs.map IndexedTxn.tx ++
    sel.otherTxns.map IndexedTxn.tx).Subperm (seen.map IndexedTxn.tx)
  prop : ∀ t ∈ sel.propTxs, isProposerTx r t.tx = .ok true
  other : ∀ t ∈ sel.otherTxns, isProposerTx r t.tx = .ok false

lemma subperm_insert {α : Type} {A B S : List α} {t : α} (h : (A ++ B).Subperm S) :
    (A ++ [t] ++ B).Subperm (S ++ [t]) := by
  have hp : (A ++ [t] ++ B).Perm (A ++ B ++ [t]) := by
    rw [List.append_assoc, List.singleton_append]
    exact List.perm_middle.trans (List.perm_append_singleton _ _).symm
  exact hp.subperm.trans ((List.subperm_append_right [t]).mpr h)

namespace Selection.Inv

variable {r : Reads} {sel : Selection} {seen : List IndexedTxn}

lemma init : Inv r ⟨[], [], [], [], 0⟩ [] := ⟨by simp, by simp, by simp⟩

/-- A transaction dropped silently. -/
lemma skip (h : Inv r sel seen) (tx : IndexedTxn) : Inv r sel (seen ++ [tx]) := by
  refine ⟨h.subperm.trans ?_, h.prop, h.other⟩
  rw [List.map_append]
  exact (List.sublist_append_left _ _).subperm

/-- A transaction dropped as invalid. -/
lemma invalid (h : Inv r sel seen) (tx : IndexedTxn) :
    Inv r { sel with invalidTxs := sel.invalidTxs ++ [tx.tx] } (seen ++ [tx]) := by
  refine ⟨?_, h.prop, h.other⟩
  have := subperm_insert (t := tx.tx) (by simpa only [List.append_assoc] using h.subperm)
  simpa only [List.map_append, List.map_cons, List.map_nil, List.append_assoc] using this

/-- One of the proposer's transactions, kept. -/
lemma prop_append (h : Inv r sel seen) (tx : IndexedTxn) (hp : isProposerTx r tx.tx = .ok true)
    (nonces : List UInt64) (proposerNonce : UInt64) :
    Inv r ⟨nonces, sel.invalidTxs, sel.propTxs ++ [tx], sel.otherTxns, proposerNonce⟩
      (seen ++ [tx]) := by
  refine ⟨?_, ?_, h.other⟩
  · have := subperm_insert (t := tx.tx) (A := sel.invalidTxs ++ sel.propTxs.map IndexedTxn.tx)
      h.subperm
    simpa only [List.map_append, List.map_cons, List.map_nil, List.append_assoc] using this
  · simpa only [List.mem_append, List.mem_singleton, or_imp, forall_and, forall_eq] using
      And.intro h.prop hp

/-- One of the other transactions, kept. -/
lemma other_append (h : Inv r sel seen) (tx : IndexedTxn) (hp : isProposerTx r tx.tx = .ok false)
    (nonces : List UInt64) (proposerNonce : UInt64) :
    Inv r ⟨nonces, sel.invalidTxs, sel.propTxs, sel.otherTxns ++ [tx], proposerNonce⟩
      (seen ++ [tx]) := by
  refine ⟨?_, h.prop, ?_⟩
  · simpa only [List.map_append, List.map_cons, List.map_nil, List.append_assoc] using
      (List.subperm_append_right [tx.tx]).mpr h.subperm
  · simpa only [List.mem_append, List.mem_singleton, or_imp, forall_and, forall_eq] using
      And.intro h.other hp

/-- **A turn of the loop keeps the invariant.** -/
theorem selectTx {okTxns : List IndexedTxn} {tx : IndexedTxn} {sel' : Selection}
    (h : Inv r sel seen) (hs : BlockProcessor.selectTx r okTxns sel tx = .ok sel') :
    Inv r sel' (seen ++ [tx]) := by
  unfold BlockProcessor.selectTx at hs
  dsimp only at hs
  split_ifs at hs
  · cases hs
    exact h.invalid tx
  · cases hs
    exact h.invalid tx
  · rw [bind_eq_ok] at hs
    obtain ⟨u, -, hs⟩ := hs
    -- the three outcomes of the check against unfunded accounts
    match u, hs with
    | none, hs =>
      cases hs
      exact h.skip tx
    | some true, hs =>
      cases hs
      exact h.invalid tx
    | some false, hs =>
      rw [bind_eq_ok] at hs
      obtain ⟨b, hb, hs⟩ := hs
      cases b
      · cases hs
        exact h.other_append tx hb _ _
      · cases hs
        exact h.prop_append tx hb _ _

end Selection.Inv

/-- The proposer's transactions in the block are the first of them. -/
lemma isPrefix_takeWithin : ∀ (maxTxBytes : ℤ) (txs : List IndexedTxn),
    (takeWithin maxTxBytes txs).1.IsPrefix (txs.map IndexedTxn.tx)
  | _, [] => List.prefix_refl _
  | maxTxBytes, tx :: txs => by
    unfold takeWithin
    split_ifs
    · exact List.nil_prefix
    · exact (List.prefix_cons_inj _).mpr (isPrefix_takeWithin _ txs)

/-- The other transactions in the block are some of them, in their order. -/
lemma fillWithin_sublist : ∀ (maxTxBytes : ℤ) (senders : List Bytes) (txs : List IndexedTxn),
    (fillWithin maxTxBytes senders txs).Sublist (txs.map IndexedTxn.tx)
  | _, _, [] => List.Sublist.slnil
  | maxTxBytes, senders, tx :: txs => by
    unfold fillWithin
    split_ifs
    · exact (fillWithin_sublist _ _ txs).cons _
    · exact (fillWithin_sublist _ _ txs).cons _
    · exact (fillWithin_sublist _ _ txs).cons_cons _

lemma voteBodyTx_eq_ok {r : Reads} {proposerNonce : UInt64} {maxTxBytes : ℤ}
    {vote : Option Transaction} (h : voteBodyTx r proposerNonce maxTxBytes = .ok vote) :
    r.prepareValidatorVoteBodyTx proposerNonce.toInt64.toInt maxTxBytes = .ok vote := by
  unfold voteBodyTx at h
  split at h
  · cases h
  · exact h

/-- **What the leader's block is made of.** The block is some of the proposer's own
transactions, then what `prepareValidatorVoteBodyTx` returned, then some other transactions;
the invalid transactions and the block's own hold each input at most once. -/
theorem prepareBlockTransactions_layout {r : Reads} {senderOrder : List Bytes}
    {txs finalTxs invalidTxs : List Transaction}
    (h : prepareBlockTransactions r senderOrder txs = .ok (finalTxs, invalidTxs)) :
    ∃ propFinal vote others, finalTxs = propFinal ++ vote.toList ++ others ∧
      (∃ nonce maxTxSize, r.prepareValidatorVoteBodyTx nonce maxTxSize = .ok vote) ∧
      (∀ t ∈ propFinal, isProposerTx r t = .ok true) ∧
      (∀ t ∈ others, isProposerTx r t = .ok false) ∧
      (invalidTxs ++ propFinal ++ others).Subperm txs := by
  unfold prepareBlockTransactions at h
  rw [bind_eq_ok] at h
  obtain ⟨okTxns, hok, h⟩ := h
  rw [bind_eq_ok] at h
  obtain ⟨sel, hsel, h⟩ := h
  generalize htw : takeWithin r.maxBlockSize sel.propTxs = tw at h
  obtain ⟨propFinal, maxTxBytes⟩ := tw
  dsimp only at h
  rw [bind_eq_ok] at h
  obtain ⟨vote, hvote, h⟩ := h
  cases h
  -- the loop over the sorted `okTxns` sorts every one of them out
  have hinv := foldlM_invariant (fun seen sel => Selection.Inv r sel seen)
    (fun _ _ _ _ hb hs => hb.selectTx hs) _ [] _ sel Selection.Inv.init hsel
  have hpf : propFinal.Sublist (sel.propTxs.map IndexedTxn.tx) := by
    have := isPrefix_takeWithin r.maxBlockSize sel.propTxs
    rw [htw] at this
    exact this.sublist
  have hsorted := ((sortGroups_perm senderOrder okTxns).map IndexedTxn.tx).subperm
  rw [indexTxns_tx hok] at hsorted
  refine ⟨propFinal, vote, _, rfl, ⟨_, _, voteBodyTx_eq_ok hvote⟩, fun t ht => ?_,
    fun t ht => ?_, ?_⟩
  · obtain ⟨tx, htx, rfl⟩ := List.mem_map.mp (hpf.subset ht)
    exact hinv.prop tx htx
  · obtain ⟨tx, htx, rfl⟩ := List.mem_map.mp ((fillWithin_sublist _ _ _).subset ht)
    exact hinv.other tx htx
  · -- the block's own are some of what the loop kept, and the loop kept some of `okTxns`
    refine List.Subperm.trans (List.Sublist.subperm ?_) (hinv.subperm.trans (by simpa using hsorted))
    exact ((List.Sublist.refl sel.invalidTxs).append hpf).append (fillWithin_sublist _ [] _)

/-! ### The nonce order of the block -/

/-- Along `txs`, the nonces of each sender increase strictly. -/
def NoncesIncrease (txs : List Transaction) : Prop :=
  ∀ sender, ((txs.filter (·.sender = sender)).map fun t =>
    (t.body.map TransactionBody.nonce).getD 0).Pairwise (· < ·)

/-- Reads under which every transaction is kept: gas disabled, a signer that sent none of them,
room for all of them, and no vote-body transaction. -/
def openReads : Reads :=
  ⟨2 ^ 20, 10, true, [0], [], fun _ => .error (.error ""), fun _ => .error (.error ""),
    fun _ _ => .ok none⟩

/-- A signed transaction of `sender` with `nonce`, told apart by its description. -/
def mempoolTx (sender description : Bytes) (nonce : UInt64) : Transaction :=
  ⟨some ⟨[], []⟩, some ⟨description, [], [], none, nonce, []⟩, [], sender⟩

/-- **The block breaks the nonce order**, in whatever order `range` visits the groups. One
sender's nonces `1, 2, 0` come out `2, 0, 1`: `Swap` moves the elements of `okTxns` by the stale
`i` fields, which undoes the sort's permutation instead of applying it. And a sender's nonce `1`
sent twice around another sender's nonce `1` is kept twice: the duplicate check compares the
second with its neighbour in `okTxns`, the other sender's transaction. -/
theorem prepareBlockTransactions_breaks_nonce_order :
    (∀ senderOrder : List Bytes, senderOrder.Perm [[1]] →
      prepareBlockTransactions openReads senderOrder
          [mempoolTx [1] [] 1, mempoolTx [1] [] 2, mempoolTx [1] [] 0] =
        .ok ([mempoolTx [1] [] 2, mempoolTx [1] [] 0, mempoolTx [1] [] 1], [])) ∧
    (∀ senderOrder : List Bytes, senderOrder.Perm [[1], [2]] →
      prepareBlockTransactions openReads senderOrder
          [mempoolTx [1] [] 1, mempoolTx [2] [] 1, mempoolTx [1] [1] 1] =
        .ok ([mempoolTx [1] [] 1, mempoolTx [2] [] 1, mempoolTx [1] [1] 1], [])) ∧
    ¬ NoncesIncrease [mempoolTx [1] [] 2, mempoolTx [1] [] 0, mempoolTx [1] [] 1] ∧
    ¬ NoncesIncrease [mempoolTx [1] [] 1, mempoolTx [2] [] 1, mempoolTx [1] [1] 1] := by
  refine ⟨fun senderOrder h => ?_, fun senderOrder h => ?_, fun h => ?_, fun h => ?_⟩
  · rw [List.perm_singleton.mp h]
    decide +kernel
  · -- two groups, visited either way
    rcases List.perm_pair.mp h with rfl | rfl <;> decide +kernel
  · exact absurd (h [1]) (by decide)
  · exact absurd (h [1]) (by decide)

/-- The one sender's three transactions, reordered by the sort, make the whole block: none is the
proposer's, no vote-body transaction is added, and nothing is invalid. -/
theorem prepareBlockTransactions_layout_one_sender :
    ∃ propFinal vote others,
      [mempoolTx [1] [] 2, mempoolTx [1] [] 0, mempoolTx [1] [] 1] =
        propFinal ++ vote.toList ++ others ∧
      (∃ nonce maxTxSize, openReads.prepareValidatorVoteBodyTx nonce maxTxSize = .ok vote) ∧
      (∀ t ∈ propFinal, isProposerTx openReads t = .ok true) ∧
      (∀ t ∈ others, isProposerTx openReads t = .ok false) ∧
      ([] ++ propFinal ++ others).Subperm
        [mempoolTx [1] [] 1, mempoolTx [1] [] 2, mempoolTx [1] [] 0] :=
  @prepareBlockTransactions_layout openReads [[1]]
    [mempoolTx [1] [] 1, mempoolTx [1] [] 2, mempoolTx [1] [] 0] _ [] (by decide +kernel)

end KwilDb.BlockProcessor
