import KwilDb.Types.Block
import KwilDb.Core.Params

/-!
# The binary form of parameter updates

`core/types/params.go`: `ParamUpdates` maps parameter names to values of their types, a Go
`map[string]any`. `MarshalBinary` writes a version, the number of updates as a `uint16`, and then
each update in the order of its sorted name: the name behind a `uint16` length, and the value as
the name says (`marshalParamValue`). `UnmarshalBinary` reads them back into a new map.

A leader key and a migration status are read with `bytes.Reader.Read`, which returns `EOF` at the
end of its input even into an empty buffer. The migration status's name sorts after every other
name (`sorted_eq_of_migrationStatus`), so its value is the last thing written, and an empty status
is a read of nothing at the end: updates that hold one do not read back
(`ParamUpdates.unmarshalBinary_eof_of_empty_status`). All other updates that fit their
length prefixes do (`ParamUpdates.roundTrip_of_fits`).

`crypto.UnmarshalPublicKey` is a parameter, as in the block header.
-/

namespace KwilDb.Core

open KwilDb.Lib
open KwilDb.Types (wireEncodeKey wireDecodePubKey wireDecodeKeyType_wireEncodeKey)

/-- A value of `ParamUpdates`, a Go `any`, by its dynamic type. A `PublicKey` and a
`crypto.PublicKey` are one case: the codec and `MergeUpdates` read both as the key they carry. -/
inductive ParamValue where
  | publicKey (key : Types.PublicKey)
  | bool (b : Bool)
  | duration (d : Int64)
  | int64 (v : Int64)
  | migrationStatus (status : MigrationStatus)
  | other (typeName : String)
deriving DecidableEq, Repr

/-- `types.ParamUpdates`. -/
abbrev ParamUpdates := GoMap Bytes ParamValue

/-! ### Parameter names

`setParamNames` sets them at init from the `json` tags of `NetworkParameters`, and from the
`param` tag of the migration status, whose `json` tag is `-`. -/

def paramNameLeader : Bytes := goBytes "leader"
def paramNameMaxBlockSize : Bytes := goBytes "max_block_size"
def paramNameJoinExpiry : Bytes := goBytes "join_expiry"
def paramNameDisabledGasCosts : Bytes := goBytes "disabled_gas_costs"
def paramNameMaxVotesPerTx : Bytes := goBytes "max_votes_per_tx"
def paramNameMigrationStatus : Bytes := goBytes "migration_status"

/-- The `numParams` names. -/
def paramNames : List Bytes :=
  [paramNameLeader, paramNameMaxBlockSize, paramNameJoinExpiry, paramNameDisabledGasCosts,
    paramNameMaxVotesPerTx, paramNameMigrationStatus]

/-! ### Writing -/

/-- `fmt.Errorf("invalid type for %s", key)`. -/
def invalidType (key : Bytes) : Failure := .error ("invalid type for " ++ goString key)

/-- The `switch key` of `MarshalBinary`: the bytes of one value, by the name it is under. -/
def marshalParamValue (key : Bytes) (value : ParamValue) : Except Failure Bytes :=
  if key = paramNameLeader then
    match value with
    | .publicKey pk => do
      let bts ← wireEncodeKey pk
      pure (leBytes 2 bts.length ++ bts)
    | _ => throw (invalidType key)
  else if key = paramNameDisabledGasCosts then
    match value with
    | .bool b => pure (leBytes 1 (if b then 1 else 0))
    | _ => throw (invalidType key)
  else if key = paramNameJoinExpiry then
    match value with
    | .duration d => pure (leBytes 8 d.toUInt64.toNat)
    | _ => throw (invalidType key)
  else if key = paramNameMaxBlockSize ∨ key = paramNameMaxVotesPerTx then
    match value with
    | .int64 v => pure (leBytes 8 v.toUInt64.toNat)
    | _ => throw (invalidType key)
  else if key = paramNameMigrationStatus then
    match value with
    | .migrationStatus ms => pure (leBytes 2 ms.bytes.length ++ ms.bytes)
    | _ => throw (invalidType key)
  else throw (.error ("unknown parameter name: " ++ goString key))

/-- The updates in the order `MarshalBinary` writes them: `sort.Strings` of the keys, each with
`pu[key]`. The keys are distinct, so this is the entries sorted by key. -/
def ParamUpdates.sorted (pu : ParamUpdates) : List ((_ : Bytes) × ParamValue) :=
  pu.entries.mergeSort fun a b => decide (a.1 ≤ b.1)

/-- One update: the name behind its `uint16` length, then the value. -/
def marshalParamUpdate (e : (_ : Bytes) × ParamValue) : Except Failure Bytes := do
  let v ← marshalParamValue e.1 e.2
  pure (leBytes 2 e.1.length ++ e.1 ++ v)

/-- `ParamUpdates.MarshalBinary`: the version `0`, the number of updates, then the updates. -/
def ParamUpdates.marshalBinary (pu : ParamUpdates) : Except Failure Bytes := do
  let updates ← pu.sorted.mapM marshalParamUpdate
  pure (leBytes 2 0 ++ leBytes 2 pu.entries.length ++ updates.flatten)

/-! ### Reading -/

section Decode

variable (unmarshalPublicKey : Bytes → KeyType → Except String Types.PublicKey)

/-- The `switch paramName` of `UnmarshalBinary`: one value, read as its name says. Its errors are
returned as they are. -/
def readParamValue (name : Bytes) : Reader ParamValue :=
  if name = paramNameLeader then do
    let length ← readUint 2
    let val ← Reader.read length
    match wireDecodePubKey unmarshalPublicKey val with
    | .ok pubkey => pure (.publicKey pubkey)
    | .error e => throw e
  else if name = paramNameJoinExpiry then do
    let expiry ← readUint 8
    pure (.duration (UInt64.ofNat expiry).toInt64)
  else if name = paramNameMaxBlockSize ∨ name = paramNameMaxVotesPerTx then do
    let val ← readUint 8
    pure (.int64 (UInt64.ofNat val).toInt64)
  else if name = paramNameDisabledGasCosts then do
    let val ← readUint 1
    pure (.bool (val = 1))
  else if name = paramNameMigrationStatus then do
    let length ← readUint 2
    let val ← Reader.read length
    pure (.migrationStatus ⟨val⟩)
  else throw ("unknown parameter name: " ++ goString name)

/-- One turn of the loop of `UnmarshalBinary`: a name, then its value. -/
def readParamUpdate : Reader ((_ : Bytes) × ParamValue) := do
  let nameLen ← readUint 2
  let nameBytes ← Reader.read nameLen
  let value ← readParamValue unmarshalPublicKey nameBytes
  pure ⟨nameBytes, value⟩

/-- `ParamUpdates.UnmarshalBinary`, on the `bytes.Reader` over its input: the version, which must
be `0`, the number of updates, and the updates, assigned into a new map in the order read. -/
def ParamUpdates.readFrom : Reader ParamUpdates := do
  let version ← readUint 2
  if version ≠ 0 then throw ("unsupported version: " ++ toString version)
  let numUpdates ← readUint 2
  let updates ← Reader.readN (readParamUpdate unmarshalPublicKey) numUpdates
  pure (updates.foldl (fun (m : ParamUpdates) e => m.insert e.1 e.2) ∅)

/-- `ParamUpdates.UnmarshalBinary`. -/
def ParamUpdates.unmarshalBinary (data : Bytes) : Except String ParamUpdates :=
  (ParamUpdates.readFrom unmarshalPublicKey).run' data

end Decode

/-! ### Updates that fit -/

/-- An update that `MarshalBinary` writes as `UnmarshalBinary` reads it: a parameter's name with a
value of its type, a leader key of a registered type, and a key or a status short enough for its
`uint16` length. -/
def ParamFits (name : Bytes) : ParamValue → Prop
  | .publicKey k =>
    name = paramNameLeader ∧ (keyTypeEncodeFlag k.keyType).isSome ∧ k.bytes.length + 4 < 2 ^ 16
  | .bool _ => name = paramNameDisabledGasCosts
  | .duration _ => name = paramNameJoinExpiry
  | .int64 _ => name = paramNameMaxBlockSize ∨ name = paramNameMaxVotesPerTx
  | .migrationStatus ms => name = paramNameMigrationStatus ∧ ms.bytes.length < 2 ^ 16
  | .other _ => False

/-- Updates every one of which fits. -/
def ParamUpdates.Fits (pu : ParamUpdates) : Prop := ∀ e ∈ pu.entries, ParamFits e.1 e.2

/-- The empty migration status. -/
def emptyStatus : ParamValue := .migrationStatus ⟨[]⟩

lemma mem_paramNames_of_fits {name : Bytes} {v : ParamValue} (h : ParamFits name v) :
    name ∈ paramNames := by
  cases v with
  | publicKey _ => simp [paramNames, h.1]
  | bool _ => simp [paramNames, show name = paramNameDisabledGasCosts from h]
  | duration _ => simp [paramNames, show name = paramNameJoinExpiry from h]
  | int64 _ => rcases h with rfl | rfl <;> simp [paramNames]
  | migrationStatus _ => simp [paramNames, h.1]
  | other _ => exact h.elim

lemma paramNames_short : ∀ name ∈ paramNames, name ≠ [] ∧ name.length < 2 ^ 16 := by
  decide

/-- `sort.Strings` puts the migration status's name after every other parameter's. -/
lemma lt_paramNameMigrationStatus :
    ∀ name ∈ paramNames, name ≠ paramNameMigrationStatus → name < paramNameMigrationStatus := by
  decide

/-- A map of fitting updates has at most one update for each of the six names. -/
lemma ParamUpdates.length_entries_le {pu : ParamUpdates} (hfits : pu.Fits) :
    pu.entries.length ≤ paramNames.length := by
  have hsub : pu.keys ⊆ paramNames := fun k hk => by
    obtain ⟨e, he, rfl⟩ := List.mem_map.mp hk
    exact mem_paramNames_of_fits (hfits e he)
  have hlen := (List.subperm_of_subset pu.nodupKeys hsub).length_le
  simpa [AList.keys, List.keys] using hlen

/-! ### The sorted updates -/

section Sorted

variable {pu : ParamUpdates}

lemma ParamUpdates.sorted_perm (pu : ParamUpdates) : pu.sorted.Perm pu.entries :=
  List.mergeSort_perm _ _

lemma ParamUpdates.nodupKeys_sorted (pu : ParamUpdates) : pu.sorted.NodupKeys :=
  (List.perm_nodupKeys pu.sorted_perm).mpr pu.nodupKeys

lemma ParamUpdates.sorted_pairwise (pu : ParamUpdates) :
    pu.sorted.Pairwise fun a b => a.1 ≤ b.1 := by
  have h := @List.pairwise_mergeSort _ (fun a b : (_ : Bytes) × ParamValue => decide (a.1 ≤ b.1))
    (fun a b c hab hbc => by simpa using List.le_trans (of_decide_eq_true hab) (of_decide_eq_true hbc))
    (fun a b => by simpa using List.le_total a.1 b.1) pu.entries
  exact h.imp fun hab => of_decide_eq_true hab

lemma ParamUpdates.fits_of_mem_sorted (hfits : pu.Fits) {e : (_ : Bytes) × ParamValue}
    (he : e ∈ pu.sorted) : ParamFits e.1 e.2 :=
  hfits e (pu.sorted_perm.mem_iff.mp he)

/-- An update written is the map's value under its name. -/
lemma ParamUpdates.lookup_of_mem_sorted {e : (_ : Bytes) × ParamValue} (he : e ∈ pu.sorted) :
    pu.lookup e.1 = some e.2 :=
  AList.mem_lookup_iff.mpr (pu.sorted_perm.mem_iff.mp he)

/-- The migration status, when the map holds one, is the last update written. -/
theorem sorted_eq_of_migrationStatus (hfits : pu.Fits) {v : ParamValue}
    (hms : pu.lookup paramNameMigrationStatus = some v) :
    ∃ l, pu.sorted = l ++ [⟨paramNameMigrationStatus, v⟩] := by
  have hmem : ⟨paramNameMigrationStatus, v⟩ ∈ pu.sorted :=
    pu.sorted_perm.mem_iff.mpr (AList.mem_lookup_iff.mp hms)
  obtain ⟨l₁, l₂, hsplit⟩ := List.append_of_mem hmem
  cases l₂ with
  | nil => exact ⟨l₁, hsplit⟩
  | cons y l₃ =>
    -- an update after the status has a name at least as large, and a different one
    exfalso
    have hpair := pu.sorted_pairwise
    rw [hsplit, List.pairwise_append] at hpair
    have hle : paramNameMigrationStatus ≤ y.1 := (List.pairwise_cons.mp hpair.2.1).1 y (by simp)
    have hnd := pu.nodupKeys_sorted
    rw [hsplit] at hnd
    have hne : y.1 ≠ paramNameMigrationStatus := by
      have := (List.nodupKeys_cons.mp (hnd.sublist (List.sublist_append_right _ _))).1
      intro h
      exact this (by simp [List.keys, h])
    have hy : y ∈ pu.sorted := by simp [hsplit]
    have hlt := lt_paramNameMigrationStatus y.1
      (mem_paramNames_of_fits (pu.fits_of_mem_sorted hfits hy)) hne
    exact List.not_lt.mpr hle hlt

/-- Assigning the sorted updates into a new map gives back the map. -/
lemma ParamUpdates.lookup_foldl_sorted (pu : ParamUpdates) (k : Bytes) :
    (pu.sorted.foldl (fun (m : ParamUpdates) e => m.insert e.1 e.2) ∅).lookup k = pu.lookup k := by
  have hperm : pu.sorted.reverse.Perm pu.entries := (List.reverse_perm _).trans pu.sorted_perm
  rw [GoMap.lookup_foldl_insert, AList.lookup_empty, Option.or_none,
    List.perm_dlookup k ((List.perm_nodupKeys hperm).mpr pu.nodupKeys) hperm]
  rfl

end Sorted

/-! ### Reading back what was written -/

section RoundTrip

/-- **One value reads back.** A fitting value is written, in fewer than `2^17` bytes, and reads
back, a leader key when `UnmarshalPublicKey` reads its bytes back. Only an empty status at the
very end of the input does not: `Read` of nothing there is `EOF`. -/
theorem marshalParamValue_of_fits {name : Bytes} {v : ParamValue} (hfit : ParamFits name v) :
    ∃ bs, marshalParamValue name v = .ok bs ∧ bs.length < 2 ^ 17 ∧
      ∀ unmarshalPublicKey : Bytes → KeyType → Except String Types.PublicKey,
        (∀ k, v = .publicKey k → unmarshalPublicKey k.bytes k.keyType = .ok k) →
        ∀ rest, (v = emptyStatus → rest ≠ []) →
          readParamValue unmarshalPublicKey name (bs ++ rest) = .ok (v, rest) := by
  cases v with
  | publicKey k =>
    obtain ⟨rfl, hreg, hlen⟩ := hfit
    obtain ⟨flag, hflag⟩ := Option.isSome_iff_exists.mp hreg
    have hw : wireEncodeKey k = .ok (leBytes 4 flag ++ k.bytes) := by simp [wireEncodeKey, hflag]
    refine ⟨leBytes 2 (leBytes 4 flag ++ k.bytes).length ++ (leBytes 4 flag ++ k.bytes), ?_,
      by simp; omega, fun unmarshalPublicKey hkey rest _ => ?_⟩
    · rw [marshalParamValue, if_pos rfl, hw]
      rfl
    have hpk : wireDecodePubKey unmarshalPublicKey (leBytes 4 flag ++ k.bytes) = .ok k := by
      simp [wireDecodePubKey, wireDecodeKeyType_wireEncodeKey hw, hkey k rfl, bind, Except.bind]
    have hwlen : (leBytes 4 flag ++ k.bytes).length < 2 ^ 16 := by simp; omega
    rw [List.append_assoc, readParamValue, if_pos rfl,
      Reader.bind_of_ok (readUint_leBytes 2 _ _), Nat.mod_eq_of_lt (by omega),
      Reader.bind_of_ok (Reader.read_append (by simp [← List.length_pos_iff, length_leBytes])), hpk]
    rfl
  | bool b =>
    obtain rfl := hfit
    refine ⟨_, rfl, by simp, fun _ _ rest _ => ?_⟩
    rw [readParamValue, if_neg (by decide), if_neg (by decide), if_neg (by decide), if_pos rfl,
      Reader.bind_of_ok (readUint_leBytes 1 _ _)]
    cases b <;> rfl
  | duration d =>
    obtain rfl := hfit
    refine ⟨_, rfl, by simp, fun _ _ rest _ => ?_⟩
    rw [readParamValue, if_neg (by decide), if_pos rfl, Reader.bind_of_ok (readUint_leBytes 8 _ _)]
    simp
  | int64 x =>
    refine ⟨leBytes 8 x.toUInt64.toNat, ?_, by simp, fun _ _ rest _ => ?_⟩
    · rcases hfit with rfl | rfl <;> rfl
    -- both names take the same branch of the reader
    have hbranch : ¬ name = paramNameLeader ∧ ¬ name = paramNameJoinExpiry ∧
        (name = paramNameMaxBlockSize ∨ name = paramNameMaxVotesPerTx) := by
      rcases hfit with rfl | rfl <;> decide
    rw [readParamValue, if_neg hbranch.1, if_neg hbranch.2.1, if_pos hbranch.2.2,
      Reader.bind_of_ok (readUint_leBytes 8 _ _)]
    simp
  | migrationStatus ms =>
    obtain ⟨rfl, hlen⟩ := hfit
    refine ⟨_, rfl, by simp; omega, fun _ _ rest hrest => ?_⟩
    have hne : ms.bytes ++ rest ≠ [] := by
      intro h
      obtain ⟨hms, rfl⟩ := List.append_eq_nil_iff.mp h
      exact hrest (by cases ms; simp_all [emptyStatus]) rfl
    rw [List.append_assoc, readParamValue, if_neg (by decide), if_neg (by decide),
      if_neg (by decide), if_neg (by decide), if_pos rfl,
      Reader.bind_of_ok (readUint_leBytes 2 _ _), Nat.mod_eq_of_lt (by omega),
      Reader.bind_of_ok (Reader.read_append hne)]
    rfl
  | other _ => exact hfit.elim

/-- **One update reads back**: its name, then its value. -/
theorem marshalParamUpdate_of_fits {e : (_ : Bytes) × ParamValue} (hfit : ParamFits e.1 e.2) :
    ∃ bs, marshalParamUpdate e = .ok bs ∧ bs.length < 2 ^ 18 ∧
      ∀ unmarshalPublicKey : Bytes → KeyType → Except String Types.PublicKey,
        (∀ k, e.2 = .publicKey k → unmarshalPublicKey k.bytes k.keyType = .ok k) →
        ∀ rest, (e.2 = emptyStatus → rest ≠ []) →
          readParamUpdate unmarshalPublicKey (bs ++ rest) = .ok (e, rest) := by
  obtain ⟨vb, hv, hvlen, hread⟩ := marshalParamValue_of_fits hfit
  obtain ⟨hnil, hlen⟩ := paramNames_short e.1 (mem_paramNames_of_fits hfit)
  refine ⟨_, by rw [marshalParamUpdate, hv]; rfl, by simp; omega,
    fun unmarshalPublicKey hkey rest hrest => ?_⟩
  rw [List.append_assoc, List.append_assoc, readParamUpdate,
    Reader.bind_of_ok (readUint_leBytes 2 _ _), Nat.mod_eq_of_lt (by omega),
    Reader.bind_of_ok (Reader.read_append (by simp [hnil])),
    Reader.bind_of_ok (hread unmarshalPublicKey hkey rest hrest)]
  rfl

variable {pu : ParamUpdates}

/-- Fitting updates are written, in fewer than `2^63` bytes, short enough for a compact-bytes
length. -/
lemma ParamUpdates.marshalBinary_of_fits (hfits : pu.Fits) :
    ∃ bts, pu.marshalBinary = .ok bts ∧ bts.length < 2 ^ 63 := by
  obtain ⟨updates, hmap, hshort⟩ := mapM_forall₂ (R := fun _ bs => bs.length < 2 ^ 18) pu.sorted
    fun e he => (marshalParamUpdate_of_fits (pu.fits_of_mem_sorted hfits he)).imp
      fun _ h => ⟨h.1, h.2.1⟩
  refine ⟨_, by rw [ParamUpdates.marshalBinary, hmap]; rfl, ?_⟩
  -- at most six updates, each of fewer than `2^18` bytes
  have hsum : (updates.map List.length).sum ≤ updates.length * 2 ^ 18 := by
    have h := List.sum_le_card_nsmul (updates.map List.length) (2 ^ 18) fun n hn => by
      obtain ⟨bs, hbs, rfl⟩ := List.mem_map.mp hn
      obtain ⟨e, he, hfe⟩ := mem_of_mapM_eq_ok hmap bs hbs
      obtain ⟨bs', hbs', hlen, -⟩ := marshalParamUpdate_of_fits (pu.fits_of_mem_sorted hfits he)
      rw [hfe] at hbs'
      cases hbs'
      exact hlen.le
    rwa [List.length_map, smul_eq_mul] at h
  have hcount : updates.length ≤ 6 := by
    rw [← hshort.length_eq, pu.sorted_perm.length_eq]
    exact pu.length_entries_le hfits
  simp only [List.length_append, length_leBytes, List.length_flatten]
  nlinarith

variable (unmarshalPublicKey : Bytes → KeyType → Except String Types.PublicKey)

/-- What `UnmarshalBinary` does after the header `MarshalBinary` writes for `n` updates: it reads
`n` updates. -/
lemma readFrom_header (n : ℕ) (hn : n < 2 ^ 16) (rest : Bytes) :
    ParamUpdates.readFrom unmarshalPublicKey (leBytes 2 0 ++ leBytes 2 n ++ rest) =
      (do
        let updates ← Reader.readN (readParamUpdate unmarshalPublicKey) n
        pure (updates.foldl (fun (m : ParamUpdates) e => m.insert e.1 e.2) ∅) :
          Reader ParamUpdates) rest := by
  rw [ParamUpdates.readFrom, List.append_assoc, Reader.bind_of_ok (readUint_leBytes 2 _ _)]
  rw [if_neg (by decide)]
  dsimp only
  rw [Reader.bind_of_ok (readUint_leBytes 2 _ _), Nat.mod_eq_of_lt (by omega)]

/-- With a leader key that `UnmarshalPublicKey` reads back, fitting updates of the map other than
an empty status are written, and each reads back whatever follows it. -/
lemma ParamUpdates.forall₂_of_fits (hfits : pu.Fits)
    (hkey : ∀ k, pu.lookup paramNameLeader = some (.publicKey k) →
      unmarshalPublicKey k.bytes k.keyType = .ok k)
    {l : List ((_ : Bytes) × ParamValue)} (hl : ∀ e ∈ l, e ∈ pu.sorted)
    (hne : ∀ e ∈ l, e.2 ≠ emptyStatus) :
    ∃ bss, l.mapM marshalParamUpdate = .ok bss ∧
      List.Forall₂ (fun e bs => ∀ rest,
        readParamUpdate unmarshalPublicKey (bs ++ rest) = .ok (e, rest)) l bss := by
  have hone : ∀ e ∈ l, ∃ bs, marshalParamUpdate e = .ok bs ∧ ∀ rest,
      readParamUpdate unmarshalPublicKey (bs ++ rest) = .ok (e, rest) := fun e he => by
    have hfit := pu.fits_of_mem_sorted hfits (hl e he)
    obtain ⟨bs, hbs, -, hread⟩ := marshalParamUpdate_of_fits hfit
    refine ⟨bs, hbs, fun rest =>
      hread unmarshalPublicKey (fun k hk => hkey k ?_) rest fun h => absurd h (hne e he)⟩
    -- a key is only ever the leader's value
    have hname : e.1 = paramNameLeader := by rw [hk] at hfit; exact hfit.1
    rw [← hname, ← hk]
    exact pu.lookup_of_mem_sorted (hl e he)
  exact mapM_forall₂ l hone

/-- A fitting map holds at most six updates, fewer than its `uint16` count can hold. -/
lemma ParamUpdates.length_entries_lt (hfits : pu.Fits) : pu.entries.length < 2 ^ 16 := by
  have := pu.length_entries_le hfits
  simp only [paramNames, List.length_cons, List.length_nil] at this
  omega

/-- **Updates without an empty status read back** as the same map. -/
theorem ParamUpdates.roundTrip_of_fits (hfits : pu.Fits)
    (hkey : ∀ k, pu.lookup paramNameLeader = some (.publicKey k) →
      unmarshalPublicKey k.bytes k.keyType = .ok k)
    (hms : pu.lookup paramNameMigrationStatus ≠ some emptyStatus) :
    ∃ bts pu', pu.marshalBinary = .ok bts ∧
      ParamUpdates.unmarshalBinary unmarshalPublicKey bts = .ok pu' ∧
      ∀ k, pu'.lookup k = pu.lookup k := by
  have hnone : ∀ e ∈ pu.sorted, e.2 ≠ emptyStatus := fun e he hempty => by
    have hfit := pu.fits_of_mem_sorted hfits he
    rw [hempty] at hfit
    -- an empty status stands only under the status's own name
    have hlookup := pu.lookup_of_mem_sorted he
    rw [hfit.1, hempty] at hlookup
    exact hms hlookup
  obtain ⟨bss, hbss, hread⟩ :=
    pu.forall₂_of_fits unmarshalPublicKey hfits hkey (fun _ h => h) hnone
  have hloop := Reader.readN_flatten hread []
  rw [pu.sorted_perm.length_eq, List.append_nil] at hloop
  have hdecode : ParamUpdates.readFrom unmarshalPublicKey
      (leBytes 2 0 ++ leBytes 2 pu.entries.length ++ bss.flatten) =
        .ok (pu.sorted.foldl (fun (m : ParamUpdates) e => m.insert e.1 e.2) ∅, []) := by
    rw [readFrom_header _ _ (pu.length_entries_lt hfits), Reader.bind_of_ok hloop]
    rfl
  exact ⟨_, _, by rw [ParamUpdates.marshalBinary, hbss]; rfl, Reader.run'_of_ok hdecode,
    pu.lookup_foldl_sorted⟩

/-- What `MarshalBinary` writes for an empty migration status. -/
lemma marshalParamUpdate_emptyStatus :
    marshalParamUpdate ⟨paramNameMigrationStatus, emptyStatus⟩ =
      .ok (leBytes 2 16 ++ paramNameMigrationStatus ++ leBytes 2 0) := rfl

/-- At the end of the input, the empty status is a `Read` of nothing: `EOF`. -/
lemma readParamUpdate_emptyStatus :
    readParamUpdate unmarshalPublicKey (leBytes 2 16 ++ paramNameMigrationStatus ++ leBytes 2 0) =
      .error Reader.eof := by
  -- the status's length, `0`, is the last thing in the input
  have hlength := readUint_leBytes 2 0 []
  rw [List.append_nil] at hlength
  have hvalue : readParamValue unmarshalPublicKey paramNameMigrationStatus (leBytes 2 0) =
      .error Reader.eof := by
    rw [readParamValue, if_neg (by decide), if_neg (by decide), if_neg (by decide),
      if_neg (by decide), if_pos rfl, Reader.bind_of_ok hlength,
      Reader.bind_of_error (Reader.read_nil _)]
  rw [List.append_assoc, readParamUpdate, Reader.bind_of_ok (readUint_leBytes 2 _ _),
    show 16 % 256 ^ 2 = paramNameMigrationStatus.length by decide,
    Reader.bind_of_ok (Reader.read_append (by decide)), Reader.bind_of_error hvalue]

/-- **An empty migration status does not read back.** It is the last update written, and the
read of its empty value at the end of the input is `EOF`, which `UnmarshalBinary` returns. -/
theorem ParamUpdates.unmarshalBinary_eof_of_empty_status (hfits : pu.Fits)
    (hkey : ∀ k, pu.lookup paramNameLeader = some (.publicKey k) →
      unmarshalPublicKey k.bytes k.keyType = .ok k)
    (hms : pu.lookup paramNameMigrationStatus = some emptyStatus) :
    ∃ bts, pu.marshalBinary = .ok bts ∧
      ParamUpdates.unmarshalBinary unmarshalPublicKey bts = .error Reader.eof := by
  obtain ⟨l, hl⟩ := sorted_eq_of_migrationStatus hfits hms
  -- the updates before the status are under other names, so none of them is the status
  have hout : paramNameMigrationStatus ∉ l.keys := by
    have hnd := pu.nodupKeys_sorted
    rw [hl] at hnd
    exact (List.nodupKeys_cons.mp ((List.perm_nodupKeys (List.perm_append_singleton _ _)).mp hnd)).1
  have hnone : ∀ e ∈ l, e.2 ≠ emptyStatus := fun e he hempty => by
    have hfit := pu.fits_of_mem_sorted hfits (by rw [hl]; exact List.mem_append_left _ he)
    rw [hempty] at hfit
    exact hout (hfit.1 ▸ List.mem_keys_of_mem he)
  obtain ⟨bss, hbss, hread⟩ := pu.forall₂_of_fits unmarshalPublicKey hfits hkey
    (fun e he => by rw [hl]; exact List.mem_append_left _ he) hnone
  have hcount : pu.entries.length = l.length + 0 + 1 := by
    rw [← pu.sorted_perm.length_eq, hl, List.length_append, List.length_singleton]
  refine ⟨leBytes 2 0 ++ leBytes 2 pu.entries.length ++
      (bss.flatten ++ (leBytes 2 16 ++ paramNameMigrationStatus ++ leBytes 2 0)), ?_,
    Reader.run'_of_error ?_⟩
  · rw [ParamUpdates.marshalBinary, hl, List.mapM_append, hbss, List.mapM_cons,
      marshalParamUpdate_emptyStatus]
    simp [bind, Except.bind, pure, Except.pure]
  · rw [readFrom_header _ _ (pu.length_entries_lt hfits), hcount,
      Reader.bind_of_error (Reader.readN_flatten_of_error
        (readParamUpdate_emptyStatus unmarshalPublicKey) 0 hread)]

end RoundTrip

end KwilDb.Core
