import KwilDb.Voting.Store
import KwilDb.Lib.Keyed
import KwilDb.Lib.Run

/-!
# The validator set of the vote store

`SetValidatorPower` writes a voter's power to `voters` through the transaction it is handed, a
power of `0` deleting the voter, and then records the power in `valUpdates` under the voter's
`encodePubKey`. The set in memory, `validatorSet`, which `GetValidatorPower` answers from, changes
only at `Commit`, which replays the updates in the map's order; `Rollback` drops them. The callers
are `GenesisInit`, the validator leave route and the resolve functions of validator joins and
removals. The last two run in a nested transaction that a failure rolls back, while the store's
memory keeps whatever the body recorded.

Over every run of blocks the set in memory mirrors the committed table (`reachable_inv`): every
caller fails before `SetValidatorPower` changes anything or ends with it, so no transaction that
is rolled back holds one. `ValidatorUpdates` lists every voter whose power the block changed, with
its new power, and also the voters whose power was set to what it already was.

A voter's row is found by `NewUUIDV5` of its `encodePubKey`, a parameter here; the results assume
it injective.
-/

namespace KwilDb.Voting

open KwilDb.Lib KwilDb.Core

/-! ## The voters table -/

/-- `encodePubKey`: `WireEncodeKeyType`, the key type's flag as four little-endian bytes, then the
key. `WireEncodeKeyType` panics on a key type outside the registry. -/
def encodePubKey (pubKey : Bytes) (keyType : KeyType) : Except Failure Bytes :=
  match keyTypeEncodeFlag keyType with
  | some flag => .ok (leBytes 4 flag ++ pubKey)
  | none => .error (.panic "unknown key type")

/-- The error Postgres raises when a row breaks `CHECK(power > 0)` of `voters`. -/
def votersPowerCheckError : String :=
  "ERROR: new row for relation \"voters\" violates check constraint \"voters_power_check\" (SQLSTATE 23514)"

/-- The error Postgres raises when an insert breaks the unique `name` of `voters`. -/
def votersNameKeyError : String :=
  "ERROR: duplicate key value violates unique constraint \"voters_name_key\" (SQLSTATE 23505)"

section Table

variable (db : VoteStore)

/-- **`upsertVoter`**: `INSERT ... ON CONFLICT(id) DO UPDATE SET power = $3`, under the check on
the power and the unique `name`. -/
def upsertVoter (id : UUID) (name : AccountID) (power : Int64) : Except String VoteStore :=
  if power ≤ 0 then throw votersPowerCheckError
  else if db.voters.any (·.id = id) then
    pure { db with voters := db.voters.map fun r => if r.id = id then { r with power } else r }
  else if db.voters.any (·.name = name) then throw votersNameKeyError
  else pure { db with voters := db.voters ++ [⟨id, name, power⟩] }

/-- **`removeVoter`**: `DELETE ... WHERE id = $1`; the voter's votes go with it (`ON DELETE
CASCADE`). -/
def removeVoter (id : UUID) : VoteStore :=
  { db with voters := db.voters.filter (·.id ≠ id), votes := db.votes.filter (·.2 ≠ id) }

end Table

/-! ## The store's memory -/

/-- The fields of `VoteStore` that hold validators: the committed `validatorSet`, and the block's
`valUpdates`, keyed by `string(encodePubKey(...))`. -/
structure ValidatorState where
  validatorSet : List Validator
  valUpdates : GoMap Bytes Validator

/-- What a call of the store works on: the database through the caller's transaction, and the
store's memory. -/
structure Env where
  db : VoteStore
  mem : ValidatorState

/-- `bytes.Equal(v.Identifier, pubKey) && v.KeyType == keyType`, the test of `getValidator`,
`addOrUpdateValidator` and `removeValidator`. -/
def sameValidator (pubKey : Bytes) (keyType : KeyType) (v : Validator) : Bool :=
  v.accountID.identifier == pubKey && v.accountID.keyType == keyType

/-- `getValidator`: the first entry of the set with the key. -/
def getValidator (m : ValidatorState) (pubKey : Bytes) (keyType : KeyType) : Option Validator :=
  m.validatorSet.find? (sameValidator pubKey keyType)

/-- **`GetValidatorPower`**: the power in the committed set, `0` for a key not in it. -/
def getValidatorPower (m : ValidatorState) (pubKey : Bytes) (keyType : KeyType) : Int64 :=
  match getValidator m pubKey keyType with
  | some val => val.power
  | none => 0

/-- `addOrUpdateValidator`: replace the first entry with the validator's key, or append it. -/
def addOrUpdateValidator (val : Validator) (set : List Validator) : List Validator :=
  match set.findIdx? (sameValidator val.accountID.identifier val.accountID.keyType) with
  | some idx => set.set idx val
  | none => set ++ [val]

/-- `removeValidator`: `slices.DeleteFunc`, every entry with the validator's key. -/
def removeValidator (val : Validator) (set : List Validator) : List Validator :=
  set.filter fun v => !sameValidator val.accountID.identifier val.accountID.keyType v

/-- One update of `Commit`'s loop. -/
def applyValUpdate (set : List Validator) (val : Validator) : List Validator :=
  if val.power = 0 then removeValidator val set else addOrUpdateValidator val set

/-- **`Commit`**, visiting the updates in `order`: Go leaves the order of a `range` over a map
open, so a run may take any order of `valUpdates`. -/
def ValidatorState.commit (order : List Validator) (m : ValidatorState) : ValidatorState :=
  ⟨order.foldl applyValUpdate m.validatorSet, ∅⟩

/-- `Rollback`. -/
def ValidatorState.rollback (m : ValidatorState) : ValidatorState :=
  { m with valUpdates := ∅ }

/-- `LoadValidatorSet`: the set read from `voters` (`getValidators`), nothing pending. -/
def loadValidatorSet (db : VoteStore) : ValidatorState :=
  ⟨db.voters.map fun r => ⟨r.name, r.power⟩, ∅⟩

/-! ## `SetValidatorPower` and its callers -/

section Calls

variable (newUUIDV5 : Bytes → UUID)

/-- **`SetValidatorPower`**: refuses a negative power; deletes the voter for `0` and upserts it
otherwise, through the caller's transaction; then records the power in `valUpdates`. -/
def setValidatorPower (pubKey : Bytes) (pubKeyType : KeyType) (power : Int64) :
    EStateM Failure Env Unit := fun s =>
  if power < 0 then .error (.error "cannot set a negative power") s
  else
    match encodePubKey pubKey pubKeyType with
    | .error e => .error e s
    | .ok pubkeyBts =>
      let uuid := newUUIDV5 pubkeyBts
      let written : Except String VoteStore :=
        if power = 0 then .ok (removeVoter s.db uuid)
        else upsertVoter s.db uuid ⟨pubKey, pubKeyType⟩ power
      match written with
      | .error e => .error (.error e) s
      | .ok db' => .ok () ⟨db', { s.mem with
          valUpdates := s.mem.valUpdates.insert pubkeyBts ⟨⟨pubKey, pubKeyType⟩, power⟩ }⟩

/-- `UpdatePowerRequest`, the body of a validator join or removal resolution. -/
structure UpdatePowerRequest where
  pubKey : Bytes
  pubKeyType : KeyType
  power : Int64

/-- The `ResolveFunc` of `validator_join`, given what `UnmarshalBinary` made of the body. -/
def resolveValidatorJoin (req : Except String UpdatePowerRequest) : EStateM Failure Env Unit :=
  match req with
  | .error e => throw (.error ("failed to unmarshal join request: " ++ e))
  | .ok joinReq => setValidatorPower newUUIDV5 joinReq.pubKey joinReq.pubKeyType joinReq.power

/-- The `ResolveFunc` of `validator_remove`, given what `UnmarshalBinary` made of the body. -/
def resolveValidatorRemove (req : Except String UpdatePowerRequest) : EStateM Failure Env Unit :=
  match req with
  | .error e => throw (.error ("failed to unmarshal remove request: " ++ e))
  | .ok removeReq =>
    if removeReq.power ≠ 0 then throw (.error "remove request with non-zero power")
    else setValidatorPower newUUIDV5 removeReq.pubKey removeReq.pubKeyType 0

/-- `ErrCallerNotValidator`. -/
def errCallerNotValidator : String := "caller is not a validator"

/-- **`validatorLeaveRoute.InTx`**, for a sender whose authenticator has key type `keyType`: the
leader cannot leave; a sender without power in the committed set is not a validator; otherwise
its power goes to `0`. -/
def validatorLeave (sender : Bytes) (keyType : KeyType) (proposer : Bytes) :
    EStateM Failure Env Unit := fun s =>
  if sender = proposer then .error (.error "leader cannot leave validator set") s
  else if getValidatorPower s.mem sender keyType ≤ 0 then .error (.error errCallerNotValidator) s
  else setValidatorPower newUUIDV5 sender keyType 0 s

/-- `GenesisInit`'s loop over the genesis validators, on the block's own transaction. -/
def genesisValidators (vals : List Validator) : EStateM Failure Env Unit :=
  vals.forM fun v => setValidatorPower newUUIDV5 v.accountID.identifier v.accountID.keyType v.power

end Calls

/-- A nested transaction, `tx := db.BeginTx(ctx)`, then `tx.Rollback` when the body fails and
`tx.Commit` otherwise: the database loses a failed body's writes, the store's memory keeps what
the body recorded, and a panic goes on up. -/
def nested (body : EStateM Failure Env Unit) : EStateM Failure Env (Except String Unit) := fun s =>
  match body s with
  | .ok () s' => .ok (.ok ()) s'
  | .error (.error e) s' => .ok (.error e) { s' with db := s.db }
  | .error (.panic m) s' => .error (.panic m) s'

/-! ## Runs of blocks -/

/-- A call of the store within a block: genesis, a validator leave transaction (the route runs
`InTx` in a nested transaction), or the resolution of a validator join or removal (`processVotes`
runs each `ResolveFunc` in a nested transaction). -/
inductive Call where
  | genesis (vals : List Validator)
  | leave (sender : Bytes) (keyType : KeyType) (proposer : Bytes)
  | join (req : Except String UpdatePowerRequest)
  | remove (req : Except String UpdatePowerRequest)

/-- What a call does to the database and the store's memory. -/
def Call.run (newUUIDV5 : Bytes → UUID) : Call → EStateM Failure Env Unit
  | .genesis vals => genesisValidators newUUIDV5 vals
  | .leave sender keyType proposer =>
    (fun _ => ()) <$> nested (validatorLeave newUUIDV5 sender keyType proposer)
  | .join req => (fun _ => ()) <$> nested (resolveValidatorJoin newUUIDV5 req)
  | .remove req => (fun _ => ()) <$> nested (resolveValidatorRemove newUUIDV5 req)

/-- A node between calls: the table as last committed, and the block's transaction with the
store's memory. -/
structure Node where
  committed : VoteStore
  env : Env

/-- A node at start-up: `LoadValidatorSet` of the committed table. -/
def Node.init (db : VoteStore) : Node := ⟨db, ⟨db, loadValidatorSet db⟩⟩

/-- The steps of a node: a call, whatever it returns; the block's commit, the database's and then
`Commit`'s, in an order of the pending updates; or the block's rollback. -/
inductive Step (newUUIDV5 : Bytes → UUID) : Node → Node → Prop where
  | call (c : Call) (n : Node) :
    Step newUUIDV5 n ⟨n.committed, finalState (c.run newUUIDV5 n.env)⟩
  | commit (n : Node) (order : List Validator)
      (horder : order.Perm (n.env.mem.valUpdates.entries.map Sigma.snd)) :
    Step newUUIDV5 n ⟨n.env.db, ⟨n.env.db, n.env.mem.commit order⟩⟩
  | rollback (n : Node) :
    Step newUUIDV5 n ⟨n.committed, ⟨n.committed, n.env.mem.rollback⟩⟩

/-! ## What the table and the set say -/

/-- The power `voters` gives an account: its row's. -/
def tablePower (db : VoteStore) (a : AccountID) : Option Int64 :=
  keyedValue (·.name) (·.power) db.voters a

/-- The power a validator set gives an account: its first entry's. -/
def setPower (set : List Validator) (a : AccountID) : Option Int64 :=
  keyedValue (·.accountID) (·.power) set a

/-- The update pending for an account in `valUpdates`. -/
def pendingUpdate (m : ValidatorState) (a : AccountID) : Option Validator :=
  match encodePubKey a.identifier a.keyType with
  | .ok k => m.valUpdates.lookup k
  | .error _ => none

/-- What an update makes of a power: a power of `0` removes the voter. -/
def updatedPower : Option Validator → Option Int64 → Option Int64
  | some v, _ => if v.power = 0 then none else some v.power
  | none, old => old

lemma pos_of_nonneg_of_ne_zero {p : Int64} (h : 0 ≤ p) (h0 : p ≠ 0) : 0 < p := by
  have h0' : p.toInt ≠ 0 := fun h' => h0 (Int64.toInt_inj.mp (by simpa using h'))
  rw [Int64.le_iff_toInt_le] at h
  rw [Int64.lt_iff_toInt_lt]
  simp only [Int64.toInt_zero] at h ⊢
  omega

/-! ### `encodePubKey` -/

lemma encodePubKey_eq_ok {pubKey : Bytes} {keyType : KeyType} {k : Bytes}
    (h : encodePubKey pubKey keyType = .ok k) :
    ∃ flag, keyTypeEncodeFlag keyType = some flag ∧ k = leBytes 4 flag ++ pubKey := by
  unfold encodePubKey at h
  split at h
  · cases h
    exact ⟨_, ‹_›, rfl⟩
  · cases h

/-- **`encodePubKey` tells accounts apart**: the flag's four bytes fix the key type, the rest is
the key. -/
theorem encodePubKey_inj {a b : AccountID} {k : Bytes}
    (ha : encodePubKey a.identifier a.keyType = .ok k)
    (hb : encodePubKey b.identifier b.keyType = .ok k) : a = b := by
  obtain ⟨fa, hfa, rfl⟩ := encodePubKey_eq_ok ha
  obtain ⟨fb, hfb, hk⟩ := encodePubKey_eq_ok hb
  have hflag : leBytes 4 fa = leBytes 4 fb := by simpa using congrArg (List.take 4) hk
  have hid : a.identifier = b.identifier := by simpa using congrArg (List.drop 4) hk
  -- the registry's flags are `0` and `1`, whose bytes differ
  have hsmall : ∀ {kt : KeyType} {f : ℕ}, keyTypeEncodeFlag kt = some f → f = 0 ∨ f = 1 := by
    intro kt f h
    unfold keyTypeEncodeFlag at h
    split_ifs at h <;> cases h <;> simp
  have hf : fa = fb := by
    rcases hsmall hfa with rfl | rfl <;> rcases hsmall hfb with rfl | rfl
    all_goals first | rfl | exact absurd hflag (by decide)
  have hkt : a.keyType = b.keyType := keyType_eq_of_flag hfa (hf ▸ hfb)
  obtain ⟨_, _⟩ := a
  obtain ⟨_, _⟩ := b
  simp only at hid hkt
  rw [hid, hkt]

/-! ### The voters table -/

section Rows

variable (newUUIDV5 : Bytes → UUID)

/-- The rows of `voters` as `SetValidatorPower` writes them: unique ids, each the UUID of the
row's `encodePubKey`, and positive powers. -/
structure RowsWF (db : VoteStore) : Prop where
  ids : (db.voters.map (·.id)).Nodup
  row : ∀ r ∈ db.voters, 0 < r.power ∧
    ∃ k, encodePubKey r.name.identifier r.name.keyType = .ok k ∧ r.id = newUUIDV5 k

variable {newUUIDV5} (hinj : Function.Injective newUUIDV5) {db : VoteStore}
include hinj

/-- A row has the id of an account exactly when it is that account's row. -/
theorem RowsWF.id_eq_iff (hwf : RowsWF newUUIDV5 db) {r : VoterRow} (hr : r ∈ db.voters)
    {a : AccountID} {k : Bytes} (hk : encodePubKey a.identifier a.keyType = .ok k) :
    r.id = newUUIDV5 k ↔ r.name = a := by
  obtain ⟨-, kr, hkr, hid⟩ := hwf.row r hr
  constructor
  · intro h
    exact encodePubKey_inj (hinj (hid.symm.trans h) ▸ hkr) hk
  · rintro rfl
    rw [hid, Except.ok.inj (hkr.symm.trans hk)]

theorem RowsWF.names_nodup (hwf : RowsWF newUUIDV5 db) : (db.voters.map (·.name)).Nodup := by
  refine List.Nodup.map_on (fun r hr r' hr' hname => ?_) (List.Nodup.of_map _ hwf.ids)
  obtain ⟨-, k, hk, -⟩ := hwf.row r' hr'
  have hid : r.id = r'.id := by
    rw [(hwf.id_eq_iff hinj hr' hk).mpr rfl, (hwf.id_eq_iff hinj hr (hname ▸ hk)).mpr rfl]
  exact List.inj_on_of_nodup_map hwf.ids hr hr' hid

variable {a : AccountID} {k : Bytes} (hk : encodePubKey a.identifier a.keyType = .ok k)
include hk

theorem tablePower_removeVoter (hwf : RowsWF newUUIDV5 db) (b : AccountID) :
    tablePower (removeVoter db (newUUIDV5 k)) b = if b = a then none else tablePower db b := by
  unfold tablePower removeVoter
  split_ifs with hb
  · subst hb
    exact keyedValue_filter_none _ fun r hr hname => by
      simpa using (hwf.id_eq_iff hinj hr hk).mpr hname
  · exact keyedValue_filter _ fun r hr hname => by
      simpa using fun hid => hb (hname ▸ (hwf.id_eq_iff hinj hr hk).mp hid)

omit hinj hk in
theorem RowsWF.removeVoter (hwf : RowsWF newUUIDV5 db) :
    RowsWF newUUIDV5 (removeVoter db (newUUIDV5 k)) where
  ids := hwf.ids.sublist (List.filter_sublist.map _)
  row r hr := hwf.row r (List.mem_of_mem_filter hr)

/-- **`upsertVoter` of a positive power** writes the account's power and no other; the unique
`name` never refuses it, as a row of that name would have had the id. -/
theorem upsertVoter_eq (hwf : RowsWF newUUIDV5 db) {power : Int64} (hpos : 0 < power) :
    ∃ db', upsertVoter db (newUUIDV5 k) a power = .ok db' ∧ RowsWF newUUIDV5 db' ∧
      ∀ b, tablePower db' b = if b = a then some power else tablePower db b := by
  have hle : ¬ power ≤ 0 := Int64.not_le.mpr hpos
  by_cases hex : ∃ r ∈ db.voters, r.id = newUUIDV5 k
  · -- the account's row takes the power
    obtain ⟨r₀, hr₀, hid₀⟩ := hex
    have hname₀ : r₀.name = a := (hwf.id_eq_iff hinj hr₀ hk).mp hid₀
    let f : VoterRow → VoterRow := fun r => if r.id = newUUIDV5 k then { r with power } else r
    have hany : db.voters.any (·.id = newUUIDV5 k) := List.any_eq_true.mpr ⟨r₀, hr₀, by simpa⟩
    refine ⟨{ db with voters := db.voters.map f }, by simp [upsertVoter, hle, hany, f]; rfl, ?_, ?_⟩
    · refine ⟨by simpa [List.map_map, Function.comp_def, f, apply_ite] using hwf.ids, ?_⟩
      simp only [List.mem_map]
      rintro _ ⟨r, hr, rfl⟩
      by_cases hrk : r.id = newUUIDV5 k
      · simp only [f, if_pos hrk]
        exact ⟨hpos, (hwf.row r hr).2⟩
      · simpa [f, hrk] using hwf.row r hr
    · intro b
      have hkeep : ∀ r, (f r).name = r.name := fun r => by by_cases h : r.id = newUUIDV5 k <;> simp [f, h]
      unfold tablePower
      rw [keyedValue_map f hkeep]
      split_ifs with hb
      · subst hb
        rw [← hname₀, keyedValue_of_mem (hwf.names_nodup hinj) hr₀]
        simp [f, hid₀]
      · refine keyedValue_congr_val fun r hr hrb => ?_
        have hrk : r.id ≠ newUUIDV5 k := fun h => hb (hrb ▸ (hwf.id_eq_iff hinj hr hk).mp h)
        simp [f, hrk]
  · -- a new row: no row has the account's name either
    have hany : db.voters.any (·.id = newUUIDV5 k) = false := by simpa using hex
    have hnone : ∀ r ∈ db.voters, r.name ≠ a := fun r hr hname =>
      hex ⟨r, hr, (hwf.id_eq_iff hinj hr hk).mpr hname⟩
    have hname : db.voters.any (·.name = a) = false := by simpa using hnone
    refine ⟨{ db with voters := db.voters ++ [⟨newUUIDV5 k, a, power⟩] },
      by simp [upsertVoter, hle, hany, hname]; rfl, ⟨?_, ?_⟩, ?_⟩
    · simpa [List.nodup_append] using ⟨hwf.ids, fun r hr h => hex ⟨r, hr, h⟩⟩
    · simp only [List.mem_append, List.mem_singleton]
      rintro r (hr | rfl)
      · exact hwf.row r hr
      · exact ⟨hpos, k, hk, rfl⟩
    · intro b
      unfold tablePower
      rw [keyedValue_append_singleton]
      by_cases hb : b = a
      · subst hb
        rw [keyedValue_eq_none.mpr hnone]
        simp
      · have hb' : ¬ a = b := fun h => hb h.symm
        simp [hb, hb']

end Rows

/-! ### The set in memory -/

lemma sameValidator_eq (a : AccountID) :
    sameValidator a.identifier a.keyType = fun v => decide (v.accountID = a) := by
  funext v
  obtain ⟨⟨i, kt⟩, p⟩ := v
  obtain ⟨i', kt'⟩ := a
  exact Bool.eq_iff_iff.mpr (by simp [sameValidator])

lemma addOrUpdateValidator_eq (val : Validator) (set : List Validator) :
    addOrUpdateValidator val set = upsertBy (·.accountID) val set := by
  unfold addOrUpdateValidator upsertBy
  -- `rewrite`, not `rw`: whether the two matches close by reducible `rfl` depends on whether
  -- Lean shares their match functions, which it does only within one file
  rewrite [sameValidator_eq]
  rfl

lemma removeValidator_eq (val : Validator) (set : List Validator) :
    removeValidator val set = set.filter fun v => decide (v.accountID ≠ val.accountID) := by
  unfold removeValidator
  rw [sameValidator_eq]
  simp

section SetUpdates

variable {set : List Validator} (hnd : (set.map (·.accountID)).Nodup)
include hnd

/-- One update of `Commit` sets the power of its validator, or removes it for `0`, and keeps the
others. -/
theorem setPower_applyValUpdate (val : Validator) (a : AccountID) :
    setPower (applyValUpdate set val) a =
      if val.accountID = a then updatedPower (some val) none else setPower set a := by
  unfold setPower applyValUpdate
  by_cases h0 : val.power = 0
  · rw [if_pos h0, removeValidator_eq]
    by_cases ha : val.accountID = a
    · rw [if_pos ha, updatedPower, if_pos h0]
      exact keyedValue_filter_none _ fun v _ hv => by simp [hv, ha]
    · rw [if_neg ha]
      exact keyedValue_filter _ fun v _ hv => by simpa [hv] using Ne.symm ha
  · rw [if_neg h0, addOrUpdateValidator_eq, keyedValue_upsertBy val set a hnd]
    simp only [updatedPower, h0, if_false]

theorem nodup_applyValUpdate (val : Validator) :
    ((applyValUpdate set val).map (·.accountID)).Nodup := by
  unfold applyValUpdate
  split_ifs
  · rw [removeValidator_eq]
    exact hnd.sublist (List.filter_sublist.map _)
  · rw [addOrUpdateValidator_eq]
    exact nodup_upsertBy val set hnd

end SetUpdates

lemma mem_applyValUpdate {set : List Validator} {val v : Validator}
    (hv : v ∈ applyValUpdate set val) : v ∈ set ∨ (v = val ∧ val.power ≠ 0) := by
  unfold applyValUpdate at hv
  split_ifs at hv with h0
  · rw [removeValidator_eq] at hv
    exact .inl (List.mem_of_mem_filter hv)
  · rw [addOrUpdateValidator_eq] at hv
    rcases mem_upsertBy hv with rfl | hv
    · exact .inr ⟨rfl, h0⟩
    · exact .inl hv

/-- **`Commit`'s loop**, over updates of distinct validators in any order: each validator takes
the power of its own update, the others keep theirs. -/
theorem setPower_foldl_applyValUpdate {order : List Validator}
    (horder : (order.map (·.accountID)).Nodup) {set : List Validator}
    (hnd : (set.map (·.accountID)).Nodup) (a : AccountID) :
    setPower (order.foldl applyValUpdate set) a =
      updatedPower (order.find? (·.accountID = a)) (setPower set a) := by
  have hstep : ∀ (l : List Validator) (val : Validator) (a : AccountID),
      (l.map (·.accountID)).Nodup →
      keyedValue (·.accountID) (·.power) (applyValUpdate l val) a =
        if val.accountID = a then updatedPower (some val) none
        else keyedValue (·.accountID) (·.power) l a :=
    fun l val a hnd => setPower_applyValUpdate hnd val a
  rw [setPower, keyedValue_foldl _ _ _ applyValUpdate _ _ hstep
    (fun _ val hnd => nodup_applyValUpdate hnd val) order set hnd horder a]
  cases order.find? (·.accountID = a) <;> rfl

/-- `Commit`'s loop keeps one entry per validator, none of power `0`, when no update is
negative. -/
theorem foldl_applyValUpdate_wf :
    ∀ (order set : List Validator), (∀ v ∈ order, 0 ≤ v.power) →
      (set.map (·.accountID)).Nodup → (∀ v ∈ set, 0 < v.power) →
      ((order.foldl applyValUpdate set).map (·.accountID)).Nodup ∧
        ∀ v ∈ order.foldl applyValUpdate set, 0 < v.power
  | [], _, _, hnd, hpos => ⟨hnd, hpos⟩
  | val :: order, set, hord, hnd, hpos => by
    rw [List.forall_mem_cons] at hord
    refine foldl_applyValUpdate_wf order _ hord.2 (nodup_applyValUpdate hnd val) fun v hv => ?_
    rcases mem_applyValUpdate hv with hv | ⟨rfl, h0⟩
    · exact hpos v hv
    · exact pos_of_nonneg_of_ne_zero hord.1 h0

/-! ### The pending updates -/

/-- The pending updates as `SetValidatorPower` records them: each under the `encodePubKey` of its
own account, none negative. -/
structure UpdatesWF (m : ValidatorState) : Prop where
  key : ∀ k v, m.valUpdates.lookup k = some v →
    encodePubKey v.accountID.identifier v.accountID.keyType = .ok k
  nonneg : ∀ k v, m.valUpdates.lookup k = some v → 0 ≤ v.power

lemma updatesWF_empty (set : List Validator) : UpdatesWF ⟨set, ∅⟩ where
  key k v h := by simp at h
  nonneg k v h := by simp at h

lemma pendingUpdate_empty (set : List Validator) (a : AccountID) :
    pendingUpdate ⟨set, ∅⟩ a = none := by
  unfold pendingUpdate
  split <;> simp

section Insert

variable {m : ValidatorState} {a : AccountID} {k : Bytes}
  (hk : encodePubKey a.identifier a.keyType = .ok k)
include hk

lemma pendingUpdate_insert (v : Validator) (b : AccountID) :
    pendingUpdate { m with valUpdates := m.valUpdates.insert k v } b =
      if b = a then some v else pendingUpdate m b := by
  unfold pendingUpdate
  by_cases hba : b = a
  · subst hba
    simp [hk]
  · rw [if_neg hba]
    cases hb : encodePubKey b.identifier b.keyType with
    | error e => rfl
    | ok kb =>
      have hkb : kb ≠ k := fun h => hba (encodePubKey_inj (h ▸ hb) hk)
      exact AList.lookup_insert_ne hkb

theorem UpdatesWF.insert (hm : UpdatesWF m) {p : Int64} (hp : 0 ≤ p) :
    UpdatesWF { m with valUpdates := m.valUpdates.insert k ⟨a, p⟩ } where
  key k' v h := by
    by_cases hk' : k' = k
    · subst hk'
      rw [AList.lookup_insert, Option.some.injEq] at h
      exact h ▸ hk
    · exact hm.key k' v (by rwa [AList.lookup_insert_ne hk'] at h)
  nonneg k' v h := by
    by_cases hk' : k' = k
    · subst hk'
      rw [AList.lookup_insert, Option.some.injEq] at h
      exact h ▸ hp
    · exact hm.nonneg k' v (by rwa [AList.lookup_insert_ne hk'] at h)

end Insert

lemma lookup_of_mem_values {m : ValidatorState} {v : Validator}
    (hv : v ∈ m.valUpdates.entries.map Sigma.snd) : ∃ k, m.valUpdates.lookup k = some v := by
  obtain ⟨⟨k, v⟩, he, rfl⟩ := List.mem_map.mp hv
  exact ⟨k, AList.mem_lookup_iff.mpr he⟩

section Values

variable {m : ValidatorState} (hm : UpdatesWF m)
include hm

/-- No two pending updates are of one account: their keys would be equal. -/
theorem UpdatesWF.nodup_accounts :
    ((m.valUpdates.entries.map Sigma.snd).map (·.accountID)).Nodup := by
  rw [List.map_map]
  refine List.Nodup.map_on (fun x hx y hy hxy => ?_) m.valUpdates.nodupKeys.nodup
  refine m.valUpdates.nodupKeys.eq_of_fst_eq hx hy ?_
  have hkx := hm.key _ _ (AList.mem_lookup_iff.mpr hx)
  have hky := hm.key _ _ (AList.mem_lookup_iff.mpr hy)
  simp only [Function.comp_apply] at hxy
  rw [hxy] at hkx
  exact Except.ok.inj (hkx.symm.trans hky)

/-- Searching the values of `valUpdates` by account finds the update under its key. -/
theorem UpdatesWF.find?_values (a : AccountID) :
    (m.valUpdates.entries.map Sigma.snd).find? (·.accountID = a) = pendingUpdate m a := by
  cases hf : (m.valUpdates.entries.map Sigma.snd).find? (·.accountID = a) with
  | some v =>
    have hva : v.accountID = a := by simpa using List.find?_some hf
    obtain ⟨k, hkv⟩ := lookup_of_mem_values (List.mem_of_find?_eq_some hf)
    rw [pendingUpdate, ← hva, hm.key k v hkv]
    exact hkv.symm
  | none =>
    unfold pendingUpdate
    cases hk : encodePubKey a.identifier a.keyType with
    | error e => rfl
    | ok k =>
      cases hl : m.valUpdates.lookup k with
      | none => exact hl.symm
      | some v =>
        -- the update under the account's key would have been found
        have hv : v ∈ m.valUpdates.entries.map Sigma.snd :=
          List.mem_map.mpr ⟨⟨k, v⟩, AList.mem_lookup_iff.mp hl, rfl⟩
        have hva : v.accountID = a := encodePubKey_inj (hm.key k v hl) hk
        exact absurd (by simpa using hva) (List.find?_eq_none.mp hf v hv)

end Values

/-! ## The invariant -/

/-- **The set mirrors a table**: one entry per account, with the power of the account's row, and
none of power `0`. -/
structure Mirrors (set : List Validator) (db : VoteStore) : Prop where
  nodup : (set.map (·.accountID)).Nodup
  pos : ∀ v ∈ set, 0 < v.power
  power : ∀ a, setPower set a = tablePower db a

section Invariant

variable (newUUIDV5 : Bytes → UUID)

/-- What holds between calls: both tables as `SetValidatorPower` writes them, the set mirroring
the committed table, and the block's table the committed one with the pending updates applied. -/
structure Node.Inv (n : Node) : Prop where
  committed : RowsWF newUUIDV5 n.committed
  rows : RowsWF newUUIDV5 n.env.db
  mirror : Mirrors n.env.mem.validatorSet n.committed
  updates : UpdatesWF n.env.mem
  pending : ∀ a, tablePower n.env.db a =
    updatedPower (pendingUpdate n.env.mem a) (tablePower n.committed a)

/-- A call after which the invariant holds again, whatever the call returns. -/
def KeepsInv {α : Type} (x : EStateM Failure Env α) : Prop :=
  ∀ c s, Node.Inv newUUIDV5 ⟨c, s⟩ → Node.Inv newUUIDV5 ⟨c, finalState (x s)⟩

/-- A call that changes nothing when it fails. -/
def FailsClean {α : Type} (x : EStateM Failure Env α) : Prop :=
  ∀ s e s', x s = .error e s' → s' = s

/-- What a nested transaction needs of its body. -/
structure Sound (x : EStateM Failure Env Unit) : Prop where
  keeps : KeepsInv newUUIDV5 x
  clean : FailsClean x

variable {newUUIDV5}

lemma sound_throw (e : Failure) : Sound newUUIDV5 (throw e) where
  keeps _ _ hs := hs
  clean _ _ _ h := by cases h; rfl

lemma keepsInv_bind {α β : Type} {x : EStateM Failure Env α} {f : α → EStateM Failure Env β}
    (hx : KeepsInv newUUIDV5 x) (hf : ∀ a, KeepsInv newUUIDV5 (f a)) :
    KeepsInv newUUIDV5 (x >>= f) := by
  intro c s hs
  have h₁ := hx c s hs
  rw [EStateM.bind_apply]
  cases h : x s with
  | ok a s' =>
    rw [h] at h₁
    exact hf a c s' h₁
  | error e s' =>
    rw [h] at h₁
    exact h₁

lemma keepsInv_map {α β : Type} {x : EStateM Failure Env α} (f : α → β)
    (hx : KeepsInv newUUIDV5 x) : KeepsInv newUUIDV5 (f <$> x) := by
  intro c s hs
  have h₁ := hx c s hs
  rw [EStateM.map_apply]
  cases h : x s <;> rw [h] at h₁ <;> exact h₁

/-- **A nested transaction keeps the invariant**: a body that fails has changed nothing, so
rolling its writes back leaves the store's memory in step with the table. -/
theorem nested_keepsInv {body : EStateM Failure Env Unit} (h : Sound newUUIDV5 body) :
    KeepsInv newUUIDV5 (nested body) := by
  intro c s hs
  have h₁ := h.keeps c s hs
  unfold nested
  cases hb : body s with
  | ok u s' =>
    rw [hb] at h₁
    exact h₁
  | error e s' =>
    have hs' : s' = s := h.clean s e s' hb
    subst hs'
    cases e with
    | error msg => exact hs
    | panic msg => exact hs

end Invariant

/-! ## The calls keep the invariant -/

section Calls

variable {newUUIDV5 : Bytes → UUID}

theorem setValidatorPower_of_error {pubKey : Bytes} {keyType : KeyType} {power : Int64}
    {s s' : Env} {e : Failure} (h : setValidatorPower newUUIDV5 pubKey keyType power s = .error e s') :
    s' = s := by
  unfold setValidatorPower at h
  by_cases hneg : power < 0
  · rw [if_pos hneg] at h
    cases h
    rfl
  rw [if_neg hneg] at h
  cases henc : encodePubKey pubKey keyType with
  | error e' =>
    rw [henc] at h
    cases h
    rfl
  | ok k =>
    rw [henc] at h
    dsimp only at h
    by_cases h0 : power = 0
    · rw [if_pos h0] at h
      cases h
    · -- only the upsert can fail, before anything is recorded
      rw [if_neg h0] at h
      cases hup : upsertVoter s.db (newUUIDV5 k) ⟨pubKey, keyType⟩ power with
      | error e' =>
        rw [hup] at h
        cases h
        rfl
      | ok db' =>
        rw [hup] at h
        cases h

variable (hinj : Function.Injective newUUIDV5)
include hinj

/-- **`SetValidatorPower` that returns** wrote the account's new power to the table, and to
`valUpdates` under its `encodePubKey`, and nothing else. -/
theorem setValidatorPower_of_ok {pubKey : Bytes} {keyType : KeyType} {power : Int64} {s s' : Env}
    {u : Unit} (hwf : RowsWF newUUIDV5 s.db)
    (h : setValidatorPower newUUIDV5 pubKey keyType power s = .ok u s') :
    ∃ k, encodePubKey pubKey keyType = .ok k ∧ 0 ≤ power ∧ RowsWF newUUIDV5 s'.db ∧
      s'.mem = { s.mem with valUpdates := s.mem.valUpdates.insert k ⟨⟨pubKey, keyType⟩, power⟩ } ∧
      ∀ b, tablePower s'.db b = if b = ⟨pubKey, keyType⟩ then
        updatedPower (some ⟨⟨pubKey, keyType⟩, power⟩) none else tablePower s.db b := by
  unfold setValidatorPower at h
  by_cases hneg : power < 0
  · rw [if_pos hneg] at h
    cases h
  rw [if_neg hneg] at h
  have hnn : 0 ≤ power := Int64.not_lt.mp hneg
  cases henc : encodePubKey pubKey keyType with
  | error e =>
    rw [henc] at h
    cases h
  | ok k =>
    rw [henc] at h
    dsimp only at h
    by_cases h0 : power = 0
    · -- a power of `0` deletes the voter
      rw [if_pos h0] at h
      cases h
      refine ⟨k, rfl, hnn, hwf.removeVoter, rfl, fun b => ?_⟩
      rw [tablePower_removeVoter hinj (a := ⟨pubKey, keyType⟩) henc hwf b]
      simp [updatedPower, h0]
    · obtain ⟨db', hup, hwf', htab⟩ :=
        upsertVoter_eq hinj (a := ⟨pubKey, keyType⟩) henc hwf (pos_of_nonneg_of_ne_zero hnn h0)
      rw [if_neg h0, hup] at h
      cases h
      refine ⟨k, rfl, hnn, hwf', rfl, fun b => ?_⟩
      rw [htab b]
      simp [updatedPower, h0]

theorem setValidatorPower_sound (pubKey : Bytes) (keyType : KeyType) (power : Int64) :
    Sound newUUIDV5 (setValidatorPower newUUIDV5 pubKey keyType power) where
  clean _ _ _ h := setValidatorPower_of_error h
  keeps c s hs := by
    cases h : setValidatorPower newUUIDV5 pubKey keyType power s with
    | error e s' =>
      show Node.Inv newUUIDV5 ⟨c, s'⟩
      rw [setValidatorPower_of_error h]
      exact hs
    | ok u s' =>
      show Node.Inv newUUIDV5 ⟨c, s'⟩
      obtain ⟨k, hk, hnn, hwf', hmem, htab⟩ := setValidatorPower_of_ok hinj hs.rows h
      -- the set and the committed table are untouched; the update is recorded under its key
      refine ⟨hs.committed, hwf', by simpa [hmem] using hs.mirror, ?_, fun b => ?_⟩
      · rw [hmem]
        exact hs.updates.insert (a := ⟨pubKey, keyType⟩) hk hnn
      · rw [htab, hmem, pendingUpdate_insert (a := ⟨pubKey, keyType⟩) hk]
        split_ifs
        · rfl
        · exact hs.pending b

theorem resolveValidatorJoin_sound (req : Except String UpdatePowerRequest) :
    Sound newUUIDV5 (resolveValidatorJoin newUUIDV5 req) := by
  cases req with
  | error e => exact sound_throw _
  | ok joinReq => exact setValidatorPower_sound hinj _ _ _

theorem resolveValidatorRemove_sound (req : Except String UpdatePowerRequest) :
    Sound newUUIDV5 (resolveValidatorRemove newUUIDV5 req) := by
  cases req with
  | error e => exact sound_throw _
  | ok removeReq =>
    show Sound newUUIDV5 (if removeReq.power ≠ 0 then _ else _)
    split
    · exact sound_throw _
    · exact setValidatorPower_sound hinj _ _ _

theorem validatorLeave_sound (sender : Bytes) (keyType : KeyType) (proposer : Bytes) :
    Sound newUUIDV5 (validatorLeave newUUIDV5 sender keyType proposer) := by
  have hset := setValidatorPower_sound hinj sender keyType 0
  constructor
  · intro c s hs
    unfold validatorLeave
    split_ifs
    · exact hs
    · exact hs
    · exact hset.keeps c s hs
  · intro s e s' h
    unfold validatorLeave at h
    split_ifs at h
    · cases h
      rfl
    · cases h
      rfl
    · exact hset.clean s e s' h

theorem genesisValidators_keepsInv (vals : List Validator) :
    KeepsInv newUUIDV5 (genesisValidators newUUIDV5 vals) := by
  unfold genesisValidators
  induction vals with
  | nil => exact fun _ _ hs => hs
  | cons v vals ih =>
    exact keepsInv_bind (setValidatorPower_sound hinj _ _ _).keeps fun _ => ih

theorem Call.run_keepsInv (c : Call) : KeepsInv newUUIDV5 (c.run newUUIDV5) := by
  cases c with
  | genesis vals => exact genesisValidators_keepsInv hinj vals
  | leave sender keyType proposer =>
    exact keepsInv_map _ (nested_keepsInv (validatorLeave_sound hinj sender keyType proposer))
  | join req => exact keepsInv_map _ (nested_keepsInv (resolveValidatorJoin_sound hinj req))
  | remove req => exact keepsInv_map _ (nested_keepsInv (resolveValidatorRemove_sound hinj req))

end Calls

/-! ## Commit, rollback and whole runs -/

section Runs

variable {newUUIDV5 : Bytes → UUID} {n : Node}

/-- **`Commit` makes the set mirror the table just committed**: the updates, in whatever order,
are those that made the block's table out of the one committed before. -/
theorem Node.Inv.commit (h : Node.Inv newUUIDV5 n) {order : List Validator}
    (horder : order.Perm (n.env.mem.valUpdates.entries.map Sigma.snd)) :
    Node.Inv newUUIDV5 ⟨n.env.db, ⟨n.env.db, n.env.mem.commit order⟩⟩ := by
  have hnd : (order.map (·.accountID)).Nodup :=
    ((horder.map _).nodup_iff).mpr h.updates.nodup_accounts
  have hnonneg : ∀ v ∈ order, 0 ≤ v.power := fun v hv => by
    obtain ⟨k, hk⟩ := lookup_of_mem_values (horder.mem_iff.mp hv)
    exact h.updates.nonneg k v hk
  obtain ⟨hnd', hpos'⟩ :=
    foldl_applyValUpdate_wf order _ hnonneg h.mirror.nodup h.mirror.pos
  refine ⟨h.rows, h.rows, ⟨hnd', hpos', fun a => ?_⟩, updatesWF_empty _, fun a => ?_⟩
  · show setPower (order.foldl applyValUpdate n.env.mem.validatorSet) a = _
    rw [setPower_foldl_applyValUpdate hnd h.mirror.nodup, find?_key_perm horder hnd,
      h.updates.find?_values, h.mirror.power, ← h.pending]
  · show _ = updatedPower (pendingUpdate ⟨_, ∅⟩ a) _
    rw [pendingUpdate_empty]
    rfl

/-- `Rollback` leaves the set as it was, and the block's table goes back to the committed one. -/
theorem Node.Inv.rollback (h : Node.Inv newUUIDV5 n) :
    Node.Inv newUUIDV5 ⟨n.committed, ⟨n.committed, n.env.mem.rollback⟩⟩ := by
  refine ⟨h.committed, h.committed, h.mirror, updatesWF_empty _, fun a => ?_⟩
  show _ = updatedPower (pendingUpdate ⟨_, ∅⟩ a) _
  rw [pendingUpdate_empty]
  rfl

variable (hinj : Function.Injective newUUIDV5)
include hinj

theorem Node.Inv.init {db : VoteStore} (hdb : RowsWF newUUIDV5 db) :
    Node.Inv newUUIDV5 (Node.init db) := by
  refine ⟨hdb, hdb, ⟨?_, ?_, fun a => ?_⟩, updatesWF_empty _, fun a => ?_⟩
  · show ((db.voters.map fun r => (⟨r.name, r.power⟩ : Validator)).map (·.accountID)).Nodup
    rw [List.map_map]
    exact hdb.names_nodup hinj
  · show ∀ v ∈ db.voters.map (fun r => (⟨r.name, r.power⟩ : Validator)), 0 < v.power
    simp only [List.mem_map]
    rintro _ ⟨r, hr, rfl⟩
    exact (hdb.row r hr).1
  · simp [Node.init, loadValidatorSet, setPower, tablePower, keyedValue, List.find?_map,
      Function.comp_def]
  · show _ = updatedPower (pendingUpdate ⟨_, ∅⟩ a) _
    rw [pendingUpdate_empty]
    rfl

theorem Node.Inv.step {n' : Node} (h : Node.Inv newUUIDV5 n) (hs : Step newUUIDV5 n n') :
    Node.Inv newUUIDV5 n' := by
  cases hs with
  | call c n => exact Call.run_keepsInv hinj c n.committed n.env h
  | commit n order horder => exact h.commit horder
  | rollback n => exact h.rollback

/-- **The invariant holds over every run** from a node that loaded its set from a table
`SetValidatorPower` wrote. -/
theorem reachable_inv {db : VoteStore} (hdb : RowsWF newUUIDV5 db)
    (hn : Relation.ReflTransGen (Step newUUIDV5) (Node.init db) n) : Node.Inv newUUIDV5 n :=
  ReflTransGen.invariant (Node.Inv.init hinj hdb) (fun h hs => h.step hinj hs) hn

end Runs

/-! ## What a node shows -/

section Views

theorem Mirrors.mem_iff {set : List Validator} {db : VoteStore} (hm : Mirrors set db)
    (hnames : (db.voters.map (·.name)).Nodup) (a : AccountID) (p : Int64) :
    (⟨a, p⟩ : Validator) ∈ set ↔ ∃ r ∈ db.voters, r.name = a ∧ r.power = p := by
  rw [← keyedValue_eq_some_iff hnames]
  change _ ↔ tablePower db a = some p
  rw [← hm.power, setPower, keyedValue_eq_some_iff hm.nodup]
  constructor
  · intro hv
    exact ⟨_, hv, rfl, rfl⟩
  · rintro ⟨⟨a', p'⟩, hv, rfl, rfl⟩
    exact hv

lemma getD_updatedPower (v : Validator) (old : Option Int64) :
    (updatedPower (some v) old).getD 0 = v.power := by
  show (if v.power = 0 then none else some v.power).getD 0 = v.power
  split_ifs with h0
  · exact h0.symm
  · rfl

lemma pendingUpdate_of_lookup {m : ValidatorState} (hm : UpdatesWF m) {k : Bytes} {v : Validator}
    (hkv : m.valUpdates.lookup k = some v) : pendingUpdate m v.accountID = some v := by
  rw [pendingUpdate, hm.key k v hkv]
  exact hkv

end Views

/-- **The set in memory mirrors the committed `voters` table over every run of blocks**: one
entry per row, with the row's identifier, key type and power, none of power `0`; `Rollback` leaves
the set as it is. Before `Commit`, `ValidatorUpdates` holds every voter whose power the block
changed, under its `encodePubKey` and with its new power (`0` for a voter removed), and each entry
it holds carries the voter's power in the block's table. -/
theorem validatorSet_mirrors_voters {newUUIDV5 : Bytes → UUID}
    (hinj : Function.Injective newUUIDV5) {db : VoteStore} (hdb : RowsWF newUUIDV5 db) {n : Node}
    (hn : Relation.ReflTransGen (Step newUUIDV5) (Node.init db) n) :
    ((n.env.mem.validatorSet.map (·.accountID)).Nodup ∧
      (∀ v ∈ n.env.mem.validatorSet, 0 < v.power) ∧
      ∀ a p, (⟨a, p⟩ : Validator) ∈ n.env.mem.validatorSet ↔
        ∃ r ∈ n.committed.voters, r.name = a ∧ r.power = p) ∧
    n.env.mem.rollback.validatorSet = n.env.mem.validatorSet ∧
    (∀ a, tablePower n.env.db a ≠ tablePower n.committed a →
      ∃ k, encodePubKey a.identifier a.keyType = .ok k ∧
        n.env.mem.valUpdates.lookup k = some ⟨a, (tablePower n.env.db a).getD 0⟩) ∧
    (∀ k v, n.env.mem.valUpdates.lookup k = some v →
      (tablePower n.env.db v.accountID).getD 0 = v.power) := by
  have h := reachable_inv hinj hdb hn
  refine ⟨⟨h.mirror.nodup, h.mirror.pos, h.mirror.mem_iff (h.committed.names_nodup hinj)⟩, rfl,
    fun a hne => ?_, fun k v hkv => ?_⟩
  · -- a changed power has an update, and it is the update under the account's key
    have hp := h.pending a
    cases hpu : pendingUpdate n.env.mem a with
    | none =>
      rw [hpu] at hp
      exact absurd hp hne
    | some v =>
      rw [hpu] at hp
      unfold pendingUpdate at hpu
      cases hk : encodePubKey a.identifier a.keyType with
      | error e =>
        rw [hk] at hpu
        cases hpu
      | ok k =>
        rw [hk] at hpu
        have hva : v.accountID = a := encodePubKey_inj (h.updates.key k v hpu) hk
        refine ⟨k, rfl, hpu.trans (congrArg some ?_)⟩
        obtain ⟨va, vp⟩ := v
        simp only at hva
        subst hva
        rw [hp, getD_updatedPower]
  · rw [h.pending, pendingUpdate_of_lookup h.updates hkv, getD_updatedPower]

/-- A run of three blocks from the empty store, with the identity for `NewUUIDV5`. Genesis sets
`[1]` to `5` and commits. The next block joins `[2]`, lets `[1]` leave, and rolls back. The last
block tries a join at a negative power, which fails inside its nested transaction, joins `[2]` at
`3` and commits. The set then holds `[1]` at `5` and `[2]` at `3`, as the table does. -/
theorem validatorSet_mirrors_voters_witness :
    ∃ n, Relation.ReflTransGen (Step id) (Node.init ⟨[], [], [], [], []⟩) n ∧
      n.env.mem.validatorSet = [⟨⟨[1], .secp256k1⟩, 5⟩, ⟨⟨[2], .secp256k1⟩, 3⟩] ∧
      n.committed.voters.map (fun r => (r.name, r.power)) =
        [(⟨[1], .secp256k1⟩, 5), (⟨[2], .secp256k1⟩, 3)] ∧
      ∀ a p, (⟨a, p⟩ : Validator) ∈ n.env.mem.validatorSet ↔
        ∃ r ∈ n.committed.voters, r.name = a ∧ r.power = p := by
  have hinj : Function.Injective (id : Bytes → UUID) := Function.injective_id
  have hdb : RowsWF id (⟨[], [], [], [], []⟩ : VoteStore) := ⟨List.nodup_nil, by simp⟩
  have hrun := (((((((Relation.ReflTransGen.refl.tail
    (@Step.call id (.genesis [⟨⟨[1], .secp256k1⟩, 5⟩]) (Node.init ⟨[], [], [], [], []⟩))).tail
    (Step.commit _ _ (List.Perm.refl _))).tail
    (Step.call (.join (.ok ⟨[2], .secp256k1, 3⟩)) _)).tail
    (Step.call (.leave [1] .secp256k1 [9]) _)).tail
    (Step.rollback _)).tail
    (Step.call (.join (.ok ⟨[3], .secp256k1, -1⟩)) _)).tail
    (Step.call (.join (.ok ⟨[2], .secp256k1, 3⟩)) _)).tail
    (Step.commit _ _ (List.Perm.refl _))
  exact ⟨_, hrun, by decide, by decide, (validatorSet_mirrors_voters hinj hdb hrun).1.2.2⟩

/-- **`ValidatorUpdates` also lists voters whose power did not change**: the removal of an account
that is no voter deletes nothing, yet the account is listed with power `0`. -/
theorem validatorUpdates_lists_unchanged :
    ∃ n, Relation.ReflTransGen (Step id) (Node.init ⟨[], [], [], [], []⟩) n ∧
      ∃ k v, n.env.mem.valUpdates.lookup k = some v ∧
        tablePower n.env.db v.accountID = tablePower n.committed v.accountID :=
  ⟨_, .single (Step.call (.remove (.ok ⟨[1], .secp256k1, 0⟩)) _), leBytes 4 0 ++ [1],
    ⟨⟨[1], .secp256k1⟩, 0⟩, by decide, by decide⟩

end KwilDb.Voting
