import KwilDb.Voting.Store

/-!
# Ending a block: `TxApp.processVotes`

At the end of every block `Finalize` runs `processVotes` on the vote store. For each registered
resolution type, in sorted order, it reads the resolutions whose approved power reaches the
type's confirmation threshold, credits their proposer and voters and queues their resolve
function; it runs the resolve functions, each in a nested transaction; it then reads the expired
resolutions, credits the voters of those that reach the refund threshold, deletes the confirmed
and expired resolutions, and marks the non-validator ones as processed.

The confirmed list is read before the resolve functions run and the expired list after, from
the same table, which neither query nor anything between them prunes. A resolution that reaches
its threshold in the block in which it expires is in both lists: its id is passed twice to
`markProcessed`, whose single `INSERT` the primary key of `processed` refuses, and the block
fails (`processVotes_fails_of_confirmed_at_expiry`).

The registry of resolution types (`resolutions.GetResolution`) and the decoding of a join
request's body are parameters; a resolve function is a function on the vote store that may fail.
The crediting of accounts from the credit map (`Accounts.Credit`, when gas is enabled) is left to
the accounts model: `processVotes` returns the credit map.
-/

namespace KwilDb.TxApp

open KwilDb.Lib KwilDb.Core KwilDb.Voting

/-! ### Thresholds and credits -/

/-- A `*big.Rat` threshold, as `RequiredPower` reads it: `Num()` and `Denom()`. -/
structure Threshold where
  num : ℤ
  denom : ℤ
deriving DecidableEq, Repr

/-- The `Num()` and `Denom()` of a `big.Rat`, which keeps its fraction reduced over a positive
denominator, as `ℚ` does. -/
def Threshold.ofRat (t : ℚ) : Threshold := ⟨t.num, t.den⟩

/-- `(*big.Int).Int64()`: the low 64 bits, read as a signed integer. -/
def bigIntInt64 (x : ℤ) : ℤ := x.bmod (2 ^ 64)

/-- `intDivUpFraction`: `(numerator * val + divisor - 1) / divisor` on big integers, whose `Div`
is Euclidean, then `Int64()`. A zero divisor panics in Go; `/` here gives zero. -/
def intDivUpFraction (val numerator divisor : ℤ) : ℤ :=
  bigIntInt64 ((numerator * val + (divisor - 1)) / divisor)

/-- `voting.RequiredPower`: the threshold's `Num().Int64()` over its `Denom().Int64()`. -/
def requiredPower (threshold : Threshold) (totalPower : ℤ) : ℤ :=
  intDivUpFraction totalPower (bigIntInt64 threshold.num) (bigIntInt64 threshold.denom)

lemma bigIntInt64_of_lt {x : ℤ} (h₁ : -2 ^ 63 ≤ x) (h₂ : x < 2 ^ 63) : bigIntInt64 x = x :=
  Int.bmod_eq_of_le h₁ h₂

/-- The rounded-up quotient is the ceiling of the fraction: `d (q - 1) < a ≤ d q`. -/
lemma add_sub_one_ediv_eq_ceil (a : ℤ) {d : ℤ} (hd : 0 < d) :
    (a + (d - 1)) / d = ⌈(a : ℚ) / d⌉ := by
  set q := (a + (d - 1)) / d
  have hlo := Int.ediv_mul_le (a + (d - 1)) hd.ne'
  have hhi := Int.lt_ediv_add_one_mul_self (a + (d - 1)) hd
  have hdq : (0 : ℚ) < d := by exact_mod_cast hd
  rw [eq_comm, Int.ceil_eq_iff, lt_div_iff₀ hdq, div_le_iff₀ hdq]
  constructor
  · have : (q - 1) * d < a := by nlinarith
    exact_mod_cast this
  · have : a ≤ q * d := by nlinarith
    exact_mod_cast this

/-- **`RequiredPower` is exact.** For a threshold `t` between `0` and `1` whose numerator and
denominator are `int64`s and a total power `P` of an `int64`, the big-integer quotient is the
least integer at or above `t P`, which lies in `[0, P]`: no `Int64()` changes anything. A
resolution whose votes sum to `a` then passes `HAVING SUM(power) >= RequiredPower` exactly when
`a ≥ t P`. -/
theorem requiredPower_exact {t : ℚ} (ht₀ : 0 ≤ t) (ht₁ : t ≤ 1) (hnum : t.num < 2 ^ 63)
    (hden : (t.den : ℤ) < 2 ^ 63) {P : ℤ} (hP₀ : 0 ≤ P) (hP : P < 2 ^ 63) :
    (t.num * P + (t.den - 1)) / t.den = ⌈t * P⌉ ∧ requiredPower (.ofRat t) P = ⌈t * P⌉ ∧
      0 ≤ ⌈t * P⌉ ∧ ⌈t * P⌉ ≤ P ∧
      ∀ (db : VoteStore) (r : ResolutionRow) (a : ℤ), approvedPower db r.id = some a →
        (meetsPower db (requiredPower (.ofRat t) P) r = true ↔ t * P ≤ a) := by
  have hnum₀ : 0 ≤ t.num := Rat.num_nonneg.mpr ht₀
  have hden₀ : (0 : ℤ) < t.den := by exact_mod_cast t.den_pos
  have hceil : (t.num * P + (t.den - 1)) / t.den = ⌈t * P⌉ := by
    rw [add_sub_one_ediv_eq_ceil _ hden₀]
    congr 1
    push_cast
    rw [mul_div_right_comm, Rat.num_div_den]
  -- `0 ≤ t P ≤ P`, so the ceiling is an `int64` and no conversion wraps
  have hlo : 0 ≤ ⌈t * P⌉ := Int.ceil_nonneg (mul_nonneg ht₀ (by exact_mod_cast hP₀))
  have hhi : ⌈t * P⌉ ≤ P := by
    rw [Int.ceil_le]
    calc t * P ≤ 1 * P := mul_le_mul_of_nonneg_right ht₁ (by exact_mod_cast hP₀)
      _ = P := one_mul _
  have hreq : requiredPower (.ofRat t) P = ⌈t * P⌉ := by
    rw [requiredPower, intDivUpFraction, Threshold.ofRat, bigIntInt64_of_lt (by omega) hnum,
      bigIntInt64_of_lt (by omega) hden, hceil, bigIntInt64_of_lt (by omega) (by omega)]
  refine ⟨hceil, hreq, hlo, hhi, fun db r a ha => ?_⟩
  rw [meetsPower, ha, hreq, decide_eq_true_iff, Int.ceil_le]

/-- Two thirds of a total power of one asks for one. -/
theorem requiredPower_exact_two_thirds :
    requiredPower (.ofRat (2 / 3)) 1 = ⌈(2 / 3 : ℚ) * 1⌉ ∧ ⌈(2 / 3 : ℚ) * 1⌉ = 1 :=
  ⟨(requiredPower_exact (t := 2 / 3) (by norm_num) (by norm_num) (by decide +kernel)
    (by decide +kernel) (by norm_num) (by norm_num)).2.1, by norm_num⟩

/-- `resolutions.ResolutionConfig`, without the expiration period, which only the vote routes
read. -/
structure ResolutionConfig where
  refundThreshold : Threshold
  confirmationThreshold : Threshold
  resolveFunc : Resolution → VoteStore → Except String VoteStore

/-- `voting.ValidatorJoinEventType`. -/
def validatorJoinEventType : String := "validator_join"

/-- `voting.ValidatorRemoveEventType`. -/
def validatorRemoveEventType : String := "validator_remove"

/-- The resolution types that are never marked processed: a validator may join or leave again. -/
def isValidatorEvent (resType : String) : Bool :=
  resType = validatorJoinEventType ∨ resType = validatorRemoveEventType

/-- `ValidatorVoteBodyBytePrice`. -/
def validatorVoteBodyBytePrice : ℤ := 1000

/-- `ValidatorVoteIDPrice`: 16 bytes of UUID. -/
def validatorVoteIDPrice : ℤ := 1000 * 16

/-- `creditMap`: amounts to credit, keyed by `"<hex key>#<key type>"`. -/
abbrev CreditMap := GoMap String ℤ

/-- Add to an entry of the credit map, starting from zero. -/
def CreditMap.credit (c : CreditMap) (key : String) (amount : ℤ) : CreditMap :=
  c.insert key ((c.lookup key).getD 0 + amount)

/-- **`creditMap.applyResolution`**: each voter other than the proposer is paid the price of a
vote id, the proposer the price of the body. The voter key `"%s#%s"` of the hex identifier and
the key type is the text `EncodePubKeyAndType` builds. -/
def CreditMap.applyResolution (c : CreditMap) (res : Resolution) : CreditMap :=
  let c := res.voters.foldl (fun c voter =>
      if voter.accountID.identifier = res.proposer.accountID.identifier then c
      else c.credit (encodePubKeyAndType voter.accountID.identifier voter.accountID.keyType)
        validatorVoteIDPrice) c
  c.credit (encodePubKeyAndType res.proposer.accountID.identifier res.proposer.accountID.keyType)
    (validatorVoteBodyBytePrice * res.body.length)

/-! ### The three phases of `processVotes` -/

/-- What the loop over confirmed resolutions collects. -/
structure Confirmed where
  credits : CreditMap
  finalizedIDs : List UUID
  markProcessedIDs : List UUID
  resolveFuncs : List (Resolution × ResolutionConfig)

/-- What the loop over expired resolutions collects, with `requiredPowerMap`. -/
structure Expired where
  credits : CreditMap
  expiredIDs : List UUID
  markProcessedIDs : List UUID
  expiredJoins : List AccountID
  requiredPowerMap : GoMap String ℤ

/-- The ids to mark processed after one more resolution. -/
def withProcessedID (ids : List UUID) (res : Resolution) : List UUID :=
  if isValidatorEvent res.type then ids else ids ++ [res.id]

section Process

variable (getResolution : String → Except String ResolutionConfig)
  (unmarshalJoinRequest : Bytes → Except String AccountID) (totalPower : ℤ)

/-- One confirmed resolution. -/
def confirmResolution (cfg : ResolutionConfig) (acc : Confirmed) (res : Resolution) : Confirmed where
  credits := acc.credits.applyResolution res
  finalizedIDs := acc.finalizedIDs ++ [res.id]
  markProcessedIDs := withProcessedID acc.markProcessedIDs res
  resolveFuncs := acc.resolveFuncs ++ [(res, cfg)]

/-- The confirmed resolutions of one type. -/
def confirmType (db : VoteStore) (acc : Confirmed) (resType : String) : Except String Confirmed := do
  let cfg ← (getResolution resType).mapError ("error getting resolution config: " ++ ·)
  let finalized := getResolutionsFullInfoByPower db resType
    (requiredPower cfg.confirmationThreshold totalPower)
  pure (finalized.foldl (confirmResolution cfg) acc)

/-- The resolve functions, in order, each in a nested transaction: a failing one is rolled back
and the loop goes on. -/
def applyResolveFuncs (db : VoteStore) (fs : List (Resolution × ResolutionConfig)) : VoteStore :=
  fs.foldl (fun db f =>
      match f.2.resolveFunc f.1 db with
      | .ok db' => db'
      | .error _ => db)
    db

/-- The expired joins after one more expired resolution: a join's body is decoded as the
request of the account that asked to join. -/
def collectJoin (joins : List AccountID) (res : Resolution) : Except String (List AccountID) :=
  if res.type = validatorJoinEventType then do
    let acct ← (unmarshalJoinRequest res.body).mapError ("failed to unmarshal join request: " ++ ·)
    pure (joins ++ [acct])
  else pure joins

/-- `requiredPowerMap` after one more expired resolution: on a miss, filled with the refund
threshold of the resolution's type. -/
def fillRequiredPower (requiredPowerMap : GoMap String ℤ) (resType : String) :
    Except String (GoMap String ℤ) :=
  match requiredPowerMap.lookup resType with
  | some _ => pure requiredPowerMap
  | none => do
    let cfg ← (getResolution resType).mapError ("error getting resolution config: " ++ ·)
    pure (requiredPowerMap.insert resType (requiredPower cfg.refundThreshold totalPower))

/-- **One expired resolution.** `threshold, ok := requiredPowerMap[resolution.Type]` reads the map
before it is filled, and on a miss `threshold` keeps its zero value: the first expired resolution
of each type is refunded whatever its power. -/
def expireResolution (acc : Expired) (res : Resolution) : Except String Expired := do
  let expiredJoins ← collectJoin unmarshalJoinRequest acc.expiredJoins res
  let threshold := (acc.requiredPowerMap.lookup res.type).getD 0
  let requiredPowerMap ← fillRequiredPower getResolution totalPower acc.requiredPowerMap res.type
  let credits := if threshold ≤ res.approvedPower then acc.credits.applyResolution res else acc.credits
  pure ⟨credits, acc.expiredIDs ++ [res.id], withProcessedID acc.markProcessedIDs res, expiredJoins,
    requiredPowerMap⟩

/-- **`TxApp.processVotes`**, at a block of the given timestamp, over the sorted resolution types.
It returns the vote store, the expired joins and the credit map. -/
def processVotes (resTypes : List String) (db : VoteStore) (timestamp : ℤ) :
    Except String (VoteStore × List AccountID × CreditMap) := do
  let conf ← resTypes.foldlM (confirmType getResolution totalPower db) ⟨∅, [], [], []⟩
  let db := applyResolveFuncs db conf.resolveFuncs
  let expired := getResolutionsFullInfoByExpiration db timestamp
  let exp ← expired.foldlM (expireResolution getResolution unmarshalJoinRequest totalPower)
    ⟨conf.credits, [], conf.markProcessedIDs, [], ∅⟩
  let db := deleteResolutions db (conf.finalizedIDs ++ exp.expiredIDs)
  let db ← (markProcessed db exp.markProcessedIDs).mapError
    ("error marking resolutions as processed: " ++ ·)
  pure (deleteEvents db exp.markProcessedIDs, exp.expiredJoins, exp.credits)

/-! ### What the loops collect -/

lemma foldl_withProcessedID (rs : List Resolution) (ids : List UUID) :
    rs.foldl withProcessedID ids =
      ids ++ ((rs.filter fun res => !isValidatorEvent res.type).map (·.id)) := by
  induction rs generalizing ids with
  | nil => simp
  | cons res rs ih =>
    rw [List.foldl_cons, ih, withProcessedID]
    cases h : isValidatorEvent res.type <;> simp [h]

lemma markProcessedIDs_foldl_confirmResolution (cfg : ResolutionConfig) (rs : List Resolution)
    (acc : Confirmed) :
    (rs.foldl (confirmResolution cfg) acc).markProcessedIDs =
      rs.foldl withProcessedID acc.markProcessedIDs :=
  (List.foldl_hom Confirmed.markProcessedIDs fun _ _ => rfl).symm

lemma resolveFuncs_foldl_confirmResolution (cfg : ResolutionConfig) (rs : List Resolution)
    (acc : Confirmed) :
    (rs.foldl (confirmResolution cfg) acc).resolveFuncs =
      acc.resolveFuncs ++ rs.map fun res => (res, cfg) := by
  induction rs generalizing acc with
  | nil => simp
  | cons res rs ih =>
    rw [List.foldl_cons, ih]
    simp [confirmResolution]

lemma confirmType_eq_ok {db : VoteStore} {acc acc' : Confirmed} {resType : String} :
    confirmType getResolution totalPower db acc resType = .ok acc' ↔
      ∃ cfg, getResolution resType = .ok cfg ∧
        acc' = (getResolutionsFullInfoByPower db resType
          (requiredPower cfg.confirmationThreshold totalPower)).foldl (confirmResolution cfg) acc := by
  simp only [confirmType, bind_eq_ok, mapError_eq_ok]
  constructor
  · rintro ⟨cfg, hcfg, h⟩
    exact ⟨cfg, hcfg, (Except.ok.inj h).symm⟩
  · rintro ⟨cfg, hcfg, rfl⟩
    exact ⟨cfg, hcfg, rfl⟩

lemma expireResolution_markProcessedIDs {acc acc' : Expired} {res : Resolution}
    (h : expireResolution getResolution unmarshalJoinRequest totalPower acc res = .ok acc') :
    acc'.markProcessedIDs = withProcessedID acc.markProcessedIDs res := by
  simp only [expireResolution, bind_eq_ok] at h
  obtain ⟨joins, -, rpm, -, h⟩ := h
  cases h
  rfl

/-- Every queued resolve function is the one the registry gives for some type. -/
def FromRegistry (fs : List (Resolution × ResolutionConfig)) : Prop :=
  ∀ f ∈ fs, ∃ t, getResolution t = .ok f.2

/-- **The confirmation loop.** It only appends to the ids to mark processed, it queues resolve
functions of the registry, and it lists every non-validator resolution that meets the
confirmation threshold of a configured type. -/
theorem foldlM_confirmType {db : VoteStore} :
    ∀ (resTypes : List String) (acc conf : Confirmed),
      resTypes.foldlM (confirmType getResolution totalPower db) acc = .ok conf →
      FromRegistry getResolution acc.resolveFuncs →
      acc.markProcessedIDs <+: conf.markProcessedIDs ∧ FromRegistry getResolution conf.resolveFuncs ∧
      ∀ t ∈ resTypes, ∀ cfg, getResolution t = .ok cfg →
        ∀ res ∈ getResolutionsFullInfoByPower db t (requiredPower cfg.confirmationThreshold totalPower),
          isValidatorEvent res.type = false → res.id ∈ conf.markProcessedIDs
  | [], acc, conf, h, hreg => by
    cases h
    exact ⟨List.prefix_refl _, hreg, by simp⟩
  | t :: ts, acc, conf, h, hreg => by
    rw [List.foldlM_cons, bind_eq_ok] at h
    obtain ⟨acc', hstep, hrest⟩ := h
    obtain ⟨cfg, hcfg, rfl⟩ := (confirmType_eq_ok getResolution totalPower).mp hstep
    set finalized := getResolutionsFullInfoByPower db t (requiredPower cfg.confirmationThreshold totalPower)
    have hmark := markProcessedIDs_foldl_confirmResolution cfg finalized acc
    have hreg' : FromRegistry getResolution (finalized.foldl (confirmResolution cfg) acc).resolveFuncs := by
      rw [resolveFuncs_foldl_confirmResolution]
      intro f hf
      rcases List.mem_append.mp hf with hf | hf
      · exact hreg f hf
      · obtain ⟨res, -, rfl⟩ := List.mem_map.mp hf
        exact ⟨t, hcfg⟩
    obtain ⟨hpre, hreg'', hmem⟩ := foldlM_confirmType ts _ conf hrest hreg'
    refine ⟨?_, hreg'', ?_⟩
    · rw [hmark, foldl_withProcessedID] at hpre
      exact (List.prefix_append _ _).trans hpre
    · intro t' ht' cfg' hcfg' res hres hnv
      rcases List.mem_cons.mp ht' with rfl | ht'
      · -- the type of this step: its resolutions were just listed
        obtain rfl : cfg' = cfg := Except.ok.inj (hcfg'.symm.trans hcfg)
        apply hpre.subset
        rw [hmark, foldl_withProcessedID]
        exact List.mem_append_right _ (List.mem_map_of_mem (List.mem_filter.mpr ⟨hres, by simp [hnv]⟩))
      · exact hmem t' ht' cfg' hcfg' res hres hnv

/-- **The expiry loop** appends each listed non-validator resolution to the ids to mark
processed. -/
theorem foldlM_expireResolution :
    ∀ (expired : List Resolution) (acc exp : Expired),
      expired.foldlM (expireResolution getResolution unmarshalJoinRequest totalPower) acc = .ok exp →
      exp.markProcessedIDs = expired.foldl withProcessedID acc.markProcessedIDs
  | [], acc, exp, h => by
    cases h
    rfl
  | res :: rest, acc, exp, h => by
    rw [List.foldlM_cons, bind_eq_ok] at h
    obtain ⟨acc', hstep, hrest⟩ := h
    rw [foldlM_expireResolution rest acc' exp hrest,
      expireResolution_markProcessedIDs getResolution unmarshalJoinRequest totalPower hstep,
      List.foldl_cons]

/-- Resolve functions that leave the resolutions table alone leave it alone together. -/
lemma applyResolveFuncs_resolutions :
    ∀ (fs : List (Resolution × ResolutionConfig)) (db : VoteStore),
      (∀ f ∈ fs, ∀ db db', f.2.resolveFunc f.1 db = .ok db' → db'.resolutions = db.resolutions) →
      (applyResolveFuncs db fs).resolutions = db.resolutions
  | [], _, _ => rfl
  | f :: fs, db, hkeep => by
    rw [List.forall_mem_cons] at hkeep
    rw [applyResolveFuncs, List.foldl_cons, ← applyResolveFuncs,
      applyResolveFuncs_resolutions fs _ hkeep.2]
    split
    · rename_i db' hf
      exact hkeep.1 db db' hf
    · rfl

/-- **A resolution confirmed in the block in which it expires fails the block.** Its id is listed
for `markProcessed` by both loops, and the primary key of `processed` refuses the insert. The
resolve functions are assumed to leave the resolutions table alone, as the registered ones do. -/
theorem processVotes_fails_of_confirmed_at_expiry {resTypes : List String} {db : VoteStore}
    {timestamp : ℤ} {r : ResolutionRow} {cfg : ResolutionConfig}
    (hr : r ∈ db.resolutions) (htype : r.type ∈ resTypes) (hcfg : getResolution r.type = .ok cfg)
    (hnv : isValidatorEvent r.type = false)
    (hpow : meetsPower db (requiredPower cfg.confirmationThreshold totalPower) r = true)
    (hexp : r.expiration ≤ timestamp)
    (hkeep : ∀ t cfg', getResolution t = .ok cfg' → ∀ res db db',
      cfg'.resolveFunc res db = .ok db' → db'.resolutions = db.resolutions) :
    ∀ out, processVotes getResolution unmarshalJoinRequest totalPower resTypes db timestamp ≠ .ok out := by
  intro out h
  simp only [processVotes, bind_eq_ok, mapError_eq_ok] at h
  obtain ⟨conf, hconf, exp, hexpl, db', hmark, -⟩ := h
  -- the confirmation loop lists `r`
  obtain ⟨-, hreg, hmem⟩ := foldlM_confirmType getResolution totalPower resTypes _ conf hconf
    (by simp [FromRegistry])
  have h₁ : r.id ∈ conf.markProcessedIDs :=
    hmem r.type htype cfg hcfg (fromRow db r) (fromRow_mem_byPower db hr hpow) hnv
  -- the resolve functions keep its row, so the expiration query lists it as well
  set dbr := applyResolveFuncs db conf.resolveFuncs
  have hres : dbr.resolutions = db.resolutions := by
    apply applyResolveFuncs_resolutions
    intro f hf
    obtain ⟨t, ht⟩ := hreg f hf
    exact hkeep t f.2 ht f.1
  have h₂ : fromRow dbr r ∈ getResolutionsFullInfoByExpiration dbr timestamp :=
    fromRow_mem_byExpiration dbr (hres ▸ hr) hexp
  -- and the ids to mark processed name it twice
  have hids := foldlM_expireResolution getResolution unmarshalJoinRequest totalPower _ _ exp hexpl
  rw [foldl_withProcessedID] at hids
  have hdup : ¬ exp.markProcessedIDs.Nodup := by
    rw [hids, List.nodup_append]
    rintro ⟨-, -, hdisj⟩
    refine hdisj r.id h₁ r.id ?_ rfl
    exact List.mem_map_of_mem (List.mem_filter.mpr ⟨h₂, by simp [hnv]⟩)
  rw [markProcessed_of_not_nodup _ hdup] at hmark
  cases hmark

end Process

/-! ### A `credit_account` resolution voted through at its expiry -/

/-- The `credit_account` resolution type: refunds from a third of the power, confirmation at two
thirds; its resolve function credits an account and leaves the vote store alone. -/
def creditAccountConfig : ResolutionConfig := ⟨⟨1, 3⟩, ⟨2, 3⟩, fun _ db => pure db⟩

/-- A registry holding `credit_account` only. -/
def creditAccountRegistry (resType : String) : Except String ResolutionConfig :=
  if resType = "credit_account" then .ok creditAccountConfig
  else .error s!"resolution with name {resType} not found"

/-- **The block of the last vote fails.** One validator of power 1 approves the `credit_account`
resolution `[2]`, which expires at 100, in the block at timestamp 100: both queries read it, and
`processVotes` fails, whatever the join requests decode to. -/
theorem processVotes_credit_account_at_expiry :
    let r : ResolutionRow := ⟨[2], [], "credit_account", 100, ⟨[1], .secp256k1⟩⟩
    let db : VoteStore := ⟨[r], [([2], [1])], [⟨[1], ⟨[1], .secp256k1⟩, 1⟩], [], []⟩
    fromRow db r ∈ getResolutionsFullInfoByPower db "credit_account" (requiredPower ⟨2, 3⟩ 1) ∧
      fromRow db r ∈ getResolutionsFullInfoByExpiration db 100 ∧
      ∀ unmarshalJoinRequest out, processVotes creditAccountRegistry unmarshalJoinRequest 1
        ["credit_account"] db 100 ≠ .ok out := by
  intro r db
  have hr : r ∈ db.resolutions := List.mem_singleton_self r
  have hpow : meetsPower db (requiredPower ⟨2, 3⟩ 1) r = true := by decide
  have hexp : r.expiration ≤ 100 := le_refl _
  refine ⟨fromRow_mem_byPower db hr hpow, fromRow_mem_byExpiration db hr hexp,
    fun unmarshalJoinRequest => ?_⟩
  apply processVotes_fails_of_confirmed_at_expiry creditAccountRegistry unmarshalJoinRequest 1 hr
    (List.mem_singleton_self _) rfl (by decide) hpow hexp
  -- the only registered resolve function leaves the store as it is
  intro t cfg hcfg res db₁ db₂ hres
  unfold creditAccountRegistry at hcfg
  split at hcfg
  · cases hcfg
    cases hres
    rfl
  · cases hcfg

end KwilDb.TxApp
