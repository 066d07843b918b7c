import KwilDb.Core.Types

/-!
# The vote store: resolutions, voters, votes and the processed table

`node/voting` keeps the resolutions that validators vote on in the `kwild_voting` schema:
the pending resolutions, the voters with their power, one row per vote, and the ids of the
resolutions already processed. This module models those tables as lists of rows, and the SQL
that `TxApp.processVotes` runs on them as functions: the two queries that read resolutions with
their approved power (`getResolutionsFullInfoByPower`, `getResolutionsFullInfoByExpiration`),
the deletion of resolutions and events, `markManyProcessed`, and the writes of the vote routes
(`insert_resolution`, `addVote`).

A primary key or foreign key that Postgres enforces is a check that fails with Postgres's error.
A voter's `name` column holds `encodePubKey` of its key; here it is the `AccountID` itself, which
`fromRow` decodes it back to. A voter's UUID (`NewUUIDV5` of that name) is taken as given.
-/

namespace KwilDb.Voting

open KwilDb.Lib KwilDb.Core

/-- `types.UUID`: sixteen bytes; `ORDER BY id` compares them as byte strings. -/
abbrev UUID := Bytes

/-- A row of `kwild_voting.resolutions`. -/
structure ResolutionRow where
  id : UUID
  body : Bytes
  type : String
  expiration : ℤ
  voteBodyProposer : AccountID
deriving DecidableEq, Repr

/-- A row of `kwild_voting.voters`; the schema checks `power > 0`. -/
structure VoterRow where
  id : UUID
  name : AccountID
  power : Int64
deriving DecidableEq, Repr

/-- The tables of the vote store. `votes` holds `(resolution_id, voter_id)` pairs; `events` the
ids of `kwild_voting.events`. -/
structure VoteStore where
  resolutions : List ResolutionRow
  votes : List (UUID × UUID)
  voters : List VoterRow
  processed : List UUID
  events : List UUID
deriving DecidableEq, Repr

/-- `resolutions.Resolution`, as `fromRow` builds it from a query row. -/
structure Resolution where
  id : UUID
  body : Bytes
  type : String
  expiration : ℤ
  approvedPower : ℤ
  voters : List Validator
  proposer : Validator
deriving DecidableEq, Repr

/-! ### Reading resolutions -/

section Queries

variable (db : VoteStore)

/-- The voters who voted for a resolution, `ORDER BY vr.id`. -/
def votersOf (id : UUID) : List VoterRow :=
  (db.voters.filter fun v => (id, v.id) ∈ db.votes).insertionSort fun a b => a.id ≤ b.id

/-- `SUM(vr.power)` over the left join: `NULL` when nobody voted. -/
def approvedPower (id : UUID) : Option ℤ :=
  match votersOf db id with
  | [] => none
  | vs => some (vs.map fun v => v.power.toInt).sum

/-- **`fromRow`** of a query row: the approved power, `0` for a `NULL` sum; the voters with their
power; the proposer, with its power when it is a voter (`getValidator`). -/
def fromRow (r : ResolutionRow) : Resolution where
  id := r.id
  body := r.body
  type := r.type
  expiration := r.expiration
  approvedPower := (approvedPower db r.id).getD 0
  voters := (votersOf db r.id).map fun v => ⟨v.name, v.power⟩
  proposer := ⟨r.voteBodyProposer,
    match db.voters.find? (·.name = r.voteBodyProposer) with
    | some v => v.power
    | none => 0⟩

/-- `ORDER BY r.id`. -/
def sortById (rs : List ResolutionRow) : List ResolutionRow :=
  rs.insertionSort fun a b => a.id ≤ b.id

/-- `HAVING SUM(vr.power) >= $2`: a `NULL` sum fails. -/
def meetsPower (threshold : ℤ) (r : ResolutionRow) : Bool :=
  match approvedPower db r.id with
  | some p => decide (threshold ≤ p)
  | none => false

/-- **`getResolutionsFullInfoByPower`**: the resolutions of one type whose approved power reaches
the threshold. -/
def getResolutionsFullInfoByPower (resType : String) (threshold : ℤ) : List Resolution :=
  (sortById (db.resolutions.filter fun r => r.type = resType ∧ meetsPower db threshold r)).map
    (fromRow db)

/-- **`getResolutionsFullInfoByExpiration`** (`GetExpired`): the resolutions with
`expiration <= $1`, of every type and whatever their votes. -/
def getResolutionsFullInfoByExpiration (currentTime : ℤ) : List Resolution :=
  (sortById (db.resolutions.filter fun r => r.expiration ≤ currentTime)).map (fromRow db)

lemma mem_sortById {rs : List ResolutionRow} {r : ResolutionRow} : r ∈ sortById rs ↔ r ∈ rs :=
  (List.perm_insertionSort _ rs).mem_iff

@[simp] lemma fromRow_id (r : ResolutionRow) : (fromRow db r).id = r.id := rfl

@[simp] lemma fromRow_type (r : ResolutionRow) : (fromRow db r).type = r.type := rfl

/-- A resolution row in the table whose approved power reaches the threshold is read by the
power query of its type. -/
theorem fromRow_mem_byPower {r : ResolutionRow} {threshold : ℤ} (hr : r ∈ db.resolutions)
    (hp : meetsPower db threshold r = true) :
    fromRow db r ∈ getResolutionsFullInfoByPower db r.type threshold := by
  apply List.mem_map_of_mem
  rw [mem_sortById, List.mem_filter]
  exact ⟨hr, by simp [hp]⟩

/-- A resolution row in the table whose expiration has passed is read by the expiration query. -/
theorem fromRow_mem_byExpiration {r : ResolutionRow} {currentTime : ℤ} (hr : r ∈ db.resolutions)
    (he : r.expiration ≤ currentTime) :
    fromRow db r ∈ getResolutionsFullInfoByExpiration db currentTime := by
  apply List.mem_map_of_mem
  rw [mem_sortById, List.mem_filter]
  exact ⟨hr, by simp [he]⟩

end Queries

/-! ### Writing -/

section Writes

variable (db : VoteStore)

/-- `DeleteResolutions`: `DELETE ... WHERE id = ANY($1)`; the votes on them go with them
(`ON DELETE CASCADE`). -/
def deleteResolutions (ids : List UUID) : VoteStore :=
  { db with
    resolutions := db.resolutions.filter fun r => r.id ∉ ids
    votes := db.votes.filter fun v => v.1 ∉ ids }

/-- `DeleteEvents`. -/
def deleteEvents (ids : List UUID) : VoteStore :=
  { db with events := db.events.filter fun e => e ∉ ids }

/-- The error Postgres raises when an insert breaks the primary key of `processed`. -/
def processedPkeyError : String :=
  "ERROR: duplicate key value violates unique constraint \"processed_pkey\" (SQLSTATE 23505)"

/-- **`MarkProcessed`**: one `INSERT INTO processed (id) SELECT unnest($1)`. The whole statement
fails if an id is already processed or is listed twice. -/
def markProcessed (ids : List UUID) : Except String VoteStore :=
  if ids = [] then pure db
  else if ids.Nodup ∧ ∀ id ∈ ids, id ∉ db.processed then
    pure { db with processed := db.processed ++ ids }
  else throw processedPkeyError

/-- `markProcessed` refuses a list that names an id twice. -/
theorem markProcessed_of_not_nodup {ids : List UUID} (h : ¬ ids.Nodup) :
    markProcessed db ids = .error processedPkeyError := by
  have hne : ids ≠ [] := by
    rintro rfl
    exact h List.nodup_nil
  simp [markProcessed, hne, h]

/-- The error Postgres raises when an insert breaks the primary key of `resolutions`. -/
def resolutionsPkeyError : String :=
  "ERROR: duplicate key value violates unique constraint \"resolutions_pkey\" (SQLSTATE 23505)"

/-- **`insert_resolution`** (`CreateResolution`): refused for an id already processed, then
inserted, which the primary key refuses for an id already pending. -/
def insertResolution (row : ResolutionRow) : Except String VoteStore :=
  if row.id ∈ db.processed then
    let id := hexEncode row.id
    throw s!"ERROR: Resolution with id \\x{id} has already been processed (SQLSTATE P0001)"
  else if db.resolutions.any (·.id = row.id) then throw resolutionsPkeyError
  else pure { db with resolutions := db.resolutions ++ [row] }

/-- The errors of the foreign keys of `votes`. -/
def votesResolutionFkeyError : String :=
  "ERROR: insert or update on table \"votes\" violates foreign key constraint \"votes_resolution_id_fkey\" (SQLSTATE 23503)"

def votesVoterFkeyError : String :=
  "ERROR: insert or update on table \"votes\" violates foreign key constraint \"votes_voter_id_fkey\" (SQLSTATE 23503)"

/-- **`addVote`** (`ApproveResolution`): `INSERT ... ON CONFLICT DO NOTHING`, with the foreign keys
to the resolution and the voter. -/
def addVote (resolutionID voterID : UUID) : Except String VoteStore :=
  if ¬ db.resolutions.any (·.id = resolutionID) then throw votesResolutionFkeyError
  else if ¬ db.voters.any (·.id = voterID) then throw votesVoterFkeyError
  else if (resolutionID, voterID) ∈ db.votes then pure db
  else pure { db with votes := db.votes ++ [(resolutionID, voterID)] }

end Writes

end KwilDb.Voting
