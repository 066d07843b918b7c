import KwilDb.Core.Types

/-!
# The validator set and its hash

`ConsensusEngine.validatorSet` is a Go map from the hex of a validator's identifier to the
validator, rebuilt by `updateValidatorSetAndRole` from `BlockProcessor.GetValidators` at start
and after every commit. `validatorSetHash` digests it into every block header, and
`validateBlock` compares the header's digest with the node's own.

`validatorSetHash` sorts `config.EncodePubKeyAndType` keys (`"<hex>#<type>"`) and looks each
one up in that map. Hex text holds no `#` (`hash_not_mem_hexEncode`), so every lookup misses
and reads the zero `Validator`, whose `AccountID.Bytes()` is empty and whose power is `0`:
`validatorSetHash_eq` shows the digest is that of `8 * |V|` zero bytes, for every set and
every hasher.
-/

namespace KwilDb.Consensus

open KwilDb.Lib KwilDb.Core

/-! ### The map and its invariant -/

/-- **`ConsensusEngine.validatorSet`.** The map carries the invariant `updateValidatorSetAndRole`
gives it: every key is the hex of its validator's identifier. -/
structure ValidatorSet where
  members : GoMap String Validator
  key_hex : ∀ k v, members.lookup k = some v → k = hexEncode v.accountID.identifier

/-- `len(ce.validatorSet)`. -/
def ValidatorSet.size (V : ValidatorSet) : ℕ := V.members.entries.length

/-- One turn of the loop of `updateValidatorSetAndRole`: the validator is stored under the hex
of its identifier, with its identifier, key type and power. -/
def insertValidator (m : GoMap String Validator) (v : Validator) : GoMap String Validator :=
  m.insert (hexEncode v.accountID.identifier)
    ⟨⟨v.accountID.identifier, v.accountID.keyType⟩, v.power⟩

lemma lookup_insertValidator (m : GoMap String Validator) (v : Validator) (k : String) :
    (insertValidator m v).lookup k =
      if k = hexEncode v.accountID.identifier then some v else m.lookup k := by
  unfold insertValidator
  split_ifs with h
  · subst h
    exact AList.lookup_insert m
  · exact AList.lookup_insert_ne h

/-- The invariant of `ValidatorSet`, for a bare map. -/
def KeyHex (m : GoMap String Validator) : Prop :=
  ∀ k v, m.lookup k = some v → k = hexEncode v.accountID.identifier

lemma keyHex_insertValidator {m : GoMap String Validator} (hm : KeyHex m) (v : Validator) :
    KeyHex (insertValidator m v) := by
  intro k w hk
  rw [lookup_insertValidator] at hk
  split_ifs at hk with h
  · cases hk
    exact h
  · exact hm k w hk

/-- The loop keeps the invariant, from any map that has it. -/
lemma keyHex_foldl (valset : List Validator) {m : GoMap String Validator} (hm : KeyHex m) :
    KeyHex (valset.foldl insertValidator m) := by
  induction valset generalizing m with
  | nil => exact hm
  | cons v vs ih => exact ih (keyHex_insertValidator hm v)

lemma keyHex_empty : KeyHex (∅ : GoMap String Validator) := by
  intro k v h
  simp at h

/-- The validator map of `updateValidatorSetAndRole`, filled from `GetValidators()`. -/
def updateValidatorSet (valset : List Validator) : ValidatorSet :=
  ⟨valset.foldl insertValidator ∅, keyHex_foldl valset keyHex_empty⟩

/-! ### Lookups of encoded keys -/

/-- A `"<hex>#<type>"` key is never in the map. -/
theorem lookup_encodePubKeyAndType (V : ValidatorSet) (b : Bytes) (kt : KeyType) :
    V.members.lookup (encodePubKeyAndType b kt) = none := by
  rcases h : V.members.lookup (encodePubKeyAndType b kt) with _ | v
  · rfl
  · exact absurd (V.key_hex _ v h).symm (hexEncode_ne_encodePubKeyAndType _ _ _)

/-! ### The hash -/

/-- The sort keys of `validatorSetHash`: one `EncodePubKeyAndType` per member, sorted
(`slices.Sort`; any sort gives the same list of strings). -/
def validatorSetKeys (V : ValidatorSet) : List String :=
  (V.members.entries.map fun e =>
    encodePubKeyAndType e.2.accountID.identifier e.2.accountID.keyType).insertionSort (· ≤ ·)

/-- What `validatorSetHash` writes to the hasher for one key: the looked-up validator's
`AccountID.Bytes()` and its power as a big-endian `int64`; a missing key reads the zero
validator. -/
def validatorEntryBytes (V : ValidatorSet) (k : String) : Bytes :=
  let val := (V.members.lookup k).getD Validator.zero
  val.accountID.bytes ++ beBytes 8 val.power.toBitVec.toNat

/-- **`ConsensusEngine.validatorSetHash`**, with the hasher `H` (`sha256` over everything
written). -/
def validatorSetHash (H : Bytes → Hash) (V : ValidatorSet) : Hash :=
  H ((validatorSetKeys V).flatMap (validatorEntryBytes V))

lemma length_validatorSetKeys (V : ValidatorSet) : (validatorSetKeys V).length = V.size := by
  rw [validatorSetKeys, (List.perm_insertionSort _ _).length_eq, List.length_map]
  rfl

lemma validatorEntryBytes_of_mem {V : ValidatorSet} {k : String} (hk : k ∈ validatorSetKeys V) :
    validatorEntryBytes V k = List.replicate 8 0 := by
  have hk' := (List.perm_insertionSort _ _).mem_iff.mp hk
  obtain ⟨e, -, rfl⟩ := List.mem_map.mp hk'
  simp [validatorEntryBytes, lookup_encodePubKeyAndType]

lemma flatMap_replicate_const {α : Type} (l : List α) (f : α → List UInt8)
    (hf : ∀ a ∈ l, f a = List.replicate 8 0) : l.flatMap f = List.replicate (8 * l.length) 0 := by
  induction l with
  | nil => rfl
  | cons a l ih =>
    rw [List.flatMap_cons, hf a (by simp), ih (fun b hb => hf b (by simp [hb])),
      List.length_cons, Nat.mul_succ, Nat.add_comm, List.replicate_add]

/-- **The validator-set hash sees only the size of the set.** Every member contributes eight
zero bytes, whatever its identifier, key type and power. -/
theorem validatorSetHash_eq (H : Bytes → Hash) (V : ValidatorSet) :
    validatorSetHash H V = H (List.replicate (8 * V.size) 0) := by
  unfold validatorSetHash
  rw [flatMap_replicate_const _ _ (fun k hk => validatorEntryBytes_of_mem hk),
    length_validatorSetKeys]

/-- Two validator sets of one size get one hash. -/
theorem validatorSetHash_eq_of_size_eq (H : Bytes → Hash) {V₁ V₂ : ValidatorSet}
    (h : V₁.size = V₂.size) : validatorSetHash H V₁ = validatorSetHash H V₂ := by
  rw [validatorSetHash_eq, validatorSetHash_eq, h]

/-- Two one-member validator sets with different identifiers, key types and powers: their
entries differ, and their hashes agree under every hasher, a collision-free one included. -/
theorem validatorSetHash_ignores_members :
    (updateValidatorSet [⟨⟨[1], .secp256k1⟩, 1⟩]).members.entries ≠
      (updateValidatorSet [⟨⟨[2], .ed25519⟩, 2⟩]).members.entries ∧
    ∀ H : Bytes → Hash, validatorSetHash H (updateValidatorSet [⟨⟨[1], .secp256k1⟩, 1⟩]) =
      validatorSetHash H (updateValidatorSet [⟨⟨[2], .ed25519⟩, 2⟩]) := by
  refine ⟨by decide, fun H => validatorSetHash_eq_of_size_eq H ?_⟩
  decide

end KwilDb.Consensus
