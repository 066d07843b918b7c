import KwilDb.Lib.Go

/-!
# Bytes, key types and account identifiers

The data of `core/types` and `core/crypto` that the consensus engine and the account store read:
byte strings and hashes, `hex.EncodeToString`, the key types with their registry, `AccountID`
with its binary encoding, and `Validator`.

A Go `[]byte` is a `List UInt8`; nil and empty slices are one value here, as nothing modelled
tells them apart. `types.Hash` is a 32-byte vector. The registry `crypto.keyTypes` is the one
the package builds: `secp256k1` with encoding flag `0` and `ed25519` with flag `1`.
-/

namespace KwilDb.Core

open KwilDb.Lib

/-- A Go byte slice. -/
abbrev Bytes := List UInt8

/-- The one `LawfulBEq` instance that membership tests on lists of byte strings use. -/
instance Bytes.instLawfulBEq : LawfulBEq Bytes := inferInstance

/-- `types.Hash`: a SHA-256 digest. -/
abbrev Hash := Vector UInt8 32

/-! ### Hexadecimal text -/

/-- The lowercase hexadecimal digit of `n < 16`. -/
def hexDigit (n : ℕ) : Char := if n < 10 then Char.ofNat (48 + n) else Char.ofNat (87 + n)

/-- `hex.EncodeToString`: two lowercase digits for each byte. -/
def hexEncode (bs : Bytes) : String :=
  String.ofList (bs.flatMap fun b => [hexDigit (b.toNat / 16), hexDigit (b.toNat % 16)])

example : hexEncode [0x1f, 0xa0] = "1fa0" := by decide

lemma hexDigit_ne_hash : ∀ n < 16, hexDigit n ≠ '#' := by decide

/-- Hexadecimal text never holds a `#`. -/
theorem hash_not_mem_hexEncode (bs : Bytes) : '#' ∉ (hexEncode bs).toList := by
  simp only [hexEncode, String.toList_ofList, List.mem_flatMap, not_exists, not_and]
  intro b _ hmem
  have hb := UInt8.toNat_lt b
  rcases List.mem_pair.mp hmem with h | h
  · exact hexDigit_ne_hash _ (by omega) h.symm
  · exact hexDigit_ne_hash _ (by omega) h.symm

/-- Go's `string(b)` of a byte slice. A Go string is a byte string; each byte is one character
here, so two strings are equal exactly when their bytes are. -/
def goString (b : Bytes) : String := String.ofList (b.map fun x => Char.ofNat x.toNat)

/-- Go's `[]byte(s)` of an ASCII string: one byte per character. -/
def goBytes (s : String) : Bytes := s.toList.map fun c => UInt8.ofNat c.toNat

@[simp] lemma length_goBytes (s : String) : (goBytes s).length = s.length := by
  simp [goBytes, String.length_toList]

/-- A string whose characters are bytes comes back from its bytes. -/
lemma goString_goBytes {s : String} (h : ∀ c ∈ s.toList, c.toNat < 256) :
    goString (goBytes s) = s := by
  have hc : ∀ c ∈ s.toList, Char.ofNat (UInt8.ofNat c.toNat).toNat = c := by
    intro c hc
    have hlt := h c hc
    have : (UInt8.ofNat c.toNat).toNat = c.toNat := by
      simp
      omega
    rw [this, Char.ofNat_toNat]
  simp only [goString, goBytes, List.map_map, Function.comp_def]
  rw [List.map_congr_left hc, List.map_id', String.ofList_toList]

/-! ### Key types -/

/-- `crypto.KeyType`, a Go string type. -/
structure KeyType where
  name : String
deriving DecidableEq, Repr

namespace KeyType

def secp256k1 : KeyType := ⟨"secp256k1"⟩
def ed25519 : KeyType := ⟨"ed25519"⟩

end KeyType

/-- `crypto.KeyTypeDefinition(kt).EncodeFlag()`, or `none` for a key type that is not in the
registry. -/
def keyTypeEncodeFlag (kt : KeyType) : Option ℕ :=
  if kt = .secp256k1 then some 0 else if kt = .ed25519 then some 1 else none

/-- A key type in the registry is secp256k1 or ed25519. -/
theorem registered_cases {kt : KeyType} {flag : ℕ} (h : keyTypeEncodeFlag kt = some flag) :
    kt = .secp256k1 ∨ kt = .ed25519 := by
  unfold keyTypeEncodeFlag at h
  split_ifs at h with h1 h2
  · exact .inl h1
  · exact .inr h2

/-- The encoding flag tells registered key types apart. -/
theorem keyType_eq_of_flag {k₁ k₂ : KeyType} {flag : ℕ} (h₁ : keyTypeEncodeFlag k₁ = some flag)
    (h₂ : keyTypeEncodeFlag k₂ = some flag) : k₁ = k₂ := by
  rcases registered_cases h₁ with rfl | rfl <;> rcases registered_cases h₂ with rfl | rfl
  · rfl
  · simp [keyTypeEncodeFlag, KeyType.secp256k1, KeyType.ed25519] at h₁ h₂
    omega
  · simp [keyTypeEncodeFlag, KeyType.secp256k1, KeyType.ed25519] at h₁ h₂
    omega
  · rfl

/-- `config.EncodePubKeyAndType`: `"<hex>#<type>"`. -/
def encodePubKeyAndType (pubKey : Bytes) (kt : KeyType) : String :=
  hexEncode pubKey ++ "#" ++ kt.name

/-- A bare hex key and a `"<hex>#<type>"` key are never the same string. -/
theorem hexEncode_ne_encodePubKeyAndType (a b : Bytes) (kt : KeyType) :
    hexEncode a ≠ encodePubKeyAndType b kt := by
  intro h
  have hmem : '#' ∈ (encodePubKeyAndType b kt).toList := by
    simp [encodePubKeyAndType, String.toList_append]
  rw [← h] at hmem
  exact hash_not_mem_hexEncode a hmem

/-! ### Account identifiers -/

/-- `types.AccountID`. -/
structure AccountID where
  identifier : Bytes
  keyType : KeyType
deriving DecidableEq, Repr

/-- `types.WriteBytes` of a non-nil slice: a four-byte little-endian length, then the bytes. -/
def writeBytes (data : Bytes) : Bytes := leBytes 4 data.length ++ data

/-- `AccountIDVersion`. -/
def accountIDVersion : ℕ := 0

/-- `AccountID.MarshalBinary`: the version, the identifier, the key type's encoding flag; an
unregistered key type fails. -/
def AccountID.marshalBinary (id : AccountID) : Except String Bytes :=
  match keyTypeEncodeFlag id.keyType with
  | none => .error ("invalid key type: " ++ id.keyType.name)
  | some flag => .ok (leBytes 2 accountIDVersion ++ writeBytes id.identifier ++ leBytes 4 flag)

/-- `AccountID.Bytes`: the encoding, with the error of `MarshalBinary` dropped (a nil slice). -/
def AccountID.bytes (id : AccountID) : Bytes :=
  match id.marshalBinary with
  | .ok b => b
  | .error _ => []

/-- An account of an unregistered key type encodes to nothing. -/
theorem AccountID.bytes_of_unregistered {id : AccountID} (h : keyTypeEncodeFlag id.keyType = none) :
    id.bytes = [] := by
  simp [AccountID.bytes, AccountID.marshalBinary, h]

/-- An encoding flag of the registry is `0` or `1`. -/
lemma flag_cases {kt : KeyType} {flag : ℕ} (h : keyTypeEncodeFlag kt = some flag) :
    flag = 0 ∨ flag = 1 := by
  unfold keyTypeEncodeFlag at h
  split_ifs at h <;> cases h
  · exact .inl rfl
  · exact .inr rfl

/-- **The encoding of an account names it.** An account whose encoding is another's is that
account: the identifier is read back after its length, and the key type from its flag. -/
theorem AccountID.eq_of_bytes_eq {a b : AccountID} {k : Bytes} (ha : a.marshalBinary = .ok k)
    (h : a.bytes = b.bytes) : a = b := by
  obtain ⟨fa, hfa⟩ : ∃ fa, keyTypeEncodeFlag a.keyType = some fa := by
    cases hf : keyTypeEncodeFlag a.keyType with
    | none => simp [AccountID.marshalBinary, hf] at ha
    | some fa => exact ⟨fa, rfl⟩
  cases hfb : keyTypeEncodeFlag b.keyType with
  | none =>
    -- `b` encodes to nothing, and `a` to its version at least
    rw [AccountID.bytes_of_unregistered hfb] at h
    simp [AccountID.bytes, AccountID.marshalBinary, hfa, accountIDVersion, leBytes] at h
  | some fb =>
    simp only [AccountID.bytes, AccountID.marshalBinary, hfa, hfb] at h
    have hlen : a.identifier.length = b.identifier.length := by
      simpa [writeBytes] using congrArg List.length h
    obtain ⟨hw, hf⟩ := List.append_inj h (by simp [writeBytes, hlen])
    have hid : a.identifier = b.identifier :=
      (List.append_inj (List.append_cancel_left hw) (by simp)).2
    have hflag : fa = fb := by
      rcases flag_cases hfa with rfl | rfl <;> rcases flag_cases hfb with rfl | rfl <;>
        first | rfl | exact absurd hf (by decide)
    obtain ⟨ia, kta⟩ := a
    obtain ⟨ib, ktb⟩ := b
    subst hflag
    simp only at hid hfa hfb
    rw [hid, keyType_eq_of_flag hfa hfb]

/-- `AccountID.String`: `"AccountID{identifier = %x, keyType = %s}"`. -/
def AccountID.string (id : AccountID) : String :=
  "AccountID\x7bidentifier = " ++ hexEncode id.identifier ++ ", keyType = " ++ id.keyType.name ++
    "\x7d"

/-! ### Validators -/

/-- `types.Validator`. -/
structure Validator where
  accountID : AccountID
  power : Int64
deriving DecidableEq, Repr

/-- The zero value of `types.Validator`, what a Go map lookup returns for a missing key. -/
def Validator.zero : Validator := ⟨⟨[], ⟨""⟩⟩, 0⟩

@[simp] lemma Validator.zero_bytes : Validator.zero.accountID.bytes = [] :=
  AccountID.bytes_of_unregistered (by decide)

@[simp] lemma Validator.zero_power : Validator.zero.power.toBitVec.toNat = 0 := rfl

end KwilDb.Core
