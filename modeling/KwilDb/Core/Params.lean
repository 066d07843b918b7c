import KwilDb.Core.Types

/-!
# Network parameters

`core/types/params.go`: the parameters of a network that its blocks can change. The migration
status among them is a Go string whose named values are the phases of a migration; `Active`
holds of every status but `NoActiveMigration`, the empty string included.
-/

namespace KwilDb.Core

/-- `types.MigrationStatus`, a Go string. -/
structure MigrationStatus where
  bytes : Bytes
deriving DecidableEq, Repr

namespace MigrationStatus

def noActiveMigration : MigrationStatus := ⟨goBytes "NoActiveMigration"⟩
def activationPeriod : MigrationStatus := ⟨goBytes "ActivationPeriod"⟩
def migrationInProgress : MigrationStatus := ⟨goBytes "MigrationInProgress"⟩
def migrationCompleted : MigrationStatus := ⟨goBytes "MigrationCompleted"⟩
def genesisMigration : MigrationStatus := ⟨goBytes "GenesisMigration"⟩

/-- `NoneActive`. -/
def noneActive (ms : MigrationStatus) : Bool := decide (ms = noActiveMigration)

/-- `Active`. -/
def active (ms : MigrationStatus) : Bool := !ms.noneActive

end MigrationStatus

/-- `types.PublicKey`: the key's type and its bytes. -/
structure PublicKey where
  keyType : KeyType
  bytes : Bytes
deriving DecidableEq, Repr

/-- `types.NetworkParameters`; a leader that was never set is `none`. -/
structure NetworkParameters where
  leader : Option PublicKey
  maxBlockSize : ℤ
  joinExpiry : ℤ
  disabledGasCosts : Bool
  maxVotesPerTx : ℤ
  migrationStatus : MigrationStatus
deriving DecidableEq, Repr

end KwilDb.Core
