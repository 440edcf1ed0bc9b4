import Mathlib

/-!
# The catalogue of operations, and the areas of a backup

Every method has a definition, which says whether its operations can be canceled and of which class
they are. From the class follows whether they are safe to be started again.

A backup has four areas, and an import says for each of them whether it replaces what is there, is
merged into it, or is left out.
-/

namespace LogosInspector.SettingsBackup

inductive BackupImportArea
  | settings
  | favorites
  | idlRegistry
  | walletProfile
  deriving DecidableEq

def BackupImportArea.all : List BackupImportArea :=
  [.settings, .favorites, .idlRegistry, .walletProfile]

inductive BackupImportMode
  | replace
  | merge
  | skip
  deriving DecidableEq

def BackupImportMode.isSelected : BackupImportMode → Bool
  | .skip => false
  | .replace | .merge => true

structure BackupImportSelection where
  settings : BackupImportMode
  favorites : BackupImportMode
  idlRegistry : BackupImportMode
  walletProfile : BackupImportMode
  deriving DecidableEq

namespace BackupImportSelection

def mode (selection : BackupImportSelection) : BackupImportArea → BackupImportMode
  | .settings => selection.settings
  | .favorites => selection.favorites
  | .idlRegistry => selection.idlRegistry
  | .walletProfile => selection.walletProfile

def selectedAreas (selection : BackupImportSelection) : List BackupImportArea :=
  BackupImportArea.all.filter fun area => (selection.mode area).isSelected

def affectedAreas (selection : BackupImportSelection) : List BackupImportArea :=
  selection.selectedAreas

end BackupImportSelection

end LogosInspector.SettingsBackup

namespace LogosInspector.Operations

inductive OperationMethod
  | storageManifests
  | storageDownloadManifest
  | storageFetch
  | storageUploadUrl
  | storageUploadPayload
  | storageUploadBackupCatalogEntry
  | storageDownloadBackupCatalogEntry
  | storageDownloadToUrl
  | storageRemove
  | deliverySubscribe
  | deliveryUnsubscribe
  | deliverySend
  | deliveryCreateNode
  | deliveryStart
  | deliveryStop
  | deliveryStoreQuery
  | localNodesAction
  | channelIndexerAction
  | localModulePackageInstall
  | localWalletCreateAccount
  | localWalletSendTransaction
  | localWalletInstructionSubmit
  | localWalletCommand
  | localWalletDeployProgram
  | localWalletSyncPrivate
  | localWalletAccounts
  | blockchainNode
  | blockchainBlocks
  | blockchainFinalizedBlocks
  | blockchainLiveBlocks
  | blockchainBlock
  | blockchainTransaction
  deriving DecidableEq

inductive OperationClass
  | destructive
  | lifecycle
  | mutating
  | readPoll
  | signingSubmission
  deriving DecidableEq

inductive RestartPolicy
  | manualRequired
  | safeReadPolling
  deriving DecidableEq

structure OperationDefinition where
  operationClass : OperationClass
  cancellable : Bool

def OperationDefinition.restartPolicy (definition : OperationDefinition) : RestartPolicy :=
  match definition.operationClass with
  | .readPoll => .safeReadPolling
  | .destructive | .lifecycle | .mutating | .signingSubmission => .manualRequired

def OperationDefinition.safeToRestart (definition : OperationDefinition) : Bool :=
  definition.restartPolicy = .safeReadPolling

/-- The catalogue, from the definitions of the domains. -/
def operationDefinition : OperationMethod → OperationDefinition
  | .storageManifests | .storageDownloadManifest => ⟨.readPoll, false⟩
  | .storageFetch | .storageUploadUrl | .storageUploadPayload | .storageUploadBackupCatalogEntry =>
    ⟨.mutating, false⟩
  | .storageDownloadBackupCatalogEntry | .storageDownloadToUrl => ⟨.mutating, true⟩
  | .storageRemove => ⟨.destructive, false⟩
  | .deliverySubscribe | .deliveryUnsubscribe | .deliverySend => ⟨.mutating, false⟩
  | .deliveryCreateNode | .deliveryStart | .deliveryStop => ⟨.lifecycle, false⟩
  | .deliveryStoreQuery => ⟨.readPoll, false⟩
  | .localNodesAction | .channelIndexerAction => ⟨.lifecycle, false⟩
  | .localModulePackageInstall => ⟨.mutating, false⟩
  | .localWalletCreateAccount | .localWalletSendTransaction | .localWalletInstructionSubmit
  | .localWalletCommand | .localWalletDeployProgram | .localWalletSyncPrivate =>
    ⟨.signingSubmission, false⟩
  | .localWalletAccounts => ⟨.readPoll, false⟩
  | .blockchainNode | .blockchainBlocks | .blockchainFinalizedBlocks | .blockchainLiveBlocks
  | .blockchainBlock | .blockchainTransaction => ⟨.readPoll, false⟩

/-- What can be canceled is not safe to be started again. -/
theorem not_cancellable_of_safeToRestart (method : OperationMethod)
    (h : (operationDefinition method).safeToRestart = true) :
    (operationDefinition method).cancellable = false := by
  cases method <;> first | rfl | cases h

end LogosInspector.Operations
