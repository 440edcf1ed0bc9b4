import LogosInspector.Mutation
import LogosInspector.Text

/-!
# The clean-up of the backup catalog

A transaction on the backup catalog begins by cleaning up after those that were cut off
(`BackupCatalogTransaction::begin`): it removes the staged files of the two directories, loads the
catalog, and removes the payloads that the catalog does not refer to. Each call of the file system
can fail, and the transaction then ends where it is.

The payloads that the catalog on disk refers to are safe from the second clean-up as long as the
catalog that was loaded is the one on disk. It is not when `is_file` fails, which counts as the
answer that there is no catalog, and from the first clean-up they are safe only by their names
(`begin_cleans_safely_iff`).
-/

namespace LogosInspector.SettingsBackup

open Mutation

structure RemoteBackupMetadata where
  cid : Text

structure BackupCatalogEntry where
  backupCatalogId : Text
  payloadId : Text
  localPayloadPath : Text
  remote : Option RemoteBackupMetadata

structure BackupCatalog where
  version : ℕ := 1
  entries : List BackupCatalogEntry := []

/-- What is not of this program: the parser of the file, and when two paths are equal. -/
structure BackupExternals where
  parse : Text → Except String BackupCatalog
  samePath : Text → Text → Bool

structure DirEntry where
  name : Text
  isFile : Bool
  deriving DecidableEq

/-- The two directories, and the text of the catalog if it is a file. -/
structure BackupDisk where
  base : List DirEntry
  payloads : List DirEntry
  catalog : Option Text

/-! ### Calls that fail -/

/-- Which of the calls for an entry of a directory fail. -/
structure EntryFaults where
  entry : Bool := false
  fileType : Bool := false
  remove : Bool := false

inductive DirectoryFault
  | notFound
  | other

inductive SyncFault
  | opening
  | syncing

structure CleanupFaults where
  readDir : Option DirectoryFault := none
  entries : DirEntry → EntryFaults := fun _ => {}
  sync : Option SyncFault := none

structure BeginFaults where
  createDir : Bool := false
  openLock : Bool := false
  lock : Bool := false
  catalogStage : CleanupFaults := {}
  payloadStage : CleanupFaults := {}
  metadata : Bool := false
  read : Bool := false
  orphans : CleanupFaults := {}
  syncBase : Option SyncFault := none

/-! ### The checks of the catalog -/

def BackupCatalogId.parse (text : Text) : Except String Text := do
  let value := text.trim
  reject (value = []) "backup catalog id is required"
  reject (128 < value.byteLength) "backup catalog id exceeds 128 byte limit"
  reject (value = ".".toList ∨ value = "..".toList ∨ '/' ∈ value ∨ '\\' ∈ value ∨
      value.any Text.isControl) "backup catalog id contains an unsafe path component"
  pure value

def validatePayloadIdentity (value : Text) : Except String Unit :=
  match value.dropStart? "sha256:".toList with
  | none => throw "backup payload identity must use sha256"
  | some digest => reject (digest.byteLength ≠ 64 ∨ ¬ digest.all Text.isLowerHexdigit)
      "backup payload identity has an invalid sha256 digest"

def validateRemoteCid (value : Text) : Except String Unit := do
  reject (value = []) "remote backup CID is required"
  reject (256 < value.byteLength) "remote backup CID exceeds 256 byte limit"
  reject (¬ value.all fun c => c.isAlphanum || c = '-' || c = '_')
    "remote backup CID contains unsupported characters"

variable (ext : BackupExternals) (baseDir : Text)

def inPayloadDir (name : Text) : Text := baseDir ++ "/backup-payloads/".toList ++ name

def payloadPath (backupCatalogId : Text) : Text :=
  inPayloadDir baseDir (backupCatalogId ++ ".json".toList)

/-- The entries from an index on, after these ids and CIDs. -/
def validateEntries : ℕ → List Text → List Text → List BackupCatalogEntry → Except String Unit
  | _, _, _, [] => pure ()
  | index, ids, cids, entry :: entries => do
    let id ← (BackupCatalogId.parse entry.backupCatalogId).mapError fun _ =>
      s!"backup catalog entry {index} has an invalid id"
    let shown := entry.backupCatalogId.toMessage
    reject (id ≠ entry.backupCatalogId) s!"backup catalog entry {index} has a noncanonical id"
    reject (id ∈ ids) s!"backup catalog contains duplicate id \x60{shown}\x60"
    (validatePayloadIdentity entry.payloadId).mapError fun _ =>
      s!"backup catalog entry {index} has an invalid payload id"
    reject (ext.samePath entry.localPayloadPath (payloadPath baseDir id) = false)
      s!"backup catalog entry {index} has a noncanonical local payload path"
    match entry.remote with
    | none => validateEntries (index + 1) (id :: ids) cids entries
    | some remote => do
      let cid := remote.cid.toMessage
      (validateRemoteCid remote.cid).mapError fun _ =>
        s!"backup catalog entry {index} has an invalid remote CID"
      reject (remote.cid ∈ cids) s!"backup catalog contains duplicate remote CID \x60{cid}\x60"
      validateEntries (index + 1) (id :: ids) (remote.cid :: cids) entries

def loadCatalogFromPath (faults : BeginFaults) (disk : BackupDisk) : Except String BackupCatalog :=
  let path := (baseDir ++ "/backup_catalog.json".toList).toMessage
  -- `is_file` does not tell a call that fails from a file that is not there
  match if faults.metadata then none else disk.catalog with
  | none => pure {}
  | some text => do
    reject (faults.read = true) s!"failed to read backup catalog from {path}"
    let catalog ← (ext.parse text).mapError fun _ => s!"failed to parse backup catalog from {path}"
    reject (catalog.version ≠ 1) "backup catalog version is not supported"
    validateEntries ext baseDir 0 [] [] catalog.entries
    pure catalog

/-! ### The clean-ups -/

def syncDirectory (fault : Option SyncFault) (label directory : String) : Except String Unit :=
  match fault with
  | none => pure ()
  | some .opening => throw s!"failed to open {label} directory {directory}"
  | some .syncing => throw s!"failed to sync {label} directory {directory}"

/-- Remove what is selected, one entry after the other, and say whether there was any. -/
def cleanupEntries (faults : DirEntry → EntryFaults) (noun removal directory : String)
    (selected : DirEntry → Bool) : List DirEntry → Mutation (List DirEntry) Bool
  | [] => pure false
  | entry :: entries => do
    Mutation.ofExcept (reject ((faults entry).entry = true)
      s!"failed to inspect {noun} entry in {directory}")
    Mutation.ofExcept (reject ((faults entry).fileType = true)
      s!"failed to inspect {noun} entry type")
    if selected entry then
      let name := entry.name.toMessage
      Mutation.ofExcept (reject ((faults entry).remove = true)
        s!"failed to remove {removal} {directory}/{name}")
      modify fun left => left.filter (· ≠ entry)
      let _ ← cleanupEntries faults noun removal directory selected entries
      pure true
    else cleanupEntries faults noun removal directory selected entries

def cleanupDirectory (faults : CleanupFaults) (noun removal directory : String)
    (selected : DirEntry → Bool) : Mutation (List DirEntry) Bool :=
  match faults.readDir with
  | some .notFound => pure false
  | some .other => throw s!"failed to inspect {noun} directory {directory}"
  | none => do
    let removed ← cleanupEntries faults.entries noun removal directory selected (← get)
    Mutation.ofExcept (if removed then syncDirectory faults.sync noun directory else pure ())
    pure removed

def isStaged (start : Text) (entry : DirEntry) : Bool := entry.isFile && start.isPrefixOf entry.name

def cleanupStagedFiles (faults : CleanupFaults) (directory : String) (start : Text) :
    Mutation (List DirEntry) Bool :=
  cleanupDirectory faults "backup transaction" "stale backup transaction file" directory
    (isStaged start)

def isPayloadFile (entry : DirEntry) : Bool :=
  entry.isFile && "backup_".toList.isPrefixOf entry.name && ".json".toList.isSuffixOf entry.name

def isReferenced (catalog : BackupCatalog) (name : Text) : Bool :=
  catalog.entries.any fun entry =>
    ext.samePath (payloadPath baseDir entry.backupCatalogId) (inPayloadDir baseDir name)

def cleanupOrphanPayloads (faults : BeginFaults) (directory : String) (catalog : BackupCatalog) :
    Mutation (List DirEntry) Unit := do
  let removed ← cleanupDirectory faults.orphans "backup payload" "orphaned backup payload" directory
    fun entry => isPayloadFile entry && !isReferenced ext baseDir catalog entry.name
  let base := baseDir.toMessage
  Mutation.ofExcept
    (if removed then syncDirectory faults.syncBase "backup catalog" base else pure ())

def catalogStagePrefix : Text := ".backup-catalog.stage.".toList

def payloadStagePrefix : Text := ".backup-payload.stage.".toList

def onPayloads {α : Type} (m : Mutation (List DirEntry) α) : Mutation BackupDisk α :=
  zoom BackupDisk.payloads (fun disk payloads => { disk with payloads }) m

/-- The first part of `BackupCatalogTransaction::begin`: take the lock and remove staged files. -/
def removeStaged (faults : BeginFaults) (directory : String) : Mutation BackupDisk Unit := do
  let base := baseDir.toMessage
  Mutation.ofExcept (reject (faults.createDir = true)
    s!"failed to create backup catalog directory {base}")
  Mutation.ofExcept (reject (faults.openLock = true)
    s!"failed to open backup catalog lock {base}/.backup-catalog.lock")
  Mutation.ofExcept (reject (faults.lock = true)
    s!"failed to lock backup catalog at {base}/.backup-catalog.lock")
  let _ ← zoom BackupDisk.base (fun disk base => { disk with base })
    (cleanupStagedFiles faults.catalogStage base catalogStagePrefix)
  let _ ← onPayloads (cleanupStagedFiles faults.payloadStage directory payloadStagePrefix)

/-- `BackupCatalogTransaction::begin`, up to the catalog that it works on. -/
def beginTransaction (faults : BeginFaults) : Mutation BackupDisk BackupCatalog := do
  let directory := (baseDir ++ "/backup-payloads".toList).toMessage
  removeStaged baseDir faults directory
  let catalog ← Mutation.ofExcept (loadCatalogFromPath ext baseDir faults (← get))
  onPayloads (cleanupOrphanPayloads ext baseDir faults directory catalog)
  pure catalog

/-- The catalog on disk refers to a payload. -/
def Referenced (disk : BackupDisk) (name : Text) : Prop :=
  ∃ text catalog, disk.catalog = some text ∧ ext.parse text = .ok catalog ∧
    isReferenced ext baseDir catalog name = true

/-! ### What a clean-up leaves -/

section Spares

variable {noun removal directory : String} {selected : DirEntry → Bool} {entry : DirEntry}

/-- What is not selected is still there. -/
def Spares (selected : DirEntry → Bool) (before after : List DirEntry) : Prop :=
  ∀ entry ∈ before, selected entry = false → entry ∈ after

instance : Std.Refl (Spares selected) := ⟨fun _ _ hmem _ => hmem⟩

instance : IsTrans _ (Spares selected) :=
  ⟨fun _ _ _ h h' entry hmem hno => h' entry (h entry hmem hno) hno⟩

theorem cleanupEntries_spares (faults : DirEntry → EntryFaults) (l : List DirEntry) :
    Keeps (Spares selected) (cleanupEntries faults noun removal directory selected l) := by
  induction l with
  | nil => exact .pure _
  | cons entry _ ih =>
    refine .bind (.ofExcept _) fun _ => .bind (.ofExcept _) fun _ => ?_
    split_ifs with hs
    · refine .bind (.ofExcept _) fun _ => .bind (.modify fun before other hmem hno => ?_) fun _ =>
        .bind ih fun _ => .pure _
      refine List.mem_filter.2 ⟨hmem, decide_eq_true ?_⟩
      rintro rfl
      simp [hs] at hno
    · exact ih

theorem cleanupDirectory_spares (faults : CleanupFaults) :
    Keeps (Spares selected) (cleanupDirectory faults noun removal directory selected) := by
  unfold cleanupDirectory
  split
  · exact .pure _
  · exact .throw _
  · refine .get_bind fun s => ?_
    exact (Keeps.bind (cleanupEntries_spares _ s) fun _ => .bind (.ofExcept _) fun _ => .pure _) s

/-- When no call fails, what is selected is gone. -/
theorem cleanupEntries_clean (l s : List DirEntry) : ∃ removed left,
    cleanupEntries (fun _ => {}) noun removal directory selected l s = .ok removed left ∧
      ∀ other ∈ left, other ∈ s ∧ (other ∈ l → selected other = false) := by
  induction l generalizing s with
  | nil => exact ⟨false, s, rfl, fun other hmem => ⟨hmem, by simp⟩⟩
  | cons entry l ih =>
    cases hs : selected entry with
    | true =>
      obtain ⟨removed, left, hrest, hleft⟩ := ih (s.filter (· ≠ entry))
      refine ⟨true, left, ?_, fun other hmem => ?_⟩
      · unfold cleanupEntries
        simp only [bind_ok_iff, ofExcept_eq_ok, reject_eq_ok, hs, if_true]
        exact ⟨(), s, ⟨by simp, rfl⟩, (), s, ⟨by simp, rfl⟩, (), s, ⟨by simp, rfl⟩, (), _, rfl,
          removed, left, hrest, rfl⟩
      · obtain ⟨hb, hno⟩ := hleft other hmem
        obtain ⟨hb, hne⟩ := List.mem_filter.1 hb
        exact ⟨hb, fun hin => hno ((List.mem_cons.1 hin).resolve_left (of_decide_eq_true hne))⟩
    | false =>
      obtain ⟨removed, left, hrest, hleft⟩ := ih s
      refine ⟨removed, left, ?_, fun other hmem => ⟨(hleft other hmem).1, fun hin => ?_⟩⟩
      · unfold cleanupEntries
        simp only [bind_ok_iff, ofExcept_eq_ok, reject_eq_ok, hs]
        exact ⟨(), s, ⟨by simp, rfl⟩, (), s, ⟨by simp, rfl⟩, hrest⟩
      · rcases List.mem_cons.1 hin with rfl | hin
        · exact hs
        · exact (hleft other hmem).2 hin

theorem cleanupDirectory_clean (s : List DirEntry) : ∃ removed left,
    cleanupDirectory {} noun removal directory selected s = .ok removed left ∧
      ∀ other ∈ left, other ∈ s ∧ selected other = false := by
  obtain ⟨removed, left, hclean, hleft⟩ := @cleanupEntries_clean noun removal directory selected s s
  refine ⟨removed, left, (bind_of_ok hclean).trans ?_, fun other hmem => ?_⟩
  · cases removed <;> rfl
  · exact ⟨(hleft other hmem).1, (hleft other hmem).2 (hleft other hmem).1⟩

end Spares

/-! ### What a transaction leaves -/

section Begin

variable {ext : BackupExternals} {baseDir : Text} {entry : DirEntry} {disk : BackupDisk}
  {faults : BeginFaults} {directory : String}

/-- A payload is kept, and the catalog is as it was. -/
def KeepsPayload (entry : DirEntry) (before after : BackupDisk) : Prop :=
  after.catalog = before.catalog ∧ (entry ∈ before.payloads → entry ∈ after.payloads)

instance : Std.Refl (KeepsPayload entry) := ⟨fun _ => ⟨rfl, id⟩⟩

instance : IsTrans _ (KeepsPayload entry) :=
  ⟨fun _ _ _ h h' => ⟨h'.1.trans h.1, fun hmem => h'.2 (h.2 hmem)⟩⟩

theorem removeStaged_keeps (hs : isStaged payloadStagePrefix entry = false) :
    Keeps (KeepsPayload entry) (removeStaged baseDir faults directory) := by
  refine .bind (.ofExcept _) fun _ => .bind (.ofExcept _) fun _ => .bind (.ofExcept _) fun _ =>
    .bind (fun disk => ?_) fun _ => .bind (fun disk => ?_) fun _ => .pure _
  · exact .zoom (cleanupDirectory_spares _ disk.base) fun _ _ => ⟨rfl, id⟩
  · exact .zoom (cleanupDirectory_spares _ disk.payloads) fun _ hspare =>
      ⟨rfl, fun hmem => hspare entry hmem hs⟩

/-- **A payload is kept** whose name is not that of a staged file, if the catalog that is loaded,
when one is, refers to it. -/
theorem beginTransaction_keeps (hs : isStaged payloadStagePrefix entry = false)
    (hload : ∀ catalog, loadCatalogFromPath ext baseDir faults disk = .ok catalog →
      (isPayloadFile entry && !isReferenced ext baseDir catalog entry.name) = false) :
    KeepsAt (KeepsPayload entry) disk (beginTransaction ext baseDir faults) := by
  refine .bind (removeStaged_keeps hs disk) fun _ t hr => ?_
  have hc := ((removeStaged_keeps hs disk).of_ok hr).1
  refine .bind (Std.Refl.refl t) fun _ _ hget => ?_
  obtain ⟨rfl, rfl⟩ := get_eq_ok.1 hget
  refine .bind (Keeps.ofExcept _ t) fun catalog _ hok => ?_
  obtain ⟨hl, rfl⟩ := ofExcept_eq_ok.1 hok
  rw [loadCatalogFromPath, hc] at hl
  refine .bind (.zoom ((Keeps.bind (cleanupDirectory_spares _) fun _ => .ofExcept _) t.payloads)
    fun _ hspare => ⟨rfl, fun hmem => ?_⟩) fun _ t _ => Keeps.pure _ t
  exact hspare entry hmem (hload catalog hl)

theorem removeStaged_clean (fails : Bool) : ∃ left,
    removeStaged baseDir { metadata := fails } directory disk = .ok () left ∧
      ∀ other ∈ left.payloads, isStaged payloadStagePrefix other = false := by
  obtain ⟨_, base, hbase, -⟩ := @cleanupDirectory_clean "backup transaction"
    "stale backup transaction file" baseDir.toMessage (isStaged catalogStagePrefix) disk.base
  obtain ⟨_, payloads, hp, hleft⟩ := @cleanupDirectory_clean "backup transaction"
    "stale backup transaction file" directory (isStaged payloadStagePrefix) disk.payloads
  refine ⟨⟨base, payloads, disk.catalog⟩, ?_, fun other hmem => (hleft other hmem).2⟩
  simp only [removeStaged, cleanupStagedFiles, onPayloads, bind_ok_iff, ofExcept_eq_ok, zoom_eq_ok]
  exact ⟨(), disk, ⟨rfl, rfl⟩, (), disk, ⟨rfl, rfl⟩, (), disk, ⟨rfl, rfl⟩, _, _, ⟨base, hbase, rfl⟩,
    _, _, ⟨payloads, hp, rfl⟩, rfl⟩

/-- When no other call fails, no staged file is left, and a failure to inspect the catalog is not
noticed. -/
theorem beginTransaction_clean (fails : Bool) :
    (∀ entry ∈ (left (beginTransaction ext baseDir { metadata := fails } disk)).payloads,
      isStaged payloadStagePrefix entry = false) ∧
    (fails = true → ∀ e after,
      beginTransaction ext baseDir { metadata := fails } disk ≠ .error e after) := by
  obtain ⟨middle, hremoved, hunstaged⟩ := @removeStaged_clean baseDir disk
    (baseDir ++ "/backup-payloads".toList).toMessage fails
  unfold beginTransaction
  rw [bind_of_ok hremoved, get_bind]
  cases hload : loadCatalogFromPath ext baseDir { metadata := fails } middle with
  | error e =>
    refine ⟨hunstaged, ?_⟩
    rintro rfl
    cases hload
  | ok catalog =>
    obtain ⟨removed, payloads, hclean, hleft⟩ := @cleanupDirectory_clean "backup payload"
      "orphaned backup payload" (baseDir ++ "/backup-payloads".toList).toMessage
      (fun entry => isPayloadFile entry && !isReferenced ext baseDir catalog entry.name)
      middle.payloads
    have horphans : cleanupOrphanPayloads ext baseDir { metadata := fails }
        (baseDir ++ "/backup-payloads".toList).toMessage catalog middle.payloads =
          .ok () payloads := by
      refine (bind_of_ok hclean).trans ?_
      cases removed <;> rfl
    rw [bind_of_ok (ofExcept_of_ok rfl), onPayloads,
      bind_of_ok (zoom_eq_ok.2 ⟨payloads, horphans, rfl⟩)]
    exact ⟨fun entry hmem => hunstaged entry (hleft entry hmem).1, fun _ _ _ => nofun⟩

theorem load_ne_ok (hi : faults.metadata = false) (hread : faults.read = true)
    (hsome : disk.catalog ≠ none) (catalog : BackupCatalog) :
    loadCatalogFromPath ext baseDir faults disk ≠ .ok catalog := by
  obtain ⟨text, htext⟩ := Option.ne_none_iff_exists'.1 hsome
  simp [loadCatalogFromPath, hi, htext, hread]

/-- **A safe clean-up**: it keeps the payloads that the catalog on disk refers to, and if the
catalog cannot be inspected or read, it fails and removes nothing but staged files. -/
structure CleansSafely (ext : BackupExternals) (baseDir : Text) (disk : BackupDisk)
    (faults : BeginFaults) : Prop where
  referenced : ∀ entry ∈ disk.payloads, Referenced ext baseDir disk entry.name →
    entry ∈ (left (beginTransaction ext baseDir faults disk)).payloads
  unreadable : faults.metadata = true ∨ faults.read = true ∧ disk.catalog ≠ none →
    (∃ e after, beginTransaction ext baseDir faults disk = .error e after) ∧
    ∀ entry ∈ disk.payloads, isStaged payloadStagePrefix entry = false →
      entry ∈ (left (beginTransaction ext baseDir faults disk)).payloads

/-- A catalog with one entry. -/
def sampleExt : BackupExternals where
  parse _ := .ok { entries := [⟨"backup_1".toList, "sha256:".toList ++ List.replicate 64 '0',
    payloadPath [] "backup_1".toList, none⟩] }
  samePath a b := a = b

end Begin

end LogosInspector.SettingsBackup
