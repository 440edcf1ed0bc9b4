import LogosInspector.Result
import LogosInspector.Text

/-!
# Packages of modules, from the download to the installation

A module is installed in two steps. The tool `lgpd` writes the package of a release of the
catalog into a directory; then the tool `lgpm` is run on the file that should have been written.
The official Indexer module and the other core modules are handled by two chains of functions,
and the two do not check the same: both compare the size of the file with the catalog, but only
the second compares its SHA-256.

The file system is what `lstat` shows of it, a node at a path, and `lgpd` is any function on it.
The models end where `lgpm` is started, with the command and the files it finds.
-/

namespace LogosInspector.LocalNodes

/-! ### Paths and files -/

/-- A component of a path. -/
inductive Component
  | rootDir
  | curDir
  | parentDir
  | normal (name : Text)
deriving DecidableEq

/-- A path, as its components. -/
abbrev Path := List Component

namespace Path

def isAbsolute (path : Path) : Bool := path.head? = some .rootDir

def fileName (path : Path) : Option Text :=
  match path.getLast? with
  | some (.normal name) => some name
  | _ => none

/-- What follows the last dot of the file name, unless nothing stands before it. -/
def extension (path : Path) : Option Text := do
  let name ← path.fileName
  let ending := (name.reverse.takeWhile (· ≠ '.')).reverse
  if name.length ≤ ending.length + 1 then none else some ending

def display (path : Path) : Text :=
  path.flatMap fun
    | .rootDir => []
    | .curDir => "/.".toList
    | .parentDir => "/..".toList
    | .normal name => '/' :: name

/-- The path of a file in a directory; its name has no separator. -/
def join (path : Path) (name : Text) : Path := path ++ [.normal name]

end Path

/-- What is found at a path. -/
inductive Node
  | file (bytes : List UInt8)
  | directory
  | symlink (target : Path)

def Node.file? : Node → Option (List UInt8)
  | .file bytes => some bytes
  | _ => none

/-- A file system, as `symlink_metadata` shows it. -/
abbrev FileSystem := Path → Option Node

variable {bytes : List UInt8}

namespace FileSystem

def follow (fs : FileSystem) : ℕ → Path → Option Node
  | 0, _ => none
  | links + 1, path =>
    match fs path with
    | some (.symlink target) => follow fs links target
    | node => node

/-- What is found at the end of the links from a path, of which there are at most forty. -/
def metadata (fs : FileSystem) (path : Path) : Option Node := fs.follow 41 path

theorem metadata_of_file {fs : FileSystem} {path : Path}
    (h : fs path = some (.file bytes)) : fs.metadata path = some (.file bytes) := by
  simp [metadata, follow, h]

end FileSystem

/-! ### Releases and tools -/

/-- A parsed URL. -/
structure Url where
  scheme : Text
  username : Text
  password : Option Text
  host : Option Text
  path : Text
  query : Option Text
  fragment : Option Text

/-- What is taken from libraries. -/
structure PackageExternals where
  parseUrl : Text → Option Url
  sha256 : List UInt8 → List UInt8

structure LocalNodePackageRelease where
  version : Text
  rootHash : Text
  sha256 : Text
  size : ℕ
  url : Text

structure LocalModulePackageCatalogEntry where
  name : Text
  packageType : Text
  repositoryName : Text
  repositoryUrl : Text

structure DownloadedLocalNodePackage where
  name : Text
  version : Text
  rootHash : Text
  size : ℕ
  filePath : Path

inductive PackageInstallAuthority
  | currentUser
  | systemServiceUser (user : Text)

def PackageInstallAuthority.systemServiceUserName : PackageInstallAuthority → Option Text
  | .currentUser => none
  | .systemServiceUser user => some user

/-- The two tools, if they are there: what `lgpd` does with its arguments, and where `lgpm` is. -/
structure PackageToolchain where
  lgpd : Option (List Text → FileSystem → Except String FileSystem)
  lgpm : Option Path

/-- The start of `lgpm` on a package, and the files it finds. -/
structure InstallCommand where
  arguments : List Text
  packagePath : Path
  fileSystem : FileSystem

def indexerPackageName : Text := "lez_indexer_module".toList

def indexerPackageType : Text := "core".toList

def officialDownloadPathPrefix : Text :=
  "/logos-co/logos-modules-release/releases/download/".toList

def modulePackageFilename (packageName version : Text) : Text :=
  packageName ++ '-' :: version ++ ".lgx".toList

def packageFilename (version : Text) : Text := modulePackageFilename indexerPackageName version

/-! ### Checks -/

def isAsciiAlphanumeric (c : Char) : Bool :=
  Text.isAsciiDigit c || ('a' ≤ c && c ≤ 'z') || ('A' ≤ c && c ≤ 'Z')

/-- The check of a name that becomes an argument of a tool, with the characters in `extra`. -/
def validateName (extra : List Char) (message : String) (value : Text) : Except String Unit :=
  reject (value = [] ∨ 128 < value.length ∨ value.head? = some '-' ∨
    ¬ value.all fun c => isAsciiAlphanumeric c || extra.contains c) message

def validateVersion : Text → Except String Unit :=
  validateName ['.', '-', '+', '_'] "package version contains unsupported characters"

def validateIdentifier (value : Text) (label : String) : Except String Unit :=
  validateName ['.', '-', '_'] (label ++ " contains unsupported characters") value

def validatePackageName (value : Text) : Except String Unit :=
  validateIdentifier value "package name"

def validateRepositoryName (value : Text) : Except String Unit :=
  validateIdentifier value "package repository name"

def validateHash (value : Text) (label : String) : Except String Unit :=
  reject (value.length ≠ 64 ∨ ¬ value.all Text.isAsciiHexdigit)
    (label ++ " must contain 64 hexadecimal characters")

/-- An HTTPS URL without credentials, query and fragment. -/
def Url.IsPlainHttps (url : Url) : Prop :=
  url.scheme = "https".toList ∧ url.host.isSome ∧ url.username = [] ∧ url.password = none ∧
    url.query = none ∧ url.fragment = none

instance (url : Url) : Decidable url.IsPlainHttps := by unfold Url.IsPlainHttps; infer_instance

def validateRepositoryUrl (ext : PackageExternals) (value : Text) : Except String Unit := do
  let url ← required (ext.parseUrl value) "package repository URL is invalid"
  reject (¬ url.IsPlainHttps) "package repository URL must be an HTTPS URL without credentials"

/-- The checks of a release that both flows make. -/
def validateReleaseFields (release : LocalNodePackageRelease) : Except String Unit := do
  validateVersion release.version
  validateHash release.rootHash "package root hash"
  validateHash release.sha256 "package SHA-256"
  reject (release.size = 0) "package size must be positive"

def validateRelease (ext : PackageExternals) (release : LocalNodePackageRelease) :
    Except String Unit := do
  validateReleaseFields release
  let url ← required (ext.parseUrl release.url) "package download URL is invalid"
  -- Credentials are not looked at here.
  reject (¬ (url.scheme = "https".toList ∧ url.host = some "github.com".toList ∧
      officialDownloadPathPrefix <+: url.path ∧
      '/' :: packageFilename release.version <:+ url.path ∧
      url.query = none ∧ url.fragment = none))
    "package download URL is not an official Logos release artifact"

def validateModuleCatalogEntry (ext : PackageExternals)
    (package : LocalModulePackageCatalogEntry) : Except String Unit := do
  validatePackageName package.name
  reject (package.packageType ≠ indexerPackageType)
    "only core packages can be installed into the Logos modules directory"
  validateRepositoryName package.repositoryName
  validateRepositoryUrl ext package.repositoryUrl

def validateModuleRelease (ext : PackageExternals) (packageName : Text)
    (release : LocalNodePackageRelease) : Except String Unit := do
  validatePackageName packageName
  validateReleaseFields release
  let url ← required (ext.parseUrl release.url) "package download URL is invalid"
  reject (¬ (url.IsPlainHttps ∧
      '/' :: modulePackageFilename packageName release.version <:+ url.path))
    "package download URL is not a secure module release artifact"

def validateAbsoluteDirectory (fs : FileSystem) (path : Path) (label : String)
    (mustExist : Bool) : Except String Unit := do
  reject (¬ path.isAbsolute) (label ++ " must be an absolute path")
  reject (.curDir ∈ path ∨ .parentDir ∈ path)
    (label ++ " must not contain relative path components")
  reject (∀ component ∈ path, component = .rootDir) (label ++ " must not be the filesystem root")
  reject (mustExist ∧ ¬ fs.metadata path matches some .directory)
    (label ++ " \x60" ++ path.display.toMessage ++ "\x60 is not a directory")

def validateLocalPackagePath (fs : FileSystem) (path : Path) : Except String Unit := do
  reject (¬ path.isAbsolute) "local module package file must be an absolute path"
  reject (.curDir ∈ path ∨ .parentDir ∈ path)
    "local module package file must not contain relative path components"
  reject (path.extension ≠ some "lgx".toList)
    "local module package file must use the .lgx extension"
  let node ← required (fs path)
    ("failed to inspect local module package \x60" ++ path.display.toMessage ++ "\x60")
  reject (node.file? = none) "local module package file must be a regular file"

/-- What both flows check of the file that `lgpd` should have written: that it is there, is a
regular file, and has the size of the release. -/
def requirePackageFile (node : Option Node) (filePath : Path) (size : ℕ) :
    Except String (List UInt8) := do
  let node ← required node
    ("lgpd did not create expected package \x60" ++ filePath.display.toMessage ++ "\x60")
  let bytes ← required node.file?
    ("lgpd package output \x60" ++ filePath.display.toMessage ++ "\x60 is not a regular file")
  reject (bytes.length ≠ size)
    s!"downloaded package size {bytes.length} does not match catalog size {size}"
  return bytes

/-- The digest of a file is the one of the release, upper and lower case apart. -/
def HasDigest (ext : PackageExternals) (release : LocalNodePackageRelease)
    (bytes : List UInt8) : Prop :=
  Text.toAsciiLowercase (Text.hexEncode (ext.sha256 bytes)) = Text.toAsciiLowercase release.sha256

instance (ext : PackageExternals) (release : LocalNodePackageRelease) (bytes : List UInt8) :
    Decidable (HasDigest ext release bytes) := by unfold HasDigest; infer_instance

def validateDownloadedModuleFile (ext : PackageExternals) (fs : FileSystem) (filePath : Path)
    (release : LocalNodePackageRelease) : Except String Unit := do
  let bytes ← requirePackageFile (fs filePath) filePath release.size
  reject (¬ HasDigest ext release bytes) "downloaded package checksum does not match the catalog"

def validateDownloadedPackage (fs : FileSystem) (package : DownloadedLocalNodePackage) :
    Except String Unit := do
  reject (package.name ≠ indexerPackageName)
    "only lez_indexer_module may be installed through this package flow"
  validateVersion package.version
  validateHash package.rootHash "package root hash"
  reject (package.size = 0) "package size must be positive"
  let bytes ← required
    (if package.filePath.isAbsolute then (fs.metadata package.filePath).bind Node.file? else none)
    "downloaded package path must be an absolute regular file"
  reject (package.filePath.fileName ≠ some (packageFilename package.version))
    "downloaded package filename does not match package version"
  reject (bytes.length ≠ package.size) "downloaded package size changed before installation"

/-! ### The two flows -/

section Flows

variable (ext : PackageExternals) (toolchain : PackageToolchain)
  (release : LocalNodePackageRelease) (outputDir modulesDir : Path)
  (authority : PackageInstallAuthority) (ready : FileSystem → Except String Unit)
  (staging : Except String Path) (fs : FileSystem)

def downloadArguments (packageName : Text) : List Text :=
  ["--version".toList, release.version, "--root-hash".toList, release.rootHash,
    "--output".toList, outputDir.display, "download".toList, packageName]

/-- The run of `lgpd`, which may leave any files. -/
def runDownload (packageName : Text) : Except String FileSystem := do
  let lgpd ← required toolchain.lgpd "lgpd is required to query or download Logos packages"
  lgpd (downloadArguments release outputDir packageName) fs

def downloadOfficialIndexerModuleWith :
    Except String (DownloadedLocalNodePackage × FileSystem) := do
  validateRelease ext release
  validateAbsoluteDirectory fs outputDir "package download directory" true
  let written ← runDownload toolchain release outputDir fs indexerPackageName
  let filePath := outputDir.join (packageFilename release.version)
  -- Links are followed, and nothing but the size is compared.
  let _ ← requirePackageFile (written.metadata filePath) filePath release.size
  return ({ name := indexerPackageName, version := release.version, rootHash := release.rootHash,
            size := release.size, filePath := filePath }, written)

def downloadModulePackageWith (package : LocalModulePackageCatalogEntry) :
    Except String (Path × FileSystem) := do
  validateModuleCatalogEntry ext package
  validateModuleRelease ext package.name release
  validateAbsoluteDirectory fs outputDir "package download directory" true
  let written ← runDownload toolchain release outputDir fs package.name
  let filePath := outputDir.join (modulePackageFilename package.name release.version)
  validateDownloadedModuleFile ext written filePath release
  return (filePath, written)

/-- The file that `lgpm` is given: the package itself, or for a service account a copy in a
fresh directory, `staging`. -/
def preparePackageInstall (packagePath : Path) : Except String (Path × FileSystem) := do
  validateLocalPackagePath fs packagePath
  match authority.systemServiceUserName with
  | none => return (packagePath, fs)
  | some _ =>
    let stagedPath := (← staging).join "module-package.lgx".toList
    let bytes ← required ((fs.metadata packagePath).bind Node.file?)
      ("failed to stage module package \x60" ++ packagePath.display.toMessage ++
        "\x60 for local service installation")
    let staged : FileSystem := Function.update fs stagedPath (some (.file bytes))
    validateLocalPackagePath staged stagedPath
    return (stagedPath, staged)

def lgpmCommand : Except String (List Text) := do
  let lgpm ← required toolchain.lgpm "lgpm is required to install Logos packages"
  match authority.systemServiceUserName with
  | none => return [lgpm.display]
  | some user => return ["sudo".toList, "-n".toList, "-H".toList, "-u".toList, user, "--".toList,
      lgpm.display]

/-- The start of `lgpm`. If the service account has to be confirmed, the same package is given to
it once more, through `pkexec`. -/
def installCommandAs (packagePath : Path) : Except String InstallCommand := do
  let command ← lgpmCommand toolchain authority
  return { arguments := command ++ ["--modules-dir".toList, modulesDir.display, "install".toList,
             "--file".toList, packagePath.display],
           packagePath := packagePath, fileSystem := fs }

def installModuleFileWith (packagePath : Path) : Except String InstallCommand := do
  validateAbsoluteDirectory fs modulesDir "Logos modules directory" false
  let (preparedPath, prepared) ← preparePackageInstall authority staging fs packagePath
  installCommandAs toolchain modulesDir authority prepared preparedPath

def installOfficialIndexerModuleWith (package : DownloadedLocalNodePackage) :
    Except String InstallCommand := do
  validateDownloadedPackage fs package
  installModuleFileWith toolchain modulesDir authority staging fs package.filePath

/-- The two package flows. -/
inductive Flow
  | officialIndexer
  | coreModule (package : LocalModulePackageCatalogEntry)

/-- **A flow, up to the start of `lgpm`**; `ready` is what is asked between the two steps. -/
def handOver : Flow → Except String InstallCommand
  | .officialIndexer => do
    let (package, written) ← downloadOfficialIndexerModuleWith ext toolchain release outputDir fs
    ready written
    installOfficialIndexerModuleWith toolchain modulesDir authority staging written package
  | .coreModule package => do
    let (path, written) ← downloadModulePackageWith ext toolchain release outputDir fs package
    ready written
    installModuleFileWith toolchain modulesDir authority staging written path

end Flows

/-! ### What is handed over -/

section Handed

variable {ext : PackageExternals} {toolchain : PackageToolchain}
  {release : LocalNodePackageRelease} {outputDir modulesDir : Path}
  {authority : PackageInstallAuthority} {ready : FileSystem → Except String Unit}
  {staging : Except String Path} {fs written : FileSystem} {path : Path}
  {command : InstallCommand}

/-- The bytes that `lgpm` finds in the package it is started on. -/
def InstallCommand.packageBytes (command : InstallCommand) : Option (List UInt8) :=
  (command.fileSystem.metadata command.packagePath).bind Node.file?

/-- **The package has the size and the SHA-256 of the release.** -/
def InstallCommand.IsOf (ext : PackageExternals) (release : LocalNodePackageRelease)
    (command : InstallCommand) : Prop :=
  ∃ bytes, command.packageBytes = some bytes ∧ bytes.length = release.size ∧
    HasDigest ext release bytes

/-- `lgpd` leaves a file with the SHA-256 of the release where the package is expected. -/
def WritesDigest (ext : PackageExternals) (toolchain : PackageToolchain)
    (release : LocalNodePackageRelease) (outputDir : Path) (fs : FileSystem)
    (packageName : Text) : Prop :=
  ∃ written bytes, runDownload toolchain release outputDir fs packageName = .ok written ∧
    written (outputDir.join (modulePackageFilename packageName release.version)) =
      some (.file bytes) ∧
    HasDigest ext release bytes

theorem Node.file?_eq_some {node : Node} :
    node.file? = some bytes ↔ node = .file bytes := by
  cases node <;> simp [Node.file?]

theorem requirePackageFile_eq_ok {node : Option Node} {size : ℕ} :
    requirePackageFile node path size = .ok bytes ↔
      node = some (.file bytes) ∧ bytes.length = size := by
  simp only [requirePackageFile, bind_eq_ok, required_eq_ok, exists_unit, reject_eq_ok, not_not,
    pure_eq_ok, Node.file?_eq_some]
  constructor
  · rintro ⟨_, hnode, _, rfl, hsize, rfl⟩
    exact ⟨hnode, hsize⟩
  · rintro ⟨hnode, hsize⟩
    exact ⟨_, hnode, bytes, rfl, hsize, rfl⟩

theorem file_of_validateLocalPackagePath (h : validateLocalPackagePath fs path = .ok ()) :
    ∃ bytes, fs path = some (.file bytes) := by
  simp only [validateLocalPackagePath, bind_eq_ok, required_eq_ok, exists_unit, reject_eq_ok] at h
  obtain ⟨-, -, -, _, hnode, hfile⟩ := h
  obtain ⟨bytes, hbytes⟩ := Option.ne_none_iff_exists'.1 hfile
  exact ⟨bytes, hnode.trans (congrArg some (Node.file?_eq_some.1 hbytes))⟩

/-- The package stands in a regular file, and what `lgpm` finds are its bytes: they are given to
it as they are, or copied. -/
theorem packageBytes_of_install
    (h : installModuleFileWith toolchain modulesDir authority staging fs path = .ok command) :
    ∃ bytes, fs path = some (.file bytes) ∧ command.packageBytes = some bytes := by
  obtain ⟨⟨⟩, -, h⟩ := bind_eq_ok.1 h
  obtain ⟨⟨_, _⟩, hpre, h⟩ := bind_eq_ok.1 h
  obtain ⟨_, -, h⟩ := bind_eq_ok.1 h
  obtain rfl := pure_eq_ok.1 h
  obtain ⟨⟨⟩, hpath, hpre⟩ := bind_eq_ok.1 hpre
  obtain ⟨bytes, hbytes⟩ := file_of_validateLocalPackagePath hpath
  have hmet := FileSystem.metadata_of_file hbytes
  refine ⟨bytes, hbytes, ?_⟩
  split at hpre
  · obtain ⟨rfl, rfl⟩ := Prod.mk.inj (pure_eq_ok.1 hpre)
    simp [InstallCommand.packageBytes, hmet, Node.file?]
  · simp only [bind_eq_ok, required_eq_ok, exists_unit, pure_eq_ok, hmet, Option.bind_some,
      Node.file?, Option.some.injEq] at hpre
    obtain ⟨directory, -, _, rfl, -, hpre⟩ := hpre
    obtain ⟨rfl, rfl⟩ := Prod.mk.inj hpre
    -- The staged file is looked at where the copy has just been written.
    have hs := FileSystem.metadata_of_file
      (Function.update_self (directory.join "module-package.lgx".toList) (some (.file bytes)) fs)
    rw [InstallCommand.packageBytes, hs]
    rfl

/-- What the official flow hands over is the file that `lgpd` has left, of the right size. -/
theorem handOver_officialIndexer
    (h : handOver ext toolchain release outputDir modulesDir authority ready staging fs
      .officialIndexer = .ok command) :
    ∃ written bytes, runDownload toolchain release outputDir fs indexerPackageName = .ok written ∧
      written (outputDir.join (packageFilename release.version)) = some (.file bytes) ∧
      bytes.length = release.size ∧ command.packageBytes = some bytes := by
  obtain ⟨⟨_, _⟩, hd, h⟩ := bind_eq_ok.1 h
  obtain ⟨⟨⟩, -, h⟩ := bind_eq_ok.1 h
  obtain ⟨⟨⟩, -, hi⟩ := bind_eq_ok.1 h
  simp only [downloadOfficialIndexerModuleWith, bind_eq_ok, exists_unit, pure_eq_ok,
    requirePackageFile_eq_ok] at hd
  obtain ⟨-, -, _, hrun, checked, ⟨hfile, hsize⟩, hp⟩ := hd
  obtain ⟨rfl, rfl⟩ := Prod.mk.inj hp
  obtain ⟨_, hbytes, hh⟩ := packageBytes_of_install hi
  -- The size was checked through the links, of which there are none.
  rw [FileSystem.metadata_of_file hbytes] at hfile
  cases hfile
  exact ⟨_, checked, hrun, hbytes, hsize, hh⟩

/-- What the flow of the other modules hands over has been compared with the catalog. -/
theorem handOver_coreModule {package : LocalModulePackageCatalogEntry}
    (h : handOver ext toolchain release outputDir modulesDir authority ready staging fs
      (.coreModule package) = .ok command) : command.IsOf ext release := by
  obtain ⟨⟨_, _⟩, hd, h⟩ := bind_eq_ok.1 h
  obtain ⟨⟨⟩, -, hi⟩ := bind_eq_ok.1 h
  simp only [downloadModulePackageWith, validateDownloadedModuleFile, bind_eq_ok, exists_unit,
    pure_eq_ok, reject_eq_ok, not_not, requirePackageFile_eq_ok] at hd
  obtain ⟨-, -, -, _, -, ⟨_, ⟨hfile, hsize⟩, hdig⟩, hp⟩ := hd
  obtain ⟨rfl, rfl⟩ := Prod.mk.inj hp
  obtain ⟨_, hbytes, hh⟩ := packageBytes_of_install hi
  cases hfile.symm.trans hbytes
  exact ⟨_, hh, hsize, hdig⟩

/-- **When what is installed is what the catalog lists.** A package that is handed to `lgpm` has
the size and the SHA-256 of the selected release, if and only if it is not the official Indexer
module or `lgpd` itself has left a file with that SHA-256. -/
theorem handed_over_isOf_iff {flow : Flow}
    (h : handOver ext toolchain release outputDir modulesDir authority ready staging fs flow =
      .ok command) :
    command.IsOf ext release ↔ flow ≠ .officialIndexer ∨
        WritesDigest ext toolchain release outputDir fs indexerPackageName := by
  cases flow with
  | coreModule => simpa using handOver_coreModule h
  | officialIndexer =>
    obtain ⟨written, _, hrun, hbytes, hsize, hhanded⟩ := handOver_officialIndexer h
    constructor
    · rintro ⟨_, hsome, -, hdigest⟩
      cases hhanded.symm.trans hsome
      exact .inr ⟨written, _, hrun, hbytes, hdigest⟩
    · rintro (hother | ⟨_, _, hrun', hleft, hdigest⟩)
      · exact absurd rfl hother
      · cases hrun.symm.trans hrun'
        cases hbytes.symm.trans hleft
        exact ⟨_, hhanded, hsize, hdigest⟩

end Handed

/-! ### A package of the right size -/

namespace Sample

/-- A release with one byte, under a given SHA-256. -/
def release (sha256 : Text) : LocalNodePackageRelease where
  version := "1".toList
  rootHash := List.replicate 64 '0'
  sha256 := sha256
  size := 1
  url := ("https://github.com" ++ "/logos-co/logos-modules-release/releases/download/1/" ++
    "lez_indexer_module-1.lgx").toList

def downloads : Path := [.rootDir, .normal "downloads".toList]

def modules : Path := [.rootDir, .normal "modules".toList]

def packagePath : Path := downloads.join "lez_indexer_module-1.lgx".toList

/-- A disk with nothing but the directory for the download. -/
def disk : FileSystem := fun path => if path = downloads then some .directory else none

def written (byte : UInt8) : FileSystem := Function.update disk packagePath (some (.file [byte]))

/-- A tool that writes one byte where the package is expected. -/
def toolchain (byte : UInt8) : PackageToolchain where
  lgpd := some fun _ fs => .ok (Function.update fs packagePath (some (.file [byte])))
  lgpm := some [.rootDir, .normal "lgpm".toList]

/-- The library that finds the parts of the one URL. -/
def externals (sha256 : List UInt8 → List UInt8) : PackageExternals where
  parseUrl _ := some
    { scheme := "https".toList, username := [], password := none,
      host := some "github.com".toList,
      path := ("/logos-co/logos-modules-release/releases/download/1/" ++
        "lez_indexer_module-1.lgx").toList,
      query := none, fragment := none }
  sha256 := sha256

def command (byte : UInt8) : InstallCommand where
  arguments := ["/lgpm", "--modules-dir", "/modules", "install", "--file",
    "/downloads/lez_indexer_module-1.lgx"].map String.toList
  packagePath := packagePath
  fileSystem := written byte

/-- The official flow hands the byte over, whatever its digest is. -/
theorem handOver_release (digest : List UInt8 → List UInt8) :
    ∀ c ∈ ['0', '1'], handOver (externals digest) (toolchain 1) (release (List.replicate 64 c))
      downloads modules .currentUser (fun _ => .ok ()) (.error "") disk .officialIndexer =
        .ok (command 1) := by
  simp only [List.mem_cons, List.not_mem_nil, or_false, forall_eq_or_imp, forall_eq]
  exact ⟨rfl, rfl⟩

/-- A package of the official Indexer module, handed over with the SHA-256 of its release. -/
theorem handed_over_isOf_iff_sample :
    (command 1).IsOf (externals fun _ => List.replicate 32 0) (release (List.replicate 64 '0')) ↔
      Flow.officialIndexer ≠ .officialIndexer ∨
        WritesDigest (externals fun _ => List.replicate 32 0) (toolchain 1)
          (release (List.replicate 64 '0')) downloads disk indexerPackageName :=
  handed_over_isOf_iff (handOver_release (fun _ => List.replicate 32 0) '0' (by decide))

/-- **A package that is not the catalog's is installed.** Its digest, here that of a function which
gives 32 zero bytes, is not the SHA-256 of the release; the official flow hands it over. -/
theorem handed_over_unchecked :
    handOver (externals fun _ => List.replicate 32 0) (toolchain 1)
      (release (List.replicate 64 '1'))
        downloads modules .currentUser (fun _ => .ok ()) (.error "") disk .officialIndexer =
      .ok (command 1) ∧
    ¬ (command 1).IsOf (externals fun _ => List.replicate 32 0)
      (release (List.replicate 64 '1')) := by
  refine ⟨handOver_release _ '1' (by decide), ?_⟩
  rintro ⟨_, -, -, hdigest⟩
  have hsame : Text.toAsciiLowercase (Text.hexEncode (List.replicate 32 0)) =
      Text.toAsciiLowercase (List.replicate 64 '1') := hdigest
  exact absurd hsame (by decide)

end Sample

end LogosInspector.LocalNodes
