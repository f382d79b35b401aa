import VaultAccess.Library.IpAddr
import VaultAccess.Library.Search
import VaultAccess.Model.Records
import Mathlib.Data.Prod.Lex

/-!
# Operation policies

`src/access/policy.rs` and the destination checks of `src/secret_storage.rs`: what an
operation draft may say, its canonical form, the revision digest that binds it,
and the image it resolves. The disk is an argument of every check that reads an
image, since it may differ from one call to the next.
-/

set_option autoImplicit false

namespace VaultAccess.Model

open VaultAccess.Library VaultAccess.Library.Text

def MAX_DESCRIPTION_LEN : ℕ := 256
def MAX_TARGETS : ℕ := 64
def MAX_ARGUMENTS : ℕ := 32
def MAX_CHOICES : ℕ := 64
def MAX_CREDENTIALS : ℕ := 16
def MAX_FIELD_MAPPINGS : ℕ := 8
def MAX_TARGET_LEN : ℕ := 256
def MAX_VALUE_LEN : ℕ := 256
def MAX_PRELIMINARY_IMAGE_BYTES : ℕ := 64 * 1024 * 1024

/-! ## Storage destinations -/

/-- SRCLINE: secret_storage.rs:84-91 -/
def validFieldName (value : String) : Bool :=
  !value.isEmpty && decide (value.utf8ByteSize ≤ 128) &&
    value.toList.all fun c => isAsciiAlphanumeric c || c = '-' || c = '_' || c = '.'

/-- One part of a canonical path. -/
def canonicalSegment (s : List Char) : Bool :=
  !s.isEmpty && decide ((String.ofList s).utf8ByteSize ≤ 64) &&
    s.all (fun c => isAsciiLowercase c || isAsciiDigit c || c = '-') &&
    s.head?.any isAsciiAlphanumeric && s.getLast?.any isAsciiAlphanumeric

/-- SRCLINE: secret_storage.rs:92-104 -/
def canonicalPath (value : String) : Bool :=
  !value.isEmpty && decide (value.utf8ByteSize ≤ 256) &&
    (split '/' value.toList).all canonicalSegment

/-- The characters of a lowercase UUID from position `index` on. -/
def uuidFrom : ℕ → List Char → Bool
  | _, [] => true
  | index, c :: rest =>
    (if index = 8 ∨ index = 13 ∨ index = 18 ∨ index = 23 then decide (c = '-') else isLowerHex c) &&
      uuidFrom (index + 1) rest

/-- Thirty-six bytes, hyphens at the fixed places and lowercase hexadecimal digits elsewhere. -/
def uuidShape (value : String) : Bool := value.utf8ByteSize = 36 && uuidFrom 0 value.toList

/-- SRCLINE: secret_storage.rs:105-115 -/
def validId (value : String) : Bool := uuidShape value

/-- SRCLINE: policy.rs:924-930 -/
def validItemId (value : String) : Bool := uuidShape value

/-- SRCLINE: secret_storage.rs:129-145 -/
def Destination.itemName (d : Destination) : Option String :=
  if validId d.accountId && validId d.folderId && canonicalPath d.folder &&
      canonicalPath d.reference then
    match d.reference.toList.dropPrefix? d.folder.toList with
    | some rest => match rest with
      | '/' :: name => if name.isEmpty then none else some (String.ofList name)
      | _ => none
    | none => none
  else none

/-- `str::starts_with`. -/
def startsWith (value pat : String) : Bool := pat.toList.isPrefixOf value.toList

def customMarker : String := "custom:"

/-- One selector of a creation effect. -/
def validCreateField (f : String) : Bool :=
  f = "password" || f = "notes" ||
    match f.toList.dropPrefix? customMarker.toList with
    | some n => validFieldName (String.ofList n) && String.ofList n ≠ "vw-access"
    | none => false

/-- SRCLINE: policy.rs:64-91 -/
def CreateEffect.valid (c : CreateEffect) : Bool :=
  c.destination.itemName.isSome && startsWith c.server "https://" &&
    decide (c.server.utf8ByteSize ≤ 512) && !c.server.toList.any isControl &&
    validOperationId c.eligibilityMarker && !c.fields.isEmpty && decide (c.fields.length ≤ 34) &&
    decide ((c.fields.filter fun f => startsWith f customMarker).length ≤ 32) &&
    c.fields.any (fun f => f = "password" || startsWith f customMarker) &&
    c.fields.all validCreateField && !hasDuplicates c.fields

/-! ## Images -/

/-- `std::path::Component` of a Unix path. -/
inductive Component where
  | rootDir
  | curDir
  | parentDir
  | normal (part : String)
  deriving DecidableEq, Repr

/-- `Path::components`: repeated separators and inner `.` parts are dropped. -/
def components (path : String) : List Component :=
  let parts := split '/' path.toList
  let root := if path.toList.head? = some '/' then [Component.rootDir] else []
  let leading := if parts.head? = some ['.'] then [Component.curDir] else []
  root ++ leading ++ parts.filterMap fun part =>
    if part = [] ∨ part = ['.'] then none
    else if part = ['.', '.'] then some .parentDir
    else some (.normal (String.ofList part))

/-- SRCLINE: policy.rs:760-774 -/
def validImagePath (value : String) : Bool :=
  decide (value.toList.head? = some '/') && decide (value.utf8ByteSize ≤ MAX_VALUE_LEN) &&
    decide (value.toList.getLast? ≠ some '/') &&
    ((split '/' value.toList).drop 1).all (fun part => part ≠ [] && part ≠ ['.'] && part ≠ ['.', '.']) &&
    (components value).all fun
      | .rootDir | .normal _ => true
      | .curDir | .parentDir => false

/-- What `symlink_metadata` and `open` find at a path. -/
inductive Entry where
  | symlink
  | directory
  | file (mode : ℕ) (content : List UInt8)
  | other

/-- A snapshot of the file system, by component list. -/
structure Disk where
  entry : List String → Option Entry

/-- Every component before the last is a directory that is not a link.
SRCLINE: policy.rs:844-869 -/
def nonsymlinkRegular (disk : Disk) (done : List String) : List Component → Option Entry
  | [] => none
  | .rootDir :: rest => nonsymlinkRegular disk done rest
  | .normal part :: rest =>
    match disk.entry (done ++ [part]) with
    | none => none
    | some .symlink => none
    | some entry =>
      if rest.isEmpty then some entry
      else match entry with
        | .directory => nonsymlinkRegular disk (done ++ [part]) rest
        | _ => none
  | _ => none

/-- The ELF magic number, class, byte order and version.
SRCLINE: policy.rs:777-792 -/
def preliminaryHeader : List UInt8 → Bool
  | m0 :: m1 :: m2 :: m3 :: cls :: order :: version :: _ =>
    m0 = 0x7f && m1 = 0x45 && m2 = 0x4c && m3 = 0x46 && (cls = 1 || cls = 2) &&
      (order = 1 || order = 2) && version = 1
  | _ => false

/-- A regular executable file of at most 64 MiB with an ELF header and the given digest.
SRCLINE: policy.rs:787-842 -/
def executableIdentityMatches (E : Externals) (disk : Disk) (path expected : String) : Bool :=
  match nonsymlinkRegular disk [] (components path) with
  | some (.file mode content) =>
    mode &&& 0o111 ≠ 0 && decide (content.length ≤ MAX_PRELIMINARY_IMAGE_BYTES) &&
      decide (16 ≤ content.length) && preliminaryHeader (content.take 16) &&
      hexSha256 E content = expected
  | _ => false

/-- `strip_prefix` leaves something. -/
def strictlyUnder (path root : String) : Bool :=
  (components root).isPrefixOf (components path) &&
    decide ((components root).length < (components path).length)

/-- The checks of `ApprovedImage::new`.
SRCLINE: policy.rs:174-201 -/
def ApprovedImage.validateIntegrity (E : Externals) (disk : Disk) (image : ApprovedImage) : Bool :=
  validOperationId image.id && validImagePath image.executionRoot && validImagePath image.path &&
    strictlyUnder image.path image.executionRoot && validSha256 image.sha256 &&
    executableIdentityMatches E disk image.path image.sha256

/-- SRCLINE: policy.rs:139-151 -/
def ApprovedImage.fromRegistration (E : Externals) (disk : Disk) (input : ApprovedImage) :
    Option ApprovedImage :=
  if input.validateIntegrity E disk then some input else none

/-! ## SSH destinations -/

/-- Decimal digits, or `0x` and hexadecimal digits. -/
def numericPart (part : List Char) : Bool :=
  part.all isAsciiDigit ||
    match part with
    | '0' :: x :: rest => (x = 'x' || x = 'X') && !rest.isEmpty && rest.all isAsciiHexdigit
    | _ => false

/-- One label of a host name. -/
def hostLabel (label : List Char) : Bool :=
  !label.isEmpty && decide ((String.ofList label).utf8ByteSize ≤ 63) &&
    label.head?.any isAsciiAlphanumeric && label.getLast?.any isAsciiAlphanumeric &&
    label.all fun c => isAsciiAlphanumeric c || c = '-'

/-- The host without one trailing dot. -/
def stripDot (host : List Char) : List Char :=
  if host.getLast? = some '.' then host.dropLast else host

/-- Not empty, at most 253 bytes, not numeric throughout, and made of labels. -/
def hostName (host : List Char) : Bool :=
  !host.isEmpty && decide ((String.ofList host).utf8ByteSize ≤ 253) &&
    !(split '.' host).all numericPart && (split '.' host).all hostLabel

/-- SRCLINE: policy.rs:291-322 -/
def normalizeHost (value : String) : Option String :=
  match IpAddr.parse value.toList with
  | some ip => some (String.ofList ip.display)
  | none =>
    let host := stripDot value.toList
    if hostName host then some (String.ofList (host.map toAsciiLowercase)) else none

def fingerprintMarker : String := "SHA256:"

/-- SRCLINE: policy.rs:323-330 -/
def normalizeFingerprint (value : String) : Option String := do
  let encoded ← value.toList.dropPrefix? fingerprintMarker.toList
  let bytes ← (Base64.decode Base64.standard encoded).or
    (Base64.decodePadded Base64.standard encoded)
  if bytes.length = 32 then
    some (fingerprintMarker ++ String.ofList (Base64.encode Base64.standard bytes))
  else none

/-- SRCLINE: policy.rs:331-336 -/
def validSshPath (value : String) : Bool :=
  (value = "/" || validImagePath value) &&
    value.toList.all fun c => isAsciiAlphanumeric c || c = '/' || c = '.' || c = '_' || c = '-'

/-- SRCLINE: policy.rs:337-350 -/
def validSshReview (workingDirectory : String) (destination : SshDestination) : Bool :=
  validSshPath workingDirectory && validSshPath destination.resourcePath &&
    (normalizeHost destination.host).isSome && destination.port ≠ 0 &&
    !destination.user.isEmpty && decide (destination.user.utf8ByteSize ≤ 64) &&
    destination.user.toList.head?.any isAsciiAlphanumeric &&
    destination.user.toList.all
      (fun c => isAsciiAlphanumeric c || c = '_' || c = '.' || c = '-') &&
    (normalizeFingerprint destination.hostFingerprint).isSome

/-- SRCLINE: policy.rs:283-290 -/
def SshOperation.review (s : SshOperation) : SshReview := ⟨s.workingDirectory, s.destination⟩

/-- SRCLINE: policy.rs:352-360 -/
def SshReview.target (s : SshReview) : String :=
  let d := s.destination
  let host := if d.host.toList.contains ':' then "[" ++ d.host ++ "]" else d.host
  d.user ++ "@" ++ host ++ ":" ++ toString d.port.toNat ++ d.resourcePath

/-- SRCLINE: policy.rs:361-366 -/
def SshReview.valid (s : SshReview) : Bool :=
  validSshReview s.workingDirectory s.destination &&
    normalizeHost s.destination.host = some s.destination.host &&
    normalizeFingerprint s.destination.hostFingerprint = some s.destination.hostFingerprint

/-! ## Drafts -/

/-- SRCLINE: policy.rs:978-983 -/
def validDisplayText (value : String) (maximum : ℕ) : Bool :=
  !value.isEmpty && decide (value.utf8ByteSize ≤ maximum) &&
    !value.toList.contains '\x00' && !value.toList.any isControl

/-- SRCLINE: policy.rs:984-986 -/
def validValue (value : String) (maximum : ℕ) : Bool :=
  !value.isEmpty && decide (value.utf8ByteSize ≤ maximum) && value.toList.all isAsciiGraphic

/-- SRCLINE: policy.rs:931-938 -/
def validLoginField : LoginField → Bool
  | .username | .password | .notes => true
  | .custom name => validDisplayText name MAX_VALUE_LEN && name ≠ "vw-access"

/-- The names a mapping may not use. -/
def reservedEnvironments : List String :=
  ["PATH", "LANG", "LC_ALL", "IFS", "ENV", "BASH_ENV", "SHELLOPTS", "GLIBC_TUNABLES", "GCONV_PATH",
    "LOCPATH", "LIBPATH", "SHLIB_PATH", "RUNPATH"]

/-- SRCLINE: policy.rs:939-977 -/
def validEnvironment (value : String) : Bool :=
  !value.isEmpty && decide (value.utf8ByteSize ≤ 64) &&
    (match value.toList with
      | [] => true
      | c :: rest => (c = '_' || isAsciiUppercase c) &&
        rest.all fun c => c = '_' || isAsciiUppercase c || isAsciiDigit c) &&
    !startsWith value "LD_" && !startsWith value "DYLD_" && !startsWith value "VAULTWARDEN_" &&
    !startsWith value "BITWARDEN_" && !reservedEnvironments.contains value

/-- The derived order of `LoginField`: the constructor, then the name. -/
def LoginField.key : LoginField → ℕ ×ₗ String
  | notes => toLex (0, "")
  | username => toLex (1, "")
  | password => toLex (2, "")
  | custom name => toLex (3, name)

def LoginFieldMapping.key (m : LoginFieldMapping) : (ℕ ×ₗ String) ×ₗ String :=
  toLex (m.field.key, m.environment)

/-- SRCLINE: policy.rs:992-999 -/
def uniqueFields (values : List LoginFieldMapping) : Bool :=
  !hasDuplicates (values.map fun value => value.field.key)

/-- SRCLINE: policy.rs:1000-1007 -/
def uniqueEnvironments (values : List LoginFieldMapping) : Bool :=
  !hasDuplicates (values.map (·.environment))

/-- SRCLINE: policy.rs:1008-1016 -/
def uniqueCredentialEnvironments (values : List LoginCredentialDraft) : Bool :=
  !hasDuplicates ((values.flatMap (·.fieldMappings)).map (·.environment))

/-- One argument of a draft. -/
def validArgument : ArgumentSpec → Bool
  | .target => true
  | .choice choices =>
    !choices.isEmpty && decide (choices.length ≤ MAX_CHOICES) &&
      choices.all (validValue · MAX_VALUE_LEN) && !hasDuplicates choices
  | .integer minimum maximum => decide (minimum ≤ maximum)

def ArgumentSpec.isTarget : ArgumentSpec → Bool
  | target => true
  | choice _ => false
  | integer _ _ => false

/-- SRCLINE: policy.rs:873-892 -/
def validArguments (arguments : List ArgumentSpec) : Bool :=
  (arguments.filter ArgumentSpec.isTarget).length = 1 && arguments.all validArgument

/-- One credential of a draft. -/
def validCredential (c : LoginCredentialDraft) : Bool :=
  c.useType = .login && validItemId c.itemId && validDisplayText c.label MAX_DESCRIPTION_LEN &&
    !c.fieldMappings.isEmpty && decide (c.fieldMappings.length ≤ MAX_FIELD_MAPPINGS) &&
    c.fieldMappings.all (fun m => validLoginField m.field && validEnvironment m.environment) &&
    uniqueFields c.fieldMappings && uniqueEnvironments c.fieldMappings

/-- SRCLINE: policy.rs:894-923 -/
def validCredentials (credentials : List LoginCredentialDraft) : Bool :=
  credentials.all (fun c => c.namespace.all fun d => d.itemName.isSome) &&
    !hasDuplicates (credentials.map (·.itemId)) && uniqueCredentialEnvironments credentials &&
    credentials.all validCredential

/-- What every kind of draft must satisfy. -/
def validHeading (draft : OperationPolicyDraft) : Bool :=
  validOperationId draft.id && validDisplayText draft.description MAX_DESCRIPTION_LEN &&
    validOperationId draft.imageId

/-- SRCLINE: policy.rs:704-758 -/
def validateDraft (draft : OperationPolicyDraft) : Bool :=
  match draft.create, draft.ssh with
  | some create, ssh =>
    validHeading draft && ssh.isNone && draft.credentials.isEmpty && draft.targets.isEmpty &&
      draft.arguments.isEmpty && create.valid
  | none, some ssh =>
    validHeading draft && draft.targets.isEmpty && draft.arguments.isEmpty &&
      draft.credentials.isEmpty && validItemId ssh.credential.itemId &&
      validDisplayText ssh.credential.label MAX_DESCRIPTION_LEN && ssh.credential.useType = .ssh &&
      validSshReview ssh.workingDirectory ssh.destination
  | none, none =>
    validHeading draft && !draft.targets.isEmpty && decide (draft.targets.length ≤ MAX_TARGETS) &&
      draft.targets.all (validValue · MAX_TARGET_LEN) && !hasDuplicates draft.targets &&
      decide (draft.arguments.length ≤ MAX_ARGUMENTS) && validArguments draft.arguments &&
      !draft.credentials.isEmpty && decide (draft.credentials.length ≤ MAX_CREDENTIALS) &&
      validCredentials draft.credentials

/-- `sort_unstable` of texts; equal texts are the same text. -/
def sortTexts (values : List String) : List String := sortByKey id values

def ArgumentSpec.canonicalize : ArgumentSpec → ArgumentSpec
  | choice choices => choice (sortTexts choices)
  | target => target
  | integer minimum maximum => integer minimum maximum

def LoginCredentialDraft.canonicalize (c : LoginCredentialDraft) : LoginCredentialDraft :=
  { c with fieldMappings := sortByKey LoginFieldMapping.key c.fieldMappings }

/-- The source unwraps both normal forms: only a validated draft is canonicalized. -/
def SshOperation.canonicalize (s : SshOperation) : SshOperation :=
  { s with destination :=
    { s.destination with
      host := (normalizeHost s.destination.host).getD s.destination.host
      hostFingerprint := (normalizeFingerprint s.destination.hostFingerprint).getD
        s.destination.hostFingerprint } }

/-- SRCLINE: policy.rs:1000-1020 -/
def canonicalizeDraft (draft : OperationPolicyDraft) : OperationPolicyDraft :=
  { draft with
    ssh := draft.ssh.map SshOperation.canonicalize
    targets := sortTexts draft.targets
    arguments := draft.arguments.map ArgumentSpec.canonicalize
    credentials := (sortByKey (·.itemId) draft.credentials).map LoginCredentialDraft.canonicalize }

/-! ## Revisions -/

/-- SRCLINE: policy.rs:1034-1096 -/
def baseRevisionFor (E : Externals) (draft : OperationPolicyDraft) (image : ResolvedImage) :
    String :=
  if draft.create.isSome || draft.credentials.any (·.namespace.isSome) then
    hexSha256 E (Json.arr [Json.nat 4, draft.toJson, image.toJson]).toVec
  else match draft.ssh with
    | some ssh =>
      hexSha256 E (Json.obj [("version", Json.nat 3), ("id", .str draft.id),
        ("image", image.toJson), ("item_id", .str ssh.credential.itemId),
        ("use_type", ssh.credential.useType.toJson),
        ("working_directory", .str ssh.workingDirectory),
        ("destination", ssh.destination.toJson)]).toVec
    | none =>
      hexSha256 E (Json.obj [("version", Json.nat 2), ("id", .str draft.id),
        ("image", image.toJson), ("targets", Json.texts draft.targets),
        ("arguments", .arr (draft.arguments.map ArgumentSpec.toJson)),
        ("credentials", .arr (draft.credentials.map fun c =>
          .obj [("item_id", .str c.itemId), ("use_type", c.useType.toJson),
            ("field_mappings", .arr (c.fieldMappings.map LoginFieldMapping.toJson))]))]).toVec

/-- SRCLINE: policy.rs:1023-1033 -/
def revisionFor (E : Externals) (draft : OperationPolicyDraft) (image : ResolvedImage) : String :=
  let base := baseRevisionFor E draft image
  if draft.requirePassword then
    hexSha256 E (Json.arr [Json.nat 5, .str "require_password", .str base]).toVec
  else base

/-! ## Policies -/

/-- SRCLINE: policy.rs:424-459 -/
def ApprovedImage.resolved (image : ApprovedImage) : ResolvedImage :=
  ⟨image.id, image.executionRoot, image.path, image.sha256, image.profile⟩

def ResolvedImage.approved (image : ResolvedImage) : ApprovedImage :=
  ⟨image.imageId, image.executionRoot, image.path, image.sha256, image.profile⟩

/-- The policy of an already canonical draft. -/
def OperationPolicy.ofCanonical (E : Externals) (draft : OperationPolicyDraft)
    (image : ResolvedImage) : OperationPolicy where
  id := draft.id
  description := draft.description
  image := image
  targets := draft.targets
  arguments := draft.arguments
  credentials := draft.credentials
  ssh := draft.ssh
  create := draft.create
  requirePassword := draft.requirePassword
  revision := revisionFor E draft image

/-- SRCLINE: policy.rs:432-466 -/
def OperationPolicy.fromDraft (E : Externals) (disk : Disk) (draft : OperationPolicyDraft)
    (approved : ApprovedImage) : Option OperationPolicy :=
  if validateDraft draft && draft.imageId = approved.id && approved.validateIntegrity E disk then
    some (OperationPolicy.ofCanonical E (canonicalizeDraft draft) approved.resolved)
  else none

/-- The draft of a policy, as `metadata` returns it.
SRCLINE: policy.rs:416-431 -/
def OperationPolicy.draft (p : OperationPolicy) : OperationPolicyDraft where
  id := p.id
  description := p.description
  imageId := p.image.imageId
  targets := p.targets
  arguments := p.arguments
  credentials := p.credentials
  ssh := p.ssh
  create := p.create
  requirePassword := p.requirePassword

def OperationPolicy.imageId (p : OperationPolicy) : String := p.image.imageId

/-- SRCLINE: policy.rs:480-486 -/
def OperationPolicy.imageMatches (p : OperationPolicy) (image : ApprovedImage) : Bool :=
  p.image.imageId = image.id && p.image.executionRoot = image.executionRoot &&
    p.image.profile = image.profile && p.image.path = image.path && p.image.sha256 = image.sha256

/-- The policy built again from its own draft, as both the integrity check and the
reader of a stored policy do. -/
def OperationPolicy.rebuilt (E : Externals) (disk : Disk) (p : OperationPolicy) :
    Option OperationPolicy :=
  if p.image.approved.validateIntegrity E disk then
    OperationPolicy.fromDraft E disk p.draft p.image.approved
  else none

/-- SRCLINE: policy.rs:603-629 -/
def OperationPolicy.validateIntegrity (E : Externals) (disk : Disk) (p : OperationPolicy) : Bool :=
  match p.rebuilt E disk with
  | some policy => policy.revision = p.revision
  | none => false

/-- The reader of a stored policy.
SRCLINE: policy.rs:659-692 -/
def OperationPolicy.tryFrom (E : Externals) (disk : Disk) (stored : OperationPolicy) :
    Option OperationPolicy :=
  match stored.rebuilt E disk with
  | some policy => if policy.revision = stored.revision then some policy else none
  | none => none

/-- `str::parse::<i64>`: an optional sign and decimal digits, within range. -/
def parseI64 (value : String) : Option Int64 :=
  let (negative, digits) : Bool × List Char := match value.toList with
    | '-' :: rest => (true, rest)
    | '+' :: rest => (false, rest)
    | chars => (false, chars)
  if digits.isEmpty || !digits.all isAsciiDigit then none
  else
    let magnitude := digits.foldl (fun (n : ℕ) c => n * 10 + (c.toNat - '0'.toNat)) 0
    let number : Int := if negative then -magnitude else magnitude
    if -2 ^ 63 ≤ number ∧ number < 2 ^ 63 then some (Int64.ofInt number) else none

/-- One value against its argument. -/
def OperationPolicy.validatesArg (p : OperationPolicy) : ArgumentSpec → String → Bool
  | .target, value => (Search.binarySearch value p.targets).isOk
  | .choice choices, value => (Search.binarySearch value choices).isOk
  | .integer minimum maximum, value =>
    (parseI64 value).any fun number => decide (minimum ≤ number) && decide (number ≤ maximum)

/-- SRCLINE: policy.rs:515-534 -/
def OperationPolicy.validatesArgs (p : OperationPolicy) (values : List String) : Bool :=
  if p.ssh.isSome then values.isEmpty
  else values.length = p.arguments.length &&
    (p.arguments.zip values).all fun (spec, value) => p.validatesArg spec value

/-- One value in its normal form. -/
def normalizeArg : ArgumentSpec → String → Option String
  | .integer _ _, value => (parseI64 value).map fun n => toString n.toInt
  | .target, value => some value
  | .choice _, value => some value

/-- SRCLINE: policy.rs:535-553 -/
def OperationPolicy.normalizeArgs (p : OperationPolicy) (values : List String) :
    Option (List String) :=
  if values.any (fun v => decide (MAX_VALUE_LEN < v.utf8ByteSize)) || !p.validatesArgs values then
    none
  else (p.arguments.zip values).mapM fun (spec, value) => normalizeArg spec value

/-- SRCLINE: direct_request.rs:487-489 -/
def argumentsDigest (E : Externals) (values : List String) : String :=
  hexSha256 E (Json.arr [Json.nat 1, Json.texts values]).toVec

def ONE_TIME : String :=
  "Approval authorizes one protected execution. Lock or cancellation stops its descendants."
def PREVIOUS_ONE_TIME : String :=
  "Approval authorizes this request once only. Execution is not available yet."
def LEGACY_ONE_TIME : String :=
  "Approving this request would authorize one execution only; approval is unavailable at this stage."
def CREATE_EFFECT : String := "CREATE personal vault item (no update)"
def HUMAN_REQUESTER : String := "local human terminal"

/-- The value of the first target argument. -/
def targetArgument (specs : List ArgumentSpec) (arguments : List String) : String :=
  ((specs.zip arguments).findSome? fun (spec, value) =>
    if spec.isTarget then some value else none).getD "No target argument"

/-- The credentials a reviewer sees. -/
def OperationPolicy.reviewCredentials (p : OperationPolicy) : List ReviewCredential :=
  p.credentials.map (fun c => ⟨c.label, c.useType⟩) ++
    p.create.toList.map (fun c => ⟨c.destination.reference, .login⟩) ++
    p.ssh.toList.map (fun s => ⟨s.credential.label, s.credential.useType⟩)

/-- SRCLINE: policy.rs:554-602 -/
def OperationPolicy.directReview (E : Externals) (p : OperationPolicy) (id : String)
    (arguments : List String) (expiresAtUnixSeconds : ℕ) : DirectReview where
  id := id
  requester := HUMAN_REQUESTER
  operation := p.id
  effect := if p.create.isSome then CREATE_EFFECT else p.description
  create := p.create
  target := match p.create, p.ssh with
    | some c, _ => c.destination.reference
    | none, some s => s.review.target
    | none, none => targetArgument p.arguments arguments
  ssh := p.ssh.map SshOperation.review
  arguments := arguments
  credentials := p.reviewCredentials
  executableDigest := p.image.sha256
  policyDigest := p.revision
  argumentsDigest := argumentsDigest E arguments
  expiresAtUnixSeconds := expiresAtUnixSeconds
  oneTime := ONE_TIME
  status := .pending

end VaultAccess.Model
