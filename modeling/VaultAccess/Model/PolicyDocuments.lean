import VaultAccess.Library.Documents
import VaultAccess.Model.Policy

/-!
# Stored policies as documents

The `Deserialize` derivations of `src/access/policy.rs` for a stored policy: which members
each document may have, which may be left out, and how enumerations are spelt.
-/

set_option autoImplicit false

namespace VaultAccess.Model

open VaultAccess.Library

/-- An enumeration without data: its name, or an object of the name and `null`. -/
def readUnit {α : Type} (variants : List (String × α)) : Json → Option α
  | .str name => variants.lookup name
  | .obj [(name, .null)] => variants.lookup name
  | _ => none

def readTexts : Json → Option (List String) := Json.readList Json.readString

/-- An integer of 64 bits. -/
@[irreducible] def readI64 : Json → Option Int64
  | .int n => if -2 ^ 63 ≤ n ∧ n < 2 ^ 63 then some (Int64.ofInt n) else none
  | _ => none

/-- SRCLINE: secret_storage.rs:117-124 -/
def Destination.ofJson (document : Json) : Option Destination := do
  let members ← document.closed ["account_id", "folder", "folder_id", "reference"]
  let accountId ← Json.required "account_id" members Json.readString
  let folder ← Json.required "folder" members Json.readString
  let folderId ← Json.required "folder_id" members Json.readString
  let reference ← Json.required "reference" members Json.readString
  pure { accountId, folder, folderId, reference }

/-- SRCLINE: policy.rs:57-64 -/
def CreateEffect.ofJson (document : Json) : Option CreateEffect := do
  let members ← document.closed ["server", "destination", "fields", "eligibility_marker"]
  let server ← Json.required "server" members Json.readString
  let destination ← Json.required "destination" members Destination.ofJson
  let fields ← Json.required "fields" members readTexts
  let eligibilityMarker ← Json.required "eligibility_marker" members Json.readString
  pure { server, destination, fields, eligibilityMarker }

/-- SRCLINE: policy.rs:97-103 -/
def ExecutionProfile.ofJson : Json → Option ExecutionProfile :=
  readUnit [("reviewed_self_contained_elf64_v1", .reviewedSelfContainedElf64V1),
    ("reviewed_native_macho_arm64_v1", .reviewedNativeMachOArm64V1)]

/-- The tag decides. A target takes no notice of other members.
SRCLINE: policy.rs:211-217 -/
def ArgumentSpec.ofJson (document : Json) : Option ArgumentSpec :=
  match document with
  | .obj members =>
    if (members.filter fun member => member.1 = "type").length ≠ 1 then none
    else match Json.member "type" members with
      | some (.str "target") => some .target
      | some (.str "choice") => do
        let members ← document.closed ["type", "choices"]
        let choices ← Json.required "choices" members readTexts
        pure (.choice choices)
      | some (.str "integer") => do
        let members ← document.closed ["type", "minimum", "maximum"]
        let minimum ← Json.required "minimum" members readI64
        let maximum ← Json.required "maximum" members readI64
        pure (.integer minimum maximum)
      | _ => none
  | _ => none

/-- SRCLINE: policy.rs:219-226 -/
def LoginField.ofJson : Json → Option LoginField
  | .obj [("custom", content)] => do
    let members ← content.closed ["name"]
    let name ← Json.required "name" members Json.readString
    pure (.custom name)
  | document => readUnit [("notes", .notes), ("username", .username), ("password", .password)] document

/-- SRCLINE: policy.rs:228-233 -/
def LoginFieldMapping.ofJson (document : Json) : Option LoginFieldMapping := do
  let members ← document.closed ["field", "environment"]
  let field ← Json.required "field" members LoginField.ofJson
  let environment ← Json.required "environment" members Json.readString
  pure { field, environment }

/-- SRCLINE: policy.rs:235-240 -/
def CredentialUse.ofJson : Json → Option CredentialUse := readUnit [("login", .login), ("ssh", .ssh)]

/-- SRCLINE: policy.rs:242-251 -/
def LoginCredentialDraft.ofJson (document : Json) : Option LoginCredentialDraft := do
  let members ← document.closed ["item_id", "label", "use_type", "field_mappings", "namespace"]
  let itemId ← Json.required "item_id" members Json.readString
  let label ← Json.required "label" members Json.readString
  let useType ← Json.required "use_type" members CredentialUse.ofJson
  let fieldMappings ← Json.required "field_mappings" members (Json.readList LoginFieldMapping.ofJson)
  let destination ← Json.defaulted "namespace" members (Json.readOption Destination.ofJson) none
  pure ⟨itemId, label, useType, fieldMappings, destination⟩

/-- SRCLINE: policy.rs:254-260 -/
def SshCredential.ofJson (document : Json) : Option SshCredential := do
  let members ← document.closed ["item_id", "label", "use_type"]
  let itemId ← Json.required "item_id" members Json.readString
  let label ← Json.required "label" members Json.readString
  let useType ← Json.required "use_type" members CredentialUse.ofJson
  pure { itemId, label, useType }

/-- SRCLINE: policy.rs:261-269 -/
def SshDestination.ofJson (document : Json) : Option SshDestination := do
  let members ← document.closed ["host", "port", "user", "resource_path", "host_fingerprint"]
  let host ← Json.required "host" members Json.readString
  let port ← Json.required "port" members (Json.readNat 65536)
  let user ← Json.required "user" members Json.readString
  let resourcePath ← Json.required "resource_path" members Json.readString
  let hostFingerprint ← Json.required "host_fingerprint" members Json.readString
  pure { host, port := UInt16.ofNat port, user, resourcePath, hostFingerprint }

/-- SRCLINE: policy.rs:270-276 -/
def SshOperation.ofJson (document : Json) : Option SshOperation := do
  let members ← document.closed ["credential", "working_directory", "destination"]
  let credential ← Json.required "credential" members SshCredential.ofJson
  let workingDirectory ← Json.required "working_directory" members Json.readString
  let destination ← Json.required "destination" members SshDestination.ofJson
  pure { credential, workingDirectory, destination }

/-- SRCLINE: policy.rs:391-399 -/
def ResolvedImage.ofJson (document : Json) : Option ResolvedImage := do
  let members ← document.closed ["image_id", "execution_root", "path", "sha256", "profile"]
  let imageId ← Json.required "image_id" members Json.readString
  let executionRoot ← Json.required "execution_root" members Json.readString
  let path ← Json.required "path" members Json.readString
  let sha256 ← Json.required "sha256" members Json.readString
  let profile ← Json.required "profile" members ExecutionProfile.ofJson
  pure { imageId, executionRoot, path, sha256, profile }

/-- `StoredOperationPolicy`, before it is checked.
SRCLINE: policy.rs:640-656 -/
def OperationPolicy.storedOfJson (document : Json) : Option OperationPolicy := do
  let members ← document.closed ["id", "description", "image", "targets", "arguments", "credentials",
    "ssh", "create", "require_password", "revision"]
  let id ← Json.required "id" members Json.readString
  let description ← Json.required "description" members Json.readString
  let image ← Json.required "image" members ResolvedImage.ofJson
  let targets ← Json.required "targets" members readTexts
  let arguments ← Json.required "arguments" members (Json.readList ArgumentSpec.ofJson)
  let credentials ← Json.required "credentials" members (Json.readList LoginCredentialDraft.ofJson)
  let ssh ← Json.defaulted "ssh" members (Json.readOption SshOperation.ofJson) none
  let create ← Json.defaulted "create" members (Json.readOption CreateEffect.ofJson) none
  let requirePassword ← Json.defaulted "require_password" members Json.readBool false
  let revision ← Json.required "revision" members Json.readString
  pure { id, description, image, targets, arguments, credentials, ssh, create, requirePassword, revision }

/-- The reader of a policy's document.
SRCLINE: policy.rs:374-389, 658-693 -/
def OperationPolicy.ofJson (E : Externals) (disk : Disk) (document : Json) : Option OperationPolicy :=
  (storedOfJson document).bind (tryFrom E disk)

end VaultAccess.Model
