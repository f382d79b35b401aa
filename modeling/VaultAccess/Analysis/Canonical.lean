import VaultAccess.Analysis.Deliveries
import VaultAccess.Model.PolicyDocuments

/-!
# A stored policy is read back

The document of a policy that was built from a draft is read back as the policy; its draft
is canonical; and its binary searches find exactly the members of its lists, since these are
sorted.
-/

set_option autoImplicit false

namespace VaultAccess.Analysis

open VaultAccess.Library VaultAccess.Model

/-! ## Documents -/

section Documents

theorem readTexts_texts (values : List String) : readTexts (Json.texts values) = some values :=
  Json.readList_map fun _ _ => rfl

theorem readI64_int (n : Int64) : readI64 (.int n.toInt) = some n := by
  have hlower := Int64.le_toInt n
  have hupper := Int64.toInt_lt n
  unfold readI64
  simp only [if_pos (And.intro hlower hupper), Int64.ofInt_toInt]

theorem ofJson_toJson_create (c : CreateEffect) : CreateEffect.ofJson c.toJson = some c := by
  have hmembers : CreateEffect.ofJson c.toJson =
      (readTexts (Json.texts c.fields)).bind fun fields => some { c with fields } := rfl
  rw [hmembers, readTexts_texts, Option.bind_some]

theorem ofJson_toJson_argument (a : ArgumentSpec) : ArgumentSpec.ofJson a.toJson = some a := by
  cases a with
  | target => rfl
  | choice choices =>
    have hmembers : ArgumentSpec.ofJson (ArgumentSpec.choice choices).toJson =
        (readTexts (Json.texts choices)).bind fun choices => some (.choice choices) := rfl
    rw [hmembers, readTexts_texts, Option.bind_some]
  | integer minimum maximum =>
    have hmembers : ArgumentSpec.ofJson (ArgumentSpec.integer minimum maximum).toJson =
        (readI64 (.int minimum.toInt)).bind fun minimum =>
          (readI64 (.int maximum.toInt)).bind fun maximum => some (.integer minimum maximum) := rfl
    rw [hmembers, readI64_int, readI64_int]
    rfl

theorem ofJson_toJson_mapping (m : LoginFieldMapping) : LoginFieldMapping.ofJson m.toJson = some m := by
  obtain ⟨field, environment⟩ := m
  cases field with
  | notes => rfl
  | username => rfl
  | password => rfl
  | custom name => rfl

theorem ofJson_toJson_use (use : CredentialUse) : CredentialUse.ofJson use.toJson = some use := by
  cases use with
  | login => rfl
  | ssh => rfl

theorem ofJson_toJson_credential (c : LoginCredentialDraft) :
    LoginCredentialDraft.ofJson c.toJson = some c := by
  obtain ⟨itemId, label, use, mappings, destination⟩ := c
  have hmappings := Json.readList_map fun m (_ : m ∈ mappings) => ofJson_toJson_mapping m
  cases destination with
  | none =>
    have hmembers : LoginCredentialDraft.ofJson
        (LoginCredentialDraft.toJson ⟨itemId, label, use, mappings, none⟩) =
        (CredentialUse.ofJson use.toJson).bind fun use =>
        (Json.readList LoginFieldMapping.ofJson (.arr (mappings.map LoginFieldMapping.toJson))).bind
          fun mappings => some ⟨itemId, label, use, mappings, none⟩ := rfl
    rw [hmembers, ofJson_toJson_use, hmappings]
    rfl
  | some destination =>
    have hmembers : LoginCredentialDraft.ofJson
        (LoginCredentialDraft.toJson ⟨itemId, label, use, mappings, some destination⟩) =
        (CredentialUse.ofJson use.toJson).bind fun use =>
        (Json.readList LoginFieldMapping.ofJson (.arr (mappings.map LoginFieldMapping.toJson))).bind
          fun mappings => some ⟨itemId, label, use, mappings, some destination⟩ := rfl
    rw [hmembers, ofJson_toJson_use, hmappings]
    rfl

theorem ofJson_toJson_sshDestination (d : SshDestination) : SshDestination.ofJson d.toJson = some d := by
  obtain ⟨host, port, user, path, fingerprint⟩ := d
  have hport : Json.readNat 65536 (.int port.toNat) = some port.toNat := Json.readNat_int port.toNat_lt
  -- the reader is kept abstract: its bound is not to be computed with
  have hmembers : ∀ read : Json → Option ℕ,
      (do
        let members ← (SshDestination.toJson ⟨host, port, user, path, fingerprint⟩).closed
          ["host", "port", "user", "resource_path", "host_fingerprint"]
        let host ← Json.required "host" members Json.readString
        let port ← Json.required "port" members read
        let user ← Json.required "user" members Json.readString
        let resourcePath ← Json.required "resource_path" members Json.readString
        let hostFingerprint ← Json.required "host_fingerprint" members Json.readString
        pure ({ host, port := UInt16.ofNat port, user, resourcePath, hostFingerprint } : SshDestination)) =
      (read (.int port.toNat)).bind fun port => some ⟨host, UInt16.ofNat port, user, path, fingerprint⟩ :=
    fun _ => rfl
  rw [SshDestination.ofJson, hmembers, hport, Option.bind_some, UInt16.ofNat_toNat]

theorem ofJson_toJson_sshCredential (c : SshCredential) : SshCredential.ofJson c.toJson = some c := by
  have hread : SshCredential.ofJson c.toJson =
      (CredentialUse.ofJson c.useType.toJson).bind fun useType => some { c with useType } := rfl
  rw [hread, ofJson_toJson_use, Option.bind_some]

theorem ofJson_toJson_ssh (s : SshOperation) : SshOperation.ofJson s.toJson = some s := by
  have hmembers : ∀ readCredential readDestination,
      (do
        let members ← s.toJson.closed ["credential", "working_directory", "destination"]
        let credential ← Json.required "credential" members readCredential
        let workingDirectory ← Json.required "working_directory" members Json.readString
        let destination ← Json.required "destination" members readDestination
        pure ({ credential, workingDirectory, destination } : SshOperation)) =
      (readCredential s.credential.toJson).bind fun credential =>
      (readDestination s.destination.toJson).bind fun destination =>
        some ⟨credential, s.workingDirectory, destination⟩ := fun _ _ => rfl
  rw [SshOperation.ofJson, hmembers, ofJson_toJson_sshCredential, ofJson_toJson_sshDestination]
  rfl

theorem ofJson_toJson_image (i : ResolvedImage) : ResolvedImage.ofJson i.toJson = some i := by
  obtain ⟨imageId, executionRoot, path, sha256, profile⟩ := i
  cases profile with
  | reviewedSelfContainedElf64V1 => rfl
  | reviewedNativeMachOArm64V1 => rfl

/-- INTERNAL: an optional member is read back. -/
theorem readOption_some {α : Type} {read : Json → Option α} {document : Json} {value : α}
    (hnull : document ≠ .null) (h : read document = some value) :
    Json.readOption read document = some (some value) := by
  cases document with
  | null => exact absurd rfl hnull
  | _ =>
    simp only [Json.readOption, h]
    rfl

/-- **A policy is read back as it was written**, also where members are left out. -/
theorem storedOfJson_toJson (p : OperationPolicy) : OperationPolicy.storedOfJson p.toJson = some p := by
  obtain ⟨id, description, image, targets, arguments, credentials, ssh, create, requirePassword, revision⟩ := p
  have harguments := Json.readList_map fun a (_ : a ∈ arguments) => ofJson_toJson_argument a
  have hcredentials := Json.readList_map fun c (_ : c ∈ credentials) => ofJson_toJson_credential c
  have hssh : ∀ s : SshOperation, Json.readOption SshOperation.ofJson s.toJson = some (some s) :=
    fun s => readOption_some (by simp [SshOperation.toJson]) (ofJson_toJson_ssh s)
  have hcreate : ∀ c : CreateEffect, Json.readOption CreateEffect.ofJson c.toJson = some (some c) :=
    fun c => readOption_some (by simp [CreateEffect.toJson]) (ofJson_toJson_create c)
  -- the members that may be left out stand between the others
  let members := ([("id", .str id), ("description", .str description), ("image", image.toJson),
    ("targets", Json.texts targets), ("arguments", .arr (arguments.map ArgumentSpec.toJson)),
    ("credentials", .arr (credentials.map LoginCredentialDraft.toJson))] ++
    optionalMember "ssh" ssh SshOperation.toJson ++ optionalMember "create" create CreateEffect.toJson ++
    (if requirePassword then [("require_password", .bool true)] else []) ++ [("revision", Json.str revision)])
  have hclosed : Json.closed ["id", "description", "image", "targets", "arguments", "credentials",
      "ssh", "create", "require_password", "revision"] (.obj members) = some members := by
    cases ssh <;> cases create <;> cases requirePassword <;> rfl
  have hreadSsh : Json.defaulted "ssh" members (Json.readOption SshOperation.ofJson) none = some ssh := by
    cases ssh with
    | none => cases create <;> cases requirePassword <;> rfl
    | some s => exact hssh s
  have hreadCreate : Json.defaulted "create" members (Json.readOption CreateEffect.ofJson) none =
      some create := by
    cases create with
    | none => cases ssh <;> cases requirePassword <;> rfl
    | some c => cases ssh <;> exact hcreate c
  have hreadPassword : Json.defaulted "require_password" members Json.readBool false =
      some requirePassword := by
    cases ssh <;> cases create <;> cases requirePassword <;> rfl
  have hreadRevision : Json.required "revision" members Json.readString = some revision := by
    cases ssh <;> cases create <;> cases requirePassword <;> rfl
  have hread : OperationPolicy.storedOfJson (.obj members) =
      (ResolvedImage.ofJson image.toJson).bind fun image =>
      (readTexts (Json.texts targets)).bind fun targets =>
      (Json.readList ArgumentSpec.ofJson (.arr (arguments.map ArgumentSpec.toJson))).bind fun arguments =>
      (Json.readList LoginCredentialDraft.ofJson (.arr (credentials.map LoginCredentialDraft.toJson))).bind
        fun credentials =>
      (Json.defaulted "ssh" members (Json.readOption SshOperation.ofJson) none).bind fun ssh =>
      (Json.defaulted "create" members (Json.readOption CreateEffect.ofJson) none).bind fun create =>
      (Json.defaulted "require_password" members Json.readBool false).bind fun requirePassword =>
      (Json.required "revision" members Json.readString).bind fun revision =>
      some ⟨id, description, image, targets, arguments, credentials, ssh, create, requirePassword,
        revision⟩ := by
    unfold OperationPolicy.storedOfJson
    rw [hclosed]
    rfl
  show OperationPolicy.storedOfJson (.obj members) = _
  rw [hread, ofJson_toJson_image, readTexts_texts, harguments, hcredentials, hreadSsh, hreadCreate,
    hreadPassword, hreadRevision]
  rfl

end Documents

/-! ## Arguments -/

/-- What a position of the arguments may hold. -/
def FitsSpec (p : OperationPolicy) : ArgumentSpec → String → Prop
  | .target, value => value ∈ p.targets
  | .choice choices, value => value ∈ choices
  | .integer minimum maximum, value => ∃ n, parseI64 value = some n ∧ minimum ≤ n ∧ n ≤ maximum

section Arguments

variable {p : OperationPolicy}

/-- INTERNAL: the lists of a canonical draft are sorted. -/
theorem sorted_of_canonical (h : canonicalizeDraft p.draft = p.draft) :
    p.targets.Pairwise (· ≤ ·) ∧
      ∀ choices, ArgumentSpec.choice choices ∈ p.arguments → choices.Pairwise (· ≤ ·) := by
  constructor
  · have htargets : sortTexts p.targets = p.targets := congrArg OperationPolicyDraft.targets h
    rw [← htargets]
    exact pairwise_sortByKey id p.targets
  · intro choices hmem
    have harguments : p.arguments.map ArgumentSpec.canonicalize = p.arguments :=
      congrArg OperationPolicyDraft.arguments h
    rw [← harguments] at hmem
    obtain ⟨spec, -, hspec⟩ := List.mem_map.mp hmem
    cases spec with
    | target => simp [ArgumentSpec.canonicalize] at hspec
    | integer minimum maximum => simp [ArgumentSpec.canonicalize] at hspec
    | choice before =>
      simp only [ArgumentSpec.canonicalize, ArgumentSpec.choice.injEq] at hspec
      rw [← hspec]
      exact pairwise_sortByKey id before

/-- INTERNAL: one value is accepted exactly when its position admits it. -/
theorem validatesArg_iff (h : canonicalizeDraft p.draft = p.draft) {spec : ArgumentSpec}
    (hspec : spec ∈ p.arguments) (value : String) : p.validatesArg spec value = true ↔ FitsSpec p spec value := by
  obtain ⟨htargets, hchoices⟩ := sorted_of_canonical h
  cases spec with
  | target => exact Search.binarySearch_isOk htargets
  | choice choices => exact Search.binarySearch_isOk (hchoices choices hspec)
  | integer minimum maximum =>
    simp only [OperationPolicy.validatesArg, FitsSpec, Option.any_eq_true, Bool.and_eq_true, decide_eq_true_eq]

/-- INTERNAL: as many values as positions, each accepted in its place. -/
theorem all_zip_iff (check : ArgumentSpec → String → Bool) (specs : List ArgumentSpec) (values : List String) :
    (values.length = specs.length && (specs.zip values).all fun (spec, value) => check spec value) = true ↔
      List.Forall₂ (fun spec value => check spec value = true) specs values := by
  induction specs generalizing values with
  | nil =>
    cases values with
    | nil => simp
    | cons value values => simp
  | cons spec specs ih =>
    cases values with
    | nil => simp
    | cons value values =>
      rw [List.forall₂_cons, ← ih]
      simp [and_left_comm]

/-- INTERNAL: positions that admit the same values. -/
theorem forall₂_congr {specs : List ArgumentSpec} {values : List String} {P Q : ArgumentSpec → String → Prop}
    (h : ∀ spec ∈ specs, ∀ value, P spec value ↔ Q spec value) :
    List.Forall₂ P specs values ↔ List.Forall₂ Q specs values := by
  induction specs generalizing values with
  | nil => simp
  | cons spec specs ih =>
    cases values with
    | nil => simp
    | cons value values =>
      rw [List.forall₂_cons, List.forall₂_cons, h spec List.mem_cons_self value,
        ih fun spec hspec => h spec (List.mem_cons_of_mem _ hspec)]

/-- **Arguments are accepted exactly when every position admits its value.** -/
theorem validatesArgs_iff (hvalid : validateDraft p.draft = true) (h : canonicalizeDraft p.draft = p.draft)
    (values : List String) : p.validatesArgs values = true ↔ List.Forall₂ (FitsSpec p) p.arguments values := by
  unfold OperationPolicy.validatesArgs
  by_cases hssh : p.ssh.isSome = true
  · have hnil : p.arguments = [] := (arguments_bounds p.draft hvalid).2.2.2 hssh
    rw [if_pos hssh, hnil, List.isEmpty_iff, List.forall₂_nil_left_iff]
  · rw [if_neg hssh, all_zip_iff]
    exact forall₂_congr fun spec hspec value => validatesArg_iff h hspec value

/-- INTERNAL: normalized arguments are accepted. -/
theorem validatesArgs_of_normalizeArgs {values args : List String} (h : p.normalizeArgs values = some args) :
    p.validatesArgs values = true := by
  unfold OperationPolicy.normalizeArgs at h
  split_ifs at h with hrefused
  simp only [Bool.or_eq_true, not_or, Bool.not_eq_true', Bool.not_eq_false] at hrefused
  exact hrefused.2

end Arguments

/-! ## Policies -/

/-- What holds of a policy that was built on `disk` while its image file does not change. -/
structure Restorable (E : Externals) (later : Disk) (p : OperationPolicy) : Prop where
  readBack : OperationPolicy.ofJson E later p.toJson = some p
  integrity : p.validateIntegrity E later = true
  canonical : canonicalizeDraft p.draft = p.draft
  host : ∀ ssh, p.ssh = some ssh → normalizeHost ssh.destination.host = some ssh.destination.host
  fingerprint : ∀ ssh, p.ssh = some ssh →
    normalizeFingerprint ssh.destination.hostFingerprint = some ssh.destination.hostFingerprint
  accepts : ∀ values, p.validatesArgs values = true ↔ List.Forall₂ (FitsSpec p) p.arguments values
  normal : ∀ values args, p.normalizeArgs values = some args →
    p.validatesArgs args = true ∧ p.normalizeArgs args = some args

/-- INTERNAL: the destination of a validated draft in canonical form. -/
theorem destination_of_canonical {p : OperationPolicy} (hvalid : validateDraft p.draft = true)
    (h : canonicalizeDraft p.draft = p.draft) {ssh : SshOperation} (hssh : p.ssh = some ssh) :
    normalizeHost ssh.destination.host = some ssh.destination.host ∧
      normalizeFingerprint ssh.destination.hostFingerprint = some ssh.destination.hostFingerprint := by
  have hcanonical : p.ssh.map SshOperation.canonicalize = p.ssh := congrArg OperationPolicyDraft.ssh h
  rw [hssh, Option.map_some, Option.some.injEq] at hcanonical
  have hreview : validSshReview ssh.workingDirectory ssh.destination = true := by
    have hdraft : p.draft.ssh = some ssh := hssh
    unfold validateDraft at hvalid
    cases hcreate : p.draft.create with
    | some create => simp [hcreate, hdraft] at hvalid
    | none =>
      simp only [hcreate, hdraft, Bool.and_eq_true] at hvalid
      exact hvalid.2
  simp only [validSshReview, Bool.and_eq_true] at hreview
  obtain ⟨⟨⟨⟨⟨⟨⟨-, hhost⟩, -⟩, -⟩, -⟩, -⟩, -⟩, hprint⟩ := hreview
  obtain ⟨host, hhost⟩ := Option.isSome_iff_exists.mp hhost
  obtain ⟨print, hprint⟩ := Option.isSome_iff_exists.mp hprint
  have hhosts := congrArg (fun s : SshOperation => s.destination.host) hcanonical
  have hprints := congrArg (fun s : SshOperation => s.destination.hostFingerprint) hcanonical
  simp only [SshOperation.canonicalize, hhost, hprint, Option.getD_some] at hhosts hprints
  exact ⟨hhost.trans (congrArg some hhosts), hprint.trans (congrArg some hprints)⟩

/-- **A policy built from a draft is restorable**: its document is read back, it passes its check,
its draft is canonical, and its argument checks find exactly the members of its lists. The
normal forms of hosts and fingerprints are their own normal forms.
SRCLINE: policy.rs:436-466, 513-693, 999-1021 -/
theorem restorable_of_fromDraft (E : Externals) (disk later : Disk) (draft : OperationPolicyDraft)
    (image : ApprovedImage) (p : OperationPolicy)
    (h : OperationPolicy.fromDraft E disk draft image = some p)
    (hunchanged : executableIdentityMatches E later image.path image.sha256 =
      executableIdentityMatches E disk image.path image.sha256) :
    Restorable E later p ∧
      (∀ value host, normalizeHost value = some host → normalizeHost host = some host) ∧
      ∀ value fingerprint, normalizeFingerprint value = some fingerprint →
        normalizeFingerprint fingerprint = some fingerprint := by
  obtain ⟨hintact, himage, -⟩ := intact_of_fromDraft E disk draft image p h
  have hintegrity : p.image.approved.validateIntegrity E later = true := by
    unfold OperationPolicy.fromDraft at h
    split_ifs at h with hchecks
    simp only [Bool.and_eq_true, decide_eq_true_eq] at hchecks
    have hchecked := hchecks.2
    rw [himage, show image.resolved.approved = image from rfl]
    rw [ApprovedImage.validateIntegrity] at hchecked ⊢
    rw [hunchanged]
    exact hchecked
  refine ⟨?_, normalizeHost_idem, normalizeFingerprint_idem⟩
  constructor
  · rw [OperationPolicy.ofJson, storedOfJson_toJson, Option.bind_some]
    exact tryFrom_of_intact E later p hintact hintegrity
  · exact validateIntegrity_of_intact E later p hintact hintegrity
  · exact hintact.canonical
  · intro ssh hssh
    exact (destination_of_canonical hintact.valid hintact.canonical hssh).1
  · intro ssh hssh
    exact (destination_of_canonical hintact.valid hintact.canonical hssh).2
  · exact validatesArgs_iff hintact.valid hintact.canonical
  · intro values args hargs
    have hagain := normalizeArgs_idem p values args hintact.valid hargs
    exact ⟨validatesArgs_of_normalizeArgs hagain, hagain⟩

/-- A policy with one target and one credential, read back from its document. -/
theorem restorable_policyOf :
    OperationPolicy.fromDraft Sample.externals Sample.disk (Replaced.draftOf "Deploy")
        (Sample.image Sample.externals) = some (Replaced.policyOf Sample.externals "Deploy") ∧
      Restorable Sample.externals Sample.disk (Replaced.policyOf Sample.externals "Deploy") :=
  have hvalid : validateDraft (Replaced.draftOf "Deploy") = true := by decide +kernel
  have hdraft := Replaced.fromDraft_draftOf Sample.externals hvalid
  ⟨hdraft, (restorable_of_fromDraft Sample.externals Sample.disk Sample.disk (Replaced.draftOf "Deploy")
    (Sample.image Sample.externals) _ hdraft rfl).1⟩

end VaultAccess.Analysis
