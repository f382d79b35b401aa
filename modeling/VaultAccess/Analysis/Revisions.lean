import VaultAccess.Library.Unambiguous
import VaultAccess.Analysis.Review

/-!
# What a revision binds

The revision of a policy is the hash of a document. Where the hash tells the documents of two
policies apart, equal revisions come from equal documents, and documents determine the records
they were written from. A document holds everything but the description and, unless a
creation or a namespace is involved, the labels of the credentials.
-/

set_option autoImplicit false

namespace VaultAccess.Analysis

open VaultAccess.Library VaultAccess.Library.Text VaultAccess.Model

/-! ## Documents determine records -/

theorem map_toJson_inj {α : Type} {encode : α → Json} (hencode : ∀ a b, encode a = encode b → a = b)
    {l l' : List α} (h : l.map encode = l'.map encode) : l = l' :=
  List.map_injective_iff.mpr hencode h

theorem texts_inj {l l' : List String} (h : Json.texts l = Json.texts l') : l = l' :=
  map_toJson_inj (fun _ _ => Json.str.inj) (Json.arr.inj h)

theorem profile_toJson_inj (a b : ExecutionProfile) (h : a.toJson = b.toJson) : a = b := by
  cases a <;> cases b <;> simp [ExecutionProfile.toJson] at h ⊢

/-- INTERNAL: a resolved image. -/
theorem image_toJson_inj (a b : ResolvedImage) (h : a.toJson = b.toJson) : a = b := by
  obtain ⟨id, root, path, sha256, profile⟩ := a
  obtain ⟨id', root', path', sha256', profile'⟩ := b
  simp only [ResolvedImage.toJson, Json.obj.injEq, List.cons.injEq, Prod.mk.injEq, true_and,
    Json.str.injEq, and_true] at h
  obtain ⟨rfl, rfl, rfl, rfl, hprofile⟩ := h
  rw [profile_toJson_inj _ _ hprofile]

/-- INTERNAL: an argument. -/
theorem argument_toJson_inj (a b : ArgumentSpec) (h : a.toJson = b.toJson) : a = b := by
  cases a with
  | target => cases b <;> simp [ArgumentSpec.toJson] at h ⊢
  | choice choices =>
    cases b with
    | choice choices' =>
      simp only [ArgumentSpec.toJson, Json.obj.injEq, List.cons.injEq, Prod.mk.injEq, true_and,
        and_true] at h
      rw [texts_inj h]
    | target => simp [ArgumentSpec.toJson] at h
    | integer minimum maximum => simp [ArgumentSpec.toJson] at h
  | integer minimum maximum =>
    cases b with
    | integer minimum' maximum' =>
      simp only [ArgumentSpec.toJson, Json.obj.injEq, List.cons.injEq, Prod.mk.injEq, true_and,
        and_true, Json.int.injEq] at h
      rw [Int64.toInt_inj.mp h.1, Int64.toInt_inj.mp h.2]
    | target => simp [ArgumentSpec.toJson] at h
    | choice choices => simp [ArgumentSpec.toJson] at h

theorem field_toJson_inj (a b : LoginField) (h : a.toJson = b.toJson) : a = b := by
  cases a <;> cases b <;> simp_all [LoginField.toJson]

/-- INTERNAL: a mapping. -/
theorem mapping_toJson_inj (a b : LoginFieldMapping) (h : a.toJson = b.toJson) : a = b := by
  obtain ⟨field, environment⟩ := a
  obtain ⟨field', environment'⟩ := b
  simp only [LoginFieldMapping.toJson, Json.obj.injEq, List.cons.injEq, Prod.mk.injEq, true_and,
    Json.str.injEq, and_true] at h
  rw [field_toJson_inj _ _ h.1, h.2]

theorem use_toJson_inj (a b : CredentialUse) (h : a.toJson = b.toJson) : a = b := by
  cases a <;> cases b <;> simp [CredentialUse.toJson] at h ⊢

theorem destination_toJson_inj (a b : Destination) (h : a.toJson = b.toJson) : a = b := by
  cases a
  cases b
  simpa [Destination.toJson] using h

/-- INTERNAL: an SSH destination. -/
theorem sshDestination_toJson_inj (a b : SshDestination) (h : a.toJson = b.toJson) : a = b := by
  obtain ⟨host, port, user, path, pin⟩ := a
  obtain ⟨host', port', user', path', pin'⟩ := b
  simp only [SshDestination.toJson, Json.obj.injEq, List.cons.injEq, Prod.mk.injEq, true_and,
    Json.str.injEq, and_true, Json.nat, Json.int.injEq, Int.natCast_inj] at h
  obtain ⟨rfl, hport, rfl, rfl, rfl⟩ := h
  rw [UInt16.toNat_inj.mp hport]

/-- INTERNAL: a member that may be left out, before members with other names. -/
theorem optionalMember_inj {α : Type} {name : String} {encode : α → Json} {value value' : Option α}
    {rest rest' : List (String × Json)} (hencode : ∀ a b, encode a = encode b → a = b)
    (hname : ∀ m ∈ rest, m.1 ≠ name) (hname' : ∀ m ∈ rest', m.1 ≠ name)
    (h : optionalMember name value encode ++ rest = optionalMember name value' encode ++ rest') :
    value = value' ∧ rest = rest' := by
  cases value with
  | none =>
    cases value' with
    | none => exact ⟨rfl, h⟩
    | some v' =>
      have hmem : (name, encode v') ∈ rest := by
        rw [show rest = _ from h]
        simp [optionalMember]
      exact absurd rfl (hname _ hmem)
  | some v =>
    cases value' with
    | none =>
      have hmem : (name, encode v) ∈ rest' := by
        rw [← show _ = rest' from h]
        simp [optionalMember]
      exact absurd rfl (hname' _ hmem)
    | some v' =>
      simp only [optionalMember, List.cons_append, List.nil_append, List.cons.injEq, Prod.mk.injEq,
        true_and] at h
      exact ⟨congrArg some (hencode _ _ h.1), h.2⟩

/-- INTERNAL: a creation. -/
theorem create_toJson_inj (a b : CreateEffect) (h : a.toJson = b.toJson) : a = b := by
  obtain ⟨server, destination, fields, marker⟩ := a
  obtain ⟨server', destination', fields', marker'⟩ := b
  simp only [CreateEffect.toJson, Json.obj.injEq, List.cons.injEq, Prod.mk.injEq, true_and,
    Json.str.injEq, and_true] at h
  obtain ⟨rfl, hdestination, hfields, rfl⟩ := h
  rw [destination_toJson_inj _ _ hdestination, texts_inj hfields]

/-- INTERNAL: an SSH operation. -/
theorem ssh_toJson_inj (a b : SshOperation) (h : a.toJson = b.toJson) : a = b := by
  obtain ⟨⟨item, label, use⟩, directory, destination⟩ := a
  obtain ⟨⟨item', label', use'⟩, directory', destination'⟩ := b
  simp only [SshOperation.toJson, SshCredential.toJson, Json.obj.injEq, List.cons.injEq,
    Prod.mk.injEq, true_and, Json.str.injEq, and_true] at h
  obtain ⟨⟨rfl, rfl, huse⟩, rfl, hdestination⟩ := h
  rw [use_toJson_inj _ _ huse, sshDestination_toJson_inj _ _ hdestination]

/-- INTERNAL: a credential. -/
theorem credential_toJson_inj (a b : LoginCredentialDraft) (h : a.toJson = b.toJson) : a = b := by
  obtain ⟨item, label, use, mappings, destination⟩ := a
  obtain ⟨item', label', use', mappings', destination'⟩ := b
  simp only [LoginCredentialDraft.toJson, Json.obj.injEq, List.cons_append, List.nil_append,
    List.cons.injEq, Prod.mk.injEq, true_and, Json.str.injEq, Json.arr.injEq] at h
  obtain ⟨rfl, rfl, huse, hmappings, hdestination⟩ := h
  have hnamespace := (@optionalMember_inj _ "namespace" _ _ _ [] [] destination_toJson_inj (by simp)
    (by simp) (by simpa using hdestination)).1
  rw [use_toJson_inj _ _ huse, map_toJson_inj mapping_toJson_inj hmappings, hnamespace]

/-- INTERNAL: a draft. -/
theorem draft_toJson_inj (a b : OperationPolicyDraft) (h : a.toJson = b.toJson) : a = b := by
  obtain ⟨id, description, imageId, targets, arguments, credentials, ssh, create, password⟩ := a
  obtain ⟨id', description', imageId', targets', arguments', credentials', ssh', create', password'⟩ := b
  have hlast : ∀ p : Bool, ∀ m ∈ (if p then [("require_password", Json.bool true)] else []),
      m.1 ≠ "ssh" ∧ m.1 ≠ "create" := by
    intro p m hm
    cases p <;> simp at hm
    rw [hm]
    decide
  have hcreate : ∀ (c : Option CreateEffect) (p : Bool), ∀ m ∈ optionalMember "create" c CreateEffect.toJson ++
      (if p then [("require_password", Json.bool true)] else []), m.1 ≠ "ssh" := by
    intro c p m hm
    rcases List.mem_append.mp hm with hm | hm
    · cases c <;> simp [optionalMember] at hm
      simp [hm]
    · exact (hlast p m hm).1
  simp only [OperationPolicyDraft.toJson, Json.obj.injEq, List.cons_append, List.nil_append,
    List.cons.injEq, Prod.mk.injEq, true_and, Json.str.injEq, Json.arr.injEq, List.append_assoc] at h
  obtain ⟨rfl, rfl, rfl, htargets, harguments, hcredentials, hrest⟩ := h
  obtain ⟨rfl, hlater⟩ := optionalMember_inj ssh_toJson_inj (hcreate _ _) (hcreate _ _) hrest
  obtain ⟨rfl, hpassword⟩ := optionalMember_inj create_toJson_inj
    (fun m hm => (hlast _ m hm).2) (fun m hm => (hlast _ m hm).2) hlater
  have hpassword : password = password' := by
    cases password <;> cases password' <;> simp at hpassword ⊢
  rw [texts_inj htargets, map_toJson_inj argument_toJson_inj harguments,
    map_toJson_inj credential_toJson_inj hcredentials, hpassword]

/-! ## Revisions determine documents -/

theorem hexDigit_inj {n m : ℕ} (hn : n < 16) (hm : m < 16) (h : Json.hexDigit n = Json.hexDigit m) :
    n = m := by
  rw [← Json.hexValue_hexDigit hn, ← Json.hexValue_hexDigit hm, h]

/-- INTERNAL: hexadecimal texts tell byte strings apart. -/
theorem hex_inj {data data' : List UInt8} (h : hex data = hex data') : data = data' := by
  induction data generalizing data' with
  | nil =>
    cases data' with
    | nil => rfl
    | cons byte' data' => simp [hex] at h
  | cons byte data ih =>
    cases data' with
    | nil => simp [hex] at h
    | cons byte' data' =>
      simp only [hex, List.flatMap_cons, List.cons_append, List.nil_append, List.cons.injEq] at h
      have hhigh := hexDigit_inj (by have := byte.toNat_lt; omega) (by have := byte'.toNat_lt; omega) h.1
      have hlow := hexDigit_inj (Nat.mod_lt _ (by decide)) (Nat.mod_lt _ (by decide)) h.2.1
      have hbyte : byte = byte' := UInt8.toNat_inj.mp (by omega)
      rw [hbyte, ih h.2.2]

theorem sha256_of_hexSha256 {E : Externals} {data data' : List UInt8}
    (h : hexSha256 E data = hexSha256 E data') : E.sha256 data = E.sha256 data' := by
  have hlist := hex_inj (String.ofList_inj.mp h)
  exact Vector.toList_inj.mp hlist

/-- The document a base revision is the hash of.
SRCLINE: policy.rs:1034-1096 -/
def baseDocument (draft : OperationPolicyDraft) (image : ResolvedImage) : Json :=
  if draft.create.isSome || draft.credentials.any (·.namespace.isSome) then
    Json.arr [Json.nat 4, draft.toJson, image.toJson]
  else match draft.ssh with
    | some ssh => Json.obj [("version", Json.nat 3), ("id", .str draft.id),
        ("image", image.toJson), ("item_id", .str ssh.credential.itemId),
        ("use_type", ssh.credential.useType.toJson),
        ("working_directory", .str ssh.workingDirectory),
        ("destination", ssh.destination.toJson)]
    | none => Json.obj [("version", Json.nat 2), ("id", .str draft.id),
        ("image", image.toJson), ("targets", Json.texts draft.targets),
        ("arguments", .arr (draft.arguments.map ArgumentSpec.toJson)),
        ("credentials", .arr (draft.credentials.map fun c =>
          .obj [("item_id", .str c.itemId), ("use_type", c.useType.toJson),
            ("field_mappings", .arr (c.fieldMappings.map LoginFieldMapping.toJson))]))]

/-- INTERNAL: the base revision is the hash of the document. -/
theorem baseRevisionFor_eq (E : Externals) (draft : OperationPolicyDraft) (image : ResolvedImage) :
    baseRevisionFor E draft image = hexSha256 E (baseDocument draft image).toVec := by
  unfold baseRevisionFor baseDocument
  split_ifs
  · rfl
  · cases draft.ssh <;> rfl

/-- The document that adds the password to a base revision.
SRCLINE: policy.rs:1023-1033 -/
def passwordDocument (base : String) : Json :=
  Json.arr [Json.nat 5, .str "require_password", .str base]

/-- The documents the revision of a policy is computed from. -/
def revisionDocuments (E : Externals) (p : OperationPolicy) : List (List UInt8) :=
  [(baseDocument p.draft p.image).toVec, (passwordDocument (baseRevisionFor E p.draft p.image)).toVec]

/-- The hash has no collision between the documents of two policies. -/
def TellsApart (E : Externals) (p q : OperationPolicy) : Prop :=
  ∀ a ∈ revisionDocuments E p, ∀ b ∈ revisionDocuments E q, E.sha256 a = E.sha256 b → a = b

/-- INTERNAL: no policy's document is one that adds a password. -/
theorem baseDocument_ne_password (draft : OperationPolicyDraft) (image : ResolvedImage)
    (base : String) : baseDocument draft image ≠ passwordDocument base := by
  unfold baseDocument passwordDocument
  split_ifs
  · simp [Json.nat]
  · split <;> simp

/-- INTERNAL: **equal revisions come from equal documents**, where the hash tells them apart. -/
theorem baseDocument_of_revision {E : Externals} {p q : OperationPolicy} (hp : Intact E p)
    (hq : Intact E q) (happart : TellsApart E p q) (h : p.revision = q.revision) :
    baseDocument p.draft p.image = baseDocument q.draft q.image ∧
      p.requirePassword = q.requirePassword := by
  have hbase : baseRevisionFor E p.draft p.image = baseRevisionFor E q.draft q.image →
      baseDocument p.draft p.image = baseDocument q.draft q.image := by
    intro heq
    rw [baseRevisionFor_eq, baseRevisionFor_eq] at heq
    exact Json.toVec_injective (happart _ (by simp [revisionDocuments]) _ (by simp [revisionDocuments])
      (sha256_of_hexSha256 heq))
  rw [hp.revision, hq.revision] at h
  simp only [revisionFor, show p.draft.requirePassword = p.requirePassword from rfl,
    show q.draft.requirePassword = q.requirePassword from rfl] at h
  cases hpassword : p.requirePassword with
  | true =>
    cases hpassword' : q.requirePassword with
    | true =>
      simp only [hpassword, hpassword', if_true] at h
      have hdocument := Json.toVec_injective (happart _ (by simp [revisionDocuments, passwordDocument])
        _ (by simp [revisionDocuments, passwordDocument]) (sha256_of_hexSha256 h))
      refine ⟨hbase ?_, rfl⟩
      simpa [passwordDocument] using hdocument
    | false =>
      simp only [hpassword, hpassword', if_true, Bool.false_eq_true, if_false] at h
      rw [baseRevisionFor_eq E q.draft q.image] at h
      have hdocument := Json.toVec_injective (happart (passwordDocument _).toVec
        (by simp [revisionDocuments]) _ (by simp [revisionDocuments]) (sha256_of_hexSha256 h))
      exact absurd hdocument.symm (baseDocument_ne_password _ _ _)
  | false =>
    cases hpassword' : q.requirePassword with
    | true =>
      simp only [hpassword, hpassword', if_true, Bool.false_eq_true, if_false] at h
      rw [baseRevisionFor_eq E p.draft p.image] at h
      have hdocument := Json.toVec_injective (happart _ (by simp [revisionDocuments])
        (passwordDocument _).toVec (by simp [revisionDocuments]) (sha256_of_hexSha256 h))
      exact absurd hdocument (baseDocument_ne_password _ _ _)
    | false =>
      simp only [hpassword, hpassword', Bool.false_eq_true, if_false] at h
      exact ⟨hbase h, rfl⟩

/-! ## What two policies with one revision share -/

/-- Everything a reviewer is shown but the description and the labels of the credentials. -/
structure SameAuthority (p q : OperationPolicy) : Prop where
  id : p.id = q.id
  image : p.image = q.image
  targets : p.targets = q.targets
  arguments : p.arguments = q.arguments
  create : p.create = q.create
  ssh : p.ssh.map SshOperation.review = q.ssh.map SshOperation.review
  uses : p.reviewCredentials.map (·.useType) = q.reviewCredentials.map (·.useType)

/-- INTERNAL: what a validated draft without a creation or namespaces leaves out. -/
theorem ssh_shape {p : OperationPolicy} {ssh : SshOperation} (hvalid : validateDraft p.draft = true)
    (hcreate : p.create = none) (hssh : p.ssh = some ssh) :
    p.targets = [] ∧ p.arguments = [] ∧ p.credentials = [] := by
  simp only [validateDraft, show p.draft.create = none from hcreate,
    show p.draft.ssh = some ssh from hssh, Bool.and_eq_true, List.isEmpty_iff] at hvalid
  exact ⟨hvalid.1.1.1.1.1.1.2, hvalid.1.1.1.1.1.2, hvalid.1.1.1.1.2⟩

/-- The use in the document of a credential. -/
def useMember : Json → Json
  | .obj [_, (_, use), _] => use
  | _ => .null

/-- INTERNAL: **one document is one authority.** -/
theorem sameAuthority_of_baseDocument {p q : OperationPolicy} (hp : validateDraft p.draft = true)
    (hq : validateDraft q.draft = true)
    (h : baseDocument p.draft p.image = baseDocument q.draft q.image) : SameAuthority p q := by
  unfold baseDocument at h
  by_cases hfull : (p.draft.create.isSome || p.draft.credentials.any (·.namespace.isSome)) = true
  · rw [if_pos hfull] at h
    split_ifs at h with hfull'
    · simp only [Json.arr.injEq, List.cons.injEq, and_true, true_and] at h
      have hdraft := draft_toJson_inj _ _ h.1
      have himage := image_toJson_inj _ _ h.2
      have hssh : p.ssh = q.ssh := congrArg OperationPolicyDraft.ssh hdraft
      have hcreate : p.create = q.create := congrArg OperationPolicyDraft.create hdraft
      have hcredentials : p.credentials = q.credentials := congrArg OperationPolicyDraft.credentials hdraft
      refine ⟨congrArg OperationPolicyDraft.id hdraft, himage,
        congrArg OperationPolicyDraft.targets hdraft, congrArg OperationPolicyDraft.arguments hdraft,
        hcreate, by rw [hssh], ?_⟩
      simp only [OperationPolicy.reviewCredentials, hssh, hcreate, hcredentials]
    · split at h <;> simp at h
  · rw [if_neg hfull] at h
    simp only [Bool.or_eq_true, not_or, Bool.not_eq_true, Option.isSome_eq_false_iff,
      Option.isNone_iff_eq_none] at hfull
    have hcreate : p.create = none := hfull.1
    split_ifs at h with hfull'
    · split at h <;> simp at h
    simp only [Bool.or_eq_true, not_or, Bool.not_eq_true, Option.isSome_eq_false_iff,
      Option.isNone_iff_eq_none] at hfull'
    have hcreate' : q.create = none := hfull'.1
    cases hssh : p.draft.ssh with
    | some ssh =>
      cases hssh' : q.draft.ssh with
      | some ssh' =>
        simp only [hssh, hssh', Json.obj.injEq, List.cons.injEq, Prod.mk.injEq, true_and, and_true,
          Json.str.injEq] at h
        obtain ⟨hid, himage, -, huse, hdirectory, hdestination⟩ := h
        obtain ⟨htargets, harguments, hcredentials⟩ := ssh_shape hp hcreate hssh
        obtain ⟨htargets', harguments', hcredentials'⟩ := ssh_shape hq hcreate' hssh'
        have hs : p.ssh = some ssh := hssh
        have hs' : q.ssh = some ssh' := hssh'
        refine ⟨hid, image_toJson_inj _ _ himage, htargets.trans htargets'.symm,
          harguments.trans harguments'.symm, hcreate.trans hcreate'.symm, ?_, ?_⟩
        · simp only [hs, hs', Option.map_some, SshOperation.review, hdirectory,
            sshDestination_toJson_inj _ _ hdestination]
        · simp [OperationPolicy.reviewCredentials, hs, hs', hcreate, hcreate', hcredentials,
            hcredentials', use_toJson_inj _ _ huse]
      | none => simp [hssh, hssh', Json.nat] at h
    | none =>
      cases hssh' : q.draft.ssh with
      | some ssh' => simp [hssh, hssh', Json.nat] at h
      | none =>
        simp only [hssh, hssh', Json.obj.injEq, List.cons.injEq, Prod.mk.injEq, true_and, and_true,
          Json.str.injEq, Json.arr.injEq] at h
        obtain ⟨hid, himage, htargets, harguments, hcredentials⟩ := h
        have hs : p.ssh = none := hssh
        have hs' : q.ssh = none := hssh'
        have huses : p.credentials.map (·.useType) = q.credentials.map (·.useType) := by
          have := congrArg (List.map useMember) hcredentials
          simp only [List.map_map] at this
          refine map_toJson_inj use_toJson_inj ?_
          simpa [Function.comp_def, OperationPolicy.draft, useMember] using this
        refine ⟨hid, image_toJson_inj _ _ himage, texts_inj htargets,
          map_toJson_inj argument_toJson_inj harguments, hcreate.trans hcreate'.symm,
          by rw [hs, hs'], ?_⟩
        simpa [OperationPolicy.reviewCredentials, hs, hs', hcreate, hcreate', Function.comp_def]
          using huses

end VaultAccess.Analysis
