import VaultAccess.Analysis.Policy
import VaultAccess.Analysis.Revisions
import VaultAccess.Analysis.Validation

/-!
# What a revision stands for

A revision is the hash of one of five documents: the whole draft for a creation or namespaced
logins, an SSH operation, plain logins, and any of these behind the demand for a password. The
documents of two kinds are never equal, and a document of one kind holds the authority of the
draft in canonical form and nothing else. The canonical form does not depend on the order in
which a draft lists its targets, choices, credentials and mappings.
-/

set_option autoImplicit false

namespace VaultAccess.Analysis

open VaultAccess.Library VaultAccess.Library.Text VaultAccess.Model

/-! ## The authority of a draft -/

/-- What a draft grants, as its revision keeps it. -/
inductive PolicyAuthority where
  /-- Plain logins: the targets, the arguments and the mappings of each item. -/
  | logins (targets : List String) (arguments : List ArgumentSpec)
      (mappings : List (String × List LoginFieldMapping))
  | ssh (itemId workingDirectory : String) (destination : SshDestination)
  /-- A creation or namespaced logins: everything. -/
  | whole (draft : OperationPolicyDraft)

/-- The authority of a draft; its constructor is the kind of the policy. -/
def policyAuthority (draft : OperationPolicyDraft) : PolicyAuthority :=
  if draft.create.isSome || draft.credentials.any (·.namespace.isSome) then .whole draft
  else match draft.ssh with
    | some ssh => .ssh ssh.credential.itemId ssh.workingDirectory ssh.destination
    | none => .logins draft.targets draft.arguments
        (draft.credentials.map fun c => (c.itemId, c.fieldMappings))

/-- INTERNAL: a validated draft that is no creation has logins only. -/
theorem login_of_valid {d : OperationPolicyDraft} (h : validateDraft d = true) (hcreate : d.create = none) :
    (∀ c ∈ d.credentials, c.useType = .login) ∧ (d.credentials.map (·.itemId)).Nodup := by
  cases hssh : d.ssh with
  | some ssh =>
    simp only [validateDraft, hcreate, hssh, Bool.and_eq_true, List.isEmpty_iff] at h
    have hnone : d.credentials = [] := h.1.1.1.1.2
    simp [hnone]
  | none =>
    simp only [validateDraft, hcreate, hssh, Bool.and_eq_true] at h
    have hvalid := h.2
    simp only [validCredentials, Bool.and_eq_true, List.all_eq_true, Bool.not_eq_true'] at hvalid
    obtain ⟨⟨⟨-, hdistinct⟩, -⟩, hall⟩ := hvalid
    refine ⟨fun c hc => ?_, (hasDuplicates_eq_false_iff _).mp hdistinct⟩
    have hcredential := hall c hc
    simp only [validCredential, Bool.and_eq_true, decide_eq_true_eq] at hcredential
    exact hcredential.1.1.1.1.1.1.1

theorem use_of_valid {d : OperationPolicyDraft} {ssh : SshOperation} (h : validateDraft d = true)
    (hcreate : d.create = none) (hssh : d.ssh = some ssh) : ssh.credential.useType = .ssh := by
  simp only [validateDraft, hcreate, hssh, Bool.and_eq_true, decide_eq_true_eq] at h
  exact h.1.2

/-- INTERNAL: the credentials of a document tell the mappings of each item. -/
theorem mappings_inj {credentials credentials' : List LoginCredentialDraft}
    (h : (credentials.map fun c => Json.obj [("item_id", .str c.itemId), ("use_type", c.useType.toJson),
        ("field_mappings", .arr (c.fieldMappings.map LoginFieldMapping.toJson))]) =
      credentials'.map fun c => Json.obj [("item_id", .str c.itemId), ("use_type", c.useType.toJson),
        ("field_mappings", .arr (c.fieldMappings.map LoginFieldMapping.toJson))]) :
    (credentials.map fun c => (c.itemId, c.fieldMappings)) =
      credentials'.map fun c => (c.itemId, c.fieldMappings) := by
  induction credentials generalizing credentials' with
  | nil =>
    cases credentials' with
    | nil => rfl
    | cons c' rest' => simp at h
  | cons c rest ih =>
    cases credentials' with
    | nil => simp at h
    | cons c' rest' =>
      simp only [List.map_cons, List.cons.injEq, Json.obj.injEq, Prod.mk.injEq, true_and, and_true,
        Json.str.injEq, Json.arr.injEq] at h
      obtain ⟨⟨hitem, -, hmappings⟩, hrest⟩ := h
      rw [List.map_cons, List.map_cons, ih hrest, hitem, map_toJson_inj mapping_toJson_inj hmappings]

/-- INTERNAL: logins with the same mappings have the same document. -/
theorem documents_of_mappings {credentials credentials' : List LoginCredentialDraft}
    (hall : ∀ c ∈ credentials, c.useType = .login) (hall' : ∀ c ∈ credentials', c.useType = .login)
    (h : (credentials.map fun c => (c.itemId, c.fieldMappings)) =
      credentials'.map fun c => (c.itemId, c.fieldMappings)) :
    (credentials.map fun c => Json.obj [("item_id", .str c.itemId), ("use_type", c.useType.toJson),
        ("field_mappings", .arr (c.fieldMappings.map LoginFieldMapping.toJson))]) =
      credentials'.map fun c => Json.obj [("item_id", .str c.itemId), ("use_type", c.useType.toJson),
        ("field_mappings", .arr (c.fieldMappings.map LoginFieldMapping.toJson))] := by
  induction credentials generalizing credentials' with
  | nil =>
    cases credentials' with
    | nil => rfl
    | cons c' rest' => simp at h
  | cons c rest ih =>
    cases credentials' with
    | nil => simp at h
    | cons c' rest' =>
      simp only [List.map_cons, List.cons.injEq, Prod.mk.injEq] at h
      obtain ⟨⟨hitem, hmappings⟩, hrest⟩ := h
      have huse : c.useType = c'.useType :=
        (hall c List.mem_cons_self).trans (hall' c' List.mem_cons_self).symm
      rw [List.map_cons, List.map_cons, hitem, huse, hmappings,
        ih (fun x hx => hall x (List.mem_cons_of_mem _ hx)) (fun x hx => hall' x (List.mem_cons_of_mem _ hx)) hrest]

/-! ## Documents and authorities -/

/-- INTERNAL: the kinds of drafts whose documents hold everything. -/
abbrev Whole (d : OperationPolicyDraft) : Prop :=
  (d.create.isSome || d.credentials.any (·.namespace.isSome)) = true

theorem create_of_not_whole {d : OperationPolicyDraft} (h : ¬ Whole d) : d.create = none := by
  unfold Whole at h
  simp only [Bool.or_eq_true, not_or, Bool.not_eq_true, Option.isSome_eq_false_iff,
    Option.isNone_iff_eq_none] at h
  exact h.1

/-- INTERNAL: equal documents come from one authority. -/
theorem authority_of_baseDocument {d d' : OperationPolicyDraft} {image image' : ResolvedImage}
    (h : baseDocument d image = baseDocument d' image') :
    d.id = d'.id ∧ image = image' ∧ policyAuthority d = policyAuthority d' := by
  unfold baseDocument at h
  unfold policyAuthority
  by_cases hwhole : Whole d
  · rw [if_pos hwhole] at h
    rw [if_pos hwhole]
    by_cases hwhole' : Whole d'
    · rw [if_pos hwhole'] at h
      rw [if_pos hwhole']
      simp only [Json.arr.injEq, List.cons.injEq, and_true, true_and] at h
      have hdraft := draft_toJson_inj _ _ h.1
      exact ⟨congrArg OperationPolicyDraft.id hdraft, image_toJson_inj _ _ h.2, by rw [hdraft]⟩
    · rw [if_neg hwhole'] at h
      split at h <;> simp at h
  · rw [if_neg hwhole] at h
    rw [if_neg hwhole]
    by_cases hwhole' : Whole d'
    · rw [if_pos hwhole'] at h
      split at h <;> simp at h
    · rw [if_neg hwhole'] at h
      rw [if_neg hwhole']
      cases hssh : d.ssh with
      | some ssh =>
        cases hssh' : d'.ssh with
        | some ssh' =>
          simp only [hssh, hssh', Json.obj.injEq, List.cons.injEq, Prod.mk.injEq, true_and, and_true,
            Json.str.injEq] at h
          obtain ⟨hid, himage, hitem, -, hdirectory, hdestination⟩ := h
          have hsame := sshDestination_toJson_inj _ _ hdestination
          exact ⟨hid, image_toJson_inj _ _ himage, by simp only [hitem, hdirectory, hsame]⟩
        | none => simp [hssh, hssh', Json.nat] at h
      | none =>
        cases hssh' : d'.ssh with
        | some ssh' => simp [hssh, hssh', Json.nat] at h
        | none =>
          simp only [hssh, hssh', Json.obj.injEq, List.cons.injEq, Prod.mk.injEq, true_and, and_true,
            Json.str.injEq, Json.arr.injEq] at h
          obtain ⟨hid, himage, htargets, harguments, hcredentials⟩ := h
          have hsameTargets := texts_inj htargets
          have hsameArguments := map_toJson_inj argument_toJson_inj harguments
          have hsameMappings := mappings_inj hcredentials
          exact ⟨hid, image_toJson_inj _ _ himage,
            by simp only [hsameTargets, hsameArguments, hsameMappings]⟩

/-- INTERNAL: one authority has one document. -/
theorem baseDocument_of_authority {d d' : OperationPolicyDraft} {image : ResolvedImage}
    (hd : validateDraft d = true) (hd' : validateDraft d' = true) (hid : d.id = d'.id)
    (h : policyAuthority d = policyAuthority d') : baseDocument d image = baseDocument d' image := by
  unfold policyAuthority at h
  unfold baseDocument
  by_cases hwhole : Whole d
  · rw [if_pos hwhole] at h
    rw [if_pos hwhole]
    by_cases hwhole' : Whole d'
    · rw [if_pos hwhole'] at h
      rw [if_pos hwhole', PolicyAuthority.whole.inj h]
    · rw [if_neg hwhole'] at h
      split at h <;> simp at h
  · rw [if_neg hwhole] at h
    rw [if_neg hwhole]
    by_cases hwhole' : Whole d'
    · rw [if_pos hwhole'] at h
      split at h <;> simp at h
    · rw [if_neg hwhole'] at h
      rw [if_neg hwhole']
      have hcreate := create_of_not_whole hwhole
      have hcreate' := create_of_not_whole hwhole'
      cases hssh : d.ssh with
      | some ssh =>
        cases hssh' : d'.ssh with
        | some ssh' =>
          simp only [hssh, hssh', PolicyAuthority.ssh.injEq] at h
          have huse := use_of_valid hd hcreate hssh
          have huse' := use_of_valid hd' hcreate' hssh'
          simp only [h.1, h.2.1, h.2.2, huse, huse', hid]
        | none => simp [hssh, hssh'] at h
      | none =>
        cases hssh' : d'.ssh with
        | some ssh' => simp [hssh, hssh'] at h
        | none =>
          simp only [hssh, hssh', PolicyAuthority.logins.injEq] at h
          have hcredentials := documents_of_mappings (login_of_valid hd hcreate).1
            (login_of_valid hd' hcreate').1 h.2.2
          simp only [h.1, h.2.1, hcredentials, hid]

/-- INTERNAL: **equal documents are equal revisions**, where the hash tells them apart. -/
theorem revision_eq_iff {E : Externals} {p q : OperationPolicy} (hp : Intact E p) (hq : Intact E q)
    (happart : TellsApart E p q) :
    p.revision = q.revision ↔ baseDocument p.draft p.image = baseDocument q.draft q.image ∧
      p.requirePassword = q.requirePassword := by
  constructor
  · intro h
    exact baseDocument_of_revision hp hq happart h
  · rintro ⟨hdocument, hpassword⟩
    have hbase : baseRevisionFor E p.draft p.image = baseRevisionFor E q.draft q.image := by
      rw [baseRevisionFor_eq, baseRevisionFor_eq, hdocument]
    have hflag : p.draft.requirePassword = q.draft.requirePassword := hpassword
    rw [hp.revision, hq.revision]
    simp only [revisionFor, hbase, hflag]

/-! ## Reordering -/

/-- Two specifications of an argument that differ in the order of their choices at most. -/
inductive ArgumentReordered : ArgumentSpec → ArgumentSpec → Prop where
  | same (spec : ArgumentSpec) : ArgumentReordered spec spec
  | choices {choices choices' : List String} (h : choices.Perm choices') :
      ArgumentReordered (.choice choices) (.choice choices')

/-- Two credentials that differ in the order of their mappings at most. -/
def CredentialReordered (c c' : LoginCredentialDraft) : Prop :=
  c.fieldMappings.Perm c'.fieldMappings ∧ { c with fieldMappings := c'.fieldMappings } = c'

/-- Two drafts that differ in the order of their targets, choices, credentials and mappings at
most. -/
structure Reordered (d d' : OperationPolicyDraft) : Prop where
  targets : d.targets.Perm d'.targets
  arguments : List.Forall₂ ArgumentReordered d.arguments d'.arguments
  credentials : ∃ credentials, d.credentials.Perm credentials ∧
    List.Forall₂ CredentialReordered credentials d'.credentials
  others : { d with targets := d'.targets, arguments := d'.arguments, credentials := d'.credentials } = d'

/-- INTERNAL: sorting forgets the order of values that their keys tell apart. -/
theorem sortByKey_perm {α β : Type} [LinearOrder β] {key : α → β} {values values' : List α}
    (hperm : values.Perm values') (hkey : ∀ a ∈ values, ∀ b ∈ values, key a = key b → a = b) :
    sortByKey key values = sortByKey key values' := by
  have hsorted : (sortByKey key values).Perm (sortByKey key values') :=
    ((perm_sortByKey key values).trans hperm).trans (perm_sortByKey key values').symm
  refine hsorted.eq_of_pairwise (fun a b ha hb hab hba => ?_) (pairwise_sortByKey key values)
    (pairwise_sortByKey key values')
  have ha' := (perm_sortByKey key values).mem_iff.mp ha
  have hb' := hperm.mem_iff.mpr ((perm_sortByKey key values').mem_iff.mp hb)
  exact hkey a ha' b hb' (le_antisymm hab hba)

/-- INTERNAL: mappings are told by their keys. -/
theorem mappingKey_inj (m m' : LoginFieldMapping) (h : m.key = m'.key) : m = m' := by
  obtain ⟨field, environment⟩ := m
  obtain ⟨field', environment'⟩ := m'
  have hpair := Prod.mk.inj (toLex.injective h)
  obtain ⟨hfield, henvironment⟩ := hpair
  have hsame : field = field' := by
    cases field <;> cases field' <;> simp_all [LoginField.key]
  rw [hsame, show environment = environment' from henvironment]

theorem canonicalize_reordered {c c' : LoginCredentialDraft} (h : CredentialReordered c c') :
    c.canonicalize = c'.canonicalize := by
  have hmappings := sortByKey_perm h.1 fun a _ b _ => mappingKey_inj a b
  rw [← h.2]
  simp only [LoginCredentialDraft.canonicalize, hmappings]

/-- INTERNAL: sorting the credentials and their mappings in either order. -/
theorem canonicalCredentials_eq (credentials : List LoginCredentialDraft) :
    (sortByKey (·.itemId) credentials).map LoginCredentialDraft.canonicalize =
      sortByKey (·.itemId) (credentials.map LoginCredentialDraft.canonicalize) := by
  apply List.map_insertionSort (fun a b : LoginCredentialDraft => a.itemId ≤ b.itemId)
    (fun a b : LoginCredentialDraft => a.itemId ≤ b.itemId)
  intro a _ b _
  rfl

/-- INTERNAL: the items of a validated draft are distinct. -/
theorem items_nodup {d : OperationPolicyDraft} (h : validateDraft d = true) :
    (d.credentials.map (·.itemId)).Nodup := by
  cases hcreate : d.create with
  | none => exact (login_of_valid h hcreate).2
  | some create =>
    simp only [validateDraft, hcreate, Bool.and_eq_true, List.isEmpty_iff] at h
    have hnone : d.credentials = [] := h.1.1.1.2
    simp [hnone]

theorem map_eq_of_forall₂ {α β : Type} {R : α → α → Prop} {f : α → β} (hR : ∀ a b, R a b → f a = f b)
    {values values' : List α} (h : List.Forall₂ R values values') : values.map f = values'.map f := by
  induction h with
  | nil => rfl
  | cons hfirst _ ih => rw [List.map_cons, List.map_cons, ih, hR _ _ hfirst]

/-- INTERNAL: arguments that differ in the order of choices have one canonical form. -/
theorem canonicalize_argumentReordered (spec spec' : ArgumentSpec) (h : ArgumentReordered spec spec') :
    spec.canonicalize = spec'.canonicalize := by
  cases h with
  | same => rfl
  | @choices choices choices' hperm =>
    have hsorted : sortTexts choices = sortTexts choices' := sortByKey_perm hperm fun a _ b _ hab => hab
    simp only [ArgumentSpec.canonicalize, hsorted]

/-- **A reordered draft has the same canonical form.** -/
theorem canonicalizeDraft_reordered {d d' : OperationPolicyDraft} (hd : validateDraft d = true)
    (h : Reordered d d') : canonicalizeDraft d = canonicalizeDraft d' := by
  have htargets : sortTexts d.targets = sortTexts d'.targets :=
    sortByKey_perm h.targets fun a _ b _ hab => hab
  have harguments : d.arguments.map ArgumentSpec.canonicalize = d'.arguments.map ArgumentSpec.canonicalize :=
    map_eq_of_forall₂ canonicalize_argumentReordered h.arguments
  obtain ⟨credentials, hperm, hmappings⟩ := h.credentials
  have hsame : credentials.map LoginCredentialDraft.canonicalize =
      d'.credentials.map LoginCredentialDraft.canonicalize :=
    map_eq_of_forall₂ (fun _ _ hc => canonicalize_reordered hc) hmappings
  have hcredentials : (sortByKey (·.itemId) d.credentials).map LoginCredentialDraft.canonicalize =
      (sortByKey (·.itemId) d'.credentials).map LoginCredentialDraft.canonicalize := by
    rw [canonicalCredentials_eq, canonicalCredentials_eq, ← hsame]
    apply sortByKey_perm (hperm.map _)
    have hnodup : ((d.credentials.map LoginCredentialDraft.canonicalize).map (·.itemId)).Nodup := by
      rw [List.map_map]
      exact items_nodup hd
    intro a ha b hb hab
    exact List.inj_on_of_nodup_map hnodup ha hb hab
  rw [← h.others]
  simp only [canonicalizeDraft, htargets, harguments, hcredentials]

/-! ## The theorem -/

/-- INTERNAL: the draft of a policy is the canonical form of the draft it was built from. -/
theorem draft_of_fromDraft {E : Externals} {disk : Disk} {draft : OperationPolicyDraft}
    {approved : ApprovedImage} {p : OperationPolicy}
    (h : OperationPolicy.fromDraft E disk draft approved = some p) :
    validateDraft draft = true ∧ p = OperationPolicy.ofCanonical E (canonicalizeDraft draft) approved.resolved ∧
      p.draft = canonicalizeDraft draft := by
  unfold OperationPolicy.fromDraft at h
  split_ifs at h with hchecks
  simp only [Bool.and_eq_true, decide_eq_true_eq] at hchecks
  obtain rfl := Option.some.inj h
  have himage : draft.imageId = approved.resolved.imageId := hchecks.1.2
  refine ⟨hchecks.1.1, rfl, ?_⟩
  simp only [OperationPolicy.draft, OperationPolicy.ofCanonical, ← himage]
  rfl

/-- **What a revision stands for**: two policies built from drafts have one revision exactly if
they have one id, one image, one demand for a password and one authority in canonical form; and
a draft whose targets, choices, credentials or mappings stand in another order has the same.
SRCLINE: policy.rs:436-466, 999-1099 -/
theorem revisions_tell_authority (E : Externals) (disk disk' : Disk) (draft draft' : OperationPolicyDraft)
    (approved approved' : ApprovedImage) (p q : OperationPolicy)
    (hp : OperationPolicy.fromDraft E disk draft approved = some p)
    (hq : OperationPolicy.fromDraft E disk' draft' approved' = some q) (happart : TellsApart E p q) :
    (p.revision = q.revision ↔ p.id = q.id ∧ p.image = q.image ∧
      p.requirePassword = q.requirePassword ∧
      policyAuthority (canonicalizeDraft draft) = policyAuthority (canonicalizeDraft draft')) ∧
    (Reordered draft draft' → p.image = q.image → p.revision = q.revision) := by
  have hintact := (intact_of_fromDraft E disk draft approved p hp).1
  have hintact' := (intact_of_fromDraft E disk' draft' approved' q hq).1
  obtain ⟨hvalid, hbuilt, hdraft⟩ := draft_of_fromDraft hp
  obtain ⟨-, hbuilt', hdraft'⟩ := draft_of_fromDraft hq
  constructor
  · rw [revision_eq_iff hintact hintact' happart, ← hdraft, ← hdraft']
    constructor
    · rintro ⟨hdocument, hpassword⟩
      obtain ⟨hid, himage, hauthority⟩ := authority_of_baseDocument hdocument
      exact ⟨hid, himage, hpassword, hauthority⟩
    · rintro ⟨hid, himage, hpassword, hauthority⟩
      rw [himage]
      exact ⟨baseDocument_of_authority hintact.valid hintact'.valid hid hauthority, hpassword⟩
  · intro hreordered himage
    have hcanonical := canonicalizeDraft_reordered hvalid hreordered
    rw [hbuilt, hbuilt'] at himage ⊢
    have hresolved : approved.resolved = approved'.resolved := himage
    simp only [OperationPolicy.ofCanonical, hcanonical, hresolved]

/-! ## A draft in two orders -/

namespace Projected

/-- Logins with two targets, in the order given. -/
def draft (targets : List String) : OperationPolicyDraft where
  id := "deploy"
  description := "Deploy"
  imageId := "tool"
  targets := targets
  arguments := [.target]
  credentials := [⟨"2f1c8a40-6d3e-4b57-9c21-08e5f7a1b6d4", "deploy", .login, [⟨.password, "TOKEN"⟩], none⟩]
  ssh := none
  create := none
  requirePassword := false

def policy (E : Externals) : OperationPolicy :=
  OperationPolicy.ofCanonical E (draft ["production", "staging"]) (Sample.image E).resolved

/-- INTERNAL: both orders are accepted and make one policy. -/
theorem fromDraft_draft (E : Externals) (targets : List String) (hvalid : validateDraft (draft targets) = true)
    (hcanonical : canonicalizeDraft (draft targets) = draft ["production", "staging"]) :
    OperationPolicy.fromDraft E Sample.disk (draft targets) (Sample.image E) = some (policy E) := by
  unfold OperationPolicy.fromDraft
  rw [hvalid, Sample.image_intact, hcanonical]
  rfl

/-- The SHA-256 digests of the executable, of the document of the policy and of the document that
would add a password, told apart by their lengths. -/
def externals : Externals where
  sha256 data := match data.length with
    | 16 => Sample.externals.sha256 data
    | 434 => #v[57, 239, 130, 188, 183, 157, 239, 198, 74, 162, 53, 2, 203, 168, 55, 199,
        249, 145, 77, 56, 50, 36, 89, 118, 111, 30, 234, 115, 22, 63, 76, 1]
    | _ => #v[119, 162, 93, 170, 210, 155, 213, 135, 178, 7, 180, 23, 179, 173, 39, 53,
        57, 53, 224, 29, 228, 227, 28, 37, 160, 252, 229, 189, 16, 4, 17, 74]
  verifyingKey _ := false
  verifyStrict _ _ _ := false

/-- INTERNAL: the hash tells the documents of the policy apart. -/
theorem tellsApart : TellsApart externals (policy externals) (policy externals) := by
  have hdifferent : externals.sha256 (baseDocument (policy externals).draft (policy externals).image).toVec ≠
      externals.sha256 (passwordDocument
        (baseRevisionFor externals (policy externals).draft (policy externals).image)).toVec := by
    decide +kernel
  intro a ha b hb heq
  simp only [revisionDocuments, List.mem_cons, List.not_mem_nil, or_false] at ha hb
  rcases ha with rfl | rfl
  · rcases hb with rfl | rfl
    · rfl
    · exact absurd heq hdifferent
  · rcases hb with rfl | rfl
    · exact absurd heq.symm hdifferent
    · rfl

end Projected

/-- **The targets in another order** are the same authority under the same revision. -/
theorem revisions_tell_authority_reordered :
    policyAuthority (canonicalizeDraft (Projected.draft ["staging", "production"])) =
      policyAuthority (canonicalizeDraft (Projected.draft ["production", "staging"])) := by
  have hsorted := Projected.fromDraft_draft Projected.externals ["production", "staging"]
    (by decide +kernel) rfl
  have hswapped := Projected.fromDraft_draft Projected.externals ["staging", "production"]
    (by decide +kernel) (by decide +kernel)
  have htheorem := revisions_tell_authority Projected.externals Sample.disk Sample.disk _ _ _ _ _ _
    hswapped hsorted Projected.tellsApart
  have hreordered : Reordered (Projected.draft ["staging", "production"])
      (Projected.draft ["production", "staging"]) := by
    refine ⟨List.Perm.swap _ _ _, .cons (.same _) .nil, ⟨_, .refl _, .cons ⟨.refl _, rfl⟩ .nil⟩, rfl⟩
  exact (htheorem.1.mp (htheorem.2 hreordered rfl)).2.2.2

end VaultAccess.Analysis
