import VaultAccess.Model.Policy
import Mathlib.Data.List.Perm.Basic

/-!
# Canonical policies

A validated draft has a canonical form that is validated again and is its own
canonical form, so a policy built from a draft passes its integrity check and is
read back unchanged. What a policy shows to a reviewer passes the checks of a
stored review.
-/

set_option autoImplicit false

namespace VaultAccess.Analysis

open VaultAccess.Library VaultAccess.Library.Text VaultAccess.Model

/-! ## Normal forms of hosts and fingerprints -/

theorem toAsciiLowercase_eq_iff (c d : Char) (hd : d.toNat < 65 ∨ 122 < d.toNat) :
    toAsciiLowercase c = d ↔ c = d := by
  have hlower := toNat_toAsciiLowercase c
  rw [← Char.toNat_inj, ← Char.toNat_inj, hlower]
  split_ifs <;> omega

/-- INTERNAL: lowercasing twice is lowercasing once. -/
theorem toAsciiLowercase_idem (c : Char) :
    toAsciiLowercase (toAsciiLowercase c) = toAsciiLowercase c := by
  have h₁ := toNat_toAsciiLowercase (toAsciiLowercase c)
  have h₂ := toNat_toAsciiLowercase c
  rw [← Char.toNat_inj]
  split_ifs at h₁ h₂ <;> omega

/-- INTERNAL: lowercasing keeps the encoded size. -/
theorem utf8ByteSize_map_toAsciiLowercase (l : List Char) :
    (String.ofList (l.map toAsciiLowercase)).utf8ByteSize = (String.ofList l).utf8ByteSize := by
  have hsize : ∀ c : Char, (toAsciiLowercase c).utf8Size = c.utf8Size := by
    intro c
    unfold toAsciiLowercase
    split_ifs with hupper
    · have hrange := (isAsciiUppercase_iff c).mp hupper
      have hvalid : (c.toNat + 32).isValidChar := Or.inl (by omega)
      have hsmall : ∀ d : Char, d.toNat ≤ 127 → d.utf8Size = 1 := by
        intro d hd
        have hle : d.val ≤ 127 := hd
        exact if_pos hle
      have hnat : (Char.ofNat (c.toNat + 32)).toNat = c.toNat + 32 := by
        rw [Char.ofNat, dif_pos hvalid]
        rfl
      rw [hsmall c (by omega), hsmall _ (by omega)]
    · rfl
  rw [utf8ByteSize_ofList, utf8ByteSize_ofList, List.map_map]
  congr 2
  funext c
  exact hsize c

theorem isAsciiAlphanumeric_toAsciiLowercase (c : Char) (h : isAsciiAlphanumeric c = true) :
    isAsciiAlphanumeric (toAsciiLowercase c) = true := by
  rw [isAsciiAlphanumeric_iff] at h ⊢
  have hlower := toNat_toAsciiLowercase c
  split_ifs at hlower <;> omega

/-- INTERNAL: a label of a host stays one in lowercase. -/
theorem hostLabel_toAsciiLowercase (label : List Char) (h : hostLabel label = true) :
    hostLabel (label.map toAsciiLowercase) = true := by
  simp only [hostLabel, Bool.and_eq_true, Bool.not_eq_true', decide_eq_true_eq,
    List.all_eq_true, Bool.or_eq_true] at h ⊢
  obtain ⟨⟨⟨⟨hne, hsize⟩, hhead⟩, hlast⟩, hall⟩ := h
  have hany : ∀ o : Option Char, o.any isAsciiAlphanumeric = true →
      (o.map toAsciiLowercase).any isAsciiAlphanumeric = true := by
    intro o ho
    cases o with
    | none => simp at ho
    | some c => exact isAsciiAlphanumeric_toAsciiLowercase c ho
  refine ⟨⟨⟨⟨by simpa using hne, ?_⟩, ?_⟩, ?_⟩, ?_⟩
  · rwa [utf8ByteSize_map_toAsciiLowercase]
  · rw [List.head?_map]
    exact hany _ hhead
  · rw [List.getLast?_map]
    exact hany _ hlast
  · intro c hc
    obtain ⟨d, hd, rfl⟩ := List.mem_map.mp hc
    exact (hall d hd).imp (isAsciiAlphanumeric_toAsciiLowercase d)
      (fun hdash => (toAsciiLowercase_eq_iff d '-' (by decide)).mpr hdash)

/-- INTERNAL: lowercasing makes no part numeric. -/
theorem numericPart_of_toAsciiLowercase (part : List Char)
    (h : numericPart (part.map toAsciiLowercase) = true) : numericPart part = true := by
  have hdigit : ∀ c, isAsciiDigit (toAsciiLowercase c) = true → isAsciiDigit c = true := by
    intro c hc
    rw [isAsciiDigit_iff] at hc ⊢
    have hlower := toNat_toAsciiLowercase c
    split_ifs at hlower <;> omega
  have hhex : ∀ c, isAsciiHexdigit (toAsciiLowercase c) = true → isAsciiHexdigit c = true := by
    intro c hc
    rw [isAsciiHexdigit_iff] at hc ⊢
    have hlower := toNat_toAsciiLowercase c
    split_ifs at hlower <;> omega
  have hx : ∀ c, toAsciiLowercase c = 'x' ∨ toAsciiLowercase c = 'X' → c = 'x' ∨ c = 'X' := by
    intro c hc
    have hlower := toNat_toAsciiLowercase c
    simp only [← Char.toNat_inj] at hc ⊢
    rw [hlower] at hc
    have h1 : 'x'.toNat = 120 := rfl
    have h2 : 'X'.toNat = 88 := rfl
    split_ifs at hc <;> omega
  unfold numericPart at h ⊢
  rw [Bool.or_eq_true] at h ⊢
  rcases h with hall | hstarted
  · refine Or.inl (List.all_eq_true.mpr fun c hc => hdigit c ?_)
    exact List.all_eq_true.mp hall _ (List.mem_map_of_mem hc)
  · refine Or.inr ?_
    cases part with
    | nil => simp at hstarted
    | cons zero part =>
      cases part with
      | nil => simp at hstarted
      | cons x rest =>
        simp only [List.map_cons] at hstarted
        split at hstarted
        · rename_i x' rest' heq
          simp only [List.cons.injEq] at heq
          obtain ⟨hzero, rfl, rfl⟩ := heq
          have hz : zero = '0' := (toAsciiLowercase_eq_iff zero '0' (by decide)).mp hzero
          subst hz
          simp only [Bool.and_eq_true, Bool.or_eq_true, decide_eq_true_eq, Bool.not_eq_true',
            List.all_eq_true] at hstarted ⊢
          obtain ⟨⟨hmark, hne⟩, hdigits⟩ := hstarted
          refine ⟨⟨hx x hmark, by simpa using hne⟩, fun c hc => hhex c ?_⟩
          exact hdigits _ (List.mem_map_of_mem hc)
        · simp at hstarted

/-- INTERNAL: a host name stays one in lowercase. -/
theorem hostName_toAsciiLowercase (host : List Char) (h : hostName host = true) :
    hostName (host.map toAsciiLowercase) = true := by
  have hsplit : split '.' (host.map toAsciiLowercase) =
      (split '.' host).map (List.map toAsciiLowercase) :=
    split_map '.' toAsciiLowercase (fun c => toAsciiLowercase_eq_iff c '.' (by decide)) host
  simp only [hostName, Bool.and_eq_true, Bool.not_eq_true', decide_eq_true_eq] at h ⊢
  obtain ⟨⟨⟨hne, hsize⟩, hnumeric⟩, hlabels⟩ := h
  refine ⟨⟨⟨by simpa using hne, ?_⟩, ?_⟩, ?_⟩
  · rwa [utf8ByteSize_map_toAsciiLowercase]
  · rw [hsplit]
    rw [List.all_eq_false] at hnumeric ⊢
    obtain ⟨part, hpart, hnot⟩ := hnumeric
    exact ⟨part.map toAsciiLowercase, List.mem_map_of_mem hpart,
      fun hlow => hnot (numericPart_of_toAsciiLowercase part hlow)⟩
  · rw [hsplit, List.all_eq_true]
    intro part hpart
    obtain ⟨label, hlabel, rfl⟩ := List.mem_map.mp hpart
    exact hostLabel_toAsciiLowercase label (List.all_eq_true.mp hlabels label hlabel)

/-- INTERNAL: a host name has no trailing dot. -/
theorem stripDot_of_hostName (host : List Char) (h : hostName host = true) : stripDot host = host := by
  unfold stripDot
  split_ifs with hlast
  · have hempty : [] ∈ split '.' host := List.mem_of_getLast? (getLast?_split '.' host hlast)
    simp only [hostName, Bool.and_eq_true] at h
    have hlabel := List.all_eq_true.mp h.2 [] hempty
    simp [hostLabel] at hlabel
  · rfl

/-- INTERNAL: a host name is no address. -/
theorem parse_of_hostName (host : List Char) (h : hostName host = true) :
    IpAddr.parse host = none := by
  cases hparse : IpAddr.parse host with
  | none => rfl
  | some ip =>
    exfalso
    simp only [hostName, Bool.and_eq_true, Bool.not_eq_true'] at h
    obtain ⟨⟨-, hnumeric⟩, hlabels⟩ := h
    rcases IpAddr.parse_chars host ip hparse with hcolon | hdigits
    · obtain ⟨part, hpart, hmem⟩ := (mem_split_iff '.' host ':').mpr ⟨hcolon, by decide⟩
      have hlabel := List.all_eq_true.mp hlabels part hpart
      simp only [hostLabel, Bool.and_eq_true] at hlabel
      have hc := List.all_eq_true.mp hlabel.2 ':' hmem
      exact absurd hc (by decide)
    · obtain ⟨part, hpart, hnot⟩ := List.all_eq_false.mp hnumeric
      have hall : part.all isAsciiDigit = true := by
        rw [List.all_eq_true]
        intro c hc
        obtain ⟨hmem, hdot⟩ := (mem_split_iff '.' host c).mp ⟨part, hpart, hc⟩
        exact (hdigits c hmem).resolve_right hdot
      exact hnot (by simp [numericPart, hall])

/-- **A normalized host is its own normal form.** -/
theorem normalizeHost_idem (value host : String) (h : normalizeHost value = some host) :
    normalizeHost host = some host := by
  unfold normalizeHost at h
  split at h
  · rename_i ip hparse
    simp only [Option.some.injEq] at h
    subst h
    have hround := IpAddr.parse_display ip (IpAddr.parse_wellFormed value.toList ip hparse)
    simp [normalizeHost, hround]
  · simp only at h
    split_ifs at h with hname
    simp only [Option.some.injEq] at h
    subst h
    have hlower := hostName_toAsciiLowercase _ hname
    have hidem : ((stripDot value.toList).map toAsciiLowercase).map toAsciiLowercase =
        (stripDot value.toList).map toAsciiLowercase := by
      rw [List.map_map]
      exact List.map_congr_left fun c _ => toAsciiLowercase_idem c
    simp [normalizeHost, parse_of_hostName _ hlower, stripDot_of_hostName _ hlower, hlower, hidem]

/-- **A normalized fingerprint is its own normal form.** -/
theorem normalizeFingerprint_idem (value fingerprint : String)
    (h : normalizeFingerprint value = some fingerprint) :
    normalizeFingerprint fingerprint = some fingerprint := by
  unfold normalizeFingerprint at h
  simp only [Option.bind_eq_bind, Option.bind_eq_some_iff] at h
  obtain ⟨encoded, -, bytes, -, h⟩ := h
  split_ifs at h with hlen
  simp only [Option.some.injEq] at h
  subst h
  have hdrop : (fingerprintMarker ++ String.ofList (Base64.encode Base64.standard bytes)).toList.dropPrefix?
      fingerprintMarker.toList = some (Base64.encode Base64.standard bytes) := by
    rw [String.toList_append, String.toList_ofList]
    exact List.dropPrefix?_append_of_beq _ (by simp)
  unfold normalizeFingerprint
  rw [hdrop]
  simp [Base64.decode_encode, hlen]

/-! ## Canonical drafts -/

/-- INTERNAL: an argument stays valid in canonical form. -/
theorem validArgument_canonicalize (a : ArgumentSpec) :
    validArgument a.canonicalize = validArgument a := by
  cases a with
  | target => rfl
  | integer minimum maximum => rfl
  | choice choices =>
    have hperm : (sortTexts choices).Perm choices := perm_sortByKey id choices
    simp only [ArgumentSpec.canonicalize, validArgument, hperm.isEmpty_eq, hperm.length_eq,
      hperm.all_eq, hasDuplicates_perm _ _ hperm]

/-- INTERNAL: the arguments of a draft stay valid in canonical form. -/
theorem validArguments_canonicalize (l : List ArgumentSpec) :
    validArguments (l.map ArgumentSpec.canonicalize) = validArguments l := by
  have htarget : ArgumentSpec.isTarget ∘ ArgumentSpec.canonicalize = ArgumentSpec.isTarget := by
    funext a
    cases a <;> rfl
  have hvalid : validArgument ∘ ArgumentSpec.canonicalize = validArgument := by
    funext a
    exact validArgument_canonicalize a
  unfold validArguments
  rw [List.filter_map, List.length_map, List.all_map, htarget, hvalid]

/-- INTERNAL: a credential stays valid in canonical form. -/
theorem validCredential_canonicalize (c : LoginCredentialDraft) :
    validCredential c.canonicalize = validCredential c := by
  have hperm : c.canonicalize.fieldMappings.Perm c.fieldMappings :=
    perm_sortByKey LoginFieldMapping.key c.fieldMappings
  unfold validCredential uniqueFields uniqueEnvironments
  rw [hperm.isEmpty_eq, hperm.length_eq, hperm.all_eq, hasDuplicates_perm _ _ (hperm.map _),
    hasDuplicates_perm _ _ (hperm.map _)]
  rfl

/-- The credentials of a canonical draft. -/
abbrev canonicalCredentials (l : List LoginCredentialDraft) : List LoginCredentialDraft :=
  (sortByKey (·.itemId) l).map LoginCredentialDraft.canonicalize

/-- INTERNAL: the credentials of a draft stay valid in canonical form. -/
theorem validCredentials_canonicalize (l : List LoginCredentialDraft) :
    validCredentials (canonicalCredentials l) = validCredentials l := by
  have hperm : (sortByKey (·.itemId) l).Perm l := perm_sortByKey _ l
  have henv : ((canonicalCredentials l).flatMap (·.fieldMappings)).Perm
      (l.flatMap (·.fieldMappings)) := by
    rw [List.flatMap_map]
    exact hperm.flatMap fun c _ => perm_sortByKey LoginFieldMapping.key c.fieldMappings
  have hids : (canonicalCredentials l).map (·.itemId) = (sortByKey (·.itemId) l).map (·.itemId) := by
    rw [List.map_map]
    rfl
  have hall : ∀ p : LoginCredentialDraft → Bool, (∀ c, p c.canonicalize = p c) →
      (canonicalCredentials l).all p = l.all p := by
    intro p hp
    have hcomp : p ∘ LoginCredentialDraft.canonicalize = p := funext hp
    rw [List.all_map, hcomp, hperm.all_eq]
  unfold validCredentials uniqueCredentialEnvironments
  rw [hall _ (fun _ => rfl), hall _ validCredential_canonicalize, hids,
    hasDuplicates_perm _ _ (hperm.map _), hasDuplicates_perm _ _ (henv.map _)]

/-- INTERNAL: the destination of a validated SSH operation stays valid in canonical form,
and is then in normal form. -/
theorem validSshReview_canonicalize (s : SshOperation)
    (h : validSshReview s.workingDirectory s.destination = true) :
    s.canonicalize.review.valid = true := by
  simp only [validSshReview, Bool.and_eq_true, decide_eq_true_eq] at h
  obtain ⟨⟨⟨⟨⟨⟨⟨⟨hdir, hpath⟩, hhost⟩, hport⟩, huser⟩, hlen⟩, hfirst⟩, hchars⟩, hfinger⟩ := h
  obtain ⟨host, hhost⟩ := Option.isSome_iff_exists.mp hhost
  obtain ⟨fingerprint, hfinger⟩ := Option.isSome_iff_exists.mp hfinger
  have hhost' := normalizeHost_idem _ _ hhost
  have hfinger' := normalizeFingerprint_idem _ _ hfinger
  simp only [SshReview.valid, SshOperation.review, SshOperation.canonicalize, validSshReview,
    hhost, hfinger, Option.getD_some, hhost', hfinger', hdir, hpath, huser, hlen, hfirst, hchars]
  simpa using hport

theorem canonicalize_of_valid (s : SshOperation) (h : s.review.valid = true) :
    s.canonicalize = s := by
  simp only [SshReview.valid, SshOperation.review, Bool.and_eq_true] at h
  obtain ⟨⟨-, hhost⟩, hfinger⟩ := h
  simp [SshOperation.canonicalize, of_decide_eq_true hhost, of_decide_eq_true hfinger]

/-- **A validated draft stays valid in canonical form.** -/
theorem validateDraft_canonicalize (d : OperationPolicyDraft) (h : validateDraft d = true) :
    validateDraft (canonicalizeDraft d) = true := by
  have hheading : validHeading (canonicalizeDraft d) = validHeading d := rfl
  have hperm : (canonicalizeDraft d).targets.Perm d.targets := perm_sortByKey id d.targets
  have hargs : (canonicalizeDraft d).arguments.isEmpty = d.arguments.isEmpty := by
    simp [canonicalizeDraft]
  have hcreds : (canonicalizeDraft d).credentials.isEmpty = d.credentials.isEmpty := by
    simp [canonicalizeDraft, (perm_sortByKey (·.itemId) d.credentials).isEmpty_eq]
  have hcreate : (canonicalizeDraft d).create = d.create := rfl
  have hssh : (canonicalizeDraft d).ssh = d.ssh.map SshOperation.canonicalize := rfl
  unfold validateDraft at h ⊢
  rw [hcreate, hssh]
  cases hc : d.create with
  | some create =>
    simp only [hc, hheading, hcreds, hperm.isEmpty_eq, hargs, Option.isNone_map] at h ⊢
    exact h
  | none =>
    cases hs : d.ssh with
    | some ssh =>
      simp only [hc, hs, Option.map_some, hheading, hcreds, hperm.isEmpty_eq, hargs,
        Bool.and_eq_true] at h ⊢
      have hvalid := validSshReview_canonicalize ssh h.2
      simp only [SshReview.valid, Bool.and_eq_true] at hvalid
      exact ⟨h.1, hvalid.1.1⟩
    | none =>
      have hcredsLength : (canonicalizeDraft d).credentials.length = d.credentials.length := by
        simp [canonicalizeDraft, (perm_sortByKey (·.itemId) d.credentials).length_eq]
      have hargsLength : (canonicalizeDraft d).arguments.length = d.arguments.length := by
        simp [canonicalizeDraft]
      have harguments : validArguments (canonicalizeDraft d).arguments = validArguments d.arguments :=
        validArguments_canonicalize d.arguments
      have hcredentials : validCredentials (canonicalizeDraft d).credentials =
          validCredentials d.credentials := validCredentials_canonicalize d.credentials
      simp only [hc, hs, Option.map_none, hheading, hcreds, hperm.isEmpty_eq, hperm.length_eq,
        hperm.all_eq, hasDuplicates_perm _ _ hperm, hcredsLength, hargsLength, harguments,
        hcredentials] at h ⊢
      exact h

/-- INTERNAL: canonical arguments are their own canonical form. -/
theorem argument_canonicalize_idem (a : ArgumentSpec) : a.canonicalize.canonicalize = a.canonicalize := by
  cases a with
  | target => rfl
  | integer minimum maximum => rfl
  | choice choices =>
    simp only [ArgumentSpec.canonicalize, sortTexts, sortByKey_idem]

/-- INTERNAL: canonical credentials are their own canonical form. -/
theorem canonicalCredentials_idem (l : List LoginCredentialDraft) :
    canonicalCredentials (canonicalCredentials l) = canonicalCredentials l := by
  have hsorted : (canonicalCredentials l).Pairwise fun a b => a.itemId ≤ b.itemId := by
    rw [List.pairwise_map]
    exact pairwise_sortByKey (·.itemId) l
  have hidem : ∀ c : LoginCredentialDraft, c.canonicalize.canonicalize = c.canonicalize := by
    intro c
    simp only [LoginCredentialDraft.canonicalize, sortByKey_idem]
  rw [canonicalCredentials, sortByKey_of_pairwise _ _ hsorted, List.map_map]
  exact List.map_congr_left fun c _ => hidem c

/-- **The canonical form of a validated draft is its own canonical form.** -/
theorem canonicalizeDraft_idem (d : OperationPolicyDraft) (h : validateDraft d = true) :
    canonicalizeDraft (canonicalizeDraft d) = canonicalizeDraft d := by
  have hssh : (canonicalizeDraft d).ssh.map SshOperation.canonicalize = (canonicalizeDraft d).ssh := by
    unfold validateDraft at h
    cases hs : d.ssh with
    | none => simp [canonicalizeDraft, hs]
    | some ssh =>
      cases hc : d.create with
      | some create => simp [hc, hs] at h
      | none =>
        simp only [hc, hs, Bool.and_eq_true] at h
        have hcanon := canonicalize_of_valid ssh.canonicalize (validSshReview_canonicalize ssh h.2)
        simp [canonicalizeDraft, hs, hcanon]
  have htargets : sortTexts (sortTexts d.targets) = sortTexts d.targets := sortByKey_idem id d.targets
  have hargs : (d.arguments.map ArgumentSpec.canonicalize).map ArgumentSpec.canonicalize =
      d.arguments.map ArgumentSpec.canonicalize := by
    rw [List.map_map]
    exact List.map_congr_left fun a _ => argument_canonicalize_idem a
  have hcreds := canonicalCredentials_idem d.credentials
  unfold canonicalizeDraft at hssh ⊢
  simp only [OperationPolicyDraft.mk.injEq, true_and, and_true]
  exact ⟨htargets, hargs, hcreds, hssh⟩

/-! ## Policies built from drafts -/

/-- What `from_draft` guarantees of a policy, apart from the image on the disk. -/
structure Intact (E : Externals) (p : OperationPolicy) : Prop where
  valid : validateDraft p.draft = true
  canonical : canonicalizeDraft p.draft = p.draft
  revision : p.revision = revisionFor E p.draft p.image

/-- INTERNAL: an intact policy is rebuilt as it is. -/
theorem rebuilt_of_intact (E : Externals) (disk : Disk) (p : OperationPolicy) (h : Intact E p)
    (himage : p.image.approved.validateIntegrity E disk = true) : p.rebuilt E disk = some p := by
  have hid : p.draft.imageId = p.image.approved.id := rfl
  have hself : OperationPolicy.ofCanonical E p.draft p.image.approved.resolved = p := by
    have hrev : revisionFor E p.draft p.image.approved.resolved = p.revision := h.revision.symm
    unfold OperationPolicy.ofCanonical
    rw [hrev]
    rfl
  simp [OperationPolicy.rebuilt, OperationPolicy.fromDraft, himage, h.valid, hid, h.canonical, hself]

/-- **An intact policy with an intact image passes its integrity check.** -/
theorem validateIntegrity_of_intact (E : Externals) (disk : Disk) (p : OperationPolicy)
    (h : Intact E p) (himage : p.image.approved.validateIntegrity E disk = true) :
    p.validateIntegrity E disk = true := by
  simp [OperationPolicy.validateIntegrity, rebuilt_of_intact E disk p h himage]

/-- **An intact policy with an intact image is read back unchanged.** -/
theorem tryFrom_of_intact (E : Externals) (disk : Disk) (p : OperationPolicy)
    (h : Intact E p) (himage : p.image.approved.validateIntegrity E disk = true) :
    p.tryFrom E disk = some p := by
  simp [OperationPolicy.tryFrom, rebuilt_of_intact E disk p h himage]

/-- **A policy built from a draft is intact and carries the image it resolved.** -/
theorem intact_of_fromDraft (E : Externals) (disk : Disk) (draft : OperationPolicyDraft)
    (approved : ApprovedImage) (p : OperationPolicy)
    (h : OperationPolicy.fromDraft E disk draft approved = some p) :
    Intact E p ∧ p.image = approved.resolved ∧ p.id = draft.id := by
  unfold OperationPolicy.fromDraft at h
  split_ifs at h with hchecks
  simp only [Bool.and_eq_true, decide_eq_true_eq] at hchecks
  obtain ⟨⟨hvalid, hid⟩, himage⟩ := hchecks
  simp only [Option.some.injEq] at h
  subst h
  have hdraft : (OperationPolicy.ofCanonical E (canonicalizeDraft draft) approved.resolved).draft =
      canonicalizeDraft draft := by
    have hcanon : (canonicalizeDraft draft).imageId = approved.resolved.imageId := hid
    simp only [OperationPolicy.draft, OperationPolicy.ofCanonical, ← hcanon]
  refine ⟨⟨?_, ?_, ?_⟩, rfl, rfl⟩
  · rw [hdraft]
    exact validateDraft_canonicalize draft hvalid
  · rw [hdraft]
    exact canonicalizeDraft_idem draft hvalid
  · rw [hdraft]
    rfl

/-- INTERNAL: the kinds of a validated draft. -/
theorem validateDraft_heading (d : OperationPolicyDraft) (h : validateDraft d = true) :
    validHeading d = true := by
  unfold validateDraft at h
  cases hc : d.create with
  | some create =>
    simp only [hc, Bool.and_eq_true] at h
    exact h.1.1.1.1.1
  | none =>
    cases hs : d.ssh with
    | some ssh =>
      simp only [hc, hs, Bool.and_eq_true] at h
      exact h.1.1.1.1.1.1.1
    | none =>
      simp only [hc, hs, Bool.and_eq_true] at h
      exact h.1.1.1.1.1.1.1.1.1

/-- INTERNAL: revisions are digests. -/
theorem validSha256_revisionFor (E : Externals) (d : OperationPolicyDraft) (image : ResolvedImage) :
    validSha256 (revisionFor E d image) = true := by
  have hbase : validSha256 (baseRevisionFor E d image) = true := by
    unfold baseRevisionFor
    split_ifs
    · exact validSha256_hexSha256 E _
    · split <;> exact validSha256_hexSha256 E _
  unfold revisionFor
  simp only
  split_ifs
  · exact validSha256_hexSha256 E _
  · exact hbase

end VaultAccess.Analysis
