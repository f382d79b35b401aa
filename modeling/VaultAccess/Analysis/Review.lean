import VaultAccess.Library.Lists
import VaultAccess.Analysis.Policy
import VaultAccess.Model.DirectRequest

/-!
# Reviews of policies

Whatever an intact policy shows for accepted arguments passes every check of a
stored review: texts are short and without control characters, counts are within
bounds, digests are digests.
-/

set_option autoImplicit false

namespace VaultAccess.Analysis

open VaultAccess.Library VaultAccess.Library.Text VaultAccess.Model

/-! ## Texts -/

/-- INTERNAL: a value of printable characters is a review text. -/
theorem reviewText_of_validValue (v : String) (h : validValue v 256 = true) :
    reviewText v = true := by
  simp only [validValue, Bool.and_eq_true] at h
  obtain ⟨hshort, hgraphic⟩ := h
  have hcontrol : v.toList.any isControl = false := by
    rw [List.any_eq_false]
    intro c hc
    have hc' := isControl_of_isAsciiGraphic c (List.all_eq_true.mp hgraphic c hc)
    simp [hc']
  simp only [reviewText, Bool.and_eq_true, hcontrol, Bool.not_false, and_true]
  exact hshort

theorem reviewText_of_validDisplayText (v : String) (h : validDisplayText v 256 = true) :
    reviewText v = true := by
  simp only [validDisplayText, Bool.and_eq_true] at h
  simp only [reviewText, Bool.and_eq_true]
  exact ⟨h.1.1, h.2⟩

/-- INTERNAL: a canonical path is a review text. -/
theorem reviewText_of_canonicalPath (v : String) (h : canonicalPath v = true) :
    reviewText v = true := by
  simp only [canonicalPath, Bool.and_eq_true] at h
  obtain ⟨hshort, hsegments⟩ := h
  have hcontrol : v.toList.any isControl = false := by
    rw [List.any_eq_false]
    intro c hc
    by_cases hslash : c = '/'
    · subst hslash
      decide
    · obtain ⟨part, hpart, hmem⟩ := (mem_split_iff '/' v.toList c).mpr ⟨hc, hslash⟩
      have hsegment := List.all_eq_true.mp hsegments part hpart
      simp only [canonicalSegment, Bool.and_eq_true] at hsegment
      have hclass := List.all_eq_true.mp hsegment.1.1.2 c hmem
      simp only [Bool.or_eq_true, decide_eq_true_eq, isAsciiLowercase_iff, isAsciiDigit_iff] at hclass
      rw [isControl_iff]
      rcases hclass with (hlower | hdigit) | rfl
      · omega
      · omega
      · decide
  simp only [reviewText, Bool.and_eq_true, hcontrol, Bool.not_false, and_true]
  exact hshort

/-- INTERNAL: the decimal text of a 64-bit integer is a review text. -/
theorem reviewText_int64 (n : Int64) : reviewText (toString n.toInt) = true := by
  have hlt := Int64.toInt_lt n
  have hle := Int64.le_toInt n
  have hlist := toList_toString_int n.toInt
  have hchars : ∀ c ∈ (toString n.toInt).toList, isAsciiDigit c = true ∨ c = '-' := by
    intro c hc
    rw [hlist] at hc
    split_ifs at hc
    · rcases List.mem_cons.mp hc with rfl | hmem
      · exact Or.inr rfl
      · exact Or.inl (isAsciiDigit_of_mem_toDigits _ c hmem)
    · exact Or.inl (isAsciiDigit_of_mem_toDigits _ c hc)
  have hdigits : (Nat.toDigits 10 n.toInt.natAbs).length ≤ 19 := by
    rw [Nat.length_toDigits_le_iff (by decide) (by decide)]
    omega
  have hlength : (toString n.toInt).toList.length ≤ 20 := by
    rw [hlist]
    split_ifs
    · rw [List.length_cons]
      omega
    · omega
  have hne : (toString n.toInt).toList ≠ [] := by
    rw [hlist]
    split_ifs
    · simp
    · exact Nat.toDigits_ne_nil
  have hsize : (toString n.toInt).utf8ByteSize = (toString n.toInt).toList.length := by
    have hascii : ∀ c ∈ (toString n.toInt).toList, c.toNat < 128 := by
      intro c hc
      rcases hchars c hc with hd | rfl
      · have := (isAsciiDigit_iff c).mp hd
        omega
      · decide
    have := utf8ByteSize_of_ascii _ hascii
    rwa [String.ofList_toList] at this
  have hcontrol : (toString n.toInt).toList.any isControl = false := by
    rw [List.any_eq_false]
    intro c hc
    rcases hchars c hc with hd | rfl
    · have := (isAsciiDigit_iff c).mp hd
      rw [isControl_iff]
      omega
    · decide
  have hnonempty : (toString n.toInt).isEmpty = false := by
    rw [Bool.eq_false_iff, ne_eq, String.isEmpty_iff]
    intro hempty
    rw [hempty] at hne
    exact hne rfl
  simp only [reviewText, hnonempty, hcontrol, hsize, Bool.not_false, Bool.true_and, Bool.and_true,
    decide_eq_true_eq]
  omega

/-! ## Arguments -/

/-- INTERNAL: what one accepted value becomes is a review text. -/
theorem reviewText_normalizeArg (p : OperationPolicy) (spec : ArgumentSpec) (value arg : String)
    (htargets : ∀ t ∈ p.targets, validValue t 256 = true) (hspec : validArgument spec = true)
    (haccepted : p.validatesArg spec value = true) (h : normalizeArg spec value = some arg) :
    reviewText arg = true := by
  cases spec with
  | target =>
    simp only [normalizeArg, Option.some.injEq] at h
    subst h
    exact reviewText_of_validValue _ (htargets _ (Search.mem_of_binarySearch haccepted))
  | choice choices =>
    simp only [normalizeArg, Option.some.injEq] at h
    subst h
    simp only [validArgument, Bool.and_eq_true] at hspec
    have hmem : value ∈ choices := Search.mem_of_binarySearch haccepted
    exact reviewText_of_validValue _ (List.all_eq_true.mp hspec.1.2 value hmem)
  | integer minimum maximum =>
    simp only [normalizeArg, Option.map_eq_some_iff] at h
    obtain ⟨n, -, rfl⟩ := h
    exact reviewText_int64 n

/-- INTERNAL: what a validated draft bounds, whatever its kind. -/
theorem arguments_bounds (d : OperationPolicyDraft) (h : validateDraft d = true) :
    d.arguments.length ≤ 32 ∧ (∀ a ∈ d.arguments, validArgument a = true) ∧
      (∀ t ∈ d.targets, validValue t 256 = true) ∧ (d.ssh.isSome = true → d.arguments = []) := by
  unfold validateDraft at h
  cases hc : d.create with
  | some create =>
    simp only [hc, Bool.and_eq_true, List.isEmpty_iff] at h
    have hargs : d.arguments = [] := h.1.2
    have htargets : d.targets = [] := h.1.1.2
    simp [hargs, htargets]
  | none =>
    cases hs : d.ssh with
    | some ssh =>
      simp only [hc, hs, Bool.and_eq_true, List.isEmpty_iff] at h
      have hargs : d.arguments = [] := h.1.1.1.1.1.2
      have htargets : d.targets = [] := h.1.1.1.1.1.1.2
      simp [hargs, htargets]
    | none =>
      simp only [hc, hs, Bool.and_eq_true, decide_eq_true_eq] at h
      obtain ⟨⟨⟨⟨⟨⟨hbefore, -⟩, hlength⟩, harguments⟩, -⟩, -⟩, -⟩ := h
      simp only [validArguments, Bool.and_eq_true] at harguments
      exact ⟨hlength, List.all_eq_true.mp harguments.2, List.all_eq_true.mp hbefore.2, by simp⟩

/-- INTERNAL: accepted arguments are few, and review texts. -/
theorem normalizeArgs_spec (p : OperationPolicy) (values args : List String)
    (hvalid : validateDraft p.draft = true) (h : p.normalizeArgs values = some args) :
    args.length ≤ 32 ∧ ∀ arg ∈ args, reviewText arg = true := by
  obtain ⟨hlength, hspecs, htargets, hssh⟩ := arguments_bounds p.draft hvalid
  unfold OperationPolicy.normalizeArgs at h
  split_ifs at h with hrefused
  simp only [Bool.or_eq_true, not_or, Bool.not_eq_true', Bool.not_eq_false] at hrefused
  have haccepted := hrefused.2
  constructor
  · have hforall := (mapM_eq_some_iff _ _ _).mp h
    have hzip : (p.arguments.zip values).length ≤ p.arguments.length := by
      rw [List.length_zip]
      exact Nat.min_le_left _ _
    have hlen : (p.arguments.zip values).length = args.length := hforall.length_eq
    exact hlen ▸ hzip.trans hlength
  · intro arg harg
    obtain ⟨⟨spec, value⟩, hpair, hnormal⟩ := exists_of_mem_mapM _ _ _ h arg harg
    have hspec : spec ∈ p.arguments := (List.of_mem_zip hpair).1
    have hone : p.validatesArg spec value = true := by
      unfold OperationPolicy.validatesArgs at haccepted
      split_ifs at haccepted with hs
      · have hnil : p.arguments = [] := hssh hs
        rw [hnil] at hspec
        simp at hspec
      · simp only [Bool.and_eq_true] at haccepted
        exact List.all_eq_true.mp haccepted.2 (spec, value) hpair
    exact reviewText_normalizeArg p spec value arg htargets (hspecs spec hspec) hone hnormal

/-- INTERNAL: the target shown for an ordinary policy is a review text. -/
theorem reviewText_targetArgument (specs : List ArgumentSpec) (args : List String)
    (h : ∀ arg ∈ args, reviewText arg = true) : reviewText (targetArgument specs args) = true := by
  unfold targetArgument
  generalize hfind : List.findSome? _ (specs.zip args) = found
  cases found with
  | none => decide
  | some value =>
    obtain ⟨⟨spec, value'⟩, hpair, hsome⟩ := List.exists_of_findSome?_eq_some hfind
    simp only at hsome
    split_ifs at hsome
    simp only [Option.some.injEq] at hsome
    subst hsome
    exact h _ (List.of_mem_zip hpair).2

/-! ## Credentials -/

/-- INTERNAL: a policy shows between one and sixteen credentials with review texts. -/
theorem reviewCredentials_spec (p : OperationPolicy) (hvalid : validateDraft p.draft = true) :
    p.reviewCredentials ≠ [] ∧ p.reviewCredentials.length ≤ 16 ∧
      ∀ c ∈ p.reviewCredentials, reviewText c.label = true := by
  have hcreate : p.draft.create = p.create := rfl
  have hssh : p.draft.ssh = p.ssh := rfl
  have hcredentials : p.draft.credentials = p.credentials := rfl
  unfold validateDraft at hvalid
  unfold OperationPolicy.reviewCredentials
  rw [hcreate, hssh, hcredentials] at hvalid
  cases hc : p.create with
  | some create =>
    simp only [hc, Bool.and_eq_true, List.isEmpty_iff, Option.isNone_iff_eq_none] at hvalid
    obtain ⟨⟨⟨⟨⟨-, hs⟩, hcreds⟩, -⟩, -⟩, heffect⟩ := hvalid
    have hreference : canonicalPath create.destination.reference = true := by
      simp only [CreateEffect.valid, Bool.and_eq_true] at heffect
      have hname := heffect.1.1.1.1.1.1.1.1.1.1
      unfold Destination.itemName at hname
      split_ifs at hname with hchecks
      · simp only [Bool.and_eq_true] at hchecks
        exact hchecks.2
      · simp at hname
    simp [hs, hcreds, reviewText_of_canonicalPath _ hreference]
  | none =>
    cases hs : p.ssh with
    | some ssh =>
      simp only [hc, hs, Bool.and_eq_true, List.isEmpty_iff] at hvalid
      have hcreds : p.credentials = [] := hvalid.1.1.1.1.2
      have hlabel := reviewText_of_validDisplayText _ hvalid.1.1.2
      simp [hcreds, hlabel]
    | none =>
      simp only [hc, hs, Bool.and_eq_true, decide_eq_true_eq, Bool.not_eq_true'] at hvalid
      obtain ⟨⟨⟨-, hne⟩, hlength⟩, hcreds⟩ := hvalid
      simp only [validCredentials, Bool.and_eq_true] at hcreds
      have hne' : p.credentials ≠ [] := by
        intro hnil
        simp [hnil] at hne
      refine ⟨by simpa using hne', by simpa [MAX_CREDENTIALS] using hlength, ?_⟩
      intro c hmem
      simp only [Option.toList_none, List.map_nil, List.append_nil, List.mem_map] at hmem
      obtain ⟨credential, hcredential, rfl⟩ := hmem
      have hone := List.all_eq_true.mp hcreds.2 credential hcredential
      simp only [validCredential, Bool.and_eq_true] at hone
      exact reviewText_of_validDisplayText _ hone.1.1.1.1.1.2

/-! ## The whole review -/

/-- INTERNAL: the effect and the target that an intact policy shows. -/
theorem directReview_kind {E : Externals} {p : OperationPolicy} {args : List String} (id : String)
    (expires : ℕ) (hp : Intact E p) (htexts : ∀ arg ∈ args, reviewText arg = true)
    (hlabels : ∀ c ∈ p.reviewCredentials, reviewText c.label = true)
    (hdescription : reviewText p.description = true) :
    (p.directReview E id args expires).create.all (fun c => c.valid &&
      (p.directReview E id args expires).ssh.isNone &&
      decide ((p.directReview E id args expires).effect = CREATE_EFFECT) &&
      decide ((p.directReview E id args expires).target = c.destination.reference)) = true ∧
    (match (p.directReview E id args expires).ssh with
      | some ssh => decide ((p.directReview E id args expires).target = ssh.target)
      | none => reviewText (p.directReview E id args expires).target) = true ∧
    (p.directReview E id args expires).ssh.all SshReview.valid = true ∧
    reviewText (p.directReview E id args expires).effect = true := by
  have hvalid := hp.valid
  unfold validateDraft at hvalid
  have hcreate : p.draft.create = p.create := rfl
  have hssh : p.draft.ssh = p.ssh := rfl
  rw [hcreate, hssh] at hvalid
  cases hc : p.create with
  | some create =>
    simp only [hc, Bool.and_eq_true, Option.isNone_iff_eq_none] at hvalid
    obtain ⟨⟨⟨⟨⟨-, hs⟩, -⟩, -⟩, -⟩, heffect⟩ := hvalid
    have hlabel := hlabels ⟨create.destination.reference, .login⟩
      (by simp [OperationPolicy.reviewCredentials, hc])
    have htext : reviewText CREATE_EFFECT = true := by decide
    simpa [OperationPolicy.directReview, hc, hs, heffect, htext] using hlabel
  | none =>
    cases hs : p.ssh with
    | some ssh =>
      simp only [hc, hs, Bool.and_eq_true] at hvalid
      have hcanonical : ssh.canonicalize = ssh := by
        have hdraft := congrArg OperationPolicyDraft.ssh hp.canonical
        simpa [canonicalizeDraft, hssh, hs] using hdraft
      have hreview := validSshReview_canonicalize ssh hvalid.2
      rw [hcanonical] at hreview
      simpa [OperationPolicy.directReview, hc, hs, hreview] using hdescription
    | none =>
      have htarget := reviewText_targetArgument p.arguments args htexts
      simpa [OperationPolicy.directReview, hc, hs, htarget] using hdescription

/-- **What an intact policy shows for accepted arguments is a valid review.** -/
theorem directReview_valid (E : Externals) (p : OperationPolicy) (id : String)
    (values args : List String) (expires : ℕ) (hp : Intact E p)
    (himage : validSha256 p.image.sha256 = true) (hargs : p.normalizeArgs values = some args) :
    (p.directReview E id args expires).valid E = true := by
  obtain ⟨hlength, htexts⟩ := normalizeArgs_spec p values args hp.valid hargs
  obtain ⟨hne, hcount, hlabels⟩ := reviewCredentials_spec p hp.valid
  have hheading := validateDraft_heading p.draft hp.valid
  simp only [validHeading, Bool.and_eq_true] at hheading
  have hid : validOperationId p.id = true := hheading.1.1
  have hdescription : reviewText p.description = true :=
    reviewText_of_validDisplayText _ hheading.1.2
  have hrevision : validSha256 p.revision = true := by
    rw [hp.revision]
    exact validSha256_revisionFor E _ _
  have hkind := directReview_kind id expires hp htexts hlabels hdescription
  obtain ⟨hkind, htarget, hssh, heffect⟩ := hkind
  have hdigest : (p.directReview E id args expires).argumentsDigest =
      Model.argumentsDigest E (p.directReview E id args expires).arguments := rfl
  have honce : (decide ((p.directReview E id args expires).oneTime = ONE_TIME) ||
      decide ((p.directReview E id args expires).oneTime = PREVIOUS_ONE_TIME) ||
      decide ((p.directReview E id args expires).oneTime = LEGACY_ONE_TIME)) = true := by
    simp [OperationPolicy.directReview]
  unfold DirectReview.valid
  simp only [Bool.and_eq_true]
  refine ⟨⟨⟨⟨⟨⟨⟨⟨⟨⟨⟨⟨⟨hid, heffect⟩, hkind⟩, htarget⟩, hssh⟩, ?_⟩, ?_⟩, ?_⟩, ?_⟩, ?_⟩, himage⟩,
    hrevision⟩, decide_eq_true hdigest⟩, honce⟩
  · exact decide_eq_true hlength
  · exact List.all_eq_true.mpr htexts
  · simpa [OperationPolicy.directReview] using hne
  · exact decide_eq_true hcount
  · exact List.all_eq_true.mpr hlabels

end VaultAccess.Analysis
