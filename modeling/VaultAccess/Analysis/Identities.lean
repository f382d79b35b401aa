import VaultAccess.Analysis.Sizes
import VaultAccess.Model.Identity

/-!
# Sound registries of approval clients

What the reader checks, and how many audit entries the administrators and the revoked
devices account for. The count bounds the text of a registry without Touch ID
housekeeping, so that trimming always gets below the reader's limit; and what is written
is read back and accepted.
-/

set_option autoImplicit false

namespace VaultAccess.Analysis.Identity

open VaultAccess.Library VaultAccess.Library.Text VaultAccess.Model VaultAccess.Model.Identity

/-! ## The document is read back -/

theorem ofJson_toJson_companion (entry : EnrolledCompanion) :
    EnrolledCompanion.ofJson entry.toJson = some entry := by
  rfl

/-- INTERNAL: an approval key is read back. -/
theorem ofJson_toJson_biometric (entry : BiometricEnrollment) :
    BiometricEnrollment.ofJson entry.toJson = some entry := by
  have hread : Json.readNat u64Size (.int entry.enrolledGeneration.toNat) =
      some entry.enrolledGeneration.toNat := Json.readNat_int entry.enrolledGeneration.toNat_lt
  -- the reader is kept abstract: its bound is not to be computed with
  have hmembers : ∀ read : Json → Option ℕ,
      (do
        let members ← entry.toJson.closed ["fingerprint", "key_id", "public_key", "enrolled_generation"]
        let fingerprint ← Json.required "fingerprint" members Json.readString
        let keyId ← Json.required "key_id" members Json.readString
        let publicKey ← Json.required "public_key" members Json.readString
        let generation ← Json.required "enrolled_generation" members read
        pure ({ fingerprint, keyId, publicKey, enrolledGeneration := UInt64.ofNat generation } :
          BiometricEnrollment)) =
      (read (.int entry.enrolledGeneration.toNat)).bind fun generation =>
        some { entry with enrolledGeneration := UInt64.ofNat generation } := fun _ => rfl
  rw [BiometricEnrollment.ofJson, hmembers, hread, Option.bind_some, UInt64.ofNat_toNat]

theorem ofJson_wire (action : IdentityAction) : IdentityAction.ofJson (.str action.wire) = some action := by
  cases action <;> decide

/-- INTERNAL: an audit entry is read back, with or without a key. -/
theorem ofJson_toJson_audit (entry : IdentityAudit) : IdentityAudit.ofJson entry.toJson = some entry := by
  obtain ⟨fingerprint, actor, action, keyId⟩ := entry
  have hread := ofJson_wire action
  cases keyId with
  | none =>
    have hmembers : IdentityAudit.ofJson (IdentityAudit.toJson ⟨fingerprint, actor, action, none⟩) =
        (IdentityAction.ofJson (.str action.wire)).bind fun action =>
          some ⟨fingerprint, actor, action, none⟩ := rfl
    rw [hmembers, hread, Option.bind_some]
  | some keyId =>
    have hmembers : IdentityAudit.ofJson (IdentityAudit.toJson ⟨fingerprint, actor, action, some keyId⟩) =
        (IdentityAction.ofJson (.str action.wire)).bind fun action =>
          some ⟨fingerprint, actor, action, some keyId⟩ := rfl
    rw [hmembers, hread, Option.bind_some]

theorem readList_strings (texts : List String) :
    Json.readList Json.readString (.arr (texts.map .str)) = some texts :=
  Json.readList_map fun _ _ => rfl

/-- **A registry is read back as it was written**, also where empty lists are left out. -/
theorem ofJson_toJson (registry : Registry) : Registry.ofJson registry.toJson = some registry := by
  obtain ⟨version, identities, revoked, administrators, audit, biometric, retired⟩ := registry
  have hversion : Json.readNat 256 (.int version.toNat) = some version.toNat :=
    Json.readNat_int version.toNat_lt
  have hidentities := Json.readList_map fun e (_ : e ∈ identities) => ofJson_toJson_companion e
  have hrevoked := Json.readList_map fun e (_ : e ∈ revoked) => ofJson_toJson_companion e
  have hadministrators := readList_strings administrators
  have haudit := Json.readList_map fun e (_ : e ∈ audit) => ofJson_toJson_audit e
  have hbiometric := Json.readList_map fun e (_ : e ∈ biometric) => ofJson_toJson_biometric e
  have hretired := readList_strings retired
  have hdecode : UInt8.ofNat version.toNat = version := UInt8.ofNat_toNat
  -- the members, with the two lists that may be left out at the end
  let optional := (if biometric.isEmpty then []
      else [("biometric", Json.arr (biometric.map BiometricEnrollment.toJson))]) ++
    (if retired.isEmpty then [] else [("retired_biometric_keys", Json.arr (retired.map .str))])
  let members := [("version", Json.int version.toNat),
    ("identities", .arr (identities.map EnrolledCompanion.toJson)),
    ("revoked", .arr (revoked.map EnrolledCompanion.toJson)),
    ("administrators", .arr (administrators.map .str)),
    ("audit", .arr (audit.map IdentityAudit.toJson))] ++ optional
  have hclosed : Json.closed ["version", "identities", "revoked", "administrators", "audit",
      "biometric", "retired_biometric_keys"] (.obj members) = some members := by
    cases biometric <;> cases retired <;> rfl
  have hoptional : Json.defaulted "biometric" members (Json.readList BiometricEnrollment.ofJson) [] =
      some biometric := by
    cases biometric with
    | nil => cases retired <;> rfl
    | cons => exact hbiometric
  have hoptional' : Json.defaulted "retired_biometric_keys" members (Json.readList Json.readString) [] =
      some retired := by
    cases retired with
    | nil => cases biometric <;> rfl
    | cons => cases biometric <;> exact hretired
  have hread : Registry.ofJson (.obj members) =
      (Json.readNat 256 (.int version.toNat)).bind fun version =>
      (Json.readList EnrolledCompanion.ofJson (.arr (identities.map EnrolledCompanion.toJson))).bind
        fun identities =>
      (Json.readList EnrolledCompanion.ofJson (.arr (revoked.map EnrolledCompanion.toJson))).bind
        fun revoked =>
      (Json.readList Json.readString (.arr (administrators.map .str))).bind fun administrators =>
      (Json.readList IdentityAudit.ofJson (.arr (audit.map IdentityAudit.toJson))).bind fun audit =>
      (Json.defaulted "biometric" members (Json.readList BiometricEnrollment.ofJson) []).bind
        fun biometric =>
      (Json.defaulted "retired_biometric_keys" members (Json.readList Json.readString) []).bind
        fun retired =>
      some ⟨UInt8.ofNat version, identities, revoked, administrators, audit, biometric, retired⟩ := by
    unfold Registry.ofJson
    rw [hclosed]
    rfl
  show Registry.ofJson (.obj members) = _
  rw [hread, hversion, hidentities, hrevoked, hadministrators, haudit, hoptional, hoptional']
  simp only [Option.bind_some, hdecode]

/-! ## Sizes -/

/-- INTERNAL: a fingerprint or a key id. -/
theorem weight_quote_fingerprint {value : String} (h : validFingerprint value = true) :
    Json.weight (Json.quote value) = 66 := by
  obtain ⟨hsize, hall⟩ := Bool.and_eq_true_iff.mp h
  have hbytes := of_decide_eq_true hsize
  rw [Json.weight_quote_plain, hbytes]
  intro c hc
  exact plain_of_isLowerHex (List.all_eq_true.mp hall c hc)

theorem weight_quote_actor {value : String} (h : value = "local_owner" ∨ validFingerprint value = true) :
    Json.weight (Json.quote value) ≤ 66 := by
  rcases h with rfl | hvalid
  · decide
  · exact Nat.le_of_eq (weight_quote_fingerprint hvalid)

/-- INTERNAL: a label, with every character escaped. -/
theorem weight_quote_label {label : String} (h : Identity.validLabel label = true) :
    Json.weight (Json.quote label) ≤ 258 := by
  obtain ⟨hrest, hcontrol⟩ := Bool.and_eq_true_iff.mp h
  have hbytes := of_decide_eq_true (Bool.and_eq_true_iff.mp hrest).2
  have hplain : ∀ c ∈ label.toList, isControl c = false := by
    intro c hc
    have hnone := List.any_eq_false.mp (Bool.not_eq_true' _ |>.mp hcontrol) c hc
    exact Bool.eq_false_iff.mpr hnone
  have hquote := Json.weight_quote_le hplain
  omega

theorem weight_quote_publicKey {key : List UInt8} (h : validPublicKey key = true) :
    Json.weight (Json.quote (encodeUrlSafe key)) = 89 := by
  have hlength : key.length = 65 := of_decide_eq_true (Bool.and_eq_true_iff.mp h).1
  rw [weight_quote_encodeUrlSafe, hlength]
  rfl

/-- INTERNAL: an enrolled or revoked device and its comma. -/
theorem size_companion_le {entry : EnrolledCompanion}
    (h : validFingerprint entry.fingerprint = true) (hlabel : Identity.validLabel entry.label = true) :
    entry.toJson.size + 1 ≤ 351 := by
  have hname : Json.weight (Json.quote "fingerprint") = 13 := by decide
  have hname' : Json.weight (Json.quote "label") = 7 := by decide
  have hfingerprint := weight_quote_fingerprint h
  have hvalue := weight_quote_label hlabel
  have hsize := Json.size_obj_le [("fingerprint", .str entry.fingerprint), ("label", .str entry.label)]
  simp only [List.map_cons, List.map_nil, List.sum_cons, List.sum_nil, size_str] at hsize
  unfold EnrolledCompanion.toJson
  omega

/-- INTERNAL: an approval key and its comma. -/
theorem size_biometric_le {entry : BiometricEnrollment} {key : List UInt8}
    (h : validFingerprint entry.fingerprint = true) (hkey : validPublicKey key = true)
    (htext : entry.publicKey = encodeUrlSafe key) (hid : validFingerprint entry.keyId = true) :
    entry.toJson.size + 1 ≤ 306 := by
  have hname : Json.weight (Json.quote "fingerprint") = 13 := by decide
  have hname' : Json.weight (Json.quote "key_id") = 8 := by decide
  have hname'' : Json.weight (Json.quote "public_key") = 12 := by decide
  have hgeneration : Json.weight (Json.quote "enrolled_generation") = 21 := by decide
  have hfingerprint := weight_quote_fingerprint h
  have hkeyId := weight_quote_fingerprint hid
  have hpublic := weight_quote_publicKey hkey
  have hdigits : (Json.int (entry.enrolledGeneration.toNat : ℤ)).size ≤ 20 :=
    Json.size_nat_le (by decide) (lt_trans entry.enrolledGeneration.toNat_lt (by decide))
  have hsize := Json.size_obj_le [("fingerprint", .str entry.fingerprint), ("key_id", .str entry.keyId),
    ("public_key", .str entry.publicKey), ("enrolled_generation", .int entry.enrolledGeneration.toNat)]
  simp only [List.map_cons, List.map_nil, List.sum_cons, List.sum_nil, size_str, htext] at hsize
  unfold BiometricEnrollment.toJson
  rw [htext]
  omega

/-- INTERNAL: an audit entry without a key and its comma. -/
theorem size_audit_le {entry : IdentityAudit} (h : entry.valid = true)
    (haction : entry.action.biometric = false) : entry.toJson.size + 1 ≤ 192 := by
  obtain ⟨fingerprint, actor, action, keyId⟩ := entry
  unfold IdentityAudit.valid at h
  obtain ⟨hrest, -⟩ := Bool.and_eq_true_iff.mp h
  obtain ⟨hnames, hkey⟩ := Bool.and_eq_true_iff.mp hrest
  obtain ⟨hfingerprint, hactor⟩ := Bool.and_eq_true_iff.mp hnames
  have hnone : keyId = none := by
    have hsome := of_decide_eq_true hkey
    rw [haction] at hsome
    exact Option.isSome_eq_false_iff.mp hsome.symm |> Option.isNone_iff_eq_none.mp
  have hwire : Json.weight (Json.quote action.wire) ≤ 23 := by
    cases action <;> decide
  have hname : Json.weight (Json.quote "fingerprint") = 13 := by decide
  have hname' : Json.weight (Json.quote "actor") = 7 := by decide
  have hname'' : Json.weight (Json.quote "action") = 8 := by decide
  have hvalue : Json.weight (Json.quote fingerprint) = 66 := weight_quote_fingerprint hfingerprint
  have hvalue' : Json.weight (Json.quote actor) ≤ 66 := weight_quote_actor (by simpa using hactor)
  have hsize := Json.size_obj_le [("fingerprint", .str fingerprint), ("actor", .str actor),
    ("action", .str action.wire)]
  simp only [List.map_cons, List.map_nil, List.sum_cons, List.sum_nil, size_str] at hsize
  subst hnone
  simp only [IdentityAudit.toJson, List.append_nil]
  omega

/-! ## Sound registries -/

/-- The key ids a registry knows, retired and current. -/
def keyIds (registry : Registry) : List String :=
  registry.retiredBiometricKeys ++ registry.biometric.map (·.keyId)

/-- How many audit entries of an action there are. -/
def audited (registry : Registry) (action : IdentityAction) : ℕ :=
  registry.audit.countP (·.action = action)

/-- What every operation keeps: the reader's conditions, and for every grant on record an
administrator or a revoked device, for every revocation on record a revoked device. -/
structure Sound (E : Externals) (registry : Registry) : Prop where
  companions_le : registry.companions.length ≤ MAX_IDENTITIES
  companions_valid : ∀ entry ∈ registry.companions,
    validFingerprint entry.fingerprint = true ∧ Identity.validLabel entry.label = true
  companions_nodup : (registry.companions.map (·.fingerprint)).Nodup
  administrators_nodup : registry.administrators.Nodup
  administrators_enabled : ∀ fingerprint ∈ registry.administrators, registry.enabled fingerprint = true
  granted_le : audited registry .grantedAdministrator ≤
    registry.administrators.length + registry.revoked.length
  revoked_le : audited registry .revoked ≤ registry.revoked.length
  audit_valid : ∀ entry ∈ registry.audit, entry.valid = true
  biometric_audit_le : registry.audit.countP (·.action.biometric) ≤ MAX_BIOMETRIC_AUDIT
  keyIds_nodup : (keyIds registry).Nodup
  retired_valid : ∀ keyId ∈ registry.retiredBiometricKeys, validFingerprint keyId = true
  devices_nodup : (registry.biometric.map (·.fingerprint)).Nodup
  biometric_enabled : ∀ entry ∈ registry.biometric, registry.enabled entry.fingerprint = true
  biometric_decoded : ∀ entry ∈ registry.biometric, ∃ key, entry.publicKey = encodeUrlSafe key ∧
    validPublicKey key = true ∧ keyIdOf E key = entry.keyId

theorem enabled_iff {registry : Registry} {fingerprint : String} :
    registry.enabled fingerprint = true ↔ fingerprint ∈ registry.identities.map (·.fingerprint) := by
  simp [Registry.enabled]

theorem sound_initial (E : Externals) : Sound E .initial := by
  constructor <;> simp [Registry.initial, Registry.companions, keyIds, audited]

section Bounds

variable {E : Externals} {registry : Registry}

theorem Sound.fingerprint_valid (h : Sound E registry) {fingerprint : String}
    (henabled : registry.enabled fingerprint = true) : validFingerprint fingerprint = true := by
  obtain ⟨entry, hentry, rfl⟩ := List.mem_map.mp (enabled_iff.mp henabled)
  exact (h.companions_valid entry (List.mem_append_left _ hentry)).1

theorem Sound.administrators_le (h : Sound E registry) :
    registry.administrators.length ≤ registry.identities.length := by
  have hsubset : registry.administrators ⊆ registry.identities.map (·.fingerprint) :=
    fun fingerprint hmem => enabled_iff.mp (h.administrators_enabled fingerprint hmem)
  simpa using (List.subperm_of_subset h.administrators_nodup hsubset).length_le

/-- INTERNAL: there are no more approval keys than identities. -/
theorem Sound.biometric_le (h : Sound E registry) :
    registry.biometric.length ≤ registry.identities.length := by
  have hsubset : registry.biometric.map (·.fingerprint) ⊆ registry.identities.map (·.fingerprint) := by
    intro fingerprint hmem
    obtain ⟨entry, hentry, rfl⟩ := List.mem_map.mp hmem
    exact enabled_iff.mp (h.biometric_enabled entry hentry)
  simpa using (List.subperm_of_subset h.devices_nodup hsubset).length_le

/-- INTERNAL: an action without a key is a grant or a revocation. -/
theorem countP_plain (audit : List IdentityAudit) :
    audit.countP (!·.action.biometric) =
      audit.countP (·.action = .grantedAdministrator) + audit.countP (·.action = .revoked) := by
  induction audit with
  | nil => rfl
  | cons entry audit ih =>
    simp only [List.countP_cons, ih]
    cases entry.action <;> simp [IdentityAction.biometric] <;> omega

/-- INTERNAL: the grants and revocations on record. -/
theorem Sound.plain_audit_le (h : Sound E registry) :
    registry.audit.countP (!·.action.biometric) ≤ registry.identities.length + 2 * registry.revoked.length := by
  have hgranted := h.granted_le
  have hrevoked := h.revoked_le
  have hadministrators := h.administrators_le
  simp only [audited] at hgranted hrevoked
  rw [countP_plain]
  omega

theorem Sound.keyId_valid (h : Sound E registry) {entry : BiometricEnrollment}
    (hentry : entry ∈ registry.biometric) : validFingerprint entry.keyId = true := by
  obtain ⟨key, -, -, hid⟩ := h.biometric_decoded entry hentry
  rw [← hid]
  exact validSha256_hexSha256 E key

/-- INTERNAL: a registry without Touch ID housekeeping is far below the reader's limit. -/
theorem Sound.size_le (h : Sound E registry)
    (haudit : registry.audit.any (·.action.biometric) = false)
    (hretired : registry.retiredBiometricKeys = []) : registry.toJson.size ≤ 58715 := by
  have hplain : ∀ entry ∈ registry.audit, entry.action.biometric = false := fun entry hentry =>
    Bool.eq_false_iff.mpr (List.any_eq_false.mp haudit entry hentry)
  have hcount : registry.audit.length = registry.audit.countP (!·.action.biometric) := by
    rw [eq_comm, List.countP_eq_length]
    exact fun entry hentry => by rw [hplain entry hentry]; rfl
  have hidentities : (Json.arr (registry.identities.map EnrolledCompanion.toJson)).size ≤
      2 + 351 * registry.identities.length := Json.size_arr_map_le fun entry hentry =>
    have hvalid := h.companions_valid entry (List.mem_append_left _ hentry)
    size_companion_le hvalid.1 hvalid.2
  have hrevoked : (Json.arr (registry.revoked.map EnrolledCompanion.toJson)).size ≤
      2 + 351 * registry.revoked.length := Json.size_arr_map_le fun entry hentry =>
    have hvalid := h.companions_valid entry (List.mem_append_right _ hentry)
    size_companion_le hvalid.1 hvalid.2
  have hadministrators : (Json.arr (registry.administrators.map Json.str)).size ≤
      2 + 67 * registry.administrators.length := Json.size_arr_map_le fun fingerprint hmem => by
    rw [size_str, weight_quote_fingerprint (h.fingerprint_valid (h.administrators_enabled _ hmem))]
  have hrecords : (Json.arr (registry.audit.map IdentityAudit.toJson)).size ≤
      2 + 192 * registry.audit.length := Json.size_arr_map_le fun entry hentry =>
    size_audit_le (h.audit_valid entry hentry) (hplain entry hentry)
  have hkeys : (Json.arr (registry.biometric.map BiometricEnrollment.toJson)).size ≤
      2 + 306 * registry.biometric.length := Json.size_arr_map_le fun entry hentry => by
    obtain ⟨key, htext, hkey, -⟩ := h.biometric_decoded entry hentry
    exact size_biometric_le (h.fingerprint_valid (h.biometric_enabled entry hentry)) hkey htext
      (h.keyId_valid hentry)
  have hversion : (Json.int (registry.version.toNat : ℤ)).size ≤ 3 :=
    Json.size_nat_le (by decide) (lt_trans registry.version.toNat_lt (by decide))
  have hadministrators_le := h.administrators_le
  have hbiometric_le := h.biometric_le
  have hplain_le := h.plain_audit_le
  have hcompanions := h.companions_le
  rw [Registry.companions, List.length_append, MAX_IDENTITIES] at hcompanions
  have hname : Json.weight (Json.quote "version") = 9 := by decide
  have hname' : Json.weight (Json.quote "identities") = 12 := by decide
  have hname₂ : Json.weight (Json.quote "revoked") = 9 := by decide
  have hname₃ : Json.weight (Json.quote "administrators") = 16 := by decide
  have hname₄ : Json.weight (Json.quote "audit") = 7 := by decide
  have hname₅ : Json.weight (Json.quote "biometric") = 11 := by decide
  unfold Registry.toJson
  rw [hretired, List.isEmpty_nil, if_pos rfl, List.append_nil]
  refine (Json.size_obj_le _).trans ?_
  rw [List.map_append, List.sum_append]
  simp only [List.map_cons, List.map_nil, List.sum_cons, List.sum_nil, hname, hname', hname₂, hname₃,
    hname₄]
  have hoptional : ((if registry.biometric.isEmpty then []
      else [("biometric", Json.arr (registry.biometric.map BiometricEnrollment.toJson))]).map
        fun member => Json.weight (Json.quote member.1) + Json.size member.2 + 2).sum ≤
      15 + 306 * registry.biometric.length := by
    split
    · simp
    · simp only [List.map_cons, List.map_nil, List.sum_cons, List.sum_nil, hname₅]
      omega
  omega

end Bounds

/-! ## Trimming -/

/-- What trimming leaves of a registry: it takes out biometric audit entries and retired
keys only, the oldest ones of each, and sets the version. -/
structure Trimmed (before after : Registry) : Prop where
  stamped : after.stamped = after
  identities : after.identities = before.identities
  revoked : after.revoked = before.revoked
  administrators : after.administrators = before.administrators
  biometric : after.biometric = before.biometric
  audit : after.audit.Sublist before.audit
  other_audit : after.audit.filter (!·.action.biometric) = before.audit.filter (!·.action.biometric)
  biometric_audit : ∃ k, after.audit.filter (·.action.biometric) =
    (before.audit.filter (·.action.biometric)).drop k
  retired : ∃ k, after.retiredBiometricKeys = before.retiredBiometricKeys.drop k

@[simp] theorem stamped_stamped (registry : Registry) : registry.stamped.stamped = registry.stamped := rfl

/-- INTERNAL: a registry that is only stamped. -/
theorem trimmed_stamped (registry : Registry) : Trimmed registry registry.stamped where
  stamped := stamped_stamped registry
  identities := rfl
  revoked := rfl
  administrators := rfl
  biometric := rfl
  audit := List.Sublist.refl _
  other_audit := rfl
  biometric_audit := ⟨0, rfl⟩
  retired := ⟨0, rfl⟩

/-- INTERNAL: one entry of the audit goes before the rest is trimmed. -/
theorem Trimmed.of_audit {registry after : Registry}
    (h : Trimmed { registry with audit := registry.audit.eraseP (·.action.biometric) } after) :
    Trimmed registry after where
  stamped := h.stamped
  identities := h.identities
  revoked := h.revoked
  administrators := h.administrators
  biometric := h.biometric
  audit := h.audit.trans List.eraseP_sublist
  other_audit := by
    rw [h.other_audit]
    exact filter_not_eraseP _ _
  biometric_audit := by
    obtain ⟨k, hk⟩ := h.biometric_audit
    refine ⟨1 + k, hk.trans ?_⟩
    rw [filter_eraseP, List.drop_drop]
  retired := h.retired

/-- INTERNAL: the oldest retired keys go before the rest is trimmed. -/
theorem Trimmed.of_retired {registry after : Registry} (k : ℕ)
    (h : Trimmed { registry with retiredBiometricKeys := registry.retiredBiometricKeys.drop k } after) :
    Trimmed registry after where
  stamped := h.stamped
  identities := h.identities
  revoked := h.revoked
  administrators := h.administrators
  biometric := h.biometric
  audit := h.audit
  other_audit := h.other_audit
  biometric_audit := h.biometric_audit
  retired := by
    obtain ⟨j, hj⟩ := h.retired
    refine ⟨k + j, hj.trans ?_⟩
    rw [List.drop_drop]

section Loop

variable {registry : Registry}

/-- INTERNAL: one round takes out the oldest biometric audit entry. -/
theorem trim_of_audit (hsize : ¬ registry.stamped.toJson.size ≤ MAX_REGISTRY_BYTES) {oldest : ℕ}
    (holdest : registry.audit.findIdx? (·.action.biometric) = some oldest) :
    registry.trim = Registry.trim { registry with audit := registry.audit.eraseIdx oldest } := by
  rw [Registry.trim, if_neg hsize]
  split
  · next found hfound =>
    obtain rfl := Option.some.inj (holdest.symm.trans hfound)
    rfl
  · next hnone => exact absurd (holdest.symm.trans hnone) (by simp)

/-- INTERNAL: where no such entry is left, one round takes out the oldest retired key. -/
theorem trim_of_retired (hsize : ¬ registry.stamped.toJson.size ≤ MAX_REGISTRY_BYTES)
    (hnone : registry.audit.findIdx? (·.action.biometric) = none) {first : String} {rest : List String}
    (hretired : registry.retiredBiometricKeys = first :: rest) :
    registry.trim = Registry.trim { registry with retiredBiometricKeys := rest } := by
  rw [Registry.trim, if_neg hsize]
  split
  · next hfound => exact absurd (hnone.symm.trans hfound) (by simp)
  · split
    · next hnil => exact absurd (hretired.symm.trans hnil) (by simp)
    · next hcons =>
      obtain ⟨-, rfl⟩ := List.cons.inj (hretired.symm.trans hcons)
      rfl

/-- INTERNAL: where nothing is left to take out, the loop stops. -/
theorem trim_of_nothing (hsize : ¬ registry.stamped.toJson.size ≤ MAX_REGISTRY_BYTES)
    (hnone : registry.audit.findIdx? (·.action.biometric) = none)
    (hretired : registry.retiredBiometricKeys = []) : registry.trim = registry.stamped := by
  rw [Registry.trim, if_neg hsize]
  split
  · next hfound => exact absurd (hnone.symm.trans hfound) (by simp)
  · split
    · rfl
    · next hcons => exact absurd (hretired.symm.trans hcons) (by simp)

end Loop

/-- **The trimming loop** takes out housekeeping only. -/
theorem trimmed_trim (registry : Registry) : Trimmed registry registry.trim := by
  induction registry using Registry.trim.induct with
  | case1 registry hsize =>
    rw [Registry.trim, if_pos hsize]
    exact trimmed_stamped registry
  | case2 registry hsize oldest holdest ih =>
    rw [trim_of_audit hsize holdest]
    rw [eraseIdx_of_findIdx? holdest] at ih ⊢
    exact ih.of_audit
  | case3 registry hsize hnone hretired =>
    rw [trim_of_nothing hsize hnone hretired]
    exact trimmed_stamped registry
  | case4 registry hsize hnone first rest hretired ih =>
    rw [trim_of_retired hsize hnone hretired]
    refine Trimmed.of_retired 1 ?_
    rw [hretired, List.drop_one, List.tail_cons]
    exact ih

/-- INTERNAL: the loop ends below the limit, or with no housekeeping left. -/
theorem trim_ends (registry : Registry) : registry.trim.toJson.size ≤ MAX_REGISTRY_BYTES ∨
    (registry.trim.audit.any (·.action.biometric) = false ∧ registry.trim.retiredBiometricKeys = []) := by
  induction registry using Registry.trim.induct with
  | case1 registry hsize =>
    rw [Registry.trim, if_pos hsize]
    exact Or.inl hsize
  | case2 registry hsize oldest holdest ih =>
    rw [trim_of_audit hsize holdest]
    exact ih
  | case3 registry hsize hnone hretired =>
    rw [trim_of_nothing hsize hnone hretired]
    refine Or.inr ⟨List.any_eq_false.mpr fun entry hentry => ?_, hretired⟩
    exact Bool.eq_false_iff.mp (List.findIdx?_eq_none_iff.mp hnone entry hentry)
  | case4 registry hsize hnone first rest hretired ih =>
    rw [trim_of_retired hsize hnone hretired]
    exact ih

section Kept

variable {E : Externals} {before after : Registry}

/-- INTERNAL: a trimmed registry is sound again. -/
theorem Sound.trimmed (h : Sound E before) (ht : Trimmed before after) : Sound E after := by
  have hcompanions : after.companions = before.companions := by
    rw [Registry.companions, ht.identities, ht.revoked]
    rfl
  have henabled : after.enabled = before.enabled := by
    funext fingerprint
    rw [Registry.enabled, ht.identities]
    rfl
  obtain ⟨k, hretired⟩ := ht.retired
  have hkeys : (keyIds after).Sublist (keyIds before) := by
    rw [keyIds, hretired, ht.biometric]
    exact (List.drop_sublist k _).append_right _
  exact {
    companions_le := hcompanions ▸ h.companions_le
    companions_valid := hcompanions ▸ h.companions_valid
    companions_nodup := hcompanions ▸ h.companions_nodup
    administrators_nodup := ht.administrators ▸ h.administrators_nodup
    administrators_enabled := by
      rw [ht.administrators, henabled]
      exact h.administrators_enabled
    granted_le := by
      rw [ht.administrators, ht.revoked]
      exact (ht.audit.countP_le).trans h.granted_le
    revoked_le := by
      rw [ht.revoked]
      exact (ht.audit.countP_le).trans h.revoked_le
    audit_valid := fun entry hentry => h.audit_valid entry (ht.audit.subset hentry)
    biometric_audit_le := (ht.audit.countP_le).trans h.biometric_audit_le
    keyIds_nodup := h.keyIds_nodup.sublist hkeys
    retired_valid := by
      intro keyId hmem
      rw [hretired] at hmem
      exact h.retired_valid keyId (List.mem_of_mem_drop hmem)
    devices_nodup := ht.biometric ▸ h.devices_nodup
    biometric_enabled := by
      rw [ht.biometric, henabled]
      exact h.biometric_enabled
    biometric_decoded := ht.biometric ▸ h.biometric_decoded }

theorem trimmed_housekeeping (registry : Registry) :
    Trimmed registry registry.trimTouchIdHousekeeping :=
  Trimmed.of_retired _ (trimmed_trim registry.forgetOldestRetired)

/-- INTERNAL: at most the cap of retired keys is left. -/
theorem retired_housekeeping_le (registry : Registry) :
    registry.trimTouchIdHousekeeping.retiredBiometricKeys.length ≤ MAX_RETIRED_KEYS := by
  obtain ⟨k, hk⟩ := (trimmed_trim registry.forgetOldestRetired).retired
  rw [Registry.trimTouchIdHousekeeping, hk, List.length_drop, Registry.forgetOldestRetired,
    List.length_drop]
  omega

/-- INTERNAL: a sound registry is trimmed to below the reader's limit. -/
theorem Sound.housekeeping_fits (h : Sound E before) :
    before.trimTouchIdHousekeeping.toJson.size ≤ MAX_REGISTRY_BYTES := by
  rcases trim_ends before.forgetOldestRetired with hfits | ⟨haudit, hretired⟩
  · exact hfits
  · have hsize := (h.trimmed (trimmed_housekeeping before)).size_le haudit hretired
    exact hsize.trans (by decide)

end Kept

/-! ## Reading back -/

section Reading

variable {E : Externals} {registry : Registry}

/-- INTERNAL: an approval key of a sound registry is decoded. -/
theorem Sound.decoded (h : Sound E registry) {entry : BiometricEnrollment}
    (hentry : entry ∈ registry.biometric) : (entry.decoded E).isSome = true := by
  obtain ⟨key, htext, hkey, hid⟩ := h.biometric_decoded entry hentry
  have hdecode : decodeUrlSafe entry.publicKey = some key := by
    rw [htext, decodeUrlSafe, encodeUrlSafe, String.toList_ofList, Base64.decode_encode]
  rw [BiometricEnrollment.decoded, hdecode]
  simp [hkey, hid]

/-- INTERNAL: a stamped registry has version 2 or 3, and version 2 without Touch ID. -/
theorem version_of_stamped (h : registry.stamped = registry) :
    registry.version = 3 ∨ (registry.version = 2 ∧ registry.biometric = [] ∧
      registry.retiredBiometricKeys = [] ∧ registry.audit.any (·.action.biometric) = false) := by
  have hversion : registry.version = if registry.biometric.isEmpty &&
      registry.retiredBiometricKeys.isEmpty && !registry.audit.any (·.action.biometric) then 2 else 3 :=
    (congrArg Registry.version h).symm
  split at hversion
  · next hempty =>
    obtain ⟨hlists, haudit⟩ := Bool.and_eq_true_iff.mp hempty
    obtain ⟨hbiometric, hretired⟩ := Bool.and_eq_true_iff.mp hlists
    exact Or.inr ⟨hversion, List.isEmpty_iff.mp hbiometric, List.isEmpty_iff.mp hretired,
      by simpa using haudit⟩
  · exact Or.inl hversion

/-- INTERNAL: the part of version 3 passes the reader's checks. -/
theorem Sound.validBiometric (h : Sound E registry) (hstamped : registry.stamped = registry)
    (hretired : registry.retiredBiometricKeys.length ≤ MAX_RETIRED_KEYS) :
    registry.validBiometric E = true := by
  unfold Registry.validBiometric
  rcases version_of_stamped hstamped with hversion | ⟨hversion, hbiometric, hnone, haudit⟩
  · have hentries : ∀ entry ∈ registry.biometric,
        (registry.enabled entry.fingerprint && (entry.decoded E).isSome) = true := by
      intro entry hentry
      rw [h.biometric_enabled entry hentry, h.decoded hentry]
      rfl
    have hkeys : decide (registry.retiredBiometricKeys ++ registry.biometric.map (·.keyId)).Nodup = true :=
      decide_eq_true h.keyIds_nodup
    rw [if_neg (by rw [hversion]; decide), decide_eq_true hretired,
      List.all_eq_true.mpr h.retired_valid, hkeys, decide_eq_true h.devices_nodup,
      List.all_eq_true.mpr hentries]
    rfl
  · rw [if_pos (by rw [hversion]; decide), hbiometric, hnone, haudit]
    rfl

/-- INTERNAL: a sound, stamped registry within the cap passes the reader's checks. -/
theorem Sound.valid (h : Sound E registry) (hstamped : registry.stamped = registry)
    (hretired : registry.retiredBiometricKeys.length ≤ MAX_RETIRED_KEYS) :
    registry.valid E = true := by
  have hversion : (decide (1 ≤ registry.version) && decide (registry.version ≤ REGISTRY_VERSION)) = true ∧
      registry.version ≠ 1 := by
    rcases version_of_stamped hstamped with hversion | ⟨hversion, -⟩ <;> rw [hversion] <;> decide
  have hcompanions : (registry.companions.all fun entry =>
      validFingerprint entry.fingerprint && Identity.validLabel entry.label) = true :=
    List.all_eq_true.mpr fun entry hentry => Bool.and_eq_true_iff.mpr (h.companions_valid entry hentry)
  have hplain : (registry.audit.filter (!·.action.biometric)).length ≤ MAX_IDENTITIES * 2 := by
    have hle := h.plain_audit_le
    have hcompanions := h.companions_le
    rw [Registry.companions, List.length_append] at hcompanions
    rw [← List.countP_eq_length_filter]
    omega
  have hbiometric : (registry.audit.filter (·.action.biometric)).length ≤ MAX_BIOMETRIC_AUDIT := by
    rw [← List.countP_eq_length_filter]
    exact h.biometric_audit_le
  unfold Registry.valid
  rw [hversion.1, decide_eq_true hversion.2, decide_eq_true h.companions_le, hcompanions,
    decide_eq_true h.companions_nodup, decide_eq_true h.administrators_nodup,
    List.all_eq_true.mpr h.administrators_enabled, decide_eq_true hplain, decide_eq_true hbiometric,
    List.all_eq_true.mpr h.audit_valid, h.validBiometric hstamped hretired]
  rfl

/-- **What is written is read back**, when it is sound, stamped and within the limits. -/
theorem Sound.readRegistry (h : Sound E registry) (hstamped : registry.stamped = registry)
    (hretired : registry.retiredBiometricKeys.length ≤ MAX_RETIRED_KEYS)
    (hsize : registry.toJson.size ≤ MAX_REGISTRY_BYTES) :
    readRegistry E (some registry.toJson) = .ok registry := by
  unfold Identity.readRegistry
  simp only [ofJson_toJson]
  rw [if_neg (Nat.not_lt.mpr hsize), if_pos (h.valid hstamped hretired)]

end Reading

end VaultAccess.Analysis.Identity
