import VaultAccess.Analysis.Identities

/-!
# The registry of approval clients stays readable

Every operation keeps the registry sound, so that after every run of operations the file
is read back and accepted, whatever the file system does to each write.
-/

set_option autoImplicit false

namespace VaultAccess.Analysis.Identity

open VaultAccess.Library VaultAccess.Library.Text VaultAccess.Model VaultAccess.Model.Identity

/-! ## The operations keep the registry sound -/

section Changes

variable {E : Externals} {registry : Registry}

/-- INTERNAL: `swap_remove` removes what `eraseIdx` removes. -/
theorem swapRemove_perm {α : Type} (l : List α) (i : ℕ) : (swapRemove l i).Perm (l.eraseIdx i) := by
  rw [List.eraseIdx_eq_take_drop_succ, swapRemove]
  split
  · next hnone =>
    rw [List.getLast?_eq_none_iff.mp hnone, List.append_nil]
  · next last hlast =>
    obtain ⟨front, hfront⟩ := List.getLast?_eq_some_iff.mp hlast
    rw [hfront, List.dropLast_concat]
    exact (List.perm_append_singleton last front).symm.append_left _

/-- **Retiring a key**: the device had none, or its key goes from the current to the retired
ones. -/
theorem retireBiometric_cases (registry : Registry) (fingerprint : String) :
    (registry.retireBiometric fingerprint = (none, registry) ∧
      ∀ entry ∈ registry.biometric, entry.fingerprint ≠ fingerprint) ∨
    ∃ old remaining, (old :: remaining).Perm registry.biometric ∧ old.fingerprint = fingerprint ∧
      registry.retireBiometric fingerprint = (some old.keyId, { registry with
        biometric := remaining
        retiredBiometricKeys := registry.retiredBiometricKeys ++ [old.keyId] }) := by
  unfold Registry.retireBiometric
  cases hposition : registry.biometric.findIdx? (·.fingerprint = fingerprint) with
  | none =>
    refine Or.inl ⟨rfl, fun entry hentry => ?_⟩
    simpa using List.findIdx?_eq_none_iff.mp hposition entry hentry
  | some position =>
    obtain ⟨hlt, hfound, -⟩ := List.findIdx?_eq_some_iff_getElem.mp hposition
    refine Or.inr ⟨registry.biometric[position], swapRemove registry.biometric position, ?_,
      of_decide_eq_true hfound, ?_⟩
    · exact ((swapRemove_perm _ _).cons _).trans (List.getElem_cons_eraseIdx_perm hlt)
    · simp only [List.getElem?_eq_getElem hlt]

/-- INTERNAL: retiring keeps the known key ids. -/
theorem keyIds_retireBiometric (registry : Registry) (fingerprint : String) :
    (keyIds (registry.retireBiometric fingerprint).2).Perm (keyIds registry) := by
  rcases retireBiometric_cases registry fingerprint with ⟨heq, -⟩ | ⟨old, remaining, hperm, -, heq⟩
  · rw [heq]
  · rw [heq, keyIds, keyIds, List.append_assoc, List.singleton_append]
    exact (hperm.map (·.keyId)).append_left _

/-- INTERNAL: after retiring the device has no key. -/
theorem device_retireBiometric (h : Sound E registry) (fingerprint : String) :
    ∀ entry ∈ (registry.retireBiometric fingerprint).2.biometric, entry.fingerprint ≠ fingerprint := by
  rcases retireBiometric_cases registry fingerprint with ⟨heq, hnone⟩ | ⟨old, remaining, hperm, rfl, heq⟩
  · rw [heq]
    exact hnone
  · rw [heq]
    intro entry hentry hsame
    have hnodup := (hperm.map (·.fingerprint)).nodup_iff.mpr h.devices_nodup
    rw [List.map_cons, List.nodup_cons] at hnodup
    exact hnodup.1 (hsame ▸ List.mem_map_of_mem hentry)

/-- INTERNAL: retiring a key keeps the registry sound. -/
theorem Sound.retireBiometric (h : Sound E registry) (fingerprint : String) :
    Sound E (registry.retireBiometric fingerprint).2 := by
  have hkeys := (keyIds_retireBiometric registry fingerprint).nodup_iff.mpr h.keyIds_nodup
  rcases retireBiometric_cases registry fingerprint with ⟨heq, -⟩ | ⟨old, remaining, hperm, -, heq⟩
  · rw [heq]
    exact h
  · rw [heq] at hkeys ⊢
    have hmem : ∀ entry ∈ remaining, entry ∈ registry.biometric := fun entry hentry =>
      hperm.subset (List.mem_cons_of_mem old hentry)
    have hdevices := (hperm.map (·.fingerprint)).nodup_iff.mpr h.devices_nodup
    exact { h with
      keyIds_nodup := hkeys
      retired_valid := by
        intro keyId hkeyId
        rcases List.mem_append.mp hkeyId with hretired | hold
        · exact h.retired_valid keyId hretired
        · rw [List.mem_singleton.mp hold]
          exact h.keyId_valid (hperm.subset List.mem_cons_self)
      devices_nodup := (List.nodup_cons.mp hdevices).2
      biometric_enabled := fun entry hentry => h.biometric_enabled entry (hmem entry hentry)
      biometric_decoded := fun entry hentry => h.biometric_decoded entry (hmem entry hentry) }

/-- INTERNAL: an audit entry about a key keeps the registry sound. -/
theorem Sound.biometricAudit (h : Sound E registry) {fingerprint actor keyId : String}
    {action : IdentityAction}
    (hentry : IdentityAudit.valid ⟨fingerprint, actor, action, some keyId⟩ = true)
    (haction : action.biometric = true) :
    Sound E (registry.biometricAudit fingerprint actor action keyId) := by
  let extended := registry.audit ++ [⟨fingerprint, actor, action, some keyId⟩]
  have hgranted : (extended.countP (·.action = .grantedAdministrator)) =
      audited registry .grantedAdministrator := by
    cases action <;> simp [extended, audited, IdentityAction.biometric] at haction ⊢
  have hrevoked : (extended.countP (·.action = .revoked)) = audited registry .revoked := by
    cases action <;> simp [extended, audited, IdentityAction.biometric] at haction ⊢
  have hvalid : ∀ entry ∈ extended, entry.valid = true := by
    intro entry hmem
    rcases List.mem_append.mp hmem with hold | hnew
    · exact h.audit_valid entry hold
    · rw [List.mem_singleton.mp hnew]
      exact hentry
  have hcount : extended.countP (·.action.biometric) ≤ MAX_BIOMETRIC_AUDIT + 1 := by
    have hle := h.biometric_audit_le
    simp only [extended, List.countP_append, List.countP_singleton, haction, if_true]
    omega
  -- whichever entry goes, the audit that is left is part of the extended one
  obtain ⟨audit, haudit, hsublist, hkept⟩ : ∃ audit,
      (registry.biometricAudit fingerprint actor action keyId) = { registry with audit } ∧
      audit.Sublist extended ∧ audit.countP (·.action.biometric) ≤ MAX_BIOMETRIC_AUDIT := by
    refine ⟨_, rfl, ?_, ?_⟩
    · split
      · split
        · exact List.Sublist.refl _
        · exact List.eraseIdx_sublist _ _
      · exact List.Sublist.refl _
    · split
      · next hlong =>
        split
        · next hnone =>
          have hzero : (extended.filter (·.action.biometric)) = [] :=
            List.filter_eq_nil_iff.mpr fun entry hmem =>
              Bool.eq_false_iff.mp (List.findIdx?_eq_none_iff.mp hnone entry hmem)
          rw [List.countP_eq_length_filter]
          exact (congrArg List.length hzero).trans_le (Nat.zero_le _)
        · next oldest holdest =>
          rw [eraseIdx_of_findIdx? holdest, List.countP_eq_length_filter, filter_eraseP,
            List.length_drop, ← List.countP_eq_length_filter]
          exact Nat.sub_le_of_le_add hcount
      · next hshort =>
        rw [List.countP_eq_length_filter]
        exact Nat.not_lt.mp hshort
  rw [haudit]
  exact { h with
    granted_le := (hsublist.countP_le.trans_eq hgranted).trans h.granted_le
    revoked_le := (hsublist.countP_le.trans_eq hrevoked).trans h.revoked_le
    audit_valid := fun entry hmem => hvalid entry (hsublist.subset hmem)
    biometric_audit_le := hkept }

/-- INTERNAL: a new device keeps the registry sound. -/
theorem Sound.enroll (h : Sound E registry) {fingerprint label : String}
    (hfingerprint : validFingerprint fingerprint = true) (hlabel : Identity.validLabel label = true)
    (hnew : (registry.companions.any (·.fingerprint = fingerprint) ||
      decide (MAX_IDENTITIES ≤ registry.companions.length)) = false) :
    Sound E { registry with identities := registry.identities ++ [{ fingerprint, label }] } := by
  obtain ⟨hfresh, hroom⟩ := Bool.or_eq_false_iff.mp hnew
  let entry : EnrolledCompanion := { fingerprint, label }
  have hperm : ((registry.identities ++ [entry]) ++ registry.revoked).Perm
      (entry :: registry.companions) := by
    rw [List.append_assoc, List.singleton_append]
    exact List.perm_middle
  have henabled : ∀ device, registry.enabled device = true →
      (registry.identities ++ [entry]).any (·.fingerprint = device) = true := by
    intro device hdevice
    rw [List.any_append]
    exact Bool.or_eq_true_iff.mpr (Or.inl hdevice)
  exact { h with
    companions_le := hperm.length_eq.trans_le (Nat.not_le.mp (of_decide_eq_false hroom))
    companions_valid := by
      intro device hdevice
      rcases List.mem_cons.mp (hperm.subset hdevice) with rfl | hold
      · exact ⟨hfingerprint, hlabel⟩
      · exact h.companions_valid device hold
    companions_nodup := by
      refine (hperm.map (·.fingerprint)).nodup_iff.mpr ?_
      rw [List.map_cons, List.nodup_cons]
      refine ⟨fun hmem => ?_, h.companions_nodup⟩
      obtain ⟨entry, hentry, hsame⟩ := List.mem_map.mp hmem
      exact List.any_eq_false.mp hfresh entry hentry (decide_eq_true hsame)
    administrators_enabled := fun device hdevice => henabled device (h.administrators_enabled device hdevice)
    biometric_enabled := fun entry hentry => henabled _ (h.biometric_enabled entry hentry) }

/-- INTERNAL: a new administrator keeps the registry sound. -/
theorem Sound.grantAdministrator (h : Sound E registry) {fingerprint : String}
    (henabled : registry.enabled fingerprint = true)
    (hnew : registry.administrators.contains fingerprint = false) :
    Sound E { registry with
      administrators := registry.administrators ++ [fingerprint]
      audit := registry.audit ++
        [{ fingerprint, actor := "local_owner", action := .grantedAdministrator, keyId := none }] } := by
  have hgranted := h.granted_le
  have hbiometric := h.biometric_audit_le
  exact { h with
    administrators_nodup := by
      have hfresh : fingerprint ∉ registry.administrators := by simpa using hnew
      rw [← List.concat_eq_append]
      exact h.administrators_nodup.concat hfresh
    administrators_enabled := by
      intro device hdevice
      rcases List.mem_append.mp hdevice with hold | hadded
      · exact h.administrators_enabled device hold
      · rw [List.mem_singleton.mp hadded]
        exact henabled
    granted_le := by
      simp only [audited, List.countP_append, List.countP_singleton, List.length_append,
        List.length_singleton, decide_true, if_true] at hgranted ⊢
      omega
    revoked_le := by
      have hrevoked := h.revoked_le
      simpa [audited] using hrevoked
    audit_valid := by
      intro entry hentry
      rcases List.mem_append.mp hentry with hold | hadded
      · exact h.audit_valid entry hold
      · rw [List.mem_singleton.mp hadded]
        simp [IdentityAudit.valid, h.fingerprint_valid henabled, IdentityAction.biometric]
    biometric_audit_le := by
      simpa [IdentityAction.biometric] using hbiometric }

/-- INTERNAL: moving a device without a key to the revoked ones keeps the registry sound. -/
theorem Sound.moved (h : Sound E registry) {fingerprint : String} (actor : Actor) {position : ℕ}
    (hposition : registry.identities.findIdx? (·.fingerprint = fingerprint) = some position)
    (hkeyless : ∀ entry ∈ registry.biometric, entry.fingerprint ≠ fingerprint) :
    Sound E { registry with
      identities := registry.identities.eraseIdx position
      revoked := registry.revoked ++ (registry.identities[position]?).toList
      administrators := registry.administrators.filter (· ≠ fingerprint)
      audit := registry.audit ++
        [{ fingerprint, actor := actor.text, action := .revoked, keyId := none }] } := by
  obtain ⟨hlt, hfound, -⟩ := List.findIdx?_eq_some_iff_getElem.mp hposition
  have hfingerprint : registry.identities[position].fingerprint = fingerprint := of_decide_eq_true hfound
  have hmoved : (registry.identities[position]?).toList = [registry.identities[position]] := by
    rw [List.getElem?_eq_getElem hlt]
    rfl
  have herased := List.getElem_cons_eraseIdx_perm hlt
  have hperm : (registry.identities.eraseIdx position ++
      (registry.revoked ++ [registry.identities[position]])).Perm registry.companions := by
    rw [← List.append_assoc]
    refine (List.perm_append_singleton _ _).trans ?_
    rw [← List.cons_append]
    exact herased.append_right registry.revoked
  have henabled : ∀ device, registry.enabled device = true → device ≠ fingerprint →
      (registry.identities.eraseIdx position).any (·.fingerprint = device) = true := by
    intro device hdevice hother
    obtain ⟨entry, hentry, hsame⟩ := List.any_eq_true.mp hdevice
    rcases List.mem_cons.mp (herased.symm.subset hentry) with rfl | hleft
    · exact absurd ((of_decide_eq_true hsame).symm.trans hfingerprint) hother
    · exact List.any_eq_true.mpr ⟨entry, hleft, hsame⟩
  have hadministrators : registry.administrators.length ≤
      (registry.administrators.filter (· ≠ fingerprint)).length + 1 := by
    have hfilter : registry.administrators.filter (· ≠ fingerprint) =
        registry.administrators.erase fingerprint := by
      rw [h.administrators_nodup.erase_eq_filter]
      exact List.filter_congr fun device _ => by rw [bne, beq_eq_decide, decide_not]
    rw [hfilter]
    exact Nat.sub_le_iff_le_add.mp List.le_length_erase
  have hgranted := h.granted_le
  have hrevoked := h.revoked_le
  have hbiometric := h.biometric_audit_le
  rw [hmoved]
  exact { h with
    companions_le := hperm.length_eq.trans_le h.companions_le
    companions_valid := fun entry hentry => h.companions_valid entry (hperm.subset hentry)
    companions_nodup := (hperm.map (·.fingerprint)).nodup_iff.mpr h.companions_nodup
    administrators_nodup := h.administrators_nodup.filter _
    administrators_enabled := by
      intro device hdevice
      obtain ⟨hold, hother⟩ := List.mem_filter.mp hdevice
      exact henabled device (h.administrators_enabled device hold) (of_decide_eq_true hother)
    granted_le := by
      simp only [audited, List.countP_append, List.countP_singleton, List.length_append,
        List.length_singleton, reduceCtorEq, decide_false, Bool.false_eq_true, if_false] at hgranted ⊢
      omega
    revoked_le := by
      simp only [audited, List.countP_append, List.countP_singleton, List.length_append,
        List.length_singleton, decide_true, if_true] at hrevoked ⊢
      omega
    audit_valid := by
      intro entry hentry
      rcases List.mem_append.mp hentry with hold | hadded
      · exact h.audit_valid entry hold
      · have hvalid := (h.companions_valid _ (List.mem_append_left _ (List.getElem_mem hlt))).1
        rw [hfingerprint] at hvalid
        rw [List.mem_singleton.mp hadded]
        simp [IdentityAudit.valid, hvalid, IdentityAction.biometric, actor.valid]
    biometric_audit_le := by
      simpa [IdentityAction.biometric] using hbiometric
    biometric_enabled := fun entry hentry =>
      henabled _ (h.biometric_enabled entry hentry) (hkeyless entry hentry) }

/-- INTERNAL: a new key keeps the registry sound. -/
theorem Sound.addKey (h : Sound E registry) {fingerprint : String} {key : List UInt8}
    (generation : UInt64) (henabled : registry.enabled fingerprint = true)
    (hkey : validPublicKey key = true)
    (hkeyless : ∀ entry ∈ registry.biometric, entry.fingerprint ≠ fingerprint)
    (hnew : keyIdOf E key ∉ keyIds registry) :
    Sound E { registry with
      biometric := registry.biometric ++
        [⟨fingerprint, keyIdOf E key, encodeUrlSafe key, generation⟩] } :=
  { h with
    keyIds_nodup := by
      rw [keyIds, List.map_append, ← List.append_assoc, List.map_singleton, ← List.concat_eq_append]
      exact h.keyIds_nodup.concat hnew
    devices_nodup := by
      rw [List.map_append, List.map_singleton, ← List.concat_eq_append]
      refine h.devices_nodup.concat fun hmem => ?_
      obtain ⟨entry, hentry, hsame⟩ := List.mem_map.mp hmem
      exact hkeyless entry hentry hsame
    biometric_enabled := by
      intro entry hentry
      rcases List.mem_append.mp hentry with hold | hadded
      · exact h.biometric_enabled entry hold
      · rw [List.mem_singleton.mp hadded]
        exact henabled
    biometric_decoded := by
      intro entry hentry
      rcases List.mem_append.mp hentry with hold | hadded
      · exact h.biometric_decoded entry hold
      · rw [List.mem_singleton.mp hadded]
        exact ⟨key, rfl, hkey, rfl⟩ }

/-- INTERNAL: retiring a key neither reads nor changes the devices. -/
theorem retireBiometric_devices (registry : Registry) (fingerprint : String)
    (identities revoked : List EnrolledCompanion) (administrators : List String) :
    (Registry.retireBiometric { registry with identities, revoked, administrators } fingerprint).2 =
      { (registry.retireBiometric fingerprint).2 with identities, revoked, administrators } := by
  unfold Registry.retireBiometric
  simp only []
  split
  · rfl
  · split <;> rfl

/-- INTERNAL: retiring a key leaves the devices alone. -/
theorem retireBiometric_frame (registry : Registry) (fingerprint : String) :
    (registry.retireBiometric fingerprint).2.identities = registry.identities ∧
      (registry.retireBiometric fingerprint).2.revoked = registry.revoked ∧
      (registry.retireBiometric fingerprint).2.administrators = registry.administrators := by
  rcases retireBiometric_cases registry fingerprint with ⟨heq, -⟩ | ⟨old, remaining, -, -, heq⟩
  · rw [heq]
    exact ⟨rfl, rfl, rfl⟩
  · rw [heq]
    exact ⟨rfl, rfl, rfl⟩

/-- **A revocation** that changes the registry keeps it sound and adds the device to the
revoked ones. -/
theorem Sound.revoke (h : Sound E registry) {fingerprint : String} {actor : Actor} {next : Registry}
    (hrevoke : registry.revoke fingerprint actor = .ok ((), some next)) :
    Sound E next ∧ ∃ entry, next.revoked = registry.revoked ++ [entry] := by
  unfold Registry.revoke at hrevoke
  split at hrevoke
  · exact absurd hrevoke (by simp)
  · split at hrevoke
    · exact absurd hrevoke (by simp)
    · next position hposition =>
      obtain ⟨hlt, -, -⟩ := List.findIdx?_eq_some_iff_getElem.mp hposition
      obtain ⟨hidentities, hrevoked, hadministrators⟩ := retireBiometric_frame registry fingerprint
      have hmoved := (h.retireBiometric fingerprint).moved actor
        (hidentities ▸ hposition) (device_retireBiometric h fingerprint)
      simp only [hidentities, hrevoked, hadministrators] at hmoved
      simp only [retireBiometric_devices, Except.ok.injEq, Prod.mk.injEq, Option.some.injEq,
        true_and] at hrevoke
      subst hrevoke
      refine ⟨hmoved, registry.identities[position], ?_⟩
      rw [List.getElem?_eq_getElem hlt]
      rfl

end Changes

/-! ## What an operation writes -/

/-- The registry a read and a change hand on. -/
def written {α : Type} (read : Except SessionError Registry)
    (change : Registry → Except SessionError (α × Option Registry)) : Option Registry :=
  match read with
  | .error _ => none
  | .ok registry =>
    match change registry with
    | .error _ => none
    | .ok (_, registry) => registry

/-- The registry an operation hands to `persist_registry`. -/
def changed (E : Externals) (file : Option Json) : Operation → Option Registry
  | .enroll leaf label =>
    if !Identity.validLabel label then none
    else leaf.toOption.bind fun leaf =>
      written (readOrInitial E file) (·.enroll (hexSha256 E leaf) label)
  | .grantAdministrator fingerprint =>
    written (readRegistry E file) (·.grantAdministrator fingerprint)
  | .revoke fingerprint =>
    if !validFingerprint fingerprint then none
    else written (readRegistry E file) (·.revoke fingerprint .localOwner)
  | .revokeOnline fingerprint actor =>
    written (readRegistry E file) (·.revoke fingerprint actor)
  | .enrollBiometricOnline fingerprint publicKey generation =>
    if !validPublicKey publicKey then none
    else
      written (readRegistry E file)
        (·.enrollBiometric fingerprint (keyIdOf E publicKey) (encodeUrlSafe publicKey) generation)
  | .revokeBiometricOnline fingerprint actor =>
    written (readRegistry E file) (·.revokeBiometric fingerprint actor)

/-- The file after the registry, if there is one, is persisted. -/
def persisted (disk : Identity.Disk) (file : Option Json) (registry : Option Registry) : Option Json :=
  match registry with
  | none => file
  | some registry => (persistRegistry disk file registry).2

section Steps

variable {E : Externals} {file : Option Json} {registry : Registry}

/-- INTERNAL: the file after an update. -/
theorem update_snd {α : Type} (disk : Identity.Disk) (file : Option Json) (read : Except SessionError Registry)
    (change : Registry → Except SessionError (α × Option Registry)) :
    (update disk file read change).2 = persisted disk file (written read change) := by
  unfold update written
  cases read with
  | error _ => rfl
  | ok registry =>
    cases hchange : change registry with
    | error _ => simp only [hchange, persisted]
    | ok result =>
      obtain ⟨value, _ | next⟩ := result
      · simp only [hchange, persisted]
      · simp only [hchange, persisted, Prod.map_snd, id_eq]

/-- INTERNAL: a directory that is refused keeps the file. -/
theorem persisted_denied (file : Option Json) (registry : Option Registry) :
    persisted .denied file registry = file := by
  cases registry with
  | none => rfl
  | some registry =>
    unfold persisted persistRegistry
    simp only []
    split <;> rfl

/-- **An operation leaves the file, or persists the registry it made.** -/
theorem apply_eq (E : Externals) (file : Option Json) (disk : Identity.Disk) (operation : Operation) :
    Operation.apply E file (disk, operation) = persisted disk file (changed E file operation) := by
  by_cases hdisk : disk = .denied
  · subst hdisk
    rw [persisted_denied]
    cases operation with
    | enroll leaf label =>
      simp only [Operation.apply, Identity.enroll]
      split <;> rfl
    | grantAdministrator fingerprint => rfl
    | revoke fingerprint =>
      simp only [Operation.apply, Identity.revoke]
      split <;> rfl
    | revokeOnline fingerprint actor => rfl
    | enrollBiometricOnline fingerprint publicKey generation =>
      simp only [Operation.apply, Identity.enrollBiometricOnline]
      split <;> rfl
    | revokeBiometricOnline fingerprint actor => rfl
  · cases operation with
    | enroll leaf label =>
      simp only [Operation.apply, Identity.enroll, changed, if_neg hdisk]
      split
      · rfl
      · cases leaf with
        | error error => rfl
        | ok leaf => exact update_snd _ _ _ _
    | grantAdministrator fingerprint =>
      simp only [Operation.apply, Identity.grantAdministrator, changed, if_neg hdisk]
      exact update_snd _ _ _ _
    | revoke fingerprint =>
      simp only [Operation.apply, Identity.revoke, Identity.revokeOnline, changed, if_neg hdisk]
      split
      · rfl
      · exact update_snd _ _ _ _
    | revokeOnline fingerprint actor =>
      simp only [Operation.apply, Identity.revokeOnline, changed, if_neg hdisk]
      exact update_snd _ _ _ _
    | enrollBiometricOnline fingerprint publicKey generation =>
      simp only [Operation.apply, Identity.enrollBiometricOnline, changed, if_neg hdisk]
      split
      · rfl
      · exact update_snd _ _ _ _
    | revokeBiometricOnline fingerprint actor =>
      simp only [Operation.apply, Identity.revokeBiometricOnline, changed, if_neg hdisk]
      exact update_snd _ _ _ _

/-- INTERNAL: what is handed on comes from the registry that was read. -/
theorem written_eq_some {α : Type} {read : Except SessionError Registry}
    {change : Registry → Except SessionError (α × Option Registry)} {next : Registry}
    (h : written read change = some next) :
    ∃ registry value, read = .ok registry ∧ change registry = .ok (value, some next) := by
  unfold written at h
  cases read with
  | error error => exact absurd h (by simp)
  | ok registry =>
    cases hchange : change registry with
    | error error =>
      simp only [hchange] at h
      exact absurd h (by simp)
    | ok result =>
      obtain ⟨value, after⟩ := result
      simp only [hchange] at h
      subst h
      exact ⟨registry, value, rfl, hchange⟩

theorem readOrInitial_of_read (h : readRegistry E file = .ok registry) :
    readOrInitial E file = .ok registry := by
  cases file with
  | none => exact absurd h (by simp [readRegistry])
  | some document => exact h

/-- What an operation makes of a sound registry: a sound one, with the same devices revoked
and perhaps one more. -/
structure Advances (E : Externals) (before after : Registry) : Prop where
  sound : Sound E after
  revoked : before.revoked.IsPrefix after.revoked

theorem Sound.advances_revoke (h : Sound E registry) {fingerprint : String} {actor : Actor}
    {next : Registry} (hrevoke : registry.revoke fingerprint actor = .ok ((), some next)) :
    Advances E registry next := by
  obtain ⟨hsound, entry, hrevoked⟩ := h.revoke hrevoke
  exact ⟨hsound, hrevoked ▸ List.prefix_append _ _⟩

/-- INTERNAL: an enrolled key. -/
theorem Sound.advances_enrollBiometric (h : Sound E registry) {fingerprint keyId : String}
    {key : List UInt8} {generation : UInt64} {next : Registry} (hkey : validPublicKey key = true)
    (henroll : registry.enrollBiometric fingerprint (keyIdOf E key) (encodeUrlSafe key) generation =
      .ok (keyId, some next)) : Advances E registry next := by
  unfold Registry.enrollBiometric at henroll
  split at henroll
  · exact absurd henroll (by simp)
  · next hrefused =>
    obtain ⟨hknown, hcurrent⟩ := Bool.or_eq_false_iff.mp (Bool.eq_false_iff.mpr hrefused)
    obtain ⟨hdisabled, hretired⟩ := Bool.or_eq_false_iff.mp hknown
    have henabled : registry.enabled fingerprint = true := by simpa using hdisabled
    obtain ⟨hidentities, hrevoked, -⟩ := retireBiometric_frame registry fingerprint
    have hnew : keyIdOf E key ∉ keyIds (registry.retireBiometric fingerprint).2 := by
      rw [(keyIds_retireBiometric registry fingerprint).mem_iff, keyIds, List.mem_append, not_or]
      refine ⟨by simpa using hretired, fun hmem => ?_⟩
      obtain ⟨entry, hentry, hsame⟩ := List.mem_map.mp hmem
      exact List.any_eq_false.mp hcurrent entry hentry (decide_eq_true hsame)
    have hadded := (h.retireBiometric fingerprint).addKey generation
      (by rw [Registry.enabled, hidentities]; exact henabled) hkey
      (device_retireBiometric h fingerprint) hnew
    have haudit : IdentityAudit.valid ⟨fingerprint, fingerprint, .biometricEnrolled,
        some (keyIdOf E key)⟩ = true := by
      have hid : validFingerprint (keyIdOf E key) = true := validSha256_hexSha256 E key
      simp [IdentityAudit.valid, h.fingerprint_valid henabled, hid, IdentityAction.biometric]
    simp only [Except.ok.injEq, Prod.mk.injEq, Option.some.injEq] at henroll
    obtain ⟨-, rfl⟩ := henroll
    exact ⟨hadded.biometricAudit haudit rfl, hrevoked ▸ List.prefix_refl _⟩

/-- INTERNAL: a revoked key. -/
theorem Sound.advances_revokeBiometric (h : Sound E registry) {fingerprint : String} {actor : Actor}
    {keyId : Option String} {next : Registry}
    (hrevoke : registry.revokeBiometric fingerprint actor = .ok (keyId, some next)) :
    Advances E registry next := by
  have hretired := h.retireBiometric fingerprint
  obtain ⟨-, hrevoked, -⟩ := retireBiometric_frame registry fingerprint
  unfold Registry.revokeBiometric at hrevoke
  rcases retireBiometric_cases registry fingerprint with ⟨heq, -⟩ | ⟨old, remaining, hperm, hdevice, heq⟩
  · rw [heq] at hrevoke
    exact absurd hrevoke (by simp)
  · have hold : old ∈ registry.biometric := hperm.subset List.mem_cons_self
    have hfingerprint := h.fingerprint_valid (h.biometric_enabled old hold)
    rw [hdevice] at hfingerprint
    have haudit : IdentityAudit.valid ⟨fingerprint, actor.text, .biometricRevoked, some old.keyId⟩ = true := by
      simp [IdentityAudit.valid, hfingerprint, h.keyId_valid hold, IdentityAction.biometric, actor.valid]
    rw [heq] at hrevoke hretired hrevoked
    simp only [Except.ok.injEq, Prod.mk.injEq, Option.some.injEq] at hrevoke
    obtain ⟨-, rfl⟩ := hrevoke
    exact ⟨hretired.biometricAudit haudit rfl, List.prefix_refl _⟩

/-- **What an operation hands to `persist_registry` is sound**, when what it read was. -/
theorem changed_advances (hread : ∀ registry, readOrInitial E file = .ok registry → Sound E registry)
    {operation : Operation} {next : Registry} (h : changed E file operation = some next) :
    ∃ registry, readOrInitial E file = .ok registry ∧ Advances E registry next := by
  cases operation with
  | enroll leaf label =>
    simp only [changed] at h
    split at h
    · exact absurd h (by simp)
    · next hlabel =>
      obtain ⟨leaf, -, hwritten⟩ := Option.bind_eq_some_iff.mp h
      obtain ⟨registry, value, hregistry, hchange⟩ := written_eq_some hwritten
      refine ⟨registry, hregistry, ?_⟩
      unfold Registry.enroll at hchange
      split at hchange
      · exact absurd hchange (by simp)
      · next hnew =>
        simp only [Except.ok.injEq, Prod.mk.injEq, Option.some.injEq] at hchange
        obtain ⟨-, rfl⟩ := hchange
        exact ⟨(hread registry hregistry).enroll (validSha256_hexSha256 E leaf) (by simpa using hlabel)
          (Bool.eq_false_iff.mpr hnew), List.prefix_refl _⟩
  | grantAdministrator fingerprint =>
    obtain ⟨registry, value, hregistry, hchange⟩ := written_eq_some h
    have hinitial := readOrInitial_of_read hregistry
    refine ⟨registry, hinitial, ?_⟩
    unfold Registry.grantAdministrator at hchange
    split at hchange
    · exact absurd hchange (by simp)
    · next henabled =>
      split at hchange
      · exact absurd hchange (by simp)
      · next hnew =>
        simp only [Except.ok.injEq, Prod.mk.injEq, Option.some.injEq] at hchange
        obtain ⟨-, rfl⟩ := hchange
        exact ⟨(hread registry hinitial).grantAdministrator (by simpa using henabled)
          (Bool.eq_false_iff.mpr hnew), List.prefix_refl _⟩
  | revoke fingerprint =>
    simp only [changed] at h
    split at h
    · exact absurd h (by simp)
    · obtain ⟨registry, value, hregistry, hchange⟩ := written_eq_some h
      have hinitial := readOrInitial_of_read hregistry
      exact ⟨registry, hinitial, (hread registry hinitial).advances_revoke hchange⟩
  | revokeOnline fingerprint actor =>
    obtain ⟨registry, value, hregistry, hchange⟩ := written_eq_some h
    have hinitial := readOrInitial_of_read hregistry
    exact ⟨registry, hinitial, (hread registry hinitial).advances_revoke hchange⟩
  | enrollBiometricOnline fingerprint publicKey generation =>
    simp only [changed] at h
    split at h
    · exact absurd h (by simp)
    · next hkey =>
      obtain ⟨registry, value, hregistry, hchange⟩ := written_eq_some h
      have hinitial := readOrInitial_of_read hregistry
      exact ⟨registry, hinitial,
        (hread registry hinitial).advances_enrollBiometric (by simpa using hkey) hchange⟩
  | revokeBiometricOnline fingerprint actor =>
    obtain ⟨registry, value, hregistry, hchange⟩ := written_eq_some h
    have hinitial := readOrInitial_of_read hregistry
    exact ⟨registry, hinitial, (hread registry hinitial).advances_revokeBiometric hchange⟩

end Steps

/-! ## Runs -/

/-- A registry as `persist_registry` leaves it in the file. -/
structure Stored (E : Externals) (registry : Registry) : Prop where
  sound : Sound E registry
  stamped : registry.stamped = registry
  retired_le : registry.retiredBiometricKeys.length ≤ MAX_RETIRED_KEYS
  size_le : registry.toJson.size ≤ MAX_REGISTRY_BYTES

/-- The file is missing, or holds a stored registry. -/
def Readable (E : Externals) (file : Option Json) : Prop :=
  ∀ document, file = some document → ∃ registry, document = registry.toJson ∧ Stored E registry

section Run

variable {E : Externals} {file : Option Json} {registry : Registry}

theorem Stored.read (h : Stored E registry) : readRegistry E (some registry.toJson) = .ok registry :=
  h.sound.readRegistry h.stamped h.retired_le h.size_le

/-- INTERNAL: what is read from such a file. -/
theorem Readable.read (h : Readable E file) (hread : readRegistry E file = .ok registry) :
    Stored E registry ∧ file = some registry.toJson := by
  cases file with
  | none => exact absurd hread (by simp [readRegistry])
  | some document =>
    obtain ⟨stored, rfl, hstored⟩ := h document rfl
    rw [hstored.read] at hread
    obtain rfl := Except.ok.inj hread
    exact ⟨hstored, rfl⟩

/-- INTERNAL: what an operation starts from is sound. -/
theorem Readable.sound (h : Readable E file) (registry : Registry)
    (hread : readOrInitial E file = .ok registry) : Sound E registry := by
  cases file with
  | none =>
    obtain rfl := Except.ok.inj hread
    exact sound_initial E
  | some document => exact (h.read hread).1.sound

theorem Sound.stored (h : Sound E registry) : Stored E registry.trimTouchIdHousekeeping where
  sound := h.trimmed (trimmed_housekeeping registry)
  stamped := (trimmed_housekeeping registry).stamped
  retired_le := retired_housekeeping_le registry
  size_le := h.housekeeping_fits

/-- INTERNAL: persisting a sound registry is never refused for its size. -/
theorem Sound.persistRegistry (h : Sound E registry) (disk : Identity.Disk) (file : Option Json) :
    persistRegistry disk file registry =
      match disk with
      | .denied | .fails => (.error .backendUnavailable, file)
      | .renames => (.error .backendUnavailable, some registry.trimTouchIdHousekeeping.toJson)
      | .completes => (.ok (), some registry.trimTouchIdHousekeeping.toJson) := by
  have hfits := Nat.not_lt.mpr h.housekeeping_fits
  unfold Identity.persistRegistry
  cases disk <;> exact if_neg hfits

/-- INTERNAL: an operation leaves the file or the trimmed registry. -/
theorem Sound.persisted (h : Sound E registry) (disk : Identity.Disk) (file : Option Json) :
    persisted disk file (some registry) = file ∨
      persisted disk file (some registry) = some registry.trimTouchIdHousekeeping.toJson := by
  rw [Identity.persisted, h.persistRegistry]
  cases disk with
  | denied => exact Or.inl rfl
  | fails => exact Or.inl rfl
  | renames => exact Or.inr rfl
  | completes => exact Or.inr rfl

/-- **One operation**: the file stays readable, and the devices revoked in it stay revoked. -/
theorem Readable.step (h : Readable E file) (step : Identity.Disk × Operation) :
    Readable E (Operation.apply E file step) ∧
      ∀ before, readRegistry E file = .ok before →
        ∃ after, readRegistry E (Operation.apply E file step) = .ok after ∧
          before.revoked.IsPrefix after.revoked := by
  obtain ⟨disk, operation⟩ := step
  have hunchanged : Readable E file ∧ ∀ before, readRegistry E file = .ok before →
      ∃ after, readRegistry E file = .ok after ∧ before.revoked.IsPrefix after.revoked :=
    ⟨h, fun before hbefore => ⟨before, hbefore, List.prefix_refl _⟩⟩
  rw [apply_eq]
  cases hchanged : changed E file operation with
  | none => exact hunchanged
  | some next =>
    obtain ⟨current, hcurrent, hadvances⟩ := changed_advances h.sound hchanged
    rcases hadvances.sound.persisted disk file with hkept | hwritten
    · rw [hkept]
      exact hunchanged
    · rw [hwritten]
      have hstored := hadvances.sound.stored
      constructor
      · intro document hdocument
        obtain rfl := Option.some.inj hdocument
        exact ⟨_, rfl, hstored⟩
      · intro before hbefore
        refine ⟨_, hstored.read, ?_⟩
        obtain rfl := Except.ok.inj ((readOrInitial_of_read hbefore).symm.trans hcurrent)
        rw [(trimmed_housekeeping next).revoked]
        exact hadvances.revoked

/-- INTERNAL: every run from a readable file. -/
theorem Readable.run (h : Readable E file) (steps : List (Identity.Disk × Operation)) :
    Readable E (steps.foldl (Operation.apply E) file) ∧
      ∀ before, readRegistry E file = .ok before →
        ∃ after, readRegistry E (steps.foldl (Operation.apply E) file) = .ok after ∧
          before.revoked.IsPrefix after.revoked := by
  induction steps generalizing file with
  | nil => exact ⟨h, fun before hbefore => ⟨before, hbefore, List.prefix_refl _⟩⟩
  | cons step steps ih =>
    obtain ⟨hreadable, hstep⟩ := h.step step
    obtain ⟨hrun, hlater⟩ := ih hreadable
    refine ⟨hrun, fun before hbefore => ?_⟩
    obtain ⟨middle, hmiddle, hbefore⟩ := hstep before hbefore
    obtain ⟨after, hafter, hbefore'⟩ := hlater middle hmiddle
    exact ⟨after, hafter, hbefore.trans hbefore'⟩

theorem readable_none (E : Externals) : Readable E none := fun _ hdocument => absurd hdocument (by simp)

theorem readable_fileAfter (E : Externals) (steps : List (Identity.Disk × Operation)) :
    Readable E (fileAfter E steps) :=
  ((readable_none E).run steps).1

end Run

/-- The conditions on a registry: enrolled and revoked devices are told apart, what refers
to a device refers to an enrolled one, and an approval key belongs to one device and is
not a retired one. -/
structure Consistent (registry : Registry) : Prop where
  disjoint : (registry.identities.map (·.fingerprint)).Disjoint (registry.revoked.map (·.fingerprint))
  administrators_enabled : ∀ fingerprint ∈ registry.administrators, registry.enabled fingerprint = true
  biometric_enabled : ∀ entry ∈ registry.biometric, registry.enabled entry.fingerprint = true
  one_key : (registry.biometric.map (·.fingerprint)).Nodup
  not_retired : (registry.biometric.map (·.keyId)).Disjoint registry.retiredBiometricKeys
  one_device : (registry.biometric.map (·.keyId)).Nodup

/-- INTERNAL: a sound registry is consistent. -/
theorem Sound.consistent {E : Externals} {registry : Registry} (h : Sound E registry) :
    Consistent registry := by
  have hdevices := h.companions_nodup
  have hkeys := h.keyIds_nodup
  rw [Registry.companions, List.map_append, List.nodup_append'] at hdevices
  rw [keyIds, List.nodup_append'] at hkeys
  exact {
    disjoint := hdevices.2.2
    administrators_enabled := h.administrators_enabled
    biometric_enabled := h.biometric_enabled
    one_key := h.devices_nodup
    not_retired := List.disjoint_symm hkeys.2.2
    one_device := hkeys.2.1 }

/-- **The registry file stays readable.** After every run of operations on an empty
directory, whatever the file system does to each write, the registry in the file is
accepted by the reader and consistent; and a device that is revoked in it stays revoked
in every later one, and is never enrolled again. -/
theorem registry_file_readable (E : Externals) (steps : List (Identity.Disk × Operation)) :
    ∀ document, fileAfter E steps = some document →
      ∃ registry, readRegistry E (some document) = .ok registry ∧ Consistent registry ∧
        ∀ (more : List (Identity.Disk × Operation)),
          ∃ later, readRegistry E (fileAfter E (steps ++ more)) = .ok later ∧ Consistent later ∧
            ∀ fingerprint ∈ registry.revoked.map (·.fingerprint),
              fingerprint ∈ later.revoked.map (·.fingerprint) ∧ later.enabled fingerprint = false := by
  intro document hdocument
  obtain ⟨registry, rfl, hstored⟩ := readable_fileAfter E steps document hdocument
  refine ⟨registry, hstored.read, hstored.sound.consistent, fun more => ?_⟩
  have hread : readRegistry E (fileAfter E steps) = .ok registry := by
    rw [hdocument]
    exact hstored.read
  obtain ⟨later, hlater, hbefore⟩ := ((readable_fileAfter E steps).run more).2 registry hread
  rw [fileAfter, ← List.foldl_append] at hlater
  have hconsistent := ((readable_fileAfter E (steps ++ more)).read hlater).1.sound.consistent
  refine ⟨later, hlater, hconsistent, fun fingerprint hfingerprint => ?_⟩
  have hrevoked := (hbefore.map (·.fingerprint)).subset hfingerprint
  refine ⟨hrevoked, Bool.eq_false_iff.mpr fun henabled => ?_⟩
  exact hconsistent.disjoint (enabled_iff.mp henabled) hrevoked

/-- A hash for the example. -/
def zeroHash : Externals := ⟨fun _ => Vector.replicate 32 0, fun _ => true, fun _ _ _ => true⟩

/-- The file after the first device. -/
theorem registry_file_readable_first :
    ∃ registry, readRegistry zeroHash (fileAfter zeroHash [(.completes, .enroll (.ok []) "laptop")]) =
      .ok registry ∧ Consistent registry := by
  obtain ⟨made, hmade⟩ : ∃ made, changed zeroHash none (.enroll (.ok []) "laptop") = some made :=
    ⟨_, rfl⟩
  obtain ⟨_, _, hadvances⟩ := changed_advances (readable_none zeroHash).sound hmade
  obtain ⟨document, hdocument⟩ : ∃ document,
      fileAfter zeroHash [(.completes, .enroll (.ok []) "laptop")] = some document := by
    refine ⟨made.trimTouchIdHousekeeping.toJson, ?_⟩
    rw [fileAfter, List.foldl_cons, List.foldl_nil, apply_eq, hmade, persisted,
      hadvances.sound.persistRegistry .completes none]
  obtain ⟨registry, hread, hconsistent, -⟩ := registry_file_readable zeroHash _ document hdocument
  exact ⟨registry, hdocument ▸ hread, hconsistent⟩

end VaultAccess.Analysis.Identity
