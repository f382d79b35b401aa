import VaultAccess.Library.Past
import VaultAccess.Model.Leases

/-!
# A unit that may be in use keeps its lease

Whatever actions fail and wherever a provider stops: from the start of a unit until an
observation finds it unused, its lease is complete on disk; a lease is removed only after
such an observation or after a collision of names that started nothing; a recovery writes
the lease of every owned unit it sees before it removes one; and what an interrupted
recording left is swept by the next reading of the leases.
-/

set_option autoImplicit false

namespace VaultAccess.Analysis.Leases

open VaultAccess.Library VaultAccess.Library.Text VaultAccess.Model.Manager VaultAccess.Model.Leases
open VaultAccess.Model (ExecutionError CleanupEvidence hex)

/-! ## Names -/

section Names

variable {config : Config}

theorem isLowerHex_hexDigit : ∀ n < 16, isLowerHex (Json.hexDigit n) = true := by decide

/-- INTERNAL: random bytes make a nonce. -/
theorem isNonce_nonceOf (random : Vector UInt8 16) : isNonce (nonceOf random).toList = true := by
  rw [nonceOf, String.toList_ofList, isNonce, Bool.and_eq_true, decide_eq_true_eq, List.all_eq_true]
  constructor
  · rw [hex, List.length_flatMap]
    simp
  · intro c hc
    simp only [hex, List.mem_flatMap, List.mem_cons, List.not_mem_nil, or_false] at hc
    obtain ⟨byte, -, hc⟩ := hc
    have hlt := byte.toNat_lt
    rcases hc with rfl | rfl
    · apply isLowerHex_hexDigit
      omega
    · apply isLowerHex_hexDigit
      omega

/-- INTERNAL: an owned name, part by part. -/
theorem ownsName_iff {name : String} : config.ownsName name = true ↔
    ∃ digits, isNonce digits = true ∧
      name.toList = config.unitPrefix.toList ++ digits ++ ".service".toList := by
  constructor
  · intro h
    unfold Config.ownsName at h
    split at h
    · exact absurd h (by simp)
    · next rest hrest =>
      split at h
      · exact absurd h (by simp)
      · next digits hdigits =>
        obtain ⟨front, hname, hfront⟩ := List.dropPrefix?_eq_some_iff.mp hrest
        obtain ⟨back, hback, hservice⟩ := List.dropSuffix?_eq_some_iff.mp hdigits
        refine ⟨digits, h, ?_⟩
        rw [hname, hback, eq_of_beq hfront, eq_of_beq hservice, List.append_assoc]
  · rintro ⟨digits, hdigits, hname⟩
    have hstart : name.toList.dropPrefix? config.unitPrefix.toList =
        some (digits ++ ".service".toList) := by
      rw [hname, List.append_assoc]
      exact List.dropPrefix?_append_of_beq _ (by simp)
    have hsuffix : (digits ++ ".service".toList).dropSuffix? ".service".toList = some digits :=
      List.dropSuffix?_eq_some_iff.mpr ⟨_, rfl, by simp⟩
    unfold Config.ownsName
    rw [hstart]
    simp only [hsuffix]
    exact hdigits

/-- INTERNAL: a text is split at its last separator. -/
theorem rsplitOnce_append {separator : Char} {front back : List Char} (h : separator ∉ back) :
    rsplitOnce separator (front ++ separator :: back) = some (front, back) := by
  have htake : ((front ++ separator :: back).reverse.takeWhile (· ≠ separator)).reverse = back := by
    rw [List.reverse_append, List.reverse_cons, List.append_assoc, List.takeWhile_append_of_pos]
    · simp
    · intro c hc
      simp only [ne_eq, decide_eq_true_eq]
      rintro rfl
      exact h (List.mem_reverse.mp hc)
  unfold rsplitOnce
  simp only [htake]
  rw [if_pos (by simp)]
  simp only [List.length_append, List.length_cons]
  rw [show front.length + (back.length + 1) - back.length - 1 = front.length by omega, List.take_left]

theorem dot_not_mem_nonce {digits : List Char} (h : isNonce digits = true) : '.' ∉ digits := by
  intro hmem
  rw [isNonce, Bool.and_eq_true, List.all_eq_true] at h
  exact absurd (h.2 '.' hmem) (by decide)

/-- **A staging file of an owned name is taken for one.** -/
theorem kind_stagingPath {name : String} (h : config.ownsName name = true) (random : Vector UInt8 16) :
    config.kind (stagingPath name random) = .staging := by
  have hlist : (stagingPath name random).toList =
      ".staging.".toList ++ (name.toList ++ '.' :: (nonceOf random).toList) := by
    simp [stagingPath]
  have hdrop : (stagingPath name random).toList.dropPrefix? ".staging.".toList =
      some (name.toList ++ '.' :: (nonceOf random).toList) := by
    rw [hlist]
    exact List.dropPrefix?_append_of_beq _ (by simp)
  have hnonce := isNonce_nonceOf random
  have hstaging : config.ownsStaging (stagingPath name random) = true := by
    unfold Config.ownsStaging
    rw [hdrop]
    simp only [rsplitOnce_append (dot_not_mem_nonce hnonce), String.ofList_toList, h, hnonce, Bool.and_self]
  rw [Config.kind, if_pos hstaging]

/-- INTERNAL: an owned name does not begin like a staging file. -/
theorem ownsStaging_of_ownsName {name : String} (h : config.ownsName name = true) (back : String) :
    config.ownsStaging (name ++ back) = false := by
  obtain ⟨digits, -, hname⟩ := ownsName_iff.mp h
  have hdrop : (name ++ back).toList.dropPrefix? ".staging.".toList = none := by
    cases hrest : (name ++ back).toList.dropPrefix? ".staging.".toList with
    | none => rfl
    | some rest =>
      obtain ⟨front, hfull, hfront⟩ := List.dropPrefix?_eq_some_iff.mp hrest
      rw [eq_of_beq hfront, String.toList_append, hname] at hfull
      simp [Config.unitPrefix] at hfull
  unfold Config.ownsStaging
  rw [hdrop]

/-- **The lease file of an owned name is taken for one.** -/
theorem kind_leasePath {name : String} (h : config.ownsName name = true) :
    config.kind (leasePath name) = .lease name := by
  have hdrop : (leasePath name).toList.dropSuffix? ".json".toList = some name.toList :=
    List.dropSuffix?_eq_some_iff.mpr ⟨".json".toList, by simp [leasePath], by simp⟩
  rw [Config.kind, if_neg (by rw [leasePath, ownsStaging_of_ownsName h]; simp), hdrop]
  simp only [String.ofList_toList, h, if_true]

/-- **What is taken for a lease file is the lease file of an owned name.** -/
theorem eq_leasePath {filename name : String} (h : config.kind filename = .lease name) :
    filename = leasePath name ∧ config.ownsName name = true := by
  unfold Config.kind at h
  split at h
  · exact absurd h (by simp)
  · split at h
    · exact absurd h (by simp)
    · next rest hrest =>
      split at h
      · next howned =>
        obtain rfl := Kind.lease.inj h
        obtain ⟨back, hfull, hback⟩ := List.dropSuffix?_eq_some_iff.mp hrest
        refine ⟨?_, howned⟩
        apply String.toList_inj.mp
        rw [hfull, eq_of_beq hback]
        simp [leasePath]
      · exact absurd h (by simp)

end Names

/-! ## What a directory and a history hold -/

section Facts

variable (S : Setup)

/-- The lease is complete on disk. -/
def OnDisk (m : Mem) (lease : Lease) : Prop :=
  S.config.ownsName lease.name = true ∧
    ∃ file, (leasePath lease.name, file) ∈ m.files ∧ file.content = encode lease

/-- What may lie in the directory: private files, either staged or complete leases. -/
def Proper (e : String × File) : Prop :=
  e.2.isPrivate S.process.uid = true ∧
    (S.config.kind e.1 = .staging ∨ ∃ lease : Lease, S.config.ownsName lease.name = true ∧
      e.1 = leasePath lease.name ∧ e.2.content = encode lease)

/-- The unit was started and not seen unused since. -/
def MayRun (events : List Event) (lease : Lease) : Prop :=
  Since (fun _ e => e = .started lease) (fun e => e ≠ .unused lease) events

/-- The unit was seen in this life and not seen unused since. -/
def Spotted (events : List Event) (lease : Lease) : Prop :=
  Since (fun _ e => e = .seen lease) (fun e => e ≠ .unused lease ∧ e ≠ .restarted) events

/-- A unit of the name was seen unused or collided, and none was started since. -/
def Ended (name : String) (events : List Event) : Prop :=
  Since (fun _ e => ∃ lease : Lease, lease.name = name ∧ (e = .unused lease ∨ e = .collided lease))
    (fun e => ∀ lease : Lease, lease.name = name → e ≠ .started lease) events

/-- Nothing was forgotten or started in this life. -/
def Early (events : List Event) : Prop :=
  Since (fun _ e => e = .restarted) (fun e => (∀ name, e ≠ .forgot name) ∧ ∀ lease, e ≠ .started lease) events

/-- What holds wherever a provider stops. -/
structure Base (m : Mem) : Prop where
  proper : ∀ e ∈ m.files, Proper S e
  unique : ∀ e ∈ m.files, ∀ e' ∈ m.files, e.1 = e'.1 → e = e'
  kept : ∀ lease, MayRun m.events lease → OnDisk S m lease
  ended : ∀ front name back, m.events = front ++ .forgot name :: back → Ended name front

/-- Every unit that was seen in this life has its lease. -/
def Scanned (m : Mem) : Prop := ∀ lease, Spotted m.events lease → OnDisk S m lease

/-- No lease was removed in this life, or every unit that was seen has its lease. -/
def Inv (m : Mem) : Prop := Base S m ∧ (Early m.events ∨ Scanned S m)

/-- A provider that has recovered. -/
def Ready (m : Mem) : Prop := Base S m ∧ Scanned S m

end Facts

section Facts

variable {S : Setup} {m m' : Mem} {lease lease' : Lease} {events : List Event} {event : Event}

theorem mayRun_snoc : MayRun (events ++ [event]) lease ↔
    event = .started lease ∨ MayRun events lease ∧ event ≠ .unused lease := since_snoc

theorem spotted_snoc : Spotted (events ++ [event]) lease ↔
    event = .seen lease ∨ Spotted events lease ∧ event ≠ .unused lease ∧ event ≠ .restarted := since_snoc

theorem ended_snoc {name : String} : Ended name (events ++ [event]) ↔
    (∃ lease : Lease, lease.name = name ∧ (event = .unused lease ∨ event = .collided lease)) ∨
      Ended name events ∧ ∀ lease : Lease, lease.name = name → event ≠ .started lease := since_snoc

theorem early_snoc : Early (events ++ [event]) ↔
    event = .restarted ∨ Early events ∧ (∀ name, event ≠ .forgot name) ∧ ∀ lease, event ≠ .started lease :=
  since_snoc

theorem encode_inj (codec : Codec) (h : encode lease = encode lease') : lease = lease' := by
  have hread := codec.decodes lease
  rw [h, codec.decodes lease'] at hread
  exact (Option.some.inj hread).symm

/-- INTERNAL: the file of a lease that is on disk. -/
theorem Base.content (h : Base S m) (hdisk : OnDisk S m lease) {file : File}
    (hfile : (leasePath lease.name, file) ∈ m.files) : file.content = encode lease := by
  obtain ⟨-, file', hfile', hcontent⟩ := hdisk
  have heq := h.unique _ hfile _ hfile' rfl
  rw [(Prod.mk.inj heq).2]
  exact hcontent

theorem Proper.complete {e : String × File} (h : Proper S e) (hkind : S.config.kind e.1 ≠ .staging) :
    ∃ lease : Lease, S.config.ownsName lease.name = true ∧ e.1 = leasePath lease.name ∧
      e.2.content = encode lease :=
  h.2.resolve_left hkind

/-- INTERNAL: one more event that no unit starts with and that removes nothing. -/
theorem Base.log (h : Base S m) (hstarted : ∀ lease, event = .started lease → OnDisk S m lease)
    (hforgot : ∀ name, event ≠ .forgot name) : Base S (m.log event) := by
  constructor
  · exact h.proper
  · exact h.unique
  · intro lease hmay
    rcases mayRun_snoc.mp hmay with hnew | ⟨hold, -⟩
    · exact hstarted lease hnew
    · exact h.kept lease hold
  · intro front name back hsplit
    rcases split_snoc hsplit with ⟨-, hnew, -⟩ | ⟨rest, -, hold⟩
    · exact absurd hnew.symm (hforgot name)
    · exact h.ended front name rest hold

/-- INTERNAL: one more event in a life that has recovered. -/
theorem Scanned.log (h : Scanned S m) (hseen : ∀ lease, event = .seen lease → OnDisk S m lease) :
    Scanned S (m.log event) := by
  intro lease hspotted
  rcases spotted_snoc.mp hspotted with hnew | ⟨hold, -⟩
  · exact hseen lease hnew
  · exact h lease hold

/-- INTERNAL: a new life. -/
theorem Inv.restarted (h : Inv S m) :
    Base S { m with healthy := true, events := m.events ++ [.restarted] } ∧
      Early (m.events ++ [.restarted]) ∧
      Scanned S { m with healthy := true, events := m.events ++ [.restarted] } := by
  refine ⟨?_, early_snoc.mpr (Or.inl rfl), ?_⟩
  · have hlog : Base S (m.log .restarted) := h.1.log (by simp) (by simp)
    exact ⟨hlog.proper, hlog.unique, hlog.kept, hlog.ended⟩
  · intro lease hspotted
    rcases spotted_snoc.mp hspotted with hnew | ⟨-, -, hno⟩
    · exact absurd hnew (by simp)
    · exact absurd rfl hno

end Facts

end VaultAccess.Analysis.Leases
