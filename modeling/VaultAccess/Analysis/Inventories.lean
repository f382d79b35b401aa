import Mathlib.Data.List.Count
import VaultAccess.Analysis.Identities
import VaultAccess.Analysis.Registry
import VaultAccess.Model.Inventory

/-!
# Following the cursors of the list of identities

The keys of an inventory are distinct: the fingerprints of a readable registry are, the ids of a
readable provider state are, and the kind tells the two apart. So the pages of
`VaultAccess.Library.Pages` show each identity once, also while identities are added or revoked.
-/

set_option autoImplicit false

namespace VaultAccess.Analysis.Inventories

open VaultAccess.Library VaultAccess.Library.Text VaultAccess.Model.Inventory
open VaultAccess.Library.Pages (page follow rowsOf Finished Sorted behind)
open VaultAccess.Model (Externals Disk ProviderState AgentBindingView AgentBinding validRequestId splitOnce)
open VaultAccess.Model.Identity (Registry EnrolledCompanion validFingerprint readRegistry)

/-- The key of a row. -/
abbrev keyOf (row : Identity) : String := row.target.key

/-! ## Keys -/

/-- INTERNAL: a key is its kind and its id. -/
theorem split_key (target : Target) :
    splitOnce ':' target.key.toList = some (target.kind.wire.toList, target.id.toList) := by
  have hkey : target.key.toList = target.kind.wire.toList ++ ':' :: target.id.toList := by
    rw [Target.key, String.toList_append, String.toList_append, List.append_assoc]
    rfl
  have hnone : (target.kind.wire.toList.all fun c => decide (c ≠ ':')) = true := by
    cases target.kind <;> rfl
  have hkind := List.all_eq_true.mp hnone
  rw [hkey, splitOnce, List.span_eq_takeWhile_dropWhile, List.takeWhile_append_of_pos hkind,
    List.dropWhile_append_of_pos hkind]
  simp

theorem wire_injective : ∀ a b : Kind, a.wire.toList = b.wire.toList → a = b := by
  intro a b
  cases a <;> cases b <;> decide

/-- INTERNAL: keys tell targets apart. -/
theorem key_injective : Function.Injective Target.key := by
  intro a b h
  have hsplit := split_key a
  rw [h, split_key b] at hsplit
  obtain ⟨hkind, hid⟩ := Prod.mk.inj (Option.some.inj hsplit)
  have hids : b.id = a.id := String.toList_inj.mp hid
  have hkinds : b.kind = a.kind := wire_injective _ _ hkind
  obtain ⟨kind, id⟩ := a
  obtain ⟨kind', id'⟩ := b
  dsimp only at hids hkinds
  rw [hids, hkinds]

/-- The id is one that its kind has. -/
def Well (row : Identity) : Prop :=
  match row.kind with
  | .approvalClient => validFingerprint row.id = true
  | .requesterAgent => validRequestId row.id = true

/-- INTERNAL: the key of such a row is a cursor. -/
theorem Well.cursorValid {row : Identity} (h : Well row) : cursorValid (keyOf row) = true := by
  unfold VaultAccess.Model.Inventory.cursorValid
  rw [show keyOf row = row.target.key from rfl, split_key]
  dsimp only
  rw [String.ofList_toList]
  obtain ⟨kind, id, label, fingerprint, roles, trust, thisClient⟩ := row
  cases kind with
  | approvalClient =>
    have hname : Kind.approvalClient.wire.toList = "approval_client".toList := rfl
    exact (if_pos hname).trans h
  | requesterAgent =>
    have hother : Kind.requesterAgent.wire.toList ≠ "approval_client".toList := by decide
    have hname : Kind.requesterAgent.wire.toList = "requester_agent".toList := rfl
    exact (if_neg hother).trans ((if_pos hname).trans h)

/-! ## The inventory -/

section Inventory

variable {E : Externals} {ownerUid : UInt32} {actor : String} {reads : Reads}

/-- INTERNAL: the companions of a readable registry. -/
theorem companions_of_read {file : Option Json} {registry : Registry} (h : readRegistry E file = .ok registry) :
    (registry.companions.map (·.fingerprint)).Nodup ∧
      ∀ entry ∈ registry.companions, validFingerprint entry.fingerprint = true := by
  have hvalid : registry.valid E = true := by
    unfold readRegistry at h
    split at h
    · cases h
    split at h
    · cases h
    split at h
    · cases h
    split at h
    · next hvalid =>
      cases h
      exact hvalid
    · cases h
  unfold Registry.valid at hvalid
  simp only [Bool.and_eq_true, decide_eq_true_eq, List.all_eq_true] at hvalid
  exact ⟨hvalid.1.1.1.1.1.1.2, fun entry hentry => (hvalid.1.1.1.1.1.1.1.2 entry hentry).1⟩

/-- INTERNAL: the agents of a readable provider state. -/
theorem agents_of_read {disk : Disk} {state : Option ProviderState} {agents : List AgentBindingView}
    (h : listAgents E disk ownerUid state = some agents) :
    (agents.map (·.id)).Nodup ∧ ∀ agent ∈ agents, validRequestId agent.id = true := by
  unfold listAgents at h
  cases state with
  | none => cases h
  | some s =>
    simp only [Option.bind_some] at h
    split at h
    · next hvalid =>
      cases h
      have hregistry : VaultAccess.Model.validateRegistry E s.pairings s.agentAudit ownerUid = true := by
        unfold ProviderState.validateForOwner at hvalid
        simp only [Bool.and_eq_true] at hvalid
        exact hvalid.1.1.1.1.1.1.1.1.2
      have hvalidated := (VaultAccess.Analysis.validateRegistry_iff _ _).mp hregistry
      rw [List.map_map]
      refine ⟨hvalidated.ids, ?_⟩
      intro agent hagent
      obtain ⟨b, hb, rfl⟩ := List.mem_map.mp hagent
      have hbinding := hvalidated.valid b hb
      unfold AgentBinding.validate at hbinding
      split at hbinding
      · simp only [Bool.and_eq_true] at hbinding
        exact hbinding.1.1.1.1.1
      · cases hbinding
    · cases h

/-- INTERNAL: the targets of the rows. -/
theorem targets_merged (registry : Registry) (agents : List AgentBindingView) :
    (merged actor registry agents).map Identity.target =
      registry.companions.map (fun entry => ⟨.approvalClient, entry.fingerprint⟩) ++
        agents.map fun agent => ⟨.requesterAgent, agent.id⟩ := by
  unfold merged managementRecords Registry.companions
  simp only [List.map_append, List.map_map]
  rfl

/-- INTERNAL: **the keys of the rows are distinct.** -/
theorem nodup_merged {registry : Registry} {agents : List AgentBindingView}
    (hclients : (registry.companions.map (·.fingerprint)).Nodup) (hids : (agents.map (·.id)).Nodup) :
    ((merged actor registry agents).map keyOf).Nodup := by
  have hkeys : (merged actor registry agents).map keyOf =
      ((merged actor registry agents).map Identity.target).map Target.key := by
    rw [List.map_map]
    rfl
  rw [hkeys, targets_merged]
  apply List.Nodup.map key_injective
  apply List.nodup_append'.mpr
  refine ⟨?_, ?_, ?_⟩
  · apply List.Nodup.of_map Target.id
    rw [List.map_map]
    exact hclients
  · apply List.Nodup.of_map Target.id
    rw [List.map_map]
    exact hids
  · intro target hclient hagent
    obtain ⟨entry, -, rfl⟩ := List.mem_map.mp hclient
    obtain ⟨agent, -, hsame⟩ := List.mem_map.mp hagent
    exact absurd (congrArg Target.kind hsame) (by simp)

/-- INTERNAL: the ids of the rows. -/
theorem well_merged {registry : Registry} {agents : List AgentBindingView}
    (hclients : ∀ entry ∈ registry.companions, validFingerprint entry.fingerprint = true)
    (hids : ∀ agent ∈ agents, validRequestId agent.id = true) :
    ∀ row ∈ merged actor registry agents, Well row := by
  intro row hrow
  have htarget := List.mem_map_of_mem (f := Identity.target) hrow
  rw [targets_merged] at htarget
  unfold Well
  rcases List.mem_append.mp htarget with hclient | hagent
  · obtain ⟨entry, hentry, hsame⟩ := List.mem_map.mp hclient
    rw [show row.kind = .approvalClient from (congrArg Target.kind hsame).symm,
      show row.id = entry.fingerprint from (congrArg Target.id hsame).symm]
    exact hclients entry hentry
  · obtain ⟨agent, hmem, hsame⟩ := List.mem_map.mp hagent
    rw [show row.kind = .requesterAgent from (congrArg Target.kind hsame).symm,
      show row.id = agent.id from (congrArg Target.id hsame).symm]
    exact hids agent hmem

/-- INTERNAL: **an inventory is in the order of its keys**, and its keys are cursors. -/
theorem inventory_sorted {rows : List Identity} (h : inventory E ownerUid actor reads = .ok rows) :
    Sorted keyOf rows ∧ ∀ row ∈ rows, Well row := by
  unfold inventory at h
  cases hregistry : readRegistry E reads.registry with
  | error error =>
    rw [hregistry] at h
    cases h
  | ok registry =>
    rw [hregistry] at h
    cases hagents : listAgents E reads.disk ownerUid reads.state with
    | none =>
      rw [hagents] at h
      cases h
    | some agents =>
      rw [hagents] at h
      obtain ⟨hclients, hfingerprints⟩ := companions_of_read hregistry
      obtain ⟨hids, hrequests⟩ := agents_of_read hagents
      have hrows : sortByKey keyOf (merged actor registry agents) = rows := Except.ok.inj h
      rw [← hrows]
      have hperm := perm_sortByKey keyOf (merged actor registry agents)
      have hkeys := (hperm.map keyOf).nodup_iff.mpr (nodup_merged hclients hids)
      have hsorted := pairwise_sortByKey keyOf (merged actor registry agents)
      constructor
      · exact (hsorted.and (List.pairwise_map.mp hkeys)).imp fun hboth => lt_of_le_of_ne hboth.1 hboth.2
      · intro row hrow
        exact well_merged hfingerprints hrequests row (hperm.mem_iff.mp hrow)

end Inventory

/-! ## Pages -/

section Pages

variable (E : Externals) (ownerUid : UInt32) (actor : String)

/-- A command that can be answered: its reads succeed, and the actor is an administrator. -/
structure Answerable (reads : Reads) (rows : List Identity) : Prop where
  administrator : ∃ registry, readRegistry E reads.administrators = .ok registry ∧
    registry.administrators.contains actor = true
  generation : reads.generation.isSome = true
  inventory : inventory E ownerUid actor reads = .ok rows
  keys : ∃ registry, readRegistry E reads.keys = .ok registry

/-- The identities and the cursor of the answers. -/
def ask (version : ℕ) (reads : ℕ → Reads) (limits : ℕ → ℕ) (i : ℕ) (after : Option String) :
    List Identity × Option String :=
  match identityList E ownerUid actor (reads i) version (limits i) after with
  | .ok listing => (listing.identities.map (·.identity), listing.nextCursor)
  | .error _ => ([], none)

variable {E ownerUid actor}

/-- INTERNAL: the identities of the rows of a response. -/
theorem rowsFor_ok {reads : Reads} {registry : Registry} (h : readRegistry E reads.keys = .ok registry)
    (version : ℕ) (rows : List Identity) :
    ∃ shown, rowsFor E reads version rows = .ok shown ∧ shown.map (·.identity) = rows := by
  unfold rowsFor
  split
  · rw [h]
    refine ⟨_, rfl, ?_⟩
    rw [List.map_map]
    exact List.map_id rows
  · refine ⟨_, rfl, ?_⟩
    rw [List.map_map]
    exact List.map_id rows

/-- INTERNAL: **an answer is a page of the inventory.** -/
theorem identityList_ok {reads : Reads} {rows : List Identity} (h : Answerable E ownerUid actor reads rows)
    {version limit : ℕ} {after : Option String} (hvalid : valid version limit after = true) :
    ∃ listing, identityList E ownerUid actor reads version limit after = .ok listing ∧
      (listing.identities.map (·.identity), listing.nextCursor) = page keyOf rows limit after := by
  obtain ⟨administrators, hadministrators, hactor⟩ := h.administrator
  obtain ⟨generation, hgeneration⟩ := Option.isSome_iff_exists.mp h.generation
  obtain ⟨keys, hkeys⟩ := h.keys
  obtain ⟨shown, hshown, hidentities⟩ := rowsFor_ok hkeys version (page keyOf rows limit after).1
  unfold identityList
  rw [hvalid, hadministrators, hgeneration, h.inventory]
  simp only [Bool.not_true, Bool.false_eq_true, if_false, hactor, Bind.bind, Except.bind, pure, Except.pure]
  rw [show rowsFor E reads version (page (fun row : Identity => row.target.key) rows limit after).1 = .ok shown
    from hshown]
  refine ⟨_, rfl, ?_⟩
  dsimp only
  rw [hidentities]

variable {version : ℕ} {reads : ℕ → Reads} {views : ℕ → List Identity} {limits : ℕ → ℕ}

/-- The commands are of a version that is served, with limits it admits, and can be answered. -/
structure Served (E : Externals) (ownerUid : UInt32) (actor : String) (version : ℕ) (reads : ℕ → Reads)
    (views : ℕ → List Identity) (limits : ℕ → ℕ) : Prop where
  version : version = 2 ∨ version = 3
  limits : ∀ i, 1 ≤ limits i ∧ limits i ≤ MAX_PAGE
  answerable : ∀ i, Answerable E ownerUid actor (reads i) (views i)

/-- INTERNAL: a command that is valid is answered with a page. -/
theorem Served.ask (h : Served E ownerUid actor version reads views limits) (i : ℕ) {after : Option String}
    (hafter : after.all cursorValid = true) :
    (∃ listing, identityList E ownerUid actor (reads i) version (limits i) after = .ok listing) ∧
      ask E ownerUid actor version reads limits i after = page keyOf (views i) (limits i) after := by
  have hvalid : valid version (limits i) after = true := by
    unfold valid
    simp only [Bool.and_eq_true, Bool.or_eq_true, decide_eq_true_eq]
    exact ⟨⟨h.version, h.limits i⟩, hafter⟩
  obtain ⟨listing, hlisting, hpage⟩ := identityList_ok (h.answerable i) hvalid
  refine ⟨⟨listing, hlisting⟩, ?_⟩
  unfold Inventories.ask
  rw [hlisting]
  exact hpage

theorem Served.sorted (h : Served E ownerUid actor version reads views limits) (i : ℕ) :
    Sorted keyOf (views i) := (inventory_sorted (h.answerable i).inventory).1

/-- INTERNAL: the cursor of a page is valid. -/
theorem Served.cursor (h : Served E ownerUid actor version reads views limits) (i : ℕ) {after : Option String}
    {cursor : String} (hcursor : (page keyOf (views i) (limits i) after).2 = some cursor) :
    cursorValid cursor = true := by
  obtain ⟨row, hrow, rfl, -⟩ := Pages.page_cursor (h.sorted i) hcursor
  have hwell := (inventory_sorted (h.answerable i).inventory).2 row (Pages.mem_page hrow).1
  exact hwell.cursorValid

/-- INTERNAL: **following the answers is following the pages.** -/
theorem Served.follow (h : Served E ownerUid actor version reads views limits) (fuel i : ℕ)
    {after : Option String} (hafter : after.all cursorValid = true) :
    follow (Inventories.ask E ownerUid actor version reads limits) fuel i after =
      follow (fun i after => page keyOf (views i) (limits i) after) fuel i after := by
  induction fuel generalizing i after with
  | zero => rfl
  | succ fuel ih =>
    unfold Pages.follow
    rw [(h.ask i hafter).2]
    congr 1
    cases hcursor : (page keyOf (views i) (limits i) after).2 with
    | none => rfl
    | some cursor =>
      have hvalid : (some cursor).all cursorValid = true := h.cursor i hcursor
      exact ih (i + 1) hvalid

/-- What following the cursors from the first page shows. -/
structure Paged (E : Externals) (ownerUid : UInt32) (actor : String) (version : ℕ) (reads : ℕ → Reads)
    (views : ℕ → List Identity) (limits : ℕ → ℕ) : Prop where
  /-- Every cursor that is given is valid, so that the command that gives it back is answered. -/
  cursors : ∀ fuel shown cursor,
    (shown, some cursor) ∈ follow (ask E ownerUid actor version reads limits) fuel 0 none →
      cursorValid cursor = true
  answered : ∀ i after, after.all cursorValid = true →
    ∃ listing, identityList E ownerUid actor (reads i) version (limits i) after = .ok listing
  /-- An inventory that stays as it is is shown once, in its order, by at most one page more than it
  has identities, and then there is no cursor. -/
  fixed : ∀ rows, (∀ i, views i = rows) → ∀ fuel, rows.length < fuel →
    rowsOf (follow (ask E ownerUid actor version reads limits) fuel 0 none) = rows ∧
      Finished (follow (ask E ownerUid actor version reads limits) fuel 0 none)
  distinct : ∀ i, ((views i).map Identity.target).Nodup
  /-- An identity that is there all the time is shown exactly once. -/
  once : ∀ target, (∀ i, ∃ row ∈ views i, row.target = target) → ∀ fuel,
    Finished (follow (ask E ownerUid actor version reads limits) fuel 0 none) →
    ((rowsOf (follow (ask E ownerUid actor version reads limits) fuel 0 none)).map Identity.target).count
      target = 1

/-- INTERNAL: a registry of one administrator. -/
def oneClient : Registry :=
  ⟨2, [⟨String.ofList (List.replicate 64 'a'), "laptop"⟩], [], [String.ofList (List.replicate 64 'a')], [], [], []⟩

/-- INTERNAL: externals for the sample. -/
def someExternals : Externals := ⟨fun _ => Vector.replicate 32 0, fun _ => true, fun _ _ _ => true⟩

/-- INTERNAL: what is read of it and of a provider without agents. -/
def oneReads : Reads :=
  ⟨some oneClient.toJson, some 0, some oneClient.toJson, some VaultAccess.Model.ProviderState.initial, ⟨fun _ => none⟩,
    some oneClient.toJson, "", none, true⟩

/-- INTERNAL: its registry is readable. -/
theorem read_oneClient : readRegistry someExternals (some oneClient.toJson) = .ok oneClient := by
  have hsize : oneClient.toJson.size ≤ VaultAccess.Model.Identity.MAX_REGISTRY_BYTES := by decide +kernel
  have hvalid : oneClient.valid someExternals = true := by decide +kernel
  unfold readRegistry
  simp only [VaultAccess.Analysis.Identity.ofJson_toJson]
  rw [if_neg (Nat.not_lt.mpr hsize), if_pos hvalid]

end Pages

end VaultAccess.Analysis.Inventories
