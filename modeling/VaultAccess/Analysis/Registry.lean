import VaultAccess.Model.Provider

/-!
# The registry of agents stays valid

Pairing appends a binding and its event; revoking changes the status of one binding
and appends its event. Both keep what `validate_registry` checks: identifiers, keys
and enabled labels are distinct, and the audit tells the status of every binding.
-/

set_option autoImplicit false

namespace VaultAccess.Analysis

open VaultAccess.Library VaultAccess.Model

variable {E : Externals} {providerUid : UInt32}

/-- A valid registry in one piece. -/
structure RegistryValid (E : Externals) (bindings : List AgentBinding) (audit : List AgentAuditEvent)
    (providerUid : UInt32) : Prop where
  valid : ∀ b ∈ bindings, b.validate E providerUid = true
  ids : (bindings.map (·.id)).Nodup
  keys : (bindings.map (·.publicKey)).Nodup
  labels : ((bindings.filter (·.status = .enabled)).map (·.label)).Nodup
  told : ∃ actions, auditLoop bindings providerUid [] audit = some actions ∧
    ∀ b ∈ bindings, actions.lookup b.id = some b.status.lastAction

/-- INTERNAL: what the validator checks. -/
theorem validateRegistry_iff (bindings : List AgentBinding) (audit : List AgentAuditEvent) :
    validateRegistry E bindings audit providerUid = true ↔
      RegistryValid E bindings audit providerUid := by
  unfold validateRegistry
  constructor
  · intro h
    simp only [Bool.and_eq_true, decide_eq_true_eq, List.all_eq_true] at h
    obtain ⟨⟨⟨⟨hbindings, hids⟩, hkeys⟩, hlabels⟩, haudit⟩ := h
    refine ⟨hbindings, hids, hkeys, hlabels, ?_⟩
    split at haudit
    · rename_i actions hactions
      exact ⟨actions, hactions, by simpa using haudit⟩
    · simp at haudit
  · intro h
    obtain ⟨actions, hactions, hlast⟩ := h.told
    simp only [Bool.and_eq_true, decide_eq_true_eq, List.all_eq_true, hactions]
    exact ⟨⟨⟨⟨h.valid, h.ids⟩, h.keys⟩, h.labels⟩, hlast⟩

/-! ## The audit loop -/

/-- INTERNAL: more events. -/
theorem auditLoop_append (bindings : List AgentBinding) (before after : List (String × AgentAuditAction))
    (events more : List AgentAuditEvent)
    (h : auditLoop bindings providerUid before events = some after) :
    auditLoop bindings providerUid before (events ++ more) =
      auditLoop bindings providerUid after more := by
  induction events generalizing before with
  | nil =>
    simp only [auditLoop, Option.some.injEq] at h
    rw [h, List.nil_append]
  | cons a events ih =>
    simp only [auditLoop, List.cons_append] at h ⊢
    split at h
    · simp at h
    · split_ifs at h ⊢ with hevent
      split at h
      · exact ih _ h
      · exact ih _ h
      · simp at h

/-- INTERNAL: the loop reads bindings only through their audit fields. -/
theorem auditLoop_congr (bindings bindings' : List AgentBinding)
    (actions : List (String × AgentAuditAction)) (events : List AgentAuditEvent)
    (hfind : ∀ e ∈ events, ∀ b, bindings.find? (·.id = e.bindingId) = some b →
      ∃ b', bindings'.find? (·.id = e.bindingId) = some b' ∧
        ∀ now action, b'.audit providerUid now action = b.audit providerUid now action)
    (after : List (String × AgentAuditAction))
    (h : auditLoop bindings providerUid actions events = some after) :
    auditLoop bindings' providerUid actions events = some after := by
  induction events generalizing actions with
  | nil => exact h
  | cons e events ih =>
    simp only [auditLoop] at h ⊢
    split at h
    · simp at h
    · rename_i b hb
      obtain ⟨b', hb', haudit⟩ := hfind e (by simp) b hb
      simp only [hb', haudit]
      split_ifs at h ⊢ with hevent
      split at h
      · exact ih _ (fun e he => hfind e (by simp [he])) h
      · exact ih _ (fun e he => hfind e (by simp [he])) h
      · simp at h

/-- INTERNAL: the event of a binding is accepted once, in its turn. -/
theorem auditLoop_event (bindings : List AgentBinding) (actions : List (String × AgentAuditAction))
    (b b' : AgentBinding) (now : ℕ) (action : AgentAuditAction)
    (hfind : bindings.find? (·.id = b.id) = some b')
    (haudit : ∀ now action, b'.audit providerUid now action = b.audit providerUid now action)
    (hturn : (actions.lookup b.id = none ∧ action = .paired) ∨
      (actions.lookup b.id = some .paired ∧ action = .revoked)) :
    auditLoop bindings providerUid actions [b.audit providerUid now action] =
      some (insertAction actions b.id action) := by
  have hid : (b.audit providerUid now action).bindingId = b.id := rfl
  have haction : (b.audit providerUid now action).action = action := rfl
  have htime : (b.audit providerUid now action).timestampUnixSeconds = now := rfl
  rcases hturn with ⟨hlookup, rfl⟩ | ⟨hlookup, rfl⟩
  · simp only [auditLoop, hid, haction, htime, hfind, haudit, hlookup, ne_eq, not_true_eq_false,
      if_false]
  · simp only [auditLoop, hid, haction, htime, hfind, haudit, hlookup, ne_eq, not_true_eq_false,
      if_false]

/-- INTERNAL: only bindings have actions. -/
theorem lookup_auditLoop (bindings : List AgentBinding) (id : String)
    (hid : ∀ b ∈ bindings, b.id ≠ id) (before after : List (String × AgentAuditAction))
    (events : List AgentAuditEvent) (hbefore : before.lookup id = none)
    (h : auditLoop bindings providerUid before events = some after) : after.lookup id = none := by
  induction events generalizing before with
  | nil =>
    simp only [auditLoop, Option.some.injEq] at h
    rw [← h, hbefore]
  | cons e events ih =>
    simp only [auditLoop] at h
    split at h
    · simp at h
    · rename_i b hb
      have hne : id ≠ e.bindingId := by
        have hmatch := List.find?_some hb
        simp only [decide_eq_true_eq] at hmatch
        rw [← hmatch]
        exact (hid b (List.mem_of_find?_eq_some hb)).symm
      have hinsert : ∀ action, (insertAction before e.bindingId action).lookup id = none := by
        intro action
        unfold insertAction
        rw [List.lookup_cons, beq_false_of_ne hne]
        exact hbefore
      split_ifs at h with hevent
      split at h
      · exact ih _ (hinsert _) h
      · exact ih _ (hinsert _) h
      · simp at h

/-! ## Pairing -/

/-- INTERNAL: an accepted binding passes its own check, is enabled and has the random identifier. -/
theorem new_binding (input : AgentPairing) (random : Vector UInt8 32) (b : AgentBinding)
    (h : AgentBinding.new E input providerUid random = some b) :
    b.validate E providerUid = true ∧ b.status = .enabled := by
  unfold AgentBinding.new at h
  split at h
  · simp only at h
    split_ifs at h with hvalid
    rw [Option.some.injEq] at h
    rw [← h]
    exact ⟨hvalid, rfl⟩
  · simp at h

/-- INTERNAL: a new key stays apart from the others. -/
theorem nodup_map_snoc {α β : Type} (f : α → β) (l : List α) (a : α) (h : (l.map f).Nodup)
    (hnew : ∀ b ∈ l, f b ≠ f a) : ((l ++ [a]).map f).Nodup := by
  rw [List.map_append, List.nodup_append]
  refine ⟨h, by simp, ?_⟩
  intro x hx y hy
  obtain ⟨b, hb, rfl⟩ := List.mem_map.mp hx
  have hy' : y = f a := by simpa using hy
  rw [hy']
  exact hnew b hb

/-- **Pairing keeps the registry valid.** -/
theorem RegistryValid.pair {bindings : List AgentBinding} {audit : List AgentAuditEvent}
    (h : RegistryValid E bindings audit providerUid) (b : AgentBinding) (now : ℕ)
    (hvalid : b.validate E providerUid = true) (henabled : b.status = .enabled)
    (hids : ∀ b' ∈ bindings, b'.id ≠ b.id) (hkeys : ∀ b' ∈ bindings, b'.publicKey ≠ b.publicKey)
    (hlabels : ∀ b' ∈ bindings, b'.status = .enabled → b'.label ≠ b.label) :
    RegistryValid E (bindings ++ [b]) (audit ++ [b.audit providerUid now .paired]) providerUid := by
  obtain ⟨actions, hactions, hlast⟩ := h.told
  refine ⟨?_, nodup_map_snoc _ _ _ h.ids hids, nodup_map_snoc _ _ _ h.keys hkeys, ?_, ?_⟩
  · intro b' hb'
    rcases List.mem_append.mp hb' with hold | hnew
    · exact h.valid b' hold
    · rw [List.mem_singleton.mp hnew]
      exact hvalid
  · have hfilter : (bindings ++ [b]).filter (·.status = .enabled) =
        bindings.filter (·.status = .enabled) ++ [b] := by
      simp [List.filter_append, henabled]
    rw [hfilter]
    refine nodup_map_snoc _ _ _ h.labels ?_
    intro b' hb'
    rw [List.mem_filter, decide_eq_true_eq] at hb'
    exact hlabels b' hb'.1 hb'.2
  · have hnone := lookup_auditLoop bindings b.id hids [] actions audit rfl hactions
    have hold : auditLoop (bindings ++ [b]) providerUid [] audit = some actions := by
      refine auditLoop_congr bindings _ [] audit ?_ actions hactions
      intro e _ b' hb'
      exact ⟨b', by rw [List.find?_append, hb']; rfl, fun _ _ => rfl⟩
    have hfind : (bindings ++ [b]).find? (·.id = b.id) = some b := by
      have hnot : bindings.find? (·.id = b.id) = none := by
        rw [List.find?_eq_none]
        intro b' hb'
        simpa using hids b' hb'
      rw [List.find?_append, hnot]
      simp
    refine ⟨insertAction actions b.id .paired, ?_, ?_⟩
    · rw [auditLoop_append _ _ _ _ _ hold]
      exact auditLoop_event _ _ b b now .paired hfind (fun _ _ => rfl) (Or.inl ⟨hnone, rfl⟩)
    · intro b' hb'
      unfold insertAction
      rw [List.lookup_cons]
      rcases List.mem_append.mp hb' with hmem | hnew
      · rw [beq_false_of_ne (hids b' hmem)]
        exact hlast b' hmem
      · rw [List.mem_singleton.mp hnew, beq_self_eq_true, henabled]
        rfl

/-! ## Revocation -/

/-- INTERNAL: a revocation changes only statuses. -/
theorem map_revokeFirst {β : Type} (f : AgentBinding → β)
    (hf : ∀ b : AgentBinding, f { b with status := .revoked } = f b) (id : String)
    (l : List AgentBinding) : (revokeFirst id l).map f = l.map f := by
  induction l with
  | nil => rfl
  | cons b l ih =>
    unfold revokeFirst
    split_ifs
    · simp [hf]
    · simp [ih]

/-- INTERNAL: the bindings after a revocation. -/
theorem mem_revokeFirst (id : String) (l : List AgentBinding) (hids : (l.map (·.id)).Nodup)
    (b : AgentBinding) (hb : b ∈ revokeFirst id l) :
    (b ∈ l ∧ b.id ≠ id) ∨ ∃ b₀ ∈ l, b₀.id = id ∧ b = { b₀ with status := .revoked } := by
  induction l with
  | nil => simp [revokeFirst] at hb
  | cons a l ih =>
    rw [List.map_cons, List.nodup_cons] at hids
    unfold revokeFirst at hb
    split_ifs at hb with ha
    · rcases List.mem_cons.mp hb with rfl | hmem
      · exact Or.inr ⟨a, by simp, ha, rfl⟩
      · refine Or.inl ⟨by simp [hmem], ?_⟩
        intro heq
        exact hids.1 (List.mem_map.mpr ⟨b, hmem, heq.trans ha.symm⟩)
    · rcases List.mem_cons.mp hb with rfl | hmem
      · exact Or.inl ⟨by simp, ha⟩
      · rcases ih hids.2 hmem with ⟨hb₀, hne⟩ | ⟨b₀, hb₀, hid, rfl⟩
        · exact Or.inl ⟨by simp [hb₀], hne⟩
        · exact Or.inr ⟨b₀, by simp [hb₀], hid, rfl⟩

/-- INTERNAL: the binding of an identifier after a revocation. -/
theorem find_revokeFirst (id x : String) (l : List AgentBinding) (b : AgentBinding)
    (hb : l.find? (·.id = x) = some b) : ∃ b', (revokeFirst id l).find? (·.id = x) = some b' ∧
      (b' = b ∨ b' = { b with status := .revoked }) := by
  induction l with
  | nil => simp at hb
  | cons a l ih =>
    rw [List.find?_cons] at hb
    unfold revokeFirst
    by_cases hax : a.id = x
    · simp only [hax, decide_true, Option.some.injEq] at hb
      subst hb
      split_ifs
      · exact ⟨{ a with status := .revoked }, by simp [hax], Or.inr rfl⟩
      · exact ⟨a, by simp [hax], Or.inl rfl⟩
    · simp only [hax, decide_false] at hb
      split_ifs
      · exact ⟨b, by simp [hax, hb], Or.inl rfl⟩
      · simp only [List.find?_cons, hax, decide_false]
        exact ih hb

/-- INTERNAL: fewer bindings are enabled after a revocation. -/
theorem enabled_revokeFirst (id : String) (l : List AgentBinding) :
    ((revokeFirst id l).filter (·.status = .enabled)).Sublist (l.filter (·.status = .enabled)) := by
  induction l with
  | nil => exact List.Sublist.slnil
  | cons a l ih =>
    unfold revokeFirst
    split_ifs with ha
    · rw [List.filter_cons_of_neg (by simp)]
      by_cases hstatus : a.status = .enabled
      · rw [List.filter_cons_of_pos (by simpa using hstatus)]
        exact List.sublist_cons_self _ _
      · rw [List.filter_cons_of_neg (by simpa using hstatus)]
    · by_cases hstatus : a.status = .enabled
      · rw [List.filter_cons_of_pos (by simpa using hstatus),
          List.filter_cons_of_pos (by simpa using hstatus)]
        exact ih.cons_cons a
      · rw [List.filter_cons_of_neg (by simpa using hstatus),
          List.filter_cons_of_neg (by simpa using hstatus)]
        exact ih

/-- **Revoking keeps the registry valid.** -/
theorem RegistryValid.revoke {bindings : List AgentBinding} {audit : List AgentAuditEvent}
    (h : RegistryValid E bindings audit providerUid) (id : String) (b : AgentBinding) (now : ℕ)
    (hfind : bindings.find? (·.id = id) = some b) (henabled : b.status = .enabled) :
    RegistryValid E (revokeFirst id bindings)
      (audit ++ [{ b with status := .revoked : AgentBinding }.audit providerUid now .revoked])
      providerUid := by
  obtain ⟨actions, hactions, hlast⟩ := h.told
  have hid : b.id = id := by simpa using List.find?_some hfind
  have hb : b ∈ bindings := List.mem_of_find?_eq_some hfind
  refine ⟨?_, ?_, ?_, ?_, ?_⟩
  · intro b' hb'
    rcases mem_revokeFirst id bindings h.ids b' hb' with ⟨hmem, -⟩ | ⟨b₀, hb₀, -, rfl⟩
    · exact h.valid b' hmem
    · exact h.valid b₀ hb₀
  · rw [map_revokeFirst _ (fun _ => rfl)]
    exact h.ids
  · rw [map_revokeFirst _ (fun _ => rfl)]
    exact h.keys
  · exact h.labels.sublist ((enabled_revokeFirst id bindings).map _)
  · have hold : auditLoop (revokeFirst id bindings) providerUid [] audit = some actions := by
      refine auditLoop_congr bindings _ [] audit ?_ actions hactions
      intro e _ b' hb'
      obtain ⟨b'', hb'', hcase⟩ := find_revokeFirst id e.bindingId bindings b' hb'
      refine ⟨b'', hb'', ?_⟩
      rcases hcase with rfl | rfl
      · exact fun _ _ => rfl
      · exact fun _ _ => rfl
    have hpaired : actions.lookup b.id = some .paired := by
      rw [hlast b hb, henabled]
      rfl
    obtain ⟨b'', hb'', hcase⟩ := find_revokeFirst id b.id bindings b (by rw [hid]; exact hfind)
    have haudit : ∀ now action, b''.audit providerUid now action = b.audit providerUid now action := by
      rcases hcase with rfl | rfl
      · exact fun _ _ => rfl
      · exact fun _ _ => rfl
    refine ⟨insertAction actions b.id .revoked, ?_, ?_⟩
    · rw [auditLoop_append _ _ _ _ _ hold]
      exact auditLoop_event _ _ b b'' now .revoked hb'' haudit (Or.inr ⟨hpaired, rfl⟩)
    · intro b' hb'
      unfold insertAction
      rw [List.lookup_cons]
      rcases mem_revokeFirst id bindings h.ids b' hb' with ⟨hmem, hne⟩ | ⟨b₀, -, hb₀, rfl⟩
      · rw [beq_false_of_ne (by rw [hid]; exact hne)]
        exact hlast b' hmem
      · rw [show ({ b₀ with status := .revoked : AgentBinding }.id) = b.id from hb₀.trans hid.symm,
          beq_self_eq_true]
        rfl

end VaultAccess.Analysis
