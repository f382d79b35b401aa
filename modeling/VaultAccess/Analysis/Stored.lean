import VaultAccess.Analysis.Inversion
import VaultAccess.Analysis.RecordValid

/-!
# Reading a stored state back

What the decoder returns for a document the store wrote: the same requests, agents,
markers and images, whatever the disk holds, and the same policies when their
images are intact.
-/

set_option autoImplicit false

namespace VaultAccess.Analysis

open VaultAccess.Library VaultAccess.Model

/-- INTERNAL: an event is read back as it is, or not at all. -/
theorem eq_of_tryFrom_event (e e' : HistoryEvent) (h : e.tryFrom = some e') : e' = e := by
  unfold HistoryEvent.tryFrom at h
  cases hs : e.status with
  | none =>
    simp [hs] at h
    exact h.2.symm
  | some status =>
    simp only [hs, Option.bind_eq_bind, Option.bind_eq_some_iff] at h
    obtain ⟨-, -, h⟩ := h
    split_ifs at h
    exact (Option.some.inj h).symm

/-- INTERNAL: current events are read back as current events. -/
theorem mapM_current_tryFrom (l : List HistoryEvent) (l' : List StoredAudit)
    (h : (l.map StoredAudit.current).mapM StoredAudit.tryFrom = some l') :
    l' = l.map StoredAudit.current := by
  rw [mapM_eq_some_iff, List.forall₂_map_left_iff] at h
  induction h with
  | nil => rfl
  | @cons e stored rest rest' hab _ ih =>
    simp only [StoredAudit.tryFrom, Option.map_eq_some_iff] at hab
    obtain ⟨e', he', rfl⟩ := hab
    rw [eq_of_tryFrom_event e e' he', ih, List.map_cons]

theorem mapM_current (l : List HistoryEvent) :
    (l.map StoredAudit.current).mapM StoredAudit.current? = some l := by
  rw [mapM_eq_some_iff, List.forall₂_map_left_iff]
  exact List.forall₂_same.mpr fun e _ => rfl

/-- INTERNAL: the decoder starts from the record itself. -/
theorem base_wire (d : DirectRecord) (hversion : d.historyVersion = HISTORY_VERSION) :
    { d.wire.base with audit := d.audit } = d := by
  cases d
  simp only at hversion
  rw [DirectRecord.mk.injEq]
  simp [DirectRecordWire.base, DirectRecord.wire, hversion]

/-- INTERNAL: a record is read back as it is, or not at all. -/
theorem eq_of_tryFrom_wire (d d' : DirectRecord) (h : d.wire.tryFrom = some d') : d' = d := by
  simp only [DirectRecordWire.tryFrom, Option.bind_eq_bind, Option.bind_eq_some_iff] at h
  obtain ⟨-, -, audit, haudit, h⟩ := h
  rw [mapM_current_tryFrom _ _ haudit] at h
  simp only [show d.wire.historyVersion = some d.historyVersion from rfl, mapM_current] at h
  split_ifs at h with howner hversion
  · rw [Option.bind_some, base_wire d hversion] at h
    split_ifs at h
    exact (Option.some.inj h).symm
  · simp at h

/-- INTERNAL: so is a request. -/
theorem eq_of_tryFrom_request (r r' : RequestRecord) (h : r.wire.tryFrom = some r') : r' = r := by
  unfold StoredRequest.tryFrom RequestRecord.wire at h
  cases hd : r.direct with
  | none =>
    simp only [hd, Option.map_none, Option.some.injEq] at h
    rw [← h, ← hd]
  | some d =>
    simp only [hd, Option.map_some, Option.map_eq_some_iff] at h
    obtain ⟨d', hd', rfl⟩ := h
    rw [eq_of_tryFrom_wire d d' hd', ← hd]

/-- **The decoder changes nothing but policies.** -/
theorem eq_of_tryFrom (E : Externals) (disk : Disk) (s s' : ProviderState)
    (h : s.wire.tryFrom E disk = some s') : s' = { s with operations := s'.operations } := by
  simp only [StoredProviderState.tryFrom, Option.bind_eq_bind, Option.bind_eq_some_iff,
    Option.pure_def, show s.wire.agentAudit = some s.agentAudit from rfl, Option.isNone_some,
    Bool.and_false, Bool.false_eq_true, if_false] at h
  obtain ⟨operations, -, requests, hrequests, h⟩ := h
  have hreq : requests = s.requests := by
    rw [show s.wire.requests = s.requests.map RequestRecord.wire from rfl, mapM_eq_some_iff,
      List.forall₂_map_left_iff] at hrequests
    have heq := hrequests.imp fun r r' hr => (eq_of_tryFrom_request r r' hr).symm
    rw [List.forall₂_eq_eq_eq] at heq
    exact heq.symm
  by_cases hschema : s.wire.schemaVersion = STATE_SCHEMA_VERSION
  · rw [if_pos hschema, Option.bind_some, Option.some.injEq] at h
    rw [← h, hreq, ← hschema]
    rfl
  · rw [if_neg hschema] at h
    simp at h

/-! ## Valid records are read back -/

/-- INTERNAL: events after a terminal status keep it. -/
theorem historyLoop_terminal (d : DirectRecord) (ordinal : ℕ) (status : DirectStatus)
    (final : Option DirectStatus) (l : List HistoryEvent) (hterminal : status.isTerminal = true)
    (h : d.historyLoop (ordinal + 1) (some status) l = some final) : final = some status := by
  induction l generalizing ordinal with
  | nil => exact (Option.some.inj h).symm
  | cons e l ih =>
    rw [historyLoop_cons] at h
    split_ifs at h with hcheck
    simp only [eventOk, Nat.add_one_ne_zero, if_false, Bool.and_eq_true,
      HistoryEvent.follows] at hcheck
    have hsame : e.status = some status := by
      rcases Bool.or_eq_true_iff.mp hcheck.2 with hreconciled | hfollows
      · simp only [Bool.and_eq_true, decide_eq_true_eq] at hreconciled
        exact hreconciled.2.symm
      · split at hfollows
        · rename_i before after hbefore _
          rw [Option.some.injEq] at hbefore
          rw [hbefore, isTerminal_of_statusFollows _ _ hfollows] at hterminal
          simp at hterminal
        · simp at hfollows
    rw [hsame] at h
    exact ih (ordinal + 1) h

/-- INTERNAL: the exit codes of a history are those of its last status. -/
theorem exitInRange_of_historyLoop (d : DirectRecord) (ordinal : ℕ)
    (previous : Option DirectStatus) (final : DirectStatus) (l : List HistoryEvent)
    (hexit : final.exitInRange = true)
    (h : d.historyLoop ordinal previous l = some (some final)) :
    ∀ e ∈ l, ∀ status, e.status = some status → status.exitInRange = true := by
  induction l generalizing ordinal previous with
  | nil => simp
  | cons a l ih =>
    rw [historyLoop_cons] at h
    split_ifs at h
    intro e he status hstatus
    rcases List.mem_cons.mp he with rfl | hmem
    · cases status with
      | completed exitCode =>
        rw [hstatus] at h
        have hfinal := historyLoop_terminal d ordinal _ _ l rfl h
        rw [Option.some.injEq] at hfinal
        rw [← hfinal]
        exact hexit
      | pending => rfl
      | approved => rfl
      | denied => rfl
      | expired => rfl
      | running => rfl
      | failed reason => rfl
    · exact ih (ordinal + 1) a.status h e hmem status hstatus

/-- **A record with a valid history is read back as it is.** -/
theorem HistoryValid.tryFrom_wire {d : DirectRecord} (h : HistoryValid d)
    (hversion : d.historyVersion = HISTORY_VERSION) (hexit : d.review.status.exitInRange = true) :
    d.wire.tryFrom = some d := by
  have hevents : ∀ e ∈ d.audit, e.tryFrom = some e := by
    intro e he
    have hmatches := matchesRecord_of_historyLoop d 0 none _ d.audit h.loop e he
    have hvalid : e.valid = true := by
      unfold HistoryEvent.matchesRecord at hmatches
      simp only [Bool.and_eq_true] at hmatches
      exact hmatches.1.2
    have hstatus := exitInRange_of_historyLoop d 0 none d.review.status d.audit hexit h.loop e he
    unfold HistoryEvent.tryFrom
    cases hs : e.status with
    | none => simp [hvalid]
    | some status => simp [DirectStatus.tryFrom, hstatus status hs, hvalid]
  have haudit : (d.audit.map StoredAudit.current).mapM StoredAudit.tryFrom =
      some (d.audit.map StoredAudit.current) := by
    refine mapM_eq_some_self _ _ fun stored hstored => ?_
    obtain ⟨e, he, rfl⟩ := List.mem_map.mp hstored
    simp [StoredAudit.tryFrom, hevents e he]
  have hvalid : d.validateHistory = true := (validateHistory_iff d hversion).mpr h
  have hstatus : d.wire.review.status.tryFrom = some d.review.status := by
    simp [DirectStatus.tryFrom, DirectRecord.wire, hexit]
  simp only [DirectRecordWire.tryFrom, Option.bind_eq_bind, hstatus, Option.bind_some,
    show d.wire.audit = d.audit.map StoredAudit.current from rfl, haudit, mapM_current,
    show d.wire.historyVersion = some d.historyVersion from rfl, if_pos hversion,
    base_wire d hversion, hvalid, if_true]
  simp [hversion]

theorem RecordInv.tryFrom_wire {E : Externals} {id : String} {d : DirectRecord}
    (h : RecordInv E id d) : d.wire.tryFrom = some d :=
  h.history.tryFrom_wire h.core.version h.exit

end VaultAccess.Analysis
