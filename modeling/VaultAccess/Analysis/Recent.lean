import VaultAccess.Analysis.Validation
import VaultAccess.Model.History

/-!
# The history is the newest events

Events have different places in the order, so the buffer that keeps the newest ones as they
come ends as the beginning of all events sorted at once: nothing that precedes a returned
event is left out.
-/

set_option autoImplicit false

namespace VaultAccess.Analysis

open VaultAccess.Library VaultAccess.Model

/-- Distinct request ids, and distinct ordinals within each request. -/
structure DistinctEvents (s : ProviderState) : Prop where
  ids : (s.requests.map (·.id)).Nodup
  ordinals : ∀ r ∈ s.requests, ∀ d, r.direct = some d → (d.audit.map (·.ordinal)).Nodup
  /-- Every event names the request it belongs to. -/
  named : ∀ r ∈ s.requests, ∀ d, r.direct = some d → ∀ e ∈ d.audit, e.requestId = r.id

theorem ofRecentKey {e e' : HistoryEvent} (h : e.recentKey = e'.recentKey) :
    e.requestId = e'.requestId ∧ e.ordinal = e'.ordinal := by
  have hpair := OrderDual.toDual_inj.mp h
  have hrest := toLex_inj.mp (Prod.mk.inj (toLex_inj.mp hpair)).2
  exact Prod.mk.inj hrest

/-- INTERNAL: the events of requests with distinct ids have distinct places. -/
theorem DistinctEvents.nodup {requests : List RequestRecord} {p : DirectRecord → Bool}
    (hids : (requests.map (·.id)).Nodup)
    (hordinals : ∀ r ∈ requests, ∀ d, r.direct = some d → (d.audit.map (·.ordinal)).Nodup)
    (hnamed : ∀ r ∈ requests, ∀ d, r.direct = some d → ∀ e ∈ d.audit, e.requestId = r.id) :
    ((((requests.filterMap (·.direct)).filter p).flatMap (·.audit)).map HistoryEvent.recentKey).Nodup ∧
    ∀ e ∈ ((requests.filterMap (·.direct)).filter p).flatMap (·.audit), ∃ r ∈ requests, e.requestId = r.id := by
  induction requests with
  | nil => simp
  | cons r rest ih =>
    rw [List.map_cons, List.nodup_cons] at hids
    obtain ⟨hrest, hmember⟩ := ih hids.2 (fun q hq => hordinals q (List.mem_cons_of_mem _ hq))
      (fun q hq => hnamed q (List.mem_cons_of_mem _ hq))
    have hskip : ∀ e ∈ ((rest.filterMap (·.direct)).filter p).flatMap (·.audit),
        ∃ q ∈ r :: rest, e.requestId = q.id := by
      intro e he
      obtain ⟨q, hq, hid⟩ := hmember e he
      exact ⟨q, List.mem_cons_of_mem _ hq, hid⟩
    cases hdirect : r.direct with
    | none =>
      rw [List.filterMap_cons_none hdirect]
      exact ⟨hrest, hskip⟩
    | some d =>
      rw [List.filterMap_cons_some hdirect]
      by_cases hvisible : p d = true
      · have hown : ∀ e ∈ d.audit, e.requestId = r.id := hnamed r List.mem_cons_self d hdirect
        rw [List.filter_cons_of_pos hvisible, List.flatMap_cons, List.map_append]
        constructor
        · apply List.nodup_append.mpr
          refine ⟨?_, hrest, ?_⟩
          · apply List.Nodup.of_map fun key : RecentKey => (ofLex (ofLex (OrderDual.ofDual key)).2).2
            rw [List.map_map]
            exact hordinals r List.mem_cons_self d hdirect
          · intro key hkey key' hkey' heq
            obtain ⟨e, he, rfl⟩ := List.mem_map.mp hkey
            obtain ⟨e', he', rfl⟩ := List.mem_map.mp hkey'
            obtain ⟨q, hq, hid⟩ := hmember e' he'
            apply hids.1
            rw [← hown e he, (ofRecentKey heq).1, hid]
            exact List.mem_map_of_mem hq
        · intro e he
          rcases List.mem_append.mp he with he | he
          · exact ⟨r, List.mem_cons_self, hown e he⟩
          · exact hskip e he
      · rw [List.filter_cons_of_neg hvisible]
        exact ⟨hrest, hskip⟩

/-- INTERNAL: the beginning of a sorted list is sorted. -/
theorem newest_take (events : List HistoryEvent) (limit : ℕ) :
    newest (newest events limit) limit = newest events limit := by
  have hsorted := (pairwise_sortByKey HistoryEvent.recentKey events).sublist
    (List.take_sublist limit (sortByKey HistoryEvent.recentKey events))
  unfold newest
  rw [sortByKey_of_pairwise _ _ hsorted, List.take_take, Nat.min_self]

/-- INTERNAL: what precedes one of the first elements of a sorted list is one of them. -/
theorem mem_newest_of_lt {events : List HistoryEvent} {limit : ℕ} {e r : HistoryEvent} (he : e ∈ events)
    (hr : r ∈ newest events limit) (hlt : e.recentKey < r.recentKey) : e ∈ newest events limit := by
  have hmem : e ∈ sortByKey HistoryEvent.recentKey events :=
    (perm_sortByKey HistoryEvent.recentKey events).mem_iff.mpr he
  rw [← List.take_append_drop limit (sortByKey HistoryEvent.recentKey events), List.mem_append] at hmem
  rcases hmem with hfirst | hlater
  · exact hfirst
  · have hsorted := pairwise_sortByKey HistoryEvent.recentKey events
    rw [← List.take_append_drop limit (sortByKey HistoryEvent.recentKey events),
      List.pairwise_append] at hsorted
    exact absurd hlt (not_lt.mpr (hsorted.2.2 r hr e hlater))

/-- INTERNAL: a valid history counts its events. -/
theorem ordinals_of_historyLoop {d : DirectRecord} {ordinal : ℕ} {previous last : Option DirectStatus}
    {events : List HistoryEvent} (h : d.historyLoop ordinal previous events = some last) :
    events.map (·.ordinal) = List.range' ordinal events.length := by
  induction events generalizing ordinal previous with
  | nil => rfl
  | cons e rest ih =>
    rw [historyLoop_cons] at h
    split_ifs at h with hcheck
    simp only [eventOk, Bool.and_eq_true, decide_eq_true_eq] at hcheck
    rw [List.map_cons, List.length_cons, List.range'_succ, ih h, hcheck.1.1.1]

/-- **A valid state has distinct events.** -/
theorem distinctEvents_of_valid {E : Externals} {disk : Disk} {ownerUid : UInt32} {s : ProviderState}
    (h : s.validateForOwner E disk ownerUid = true) : DistinctEvents s := by
  simp only [ProviderState.validateForOwner, Bool.and_eq_true, decide_eq_true_eq, List.all_eq_true] at h
  obtain ⟨⟨-, hids⟩, hrequests⟩ := h
  have hloop : ∀ r ∈ s.requests, ∀ d, r.direct = some d → d.review.id = r.id ∧
      ∃ last, d.historyLoop 0 none d.audit = some last := by
    intro r hr d hd
    have hvalid := hrequests r hr
    simp only [RequestRecord.validate, hd, Bool.and_eq_true, DirectRecord.validate, decide_eq_true_eq] at hvalid
    obtain ⟨⟨-, hrecord⟩, -⟩ := hvalid
    obtain ⟨⟨⟨⟨⟨⟨⟨⟨⟨-, hhistory⟩, -⟩, hid⟩, -⟩, -⟩, -⟩, -⟩, -⟩, -⟩ := hrecord
    refine ⟨hid, ?_⟩
    simp only [DirectRecord.validateHistory, Bool.and_eq_true] at hhistory
    cases hlast : d.historyLoop 0 none d.audit with
    | none =>
      rw [hlast] at hhistory
      exact absurd hhistory.2 (by simp)
    | some last => exact ⟨last, rfl⟩
  constructor
  · exact hids
  · intro r hr d hd
    obtain ⟨-, last, hlast⟩ := hloop r hr d hd
    rw [ordinals_of_historyLoop hlast]
    exact List.nodup_range'
  · intro r hr d hd e he
    obtain ⟨hid, last, hlast⟩ := hloop r hr d hd
    have hmatch := matchesRecord_of_historyLoop d 0 none last d.audit hlast e he
    simp only [HistoryEvent.matchesRecord, Bool.and_eq_true, decide_eq_true_eq] at hmatch
    rw [congrArg HistoryEvent.requestId hmatch.2, ← hid]
    rfl

/-- **The history is the newest events.** -/
theorem history_eq_newest (s : ProviderState) (ownerUid human : UInt32) (limit : Option UInt32)
    (h : DistinctEvents s) :
    s.history ownerUid human limit =
        (if human ≠ ownerUid then .error .unauthorized
        else (historyLimit limit).map (newest (s.visibleEvents ownerUid human))) ∧
      ∀ events, s.history ownerUid human limit = .ok events →
        events.Nodup ∧ (∀ e ∈ events, e ∈ s.visibleEvents ownerUid human) ∧
        ∀ e ∈ s.visibleEvents ownerUid human, ∀ r ∈ events, e.recentKey < r.recentKey → e ∈ events := by
  have hnodup : ((s.visibleEvents ownerUid human).map HistoryEvent.recentKey).Nodup :=
    (DistinctEvents.nodup h.ids h.ordinals h.named).1
  have hhistory : s.history ownerUid human limit =
      (if human ≠ ownerUid then .error .unauthorized
      else (historyLimit limit).map (newest (s.visibleEvents ownerUid human))) := by
    unfold ProviderState.history
    split
    · rfl
    · cases hlimit : historyLimit limit with
      | error error => rfl
      | ok n =>
        have hkept : (s.visibleEvents ownerUid human).foldl (Search.keep HistoryEvent.recentKey n) [] =
            newest (s.visibleEvents ownerUid human) n := Search.foldl_keep hnodup
        show Except.ok (newest (List.foldl _ [] _) n) = _
        rw [hkept, newest_take]
        rfl
  refine ⟨hhistory, fun events hevents => ?_⟩
  rw [hhistory] at hevents
  split at hevents
  · cases hevents
  · cases hlimit : historyLimit limit with
    | error error =>
      rw [hlimit] at hevents
      cases hevents
    | ok n =>
      rw [hlimit] at hevents
      obtain rfl := Except.ok.inj hevents
      have hperm := perm_sortByKey HistoryEvent.recentKey (s.visibleEvents ownerUid human)
      refine ⟨?_, ?_, ?_⟩
      · exact (hperm.nodup_iff.mpr (List.Nodup.of_map _ hnodup)).sublist (List.take_sublist _ _)
      · intro e he
        exact hperm.mem_iff.mp (List.mem_of_mem_take he)
      · intro e he r hr hlt
        exact mem_newest_of_lt he hr hlt

/-- One request with a submission and an approval, and the newest of its events. -/
theorem history_eq_newest_holding :
    ((Sample.holding Sample.externals (Sample.claimed Sample.externals)).visibleEvents 1000 1000).length = 2 ∧
      (Sample.holding Sample.externals (Sample.claimed Sample.externals)).history 1000 1000 (some 1) =
        .ok (newest ((Sample.holding Sample.externals
          (Sample.claimed Sample.externals)).visibleEvents 1000 1000) 1) := by
  refine ⟨rfl, (history_eq_newest (Sample.holding Sample.externals (Sample.claimed Sample.externals)) 1000 1000
    (some 1) ⟨?_, ?_, ?_⟩).1⟩
  · exact List.nodup_singleton _
  · intro r hr d hd
    obtain rfl := List.mem_singleton.mp hr
    obtain rfl := Option.some.inj hd
    show [0, 1].Nodup
    decide
  · intro r hr d hd e he
    obtain rfl := List.mem_singleton.mp hr
    obtain rfl := Option.some.inj hd
    have hnames : (Sample.claimed Sample.externals).audit.map (·.requestId) =
        [Sample.requestId, Sample.requestId] := rfl
    have hmem := List.mem_map_of_mem (f := fun e : HistoryEvent => e.requestId) he
    rw [hnames] at hmem
    simpa using hmem

end VaultAccess.Analysis
