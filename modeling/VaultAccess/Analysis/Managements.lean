import VaultAccess.Model.Management

/-!
# Revocations of a companion management session

What a whole run of a management session hands out. A revocation that was handed out
leaves its recovery record, and only its status is asked for until the revocation is
definitely rejected or an action reply settles it. A ticket is consumed with the
revocation it stands in, and it stands there only while it is fresh and for the
identity on display.
-/

set_option autoImplicit false

namespace VaultAccess.Analysis.Companion.Management

open VaultAccess.Library VaultAccess.Model.Companion VaultAccess.Model.Companion.Management

/-- The revocation a call handed out: token, target, action and ticket. -/
def revocationOf (e : Library.Entry Session Call Answer) : Option (ℕ × Target × String × String) :=
  e.answer.handed.bind fun w =>
    match w.request with
    | .revoke target actionId ticket _ => some (w.token, target, actionId, ticket)
    | _ => none

/-- An entry that settles a revocation: a definite rejection of its flight, or an accepted
action reply for it that reports an end. -/
def Resolves (R : Replies) (recovery : Recovery) (token : ℕ) (x : Library.Entry Session Call Answer) : Prop :=
  ∃ t bytes first second flight, x.call = .finish t bytes first second ∧
    x.before.flight = some flight ∧ flight.token = t ∧
    ((t = token ∧ ∃ code, errorOf R bytes = some code ∧ code.definiteRejection = true) ∨
      (x.after.outcome = .accepted ∧ ∃ reply, decode R.action bytes = some reply ∧
        reply.target = recovery.target ∧ reply.actionId = recovery.actionId ∧ reply.settled = true))

/-- An entry that accepts a prepare reply with ticket `t`. -/
def Brings (R : Replies) (t : String) (x : Library.Entry Session Call Answer) : Prop :=
  ∃ token bytes first second flight reply, x.call = .finish token bytes first second ∧
    x.before.flight = some flight ∧ flight.token = token ∧ flight.command = .prepare ∧
    decode R.prepared bytes = some reply ∧ reply.ticket = t ∧ x.after.outcome = .accepted

/-! ## What a call can change -/

/-- The recovery record and the flight are kept. -/
structure Carries (s s' : Session) : Prop where
  recovery : s'.recovery = s.recovery
  flight : s'.flight = s.flight

/-- The ticket is kept or dropped. -/
def Drops (s s' : Session) : Prop := s'.ticket = s.ticket ∨ s'.ticket = none

/-- INTERNAL: a snapshot can drop the ticket. -/
theorem snapshot_cases (s : Session) (first second third : ℕ) :
    Carries s (s.snapshot first second third).2 ∧ Drops s (s.snapshot first second third).2 := by
  unfold Session.snapshot
  dsimp only
  split_ifs
  · exact ⟨⟨rfl, rfl⟩, Or.inr rfl⟩
  · exact ⟨⟨rfl, rfl⟩, Or.inr rfl⟩
  · exact ⟨⟨rfl, rfl⟩, Or.inr rfl⟩
  · exact ⟨⟨rfl, rfl⟩, Or.inl rfl⟩

/-- INTERNAL: a new setup drops the ticket; it is refused while something is open. -/
theorem configure_cases (R : Replies) (s : Session) (saved : String) :
    (s.configure R saved).2 = s ∨ (s.recovery = none ∧ (s.configure R saved).2.ticket = none) := by
  unfold Session.configure
  by_cases hopen : (s.flight.isSome || s.recovery.isSome) = true
  · rw [if_pos hopen]
    exact Or.inl rfl
  · rw [if_neg hopen]
    simp only [Bool.or_eq_true, not_or, Bool.not_eq_true, Option.isSome_eq_false_iff,
      Option.isNone_iff_eq_none] at hopen
    cases savedRecovery R saved with
    | error error => exact Or.inl rfl
    | ok recovery => exact Or.inr ⟨hopen.2, rfl⟩

/-- A revocation: what it takes from the session. -/
structure Takes (request : Request) (now : ℕ) (s s' : Session) : Prop where
  unrecovered : s.recovery = none
  ticket : ∃ t target password, s.ticket = some t ∧ t.fresh now = true ∧
    s.detail = some t.prepared.identity ∧ t.prepared.identity.target = target ∧
    request = .revoke target t.prepared.actionId t.prepared.ticket password ∧
    s'.recovery = some { target, actionId := t.prepared.actionId }
  spent : s'.ticket = none

theorem refusesRevoke_false {s : Session} {target : Target} {password : String} {now : ℕ}
    (h : s.refusesRevoke target password now = false) : s.canRevoke now = true := by
  unfold Session.refusesRevoke at h
  simp only [Bool.or_eq_false_iff, Bool.not_eq_false'] at h
  exact h.1.1.1

/-- INTERNAL: what a revocation needs of the ticket. -/
theorem canRevoke_ticket {s : Session} {t : Ticket} {now : ℕ} (hticket : s.ticket = some t)
    (h : s.canRevoke now = true) :
    s.recovery = none ∧ t.fresh now = true ∧ s.detail = some t.prepared.identity := by
  unfold Session.canRevoke at h
  rw [hticket, Option.any_some] at h
  obtain ⟨hidle, hticket⟩ := Bool.and_eq_true_iff.mp h
  obtain ⟨hfresh, hdetail⟩ := Bool.and_eq_true_iff.mp hticket
  have hrecovery := (Bool.and_eq_true_iff.mp hidle).2
  exact ⟨Option.isNone_iff_eq_none.mp hrecovery, hfresh, of_decide_eq_true hdetail⟩

/-- INTERNAL: a revocation takes the ticket of the identity on display while it is fresh. -/
theorem compose_revoke {s s' : Session} {target : Target} {password : String} {now : ℕ}
    {result : Except String (Request × Target × String)}
    (h : s.compose .revoke target password now = (result, s')) :
    s'.flight = s.flight ∧
      ((Carries s s' ∧ Drops s s' ∧ ∃ error, result = .error error) ∨
        ∃ request flight, result = .ok (request, flight) ∧ Takes request now s s') := by
  unfold Session.compose at h
  dsimp only at h
  cases hrefused : s.refusesRevoke target password now with
  | true =>
    rw [hrefused, if_pos rfl] at h
    obtain ⟨rfl, rfl⟩ := Prod.mk.inj h
    exact ⟨rfl, Or.inl ⟨⟨rfl, rfl⟩, Or.inl rfl, _, rfl⟩⟩
  | false =>
    rw [hrefused, if_neg Bool.false_ne_true] at h
    cases hticket : s.ticket with
    | none =>
      rw [hticket] at h
      obtain ⟨rfl, rfl⟩ := Prod.mk.inj h
      exact ⟨rfl, Or.inl ⟨⟨rfl, rfl⟩, Or.inl rfl, _, rfl⟩⟩
    | some t =>
      rw [hticket] at h
      dsimp only at h
      by_cases htarget : t.prepared.identity.target ≠ target
      · rw [if_pos htarget] at h
        obtain ⟨rfl, rfl⟩ := Prod.mk.inj h
        exact ⟨rfl, Or.inl ⟨⟨rfl, rfl⟩, Or.inl rfl, _, rfl⟩⟩
      · rw [if_neg htarget] at h
        obtain ⟨rfl, rfl⟩ := Prod.mk.inj h
        obtain ⟨hrecovery, hfresh, hdetail⟩ := canRevoke_ticket hticket (refusesRevoke_false hrefused)
        exact ⟨rfl, Or.inr ⟨_, _, rfl, hrecovery,
          ⟨t, target, password, hticket, hfresh, hdetail, not_not.mp htarget, rfl, rfl⟩, rfl⟩⟩

/-- INTERNAL: what a request is about. -/
theorem compose_cases {s s' : Session} {command : Command} {target : Target} {password : String}
    {now : ℕ} {result : Except String (Request × Target × String)}
    (h : s.compose command target password now = (result, s')) :
    s'.flight = s.flight ∧
      ((Carries s s' ∧ Drops s s' ∧ (∀ request flight, result = .ok (request, flight) →
          command ≠ .revoke ∧ (∀ t a k p, request ≠ .revoke t a k p) ∧
          (command = .status → ∃ r, s.recovery = some r ∧ request = .status r.target r.actionId))) ∨
        (command = .revoke ∧ ∃ request flight, result = .ok (request, flight) ∧
          Takes request now s s')) := by
  cases command with
  | list =>
    obtain ⟨rfl, rfl⟩ := Prod.mk.inj h
    refine ⟨rfl, Or.inl ⟨⟨rfl, rfl⟩, Or.inr rfl, fun request flight hok => ?_⟩⟩
    obtain ⟨rfl, -⟩ := Prod.mk.inj (Except.ok.inj hok)
    exact ⟨by decide, fun _ _ _ _ => by simp, fun habsurd => absurd habsurd (by decide)⟩
  | next =>
    simp only [Session.compose] at h
    split_ifs at h
    · obtain ⟨rfl, rfl⟩ := Prod.mk.inj h
      exact ⟨rfl, Or.inl ⟨⟨rfl, rfl⟩, Or.inl rfl, fun _ _ hok => absurd hok (by simp)⟩⟩
    · obtain ⟨rfl, rfl⟩ := Prod.mk.inj h
      refine ⟨rfl, Or.inl ⟨⟨rfl, rfl⟩, Or.inr rfl, fun request flight hok => ?_⟩⟩
      obtain ⟨rfl, -⟩ := Prod.mk.inj (Except.ok.inj hok)
      exact ⟨by decide, fun _ _ _ _ => by simp, fun habsurd => absurd habsurd (by decide)⟩
  | detail =>
    simp only [Session.compose] at h
    split_ifs at h
    · obtain ⟨rfl, rfl⟩ := Prod.mk.inj h
      exact ⟨rfl, Or.inl ⟨⟨rfl, rfl⟩, Or.inl rfl, fun _ _ hok => absurd hok (by simp)⟩⟩
    · obtain ⟨rfl, rfl⟩ := Prod.mk.inj h
      refine ⟨rfl, Or.inl ⟨⟨rfl, rfl⟩, Or.inr rfl, fun request flight hok => ?_⟩⟩
      obtain ⟨rfl, -⟩ := Prod.mk.inj (Except.ok.inj hok)
      exact ⟨by decide, fun _ _ _ _ => by simp, fun habsurd => absurd habsurd (by decide)⟩
  | prepare =>
    simp only [Session.compose] at h
    split_ifs at h
    · obtain ⟨rfl, rfl⟩ := Prod.mk.inj h
      exact ⟨rfl, Or.inl ⟨⟨rfl, rfl⟩, Or.inl rfl, fun _ _ hok => absurd hok (by simp)⟩⟩
    · obtain ⟨rfl, rfl⟩ := Prod.mk.inj h
      refine ⟨rfl, Or.inl ⟨⟨rfl, rfl⟩, Or.inr rfl, fun request flight hok => ?_⟩⟩
      obtain ⟨rfl, -⟩ := Prod.mk.inj (Except.ok.inj hok)
      exact ⟨by decide, fun _ _ _ _ => by simp, fun habsurd => absurd habsurd (by decide)⟩
  | origin =>
    simp only [Session.compose] at h
    split_ifs at h
    · obtain ⟨rfl, rfl⟩ := Prod.mk.inj h
      exact ⟨rfl, Or.inl ⟨⟨rfl, rfl⟩, Or.inl rfl, fun _ _ hok => absurd hok (by simp)⟩⟩
    · obtain ⟨rfl, rfl⟩ := Prod.mk.inj h
      refine ⟨rfl, Or.inl ⟨⟨rfl, rfl⟩, Or.inl rfl, fun request flight hok => ?_⟩⟩
      obtain ⟨rfl, -⟩ := Prod.mk.inj (Except.ok.inj hok)
      exact ⟨by decide, fun _ _ _ _ => by simp, fun habsurd => absurd habsurd (by decide)⟩
  | status =>
    simp only [Session.compose] at h
    cases hrecovery : s.recovery with
    | none =>
      rw [hrecovery] at h
      obtain ⟨rfl, rfl⟩ := Prod.mk.inj h
      exact ⟨rfl, Or.inl ⟨⟨rfl, rfl⟩, Or.inl rfl, fun _ _ hok => absurd hok (by simp)⟩⟩
    | some r =>
      rw [hrecovery] at h
      obtain ⟨rfl, rfl⟩ := Prod.mk.inj h
      refine ⟨rfl, Or.inl ⟨⟨rfl, rfl⟩, Or.inl rfl, fun request flight hok => ?_⟩⟩
      obtain ⟨rfl, -⟩ := Prod.mk.inj (Except.ok.inj hok)
      exact ⟨by decide, fun _ _ _ _ => by simp, fun _ => ⟨r, rfl, rfl⟩⟩
  | revoke =>
    obtain ⟨hflight, ⟨hcarries, hdrops, error, rfl⟩ | htakes⟩ := compose_revoke h
    · exact ⟨hflight, Or.inl ⟨hcarries, hdrops, fun _ _ hok => absurd hok (by simp)⟩⟩
    · exact ⟨hflight, Or.inr ⟨rfl, htakes⟩⟩

/-- INTERNAL: a body that is sent has a new token and is in flight; a revocation that is
too large is taken back. -/
theorem send_cases {s s' : Session} {command : Command} {request : Request} {target : Target}
    {after : String} {now : ℕ} {result : Except String Work}
    (h : s.send command request target after now = (result, s')) :
    s'.ticket = s.ticket ∧
      (((∃ error, result = .error error) ∧ s'.flight = s.flight ∧
          (command ≠ .revoke → s'.recovery = s.recovery)) ∨
        ∃ flight, result = .ok { token := flight.token, request } ∧ s'.flight = some flight ∧
          flight.command = command ∧ s'.recovery = s.recovery) := by
  unfold Session.send at h
  by_cases hsize : REQUEST_LIMIT < request.body.length
  · rw [if_pos hsize] at h
    by_cases hrevoke : command = .revoke
    · rw [if_pos hrevoke] at h
      obtain ⟨rfl, rfl⟩ := Prod.mk.inj h
      exact ⟨rfl, Or.inl ⟨⟨_, rfl⟩, rfl, fun hother => absurd hrevoke hother⟩⟩
    · rw [if_neg hrevoke] at h
      obtain ⟨rfl, rfl⟩ := Prod.mk.inj h
      exact ⟨rfl, Or.inl ⟨⟨_, rfl⟩, rfl, fun _ => rfl⟩⟩
  · rw [if_neg hsize] at h
    by_cases hserial : s.serial = VaultAccess.Model.u32Max.toNat
    · rw [if_pos hserial] at h
      obtain ⟨rfl, rfl⟩ := Prod.mk.inj h
      exact ⟨rfl, Or.inl ⟨⟨_, rfl⟩, rfl, fun _ => rfl⟩⟩
    · rw [if_neg hserial] at h
      obtain ⟨rfl, rfl⟩ := Prod.mk.inj h
      exact ⟨rfl, Or.inr ⟨_, rfl, rfl, rfl, rfl⟩⟩

/-- A body that is no revocation: the record is kept, and it is the status of the record
where there is one. -/
structure Reads (command : Command) (request : Request) (s s' : Session) : Prop where
  reading : command ≠ .revoke
  unrevoked : ∀ target actionId ticket password, request ≠ .revoke target actionId ticket password
  recovery : s'.recovery = s.recovery
  status : ∀ r, s.recovery = some r → request = .status r.target r.actionId
  ticket : Drops s s'

/-- **What a request does**: it is refused, or a read or a revocation is in flight. -/
theorem begin_cases {s s' : Session} {command : Command} {kind : IdentityKind} {id password : String}
    {first second : ℕ} {result : Except String Work}
    (h : s.begin command kind id password first second = (result, s')) :
    (∃ error, result = .error error ∧ s'.flight = s.flight ∧ Drops s s' ∧
        (s.recovery.isSome → s'.recovery = s.recovery)) ∨
      ∃ flight request, result = .ok { token := flight.token, request } ∧ s'.flight = some flight ∧
        flight.command = command ∧
        (Reads command request s s' ∨ (command = .revoke ∧ Takes request first s s')) := by
  unfold Session.begin at h
  split_ifs at h with hbusy hopen
  · obtain ⟨rfl, rfl⟩ := Prod.mk.inj h
    exact Or.inl ⟨_, rfl, rfl, Or.inl rfl, fun _ => rfl⟩
  · obtain ⟨rfl, rfl⟩ := Prod.mk.inj h
    exact Or.inl ⟨_, rfl, rfl, Or.inl rfl, fun _ => rfl⟩
  · have hstatus : s.recovery.isSome = true → command = .status := fun hsome =>
      not_not.mp fun hother => hopen ⟨hsome, hother⟩
    split at h
    · rename_i error middle hcompose
      obtain ⟨rfl, rfl⟩ := Prod.mk.inj h
      obtain ⟨hflight, ⟨hcarries, hdrops, -⟩ | ⟨-, _, _, habsurd, -⟩⟩ := compose_cases hcompose
      · exact Or.inl ⟨_, rfl, hflight, hdrops, fun _ => hcarries.recovery⟩
      · exact absurd habsurd (by simp)
    · rename_i request target after middle hcompose
      obtain ⟨hticket, hsent⟩ := send_cases h
      obtain ⟨hflight, ⟨hcarries, hdrops, hreads⟩ | ⟨rfl, request', flight', heq, htakes⟩⟩ :=
        compose_cases hcompose
      · have hdrops' : Drops s s' := hdrops.imp hticket.trans hticket.trans
        obtain ⟨hreading, hunrevoked, hasks⟩ := hreads request (target, after) rfl
        rcases hsent with ⟨⟨error, rfl⟩, hflight', hrecovery⟩ | ⟨flight, rfl, hflight', hcommand, hrecovery⟩
        · exact Or.inl ⟨error, rfl, hflight'.trans hflight, hdrops',
            fun _ => (hrecovery hreading).trans hcarries.recovery⟩
        · refine Or.inr ⟨flight, request, rfl, hflight', hcommand, Or.inl ⟨hreading, hunrevoked,
            hrecovery.trans hcarries.recovery, fun r hr => ?_, hdrops'⟩⟩
          obtain ⟨r', hr', hrequest⟩ := hasks (hstatus (by rw [hr]; rfl))
          rw [hrequest, Option.some.inj (hr'.symm.trans hr)]
      · obtain ⟨rfl, -⟩ := Prod.mk.inj (Except.ok.inj heq)
        have hspent : s'.ticket = none := hticket.trans htakes.spent
        rcases hsent with ⟨⟨error, rfl⟩, hflight', -⟩ | ⟨flight, rfl, hflight', hcommand, hrecovery⟩
        · refine Or.inl ⟨error, rfl, hflight'.trans hflight, Or.inr hspent, fun hsome => ?_⟩
          rw [htakes.unrecovered] at hsome
          exact absurd hsome (by simp)
        · obtain ⟨t, target', password', ht, hfresh, hdetail, htarget, hrequest, hrecovery'⟩ := htakes.ticket
          exact Or.inr ⟨flight, request, rfl, hflight', hcommand, Or.inr ⟨rfl, htakes.unrecovered,
            ⟨t, target', password', ht, hfresh, hdetail, htarget, hrequest,
              hrecovery.trans hrecovery'⟩, hspent⟩⟩

/-- INTERNAL: an accepted action reply ends the recovery only when it is settled. -/
theorem acceptAction_cases {s s' : Session} {r : Action} (h : s.acceptAction r = some s') :
    s'.flight = s.flight ∧ s'.ticket = s.ticket ∧
      ∃ expected, s.recovery = some expected ∧
        (s'.recovery = s.recovery ∨
          (r.target = expected.target ∧ r.actionId = expected.actionId ∧ r.settled = true)) := by
  unfold Session.acceptAction at h
  cases hrecovery : s.recovery with
  | none =>
    rw [hrecovery] at h
    exact absurd h (by simp)
  | some expected =>
    rw [hrecovery] at h
    dsimp only at h
    split_ifs at h with hmatch hsettled
    · obtain rfl := Option.some.inj h
      simp only [Bool.or_eq_true, not_or, decide_eq_true_eq, not_not] at hmatch
      exact ⟨rfl, rfl, expected, rfl, Or.inr ⟨hmatch.1.1.2, hmatch.1.2, hsettled⟩⟩
    · obtain rfl := Option.some.inj h
      exact ⟨rfl, rfl, expected, rfl, Or.inl rfl⟩

/-- **What an accepted reply does**, by the command of its flight. -/
theorem accept_cases {R : Replies} {s s' : Session} {flight : Flight} {bytes : List UInt8}
    {first second : ℕ} (h : s.accept R flight bytes first second = some s') :
    s'.flight = s.flight ∧
      ((s'.recovery = s.recovery ∧ s'.ticket = s.ticket) ∨
        (flight.command = .prepare ∧ s'.recovery = s.recovery ∧
          ∃ reply, decode R.prepared bytes = some reply ∧
            s'.ticket = some { prepared := reply, started := flight.started }) ∨
        (s'.ticket = s.ticket ∧ ∃ reply expected, decode R.action bytes = some reply ∧
          s.recovery = some expected ∧ reply.target = expected.target ∧
          reply.actionId = expected.actionId ∧ reply.settled = true)) := by
  have hinventory : ∀ r, s.acceptInventory flight r first = some s' →
      s'.flight = s.flight ∧ s'.recovery = s.recovery ∧ s'.ticket = s.ticket := by
    intro r hr
    unfold Session.acceptInventory at hr
    split at hr
    · exact absurd hr (by simp)
    · split at hr
      · exact absurd hr (by simp)
      · split at hr
        · exact absurd hr (by simp)
        · obtain rfl := Option.some.inj hr
          exact ⟨rfl, rfl, rfl⟩
  have haction : ∀ r, decode R.action bytes = some r → s.acceptAction r = some s' →
      s'.flight = s.flight ∧
        ((s'.recovery = s.recovery ∧ s'.ticket = s.ticket) ∨
          (s'.ticket = s.ticket ∧ ∃ reply expected, decode R.action bytes = some reply ∧
            s.recovery = some expected ∧ reply.target = expected.target ∧
            reply.actionId = expected.actionId ∧ reply.settled = true)) := by
    intro r hdecode hr
    obtain ⟨hflight, hticket, expected, hexpected, hkept | hsettled⟩ := acceptAction_cases hr
    · exact ⟨hflight, Or.inl ⟨hkept, hticket⟩⟩
    · exact ⟨hflight, Or.inr ⟨hticket, r, expected, hdecode, hexpected, hsettled⟩⟩
  unfold Session.accept at h
  cases hcommand : flight.command with
  | list =>
    rw [hcommand] at h
    obtain ⟨r, -, hr⟩ := Option.bind_eq_some_iff.mp h
    obtain ⟨hflight, hkept⟩ := hinventory r hr
    exact ⟨hflight, Or.inl hkept⟩
  | next =>
    rw [hcommand] at h
    obtain ⟨r, -, hr⟩ := Option.bind_eq_some_iff.mp h
    obtain ⟨hflight, hkept⟩ := hinventory r hr
    exact ⟨hflight, Or.inl hkept⟩
  | detail =>
    rw [hcommand] at h
    obtain ⟨r, -, hr⟩ := Option.bind_eq_some_iff.mp h
    unfold Session.acceptDetail at hr
    split_ifs at hr <;> obtain rfl := Option.some.inj hr <;> exact ⟨rfl, Or.inl ⟨rfl, rfl⟩⟩
  | prepare =>
    rw [hcommand] at h
    obtain ⟨r, hdecode, hr⟩ := Option.bind_eq_some_iff.mp h
    unfold Session.acceptPrepared at hr
    split_ifs at hr
    obtain rfl := Option.some.inj hr
    exact ⟨rfl, Or.inr (Or.inl ⟨rfl, rfl, r, hdecode, rfl⟩)⟩
  | revoke =>
    rw [hcommand] at h
    obtain ⟨r, hdecode, hr⟩ := Option.bind_eq_some_iff.mp h
    obtain ⟨hflight, hcases⟩ := haction r hdecode hr
    exact ⟨hflight, hcases.imp id Or.inr⟩
  | status =>
    rw [hcommand] at h
    obtain ⟨r, hdecode, hr⟩ := Option.bind_eq_some_iff.mp h
    obtain ⟨hflight, hcases⟩ := haction r hdecode hr
    exact ⟨hflight, hcases.imp id Or.inr⟩
  | origin =>
    rw [hcommand] at h
    obtain ⟨r, -, hr⟩ := Option.bind_eq_some_iff.mp h
    unfold Session.acceptOrigin at hr
    split_ifs at hr
    split at hr
    · exact absurd hr (by simp)
    · obtain rfl := Option.some.inj hr
      exact ⟨rfl, Or.inl ⟨rfl, rfl⟩⟩

/-- INTERNAL: what an error reply does. -/
theorem rejected_cases (s : Session) (flight : Flight) (error : ErrorCode) :
    (s.rejected flight error).flight = s.flight ∧ (s.rejected flight error).ticket = none ∧
      ((s.rejected flight error).recovery = s.recovery ∨
        (flight.command = .revoke ∧ error.definiteRejection = true)) := by
  unfold Session.rejected
  dsimp only
  by_cases hdefinite : flight.command = .revoke ∧ error.definiteRejection = true
  · rw [if_pos hdefinite]
    by_cases haction : (!flight.command.isAction) = true
    · simp only [if_pos haction]
      exact ⟨rfl, rfl, Or.inr hdefinite⟩
    · simp only [if_neg haction]
      exact ⟨trivial, trivial, Or.inr hdefinite⟩
  · rw [if_neg hdefinite]
    by_cases haction : (!flight.command.isAction) = true
    · simp only [if_pos haction]
      exact ⟨rfl, rfl, Or.inl rfl⟩
    · simp only [if_neg haction]
      exact ⟨trivial, trivial, Or.inl trivial⟩

/-- INTERNAL: what an unusable reply does. -/
theorem unusable_cases (s : Session) (flight : Flight) :
    Carries s (s.unusable flight) ∧ Drops s (s.unusable flight) := by
  unfold Session.unusable
  split_ifs
  · exact ⟨⟨rfl, rfl⟩, Or.inr rfl⟩
  · exact ⟨⟨rfl, rfl⟩, Or.inl rfl⟩

/-- **What a reply does**: it is stale, or its flight is over and the reply is an error,
unusable or accepted. -/
theorem finish_cases (R : Replies) (s : Session) (token : ℕ) (bytes : List UInt8)
    (first second : ℕ) :
    s.finish R token bytes first second = { s with outcome := .stale } ∨
      ∃ flight, s.flight = some flight ∧ flight.token = token ∧
        (s.finish R token bytes first second = { s with flight := none, outcome := .stale } ∨
          (∃ error, errorOf R bytes = some error ∧
            s.finish R token bytes first second = { s with flight := none }.rejected flight error) ∨
          s.finish R token bytes first second = { s with flight := none }.unusable flight ∨
          ∃ s', { s with flight := none }.accept R flight bytes first second = some s' ∧
            s.finish R token bytes first second = { s' with outcome := .accepted }) := by
  unfold Session.finish
  cases hflight : s.flight with
  | none => exact Or.inl rfl
  | some flight =>
    dsimp only
    by_cases htoken : flight.token ≠ token
    · rw [if_pos htoken]
      exact Or.inl rfl
    · rw [if_neg htoken]
      refine Or.inr ⟨flight, rfl, not_not.mp htoken, ?_⟩
      by_cases hstale : flight.epoch ≠ s.epoch ∧ flight.command.isAction = false
      · rw [if_pos hstale]
        exact Or.inl rfl
      · rw [if_neg hstale]
        cases herror : errorOf R bytes with
        | some error => exact Or.inr (Or.inl ⟨error, rfl, rfl⟩)
        | none =>
          cases haccept : { s with flight := none }.accept R flight bytes first second with
          | none => exact Or.inr (Or.inr (Or.inl rfl))
          | some s' => exact Or.inr (Or.inr (Or.inr ⟨s', rfl, rfl⟩))

/-! ## The recovery record -/

/-- The revocation is recorded for recovery, and the only revocation in flight is its own. -/
structure Recovers (recovery : Recovery) (token : ℕ) (s : Session) : Prop where
  recovery : s.recovery = some recovery
  flight : ∀ f, s.flight = some f → f.command = .revoke → f.token = token

theorem Recovers.congr {recovery : Recovery} {token : ℕ} {s s' : Session}
    (h : Recovers recovery token s) (hrecovery : s'.recovery = s.recovery)
    (hflight : s'.flight = s.flight) : Recovers recovery token s' :=
  ⟨hrecovery.trans h.recovery, fun f hf => h.flight f (hflight ▸ hf)⟩

theorem Recovers.landed {recovery : Recovery} {token : ℕ} {s s' : Session}
    (h : Recovers recovery token s) (hrecovery : s'.recovery = s.recovery)
    (hflight : s'.flight = none) : Recovers recovery token s' :=
  ⟨hrecovery.trans h.recovery, fun f hf => absurd (hflight ▸ hf) (by simp)⟩

/-- INTERNAL: a reply keeps the record, or settles the revocation. -/
theorem finish_recovers (R : Replies) {s : Session} {recovery : Recovery} {token : ℕ}
    (h : Recovers recovery token s) (t : ℕ) (bytes : List UInt8) (first second : ℕ) :
    Recovers recovery token (s.finish R t bytes first second) ∨
      Resolves R recovery token (entryAt (Session.step R) s (.finish t bytes first second)) := by
  rcases finish_cases R s t bytes first second with hstale | ⟨flight, hflight, htoken, hcases⟩
  · exact Or.inl (h.congr (by rw [hstale]) (by rw [hstale]))
  rcases hcases with heq | ⟨error, herror, heq⟩ | heq | ⟨s', haccept, heq⟩
  · exact Or.inl (h.landed (by rw [heq]) (by rw [heq]))
  · obtain ⟨hnone, -, hkept | ⟨hrevoke, hdefinite⟩⟩ :=
      rejected_cases { s with flight := none } flight error
    · exact Or.inl (h.landed (by rw [heq, hkept]) (by rw [heq, hnone]))
    · -- the flight is a revocation's, so that it is the recorded one
      have hown : t = token := htoken.symm.trans (h.flight flight hflight hrevoke)
      exact Or.inr ⟨t, bytes, first, second, flight, rfl, hflight, htoken,
        Or.inl ⟨hown, error, herror, hdefinite⟩⟩
  · obtain ⟨hcarries, -⟩ := unusable_cases { s with flight := none } flight
    exact Or.inl (h.landed (by rw [heq, hcarries.recovery]) (by rw [heq, hcarries.flight]))
  · obtain ⟨hnone, ⟨hkept, -⟩ | ⟨-, hkept, -⟩ |
      ⟨-, reply, expected, hreply, hexpected, htarget, haction, hsettled⟩⟩ := accept_cases haccept
    · exact Or.inl (h.landed (by rw [heq]; exact hkept) (by rw [heq]; exact hnone))
    · exact Or.inl (h.landed (by rw [heq]; exact hkept) (by rw [heq]; exact hnone))
    · obtain rfl : expected = recovery := Option.some.inj (hexpected.symm.trans h.recovery)
      refine Or.inr ⟨t, bytes, first, second, flight, rfl, hflight, htoken,
        Or.inr ⟨?_, reply, hreply, htarget, haction, hsettled⟩⟩
      show (s.finish R t bytes first second).outcome = .accepted
      rw [heq]

/-- **One call while a revocation is recorded**: only its status is asked for, and the
record is kept unless the call settles the revocation. -/
theorem step_recovers (R : Replies) {s : Session} {recovery : Recovery} {token : ℕ}
    (h : Recovers recovery token s) (call : Call) :
    (∀ w, (entryAt (Session.step R) s call).answer.handed = some w →
        w.request = .status recovery.target recovery.actionId) ∧
      (Recovers recovery token (s.step R call).2 ∨
        Resolves R recovery token (entryAt (Session.step R) s call)) := by
  cases call with
  | configure saved =>
    refine ⟨fun w hw => absurd hw (by simp [entryAt, Session.step, Answer.handed]), Or.inl ?_⟩
    rcases configure_cases R s saved with heq | ⟨hnone, -⟩
    · exact h.congr (congrArg Session.recovery heq) (congrArg Session.flight heq)
    · exact absurd (hnone.symm.trans h.recovery) (by simp)
  | invalidate =>
    exact ⟨fun w hw => absurd hw (by simp [entryAt, Session.step, Answer.handed]),
      Or.inl (h.congr rfl rfl)⟩
  | snapshot first second third =>
    obtain ⟨hcarries, -⟩ := snapshot_cases s first second third
    exact ⟨fun w hw => absurd hw (by simp [entryAt, Session.step, Answer.handed]),
      Or.inl (h.congr hcarries.recovery hcarries.flight)⟩
  | begin command kind id password first second =>
    obtain ⟨result, s', hbegin⟩ :
        ∃ result s', s.begin command kind id password first second = (result, s') := ⟨_, _, rfl⟩
    simp only [entryAt, Session.step, hbegin, Prod.map_apply, id_eq]
    rcases begin_cases hbegin with ⟨error, rfl, hflight, -, hrecovery⟩ |
      ⟨flight, request, rfl, hflight, hcommand, hreads | ⟨-, htakes⟩⟩
    · refine ⟨fun w hw => absurd hw (by simp [Answer.handed]), Or.inl (h.congr ?_ hflight)⟩
      exact hrecovery (by rw [h.recovery]; rfl)
    · refine ⟨fun w hw => ?_, Or.inl ⟨hreads.recovery.trans h.recovery, fun f hf hrevoke => ?_⟩⟩
      · obtain rfl := Option.some.inj hw
        exact hreads.status recovery h.recovery
      · obtain rfl := Option.some.inj (hf.symm.trans hflight)
        exact absurd (hcommand.symm.trans hrevoke) hreads.reading
    · exact absurd (htakes.unrecovered.symm.trans h.recovery) (by simp)
  | finish t bytes first second =>
    exact ⟨fun w hw => absurd hw (by simp [entryAt, Session.step, Answer.handed]),
      finish_recovers R h t bytes first second⟩

/-! ## Tickets -/

/-- The session does not hold the ticket. -/
def Spent (t : String) (s : Session) : Prop :=
  ∀ held, s.ticket = some held → held.prepared.ticket ≠ t

theorem Spent.drops {t : String} {s s' : Session} (h : Spent t s) (hdrops : Drops s s') : Spent t s' := by
  intro held hheld
  rcases hdrops with heq | hnone
  · exact h held (heq ▸ hheld)
  · exact absurd (hnone.symm.trans hheld) (by simp)

/-- INTERNAL: a ticket comes back only with another prepare reply. -/
theorem step_spent (R : Replies) {t : String} {s : Session} (h : Spent t s) (call : Call) :
    Spent t (s.step R call).2 ∨ Brings R t (entryAt (Session.step R) s call) := by
  cases call with
  | configure saved =>
    rcases configure_cases R s saved with heq | ⟨-, hnone⟩
    · exact Or.inl (h.drops (Or.inl (congrArg Session.ticket heq)))
    · exact Or.inl (h.drops (Or.inr hnone))
  | invalidate => exact Or.inl (h.drops (Or.inr rfl))
  | snapshot first second third =>
    exact Or.inl (h.drops (snapshot_cases s first second third).2)
  | begin command kind id password first second =>
    refine Or.inl (h.drops ?_)
    rcases begin_cases (Prod.mk.eta (p := s.begin command kind id password first second)).symm with
      ⟨error, -, -, hdrops, -⟩ | ⟨flight, request, -, -, -, hreads | ⟨-, htakes⟩⟩
    · exact hdrops
    · exact hreads.ticket
    · exact Or.inr htakes.spent
  | finish token bytes first second =>
    have hticket : ∀ {left : Session} {held : Option Ticket},
        s.finish R token bytes first second = left → left.ticket = held →
        (s.step R (.finish token bytes first second)).2.ticket = held :=
      fun heq hheld => (congrArg Session.ticket heq).trans hheld
    rcases finish_cases R s token bytes first second with hstale | ⟨flight, hflight, htoken, hcases⟩
    · exact Or.inl (h.drops (Or.inl (hticket hstale rfl)))
    rcases hcases with heq | ⟨error, -, heq⟩ | heq | ⟨s', haccept, heq⟩
    · exact Or.inl (h.drops (Or.inl (hticket heq rfl)))
    · obtain ⟨-, hnone, -⟩ := rejected_cases { s with flight := none } flight error
      exact Or.inl (h.drops (Or.inr (hticket heq hnone)))
    · have hdrops : Drops s _ := (unusable_cases { s with flight := none } flight).2
      exact Or.inl (h.drops (hdrops.imp (hticket heq) (hticket heq)))
    · have hafter : (s.step R (.finish token bytes first second)).2.ticket = s'.ticket :=
        hticket heq rfl
      obtain ⟨-, ⟨-, hkept⟩ | ⟨hcommand, -, reply, hreply, hticket⟩ | ⟨hkept, -⟩⟩ := accept_cases haccept
      · exact Or.inl (h.drops (Or.inl (hafter.trans hkept)))
      · by_cases hsame : reply.ticket = t
        · have houtcome : (s.finish R token bytes first second).outcome = .accepted := by rw [heq]
          exact Or.inr ⟨token, bytes, first, second, flight, reply, rfl, hflight, htoken, hcommand,
            hreply, hsame, houtcome⟩
        · refine Or.inl fun held hheld => ?_
          obtain rfl := Option.some.inj ((hafter.trans hticket).symm.trans hheld)
          exact hsame
      · exact Or.inl (h.drops (Or.inl (hafter.trans hkept)))

/-- INTERNAL: a revocation that was handed out is recorded, and it took the ticket. -/
theorem revocationOf_eq_some {R : Replies} {s : Session} {call : Call} {token : ℕ} {target : Target}
    {actionId ticket : String}
    (h : revocationOf (entryAt (Session.step R) s call) = some (token, target, actionId, ticket)) :
    Recovers { target, actionId } token (s.step R call).2 ∧ (s.step R call).2.ticket = none ∧
      ∃ kind id password first second held,
        call = .begin .revoke kind id password first second ∧ s.ticket = some held ∧
        held.fresh first = true ∧ s.detail = some held.prepared.identity ∧
        held.prepared.identity.target = target ∧ held.prepared.actionId = actionId ∧
        held.prepared.ticket = ticket := by
  cases call with
  | configure saved => exact absurd h (by simp [revocationOf, entryAt, Session.step, Answer.handed])
  | invalidate => exact absurd h (by simp [revocationOf, entryAt, Session.step, Answer.handed])
  | snapshot first second third =>
    exact absurd h (by simp [revocationOf, entryAt, Session.step, Answer.handed])
  | finish t bytes first second =>
    exact absurd h (by simp [revocationOf, entryAt, Session.step, Answer.handed])
  | begin command kind id password first second =>
    obtain ⟨result, s', hbegin⟩ :
        ∃ result s', s.begin command kind id password first second = (result, s') := ⟨_, _, rfl⟩
    simp only [revocationOf, entryAt, Session.step, hbegin, Prod.map_apply, id_eq] at h ⊢
    rcases begin_cases hbegin with ⟨error, rfl, -⟩ |
      ⟨flight, request, rfl, hflight, hcommand, hreads | ⟨rfl, htakes⟩⟩
    · exact absurd h (by simp [Answer.handed])
    · simp only [Answer.handed, Option.bind_some] at h
      cases request with
      | revoke target' actionId' ticket' password' =>
        exact absurd rfl (hreads.unrevoked target' actionId' ticket' password')
      | _ => exact absurd h (by simp)
    · obtain ⟨held, target', password', hheld, hfresh, hdetail, htarget, hrequest, hrecovery⟩ := htakes.ticket
      simp only [Answer.handed, Option.bind_some, hrequest, Option.some.injEq, Prod.mk.injEq] at h
      obtain ⟨rfl, rfl, rfl, rfl⟩ := h
      refine ⟨⟨hrecovery, fun f hf _ => ?_⟩, htakes.spent, kind, id, password, first, second, held, rfl,
        hheld, hfresh, hdetail, htarget, rfl, rfl⟩
      rw [Option.some.inj (hf.symm.trans hflight)]

/-- **A revocation is sent once and recovered**: it takes a fresh ticket of the identity
on display; afterwards its record is kept and only its status is asked for, until it is
definitely rejected or settled; and another revocation carries the same ticket only after
another prepare reply brought it.
SRCLINE: management.rs:213-646 -/
theorem revocations_recovered (R : Replies) (calls : List Call)
    (front back : List (Library.Entry Session Call Answer)) (e : Library.Entry Session Call Answer)
    (hrun : Session.initial.run R calls = front ++ e :: back) (token : ℕ) (target : Target)
    (actionId ticket : String) (he : revocationOf e = some (token, target, actionId, ticket)) :
    (∃ kind id password first second held,
      e.call = .begin .revoke kind id password first second ∧ e.before.ticket = some held ∧
      held.fresh first = true ∧ e.before.detail = some held.prepared.identity ∧
      held.prepared.identity.target = target ∧ held.prepared.actionId = actionId ∧
      held.prepared.ticket = ticket) ∧
    e.after.recovery = some { target, actionId } ∧
    ∀ mid e' rest, back = mid ++ e' :: rest →
      ((∃ x ∈ mid, Resolves R { target, actionId } token x) ∨
        (e'.before.recovery = some { target, actionId } ∧
          (∀ w, e'.answer.handed = some w → w.request = .status target actionId) ∧
          (e'.after.recovery = some { target, actionId } ∨
            Resolves R { target, actionId } token e'))) ∧
      ∀ token' target' actionId', revocationOf e' = some (token', target', actionId', ticket) →
        ∃ x ∈ mid, Brings R ticket x := by
  obtain ⟨hentry, calls', hback⟩ := trace_split hrun
  rw [hentry] at he
  obtain ⟨hrecovers, hspent, hissued⟩ := revocationOf_eq_some he
  have hafter : e.after = (Session.step R e.before e.call).2 := congrArg Library.Entry.after hentry
  rw [← hafter] at hrecovers hspent
  refine ⟨hissued, hrecovers.recovery, fun mid e' rest hsplit => ?_⟩
  have htrace := hback.symm.trans hsplit
  obtain ⟨hentry', -⟩ := trace_split htrace
  refine ⟨?_, fun token' target' actionId' he' => ?_⟩
  · rcases trace_until (Recovers { target, actionId } token) (Resolves R { target, actionId } token)
      (fun s call h => (step_recovers R h call).2) htrace hrecovers with hopen | hresolved
    · obtain ⟨hasks, hkept⟩ := step_recovers R hopen e'.call
      rw [← hentry'] at hasks hkept
      refine Or.inr ⟨hopen.recovery, hasks, hkept.imp (fun h => ?_) id⟩
      rw [congrArg Library.Entry.after hentry']
      exact h.recovery
    · exact Or.inl hresolved
  · have hnone : Spent ticket e.after := fun held hheld => absurd (hspent.symm.trans hheld) (by simp)
    rcases trace_until (Spent ticket) (Brings R ticket) (fun s call h => step_spent R h call) htrace hnone
      with hopen | hbrought
    · rw [hentry'] at he'
      obtain ⟨-, -, -, -, -, -, -, held, -, hheld, -, -, -, -, hticket⟩ := revocationOf_eq_some he'
      exact absurd hticket (hopen held hheld)
    · exact hbrought

/-- An agent, an action and a ticket. -/
def sampleAgent : String := "AAAAAAAAAAAAAAAAAAAAAAAAAAAAAAAAAAAAAAAAAAA"
def sampleAction : String := "BBBBBBBBBBBBBBBBBBBBBBBBBBBBBBBBBBBBBBBBBBB"
def sampleKey : String := "0123456789abcdef0123456789abcdef0123456789abcdef0123456789abcdef"
def sampleTicket : String := "feedfeedfeedfeedfeedfeedfeedfeedfeedfeedfeedfeedfeedfeedfeedfeed"
def sampleTarget : Target := { kind := .requesterAgent, id := sampleAgent }

def samplePrepared : Prepared where
  version := 2
  identity := { kind := .requesterAgent, id := sampleAgent, label := "agent", fingerprint := sampleKey,
                roles := [.request], trust := .enabled, thisClient := false }
  actionId := sampleAction
  ticket := sampleTicket
  generation := 1
  validForSeconds := 55

def samplePreparedReply : List UInt8 :=
  Json.toVec (.obj [("action_id", .str sampleAction), ("generation", .int 1),
    ("identity", .obj [("fingerprint", .str sampleKey), ("id", .str sampleAgent),
      ("kind", .str "requester_agent"), ("label", .str "agent"), ("roles", .arr [.str "request"]),
      ("this_client", .bool false), ("trust", .str "enabled")]),
    ("ticket", .str sampleTicket), ("valid_for_seconds", .int 55), ("version", .int 2)])

def sampleErrorReply : List UInt8 :=
  Json.toVec (.obj [("error", .str "rate_limited"), ("version", .int 1)])

/-- What `serde` decodes the replies above to (the error reply is the one that starts with
its `error` member). -/
def sampleReplies : Replies where
  errorResponse := fun bytes =>
    if bytes[2]? = some 0x65 then some { version := 1, error := .rateLimited } else none
  recovery := fun _ => none
  inventory := fun _ => none
  detail := fun _ => none
  prepared := fun _ => some samplePrepared
  action := fun _ => none
  origin := fun _ => none

/-- An identity that is prepared and revoked. -/
def sampleRevocation (token : ℕ) : List Call :=
  [.begin .prepare .requesterAgent sampleAgent "" 0 0, .finish token samplePreparedReply 0 0,
    .begin .revoke .requesterAgent sampleAgent "password" 0 0]

/-- The provider rejects the first revocation and repeats its prepare reply. -/
def sampleRepetition : List Call :=
  .configure "" :: sampleRevocation 1 ++ .finish 2 sampleErrorReply 0 0 :: sampleRevocation 3

theorem revocations_sampleRepetition :
    (Session.initial.run sampleReplies sampleRepetition).map revocationOf =
      [none, none, none, some (2, sampleTarget, sampleAction, sampleTicket), none, none, none,
        some (4, sampleTarget, sampleAction, sampleTicket)] := by
  decide +kernel

/-- INTERNAL: the two revocations of the run. -/
theorem exists_revocations_sampleRepetition :
    ∃ (front mid : List (Library.Entry Session Call Answer)) (e e' : Library.Entry Session Call Answer),
      Session.initial.run sampleReplies sampleRepetition = front ++ e :: (mid ++ [e']) ∧
        revocationOf e = some (2, sampleTarget, sampleAction, sampleTicket) ∧
        revocationOf e' = some (4, sampleTarget, sampleAction, sampleTicket) := by
  have hrun : Session.initial.run sampleReplies sampleRepetition =
      [_, _, _] ++ _ :: ([_, _, _] ++ [_]) := rfl
  have hrevocations := revocations_sampleRepetition
  rw [hrun] at hrevocations
  simp only [List.cons_append, List.nil_append, List.map_cons, List.map_nil, List.cons.injEq] at hrevocations
  obtain ⟨-, -, -, hfirst, -, -, -, hsecond, -⟩ := hrevocations
  exact ⟨_, _, _, _, hrun, hfirst, hsecond⟩

/-- The same ticket stands in two revocation bodies. -/
theorem repeated_revocation_ticket :
    ∃ (front mid : List (Library.Entry Session Call Answer)) (e e' : Library.Entry Session Call Answer),
      Session.initial.run sampleReplies sampleRepetition = front ++ e :: (mid ++ [e']) ∧
        revocationOf e = some (2, sampleTarget, sampleAction, sampleTicket) ∧
        revocationOf e' = some (4, sampleTarget, sampleAction, sampleTicket) :=
  exists_revocations_sampleRepetition

theorem revocations_recovered_repetition :
    ∃ mid : List (Library.Entry Session Call Answer), ∃ x ∈ mid, Brings sampleReplies sampleTicket x := by
  obtain ⟨front, mid, e, e', hrun, hfirst, hsecond⟩ := exists_revocations_sampleRepetition
  have h := revocations_recovered sampleReplies sampleRepetition front _ e hrun 2 sampleTarget
    sampleAction sampleTicket hfirst
  exact ⟨mid, (h.2.2 mid e' [] rfl).2 4 sampleTarget sampleAction hsecond⟩

end VaultAccess.Analysis.Companion.Management
