import VaultAccess.Model.Application

/-!
# The actions a program takes

Which actions the entry points take, read off their code. Most of what every call does before
and after its own work is common: it takes mutexes, looks at the clock, the flags and the
authority, ends a session, expires requests and closes admission.
-/

set_option autoImplicit false

namespace VaultAccess.Analysis

open VaultAccess.Library VaultAccess.Model VaultAccess.Model.Application

section Rules

variable {ε δ α β : Type} {kind kind' : Act → Prop}

/-- Every action of the program is of the kind. -/
def Within (kind : Act → Prop) (x : App ε α) : Prop := Prog.Only kind x.run

theorem Within.act {a : Act} (ha : kind a) : Within kind (act a : App ε (Ans a)) := ⟨ha, fun _ => trivial⟩

/-- **One program after another.** -/
theorem Within.bind {x : App ε α} {f : α → App ε β} (hx : Within kind x) (hf : ∀ value, Within kind (f value)) :
    Within kind (x >>= f) := by
  unfold Within
  rw [ExceptT.run_bind]
  refine Prog.Only.bind hx fun result => ?_
  cases result with
  | ok value => exact hf value
  | error e => trivial

theorem Within.ite {c : Prop} [Decidable c] {x y : App ε α} (hx : Within kind x) (hy : Within kind y) :
    Within kind (if c then x else y) := by
  split_ifs
  · exact hx
  · exact hy

theorem Within.choose {c : Prop} [Decidable c] {x y : App ε α} {f : α → App ε β} (hx : Within kind x)
    (hy : Within kind y) (hf : ∀ value, Within kind (f value)) :
    Within kind (if c then x >>= f else y >>= f) := .ite (hx.bind hf) (hy.bind hf)

theorem Within.attempt {x : App ε α} (h : Within kind x) : Within kind (attempt x : App δ (Except ε α)) :=
  Prog.Only.bind h fun _ => trivial

theorem Within.adapt {x : App ε α} (f : ε → δ) (h : Within kind x) : Within kind (x.adapt f) :=
  Prog.Only.bind h fun _ => trivial

theorem Within.ofExcept (f : ε → δ) (result : Except ε α) : Within kind (ofExcept f result) := by
  cases result <;> trivial

theorem Within.raise (result : Except ε α) : Within kind (raise result) := .ofExcept _ result

theorem Within.okOr (e : ε) (value : Option α) : Within kind (okOr e value) := by
  cases value <;> trivial

theorem Within.holding {l : Lock} {body : App ε α} (hrelease : kind (.release l)) (h : Within kind body) :
    Within kind (holding l body) :=
  .bind (.attempt h) fun result => .bind (.act hrelease) fun _ => .raise result

theorem Within.withLock {l : Lock} {e : ε} {body : App ε α} (hacquire : kind (.acquire l none))
    (hrelease : kind (.release l)) (h : Within kind body) : Within kind (withLock l e body) :=
  .bind (.act hacquire) fun _ => .ite (.holding hrelease h) trivial

/-! ### What a program answers -/

/-- Every end of the program satisfies `Q`. -/
def Leaves (Q : α → Prop) : Prog Act Ans α → Prop
  | .done value => Q value
  | .act _ next => ∀ answer, Leaves Q (next answer)

/-- Every value the program answers with satisfies `Q`. -/
def Yields (Q : α → Prop) (x : App ε α) : Prop :=
  Leaves (fun result => ∀ value, result = .ok value → Q value) x.run

/-- INTERNAL: every program answers with something. -/
theorem yields_true (x : App ε α) : Yields (fun _ => True) x := by
  have hall : ∀ p : Prog Act Ans (Except ε α),
      Leaves (fun result => ∀ value, result = .ok value → True) p := by
    intro p
    induction p with
    | done value => exact fun _ _ => trivial
    | act a next ih => exact fun answer => ih answer
  exact hall x.run

/-- INTERNAL: one program after another, on the results. -/
theorem Leaves.bind {Q : α → Prop} {R : β → Prop} {f : α → App ε β} {p : Prog Act Ans (Except ε α)}
    (hf : ∀ value, Q value → Yields R (f value))
    (hp : Leaves (fun result => ∀ value, result = .ok value → Q value) p) :
    Leaves (fun result => ∀ value, result = .ok value → R value)
      (p >>= fun result => (match result with
        | .ok value => (f value).run
        | .error e => pure (.error e) : Prog Act Ans (Except ε β))) := by
  induction p with
  | done result =>
    cases result with
    | ok value => exact hf value (hp value rfl)
    | error e => exact fun value hvalue => absurd hvalue (by simp)
  | act a next ih => exact fun answer => ih answer (hp answer)

theorem Yields.bind {Q : α → Prop} {R : β → Prop} {x : App ε α} {f : α → App ε β} (hx : Yields Q x)
    (hf : ∀ value, Q value → Yields R (f value)) : Yields R (x >>= f) := by
  unfold Yields
  rw [ExceptT.run_bind]
  exact Leaves.bind hf hx

theorem Yields.pure {Q : α → Prop} {value : α} (h : Q value) : Yields Q (pure value : App ε α) := by
  intro value' hvalue
  rw [← Except.ok.inj hvalue]
  exact h

theorem Yields.throw {Q : α → Prop} (e : ε) : Yields Q (throw e : App ε α) :=
  fun _ hvalue => absurd hvalue (by simp)

theorem Yields.okOr {e : ε} {value : Option α} : Yields (fun a => value = some a) (okOr e value) := by
  cases value with
  | some a => exact Yields.pure rfl
  | none => exact Yields.throw e

theorem Yields.ite {Q : α → Prop} {c : Prop} [Decidable c] {x y : App ε α} (hx : Yields Q x) (hy : Yields Q y) :
    Yields Q (if c then x else y) := by
  split_ifs
  · exact hx
  · exact hy

end Rules

/-! ## Common work -/

/-- The actions every call may take: mutexes, looks, the end of a session, expiry, and the end of
admission. -/
def Common : Act → Prop
  | .provider op => op = .lock ∨ (∃ now deadlines, op = .expireDirect now deadlines) ∨
      ∃ id, op = .failDirectLaunch id
  | .storeUncertain | .newFlag | .insertToken .. | .register .. | .removeExecution _ | .supervise
  | .handOver _ | .createSecret .. | .returnsCancelled .. | .returnsAnswer .. => False
  | _ => True

section Work

variable {ε : Type}

theorem within_withLock {α : Type} {l : Lock} {e : ε} {body : App ε α} (h : Within Common body) :
    Within Common (withLock l e body) := .withLock trivial trivial h

theorem within_closeAdmission : Within Common (closeAdmission : App ε Unit) :=
  .bind (.act trivial) fun _ => .bind (.act trivial) fun _ => .act trivial

theorem within_revoke : Within Common revoke := by
  refine .bind (.act trivial) fun authority => .bind (.okOr ..) fun generation => ?_
  refine .bind (.act trivial) fun _ => .bind (.act trivial) fun backend => ?_
  exact .bind (.act (Or.inl rfl)) fun store => .ite trivial (.act trivial)

theorem within_admission : Within Common admission := by
  refine .bind (.act trivial) fun closing => .ite (.bind within_revoke fun _ => trivial) ?_
  refine .bind (.act trivial) fun authority => .bind (.okOr ..) fun deadline => ?_
  exact .bind (.act trivial) fun now => .ite trivial (.bind within_revoke fun _ => trivial)

theorem within_expireRequests : Within Common expireRequests := by
  refine .bind (.act trivial) fun now => .bind (.act trivial) fun authority => ?_
  exact .bind (.act (Or.inr (Or.inl ⟨_, _, rfl⟩))) fun expiry => .ite (.act trivial) trivial

theorem within_tokenLive (token : Option ℕ) : Within Common (tokenLive token : App ε Bool) := by
  cases token with
  | none => trivial
  | some cell => exact .bind (.act trivial) fun _ => trivial

theorem within_agentToken (bindingId : String) : Within Common (agentToken bindingId) :=
  within_withLock (.bind (.act trivial) fun _ => .okOr ..)

theorem within_live (window : SubmitWindow) : Within Common (window.live : App ε Bool) := by
  refine .bind (.act trivial) fun closing => .ite trivial (.bind (within_tokenLive _) fun live => ?_)
  refine .ite trivial (.bind (.act trivial) fun epoch => .ite trivial ?_)
  exact .bind (.act trivial) fun now => .ite trivial (.bind (.act trivial) fun _ => trivial)

/-- INTERNAL: what a refresh does with the answer of the session. -/
theorem within_settle (result : Except SessionError Unit) : Within Common (do
    match result with
    | .ok () => pure ()
    | .error .locked => pure ()
    | .error e => throw (AgentRejection.ofSession e)
    expireRequests.adapt AgentRejection.ofSession) := by
  split
  · exact .adapt _ within_expireRequests
  · exact .adapt _ within_expireRequests
  · trivial

theorem within_refresh : Within Common refresh := by
  refine .bind (.act trivial) fun authority => ?_
  refine .ite (.bind (.act trivial) fun epoch => ?_) (.bind (.attempt within_admission) within_settle)
  exact .ite (.bind (.adapt _ within_revoke) fun _ => .bind (.attempt within_admission) within_settle)
    (.bind (.attempt within_admission) within_settle)

theorem within_storedStatus (owner : AgentOwner) (uid : UInt32) (groups : List UInt32) (id : String) :
    Within Common (storedStatus owner uid groups id) := by
  refine .bind (.act trivial) fun result => .bind (.ofExcept ..) fun s => ?_
  split <;> trivial

theorem within_crossed (id : String) (status : DirectStatus) : Within Common (crossed id status) := by
  refine .bind (.act trivial) fun now => .bind (.act trivial) fun authority => ?_
  exact .ite (.bind (.bind (.act trivial) fun _ => trivial) fun _ => trivial) (.bind trivial fun _ => trivial)

theorem within_project (status : DirectStatus) : Within Common (project status) := by
  cases status with
  | completed exitCode => exact .ite trivial trivial
  | pending | approved | running | denied | expired | failed => trivial

theorem within_snapshot (owner : AgentOwner) (token : ℕ) (uid : UInt32) (groups : List UInt32) (id : String) :
    ∀ rounds, Within Common (snapshot owner token uid groups id rounds)
  | 0 => .bind (.act trivial) fun _ => trivial
  | rounds + 1 => by
    refine .bind (within_storedStatus ..) fun status => .bind (within_withLock ?_) fun answer => ?_
    · refine .bind (within_crossed ..) fun crossed => .ite trivial (.bind (within_tokenLive _) fun live => ?_)
      refine .ite trivial (.bind (.act trivial) fun closing => .ite trivial ?_)
      exact .bind (within_project status) fun _ => trivial
    · cases answer with
      | some answer => trivial
      | none => exact .bind within_refresh fun _ => within_snapshot owner token uid groups id rounds

theorem within_launchSigned (owner : AgentOwner) (window : SubmitWindow) (id : String) :
    Within Common (launchSigned owner window id) := by
  refine .bind (.act trivial) fun _ => .bind (.act trivial) fun _ => .bind (within_withLock ?_) fun _ => ?_
  · have hlaunch : ∀ launched : Bool, Within Common (ε := AgentRejection) (do
        if !launched then
          let failed ← act (.provider (.failDirectLaunch id))
          if !failed.isOk then throw .unavailable) := fun launched =>
      .ite (.bind (.act (Or.inr (Or.inr ⟨id, rfl⟩))) fun _ => .ite trivial trivial) trivial
    exact .bind (within_live window) fun live => .choose (.act trivial) trivial hlaunch
  · refine .bind (.act trivial) fun epoch => .ite (.adapt _ within_revoke) ?_
    refine .bind (.attempt within_admission) fun result => ?_
    split
    · exact .adapt _ within_expireRequests
    · exact .adapt _ within_expireRequests
    · trivial

end Work

end VaultAccess.Analysis
