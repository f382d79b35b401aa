import VaultAccess.Analysis.Claiming

/-!
# The hand-over of secrets, and the rest of `run_execution`

Under both gates nothing that `live_fast` looks at can change, so what it found still holds
when the secrets are handed over.
-/

set_option autoImplicit false

namespace VaultAccess.Analysis

open VaultAccess.Library VaultAccess.Model VaultAccess.Model.Application

section Handover

variable {T : Thread} {ε α : Type} {H : List Lock} {F R : Shared → Prop}

/-! ## Both gates -/

/-- The thread holds both gates. -/
def Both (t : ℕ) (m : Shared) : Prop := Holds t .gate m ∧ Holds t .releaseGate m

/-- INTERNAL: **what is known of the flags, admission and the epoch stays so under both gates.** -/
theorem stable_both {P : Bool → ℕ → List Bool → Prop} :
    T.Stable fun m => Both T.number m ∧ P m.closing m.revocationEpoch m.flags := by
  intro m m₁ hrely _ hm
  obtain ⟨hclosing, hepoch, hflags⟩ := hrely.both hm.1.1 hm.1.2
  refine ⟨⟨(hrely.holder .gate).mpr hm.1.1, (hrely.holder .releaseGate).mpr hm.1.2⟩, ?_⟩
  rw [hclosing, hepoch, hflags]
  exact hm.2

/-- The flag is set. -/
def isSet (flags : List Bool) (cell : ℕ) : Bool := flags.getD cell false

/-- No signal that covers the execution is given. -/
structure Clear (e : ApplicationExecution) (closing : Bool) (epoch : ℕ) (flags : List Bool) :
    Prop where
  cancel : isSet flags e.cancel = false
  token : ∀ cell, e.agentToken = some cell → isSet flags cell = false
  closing : closing = false
  epoch : epoch = e.epoch

/-- The thread's last act was to read the clock while it held both gates. -/
def LastRead (t now : ℕ) (m : Shared) : Prop :=
  ∃ before after, m.log = before ++ (t, Mark.read now true) :: after ∧ ∀ x ∈ after, x.1 ≠ t

/-- INTERNAL: others add no act of the thread. -/
theorem stable_lastRead (now : ℕ) : T.Stable (LastRead T.number now) := by
  rintro m m₁ hrely - ⟨before, after, hlog, hafter⟩
  obtain ⟨new, hnew, -⟩ := hrely.history
  refine ⟨before, after ++ new, by rw [hnew, hlog]; simp, fun x hx => ?_⟩
  rcases List.mem_append.mp hx with hx | hx
  · exact hafter x hx
  · exact hrely.quiet new hnew x hx

/-- INTERNAL: an action that changes nothing says what it read. -/
theorem does_look {a : Act} {P : Bool → ℕ → List Bool → Prop}
    {G : Ans a → Bool → ℕ → List Bool → Prop} (hF : T.Lasts F) (hplain : plain a = true)
    (hlook : ∀ m input answer m₁, P m.closing m.revocationEpoch m.flags →
      performAct T.E T.ownerUid T.number a input m = some (answer, m₁) →
      m₁.closing = m.closing ∧ m₁.revocationEpoch = m.revocationEpoch ∧ m₁.flags = m.flags ∧
        G answer m.closing m.revocationEpoch m.flags)
    (hgate : .gate ∈ H) (hrelease : .releaseGate ∈ H) :
    Does T H (fun m => F m ∧ Both T.number m ∧ P m.closing m.revocationEpoch m.flags)
      (act a : App ε (Ans a))
      (fun answer m => F m ∧ Both T.number m ∧ G answer m.closing m.revocationEpoch m.flags) R := by
  have hstable : ∀ P : Bool → ℕ → List Bool → Prop,
      T.Stable fun m => F m ∧ Both T.number m ∧ P m.closing m.revocationEpoch m.flags :=
    fun P m m₁ hrely hinv hm => ⟨hF.stable m m₁ hrely hinv hm.1, stable_both m m₁ hrely hinv hm.2⟩
  obtain ⟨-, hkeeps, hgood⟩ := plain_spec hplain
  refine does_act (hkeeps H) (hstable P) (fun answer => hstable (G answer))
    (fun m _ _ => hgood T.number m) ?_
  intro m input answer m₁ hinv hm hperform hinv₁ hgrows
  obtain ⟨hclosing, hepoch, hflags, hanswer⟩ := hlook m input answer m₁ hm.fact.2.2 hperform
  have hlocks := holds_performAct H a (hkeeps H) hperform hm.locks
  refine ⟨hF m m₁ hgrows hinv₁ hm.fact.1, ⟨hlocks .gate hgate, hlocks .releaseGate hrelease⟩, ?_⟩
  rw [hclosing, hepoch, hflags]
  exact hanswer

/-- INTERNAL: `token_live` under both gates. -/
theorem does_tokenLive_both {P : Bool → ℕ → List Bool → Prop} (token : Option ℕ) (hF : T.Lasts F)
    (hgate : .gate ∈ H) (hrelease : .releaseGate ∈ H) :
    Does T H (fun m => F m ∧ Both T.number m ∧ P m.closing m.revocationEpoch m.flags)
      (tokenLive token : App ε Bool)
      (fun live m => F m ∧ Both T.number m ∧ P m.closing m.revocationEpoch m.flags ∧
        (live = true → ∀ cell, token = some cell → isSet m.flags cell = false)) F := by
  have hstable : ∀ P : Bool → ℕ → List Bool → Prop,
      T.Stable fun m => F m ∧ Both T.number m ∧ P m.closing m.revocationEpoch m.flags :=
    fun P m m₁ hrely hinv hm => ⟨hF.stable m m₁ hrely hinv hm.1, stable_both m m₁ hrely hinv hm.2⟩
  cases token with
  | none => exact does_pure (hstable P) fun _ _ hm => ⟨hm.1, hm.2.1, hm.2.2, by simp⟩
  | some cell =>
    refine does_bind hF.stable (does_look (P := P) (G := fun set closing epoch flags =>
      P closing epoch flags ∧ set = isSet flags cell) hF rfl ?_ hgate hrelease) fun set => ?_
    · intro m input set m₁ hP hperform
      obtain ⟨hset, rfl⟩ := Prod.mk.inj (Option.some.inj hperform)
      exact ⟨rfl, rfl, rfl, hP, hset.symm⟩
    · refine does_pure (hstable fun closing epoch flags => P closing epoch flags ∧
        set = isSet flags cell) fun m _ hm => ⟨hm.1, hm.2.1, hm.2.2.1, fun hlive cell' hcell => ?_⟩
      rw [← Option.some.inj hcell, ← hm.2.2.2]
      simpa using hlive

/-- INTERNAL: **`live_fast` under both gates.** -/
theorem does_liveFast_both (e : ApplicationExecution) (hF : T.Lasts F) (hgate : .gate ∈ H)
    (hrelease : .releaseGate ∈ H) :
    Does T H F (liveFast e : App ε Bool)
      (fun live m => F m ∧ (live = true → (Both T.number m ∧
        Clear e m.closing m.revocationEpoch m.flags) ∧
        ∃ now < e.deadline, LastRead T.number now m)) F := by
  have hs := hF.stable
  have hstable : ∀ P : Bool → ℕ → List Bool → Prop,
      T.Stable fun m => F m ∧ Both T.number m ∧ P m.closing m.revocationEpoch m.flags :=
    fun P m m₁ hrely hinv hm => ⟨hF.stable m m₁ hrely hinv hm.1, stable_both m m₁ hrely hinv hm.2⟩
  have hdead : ∀ P : Bool → ℕ → List Bool → Prop, Does T H
      (fun m => F m ∧ Both T.number m ∧ P m.closing m.revocationEpoch m.flags)
      (pure false : App ε Bool)
      (fun live m => F m ∧ (live = true → (Both T.number m ∧
        Clear e m.closing m.revocationEpoch m.flags) ∧
        ∃ now < e.deadline, LastRead T.number now m)) F := fun P =>
    does_pure (hstable P) fun _ _ hm => ⟨hm.1, by simp⟩
  -- the cancel flag
  refine does_bind (G := fun set m => F m ∧ Both T.number m ∧ set = isSet m.flags e.cancel) hs
    (does_act trivial hs (fun set => hstable fun _ _ flags => set = isSet flags e.cancel)
      (fun _ _ _ => trivial) ?_) fun set => ?_
  · intro m input set m₁ hinv hm hperform hinv₁ hgrows
    obtain ⟨hset, rfl⟩ := Prod.mk.inj (Option.some.inj hperform)
    exact ⟨hm.fact, ⟨hm.locks .gate hgate, hm.locks .releaseGate hrelease⟩, hset.symm⟩
  cases set with
  | true => exact hdead fun _ _ flags => true = isSet flags e.cancel
  | false =>
  -- the token
  refine does_bind hs (does_tokenLive_both (P := fun _ _ flags => false = isSet flags e.cancel)
    e.agentToken hF hgate hrelease) fun live => ?_
  cases live with
  | false => exact hdead fun _ _ flags => false = isSet flags e.cancel ∧
      (false = true → ∀ cell, e.agentToken = some cell → isSet flags cell = false)
  | true =>
  -- admission
  refine does_bind hs (does_look (P := fun _ _ flags => false = isSet flags e.cancel ∧
      (true = true → ∀ cell, e.agentToken = some cell → isSet flags cell = false))
    (G := fun answer closing _ flags => closing = answer ∧ isSet flags e.cancel = false ∧
      ∀ cell, e.agentToken = some cell → isSet flags cell = false) hF rfl ?_ hgate hrelease)
    fun closing => ?_
  · intro m input answer m₁ hP hperform
    obtain ⟨hclosing, rfl⟩ := Prod.mk.inj (Option.some.inj hperform)
    exact ⟨rfl, rfl, rfl, hclosing, hP.1.symm, hP.2 rfl⟩
  cases closing with
  | true => exact hdead fun closing _ flags => closing = true ∧ isSet flags e.cancel = false ∧
      ∀ cell, e.agentToken = some cell → isSet flags cell = false
  | false =>
  -- the epoch
  refine does_bind hs (does_look (P := fun closing _ flags => closing = false ∧
      isSet flags e.cancel = false ∧ ∀ cell, e.agentToken = some cell → isSet flags cell = false)
    (G := fun answer closing epoch flags => epoch = answer ∧ closing = false ∧
      isSet flags e.cancel = false ∧ ∀ cell, e.agentToken = some cell → isSet flags cell = false)
    hF rfl ?_ hgate hrelease) fun epoch => ?_
  · intro m input answer m₁ hP hperform
    obtain ⟨hepoch, rfl⟩ := Prod.mk.inj (Option.some.inj hperform)
    exact ⟨rfl, rfl, rfl, hepoch, hP⟩
  by_cases hepoch : epoch ≠ e.epoch
  · rw [if_pos hepoch]
    exact hdead fun closing epoch' flags => epoch' = epoch ∧ closing = false ∧
      isSet flags e.cancel = false ∧ ∀ cell, e.agentToken = some cell → isSet flags cell = false
  rw [if_neg hepoch]
  -- the clock
  have hlast : ∀ now, T.Stable fun m => F m ∧ (Both T.number m ∧
      Clear e m.closing m.revocationEpoch m.flags) ∧ LastRead T.number now m :=
    fun now m m₁ hrely hinv hm => ⟨hs m m₁ hrely hinv hm.1, stable_both m m₁ hrely hinv hm.2.1,
      stable_lastRead now m m₁ hrely hinv hm.2.2⟩
  refine does_bind (G := fun now m => F m ∧ (Both T.number m ∧
      Clear e m.closing m.revocationEpoch m.flags) ∧ LastRead T.number now m) hs
    (does_act trivial (hstable fun closing epoch' flags => epoch' = epoch ∧ closing = false ∧
      isSet flags e.cancel = false ∧ ∀ cell, e.agentToken = some cell → isSet flags cell = false)
      hlast (fun _ _ _ => trivial) ?_) fun now => does_pure (hlast now) fun m _ hm =>
        ⟨hm.1, fun hlive => ⟨hm.2.1, now, by simpa using hlive, hm.2.2⟩⟩
  intro m input now m₁ hinv hm hperform hinv₁ hgrows
  obtain ⟨hnow, rfl⟩ := Prod.mk.inj (Option.some.inj hperform)
  obtain ⟨hfact, hboth, hsame, hclosing, hcancel, htoken⟩ := hm.fact
  refine ⟨hF m _ hgrows hinv₁ hfact, ⟨hboth, hcancel, htoken, hclosing, ?_⟩, m.log, [], ?_, by simp⟩
  · exact hsame.trans (not_not.mp hepoch)
  · have hgate' : m.holder .gate = some T.number := hboth.1
    have hrelease' : m.holder .releaseGate = some T.number := hboth.2
    simp [Shared.note, hgate', hrelease', ← hnow]

/-! ## Release -/

/-- The execution was claimed in time and is registered. -/
def Under (t : ℕ) (e : ApplicationExecution) (m : Shared) : Prop :=
  Timely t m ∧ Registered t e.binding.requestId e.cancel e.agentToken e.deadline m

/-- INTERNAL: **an execution whose signals are clear is not covered by a revocation.** -/
theorem uncovered_of_clear {E : Externals} {t now : ℕ} {e : ApplicationExecution} {m : Shared}
    (hinv : Inv E m) (hclear : Clear e m.closing m.revocationEpoch m.flags)
    (hnow : now < e.deadline) (hlast : LastRead t now m)
    (hregistered : Registered t e.binding.requestId e.cancel e.agentToken e.deadline m) :
    Uncovered m.log t e where
  cancel u hset := by
    have hflag : m.flag e.cancel = false := hclear.cancel
    exact absurd (hinv.set u e.cancel hset) (by rw [hflag]; simp)
  token u cell hcell hset := by
    have hflag : m.flag cell = false := hclear.token cell hcell
    exact absurd (hinv.set u cell hset) (by rw [hflag]; simp)
  closing u hclosed := absurd (hinv.closed u hclosed) (by simp [hclear.closing])
  epoch u epoch hpublished := (hinv.published u epoch hpublished).trans hclear.epoch.le
  deadline := by
    obtain ⟨before, after, hlog, hafter⟩ := hlast
    exact ⟨before, now, after, hlog, hafter, hnow⟩
  registered := hregistered

/-- INTERNAL: **`release`.** -/
theorem orderly_release (E : Externals) (ownerUid : UInt32) (e : ApplicationExecution)
    (hF : T.Lasts F) (hunder : ∀ m, F m → Under T.number e m) :
    Orderly T [] F (release E ownerUid e) := by
  have hs := hF.stable
  have hgate : Lock.gate ∈ [Lock.gate] := List.mem_singleton.mpr rfl
  refine orderly_withGate hF (by simp) ?_
  refine orderly_bind hs (orderly_adapt _ hs (orderly_executionAuthority E ownerUid e.owner _
    (some e.binding) true hF hgate (by simp))) fun _ => ?_
  refine orderly_bind hs (orderly_adapt _ hs (orderly_executionLiveCurrent _ e.epoch hF hgate
    (by simp))) fun _ => ?_
  refine orderly_withLock hF.steady (by simp) (by simp) ?_
  have hlive : ∀ live : Bool, T.Stable fun m => F m ∧ (live = true → (Both T.number m ∧
      Clear e m.closing m.revocationEpoch m.flags) ∧ ∃ now < e.deadline, LastRead T.number now m) := by
    intro live m m₁ hrely hinv hm
    refine ⟨hs m m₁ hrely hinv hm.1, fun hl => ?_⟩
    obtain ⟨hclear, now, hnow, hlast⟩ := hm.2 hl
    exact ⟨stable_both m m₁ hrely hinv hclear, now, hnow, stable_lastRead now m m₁ hrely hinv hlast⟩
  refine does_bind hs (does_liveFast_both e hF (by simp) (by simp)) fun live => ?_
  refine does_guard (hlive live) (fun _ _ _ hm => hm.1) hs fun hl => ?_
  refine does_bind (G := fun _ => F) hs (does_act trivial (hlive live) (fun _ => hs)
    (fun m hinv hm => ?_) fun m _ _ m₁ _ hm _ hinv₁ hgrows => hF m m₁ hgrows hinv₁ hm.fact.1)
    fun _ => orderly_ofExcept _ hs
  obtain ⟨hclear, now, hnow, hlast⟩ := hm.fact.2 (by simpa using hl)
  obtain ⟨htimely, hregistered⟩ := hunder m hm.fact.1
  exact ⟨uncovered_of_clear hinv hclear.2 hnow hlast hregistered, htimely.2⟩

/-- INTERNAL: `started`. -/
theorem orderly_started (e : ApplicationExecution) (hF : T.Lasts F)
    (hfresh : ∀ m, F m → Fresh T.number m) : Orderly T [] F (started e) := by
  have hs := hF.stable
  refine orderly_bind hs (orderly_withGate hF (by simp)
    (orderly_operation hF (List.mem_singleton.mpr rfl) hfresh rfl)) fun result => ?_
  split_ifs
  · exact orderly_bind hs (orderly_closeAdmission hF (by simp)) fun _ => orderly_throw hs
  · exact orderly_pure hs

/-- INTERNAL: the calls of the supervisor. -/
theorem orderly_controls (E : Externals) (ownerUid : UInt32) (e : ApplicationExecution)
    (calls : List ControlCall) (hF : T.Lasts F) (hfresh : ∀ m, F m → Fresh T.number m)
    (hunder : ∀ m, F m → Under T.number e m) :
    Orderly T [] F (controls E ownerUid e calls : App ε Unit) := by
  have hs := hF.stable
  have hcontrol : ∀ call, Orderly T [] F (control E ownerUid e call : App ε Unit) := by
    intro call
    cases call with
    | live => exact orderly_bind hs (orderly_live e hF) fun _ => orderly_pure hs
    | remaining => exact orderly_bind hs (orderly_plain hF.steady rfl) fun _ => orderly_pure hs
    | release =>
      exact orderly_bind hs (orderly_attempt hs (orderly_release E ownerUid e hF hunder)) fun _ =>
        orderly_pure hs
    | started =>
      exact orderly_bind hs (orderly_attempt hs (orderly_started e hF hfresh)) fun _ =>
        orderly_pure hs
  induction calls with
  | nil => exact orderly_pure hs
  | cons call rest ih => exact orderly_bind hs (hcontrol call) fun _ => ih

/-! ## The second section -/

theorem orderly_portOk (call : PortCall) (hF : T.Steady F) : Orderly T H F (portOk call) := by
  refine orderly_bind hF.stable (orderly_plain hF rfl) fun ok => ?_
  split_ifs
  · exact orderly_throw hF.stable
  · exact orderly_pure hF.stable

theorem orderly_backendOk (call : BackendCall) (hF : T.Steady F) :
    Orderly T H F (backendOk call) :=
  orderly_bind hF.stable (orderly_plain hF rfl) fun _ => orderly_ofExcept _ hF.stable

/-- INTERNAL: what is prepared outside the gate. -/
theorem orderly_prepare
    (candidate : Except DirectRequestError (ApprovalBinding × OperationPolicy × List String))
    (hF : T.Steady F) :
    Orderly T H F (prepare candidate : App ε (Except DirectRequestError OperationPolicy)) := by
  have hs := hF.stable
  cases candidate with
  | error e => exact orderly_pure hs
  | ok candidate =>
    refine orderly_choose hs (fun _ => orderly_plain hF rfl) (fun _ => orderly_pure hs) fun root => ?_
    beta_reduce
    split_ifs
    · exact orderly_pure hs
    · refine orderly_bind hs (orderly_plain hF rfl) fun prepared => ?_
      split_ifs
      · exact orderly_pure hs
      · exact orderly_pure hs

/-- INTERNAL: the effect to create. -/
theorem orderly_prepareCreate (policy : OperationPolicy) (hF : T.Steady F) :
    Orderly T H F (prepareCreate policy) := by
  have hs := hF.stable
  unfold prepareCreate
  split
  · exact orderly_pure hs
  · refine orderly_bind hs (orderly_portOk _ hF) fun _ => ?_
    exact orderly_bind hs (orderly_backendOk _ hF) fun _ => orderly_pure hs

/-- INTERNAL: the credentials are resolved. -/
theorem orderly_resolveLogins (id marker : String) (epoch : ℕ) (logins : List LoginCredentialDraft)
    (hF : T.Lasts F) (hgate : .gate ∈ H) (hl : .agentTokens ∉ H) :
    Orderly T H F (resolveLogins id marker epoch logins) := by
  have hs := hF.stable
  have hcurrent := orderly_executionLiveCurrent id epoch hF hgate hl
  induction logins with
  | nil => exact orderly_pure hs
  | cons login rest ih =>
    refine orderly_bind hs (orderly_plain hF.steady rfl) fun eligible => ?_
    refine orderly_bind hs hcurrent fun _ => ?_
    refine orderly_guard hs fun _ => ?_
    refine orderly_bind hs (orderly_plain hF.steady rfl) fun values => ?_
    refine orderly_bind hs (orderly_ofExcept _ hs) fun values => ?_
    refine orderly_bind hs hcurrent fun _ => ?_
    exact orderly_guard hs fun _ => ih

/-- INTERNAL: the key and the logins are resolved. -/
theorem orderly_resolveKey (id : String) (epoch : ℕ) (policy : OperationPolicy)
    {authority : App DirectRequestError Unit} (hauthority : Orderly T H F authority) (hF : T.Lasts F)
    (hgate : .gate ∈ H) (hl : .agentTokens ∉ H) :
    Orderly T H F (do
      backendOk .probeCompatibility
      executionLiveCurrent id epoch
      match policy.ssh with
      | none => pure ()
      | some ssh =>
        backendOk (.resolveSsh ssh.credential.itemId)
        authority
        portOk .installKey
        authority
      resolveLogins id ("vw-access=" ++ policy.id) epoch policy.credentials
      portOk .childEnvironment
      authority : App DirectRequestError Unit) := by
  have hs := hF.stable
  have hlogins : Orderly T H F (do
      resolveLogins id ("vw-access=" ++ policy.id) epoch policy.credentials
      portOk .childEnvironment
      authority : App DirectRequestError Unit) := by
    refine orderly_bind hs (orderly_resolveLogins id _ epoch policy.credentials hF hgate hl)
      fun _ => ?_
    exact orderly_bind hs (orderly_portOk _ hF.steady) fun _ => hauthority
  refine orderly_bind hs (orderly_backendOk _ hF.steady) fun _ => ?_
  refine orderly_bind hs (orderly_executionLiveCurrent id epoch hF hgate hl) fun _ => ?_
  cases policy.ssh with
  | none => exact hlogins
  | some ssh =>
    refine orderly_bind hs (orderly_backendOk _ hF.steady) fun _ => ?_
    refine orderly_bind hs hauthority fun _ => ?_
    refine orderly_bind hs (orderly_portOk _ hF.steady) fun _ => ?_
    exact orderly_bind hs hauthority fun _ => hlogins

/-- INTERNAL: the secrets are resolved. -/
theorem orderly_resolveSecrets (E : Externals) (ownerUid owner : UInt32) (id : String)
    (binding : ApprovalBinding) (epoch : ℕ) (policy : OperationPolicy) (hF : T.Lasts F)
    (hgate : .gate ∈ H) (hl : .agentTokens ∉ H) :
    Orderly T H F (resolveSecrets E ownerUid owner id binding epoch policy) := by
  have hs := hF.stable
  have hauthority : Orderly T H F (do
      let _ ← executionAuthorityCurrent E ownerUid owner id (some binding) epoch :
      App DirectRequestError Unit) :=
    orderly_bind hs (orderly_executionAuthorityCurrent E ownerUid owner id (some binding) epoch hF
      hgate hl) fun _ => orderly_pure hs
  have hkey := orderly_resolveKey id epoch policy hauthority hF hgate hl
  refine orderly_bind hs hauthority fun _ => ?_
  refine orderly_ite (fun _ => ?_) fun _ => hkey
  refine orderly_bind hs (orderly_portOk _ hF.steady) fun _ => ?_
  refine orderly_bind hs (orderly_portOk _ hF.steady) fun _ => ?_
  exact orderly_bind hs hauthority fun _ => hkey

/-- INTERNAL: the second section of `run_execution`. -/
theorem orderly_resolveSection (E : Externals) (ownerUid owner : UInt32) (id : String)
    (binding : ApprovalBinding) (epoch : ℕ) (preparation : Except DirectRequestError OperationPolicy)
    (hF : T.Lasts F) (hgate : .gate ∈ H) (hl : .agentTokens ∉ H) :
    Orderly T H F (resolveSection E ownerUid owner id binding epoch preparation) := by
  have hs := hF.stable
  cases preparation with
  | error e => exact orderly_pure hs
  | ok policy =>
    refine orderly_bind hs (orderly_attempt hs (orderly_prepareCreate policy hF.steady))
      fun effect => ?_
    cases effect with
    | error e => exact orderly_pure hs
    | ok effect =>
      exact orderly_bind hs (orderly_attempt hs (orderly_resolveSecrets E ownerUid owner id binding
        epoch policy hF hgate hl)) fun _ => orderly_pure hs

/-- INTERNAL: the supervision. -/
theorem orderly_superviseControlled (E : Externals) (ownerUid : UInt32) (e : ApplicationExecution)
    (result : Except DirectRequestError OperationPolicy) (hF : T.Lasts F)
    (hfresh : ∀ m, F m → Fresh T.number m) (hunder : ∀ m, F m → Under T.number e m) :
    Orderly T [] F (superviseControlled E ownerUid e result : App ε Supervision) := by
  have hs := hF.stable
  cases result with
  | error e => exact orderly_pure hs
  | ok policy =>
    refine orderly_choose hs (fun _ => orderly_plain hF.steady rfl) (fun _ => orderly_pure hs)
      fun marked => ?_
    beta_reduce
    split_ifs
    · exact orderly_pure hs
    · refine orderly_bind hs (orderly_plain hF.steady rfl) fun found => ?_
      obtain ⟨calls, report⟩ := found
      exact orderly_bind hs (orderly_controls E ownerUid e calls hF hfresh hunder) fun _ =>
        orderly_pure hs

/-! ## The write of a produced secret -/

/-- The marker of the write is stored, and the backend was not asked yet. -/
def Marked (t : ℕ) (id : String) (m : Shared) : Prop :=
  Holds t .gate m ∧ id ∉ m.created.map (·.1) ∧ m.receipt id = some ⟨id, none, .uncertain⟩

theorem steady_marked (id : String) : T.Steady (Marked T.number id) :=
  steady_gate (P := fun a _ created => id ∉ created.map (·.1) ∧
    (a.store.durable.direct id).bind (·.writeReceipt) = some ⟨id, none, .uncertain⟩)

/-- INTERNAL: **a write that begins is the first of its request.** -/
theorem does_beginWrite (binding : ApprovalBinding) (hF : T.Lasts F) (hgate : .gate ∈ H)
    (hfresh : ∀ m, F m → Fresh T.number m) :
    Does T H F (act (.provider (.beginWrite binding)) : App ε (Except DirectRequestError Unit))
      (fun result m => F m ∧ ∀ value, result = .ok value → Marked T.number binding.requestId m)
      R := by
  refine does_operation hF (fun _ => (steady_marked binding.requestId).stable) (fun m _ hm =>
    good_operation (hm.locks .gate hgate) (hfresh m hm.fact) rfl) ?_
  intro m input value hinv hm hok
  obtain ⟨⟨d, hd, hnone⟩, d', hd', hreceipt⟩ := beginWrite_call m.authority.store binding input.env
    input.outcome input.unreadable hok
  refine ⟨hm.locks .gate hgate, fun hcreated => ?_, ?_⟩
  · obtain ⟨x, hx, hid⟩ := List.mem_map.mp hcreated
    obtain ⟨-, d₀, hd₀, hsome⟩ := hinv.created x hx
    rw [hid, hd] at hd₀
    rw [← Option.some.inj hd₀, hnone] at hsome
    simp at hsome
  · simp only [performProvider, Shared.receipt]
    rw [hd']
    exact hreceipt

/-- INTERNAL: the result of a write is recorded. -/
theorem orderly_recordCreated (e : ApplicationExecution) (effect : CreateEffect)
    (result : Except WriteStatus String) (hF : T.Lasts F) (hgate : .gate ∈ H)
    (hfresh : ∀ m, F m → Fresh T.number m) : Orderly T H F (recordCreated e effect result) := by
  have hs := hF.stable
  cases result with
  | ok itemId =>
    refine orderly_bind hs (orderly_operation hF hgate hfresh rfl) fun recorded => ?_
    refine orderly_bind hs (orderly_ofExcept _ hs) fun _ => ?_
    refine orderly_bind hs (orderly_liveFast e hF.steady) fun live => ?_
    refine orderly_guard hs fun _ => ?_
    refine orderly_bind hs (orderly_backendOk _ hF.steady) fun _ => ?_
    refine orderly_bind hs (orderly_operation hF hgate hfresh rfl) fun recorded => ?_
    exact orderly_ofExcept _ hs
  | error status =>
    refine orderly_bind hs (orderly_operation hF hgate hfresh rfl) fun recorded => ?_
    exact orderly_bind hs (orderly_ofExcept _ hs) fun _ => orderly_throw hs

/-- INTERNAL: **the write under the gate.** -/
theorem orderly_writeSection (e : ApplicationExecution) (id : String) (effect : CreateEffect)
    (hF : T.Lasts F) (hfresh : ∀ m, F m → Fresh T.number m) (hid : e.binding.requestId = id) :
    Orderly T [.gate] F (writeSection e id effect) := by
  have hs := hF.stable
  have hgate : Lock.gate ∈ [Lock.gate] := List.mem_singleton.mpr rfl
  have hcurrent := orderly_executionLiveCurrent id e.epoch hF hgate (by simp)
  have hmarked := hF.steady.and (steady_marked (T := T) id)
  refine orderly_bind hs hcurrent fun _ => ?_
  refine orderly_bind hs (orderly_plain hF.steady rfl) fun s => ?_
  refine orderly_bind hs (orderly_ofExcept _ hs) fun s => ?_
  refine orderly_guard hs fun _ => ?_
  refine orderly_bind hs (orderly_backendOk _ hF.steady) fun _ => ?_
  refine orderly_bind hs hcurrent fun _ => ?_
  have hbegun : ∀ result : Except DirectRequestError Unit, T.Stable fun m => F m ∧
      ∀ value, result = .ok value → Marked T.number e.binding.requestId m :=
    fun result m m₁ hrely hinv hm => ⟨hs m m₁ hrely hinv hm.1, fun value hvalue =>
      (steady_marked _).stable m m₁ hrely hinv (hm.2 value hvalue)⟩
  refine does_bind hs (does_beginWrite e.binding hF hgate hfresh) fun result => ?_
  refine does_bind (G := fun _ m => F m ∧ Marked T.number id m) hs (does_ofExcept _ (hbegun result)
    (fun value hvalue _ _ hm => ⟨hm.1, hid ▸ hm.2 value hvalue⟩) fun _ _ hm => hm.1) fun _ => ?_
  refine does_bind (G := fun _ => F) hs (does_withLock (by simp) hmarked.stable (fun _ => hs) hs
    (hmarked.kept _ rfl) (fun _ => hF.kept _) (hF.kept _) (fun _ _ hm => hm.1) ?_)
    fun result => orderly_recordCreated e effect result hF hgate hfresh
  refine does_bind hs (does_of_orderly (orderly_liveFast e hmarked) fun _ hm => hm.1) fun live => ?_
  refine does_guard hmarked.stable (fun _ _ _ hm => hm.1) hs fun _ => ?_
  exact does_act trivial hmarked.stable (fun _ => hs) (fun m _ hm => hm.fact.2)
    fun m _ _ m₁ _ hm _ hinv₁ hgrows => hF m m₁ hgrows hinv₁ hm.fact.1

/-- INTERNAL: the write of a produced secret. -/
theorem orderly_createWrite (e : ApplicationExecution) (id : String) (effect : CreateEffect)
    (report : Supervision) (hF : T.Lasts F) (hfresh : ∀ m, F m → Fresh T.number m)
    (hid : e.binding.requestId = id) : Orderly T [] F (createWrite e id effect report) := by
  have hs := hF.stable
  unfold createWrite
  refine orderly_guard hs fun _ => ?_
  refine orderly_bind hs (orderly_live e hF) fun live => ?_
  refine orderly_guard hs fun _ => ?_
  refine orderly_bind hs (orderly_portOk _ hF.steady) fun _ => ?_
  refine orderly_bind hs (orderly_plain hF.steady rfl) fun _ => ?_
  exact orderly_guard hs fun _ => orderly_withGate hF (by simp)
    (orderly_writeSection e id effect hF hfresh hid)

/-! ## The end -/

/-- INTERNAL: the end of an execution is recorded. -/
theorem orderly_finishSection (e : ApplicationExecution) (report : Supervision) (hF : T.Lasts F)
    (hfresh : ∀ m, F m → Fresh T.number m) : Orderly T [] F (finishSection e report) := by
  have hs := hF.stable
  have hgate : Lock.gate ∈ [Lock.gate] := List.mem_singleton.mpr rfl
  refine orderly_bind hs (orderly_live e hF) fun durableLive => ?_
  refine orderly_bind hs (orderly_withLock hF.steady (by simp) (by simp) ?_) fun _ => ?_
  · refine orderly_choose hs (fun _ => orderly_liveFast e hF.steady) (fun _ => orderly_pure hs)
      fun _ => ?_
    beta_reduce
    split_ifs
    · refine orderly_bind hs (orderly_plain hF.steady rfl) fun _ => ?_
      exact orderly_bind hs (orderly_gated hF (List.mem_cons_self ..) (Or.inr rfl) trivial
        fun _ hm _ => hm) fun _ => orderly_throw hs
    · exact orderly_pure hs
  · refine orderly_withGate hF (by simp) ?_
    refine orderly_bind hs (orderly_operation hF hgate hfresh rfl) fun finished => ?_
    refine orderly_ite (fun _ => ?_) fun _ => ?_
    · refine orderly_bind hs (orderly_gated hF hgate (Or.inl rfl) trivial fun _ hm _ => hm)
        fun _ => ?_
      exact orderly_bind hs (orderly_attempt hs (orderly_revoke hF hgate)) fun _ =>
        orderly_throwBind hs
    · exact orderly_ite (fun _ => orderly_pure hs) fun _ => orderly_throw hs

/-- INTERNAL: the end of an execution, after its secrets were handed over. -/
theorem orderly_finished (e : ApplicationExecution) (effect : Option CreateEffect) (report : Supervision)
    (hF : T.Lasts F) (hfresh : ∀ m, F m → Fresh T.number m) :
    Orderly T [] F (do
      let report ← match effect with
        | none => pure report
        | some effect => do
          pure (report.afterWrite (← attempt (createWrite e e.binding.requestId effect report)))
      let finish ← attempt (finishSection e report)
      withLock .executions .unavailable (act (.removeExecution e.binding.requestId))
      raise finish : App DirectRequestError DirectStatus) := by
  have hs := hF.stable
  have hend : ∀ report : Supervision, Orderly T [] F (do
      let finish ← attempt (finishSection e report)
      withLock .executions .unavailable (act (.removeExecution e.binding.requestId))
      raise finish : App DirectRequestError DirectStatus) := by
    intro report
    refine orderly_bind hs (orderly_attempt hs (orderly_finishSection _ report hF hfresh))
      fun finish => ?_
    refine orderly_bind hs (orderly_withLock hF.steady (by simp) (by simp) (orderly_act trivial hs
      (hF.kept _) fun m _ hm => hm.locks .executions (List.mem_cons_self ..))) fun _ => ?_
    exact orderly_ofExcept _ hs
  cases effect with
  | none => exact orderly_bind hs (orderly_pure hs) hend
  | some effect =>
    refine orderly_bind hs (orderly_attempt hs (orderly_createWrite e _ effect report hF hfresh rfl))
      fun written => ?_
    exact orderly_bind hs (orderly_pure hs) hend

/-- INTERNAL: what `run_execution` does after the claim. -/
theorem orderly_runClaimed (E : Externals) (ownerUid owner : UInt32) (id : String) (epoch : ℕ)
    (claim : Claim) (hF : T.Lasts F) (hfresh : ∀ m, F m → Fresh T.number m)
    (hid : claim.binding.requestId = id)
    (hunder : ∀ m, F m → Under T.number ⟨owner, claim.binding, epoch, claim.deadline, claim.cancel,
      claim.agentToken⟩ m) :
    Orderly T [] F (runClaimed E ownerUid owner id epoch claim) := by
  have hs := hF.stable
  subst hid
  refine orderly_bind hs (orderly_prepare claim.candidate hF.steady) fun preparation => ?_
  refine orderly_bind hs (orderly_withGate hF (by simp) (orderly_resolveSection E ownerUid owner _
    claim.binding epoch preparation hF (List.mem_singleton.mpr rfl) (by simp))) fun found => ?_
  obtain ⟨effect, result⟩ := found
  refine orderly_bind hs (orderly_superviseControlled E ownerUid _ result hF hfresh hunder)
    fun report => ?_
  have hend := orderly_finished ⟨owner, claim.binding, epoch, claim.deadline, claim.cancel,
    claim.agentToken⟩ effect report hF hfresh
  refine orderly_ite (fun _ => ?_) fun _ => hend
  exact orderly_bind hs (orderly_closeAdmission hF (by simp)) fun _ => hend

/-- INTERNAL: **`run_execution`.** -/
theorem orderly_runExecution (E : Externals) (ownerUid owner : UInt32) (id : String) (hF : T.Lasts F)
    (hfresh : ∀ m, F m → Fresh T.number m) : Orderly T [] F (runExecution E ownerUid owner id) := by
  have hs := hF.stable
  refine orderly_bind hs (orderly_checkOwner ownerUid owner hs) fun _ => ?_
  refine orderly_bind hs (orderly_plain hF.steady rfl) fun available => ?_
  refine orderly_ite (fun _ => orderly_bind hs (orderly_closeAdmission hF (by simp)) fun _ =>
    orderly_throwBind hs) fun _ => ?_
  refine does_bind hs (does_capture hF fun m hm => (hfresh m hm).1) fun epoch => ?_
  have hcaptured := hF.and (lasts_captured (T := T) (t := T.number) epoch)
  have hentered : T.Stable fun m => F m ∧ Entered T.number epoch m :=
    fun m m₁ hrely hinv hm => ⟨hs m m₁ hrely hinv hm.1, stable_entered epoch m m₁ hrely hinv hm.2⟩
  refine spec_acquire hcaptured.stable hentered (hcaptured.kept _) ?_ (Thread.held_stable hs) ?_ ?_
  · exact fun m input m₁ _ hm hperform hinv₁ hgrows =>
      ⟨hF m m₁ hgrows hinv₁ hm.fact.1, entered_of_acquire hinv₁ hgrows hm.fact.2 hperform⟩
  · have hbegun := fun claim => hF.and (lasts_begun (T := T) id claim)
    refine Spec.bind (Thread.held_stable hs) (spec_holding (by simp) (fun claim =>
      (hbegun claim).stable) hs (fun claim => (hbegun claim).kept _) (hF.kept _)
      (does_claimSection E ownerUid owner id epoch hF hfresh)) fun claim => ?_
    -- what the claim left is known from here on
    rintro m hinv hm
    have hid := hm.fact.2.2.1
    refine does_conseq (orderly_runClaimed E ownerUid owner id epoch claim (hbegun claim)
      (fun m hm => hfresh m hm.1) hid fun m hm => ⟨hm.2.1, ?_⟩) (fun _ _ hm => hm)
      (fun _ _ _ hm => hm.1) (fun _ _ hm => hm.1) m hinv hm
    rw [hid]
    exact hm.2.2.2
  · exact does_throw hcaptured.stable fun _ _ hm => hm.1

end Handover

end VaultAccess.Analysis
