import VaultAccess.Analysis.Handover
import VaultAccess.Analysis.Cancelling
import VaultAccess.Analysis.Messages
import VaultAccess.Analysis.Lifecycle

/-!
# Every run keeps to the discipline

The code of every call is orderly, so the invariant holds in every state that a run of the
system reaches, whatever the order of the steps, with restarts at any point.
-/

set_option autoImplicit false

namespace VaultAccess.Analysis

open VaultAccess.Library VaultAccess.Model VaultAccess.Model.Application

section Reachable

variable {T : Thread} {ε α : Type} {F R : Shared → Prop} {G : α → Shared → Prop}

/-! ## Further entry points -/

/-- INTERNAL: the steps of a further entry point. -/
theorem orderly_otherSteps (steps : List OtherStep) (hF : T.Lasts F)
    (hfresh : ∀ m, F m → Fresh T.number m) : Orderly T [.gate] F (otherSteps steps) := by
  have hs := hF.stable
  have hgate : Lock.gate ∈ [Lock.gate] := List.mem_singleton.mpr rfl
  have hstep : ∀ s, Orderly T [.gate] F (otherStep s) := by
    intro s
    cases s with
    | admission =>
      exact orderly_bind hs (orderly_attempt hs (orderly_admission hF hgate)) fun _ => orderly_pure hs
    | expireRequests =>
      exact orderly_bind hs (orderly_attempt hs (orderly_expireRequests hF hgate)) fun _ =>
        orderly_pure hs
    | provider op =>
      refine orderly_ite (fun helsewhere => ?_) fun _ => orderly_pure hs
      refine orderly_bind hs (orderly_operation hF hgate hfresh ?_) fun _ => orderly_pure hs
      cases op <;> simp [elsewhere, isClaim] at helsewhere ⊢
    | requestDeadline id deadline => exact orderly_update hF hgate fun _ _ _ => trivial
    | closeAdmission => exact orderly_closeAdmission hF (by simp)
  induction steps with
  | nil => exact orderly_pure hs
  | cons s rest ih => exact orderly_bind hs (hstep s) fun _ => ih

/-! ## Calls -/

/-- INTERNAL: a call without a message is not about one that was admitted. -/
theorem fresh_of_spawned {t : ℕ} {call : Call} {m : Shared} (h : Spawned t call m)
    (hmessage : call.message = none) : Fresh t m := by
  obtain ⟨seen, hbegan⟩ := h.began
  refine ⟨⟨call, seen, hbegan⟩, fun call' hcall => ?_⟩
  obtain ⟨seen', heq⟩ := h.only _ hcall rfl
  obtain ⟨rfl, rfl⟩ := Mark.began.inj heq
  obtain ⟨pair, -, hpair⟩ := h.seen hcall
  rw [hmessage] at hpair
  simp at hpair

/-- INTERNAL: the message of a call. -/
theorem known_of_spawned {t : ℕ} {call : Call} {pair : String × String} {m : Shared}
    (h : Spawned t call m) (hmessage : call.message = some pair) : Known t pair m := by
  obtain ⟨seen, hbegan⟩ := h.began
  refine ⟨⟨call, seen, hbegan⟩, fun call' hcall => ?_⟩
  obtain ⟨seen', heq⟩ := h.only _ hcall rfl
  obtain ⟨rfl, rfl⟩ := Mark.began.inj heq
  obtain ⟨pair', hadmitted, hpair⟩ := h.seen hcall
  rw [hmessage] at hpair
  rw [Option.some.inj hpair]
  exact hadmitted

theorem triple_run {x : App ε α} (h : Does T [] F x G R) :
    Triple T.discipline T.number F (do let _ ← x.run) fun _ _ => True := by
  refine Triple.bind (Q := fun _ _ => True) (Triple.conseq h (fun _ _ hm => ⟨by simp, hm⟩)
    fun _ _ _ _ => trivial) fun _ => ?_
  exact Triple.done (fun _ _ _ _ hm => hm) fun _ _ hm => hm

/-- INTERNAL: a call that runs a program, and goes on if it returned `Ok`. -/
theorem triple_return {x : App ε α} {f : Except ε α → Prog Act Ans Unit} (h : Does T [] F x G R)
    (hok : ∀ value, Triple T.discipline T.number (G value) (f (.ok value)) fun _ _ => True)
    (herror : ∀ e, f (.error e) = .done ()) :
    Triple T.discipline T.number F (x.run >>= f) fun _ _ => True := by
  refine Triple.bind (Triple.conseq h (fun _ _ hm => ⟨by simp, hm⟩) fun _ _ _ hm => hm)
    fun result => ?_
  cases result with
  | ok value => exact Triple.conseq (hok value) (fun _ _ hm => hm.fact) fun _ _ _ hm => hm
  | error e =>
    rw [herror]
    exact Triple.conseq (P := fun _ => True) (Triple.done (fun _ _ _ _ hm => hm) fun _ _ hm => hm)
      (fun _ _ _ => trivial) fun _ _ _ hm => hm

theorem triple_perform {a : Act} (hF : T.Stable F) (hgood : ∀ m, F m → Good T.number a m) :
    Triple T.discipline T.number F (Prog.perform a) fun _ _ => True :=
  Triple.act (fun _ _ => True) hF (fun m _ hm => hgood m hm) (fun _ _ _ _ _ _ _ => trivial)
    fun _ => Triple.done (fun _ _ _ _ hm => hm) fun _ _ hm => hm

end Reachable

section Runs

variable (E : Externals) (ownerUid : UInt32) (requestLifetime : ℕ)

/-- INTERNAL: **the code of every call keeps to the discipline.** -/
theorem code_disciplined (t : ℕ) (call : Call) :
    Triple (discipline E ownerUid requestLifetime) t (Spawned t call)
      (Application.code E ownerUid requestLifetime call) fun _ _ => True := by
  let T : Thread := ⟨E, ownerUid, requestLifetime, t⟩
  have hfresh : T.Lasts (Fresh t) := lasts_fresh
  have hplain : ∀ {p : Prog Act Ans Unit}, call.message = none →
      Triple T.discipline T.number (Fresh t) p (fun _ _ => True) →
      Triple (discipline E ownerUid requestLifetime) t (Spawned t call) p fun _ _ => True :=
    fun hmessage h => Triple.conseq h (fun _ _ hm => fresh_of_spawned hm hmessage) fun _ _ _ hm => hm
  cases call with
  | runExecution owner id =>
    exact hplain rfl (triple_run (orderly_runExecution E ownerUid owner id hfresh fun _ hm => hm))
  | lock => exact hplain rfl (triple_run (orderly_lock hfresh))
  | shutdown => exact hplain rfl (triple_run (orderly_shutdown hfresh))
  | closeAdmission => exact hplain rfl (triple_run (orderly_closeAdmission hfresh (by simp)))
  | cancelExecution owner id =>
    refine hplain rfl (triple_return (does_cancelExecution ownerUid owner id hfresh fun _ hm => hm)
      (fun first => ?_) fun _ => rfl)
    exact triple_perform (hfresh.and (lasts_cancelled id first)).stable fun _ hm => hm.2
  | revokeAgent human id authorityBinding =>
    exact hplain rfl (triple_run (orderly_revokeAgentChecked ownerUid human id authorityBinding
      hfresh fun _ hm => hm))
  | managementRetire generation epoch deadline =>
    exact hplain rfl (triple_run (orderly_managementRetire generation epoch deadline hfresh))
  | authenticate => exact hplain rfl (triple_run (orderly_authenticate hfresh))
  | pairAgent human input =>
    exact hplain rfl (triple_run (orderly_pairAgent ownerUid human input hfresh fun _ hm => hm))
  | submitSigned uid groups input =>
    have hknown : T.Lasts (Known t (input.bindingId, input.nonce)) := lasts_known _
    refine Triple.conseq (triple_return (does_submitSigned E ownerUid requestLifetime uid groups
      input hknown fun _ hm => hm) (fun _ => ?_) fun _ => rfl) (fun _ _ hm => known_of_spawned hm rfl)
      fun _ _ _ hm => hm
    exact triple_perform (hknown.and (lasts_answered _)).stable fun _ hm => hm.2.2
  | signedAgentStatus uid groups query rounds =>
    have hknown : T.Lasts (Known t (query.bindingId, query.nonce)) := lasts_known _
    refine Triple.conseq (triple_return (does_signedAgentStatus E ownerUid uid groups query rounds
      hknown fun _ hm => hm) (fun _ => ?_) fun _ => rfl) (fun _ _ hm => known_of_spawned hm rfl)
      fun _ _ _ hm => hm
    exact triple_perform (hknown.and (lasts_answered _)).stable fun _ hm => hm.2.2
  | other steps =>
    exact hplain rfl (triple_run (orderly_withGate hfresh (by simp)
      (orderly_otherSteps steps hfresh fun _ hm => hm)))

/-! ## Runs -/

theorem inv_initial : Inv E (.fresh Store.initial 0 [] []) :=
  inv_fresh Store.initial 0 [] [] initial_inPhase List.nodup_nil (fun _ h => absurd h List.not_mem_nil)
    List.nodup_nil fun _ h => absurd h List.not_mem_nil

theorem runSystem_disciplined (events : List (SystemEvent Input ℕ Restart Call)) :
    (runSystem E ownerUid requestLifetime events).Disciplined
      (discipline E ownerUid requestLifetime) :=
  System.run_disciplined (code_disciplined E ownerUid requestLifetime) initialSystem events
    (System.Disciplined.idle (inv_initial E))

/-- **The invariant holds in every state that a run reaches.** -/
theorem runSystem_inv (events : List (SystemEvent Input ℕ Restart Call)) :
    Inv E (runSystem E ownerUid requestLifetime events).mem :=
  (runSystem_disciplined E ownerUid requestLifetime events).inv

end Runs

end VaultAccess.Analysis
