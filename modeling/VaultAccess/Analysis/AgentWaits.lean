import VaultAccess.Model.AgentWait
import Mathlib.Data.List.Destutter
import Mathlib.Tactic.Ring

/-!
# A client sees each change once and then the end

For every sequence of answers the loop emits the statuses that differ from the last one emitted,
stops at the first answer that ends it, and sleeps twice as long before each query, for a second
at most.
-/

set_option autoImplicit false

namespace VaultAccess.Analysis.AgentWaits

open VaultAccess.Model VaultAccess.Model.AgentWait
open VaultAccess.Model.Application (AgentStatus)

/-! ## What an answer calls for -/

/-- The answers after which the loop asks again. -/
def Continues : AgentResponse → Prop
  | .status _ _ state => state.isTerminal = false
  | .rejected _ category => category = .busy
  | .pending .. => False

/-- An answer that ends the loop. -/
def Stops (answer : Except ClientError AgentResponse) : Prop := ∀ response, answer = .ok response → ¬ Continues response

/-- The result an answer calls for. -/
def outcome : Except ClientError AgentResponse → Except ClientError UInt8
  | .ok (.status _ _ (.completed _)) => .ok 0
  | .ok (.status ..) => .ok 1
  | .ok (.rejected ..) => .ok 1
  | .ok (.pending ..) => .error .transportUncertain
  | .error error => .error error

/-- What is emitted of the answer that ends the loop. -/
def announced : Except ClientError AgentResponse → List AgentResponse
  | .ok (.status version requestId state) => [.status version requestId state]
  | .ok (.rejected version category) => [.rejected version category]
  | _ => []

/-- The response of an answer. -/
def heard : Except ClientError AgentResponse → List AgentResponse
  | .ok response => [response]
  | .error _ => []

/-- The rejection an answer is. -/
def refusal : Except ClientError AgentResponse → List AgentResponse
  | .ok (.rejected version category) => [.rejected version category]
  | _ => []

/-- The state an answer tells. -/
def stateOf : AgentResponse → Option AgentStatus
  | .status _ _ state => some state
  | _ => none

/-- The answer tells a state. -/
def tells (response : AgentResponse) : Bool := (stateOf response).isSome

/-- The answers that tell a state other than the last one kept. -/
def changes (responses : List AgentResponse) : List AgentResponse :=
  (responses.filter tells).destutter fun a b => stateOf a ≠ stateOf b

/-! ## What a run does -/

/-- The emissions among actions. -/
def emissions (actions : List Action) : List AgentResponse :=
  actions.filterMap fun
    | .emit response => some response
    | _ => none

/-- The queries and sleeps among actions. -/
def paces (actions : List Action) : List Action :=
  actions.filter fun
    | .emit _ => false
    | _ => true

/-- The sleep after query `k`, the first one being query zero. -/
def backoff (k : ℕ) : ℕ := min (100 * 2 ^ k) 1000

/-- The queries and sleeps of `n` turns behind `k` others. -/
def rounds (k n : ℕ) : List Action := (List.range' k n).flatMap fun i => [.query, .sleep (backoff i)]

theorem backoff_succ (k : ℕ) : min (backoff k * 2) 1000 = backoff (k + 1) := by
  have hpow : 100 * 2 ^ (k + 1) = 100 * 2 ^ k * 2 := by ring
  unfold backoff
  omega

theorem rounds_succ (k n : ℕ) : rounds k (n + 1) = .query :: .sleep (backoff k) :: rounds (k + 1) n := by
  simp [rounds, List.range'_succ]

theorem emissions_append (a b : List Action) : emissions (a ++ b) = emissions a ++ emissions b :=
  List.filterMap_append

theorem paces_append (a b : List Action) : paces (a ++ b) = paces a ++ paces b :=
  List.filter_append a b

/-- INTERNAL: what one turn emits. -/
theorem emissions_query (responses : List AgentResponse) (behind : List Action) :
    emissions (.query :: responses.map .emit ++ behind) = responses ++ emissions behind := by
  rw [List.cons_append, ← List.singleton_append, emissions_append, emissions_append]
  have hresponses : emissions (responses.map .emit) = responses := by
    simp [emissions, List.filterMap_map]
  rw [hresponses]
  rfl

theorem paces_query (responses : List AgentResponse) (behind : List Action) :
    paces (.query :: responses.map .emit ++ behind) = .query :: paces behind := by
  rw [List.cons_append, ← List.singleton_append, paces_append, paces_append]
  have hresponses : paces (responses.map .emit) = [] := by simp [paces]
  rw [hresponses]
  rfl

theorem emissions_done (responses : List AgentResponse) :
    emissions (.query :: responses.map .emit) = responses := by
  have hnone := emissions_query responses []
  rwa [List.append_nil, show emissions [] = [] from rfl, List.append_nil] at hnone

theorem emissions_sleep (milliseconds : ℕ) (behind : List Action) :
    emissions (.sleep milliseconds :: behind) = emissions behind := rfl

theorem paces_sleep (milliseconds : ℕ) (behind : List Action) :
    paces (.sleep milliseconds :: behind) = .sleep milliseconds :: paces behind := rfl

/-! ## What is kept of the statuses -/

/-- What a turn keeps behind the state `previous`. -/
def told (previous : Option AgentStatus) (response : AgentResponse) : List AgentResponse :=
  if tells response = true ∧ previous ≠ stateOf response then [response] else []

/-- What the turns keep behind the state `previous`. -/
def toldAll (previous : Option AgentStatus) : List AgentResponse → List AgentResponse
  | [] => []
  | response :: rest => told previous response ++ toldAll ((stateOf response).or previous) rest

/-- INTERNAL: statuses behind one that was kept. -/
theorem destutter'_eq (kept : AgentResponse) (hkept : tells kept = true)
    (responses : List AgentResponse) :
    (responses.filter tells).destutter' (fun a b => stateOf a ≠ stateOf b) kept =
      kept :: toldAll (stateOf kept) responses := by
  induction responses generalizing kept with
  | nil => rfl
  | cons response rest ih =>
    cases hstate : stateOf response with
    | none =>
      rw [List.filter_cons_of_neg (by simp [tells, hstate]), ih kept hkept]
      simp [toldAll, told, tells, hstate]
    | some state =>
      have hsome : tells response = true := by simp [tells, hstate]
      rw [List.filter_cons_of_pos hsome, List.destutter'_cons]
      split_ifs with hdiffers
      · rw [ih response hsome]
        simp [toldAll, told, tells, hstate] at hdiffers ⊢
        simp [hdiffers]
      · rw [ih kept hkept]
        simp only [ne_eq, not_not] at hdiffers
        simp [toldAll, told, ← hdiffers]

/-- INTERNAL: **the turns keep the changes.** -/
theorem toldAll_none (responses : List AgentResponse) : toldAll none responses = changes responses := by
  unfold changes
  induction responses with
  | nil => rfl
  | cons response rest ih =>
    cases hstate : stateOf response with
    | none =>
      rw [List.filter_cons_of_neg (by simp [tells, hstate]), ← ih]
      simp [toldAll, told, tells, hstate]
    | some state =>
      have hsome : tells response = true := by simp [tells, hstate]
      rw [List.filter_cons_of_pos hsome, List.destutter_cons', destutter'_eq response hsome]
      simp [toldAll, told, tells, hstate]

/-! ## Turns -/

/-- An output that takes everything. -/
def reliable : ℕ → Except ClientError Unit := fun _ => .ok ()

/-- The state is not an end. -/
def Open (previous : Option AgentStatus) : Prop := ∀ state, previous = some state → state.isTerminal = false

/-- INTERNAL: a state other than the last one. -/
theorem body_new (output : Except ClientError Unit) {previous : Option AgentStatus} {version : UInt8}
    {requestId : String} {state : AgentStatus} (h : previous ≠ some state) :
    body output previous (.status version requestId state) =
      ([.status version requestId state], output.map fun _ =>
        if state.isTerminal then .done (observationExit (.status version requestId state))
        else .again (some state)) := by
  simp only [body, if_pos h]
  cases output <;> rfl

theorem body_same (output : Except ClientError Unit) {version : UInt8} {requestId : String}
    {state : AgentStatus} (h : state.isTerminal = false) :
    body output (some state) (.status version requestId state) = ([], .ok (.again (some state))) := by
  simp [body, h, pure, Except.pure]

/-- INTERNAL: a turn that goes on. -/
theorem body_continues (previous : Option AgentStatus) {response : AgentResponse} (h : Continues response) :
    body (.ok ()) previous response =
      (told previous response, .ok (.again ((stateOf response).or previous))) := by
  cases response with
  | pending version requestId => exact h.elim
  | status version requestId state =>
    have hopen : state.isTerminal = false := h
    by_cases hdiffers : previous = some state
    · subst hdiffers
      rw [body_same _ hopen]
      simp [told, tells, stateOf]
    · rw [body_new _ hdiffers, hopen]
      simp [told, tells, stateOf, hdiffers, Except.map]
  | rejected version category =>
    obtain rfl : category = .busy := h
    rfl

/-- INTERNAL: a turn that goes on leaves a state that is not an end. -/
theorem open_or {previous : Option AgentStatus} (hprevious : Open previous) {response : AgentResponse}
    (h : Continues response) : Open ((stateOf response).or previous) := by
  cases response with
  | pending version requestId => exact h.elim
  | status version requestId state =>
    intro s hs
    rw [← Option.some.inj hs]
    exact h
  | rejected version category => exact hprevious

/-- INTERNAL: **one turn that goes on.** -/
theorem turns_continues (previous : Option AgentStatus) (delay n : ℕ) {response : AgentResponse}
    (h : Continues response) (answers : List (Except ClientError AgentResponse)) :
    turns reliable previous delay n (.ok response :: answers) =
      (turns reliable ((stateOf response).or previous) (min (delay * 2) 1000)
        (n + (told previous response).length) answers).after
          (.query :: (told previous response).map .emit ++ [.sleep delay]) := by
  rw [turns, show reliable n = .ok () from rfl, body_continues previous h]

/-- INTERNAL: **the turn that ends the loop.** -/
theorem turns_stops {previous : Option AgentStatus} (hprevious : Open previous) (delay n : ℕ)
    {stop : Except ClientError AgentResponse} (h : Stops stop)
    (answers : List (Except ClientError AgentResponse)) :
    turns reliable previous delay n (stop :: answers) =
      ⟨.query :: (announced stop).map .emit, some (outcome stop)⟩ := by
  cases stop with
  | error error => rfl
  | ok response =>
    have hstop := h response rfl
    cases response with
    | pending version requestId => rfl
    | status version requestId state =>
      have hterminal : state.isTerminal = true := by simpa [Continues] using hstop
      have hdiffers : previous ≠ some state := by
        intro hsame
        rw [hprevious state hsame] at hterminal
        cases hterminal
      rw [turns, body_new _ hdiffers, hterminal]
      cases state with
      | pending | approved | running => cases hterminal
      | _ => rfl
    | rejected version category =>
      cases category with
      | busy => exact absurd rfl hstop
      | _ => rfl

/-- INTERNAL: **the turns before the end.** What they emit, their queries and sleeps, and the state
the rest of the run goes on with. -/
theorem turns_front (front : List AgentResponse) (hfront : ∀ response ∈ front, Continues response)
    {previous : Option AgentStatus} (hprevious : Open previous) (k n : ℕ)
    (answers : List (Except ClientError AgentResponse)) :
    ∃ actions last m, Open last ∧
      turns reliable previous (backoff k) n (front.map .ok ++ answers) =
        (turns reliable last (backoff (k + front.length)) m answers).after actions ∧
      emissions actions = toldAll previous front ∧ paces actions = rounds k front.length := by
  induction front generalizing previous k n with
  | nil => exact ⟨[], previous, n, hprevious, rfl, rfl, rfl⟩
  | cons response rest ih =>
    simp only [List.mem_cons, forall_eq_or_imp] at hfront
    obtain ⟨actions, last, m, hlast, hrun, hemitted, hpaces⟩ :=
      ih hfront.2 (open_or hprevious hfront.1) (k + 1) (n + (told previous response).length)
    refine ⟨.query :: (told previous response).map .emit ++ (.sleep (backoff k) :: actions), last, m,
      hlast, ?_, ?_, ?_⟩
    · rw [List.map_cons, List.cons_append, turns_continues previous _ _ hfront.1, backoff_succ, hrun,
        List.length_cons, Nat.add_right_comm k 1, ← Nat.add_assoc k _ 1]
      simp [Run.after]
    · rw [emissions_query, emissions_sleep, hemitted]
      rfl
    · rw [paces_query, paces_sleep, hpaces, List.length_cons, rounds_succ]

/-! ## An output that fails -/

/-- INTERNAL: the output has no part in what a turn emits, at most one answer. -/
theorem body_emits (output : Except ClientError Unit) (previous : Option AgentStatus) (response : AgentResponse) :
    body output previous response = body (.ok ()) previous response ∧ (body output previous response).1 = [] ∨
      (body output previous response).1 = [response] ∧ (body (.ok ()) previous response).1 = [response] ∧
        ∀ error, output = .error error → (body output previous response).2 = .error error := by
  cases response with
  | pending version requestId => exact .inl ⟨rfl, rfl⟩
  | status version requestId state =>
    by_cases hdiffers : previous = some state
    · refine .inl ?_
      simp [body, hdiffers]
    · refine .inr ?_
      rw [body_new _ hdiffers, body_new _ hdiffers]
      refine ⟨rfl, rfl, ?_⟩
      rintro error rfl
      rfl
  | rejected version category =>
    cases category with
    | busy => exact .inl ⟨rfl, rfl⟩
    | _ =>
      refine .inr ⟨rfl, rfl, ?_⟩
      rintro error rfl
      rfl

/-- A run that ends with an emission the output refused. -/
structure CutAt (n : ℕ) (error : ClientError) (whole run : Run) : Prop where
  result : run.result = some (.error error)
  actions : run.actions <+: whole.actions
  emissions : emissions run.actions = (emissions whole.actions).take (n + 1)

/-- INTERNAL: a run behind the actions of a turn is cut with it. -/
theorem CutAt.after {n : ℕ} {error : ClientError} {whole run : Run} (h : CutAt n error whole run)
    (actions : List Action) : CutAt ((AgentWaits.emissions actions).length + n) error
      (whole.after actions) (run.after actions) where
  result := h.result
  actions := (List.prefix_append_right_inj actions).mpr h.actions
  emissions := by
    simp only [Run.after, emissions_append]
    rw [h.emissions, Nat.add_assoc, List.take_length_add_append]

/-- How the loop goes on behind a turn. -/
def goOn (output : ℕ → Except ClientError Unit) (delay n : ℕ)
    (answers : List (Except ClientError AgentResponse)) (done : List AgentResponse) :
    Except ClientError Flow → Run
  | .error error => ⟨.query :: done.map .emit, some (.error error)⟩
  | .ok (.done code) => ⟨.query :: done.map .emit, some (.ok code)⟩
  | .ok (.again previous) =>
    (turns output previous (min (delay * 2) 1000) (n + done.length) answers).after
      (.query :: done.map .emit ++ [.sleep delay])

/-- INTERNAL: a turn and what is behind it. -/
theorem turns_ok (output : ℕ → Except ClientError Unit) (previous : Option AgentStatus) (delay n : ℕ)
    (response : AgentResponse) (answers : List (Except ClientError AgentResponse)) :
    turns output previous delay n (.ok response :: answers) =
      goOn output delay n answers (body (output n) previous response).1 (body (output n) previous response).2 := by
  rw [turns]
  cases hbody : body (output n) previous response with
  | mk done flow =>
    cases flow with
    | error error => rfl
    | ok flow => cases flow <;> rfl

/-- INTERNAL: what is emitted of a turn and behind it. -/
theorem emissions_goOn (output : ℕ → Except ClientError Unit) (delay n : ℕ)
    (answers : List (Except ClientError AgentResponse)) (done : List AgentResponse)
    (flow : Except ClientError Flow) : ∃ behind,
      emissions (goOn output delay n answers done flow).actions = done ++ behind := by
  cases flow with
  | error error => exact ⟨[], by rw [goOn, emissions_done, List.append_nil]⟩
  | ok flow =>
    cases flow with
    | done code => exact ⟨[], by rw [goOn, emissions_done, List.append_nil]⟩
    | again previous =>
      rw [goOn, Run.after, List.append_assoc]
      exact ⟨_, emissions_query done _⟩

/-- INTERNAL: **an output that takes all that is emitted has no part in the run.** -/
theorem turns_taken (output : ℕ → Except ClientError Unit) (answers : List (Except ClientError AgentResponse))
    (previous : Option AgentStatus) (delay n : ℕ)
    (htaken : ∀ i < (emissions (turns reliable previous delay n answers).actions).length,
      output (n + i) = .ok ()) :
    turns output previous delay n answers = turns reliable previous delay n answers := by
  induction answers generalizing previous delay n with
  | nil => rfl
  | cons answer answers ih =>
    cases answer with
    | error error => rfl
    | ok response =>
      rw [turns_ok] at htaken
      have hsame : body (output n) previous response = body (.ok ()) previous response := by
        rcases body_emits (output n) previous response with ⟨hsame, -⟩ | ⟨-, hone, -⟩
        · exact hsame
        · obtain ⟨behind, hbehind⟩ := emissions_goOn reliable delay n answers
            (body (reliable n) previous response).1 (body (reliable n) previous response).2
          rw [hbehind, show reliable n = .ok () from rfl, hone] at htaken
          have hfirst := htaken 0 (by simp)
          rw [Nat.add_zero] at hfirst
          rw [hfirst]
      rw [turns_ok, turns_ok, hsame, show reliable n = .ok () from rfl]
      rw [show reliable n = .ok () from rfl] at htaken
      cases hbody : body (.ok ()) previous response with
      | mk done flow =>
        rw [hbody] at htaken
        cases flow with
        | error error => rfl
        | ok flow =>
          cases flow with
          | done code => rfl
          | again next =>
            simp only [goOn]
            rw [ih]
            intro i hi
            rw [Nat.add_assoc]
            apply htaken
            simp only [goOn, Run.after, List.append_assoc]
            rw [emissions_query, List.singleton_append, emissions_sleep, List.length_append]
            omega

/-- INTERNAL: **an output that refuses an emission ends the run there.** -/
theorem turns_cut (output : ℕ → Except ClientError Unit) (answers : List (Except ClientError AgentResponse))
    (previous : Option AgentStatus) (delay n m : ℕ) {error : ClientError}
    (hlength : m < (emissions (turns reliable previous delay n answers).actions).length)
    (htaken : ∀ i < m, output (n + i) = .ok ()) (hrefused : output (n + m) = .error error) :
    CutAt m error (turns reliable previous delay n answers) (turns output previous delay n answers) := by
  induction answers generalizing previous delay n m with
  | nil => exact absurd hlength (by simp [turns, emissions])
  | cons answer answers ih =>
    cases answer with
    | error error => exact absurd hlength (by simp [turns, emissions])
    | ok response =>
      rw [turns_ok, show reliable n = .ok () from rfl] at hlength
      rw [turns_ok, turns_ok, show reliable n = .ok () from rfl]
      -- a turn whose emission the output takes is the one of the run that is not cut
      have htake : body (output n) previous response = body (.ok ()) previous response →
          (body (.ok ()) previous response).1.length ≤ m →
          CutAt m error
            (goOn reliable delay n answers (body (.ok ()) previous response).1 (body (.ok ()) previous response).2)
            (goOn output delay n answers (body (output n) previous response).1
              (body (output n) previous response).2) := by
        intro hsame hdone
        rw [hsame]
        cases hbody : body (.ok ()) previous response with
        | mk done flow =>
          rw [hbody] at hlength hdone
          have hshort : done.length ≤ m := hdone
          obtain ⟨rest, rfl⟩ := Nat.exists_eq_add_of_le hshort
          cases flow with
          | error error => simp [goOn, emissions_done] at hlength
          | ok flow =>
            cases flow with
            | done code => simp [goOn, emissions_done] at hlength
            | again next =>
              have hemitted : emissions (.query :: done.map .emit ++ [.sleep delay]) = done := by
                rw [emissions_query]
                exact List.append_nil done
              simp only [goOn, Run.after] at hlength
              rw [emissions_append, hemitted, List.length_append] at hlength
              have hbehind := (ih next (min (delay * 2) 1000) (n + done.length) rest (by omega)
                (by
                  intro i hi
                  rw [Nat.add_assoc]
                  exact htaken _ (by omega))
                (by
                  rw [Nat.add_assoc]
                  exact hrefused)).after (.query :: done.map .emit ++ [.sleep delay])
              rw [hemitted] at hbehind
              exact hbehind
      rcases body_emits (output n) previous response with ⟨hsame, hnone⟩ | ⟨hone, hone', herror⟩
      · apply htake hsame
        rw [← hsame, hnone]
        exact Nat.zero_le m
      · cases m with
        | zero =>
          obtain ⟨behind, hbehind⟩ := emissions_goOn reliable delay n answers
            (body (.ok ()) previous response).1 (body (.ok ()) previous response).2
          rw [hone, herror error hrefused]
          refine ⟨rfl, ?_, ?_⟩
          · rw [hone']
            cases (body (.ok ()) previous response).2 with
            | error error => exact List.prefix_refl _
            | ok flow =>
              cases flow with
              | done code => exact List.prefix_refl _
              | again next =>
                simp only [goOn, Run.after, List.append_assoc]
                exact List.prefix_append _ _
          · rw [hbehind, hone', goOn, emissions_done]
            rfl
        | succ m =>
          have hfirst := htaken 0 (Nat.succ_pos m)
          rw [Nat.add_zero] at hfirst
          apply htake (by rw [hfirst])
          rw [hone']
          exact Nat.succ_le_succ (Nat.zero_le m)

/-! ## Whole runs -/

/-- INTERNAL: what the turns keep of more answers. -/
theorem toldAll_append (front : List AgentResponse) (hfront : ∀ response ∈ front, Continues response)
    {previous : Option AgentStatus} (hprevious : Open previous) (behind : List AgentResponse) :
    ∃ last, Open last ∧ toldAll previous (front ++ behind) = toldAll previous front ++ toldAll last behind := by
  induction front generalizing previous with
  | nil => exact ⟨previous, hprevious, rfl⟩
  | cons response rest ih =>
    simp only [List.mem_cons, forall_eq_or_imp] at hfront
    obtain ⟨last, hlast, hrest⟩ := ih hfront.2 (open_or hprevious hfront.1)
    refine ⟨last, hlast, ?_⟩
    rw [List.cons_append, toldAll, toldAll, hrest, List.append_assoc]

theorem open_none : Open none := by
  intro state h
  cases h

/-- INTERNAL: the answer that ends the loop is kept as a change or emitted as a rejection. -/
theorem changes_stop {front : List AgentResponse} (hfront : ∀ response ∈ front, Continues response)
    {stop : Except ClientError AgentResponse} (hstop : Stops stop) :
    changes (front ++ heard stop) ++ refusal stop = changes front ++ announced stop := by
  obtain ⟨last, hlast, hall⟩ := toldAll_append front hfront open_none (heard stop)
  rw [← toldAll_none, ← toldAll_none, hall, List.append_assoc]
  congr 1
  cases stop with
  | error error => rfl
  | ok response =>
    cases response with
    | pending version requestId => simp [heard, refusal, announced, toldAll, told, tells, stateOf]
    | status version requestId state =>
      have hdiffers : last ≠ some state := by
        intro hsame
        exact hstop _ rfl (hlast state hsame)
      simp [heard, refusal, announced, toldAll, told, tells, stateOf, hdiffers]
    | rejected version category => simp [heard, refusal, announced, toldAll, told, tells, stateOf]

theorem mem_of_mem_changes {responses : List AgentResponse} {response : AgentResponse}
    (h : response ∈ changes responses) : response ∈ responses := by
  have hkept := (List.destutter_sublist (fun a b => stateOf a ≠ stateOf b) (responses.filter tells)).mem h
  exact (List.mem_filter.mp hkept).1

/-- INTERNAL: what is announced stops the loop. -/
theorem announced_stops {stop : Except ClientError AgentResponse} (hstop : Stops stop) {response : AgentResponse}
    (h : announced stop = [response]) : ¬ Continues response := by
  apply hstop
  cases stop with
  | error error => cases h
  | ok heard =>
    cases heard with
    | pending version requestId => cases h
    | _ =>
      cases h
      rfl

/-- A run that the answer `stop` ended behind the answers `front`. -/
structure Ended (front : List AgentResponse) (stop : Except ClientError AgentResponse) (run : Run) : Prop where
  /-- The result is the one the last answer calls for. -/
  result : run.result = some (outcome stop)
  /-- The changes are emitted, and a rejection behind them. -/
  printed : emissions run.actions = changes (front ++ heard stop) ++ refusal stop
  /-- What ends the loop is emitted once, and last. -/
  once : ∀ response, announced stop = [response] →
    (emissions run.actions).getLast? = some response ∧ (emissions run.actions).count response = 1
  /-- Nothing is asked behind the last answer. -/
  paced : paces run.actions = rounds 0 front.length ++ [.query]
  /-- The client exits with zero when the request has completed. -/
  code : run.result.map exit = some 0 ↔
    ∃ version requestId exitCode, stop = .ok (.status version requestId (.completed exitCode))

/-- A run that still waits behind the answers `responses`. -/
structure Watching (responses : List AgentResponse) (run : Run) : Prop where
  result : run.result = none
  printed : emissions run.actions = changes responses
  paced : paces run.actions = rounds 0 responses.length ++ [.query]

/-- INTERNAL: the exit code zero. -/
theorem exit_outcome {stop : Except ClientError AgentResponse} (hstop : Stops stop) : exit (outcome stop) = 0 ↔
    ∃ version requestId exitCode, stop = .ok (.status version requestId (.completed exitCode)) := by
  constructor
  · intro h
    cases stop with
    | error error => cases error <;> cases h
    | ok response =>
      cases response with
      | pending version requestId => cases h
      | rejected version category => cases h
      | status version requestId state =>
        cases state with
        | completed exitCode => exact ⟨version, requestId, exitCode, rfl⟩
        | _ => cases h
  · rintro ⟨version, requestId, exitCode, rfl⟩
    rfl

/-- INTERNAL: **a run up to the answer that ends it.** -/
theorem wait_ended {front : List AgentResponse} (hfront : ∀ response ∈ front, Continues response)
    {stop : Except ClientError AgentResponse} (hstop : Stops stop)
    (later : List (Except ClientError AgentResponse)) :
    Ended front stop (wait reliable (front.map .ok ++ stop :: later)) := by
  obtain ⟨actions, last, m, hlast, hrun, hemitted, hpaces⟩ :=
    turns_front front hfront open_none 0 0 (stop :: later)
  rw [turns_stops hlast _ _ hstop] at hrun
  have hwait : wait reliable (front.map .ok ++ stop :: later) =
      ⟨actions ++ .query :: (announced stop).map .emit, some (outcome stop)⟩ := hrun
  have hprinted : emissions (actions ++ .query :: (announced stop).map .emit) = changes front ++ announced stop := by
    rw [emissions_append, emissions_done, hemitted, toldAll_none]
  rw [hwait]
  refine ⟨rfl, ?_, ?_, ?_, ?_⟩
  · rw [hprinted, changes_stop hfront hstop]
  · intro response hannounced
    have hnew : response ∉ changes front := by
      intro hmem
      exact announced_stops hstop hannounced (hfront response (mem_of_mem_changes hmem))
    rw [hprinted, hannounced]
    refine ⟨List.getLast?_concat, ?_⟩
    rw [List.count_append, List.count_eq_zero_of_not_mem hnew, List.count_singleton_self]
  · have hlastTurn := paces_query (announced stop) []
    rw [List.append_nil] at hlastTurn
    rw [paces_append, hpaces, hlastTurn]
    rfl
  · rw [Option.map_some, Option.some_inj]
    exact exit_outcome hstop

/-- INTERNAL: a run with no answer that ends it. -/
theorem wait_watching {responses : List AgentResponse} (h : ∀ response ∈ responses, Continues response) :
    Watching responses (wait reliable (responses.map .ok)) := by
  obtain ⟨actions, last, m, -, hrun, hemitted, hpaces⟩ := turns_front responses h open_none 0 0 []
  rw [List.append_nil] at hrun
  have hwait : wait reliable (responses.map .ok) = ⟨actions ++ [.query], none⟩ := hrun
  rw [hwait]
  refine ⟨rfl, ?_, ?_⟩
  · rw [emissions_append, hemitted, toldAll_none]
    exact List.append_nil _
  · rw [paces_append, hpaces]
    rfl

/-- INTERNAL: a sequence of answers has a first one that ends the loop, or none. -/
theorem exists_stop (answers : List (Except ClientError AgentResponse)) :
    (∃ responses : List AgentResponse, (∀ response ∈ responses, Continues response) ∧
      answers = responses.map .ok) ∨
    ∃ (front : List AgentResponse) (stop : Except ClientError AgentResponse)
      (later : List (Except ClientError AgentResponse)), (∀ response ∈ front, Continues response) ∧
        Stops stop ∧ answers = front.map .ok ++ stop :: later := by
  induction answers with
  | nil => exact .inl ⟨[], by simp, rfl⟩
  | cons answer answers ih =>
    by_cases hstop : Stops answer
    · exact .inr ⟨[], answer, answers, by simp, hstop, rfl⟩
    · unfold Stops at hstop
      push Not at hstop
      obtain ⟨response, rfl, hcontinues⟩ := hstop
      rcases ih with ⟨responses, hall, rfl⟩ | ⟨front, stop, later, hfront, hend, rfl⟩
      · refine .inl ⟨response :: responses, ?_, rfl⟩
        exact List.forall_mem_cons.mpr ⟨hcontinues, hall⟩
      · refine .inr ⟨response :: front, stop, later, ?_, hend, rfl⟩
        exact List.forall_mem_cons.mpr ⟨hcontinues, hfront⟩

/-- What the loop does with every sequence of answers. -/
structure Followed : Prop where
  /-- A sequence of answers has a first one that ends the loop, or none. -/
  cases : ∀ answers : List (Except ClientError AgentResponse),
    (∃ responses : List AgentResponse, (∀ response ∈ responses, Continues response) ∧
      answers = responses.map .ok) ∨
    ∃ (front : List AgentResponse) (stop : Except ClientError AgentResponse)
      (later : List (Except ClientError AgentResponse)), (∀ response ∈ front, Continues response) ∧
        Stops stop ∧ answers = front.map .ok ++ stop :: later
  /-- The loop ends with the first answer that ends it. -/
  ended : ∀ (front : List AgentResponse) (stop : Except ClientError AgentResponse)
    (later : List (Except ClientError AgentResponse)), (∀ response ∈ front, Continues response) →
      Stops stop → Ended front stop (wait reliable (front.map .ok ++ stop :: later))
  /-- It goes on when no answer ends it. -/
  watching : ∀ responses : List AgentResponse, (∀ response ∈ responses, Continues response) →
    Watching responses (wait reliable (responses.map .ok))
  /-- An output that takes all that is emitted has no part in the run. -/
  taken : ∀ (output : ℕ → Except ClientError Unit) (answers : List (Except ClientError AgentResponse)),
    (∀ i < (emissions (wait reliable answers).actions).length, output i = .ok ()) →
      wait output answers = wait reliable answers
  /-- An output that refuses an emission ends the run there, with its error. -/
  cut : ∀ (output : ℕ → Except ClientError Unit) (answers : List (Except ClientError AgentResponse))
    (n : ℕ) (error : ClientError), n < (emissions (wait reliable answers).actions).length →
      (∀ i < n, output i = .ok ()) → output n = .error error →
        CutAt n error (wait reliable answers) (wait output answers)

/-- **A waiting client emits each change once and stops at the end.** For every sequence of answers
and every output: the changes of the state and the answer that ends the loop are emitted, the result
is the one that answer calls for, nothing is asked behind it, and the sleeps double up to a second. -/
theorem wait_followed : Followed where
  cases := exists_stop
  ended front stop later hfront hstop := wait_ended hfront hstop later
  watching responses h := wait_watching h
  taken output answers htaken := by
    apply turns_taken output answers none 100 0
    intro i hi
    rw [Nat.zero_add]
    exact htaken i hi
  cut output answers n error hlength htaken hrefused := by
    apply turns_cut output answers none 100 0 n hlength
    · intro i hi
      rw [Nat.zero_add]
      exact htaken i hi
    · rw [Nat.zero_add]
      exact hrefused

end VaultAccess.Analysis.AgentWaits
