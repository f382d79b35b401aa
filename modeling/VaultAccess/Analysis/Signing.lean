import VaultAccess.Library.Runs
import VaultAccess.Model.SshSigning

/-!
# One signature, for one bound session

Whatever a client sends, and however the calls of an agent follow one another: a signature
goes out once, inside `release`, for one userauth request that names the session that was
bound on its connection. The agent that wrote it, or was closed, has no key and never gets
one again.
-/

set_option autoImplicit false

namespace VaultAccess.Analysis.Signing

open VaultAccess.Library VaultAccess.Model.SshAgent VaultAccess.Model.SshSigning

/-! ## Readers -/

section Readers

variable {α β : Type} {bytes rest : List UInt8}

theorem bind_some {r : Reader α} {f : α → Reader β} {result : β} (h : (r >>= f) bytes = some (result, rest)) :
    ∃ value mid, r bytes = some (value, mid) ∧ f value mid = some (result, rest) := by
  obtain ⟨⟨value, mid⟩, hr, hf⟩ := Option.bind_eq_some_iff.mp h
  exact ⟨value, mid, hr, hf⟩

/-- INTERNAL: a reader that only looks at something else. -/
theorem lift_some {o : Option α} {f : α → Reader β} {result : β}
    (h : ((liftM o : Reader α) >>= f) bytes = some (result, rest)) :
    ∃ value, o = some value ∧ f value bytes = some (result, rest) := by
  obtain ⟨value, mid, hlift, hf⟩ := bind_some h
  cases o with
  | none => cases hlift
  | some value' =>
    obtain ⟨rfl, rfl⟩ := Prod.mk.inj (Option.some.inj hlift)
    exact ⟨value', rfl, hf⟩

theorem ensure_some {condition : Bool} {f : Unit → Reader β} {result : β}
    (h : (Reader.ensure condition >>= f) bytes = some (result, rest)) :
    condition = true ∧ f () bytes = some (result, rest) := by
  obtain ⟨u, mid, hensure, hf⟩ := bind_some h
  cases condition with
  | false => cases hensure
  | true =>
    obtain ⟨rfl, rfl⟩ := Prod.mk.inj (Option.some.inj hensure)
    exact ⟨rfl, hf⟩

theorem byte_some {b : UInt8} (h : Reader.byte bytes = some (b, rest)) : bytes = b :: rest := by
  cases bytes with
  | nil => cases h
  | cons first more =>
    obtain ⟨rfl, rfl⟩ := Prod.mk.inj (Option.some.inj h)
    rfl

theorem uint_some {n : ℕ} (h : Reader.uint bytes = some (n, rest)) : bytes = Frames.be 4 n ++ rest := by
  unfold Reader.uint at h
  split_ifs at h with hshort
  obtain ⟨rfl, rfl⟩ := Prod.mk.inj (Option.some.inj h)
  have hlength : (bytes.take 4).reverse.length = 4 := by
    rw [List.length_reverse, List.length_take]
    omega
  have hle := Frames.le_unle (bytes.take 4).reverse
  rw [hlength] at hle
  rw [Frames.be, hle, List.reverse_reverse, List.take_append_drop]

theorem string_some {value : List UInt8} (h : Reader.string bytes = some (value, rest)) :
    bytes = framed value ++ rest := by
  obtain ⟨size, mid, hsize, hvalue⟩ := bind_some h
  split_ifs at hvalue with hshort
  obtain ⟨rfl, rfl⟩ := Prod.mk.inj (Option.some.inj hvalue)
  have hlength : (mid.take size).length = size := by
    rw [List.length_take]
    omega
  rw [uint_some hsize, framed, Frames.beFrame, hlength, List.append_assoc, List.take_append_drop]

theorem finish_some {f : Unit → Reader β} {result : β} (h : (Reader.finish >>= f) bytes = some (result, rest)) :
    bytes = [] ∧ f () [] = some (result, rest) := by
  obtain ⟨u, mid, hfinish, hf⟩ := bind_some h
  unfold Reader.finish at hfinish
  split_ifs at hfinish with hempty
  obtain ⟨rfl, rfl⟩ := Prod.mk.inj (Option.some.inj hfinish)
  exact ⟨List.isEmpty_iff.mp hempty, hf⟩

/-- INTERNAL: a field that must have a value. -/
theorem string_ensure {p : List UInt8 → Bool} {f : Unit → Reader β} {result : β}
    (h : (Reader.string >>= fun value => Reader.ensure (p value) >>= f) bytes = some (result, rest)) :
    ∃ value mid, bytes = framed value ++ mid ∧ p value = true ∧ f () mid = some (result, rest) := by
  obtain ⟨value, mid, hvalue, hf⟩ := bind_some h
  obtain ⟨hp, hf⟩ := ensure_some hf
  exact ⟨value, mid, string_some hvalue, hp, hf⟩

theorem byte_ensure {p : UInt8 → Bool} {f : Unit → Reader β} {result : β}
    (h : (Reader.byte >>= fun b => Reader.ensure (p b) >>= f) bytes = some (result, rest)) :
    ∃ b mid, bytes = b :: mid ∧ p b = true ∧ f () mid = some (result, rest) := by
  obtain ⟨b, mid, hb, hf⟩ := bind_some h
  obtain ⟨hp, hf⟩ := ensure_some hf
  exact ⟨b, mid, byte_some hb, hp, hf⟩

end Readers

/-! ## What the messages say -/

section Messages

variable {Signature : Type} (package : Package Signature)

/-- A session-bind of the host's key with its signature over the session. -/
def Binds (hostBlob message identifier : List UInt8) : Prop :=
  ∃ encoded signature, message = 27 :: (framed (Text.bytes "session-bind@openssh.com") ++ framed hostBlob ++
      framed identifier ++ framed encoded ++ [0]) ∧
    16 ≤ identifier.length ∧ identifier.length ≤ 64 ∧ package.decode encoded = some (signature, []) ∧
    package.verify identifier signature = true

/-- One userauth request for `ssh-connection` with a public key. -/
def userauth (session user publicKey algorithm : List UInt8) (hostBlob : Option (List UInt8)) : List UInt8 :=
  framed session ++ [50] ++ framed user ++ framed (Text.bytes "ssh-connection") ++
    framed (if hostBlob.isSome then Text.bytes "publickey-hostbound-v00@openssh.com" else Text.bytes "publickey") ++
    [1] ++ framed algorithm ++ framed publicKey ++ (hostBlob.map framed).getD []

/-- INTERNAL: **what binds a session.** -/
theorem binds_of_bindSession {agent : Agent} {key : Option PrivateKey} {session : Option (List UInt8)}
    {body rest : List UInt8} {reply : Reply}
    (h : agent.bindSession (keysOf package key) session body = some (reply, rest)) :
    ∃ identifier, reply = ⟨[6], false, some identifier⟩ ∧ Binds package agent.hostBlob (27 :: body) identifier := by
  unfold Agent.bindSession at h
  obtain ⟨name, body₁, rfl, hname, h⟩ := string_ensure h
  obtain ⟨-, h⟩ := ensure_some h
  obtain ⟨host, body₂, rfl, hhost, h⟩ := string_ensure h
  obtain ⟨identifier, body₃, hidentifier, h⟩ := bind_some h
  obtain ⟨hlength, h⟩ := ensure_some h
  obtain ⟨encoded, body₄, hencoded, h⟩ := bind_some h
  obtain ⟨⟨signature, left⟩, hdecode, h⟩ := lift_some h
  obtain ⟨hleft, h⟩ := ensure_some h
  obtain ⟨zero, body₅, rfl, hzero, h⟩ := byte_ensure h
  obtain ⟨hempty, h⟩ := finish_some h
  obtain ⟨hverify, h⟩ := ensure_some h
  obtain ⟨rfl, -⟩ := Prod.mk.inj (Option.some.inj h)
  rw [string_some hidentifier, string_some hencoded, of_decide_eq_true hname, of_decide_eq_true hhost,
    of_decide_eq_true hzero, hempty]
  rw [List.isEmpty_iff.mp hleft] at hdecode
  obtain ⟨hlow, hhigh⟩ := of_decide_eq_true hlength
  refine ⟨identifier, rfl, encoded, signature, ?_, hlow, hhigh, hdecode, hverify⟩
  simp only [List.append_assoc]

/-- INTERNAL: **what is read as a userauth request is one.** -/
theorem userauth_of_authentication {agent : Agent} {session : Option (List UInt8)} {data rest algorithm : List UInt8}
    (h : agent.authentication session data = some (algorithm, rest)) :
    ∃ identifier hostBlob, session = some identifier ∧ (hostBlob = none ∨ hostBlob = some agent.hostBlob) ∧
      data = userauth identifier agent.user agent.publicKey algorithm hostBlob := by
  unfold Agent.authentication at h
  obtain ⟨identifier, data₁, rfl, hidentifier, h⟩ := string_ensure h
  obtain ⟨kind, data₂, rfl, hkind, h⟩ := byte_ensure h
  obtain ⟨user, data₃, rfl, huser, h⟩ := string_ensure h
  obtain ⟨service, data₄, rfl, hservice, h⟩ := string_ensure h
  obtain ⟨method, data₅, hmethod, h⟩ := bind_some h
  obtain ⟨hknown, h⟩ := ensure_some h
  obtain ⟨one, data₆, hone, hsome, h⟩ := byte_ensure h
  obtain ⟨algorithm', data₇, halgorithm, h⟩ := bind_some h
  obtain ⟨blob, data₈, hpublic, hown, h⟩ := string_ensure h
  have hread : data₄ = framed method ++ 1 :: (framed algorithm' ++ (framed agent.publicKey ++ data₈)) := by
    rw [string_some hmethod, hone, of_decide_eq_true hsome, string_some halgorithm, hpublic,
      of_decide_eq_true hown]
  rw [← of_decide_eq_true hidentifier, of_decide_eq_true hkind, of_decide_eq_true huser,
    of_decide_eq_true hservice, hread]
  by_cases hbound : decide (method = Text.bytes "publickey-hostbound-v00@openssh.com") = true
  · simp only [hbound, if_true] at h
    obtain ⟨host, data₉, hhost, hpinned, h⟩ := string_ensure h
    obtain ⟨hempty, h⟩ := finish_some h
    obtain ⟨rfl, -⟩ := Prod.mk.inj (Option.some.inj h)
    refine ⟨identifier, some agent.hostBlob, rfl, Or.inr rfl, ?_⟩
    rw [hhost, hempty, of_decide_eq_true hpinned, of_decide_eq_true hbound]
    simp [userauth]
  · simp only [hbound, Bool.false_eq_true, if_false] at h
    obtain ⟨hempty, h⟩ := finish_some h
    obtain ⟨rfl, -⟩ := Prod.mk.inj (Option.some.inj h)
    have hplain : method = Text.bytes "publickey" := by simpa [hbound] using hknown
    refine ⟨identifier, none, rfl, Or.inl rfl, ?_⟩
    rw [hempty, hplain]
    simp [userauth]

/-- INTERNAL: **what is signed.** -/
theorem signs_of_signRequest {agent : Agent} {key : Option PrivateKey} {session : Option (List UInt8)}
    {body rest : List UInt8} {reply : Reply}
    (h : agent.signRequest (keysOf package key) session body = some (reply, rest)) :
    ∃ flags algorithm identifier hostBlob encoded, agent.consumed = false ∧ agent.key = true ∧
      session = some identifier ∧ (hostBlob = none ∨ hostBlob = some agent.hostBlob) ∧
      13 :: body = 13 :: (framed agent.publicKey ++
        framed (userauth identifier agent.user agent.publicKey algorithm hostBlob) ++ Frames.be 4 flags) ∧
      (keysOf package key).signature flags algorithm
        (userauth identifier agent.user agent.publicKey algorithm hostBlob) = some encoded ∧
      reply = ⟨[14] ++ framed encoded, true, session⟩ := by
  unfold Agent.signRequest at h
  obtain ⟨hfresh, h⟩ := ensure_some h
  obtain ⟨blob, body₁, rfl, hpublic, h⟩ := string_ensure h
  obtain ⟨data, body₂, hdata, h⟩ := bind_some h
  obtain ⟨flags, body₃, hflags, h⟩ := bind_some h
  obtain ⟨hempty, h⟩ := finish_some h
  obtain ⟨⟨algorithm, left⟩, hauthentication, h⟩ := lift_some h
  obtain ⟨hkey, h⟩ := ensure_some h
  obtain ⟨encoded, hencoded, h⟩ := lift_some h
  obtain ⟨rfl, -⟩ := Prod.mk.inj (Option.some.inj h)
  obtain ⟨identifier, hostBlob, hsession, hhost, rfl⟩ := userauth_of_authentication hauthentication
  refine ⟨flags, algorithm, identifier, hostBlob, encoded, ?_, hkey, hsession, hhost, ?_, hencoded, rfl⟩
  · simpa using hfresh
  · rw [of_decide_eq_true hpublic, string_some hdata, uint_some hflags, hempty]
    simp only [List.append_assoc, List.append_nil]

/-! ## What is written -/

/-- The response is a signature. -/
def Signs (e : Event) : Prop := e.response.head? = some 14

instance (e : Event) : Decidable (Signs e) := inferInstanceAs (Decidable (_ = _))

/-- A session-bind on the connection of a number bound the session. -/
def Bound (hostBlob : List UInt8) (events : List Event) (number : ℕ) (session : List UInt8) : Prop :=
  ∃ e ∈ events, e.connection = number ∧ Binds package hostBlob e.message session

/-- The signature of a key that was installed, inside `release`, for one userauth request of
the session that was bound on the connection. -/
structure Justified (hostBlob user : List UInt8) (front : List Event) (e : Event) : Prop where
  released : e.released = true
  request : ∃ text key publicKey session algorithm pinned flags encoded,
    package.fromOpenssh text = some key ∧ key.publicKey = some publicKey ∧
    (pinned = none ∨ pinned = some hostBlob) ∧
    e.message = 13 :: (framed publicKey ++ framed (userauth session user publicKey algorithm pinned) ++
      Frames.be 4 flags) ∧
    (keysOf package (some key)).signature flags algorithm (userauth session user publicKey algorithm pinned) =
      some encoded ∧
    e.response = [14] ++ framed encoded ∧ Bound package hostBlob front e.connection session

/-- What holds between calls. -/
structure Inv (hostBlob user : List UInt8) (s : Signer) : Prop where
  sameHost : s.hostBlob = hostBlob
  sameUser : s.user = user
  key : ∀ key, s.key = some key → key.publicKey = some s.publicKey ∧
    ∃ text, package.fromOpenssh text = some key
  gone : s.consumed = true → s.key = none
  session : ∀ number connection session, s.connection = some (number, connection) →
    connection.session = some session → Bound package hostBlob s.events number session
  quiet : s.consumed = false → ∀ e ∈ s.events, ¬ Signs e
  once : (s.events.filter fun e => Signs e).length ≤ 1
  justified : ∀ front e back, s.events = front ++ e :: back → Signs e → Justified package hostBlob user front e

variable {package} {hostBlob user : List UInt8} {s : Signer} {env : VaultAccess.Model.SshSigning.Env}

theorem Bound.later {events more : List Event} {number : ℕ} {session : List UInt8}
    (h : Bound package hostBlob events number session) :
    Bound package hostBlob (events ++ more) number session := by
  obtain ⟨e, he, hbound⟩ := h
  exact ⟨e, List.mem_append_left _ he, hbound⟩

theorem Inv.close (h : Inv package hostBlob user s) : Inv package hostBlob user s.close :=
  ⟨h.sameHost, h.sameUser, by simp [Signer.close], fun _ => rfl, by simp [Signer.close], by simp [Signer.close], h.once,
    h.justified⟩

/-- INTERNAL: an answer that is no signature. -/
theorem Inv.answered (h : Inv package hostBlob user s) {e : Event} (he : ¬ Signs e) :
    Inv package hostBlob user (s.log e) := by
  refine ⟨h.sameHost, h.sameUser, h.key, h.gone, ?_, ?_, ?_, ?_⟩
  · intro number connection session hconnection hsession
    exact (h.session number connection session hconnection hsession).later
  · intro hopen e' he'
    rcases List.mem_append.mp he' with hold | hnew
    · exact h.quiet hopen e' hold
    · rw [List.mem_singleton.mp hnew]
      exact he
  · have hnone : [e].filter (fun e => Signs e) = [] := by simp [he]
    rw [Signer.log, List.filter_append, hnone, List.append_nil]
    exact h.once
  · intro front e' back hsplit hsigns
    rcases split_snoc hsplit with ⟨-, rfl, -⟩ | ⟨rest, -, hold⟩
    · exact absurd hsigns he
    · exact h.justified front e' rest hold hsigns

/-- INTERNAL: **the signature is the first one, and the last.** -/
theorem Inv.signed (h : Inv package hostBlob user s) (hopen : s.consumed = false) {e : Event}
    (he : Justified package hostBlob user s.events e) :
    Inv package hostBlob user ({ s with consumed := true, key := none }.log e) := by
  refine ⟨h.sameHost, h.sameUser, by simp [Signer.log], fun _ => rfl, ?_, by simp [Signer.log], ?_, ?_⟩
  · intro number connection session hconnection hsession
    exact (h.session number connection session hconnection hsession).later
  · have hnone : s.events.filter (fun e => Signs e) = [] := by
      apply List.filter_eq_nil_iff.mpr
      intro e' he'
      simpa using h.quiet hopen e' he'
    simp only [Signer.log]
    rw [List.filter_append, hnone, List.nil_append]
    exact List.length_filter_le _ _
  · intro front e' back hsplit hsigns
    rcases split_snoc hsplit with ⟨rfl, rfl, -⟩ | ⟨rest, -, hold⟩
    · exact he
    · exact h.justified front e' rest hold hsigns

/-! ## One answer -/

variable (package) in
/-- What an answer without a signature does. -/
structure Plain (hostBlob message : List UInt8) (session : Option (List UInt8)) (reply : Reply) : Prop where
  response : reply.response.head? ≠ some 14
  session : reply.session = session ∨ ∃ identifier, reply.session = some identifier ∧
    Binds package hostBlob message identifier

variable (package) in
/-- INTERNAL: **the answers.** -/
theorem reply_cases (s : Signer) (message : List UInt8) (session : Option (List UInt8)) :
    (s.reply package message session).signing = false ∧
        Plain package s.hostBlob message session (s.reply package message session) ∨
      (s.reply package message session).signing = true ∧
        ∃ body, message = 13 :: body ∧
          (s.agent.signRequest (keysOf package s.key) session body).map Prod.fst =
            some (s.reply package message session) := by
  have hrefused : Plain package s.hostBlob message session ⟨[5], false, session⟩ :=
    ⟨by simp, Or.inl rfl⟩
  unfold Signer.reply Agent.reply
  cases message with
  | nil => exact Or.inl ⟨rfl, hrefused⟩
  | cons kind body =>
    unfold Agent.answer
    by_cases hlist : kind = 11
    · subst hlist
      simp only [if_true]
      cases hresult : s.agent.identities session body with
      | none => exact Or.inl ⟨rfl, hrefused⟩
      | some result =>
        obtain ⟨-, hreply⟩ := finish_some hresult
        obtain ⟨hreply, -⟩ := Prod.mk.inj (Option.some.inj hreply)
        refine Or.inl ?_
        rw [Option.map_some, Option.getD_some, ← hreply]
        exact ⟨rfl, by simp, Or.inl rfl⟩
    · by_cases hbind : kind = 27
      · subst hbind
        simp only [hlist, if_false, if_true]
        cases hresult : s.agent.bindSession (keysOf package s.key) session body with
        | none => exact Or.inl ⟨rfl, hrefused⟩
        | some result =>
          obtain ⟨identifier, hreply, hbinds⟩ := binds_of_bindSession package hresult
          refine Or.inl ?_
          rw [Option.map_some, Option.getD_some, hreply]
          exact ⟨rfl, by simp, Or.inr ⟨identifier, rfl, hbinds⟩⟩
      · by_cases hsign : kind = 13
        · subst hsign
          simp only [hlist, hbind, if_false, if_true]
          cases hresult : s.agent.signRequest (keysOf package s.key) session body with
          | none => exact Or.inl ⟨rfl, hrefused⟩
          | some result =>
            obtain ⟨flags, algorithm, identifier, pinned, encoded, -, -, -, -, -, -, hreply⟩ :=
              signs_of_signRequest package hresult
            refine Or.inr ⟨?_, body, rfl, ?_⟩
            · simp only [Option.map_some, Option.getD_some, hreply]
            · simp only [hresult, Option.map_some, Option.getD_some]
        · simp only [hlist, hbind, hsign, if_false]
          exact Or.inl ⟨rfl, hrefused⟩

/-- INTERNAL: **a signature has its reasons.** -/
theorem justified_of_signing (h : Inv package hostBlob user s) {number : ℕ} {message : List UInt8}
    {session : Option (List UInt8)}
    (hsession : ∀ identifier, session = some identifier → Bound package hostBlob s.events number identifier)
    (hsigning : (s.reply package message session).signing = true) (taken : Option ℕ) :
    Justified package hostBlob user s.events
      ⟨number, true, message, (s.reply package message session).response, taken⟩ := by
  rcases reply_cases package s message session with ⟨hplain, -⟩ | ⟨-, body, rfl, hrequest⟩
  · rw [hsigning] at hplain
    cases hplain
  · obtain ⟨⟨reply, rest⟩, hresult, hreply⟩ := Option.map_eq_some_iff.mp hrequest
    obtain ⟨flags, algorithm, identifier, pinned, encoded, -, hkey, rfl, hpinned, hmessage, hsignature, hanswer⟩ :=
      signs_of_signRequest package hresult
    obtain ⟨key, hsome⟩ := Option.isSome_iff_exists.mp hkey
    obtain ⟨hpublic, text, htext⟩ := h.key key hsome
    refine ⟨rfl, text, key, s.publicKey, identifier, algorithm, pinned, flags, encoded, htext, hpublic, ?_, ?_, ?_,
      ?_, hsession identifier rfl⟩
    · rw [← h.sameHost]
      exact hpinned
    · rw [← h.sameUser]
      exact hmessage
    · rw [← h.sameUser, ← hsome]
      exact hsignature
    · rw [← hreply, hanswer]

/-- INTERNAL: one message is answered. -/
theorem Inv.respond (h : Inv package hostBlob user s) (hopen : s.consumed = false)
    {number : ℕ} {connection : Connection}
    (hsession : ∀ identifier, connection.session = some identifier →
      Bound package hostBlob s.events number identifier) (message rest : List UInt8) :
    Inv package hostBlob user (s.respond package env number connection message rest).1 := by
  unfold Signer.respond
  cases hsigning : (s.reply package message connection.session).signing with
  | true =>
    simp only [hsigning, if_true]
    have hjustified := justified_of_signing h hsession hsigning env.taken
    have haction : Inv package hostBlob user
        (s.action env number message (s.reply package message connection.session).response) := by
      unfold Signer.action
      split_ifs
      · exact h
      · exact h.signed hopen hjustified
    split_ifs
    · exact haction.close
    · exact h.close
  | false =>
    simp only [hsigning, Bool.false_eq_true, if_false]
    obtain ⟨-, hplain⟩ : _ ∧ Plain package s.hostBlob message connection.session
        (s.reply package message connection.session) := by
      rcases reply_cases package s message connection.session with hcase | ⟨hsigned, -⟩
      · exact hcase
      · rw [hsigning] at hsigned
        cases hsigned
    have hlogged := h.answered (e := ⟨number, false, message,
      (s.reply package message connection.session).response, env.taken⟩) hplain.response
    split_ifs
    · refine ⟨hlogged.sameHost, hlogged.sameUser, hlogged.key, hlogged.gone, ?_, hlogged.quiet, hlogged.once,
        hlogged.justified⟩
      intro number' connection' session hconnection hbound
      obtain ⟨rfl, rfl⟩ := Prod.mk.inj (Option.some.inj hconnection)
      rcases hplain.session with hsame | ⟨identifier, hnew, hbinds⟩
      · exact (hsession session (hsame.symm.trans hbound)).later
      · refine ⟨_, List.mem_append_right _ (List.mem_singleton.mpr rfl), rfl, ?_⟩
        rw [h.sameHost] at hbinds
        rw [← Option.some.inj (hnew.symm.trans hbound)]
        exact hbinds
    · exact hlogged.close

/-- INTERNAL: the buffered bytes. -/
theorem Inv.process (h : Inv package hostBlob user s) (hopen : s.consumed = false)
    {number : ℕ} {connection : Connection}
    (hsession : ∀ identifier, connection.session = some identifier →
      Bound package hostBlob s.events number identifier) :
    Inv package hostBlob user (s.process package env number connection).1 := by
  have hkept : Inv package hostBlob user { s with connection := some (number, connection) } := by
    refine ⟨h.sameHost, h.sameUser, h.key, h.gone, ?_, h.quiet, h.once, h.justified⟩
    intro number' connection' session hconnection hbound
    obtain ⟨rfl, rfl⟩ := Prod.mk.inj (Option.some.inj hconnection)
    exact hsession session hbound
  have hcounted : Inv package hostBlob user { s with messages := s.messages + 1 } :=
    ⟨h.sameHost, h.sameUser, h.key, h.gone, h.session, h.quiet, h.once, h.justified⟩
  unfold Signer.process
  dsimp only
  split_ifs
  · exact hkept
  · exact h.close
  · exact hkept
  · exact hcounted.close
  · exact hcounted.respond hopen hsession _ _

theorem Inv.serve (h : Inv package hostBlob user s) (hopen : s.consumed = false)
    {number : ℕ} {connection : Connection}
    (hsession : ∀ identifier, connection.session = some identifier →
      Bound package hostBlob s.events number identifier) :
    Inv package hostBlob user (s.serve package env number connection).1 := by
  unfold Signer.serve
  split_ifs
  · exact h.close
  · exact h.process hopen hsession
  · split
    · exact h.process hopen hsession
    · exact h.process hopen hsession
    · exact h.close
    · exact h.close

/-- INTERNAL: **a poll.** -/
theorem Inv.poll (h : Inv package hostBlob user s) : Inv package hostBlob user (s.poll package env).1 := by
  unfold Signer.poll
  by_cases hopen : s.consumed = true
  · rw [if_pos hopen]
    exact h
  · rw [if_neg hopen]
    have hfalse : s.consumed = false := by simpa using hopen
    by_cases hdead : (!env.live || !(s.recipient && env.recipientAlive)) = true
    · rw [if_pos hdead]
      exact h.close
    · rw [if_neg hdead]
      split
      · next number connection hconnection =>
        have htaken : Inv package hostBlob user { s with connection := none } :=
          ⟨h.sameHost, h.sameUser, h.key, h.gone, by simp, h.quiet, h.once, h.justified⟩
        apply htaken.serve hfalse
        exact fun identifier hbound => h.session number connection identifier hconnection hbound
      · have hcounted : Inv package hostBlob user { s with accepted := s.accepted + 1 } :=
          ⟨h.sameHost, h.sameUser, h.key, h.gone, h.session, h.quiet, h.once, h.justified⟩
        split_ifs
        · split
          · apply hcounted.serve hfalse
            simp
          · exact h
          · exact h
          · exact h
          · exact h.close
        · exact h

theorem Inv.install (h : Inv package hostBlob user s) (text : String) :
    Inv package hostBlob user (s.install package text).1 := by
  unfold Signer.install
  split_ifs with hrefused
  · exact h
  · split
    · exact h
    · next key htext =>
      split_ifs
      · exact h
      · exact h
      · split
        · exact h
        · next publicKey hpublic =>
          have hopen : s.consumed = false := by
            simp only [Bool.or_eq_true, not_or] at hrefused
            simpa using hrefused.1.1.1.2
          refine ⟨h.sameHost, h.sameUser, ?_, ?_, h.session, h.quiet, h.once, h.justified⟩
          · intro key' hkey
            obtain rfl := Option.some.inj hkey
            exact ⟨hpublic, text, htext⟩
          · intro hconsumed
            rw [hopen] at hconsumed
            cases hconsumed

theorem Inv.setRecipient (h : Inv package hostBlob user s) : Inv package hostBlob user s.setRecipient.1 := by
  unfold Signer.setRecipient
  split_ifs
  · exact h
  · exact ⟨h.sameHost, h.sameUser, h.key, h.gone, h.session, h.quiet, h.once, h.justified⟩

/-- INTERNAL: **one call.** -/
theorem Inv.step (h : Inv package hostBlob user s) (call : Call) :
    Inv package hostBlob user (s.step package call).1 := by
  cases call with
  | install text => exact h.install text
  | recipient => exact h.setRecipient
  | poll env => exact h.poll
  | close => exact h.close

theorem Inv.run (h : Inv package hostBlob user s) (calls : List Call) :
    Inv package hostBlob user (s.run package calls) := by
  induction calls generalizing s with
  | nil => exact h
  | cons call rest ih => exact ih (h.step call)

theorem inv_initial : Inv package hostBlob user (Signer.initial hostBlob user) := by
  refine ⟨rfl, rfl, ?_, ?_, ?_, ?_, ?_, ?_⟩ <;> simp [Signer.initial]

/-! ## The agent without its history -/

/-- What a poll meets, without what happens inside `release`. -/
def plain (env : VaultAccess.Model.SshSigning.Env) (released writes : Bool) : VaultAccess.Model.SshAgent.Env :=
  { live := env.live, recipientAlive := env.recipientAlive, accept := env.accept, accepted := env.accepted,
    now := env.now, answered := env.answered, received := env.received, released, writes }

section Plain

variable (released writes : Bool)

theorem plain_now : (plain env released writes).now = env.now := rfl

theorem plain_live : (plain env released writes).live = env.live := rfl

theorem plain_alive : (plain env released writes).recipientAlive = env.recipientAlive := rfl

theorem plain_accept : (plain env released writes).accept = env.accept := rfl

theorem plain_accepted : (plain env released writes).accepted = env.accepted := rfl

theorem plain_received : (plain env released writes).received = env.received := rfl

end Plain

theorem written_log (e : Event) :
    (s.log e).agent = { s.agent with
      written := s.agent.written ++ (if e.whole then [framed e.response] else []) } := by
  simp only [Signer.agent, Signer.log, List.filter_append, List.map_append]
  cases hwhole : e.whole <;> simp [hwhole]

theorem reply_messages (n : ℕ) (message : List UInt8) (session : Option (List UInt8)) :
    ({ s with messages := n } : Signer).reply package message session = s.reply package message session := rfl

theorem written_whole {e : Event} (h : e.taken = some (framed e.response).length) :
    (s.log e).agent = { s.agent with written := s.agent.written ++ [framed e.response] } := by
  rw [written_log, if_pos (by simpa [Event.whole] using h)]

theorem written_part {e : Event} (h : e.taken ≠ some (framed e.response).length) : (s.log e).agent = s.agent := by
  rw [written_log, if_neg (by simpa [Event.whole] using h), List.append_nil]

/-- INTERNAL: the action of a signature, with and without the history. -/
theorem action_agent (number : ℕ) (message response : List UInt8) :
    (s.action env number message response).close.agent =
      if env.stillAlive && env.stillPeer && env.remains && env.taken = some (framed response).length then
        { s.agent.close with written := s.agent.written ++ [framed response] }
      else s.agent.close := by
  unfold Signer.action
  by_cases hrefused : (!env.stillAlive || !env.stillPeer || !env.remains) = true
  · rw [if_pos hrefused, if_neg]
    · rfl
    · intro htaken
      simp only [Bool.and_eq_true] at htaken
      simp [htaken.1.1.1, htaken.1.1.2, htaken.1.2] at hrefused
  · have hlet : env.stillAlive = true ∧ env.stillPeer = true ∧ env.remains = true := by
      simpa [and_assoc] using hrefused
    rw [if_neg hrefused, hlet.1, hlet.2.1, hlet.2.2]
    by_cases hwhole : env.taken = some (framed response).length
    · rw [if_pos (by simpa using hwhole)]
      have hwritten := written_whole (s := { s with consumed := true, key := none })
        (e := ⟨number, true, message, response, env.taken⟩) hwhole
      exact congrArg Agent.close hwritten
    · rw [if_neg (by simpa using hwhole)]
      have hwritten := written_part (s := { s with consumed := true, key := none })
        (e := ⟨number, true, message, response, env.taken⟩) hwhole
      exact congrArg Agent.close hwritten

/-- INTERNAL: the answer to one message, with and without the history. -/
theorem respond_agent (number : ℕ) (connection : Connection) (message rest : List UInt8) :
    (s.respond package env number connection message rest).1.agent =
      if (s.reply package message connection.session).signing then
        if env.runs && (env.stillAlive && env.stillPeer && env.remains &&
            env.taken = some (framed (s.reply package message connection.session).response).length) then
          { s.agent.close with
            written := s.agent.written ++ [framed (s.reply package message connection.session).response] }
        else s.agent.close
      else if env.taken = some (framed (s.reply package message connection.session).response).length then
        { s.agent with
          written := s.agent.written ++ [framed (s.reply package message connection.session).response]
          connection := some {
            input := rest
            session := (s.reply package message connection.session).session
            deadline := env.answered + IO_TIMEOUT } }
      else s.agent.close := by
  unfold Signer.respond
  cases hsigning : (s.reply package message connection.session).signing with
  | true =>
    simp only [hsigning, if_true]
    cases hruns : env.runs with
    | true =>
      simp only [if_true, Bool.true_and]
      exact action_agent number message _
    | false => simp only [Bool.false_eq_true, if_false, Bool.false_and]; rfl
  | false =>
    simp only [hsigning, Bool.false_eq_true, if_false]
    by_cases hwhole : env.taken = some (framed (s.reply package message connection.session).response).length
    · rw [if_pos hwhole, if_pos hwhole]
      have hwritten := written_whole (s := s) (e := ⟨number, false, message,
        (s.reply package message connection.session).response, env.taken⟩) hwhole
      exact congrArg (fun agent : Agent => { agent with connection := some (Connection.mk rest
        (s.reply package message connection.session).session (env.answered + IO_TIMEOUT)) }) hwritten
    · rw [if_neg hwhole, if_neg hwhole]
      have hwritten := written_part (s := s) (e := ⟨number, false, message,
        (s.reply package message connection.session).response, env.taken⟩) hwhole
      exact congrArg Agent.close hwritten

theorem process_agent (number : ℕ) (connection : Connection) : ∃ released writes,
    (s.process package env number connection).1.agent =
      (s.agent.process (keysOf package s.key) (plain env released writes) connection).1 := by
  unfold Signer.process Agent.process
  dsimp only
  by_cases hshort : connection.input.length < 4
  · exact ⟨true, true, by simp only [if_pos hshort]; rfl⟩
  · simp only [if_neg hshort]
    by_cases hbad : (decide (header connection.input = 0) || decide (MAX_FRAME < header connection.input) ||
        decide (MAX_FRAME + 4 < connection.input.length)) = true
    · exact ⟨true, true, by simp only [if_pos hbad]; rfl⟩
    · simp only [if_neg hbad]
      by_cases hpart : connection.input.length < header connection.input + 4
      · exact ⟨true, true, by simp only [if_pos hpart]; rfl⟩
      · simp only [if_neg hpart]
        by_cases hmany : MAX_MESSAGES < s.messages + 1
        · have hmany' : MAX_MESSAGES < s.agent.messages + 1 := hmany
          exact ⟨true, true, by simp only [if_pos hmany, if_pos hmany']; rfl⟩
        · have hmany' : ¬ MAX_MESSAGES < s.agent.messages + 1 := hmany
          refine ⟨env.runs && (env.stillAlive && env.stillPeer && env.remains), decide (env.taken = some (framed
            (s.reply package ((connection.input.drop 4).take (header connection.input))
              connection.session).response).length), ?_⟩
          simp only [if_neg hmany, if_neg hmany']
          rw [respond_agent, reply_messages]
          have hreply : ∀ message session, s.agent.reply (keysOf package s.key) message session =
              s.reply package message session := fun _ _ => rfl
          simp only [hreply, plain]
          generalize s.reply package _ _ = reply
          cases reply.signing with
          | true =>
            simp only [if_true, Bool.and_assoc]
            split_ifs
            · rfl
            · rfl
          | false =>
            simp only [Bool.false_eq_true, if_false, decide_eq_true_eq]
            split_ifs
            · rfl
            · rfl

variable (package) (env) in
/-- INTERNAL: what a poll reads first, with and without the history. -/
theorem serve_agent (number : ℕ) (connection : Connection) : ∃ released writes,
    (s.serve package env number connection).1.agent =
      (s.agent.serve (keysOf package s.key) (plain env released writes) connection).1 := by
  unfold Signer.serve Agent.serve
  simp only [plain_now, plain_received]
  by_cases hlate : connection.deadline ≤ env.now
  · simp only [hlate, if_true]
    exact ⟨true, true, rfl⟩
  · simp only [hlate, if_false]
    by_cases hcomplete : complete connection.input = true
    · simp only [hcomplete, if_true]
      exact process_agent number connection
    · simp only [hcomplete, if_false, Bool.false_eq_true]
      cases env.received with
      | bytes chunk => exact process_agent number _
      | wouldBlock => exact process_agent number connection
      | eof => exact ⟨true, true, rfl⟩
      | failed => exact ⟨true, true, rfl⟩

/-- INTERNAL: a poll that serves no connection. -/
theorem poll_agent_of (released writes : Bool)
    (hserve : ∀ number connection, s.connection = some (number, connection) →
      ({ s with connection := none }.serve package env number connection).1.agent =
        ({ s.agent with connection := none }.serve (keysOf package s.key) (plain env released writes) connection).1)
    (haccept : s.connection = none →
      ({ s with accepted := s.accepted + 1 }.serve package env s.accepted
          ⟨[], none, env.accepted + IO_TIMEOUT⟩).1.agent =
        (s.agent.serve (keysOf package s.key) (plain env released writes)
          ⟨[], none, env.accepted + IO_TIMEOUT⟩).1) :
    (s.poll package env).1.agent = (s.agent.poll (keysOf package s.key) (plain env released writes)).1 := by
  have hconsumed : s.agent.consumed = s.consumed := rfl
  have hrecipient : s.agent.recipient = s.recipient := rfl
  have hlistening : s.agent.listening = s.listening := rfl
  unfold Signer.poll Agent.poll
  simp only [plain_live, plain_alive, plain_accept, plain_accepted, hconsumed, hrecipient, hlistening]
  by_cases hspent : s.consumed = true
  · rw [if_pos hspent, if_pos hspent]
  · rw [if_neg hspent, if_neg hspent]
    by_cases hdead : (!env.live || !(s.recipient && env.recipientAlive)) = true
    · rw [if_pos hdead, if_pos hdead]
      rfl
    · rw [if_neg hdead, if_neg hdead]
      cases hconnection : s.connection with
      | some numbered =>
        obtain ⟨number, connection⟩ := numbered
        have hsome : s.agent.connection = some connection := by
          simp only [Signer.agent, hconnection, Option.map_some]
        rw [hsome]
        exact hserve number connection hconnection
      | none =>
        have hnone : s.agent.connection = none := by simp only [Signer.agent, hconnection, Option.map_none]
        rw [hnone]
        by_cases hlisten : s.listening = true
        · rw [if_pos hlisten, if_pos hlisten]
          have hfirst := haccept hconnection
          rw [hconnection] at hfirst
          cases env.accept with
          | peer valid nonblocking =>
            cases valid with
            | true =>
              cases nonblocking with
              | true => exact hfirst
              | false => rfl
            | false => rfl
          | wouldBlock => rfl
          | failed => rfl
        · rw [if_neg hlisten, if_neg hlisten]

/-- **A poll is a poll of the agent without its history.** -/
theorem poll_agent (s : Signer) (env : VaultAccess.Model.SshSigning.Env) : ∃ released writes,
    (s.poll package env).1.agent = (s.agent.poll (keysOf package s.key) (plain env released writes)).1 := by
  cases hconnection : s.connection with
  | some numbered =>
    obtain ⟨released, writes, hserve⟩ := serve_agent package (s := { s with connection := none }) env
      numbered.1 numbered.2
    refine ⟨released, writes, poll_agent_of released writes ?_ ?_⟩
    · intro number connection hsome
      rw [hconnection] at hsome
      rw [Option.some.inj hsome] at hserve
      exact hserve
    · intro hnone
      rw [hconnection] at hnone
      cases hnone
  | none =>
    obtain ⟨released, writes, hserve⟩ := serve_agent package (s := { s with accepted := s.accepted + 1 })
      env s.accepted ⟨[], none, env.accepted + IO_TIMEOUT⟩
    refine ⟨released, writes, poll_agent_of released writes ?_ fun _ => hserve⟩
    intro number connection hsome
    rw [hconnection] at hsome
    cases hsome

/-! ## After the signature -/

variable (package) in
/-- INTERNAL: an agent that is closed answers nothing and stays closed. -/
theorem closed_step (hconsumed : s.consumed = true) (hkey : s.key = none) (call : Call) :
    (s.step package call).1.consumed = true ∧ (s.step package call).1.key = none ∧
      (s.step package call).1.events = s.events := by
  cases call with
  | install text => simp [Signer.step, Signer.install, hconsumed, hkey]
  | recipient => simp [Signer.step, Signer.setRecipient, hconsumed, hkey]
  | poll env => simp [Signer.step, Signer.poll, hconsumed, hkey]
  | close => simp [Signer.step, Signer.close]

variable (package) in
theorem closed_run (hconsumed : s.consumed = true) (hkey : s.key = none) (calls : List Call) :
    (s.run package calls).consumed = true ∧ (s.run package calls).key = none ∧
      (s.run package calls).events = s.events := by
  induction calls generalizing s with
  | nil => exact ⟨hconsumed, hkey, rfl⟩
  | cons call rest ih =>
    obtain ⟨hconsumed', hkey', hevents⟩ := closed_step package hconsumed hkey call
    obtain ⟨hlater, hgone, hsame⟩ := ih hconsumed' hkey'
    exact ⟨hlater, hgone, hsame.trans hevents⟩

/-- INTERNAL: a close in a run closes. -/
theorem consumed_of_close {calls : List Call} (hclose : Call.close ∈ calls) :
    (s.run package calls).consumed = true := by
  obtain ⟨before, after, rfl⟩ := List.append_of_mem hclose
  have hsplit : s.run package (before ++ Call.close :: after) =
      (s.run package before).close.run package after := by
    simp [Signer.run, List.foldl_append, Signer.step]
  rw [hsplit]
  exact (closed_run package rfl rfl after).1

/-- What holds of an agent after any calls. -/
structure Once (package : Package Signature) (hostBlob user : List UInt8) (calls : List Call) (s : Signer) :
    Prop where
  /-- At most one signature was written, in whole or in part. -/
  once : (s.events.filter fun e => Signs e).length ≤ 1
  /-- It was written inside `release`, for one request of a session that was bound before on the
  same connection. -/
  justified : ∀ front e back, s.events = front ++ e :: back → Signs e → Justified package hostBlob user front e
  /-- The signature and every close end the agent. -/
  spent : (∃ e ∈ s.events, Signs e) ∨ Call.close ∈ calls → s.consumed = true
  /-- From then on there is no key, nothing is written, and nothing is accepted. -/
  gone : s.consumed = true → s.key = none ∧ ∀ more, (s.run package more).key = none ∧
    (s.run package more).events = s.events ∧ (s.run package more).setRecipient.2 = false ∧
    ∀ text, ((s.run package more).install package text).2 = false

end Messages

end VaultAccess.Analysis.Signing
