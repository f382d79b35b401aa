import Mathlib.Data.List.ReduceOption
import VaultAccess.Library.Runs
import VaultAccess.Model.SshAgent

/-!
# Frames that arrive in pieces

A poll takes a frame that is complete before it reads again, but it holds the bytes of a read
against the limit of one frame even where they end in the frame after it. So the split of the
bytes into reads does not matter as long as no read takes the buffer past `MAX_FRAME + 4`, and
a read that does closes the connection.
-/

set_option autoImplicit false

namespace VaultAccess.Analysis.SshAgents

open VaultAccess.Library VaultAccess.Model.SshAgent

variable {Signature : Type} (keys : Keys Signature)

/-! ## Frames -/

/-- The bytes of frames. -/
def wire (frames : List (List UInt8)) : List UInt8 := frames.flatMap framed

/-- A message of a frame that a client may send. -/
def Sized (message : List UInt8) : Prop := 1 ≤ message.length ∧ message.length ≤ MAX_FRAME

/-- INTERNAL: the header of a frame. -/
theorem header_framed {message : List UInt8} (hsized : Sized message) (behind : List UInt8) :
    header (framed message ++ behind) = message.length := by
  have hlt : message.length < 256 ^ 4 := Nat.lt_of_le_of_lt hsized.2 (by decide)
  have htake : (framed message ++ behind).take 4 = Frames.be 4 message.length := by
    rw [framed, Frames.beFrame, List.append_assoc, List.take_append_of_le_length (by simp),
      List.take_of_length_le (by simp)]
  rw [header, htake, Frames.be, List.reverse_reverse, Frames.unle_le 4 _ hlt]

theorem length_framed (message : List UInt8) : (framed message).length = message.length + 4 := by
  rw [framed, Frames.beFrame, List.length_append, Frames.length_be, Nat.add_comm]

theorem header_of_begun {input message behind : List UInt8} (hsized : Sized message)
    (hbegun : input <+: framed message ++ behind) (hlong : 4 ≤ input.length) : header input = message.length := by
  obtain ⟨rest, hrest⟩ := hbegun
  rw [← header_framed hsized behind, ← hrest, header, header, List.take_append_of_le_length hlong]

/-- INTERNAL: a buffer that holds a frame begins with it. -/
theorem framed_of_begun {input message behind : List UInt8} (hbegun : input <+: framed message ++ behind)
    (hlong : message.length + 4 ≤ input.length) : ∃ more, input = framed message ++ more := by
  have hframe : framed message <+: input := by
    apply List.prefix_of_prefix_length_le (List.prefix_append _ behind) hbegun
    rw [length_framed]
    exact hlong
  obtain ⟨more, hmore⟩ := hframe
  exact ⟨more, hmore.symm⟩

/-- INTERNAL: what is taken out of a frame. -/
theorem message_framed (message more : List UInt8) :
    ((framed message ++ more).drop 4).take message.length = message ∧
      (framed message ++ more).drop (message.length + 4) = more := by
  have hsplit : framed message ++ more = Frames.be 4 message.length ++ (message ++ more) := by
    rw [framed, Frames.beFrame, List.append_assoc]
  constructor
  · rw [hsplit, List.drop_left' (by simp)]
    exact List.take_left
  · rw [List.drop_left' (length_framed message)]

/-! ## What a client is answered -/

/-- The answers to messages, one after the other. -/
def replies (agent : Agent) : Option (List UInt8) → List (List UInt8) → List Reply
  | _, [] => []
  | session, message :: rest =>
    let reply := agent.reply keys message session
    reply :: replies agent reply.session rest

/-- The bytes of the responses. -/
def responses (agent : Agent) (session : Option (List UInt8)) (messages : List (List UInt8)) :
    List (List UInt8) :=
  (replies keys agent session messages).map fun reply => framed reply.response

/-- No signature is granted. -/
def Unsigned (agent : Agent) (session : Option (List UInt8)) (messages : List (List UInt8)) : Prop :=
  ∀ reply ∈ replies keys agent session messages, reply.signing = false

/-- INTERNAL: an answer depends on the keys and on whether the authority is consumed. -/
theorem reply_congr {a b : Agent} (hpublic : a.publicKey = b.publicKey) (hhost : a.hostBlob = b.hostBlob)
    (huser : a.user = b.user) (hkey : a.key = b.key) (hconsumed : a.consumed = b.consumed) :
    a.reply keys = b.reply keys := by
  funext message session
  obtain ⟨_, _, _, _, _, _, _, _, _, _⟩ := a
  obtain ⟨_, _, _, _, _, _, _, _, _, _⟩ := b
  dsimp only at hpublic hhost huser hkey hconsumed
  subst hpublic hhost huser hkey hconsumed
  rfl

/-! ## Splits -/

/-- The bytes of the frame that is not complete when so many bytes have been received. -/
def held : List (List UInt8) → ℕ → ℕ
  | [], received => received
  | message :: rest, received =>
    if message.length + 4 ≤ received then held rest (received - (message.length + 4)) else received

/-- No read takes the buffer past the largest frame, when so many bytes have been received. -/
def FitsFrom (messages : List (List UInt8)) (received : ℕ) (reads : List (List UInt8)) : Prop :=
  ∀ before chunk after, reads = before ++ chunk :: after →
    held messages (received + before.flatten.length) + chunk.length ≤ MAX_FRAME + 4

/-- No read takes the buffer past the largest frame. -/
def Fits (messages reads : List (List UInt8)) : Prop := FitsFrom messages 0 reads

/-- INTERNAL: after the first frame. -/
theorem fitsFrom_answered {message : List UInt8} {rest reads : List (List UInt8)} {received : ℕ}
    (h : message.length + 4 ≤ received) :
    FitsFrom (message :: rest) received reads ↔ FitsFrom rest (received - (message.length + 4)) reads := by
  have hheld : ∀ k, held (message :: rest) (received + k) = held rest (received - (message.length + 4) + k) := by
    intro k
    rw [held, if_pos (by omega)]
    congr 1
    omega
  unfold FitsFrom
  simp only [hheld]

/-- INTERNAL: after the first read. -/
theorem fitsFrom_read {messages reads : List (List UInt8)} {chunk : List UInt8} {received : ℕ}
    (h : held messages received = received) : FitsFrom messages received (chunk :: reads) ↔
      received + chunk.length ≤ MAX_FRAME + 4 ∧ FitsFrom messages (received + chunk.length) reads := by
  constructor
  · intro hfits
    constructor
    · have hfirst := hfits [] chunk reads rfl
      rw [List.flatten_nil, List.length_nil, Nat.add_zero, h] at hfirst
      exact hfirst
    · intro before next after heq
      have hnext := hfits (chunk :: before) next after (by rw [heq, List.cons_append])
      rw [List.flatten_cons, List.length_append, ← Nat.add_assoc] at hnext
      exact hnext
  · rintro ⟨hfirst, hrest⟩ before next after heq
    cases before with
    | nil =>
      obtain ⟨rfl, rfl⟩ := List.cons.inj heq
      rw [List.flatten_nil, List.length_nil, Nat.add_zero, h]
      exact hfirst
    | cons first before =>
      obtain ⟨rfl, htail⟩ := List.cons.inj heq
      have hnext := hrest before next after htail
      rw [List.flatten_cons, List.length_append, ← Nat.add_assoc]
      exact hnext

theorem fitsFrom_nil (messages : List (List UInt8)) (received : ℕ) : FitsFrom messages received [] := by
  intro before chunk after heq
  cases before <;> cases heq

/-! ## One poll -/

/-- What a poll meets while nothing goes wrong: the authority lives, no deadline has passed, the
peer is the recipient and the socket takes the response. -/
structure Calm (agent : Agent) (env : Env) : Prop where
  live : env.live = true
  recipientAlive : env.recipientAlive = true
  accept : env.accept = .peer true true
  fresh : agent.connection = none → env.now < env.accepted + IO_TIMEOUT
  early : ∀ connection, agent.connection = some connection → env.now < connection.deadline
  writes : env.writes = true

/-- The buffered bytes. -/
def buffer (agent : Agent) : List UInt8 := (agent.connection.map Connection.input).getD []

/-- The session that was bound. -/
def bound (agent : Agent) : Option (List UInt8) := agent.connection.bind Connection.session

/-- The agent serves its connection as it did in the beginning, and its buffer and what comes are
the bytes of the messages that are not answered. -/
structure Flow (start : Agent) (messages : List (List UInt8)) (line : Line) (rest : List (List UInt8)) :
    Prop where
  publicKey : line.agent.publicKey = start.publicKey
  hostBlob : line.agent.hostBlob = start.hostBlob
  user : line.agent.user = start.user
  key : line.agent.key = start.key
  consumed : line.agent.consumed = start.consumed
  started : start.consumed = false
  recipient : line.agent.recipient = true
  listening : line.agent.listening = true
  sized : ∀ message ∈ rest, Sized message
  counted : line.agent.messages + rest.length ≤ MAX_MESSAGES
  whole : buffer line.agent ++ line.incoming.reduceOption.flatten = wire rest
  small : (buffer line.agent).length ≤ MAX_FRAME + 4
  chunks : ∀ chunk, some chunk ∈ line.incoming → chunk ≠ []
  written : line.agent.written ++ responses keys start (bound line.agent) rest =
    start.written ++ responses keys start none messages
  unsigned : Unsigned keys start (bound line.agent) rest

/-- The connection is closed for good. -/
def Closed (line : Line) : Prop := line.agent.consumed = true

/-- INTERNAL: a calm poll of an open agent works on the bytes it has after a read. -/
theorem poll_calm {agent : Agent} {env : Env} (hcalm : Calm agent env) (hopen : agent.consumed = false)
    (hrecipient : agent.recipient = true) (hlistening : agent.listening = true) {received : Received}
    {input : List UInt8}
    (hinput : (agent.reads = false ∧ input = buffer agent) ∨ (agent.reads = true ∧
      ((received = .wouldBlock ∧ input = buffer agent) ∨
        ∃ chunk, received = .bytes chunk ∧ input = buffer agent ++ chunk))) :
    ∃ deadline, (agent.poll keys { env with received }) =
      { agent with connection := none }.process keys env ⟨input, bound agent, deadline⟩ := by
  have hprocess : ∀ (a : Agent) (connection : Connection),
      a.process keys { env with received } connection = a.process keys env connection := fun _ _ => rfl
  unfold Agent.poll
  rw [if_neg (by simp [hopen]), if_neg (by simp [hcalm.live, hcalm.recipientAlive, hrecipient])]
  have hserve : ∀ connection : Connection, env.now < connection.deadline →
      connection.input = buffer agent → connection.session = bound agent →
      agent.reads = !complete connection.input →
      { agent with connection := none }.serve keys { env with received } connection =
        { agent with connection := none }.process keys env ⟨input, bound agent, connection.deadline⟩ := by
    rintro ⟨had, session, deadline⟩ hearly hbuffer hbound hreads
    dsimp only at hearly hbuffer hbound hreads
    subst hbuffer hbound
    unfold Agent.serve
    rw [if_neg (by dsimp only; omega)]
    rcases hinput with ⟨hno, rfl⟩ | ⟨hyes, ⟨rfl, rfl⟩ | ⟨chunk, rfl, rfl⟩⟩
    · rw [hno] at hreads
      rw [if_pos (by simpa using hreads.symm), hprocess]
    · rw [hyes] at hreads
      rw [if_neg (by simpa using hreads.symm)]
      exact hprocess _ _
    · rw [hyes] at hreads
      rw [if_neg (by simpa using hreads.symm)]
      exact hprocess _ _
  cases hconnection : agent.connection with
  | some connection =>
    refine ⟨connection.deadline, ?_⟩
    apply hserve connection (hcalm.early connection hconnection)
    · simp [buffer, hconnection]
    · simp [bound, hconnection]
    · simp [Agent.reads, hconnection]
  | none =>
    refine ⟨env.accepted + IO_TIMEOUT, ?_⟩
    have hsame : { agent with connection := none } = agent := by
      obtain ⟨_, _, _, _, _, _, connection, _, _, _⟩ := agent
      dsimp only at hconnection
      rw [hconnection]
    dsimp only
    rw [if_pos hlistening, hcalm.accept]
    have h := hserve ⟨[], none, env.accepted + IO_TIMEOUT⟩ (hcalm.fresh hconnection)
      (by simp [buffer, hconnection]) (by simp [bound, hconnection])
      (by simp [Agent.reads, hconnection, complete])
    rw [hsame] at h ⊢
    exact h

/-! ## What a poll makes of its bytes -/

section Process

variable {agent : Agent} {env : Env} {connection : Connection} {message : List UInt8}

/-- INTERNAL: a frame that is not complete waits. -/
theorem process_incomplete {behind : List UInt8} (hsized : Sized message)
    (hbegun : connection.input <+: framed message ++ behind)
    (hshort : connection.input.length < message.length + 4) :
    agent.process keys env connection = ({ agent with connection := some connection }, true) := by
  unfold Agent.process
  dsimp only
  by_cases hheader : connection.input.length < 4
  · rw [if_pos hheader]
  · have hsize := header_of_begun hsized hbegun (by omega)
    obtain ⟨hpositive, hfits⟩ := hsized
    rw [if_neg hheader, if_neg, if_pos (by omega)]
    simp only [hsize, Bool.or_eq_true, decide_eq_true_eq]
    omega

/-- INTERNAL: more bytes than the largest frame close the connection. -/
theorem process_closed {behind : List UInt8} (hsized : Sized message)
    (hbegun : connection.input <+: framed message ++ behind)
    (hbig : MAX_FRAME + 4 < connection.input.length) :
    agent.process keys env connection = (agent.close, true) := by
  have hsize := header_of_begun hsized hbegun (by omega)
  unfold Agent.process
  dsimp only
  rw [if_neg (by omega), if_pos]
  simp only [hsize, Bool.or_eq_true, decide_eq_true_eq]
  omega

/-- INTERNAL: **a frame that is complete is answered.** -/
theorem process_answered {more : List UInt8} (hsized : Sized message)
    (hinput : connection.input = framed message ++ more)
    (hsmall : connection.input.length ≤ MAX_FRAME + 4) (hcount : agent.messages + 1 ≤ MAX_MESSAGES)
    (hsigning : (agent.reply keys message connection.session).signing = false) (hwrites : env.writes = true) :
    agent.process keys env connection =
      ({ agent with
          messages := agent.messages + 1
          written := agent.written ++ [framed (agent.reply keys message connection.session).response]
          connection := some {
            input := more
            session := (agent.reply keys message connection.session).session
            deadline := env.answered + IO_TIMEOUT } }, true) := by
  have hsize : header connection.input = message.length := by rw [hinput, header_framed hsized]
  have hlength : message.length + 4 ≤ connection.input.length := by
    rw [hinput, List.length_append, length_framed]
    omega
  obtain ⟨htake, hdrop⟩ := message_framed message more
  obtain ⟨hpositive, hfits⟩ := hsized
  unfold Agent.process
  dsimp only
  rw [if_neg (by omega), if_neg, hsize, if_neg (by omega), if_neg (by omega)]
  · rw [hinput] at *
    rw [htake, hdrop, hsigning, if_neg (by simp), if_pos hwrites]
  · simp only [hsize, Bool.or_eq_true, decide_eq_true_eq]
    omega

end Process

theorem held_partial {message : List UInt8} {rest : List (List UInt8)} {received : ℕ}
    (h : received < message.length + 4) : held (message :: rest) received = received := by
  rw [held, if_neg (by omega)]

section Step

variable {start : Agent} {messages rest : List (List UInt8)} {line : Line} {env : Env}

/-- INTERNAL: the poll goes on with other bytes. -/
theorem Flow.kept (h : Flow keys start messages line rest) {input : List UInt8} {deadline : ℕ}
    {incoming : List (Option (List UInt8))} (hwhole : input ++ incoming.reduceOption.flatten = wire rest)
    (hsmall : input.length ≤ MAX_FRAME + 4) (hchunks : ∀ chunk, some chunk ∈ incoming → chunk ≠ []) :
    Flow keys start messages
      ⟨{ line.agent with connection := some ⟨input, bound line.agent, deadline⟩ }, incoming⟩ rest where
  publicKey := h.publicKey
  hostBlob := h.hostBlob
  user := h.user
  key := h.key
  consumed := h.consumed
  started := h.started
  recipient := h.recipient
  listening := h.listening
  sized := h.sized
  counted := h.counted
  whole := hwhole
  small := hsmall
  chunks := hchunks
  written := h.written
  unsigned := h.unsigned

theorem replies_cons (session : Option (List UInt8)) (message : List UInt8) :
    replies keys start session (message :: rest) =
      start.reply keys message session ::
        replies keys start (start.reply keys message session).session rest := rfl

/-- INTERNAL: **the poll answers the first message.** -/
theorem Flow.answered {message : List UInt8} (h : Flow keys start messages line (message :: rest))
    (hwrites : env.writes = true) {more : List UInt8} {deadline : ℕ} {incoming : List (Option (List UInt8))}
    (hwhole : framed message ++ more ++ incoming.reduceOption.flatten = wire (message :: rest))
    (hsmall : (framed message ++ more).length ≤ MAX_FRAME + 4)
    (hchunks : ∀ chunk, some chunk ∈ incoming → chunk ≠ []) :
    Flow keys start messages ⟨({ line.agent with connection := none }.process keys env
        ⟨framed message ++ more, bound line.agent, deadline⟩).1, incoming⟩ rest ∧
      buffer ({ line.agent with connection := none }.process keys env
        ⟨framed message ++ more, bound line.agent, deadline⟩).1 = more := by
  have hsized := h.sized message List.mem_cons_self
  have hreply : { line.agent with connection := none }.reply keys = start.reply keys :=
    reply_congr keys h.publicKey h.hostBlob h.user h.key h.consumed
  have hcounted := h.counted
  rw [List.length_cons] at hcounted
  have hcount : line.agent.messages + 1 ≤ MAX_MESSAGES := Nat.le_trans (by omega) hcounted
  have hunsigned := h.unsigned
  unfold Unsigned at hunsigned
  rw [replies_cons] at hunsigned
  have hsigning : ({ line.agent with connection := none }.reply keys message
      (bound line.agent)).signing = false := by
    rw [hreply]
    exact hunsigned _ List.mem_cons_self
  have hprocess : { line.agent with connection := none }.process keys env
      ⟨framed message ++ more, bound line.agent, deadline⟩ = _ :=
    process_answered keys hsized rfl hsmall hcount hsigning hwrites
  rw [hreply] at hprocess
  rw [hprocess]
  refine ⟨?_, rfl⟩
  exact {
    publicKey := h.publicKey
    hostBlob := h.hostBlob
    user := h.user
    key := h.key
    consumed := h.consumed
    started := h.started
    recipient := h.recipient
    listening := h.listening
    sized := fun m hm => h.sized m (List.mem_cons_of_mem message hm)
    counted := by
      show line.agent.messages + 1 + rest.length ≤ MAX_MESSAGES
      rw [Nat.add_assoc, Nat.add_comm 1]
      exact hcounted
    whole := by
      show more ++ incoming.reduceOption.flatten = wire rest
      unfold wire at hwhole ⊢
      rw [List.flatMap_cons, List.append_assoc] at hwhole
      exact List.append_cancel_left hwhole
    small := by
      show more.length ≤ MAX_FRAME + 4
      rw [List.length_append] at hsmall
      exact Nat.le_trans (Nat.le_add_left _ _) hsmall
    chunks := hchunks
    written := by
      have hwritten := h.written
      unfold responses at hwritten ⊢
      rw [replies_cons, List.map_cons, List.append_cons] at hwritten
      exact hwritten
    unsigned := fun reply hmem => hunsigned reply (List.mem_cons_of_mem _ hmem) }

/-- INTERNAL: **what a calm poll makes of the bytes it has.** -/
theorem Flow.process (h : Flow keys start messages line rest) (hwrites : env.writes = true)
    {input : List UInt8} {deadline : ℕ} {incoming : List (Option (List UInt8))}
    (hwhole : input ++ incoming.reduceOption.flatten = wire rest)
    (hchunks : ∀ chunk, some chunk ∈ incoming → chunk ≠ []) {fits : Prop} {measure : ℕ}
    (hfits : fits ↔ input.length ≤ MAX_FRAME + 4 ∧ FitsFrom rest input.length incoming.reduceOption)
    (hanswers : ∀ message rest', rest = message :: rest' → message.length + 4 ≤ input.length →
      incoming.length + rest'.length ≤ measure)
    (hwaits : (∀ message rest', rest = message :: rest' → input.length < message.length + 4) →
      incoming.length + rest.length ≤ measure) {next : Line}
    (hnext : next = ⟨({ line.agent with connection := none }.process keys env
      ⟨input, bound line.agent, deadline⟩).1, incoming⟩) :
    (Closed next ∧ ¬ fits) ∨ ∃ rest', Flow keys start messages next rest' ∧
      (fits ↔ FitsFrom rest' (buffer next.agent).length next.incoming.reduceOption) ∧
      next.incoming.length + rest'.length ≤ measure := by
  cases rest with
  | nil =>
    obtain rfl : input = [] := (List.append_eq_nil_iff.mp hwhole).1
    refine .inr ⟨[], ?_, ?_, ?_⟩
    · rw [hnext]
      exact h.kept keys hwhole (Nat.zero_le _) hchunks
    · rw [hnext, hfits]
      exact ⟨fun hboth => hboth.2, fun hrest => ⟨Nat.zero_le _, hrest⟩⟩
    · rw [hnext]
      exact hwaits (by simp)
  | cons message rest' =>
    have hsized := h.sized message List.mem_cons_self
    have hbegun : input <+: framed message ++ wire rest' := ⟨_, hwhole⟩
    by_cases hbig : MAX_FRAME + 4 < input.length
    · refine .inl ⟨?_, ?_⟩
      · rw [hnext, process_closed keys hsized hbegun hbig]
        rfl
      · rw [hfits]
        omega
    · by_cases hshort : input.length < message.length + 4
      · rw [process_incomplete keys hsized hbegun hshort] at hnext
        refine .inr ⟨message :: rest', ?_, ?_, ?_⟩
        · rw [hnext]
          exact h.kept keys hwhole (by omega) hchunks
        · rw [hnext, hfits]
          exact ⟨fun hboth => hboth.2, fun hrest => ⟨by omega, hrest⟩⟩
        · rw [hnext]
          apply hwaits
          intro m r heq
          obtain ⟨rfl, rfl⟩ := List.cons.inj heq
          exact hshort
      · obtain ⟨more, rfl⟩ := framed_of_begun hbegun (by omega)
        have hlength : (framed message ++ more).length = message.length + 4 + more.length := by
          rw [List.length_append, length_framed]
        obtain ⟨hflow, hbuffer⟩ := h.answered keys hwrites hwhole (Nat.le_of_not_lt hbig) hchunks
        refine .inr ⟨rest', ?_, ?_, ?_⟩
        · rw [hnext]
          exact hflow
        · rw [hnext, hfits, fitsFrom_answered (by omega), hbuffer, hlength, Nat.add_sub_cancel_left]
          exact ⟨fun hboth => hboth.2, fun hrest => ⟨by omega, hrest⟩⟩
        · rw [hnext]
          exact hanswers message rest' rfl (by omega)

/-- INTERNAL: whether a poll reads. -/
theorem Flow.reads (h : Flow keys start messages line rest) : line.agent.reads = false ↔
    ∃ message rest', rest = message :: rest' ∧ message.length + 4 ≤ (buffer line.agent).length := by
  have hreads : line.agent.reads = !complete (buffer line.agent) := by
    unfold Agent.reads buffer
    cases line.agent.connection <;> rfl
  rw [hreads, Bool.not_eq_false']
  have hwhole := h.whole
  cases rest with
  | nil =>
    rw [(List.append_eq_nil_iff.mp hwhole).1]
    simp [complete]
  | cons message rest' =>
    have hsized := h.sized message List.mem_cons_self
    have hbegun : buffer line.agent <+: framed message ++ wire rest' := ⟨_, hwhole⟩
    unfold complete
    simp only [List.cons.injEq, Bool.and_eq_true, Bool.or_eq_true, decide_eq_true_eq]
    constructor
    · rintro ⟨hlong, hheader⟩
      rw [header_of_begun hsized hbegun hlong] at hheader
      obtain ⟨hpositive, hfits⟩ := hsized
      exact ⟨message, rest', ⟨rfl, rfl⟩, by omega⟩
    · rintro ⟨_, _, ⟨rfl, rfl⟩, hlong⟩
      refine ⟨by omega, ?_⟩
      rw [header_of_begun hsized hbegun (by omega)]
      exact .inr hlong

/-- INTERNAL: what is held when a poll reads. -/
theorem Flow.held (h : Flow keys start messages line rest) (hreads : line.agent.reads = true) :
    held rest (buffer line.agent).length = (buffer line.agent).length := by
  cases rest with
  | nil => rfl
  | cons message rest' =>
    apply held_partial
    apply Nat.lt_of_not_le
    intro hlong
    have hno := (h.reads keys).mpr ⟨message, rest', rfl, hlong⟩
    rw [hreads] at hno
    cases hno

/-- INTERNAL: **one calm poll** closes the connection at a read that does not fit, or goes on. -/
theorem Flow.step (h : Flow keys start messages line rest) (hcalm : Calm line.agent env) :
    (Closed (line.step keys env) ∧
      ¬ FitsFrom rest (buffer line.agent).length line.incoming.reduceOption) ∨
    ∃ rest', Flow keys start messages (line.step keys env) rest' ∧
      (FitsFrom rest (buffer line.agent).length line.incoming.reduceOption ↔
        FitsFrom rest' (buffer (line.step keys env).agent).length (line.step keys env).incoming.reduceOption) ∧
      (line.step keys env).incoming.length + rest'.length ≤ line.incoming.length + rest.length - 1 := by
  have hopen : line.agent.consumed = false := h.consumed.trans h.started
  have hpoll := fun (received : Received) (input : List UInt8) =>
    @poll_calm _ keys line.agent env hcalm hopen h.recipient h.listening received input
  cases hreads : line.agent.reads with
  | false =>
    obtain ⟨message, rest', rfl, hlong⟩ := (h.reads keys).mp hreads
    obtain ⟨deadline, hprocess⟩ := hpoll env.received (buffer line.agent) (.inl ⟨hreads, rfl⟩)
    have hnext : line.step keys env = ⟨({ line.agent with connection := none }.process keys env
        ⟨buffer line.agent, bound line.agent, deadline⟩).1, line.incoming⟩ := by
      unfold Line.step
      rw [if_neg (by rw [hreads]; simp)]
      exact congrArg (fun polled => (⟨polled.1, line.incoming⟩ : Line)) hprocess
    apply h.process keys hcalm.writes h.whole h.chunks ?_ ?_ ?_ hnext
    · exact ⟨fun hfits => ⟨h.small, hfits⟩, fun hboth => hboth.2⟩
    · intro m r heq _
      obtain ⟨rfl, rfl⟩ := List.cons.inj heq
      rw [List.length_cons]
      omega
    · intro hwaits
      exact absurd (hwaits message rest' rfl) (by omega)
  | true =>
    have hheld := h.held keys hreads
    have hwhole := h.whole
    have hchunks := h.chunks
    unfold Line.step
    rw [if_pos hreads]
    cases hincoming : line.incoming with
    | nil =>
      rw [hincoming] at hwhole
      obtain ⟨deadline, hprocess⟩ := hpoll .wouldBlock (buffer line.agent)
        (.inr ⟨hreads, .inl ⟨rfl, rfl⟩⟩)
      apply h.process keys hcalm.writes hwhole (by simp) ?_ ?_ ?_
        (congrArg (fun polled => (⟨polled.1, []⟩ : Line)) hprocess)
      · exact ⟨fun hfits => ⟨h.small, hfits⟩, fun hboth => hboth.2⟩
      · intro m r heq _
        rw [heq, List.length_cons]
        omega
      · intro hwaits
        cases rest with
        | nil => exact Nat.zero_le _
        | cons message rest' =>
          have hshort := hwaits message rest' rfl
          have hlength := congrArg List.length hwhole
          simp only [List.reduceOption_nil, List.flatten_nil, List.append_nil, wire, List.flatMap_cons,
            List.length_append, length_framed] at hlength
          omega
    | cons next more =>
      rw [hincoming] at hwhole hchunks
      have hrest := fun chunk hmem => hchunks chunk (List.mem_cons_of_mem next hmem)
      have hanswers : ∀ message rest', rest = message :: rest' →
          more.length + rest'.length ≤ (next :: more).length + rest.length - 1 := by
        rintro message rest' rfl
        rw [List.length_cons, List.length_cons]
        omega
      have hwaits : more.length + rest.length ≤ (next :: more).length + rest.length - 1 := by
        rw [List.length_cons]
        omega
      cases next with
      | none =>
        rw [List.reduceOption_cons_of_none] at hwhole ⊢
        obtain ⟨deadline, hprocess⟩ := hpoll .wouldBlock (buffer line.agent)
          (.inr ⟨hreads, .inl ⟨rfl, rfl⟩⟩)
        apply h.process keys hcalm.writes hwhole hrest ?_ ?_ ?_
          (congrArg (fun polled => (⟨polled.1, more⟩ : Line)) hprocess)
        · exact ⟨fun hfits => ⟨h.small, hfits⟩, fun hboth => hboth.2⟩
        · exact fun message rest' heq _ => hanswers message rest' heq
        · exact fun _ => hwaits
      | some chunk =>
        rw [List.reduceOption_cons_of_some] at hwhole ⊢
        rw [List.flatten_cons, ← List.append_assoc] at hwhole
        obtain ⟨deadline, hprocess⟩ := hpoll (.bytes chunk) (buffer line.agent ++ chunk)
          (.inr ⟨hreads, .inr ⟨chunk, rfl, rfl⟩⟩)
        apply h.process keys hcalm.writes hwhole hrest ?_ ?_ ?_
          (congrArg (fun polled => (⟨polled.1, more⟩ : Line)) hprocess)
        · rw [fitsFrom_read hheld, List.length_append]
        · exact fun message rest' heq _ => hanswers message rest' heq
        · exact fun _ => hwaits

end Step

/-! ## Runs -/

/-- The agent waits for its connection. -/
structure Fresh (agent : Agent) : Prop where
  consumed : agent.consumed = false
  connection : agent.connection = none
  listening : agent.listening = true
  recipient : agent.recipient = true
  messages : agent.messages = 0

/-- One response for each message, in order, is what the message is answered alone, and the
connection is not closed. -/
def Delivered (start : Agent) (messages : List (List UInt8)) (agent : Agent) : Prop :=
  agent.written = start.written ++ responses keys start none messages ∧ agent.consumed = false

/-- INTERNAL: before the first poll. -/
theorem Fresh.flow {start : Agent} (h : Fresh start) {messages : List (List UInt8)}
    (hsized : ∀ message ∈ messages, Sized message) (hcount : messages.length ≤ MAX_MESSAGES)
    (hunsigned : Unsigned keys start none messages) {incoming : List (Option (List UInt8))}
    (hchunks : ∀ chunk, some chunk ∈ incoming → chunk ≠ [])
    (hwhole : incoming.reduceOption.flatten = wire messages) :
    Flow keys start messages ⟨start, incoming⟩ messages := by
  have hbuffer : buffer start = [] := by rw [buffer, h.connection]; rfl
  have hbound : bound start = none := by rw [bound, h.connection]; rfl
  exact {
    publicKey := rfl
    hostBlob := rfl
    user := rfl
    key := rfl
    consumed := rfl
    started := h.consumed
    recipient := h.recipient
    listening := h.listening
    sized := hsized
    counted := by rw [h.messages, Nat.zero_add]; exact hcount
    whole := by rw [hbuffer, List.nil_append]; exact hwhole
    small := by rw [hbuffer]; exact Nat.zero_le _
    chunks := hchunks
    written := by rw [hbound]
    unsigned := by rw [hbound]; exact hunsigned }

/-- INTERNAL: a closed connection stays closed. -/
theorem Closed.step {line : Line} (h : Closed line) (env : Env) : Closed (line.step keys env) := by
  have hconsumed : line.agent.consumed = true := h
  have hpoll : ∀ env, line.agent.poll keys env = (line.agent, true) := by
    intro env
    unfold Agent.poll
    rw [if_pos hconsumed]
  unfold Line.step Closed
  split
  · split <;> rw [hpoll] <;> exact h
  · rw [hpoll]
    exact h

/-! ## Time -/

/-- INTERNAL: a deadline is kept or set anew. -/
theorem process_deadline {agent : Agent} {env : Env} {connection next : Connection}
    (h : (agent.process keys env connection).1.connection = some next) :
    next.deadline = connection.deadline ∨ next.deadline = env.answered + IO_TIMEOUT := by
  unfold Agent.process at h
  dsimp only at h
  split_ifs at h
  all_goals cases h
  · exact .inl rfl
  · exact .inl rfl
  · exact .inr rfl

/-- INTERNAL: a poll's deadline is not before the time when it began to count. -/
theorem poll_deadline {agent : Agent} {env : Env} {begun : ℕ} (haccepted : begun ≤ env.accepted)
    (hanswered : begun ≤ env.answered)
    (h : ∀ connection, agent.connection = some connection → begun + IO_TIMEOUT ≤ connection.deadline) :
    ∀ connection, (agent.poll keys env).1.connection = some connection →
      begun + IO_TIMEOUT ≤ connection.deadline := by
  have hserve : ∀ (a : Agent) (connection : Connection), begun + IO_TIMEOUT ≤ connection.deadline →
      ∀ next, (a.serve keys env connection).1.connection = some next → begun + IO_TIMEOUT ≤ next.deadline := by
    intro a connection hdeadline next hnext
    have hprocess : ∀ c : Connection, c.deadline = connection.deadline →
        (a.process keys env c).1.connection = some next → begun + IO_TIMEOUT ≤ next.deadline := by
      intro c hc hstored
      rcases process_deadline keys hstored with hsame | hset
      · omega
      · omega
    unfold Agent.serve at hnext
    split at hnext
    · cases hnext
    split at hnext
    · exact hprocess connection rfl hnext
    · split at hnext
      · next chunk _ => exact hprocess { connection with input := connection.input ++ chunk } rfl hnext
      · exact hprocess connection rfl hnext
      · cases hnext
      · cases hnext
  intro connection hconnection
  unfold Agent.poll at hconnection
  split at hconnection
  · exact h connection hconnection
  split at hconnection
  · cases hconnection
  split at hconnection
  · next had hhad => exact hserve _ had (h had hhad) connection hconnection
  · split at hconnection
    · split at hconnection
      · exact hserve _ _ (by dsimp only; omega) connection hconnection
      · exact h connection hconnection
      · exact h connection hconnection
      · exact h connection hconnection
      · cases hconnection
    · exact h connection hconnection

/-- **Polls within the time of a connection are calm.** -/
theorem calm_of_times {begun : ℕ} {envs : List Env} (henvs : ∀ env ∈ envs, env.live = true ∧
      env.recipientAlive = true ∧ env.accept = .peer true true ∧ env.writes = true ∧
      begun ≤ env.accepted ∧ begun ≤ env.answered ∧ env.now < begun + IO_TIMEOUT) {line : Line}
    (hline : ∀ connection, line.agent.connection = some connection →
      begun + IO_TIMEOUT ≤ connection.deadline) :
    Along (Line.step keys) (fun line env => Calm line.agent env) line envs := by
  induction envs generalizing line with
  | nil => trivial
  | cons env envs ih =>
    obtain ⟨hlive, halive, haccept, hwrites, haccepted, hanswered, hnow⟩ := henvs env List.mem_cons_self
    refine ⟨⟨hlive, halive, haccept, fun _ => by omega, ?_, hwrites⟩, ?_⟩
    · intro connection hconnection
      have hdeadline := hline connection hconnection
      omega
    · apply ih fun e he => henvs e (List.mem_cons_of_mem env he)
      unfold Line.step
      split
      · split <;> exact poll_deadline keys haccepted hanswered hline
      · exact poll_deadline keys haccepted hanswered hline

/-- INTERNAL: **a calm run of enough polls.** -/
theorem Flow.run {start : Agent} {messages rest : List (List UInt8)} {line : Line}
    (h : Flow keys start messages line rest) {envs : List Env}
    (hcalm : Along (Line.step keys) (fun line env => Calm line.agent env) line envs)
    (hlong : line.incoming.length + rest.length ≤ envs.length) :
    Delivered keys start messages (envs.foldl (Line.step keys) line).agent ↔
      FitsFrom rest (buffer line.agent).length line.incoming.reduceOption := by
  induction envs generalizing line rest with
  | nil =>
    rw [List.length_nil] at hlong
    obtain rfl : rest = [] := List.length_eq_zero_iff.mp (by omega)
    have hincoming : line.incoming = [] := List.length_eq_zero_iff.mp (by omega)
    have hwritten := h.written
    rw [show responses keys start (bound line.agent) [] = [] from rfl, List.append_nil] at hwritten
    rw [hincoming]
    exact ⟨fun _ => fitsFrom_nil _ _, fun _ => ⟨hwritten, h.consumed.trans h.started⟩⟩
  | cons env envs ih =>
    rcases h.step keys hcalm.1 with ⟨hclosed, hno⟩ | ⟨rest', hflow, hfits, hmeasure⟩
    · have hlast : Closed (envs.foldl (Line.step keys) (line.step keys env)) :=
        run_invariant (Line.step keys) Closed (fun _ env h => h.step keys env) _ envs hclosed
      constructor
      · rintro ⟨-, hopen⟩
        exact absurd (Eq.trans (Eq.symm hlast) hopen) (by decide)
      · exact fun hyes => absurd hyes hno
    · rw [List.length_cons] at hlong
      rw [hfits]
      exact ih hflow hcalm.2 (by omega)

/-- **The responses do not depend on the split exactly if no read takes the buffer past the
largest frame.** -/
theorem delivered_iff (start : Agent) (hstart : Fresh start) (messages : List (List UInt8))
    (hsized : ∀ message ∈ messages, Sized message) (hcount : messages.length ≤ MAX_MESSAGES)
    (hunsigned : Unsigned keys start none messages) (incoming : List (Option (List UInt8)))
    (hchunks : ∀ chunk, some chunk ∈ incoming → 1 ≤ chunk.length ∧ chunk.length ≤ 4096)
    (hwhole : incoming.reduceOption.flatten = wire messages) (envs : List Env)
    (hcalm : Along (Line.step keys) (fun line env => Calm line.agent env) ⟨start, incoming⟩ envs)
    (hlong : incoming.length + messages.length ≤ envs.length) :
    Delivered keys start messages (envs.foldl (Line.step keys) ⟨start, incoming⟩).agent ↔
      Fits messages incoming.reduceOption := by
  have hnonempty : ∀ chunk, some chunk ∈ incoming → chunk ≠ [] := by
    rintro chunk hmem rfl
    exact absurd (hchunks [] hmem).1 (by decide)
  have hbuffer : (buffer start).length = 0 := by rw [buffer, hstart.connection]; rfl
  have hrun := (hstart.flow keys hsized hcount hunsigned hnonempty hwhole).run keys hcalm hlong
  rw [hrun, hbuffer]
  exact Iff.rfl

/-! ## A largest frame and one more -/

/-- INTERNAL: keys that no frame here uses. -/
def someKeys : Keys Unit where
  decode := fun _ => none
  verify := fun _ _ => false
  rsa := false
  algorithm := Text.bytes "ssh-ed25519"
  sign := fun _ _ => none

/-- INTERNAL: an agent that waits. -/
def waiting : Agent := ⟨true, true, [1], [2], [3], true, none, false, 0, []⟩

/-- INTERNAL: polls at one time. -/
def calmly : Env := ⟨true, true, .peer true true, 0, 0, 0, .wouldBlock, true, true⟩

/-- INTERNAL: those polls are calm. -/
theorem calm_calmly (incoming : List (Option (List UInt8))) (n : ℕ) :
    Along (Line.step someKeys) (fun line env => Calm line.agent env) ⟨waiting, incoming⟩
      (List.replicate n calmly) := by
  apply @calm_of_times _ someKeys 0
  · intro env henv
    rw [List.eq_of_mem_replicate henv]
    exact ⟨rfl, rfl, rfl, rfl, Nat.le_refl 0, Nat.le_refl 0, by decide⟩
  · intro connection hconnection
    cases hconnection

theorem delivered_iff_sample : Delivered someKeys waiting [[11]]
      ((List.replicate 3 calmly).foldl (Line.step someKeys)
        ⟨waiting, [some [0, 0], some [0, 1, 11]]⟩).agent ↔
    Fits [[11]] [[0, 0], [0, 1, 11]] :=
  delivered_iff someKeys waiting ⟨rfl, rfl, rfl, rfl, rfl⟩ [[11]] (by unfold Sized; decide) (by decide)
    (by unfold Unsigned; decide) [some [0, 0], some [0, 1, 11]]
    (by
      intro chunk hchunk
      rcases List.mem_cons.mp hchunk with h | h
      · rw [Option.some.inj h]
        decide
      · rw [Option.some.inj (List.mem_singleton.mp h)]
        decide)
    (by decide) (List.replicate 3 calmly) (calm_calmly _ 3) (by decide)

/-- INTERNAL: the messages of the split below. -/
def twoMessages : List (List UInt8) := [List.replicate MAX_FRAME 0, [11]]

/-- INTERNAL: eight full reads, and one with the last four bytes of the first frame and the second
frame. -/
def coalesced : List (List UInt8) :=
  [[0, 0, 128, 0] ++ List.replicate 4092 0] ++ List.replicate 7 (List.replicate 4096 0) ++
    [List.replicate 4 0 ++ [0, 0, 0, 1, 11]]

/-- INTERNAL: the reads are the two frames. -/
theorem coalesced_flatten : coalesced.flatten = wire twoMessages := by
  have hzeros : List.replicate MAX_FRAME (0 : UInt8) =
      List.replicate 4092 0 ++ (List.replicate (7 * 4096) 0 ++ List.replicate 4 0) := by
    rw [List.replicate_append_replicate, List.replicate_append_replicate]
    rfl
  have hfull : (List.replicate 7 (List.replicate 4096 (0 : UInt8))).flatten = List.replicate (7 * 4096) 0 := by
    rw [List.flatten_replicate_replicate]
  have hheader : Frames.be 4 MAX_FRAME = [0, 0, 128, 0] := by decide
  have hlast : framed [11] = [0, 0, 0, 1, 11] := by decide
  rw [coalesced, List.flatten_append, List.flatten_append, List.flatten_singleton, List.flatten_singleton,
    hfull, wire, twoMessages, List.flatMap_cons, List.flatMap_singleton, hlast, framed, Frames.beFrame,
    List.length_replicate, hheader, hzeros]
  simp only [List.append_assoc]

/-- INTERNAL: the last read does not fit. -/
theorem coalesced_not_fits : ¬ Fits twoMessages coalesced := by
  intro hfits
  have hlast := hfits ([[0, 0, 128, 0] ++ List.replicate 4092 0] ++ List.replicate 7 (List.replicate 4096 0))
    (List.replicate 4 0 ++ [0, 0, 0, 1, 11]) [] rfl
  have hbefore : (([[0, 0, 128, 0] ++ List.replicate 4092 0] ++
      List.replicate 7 (List.replicate 4096 (0 : UInt8))).flatten).length = MAX_FRAME := by
    rw [List.flatten_append, List.flatten_singleton, List.flatten_replicate_replicate, List.length_append,
      List.length_append, List.length_replicate, List.length_replicate]
    rfl
  rw [hbefore, Nat.zero_add, twoMessages, held_partial (by rw [List.length_replicate]; omega),
    List.length_append, List.length_replicate] at hlast
  simp only [List.length_cons, List.length_nil] at hlast
  omega

/-- Two frames of sizes that are allowed, in reads of at most 4096 bytes, are not answered. -/
theorem coalesced_closed :
    (∀ message ∈ twoMessages, Sized message) ∧ twoMessages.length ≤ MAX_MESSAGES ∧
      Unsigned someKeys waiting none twoMessages ∧
      (∀ chunk, some chunk ∈ coalesced.map some → 1 ≤ chunk.length ∧ chunk.length ≤ 4096) ∧
      (coalesced.map some).reduceOption.flatten = wire twoMessages ∧
      Along (Line.step someKeys) (fun line env => Calm line.agent env) ⟨waiting, coalesced.map some⟩
        (List.replicate 11 calmly) ∧
      ¬ Delivered someKeys waiting twoMessages
        ((List.replicate 11 calmly).foldl (Line.step someKeys) ⟨waiting, coalesced.map some⟩).agent := by
  have hsized : ∀ message ∈ twoMessages, Sized message := by
    intro message hmessage
    rcases List.mem_cons.mp hmessage with rfl | hmessage
    · rw [Sized, List.length_replicate]
      exact ⟨by decide, Nat.le_refl _⟩
    · rw [List.mem_singleton.mp hmessage]
      exact ⟨by decide, by decide⟩
  have hunsigned : Unsigned someKeys waiting none twoMessages := by
    have hzero : waiting.reply someKeys (List.replicate MAX_FRAME 0) none = ⟨[5], false, none⟩ := by
      rw [show MAX_FRAME = 32767 + 1 from rfl, List.replicate_succ]
      rfl
    unfold Unsigned twoMessages
    rw [replies_cons, hzero]
    decide
  have hchunks : ∀ chunk, some chunk ∈ coalesced.map some → 1 ≤ chunk.length ∧ chunk.length ≤ 4096 := by
    intro chunk hchunk
    obtain ⟨chunk', hmem, heq⟩ := List.mem_map.mp hchunk
    obtain rfl := Option.some.inj heq
    rcases List.mem_append.mp hmem with hmem | hmem
    · rcases List.mem_append.mp hmem with hmem | hmem
      · rw [List.mem_singleton.mp hmem, List.length_append, List.length_replicate]
        decide
      · rw [List.eq_of_mem_replicate hmem, List.length_replicate]
        decide
    · rw [List.mem_singleton.mp hmem, List.length_append, List.length_replicate]
      decide
  have hreduce : (coalesced.map some).reduceOption = coalesced := by
    rw [List.reduceOption, List.filterMap_map]
    exact List.filterMap_some
  have hwhole : (coalesced.map some).reduceOption.flatten = wire twoMessages := by
    rw [hreduce, coalesced_flatten]
  have hcalm := calm_calmly (coalesced.map some) 11
  refine ⟨hsized, by decide, hunsigned, hchunks, hwhole, hcalm, ?_⟩
  have hnonempty : ∀ chunk, some chunk ∈ coalesced.map some → chunk ≠ [] := by
    rintro chunk hmem rfl
    exact absurd (hchunks [] hmem).1 (by decide)
  have hfresh : Fresh waiting := ⟨rfl, rfl, rfl, rfl, rfl⟩
  have hflow := hfresh.flow someKeys hsized (by decide) hunsigned hnonempty hwhole
  rw [hflow.run someKeys hcalm (by decide), hreduce]
  exact coalesced_not_fits

/-- **Frames that arrive alone fit.** -/
theorem fits_alone (messages : List (List UInt8)) (hsized : ∀ message ∈ messages, Sized message)
    (pieces : List UInt8 → List (List UInt8))
    (hpieces : ∀ message ∈ messages, (pieces message).flatten = framed message ∧ [] ∉ pieces message) :
    Fits messages (messages.flatMap pieces) := by
  induction messages with
  | nil => exact fitsFrom_nil _ _
  | cons message rest ih =>
    obtain ⟨hflatten, hnonempty⟩ := hpieces message List.mem_cons_self
    have hlength := congrArg List.length hflatten
    rw [length_framed] at hlength
    have hrest := ih (fun m hm => hsized m (List.mem_cons_of_mem message hm))
      (fun m hm => hpieces m (List.mem_cons_of_mem message hm))
    intro before chunk after heq
    rw [List.flatMap_cons] at heq
    rcases List.append_eq_append_iff.mp heq with ⟨left, rfl, hright⟩ | ⟨left, hleft, hright⟩
    · -- a read of a later frame
      have hlater := hrest left chunk after hright
      rw [Nat.zero_add] at hlater
      rw [List.flatten_append, List.length_append, hlength, Nat.zero_add, held, if_pos (by omega),
        Nat.add_sub_cancel_left]
      exact hlater
    · cases left with
      | nil =>
        have hlater := hrest [] chunk after hright.symm
        rw [List.append_nil] at hleft
        rw [← hleft, hlength, Nat.zero_add, held, if_pos (Nat.le_refl _), Nat.sub_self]
        exact hlater
      | cons first left =>
        obtain ⟨rfl, -⟩ := List.cons.inj hright
        rw [hleft, List.flatten_append, List.length_append, List.flatten_cons, List.length_append] at hlength
        have hpositive : 0 < chunk.length := by
          apply List.length_pos_iff.mpr
          rintro rfl
          exact hnonempty (by rw [hleft]; simp)
        have hlimit := (hsized message List.mem_cons_self).2
        rw [Nat.zero_add, held_partial (by omega)]
        omega

end VaultAccess.Analysis.SshAgents
