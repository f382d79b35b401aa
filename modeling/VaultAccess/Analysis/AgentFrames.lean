import VaultAccess.Analysis.Canonical
import VaultAccess.Analysis.Sizes
import VaultAccess.Library.Lists
import VaultAccess.Model.AgentSocket

/-!
# Frames between agents and the provider

What `read_frame` takes from a stream depends on the bytes alone and not on how they come in
pieces: it is the one line that the stream is. A message that a client sends is the message the
server reads, and every response of the server is the response the client reads.
-/

set_option autoImplicit false

namespace VaultAccess.Analysis.AgentFrames

open VaultAccess.Library VaultAccess.Model VaultAccess.Model.AgentSocket
open VaultAccess.Model.Application (AgentStatus)

/-! ## One line -/

/-- A piece of a stream that came in time. -/
structure Part (deadline : ℕ) where
  asked : ℕ
  came : ℕ
  bytes : List UInt8
  timely : asked < deadline ∧ came < deadline
  nonempty : bytes ≠ []
  fits : bytes.length ≤ 4096

def Part.read {deadline : ℕ} (part : Part deadline) : StreamRead := ⟨part.asked, part.came, some part.bytes⟩

/-- A stream that came in pieces and ended in time. -/
structure Arrival (deadline : ℕ) where
  parts : List (Part deadline)
  asked : ℕ
  came : ℕ
  timely : asked < deadline ∧ came < deadline

def Arrival.reads {deadline : ℕ} (arrival : Arrival deadline) : List StreamRead :=
  arrival.parts.map Part.read ++ [⟨arrival.asked, arrival.came, some []⟩]

def Arrival.bytes {deadline : ℕ} (arrival : Arrival deadline) : List UInt8 :=
  (arrival.parts.map Part.bytes).flatten

/-- One line of at most so many bytes, not empty and without a carriage return before its line
feed. -/
structure Line (limit : ℕ) (p data : List UInt8) : Prop where
  ends : data = p ++ [0x0a]
  nonempty : p ≠ []
  single : 0x0a ∉ p
  bare : p.getLast? ≠ some 0x0d
  fits : data.length ≤ limit

/-- INTERNAL: the line feed of a line is its last byte. -/
theorem Line.cut {limit : ℕ} {p : List UInt8} (front back : List UInt8) (h : Line limit p (front ++ 0x0a :: back)) :
    p = front ∧ back = [] := by
  rcases List.append_eq_append_iff.mp h.ends with ⟨rest, hp, hrest⟩ | ⟨rest, hfront, hrest⟩
  · cases rest with
    | nil => exact ⟨by simpa using hp, by simpa using hrest⟩
    | cons b rest =>
      exfalso
      apply h.single
      rw [List.cons_append, List.cons.injEq] at hrest
      rw [hp, ← hrest.1]
      simp
  · cases rest with
    | nil => exact ⟨by simpa using hfront.symm, by simpa using hrest.symm⟩
    | cons b rest => simp at hrest

/-- INTERNAL: the end of a stream after a line feed. -/
theorem endOfFrame_ok_iff {limit : ℕ} {front p : List UInt8} (hfront : 0x0a ∉ front)
    (hlimit : (front ++ [0x0a]).length ≤ limit) :
    endOfFrame (front ++ [0x0a]) true = .ok p ↔ Line limit p (front ++ [0x0a]) := by
  unfold endOfFrame
  simp only [Bool.not_true, Bool.false_or, List.getLast?_append, List.getLast?_singleton,
    Option.some_or, ne_eq, not_true_eq_false, decide_false, List.dropLast_concat, Bool.or_eq_true,
    List.isEmpty_iff, decide_eq_true_eq]
  constructor
  · intro h
    split_ifs at h with hbad
    rw [← Except.ok.inj h]
    exact ⟨rfl, fun hnil => hbad (.inl hnil), hfront, fun hlast => hbad (.inr hlast), hlimit⟩
  · intro h
    obtain ⟨rfl, -⟩ := Line.cut _ _ h
    rw [if_neg]
    rintro (hnil | hlast)
    · exact h.nonempty hnil
    · exact h.bare hlast

/-- INTERNAL: where the first line feed of a piece stands. -/
theorem split_of_findIdx {chunk : List UInt8} {index : ℕ} (h : chunk.findIdx? (· = 0x0a) = some index) :
    ∃ front back, chunk = front ++ 0x0a :: back ∧ 0x0a ∉ front ∧ front.length = index := by
  obtain ⟨hlt, hat, hbefore⟩ := List.findIdx?_eq_some_iff_getElem.mp h
  refine ⟨chunk.take index, chunk.drop (index + 1), ?_, ?_, ?_⟩
  · have hbyte : chunk[index] = 0x0a := by simpa using hat
    rw [← hbyte, ← List.drop_eq_getElem_cons hlt, List.take_append_drop]
  · intro hmem
    obtain ⟨j, hj, heq⟩ := List.mem_iff_getElem.mp hmem
    rw [List.length_take] at hj
    have hne := hbefore j (by omega)
    rw [List.getElem_take] at heq
    simp [heq] at hne
  · rw [List.length_take]
    omega

/-- INTERNAL: after a line feed only the end of the stream may come. -/
theorem readLoop_sawLf_iff {limit deadline : ℕ} (parts : List (Part deadline)) (last : StreamRead)
    (hlast : last.chunk = some []) (htimely : last.asked < deadline ∧ last.came < deadline)
    {front p : List UInt8} (hfront : 0x0a ∉ front) (hlimit : (front ++ [0x0a]).length ≤ limit) :
    readLoop limit deadline (front ++ [0x0a]) true (parts.map Part.read ++ [last]) = .ok p ↔
      Line limit p (front ++ [0x0a] ++ (parts.map Part.bytes).flatten) := by
  cases parts with
  | nil =>
    simp only [List.map_nil, List.nil_append, List.flatten_nil, List.append_nil, readLoop, hlast,
      Nat.not_le.mpr htimely.1, Nat.not_le.mpr htimely.2, if_false, List.isEmpty_nil, if_true]
    exact endOfFrame_ok_iff hfront hlimit
  | cons part parts =>
    have hempty : part.bytes.isEmpty = false := by simpa using part.nonempty
    simp only [List.map_cons, List.cons_append, readLoop, Part.read, Nat.not_le.mpr part.timely.1,
      Nat.not_le.mpr part.timely.2, if_false, hempty, Bool.false_eq_true, Bool.true_or, if_true,
      reduceCtorEq, false_iff, List.flatten_cons, List.append_assoc, List.nil_append]
    intro h
    have hcut := (Line.cut _ _ h).2
    exact part.nonempty (List.append_eq_nil_iff.mp hcut).1

/-- INTERNAL: the loop, from what it has read so far. -/
theorem readLoop_iff {limit deadline : ℕ} (parts : List (Part deadline)) (last : StreamRead)
    (hlast : last.chunk = some []) (htimely : last.asked < deadline ∧ last.came < deadline)
    (data p : List UInt8) (hdata : 0x0a ∉ data) :
    readLoop limit deadline data false (parts.map Part.read ++ [last]) = .ok p ↔
      Line limit p (data ++ (parts.map Part.bytes).flatten) := by
  induction parts generalizing data with
  | nil =>
    have hend : readLoop limit deadline data false [last] = .error ⟨⟩ := by
      simp [readLoop, hlast, endOfFrame]
    simp only [List.map_nil, List.nil_append, List.flatten_nil, List.append_nil, hend, reduceCtorEq,
      false_iff]
    intro h
    apply hdata
    rw [h.ends]
    simp
  | cons part parts ih =>
    have hempty : part.bytes.isEmpty = false := by simpa using part.nonempty
    simp only [List.map_cons, List.cons_append, readLoop, Part.read, Nat.not_le.mpr part.timely.1,
      Nat.not_le.mpr part.timely.2, if_false, hempty, Bool.false_eq_true, Bool.false_or,
      decide_eq_true_eq, List.flatten_cons]
    split_ifs with hlong
    · -- too long already
      rw [false_iff]
      intro h
      have hfits := h.fits
      simp only [List.length_append] at hfits
      omega
    · cases hindex : part.bytes.findIdx? (· = 0x0a) with
      | none =>
        have hnone : 0x0a ∉ part.bytes := by
          intro hmem
          simpa using List.findIdx?_eq_none_iff.mp hindex _ hmem
        simp only []
        rw [ih (data ++ part.bytes) (by simp [hdata, hnone]), List.append_assoc]
      | some index =>
        obtain ⟨front, back, hsplit, hfront, hindex⟩ := split_of_findIdx hindex
        have hbefore : 0x0a ∉ data ++ front := by simp [hdata, hfront]
        simp only []
        split_ifs with hmore
        · rw [false_iff]
          intro h
          rw [hsplit] at h hmore
          have hcut := (Line.cut (data ++ front) (back ++ (parts.map Part.bytes).flatten) (by simpa using h)).2
          rw [(List.append_eq_nil_iff.mp hcut).1] at hmore
          simp [hindex] at hmore
        · have hback : back = [] := by
            rw [hsplit, List.length_append, List.length_cons] at hmore
            apply List.eq_nil_of_length_eq_zero
            omega
          subst hback
          have hfits : (data ++ front ++ [0x0a]).length ≤ limit := by
            rw [List.append_assoc, ← hsplit, List.length_append]
            omega
          have hrest := readLoop_sawLf_iff (p := p) parts last hlast htimely hbefore hfits
          rw [hsplit]
          simpa only [List.append_assoc] using hrest

/-- **A frame is the one line that the stream is**, however it came in pieces. -/
theorem readFrame_iff {limit deadline : ℕ} (arrival : Arrival deadline) (p : List UInt8) :
    readFrame limit deadline arrival.reads = .ok p ↔ Line limit p arrival.bytes :=
  readLoop_iff arrival.parts ⟨arrival.asked, arrival.came, some []⟩ rfl arrival.timely [] p (by simp)

/-- INTERNAL: a document on a line. -/
theorem lineFrame_ok {limit : ℕ} {document : Json} {frame : List UInt8}
    (h : lineFrame limit document = .ok frame) : Line limit document.toVec frame := by
  unfold lineFrame at h
  dsimp only at h
  split_ifs at h with hlong
  rw [← Except.ok.inj h]
  refine ⟨rfl, Json.toVec_ne_nil document, ?_, ?_, Nat.not_lt.mp hlong⟩
  · intro hmem
    have := Json.printable_toVec document _ hmem
    contradiction
  · intro hlast
    have := Json.printable_toVec document _ (List.mem_of_getLast? hlast)
    contradiction

/-- INTERNAL: a frame that was written is read, however it comes. -/
theorem readFrame_lineFrame {limit deadline : ℕ} {document : Json} {frame : List UInt8}
    (h : lineFrame limit document = .ok frame) (arrival : Arrival deadline)
    (hbytes : arrival.bytes = frame) :
    readFrame limit deadline arrival.reads = .ok document.toVec := by
  rw [readFrame_iff, hbytes]
  exact lineFrame_ok h

/-! ## Messages -/

theorem readVersion (version : UInt8) :
    Json.readNat 256 (Json.nat version.toNat) = some version.toNat := Json.readNat_int version.toNat_lt

theorem ofJson_toJson_submission (m : SignedSubmission) : SignedSubmission.ofJson m.toJson = some m := by
  have hmembers : SignedSubmission.ofJson m.toJson =
      (Json.readNat 256 (Json.nat m.protocolVersion.toNat)).bind fun version =>
        (readTexts (Json.texts m.args)).bind fun args =>
          some { m with protocolVersion := UInt8.ofNat version, args } := rfl
  rw [hmembers, readVersion, readTexts_texts, Option.bind_some, Option.bind_some, UInt8.ofNat_toNat]

theorem ofJson_toJson_query (m : SignedStatusQuery) : SignedStatusQuery.ofJson m.toJson = some m := by
  have hmembers : SignedStatusQuery.ofJson m.toJson =
      (Json.readNat 256 (Json.nat m.protocolVersion.toNat)).bind fun version =>
        some { m with protocolVersion := UInt8.ofNat version } := rfl
  rw [hmembers, readVersion, Option.bind_some, UInt8.ofNat_toNat]

/-- INTERNAL: a status query is no submission, and either message is read back. -/
theorem ofJson_toJson_envelope (message : AgentEnvelope) :
    AgentEnvelope.ofJson message.toJson = some message := by
  cases message with
  | submission input =>
    simp only [AgentEnvelope.ofJson, AgentEnvelope.toJson, ofJson_toJson_submission, Option.map_some,
      Option.some_or]
  | status input =>
    have hother : SignedSubmission.ofJson input.toJson = none := rfl
    simp only [AgentEnvelope.ofJson, AgentEnvelope.toJson, hother, ofJson_toJson_query,
      Option.map_none, Option.map_some, Option.none_or]

/-- INTERNAL: the integers of a message are small, and it is not nested deep. -/
theorem fits_envelope (message : AgentEnvelope) : message.toJson.fits 127 = true := by
  have hversion : ∀ version : UInt8, version.toNat < 18446744073709551616 := by
    intro version
    have := version.toNat_lt
    omega
  cases message with
  | submission input =>
    simp [AgentEnvelope.toJson, SignedSubmission.toJson, Json.texts, Json.nat, Json.fits, hversion]
  | status input =>
    simp [AgentEnvelope.toJson, SignedStatusQuery.toJson, Json.nat, Json.fits, hversion]

/-- **A message that is sent is the message that is read.** -/
theorem parseEnvelope_toVec (J : Json.Reader) {message : AgentEnvelope} {frame : List UInt8}
    (hvalid : message.validate = .ok ()) (hframe : requestFrame message = .ok frame) :
    parseEnvelope J message.toJson.toVec = .ok message := by
  have hfits := (lineFrame_ok hframe).fits
  rw [(lineFrame_ok hframe).ends, List.length_append] at hfits
  unfold parseEnvelope
  rw [if_neg (by omega), J.reads _ (fits_envelope message), Option.bind_some, ofJson_toJson_envelope]
  simp only [hvalid]
  rfl

/-! ## Responses -/

/-- A state that the client's reader takes: an exit code of eight bits. -/
def Small : AgentStatus → Prop
  | .completed exitCode => 0 ≤ exitCode ∧ exitCode ≤ 255
  | _ => True

/-- A response of this version, about a request with an identifier. -/
def Sound : AgentResponse → Prop
  | .pending version requestId => version.toNat = PROTOCOL_VERSION ∧ validRequestId requestId = true
  | .status version requestId state =>
    version.toNat = PROTOCOL_VERSION ∧ validRequestId requestId = true ∧ Small state
  | .rejected version _ => version.toNat = PROTOCOL_VERSION

theorem Sound.valid {response : AgentResponse} (h : Sound response) : validResponse response = true := by
  cases response with
  | pending version requestId => simp [validResponse, h.1, h.2]
  | status version requestId state => simp [validResponse, h.1, h.2.1]
  | rejected version category => exact decide_eq_true h

theorem readAgentFailure_toJson (category : DirectFailure) :
    readAgentFailure category.toJson = some category := by
  cases category <;> rfl

theorem readRejection_toJson (category : AgentRejection) :
    readUnit AgentRejection.names category.toJson = some category := by
  cases category <;> rfl

/-- INTERNAL: a state is read back by the strict reader if its exit code has eight bits. -/
theorem ofJson_toJson_status {state : AgentStatus} (h : Small state) :
    AgentStatus.ofJson state.toJson = some state := by
  cases state with
  | pending => rfl
  | approved => rfl
  | running => rfl
  | denied => rfl
  | expired => rfl
  | completed exitCode =>
    obtain ⟨code, rfl⟩ := Int.eq_ofNat_of_zero_le h.1
    have hcode : code < 256 := by
      have := h.2
      omega
    have hmembers : AgentStatus.ofJson (AgentStatus.toJson (.completed code)) =
        (Json.readNat 256 (.int code)).bind fun code => some (.completed code) := rfl
    rw [hmembers, Json.readNat_int hcode, Option.bind_some]
  | failed category =>
    have hmembers : AgentStatus.ofJson (AgentStatus.toJson (.failed category)) =
        (readAgentFailure category.toJson).bind fun category => some (.failed category) := rfl
    rw [hmembers, readAgentFailure_toJson, Option.bind_some]

theorem ofJson_toJson_response {response : AgentResponse} (h : Sound response) :
    AgentResponse.ofJson response.toJson = some response := by
  cases response with
  | pending version requestId =>
    have hmembers : AgentResponse.ofJson (AgentResponse.toJson (.pending version requestId)) =
        (Json.readNat 256 (Json.nat version.toNat)).bind fun version =>
          some (.pending (UInt8.ofNat version) requestId) := rfl
    rw [hmembers, readVersion, Option.bind_some, UInt8.ofNat_toNat]
  | status version requestId state =>
    have hmembers : AgentResponse.ofJson (AgentResponse.toJson (.status version requestId state)) =
        (Json.readNat 256 (Json.nat version.toNat)).bind fun version =>
          (AgentStatus.ofJson state.toJson).bind fun state =>
            some (.status (UInt8.ofNat version) requestId state) := rfl
    rw [hmembers, readVersion, ofJson_toJson_status h.2.2, Option.bind_some, Option.bind_some,
      UInt8.ofNat_toNat]
  | rejected version category =>
    have hmembers : AgentResponse.ofJson (AgentResponse.toJson (.rejected version category)) =
        (Json.readNat 256 (Json.nat version.toNat)).bind fun version =>
          (readUnit AgentRejection.names category.toJson).bind fun category =>
            some (.rejected (UInt8.ofNat version) category) := rfl
    rw [hmembers, readVersion, readRejection_toJson, Option.bind_some, Option.bind_some,
      UInt8.ofNat_toNat]

/-- INTERNAL: the text of a state. -/
theorem size_status_le {state : AgentStatus} (h : Small state) : state.toJson.size ≤ 80 := by
  cases state with
  | pending => decide
  | approved => decide
  | running => decide
  | denied => decide
  | expired => decide
  | completed exitCode =>
    obtain ⟨code, rfl⟩ := Int.eq_ofNat_of_zero_le h.1
    have hcode : (Json.int code).size ≤ 3 := by
      have := h.2
      exact Json.size_nat_le (by decide) (by omega)
    have hname : Json.weight (Json.quote "status") = 8 := by decide
    have htag : (Json.str "completed").size = 11 := by decide
    have hname' : Json.weight (Json.quote "exit_code") = 11 := by decide
    have hsize := Json.size_obj_le [("status", .str "completed"), ("exit_code", .int code)]
    simp only [List.map_cons, List.map_nil, List.sum_cons, List.sum_nil] at hsize
    simp only [AgentStatus.toJson]
    omega
  | failed category => cases category <;> decide

theorem size_version_le (version : UInt8) : (Json.nat version.toNat).size ≤ 3 :=
  Json.size_nat_le (by decide) (by
    have := version.toNat_lt
    omega)

/-- INTERNAL: the text of a response. -/
theorem size_response_le {response : AgentResponse} (h : Sound response) :
    response.toJson.size ≤ 240 := by
  have hstatus : Json.weight (Json.quote "status") = 8 := by decide
  have hversion : Json.weight (Json.quote "protocol_version") = 18 := by decide
  have hrequest : Json.weight (Json.quote "request_id") = 12 := by decide
  cases response with
  | pending version requestId =>
    have hnumber := size_version_le version
    have hid := weight_quote_requestId h.2
    have htag : Json.weight (Json.quote "pending") = 9 := by decide
    have hsize := Json.size_obj_le [("status", .str "pending"),
      ("protocol_version", Json.nat version.toNat), ("request_id", .str requestId)]
    simp only [List.map_cons, List.map_nil, List.sum_cons, List.sum_nil, size_str] at hsize
    simp only [AgentResponse.toJson]
    omega
  | status version requestId state =>
    have hnumber := size_version_le version
    have hid := weight_quote_requestId h.2.1
    have hstate := size_status_le h.2.2
    have hname : Json.weight (Json.quote "state") = 7 := by decide
    have hsize := Json.size_obj_le [("status", .str "status"),
      ("protocol_version", Json.nat version.toNat), ("request_id", .str requestId),
      ("state", state.toJson)]
    simp only [List.map_cons, List.map_nil, List.sum_cons, List.sum_nil, size_str] at hsize
    simp only [AgentResponse.toJson]
    omega
  | rejected version category =>
    have hnumber := size_version_le version
    have htag : Json.weight (Json.quote "rejected") = 10 := by decide
    have hname : Json.weight (Json.quote "category") = 10 := by decide
    have hcategory : category.toJson.size ≤ 21 := by cases category <;> decide
    have hsize := Json.size_obj_le [("status", .str "rejected"),
      ("protocol_version", Json.nat version.toNat), ("category", category.toJson)]
    simp only [List.map_cons, List.map_nil, List.sum_cons, List.sum_nil, size_str] at hsize
    simp only [AgentResponse.toJson]
    omega

/-- INTERNAL: the integers of a response are small, and it is not nested deep. -/
theorem fits_response {response : AgentResponse} (h : Sound response) :
    response.toJson.fits 127 = true := by
  cases response with
  | pending version requestId =>
    have := version.toNat_lt
    simp [AgentResponse.toJson, Json.nat, Json.fits]
    omega
  | status version requestId state =>
    have hversion := version.toNat_lt
    have hstate : state.toJson.fits 126 = true := by
      cases state with
      | completed exitCode =>
        have := h.2.2.1
        have := h.2.2.2
        simp [AgentStatus.toJson, Json.fits]
        omega
      | failed category => cases category <;> rfl
      | _ => rfl
    simp [AgentResponse.toJson, Json.nat, Json.fits, hstate]
    omega
  | rejected version category =>
    have := version.toNat_lt
    have hcategory : category.toJson.fits 126 = true := by cases category <;> rfl
    simp [AgentResponse.toJson, Json.nat, Json.fits, hcategory]
    omega

/-- **A sound response is never too long, and is the response the client reads.** -/
theorem responseFrame_ok (J : Json.Reader) {response : AgentResponse} (h : Sound response) :
    ∃ frame, responseFrame response = .ok frame ∧
      parseResponse J response.toJson.toVec = .ok response := by
  have hsize := size_response_le h
  have hlength := Json.length_toVec response.toJson
  refine ⟨response.toJson.toVec ++ [0x0a], ?_, ?_⟩
  · unfold responseFrame lineFrame
    dsimp only
    rw [if_neg]
    simp only [List.length_append, List.length_singleton, MAX_RESPONSE_FRAME_BYTES]
    omega
  · unfold parseResponse
    rw [if_neg (by simp only [MAX_RESPONSE_FRAME_BYTES]; omega), J.reads _ (fits_response h),
      Option.bind_some, ofJson_toJson_response h]
    simp only [h.valid, if_true]

end VaultAccess.Analysis.AgentFrames
