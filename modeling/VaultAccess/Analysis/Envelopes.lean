import VaultAccess.Library.Encoding
import VaultAccess.Model.Protocol

/-!
# What an agent's signature covers

The bytes of an envelope are a fixed head, then fields with their length in front, then for a
submission the counted list of its arguments. Every field is a text, the bytes of an id in
its canonical form or the bytes of a digest, so that the bytes tell every field of the
envelope but the signature, and tell a submission from a status query.
-/

set_option autoImplicit false

namespace VaultAccess.Analysis

open VaultAccess.Library VaultAccess.Library.Text VaultAccess.Library.Frames VaultAccess.Model

/-! ## Fields -/

theorem toBeBytes_eq (n : ℕ) : toBeBytes n = be 4 n := by
  have htwo : n / 65536 = n / 256 / 256 := by omega
  have hthree : n / 16777216 = n / 256 / 256 / 256 := by omega
  simp only [toBeBytes, be, le, List.reverse_cons, List.reverse_nil, List.nil_append,
    List.cons_append, hthree, htwo]

theorem appendField_eq (data value : List UInt8) : appendField data value = data ++ beFrame value := by
  rw [appendField, beFrame, toBeBytes_eq, List.append_assoc]

/-- INTERNAL: fields are appended one after the other. -/
theorem foldl_appendField (data : List UInt8) (fields : List (List UInt8)) :
    fields.foldl appendField data = data ++ fields.flatMap beFrame := by
  induction fields generalizing data with
  | nil => simp
  | cons field fields ih =>
    rw [List.foldl_cons, ih, appendField_eq, List.flatMap_cons, List.append_assoc]

/-- INTERNAL: a decoded id is written back. -/
theorem decodeFixed_ok {n : ℕ} {value : String} {data : Vector UInt8 n}
    (h : decodeFixed n value = .ok data) : encodeUrlSafe data.toList = value := by
  unfold decodeFixed at h
  split at h
  · exact absurd h (by simp)
  · rename_i decoded hdecoded
    split_ifs at h with hcanonical hsize
    rw [← Except.ok.inj h]
    simpa using hcanonical

theorem decodeFixed_inj {n : ℕ} {value value' : String} {data data' : Vector UInt8 n}
    (h : decodeFixed n value = .ok data) (h' : decodeFixed n value' = .ok data')
    (heq : data.toList = data'.toList) : value = value' := by
  rw [← decodeFixed_ok h, ← decodeFixed_ok h', heq]

/-! ## Hexadecimal digests -/

/-- The bytes of the lowercase hexadecimal digits. -/
def hexBytes : List UInt8 := bytes "0123456789abcdef"

/-- INTERNAL: the hexadecimal digits of a text are among the digits. -/
theorem mem_hexBytes {text : List Char} (h : ∀ c ∈ text, isLowerHex c = true) :
    ∀ b ∈ utf8 text, b ∈ hexBytes := by
  intro b hb
  obtain ⟨c, hc, hbyte⟩ := List.mem_flatMap.mp hb
  have hrange := (isLowerHex_iff c).mp (h c hc)
  have hsmall : c.toNat < 128 := by omega
  rw [utf8EncodeChar_of_utf8Size (utf8Size_eq_one_iff.mpr hsmall), List.mem_singleton] at hbyte
  subst hbyte
  have hall : ∀ k : Fin 128, (48 ≤ k.val ∧ k.val ≤ 57) ∨ (97 ≤ k.val ∧ k.val ≤ 102) →
      UInt8.ofNat k.val ∈ hexBytes := by decide +kernel
  exact hall ⟨c.toNat, hsmall⟩ hrange

/-- INTERNAL: two digits are told by the byte they stand for. -/
theorem hexPair_inj {high low high' low' : UInt8} (hh : high ∈ hexBytes) (hl : low ∈ hexBytes)
    (hh' : high' ∈ hexBytes) (hl' : low' ∈ hexBytes)
    (h : hexNibble high <<< 4 ||| hexNibble low = hexNibble high' <<< 4 ||| hexNibble low') :
    high = high' ∧ low = low' := by
  have hvalue : ∀ a ∈ hexBytes, ∀ b ∈ hexBytes,
      (hexNibble a <<< 4 ||| hexNibble b).toNat = 16 * (hexNibble a).toNat + (hexNibble b).toNat := by
    decide +kernel
  have hsmall : ∀ a ∈ hexBytes, (hexNibble a).toNat < 16 := by decide +kernel
  have hinj : ∀ a ∈ hexBytes, ∀ b ∈ hexBytes, (hexNibble a).toNat = (hexNibble b).toNat → a = b := by
    decide +kernel
  have hnat := congrArg UInt8.toNat h
  rw [hvalue high hh low hl, hvalue high' hh' low' hl'] at hnat
  have := hsmall low hl
  have := hsmall low' hl'
  constructor
  · apply hinj high hh high' hh'
    omega
  · apply hinj low hl low' hl'
    omega

/-- INTERNAL: digits are told by the bytes they stand for. -/
theorem hexPairs_inj : ∀ {digits digits' : List UInt8}, (∀ b ∈ digits, b ∈ hexBytes) →
    (∀ b ∈ digits', b ∈ hexBytes) → digits.length = digits'.length → 2 ∣ digits.length →
    hexPairs digits = hexPairs digits' → digits = digits'
  | [], digits', _, _, hlength, _, _ => (List.length_eq_zero_iff.mp hlength.symm).symm
  | [b], _, _, _, _, heven, _ => by
    rw [List.length_singleton] at heven
    omega
  | high :: low :: digits, digits', hall, hall', hlength, heven, heq => by
    match digits', hlength with
    | high' :: low' :: digits', hlength =>
      simp only [List.mem_cons, forall_eq_or_imp] at hall hall'
      simp only [hexPairs, List.cons.injEq] at heq
      obtain ⟨rfl, rfl⟩ := hexPair_inj hall.1 hall.2.1 hall'.1 hall'.2.1 heq.1
      simp only [List.length_cons] at hlength heven
      have hrest : digits.length = digits'.length := by omega
      rw [hexPairs_inj hall.2.2 hall'.2.2 hrest (by omega) heq.2]

/-- INTERNAL: digests are told by their bytes. -/
theorem sha256_inj {value value' : String} (h : validSha256 value = true) (h' : validSha256 value' = true)
    (heq : hexPairs (bytes value) = hexPairs (bytes value')) : value = value' := by
  simp only [validSha256, Bool.and_eq_true, decide_eq_true_eq, List.all_eq_true] at h h'
  have hlength : (bytes value).length = 64 := by rw [length_bytes, h.1]
  have hlength' : (bytes value').length = 64 := by rw [length_bytes, h'.1]
  have hdigits : ∀ b ∈ bytes value, b ∈ hexBytes := mem_hexBytes h.2
  have hdigits' : ∀ b ∈ bytes value', b ∈ hexBytes := mem_hexBytes h'.2
  apply bytes_injective
  exact hexPairs_inj hdigits hdigits' (by rw [hlength, hlength']) (by omega) heq

/-- INTERNAL: two digits a byte. -/
theorem length_hexPairs_le : ∀ digits : List UInt8, (hexPairs digits).length ≤ digits.length
  | [] => Nat.le_refl _
  | [_] => Nat.zero_le _
  | _ :: _ :: digits => by
    have := length_hexPairs_le digits
    simp only [hexPairs, List.length_cons]
    omega

/-! ## The bytes of an envelope -/

/-- What every envelope begins with. -/
def signingStart (protocolVersion : UInt8) : List UInt8 :=
  SIGNING_DOMAIN ++ [ENCODING_VERSION, protocolVersion]

/-- INTERNAL: the fields of an id are decoded. -/
theorem validEnvelope_ok {bindingId nonce signature : String}
    (h : validEnvelope bindingId nonce signature = .ok ()) :
    ∃ binding nonceBytes, decodeFixed 32 bindingId = .ok binding ∧ decodeFixed 32 nonce = .ok nonceBytes := by
  unfold validEnvelope at h
  cases hbinding : decodeFixed 32 bindingId with
  | error e => simp [hbinding, bind, Except.bind] at h
  | ok binding =>
    cases hnonce : decodeFixed 32 nonce with
    | error e => simp [hbinding, hnonce, bind, Except.bind] at h
    | ok nonceBytes => exact ⟨binding, nonceBytes, rfl, rfl⟩

/-- INTERNAL: the head of an envelope. -/
theorem signingHead_ok {bindingId nonce : String} {binding nonceBytes : Vector UInt8 32}
    (hbinding : decodeFixed 32 bindingId = .ok binding) (hnonce : decodeFixed 32 nonce = .ok nonceBytes)
    (protocolVersion : UInt8) (purpose : String) :
    signingHead protocolVersion purpose bindingId nonce = .ok (signingStart protocolVersion ++
      [bytes purpose, binding.toList, nonceBytes.toList].flatMap beFrame) := by
  simp [signingHead, hbinding, hnonce, bind, Except.bind, pure, Except.pure, appendField_eq,
    signingStart]

/-- What a valid submission satisfies. -/
structure ValidSubmission (m : SignedSubmission) : Prop where
  version : m.protocolVersion = 1
  purpose : m.purpose = "submit"
  operation : (bytes m.operationId).length ≤ 64
  revision : validSha256 m.expectedPolicyRevision = true
  count : m.args.length ≤ 64
  args : ∀ arg ∈ m.args, (bytes arg).length ≤ 4096
  ids : validEnvelope m.bindingId m.nonce m.signature = .ok ()

/-- INTERNAL: the checks of a submission. -/
theorem validSubmission {m : SignedSubmission} (h : m.validate = .ok ()) : ValidSubmission m := by
  unfold SignedSubmission.validate at h
  split_ifs at h with hversion hfields
  simp only [Bool.or_eq_true, not_or, Bool.not_eq_true', Bool.not_eq_false, decide_eq_true_eq,
    not_lt, ne_eq, Decidable.not_not, List.any_eq_true, not_exists, not_and] at hversion hfields
  obtain ⟨⟨⟨⟨hpurpose, hoperation⟩, hrevision⟩, hcount⟩, hargs⟩ := hfields
  refine ⟨UInt8.toNat_inj.mp hversion, hpurpose, ?_, hrevision, hcount, fun arg harg => ?_, h⟩
  · simp only [validOperationId, Bool.and_eq_true, decide_eq_true_eq] at hoperation
    rw [length_bytes]
    exact hoperation.1.1.2
  · rw [length_bytes]
    exact (hargs arg harg).1

/-- INTERNAL: the bytes of a submission, field by field. -/
theorem submission_signingBytes {m : SignedSubmission} (h : m.validate = .ok ()) :
    ∃ binding nonce, decodeFixed 32 m.bindingId = .ok binding ∧ decodeFixed 32 m.nonce = .ok nonce ∧
      m.signingBytes = .ok (signingStart m.protocolVersion ++
        ([bytes m.purpose, binding.toList, nonce.toList, bytes m.operationId,
            hexPairs (bytes m.expectedPolicyRevision)].flatMap beFrame ++
          (be 4 (m.args.map bytes).length ++ (m.args.map bytes).flatMap beFrame))) := by
  obtain ⟨binding, nonce, hbinding, hnonce⟩ := validEnvelope_ok (validSubmission h).ids
  refine ⟨binding, nonce, hbinding, hnonce, ?_⟩
  simp only [SignedSubmission.signingBytes, h, signingHead_ok hbinding hnonce, bind, Except.bind, pure,
    Except.pure, foldl_appendField, appendField_eq, toBeBytes_eq]
  simp [List.append_assoc]

/-- INTERNAL: the checks of a status query. -/
theorem validQuery {m : SignedStatusQuery} (h : m.validate = .ok ()) :
    m.protocolVersion = 1 ∧ m.purpose = "status" ∧ validRequestId m.requestId = true ∧
      validEnvelope m.bindingId m.nonce m.signature = .ok () := by
  unfold SignedStatusQuery.validate at h
  split_ifs at h with hversion hfields
  simp only [Bool.or_eq_true, not_or, Bool.not_eq_true', Bool.not_eq_false, decide_eq_true_eq,
    ne_eq, Decidable.not_not] at hversion hfields
  exact ⟨UInt8.toNat_inj.mp hversion, hfields.1, hfields.2, h⟩

/-- INTERNAL: a request id is decoded. -/
theorem decodeFixed_requestId {id : String} (h : validRequestId id = true) :
    ∃ data, decodeFixed 32 id = .ok data := by
  unfold validRequestId at h
  unfold decodeFixed
  cases hdecoded : decodeUrlSafe id with
  | none => simp [hdecoded] at h
  | some data =>
    simp only [hdecoded, Bool.and_eq_true, decide_eq_true_eq] at h
    have hsize : data.toArray.size = 32 := by simpa using h.1
    exact ⟨⟨data.toArray, hsize⟩, by simp [h.1, h.2]⟩

/-- INTERNAL: the bytes of a status query, field by field. -/
theorem query_signingBytes {m : SignedStatusQuery} (h : m.validate = .ok ()) :
    ∃ binding nonce request, decodeFixed 32 m.bindingId = .ok binding ∧
      decodeFixed 32 m.nonce = .ok nonce ∧ decodeFixed 32 m.requestId = .ok request ∧
      m.signingBytes = .ok (signingStart m.protocolVersion ++
        [bytes m.purpose, binding.toList, nonce.toList, request.toList].flatMap beFrame) := by
  obtain ⟨-, -, hrequest, hids⟩ := validQuery h
  obtain ⟨binding, nonce, hbinding, hnonce⟩ := validEnvelope_ok hids
  obtain ⟨request, hdecoded⟩ := decodeFixed_requestId hrequest
  refine ⟨binding, nonce, request, hbinding, hnonce, hdecoded, ?_⟩
  simp only [SignedStatusQuery.signingBytes, h, signingHead_ok hbinding hnonce, hdecoded, bind,
    Except.bind, pure, Except.pure, appendField_eq]
  simp [List.append_assoc]

/-! ## Envelopes are told apart -/

/-- INTERNAL: equally many fields are told apart. -/
theorem fields_inj {fields fields' : List (List UInt8)} {rest rest' : List UInt8}
    (hall : ∀ f ∈ fields, f.length < 256 ^ 4) (hall' : ∀ f ∈ fields', f.length < 256 ^ 4)
    (hlength : fields.length = fields'.length)
    (heq : fields.flatMap beFrame ++ rest = fields'.flatMap beFrame ++ rest') :
    fields = fields' ∧ rest = rest' :=
  selfDelimiting_beFrame.flatMap hall hall' hlength heq

theorem frames_inj {fields fields' : List (List UInt8)} (hall : ∀ f ∈ fields, f.length < 256 ^ 4)
    (hall' : ∀ f ∈ fields', f.length < 256 ^ 4) (hlength : fields.length = fields'.length)
    (heq : fields.flatMap beFrame = fields'.flatMap beFrame) : fields = fields' := by
  have hnil : fields.flatMap beFrame ++ [] = fields'.flatMap beFrame ++ [] := by rw [heq]
  exact (fields_inj hall hall' hlength hnil).1

/-- INTERNAL: the fields of a submission are short. -/
theorem submission_fields_short {m : SignedSubmission} (h : ValidSubmission m)
    (binding nonce : Vector UInt8 32) :
    ∀ f ∈ [bytes m.purpose, binding.toList, nonce.toList, bytes m.operationId,
      hexPairs (bytes m.expectedPolicyRevision)], f.length < 256 ^ 4 := by
  have hpurpose : (bytes m.purpose).length = 6 := by
    rw [h.purpose]
    decide +kernel
  have hdigest := length_hexPairs_le (bytes m.expectedPolicyRevision)
  have hrevision := h.revision
  simp only [validSha256, Bool.and_eq_true, decide_eq_true_eq] at hrevision
  have hsize := length_bytes m.expectedPolicyRevision
  have hoperation := h.operation
  simp only [List.mem_cons, List.not_mem_nil, or_false, forall_eq_or_imp, forall_eq,
    Vector.length_toList]
  omega

/-- INTERNAL: the fields of a status query are short. -/
theorem query_fields_short {m : SignedStatusQuery} (h : m.purpose = "status")
    (binding nonce request : Vector UInt8 32) :
    ∀ f ∈ [bytes m.purpose, binding.toList, nonce.toList, request.toList], f.length < 256 ^ 4 := by
  have hpurpose : (bytes m.purpose).length = 6 := by
    rw [h]
    decide +kernel
  simp only [List.mem_cons, List.not_mem_nil, or_false, forall_eq_or_imp, forall_eq,
    Vector.length_toList]
  omega

/-- INTERNAL: submissions with the same bytes agree but for the signature. -/
theorem submission_inj {m m' : SignedSubmission} (h : m.validate = .ok ()) (h' : m'.validate = .ok ())
    (heq : m.signingBytes = m'.signingBytes) :
    ({ m with signature := "" } : SignedSubmission) = { m' with signature := "" } := by
  have hv := validSubmission h
  have hv' := validSubmission h'
  obtain ⟨binding, nonce, hbinding, hnonce, hbytes⟩ := submission_signingBytes h
  obtain ⟨binding', nonce', hbinding', hnonce', hbytes'⟩ := submission_signingBytes h'
  rw [hbytes, hbytes', hv.version, hv'.version] at heq
  have hrest := List.append_cancel_left (Except.ok.inj heq)
  obtain ⟨hfields, hargs⟩ := fields_inj (submission_fields_short hv binding nonce)
    (submission_fields_short hv' binding' nonce') rfl hrest
  simp only [List.cons.injEq, and_true] at hfields
  obtain ⟨hpurpose, hsameBinding, hsameNonce, hoperation, hrevision⟩ := hfields
  have hsame : m.args.map bytes = m'.args.map bytes := by
    apply ((selfDelimiting_be 4).counted selfDelimiting_beFrame).injective _ _ hargs
    · refine ⟨by have := hv.count; simp only [List.length_map]; omega, fun f hf => ?_⟩
      obtain ⟨arg, harg, rfl⟩ := List.mem_map.mp hf
      have := hv.args arg harg
      omega
    · refine ⟨by have := hv'.count; simp only [List.length_map]; omega, fun f hf => ?_⟩
      obtain ⟨arg, harg, rfl⟩ := List.mem_map.mp hf
      have := hv'.args arg harg
      omega
  have hargs : m.args = m'.args := (List.map_inj_right fun _ _ h => bytes_injective h).mp hsame
  cases m
  cases m'
  simp only [SignedSubmission.mk.injEq] at *
  exact ⟨hv.version.trans hv'.version.symm, hv.purpose.trans hv'.purpose.symm,
    decodeFixed_inj hbinding hbinding' hsameBinding, decodeFixed_inj hnonce hnonce' hsameNonce,
    bytes_injective hoperation, sha256_inj hv.revision hv'.revision hrevision, hargs, trivial⟩

/-- INTERNAL: status queries with the same bytes agree but for the signature. -/
theorem query_inj {m m' : SignedStatusQuery} (h : m.validate = .ok ()) (h' : m'.validate = .ok ())
    (heq : m.signingBytes = m'.signingBytes) :
    ({ m with signature := "" } : SignedStatusQuery) = { m' with signature := "" } := by
  obtain ⟨hversion, hpurpose, -, -⟩ := validQuery h
  obtain ⟨hversion', hpurpose', -, -⟩ := validQuery h'
  obtain ⟨binding, nonce, request, hbinding, hnonce, hrequest, hbytes⟩ := query_signingBytes h
  obtain ⟨binding', nonce', request', hbinding', hnonce', hrequest', hbytes'⟩ := query_signingBytes h'
  rw [hbytes, hbytes', hversion, hversion'] at heq
  have hrest := List.append_cancel_left (Except.ok.inj heq)
  have hfields := frames_inj (query_fields_short hpurpose binding nonce request)
    (query_fields_short hpurpose' binding' nonce' request') rfl hrest
  simp only [List.cons.injEq, and_true] at hfields
  obtain ⟨-, hsameBinding, hsameNonce, hsameRequest⟩ := hfields
  cases m
  cases m'
  simp only [SignedStatusQuery.mk.injEq] at *
  exact ⟨hversion.trans hversion'.symm, hpurpose.trans hpurpose'.symm,
    decodeFixed_inj hbinding hbinding' hsameBinding, decodeFixed_inj hnonce hnonce' hsameNonce,
    decodeFixed_inj hrequest hrequest' hsameRequest, trivial⟩

/-- INTERNAL: a submission never has the bytes of a status query. -/
theorem submission_ne_query {m : SignedSubmission} {q : SignedStatusQuery} (h : m.validate = .ok ())
    (h' : q.validate = .ok ()) : m.signingBytes ≠ q.signingBytes := by
  intro heq
  have hv := validSubmission h
  obtain ⟨hversion, hpurpose, -, -⟩ := validQuery h'
  obtain ⟨binding, nonce, hbinding, hnonce, hbytes⟩ := submission_signingBytes h
  obtain ⟨binding', nonce', request', hbinding', hnonce', hrequest', hbytes'⟩ := query_signingBytes h'
  rw [hbytes, hbytes', hv.version, hversion] at heq
  have hrest := List.append_cancel_left (Except.ok.inj heq)
  rw [List.flatMap_cons, List.append_assoc, List.flatMap_cons] at hrest
  have hfirst := (selfDelimiting_beFrame (submission_fields_short hv binding nonce _ List.mem_cons_self)
    (query_fields_short hpurpose binding' nonce' request' _ List.mem_cons_self) hrest).1
  rw [hv.purpose, hpurpose] at hfirst
  exact absurd (bytes_injective hfirst) (by decide)

/-- INTERNAL: the bytes do not depend on the signature. -/
theorem signingBytes_unsigned {e e' : AgentEnvelope} (h : e.validate = .ok ()) (h' : e'.validate = .ok ())
    (heq : e.unsigned = e'.unsigned) : e.signingBytes = e'.signingBytes := by
  cases e with
  | submission m =>
    cases e' with
    | submission m' =>
      obtain ⟨binding, nonce, hbinding, hnonce, hbytes⟩ := submission_signingBytes h
      obtain ⟨binding', nonce', hbinding', hnonce', hbytes'⟩ := submission_signingBytes h'
      cases m
      cases m'
      simp only [AgentEnvelope.unsigned, AgentEnvelope.submission.injEq, SignedSubmission.mk.injEq] at heq
      obtain ⟨rfl, rfl, rfl, rfl, rfl, rfl, rfl, -⟩ := heq
      obtain rfl := Except.ok.inj (hbinding.symm.trans hbinding')
      obtain rfl := Except.ok.inj (hnonce.symm.trans hnonce')
      exact hbytes.trans hbytes'.symm
    | status m' => simp [AgentEnvelope.unsigned] at heq
  | status m =>
    cases e' with
    | submission m' => simp [AgentEnvelope.unsigned] at heq
    | status m' =>
      obtain ⟨binding, nonce, request, hbinding, hnonce, hrequest, hbytes⟩ := query_signingBytes h
      obtain ⟨binding', nonce', request', hbinding', hnonce', hrequest', hbytes'⟩ := query_signingBytes h'
      cases m
      cases m'
      simp only [AgentEnvelope.unsigned, AgentEnvelope.status.injEq, SignedStatusQuery.mk.injEq] at heq
      obtain ⟨rfl, rfl, rfl, rfl, rfl, -⟩ := heq
      obtain rfl := Except.ok.inj (hbinding.symm.trans hbinding')
      obtain rfl := Except.ok.inj (hnonce.symm.trans hnonce')
      obtain rfl := Except.ok.inj (hrequest.symm.trans hrequest')
      exact hbytes.trans hbytes'.symm

/-- INTERNAL: envelopes with the same bytes agree but for the signature. -/
theorem unsigned_of_signingBytes {e e' : AgentEnvelope} (h : e.validate = .ok ())
    (h' : e'.validate = .ok ()) (heq : e.signingBytes = e'.signingBytes) : e.unsigned = e'.unsigned := by
  cases e with
  | submission m =>
    cases e' with
    | submission m' => exact congrArg AgentEnvelope.submission (submission_inj h h' heq)
    | status m' => exact absurd heq (submission_ne_query h h')
  | status m =>
    cases e' with
    | submission m' => exact absurd heq.symm (submission_ne_query h' h)
    | status m' => exact congrArg AgentEnvelope.status (query_inj h h' heq)

/-- INTERNAL: the bytes are those of a valid envelope. -/
theorem validate_of_signingBytes {e : AgentEnvelope} {data : List UInt8} (h : e.signingBytes = .ok data) :
    e.validate = .ok () := by
  cases e with
  | submission m =>
    cases hcheck : m.validate with
    | error e => simp [AgentEnvelope.signingBytes, SignedSubmission.signingBytes, hcheck, bind, Except.bind] at h
    | ok _ => exact hcheck
  | status m =>
    cases hcheck : m.validate with
    | error e => simp [AgentEnvelope.signingBytes, SignedStatusQuery.signingBytes, hcheck, bind, Except.bind] at h
    | ok _ => exact hcheck

/-- INTERNAL: what is verified are the bytes of the envelope. -/
theorem verify_ok {E : Externals} {e : AgentEnvelope} {storedPublicKey : String} {key : Vector UInt8 32}
    (hkey : decodePublicKey E storedPublicKey = some key) (h : e.verify E storedPublicKey = .ok ()) :
    ∃ data signature, e.signingBytes = .ok data ∧ E.verifyStrict key data signature = true := by
  have hsigned : ∀ {signing : Except AgentRejection (List UInt8)} {signature : String},
      (do verifySignature E storedPublicKey signature (← signing)) = Except.ok () →
      ∃ data decoded, signing = .ok data ∧ E.verifyStrict key data decoded = true := by
    intro signing signature hverify
    cases hsigning : signing with
    | error e => simp [hsigning, bind, Except.bind] at hverify
    | ok data =>
      simp only [hsigning, bind, Except.bind, verifySignature, hkey] at hverify
      cases hdecoded : decodeFixed 64 signature with
      | error e => simp [hdecoded] at hverify
      | ok decoded =>
        simp only [hdecoded] at hverify
        split_ifs at hverify with hstrict
        exact ⟨data, decoded, rfl, hstrict⟩
  cases e with
  | submission m => exact hsigned h
  | status m => exact hsigned h

/-- Only what the holder of a key signed verifies under it. -/
def Unforgeable (E : Externals) (key : Vector UInt8 32) (signed : Set (List UInt8)) : Prop :=
  ∀ data signature, E.verifyStrict key data signature = true → data ∈ signed

/-- The bytes of envelopes. -/
def signedBytes (made : Set AgentEnvelope) : Set (List UInt8) :=
  {data | ∃ e ∈ made, e.signingBytes = .ok data}

/-- A submission of an agent, signed with the key below. -/
def sampleSubmission : SignedSubmission where
  protocolVersion := 1
  purpose := "submit"
  bindingId := "BwcHBwcHBwcHBwcHBwcHBwcHBwcHBwcHBwcHBwcHBwc"
  nonce := "CQkJCQkJCQkJCQkJCQkJCQkJCQkJCQkJCQkJCQkJCQk"
  operationId := "deploy-site"
  expectedPolicyRevision := "000102030405060708090a0b0c0d0e0f101112131415161718191a1b1c1d1e1f"
  args := ["deploy", "é"]
  signature :=
    "62CDPGYzr86C4YzH89rwvOquyyrR0e3IsgxnSZ914J37uv1dKy2D71xanXrSUVV8WKXj1jiLGYh8iS2VI7k6CA"

/-- A status query with the same binding and nonce, under the signature of the submission. -/
def sampleQuery : SignedStatusQuery where
  protocolVersion := 1
  purpose := "status"
  bindingId := sampleSubmission.bindingId
  nonce := sampleSubmission.nonce
  requestId := sampleSubmission.nonce
  signature := sampleSubmission.signature

def sampleKey : Vector UInt8 32 := #v[138, 136, 227, 221, 116, 9, 241, 149, 253, 82, 219, 45, 60,
  186, 93, 114, 202, 103, 9, 191, 29, 148, 18, 27, 243, 116, 136, 1, 180, 15, 111, 92]

/-- Under the key verifies what was signed with it. -/
def sampleExternals : Externals where
  sha256 _ := Vector.replicate 32 0
  verifyingKey _ := true
  verifyStrict key data signature :=
    decide (key = sampleKey ∧ sampleSubmission.signingBytes = .ok data ∧
      decodeFixed 64 sampleSubmission.signature = .ok signature)

end VaultAccess.Analysis
