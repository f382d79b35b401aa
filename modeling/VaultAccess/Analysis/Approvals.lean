import Mathlib.Algebra.Order.BigOperators.Group.List
import VaultAccess.Analysis.Envelopes
import VaultAccess.Library.Canonical
import VaultAccess.Model.Approval
import VaultAccess.Model.Companion

/-!
# What a signed approval covers

A transcript is a list of frames whose fields are fixed texts, decoded digests, numbers of eight
bytes, an id and a key, so that equal transcripts have equal fields, and a transcript of an
approval is none of an enrolment. The digest of a review is taken over its canonical text, which
in both copies is the text of the document with sorted members and tells what the document says.
-/

set_option autoImplicit false

namespace VaultAccess.Analysis.Approval

open VaultAccess.Library VaultAccess.Library.Text VaultAccess.Model VaultAccess.Model.Approval
open VaultAccess.Library.Frames (beFrame)

/-! ## Fields -/

theorem digit_eq : ∀ b ∈ hexBytes, digit b = some (hexNibble b) := by decide +kernel

/-- INTERNAL: the pairs of a text of digits. -/
theorem pairs_eq : ∀ {digits : List UInt8}, (∀ b ∈ digits, b ∈ hexBytes) →
    pairs digits = some (hexPairs digits)
  | [], _ => rfl
  | [_], _ => rfl
  | high :: low :: rest, hall => by
    simp only [List.mem_cons, forall_eq_or_imp] at hall
    simp [pairs, hexPairs, digit_eq high hall.1, digit_eq low hall.2.1, pairs_eq hall.2.2]

/-- INTERNAL: a decoded digest. -/
theorem hex32_ok {value : String} {data : List UInt8} (h : hex32 value = some data) :
    validSha256 value = true ∧ data = hexPairs (bytes value) := by
  unfold hex32 at h
  split_ifs at h with hvalid
  have hdigits : ∀ b ∈ bytes value, b ∈ hexBytes := by
    simp only [validSha256, Bool.and_eq_true, List.all_eq_true] at hvalid
    exact mem_hexBytes hvalid.2
  rw [pairs_eq hdigits] at h
  exact ⟨hvalid, (Option.some.inj h).symm⟩

theorem hex32_inj {value value' : String} {data : List UInt8} (h : hex32 value = some data)
    (h' : hex32 value' = some data) : value = value' := by
  obtain ⟨hvalid, hdata⟩ := hex32_ok h
  obtain ⟨hvalid', hdata'⟩ := hex32_ok h'
  exact sha256_inj hvalid hvalid' (hdata.symm.trans hdata')

/-- INTERNAL: a decoded digest is short. -/
theorem hex32_short {value : String} {data : List UInt8} (h : hex32 value = some data) :
    data.length < 256 ^ 4 := by
  obtain ⟨hvalid, rfl⟩ := hex32_ok h
  simp only [validSha256, Bool.and_eq_true, decide_eq_true_eq] at hvalid
  have := length_hexPairs_le (bytes value)
  have := length_bytes value
  omega

theorem frame_eq : frame = beFrame := by
  funext field
  rw [frame, beFrame, toBeBytes_eq]

@[simp]
theorem length_toBeBytes64 (n : ℕ) : (toBeBytes64 n).length = 8 := by
  simp [toBeBytes64, toBeBytes]

/-- INTERNAL: numbers of eight bytes are told apart. -/
theorem toBeBytes64_inj {n m : ℕ} (hn : n < u64Size) (hm : m < u64Size)
    (h : toBeBytes64 n = toBeBytes64 m) : n = m := by
  have hbyte : ∀ a b : ℕ, UInt8.ofNat a = UInt8.ofNat b → a % 256 = b % 256 := by
    intro a b hab
    have := congrArg UInt8.toNat hab
    rwa [UInt8.toNat_ofNat', UInt8.toNat_ofNat'] at this
  simp only [toBeBytes64, toBeBytes, List.cons_append, List.nil_append, List.cons.injEq,
    and_true] at h
  obtain ⟨h7, h6, h5, h4, h3, h2, h1, h0⟩ := h
  have := hbyte _ _ h7
  have := hbyte _ _ h6
  have := hbyte _ _ h5
  have := hbyte _ _ h4
  have := hbyte _ _ h3
  have := hbyte _ _ h2
  have := hbyte _ _ h1
  have := hbyte _ _ h0
  simp only [u64Size] at hn hm
  omega

/-- INTERNAL: an id is short. -/
theorem requestId_short {id : String} (h : validRequestId id = true) :
    (bytes id).length < 256 ^ 4 := by
  obtain ⟨data, hdata⟩ := decodeFixed_requestId h
  have hid := decodeFixed_ok hdata
  have hsize : ∀ n ∈ (Base64.encode Base64.urlSafe data.toList).map Char.utf8Size, n ≤ 4 := by
    intro n hn
    obtain ⟨c, -, rfl⟩ := List.mem_map.mp hn
    exact c.utf8Size_le_four
  have hchars := Base64.length_encode Base64.urlSafe data.toList
  have hsum : ((Base64.encode Base64.urlSafe data.toList).map Char.utf8Size).sum ≤ 43 * 4 := by
    have hle := List.sum_le_card_nsmul _ 4 hsize
    rw [List.length_map, hchars, Vector.length_toList] at hle
    exact hle
  rw [length_bytes, ← hid, encodeUrlSafe, utf8ByteSize_ofList]
  omega

/-! ## Transcripts -/

/-- What a successful approval transcript was made of. -/
structure Approved (E : Externals) (context : ApprovalContext) (binding : ApprovalBinding)
    (generation : UInt64) (keyId : String) (fields : List (List UInt8)) : Prop where
  decoded : ∃ provider client key record policy arguments ticket review,
    hex32 context.providerIdentity = some provider ∧ hex32 context.approvalClient = some client ∧
    hex32 keyId = some key ∧ hex32 binding.recordDigest = some record ∧
    hex32 binding.policyDigest = some policy ∧ hex32 binding.argumentsDigest = some arguments ∧
    hex32 context.ticket = some ticket ∧ reviewDigest E context.review = some review ∧
    fields = [APPROVAL_DOMAIN, APPROVE_ACTION, provider, client, key, bytes binding.requestId, record,
      policy, arguments, toBeBytes64 binding.expiresAtUnixSeconds, toBeBytes64 generation.toNat,
      ticket, toBeBytes64 context.ticketDeadlineUnixMs.toNat, review]
  requestId : validRequestId binding.requestId = true

/-- INTERNAL: a successful approval transcript. -/
theorem approvalTranscript_ok {E : Externals} {context : ApprovalContext} {binding : ApprovalBinding}
    {generation : UInt64} {keyId : String} {data : List UInt8}
    (h : approvalTranscript E context binding generation keyId = some data) :
    ∃ fields, Approved E context binding generation keyId fields ∧ data = fields.flatMap frame := by
  unfold approvalTranscript at h
  simp only [Option.bind_eq_bind, Option.bind_eq_some_iff] at h
  obtain ⟨provider, hprovider, client, hclient, key, hkey, record, hrecord, policy, hpolicy, arguments,
    harguments, ticket, hticket, review, hreview, hdata⟩ := h
  split_ifs at hdata with hchecks
  simp only [Bool.or_eq_true, not_or, Bool.not_eq_true', Bool.not_eq_false] at hchecks
  exact ⟨_, ⟨⟨provider, client, key, record, policy, arguments, ticket, review, hprovider, hclient, hkey,
    hrecord, hpolicy, harguments, hticket, hreview, rfl⟩, hchecks.1⟩, (Option.some.inj hdata).symm⟩

theorem length_reviewDigest {E : Externals} {review : DirectReview} {digest : List UInt8}
    (h : reviewDigest E review = some digest) : digest.length = 32 := by
  unfold reviewDigest reviewDigestValue at h
  obtain ⟨text, -, rfl⟩ := Option.map_eq_some_iff.mp h
  exact Vector.length_toList

/-- INTERNAL: the fields of an approval transcript are short. -/
theorem Approved.short {E : Externals} {context : ApprovalContext} {binding : ApprovalBinding}
    {generation : UInt64} {keyId : String} {fields : List (List UInt8)}
    (h : Approved E context binding generation keyId fields) :
    fields.length = 14 ∧ ∀ f ∈ fields, f.length < 256 ^ 4 := by
  obtain ⟨provider, client, key, record, policy, arguments, ticket, review, hprovider, hclient, hkey,
    hrecord, hpolicy, harguments, hticket, hreview, rfl⟩ := h.decoded
  have hdomain : APPROVAL_DOMAIN.length < 256 ^ 4 ∧ APPROVE_ACTION.length < 256 ^ 4 := by decide +kernel
  have hdigest := length_reviewDigest hreview
  constructor
  · rfl
  · simp only [List.mem_cons, List.not_mem_nil, or_false, forall_eq_or_imp, forall_eq,
      length_toBeBytes64, hdigest]
    exact ⟨hdomain.1, hdomain.2, hex32_short hprovider, hex32_short hclient, hex32_short hkey,
      requestId_short h.requestId, hex32_short hrecord, hex32_short hpolicy, hex32_short harguments,
      by omega, by omega, hex32_short hticket, by omega, by omega⟩

/-- INTERNAL: a successful enrolment transcript. -/
theorem enrollTranscript_ok {providerIdentity approvalClient ticket actionId : String}
    {publicKey data : List UInt8}
    (h : enrollTranscript providerIdentity approvalClient publicKey ticket actionId = some data) :
    ∃ provider client ticketBytes, hex32 providerIdentity = some provider ∧
      hex32 approvalClient = some client ∧ hex32 ticket = some ticketBytes ∧
      data = [ENROLL_DOMAIN, provider, client, publicKey, ticketBytes, bytes actionId].flatMap frame ∧
      ∀ f ∈ [ENROLL_DOMAIN, provider, client, publicKey, ticketBytes, bytes actionId],
        f.length < 256 ^ 4 := by
  unfold enrollTranscript at h
  simp only [Option.bind_eq_bind, Option.bind_eq_some_iff] at h
  obtain ⟨provider, hprovider, client, hclient, ticketBytes, hticket, hdata⟩ := h
  split_ifs at hdata with hchecks
  simp only [Bool.or_eq_true, not_or, Bool.not_eq_true', Bool.not_eq_false] at hchecks
  have hdomain : ENROLL_DOMAIN.length < 256 ^ 4 := by decide +kernel
  have hkey : publicKey.length = 65 := by
    have hvalid := hchecks.1
    simp only [validPublicKey, PUBLIC_KEY_LEN, Bool.and_eq_true] at hvalid
    exact of_decide_eq_true hvalid.1
  refine ⟨provider, client, ticketBytes, hprovider, hclient, hticket, (Option.some.inj hdata).symm, ?_⟩
  simp only [List.mem_cons, List.not_mem_nil, or_false, forall_eq_or_imp, forall_eq]
  exact ⟨hdomain, hex32_short hprovider, hex32_short hclient, by omega, hex32_short hticket,
    requestId_short hchecks.2⟩

/-- **An approval transcript tells its approval.** -/
theorem approvalTranscript_inj {E : Externals} {context context' : ApprovalContext}
    {binding binding' : ApprovalBinding} {generation generation' : UInt64} {keyId keyId' : String}
    {data : List UInt8} (hexpires : binding.expiresAtUnixSeconds < u64Size)
    (hexpires' : binding'.expiresAtUnixSeconds < u64Size)
    (h : approvalTranscript E context binding generation keyId = some data)
    (h' : approvalTranscript E context' binding' generation' keyId' = some data) :
    (context.providerIdentity = context'.providerIdentity ∧
      context.approvalClient = context'.approvalClient ∧ keyId = keyId' ∧
      binding.requestId = binding'.requestId) ∧
    (binding.recordDigest = binding'.recordDigest ∧ binding.policyDigest = binding'.policyDigest ∧
      binding.argumentsDigest = binding'.argumentsDigest ∧
      binding.expiresAtUnixSeconds = binding'.expiresAtUnixSeconds) ∧
    generation = generation' ∧ context.ticket = context'.ticket ∧
    context.ticketDeadlineUnixMs = context'.ticketDeadlineUnixMs ∧
    reviewDigest E context.review = reviewDigest E context'.review := by
  obtain ⟨fields, hfields, hdata⟩ := approvalTranscript_ok h
  obtain ⟨fields', hfields', hdata'⟩ := approvalTranscript_ok h'
  have hframes : fields.flatMap beFrame = fields'.flatMap beFrame := by
    rw [← frame_eq, ← hdata, hdata']
  have heq := frames_inj hfields.short.2 hfields'.short.2
    (hfields.short.1.trans hfields'.short.1.symm) hframes
  obtain ⟨provider, client, key, record, policy, arguments, ticket, review, hprovider, hclient, hkey,
    hrecord, hpolicy, harguments, hticket, hreview, rfl⟩ := hfields.decoded
  obtain ⟨_, _, _, _, _, _, _, _, hprovider', hclient', hkey', hrecord', hpolicy', harguments',
    hticket', hreview', hfields'⟩ := hfields'.decoded
  rw [hfields'] at heq
  simp only [List.cons.injEq, and_true, true_and] at heq
  obtain ⟨rfl, rfl, rfl, hrequest, rfl, rfl, rfl, hexpiry, hgeneration, rfl, hdeadline, rfl⟩ := heq
  exact ⟨⟨hex32_inj hprovider hprovider', hex32_inj hclient hclient', hex32_inj hkey hkey',
      bytes_injective hrequest⟩,
    ⟨hex32_inj hrecord hrecord', hex32_inj hpolicy hpolicy', hex32_inj harguments harguments',
      toBeBytes64_inj hexpires hexpires' hexpiry⟩,
    UInt64.toNat_inj.mp (toBeBytes64_inj generation.toNat_lt generation'.toNat_lt hgeneration),
    hex32_inj hticket hticket',
    UInt64.toNat_inj.mp (toBeBytes64_inj (UInt64.toNat_lt _) (UInt64.toNat_lt _) hdeadline),
    hreview.trans hreview'.symm⟩

/-- **An enrolment transcript tells its enrolment.** -/
theorem enrollTranscript_inj {providerIdentity providerIdentity' approvalClient approvalClient' : String}
    {publicKey publicKey' : List UInt8} {ticket ticket' actionId actionId' : String} {data : List UInt8}
    (h : enrollTranscript providerIdentity approvalClient publicKey ticket actionId = some data)
    (h' : enrollTranscript providerIdentity' approvalClient' publicKey' ticket' actionId' = some data) :
    providerIdentity = providerIdentity' ∧ approvalClient = approvalClient' ∧ publicKey = publicKey' ∧
      ticket = ticket' ∧ actionId = actionId' := by
  obtain ⟨_, _, _, hprovider, hclient, hticket, hdata, hshort⟩ := enrollTranscript_ok h
  obtain ⟨_, _, _, hprovider', hclient', hticket', hdata', hshort'⟩ := enrollTranscript_ok h'
  rw [frame_eq] at hdata hdata'
  have heq := frames_inj hshort hshort' rfl (hdata.symm.trans hdata')
  simp only [List.cons.injEq, and_true, true_and] at heq
  obtain ⟨rfl, rfl, hkey, rfl, hid⟩ := heq
  exact ⟨hex32_inj hprovider hprovider', hex32_inj hclient hclient', hkey, hex32_inj hticket hticket',
    bytes_injective hid⟩

/-- **No approval transcript is an enrolment transcript.** -/
theorem approvalTranscript_ne_enroll {E : Externals} {context : ApprovalContext}
    {binding : ApprovalBinding} {generation : UInt64} {keyId providerIdentity approvalClient : String}
    {publicKey data data' : List UInt8} {ticket actionId : String}
    (h : approvalTranscript E context binding generation keyId = some data)
    (h' : enrollTranscript providerIdentity approvalClient publicKey ticket actionId = some data') :
    data ≠ data' := by
  obtain ⟨fields, hfields, rfl⟩ := approvalTranscript_ok h
  obtain ⟨_, _, _, -, -, -, rfl, hshort⟩ := enrollTranscript_ok h'
  have hall := hfields.short.2
  obtain ⟨_, _, _, _, _, _, _, _, -, -, -, -, -, -, -, -, rfl⟩ := hfields.decoded
  intro heq
  rw [frame_eq, List.flatMap_cons, List.flatMap_cons] at heq
  have hdomains := (Frames.selfDelimiting_beFrame (hall _ List.mem_cons_self)
    (hshort _ List.mem_cons_self) heq).1
  exact absurd (bytes_injective hdomains) (by decide)

/-! ## Canonical texts -/

mutual

/-- INTERNAL: the provider's canonical text is the text of the sorted document. -/
theorem canonical_eq {j : Json} {text : List Char} (h : canonical j = some text) :
    text = Json.render (Json.sorted j) := by
  match j with
  | .null =>
    rw [canonical] at h
    exact (Option.some.inj h).symm
  | .bool true =>
    rw [canonical] at h
    exact (Option.some.inj h).symm
  | .bool false =>
    rw [canonical] at h
    exact (Option.some.inj h).symm
  | .int n =>
    rw [canonical, canonicalNumber] at h
    split_ifs at h <;> exact (Option.some.inj h).symm
  | .str s =>
    rw [canonical] at h
    exact (Option.some.inj h).symm
  | .arr items =>
    rw [canonical] at h
    obtain ⟨texts, htexts, htext⟩ := Option.bind_eq_some_iff.mp h
    rw [Json.sorted, Json.render, Json.renderItems_eq, ← canonicalItems_eq htexts]
    exact (Option.some.inj htext).symm
  | .obj members =>
    rw [canonical] at h
    obtain ⟨texts, htexts, htext⟩ := Option.bind_eq_some_iff.mp h
    rw [canonicalMembers_eq htexts, Json.sortByKey_map_values, List.map_map] at htext
    rw [Json.sorted, Json.render, Json.renderMembers_eq]
    exact (Option.some.inj htext).symm

theorem canonicalItems_eq {items : List Json} {texts : List (List Char)}
    (h : canonicalItems items = some texts) : texts = (Json.sortedItems items).map Json.render := by
  match items with
  | [] =>
    rw [canonicalItems] at h
    exact (Option.some.inj h).symm
  | item :: rest =>
    rw [canonicalItems] at h
    obtain ⟨text, htext, hrest⟩ := Option.bind_eq_some_iff.mp h
    obtain ⟨others, hothers, heq⟩ := Option.bind_eq_some_iff.mp hrest
    rw [Json.sortedItems, List.map_cons, ← canonical_eq htext, ← canonicalItems_eq hothers]
    exact (Option.some.inj heq).symm

theorem canonicalMembers_eq {members : List (String × Json)} {texts : List (String × List Char)}
    (h : canonicalMembers members = some texts) :
    texts = (Json.sortedMembers members).map fun member => (member.1, Json.render member.2) := by
  match members with
  | [] =>
    rw [canonicalMembers] at h
    exact (Option.some.inj h).symm
  | (name, value) :: rest =>
    rw [canonicalMembers] at h
    obtain ⟨text, htext, hrest⟩ := Option.bind_eq_some_iff.mp h
    obtain ⟨others, hothers, heq⟩ := Option.bind_eq_some_iff.mp hrest
    rw [Json.sortedMembers, List.map_cons, ← canonical_eq htext, ← canonicalMembers_eq hothers]
    exact (Option.some.inj heq).symm

end

mutual

/-- INTERNAL: the companion's canonical text is the text of the sorted document. -/
theorem companion_canonical_eq (j : Json) :
    Model.Companion.canonical j = Json.render (Json.sorted j) := by
  match j with
  | .null => rw [Model.Companion.canonical, Json.sorted, Json.render]
  | .bool true => rw [Model.Companion.canonical, Json.sorted, Json.render]
  | .bool false => rw [Model.Companion.canonical, Json.sorted, Json.render]
  | .int n => rw [Model.Companion.canonical, Json.sorted, Json.render]
  | .str s => rw [Model.Companion.canonical, Json.sorted, Json.render]
  | .arr items =>
    rw [Model.Companion.canonical, companion_canonicalItems_eq items, Json.sorted, Json.render,
      Json.renderItems_eq]
  | .obj members =>
    rw [Model.Companion.canonical, companion_canonicalMembers_eq members, Json.sortByKey_map_values,
      List.map_map, Json.sorted, Json.render, Json.renderMembers_eq]
    rfl

theorem companion_canonicalItems_eq (items : List Json) :
    Model.Companion.canonicalItems items = (Json.sortedItems items).map Json.render := by
  match items with
  | [] => rfl
  | item :: rest =>
    rw [Model.Companion.canonicalItems, companion_canonical_eq item, companion_canonicalItems_eq rest,
      Json.sortedItems, List.map_cons]

theorem companion_canonicalMembers_eq (members : List (String × Json)) :
    Model.Companion.canonicalMembers members =
      (Json.sortedMembers members).map fun member => (member.1, Json.render member.2) := by
  match members with
  | [] => rfl
  | (name, value) :: rest =>
    rw [Model.Companion.canonicalMembers, companion_canonical_eq value,
      companion_canonicalMembers_eq rest, Json.sortedMembers, List.map_cons]

end

/-! ## Reviews -/

/-- INTERNAL: what a map says of a member that may be left out. -/
theorem meaningOf_optionalMember {α : Type} (name key : String) (value : Option α) (encode : α → Json) :
    Json.meaningOf (optionalMember name value encode) key =
      if key = name then value.map fun a => Json.meaning (encode a) else none := by
  cases value with
  | none => simp [optionalMember, Json.meaningOf]
  | some a => simp [optionalMember, Json.meaningOf]

theorem texts_meaning_inj {values values' : List String}
    (h : Json.meaning (Json.texts values) = Json.meaning (Json.texts values')) : values = values' := by
  simp only [Json.texts, Json.meaning, Json.meanings_eq, List.map_map, Json.Value.arr.injEq] at h
  refine (List.map_inj_right fun a b hab => ?_).mp h
  simpa [Json.meaning] using hab

theorem at_name {members members' : List (String × Json)}
    (h : Json.meaning (.obj members) = Json.meaning (.obj members')) (key : String) :
    Json.meaningOf members key = Json.meaningOf members' key := by
  rw [Json.meaning, Json.meaning] at h
  exact congrFun (Json.Value.obj.inj h) key

/-- INTERNAL: destinations are told apart. -/
theorem destination_meaning_inj {d d' : Destination}
    (h : Json.meaning d.toJson = Json.meaning d'.toJson) : d = d' := by
  have haccount := at_name h "account_id"
  have hfolder := at_name h "folder"
  have hfolderId := at_name h "folder_id"
  have hreference := at_name h "reference"
  simp [Json.meaningOf, Json.meaning] at haccount hfolder hfolderId hreference
  cases d
  cases d'
  simp_all

/-- INTERNAL: effects are told apart. -/
theorem create_meaning_inj {c c' : CreateEffect}
    (h : Json.meaning c.toJson = Json.meaning c'.toJson) : c = c' := by
  have hserver := at_name h "server"
  have hdestination := at_name h "destination"
  have hfields := at_name h "fields"
  have hmarker := at_name h "eligibility_marker"
  simp [Json.meaningOf] at hserver hdestination hfields hmarker
  have hsame := destination_meaning_inj hdestination
  have htexts := texts_meaning_inj hfields
  simp [Json.meaning] at hserver hmarker
  cases c
  cases c'
  simp_all

/-- INTERNAL: reviews of an SSH operation are told apart. -/
theorem ssh_meaning_inj {s s' : SshReview}
    (h : Json.meaning s.toJson = Json.meaning s'.toJson) : s = s' := by
  have hdirectory := at_name h "working_directory"
  have hdestination := at_name h "destination"
  simp only [Json.meaningOf, if_true, Option.some.injEq] at hdirectory
  simp [Json.meaningOf] at hdestination
  have hhost := at_name hdestination "host"
  have hport := at_name hdestination "port"
  have huser := at_name hdestination "user"
  have hpath := at_name hdestination "resource_path"
  have hfingerprint := at_name hdestination "host_fingerprint"
  simp [Json.meaningOf, Json.meaning, Json.nat] at hdirectory hhost hport huser hpath hfingerprint
  have hsame : s.destination.port = s'.destination.port := by
    apply UInt16.toNat_inj.mp
    omega
  obtain ⟨directory, destination⟩ := s
  obtain ⟨directory', destination'⟩ := s'
  cases destination
  cases destination'
  simp_all

/-- INTERNAL: statuses are told apart. -/
theorem status_meaning_inj {s s' : DirectStatus}
    (h : Json.meaning s.toJson = Json.meaning s'.toJson) : s = s' := by
  have htag : ∀ t : DirectStatus, ∃ members, t.toJson = .obj members := by
    intro t
    cases t <;> exact ⟨_, rfl⟩
  obtain ⟨members, hmembers⟩ := htag s
  obtain ⟨members', hmembers'⟩ := htag s'
  have hat : ∀ key, Json.meaningOf members key = Json.meaningOf members' key :=
    at_name (hmembers ▸ hmembers' ▸ h)
  have hstatus := hat "status"
  have hexit := hat "exit_code"
  have hreason := hat "reason"
  cases s <;> cases s' <;>
    (obtain rfl := Json.obj.inj hmembers
     obtain rfl := Json.obj.inj hmembers'
     simp [Json.meaningOf, Json.meaning] at hstatus hexit hreason ⊢)
  · exact hexit
  · rename_i reason reason'
    cases reason <;> cases reason' <;> simp_all [DirectFailure.toJson, Json.meaning]

/-- INTERNAL: credentials of a review are told apart. -/
theorem credential_meaning_inj {c c' : ReviewCredential}
    (h : Json.meaning c.toJson = Json.meaning c'.toJson) : c = c' := by
  have hlabel := at_name h "label"
  have huse := at_name h "use_type"
  simp [Json.meaningOf] at hlabel huse
  obtain ⟨label, useType⟩ := c
  obtain ⟨label', useType'⟩ := c'
  cases useType <;> cases useType' <;> simp_all [CredentialUse.toJson, Json.meaning]

/-- **Reviews are told apart by what their documents say.** -/
theorem review_meaning_inj {r r' : DirectReview}
    (h : Json.meaning r.toJson = Json.meaning r'.toJson) : r = r' := by
  have hat := at_name h
  simp only [Json.meaningOf_append, meaningOf_optionalMember] at hat
  have hcreate : (r.create.map fun c => Json.meaning c.toJson) =
      r'.create.map fun c => Json.meaning c.toJson := by
    simpa [Json.meaningOf] using hat "create"
  have hssh : (r.ssh.map fun s => Json.meaning s.toJson) = r'.ssh.map fun s => Json.meaning s.toJson := by
    simpa [Json.meaningOf] using hat "ssh"
  have harguments : Json.meaning (Json.texts r.arguments) = Json.meaning (Json.texts r'.arguments) := by
    simpa [Json.meaningOf] using hat "arguments"
  have hcredentials : Json.meaning (.arr (r.credentials.map ReviewCredential.toJson)) =
      Json.meaning (.arr (r'.credentials.map ReviewCredential.toJson)) := by
    simpa [Json.meaningOf] using hat "credentials"
  have hexpires : Json.meaning (Json.nat r.expiresAtUnixSeconds) =
      Json.meaning (Json.nat r'.expiresAtUnixSeconds) := by
    simpa [Json.meaningOf] using hat "expires_at_unix_seconds"
  have hstatus : Json.meaning r.status.toJson = Json.meaning r'.status.toJson := by
    simpa [Json.meaningOf] using hat "status"
  have hid := hat "id"
  have hrequester := hat "requester"
  have hoperation := hat "operation"
  have heffect := hat "effect"
  have htarget := hat "target"
  have hexecutable := hat "executable_digest"
  have hpolicy := hat "policy_digest"
  have hdigest := hat "arguments_digest"
  have honeTime := hat "one_time"
  simp [Json.meaningOf, Json.meaning] at hid hrequester hoperation heffect htarget
  simp [Json.meaningOf, Json.meaning] at hexecutable hpolicy hdigest honeTime
  have hsameStatus := status_meaning_inj hstatus
  have hsameArguments := texts_meaning_inj harguments
  have hsameCreate : r.create = r'.create :=
    Option.map_injective (fun _ _ h => create_meaning_inj h) hcreate
  have hsameSsh : r.ssh = r'.ssh := Option.map_injective (fun _ _ h => ssh_meaning_inj h) hssh
  have hsameCredentials : r.credentials = r'.credentials := by
    simp only [Json.meaning, Json.meanings_eq, List.map_map, Json.Value.arr.injEq] at hcredentials
    exact (List.map_inj_right fun _ _ h => credential_meaning_inj h).mp hcredentials
  have hsameExpires : r.expiresAtUnixSeconds = r'.expiresAtUnixSeconds := by
    simp only [Json.nat, Json.meaning, Json.Value.int.injEq] at hexpires
    omega
  cases r
  cases r'
  simp_all

/-- INTERNAL: the objects of a review have no name twice. -/
theorem distinct_review (r : DirectReview) : Json.Distinct r.toJson := by
  have htexts : ∀ values : List String, Json.DistinctItems (values.map .str) := by
    intro values
    induction values with
    | nil => trivial
    | cons value rest ih => exact ⟨trivial, ih⟩
  have hcredentials : ∀ credentials : List ReviewCredential,
      Json.DistinctItems (credentials.map ReviewCredential.toJson) := by
    intro credentials
    induction credentials with
    | nil => trivial
    | cons credential rest ih =>
      refine ⟨?_, ih⟩
      obtain ⟨label, useType⟩ := credential
      cases useType <;> simp [ReviewCredential.toJson, CredentialUse.toJson, Json.Distinct, Json.DistinctMembers]
  have hstatus : Json.Distinct r.status.toJson := by
    cases r.status with
    | failed reason =>
      cases reason <;> simp [DirectStatus.toJson, DirectFailure.toJson, Json.Distinct, Json.DistinctMembers]
    | _ => simp [DirectStatus.toJson, Json.Distinct, Json.DistinctMembers]
  have hcreate : ∀ c : CreateEffect, Json.Distinct c.toJson := by
    intro c
    simp [CreateEffect.toJson, Destination.toJson, Json.texts, Json.Distinct, Json.DistinctMembers, htexts]
  have hssh : ∀ s : SshReview, Json.Distinct s.toJson := by
    intro s
    simp [SshReview.toJson, SshDestination.toJson, Json.nat, Json.Distinct, Json.DistinctMembers]
  unfold DirectReview.toJson
  rw [Json.Distinct, Json.distinctMembers_iff]
  cases hc : r.create <;> cases hs : r.ssh <;>
    simp [optionalMember, Json.Distinct, Json.texts, Json.nat, htexts, hcredentials, hstatus, hcreate, hssh]

/-! ## The theorem -/

/-- The hash has no collision between the canonical texts of two documents. -/
def TellsApart (E : Externals) (j j' : Json) : Prop :=
  ∀ text text', canonical j = some text → canonical j' = some text' →
    E.sha256 (utf8 text) = E.sha256 (utf8 text') → text = text'

/-- The companion's hash has no collision between the canonical texts of two documents. -/
def CompanionTellsApart (P : Model.Companion.Packages) (j j' : Json) : Prop :=
  P.sha256 (utf8 (Model.Companion.canonical j)) = P.sha256 (utf8 (Model.Companion.canonical j')) →
    Model.Companion.canonical j = Model.Companion.canonical j'

/-- INTERNAL: **equal digests are digests of documents that say the same.** -/
theorem meaning_of_digest {E : Externals} {j j' : Json} {digest : List UInt8} (hj : Json.Distinct j)
    (hj' : Json.Distinct j') (happart : TellsApart E j j') (h : reviewDigestValue E j = some digest)
    (h' : reviewDigestValue E j' = some digest) : Json.meaning j = Json.meaning j' := by
  obtain ⟨text, htext, hdigest⟩ := Option.map_eq_some_iff.mp h
  obtain ⟨text', htext', hdigest'⟩ := Option.map_eq_some_iff.mp h'
  have hsame := happart text text' htext htext' (Vector.toList_inj.mp (hdigest.trans hdigest'.symm))
  apply (Json.render_sorted_inj hj hj').mp
  rw [← canonical_eq htext, ← canonical_eq htext', hsame]

/-- **What a signed approval covers**: transcripts of approvals and of enrolments tell everything
they were made from and are never equal to one another; the canonical text of both copies tells
what a document says, whatever the order of its members, so that reviews with one digest are one
review, where the hash tells their texts apart.
SRCLINE: approval_v2.rs:52-215, companion approval_v2.rs:210-264 -/
theorem transcripts_tell_approvals (E : Externals) (P : Model.Companion.Packages) :
    (∀ (context context' : ApprovalContext) (binding binding' : ApprovalBinding)
        (generation generation' : UInt64) (keyId keyId' : String) (data : List UInt8),
      binding.expiresAtUnixSeconds < u64Size → binding'.expiresAtUnixSeconds < u64Size →
      approvalTranscript E context binding generation keyId = some data →
      approvalTranscript E context' binding' generation' keyId' = some data →
      (context.providerIdentity = context'.providerIdentity ∧
        context.approvalClient = context'.approvalClient ∧ keyId = keyId' ∧
        binding.requestId = binding'.requestId) ∧
      (binding.recordDigest = binding'.recordDigest ∧ binding.policyDigest = binding'.policyDigest ∧
        binding.argumentsDigest = binding'.argumentsDigest ∧
        binding.expiresAtUnixSeconds = binding'.expiresAtUnixSeconds) ∧
      generation = generation' ∧ context.ticket = context'.ticket ∧
      context.ticketDeadlineUnixMs = context'.ticketDeadlineUnixMs ∧
      reviewDigest E context.review = reviewDigest E context'.review) ∧
    (∀ (providerIdentity providerIdentity' approvalClient approvalClient' : String)
        (publicKey publicKey' : List UInt8) (ticket ticket' actionId actionId' : String) (data : List UInt8),
      enrollTranscript providerIdentity approvalClient publicKey ticket actionId = some data →
      enrollTranscript providerIdentity' approvalClient' publicKey' ticket' actionId' = some data →
      providerIdentity = providerIdentity' ∧ approvalClient = approvalClient' ∧
        publicKey = publicKey' ∧ ticket = ticket' ∧ actionId = actionId') ∧
    (∀ (context : ApprovalContext) (binding : ApprovalBinding) (generation : UInt64)
        (keyId providerIdentity approvalClient : String) (publicKey data data' : List UInt8)
        (ticket actionId : String),
      approvalTranscript E context binding generation keyId = some data →
      enrollTranscript providerIdentity approvalClient publicKey ticket actionId = some data' →
      data ≠ data') ∧
    (∀ j j' : Json, Json.Distinct j → Json.Distinct j' →
      (∀ text text', canonical j = some text → canonical j' = some text' →
        (text = text' ↔ Json.meaning j = Json.meaning j')) ∧
      (Model.Companion.canonical j = Model.Companion.canonical j' ↔ Json.meaning j = Json.meaning j') ∧
      (TellsApart E j j' → ∀ digest, reviewDigestValue E j = some digest →
        reviewDigestValue E j' = some digest → Json.meaning j = Json.meaning j') ∧
      (CompanionTellsApart P j j' → Model.Companion.reviewDigest P j = Model.Companion.reviewDigest P j' →
        Json.meaning j = Json.meaning j')) ∧
    ∀ review review' : DirectReview, TellsApart E review.toJson review'.toJson →
      ∀ digest, reviewDigest E review = some digest → reviewDigest E review' = some digest →
      review = review' := by
  refine ⟨?_, ?_, ?_, ?_, ?_⟩
  · intro context context' binding binding' generation generation' keyId keyId' data hexpires hexpires' h h'
    exact approvalTranscript_inj hexpires hexpires' h h'
  · intro providerIdentity providerIdentity' approvalClient approvalClient' publicKey publicKey' ticket
      ticket' actionId actionId' data h h'
    exact enrollTranscript_inj h h'
  · intro context binding generation keyId providerIdentity approvalClient publicKey data data' ticket
      actionId h h'
    exact approvalTranscript_ne_enroll h h'
  · intro j j' hj hj'
    refine ⟨fun text text' h h' => ?_, ?_, fun happart digest h h' => ?_, fun happart h => ?_⟩
    · rw [canonical_eq h, canonical_eq h']
      exact Json.render_sorted_inj hj hj'
    · rw [companion_canonical_eq, companion_canonical_eq]
      exact Json.render_sorted_inj hj hj'
    · exact meaning_of_digest hj hj' happart h h'
    · have hsame := happart (Vector.toList_inj.mp h)
      rw [companion_canonical_eq, companion_canonical_eq] at hsame
      exact (Json.render_sorted_inj hj hj').mp hsame
  · intro review review' happart digest h h'
    apply review_meaning_inj
    exact meaning_of_digest (distinct_review review) (distinct_review review') happart h h'

/-! ## Two approvals -/

def sampleDigest : String := sampleSubmission.expectedPolicyRevision

def sampleReview : DirectReview where
  id := sampleSubmission.nonce
  requester := "agent"
  operation := "deploy-site"
  effect := "Deploy the site"
  create := none
  target := "staging"
  ssh := none
  arguments := ["staging"]
  credentials := [⟨"deploy", .login⟩]
  executableDigest := sampleDigest
  policyDigest := sampleDigest
  argumentsDigest := sampleDigest
  expiresAtUnixSeconds := 1000
  oneTime := "once"
  status := .pending

def sampleContext : ApprovalContext where
  providerIdentity := sampleDigest
  approvalClient := sampleDigest
  ticket := sampleDigest
  ticketDeadlineUnixMs := 1000000
  review := sampleReview

def sampleBinding : ApprovalBinding where
  requestId := sampleReview.id
  requesterUid := 1001
  agentOwner := none
  policyDigest := sampleDigest
  argumentsDigest := sampleDigest
  expiresAtUnixSeconds := 1000
  lifecycleEpoch := 1
  recordDigest := sampleDigest

def samplePackages : Model.Companion.Packages where
  sha256 _ := Vector.replicate 32 0
  fromDer _ := true
  fromSec1Bytes _ := true
  errorResponse _ := none
  sessionResponse _ := none
  listResponse _ := none
  historyResponse _ := none
  reviewResponse _ := none
  reviewResponseV2 _ := none
  rawReview _ := none
  statusResponse _ := none

/-- **The transcripts of two generations differ.** -/
theorem transcripts_tell_approvals_sample :
    (approvalTranscript sampleExternals sampleContext sampleBinding 1 sampleDigest).isSome = true ∧
      approvalTranscript sampleExternals sampleContext sampleBinding 1 sampleDigest ≠
        approvalTranscript sampleExternals sampleContext sampleBinding 2 sampleDigest := by
  have hsome : (approvalTranscript sampleExternals sampleContext sampleBinding 1 sampleDigest).isSome = true := by
    decide +kernel
  refine ⟨hsome, fun heq => ?_⟩
  obtain ⟨data, hdata⟩ := Option.isSome_iff_exists.mp hsome
  have htold := (transcripts_tell_approvals sampleExternals samplePackages).1 sampleContext sampleContext
    sampleBinding sampleBinding 1 2 sampleDigest sampleDigest data (by decide) (by decide) hdata
    (heq ▸ hdata)
  exact absurd htold.2.2.1 (by decide)

end VaultAccess.Analysis.Approval
