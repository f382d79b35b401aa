import VaultAccess.Analysis.Expiry
import VaultAccess.Analysis.Recent
import VaultAccess.Analysis.Lifecycle
import VaultAccess.Analysis.RecordValid
import VaultAccess.Analysis.Sizes
import VaultAccess.Analysis.Stored
import VaultAccess.Analysis.Policy
import VaultAccess.Library.Unambiguous
import VaultAccess.Model.HistoryAnswers

/-!
# A history fits in one frame

Every event of a stored record is bounded by the checks of the record, and a review with a create
effect or an SSH destination shows one credential only; two hundred such events fit in the frame of
the owner's socket and in the companion's limit.
-/

set_option autoImplicit false

namespace VaultAccess.Analysis.HistorySizes

open VaultAccess.Library VaultAccess.Library.Text VaultAccess.Model

/-! ## Texts -/

/-- Characters that a document carries as they are. -/
def Plain (c : Char) : Prop := isAsciiGraphic c = true ∧ c ≠ '"' ∧ c ≠ '\\'

theorem size_plain {s : String} {n : ℕ} (h : ∀ c ∈ s.toList, Plain c) (hsize : s.utf8ByteSize ≤ n) :
    (Json.str s).size ≤ 2 + n := by
  rw [size_str, Json.weight_quote_plain h]
  omega

theorem size_text {s : String} {n : ℕ} (h : ∀ c ∈ s.toList, isControl c = false)
    (hsize : s.utf8ByteSize ≤ n) : (Json.str s).size ≤ 2 + 2 * n := by
  have hquote := Json.weight_quote_le h
  rw [size_str]
  omega

/-- INTERNAL: letters, digits and the marks of identifiers are plain. -/
theorem plain_of_mark {c : Char}
    (h : isAsciiAlphanumeric c = true ∨ c = '-' ∨ c = '_' ∨ c = '.' ∨ c = '/' ∨ c = ':') : Plain c := by
  rcases h with halphanumeric | rfl | rfl | rfl | rfl | rfl
  · rw [isAsciiAlphanumeric_iff] at halphanumeric
    have hquote : ('"').toNat = 34 := rfl
    have hslash : ('\\').toNat = 92 := rfl
    refine ⟨(isAsciiGraphic_iff c).mpr (by omega), ?_, ?_⟩
    · rintro rfl
      omega
    · rintro rfl
      omega
  all_goals exact ⟨by decide, by decide, by decide⟩

theorem size_marks {s : String} {n : ℕ} (h : ∀ c ∈ s.toList,
    isAsciiAlphanumeric c = true ∨ c = '-' ∨ c = '_' ∨ c = '.' ∨ c = '/' ∨ c = ':')
    (hsize : s.utf8ByteSize ≤ n) : (Json.str s).size ≤ 2 + n :=
  size_plain (fun c hc => plain_of_mark (h c hc)) hsize

/-- INTERNAL: the characters of an operation id behind the first one. -/
theorem operationIdTail_chars (previous : Char) (rest : List Char) (h : operationIdTail previous rest = true) :
    ∀ c ∈ rest, isAsciiAlphanumeric c = true ∨ c = '-' := by
  induction rest generalizing previous with
  | nil => simp
  | cons c rest ih =>
    simp only [operationIdTail, Bool.and_eq_true, Bool.or_eq_true, decide_eq_true_eq] at h
    intro d hd
    rcases List.mem_cons.mp hd with rfl | hrest
    · rcases h.1 with (hletter | hdigit) | hhyphen
      · exact .inl (by simp [isAsciiAlphanumeric, hletter])
      · exact .inl (by simp [isAsciiAlphanumeric, hdigit])
      · exact .inr hhyphen.1
    · exact ih c h.2 d hrest

/-- INTERNAL: the id of an operation. -/
theorem size_operationId {value : String} (h : validOperationId value = true) : (Json.str value).size ≤ 66 := by
  simp only [validOperationId, Bool.and_eq_true, decide_eq_true_eq] at h
  obtain ⟨⟨⟨-, hsize⟩, hchars⟩, -⟩ := h
  apply size_marks ?_ hsize
  cases htext : value.toList with
  | nil => simp
  | cons first rest =>
    rw [htext] at hchars
    simp only [Bool.and_eq_true] at hchars
    intro c hc
    rcases List.mem_cons.mp hc with rfl | hrest
    · exact .inl (by simp [isAsciiAlphanumeric, hchars.1])
    · rcases operationIdTail_chars first rest hchars.2 c hrest with hletter | hhyphen
      · exact .inl hletter
      · exact .inr (.inl hhyphen)

/-- INTERNAL: the characters of a UUID. -/
theorem uuidFrom_chars (index : ℕ) (text : List Char) (h : uuidFrom index text = true) :
    ∀ c ∈ text, isAsciiAlphanumeric c = true ∨ c = '-' := by
  induction text generalizing index with
  | nil => simp
  | cons c rest ih =>
    rw [uuidFrom, Bool.and_eq_true] at h
    intro d hd
    rcases List.mem_cons.mp hd with rfl | hrest
    · split_ifs at h with hplace
      · exact .inr (of_decide_eq_true h.1)
      · rw [isLowerHex_iff] at h
        exact .inl ((isAsciiAlphanumeric_iff d).mpr (by omega))
    · exact ih (index + 1) h.2 d hrest

/-- INTERNAL: the id of a vault item. -/
theorem size_validId {value : String} (h : validId value = true) : (Json.str value).size ≤ 38 := by
  simp only [validId, uuidShape, Bool.and_eq_true, decide_eq_true_eq] at h
  apply size_marks ?_ (Nat.le_of_eq h.1)
  intro c hc
  rcases uuidFrom_chars 0 value.toList h.2 c hc with hletter | hhyphen
  · exact .inl hletter
  · exact .inr (.inl hhyphen)

/-- INTERNAL: a canonical path. -/
theorem size_canonicalPath {value : String} (h : canonicalPath value = true) : (Json.str value).size ≤ 258 := by
  simp only [canonicalPath, Bool.and_eq_true, decide_eq_true_eq, List.all_eq_true] at h
  obtain ⟨⟨-, hsize⟩, hparts⟩ := h
  apply size_marks ?_ hsize
  intro c hc
  by_cases hslash : c = '/'
  · subst hslash
    simp
  · obtain ⟨part, hpart, hmem⟩ := (mem_split_iff '/' value.toList c).mpr ⟨hc, hslash⟩
    have hsegment := hparts part hpart
    simp only [canonicalSegment, Bool.and_eq_true, List.all_eq_true, Bool.or_eq_true, decide_eq_true_eq] at hsegment
    rcases hsegment.1.1.2 c hmem with (hletter | hdigit) | hhyphen
    · exact .inl (by simp [isAsciiAlphanumeric, hletter])
    · exact .inl (by simp [isAsciiAlphanumeric, hdigit])
    · exact .inr (.inl hhyphen)

/-- INTERNAL: a selector of a create effect. -/
theorem size_createField {f : String} (h : validCreateField f = true) : (Json.str f).size ≤ 137 := by
  simp only [validCreateField, Bool.or_eq_true, decide_eq_true_eq] at h
  rcases h with (rfl | rfl) | h
  · exact le_trans (b := 10) (by decide) (by decide)
  · exact le_trans (b := 7) (by decide) (by decide)
  · split at h
    · next name hname =>
      simp only [Bool.and_eq_true, validFieldName, List.all_eq_true, Bool.or_eq_true,
        decide_eq_true_eq, String.toList_ofList] at h
      obtain ⟨⟨⟨-, hsize⟩, hchars⟩, -⟩ := h
      obtain ⟨front, htext, hfront⟩ := List.dropPrefix?_eq_some_iff.mp hname
      have hmarker : front = customMarker.toList := (beq_iff_eq.mp hfront)
      have hlist : f = customMarker ++ String.ofList name := by
        rw [← String.toList_inj, htext, hmarker]
        simp
      subst hlist
      have hmarkSize : customMarker.utf8ByteSize = 7 := by decide
      apply size_marks (n := 135)
      · intro c hc
        rw [String.toList_append, String.toList_ofList, List.mem_append] at hc
        rcases hc with hmark | hmem
        · have hall : (customMarker.toList.all fun c => isAsciiAlphanumeric c || decide (c = '-') ||
              decide (c = '_') || decide (c = '.') || decide (c = '/') || decide (c = ':')) = true := by decide
          simpa [or_assoc] using List.all_eq_true.mp hall c hmark
        · rcases hchars c hmem with ((hletter | hhyphen) | hunderscore) | hdot
          · exact .inl hletter
          · exact .inr (.inl hhyphen)
          · exact .inr (.inr (.inl hunderscore))
          · exact .inr (.inr (.inr (.inl hdot)))
      · rw [String.utf8ByteSize_append, hmarkSize]
        omega
    · cases h

/-! ## Hosts -/

/-- INTERNAL: the characters of a number. -/
theorem lowerHex_writeNumber {radix n : ℕ} (hradix : radix = 10 ∨ radix = 16) :
    ∀ c ∈ IpAddr.writeNumber radix n, isLowerHex c = true := by
  intro c hc
  rcases hradix with rfl | rfl
  · have hdigit := isAsciiDigit_of_mem_toDigits n c hc
    simp [isLowerHex, hdigit]
  · exact (Json.toDigits_hex n).1 c hc

/-- INTERNAL: numbers with a separator are not long. -/
theorem writeSeparated_le (separator : Char) {radix k : ℕ} (hradix : 1 < radix) (hk : 0 < k)
    (numbers : List ℕ) (first : Bool) (h : ∀ n ∈ numbers, n < radix ^ k) :
    (IpAddr.writeSeparated separator radix first numbers).length ≤ (k + 1) * numbers.length := by
  induction numbers generalizing first with
  | nil => exact Nat.le_refl _
  | cons n rest ih =>
    simp only [List.mem_cons, forall_eq_or_imp] at h
    have hnumber : (Nat.toDigits radix n).length ≤ k := (Nat.length_toDigits_le_iff hradix hk).mpr h.1
    have hrest := ih false h.2
    have hmark : (if first then [] else [separator] : List Char).length ≤ 1 := by
      split_ifs <;> simp
    rw [IpAddr.writeSeparated, List.length_append, List.length_append, List.length_cons, Nat.mul_add]
    unfold IpAddr.writeNumber
    omega

theorem mem_writeSeparated {separator : Char} {radix : ℕ} (hradix : radix = 10 ∨ radix = 16)
    (numbers : List ℕ) (first : Bool) :
    ∀ c ∈ IpAddr.writeSeparated separator radix first numbers, c = separator ∨ isLowerHex c = true := by
  induction numbers generalizing first with
  | nil => simp [IpAddr.writeSeparated]
  | cons n rest ih =>
    intro c hc
    rw [IpAddr.writeSeparated, List.mem_append, List.mem_append] at hc
    rcases hc with (hmark | hnumber) | hrest
    · split_ifs at hmark
      · cases hmark
      · exact .inl (List.mem_singleton.mp hmark)
    · exact .inr (lowerHex_writeNumber hradix c hnumber)
    · exact ih false c hrest

/-- INTERNAL: the text of an address. -/
theorem display_spec {ip : IpAddr} (h : ip.WellFormed) : ip.display.length ≤ 64 ∧
    ∀ c ∈ ip.display, c = '.' ∨ c = ':' ∨ isLowerHex c = true := by
  cases ip with
  | v4 octets =>
    have hlength := writeSeparated_le '.' (k := 3) (by decide : 1 < 10) (by decide) octets true
      fun n hn => (h.2 n hn).trans_le (by decide)
    refine ⟨?_, ?_⟩
    · rw [h.1] at hlength
      exact hlength.trans (by decide)
    · intro c hc
      rcases mem_writeSeparated (.inl rfl) octets true c hc with hdot | hdigit
      · exact .inl hdot
      · exact .inr (.inr hdigit)
  | v6 segments =>
    have hgroups : ∀ (groups : List ℕ), groups.Sublist segments →
        (IpAddr.writeSeparated ':' 16 true groups).length ≤ 5 * groups.length ∧
        ∀ c ∈ IpAddr.writeSeparated ':' 16 true groups, c = '.' ∨ c = ':' ∨ isLowerHex c = true := by
      intro groups hsub
      refine ⟨?_, ?_⟩
      · exact writeSeparated_le ':' (by decide) (by decide) groups true fun n hn => h.2 n (hsub.mem hn)
      · intro c hc
        exact .inr (mem_writeSeparated (.inr rfl) groups true c hc)
    have hlength := h.1
    simp only [IpAddr.display]
    unfold IpAddr.writeIpv6
    split
    · next high low =>
      have hhigh : high < 65536 := h.2 high (by simp)
      have hlow : low < 65536 := h.2 low (by simp)
      have hquad := writeSeparated_le '.' (k := 3) (by decide : 1 < 10) (by decide)
        [high / 256, high % 256, low / 256, low % 256] true (by
          intro n hn
          simp only [List.mem_cons, List.not_mem_nil, or_false] at hn
          omega)
      have hmarks : ("::ffff:".toList.all fun c => decide (c = '.') || decide (c = ':') || isLowerHex c) =
          true := by decide
      refine ⟨?_, ?_⟩
      · rw [List.length_append]
        simp only [List.length_cons, List.length_nil] at hquad
        have hfront : "::ffff:".toList.length = 7 := by decide
        omega
      · intro c hc
        cases List.mem_append.mp hc with
        | inl hfront => simpa [or_assoc] using List.all_eq_true.mp hmarks c hfront
        | inr hback =>
          rcases mem_writeSeparated (.inl rfl) _ true c hback with hdot | hdigit
          · exact .inl hdot
          · exact .inr (.inr hdigit)
    · dsimp only
      generalize IpAddr.longestZeros 0 ⟨0, 0⟩ ⟨0, 0⟩ segments = zeros
      split_ifs
      · obtain ⟨hfront, hfront'⟩ := hgroups _ (List.take_sublist zeros.start segments)
        obtain ⟨hback, hback'⟩ := hgroups _ (List.drop_sublist (zeros.start + zeros.len) segments)
        refine ⟨?_, ?_⟩
        · rw [List.length_append, List.length_cons, List.length_cons]
          rw [List.length_take] at hfront
          rw [List.length_drop] at hback
          omega
        · intro c hc
          simp only [List.mem_append, List.mem_cons] at hc
          rcases hc with hmem | rfl | rfl | hmem
          · exact hfront' c hmem
          · exact .inr (.inl rfl)
          · exact .inr (.inl rfl)
          · exact hback' c hmem
      · obtain ⟨hall, hall'⟩ := hgroups segments (List.Sublist.refl _)
        refine ⟨?_, hall'⟩
        omega

/-- INTERNAL: a host name. -/
theorem hostName_chars {host : List Char} (h : hostName host = true) :
    ∀ c ∈ host, isAsciiAlphanumeric c = true ∨ c = '-' ∨ c = '.' := by
  simp only [hostName, Bool.and_eq_true, List.all_eq_true] at h
  intro c hc
  by_cases hdot : c = '.'
  · exact .inr (.inr hdot)
  · obtain ⟨label, hlabel, hmem⟩ := (mem_split_iff '.' host c).mpr ⟨hc, hdot⟩
    have hparts := h.2 label hlabel
    simp only [hostLabel, Bool.and_eq_true, List.all_eq_true, Bool.or_eq_true, decide_eq_true_eq] at hparts
    rcases hparts.2 c hmem with hletter | hhyphen
    · exact .inl hletter
    · exact .inr (.inl hhyphen)

/-- INTERNAL: a normal host. -/
theorem size_host {host : String} (h : normalizeHost host = some host) : (Json.str host).size ≤ 255 := by
  unfold normalizeHost at h
  split at h
  · next ip hip =>
    obtain ⟨hlength, hchars⟩ := display_spec (IpAddr.parse_wellFormed _ _ hip)
    rw [← Option.some.inj h]
    have hascii : ∀ c ∈ ip.display, c.toNat < 128 := by
      intro c hc
      rcases hchars c hc with rfl | rfl | hdigit
      · decide
      · decide
      · rw [isLowerHex_iff] at hdigit
        omega
    apply size_marks (n := 253)
    · intro c hc
      rw [String.toList_ofList] at hc
      rcases hchars c hc with rfl | rfl | hdigit
      · simp
      · simp
      · rw [isLowerHex_iff] at hdigit
        exact .inl ((isAsciiAlphanumeric_iff c).mpr (by omega))
    · rw [utf8ByteSize_of_ascii _ hascii]
      omega
  · dsimp only at h
    split_ifs at h with hname
    have hlower := hostName_toAsciiLowercase _ hname
    rw [← Option.some.inj h]
    apply size_marks (n := 253)
    · intro c hc
      rw [String.toList_ofList] at hc
      rcases hostName_chars hlower c hc with hletter | hhyphen | hdot
      · exact .inl hletter
      · exact .inr (.inl hhyphen)
      · exact .inr (.inr (.inr (.inl hdot)))
    · simp only [hostName, Bool.and_eq_true, decide_eq_true_eq] at hlower
      exact hlower.1.1.2

/-- INTERNAL: the fingerprint of a host key. -/
theorem size_fingerprint {value : String} (h : normalizeFingerprint value = some value) :
    (Json.str value).size ≤ 52 := by
  simp only [normalizeFingerprint, Option.bind_eq_bind, Option.bind_eq_some_iff] at h
  obtain ⟨encoded, -, data, -, hvalue⟩ := h
  split_ifs at hvalue with hlength
  rw [← Option.some.inj hvalue]
  have halphabet : ∀ n < 64, isAsciiGraphic (Base64.standard.char n) = true ∧
      Base64.standard.char n ≠ '"' ∧ Base64.standard.char n ≠ '\\' := by decide
  have hmarker : (fingerprintMarker.toList.all fun c => isAsciiGraphic c && decide (c ≠ '"') &&
      decide (c ≠ '\\')) = true := by decide
  have hencoded : ∀ c ∈ Base64.encode Base64.standard data, Plain c := by
    intro c hc
    obtain ⟨n, hn, rfl⟩ := List.mem_map.mp hc
    exact halphabet n (Base64.sextets_lt data n hn)
  apply size_plain (n := 50)
  · intro c hc
    rw [String.toList_append, String.toList_ofList] at hc
    cases List.mem_append.mp hc with
    | inl hfront => simpa [Plain, and_assoc] using List.all_eq_true.mp hmarker c hfront
    | inr hback => exact hencoded c hback
  · have hascii : ∀ c ∈ Base64.encode Base64.standard data, c.toNat < 128 := by
      intro c hc
      have hrange := (isAsciiGraphic_iff c).mp (hencoded c hc).1
      omega
    have hfront : fingerprintMarker.utf8ByteSize = 7 := by decide
    rw [String.utf8ByteSize_append, hfront, utf8ByteSize_of_ascii _ hascii, Base64.length_encode, hlength]
    decide

/-- INTERNAL: a path for SSH. -/
theorem size_sshPath {value : String} (h : validSshPath value = true) : (Json.str value).size ≤ 258 := by
  simp only [validSshPath, Bool.and_eq_true, Bool.or_eq_true, List.all_eq_true, decide_eq_true_eq] at h
  apply size_marks (n := 256)
  · intro c hc
    rcases h.2 c hc with (((hletter | hslash) | hdot) | hunderscore) | hhyphen
    · exact .inl hletter
    · exact .inr (.inr (.inr (.inr (.inl hslash))))
    · exact .inr (.inr (.inr (.inl hdot)))
    · exact .inr (.inr (.inl hunderscore))
    · exact .inr (.inl hhyphen)
  · rcases h.1 with rfl | himage
    · decide
    · simp only [validImagePath, Bool.and_eq_true, decide_eq_true_eq] at himage
      exact himage.1.1.1.2

/-! ## The parts of an event -/

/-- INTERNAL: a destination in the vault. -/
theorem size_destination {d : Destination} (h : d.itemName.isSome = true) : d.toJson.size ≤ 644 := by
  unfold Destination.itemName at h
  split_ifs at h with hvalid
  · simp only [Bool.and_eq_true] at hvalid
    obtain ⟨⟨⟨haccount, hfolderId⟩, hfolder⟩, hreference⟩ := hvalid
    have haccount := size_validId haccount
    have hfolderId := size_validId hfolderId
    have hfolder := size_canonicalPath hfolder
    have hreference := size_canonicalPath hreference
    have hname₁ : Json.weight (Json.quote "account_id") = 12 := by decide
    have hname₂ : Json.weight (Json.quote "folder") = 8 := by decide
    have hname₃ : Json.weight (Json.quote "folder_id") = 11 := by decide
    have hname₄ : Json.weight (Json.quote "reference") = 11 := by decide
    have hsize := Json.size_obj_le [("account_id", .str d.accountId), ("folder", .str d.folder),
      ("folder_id", .str d.folderId), ("reference", .str d.reference)]
    simp only [List.map_cons, List.map_nil, List.sum_cons, List.sum_nil] at hsize
    simp only [Destination.toJson]
    omega
  · cases h

/-- INTERNAL: a create effect. -/
theorem size_create {c : CreateEffect} (h : c.valid = true) : c.toJson.size ≤ 6489 := by
  simp only [CreateEffect.valid, Bool.and_eq_true, decide_eq_true_eq, List.all_eq_true] at h
  obtain ⟨⟨⟨⟨⟨⟨⟨⟨⟨⟨hdestination, -⟩, hserver⟩, hcontrol⟩, hmarker⟩, -⟩, hlength⟩, -⟩, -⟩, hfields⟩, -⟩ := h
  have hdestination := size_destination hdestination
  have hmarker := size_operationId hmarker
  have hserver : (Json.str c.server).size ≤ 2 + 2 * 512 := size_text (by simpa using hcontrol) hserver
  have hfields : (Json.texts c.fields).size ≤ 2 + 138 * c.fields.length := by
    apply Json.size_arr_map_le
    intro field hfield
    exact Nat.succ_le_succ (size_createField (hfields field hfield))
  have hname₁ : Json.weight (Json.quote "server") = 8 := by decide
  have hname₂ : Json.weight (Json.quote "destination") = 13 := by decide
  have hname₃ : Json.weight (Json.quote "fields") = 8 := by decide
  have hname₄ : Json.weight (Json.quote "eligibility_marker") = 20 := by decide
  have hsize := Json.size_obj_le [("server", .str c.server), ("destination", c.destination.toJson),
    ("fields", Json.texts c.fields), ("eligibility_marker", .str c.eligibilityMarker)]
  simp only [List.map_cons, List.map_nil, List.sum_cons, List.sum_nil] at hsize
  simp only [CreateEffect.toJson]
  omega

/-- INTERNAL: the destination of an SSH operation and its directory. -/
theorem size_ssh {s : SshReview} (h : s.valid = true) : s.toJson.size ≤ 1000 := by
  simp only [SshReview.valid, validSshReview, Bool.and_eq_true, decide_eq_true_eq, List.all_eq_true,
    Bool.or_eq_true] at h
  obtain ⟨⟨⟨⟨⟨⟨⟨⟨⟨⟨hdirectory, hpath⟩, -⟩, -⟩, -⟩, huserSize⟩, -⟩, huser⟩, -⟩, hhost⟩, hfingerprint⟩ := h
  have hdirectory := size_sshPath hdirectory
  have hpath := size_sshPath hpath
  have hhost := size_host hhost
  have hfingerprint := size_fingerprint hfingerprint
  have hport : (Json.nat s.destination.port.toNat).size ≤ 5 :=
    Json.size_nat_le (by decide) (s.destination.port.toNat_lt.trans (by decide))
  have huser : (Json.str s.destination.user).size ≤ 2 + 64 := by
    apply size_marks ?_ huserSize
    intro c hc
    rcases huser c hc with ((hletter | hunderscore) | hdot) | hhyphen
    · exact .inl hletter
    · exact .inr (.inr (.inl hunderscore))
    · exact .inr (.inr (.inr (.inl hdot)))
    · exact .inr (.inl hhyphen)
  have hname₁ : Json.weight (Json.quote "host") = 6 := by decide
  have hname₂ : Json.weight (Json.quote "port") = 6 := by decide
  have hname₃ : Json.weight (Json.quote "user") = 6 := by decide
  have hname₄ : Json.weight (Json.quote "resource_path") = 15 := by decide
  have hname₅ : Json.weight (Json.quote "host_fingerprint") = 18 := by decide
  have hname₆ : Json.weight (Json.quote "working_directory") = 19 := by decide
  have hname₇ : Json.weight (Json.quote "destination") = 13 := by decide
  have hdestination := Json.size_obj_le [("host", .str s.destination.host),
    ("port", Json.nat s.destination.port.toNat), ("user", .str s.destination.user),
    ("resource_path", .str s.destination.resourcePath),
    ("host_fingerprint", .str s.destination.hostFingerprint)]
  have hsize := Json.size_obj_le [("working_directory", .str s.workingDirectory),
    ("destination", s.destination.toJson)]
  simp only [List.map_cons, List.map_nil, List.sum_cons, List.sum_nil] at hdestination hsize
  simp only [SshReview.toJson]
  simp only [SshDestination.toJson] at hsize ⊢
  omega

/-- INTERNAL: a credential of a review. -/
theorem size_credential {c : ReviewCredential} (h : reviewText c.label = true) : c.toJson.size + 1 ≤ 547 := by
  simp only [reviewText, Bool.and_eq_true, decide_eq_true_eq] at h
  have hlabel : (Json.str c.label).size ≤ 2 + 2 * 256 := size_text (by simpa using h.2) h.1.2
  have huse : c.useType.toJson.size ≤ 7 := by cases c.useType <;> decide
  have hname₁ : Json.weight (Json.quote "label") = 7 := by decide
  have hname₂ : Json.weight (Json.quote "use_type") = 10 := by decide
  have hsize := Json.size_obj_le [("label", .str c.label), ("use_type", c.useType.toJson)]
  simp only [List.map_cons, List.map_nil, List.sum_cons, List.sum_nil] at hsize
  simp only [ReviewCredential.toJson]
  omega

/-- INTERNAL: the requester of a record. -/
theorem size_requester {d : DirectRecord} (h : d.ownerValid = true) :
    (d.owner.snapshot d.review.requester).toJson.size ≤ 380 := by
  have hname₁ : Json.weight (Json.quote "kind") = 6 := by decide
  have hname₂ : Json.weight (Json.quote "label") = 7 := by decide
  unfold DirectRecord.ownerValid at h
  cases howner : d.agentOwner with
  | none =>
    rw [howner] at h
    have hrequester : d.review.requester = HUMAN_REQUESTER := of_decide_eq_true h
    have hlabel : (Json.str HUMAN_REQUESTER).size ≤ 22 := by decide
    have hkind : (Json.str "human").size = 7 := by decide
    have huid : (Json.nat d.ownerUid.toNat).size ≤ 10 :=
      Json.size_nat_le (by decide) (d.ownerUid.toNat_lt.trans (by decide))
    have hname₃ : Json.weight (Json.quote "uid") = 5 := by decide
    have hsize := Json.size_obj_le [("kind", .str "human"), ("uid", Json.nat d.ownerUid.toNat),
      ("label", .str HUMAN_REQUESTER)]
    simp only [List.map_cons, List.map_nil, List.sum_cons, List.sum_nil] at hsize
    simp only [DirectRecord.owner, howner, RequestOwner.snapshot, RequesterSnapshot.toJson, hrequester]
    omega
  | some owner =>
    rw [howner] at h
    simp only [Bool.and_eq_true, AgentOwner.valid, validLabel, decide_eq_true_eq, List.all_eq_true,
      Bool.or_eq_true] at h
    obtain ⟨⟨⟨⟨⟨⟨-, hfingerprint⟩, ⟨⟨-, hlength⟩, hchars⟩, -⟩, -⟩, -⟩, -⟩, -⟩ := h
    have hlabel : (Json.str owner.label).size ≤ 2 + 2 * MAX_AGENT_LABEL_LEN := by
      apply size_text ?_ hlength
      intro c hc
      rcases hchars c hc with hgraphic | rfl
      · exact isControl_of_isAsciiGraphic c hgraphic
      · decide
    have hmaximum : MAX_AGENT_LABEL_LEN = 128 := rfl
    have hfingerprint := weight_quote_sha256 hfingerprint
    have hkind : (Json.str "agent").size = 7 := by decide
    have hname₃ : Json.weight (Json.quote "fingerprint") = 13 := by decide
    have hsize := Json.size_obj_le [("kind", .str "agent"), ("label", .str owner.label),
      ("fingerprint", .str owner.fingerprint)]
    simp only [List.map_cons, List.map_nil, List.sum_cons, List.sum_nil] at hsize
    rw [← size_str] at hfingerprint
    simp only [DirectRecord.owner, howner, RequestOwner.snapshot, RequesterSnapshot.toJson]
    omega

/-- INTERNAL: the receipt of a write. -/
theorem size_receipt {r : WriteReceipt} (hattempt : validRequestId r.attemptId = true)
    (hitem : r.itemId.all validId = true) : r.toJson.size ≤ 150 := by
  have hattempt := weight_quote_requestId hattempt
  rw [← size_str] at hattempt
  have hstatus : r.status.toJson.size ≤ 20 := by cases r.status <;> decide
  have hname₁ : Json.weight (Json.quote "attempt_id") = 12 := by decide
  have hname₂ : Json.weight (Json.quote "item_id") = 9 := by decide
  have hname₃ : Json.weight (Json.quote "status") = 8 := by decide
  unfold WriteReceipt.toJson
  apply (Json.size_obj_le _).trans
  cases hid : r.itemId with
  | none =>
    have hnull : Json.null.size = 4 := by decide
    simp only [List.map_cons, List.map_nil, List.sum_cons, List.sum_nil]
    omega
  | some id =>
    rw [hid] at hitem
    have hitem := size_validId hitem
    simp only [List.map_cons, List.map_nil, List.sum_cons, List.sum_nil]
    omega

/-- INTERNAL: a status. -/
theorem size_status {status : DirectStatus} (h : status.exitInRange = true) : status.toJson.size ≤ 64 := by
  cases status with
  | completed exitCode =>
    simp only [DirectStatus.exitInRange, Bool.and_eq_true, decide_eq_true_eq] at h
    obtain ⟨code, rfl⟩ := Int.eq_ofNat_of_zero_le h.1
    have hcode : (Json.int code).size ≤ 3 := Json.size_nat_le (by decide) (by omega)
    have hname₁ : Json.weight (Json.quote "status") = 8 := by decide
    have hname₂ : Json.weight (Json.quote "exit_code") = 11 := by decide
    have htag : (Json.str "completed").size = 11 := by decide
    have hsize := Json.size_obj_le [("status", .str "completed"), ("exit_code", .int code)]
    simp only [List.map_cons, List.map_nil, List.sum_cons, List.sum_nil] at hsize
    simp only [DirectStatus.toJson]
    omega
  | failed reason => cases reason <;> decide
  | _ => decide

theorem size_u64 {n : ℕ} (h : n < u64Size) : (Json.nat n).size ≤ 20 :=
  Json.size_nat_le (by decide) (h.trans (by decide))

theorem size_outcome (outcome : HistoryOutcome) : outcome.toJson.size ≤ 23 := by
  cases outcome <;> decide

/-! ## Events -/

/-- What members of an object take at most. -/
def cost (members : List (String × Json)) : ℕ :=
  (members.map fun member => Json.weight (Json.quote member.1) + member.2.size + 2).sum

theorem cost_append (a b : List (String × Json)) : cost (a ++ b) = cost a + cost b := by
  simp [cost]

/-- INTERNAL: a member that may be left out. -/
theorem cost_optional {α : Type} {name : String} {value : Option α} {encode : α → Json} {n : ℕ}
    (h : ∀ v, value = some v → (encode v).size ≤ n) :
    cost (optionalMember name value encode) ≤ (Json.weight (Json.quote name) + n + 2) * value.toList.length := by
  cases value with
  | none => exact Nat.zero_le _
  | some v =>
    have hv := h v rfl
    simp only [optionalMember, cost, List.map_cons, List.map_nil, List.sum_cons, List.sum_nil,
      Option.toList_some, List.length_singleton]
    omega

/-- A create effect or an SSH destination comes with one credential. -/
def Slim (d : DirectRecord) : Prop :=
  d.review.create.isSome = true ∨ d.review.ssh.isSome = true → d.review.credentials.length ≤ 1

/-- The times of an event are machine words. -/
structure Words (e : HistoryEvent) : Prop where
  created : e.createdAtUnixSeconds < u64Size
  expires : e.expiresAtUnixSeconds < u64Size
  recorded : ∀ t, e.atUnixSeconds = some t → t < u64Size

/-- INTERNAL: the events of a history are numbered. -/
theorem ordinal_of_historyLoop (d : DirectRecord) (ordinal : ℕ) (previous last : Option DirectStatus)
    (l : List HistoryEvent) (h : d.historyLoop ordinal previous l = some last) :
    ∀ e ∈ l, e.ordinal < ordinal + l.length := by
  induction l generalizing ordinal previous with
  | nil => simp
  | cons a l ih =>
    rw [historyLoop_cons] at h
    split_ifs at h with ha
    simp only [eventOk, Bool.and_eq_true, decide_eq_true_eq] at ha
    intro e he
    rw [List.length_cons]
    rcases List.mem_cons.mp he with rfl | hmem
    · have hordinal := ha.1.1.1
      omega
    · have hrest := ih (ordinal + 1) a.status h e hmem
      omega

/-- INTERNAL: what an event shares with its record. -/
structure Shares (d : DirectRecord) (e : HistoryEvent) : Prop where
  version : e.version = HISTORY_VERSION
  requestId : e.requestId = d.review.id
  operation : e.operation = d.review.operation
  requester : e.requester = d.owner.snapshot d.review.requester
  policy : e.policyRevision = d.review.policyDigest
  credentials : e.credentials = d.review.credentials
  create : e.create = d.review.create
  ssh : e.ssh = d.review.ssh
  valid : e.valid = true
  receipt : ∀ receipt, e.writeReceipt = some receipt → receiptExtends receipt d.writeReceipt = true

theorem shares_of_matchesRecord {d : DirectRecord} {e : HistoryEvent} (h : e.matchesRecord d = true) :
    Shares d e := by
  simp only [HistoryEvent.matchesRecord, Bool.and_eq_true, decide_eq_true_eq] at h
  obtain ⟨⟨hreceipt, hvalid⟩, heq⟩ := h
  refine ⟨?_, ?_, ?_, ?_, ?_, ?_, ?_, ?_, hvalid, ?_⟩
  all_goals first
    | (rw [heq]; rfl)
    | (intro receipt hsome; simpa [hsome] using hreceipt)

/-- INTERNAL: the receipt of an event. -/
theorem size_eventReceipt {E : Externals} {id : String} {epoch : ℕ} {d : DirectRecord}
    (hd : RecordChecked E id epoch d) {e : HistoryEvent} (h : Shares d e) :
    ∀ receipt, e.writeReceipt = some receipt → receipt.toJson.size ≤ 150 ∧ d.review.create.isSome = true := by
  intro receipt hsome
  have hextends := h.receipt receipt hsome
  unfold receiptExtends at hextends
  cases hlatest : d.writeReceipt with
  | none =>
    rw [hlatest] at hextends
    cases hextends
  | some latest =>
    rw [hlatest] at hextends
    simp only [Bool.and_eq_true, decide_eq_true_eq] at hextends
    have hvalid := hd.receipt latest hlatest
    simp only [DirectRecord.receiptValid, Bool.and_eq_true, decide_eq_true_eq] at hvalid
    obtain ⟨⟨⟨⟨hcreate, -⟩, hattempt⟩, hitem⟩, -⟩ := hvalid
    refine ⟨size_receipt ?_ ?_, hcreate⟩
    · rw [hextends.1, hattempt, hd.core.requestId]
      exact hd.core.idValid
    · cases hid : receipt.itemId with
      | none => rfl
      | some id =>
        rw [hid] at hextends
        have hsame : latest.itemId = some id := by simpa using hextends.2
        rw [hsame] at hitem
        exact hitem

/-- INTERNAL: the approval of an event. -/
theorem size_approval {e : HistoryEvent} (h : e.valid = true) :
    ∀ method, e.approval = some method → method.toJson.size ≤ 100 := by
  intro method hmethod
  simp only [HistoryEvent.valid, Bool.and_eq_true] at h
  have happroval := h.1.2
  unfold HistoryEvent.approvalValid at happroval
  rw [hmethod] at happroval
  cases method with
  | biometric keyId =>
    simp only [Bool.and_eq_true] at happroval
    have hkey := weight_quote_sha256 happroval.2
    rw [← size_str] at hkey
    have hname₁ : Json.weight (Json.quote "method") = 8 := by decide
    have hname₂ : Json.weight (Json.quote "key_id") = 8 := by decide
    have htag : (Json.str "biometric").size = 11 := by decide
    have hsize := Json.size_obj_le [("method", .str "biometric"), ("key_id", .str keyId)]
    simp only [List.map_cons, List.map_nil, List.sum_cons, List.sum_nil] at hsize
    simp only [ApprovalMethod.toJson]
    omega

/-- What an event says of its request. -/
def subject (e : HistoryEvent) : List (String × Json) :=
  [("version", Json.nat e.version), ("request_id", .str e.requestId), ("operation", .str e.operation),
    ("requester", e.requester.toJson), ("policy_revision", .str e.policyRevision),
    ("credentials", .arr (e.credentials.map ReviewCredential.toJson))]

/-- The times, the outcome and the status of an event. -/
def course (e : HistoryEvent) : List (String × Json) :=
  [("created_at_unix_seconds", Json.nat e.createdAtUnixSeconds),
    ("expires_at_unix_seconds", Json.nat e.expiresAtUnixSeconds),
    ("at_unix_seconds", match e.atUnixSeconds with | some t => Json.nat t | none => .null),
    ("ordinal", Json.nat e.ordinal), ("outcome", e.outcome.toJson),
    ("status", match e.status with | some s => s.toJson | none => .null)]

theorem toJson_eq (e : HistoryEvent) : e.toJson = .obj (subject e ++
    optionalMember "create" e.create CreateEffect.toJson ++
    optionalMember "write_receipt" e.writeReceipt WriteReceipt.toJson ++
    optionalMember "ssh" e.ssh SshReview.toJson ++ course e ++
    optionalMember "approval" e.approval ApprovalMethod.toJson) := rfl

theorem cost_course {d : DirectRecord} (hhistory : HistoryValid d) (hexit : d.review.status.exitInRange = true)
    {e : HistoryEvent} (he : e ∈ d.audit) (hwords : Words e) : cost (course e) ≤ 260 := by
  have hcreated := size_u64 hwords.created
  have hexpires := size_u64 hwords.expires
  have hordinal : (Json.nat e.ordinal).size ≤ 1 := by
    have hnumber := ordinal_of_historyLoop d 0 none _ d.audit hhistory.loop e he
    have hlength := hhistory.length
    exact Json.size_nat_le (by decide) (by omega)
  have houtcome := size_outcome e.outcome
  have hnull : Json.null.size = 4 := by decide
  have hname₁ : Json.weight (Json.quote "created_at_unix_seconds") = 25 := by decide
  have hname₂ : Json.weight (Json.quote "expires_at_unix_seconds") = 25 := by decide
  have hname₃ : Json.weight (Json.quote "at_unix_seconds") = 17 := by decide
  have hname₄ : Json.weight (Json.quote "ordinal") = 9 := by decide
  have hname₅ : Json.weight (Json.quote "outcome") = 9 := by decide
  have hname₆ : Json.weight (Json.quote "status") = 8 := by decide
  have hat : ∀ t, e.atUnixSeconds = some t → (Json.nat t).size ≤ 20 :=
    fun t ht => size_u64 (hwords.recorded t ht)
  have hstatus : ∀ status, e.status = some status → status.toJson.size ≤ 64 := fun status hs =>
    size_status (exitInRange_of_historyLoop d 0 none _ d.audit hexit hhistory.loop e he status hs)
  unfold cost course
  cases ht : e.atUnixSeconds with
  | none =>
    cases hs : e.status with
    | none =>
      simp only [List.map_cons, List.map_nil, List.sum_cons, List.sum_nil]
      omega
    | some status =>
      have hstatus := hstatus status hs
      simp only [List.map_cons, List.map_nil, List.sum_cons, List.sum_nil]
      omega
  | some t =>
    have hat := hat t ht
    cases hs : e.status with
    | none =>
      simp only [List.map_cons, List.map_nil, List.sum_cons, List.sum_nil]
      omega
    | some status =>
      have hstatus := hstatus status hs
      simp only [List.map_cons, List.map_nil, List.sum_cons, List.sum_nil]
      omega

theorem cost_subject {E : Externals} {id : String} {epoch : ℕ} {d : DirectRecord}
    (hd : RecordChecked E id epoch d) {e : HistoryEvent} (h : Shares d e) :
    cost (subject e) ≤ 650 + 547 * d.review.credentials.length := by
  have hreview := hd.core.review
  simp only [DirectReview.valid, Bool.and_eq_true, List.all_eq_true, decide_eq_true_eq] at hreview
  obtain ⟨⟨⟨⟨⟨⟨⟨⟨⟨⟨⟨⟨⟨hoperation, -⟩, -⟩, -⟩, -⟩, -⟩, -⟩, -⟩, -⟩, hlabels⟩, -⟩, hpolicy⟩, -⟩, -⟩ := hreview
  have hversion : (Json.nat e.version).size ≤ 1 := by
    rw [h.version]
    decide
  have hid := weight_quote_requestId hd.core.idValid
  have hoperation := size_operationId hoperation
  have hrequester := size_requester hd.core.owner
  have hpolicy := weight_quote_sha256 hpolicy
  have hcredentials : (Json.arr (d.review.credentials.map ReviewCredential.toJson)).size ≤
      2 + 547 * d.review.credentials.length := by
    apply Json.size_arr_map_le
    intro c hc
    exact size_credential (hlabels c hc)
  have hname₁ : Json.weight (Json.quote "version") = 9 := by decide
  have hname₂ : Json.weight (Json.quote "request_id") = 12 := by decide
  have hname₃ : Json.weight (Json.quote "operation") = 11 := by decide
  have hname₄ : Json.weight (Json.quote "requester") = 11 := by decide
  have hname₅ : Json.weight (Json.quote "policy_revision") = 17 := by decide
  have hname₆ : Json.weight (Json.quote "credentials") = 13 := by decide
  rw [← size_str] at hid hpolicy
  unfold subject
  rw [h.requestId, h.operation, h.requester, h.policy, h.credentials, hd.core.requestId]
  simp only [cost, List.map_cons, List.map_nil, List.sum_cons, List.sum_nil]
  omega

/-- **An event of a stored record.** -/
theorem size_event {E : Externals} {id : String} {epoch : ℕ} {d : DirectRecord}
    (hd : RecordChecked E id epoch d) (hslim : Slim d) {e : HistoryEvent} (he : e ∈ d.audit)
    (hwords : Words e) : e.toJson.size ≤ 10000 := by
  have h := shares_of_matchesRecord (matchesRecord_of_historyLoop d 0 none _ d.audit hd.history.loop e he)
  have hreview := hd.core.review
  simp only [DirectReview.valid, Bool.and_eq_true, decide_eq_true_eq] at hreview
  obtain ⟨⟨⟨⟨⟨⟨⟨⟨⟨⟨⟨⟨-, hcreate⟩, -⟩, hssh⟩, -⟩, -⟩, -⟩, hcount⟩, -⟩, -⟩, -⟩, -⟩, -⟩ := hreview
  have hsubject := cost_subject hd h
  have hcourse := cost_course hd.history hd.exit he hwords
  have happroval : cost (optionalMember "approval" e.approval ApprovalMethod.toJson) ≤
      (10 + 100 + 2) * e.approval.toList.length := cost_optional (size_approval h.valid)
  have hreceipt : cost (optionalMember "write_receipt" e.writeReceipt WriteReceipt.toJson) ≤
      (15 + 150 + 2) * e.writeReceipt.toList.length :=
    cost_optional fun receipt hsome => (size_eventReceipt hd h receipt hsome).1
  have hshort : ∀ {α : Type} (value : Option α), value.toList.length ≤ 1 := by
    intro α value
    cases value <;> simp
  have happrovals := hshort e.approval
  have hreceipts := hshort e.writeReceipt
  have hparts : e.toJson.size ≤ 2 + (650 + 547 * d.review.credentials.length) +
      cost (optionalMember "create" e.create CreateEffect.toJson) + 167 +
      cost (optionalMember "ssh" e.ssh SshReview.toJson) + 260 + 112 := by
    rw [toJson_eq]
    apply (Json.size_obj_le _).trans
    show 2 + cost _ ≤ _
    simp only [cost_append]
    omega
  rw [h.create, h.ssh] at hparts
  cases hc : d.review.create with
  | some effect =>
    rw [hc] at hcreate hparts
    simp only [Option.all_some, Bool.and_eq_true, Option.isNone_iff_eq_none] at hcreate
    have hone := hslim (.inl (by rw [hc]; rfl))
    have hsize : cost (optionalMember "create" (some effect) CreateEffect.toJson) ≤ (8 + 6489 + 2) * 1 := by
      apply cost_optional
      intro v hv
      rw [← Option.some.inj hv]
      exact size_create hcreate.1.1.1
    have hnone : cost (optionalMember "ssh" (none : Option SshReview) SshReview.toJson) = 0 := rfl
    rw [hcreate.1.1.2, hnone] at hparts
    omega
  | none =>
    have hnone : cost (optionalMember "create" (none : Option CreateEffect) CreateEffect.toJson) = 0 := rfl
    rw [hc, hnone] at hparts
    cases hs : d.review.ssh with
    | some ssh =>
      rw [hs] at hssh hparts
      have hone := hslim (.inr (by rw [hs]; rfl))
      have hsize : cost (optionalMember "ssh" (some ssh) SshReview.toJson) ≤ (5 + 1000 + 2) * 1 := by
        apply cost_optional
        intro v hv
        rw [← Option.some.inj hv]
        exact size_ssh (by simpa using hssh)
      omega
    | none =>
      have hnone' : cost (optionalMember "ssh" (none : Option SshReview) SshReview.toJson) = 0 := rfl
      rw [hs, hnone'] at hparts
      omega

/-! ## Which records are stored -/

/-- INTERNAL: a policy that creates or connects has no other credential. -/
theorem length_reviewCredentials {p : OperationPolicy} (hvalid : validateDraft p.draft = true)
    (hkind : p.create.isSome = true ∨ p.ssh.isSome = true) : p.reviewCredentials.length ≤ 1 := by
  have hcreate : p.draft.create = p.create := rfl
  have hssh : p.draft.ssh = p.ssh := rfl
  have hcredentials : p.draft.credentials = p.credentials := rfl
  unfold validateDraft at hvalid
  unfold OperationPolicy.reviewCredentials
  rw [hcreate, hssh, hcredentials] at hvalid
  cases hc : p.create with
  | some create =>
    simp only [hc, Bool.and_eq_true, List.isEmpty_iff, Option.isNone_iff_eq_none] at hvalid
    obtain ⟨⟨⟨⟨⟨-, hs⟩, hcreds⟩, -⟩, -⟩, -⟩ := hvalid
    simp [hs, hcreds]
  | none =>
    cases hs : p.ssh with
    | some ssh =>
      simp only [hc, hs, Bool.and_eq_true, List.isEmpty_iff] at hvalid
      obtain ⟨⟨⟨⟨⟨-, hcreds⟩, -⟩, -⟩, -⟩, -⟩ := hvalid
      simp [hcreds]
    | none => simp [hc, hs] at hkind

theorem validateDraft_of_integrity {E : Externals} {disk : Disk} {p : OperationPolicy}
    (h : p.validateIntegrity E disk = true) : validateDraft p.draft = true := by
  unfold OperationPolicy.validateIntegrity OperationPolicy.rebuilt OperationPolicy.fromDraft at h
  by_contra hinvalid
  simp [hinvalid] at h

/-- The records of a state show one credential beside a create effect or an SSH destination. -/
def AllSlim (s : ProviderState) : Prop := ∀ r ∈ s.requests, ∀ d, r.direct = some d → Slim d

/-- INTERNAL: a new request. -/
theorem slim_newRequest {E : Externals} {s : ProviderState} {uid : UInt32} {agentOwner : Option AgentOwner}
    {replayDigest : Option String} {policy : OperationPolicy} {args : List String} {now expires : ℕ}
    {random : Vector UInt8 32} (h : validateDraft policy.draft = true) (d : DirectRecord)
    (hd : (newRequest E s uid agentOwner replayDigest policy args now expires random).direct = some d) :
    Slim d := by
  have hreview : d.review.create = policy.create ∧ d.review.ssh = policy.ssh.map SshOperation.review ∧
      d.review.credentials = policy.reviewCredentials := by
    rw [← Option.some.inj hd]
    cases agentOwner <;> exact ⟨rfl, rfl, rfl⟩
  obtain ⟨hcreate, hssh, hcredentials⟩ := hreview
  intro hkind
  rw [hcreate, hssh, Option.isSome_map] at hkind
  rw [hcredentials]
  exact length_reviewCredentials h hkind

/-- INTERNAL: a change of a request keeps what it shows. -/
theorem slim_step {legit : Prop} {r r' : RequestRecord} (hstep : RequestStep legit r r')
    (h : ∀ d, r.direct = some d → Slim d) : ∀ d, r'.direct = some d → Slim d := by
  cases hstep with
  | same => exact h
  | change d d' hd hchange =>
    intro d₁ hd₁
    obtain rfl := Option.some.inj hd₁
    have hcreate : d'.review.create = d.review.create := congrArg (·.review.create) hchange.core_eq
    have hssh : d'.review.ssh = d.review.ssh := congrArg (·.review.ssh) hchange.core_eq
    have hcredentials : d'.review.credentials = d.review.credentials :=
      congrArg (·.review.credentials) hchange.core_eq
    unfold Slim
    rw [hcreate, hssh, hcredentials]
    exact h d hd

/-- INTERNAL: **a change of the state adds no other records.** -/
theorem allSlim_stateStep {E : Externals} {ownerUid : UInt32} {env : Env} {legit : Prop}
    {s s' : ProviderState} (hstep : StateStep E ownerUid env legit s s')
    (hpolicies : ∀ p ∈ s.operations, validateDraft p.draft = true) (h : AllSlim s) : AllSlim s' := by
  have hsweep : ∀ requests : List RequestRecord, List.Forall₂ (RequestStep legit) s.requests requests →
      ∀ r ∈ requests, ∀ d, r.direct = some d → Slim d := by
    intro requests hrequests r' hr'
    obtain ⟨r, hr, hchange⟩ := exists_left_of_forall₂ hrequests r' hr'
    exact slim_step hchange (h r hr)
  cases hstep with
  | pair => exact h
  | revoke id binding now requests _ _ hrequests => exact hsweep _ (hrequests.imp fun _ _ h => h.1)
  | create uid agentOwner replayDigest policy values args now expires random _ hpolicy =>
    intro r hr d hd
    rcases List.mem_append.mp hr with hold | hnew
    · exact h r hold d hd
    · rw [List.mem_singleton.mp hnew] at hd
      exact slim_newRequest (hpolicies policy hpolicy) d hd
  | updateOne p r r' hfind hchange _ =>
    exact hsweep _ (forall₂_setFirst p _ (fun _ => .same) s.requests r r' hfind hchange)
  | updateAll requests hrequests => exact hsweep _ (hrequests.imp fun _ _ h => h.1)
  | invalidate requests hrequests _ => exact hsweep _ (hrequests.imp fun _ _ h => h.1)
  | query => exact h
  | provision => exact h
  | register => exact h

/-- INTERNAL: the policies of a valid state. -/
theorem drafts_of_valid {E : Externals} {disk : Disk} {ownerUid : UInt32} {s : ProviderState}
    (h : s.validateForOwner E disk ownerUid = true) : ∀ p ∈ s.operations, validateDraft p.draft = true := by
  simp only [ProviderState.validateForOwner, Bool.and_eq_true, List.all_eq_true] at h
  obtain ⟨⟨⟨⟨⟨-, hoperations⟩, -⟩, -⟩, -⟩, -⟩ := h
  intro p hp
  have hvalid := hoperations p hp
  simp only [ProviderState.operationValid, Bool.and_eq_true] at hvalid
  exact validateDraft_of_integrity hvalid.1

/-- INTERNAL: **every event keeps the records so.** -/
theorem step_allSlim {E : Externals} {ownerUid : UInt32} (store : Store) (event : Event)
    (hphase : InPhase store.durable) (h : AllSlim store.durable) :
    AllSlim (step E ownerUid store event).durable := by
  rcases @step_durable E ownerUid store event with hsame | ⟨s', hs', -, hnext⟩
  · rw [hsame]
    exact h
  · obtain ⟨s, hreads, hs, hstep⟩ := @handsOver_step E ownerUid False store event s' hphase
      (fun _ hl => hl.elim) hs'
    obtain ⟨-, -, hvalid⟩ := reads_eq store event s hreads
    rw [hnext]
    apply allSlim_stateStep hstep (drafts_of_valid hvalid)
    rw [hs]
    exact h

/-- INTERNAL: **the records of every run.** -/
theorem run_allSlim (E : Externals) (ownerUid : UInt32) (events : List Event) :
    AllSlim (run E ownerUid Store.initial events).durable := by
  have hrun : InPhase (run E ownerUid Store.initial events).durable ∧
      AllSlim (run E ownerUid Store.initial events).durable := by
    apply run_invariant (step E ownerUid) fun store => InPhase store.durable ∧ AllSlim store.durable
    · intro store event h
      exact ⟨step_inPhase store event h.1, step_allSlim store event h.1 h.2⟩
    · exact ⟨initial_inPhase, fun _ hr => absurd hr List.not_mem_nil⟩
  exact hrun.2

/-! ## The answer -/

/-- INTERNAL: an admitted limit. -/
theorem historyLimit_le {value : Option UInt32} {limit : ℕ} (h : historyLimit value = .ok limit) :
    limit ≤ 200 := by
  unfold historyLimit at h
  simp only at h
  split_ifs at h with hadmitted
  rw [← Except.ok.inj h]
  exact UInt32.le_iff_toNat_le.mp hadmitted.2

/-- INTERNAL: what a history holds. -/
theorem answer_of_history {s : ProviderState} {ownerUid human : UInt32} {limit : Option UInt32}
    {answer : List HistoryEvent} (hdistinct : DistinctEvents s)
    (h : s.history ownerUid human limit = .ok answer) :
    answer.length ≤ 200 ∧ ∀ e ∈ answer, ∃ r ∈ s.requests, ∃ d, r.direct = some d ∧ e ∈ d.audit := by
  unfold ProviderState.history at h
  split_ifs at h
  · cases h
  · cases hlimit : historyLimit limit with
    | error error =>
      rw [hlimit] at h
      cases h
    | ok n =>
      rw [hlimit] at h
      have hnodup : ((s.visibleEvents ownerUid human).map HistoryEvent.recentKey).Nodup :=
        (DistinctEvents.nodup hdistinct.ids hdistinct.ordinals hdistinct.named).1
      have hkept : (s.visibleEvents ownerUid human).foldl (Search.keep HistoryEvent.recentKey n) [] =
          newest (s.visibleEvents ownerUid human) n := Search.foldl_keep hnodup
      have hanswer : newest ((s.visibleEvents ownerUid human).foldl
          (Search.keep HistoryEvent.recentKey n) []) n = answer := Except.ok.inj h
      rw [hkept, newest_take] at hanswer
      rw [← hanswer]
      constructor
      · exact (List.length_take_le _ _).trans (historyLimit_le hlimit)
      · intro e he
        have hvisible := (perm_sortByKey HistoryEvent.recentKey
          (s.visibleEvents ownerUid human)).mem_iff.mp (List.mem_of_mem_take he)
        obtain ⟨d, hd, hevent⟩ := List.mem_flatMap.mp hvisible
        obtain ⟨r, hr, hdirect⟩ := List.mem_filterMap.mp (List.mem_filter.mp hd).1
        exact ⟨r, hr, d, hdirect, hevent⟩

/-- INTERNAL: the event as a companion sees it. -/
theorem size_display {E : Externals} {id : String} {epoch : ℕ} {d : DirectRecord}
    (hd : RecordChecked E id epoch d) {e : HistoryEvent} (he : e ∈ d.audit) (hwords : Words e) :
    e.display.size ≤ 300 := by
  have h := shares_of_matchesRecord (matchesRecord_of_historyLoop d 0 none _ d.audit hd.history.loop e he)
  have hreview := hd.core.review
  simp only [DirectReview.valid, Bool.and_eq_true, decide_eq_true_eq] at hreview
  obtain ⟨⟨⟨⟨⟨⟨⟨⟨⟨⟨⟨⟨⟨hoperation, -⟩, -⟩, -⟩, -⟩, -⟩, -⟩, -⟩, -⟩, -⟩, -⟩, -⟩, -⟩, -⟩ := hreview
  have hid := weight_quote_requestId hd.core.idValid
  have hoperation := size_operationId hoperation
  rw [← size_str, ← hd.core.requestId, ← h.requestId] at hid
  rw [← h.operation] at hoperation
  have hordinal : (Json.nat e.ordinal).size ≤ 1 := by
    have hnumber := ordinal_of_historyLoop d 0 none _ d.audit hd.history.loop e he
    have hlength := hd.history.length
    exact Json.size_nat_le (by decide) (by omega)
  have houtcome := size_outcome e.outcome
  have hnull : Json.null.size = 4 := by decide
  have hname₁ : Json.weight (Json.quote "at_unix_seconds") = 17 := by decide
  have hname₂ : Json.weight (Json.quote "operation") = 11 := by decide
  have hname₃ : Json.weight (Json.quote "ordinal") = 9 := by decide
  have hname₄ : Json.weight (Json.quote "outcome") = 9 := by decide
  have hname₅ : Json.weight (Json.quote "request_id") = 12 := by decide
  apply (Json.size_obj_le _).trans
  simp only [List.map_cons, List.map_nil, List.sum_cons, List.sum_nil]
  cases ht : e.atUnixSeconds with
  | none =>
    simp only
    omega
  | some t =>
    have hat := size_u64 (hwords.recorded t ht)
    simp only
    omega

/-- INTERNAL: the records of a state that was read. -/
theorem checked_of_valid {E : Externals} {disk : Disk} {ownerUid : UInt32} {s : ProviderState}
    (h : s.validateForOwner E disk ownerUid = true) {r : RequestRecord} (hr : r ∈ s.requests)
    {d : DirectRecord} (hd : r.direct = some d) : RecordChecked E r.id s.lifecycleEpoch d := by
  simp only [ProviderState.validateForOwner, Bool.and_eq_true, List.all_eq_true] at h
  have hvalid := h.2 r hr
  simp only [RequestRecord.validate, hd, Bool.and_eq_true] at hvalid
  exact validate_iff.mp hvalid.1.2

/-- **A history is answered as it is.** -/
theorem history_fits (E : Externals) (ownerUid : UInt32) (events : List Event) (disk : Disk)
    (s : ProviderState) (human : UInt32) (limit : Option UInt32) (answer : List HistoryEvent)
    (hread : (run E ownerUid Store.initial events).readState E ownerUid disk = .ok s)
    (hwords : ∀ r ∈ s.requests, ∀ d, r.direct = some d → ∀ e ∈ d.audit, Words e)
    (hanswer : s.history ownerUid human limit = .ok answer) :
    (humanHistory answer).toVec.length ≤ MAX_FRAME ∧
      responseFrame (humanHistory answer) = (humanHistory answer).toVec ∧
      ∃ document, Endpoint.history answer = .ok document ∧ document.size ≤ Endpoint.RESPONSE_LIMIT := by
  have hvalid := (Expiry.readState_ok hread).2.2
  have hslim := run_allSlim E ownerUid events
  obtain ⟨hlength, hmembers⟩ := answer_of_history (distinctEvents_of_valid hvalid) hanswer
  -- each event is bounded by the checks of its record
  have hevents : ∀ e ∈ answer, e.toJson.size ≤ 10000 ∧ e.display.size ≤ 300 := by
    intro e he
    obtain ⟨r, hr, d, hd, hevent⟩ := hmembers e he
    have hchecked := checked_of_valid hvalid hr hd
    have hword := hwords r hr d hd e hevent
    rw [Expiry.requests_of_reads hread] at hr
    exact ⟨size_event hchecked (hslim r hr d hd) hevent hword, size_display hchecked hevent hword⟩
  have hframe : (humanHistory answer).toVec.length ≤ MAX_FRAME := by
    rw [Json.length_toVec]
    have harray : (Json.arr (answer.map HistoryEvent.toJson)).size ≤ 2 + 10001 * answer.length := by
      apply Json.size_arr_map_le
      intro e he
      exact Nat.succ_le_succ (hevents e he).1
    have hname₁ : Json.weight (Json.quote "result") = 8 := by decide
    have hname₂ : Json.weight (Json.quote "events") = 8 := by decide
    have hresult : (Json.str "history").size = 9 := by decide
    have hsize := Json.size_obj_le [("result", .str "history"), ("events", .arr (answer.map HistoryEvent.toJson))]
    simp only [List.map_cons, List.map_nil, List.sum_cons, List.sum_nil] at hsize
    simp only [humanHistory, MAX_FRAME]
    omega
  have hdisplay : (Json.obj [("events", .arr (answer.map HistoryEvent.display)), ("history_version", .int 1),
      ("version", .int 1)]).size ≤ Endpoint.RESPONSE_LIMIT := by
    have harray : (Json.arr (answer.map HistoryEvent.display)).size ≤ 2 + 301 * answer.length := by
      apply Json.size_arr_map_le
      intro e he
      exact Nat.succ_le_succ (hevents e he).2
    have hname₁ : Json.weight (Json.quote "events") = 8 := by decide
    have hname₂ : Json.weight (Json.quote "history_version") = 17 := by decide
    have hname₃ : Json.weight (Json.quote "version") = 9 := by decide
    have hone : (Json.int 1).size = 1 := by decide
    apply (Json.size_obj_le _).trans
    simp only [List.map_cons, List.map_nil, List.sum_cons, List.sum_nil, Endpoint.RESPONSE_LIMIT]
    omega
  refine ⟨hframe, if_pos hframe, _, ?_, hdisplay⟩
  have hcount : ¬ MAX_HISTORY_LIMIT.toNat < answer.length := not_lt.mpr hlength
  unfold Endpoint.history Endpoint.respond
  rw [if_neg hcount, if_neg (not_lt.mpr hdisplay)]

/-- The history after a run that began the creation of an item. -/
theorem history_fits_marked : ∃ answer,
    (Sample.holding Sample.externals (Sample.marked Sample.externals)).history 1000 1000 none = .ok answer ∧
      (humanHistory answer).toVec.length ≤ MAX_FRAME := by
  obtain ⟨halong, hrun⟩ := Sample.run_events Sample.externals [] _ (.nil _)
  have hinv := run_stateInv Sample.externals 1000 _ halong
  rw [hrun] at hinv
  have himages : ImagesUnchanged Sample.externals Sample.disk
      (Sample.holding Sample.externals (Sample.marked Sample.externals)) :=
    Sample.imagesUnchanged Sample.externals _ (Or.inr rfl)
  have hread : (run Sample.externals 1000 Store.initial (Sample.events Sample.externals [])).readState
      Sample.externals 1000 Sample.disk = .ok (Sample.holding Sample.externals (Sample.marked Sample.externals)) := by
    rw [hrun]
    simp only [Store.readState, hinv.tryFrom_wire Sample.disk himages, hinv.validateForOwner Sample.disk himages,
      Bool.false_eq_true, if_false, if_true]
  refine ⟨_, rfl, (history_fits Sample.externals 1000 (Sample.events Sample.externals []) Sample.disk _ 1000 none _
    hread ?_ rfl).1⟩
  intro r hr d hd e he
  obtain rfl := List.mem_singleton.mp hr
  obtain rfl := Option.some.inj hd
  have hall : (Sample.marked Sample.externals).audit.all (fun e =>
      decide (e.createdAtUnixSeconds < u64Size) && decide (e.expiresAtUnixSeconds < u64Size) &&
        e.atUnixSeconds.all fun t => decide (t < u64Size)) = true := rfl
  have hevent := List.all_eq_true.mp hall e he
  simp only [Bool.and_eq_true, decide_eq_true_eq, Option.all_eq_true] at hevent
  exact ⟨hevent.1.1, hevent.1.2, hevent.2⟩

end VaultAccess.Analysis.HistorySizes
