import VaultAccess.Library.Documents
import VaultAccess.Model.Access

/-!
# Sizes of identifiers in documents

How many bytes the quoted texts of identifiers and digests take.
-/

set_option autoImplicit false

namespace VaultAccess.Analysis

open VaultAccess.Library VaultAccess.Library.Text VaultAccess.Model

theorem size_str (s : String) : (Json.str s).size = Json.weight (Json.quote s) := rfl

/-- INTERNAL: a lowercase hexadecimal digit is quoted as it is. -/
theorem plain_of_isLowerHex {c : Char} (h : isLowerHex c = true) :
    isAsciiGraphic c = true ∧ c ≠ '"' ∧ c ≠ '\\' := by
  have hrange := (isLowerHex_iff c).mp h
  have hquote : ('"').toNat = 34 := rfl
  have hslash : ('\\').toNat = 92 := rfl
  refine ⟨(isAsciiGraphic_iff c).mpr (by omega), ?_, ?_⟩
  · rintro rfl
    omega
  · rintro rfl
    omega

/-- INTERNAL: a text of URL-safe base64. -/
theorem weight_quote_encodeUrlSafe (data : List UInt8) :
    Json.weight (Json.quote (encodeUrlSafe data)) = 2 + Base64.encodedLength data.length := by
  have halphabet : ∀ n < 64, isAsciiGraphic (Base64.urlSafe.char n) = true ∧
      Base64.urlSafe.char n ≠ '"' ∧ Base64.urlSafe.char n ≠ '\\' := by decide
  have hplain : ∀ c ∈ (encodeUrlSafe data).toList, isAsciiGraphic c = true ∧ c ≠ '"' ∧ c ≠ '\\' := by
    intro c hc
    rw [encodeUrlSafe, String.toList_ofList] at hc
    obtain ⟨n, hn, rfl⟩ := List.mem_map.mp hc
    exact halphabet n (Base64.sextets_lt data n hn)
  have hsize : (encodeUrlSafe data).utf8ByteSize = Base64.encodedLength data.length := by
    rw [encodeUrlSafe, utf8ByteSize_of_ascii, Base64.length_encode]
    intro c hc
    have hgraphic := (hplain c (by rw [encodeUrlSafe, String.toList_ofList]; exact hc)).1
    have hrange := (isAsciiGraphic_iff c).mp hgraphic
    omega
  rw [Json.weight_quote_plain hplain, hsize]

/-- INTERNAL: the identifier of a request or of a binding. -/
theorem weight_quote_requestId {id : String} (h : validRequestId id = true) :
    Json.weight (Json.quote id) = 45 := by
  unfold validRequestId at h
  split at h
  · next data hdata =>
    obtain ⟨hlength, hid⟩ := Bool.and_eq_true_iff.mp h
    rw [← of_decide_eq_true hid, weight_quote_encodeUrlSafe, of_decide_eq_true hlength]
    rfl
  · exact absurd h (by simp)

/-- INTERNAL: a digest. -/
theorem weight_quote_sha256 {value : String} (h : validSha256 value = true) :
    Json.weight (Json.quote value) = 66 := by
  obtain ⟨hsize, hall⟩ := Bool.and_eq_true_iff.mp h
  rw [Json.weight_quote_plain, of_decide_eq_true hsize]
  intro c hc
  exact plain_of_isLowerHex (List.all_eq_true.mp hall c hc)

end VaultAccess.Analysis
