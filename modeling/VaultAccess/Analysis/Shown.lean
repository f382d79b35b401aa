import VaultAccess.Library.JsonText
import VaultAccess.Library.Unambiguous
import VaultAccess.Model.Companion

/-!
# What the approving human is shown

The companion writes every text of a review between quotes and in printable ASCII, and a review as
rows. A shown text is read back in one way, a shown row belongs to one field, and the rows of a
review are the lines of what is shown.
-/

set_option autoImplicit false

namespace VaultAccess.Analysis.Shown

open VaultAccess.Library VaultAccess.Library.Text VaultAccess.Model VaultAccess.Model.Companion

/-- Printable ASCII, the space included. -/
def Printable (c : Char) : Prop := 32 ≤ c.toNat ∧ c.toNat ≤ 126

instance (c : Char) : Decidable (Printable c) := inferInstanceAs (Decidable (_ ∧ _))

theorem printable_iff (c : Char) : (' ' ≤ c && c ≤ '~') = true ↔ Printable c := by
  simp only [Bool.and_eq_true, decide_eq_true_eq]
  rfl

/-! ## Characters -/

/-- INTERNAL: the digits of an escape. -/
theorem hex4_spec (n : ℕ) : (∀ c ∈ hex4 n, isLowerHex c = true) ∧ Json.hexNumber (hex4 n) = n := by
  have hdigits := Json.toDigits_hex n
  simp only [hex4]
  refine ⟨?_, ?_⟩
  · intro c hc
    cases List.mem_append.mp hc with
    | inl hzero =>
      rw [List.eq_of_mem_replicate hzero]
      rfl
    | inr hdigit => exact hdigits.1 c hdigit
  · rw [Json.hexNumber_zeros]
    exact hdigits.2

/-- INTERNAL: a hexadecimal digit is printable and no brace. -/
theorem isLowerHex_plain {c : Char} (h : isLowerHex c = true) : Printable c ∧ c ≠ '\x7d' := by
  rw [isLowerHex_iff] at h
  have hrange : Printable c := by
    unfold Printable
    omega
  refine ⟨hrange, ?_⟩
  rintro rfl
  revert h
  decide

/-- The first character that is shown, and the rest. -/
def unvisible : List Char → Option (Char × List Char)
  | '\\' :: 'u' :: '\x7b' :: rest =>
    some (Char.ofNat (Json.hexNumber (rest.takeWhile isLowerHex)), (rest.dropWhile isLowerHex).tail)
  | '\\' :: c :: rest => some (c, rest)
  | c :: rest => some (c, rest)
  | [] => none

/-- INTERNAL: **a shown character is read back.** -/
theorem unvisible_visibleChar (c : Char) (rest : List Char) :
    unvisible (visibleChar c ++ rest) = some (c, rest) := by
  unfold visibleChar
  split_ifs with hquote hslash hplain
  · subst hquote
    rfl
  · subst hslash
    rfl
  · simp only [List.cons_append, List.nil_append]
    unfold unvisible
    split <;> simp_all
  · obtain ⟨hdigits, hnumber⟩ := hex4_spec c.toNat
    have hbrace : isLowerHex '\x7d' = false := by decide
    simp only [List.cons_append, List.nil_append, List.append_assoc, unvisible]
    rw [List.takeWhile_append_of_pos hdigits, List.dropWhile_append_of_pos hdigits,
      List.takeWhile_cons_of_neg (by simp [hbrace]), List.dropWhile_cons_of_neg (by simp [hbrace]),
      List.append_nil, hnumber, Char.ofNat_toNat, List.tail_cons]

theorem visibleChar_append (c d : Char) (x y : List Char)
    (h : visibleChar c ++ x = visibleChar d ++ y) : c = d ∧ x = y := by
  have hread := congrArg unvisible h
  rw [unvisible_visibleChar, unvisible_visibleChar] at hread
  exact Prod.mk.inj (Option.some.inj hread)

theorem visibleChar_ne_quote (c : Char) (x y : List Char) : visibleChar c ++ x ≠ '"' :: y := by
  unfold visibleChar
  split_ifs with hquote <;> simp_all

theorem printable_of_all {text : List Char} (h : (text.all fun c => decide (Printable c)) = true) :
    ∀ c ∈ text, Printable c := by
  intro c hc
  exact of_decide_eq_true (List.all_eq_true.mp h c hc)

/-- INTERNAL: a shown character is printable. -/
theorem printable_visibleChar (c : Char) : ∀ d ∈ visibleChar c, Printable d := by
  unfold visibleChar
  split_ifs with hquote hslash hplain
  · exact printable_of_all rfl
  · exact printable_of_all rfl
  · simpa using (printable_iff c).mp hplain
  · intro d hd
    simp only [List.mem_append] at hd
    rcases hd with (hhead | hdigit) | hend
    · exact printable_of_all rfl d hhead
    · exact (isLowerHex_plain ((hex4_spec c.toNat).1 d hdigit)).1
    · exact printable_of_all rfl d hend

/-! ## Texts -/

theorem toList_visible (value : String) :
    (visible value).toList = '"' :: (value.toList.flatMap visibleChar ++ ['"']) := by
  simp [visible]

/-- INTERNAL: **a shown text is printable ASCII.** -/
theorem printable_visible (value : String) : ∀ c ∈ (visible value).toList, Printable c := by
  intro c hc
  rw [toList_visible, List.mem_cons, List.mem_append, List.mem_flatMap] at hc
  rcases hc with rfl | ⟨d, -, hd⟩ | hend
  · decide
  · exact printable_visibleChar d c hd
  · rw [List.mem_singleton.mp hend]
    decide

/-- INTERNAL: the end of a shown text is found. -/
theorem visible_append {s t : String} {x y : List Char}
    (h : (visible s).toList ++ x = (visible t).toList ++ y) : s = t ∧ x = y := by
  simp only [toList_visible, List.cons_append, List.append_assoc, List.nil_append, List.cons.injEq,
    true_and] at h
  obtain ⟨hchars, hrest⟩ := flatMap_append_inj visibleChar_append visibleChar_ne_quote _ _ h
  exact ⟨String.toList_inj.mp hchars, hrest⟩

/-- INTERNAL: **shown texts are told apart.** -/
theorem visible_injective : Function.Injective visible := by
  intro s t h
  have hlist : (visible s).toList ++ [] = (visible t).toList ++ [] := by rw [h]
  exact (visible_append hlist).1

/-! ## Rows -/

/-- What a row of a review is about. -/
inductive Row where
  | request
  | requester
  | operation
  | effect
  | target
  | arguments
  | argument (position : ℕ)
  | credentials
  | credential
  | executableDigest
  | policyDigest
  | argumentsDigest
  | expires
  | oneTime
  | status
  deriving DecidableEq, Repr

/-- What a row begins with. -/
def Row.heading : Row → String
  | request => "Request: "
  | requester => "Requester: "
  | operation => "Operation: "
  | effect => "Effect: "
  | target => "Target: "
  | arguments => "Arguments ("
  | argument position => "  [" ++ toString position ++ "] "
  | credentials => "Credentials ("
  | credential => "  label="
  | executableDigest => "Executable SHA-256: "
  | policyDigest => "Policy SHA-256: "
  | argumentsDigest => "Arguments SHA-256: "
  | expires => "Expires (Unix seconds): "
  | oneTime => "One-time scope: "
  | status => "Status: "

/-- The rows of a review, each with what stands behind its heading. -/
def rows (review : Review) : List (Row × String) :=
  [(.request, visible review.id), (.requester, visible review.requester),
    (.operation, visible review.operation), (.effect, visible review.effect),
    (.target, visible review.target),
    (.arguments, toString review.arguments.length ++ " separate values):")] ++
  review.arguments.zipIdx.map (fun arg => (.argument arg.2, visible arg.1)) ++
  [(.credentials, toString review.credentials.length ++ "):")] ++
  review.credentials.map (fun credential =>
    (.credential, visible credential.label ++ (" use_type=" ++ visible credential.useType))) ++
  [(.executableDigest, review.executableDigest), (.policyDigest, review.policyDigest),
    (.argumentsDigest, review.argumentsDigest),
    (.expires, toString review.expiresAtUnixSeconds), (.oneTime, visible review.oneTime),
    (.status, review.status.summary)]

/-- A row as it is shown. -/
def line (row : Row × String) : List Char := row.1.heading.toList ++ row.2.toList

/-- INTERNAL: **a review is shown as its rows.** -/
theorem visible_eq (review : Review) :
    review.visible.toList = ['\n'].intercalate ((rows review).map line) := by
  have hlines : ∀ texts : List String, ("\n".intercalate texts).toList =
      ['\n'].intercalate (texts.map String.toList) := fun texts => String.toList_intercalate
  unfold Review.visible rows
  rw [hlines]
  simp [line, Row.heading, Function.comp_def]

/-! ## No row is broken -/

/-- A text without control characters below the space. -/
def Clean (text : String) : Prop := ∀ c ∈ text.toList, 32 ≤ c.toNat

theorem Clean.append {s t : String} (hs : Clean s) (ht : Clean t) : Clean (s ++ t) := by
  intro c hc
  rw [String.toList_append, List.mem_append] at hc
  cases hc with
  | inl hfront => exact hs c hfront
  | inr hback => exact ht c hback

theorem clean_of_all {text : String} (h : (text.toList.all fun c => decide (32 ≤ c.toNat)) = true) :
    Clean text := by
  intro c hc
  exact of_decide_eq_true (List.all_eq_true.mp h c hc)

theorem clean_visible (value : String) : Clean (visible value) := by
  intro c hc
  exact (printable_visible value c hc).1

theorem clean_toString (n : ℕ) : Clean (toString n) := by
  intro c hc
  have hdigit : c ∈ Nat.toDigits 10 n := by
    rw [← Nat.toList_repr]
    exact hc
  have hrange := (isAsciiDigit_iff c).mp (isAsciiDigit_of_mem_toDigits n c hdigit)
  omega

theorem clean_validHex {value : String} (h : validHex value = true) : Clean value := by
  simp only [validHex, Bool.and_eq_true, List.all_eq_true] at h
  intro c hc
  exact (isLowerHex_plain (h.2 c hc)).1.1

theorem clean_summary (status : Status) : Clean status.summary := by
  intro c hc
  rw [Status.summary, String.toList_ofList] at hc
  exact Json.printable_render status.toJson c hc

theorem clean_heading (row : Row) : Clean row.heading := by
  cases row with
  | argument position =>
    have hfront : Clean ("  [" ++ toString position) :=
      Clean.append (clean_of_all (by decide)) (clean_toString position)
    exact Clean.append hfront (clean_of_all (by decide))
  | _ => exact clean_of_all (by decide)

/-- INTERNAL: what stands behind the headings. -/
theorem clean_rows {review : Review} (hvalid : review.valid = true) :
    ∀ row ∈ rows review, Clean row.2 := by
  simp only [Review.valid, Bool.and_eq_true, List.all_cons, List.all_nil] at hvalid
  obtain ⟨-, hexecutable, hpolicy, harguments, -⟩ := hvalid
  have hvalues : ∀ arg ∈ review.arguments.zipIdx, Clean (visible arg.1) :=
    fun arg _ => clean_visible arg.1
  have hcount : ∀ (n : ℕ) (behind : String), Clean behind → Clean (toString n ++ behind) :=
    fun n behind h => Clean.append (clean_toString n) h
  have hcredentials : ∀ credential ∈ review.credentials,
      Clean (visible credential.label ++ (" use_type=" ++ visible credential.useType)) := by
    intro credential _
    apply Clean.append (clean_visible _)
    exact Clean.append (clean_of_all (by decide)) (clean_visible _)
  simp only [rows, List.forall_mem_append, List.forall_mem_cons, List.forall_mem_map]
  simp only [clean_visible, clean_toString, clean_summary, clean_validHex hexecutable,
    clean_validHex hpolicy, clean_validHex harguments, List.not_mem_nil, false_imp_iff,
    implies_true, true_and, and_true]
  refine ⟨⟨?_, ?_⟩, hcredentials⟩
  · exact hcount _ _ (clean_of_all (by decide))
  · exact hcount _ _ (clean_of_all (by decide))

/-- INTERNAL: **what is shown of a valid review splits into its rows.** -/
theorem split_visible {review : Review} (hvalid : review.valid = true) :
    split '\n' review.visible.toList = (rows review).map line := by
  rw [visible_eq]
  apply split_intercalate
  · simp [rows]
  · intro text htext hnewline
    obtain ⟨row, hrow, rfl⟩ := List.mem_map.mp htext
    have hcontrol : ¬ 32 ≤ '\n'.toNat := by decide
    cases List.mem_append.mp hnewline with
    | inl hheading => exact hcontrol (clean_heading row.1 _ hheading)
    | inr hbehind => exact hcontrol (clean_rows hvalid row hrow _ hbehind)

/-! ## No row is taken for another -/

/-- The rows whose heading is the same in every review. -/
def Row.fixed : List Row :=
  [request, requester, operation, effect, target, arguments, credentials, credential,
    executableDigest, policyDigest, argumentsDigest, expires, oneTime, status]

theorem prefix_fixed : ∀ a ∈ Row.fixed, ∀ b ∈ Row.fixed,
    a.heading.toList <+: b.heading.toList → a = b := by decide +kernel

theorem take_fixed : ∀ row ∈ Row.fixed, row.heading.toList.take 3 ≠ [' ', ' ', '['] ∧
    3 ≤ row.heading.toList.length := by decide +kernel

theorem Row.fixed_or (row : Row) : row ∈ Row.fixed ∨ ∃ position, row = argument position := by
  cases row with
  | argument position => exact .inr ⟨position, rfl⟩
  | _ => exact .inl (by decide)

theorem toList_heading_argument (position : ℕ) : (Row.argument position).heading.toList =
    [' ', ' ', '['] ++ (Nat.toDigits 10 position ++ [']', ' ']) := by
  simp only [Row.heading, String.toList_append]
  rw [show toString position = position.repr from rfl, Nat.toList_repr, List.append_assoc]
  rfl

/-- INTERNAL: the position of an argument is read up to its bracket. -/
theorem argument_append {i j : ℕ} {x y : List Char}
    (h : (Row.argument i).heading.toList ++ x = (Row.argument j).heading.toList ++ y) : i = j ∧ x = y := by
  have hbracket : ∀ (rest : List Char) (c : Char), (']' :: rest).head? = some c → isAsciiDigit c = false := by
    intro rest c hc
    rw [← Option.some.inj hc]
    decide
  rw [toList_heading_argument, toList_heading_argument] at h
  simp only [List.append_assoc, List.cons_append, List.nil_append, List.cons.injEq, true_and] at h
  obtain ⟨hdigits, hrest⟩ := Json.digits_append _ _ (isAsciiDigit_of_mem_toDigits i)
    (isAsciiDigit_of_mem_toDigits j) (hbracket _) (hbracket _) h
  refine ⟨?_, (List.cons.inj (List.cons.inj hrest).2).2⟩
  rw [← Nat.ofDigitChars_ten_toDigits (n := i), hdigits, Nat.ofDigitChars_ten_toDigits]

/-- INTERNAL: **a heading says which row it is of.** -/
theorem heading_append {a b : Row} {x y : List Char}
    (h : a.heading.toList ++ x = b.heading.toList ++ y) : a = b := by
  have hmixed : ∀ {row : Row} {position : ℕ} {u v : List Char}, row ∈ Row.fixed →
      row.heading.toList ++ u ≠ (Row.argument position).heading.toList ++ v := by
    intro row position u v hfixed heq
    obtain ⟨hhead, hlength⟩ := take_fixed row hfixed
    have htake := congrArg (List.take 3) heq
    rw [List.take_append_of_le_length hlength, toList_heading_argument, List.append_assoc] at htake
    exact hhead htake
  cases a.fixed_or with
  | inl ha =>
    rcases b.fixed_or with hb | ⟨position, rfl⟩
    · have hfront : a.heading.toList <+: a.heading.toList ++ x := List.prefix_append _ _
      have hback : b.heading.toList <+: a.heading.toList ++ x := by
        rw [h]
        exact List.prefix_append _ _
      cases List.prefix_or_prefix_of_prefix hfront hback with
      | inl hab => exact prefix_fixed a ha b hb hab
      | inr hba => exact (prefix_fixed b hb a ha hba).symm
    · exact absurd h (hmixed ha)
  | inr ha =>
    obtain ⟨i, rfl⟩ := ha
    rcases b.fixed_or with hb | ⟨j, rfl⟩
    · exact absurd h.symm (hmixed hb)
    · rw [(argument_append h).1]

/-- INTERNAL: shown rows are told apart. -/
theorem line_injective : Function.Injective line := by
  intro a b h
  have hrow : a.1 = b.1 := heading_append h
  unfold line at h
  rw [hrow] at h
  exact Prod.ext hrow (String.toList_inj.mp (List.append_cancel_left h))

/-! ## Reviews -/

theorem wire_injective : Function.Injective Failure.wire := by
  intro a b h
  revert h
  cases a <;> cases b <;> simp [Failure.wire]

/-- INTERNAL: statuses are told apart. -/
theorem toJson_injective : Function.Injective Status.toJson := by
  intro a b h
  cases a with
  | completed exitCode =>
    cases b with
    | completed exitCode' =>
      simp only [Status.toJson, Json.obj.injEq, List.cons.injEq, Prod.mk.injEq, Json.int.injEq,
        true_and, and_true] at h
      rw [UInt8.toNat_inj.mp (Int.ofNat.inj h)]
    | _ => simp [Status.toJson] at h
  | failed reason =>
    cases b with
    | failed reason' =>
      simp only [Status.toJson, Json.obj.injEq, List.cons.injEq, Prod.mk.injEq, Json.str.injEq,
        true_and, and_true] at h
      rw [wire_injective h]
    | _ => simp [Status.toJson] at h
  | _ => cases b <;> simp_all [Status.toJson]

theorem summary_injective : Function.Injective Status.summary := by
  intro a b h
  have hrender : a.toJson.render ++ [] = b.toJson.render ++ [] := by
    rw [List.append_nil, List.append_nil]
    exact String.ofList_injective h
  have hends : Json.Closes [] := by simp [Json.Closes]
  exact toJson_injective (Json.render_append _ _ hends hends hrender).1

theorem toString_injective {n m : ℕ} (h : toString n = toString m) : n = m := by
  have hdigits : Nat.toDigits 10 n = Nat.toDigits 10 m := by
    rw [← Nat.toList_repr, ← Nat.toList_repr]
    exact congrArg String.toList h
  rw [← Nat.ofDigitChars_ten_toDigits (n := n), hdigits, Nat.ofDigitChars_ten_toDigits]

theorem count_injective {n m : ℕ} {behind : String} (h : toString n ++ behind = toString m ++ behind) :
    n = m := by
  have hlist := congrArg String.toList h
  rw [String.toList_append, String.toList_append] at hlist
  exact toString_injective (String.toList_inj.mp (List.append_cancel_right hlist))

/-- INTERNAL: the shown values of arguments are told apart. -/
theorem arguments_injective {arguments arguments' : List String}
    (h : arguments.zipIdx.map (fun arg => (Row.argument arg.2, visible arg.1)) =
      arguments'.zipIdx.map (fun arg => (Row.argument arg.2, visible arg.1))) : arguments = arguments' := by
  have hvalues := congrArg (List.map Prod.snd) h
  rw [List.map_map, List.map_map] at hvalues
  have hfst : ∀ values : List String,
      values.zipIdx.map (Prod.snd ∘ fun arg => (Row.argument arg.2, visible arg.1)) = values.map visible := by
    intro values
    conv => rhs; rw [← List.zipIdx_map_fst 0 values, List.map_map]
    rfl
  rw [hfst, hfst] at hvalues
  exact List.map_injective_iff.mpr visible_injective hvalues

/-- INTERNAL: the shown credentials are told apart. -/
theorem credential_injective : Function.Injective fun credential : Credential =>
    (Row.credential, visible credential.label ++ (" use_type=" ++ visible credential.useType)) := by
  intro a b h
  have hlist := congrArg String.toList (Prod.mk.inj h).2
  simp only [String.toList_append] at hlist
  obtain ⟨hlabel, huse⟩ := visible_append hlist
  have huseType := visible_injective (String.toList_inj.mp (List.append_cancel_left huse))
  cases a
  cases b
  simp_all

/-- INTERNAL: **reviews with the same rows are the same.** -/
theorem rows_injective : Function.Injective rows := by
  intro r s h
  simp only [rows, List.append_assoc, List.cons_append, List.nil_append, List.cons.injEq,
    Prod.mk.injEq, true_and] at h
  obtain ⟨hid, hrequester, hoperation, heffect, htarget, hcount, hrest⟩ := h
  have hlength := count_injective hcount
  obtain ⟨harguments, hcredentials⟩ := List.append_inj hrest (by simp [hlength])
  simp only [List.cons.injEq, Prod.mk.injEq, true_and] at hcredentials
  obtain ⟨hcount, hrest⟩ := hcredentials
  have hlength := count_injective hcount
  obtain ⟨hcredentials, hlast⟩ := List.append_inj hrest (by simp [hlength])
  simp only [List.cons.injEq, Prod.mk.injEq, true_and, and_true] at hlast
  obtain ⟨hexecutable, hpolicy, hdigest, hexpires, honeTime, hstatus⟩ := hlast
  cases r
  cases s
  simp only [Review.mk.injEq]
  exact ⟨visible_injective hid, visible_injective hrequester, visible_injective hoperation,
    visible_injective heffect, visible_injective htarget, arguments_injective harguments,
    List.map_injective_iff.mpr credential_injective hcredentials, hexecutable, hpolicy, hdigest,
    toString_injective hexpires, visible_injective honeTime, summary_injective hstatus⟩

/-- INTERNAL: the display projections of reviews are told apart. -/
theorem projection_injective : Function.Injective Review.projection := by
  intro r s h
  have hcredential : Function.Injective fun credential : Credential =>
      ({ label := visible credential.label, useType := visible credential.useType } : Credential) := by
    intro a b hab
    simp only [Credential.mk.injEq] at hab
    cases a
    cases b
    simp only [Credential.mk.injEq]
    exact ⟨visible_injective hab.1, visible_injective hab.2⟩
  simp only [Review.projection, ProviderReview.mk.injEq] at h
  obtain ⟨hid, hrequester, hoperation, heffect, htarget, harguments, hcredentials, hexecutable,
    hpolicy, hdigest, hexpires, honeTime, hstatus⟩ := h
  cases r
  cases s
  simp only [Review.mk.injEq]
  exact ⟨visible_injective hid, visible_injective hrequester, visible_injective hoperation,
    visible_injective heffect, visible_injective htarget,
    List.map_injective_iff.mpr visible_injective harguments,
    List.map_injective_iff.mpr hcredential hcredentials, hexecutable, hpolicy, hdigest, hexpires,
    visible_injective honeTime, summary_injective hstatus⟩

/-! ## The approving human is not deceived -/

/-- What is shown says what it is. -/
structure Unmistakable : Prop where
  /-- A shown text is printable ASCII. -/
  printable : ∀ value : String, ∀ c ∈ (Companion.visible value).toList, Printable c
  /-- Different texts are shown differently. -/
  texts : Function.Injective Companion.visible
  /-- The lines of a valid review are its rows. -/
  lines : ∀ review : Review, review.valid = true →
    split '\n' review.visible.toList = (rows review).map line
  /-- A line that begins like a row of one kind is a row of that kind. -/
  headings : ∀ review : Review, review.valid = true → ∀ (position : ℕ) (text : List Char) (row : Row),
    (split '\n' review.visible.toList)[position]? = some text → row.heading.toList <+: text →
      (rows review)[position]?.map Prod.fst = some row
  /-- Different valid reviews are shown differently. -/
  reviews : ∀ r s : Review, r.valid = true → s.valid = true → r.visible = s.visible → r = s
  /-- Different reviews have different projections. -/
  projections : Function.Injective Review.projection

/-- INTERNAL: the kind of a line is told by how it begins. -/
theorem row_of_heading {review : Review} (hvalid : review.valid = true) {position : ℕ}
    {text : List Char} {row : Row} (htext : (split '\n' review.visible.toList)[position]? = some text)
    (hheading : row.heading.toList <+: text) : (rows review)[position]?.map Prod.fst = some row := by
  rw [split_visible hvalid, List.getElem?_map, Option.map_eq_some_iff] at htext
  obtain ⟨shown, hshown, rfl⟩ := htext
  obtain ⟨behind, hbehind⟩ := hheading
  rw [hshown, heading_append hbehind]
  rfl

/-- **What the approving human is shown is one review.** Texts appear in printable ASCII and are told
apart; the lines of a valid review are its rows, each of the kind its heading says, and no two
valid reviews are shown alike. -/
theorem visible_unmistakable : Unmistakable where
  printable := printable_visible
  texts := visible_injective
  lines review hvalid := split_visible hvalid
  headings review hvalid position text row := row_of_heading hvalid
  reviews := by
    intro r s hr hs h
    have hlines : (rows r).map line = (rows s).map line := by
      rw [← split_visible hr, ← split_visible hs, h]
    exact rows_injective (List.map_injective_iff.mpr line_injective hlines)
  projections := projection_injective

end VaultAccess.Analysis.Shown
