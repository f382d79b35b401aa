import VaultAccess.Library.Results
import VaultAccess.Model.Vaultwarden

/-!
# What was written can be read

`verify_created` and `selected` read an item in different ways. Both decrypt the names of
its fields in order, and both demand that they differ; so an item that the first accepts is
one from which the second reads the same values.
-/

set_option autoImplicit false

namespace VaultAccess.Analysis.Written

open VaultAccess.Library VaultAccess.Library.Results VaultAccess.Library.Text
open VaultAccess.Model VaultAccess.Model.Vaultwarden

/-! ## Checks -/

theorem ensureThat_ok_iff {condition : Bool} {text : String} :
    ensureThat condition text = .ok () ↔ condition = true := by
  unfold ensureThat
  split_ifs with h
  · exact ⟨fun _ => h, fun _ => rfl⟩
  · exact ⟨nofun, fun h' => absurd h' h⟩

theorem orFail_ok_iff {α : Type} {text : String} {value : Option α} {a : α} :
    orFail text value = .ok a ↔ value = some a := by
  cases value with
  | none => exact ⟨nofun, nofun⟩
  | some b => exact ⟨fun h => congrArg some (Except.ok.inj h), fun h => congrArg Except.ok (Option.some.inj h)⟩

theorem demand_ok_iff {condition : Bool} {error : SessionError} :
    demand condition error = .ok () ↔ condition = true := by
  unfold demand
  split_ifs with h
  · exact ⟨fun _ => h, fun _ => rfl⟩
  · exact ⟨nofun, fun h' => absurd h' h⟩

theorem orElse_ok_iff {α : Type} {error : SessionError} {value : Option α} {a : α} :
    orElse error value = .ok a ↔ value = some a := by
  cases value with
  | none => exact ⟨nofun, nofun⟩
  | some b => exact ⟨fun h => congrArg some (Except.ok.inj h), fun h => congrArg Except.ok (Option.some.inj h)⟩

theorem orUnavailable_ok_iff {α : Type} {x : Except String α} {a : α} :
    orUnavailable x = .ok a ↔ x = .ok a := mapError_ok_iff

/-! ## Fields -/

section Fields

variable (C : Cryptography) (allow : Bool) (keys : CryptoKeys)

/-- The text decrypts, authenticated, to the plain one. -/
def Opens (encrypted plain : String) : Prop :=
  keys.decryptAuthenticatedToString C allow encrypted = .ok plain

/-- The decrypted name of a field beside its value. -/
def Entry (field : FieldData) (entry : String × Option String) : Prop :=
  ∃ encrypted, field.name = some encrypted ∧ Opens C allow keys encrypted entry.1 ∧
    entry.2 = field.value

/-- What is found under a name, or what was there before. -/
def foundIn (entries : List (String × Option String)) (custom : Option String) :
    Option String → Option String
  | none => custom
  | some name => (entries.lookup name).getD custom

variable {C allow keys}

/-- INTERNAL: a field has one name. -/
theorem Entry.unique {field : FieldData} {entry entry' : String × Option String}
    (h : Entry C allow keys field entry) (h' : Entry C allow keys field entry') : entry = entry' := by
  obtain ⟨encrypted, hname, hopens, hvalue⟩ := h
  obtain ⟨encrypted', hname', hopens', hvalue'⟩ := h'
  obtain rfl : encrypted = encrypted' := Option.some.inj (hname.symm.trans hname')
  exact Prod.ext (Except.ok.inj (hopens.symm.trans hopens')) (hvalue.trans hvalue'.symm)

/-- INTERNAL: so the fields have one list of entries. -/
theorem entries_unique {fields : List FieldData} {entries entries' : List (String × Option String)}
    (h : List.Forall₂ (Entry C allow keys) fields entries)
    (h' : List.Forall₂ (Entry C allow keys) fields entries') : entries = entries' := by
  induction h generalizing entries' with
  | nil => exact (List.forall₂_nil_left_iff.mp h').symm
  | cons hentry _ ih =>
    cases h' with
    | cons hentry' hrest => rw [hentry.unique hentry', ih hrest]

/-- INTERNAL: **what a scan of the fields finds.** -/
theorem scanFields_ok {wanted : Option String} {fields : List FieldData} : ∀ {names : List String}
    {custom result : Option String},
    scanFields C allow keys wanted fields names custom = .ok result →
    ∃ entries, List.Forall₂ (Entry C allow keys) fields entries ∧ (entries.map Prod.fst).Nodup ∧
      (∀ entry ∈ entries, entry.1 ∉ names) ∧ result = foundIn entries custom wanted := by
  induction fields with
  | nil =>
    rintro names custom result ⟨⟩
    refine ⟨[], .nil, List.nodup_nil, fun _ h => absurd h List.not_mem_nil, ?_⟩
    cases wanted with
    | none => rfl
    | some name => rfl
  | cons field fields ih =>
    intro names custom result h
    obtain ⟨encrypted, hname, h⟩ := bind_ok_iff.mp h
    obtain ⟨name, hopens, h⟩ := bind_ok_iff.mp h
    obtain ⟨⟨⟩, hnew, h⟩ := bind_ok_iff.mp h
    obtain ⟨entries, hentries, hnodup, hnames, hresult⟩ := ih h
    rw [orFail_ok_iff] at hname
    have hnew : name ∉ names := by simpa [ensureThat_ok_iff] using hnew
    have hfresh : ∀ entry ∈ entries, entry.1 ≠ name := by
      rintro entry hentry rfl
      exact hnames entry hentry List.mem_cons_self
    refine ⟨(name, field.value) :: entries, .cons ⟨encrypted, hname, hopens, rfl⟩ hentries, ?_, ?_, ?_⟩
    · rw [List.map_cons, List.nodup_cons]
      refine ⟨fun hmem => ?_, hnodup⟩
      obtain ⟨entry, hentry, heq⟩ := List.mem_map.mp hmem
      exact hfresh entry hentry heq
    · intro entry hentry
      obtain rfl | hentry := List.mem_cons.mp hentry
      · exact hnew
      · exact fun hmem => hnames entry hentry (List.mem_cons_of_mem name hmem)
    · rw [hresult]
      cases wanted with
      | none => simp [foundIn]
      | some label =>
        by_cases hlabel : label = name
        · subst hlabel
          -- No later field has the name.
          have hnone : entries.lookup label = none := by
            rw [List.lookup_eq_none_iff]
            exact fun entry hentry => by simpa using (hfresh entry hentry).symm
          simp [foundIn, hnone]
        · have hbeq : (label == name) = false := by simpa using hlabel
          simp [foundIn, List.lookup_cons, hbeq, hlabel]

/-- INTERNAL: the backend opens what storage opens. -/
theorem decryptField_ok {P : Packages} {encrypted plain : String}
    (h : Opens P.toCryptography allow keys encrypted plain) :
    decryptField P allow keys encrypted = .ok plain := by
  unfold Opens CryptoKeys.decryptAuthenticatedToString at h
  obtain ⟨⟨⟩, hshape, hplain⟩ := bind_ok_iff.mp h
  rw [requireAuthenticated, ensureThat_ok_iff] at hshape
  unfold decryptField
  have hauthenticated : demand (authenticatedShape encrypted) .backendUnavailable = .ok () :=
    demand_ok_iff.mpr hshape
  rw [ok_bind hauthenticated, orUnavailable_ok_iff]
  exact hplain

/-- INTERNAL: **the backend reads the entries that storage read, if the markers are right.** -/
theorem readFields_ok {P : Packages} {marker : String} {fields : List FieldData}
    {entries : List (String × Option String)}
    (hentries : List.Forall₂ (Entry P.toCryptography allow keys) fields entries)
    (hnodup : (entries.map Prod.fst).Nodup)
    (hmarker : ∀ value, ("vw-access", value) ∈ entries → ∃ encrypted plain,
      value = some encrypted ∧ Opens P.toCryptography allow keys encrypted plain ∧
        "vw-access=" ++ plain = marker) :
    ∀ {names : List String} {matched : ℕ} {custom : List (String × Option String)},
      (∀ entry ∈ entries, entry.1 ∉ names) →
      readFields P allow keys marker fields names matched custom =
        .ok (matched + (entries.filter fun entry => entry.1 = "vw-access").length,
          custom ++ entries) := by
  induction hentries with
  | nil =>
    intro names matched custom _
    simp [readFields]
  | @cons field entry fields entries hentry hrest ih =>
    intro names matched custom hnames
    obtain ⟨encrypted, hname, hopens, hvalue⟩ := hentry
    have hnew : (!names.contains entry.1) = true := by
      simpa using hnames entry List.mem_cons_self
    have hone : matchMarker P allow keys marker entry.1 field.value =
        .ok (if entry.1 = "vw-access" then 1 else 0) := by
      unfold matchMarker
      split_ifs with hvw
      · obtain ⟨sealed, plain, hsealed, hplain, heq⟩ := hmarker entry.2 (by
          rw [← hvw]
          exact List.mem_cons_self)
        rw [← hvalue, hsealed, ok_bind (orElse_ok_iff.mpr rfl), ok_bind (decryptField_ok hplain),
          ok_bind (demand_ok_iff.mpr (by simpa using heq))]
        rfl
      · rfl
    unfold readFields
    rw [ok_bind (orElse_ok_iff.mpr hname), ok_bind (decryptField_ok hopens),
      ok_bind (demand_ok_iff.mpr hnew), ok_bind hone]
    rw [List.map_cons, List.nodup_cons] at hnodup
    rw [ih hnodup.2 (fun value hmem => hmarker value (List.mem_cons_of_mem entry hmem)), ← hvalue]
    · congr 2
      · by_cases hvw : entry.1 = "vw-access"
        · simp only [hvw, if_true, List.filter_cons, decide_true, List.length_cons]
          omega
        · simp [hvw]
      · simp
    · intro other hother hmem
      obtain heq | hmem := List.mem_cons.mp hmem
      · exact hnodup.1 (heq ▸ List.mem_map_of_mem hother)
      · exact hnames other (List.mem_cons_of_mem entry hother) hmem

end Fields

/-! ## What a verified item holds -/

section Verified

variable {P : Packages} {allow : Bool} {keys : CryptoKeys}

/-- A value is there and opens to the plain one. -/
def Holds (P : Packages) (allow : Bool) (keys : CryptoKeys) (value : Option String)
    (plain : String) : Prop :=
  ∃ encrypted, value = some encrypted ∧ Opens P.toCryptography allow keys encrypted plain

/-- The item's fields have distinct names, and every value of the input is in its place. -/
structure Matches (P : Packages) (allow : Bool) (keys : CryptoKeys) (cipher : Cipher)
    (input : SecretImport) (marker : String) (entries : List (String × Option String)) : Prop where
  fields : List.Forall₂ (Entry P.toCryptography allow keys) cipher.getFields entries
  distinct : (entries.map Prod.fst).Nodup
  password : ∀ value, input.password = some value → Holds P allow keys cipher.getPassword value
  notes : ∀ value, input.notes = some value → Holds P allow keys cipher.getNotes value
  custom : ∀ f ∈ input.fields, Holds P allow keys (foundIn entries none (some f.name)) f.value
  marker : Holds P allow keys (foundIn entries none (some "vw-access")) marker

/-- INTERNAL: what is selected. -/
theorem selectedValue_ok {cipher : Cipher} {selector plain : String}
    (h : selectedValue P.toCryptography allow cipher keys selector = .ok plain) :
    ∃ entries picked, List.Forall₂ (Entry P.toCryptography allow keys) cipher.getFields entries ∧
      (entries.map Prod.fst).Nodup ∧
      pick cipher (foundIn entries none (customName selector)) selector = .ok picked ∧
      Holds P allow keys picked plain := by
  obtain ⟨-, -, h⟩ := bind_ok_iff.mp h
  obtain ⟨custom, hscan, h⟩ := bind_ok_iff.mp h
  obtain ⟨picked, hpick, h⟩ := bind_ok_iff.mp h
  obtain ⟨encrypted, hencrypted, h⟩ := bind_ok_iff.mp h
  obtain ⟨-, -, hopens⟩ := bind_ok_iff.mp h
  obtain ⟨entries, hentries, hnodup, -, rfl⟩ := scanFields_ok hscan
  exact ⟨entries, picked, hentries, hnodup, hpick, encrypted, orFail_ok_iff.mp hencrypted, hopens⟩

theorem checkValue_ok {cipher : Cipher} {selector value : String}
    (h : checkValue P.toCryptography allow cipher keys selector value = .ok ()) :
    selectedValue P.toCryptography allow cipher keys selector = .ok value := by
  obtain ⟨selected, hselected, h⟩ := bind_ok_iff.mp h
  have heq : selected = value := by simpa using ensureThat_ok_iff.mp h
  rw [← heq]
  exact hselected

theorem checkFields_ok {cipher : Cipher} : ∀ {fields : List NamedSecret},
    checkFields P.toCryptography allow cipher keys fields = .ok () → ∀ f ∈ fields,
      selectedValue P.toCryptography allow cipher keys (customMarker ++ f.name) = .ok f.value
  | [], _, _, hf => absurd hf List.not_mem_nil
  | field :: fields, h, f, hf => by
    obtain ⟨⟨⟩, hfirst, hrest⟩ := bind_ok_iff.mp h
    obtain rfl | hf := List.mem_cons.mp hf
    · exact checkValue_ok hfirst
    · exact checkFields_ok hrest f hf

/-- INTERNAL: the selector of a custom field. -/
theorem customName_append (name : String) : customName (customMarker ++ name) = some name := by
  unfold customName
  have hdrop : (customMarker ++ name).toList.dropPrefix? customMarker.toList = some name.toList := by
    rw [String.toList_append]
    exact List.dropPrefix?_append_of_beq _ (by simp)
  rw [hdrop, Option.map_some, String.ofList_toList]

theorem custom_ne_password (name : String) : customMarker ++ name ≠ "password" := by
  intro h
  have hlist := congrArg String.toList h
  rw [String.toList_append] at hlist
  exact absurd (List.cons.inj hlist).1 (by decide)

theorem custom_ne_notes (name : String) : customMarker ++ name ≠ "notes" := by
  intro h
  have hlist := congrArg String.toList h
  rw [String.toList_append] at hlist
  exact absurd (List.cons.inj hlist).1 (by decide)

/-- INTERNAL: it is none of the two others. -/
theorem pick_custom (cipher : Cipher) (custom : Option String) (name : String) :
    pick cipher custom (customMarker ++ name) = .ok custom := by
  have hstart : startsWith (customMarker ++ name) customMarker = true := by
    unfold startsWith
    rw [List.isPrefixOf_iff_prefix, String.toList_append]
    exact List.prefix_append _ _
  unfold pick
  rw [if_neg (custom_ne_password name), if_neg (custom_ne_notes name), if_pos hstart]

theorem loginField_custom (name : String) :
    loginField (customMarker ++ name) = .ok (.custom name) := by
  unfold loginField
  rw [if_neg (custom_ne_password name), if_neg (custom_ne_notes name), customName_append]
  rfl

/-- INTERNAL: what a custom selector selects. -/
theorem holds_of_custom {cipher : Cipher} {entries : List (String × Option String)}
    {name plain : String}
    (hentries : List.Forall₂ (Entry P.toCryptography allow keys) cipher.getFields entries)
    (h : selectedValue P.toCryptography allow cipher keys (customMarker ++ name) = .ok plain) :
    Holds P allow keys (foundIn entries none (some name)) plain := by
  obtain ⟨entries', picked, hentries', -, hpick, hholds⟩ := selectedValue_ok h
  rw [pick_custom, customName_append] at hpick
  rw [entries_unique hentries hentries', Except.ok.inj hpick]
  exact hholds

/-- INTERNAL: what is found has the keys of the item. -/
theorem checkItem_ok {d : Destination} {cipher : Cipher} {id : String} {parent : CryptoKeys}
    (h : d.checkItem P.toCryptography allow cipher id parent = .ok keys) :
    (cipher.id = id ∧ cipher.deletedDate = none ∧ cipher.organizationId = none) ∧
      parent.itemKeys P.toCryptography allow cipher.itemKey = .ok keys := by
  obtain ⟨⟨⟩, hbound, h⟩ := bind_ok_iff.mp h
  obtain ⟨itemKeys, hkeys, h⟩ := bind_ok_iff.mp h
  obtain ⟨_, -, h⟩ := bind_ok_iff.mp h
  obtain ⟨_, -, h⟩ := bind_ok_iff.mp h
  obtain ⟨_, -, h⟩ := bind_ok_iff.mp h
  obtain ⟨_, -, h⟩ := bind_ok_iff.mp h
  obtain rfl := Except.ok.inj h
  have hbound := ensureThat_ok_iff.mp hbound
  simp only [Bool.and_eq_true, decide_eq_true_eq, Option.isNone_iff_eq_none] at hbound
  exact ⟨⟨hbound.1.1.1, hbound.1.1.2, hbound.1.2⟩, hkeys⟩

/-- INTERNAL: **what `verify_created` accepts.** -/
theorem verifyCreated_ok {parent : CryptoKeys} {d : Destination} {id marker : String}
    {cipher : Cipher} {input : SecretImport}
    (h : verifyCreated P.toCryptography allow parent d id cipher input (some marker) = .ok ()) :
    cipher.isLogin = true ∧ ∃ keys entries,
      d.checkItem P.toCryptography allow cipher id parent = .ok keys ∧
        Matches P allow keys cipher input marker entries := by
  obtain ⟨⟨⟩, hshape, h⟩ := bind_ok_iff.mp h
  obtain ⟨keys, hkeys, h⟩ := bind_ok_iff.mp h
  obtain ⟨⟨⟩, -, h⟩ := bind_ok_iff.mp h
  obtain ⟨⟨⟩, -, h⟩ := bind_ok_iff.mp h
  obtain ⟨⟨⟩, hpassword, h⟩ := bind_ok_iff.mp h
  obtain ⟨⟨⟩, hnotes, h⟩ := bind_ok_iff.mp h
  obtain ⟨⟨⟩, hfields, hmarker⟩ := bind_ok_iff.mp h
  have hshape := ensureThat_ok_iff.mp hshape
  rw [Bool.and_eq_true] at hshape
  have hmarker := checkValue_ok hmarker
  -- The marker is always selected, so the names of the fields are known to differ.
  obtain ⟨entries, _, hentries, hnodup, -, -⟩ := selectedValue_ok hmarker
  refine ⟨hshape.1, keys, entries, hkeys, hentries, hnodup, ?_, ?_, ?_, ?_⟩
  · intro value hvalue
    rw [hvalue] at hpassword
    obtain ⟨_, picked, -, -, hpick, hholds⟩ := selectedValue_ok (checkValue_ok hpassword)
    obtain rfl := Except.ok.inj hpick
    exact hholds
  · intro value hvalue
    rw [hvalue] at hnotes
    obtain ⟨_, picked, -, -, hpick, hholds⟩ := selectedValue_ok (checkValue_ok hnotes)
    obtain rfl := Except.ok.inj hpick
    exact hholds
  · exact fun f hf => holds_of_custom hentries (checkFields_ok hfields f hf)
  · exact holds_of_custom hentries hmarker

end Verified

/-! ## What the backend reads -/

/-- The input's value of a field. -/
def valueOf (input : SecretImport) : LoginField → Option String
  | .username => none
  | .password => input.password
  | .notes => input.notes
  | .custom name => (input.fields.find? fun f => f.name = name).map NamedSecret.value

section Reading

variable {P : Packages} {allow : Bool} {keys : CryptoKeys}

/-- INTERNAL: what is found under a name is the only entry of that name. -/
theorem filter_of_found {entries : List (String × Option String)} {name encrypted : String}
    (hnodup : (entries.map Prod.fst).Nodup)
    (h : foundIn entries none (some name) = some encrypted) :
    (entries.filter fun entry => entry.1 = name) = [(name, some encrypted)] := by
  induction entries with
  | nil => simp [foundIn] at h
  | cons entry entries ih =>
    rw [List.map_cons, List.nodup_cons] at hnodup
    obtain ⟨label, value⟩ := entry
    by_cases hlabel : label = name
    · subst hlabel
      have hvalue : value = some encrypted := by simpa [foundIn] using h
      have hrest : (entries.filter fun entry => entry.1 = label) = [] := by
        rw [List.filter_eq_nil_iff]
        intro entry hentry heq
        exact hnodup.1 (List.mem_map.mpr ⟨entry, hentry, by simpa using heq⟩)
      simp [hrest, hvalue]
    · have hbeq : (name == label) = false := by simpa using Ne.symm hlabel
      have hfound : foundIn entries none (some name) = some encrypted := by
        simpa [foundIn, List.lookup_cons, hbeq] using h
      simp [hlabel, ih hnodup.2 hfound]

/-- INTERNAL: **every value of the input is read back.** -/
theorem readValue_ok {cipher : Cipher} {input : SecretImport} {marker value : String}
    {entries : List (String × Option String)} {field : LoginField}
    (h : Matches P allow keys cipher input marker entries) (hvalue : valueOf input field = some value) :
    readValue P allow keys cipher entries field = .ok value := by
  unfold readValue
  cases field with
  | username => cases hvalue
  | password =>
    obtain ⟨encrypted, hencrypted, hopens⟩ := h.password value hvalue
    have hpicked : encryptedValue cipher entries .password = .ok encrypted := orElse_ok_iff.mpr hencrypted
    rw [ok_bind hpicked]
    exact decryptField_ok hopens
  | notes =>
    obtain ⟨encrypted, hencrypted, hopens⟩ := h.notes value hvalue
    have hpicked : encryptedValue cipher entries .notes = .ok encrypted := orElse_ok_iff.mpr hencrypted
    rw [ok_bind hpicked]
    exact decryptField_ok hopens
  | custom name =>
    obtain ⟨f, hf, rfl⟩ := Option.map_eq_some_iff.mp hvalue
    have hname : f.name = name := by simpa using List.find?_some hf
    obtain ⟨encrypted, hencrypted, hopens⟩ := h.custom f (List.mem_of_find?_eq_some hf)
    rw [hname] at hencrypted
    have hpicked : encryptedValue cipher entries (.custom name) = .ok encrypted := by
      simp only [encryptedValue]
      rw [filter_of_found h.distinct hencrypted]
      rfl
    rw [ok_bind hpicked]
    exact decryptField_ok hopens

/-- INTERNAL: both unwrap the item's key in one way. -/
theorem ownKeys_ok {parent : CryptoKeys} {wrapped : Option String}
    (h : parent.itemKeys P.toCryptography allow wrapped = .ok keys) :
    ownKeys P allow parent wrapped = .ok keys := by
  cases wrapped with
  | none => exact congrArg Except.ok (Except.ok.inj h)
  | some encrypted =>
    obtain ⟨⟨⟩, hshape, h⟩ := bind_ok_iff.mp h
    obtain ⟨data, hdata, hkeys⟩ := bind_ok_iff.mp h
    rw [requireAuthenticated, ensureThat_ok_iff] at hshape
    have hauthenticated : demand (authenticatedShape encrypted) .backendUnavailable = .ok () :=
      demand_ok_iff.mpr hshape
    simp only [ownKeys]
    rw [ok_bind hauthenticated, ok_bind (orUnavailable_ok_iff.mpr hdata), orUnavailable_ok_iff]
    exact hkeys

/-- INTERNAL: **the item's marker is found once.** -/
theorem readFields_of_matches {cipher : Cipher} {input : SecretImport} {marker : String}
    {entries : List (String × Option String)} (h : Matches P allow keys cipher input marker entries) :
    readFields P allow keys ("vw-access=" ++ marker) cipher.getFields [] 0 [] = .ok (1, entries) := by
  obtain ⟨encrypted, hencrypted, hopens⟩ := h.marker
  have honly := filter_of_found h.distinct hencrypted
  have hmarker : ∀ value, ("vw-access", value) ∈ entries → ∃ sealed plain, value = some sealed ∧
      Opens P.toCryptography allow keys sealed plain ∧
        "vw-access=" ++ plain = "vw-access=" ++ marker := by
    intro value hvalue
    have hmem : ("vw-access", value) ∈ entries.filter fun entry => entry.1 = "vw-access" :=
      List.mem_filter.mpr ⟨hvalue, by simp⟩
    rw [honly, List.mem_singleton, Prod.mk.injEq] at hmem
    exact ⟨encrypted, marker, hmem.2, hopens, rfl⟩
  rw [readFields_ok h.fields h.distinct hmarker fun _ _ => List.not_mem_nil, honly]
  rfl

/-- INTERNAL: **the backend reads the values of an item that was verified.** -/
theorem selected_ok {B : Backend} {S : Server} {effect : CreateEffect} {input : SecretImport}
    {id : String} {cipher : Cipher} {sync : SyncResponse} {fields : List LoginField}
    {values : List String} (hid : looseItemId id = true) (hsession : B.session = some keys)
    (hcompatible : B.compatible = true) (hsync : S.sync = .ok sync)
    (hchecked : effect.destination.checkSync P.toCryptography allow sync keys false = .ok ())
    (hcipher : S.cipher id = .ok cipher)
    (hverified : verifyCreated P.toCryptography allow keys effect.destination id cipher input
      (some effect.eligibilityMarker) = .ok ()) (hfields : fields ≠ [])
    (hvalues : List.Forall₂ (fun field value => valueOf input field = some value) fields values) :
    selected P allow B S (createBinding effect id fields) = .ok values := by
  obtain ⟨hlogin, itemKeys, entries, hitem, hmatches⟩ := verifyCreated_ok hverified
  obtain ⟨⟨hsame, hdeleted, horganization⟩, hkeys⟩ := checkItem_ok hitem
  have hrequest : (looseItemId id && !fields.isEmpty) = true := by
    rw [hid, Bool.true_and, Bool.not_eq_true', List.isEmpty_eq_false_iff]
    exact hfields
  have hnamespace : checkNamespace P allow S keys (some effect.destination) = .ok () := by
    simp only [checkNamespace]
    rw [ok_bind hsync, orUnavailable_ok_iff]
    exact hchecked
  have hshape : (decide (cipher.id = id) && cipher.deletedDate.isNone && cipher.isLogin) = true := by
    rw [hdeleted, hlogin, hsame]
    simp
  have hplace : checkPlace P allow cipher id keys (some effect.destination) = .ok () := by
    simp only [checkPlace]
    rw [orUnavailable_ok_iff, ok_bind hitem]
    rfl
  have hparent : parentKeys P allow B keys cipher.organizationId = .ok keys := by
    rw [horganization]
    rfl
  have hread : fields.mapM (readValue P allow itemKeys cipher entries) = .ok values :=
    (mapM_ok_iff fields values).mpr (hvalues.imp fun _ _ h => readValue_ok hmatches h)
  unfold selected createBinding
  rw [ok_bind (orElse_ok_iff.mpr hsession), ok_bind (demand_ok_iff.mpr hcompatible),
    ok_bind (demand_ok_iff.mpr hrequest), ok_bind hnamespace, ok_bind hcipher,
    ok_bind (demand_ok_iff.mpr hshape), ok_bind hplace, ok_bind hparent, ok_bind (ownKeys_ok hkeys),
    ok_bind (readFields_of_matches hmatches)]
  exact hread

/-- INTERNAL: every field of the effect has a value in the input. -/
theorem value_of_selector {effect : CreateEffect} {input : SecretImport} {s : String}
    (hselectors : input.selectors = sortTexts effect.fields) (hs : s ∈ effect.fields) :
    ∃ field value, loginField s = .ok field ∧ valueOf input field = some value := by
  have hmem : s ∈ input.selectors := by
    rw [hselectors]
    exact (perm_sortByKey id effect.fields).mem_iff.mpr hs
  have hmem := (perm_sortByKey id _).mem_iff.mp hmem
  simp only [List.mem_append, List.mem_map] at hmem
  obtain (hmem | hmem) | ⟨f, hf, rfl⟩ := hmem
  · split_ifs at hmem with hpassword
    · obtain rfl := List.mem_singleton.mp hmem
      obtain ⟨value, hvalue⟩ := Option.isSome_iff_exists.mp hpassword
      exact ⟨.password, value, rfl, hvalue⟩
    · exact absurd hmem List.not_mem_nil
  · split_ifs at hmem with hnotes
    · obtain rfl := List.mem_singleton.mp hmem
      obtain ⟨value, hvalue⟩ := Option.isSome_iff_exists.mp hnotes
      exact ⟨.notes, value, rfl, hvalue⟩
    · exact absurd hmem List.not_mem_nil
  · obtain ⟨g, hg⟩ : ∃ g, input.fields.find? (fun g => g.name = f.name) = some g := by
      rw [← Option.isSome_iff_exists, List.find?_isSome]
      exact ⟨f, hf, by simp⟩
    refine ⟨.custom f.name, g.value, loginField_custom f.name, ?_⟩
    simp only [valueOf]
    rw [hg, Option.map_some]

/-- INTERNAL: the fields of the effect, with their values. -/
theorem values_of_selectors {effect : CreateEffect} {input : SecretImport} {fields : List LoginField}
    (hselectors : input.selectors = sortTexts effect.fields)
    (hfields : ∀ field ∈ fields, ∃ s ∈ effect.fields, loginField s = .ok field) :
    ∃ values, List.Forall₂ (fun field value => valueOf input field = some value) fields values := by
  induction fields with
  | nil => exact ⟨[], .nil⟩
  | cons field fields ih =>
    obtain ⟨s, hs, hfield⟩ := hfields field List.mem_cons_self
    obtain ⟨field', value, hfield', hvalue⟩ := value_of_selector hselectors hs
    obtain rfl := Except.ok.inj (hfield.symm.trans hfield')
    obtain ⟨values, hvalues⟩ := ih fun field hmem => hfields field (List.mem_cons_of_mem _ hmem)
    exact ⟨value :: values, .cons hvalue hvalues⟩

end Reading

/-! ## Verified means readable -/

/-- INTERNAL: what a whole effect selects. -/
theorem loginFields_ok {effect : CreateEffect} {input : SecretImport} {names : List String}
    (hselectors : input.selectors = sortTexts effect.fields) (hnames : ∀ s ∈ names, s ∈ effect.fields) :
    ∃ fields, names.mapM loginField = .ok fields ∧ fields.length = names.length ∧
      ∀ field ∈ fields, ∃ s ∈ effect.fields, loginField s = .ok field := by
  induction names with
  | nil => exact ⟨[], rfl, rfl, fun _ h => absurd h List.not_mem_nil⟩
  | cons s names ih =>
    obtain ⟨fields, hrest, hlength, hfields⟩ := ih fun s hs => hnames s (List.mem_cons_of_mem _ hs)
    have hs := hnames s List.mem_cons_self
    obtain ⟨field, -, hfield, -⟩ := value_of_selector hselectors hs
    refine ⟨field :: fields, ?_, congrArg (· + 1) hlength, ?_⟩
    · rw [List.mapM_cons, ok_bind hfield, ok_bind hrest]
      rfl
    · intro other hother
      obtain rfl | hother := List.mem_cons.mp hother
      · exact ⟨s, hs, hfield⟩
      · exact hfields other hother

/-- **A secret that was verified can be read.** For a valid effect, an input with its selectors and
an item that `verify_created` accepts, under a compatible, unlocked session whose sync is right, and
for an item id of the form that the service issues: any of the effect's fields are selected and
their values are the input's; and the item reconciles, where the effect's server is configured. -/
theorem verified_readable (P : Packages) (allow : Bool) (B : Backend) (S : Server)
    (effect : CreateEffect) (input : SecretImport) (id : String) (cipher : Cipher)
    (sync : SyncResponse) (keys : CryptoKeys) (hvalid : effect.valid = true)
    (hselectors : input.selectors = sortTexts effect.fields) (hid : looseItemId id = true)
    (hsession : B.session = some keys) (hcompatible : B.compatible = true) (hsync : S.sync = .ok sync)
    (hchecked : effect.destination.checkSync P.toCryptography allow sync keys false = .ok ())
    (hcipher : S.cipher id = .ok cipher)
    (hverified : verifyCreated P.toCryptography allow keys effect.destination id cipher input
      (some effect.eligibilityMarker) = .ok ()) :
    (∀ fields, fields ≠ [] → (∀ field ∈ fields, ∃ s ∈ effect.fields, loginField s = .ok field) →
      ∃ values, List.Forall₂ (fun field value => valueOf input field = some value) fields values ∧
        selected P allow B S (createBinding effect id fields) = .ok values) ∧
    (serves B effect = true → reconcileSecret P allow B S effect id = .ok ()) := by
  have hselected : ∀ fields, fields ≠ [] →
      (∀ field ∈ fields, ∃ s ∈ effect.fields, loginField s = .ok field) →
      ∃ values, List.Forall₂ (fun field value => valueOf input field = some value) fields values ∧
        selected P allow B S (createBinding effect id fields) = .ok values := by
    intro fields hne hfields
    obtain ⟨values, hvalues⟩ := values_of_selectors hselectors hfields
    exact ⟨values, hvalues, selected_ok hid hsession hcompatible hsync hchecked hcipher hverified hne hvalues⟩
  refine ⟨hselected, fun hserves => ?_⟩
  obtain ⟨fields, hmap, hlength, hfields⟩ := loginFields_ok hselectors fun s hs => hs
  have hne : fields ≠ [] := by
    rintro rfl
    have hempty : effect.fields = [] := List.length_eq_zero_iff.mp hlength.symm
    simp [CreateEffect.valid, hempty] at hvalid
  obtain ⟨values, -, hread⟩ := hselected fields hne hfields
  unfold reconcileSecret
  rw [ok_bind (demand_ok_iff.mpr hserves), ok_bind hmap, ok_bind hread]
  rfl

/-! ## One item -/

/-- What a server keeps of a created item, under the id it gives it. -/
def stored (id : String) (created : EncryptedCreate) : Cipher where
  itemKey := some created.key
  id := id
  organizationId := created.organizationId
  deletedDate := none
  name := some created.name
  notes := created.notes
  folderId := some created.folderId
  fields := some (created.fields.map fun field =>
    ⟨some field.name, some field.value, if field.type = 1 then .hidden else .text⟩)
  data := none
  cipherData := some (.login ⟨none, created.password⟩)

/-- A cipher that hides nothing, with a short tag that depends on the key alone. -/
def samplePackages : Packages where
  hmac key _ := key.take 1
  aesEncrypt _ _ data := data
  aesDecrypt _ iv data := if iv.length = 16 then some data else none
  validPkcs8 _ := false
  oaepSha1 _ _ := none
  oaepSha256 _ _ := none

def sampleKeys : CryptoKeys := ⟨List.replicate 32 1, List.replicate 32 2, rfl, rfl⟩

def sampleEffect : CreateEffect where
  server := "https://vault.example"
  destination := ⟨"11111111-1111-1111-1111-111111111111", "homelab",
    "22222222-2222-2222-2222-222222222222", "homelab/token"⟩
  fields := ["password", "custom:key"]
  eligibilityMarker := "deploy"

def sampleInput : SecretImport := ⟨some "secret", none, [⟨"key", "value"⟩]⟩

/-- The item that is created for the effect. -/
def sampleCreated : Except String (EncryptedCreate × List (List UInt8)) :=
  (encryptCreate samplePackages.toCryptography sampleKeys sampleEffect.destination sampleInput
    (some sampleEffect.eligibilityMarker)).run
    (List.replicate 64 3 :: List.replicate 9 (List.replicate 16 4))

/-- It, as it is kept. -/
def sampleCipher (id : String) : Option Cipher :=
  sampleCreated.toOption.map fun created => stored id created.1

def sampleSync : Except String SyncResponse := do
  let (label, _) ← (encryptText samplePackages.toCryptography sampleKeys "homelab").run
    [List.replicate 16 5]
  pure ⟨[], [⟨"22222222-2222-2222-2222-222222222222", label⟩], "11111111-1111-1111-1111-111111111111"⟩

def sampleBackend : Backend := ⟨some "https://vault.example/", none, [], some sampleKeys, true⟩

/-- A server that holds the item. -/
def sampleServer (id : String) : Server where
  sync := orUnavailable sampleSync
  cipher id' := if id' = id then orElse .backendUnavailable (sampleCipher id) else .error .backendUnavailable

def sampleId : String := "33333333-3333-3333-3333-333333333333"

def sampleServerOfId : Server := sampleServer sampleId

/-- The checks of the sync and of the item. -/
def sampleChecks (id : String) : Except SessionError Unit := do
  let sync ← (sampleServer id).sync
  orUnavailable (sampleEffect.destination.checkSync samplePackages.toCryptography false sync
    sampleKeys false)
  let cipher ← (sampleServer id).cipher id
  orUnavailable (verifyCreated samplePackages.toCryptography false sampleKeys
    sampleEffect.destination id cipher sampleInput (some sampleEffect.eligibilityMarker))

/-- INTERNAL: what the checks say. -/
theorem sample_verified (id : String) (h : sampleChecks id = .ok ()) :
    ∃ sync cipher, (sampleServer id).sync = .ok sync ∧
      sampleEffect.destination.checkSync samplePackages.toCryptography false sync sampleKeys false =
        .ok () ∧
      (sampleServer id).cipher id = .ok cipher ∧
      verifyCreated samplePackages.toCryptography false sampleKeys sampleEffect.destination id cipher
        sampleInput (some sampleEffect.eligibilityMarker) = .ok () := by
  obtain ⟨sync, hsync, h⟩ := bind_ok_iff.mp h
  obtain ⟨⟨⟩, hchecked, h⟩ := bind_ok_iff.mp h
  obtain ⟨cipher, hcipher, hverified⟩ := bind_ok_iff.mp h
  exact ⟨sync, cipher, hsync, orUnavailable_ok_iff.mp hchecked, hcipher, orUnavailable_ok_iff.mp hverified⟩

/-- Under an item id all of it holds, and the values are read. -/
theorem verified_readable_sample : ∃ sync cipher,
    (∀ fields, fields ≠ [] →
      (∀ field ∈ fields, ∃ s ∈ sampleEffect.fields, loginField s = .ok field) →
      ∃ values, List.Forall₂ (fun field value => valueOf sampleInput field = some value) fields values ∧
        selected samplePackages false sampleBackend sampleServerOfId
          (createBinding sampleEffect sampleId fields) = .ok values) ∧
    reconcileSecret samplePackages false sampleBackend sampleServerOfId sampleEffect sampleId = .ok () ∧
    sampleServerOfId.sync = .ok sync ∧ sampleServerOfId.cipher sampleId = .ok cipher := by
  obtain ⟨hvalid, hselectors⟩ : sampleEffect.valid = true ∧
      sampleInput.selectors = sortTexts sampleEffect.fields := by decide +kernel
  obtain ⟨sync, cipher, hsync, hchecked, hcipher, hverified⟩ :=
    sample_verified sampleId (by decide +kernel)
  have hread := verified_readable samplePackages false sampleBackend sampleServerOfId sampleEffect
    sampleInput sampleId cipher sync sampleKeys hvalid hselectors (by decide +kernel) rfl rfl hsync
    hchecked hcipher hverified
  exact ⟨sync, cipher, hread.1, hread.2 (by decide +kernel), hsync, hcipher⟩

/-- The item verifies under an id that is no item id, and then it can not be selected. -/
theorem id_refused :
    (sampleEffect.valid = true ∧ sampleInput.selectors = sortTexts sampleEffect.fields ∧
      ∃ sync cipher, (sampleServer "x").sync = .ok sync ∧
        sampleEffect.destination.checkSync samplePackages.toCryptography false sync sampleKeys false =
          .ok () ∧
        (sampleServer "x").cipher "x" = .ok cipher ∧
        verifyCreated samplePackages.toCryptography false sampleKeys sampleEffect.destination "x" cipher
          sampleInput (some sampleEffect.eligibilityMarker) = .ok ()) ∧
    selected samplePackages false sampleBackend (sampleServer "x")
      (createBinding sampleEffect "x" [.password]) = .error .invalidRequest ∧
    reconcileSecret samplePackages false sampleBackend (sampleServer "x") sampleEffect "x" =
      .error .invalidRequest := by
  obtain ⟨hvalid, hselectors⟩ : sampleEffect.valid = true ∧
      sampleInput.selectors = sortTexts sampleEffect.fields := by decide +kernel
  obtain ⟨sync, cipher, hsync, hchecked, hcipher, hverified⟩ := sample_verified "x" (by decide +kernel)
  exact ⟨⟨hvalid, hselectors, sync, cipher, hsync, hchecked, hcipher, hverified⟩, by decide +kernel,
    by decide +kernel⟩

/-! ## The session that wrote it -/

/-- INTERNAL: the strict form of an item id is one of the loose. -/
theorem looseItemId_of_validItemId {id : String} (h : validItemId id = true) :
    looseItemId id = true := by
  have hfrom : ∀ (text : List Char) (index : ℕ), uuidFrom index text = true →
      looseUuidFrom index text = true := by
    intro text
    induction text with
    | nil => exact fun _ _ => rfl
    | cons c text ih =>
      intro index h
      simp only [uuidFrom, Bool.and_eq_true] at h
      simp only [looseUuidFrom, Bool.and_eq_true]
      refine ⟨?_, ih (index + 1) h.2⟩
      split_ifs with hindex
      · simpa [hindex] using h.1
      · rw [if_neg hindex] at h
        rw [h.1, Bool.true_or]
  unfold validItemId uuidShape at h
  unfold looseItemId
  rw [Bool.and_eq_true] at h ⊢
  exact ⟨h.1, hfrom _ 0 h.2⟩

/-- **What `verify_secret` accepts in a session, `selected` reads in it.** -/
theorem verifySecret_readable {P : Packages} {allow : Bool} {B : Backend} {S : Server}
    {effect : CreateEffect} {input : SecretImport} {id : String}
    (hselectors : input.selectors = sortTexts effect.fields)
    (h : verifySecret P allow B S effect id input = .ok ()) {fields : List LoginField}
    (hne : fields ≠ []) (hfields : ∀ field ∈ fields, ∃ s ∈ effect.fields, loginField s = .ok field) :
    ∃ values, List.Forall₂ (fun field value => valueOf input field = some value) fields values ∧
      selected P allow B S (createBinding effect id fields) = .ok values := by
  obtain ⟨keys, hsession, h⟩ := bind_ok_iff.mp h
  obtain ⟨sync, hsync, h⟩ := bind_ok_iff.mp h
  obtain ⟨⟨⟩, hchecked, h⟩ := bind_ok_iff.mp h
  obtain ⟨cipher, hcipher, hverified⟩ := bind_ok_iff.mp h
  obtain ⟨_, -, hcipher⟩ := bind_ok_iff.mp hcipher
  obtain ⟨⟨⟩, hcompatible, hcipher⟩ := bind_ok_iff.mp hcipher
  obtain ⟨⟨⟩, hid, hcipher⟩ := bind_ok_iff.mp hcipher
  obtain ⟨values, hvalues⟩ := values_of_selectors hselectors hfields
  have hid := looseItemId_of_validItemId (demand_ok_iff.mp hid)
  exact ⟨values, hvalues, selected_ok hid (orElse_ok_iff.mp hsession) (demand_ok_iff.mp hcompatible)
    hsync (orUnavailable_ok_iff.mp hchecked) hcipher (orUnavailable_ok_iff.mp hverified) hne hvalues⟩

end VaultAccess.Analysis.Written
