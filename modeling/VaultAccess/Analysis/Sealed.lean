import Mathlib.Data.UInt
import VaultAccess.Analysis.Written

/-!
# Only authenticated ciphertext is read

`require_authenticated` looks at the whole text and `decrypt` at its prefix and at what
follows it. Where the first accepts, the second finds a tag, so whether a missing tag is
allowed does not matter; and what it decrypts is what the tag was verified over.
-/

set_option autoImplicit false

namespace VaultAccess.Analysis.Sealed

open VaultAccess.Library VaultAccess.Library.Results VaultAccess.Library.Text
open VaultAccess.Model
open VaultAccess.Model.MachO (fromUtf8)
open VaultAccess.Analysis.Written (ensureThat_ok_iff orFail_ok_iff pick_custom customName_append
  custom_ne_password custom_ne_notes foundIn)

/-! ## One text -/

/-- INTERNAL: the bytes of a text are its encoding. -/
theorem fromUtf8_bytes (text : String) : fromUtf8 (bytes text) = some text := by
  have hbytes : (⟨(bytes text).toArray⟩ : ByteArray) = text.toByteArray := by
    conv => rhs; rw [← String.ofList_toList (s := text), String.toByteArray_ofList]
    apply ByteArray.ext
    rw [List.utf8Encode, List.data_toByteArray]
    rfl
  unfold fromUtf8 String.fromUTF8?
  rw [hbytes, dif_pos text.isValidUTF8]
  rfl

/-- The text is of the authenticated type, and these are the texts of its vector, its ciphertext
and its tag. -/
structure Parts (encrypted : String) (iv ciphertext mac : List Char) : Prop where
  vector : '|' ∉ iv
  body : '|' ∉ ciphertext
  tag : '|' ∉ mac
  text : encrypted.toList = '2' :: '.' :: (iv ++ '|' :: (ciphertext ++ '|' :: mac))

/-- The tag that the text carries is the one of exactly its vector and its ciphertext. -/
def Verified (C : Cryptography) (keys : CryptoKeys) (encrypted : String)
    (vector body : List UInt8) : Prop :=
  ∃ iv ciphertext mac, Parts encrypted iv ciphertext mac ∧
    Base64.decodePadded Base64.standard iv = some vector ∧
    Base64.decodePadded Base64.standard ciphertext = some body ∧
    Base64.decodePadded Base64.standard mac = some (C.hmac keys.macKey (vector ++ body))

/-- The tag is right, and what it is over decrypts to the data. -/
def Opened (C : Cryptography) (keys : CryptoKeys) (encrypted : String) (data : List UInt8) : Prop :=
  ∃ vector body, Verified C keys encrypted vector body ∧
    C.aesDecrypt keys.encKey vector body = some data

/-- The data is a text. -/
def Reads (C : Cryptography) (keys : CryptoKeys) (encrypted plain : String) : Prop :=
  ∃ data, Opened C keys encrypted data ∧ fromUtf8 data = some plain

/-- INTERNAL: a text in the form has one separator after its type. -/
theorem Parts.split {encrypted : String} {iv ciphertext mac : List Char}
    (h : Parts encrypted iv ciphertext mac) :
    splitOnce '.' encrypted.toList = some (['2'], iv ++ '|' :: (ciphertext ++ '|' :: mac)) ∧
      split '|' (iv ++ '|' :: (ciphertext ++ '|' :: mac)) = [iv, ciphertext, mac] := by
  refine ⟨?_, split_eq_three.mpr ⟨h.vector, h.body, h.tag, rfl⟩⟩
  rw [h.text]
  rfl

/-- INTERNAL: **what `require_authenticated` accepts.** -/
theorem requireAuthenticated_ok_iff {encrypted : String} :
    requireAuthenticated encrypted = .ok () ↔ ∃ iv ciphertext mac, Parts encrypted iv ciphertext mac := by
  unfold requireAuthenticated
  rw [ensureThat_ok_iff, Bool.and_eq_true, decide_eq_true_eq]
  constructor
  · rintro ⟨hstart, hthree⟩
    obtain ⟨rest, hrest⟩ : ['2', '.'] <+: encrypted.toList := List.isPrefixOf_iff_prefix.mp hstart
    obtain ⟨a, ciphertext, mac, hsplit⟩ := List.length_eq_three.mp hthree
    obtain ⟨ha, hb, hc, htext⟩ := split_eq_three.mp hsplit
    -- The type stands before the first bar.
    rw [htext] at hrest
    match a, ha, hrest with
    | [], _, hrest => cases hrest
    | [_], _, hrest => cases hrest
    | c :: d :: iv, ha, hrest =>
      simp only [List.cons_append, List.nil_append, List.cons.injEq] at hrest
      obtain ⟨rfl, rfl, -⟩ := hrest
      have hiv : '|' ∉ iv := fun hmem => ha (List.mem_cons_of_mem _ (List.mem_cons_of_mem _ hmem))
      exact ⟨iv, ciphertext, mac, hiv, hb, hc, htext⟩
  · rintro ⟨iv, ciphertext, mac, h⟩
    constructor
    · unfold startsWith
      rw [h.text]
      rfl
    · have htype : '|' ∉ '2' :: '.' :: iv := by
        simpa using h.vector
      have hsplit : split '|' encrypted.toList = ['2' :: '.' :: iv, ciphertext, mac] := by
        rw [split_eq_three]
        exact ⟨htype, h.body, h.tag, h.text⟩
      rw [hsplit]
      rfl

section Decryption

variable {C : Cryptography} {allow allow' : Bool} {keys : CryptoKeys} {encrypted : String}

/-- INTERNAL: the decryptor finds the parts. -/
theorem Parts.decrypt {iv ciphertext mac : List Char} (h : Parts encrypted iv ciphertext mac) :
    keys.decrypt C allow encrypted = keys.openParts C allow iv ciphertext (some mac) := by
  obtain ⟨honce, hthree⟩ := h.split
  have hfound : orFail "Invalid encrypted string format" (splitOnce '.' encrypted.toList) =
      .ok (['2'], iv ++ '|' :: (ciphertext ++ '|' :: mac)) := orFail_ok_iff.mpr honce
  have hkind : orFail "Invalid encryption type" (parseU8 ['2']) = .ok 2 := by decide
  unfold CryptoKeys.decrypt
  rw [ok_bind hfound]
  simp only [hthree]
  rw [ok_bind hkind, ok_bind (ensureThat_ok_iff.mpr (by decide))]

/-- INTERNAL: when the parts open. -/
theorem openParts_ok_iff {iv ciphertext mac : List Char} {data : List UInt8} :
    keys.openParts C allow iv ciphertext (some mac) = .ok data ↔ ∃ vector body,
      Base64.decodePadded Base64.standard iv = some vector ∧
      Base64.decodePadded Base64.standard ciphertext = some body ∧
      Base64.decodePadded Base64.standard mac = some (C.hmac keys.macKey (vector ++ body)) ∧
      C.aesDecrypt keys.encKey vector body = some data := by
  unfold CryptoKeys.openParts CryptoKeys.checkMac decodeStandard
  simp only [bind_ok_iff, orFail_ok_iff]
  constructor
  · rintro ⟨vector, hiv, body, hbody, ⟨⟩, ⟨tag, htag, hmac⟩, hdata⟩
    obtain rfl : C.hmac keys.macKey (vector ++ body) = tag := by
      simpa using ensureThat_ok_iff.mp hmac
    exact ⟨vector, body, hiv, hbody, htag, hdata⟩
  · rintro ⟨vector, body, hiv, hbody, htag, hdata⟩
    exact ⟨vector, hiv, body, hbody, (), ⟨_, htag, ensureThat_ok_iff.mpr (by simp)⟩, hdata⟩

/-- INTERNAL: **an authenticated text opens exactly if its tag is right.** -/
theorem decrypt_ok_iff {data : List UInt8} (h : requireAuthenticated encrypted = .ok ()) :
    keys.decrypt C allow encrypted = .ok data ↔ Opened C keys encrypted data := by
  constructor
  · intro hdata
    obtain ⟨iv, ciphertext, mac, hparts⟩ := requireAuthenticated_ok_iff.mp h
    rw [hparts.decrypt, openParts_ok_iff] at hdata
    obtain ⟨vector, body, hiv, hbody, htag, hdata⟩ := hdata
    exact ⟨vector, body, ⟨iv, ciphertext, mac, hparts, hiv, hbody, htag⟩, hdata⟩
  · rintro ⟨vector, body, ⟨iv, ciphertext, mac, hparts, hiv, hbody, htag⟩, hdata⟩
    rw [hparts.decrypt, openParts_ok_iff]
    exact ⟨vector, body, hiv, hbody, htag, hdata⟩

theorem Opened.authenticated {data : List UInt8} (h : Opened C keys encrypted data) :
    requireAuthenticated encrypted = .ok () := by
  obtain ⟨_, _, ⟨iv, ciphertext, mac, hparts, -⟩, -⟩ := h
  exact requireAuthenticated_ok_iff.mpr ⟨iv, ciphertext, mac, hparts⟩

/-- INTERNAL: what is decrypted, authenticated. -/
theorem decryptAuthenticatedToString_ok_iff {plain : String} :
    keys.decryptAuthenticatedToString C allow encrypted = .ok plain ↔ Reads C keys encrypted plain := by
  unfold CryptoKeys.decryptAuthenticatedToString CryptoKeys.decryptToString
  rw [bind_ok_iff]
  constructor
  · rintro ⟨⟨⟩, hauth, h⟩
    obtain ⟨data, hdata, h⟩ := bind_ok_iff.mp h
    exact ⟨data, (decrypt_ok_iff hauth).mp hdata, orFail_ok_iff.mp h⟩
  · rintro ⟨data, hdata, hplain⟩
    have hauth := hdata.authenticated
    exact ⟨(), hauth, bind_ok_iff.mpr ⟨data, (decrypt_ok_iff hauth).mpr hdata, orFail_ok_iff.mpr hplain⟩⟩

theorem Reads.unique {plain plain' : String} (h : Reads C keys encrypted plain)
    (h' : Reads C keys encrypted plain') : plain = plain' := by
  rw [← @decryptAuthenticatedToString_ok_iff C true] at h h'
  exact Except.ok.inj (h.symm.trans h')

/-- The keys of an item: the given ones, or those that its own wrapped key holds. -/
def Unwraps (C : Cryptography) (parent : CryptoKeys) (wrapped : Option String) (keys : CryptoKeys) :
    Prop :=
  match wrapped with
  | none => keys = parent
  | some value => ∃ data, Opened C parent value data ∧ CryptoKeys.fromSymmetricKey data = .ok keys

/-- INTERNAL: the keys of an item. -/
theorem itemKeys_ok_iff {parent : CryptoKeys} {wrapped : Option String} :
    parent.itemKeys C allow wrapped = .ok keys ↔ Unwraps C parent wrapped keys := by
  cases wrapped with
  | none => exact ⟨fun h => (Except.ok.inj h).symm, fun h => congrArg Except.ok h.symm⟩
  | some value =>
    unfold CryptoKeys.itemKeys Unwraps
    rw [bind_ok_iff]
    constructor
    · rintro ⟨⟨⟩, hauth, h⟩
      obtain ⟨data, hdata, h⟩ := bind_ok_iff.mp h
      exact ⟨data, (decrypt_ok_iff hauth).mp hdata, h⟩
    · rintro ⟨data, hdata, hkeys⟩
      have hauth := hdata.authenticated
      exact ⟨(), hauth, bind_ok_iff.mpr ⟨data, (decrypt_ok_iff hauth).mpr hdata, hkeys⟩⟩

theorem Unwraps.unique {parent keys' : CryptoKeys} {wrapped : Option String}
    (h : Unwraps C parent wrapped keys) (h' : Unwraps C parent wrapped keys') : keys = keys' := by
  rw [← @itemKeys_ok_iff C true] at h h'
  exact Except.ok.inj (h.symm.trans h')

/-! ## Whether a missing tag is allowed -/

theorem decrypt_same (h : requireAuthenticated encrypted = .ok ()) :
    keys.decrypt C allow encrypted = keys.decrypt C allow' encrypted := by
  obtain ⟨iv, ciphertext, mac, hparts⟩ := requireAuthenticated_ok_iff.mp h
  rw [hparts.decrypt, hparts.decrypt]
  rfl

variable (C allow allow' keys)

/-- INTERNAL: **an authenticated text is read in one way.** -/
theorem decryptAuthenticatedToString_same :
    keys.decryptAuthenticatedToString C allow = keys.decryptAuthenticatedToString C allow' := by
  funext encrypted
  unfold CryptoKeys.decryptAuthenticatedToString CryptoKeys.decryptToString
  cases h : requireAuthenticated encrypted with
  | error e => rfl
  | ok u =>
    rw [ok_bind rfl, ok_bind rfl, @decrypt_same C allow allow' keys encrypted h]

theorem itemKeys_same : keys.itemKeys C allow = keys.itemKeys C allow' := by
  funext wrapped
  cases wrapped with
  | none => rfl
  | some value =>
    simp only [CryptoKeys.itemKeys]
    cases h : requireAuthenticated value with
    | error e => rfl
    | ok u =>
      rw [ok_bind rfl, ok_bind rfl, @decrypt_same C allow allow' keys value h]

theorem checkUnused_same (d : Destination) (name : String) (ciphers : List Cipher) :
    d.checkUnused C allow name keys ciphers = d.checkUnused C allow' name keys ciphers := by
  induction ciphers with
  | nil => rfl
  | cons cipher ciphers ih =>
    unfold Destination.checkUnused
    simp only [itemKeys_same C allow allow', decryptAuthenticatedToString_same C allow allow', ih]

theorem checkSync_same (d : Destination) (sync : SyncResponse) (creating : Bool) :
    d.checkSync C allow sync keys creating = d.checkSync C allow' sync keys creating := by
  unfold Destination.checkSync Destination.folderLabels
  rw [decryptAuthenticatedToString_same C allow allow']
  simp only [checkUnused_same C allow allow' keys d]

theorem checkItem_same (d : Destination) (cipher : Cipher) (id : String) :
    d.checkItem C allow cipher id keys = d.checkItem C allow' cipher id keys := by
  unfold Destination.checkItem
  simp only [itemKeys_same C allow allow', decryptAuthenticatedToString_same C allow allow']

theorem scanFields_same (wanted : Option String) (fields : List FieldData) (names : List String)
    (custom : Option String) :
    scanFields C allow keys wanted fields names custom =
      scanFields C allow' keys wanted fields names custom := by
  induction fields generalizing names custom with
  | nil => rfl
  | cons field fields ih =>
    unfold scanFields
    simp only [decryptAuthenticatedToString_same C allow allow', ih]

theorem selectedValue_same (cipher : Cipher) (selector : String) :
    selectedValue C allow cipher keys selector = selectedValue C allow' cipher keys selector := by
  unfold selectedValue
  rw [scanFields_same C allow allow', decryptAuthenticatedToString_same C allow allow']

theorem checkHidden_same (marked : Bool) (fields : List FieldData) :
    checkHidden C allow keys marked fields = checkHidden C allow' keys marked fields := by
  induction fields with
  | nil => rfl
  | cons field fields ih =>
    unfold checkHidden
    rw [ih, decryptAuthenticatedToString_same C allow allow']

theorem checkOptional_same (cipher : Cipher) (selector : String) (value : Option String) :
    checkOptional C allow cipher keys selector value =
      checkOptional C allow' cipher keys selector value := by
  unfold checkOptional checkValue
  rw [selectedValue_same C allow allow']

theorem checkFields_same (cipher : Cipher) (fields : List NamedSecret) :
    checkFields C allow cipher keys fields = checkFields C allow' cipher keys fields := by
  induction fields with
  | nil => rfl
  | cons field fields ih =>
    unfold checkFields checkValue
    rw [selectedValue_same C allow allow', ih]

theorem verifyCreated_same (d : Destination) (id : String) (cipher : Cipher) (input : SecretImport)
    (marker : Option String) :
    verifyCreated C allow keys d id cipher input marker =
      verifyCreated C allow' keys d id cipher input marker := by
  unfold verifyCreated
  simp only [checkItem_same C allow allow', checkHidden_same C allow allow',
    checkOptional_same C allow allow', checkFields_same C allow allow']

end Decryption

/-! ## Names and fields -/

section Reading

variable {C : Cryptography} {allow : Bool} {keys : CryptoKeys}

/-- The read name of a field beside its value. -/
def Labelled (C : Cryptography) (keys : CryptoKeys) (field : FieldData)
    (entry : String × Option String) : Prop :=
  (∃ encrypted, field.name = some encrypted ∧ Reads C keys encrypted entry.1) ∧ entry.2 = field.value

/-- INTERNAL: it is what a scan takes for it. -/
theorem entry_iff {field : FieldData} {entry : String × Option String} :
    Written.Entry C allow keys field entry ↔ Labelled C keys field entry := by
  unfold Written.Entry Labelled Written.Opens
  simp only [decryptAuthenticatedToString_ok_iff]
  constructor
  · rintro ⟨encrypted, hname, hreads, hvalue⟩
    exact ⟨⟨encrypted, hname, hreads⟩, hvalue⟩
  · rintro ⟨⟨encrypted, hname, hreads⟩, hvalue⟩
    exact ⟨encrypted, hname, hreads, hvalue⟩

theorem entries_iff {fields : List FieldData} {entries : List (String × Option String)} :
    List.Forall₂ (Written.Entry C allow keys) fields entries ↔
      List.Forall₂ (Labelled C keys) fields entries :=
  ⟨List.Forall₂.imp fun _ _ => entry_iff.mp, List.Forall₂.imp fun _ _ => entry_iff.mpr⟩

theorem labels_unique {fields : List FieldData} {entries entries' : List (String × Option String)}
    (h : List.Forall₂ (Labelled C keys) fields entries)
    (h' : List.Forall₂ (Labelled C keys) fields entries') : entries = entries' := by
  rw [← @entries_iff C true] at h h'
  exact Written.entries_unique h h'

/-- INTERNAL: fields with distinct names are scanned. -/
theorem scanFields_total {wanted : Option String} {fields : List FieldData}
    {entries : List (String × Option String)} (h : List.Forall₂ (Labelled C keys) fields entries) :
    ∀ {names : List String} {custom : Option String}, (entries.map Prod.fst).Nodup →
      (∀ entry ∈ entries, entry.1 ∉ names) →
      ∃ result, scanFields C allow keys wanted fields names custom = .ok result := by
  induction h with
  | nil =>
    intro names custom _ _
    exact ⟨custom, rfl⟩
  | @cons field entry fields entries hentry _ ih =>
    intro names custom hnodup hnames
    obtain ⟨⟨encrypted, hname, hreads⟩, -⟩ := hentry
    rw [List.map_cons, List.nodup_cons] at hnodup
    have hnew : (!names.contains entry.1) = true := by
      simpa using hnames entry List.mem_cons_self
    unfold scanFields
    rw [ok_bind (orFail_ok_iff.mpr hname), ok_bind (decryptAuthenticatedToString_ok_iff.mpr hreads),
      ok_bind (ensureThat_ok_iff.mpr hnew)]
    apply ih hnodup.2
    intro other hother hmem
    rcases List.mem_cons.mp hmem with heq | hmem
    · exact hnodup.1 (heq ▸ List.mem_map_of_mem hother)
    · exact hnames other (List.mem_cons_of_mem entry hother) hmem

/-- INTERNAL: **what a scan of all the fields finds.** -/
theorem scanFields_ok_iff {wanted : Option String} {fields : List FieldData} {result : Option String} :
    scanFields C allow keys wanted fields [] none = .ok result ↔
      ∃ entries, List.Forall₂ (Labelled C keys) fields entries ∧ (entries.map Prod.fst).Nodup ∧
        result = foundIn entries none wanted := by
  constructor
  · intro h
    obtain ⟨entries, hentries, hnodup, -, hresult⟩ := Written.scanFields_ok h
    exact ⟨entries, entries_iff.mp hentries, hnodup, hresult⟩
  · rintro ⟨entries, hentries, hnodup, rfl⟩
    obtain ⟨result, hscan⟩ := @scanFields_total C allow keys wanted _ _ hentries [] none hnodup
      fun _ _ => List.not_mem_nil
    obtain ⟨entries', hentries', -, -, hresult⟩ := Written.scanFields_ok hscan
    rw [hscan, hresult, labels_unique hentries (entries_iff.mp hentries')]

/-- INTERNAL: what is found under a name, the names being distinct. -/
theorem foundIn_some_iff {entries : List (String × Option String)} {name encrypted : String}
    (h : (entries.map Prod.fst).Nodup) :
    foundIn entries none (some name) = some encrypted ↔ (name, some encrypted) ∈ entries := by
  change (entries.lookup name).getD none = some encrypted ↔ _
  induction entries with
  | nil => simp
  | cons entry entries ih =>
    obtain ⟨label, value⟩ := entry
    rw [List.map_cons, List.nodup_cons] at h
    by_cases heq : name = label
    · subst heq
      have hnot : (name, some encrypted) ∉ entries := fun hmem =>
        h.1 (List.mem_map.mpr ⟨_, hmem, rfl⟩)
      simp [hnot, eq_comm]
    · have hbeq : (name == label) = false := by simpa using heq
      rw [List.lookup_cons, hbeq, ih h.2]
      simp [heq]

/-- The text that a selector selects. -/
def Selected (cipher : Cipher) (entries : List (String × Option String)) (selector encrypted : String) :
    Prop :=
  (selector = "password" ∧ cipher.getPassword = some encrypted) ∨
    (selector = "notes" ∧ cipher.getNotes = some encrypted) ∨
    ∃ name, selector = customMarker ++ name ∧ (name, some encrypted) ∈ entries

/-- INTERNAL: it is what is picked. -/
theorem pick_ok_iff {cipher : Cipher} {entries : List (String × Option String)}
    {selector encrypted : String} (h : (entries.map Prod.fst).Nodup) :
    pick cipher (foundIn entries none (customName selector)) selector = .ok (some encrypted) ↔
      Selected cipher entries selector encrypted := by
  constructor
  · intro hpick
    unfold pick at hpick
    split_ifs at hpick with hpassword hnotes hcustom
    · exact .inl ⟨hpassword, Except.ok.inj hpick⟩
    · exact .inr (.inl ⟨hnotes, Except.ok.inj hpick⟩)
    · obtain ⟨rest, hrest⟩ : customMarker.toList <+: selector.toList :=
        List.isPrefixOf_iff_prefix.mp hcustom
      have hselector : selector = customMarker ++ String.ofList rest := by
        rw [← String.toList_inj, String.toList_append, String.toList_ofList, hrest]
      rw [hselector, customName_append] at hpick
      exact .inr (.inr ⟨_, hselector, (foundIn_some_iff h).mp (Except.ok.inj hpick)⟩)
  · rintro (⟨rfl, hpassword⟩ | ⟨rfl, hnotes⟩ | ⟨name, rfl, hmem⟩)
    · exact congrArg Except.ok hpassword
    · exact congrArg Except.ok hnotes
    · rw [pick_custom, customName_append, (foundIn_some_iff h).mpr hmem]

/-- INTERNAL: **what is selected.** -/
theorem selectedValue_ok_iff {cipher : Cipher} {selector plain : String} :
    selectedValue C allow cipher keys selector = .ok plain ↔ cipher.deletedDate = none ∧
      ∃ entries encrypted, List.Forall₂ (Labelled C keys) cipher.getFields entries ∧
        (entries.map Prod.fst).Nodup ∧ Selected cipher entries selector encrypted ∧
        Reads C keys encrypted plain := by
  unfold selectedValue
  simp only [bind_ok_iff, orFail_ok_iff, scanFields_ok_iff, decryptAuthenticatedToString_ok_iff]
  constructor
  · rintro ⟨⟨⟩, hlive, custom, ⟨entries, hentries, hnodup, rfl⟩, picked, hpick, encrypted, rfl, -, -, hreads⟩
    have hlive := Option.isNone_iff_eq_none.mp (ensureThat_ok_iff.mp hlive)
    exact ⟨hlive, entries, encrypted, hentries, hnodup, (pick_ok_iff hnodup).mp hpick, hreads⟩
  · rintro ⟨hlive, entries, encrypted, hentries, hnodup, hselected, hreads⟩
    have hauth : requireAuthenticated encrypted = .ok () := by
      obtain ⟨data, hdata, -⟩ := hreads
      exact hdata.authenticated
    exact ⟨(), ensureThat_ok_iff.mpr (by rw [hlive]; rfl), _, ⟨entries, hentries, hnodup, rfl⟩, _,
      (pick_ok_iff hnodup).mpr hselected, encrypted, rfl, (), hauth, hreads⟩

/-! ## Items -/

/-- The item's keys are unwrapped and its name is read under them. -/
def Named (C : Cryptography) (parent keys : CryptoKeys) (cipher : Cipher) (label : String) : Prop :=
  Unwraps C parent cipher.itemKey keys ∧
    ∃ encrypted, cipher.getName = some encrypted ∧ Reads C keys encrypted label

/-- INTERNAL: **which items a destination is bound to.** -/
theorem checkItem_ok_iff {d : Destination} {cipher : Cipher} {id : String} {parent : CryptoKeys} :
    d.checkItem C allow cipher id parent = .ok keys ↔ cipher.id = id ∧ cipher.deletedDate = none ∧
      cipher.organizationId = none ∧ cipher.folderId = some d.folderId ∧
      ∃ name, d.nameOrFail = .ok name ∧ Named C parent keys cipher name := by
  unfold Destination.checkItem Named
  simp only [bind_ok_iff, orFail_ok_iff, itemKeys_ok_iff, decryptAuthenticatedToString_ok_iff]
  constructor
  · rintro ⟨⟨⟩, hbound, own, hkeys, encrypted, hname, label, hreads, name, hd, ⟨⟩, heq, hpure⟩
    obtain rfl : own = keys := Except.ok.inj hpure
    obtain rfl : label = name := by simpa using ensureThat_ok_iff.mp heq
    have hbound := ensureThat_ok_iff.mp hbound
    simp only [Bool.and_eq_true, decide_eq_true_eq, Option.isNone_iff_eq_none] at hbound
    obtain ⟨⟨⟨hid, hlive⟩, hpersonal⟩, hfolder⟩ := hbound
    exact ⟨hid, hlive, hpersonal, hfolder, label, hd, hkeys, encrypted, hname, hreads⟩
  · rintro ⟨hid, hlive, hpersonal, hfolder, name, hd, hkeys, encrypted, hname, hreads⟩
    refine ⟨(), ensureThat_ok_iff.mpr ?_, keys, hkeys, encrypted, hname, name, hreads, name, hd, (),
      ensureThat_ok_iff.mpr (by simp), rfl⟩
    simp only [Bool.and_eq_true, decide_eq_true_eq, Option.isNone_iff_eq_none]
    exact ⟨⟨⟨hid, hlive⟩, hpersonal⟩, hfolder⟩

/-- INTERNAL: the items of the folder that are passed over are read. -/
theorem checkUnused_ok {d : Destination} {name : String} {ciphers : List Cipher}
    (h : d.checkUnused C allow name keys ciphers = .ok ()) :
    ∀ cipher ∈ ciphers, cipher.organizationId = none → cipher.folderId = some d.folderId →
      ∃ itemKeys label, Named C keys itemKeys cipher label ∧ label ≠ name := by
  induction ciphers with
  | nil => exact fun _ hmem => absurd hmem List.not_mem_nil
  | cons cipher ciphers ih =>
    unfold Destination.checkUnused at h
    intro other hmem hpersonal hfolder
    split at h
    · obtain ⟨itemKeys, hkeys, h⟩ := bind_ok_iff.mp h
      obtain ⟨encrypted, hname, h⟩ := bind_ok_iff.mp h
      obtain ⟨label, hreads, h⟩ := bind_ok_iff.mp h
      obtain ⟨⟨⟩, hne, h⟩ := bind_ok_iff.mp h
      rcases List.mem_cons.mp hmem with rfl | hmem
      · exact ⟨itemKeys, label, ⟨itemKeys_ok_iff.mp hkeys, encrypted, orFail_ok_iff.mp hname,
          decryptAuthenticatedToString_ok_iff.mp hreads⟩, by simpa using ensureThat_ok_iff.mp hne⟩
      · exact ih h other hmem hpersonal hfolder
    · next hother =>
      rcases List.mem_cons.mp hmem with rfl | hmem
      · exact absurd (by simp [hpersonal, hfolder]) hother
      · exact ih h other hmem hpersonal hfolder

/-- What a sync's check reads: the names of all folders, and the items that could bear the name. -/
structure SyncRead (C : Cryptography) (d : Destination) (sync : SyncResponse) (keys : CryptoKeys)
    (creating : Bool) : Prop where
  folders : ∀ folder ∈ sync.folders, ∃ label, Reads C keys folder.name label
  items : creating = true → ∀ cipher ∈ sync.ciphers, cipher.organizationId = none →
    cipher.folderId = some d.folderId → ∃ itemKeys label, Named C keys itemKeys cipher label

/-- INTERNAL: **what a successful check of a sync has read.** -/
theorem checkSync_ok {d : Destination} {sync : SyncResponse} {creating : Bool}
    (h : d.checkSync C allow sync keys creating = .ok ()) : SyncRead C d sync keys creating := by
  obtain ⟨name, -, h⟩ := bind_ok_iff.mp h
  obtain ⟨⟨⟩, -, h⟩ := bind_ok_iff.mp h
  obtain ⟨labels, hlabels, h⟩ := bind_ok_iff.mp h
  obtain ⟨⟨⟩, -, h⟩ := bind_ok_iff.mp h
  constructor
  · intro folder hmem
    obtain ⟨entry, hentry⟩ := exists_of_mapM_ok hlabels folder hmem
    obtain ⟨label, hreads, -⟩ := bind_ok_iff.mp hentry
    exact ⟨label, decryptAuthenticatedToString_ok_iff.mp hreads⟩
  · rintro rfl cipher hmem hpersonal hfolder
    obtain ⟨itemKeys, label, hnamed, -⟩ := checkUnused_ok h cipher hmem hpersonal hfolder
    exact ⟨itemKeys, label, hnamed⟩

/-! ## New items -/

/-- What a new item has under each selector. -/
def expected (input : SecretImport) (marker : Option String) : List (String × String) :=
  (input.password.toList.map fun value => ("password", value)) ++
    (input.notes.toList.map fun value => ("notes", value)) ++
    (input.fields.map fun f => (customMarker ++ f.name, f.value)) ++
    marker.toList.map fun value => ("custom:vw-access", value)

/-- A field that was created is hidden, but for the marker's. -/
def Concealed (marked : Bool) (field : FieldData) (entry : String × Option String) : Prop :=
  (entry.1 = "vw-access" ∧ marked = true) ∨ field.type = .hidden

/-- INTERNAL: **which fields pass as hidden.** -/
theorem checkHidden_ok_iff {marked : Bool} {fields : List FieldData} :
    checkHidden C allow keys marked fields = .ok () ↔ ∃ entries,
      List.Forall₂ (Labelled C keys) fields entries ∧
        List.Forall₂ (Concealed marked) fields entries := by
  induction fields with
  | nil => exact ⟨fun _ => ⟨[], .nil, .nil⟩, fun _ => rfl⟩
  | cons field fields ih =>
    unfold checkHidden
    simp only [bind_ok_iff, orFail_ok_iff, decryptAuthenticatedToString_ok_iff, ih]
    constructor
    · rintro ⟨encrypted, hname, label, hreads, ⟨⟩, hhidden, entries, hentries, hconcealed⟩
      have hhidden : Concealed marked field (label, field.value) := by
        simpa [Concealed] using ensureThat_ok_iff.mp hhidden
      exact ⟨(label, field.value) :: entries, .cons ⟨⟨encrypted, hname, hreads⟩, rfl⟩ hentries,
        .cons hhidden hconcealed⟩
    · rintro ⟨entries, hentries, hconcealed⟩
      cases hentries with
      | cons hentry hentries =>
        cases hconcealed with
        | cons hhidden hconcealed =>
          obtain ⟨⟨encrypted, hname, hreads⟩, -⟩ := hentry
          refine ⟨encrypted, hname, _, hreads, (), ensureThat_ok_iff.mpr ?_, _, hentries, hconcealed⟩
          simpa [Concealed] using hhidden

theorem checkValue_ok_iff {cipher : Cipher} {selector value : String} :
    checkValue C allow cipher keys selector value = .ok () ↔
      selectedValue C allow cipher keys selector = .ok value := by
  unfold checkValue
  rw [bind_ok_iff]
  constructor
  · rintro ⟨selected, hselected, heq⟩
    obtain rfl : selected = value := by simpa using ensureThat_ok_iff.mp heq
    exact hselected
  · intro h
    exact ⟨value, h, ensureThat_ok_iff.mpr (by simp)⟩

theorem checkOptional_ok_iff {cipher : Cipher} {selector : String} {value : Option String} :
    checkOptional C allow cipher keys selector value = .ok () ↔
      ∀ plain ∈ value, selectedValue C allow cipher keys selector = .ok plain := by
  cases value with
  | none =>
    constructor
    · rintro - plain ⟨⟩
    · exact fun _ => rfl
  | some plain =>
    unfold checkOptional
    rw [checkValue_ok_iff]
    constructor
    · rintro h _ ⟨⟩
      exact h
    · exact fun h => h plain rfl

theorem checkFields_ok_iff {cipher : Cipher} {fields : List NamedSecret} :
    checkFields C allow cipher keys fields = .ok () ↔ ∀ f ∈ fields,
      selectedValue C allow cipher keys (customMarker ++ f.name) = .ok f.value := by
  induction fields with
  | nil => exact ⟨fun _ _ h => absurd h List.not_mem_nil, fun _ => rfl⟩
  | cons field fields ih =>
    unfold checkFields
    rw [bind_ok_iff, List.forall_mem_cons]
    constructor
    · rintro ⟨⟨⟩, hfirst, hrest⟩
      exact ⟨checkValue_ok_iff.mp hfirst, ih.mp hrest⟩
    · rintro ⟨hfirst, hrest⟩
      exact ⟨(), checkValue_ok_iff.mpr hfirst, ih.mpr hrest⟩

theorem forall_expected_iff {input : SecretImport} {marker : Option String}
    {motive : String → String → Prop} :
    (∀ pair ∈ expected input marker, motive pair.1 pair.2) ↔
      (∀ value ∈ input.password, motive "password" value) ∧
        (∀ value ∈ input.notes, motive "notes" value) ∧
        (∀ f ∈ input.fields, motive (customMarker ++ f.name) f.value) ∧
        ∀ value ∈ marker, motive "custom:vw-access" value := by
  unfold expected
  simp only [List.forall_mem_append, List.forall_mem_map, Option.mem_toList, Option.mem_def, and_assoc]

/-- INTERNAL: **which new items are accepted.** -/
theorem verifyCreated_ok_iff {parent : CryptoKeys} {d : Destination} {id : String} {cipher : Cipher}
    {input : SecretImport} {marker : Option String} :
    verifyCreated C allow parent d id cipher input marker = .ok () ↔
      cipher.isLogin = true ∧ cipher.itemKey.isSome = true ∧
      ∃ keys, d.checkItem C allow cipher id parent = .ok keys ∧
        cipher.getPassword.isSome = input.password.isSome ∧
        cipher.getNotes.isSome = input.notes.isSome ∧
        cipher.getFields.length = input.fields.length + marker.toList.length ∧
        (∃ entries, List.Forall₂ (Labelled C keys) cipher.getFields entries ∧
          List.Forall₂ (Concealed marker.isSome) cipher.getFields entries) ∧
        ∀ pair ∈ expected input marker,
          selectedValue C allow cipher keys pair.1 = .ok pair.2 := by
  have hmarker : (if marker.isSome then 1 else 0) = marker.toList.length := by
    cases marker <;> rfl
  unfold verifyCreated
  simp only [bind_ok_iff]
  constructor
  · rintro ⟨⟨⟩, hshape, keys, hitem, ⟨⟩, hschema, ⟨⟩, hhidden, ⟨⟩, hpassword, ⟨⟩, hnotes, ⟨⟩, hfields, hmark⟩
    have hshape := ensureThat_ok_iff.mp hshape
    have hschema := ensureThat_ok_iff.mp hschema
    simp only [Bool.and_eq_true, decide_eq_true_eq, hmarker] at hshape hschema
    refine ⟨hshape.1, hshape.2, keys, hitem, hschema.1.1, hschema.1.2, hschema.2,
      checkHidden_ok_iff.mp hhidden, ?_⟩
    rw [@forall_expected_iff input marker fun s v => selectedValue C allow cipher keys s = .ok v]
    exact ⟨checkOptional_ok_iff.mp hpassword, checkOptional_ok_iff.mp hnotes,
      checkFields_ok_iff.mp hfields, checkOptional_ok_iff.mp hmark⟩
  · rintro ⟨hlogin, hown, keys, hitem, hpassword, hnotes, hlength, hhidden, hall⟩
    rw [@forall_expected_iff input marker fun s v => selectedValue C allow cipher keys s = .ok v] at hall
    obtain ⟨hpasswords, hnotess, hfields, hmark⟩ := hall
    refine ⟨(), ensureThat_ok_iff.mpr ?_, keys, hitem, (), ensureThat_ok_iff.mpr ?_, (),
      checkHidden_ok_iff.mpr hhidden, (), checkOptional_ok_iff.mpr hpasswords, (),
      checkOptional_ok_iff.mpr hnotess, (), checkFields_ok_iff.mpr hfields,
      checkOptional_ok_iff.mpr hmark⟩
    · rw [hlogin, hown]
      rfl
    · simp only [Bool.and_eq_true, decide_eq_true_eq, hmarker]
      exact ⟨⟨hpassword, hnotes⟩, hlength⟩

end Reading

/-! ## Encryption -/

/-- AES with its padding: what was encrypted under a key and a vector decrypts under them. -/
def Reversible (C : Cryptography) : Prop :=
  ∀ key iv data, key.length = 32 → iv.length = 16 →
    C.aesDecrypt key iv (C.aesEncrypt key iv data) = some data

section Encryption

variable {C : Cryptography} {keys : CryptoKeys}

theorem sealing_bind_iff {α β : Type} {x : Sealing α} {f : α → Sealing β}
    {draws rest : List (List UInt8)} {b : β} :
    (x >>= f).run draws = .ok (b, rest) ↔
      ∃ a mid, x.run draws = .ok (a, mid) ∧ (f a).run mid = .ok (b, rest) := by
  rw [StateT.run_bind, bind_ok_iff, Prod.exists]

theorem getrandom_ok_iff {n : ℕ} {draws rest : List (List UInt8)} {draw : List UInt8} :
    (getrandom n).run draws = .ok (draw, rest) ↔ draws = draw :: rest ∧ draw.length = n := by
  cases draws with
  | nil => exact ⟨nofun, fun h => nomatch h.1⟩
  | cons first others =>
    change (if first.length = n then Except.ok (first, others) else _) = _ ↔ _
    split_ifs with hn
    · constructor
      · rintro ⟨⟩
        exact ⟨rfl, hn⟩
      · rintro ⟨⟨⟩, -⟩
        rfl
    · refine ⟨nofun, ?_⟩
      rintro ⟨⟨⟩, hlength⟩
      exact absurd hlength hn

/-- INTERNAL: no separator is in an encoding. -/
theorem bar_notMem_encodeStandard (data : List UInt8) : '|' ∉ encodeStandard data := by
  intro hmem
  unfold encodeStandard at hmem
  rcases List.mem_append.mp hmem with hbody | hpad
  · exact absurd (Base64.value_isSome_of_mem_encode _ data hbody) (by decide)
  · exact absurd (List.eq_of_mem_replicate hpad) (by decide)

theorem decodePadded_encodeStandard (data : List UInt8) :
    Base64.decodePadded Base64.standard (encodeStandard data) = some data :=
  Base64.decodePadded_encode Base64.standard data

/-- INTERNAL: **what is encrypted opens to what was encrypted.** -/
theorem encrypt_opened (hC : Reversible C) {data : List UInt8} {draws rest : List (List UInt8)}
    {text : String} (h : (keys.encrypt C data).run draws = .ok (text, rest)) :
    Opened C keys text data := by
  obtain ⟨iv, mid, hiv, h⟩ := sealing_bind_iff.mp h
  obtain ⟨-, hlength⟩ := getrandom_ok_iff.mp hiv
  obtain ⟨htext, -⟩ := Prod.mk.inj (Except.ok.inj h)
  refine ⟨iv, C.aesEncrypt keys.encKey iv data, ⟨_, _, _, ⟨bar_notMem_encodeStandard iv,
    bar_notMem_encodeStandard _, bar_notMem_encodeStandard _, ?_⟩, decodePadded_encodeStandard iv,
    decodePadded_encodeStandard _, decodePadded_encodeStandard _⟩, hC _ _ _ keys.encKey_length hlength⟩
  rw [← htext, String.toList_ofList]
  rfl

theorem encrypt_total (data : List UInt8) {draw : List UInt8} (rest : List (List UInt8))
    (h : draw.length = 16) : ∃ text, (keys.encrypt C data).run (draw :: rest) = .ok (text, rest) :=
  ⟨_, sealing_bind_iff.mpr ⟨draw, rest, getrandom_ok_iff.mpr ⟨rfl, h⟩, rfl⟩⟩

theorem encryptText_reads (hC : Reversible C) {value text : String} {draws rest : List (List UInt8)}
    (h : (encryptText C keys value).run draws = .ok (text, rest)) : Reads C keys text value :=
  ⟨bytes value, encrypt_opened hC h, fromUtf8_bytes value⟩

/-- INTERNAL: **a new item's keys are unwrapped.** -/
theorem newWrappedItemKey_unwraps (hC : Reversible C) {parent : CryptoKeys} {wrapped : String}
    {draws rest : List (List UInt8)}
    (h : (parent.newWrappedItemKey C).run draws = .ok ((keys, wrapped), rest)) :
    Unwraps C parent (some wrapped) keys := by
  obtain ⟨data, mid, -, h⟩ := sealing_bind_iff.mp h
  obtain ⟨own, mid', hown, h⟩ := sealing_bind_iff.mp h
  obtain ⟨text, mid'', htext, h⟩ := sealing_bind_iff.mp h
  obtain ⟨hpair, -⟩ := Prod.mk.inj (Except.ok.inj h)
  obtain ⟨rfl, rfl⟩ := Prod.mk.inj hpair
  refine ⟨data, encrypt_opened hC htext, ?_⟩
  rw [StateT.run_lift, bind_ok_iff] at hown
  obtain ⟨own', hkeys, heq⟩ := hown
  obtain ⟨rfl, -⟩ := Prod.mk.inj (Except.ok.inj heq)
  exact hkeys

end Encryption

/-! ## All readers -/

/-- INTERNAL: **nothing is decrypted before its tag is verified**: without a tag that is right the
refusal is the same whatever decryption would give. -/
theorem verified_or_refused (C : Cryptography) (allow : Bool) (keys : CryptoKeys)
    (encrypted : String) :
    (∃ vector body, Verified C keys encrypted vector body) ∨ ∃ text, ∀ aesDecrypt,
      keys.decryptAuthenticatedToString { C with aesDecrypt } allow encrypted = .error text := by
  cases hauth : requireAuthenticated encrypted with
  | error text =>
    refine .inr ⟨text, fun aesDecrypt => ?_⟩
    unfold CryptoKeys.decryptAuthenticatedToString
    rw [hauth]
    rfl
  | ok u =>
    obtain ⟨iv, ciphertext, mac, hparts⟩ := requireAuthenticated_ok_iff.mp hauth
    have hdecrypt : ∀ aesDecrypt, keys.decryptAuthenticatedToString { C with aesDecrypt } allow encrypted =
        keys.openParts { C with aesDecrypt } allow iv ciphertext (some mac) >>= fun decrypted =>
          orFail "Decrypted data is not valid UTF-8" (fromUtf8 decrypted) := by
      intro aesDecrypt
      unfold CryptoKeys.decryptAuthenticatedToString CryptoKeys.decryptToString
      rw [ok_bind hauth, hparts.decrypt]
    simp only [hdecrypt]
    unfold CryptoKeys.openParts decodeStandard
    cases hiv : Base64.decodePadded Base64.standard iv with
    | none => exact .inr ⟨_, fun _ => rfl⟩
    | some vector =>
      cases hbody : Base64.decodePadded Base64.standard ciphertext with
      | none => exact .inr ⟨_, fun _ => rfl⟩
      | some body =>
        cases hmac : keys.checkMac C allow vector body (some mac) with
        | error text =>
          refine .inr ⟨text, fun aesDecrypt => ?_⟩
          change ((keys.checkMac C allow vector body (some mac) >>= fun _ =>
            orFail "AES decrypt failed" (aesDecrypt keys.encKey vector body)) >>= fun decrypted =>
              orFail "Decrypted data is not valid UTF-8" (fromUtf8 decrypted)) = _
          rw [hmac]
          rfl
        | ok u =>
          obtain ⟨tag, htag, hequal⟩ := bind_ok_iff.mp hmac
          obtain rfl : C.hmac keys.macKey (vector ++ body) = tag := by
            simpa using ensureThat_ok_iff.mp hequal
          exact .inl ⟨vector, body, iv, ciphertext, mac, hparts, hiv, hbody, orFail_ok_iff.mp htag⟩

/-- The readers of the items of the vault: each gives the same under either option, and what it
reads when it succeeds was verified first. -/
structure Authenticated (C : Cryptography) : Prop where
  sync : ∀ allow allow' (d : Destination) sync keys creating,
    d.checkSync C allow sync keys creating = d.checkSync C allow' sync keys creating
  item : ∀ allow allow' (d : Destination) cipher id parent,
    d.checkItem C allow cipher id parent = d.checkItem C allow' cipher id parent
  value : ∀ allow allow' cipher keys selector,
    selectedValue C allow cipher keys selector = selectedValue C allow' cipher keys selector
  created : ∀ allow allow' parent d id cipher input marker,
    verifyCreated C allow parent d id cipher input marker =
      verifyCreated C allow' parent d id cipher input marker
  syncRead : ∀ allow (d : Destination) sync keys creating,
    d.checkSync C allow sync keys creating = .ok () → SyncRead C d sync keys creating
  itemRead : ∀ allow (d : Destination) cipher id parent keys,
    d.checkItem C allow cipher id parent = .ok keys → ∃ label, Named C parent keys cipher label
  valueRead : ∀ allow cipher keys selector plain,
    selectedValue C allow cipher keys selector = .ok plain → ∃ entries encrypted,
      List.Forall₂ (Labelled C keys) cipher.getFields entries ∧
        Selected cipher entries selector encrypted ∧ Reads C keys encrypted plain
  createdRead : ∀ allow parent d id cipher input marker,
    verifyCreated C allow parent d id cipher input marker = .ok () → ∃ keys label entries,
      Named C parent keys cipher label ∧ List.Forall₂ (Labelled C keys) cipher.getFields entries ∧
        ∀ pair ∈ expected input marker, ∃ encrypted,
          Selected cipher entries pair.1 encrypted ∧ Reads C keys encrypted pair.2
  tagFirst : ∀ allow (keys : CryptoKeys) encrypted,
    (∃ vector body, Verified C keys encrypted vector body) ∨ ∃ text, ∀ aesDecrypt,
      keys.decryptAuthenticatedToString { C with aesDecrypt } allow encrypted = .error text

/-- INTERNAL: **the readers are.** -/
theorem readers_authenticated (C : Cryptography) : Authenticated C where
  sync allow allow' d sync keys creating := checkSync_same C allow allow' keys d sync creating
  item allow allow' d cipher id parent := checkItem_same C allow allow' parent d cipher id
  value allow allow' cipher keys selector := selectedValue_same C allow allow' keys cipher selector
  created allow allow' parent d id cipher input marker :=
    verifyCreated_same C allow allow' parent d id cipher input marker
  syncRead _ _ _ _ _ h := checkSync_ok h
  itemRead allow d cipher id parent keys h := by
    obtain ⟨-, -, -, -, name, -, hnamed⟩ := checkItem_ok_iff.mp h
    exact ⟨name, hnamed⟩
  valueRead allow cipher keys selector plain h := by
    obtain ⟨-, entries, encrypted, hentries, -, hselected, hreads⟩ := selectedValue_ok_iff.mp h
    exact ⟨entries, encrypted, hentries, hselected, hreads⟩
  createdRead allow parent d id cipher input marker h := by
    obtain ⟨-, -, keys, hitem, -, -, -, ⟨entries, hentries, -⟩, hall⟩ := verifyCreated_ok_iff.mp h
    obtain ⟨-, -, -, -, name, -, hnamed⟩ := checkItem_ok_iff.mp hitem
    refine ⟨keys, name, entries, hnamed, hentries, fun pair hpair => ?_⟩
    obtain ⟨-, entries', encrypted, hentries', -, hselected, hreads⟩ :=
      selectedValue_ok_iff.mp (hall pair hpair)
    rw [labels_unique hentries' hentries] at hselected
    exact ⟨encrypted, hselected, hreads⟩
  tagFirst := verified_or_refused C

/-- What was encrypted is authenticated and decrypts to what it was, as are the texts and the
wrapped keys of a new item; and with a vector of randomness, encryption succeeds. -/
structure RoundTrip (C : Cryptography) : Prop where
  encrypts : ∀ (keys : CryptoKeys) data draw rest, draw.length = 16 →
    ∃ text, (keys.encrypt C data).run (draw :: rest) = .ok (text, rest)
  decrypts : ∀ allow (keys : CryptoKeys) data draws text rest,
    (keys.encrypt C data).run draws = .ok (text, rest) →
      requireAuthenticated text = .ok () ∧ keys.decrypt C allow text = .ok data
  texts : ∀ allow (keys : CryptoKeys) value draws text rest,
    (encryptText C keys value).run draws = .ok (text, rest) →
      keys.decryptAuthenticatedToString C allow text = .ok value
  wrapped : ∀ allow (parent keys : CryptoKeys) draws text rest,
    (parent.newWrappedItemKey C).run draws = .ok ((keys, text), rest) →
      parent.itemKeys C allow (some text) = .ok keys

/-- **Only authenticated ciphertext is read, whatever the options are, and what was encrypted is
read as it was.** -/
theorem sealed_storage (C : Cryptography) (hC : Reversible C) : Authenticated C ∧ RoundTrip C := by
  refine ⟨readers_authenticated C, ⟨fun keys data draw rest => encrypt_total data rest, ?_, ?_, ?_⟩⟩
  · intro allow keys data draws text rest h
    have hopened := encrypt_opened hC h
    exact ⟨hopened.authenticated, (decrypt_ok_iff hopened.authenticated).mpr hopened⟩
  · intro allow keys value draws text rest h
    exact decryptAuthenticatedToString_ok_iff.mpr (encryptText_reads hC h)
  · intro allow parent keys draws text rest h
    exact itemKeys_ok_iff.mpr (newWrappedItemKey_unwraps hC h)

/-! ## A cipher with the padding of PKCS7 -/

/-- The length of the padding. -/
def padding (data : List UInt8) : ℕ := 16 - data.length % 16

/-- What pads in blocks and hides nothing. -/
def blocks (data : List UInt8) : List UInt8 :=
  data ++ List.replicate (padding data) (UInt8.ofNat (padding data))

/-- The padding is taken off, if it is one. -/
def unblock (data : List UInt8) : Option (List UInt8) := do
  let last ← data.getLast?
  let n := last.toNat
  if 1 ≤ n ∧ n ≤ 16 ∧ data.length % 16 = 0 ∧
      data.drop (data.length - n) = List.replicate n last then
    some (data.take (data.length - n))
  else none

/-- INTERNAL: what was padded. -/
theorem unblock_blocks (data : List UInt8) : unblock (blocks data) = some data := by
  have hpos : 1 ≤ padding data ∧ padding data ≤ 16 := by
    unfold padding
    omega
  have hlast : (blocks data).getLast? = some (UInt8.ofNat (padding data)) := by
    unfold blocks
    rw [List.getLast?_append, List.getLast?_replicate, if_neg (by omega)]
    rfl
  have hvalue : (UInt8.ofNat (padding data)).toNat = padding data := by
    rw [UInt8.toNat_ofNat']
    omega
  have hlength : (blocks data).length - padding data = data.length := by
    unfold blocks
    rw [List.length_append, List.length_replicate]
    omega
  have hwhole : (blocks data).length % 16 = 0 := by
    unfold blocks padding
    rw [List.length_append, List.length_replicate]
    omega
  have htake : (blocks data).take data.length = data := List.take_left
  have hdrop : (blocks data).drop data.length =
      List.replicate (padding data) (UInt8.ofNat (padding data)) := List.drop_left
  unfold unblock
  rw [hlast]
  simp only [Option.bind_eq_bind, Option.bind_some, hvalue, hlength, htake, hdrop]
  rw [if_pos ⟨hpos.1, hpos.2, hwhole, trivial⟩]

/-- It, with tags that depend on the key and on all of the data. -/
def sampleCryptography : Cryptography where
  hmac key data := List.replicate 32 (key.sum + data.sum)
  aesEncrypt _ _ data := blocks data
  aesDecrypt _ iv data := if iv.length = 16 then unblock data else none

theorem reversible_sample : Reversible sampleCryptography := by
  intro key iv data _ hiv
  change (if iv.length = 16 then unblock (blocks data) else none) = some data
  rw [if_pos hiv, unblock_blocks]

theorem sealed_storage_sample : Authenticated sampleCryptography ∧ RoundTrip sampleCryptography :=
  sealed_storage sampleCryptography reversible_sample

end VaultAccess.Analysis.Sealed
