import VaultAccess.Analysis.Sealed
import VaultAccess.Library.Keyed
import VaultAccess.Library.Lists

/-!
# Exactly what was to be stored

`verify_created` looks up every value that was to be stored and counts the fields. Their names
being distinct on both sides, this accepts an item exactly if it holds nothing else.
-/

set_option autoImplicit false

namespace VaultAccess.Analysis.Created

open VaultAccess.Library VaultAccess.Library.Results VaultAccess.Library.Text
open VaultAccess.Model
open VaultAccess.Analysis.Written (ensureThat_ok_iff stored)
open VaultAccess.Analysis.Sealed

/-! ## Faithful items -/

/-- The custom fields that are to be stored. -/
def pairs (input : SecretImport) (marker : Option String) : List (String × String) :=
  (input.fields.map fun f => (f.name, f.value)) ++ marker.toList.map fun value => ("vw-access", value)

/-- The name and the value of a field are decrypted. -/
def Decrypts (C : Cryptography) (keys : CryptoKeys) (field : FieldData) (pair : String × String) :
    Prop :=
  (∃ name, field.name = some name ∧ Reads C keys name pair.1) ∧
    ∃ value, field.value = some value ∧ Reads C keys value pair.2

/-- A field under any name but the marker's is hidden. -/
def Hides (field : FieldData) (pair : String × String) : Prop :=
  field.type = .hidden ∨ pair.1 = "vw-access"

/-- What the item holds is what was to be stored. -/
structure Holds (C : Cryptography) (keys : CryptoKeys) (cipher : Cipher) (input : SecretImport)
    (marker : Option String) : Prop where
  password : Option.Rel (Reads C keys) cipher.getPassword input.password
  notes : Option.Rel (Reads C keys) cipher.getNotes input.notes
  fields : ∃ decrypted,
    List.Forall₂ (fun field pair => Decrypts C keys field pair ∧ Hides field pair)
      cipher.getFields decrypted ∧
    decrypted.Perm (pairs input marker)

/-- A live personal login of the folder with the id, the name and a key of its own, that holds what
was to be stored. -/
structure Faithful (C : Cryptography) (parent : CryptoKeys) (d : Destination) (id : String)
    (cipher : Cipher) (input : SecretImport) (marker : Option String) : Prop where
  login : cipher.isLogin = true
  own : cipher.itemKey.isSome = true
  id : cipher.id = id
  live : cipher.deletedDate = none
  personal : cipher.organizationId = none
  folder : cipher.folderId = some d.folderId
  content : ∃ keys name, d.nameOrFail = .ok name ∧ Named C parent keys cipher name ∧
    Holds C keys cipher input marker

/-! ## Valid inputs -/

/-- INTERNAL: the names that are to be stored are distinct. -/
theorem names_nodup {input : SecretImport} {marker : Option String} (h : input.validate = .ok ()) :
    ((pairs input marker).map Prod.fst).Nodup := by
  obtain ⟨⟨⟩, -, h⟩ := bind_ok_iff.mp h
  obtain ⟨⟨⟩, hfields, -⟩ := bind_ok_iff.mp h
  have hfields := ensureThat_ok_iff.mp hfields
  simp only [Bool.and_eq_true, Bool.not_eq_true', List.all_eq_true, decide_eq_true_eq] at hfields
  obtain ⟨⟨-, hall⟩, hdistinct⟩ := hfields
  rw [hasDuplicates_eq_false_iff] at hdistinct
  have hnames : (pairs input marker).map Prod.fst =
      input.fields.map NamedSecret.name ++ marker.toList.map fun _ => "vw-access" := by
    unfold pairs
    rw [List.map_append, List.map_map, List.map_map]
    rfl
  have hmarker : (marker.toList.map fun _ => "vw-access").Nodup := by
    cases marker with
    | none => exact List.nodup_nil
    | some value => exact List.nodup_singleton _
  rw [hnames, List.nodup_append]
  refine ⟨hdistinct, hmarker, ?_⟩
  rintro name hname _ hmem rfl
  obtain ⟨f, hf, rfl⟩ := List.mem_map.mp hname
  obtain ⟨_, -, heq⟩ := List.mem_map.mp hmem
  exact (hall f hf).2 heq.symm

/-- INTERNAL: the marker's name is not that of a secret. -/
theorem marked_of_mem {input : SecretImport} {marker : Option String} {value : String}
    (h : input.validate = .ok ()) (hmem : ("vw-access", value) ∈ pairs input marker) :
    marker.isSome = true := by
  obtain ⟨⟨⟩, -, h⟩ := bind_ok_iff.mp h
  obtain ⟨⟨⟩, hfields, -⟩ := bind_ok_iff.mp h
  have hfields := ensureThat_ok_iff.mp hfields
  simp only [Bool.and_eq_true, Bool.not_eq_true', List.all_eq_true, decide_eq_true_eq] at hfields
  rcases List.mem_append.mp hmem with hsecret | hmarker
  · obtain ⟨f, hf, heq⟩ := List.mem_map.mp hsecret
    exact absurd (congrArg Prod.fst heq) (hfields.1.2 f hf).2
  · cases marker with
    | none => exact absurd hmarker List.not_mem_nil
    | some value => rfl

/-- INTERNAL: at least one value is looked up. -/
theorem exists_expected {input : SecretImport} {marker : Option String}
    (h : input.validate = .ok ()) : ∃ pair, pair ∈ expected input marker := by
  obtain ⟨⟨⟩, hany, -⟩ := bind_ok_iff.mp h
  have hany := ensureThat_ok_iff.mp hany
  rw [Bool.or_eq_true] at hany
  unfold expected
  rcases hany with hpassword | hfields
  · obtain ⟨value, hvalue⟩ := Option.isSome_iff_exists.mp hpassword
    exact ⟨("password", value), by simp [hvalue]⟩
  · cases hlist : input.fields with
    | nil => simp [hlist] at hfields
    | cons f fields => exact ⟨(customMarker ++ f.name, f.value), by simp⟩

/-! ## What is looked up -/

section Lookup

variable {C : Cryptography} {allow : Bool} {keys : CryptoKeys} {cipher : Cipher}
  {input : SecretImport} {marker : Option String}

/-- The value of an entry is there and is read. -/
def Opens (C : Cryptography) (keys : CryptoKeys) (value : Option String) (plain : String) : Prop :=
  ∃ encrypted, value = some encrypted ∧ Reads C keys encrypted plain

/-- INTERNAL: a selector of a custom field selects the entry of its name. -/
theorem selected_custom_iff {entries : List (String × Option String)} {name encrypted : String} :
    Selected cipher entries (customMarker ++ name) encrypted ↔ (name, some encrypted) ∈ entries := by
  constructor
  · rintro (⟨h, -⟩ | ⟨h, -⟩ | ⟨label, h, hmem⟩)
    · exact absurd h (Written.custom_ne_password name)
    · exact absurd h (Written.custom_ne_notes name)
    · have hsame := congrArg customName h
      rw [Written.customName_append, Written.customName_append] at hsame
      rw [Option.some.inj hsame]
      exact hmem
  · exact fun hmem => .inr (.inr ⟨name, rfl, hmem⟩)

theorem selected_password_iff {entries : List (String × Option String)} {encrypted : String} :
    Selected cipher entries "password" encrypted ↔ cipher.getPassword = some encrypted := by
  constructor
  · rintro (⟨-, h⟩ | ⟨h, -⟩ | ⟨label, h, -⟩)
    · exact h
    · exact absurd h (by decide)
    · exact absurd h.symm (Written.custom_ne_password label)
  · exact fun h => .inl ⟨rfl, h⟩

theorem selected_notes_iff {entries : List (String × Option String)} {encrypted : String} :
    Selected cipher entries "notes" encrypted ↔ cipher.getNotes = some encrypted := by
  constructor
  · rintro (⟨h, -⟩ | ⟨-, h⟩ | ⟨label, h, -⟩)
    · exact absurd h (by decide)
    · exact h
    · exact absurd h.symm (Written.custom_ne_notes label)
  · exact fun h => .inr (.inl ⟨rfl, h⟩)

/-- INTERNAL: the marker is looked up as a custom field. -/
theorem forall_expected_pairs {motive : String → String → Prop} :
    (∀ pair ∈ expected input marker, motive pair.1 pair.2) ↔
      (∀ value ∈ input.password, motive "password" value) ∧
        (∀ value ∈ input.notes, motive "notes" value) ∧
        ∀ pair ∈ pairs input marker, motive (customMarker ++ pair.1) pair.2 := by
  have hmarker : customMarker ++ "vw-access" = "custom:vw-access" := by decide
  unfold pairs
  rw [forall_expected_iff]
  simp only [List.forall_mem_append, List.forall_mem_map, Option.mem_toList, Option.mem_def, hmarker]

/-- INTERNAL: **all values are selected**, over the one list of entries. -/
theorem selected_all_iff {entries : List (String × Option String)} (hlive : cipher.deletedDate = none)
    (hentries : List.Forall₂ (Labelled C keys) cipher.getFields entries)
    (hnodup : (entries.map Prod.fst).Nodup) :
    (∀ pair ∈ expected input marker, selectedValue C allow cipher keys pair.1 = .ok pair.2) ↔
      (∀ value ∈ input.password, Opens C keys cipher.getPassword value) ∧
        (∀ value ∈ input.notes, Opens C keys cipher.getNotes value) ∧
        ∀ pair ∈ pairs input marker, ∃ value, (pair.1, value) ∈ entries ∧ Opens C keys value pair.2 := by
  have hselected : ∀ selector plain, selectedValue C allow cipher keys selector = .ok plain ↔
      ∃ encrypted, Selected cipher entries selector encrypted ∧ Reads C keys encrypted plain := by
    intro selector plain
    rw [selectedValue_ok_iff]
    constructor
    · rintro ⟨-, entries', encrypted, hentries', -, hselected, hreads⟩
      obtain rfl := labels_unique hentries hentries'
      exact ⟨encrypted, hselected, hreads⟩
    · rintro ⟨encrypted, hselected, hreads⟩
      exact ⟨hlive, entries, encrypted, hentries, hnodup, hselected, hreads⟩
  have hcustom : ∀ pair : String × String,
      (∃ encrypted, (pair.1, some encrypted) ∈ entries ∧ Reads C keys encrypted pair.2) ↔
        ∃ value, (pair.1, value) ∈ entries ∧ Opens C keys value pair.2 := by
    intro pair
    constructor
    · rintro ⟨encrypted, hmem, hreads⟩
      exact ⟨_, hmem, encrypted, rfl, hreads⟩
    · rintro ⟨_, hmem, encrypted, rfl, hreads⟩
      exact ⟨encrypted, hmem, hreads⟩
  rw [@forall_expected_pairs input marker fun s v => selectedValue C allow cipher keys s = .ok v]
  simp only [hselected, selected_password_iff, selected_notes_iff, selected_custom_iff, hcustom, Opens]

/-- INTERNAL: a value that is there if and only if one was to be stored, and is that. -/
theorem rel_iff {value plain : Option String} :
    Option.Rel (Reads C keys) value plain ↔ value.isSome = plain.isSome ∧
      ∀ text ∈ plain, Opens C keys value text := by
  constructor
  · intro h
    cases h with
    | none => exact ⟨rfl, nofun⟩
    | some hreads =>
      refine ⟨rfl, ?_⟩
      rintro _ ⟨⟩
      exact ⟨_, rfl, hreads⟩
  · rintro ⟨hsome, hall⟩
    cases plain with
    | none =>
      obtain rfl : value = none := by simpa using hsome
      exact .none
    | some text =>
      obtain ⟨encrypted, rfl, hreads⟩ := hall text rfl
      exact .some hreads

/-- INTERNAL: the entries of fields that are decrypted. -/
theorem entries_of_decrypted {decrypted : List (String × String)} {fields : List FieldData}
    (h : List.Forall₂ (Decrypts C keys) fields decrypted) :
    ∃ entries, List.Forall₂ (Labelled C keys) fields entries ∧
      List.Forall₂ (fun entry pair => pair.1 = entry.1 ∧ Opens C keys entry.2 pair.2)
        entries decrypted := by
  induction h with
  | nil => exact ⟨[], .nil, .nil⟩
  | @cons field pair _ _ hfield _ ih =>
    obtain ⟨entries, hentries, hopens⟩ := ih
    exact ⟨(pair.1, field.value) :: entries, .cons ⟨hfield.1, rfl⟩ hentries,
      .cons ⟨rfl, hfield.2⟩ hopens⟩

/-- INTERNAL: fields whose entries are read are decrypted. -/
theorem decrypted_of_entries {decrypted : List (String × String)} {fields : List FieldData}
    {entries : List (String × Option String)} (h : List.Forall₂ (Labelled C keys) fields entries) :
    List.Forall₂ (fun entry pair => pair.1 = entry.1 ∧ Opens C keys entry.2 pair.2)
      entries decrypted → List.Forall₂ (Decrypts C keys) fields decrypted := by
  induction h generalizing decrypted with
  | nil =>
    intro h
    cases h
    exact .nil
  | cons hentry _ ih =>
    intro h
    cases h with
    | cons hpair hrest =>
      obtain ⟨hname, hvalue⟩ := hpair
      refine .cons ⟨?_, ?_⟩ (ih hrest)
      · rw [hname]
        exact hentry.1
      · rw [← hentry.2]
        exact hvalue

/-- INTERNAL: their names are those of the entries. -/
theorem names_of_decrypted {decrypted : List (String × String)}
    {entries : List (String × Option String)}
    (h : List.Forall₂ (fun entry pair => pair.1 = entry.1 ∧ Opens C keys entry.2 pair.2)
      entries decrypted) : decrypted.map Prod.fst = entries.map Prod.fst := by
  induction h with
  | nil => rfl
  | cons hpair _ ih => rw [List.map_cons, List.map_cons, hpair.1, ih]

/-- INTERNAL: two relations along two lists at once. -/
theorem forall₂_and_iff {α β : Type} {R S : α → β → Prop} {l : List α} {l' : List β} :
    List.Forall₂ (fun a b => R a b ∧ S a b) l l' ↔ List.Forall₂ R l l' ∧ List.Forall₂ S l l' := by
  constructor
  · exact fun h => ⟨h.imp fun _ _ => And.left, h.imp fun _ _ => And.right⟩
  · rintro ⟨hR, hS⟩
    induction hR with
    | nil => exact .nil
    | cons hab _ ih =>
      cases hS with
      | cons hab' hS => exact .cons ⟨hab, hab'⟩ (ih hS)

/-- INTERNAL: which fields are hidden does not depend on how they are read. -/
theorem concealed_iff {marked : Bool} {decrypted : List (String × String)} {fields : List FieldData}
    {entries : List (String × Option String)}
    (hmarked : ∀ pair ∈ decrypted, pair.1 = "vw-access" → marked = true)
    (h : decrypted.map Prod.fst = entries.map Prod.fst) :
    List.Forall₂ (Concealed marked) fields entries ↔ List.Forall₂ Hides fields decrypted := by
  induction fields generalizing decrypted entries with
  | nil =>
    rw [List.forall₂_nil_left_iff, List.forall₂_nil_left_iff]
    constructor
    · rintro rfl
      simpa using h
    · rintro rfl
      simpa using h.symm
  | cons field fields ih =>
    cases decrypted with
    | nil =>
      obtain rfl : entries = [] := by simpa using h.symm
      exact ⟨nofun, nofun⟩
    | cons pair decrypted =>
      cases entries with
      | nil => simp at h
      | cons entry entries =>
        obtain ⟨hname, hrest⟩ := List.cons.inj h
        rw [List.forall_mem_cons] at hmarked
        rw [List.forall₂_cons, List.forall₂_cons, ih hmarked.2 hrest]
        apply and_congr_left'
        unfold Concealed Hides
        rw [← hname, Or.comm]
        exact or_congr_right ⟨And.left, fun hvw => ⟨hvw, hmarked.1 hvw⟩⟩

/-- INTERNAL: **the fields that are looked up and counted are those that were to be stored.** -/
theorem fields_iff (hvalid : input.validate = .ok ()) :
    (∃ entries, List.Forall₂ (Labelled C keys) cipher.getFields entries ∧
      List.Forall₂ (Concealed marker.isSome) cipher.getFields entries ∧ (entries.map Prod.fst).Nodup ∧
      entries.length = (pairs input marker).length ∧
      ∀ pair ∈ pairs input marker, ∃ value, (pair.1, value) ∈ entries ∧ Opens C keys value pair.2) ↔
    ∃ decrypted, List.Forall₂ (fun field pair => Decrypts C keys field pair ∧ Hides field pair)
        cipher.getFields decrypted ∧ decrypted.Perm (pairs input marker) := by
  have hmarked : ∀ decrypted : List (String × String), decrypted.Perm (pairs input marker) →
      ∀ pair ∈ decrypted, pair.1 = "vw-access" → marker.isSome = true := by
    rintro decrypted hperm ⟨name, value⟩ hmem rfl
    exact marked_of_mem hvalid (hperm.mem_iff.mp hmem)
  constructor
  · rintro ⟨entries, hentries, hconcealed, hnodup, hlength, hall⟩
    obtain ⟨decrypted, hopens, hperm⟩ :=
      Keyed.exists_perm hnodup (names_nodup hvalid) hlength hall
    have hdecrypts := decrypted_of_entries hentries hopens
    have hhides := (concealed_iff (hmarked decrypted hperm) (names_of_decrypted hopens)).mp hconcealed
    exact ⟨decrypted, forall₂_and_iff.mpr ⟨hdecrypts, hhides⟩, hperm⟩
  · rintro ⟨decrypted, h, hperm⟩
    obtain ⟨hdecrypts, hhides⟩ := forall₂_and_iff.mp h
    obtain ⟨entries, hentries, hopens⟩ := entries_of_decrypted hdecrypts
    have hnames := names_of_decrypted hopens
    refine ⟨entries, hentries, (concealed_iff (hmarked decrypted hperm) hnames).mpr hhides, ?_, ?_, ?_⟩
    · rw [← hnames, (hperm.map Prod.fst).nodup_iff]
      exact names_nodup hvalid
    · rw [hopens.length_eq, hperm.length_eq]
    · intro pair hpair
      obtain ⟨entry, hentry, hname, hvalue⟩ :=
        exists_left_of_forall₂ hopens pair (hperm.mem_iff.mpr hpair)
      exact ⟨entry.2, by rw [hname]; exact hentry, hvalue⟩

end Lookup

/-! ## Verification -/

theorem length_pairs (input : SecretImport) (marker : Option String) :
    (pairs input marker).length = input.fields.length + marker.toList.length := by
  unfold pairs
  rw [List.length_append, List.length_map, List.length_map]

/-- INTERNAL: **an item is accepted exactly if it is faithful.** -/
theorem verifyCreated_iff {C : Cryptography} {allow : Bool} {parent : CryptoKeys} {d : Destination}
    {id : String} {cipher : Cipher} {input : SecretImport} {marker : Option String}
    (hvalid : input.validate = .ok ()) :
    verifyCreated C allow parent d id cipher input marker = .ok () ↔
      Faithful C parent d id cipher input marker := by
  rw [verifyCreated_ok_iff]
  constructor
  · rintro ⟨hlogin, hown, keys, hitem, hpassword, hnotes, hlength, ⟨entries, hentries, hconcealed⟩, hall⟩
    obtain ⟨hid, hlive, hpersonal, hfolder, name, hname, hnamed⟩ := checkItem_ok_iff.mp hitem
    have hnodup : (entries.map Prod.fst).Nodup := by
      obtain ⟨pair, hpair⟩ := @exists_expected input marker hvalid
      obtain ⟨-, entries', _, hentries', hnodup, -⟩ := selectedValue_ok_iff.mp (hall pair hpair)
      rw [labels_unique hentries hentries']
      exact hnodup
    obtain ⟨hpasswords, hnotess, hpairs⟩ := (selected_all_iff hlive hentries hnodup).mp hall
    have hcount : entries.length = (pairs input marker).length := by
      rw [← hentries.length_eq, hlength, length_pairs]
    exact ⟨hlogin, hown, hid, hlive, hpersonal, hfolder, keys, name, hname, hnamed,
      rel_iff.mpr ⟨hpassword, hpasswords⟩, rel_iff.mpr ⟨hnotes, hnotess⟩,
      (fields_iff hvalid).mp ⟨entries, hentries, hconcealed, hnodup, hcount, hpairs⟩⟩
  · rintro ⟨hlogin, hown, hid, hlive, hpersonal, hfolder, keys, name, hname, hnamed, hpassword, hnotes, hfields⟩
    obtain ⟨hpassword, hpasswords⟩ := rel_iff.mp hpassword
    obtain ⟨hnotes, hnotess⟩ := rel_iff.mp hnotes
    obtain ⟨entries, hentries, hconcealed, hnodup, hcount, hpairs⟩ := (fields_iff hvalid).mpr hfields
    refine ⟨hlogin, hown, keys, checkItem_ok_iff.mpr ⟨hid, hlive, hpersonal, hfolder, name, hname, hnamed⟩,
      hpassword, hnotes, ?_, ⟨entries, hentries, hconcealed⟩,
      (selected_all_iff hlive hentries hnodup).mpr ⟨hpasswords, hnotess, hpairs⟩⟩
    rw [hentries.length_eq, hcount, length_pairs]

/-! ## What was created -/

section Echo

variable {C : Cryptography} {keys : CryptoKeys}

/-- INTERNAL: a list whose elements are encrypted one after the other. -/
theorem mapM_run {α β : Type} {f : α → Sealing β} {l : List α} {l' : List β}
    {draws rest : List (List UInt8)} (h : (l.mapM f).run draws = .ok (l', rest)) :
    List.Forall₂ (fun a b => ∃ draws rest, (f a).run draws = .ok (b, rest)) l l' := by
  induction l generalizing l' draws rest with
  | nil =>
    rw [List.mapM_nil] at h
    obtain ⟨rfl, -⟩ := Prod.mk.inj (Except.ok.inj h)
    exact .nil
  | cons a l ih =>
    rw [List.mapM_cons] at h
    obtain ⟨b, mid, hb, h⟩ := sealing_bind_iff.mp h
    obtain ⟨bs, mid', hbs, h⟩ := sealing_bind_iff.mp h
    obtain ⟨rfl, -⟩ := Prod.mk.inj (Except.ok.inj h)
    exact .cons ⟨draws, mid, hb⟩ (ih hbs)

/-- A field whose name and value are those of the pair, encrypted. -/
def Encrypts (C : Cryptography) (keys : CryptoKeys) (type : UInt8) (pair : String × String)
    (field : EncryptedField) : Prop :=
  Reads C keys field.name pair.1 ∧ Reads C keys field.value pair.2 ∧ field.type = type

theorem encryptField_encrypts (hC : Reversible C) {name value : String} {type : UInt8}
    {field : EncryptedField} {draws rest : List (List UInt8)}
    (h : (encryptField C keys name value type).run draws = .ok (field, rest)) :
    Encrypts C keys type (name, value) field := by
  obtain ⟨sealedName, mid, hname, h⟩ := sealing_bind_iff.mp h
  obtain ⟨sealedValue, mid', hvalue, h⟩ := sealing_bind_iff.mp h
  obtain ⟨rfl, -⟩ := Prod.mk.inj (Except.ok.inj h)
  exact ⟨encryptText_reads hC hname, encryptText_reads hC hvalue, rfl⟩

theorem encryptOptional_rel (hC : Reversible C) {value text : Option String}
    {draws rest : List (List UInt8)}
    (h : (encryptOptional C keys value).run draws = .ok (text, rest)) :
    Option.Rel (Reads C keys) text value := by
  cases value with
  | none =>
    obtain ⟨rfl, -⟩ := Prod.mk.inj (Except.ok.inj h)
    exact .none
  | some plain =>
    obtain ⟨encrypted, mid, hencrypted, h⟩ := sealing_bind_iff.mp h
    obtain ⟨rfl, -⟩ := Prod.mk.inj (Except.ok.inj h)
    exact .some (encryptText_reads hC hencrypted)

theorem encryptMarker_encrypts (hC : Reversible C) {marker : Option String}
    {fields : List EncryptedField} {draws rest : List (List UInt8)}
    (h : (encryptMarker C keys marker).run draws = .ok (fields, rest)) :
    List.Forall₂ (Encrypts C keys 0) (marker.toList.map fun value => ("vw-access", value)) fields := by
  cases marker with
  | none =>
    obtain ⟨rfl, -⟩ := Prod.mk.inj (Except.ok.inj h)
    exact .nil
  | some value =>
    obtain ⟨field, mid, hfield, h⟩ := sealing_bind_iff.mp h
    obtain ⟨rfl, -⟩ := Prod.mk.inj (Except.ok.inj h)
    exact .cons (encryptField_encrypts hC hfield) .nil

/-- INTERNAL: what is kept of an encrypted field. -/
theorem stored_field {type : UInt8} {pair : String × String} {field : EncryptedField}
    (h : Encrypts C keys type pair field) (hhides : type = 1 ∨ pair.1 = "vw-access") :
    Decrypts C keys ⟨some field.name, some field.value, if field.type = 1 then .hidden else .text⟩ pair ∧
      Hides ⟨some field.name, some field.value, if field.type = 1 then .hidden else .text⟩ pair := by
  obtain ⟨hname, hvalue, rfl⟩ := h
  refine ⟨⟨⟨_, rfl, hname⟩, _, rfl, hvalue⟩, hhides.imp ?_ id⟩
  intro htype
  rw [if_pos htype]

/-- INTERNAL: **what is kept of a created item is faithful.** -/
theorem stored_faithful (hC : Reversible C) {parent : CryptoKeys} {d : Destination} (id : String)
    {input : SecretImport} {marker : Option String} {draws rest : List (List UInt8)}
    {created : EncryptedCreate}
    (h : (encryptCreate C parent d input marker).run draws = .ok (created, rest)) :
    input.validate = .ok () ∧ Faithful C parent d id (stored id created) input marker := by
  obtain ⟨⟨⟩, _, hvalid, h⟩ := sealing_bind_iff.mp h
  obtain ⟨⟨own, wrapped⟩, _, hwrapped, h⟩ := sealing_bind_iff.mp h
  obtain ⟨secrets, _, hsecrets, h⟩ := sealing_bind_iff.mp h
  obtain ⟨marked, _, hmarked, h⟩ := sealing_bind_iff.mp h
  obtain ⟨itemName, _, hitem, h⟩ := sealing_bind_iff.mp h
  obtain ⟨name, _, hname, h⟩ := sealing_bind_iff.mp h
  obtain ⟨notes, _, hnotes, h⟩ := sealing_bind_iff.mp h
  obtain ⟨password, _, hpassword, h⟩ := sealing_bind_iff.mp h
  obtain ⟨rfl, -⟩ := Prod.mk.inj (Except.ok.inj h)
  rw [StateT.run_lift, bind_ok_iff] at hvalid hitem
  obtain ⟨⟨⟩, hvalid, -⟩ := hvalid
  obtain ⟨label, hlabel, heq⟩ := hitem
  obtain ⟨rfl, -⟩ := Prod.mk.inj (Except.ok.inj heq)
  refine ⟨hvalid, rfl, rfl, rfl, rfl, rfl, rfl, own, label, hlabel,
    ⟨newWrappedItemKey_unwraps hC hwrapped, name, rfl, encryptText_reads hC hname⟩, ?_, ?_, ?_⟩
  · have hrel := encryptOptional_rel hC hpassword
    simpa [stored, Cipher.getPassword, Cipher.resolveField, Cipher.fromLogin] using hrel
  · have hrel := encryptOptional_rel hC hnotes
    simpa [stored, Cipher.getNotes, Cipher.resolveField] using hrel
  · refine ⟨pairs input marker, ?_, .refl _⟩
    have hfields : (stored id ⟨1, none, d.folderId, name, wrapped, notes, password, secrets ++ marked,
        false, 0⟩).getFields = (secrets ++ marked).map fun field =>
          ⟨some field.name, some field.value, if field.type = 1 then .hidden else .text⟩ := rfl
    rw [hfields, List.map_append]
    apply List.rel_append
    · rw [List.forall₂_map_left_iff, List.forall₂_map_right_iff]
      exact ((mapM_run hsecrets).imp fun f field ⟨_, _, hrun⟩ =>
        stored_field (encryptField_encrypts hC hrun) (.inl rfl)).flip
    · rw [List.forall₂_map_left_iff, List.forall₂_map_right_iff]
      have hmarks := encryptMarker_encrypts hC hmarked
      rw [List.forall₂_map_left_iff] at hmarks
      exact (hmarks.imp fun value field hfield => stored_field hfield (.inr rfl)).flip

end Echo

/-! ## Exactness -/

/-- INTERNAL: fields are decrypted in one way. -/
theorem decrypted_unique {C : Cryptography} {keys : CryptoKeys} {fields : List FieldData}
    {decrypted decrypted' : List (String × String)}
    (h : List.Forall₂ (Decrypts C keys) fields decrypted)
    (h' : List.Forall₂ (Decrypts C keys) fields decrypted') : decrypted = decrypted' := by
  induction h generalizing decrypted' with
  | nil => exact (List.forall₂_nil_left_iff.mp h').symm
  | cons hpair _ ih =>
    cases h' with
    | cons hpair' hrest =>
      obtain ⟨⟨name, hname, hlabel⟩, value, hvalue, hplain⟩ := hpair
      obtain ⟨⟨name', hname', hlabel'⟩, value', hvalue', hplain'⟩ := hpair'
      obtain rfl : name = name' := Option.some.inj (hname.symm.trans hname')
      obtain rfl : value = value' := Option.some.inj (hvalue.symm.trans hvalue')
      rw [ih hrest, Prod.ext (hlabel.unique hlabel') (hplain.unique hplain')]

/-- INTERNAL: what was stored determines the marker. -/
theorem marker_of_perm {input : SecretImport} {marker marker' : Option String}
    (h : (pairs input marker).Perm (pairs input marker')) : marker = marker' := by
  have hmarks := (List.perm_append_left_iff _).mp h
  cases marker with
  | none =>
    cases marker' with
    | none => rfl
    | some value => exact absurd hmarks.length_eq (by simp)
  | some value =>
    cases marker' with
    | none => exact absurd hmarks.length_eq (by simp)
    | some value' =>
      have heq := List.singleton_perm_singleton.mp hmarks
      rw [(Prod.mk.inj heq).2]

/-- Verification of a new item is exact. -/
structure Exact (C : Cryptography) : Prop where
  /-- For a valid input the accepted items are the faithful ones. -/
  accepts : ∀ allow parent (d : Destination) id cipher input marker, input.validate = .ok () →
    (verifyCreated C allow parent d id cipher input marker = .ok () ↔
      Faithful C parent d id cipher input marker)
  /-- What is kept of a created item is accepted. -/
  echo : ∀ allow parent d id input marker draws created rest,
    (encryptCreate C parent d input marker).run draws = .ok (created, rest) →
      verifyCreated C allow parent d id (stored id created) input marker = .ok ()
  /-- Other fields than the ones that were to be stored are not. -/
  fields : ∀ allow parent (d : Destination) id cipher input marker keys decrypted,
    input.validate = .ok () → Unwraps C parent cipher.itemKey keys →
      List.Forall₂ (Decrypts C keys) cipher.getFields decrypted →
      ¬ decrypted.Perm (pairs input marker) →
      verifyCreated C allow parent d id cipher input marker ≠ .ok ()
  /-- Nor is another marker. -/
  marker : ∀ allow parent (d : Destination) id cipher input marker marker',
    input.validate = .ok () → verifyCreated C allow parent d id cipher input marker = .ok () →
      verifyCreated C allow parent d id cipher input marker' = .ok () → marker = marker'

/-- INTERNAL: the fields of a faithful item. -/
theorem Faithful.perm {C : Cryptography} {parent keys : CryptoKeys} {d : Destination} {id : String}
    {cipher : Cipher} {input : SecretImport} {marker : Option String}
    {decrypted : List (String × String)} (h : Faithful C parent d id cipher input marker)
    (hkeys : Unwraps C parent cipher.itemKey keys)
    (hdecrypted : List.Forall₂ (Decrypts C keys) cipher.getFields decrypted) :
    decrypted.Perm (pairs input marker) := by
  obtain ⟨own, name, -, hnamed, hholds⟩ := h.content
  obtain rfl : own = keys := hnamed.1.unique hkeys
  obtain ⟨decrypted', hfields, hperm⟩ := hholds.fields
  rw [decrypted_unique hdecrypted (forall₂_and_iff.mp hfields).1]
  exact hperm

/-- **A new item is verified exactly if it holds what was to be stored and nothing else.** -/
theorem exact (C : Cryptography) (hC : Reversible C) : Exact C where
  accepts _ _ _ _ _ _ _ hvalid := verifyCreated_iff hvalid
  echo allow parent d id input marker draws created rest h := by
    obtain ⟨hvalid, hfaithful⟩ := stored_faithful hC id h
    exact (verifyCreated_iff hvalid).mpr hfaithful
  fields allow parent d id cipher input marker keys decrypted hvalid hkeys hdecrypted hother h :=
    hother (((verifyCreated_iff hvalid).mp h).perm hkeys hdecrypted)
  marker allow parent d id cipher input marker marker' hvalid h h' := by
    have hfaithful := (verifyCreated_iff hvalid).mp h
    obtain ⟨keys, name, -, hnamed, hholds⟩ := hfaithful.content
    obtain ⟨decrypted, hfields, hperm⟩ := hholds.fields
    have hperm' := ((verifyCreated_iff hvalid).mp h').perm hnamed.1 (forall₂_and_iff.mp hfields).1
    exact marker_of_perm (hperm.symm.trans hperm')

theorem exact_sample : Exact sampleCryptography := exact sampleCryptography reversible_sample

end VaultAccess.Analysis.Created
