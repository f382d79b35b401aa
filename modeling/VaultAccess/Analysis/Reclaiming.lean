import VaultAccess.Analysis.Envelopes
import VaultAccess.Model.SshMaterial

/-!
# What the recovery of requests removes

The recovery looks at everything of a request before it takes anything away. Each of its
functions is shown to leave the directories without more than it was allowed to take from the disk
it began with, wherever it stops; the names of requests and of sockets keep the requests
apart, so that what is true of one request at its turn was true at the start.
-/

set_option autoImplicit false

namespace VaultAccess.Analysis.Reclaiming

open VaultAccess.Library VaultAccess.Library.Prog VaultAccess.Library.Text VaultAccess.Model.SshMaterial
open VaultAccess.Model (ExecutionError hexPairs encodeUrlSafe decodeUrlSafe decodeUrlSafe_encodeUrlSafe)

/-! ## What may be removed -/

/-- Only paths with the property were taken away. -/
structure Thinned (P : Path → Prop) (d d' : Volume) : Prop where
  tops : d'.tops = d.tops
  order : d'.order = d.order
  objects : ∀ path, d'.objects path = d.objects path ∨ (d'.objects path = none ∧ P path)

/-- The paths of a request with a record, and its socket. -/
def Belongs (leaf : String) (path : Path) : Prop :=
  path = (.top .agents, leaf) ∨ path.1 = .inside .agents leaf ∨
    (requestName leaf = true ∧ path = (.sockets, socketName leaf))

/-- A file that the record knows. -/
def Recorded (record : AgentRecord) (name : String) (o : Object) : Prop :=
  ∃ identity, record.files.lookup name = some identity ∧ o.isPrivate false = true ∧ o.identity = identity

/-- The socket is gone, or is the recorded one and refuses connections. -/
def Closed (record : AgentRecord) (socket : Option Object) : Prop :=
  ∀ o, socket = some o → o.isRecordedSocket record = true ∧ o.connection = .refused

/-- **Everything of the request is recorded and nothing listens.** -/
structure Stale (decode : List UInt8 → Option AgentRecord) (d : Volume) (leaf : String) (dir recordFile : Object)
    (record : AgentRecord) : Prop where
  named : requestName leaf = true
  dirPrivate : dir.isPrivate true = true
  recordPrivate : recordFile.isPrivate false = true
  decoded : decode (recordFile.content.take 4097) = some record
  dirRecorded : dir.identity = record.directory
  hasDir : d.objects (.top .agents, leaf) = some dir
  hasRecord : d.objects (.inside .agents leaf, "agent.json") = some recordFile
  entries : ∀ entry ∈ d.listing (.inside .agents leaf), ∃ name, entry = some name ∧
    (name = "agent.json" ∨ ∃ o, d.objects (.inside .agents leaf, name) = some o ∧ Recorded record name o)
  closed : Closed record (d.objects (.sockets, socketName leaf))

/-- The request can be taken away. -/
def Reclaimable (decode : List UInt8 → Option AgentRecord) (d : Volume) (leaf : String) : Prop :=
  ∃ dir recordFile record, Stale decode d leaf dir recordFile record

/-- **A historical request that was not handed over, with private files of known names only.** -/
structure Unused (d : Volume) (leaf : String) : Prop where
  named : requestName leaf = true
  dir : ∃ o, d.objects (.top .requests, leaf) = some o ∧ o.isPrivate true = true
  entries : ∃ names, d.listing (.inside .requests leaf) = names.map some ∧ unused names = true ∧
    ∀ name ∈ names, allowedName false name = true ∧
      ∃ o, d.objects (.inside .requests leaf, name) = some o ∧ o.isPrivate false = true

/-- The paths of a historical request. -/
def Historical (leaf : String) (path : Path) : Prop :=
  path = (.top .requests, leaf) ∨ path.1 = .inside .requests leaf

/-- What a recovery of this disk may take away. -/
def Permitted (decode : List UInt8 → Option AgentRecord) (d : Volume) (path : Path) : Prop :=
  (∃ leaf, Belongs leaf path ∧ Reclaimable decode d leaf) ∨ ∃ leaf, Historical leaf path ∧ Unused d leaf

/-! ## Thinned disks -/

section Thinned

variable {P Q : Path → Prop} {d d' d'' : Volume} {path : Path}

theorem Thinned.refl (P : Path → Prop) (d : Volume) : Thinned P d d := ⟨rfl, rfl, fun _ => .inl rfl⟩

theorem unlink_self {hollow : d.Hollow path} : (d.unlink path hollow).objects path = none :=
  Function.update_self _ _ _

theorem unlink_of_ne {path' : Path} {hollow : d.Hollow path} (h : path' ≠ path) :
    (d.unlink path hollow).objects path' = d.objects path' := Function.update_of_ne h _ _

theorem Thinned.unlink (h : Thinned P d d') (hpath : P path) (hollow : d'.Hollow path) :
    Thinned P d (d'.unlink path hollow) := by
  refine ⟨h.tops, h.order, ?_⟩
  intro path'
  by_cases heq : path' = path
  · subst heq
    exact .inr ⟨unlink_self, hpath⟩
  · rw [unlink_of_ne heq]
    exact h.objects path'

theorem Thinned.mono (h : Thinned P d d') (himp : ∀ path, P path → Q path) : Thinned Q d d' :=
  ⟨h.tops, h.order, fun path => (h.objects path).imp id fun hgone => ⟨hgone.1, himp path hgone.2⟩⟩

theorem Thinned.trans (h : Thinned P d d') (h' : Thinned P d' d'') : Thinned P d d'' := by
  refine ⟨h'.tops.trans h.tops, h'.order.trans h.order, ?_⟩
  intro path
  rcases h'.objects path with hsame | hgone
  · rw [hsame]
    exact h.objects path
  · exact .inr hgone

theorem Thinned.kept (h : Thinned P d d') (hpath : ¬ P path) : d'.objects path = d.objects path := by
  rcases h.objects path with hsame | hgone
  · exact hsame
  · exact absurd hgone.2 hpath

end Thinned

/-! ## Calls that change nothing -/

section Calls

variable {stopped : Volume → Prop} {m : Volume}

/-- INTERNAL: a call that reads answers with what is there, or fails. -/
theorem tries_read {a : Act} (hread : (answer a m).2 = m) (hm : stopped m) :
    Tries respond stopped (call a) (fun reply m' => m' = m ∧ (reply = (answer a m).1 ∨ reply = failure a)) m := by
  apply Tries.act hm
  intro good reply m' hperform
  simp only [respond, Option.some.injEq] at hperform
  cases good with
  | true =>
    rw [if_pos rfl] at hperform
    have hm' : m' = m := by rw [← hread, hperform]
    have hreply : reply = (answer a m).1 := by rw [hperform]
    exact ⟨hm' ▸ hm, hm', .inl hreply⟩
  | false =>
    simp only [Bool.false_eq_true, if_false, Prod.mk.injEq] at hperform
    obtain ⟨rfl, rfl⟩ := hperform
    exact ⟨hm, rfl, .inr rfl⟩

theorem tries_refuseIf {error : ExecutionError} {condition : Bool} (hm : stopped m) :
    Tries respond stopped (refuseIf error condition) (fun _ m' => m' = m ∧ condition = false) m := by
  unfold refuseIf
  cases condition with
  | true => exact Tries.throw hm
  | false => exact Tries.pure hm ⟨rfl, rfl⟩

theorem tries_okOr {α : Type} {error : ExecutionError} {value : Option α} (hm : stopped m) :
    Tries respond stopped (okOr error value) (fun a m' => m' = m ∧ value = some a) m := by
  cases value with
  | none => exact Tries.throw hm
  | some a => exact Tries.pure hm ⟨rfl, rfl⟩

/-- INTERNAL: a call that only may fail. -/
theorem tries_need {a : Act} {error : ExecutionError} (f : Ans a → Bool) (hread : (answer a m).2 = m)
    (hm : stopped m) :
    Tries respond stopped (do refuseIf error (f (← call a))) (fun _ m' => m' = m) m := by
  apply Tries.bind (tries_read hread hm)
  rintro reply m' hm' ⟨rfl, _⟩
  apply Tries.mono (tries_refuseIf hm')
  rintro _ m' _ ⟨rfl, _⟩
  rfl

theorem tries_metadata (hm : stopped m) : Tries respond stopped metadata (fun _ m' => m' = m) m :=
  tries_need (a := .metadata) _ rfl hm

theorem tries_directory (hm : stopped m) : Tries respond stopped directory (fun _ m' => m' = m) m :=
  tries_need (a := .walk) _ rfl hm

theorem tries_syncAll (hm : stopped m) : Tries respond stopped syncAll (fun _ m' => m' = m) m :=
  tries_need (a := .sync) _ rfl hm

theorem tries_openAt {path : Path} {directory : Bool} (hm : stopped m) :
    Tries respond stopped (openAt path directory) (fun o m' => m' = m ∧ m.objects path = some o) m := by
  unfold openAt
  apply Tries.bind (tries_read rfl hm)
  rintro reply m' hm' ⟨rfl, hreply⟩
  apply Tries.mono (tries_okOr hm')
  rintro o m' _ ⟨rfl, ho⟩
  refine ⟨rfl, ?_⟩
  rcases hreply with rfl | rfl
  · exact (Option.filter_eq_some_iff.mp ho).1
  · cases ho

theorem tries_checkPrivate {o : Object} {directory : Bool} (hm : stopped m) :
    Tries respond stopped (checkPrivate o directory) (fun _ m' => m' = m ∧ o.isPrivate directory = true) m := by
  unfold checkPrivate
  apply Tries.bind (tries_metadata hm)
  rintro _ m' hm' rfl
  apply Tries.mono (tries_refuseIf hm')
  rintro _ m' _ ⟨rfl, hprivate⟩
  exact ⟨rfl, by simpa using hprivate⟩

theorem tries_ensureDirectory {place : Place} (hm : stopped m) :
    Tries respond stopped (ensureDirectory place) (fun _ m' => m' = m) m := by
  unfold ensureDirectory
  apply Tries.bind (tries_read rfl hm)
  rintro reply m' hm' ⟨rfl, _⟩
  apply Tries.bind (tries_refuseIf hm')
  rintro _ m' hm' ⟨rfl, _⟩
  apply Tries.bind (tries_read rfl hm')
  rintro reply m' hm' ⟨rfl, _⟩
  apply Tries.bind (tries_okOr hm')
  rintro result m' hm' ⟨rfl, _⟩
  apply Tries.bind (tries_checkPrivate hm')
  rintro _ m' hm' ⟨rfl, _⟩
  exact tries_syncAll hm'

theorem mapM_id_eq_some {names : List (Option String)} {texts : List String} (h : names.mapM id = some texts) :
    names = texts.map some := by
  induction names generalizing texts with
  | nil =>
    cases h
    rfl
  | cons name names ih =>
    rw [List.mapM_cons] at h
    obtain ⟨text, hname, rest, hrest, hpure⟩ : ∃ text, id name = some text ∧ ∃ rest, names.mapM id = some rest ∧
        some (text :: rest) = some texts := by
      simpa [Option.bind_eq_some_iff] using h
    cases hpure
    rw [List.map_cons, ← ih hrest, ← hname]
    rfl

theorem tries_entries {place : Place} (hm : stopped m) :
    Tries respond stopped (entries place) (fun names m' => m' = m ∧ m.listing place = names.map some) m := by
  unfold entries
  apply Tries.bind (tries_read rfl hm)
  rintro reply m' hm' ⟨rfl, hreply⟩
  apply Tries.bind (tries_okOr hm')
  rintro names m' hm' ⟨rfl, hnames⟩
  apply Tries.mono (tries_okOr hm')
  rintro texts m' _ ⟨rfl, htexts⟩
  refine ⟨rfl, ?_⟩
  rcases hreply with rfl | rfl
  · cases hnames
    exact mapM_id_eq_some htexts
  · cases hnames

theorem tries_same {path : Path} {file : Object} {directory : Bool} (hm : stopped m) :
    Tries respond stopped (same path file directory) (fun _ m' => m' = m) m := by
  unfold same
  apply Tries.bind (tries_openAt hm)
  rintro current m' hm' ⟨rfl, _⟩
  apply Tries.bind (tries_checkPrivate hm')
  rintro _ m' hm' ⟨rfl, _⟩
  apply Tries.bind (tries_metadata hm')
  rintro _ m' hm' rfl
  apply Tries.bind (tries_metadata hm')
  rintro _ m' hm' rfl
  apply Tries.mono (tries_refuseIf hm')
  rintro _ m' _ ⟨rfl, _⟩
  rfl

theorem tries_identity {o : Object} (hm : stopped m) :
    Tries respond stopped (identity o) (fun i m' => m' = m ∧ i = o.identity) m := by
  unfold identity
  apply Tries.bind (tries_metadata hm)
  rintro _ m' hm' rfl
  exact Tries.pure hm' ⟨rfl, rfl⟩

end Calls

/-! ## Checks -/

section Checks

variable {stopped : Volume → Prop} {m : Volume} {place : Place}

/-- INTERNAL: what was checked of the entries beside the record. -/
theorem tries_checkRecorded (record : AgentRecord) (names : List String) (hm : stopped m) :
    Tries respond stopped (checkRecorded place record names) (fun _ m' => m' = m ∧ ∀ name ∈ names,
      name = "agent.json" ∨ ∃ o, m.objects (place, name) = some o ∧ Recorded record name o) m := by
  induction names with
  | nil =>
    apply Tries.pure hm
    exact ⟨rfl, fun _ hname => absurd hname List.not_mem_nil⟩
  | cons name names ih =>
    unfold checkRecorded
    split
    · next hname =>
      apply Tries.mono ih
      rintro _ m' _ ⟨rfl, hrest⟩
      exact ⟨rfl, List.forall_mem_cons.mpr ⟨.inl hname, hrest⟩⟩
    · apply Tries.bind (tries_okOr hm)
      rintro expected m' hm' ⟨rfl, hexpected⟩
      apply Tries.bind (tries_openAt hm')
      rintro file m' hm' ⟨rfl, hfile⟩
      apply Tries.bind (tries_checkPrivate hm')
      rintro _ m' hm' ⟨rfl, hprivate⟩
      apply Tries.bind (tries_identity hm')
      rintro i m' hm' ⟨rfl, rfl⟩
      apply Tries.bind (tries_refuseIf hm')
      rintro _ m' hm' ⟨rfl, hidentity⟩
      apply Tries.bind ih
      rintro rest m' hm' ⟨rfl, hrest⟩
      apply Tries.pure hm'
      have hsame : file.identity = expected := by simpa using hidentity
      exact ⟨rfl, List.forall_mem_cons.mpr ⟨.inr ⟨file, hfile, expected, hexpected, hprivate, hsame⟩, hrest⟩⟩

/-- INTERNAL: what was checked of the entries of a historical request. -/
theorem tries_checkAll (isPublic : Bool) (names : List String) (hm : stopped m) :
    Tries respond stopped (checkAll place isPublic names) (fun _ m' => m' = m ∧ ∀ name ∈ names,
      allowedName isPublic name = true ∧ ∃ o, m.objects (place, name) = some o ∧ o.isPrivate false = true) m := by
  induction names with
  | nil =>
    apply Tries.pure hm
    exact ⟨rfl, fun _ hname => absurd hname List.not_mem_nil⟩
  | cons name names ih =>
    unfold checkAll
    apply Tries.bind (tries_refuseIf hm)
    rintro _ m' hm' ⟨rfl, hallowed⟩
    apply Tries.bind (tries_openAt hm')
    rintro file m' hm' ⟨rfl, hfile⟩
    apply Tries.bind (tries_checkPrivate hm')
    rintro _ m' hm' ⟨rfl, hprivate⟩
    apply Tries.bind ih
    rintro rest m' hm' ⟨rfl, hrest⟩
    apply Tries.pure hm'
    have hallowed : allowedName isPublic name = true := by simpa using hallowed
    exact ⟨rfl, List.forall_mem_cons.mpr ⟨⟨hallowed, file, hfile, hprivate⟩, hrest⟩⟩

/-- INTERNAL: what was read of the record. -/
theorem tries_readRecord (decode : List UInt8 → Option AgentRecord) {leaf : String} {dir recordFile : Object}
    (hrecord : m.objects (.inside .agents leaf, "agent.json") = some recordFile) (hm : stopped m) :
    Tries respond stopped (readRecord decode leaf dir) (fun record m' => m' = m ∧
      decode (recordFile.content.take 4097) = some record ∧ dir.identity = record.directory) m := by
  unfold readRecord
  apply Tries.bind (tries_read rfl hm)
  rintro reply m' hm' ⟨rfl, hreply⟩
  apply Tries.bind (tries_okOr hm')
  rintro bytes m' hm' ⟨rfl, hbytes⟩
  apply Tries.bind (tries_refuseIf hm')
  rintro _ m' hm' ⟨rfl, _⟩
  apply Tries.bind (tries_okOr hm')
  rintro record m' hm' ⟨rfl, hdecode⟩
  apply Tries.bind (tries_identity hm')
  rintro i m' hm' ⟨rfl, rfl⟩
  apply Tries.bind (tries_refuseIf hm')
  rintro _ m' hm' ⟨rfl, hidentity⟩
  apply Tries.pure hm'
  have hcontent : bytes = recordFile.content.take 4097 := by
    rcases hreply with rfl | rfl
    · simpa [answer, hrecord] using hbytes.symm
    · cases hbytes
  simp only [Bool.or_eq_false_iff, decide_eq_false_iff_not, not_not] at hidentity
  exact ⟨rfl, hcontent ▸ hdecode, hidentity.1⟩

theorem tries_socketLeaf {leaf : String} (hm : stopped m) :
    Tries respond stopped (socketLeaf leaf) (fun name m' => m' = m ∧ name = socketName leaf) m := by
  unfold socketLeaf
  apply Tries.bind (tries_refuseIf hm)
  rintro _ m' hm' ⟨rfl, _⟩
  exact Tries.pure hm' ⟨rfl, rfl⟩

end Checks

/-! ## Removals -/

section Removals

variable {P : Path → Prop} {d m : Volume}

/-- INTERNAL: one path is taken away at most, and only one that may be. -/
theorem tries_unlinkAt {path : Path} {directory : Bool} (hpath : P path) (hm : Thinned P d m) :
    Tries respond (Thinned P d) (call (.unlinkAt path directory)) (fun _ _ => True) m := by
  apply Tries.act hm
  intro good reply m' hrespond
  simp only [respond, Option.some.injEq] at hrespond
  cases good with
  | false =>
    simp only [Bool.false_eq_true, if_false, Prod.mk.injEq] at hrespond
    obtain ⟨-, rfl⟩ := hrespond
    exact ⟨hm, trivial⟩
  | true =>
    simp only [if_true, answer] at hrespond
    split at hrespond
    · simp only [Prod.mk.injEq] at hrespond
      obtain ⟨-, rfl⟩ := hrespond
      exact ⟨hm.unlink hpath _, trivial⟩
    · simp only [Prod.mk.injEq] at hrespond
      obtain ⟨-, rfl⟩ := hrespond
      exact ⟨hm, trivial⟩

theorem tries_remove {path : Path} {directory : Bool} (hpath : P path) (hm : Thinned P d m) :
    Tries respond (Thinned P d) (remove path directory) (fun _ _ => True) m := by
  unfold remove
  apply Tries.bind (tries_unlinkAt hpath hm)
  intro reply m' hm' _
  apply Tries.bind (tries_refuseIf hm')
  rintro _ m' hm' ⟨rfl, _⟩
  apply Tries.mono (tries_syncAll hm')
  intro _ _ _ _
  trivial

theorem tries_removeAll {place : Place} (checked : List (String × Object)) (hplace : ∀ name, P (place, name))
    (hm : Thinned P d m) : Tries respond (Thinned P d) (removeAll place checked) (fun _ _ => True) m := by
  induction checked generalizing m with
  | nil => exact Tries.pure hm trivial
  | cons entry checked ih =>
    unfold removeAll
    apply Tries.bind (tries_same hm)
    rintro _ m' hm' rfl
    apply Tries.bind (tries_remove (hplace _) hm')
    intro _ m' hm' _
    exact ih hm'

/-- INTERNAL: the rest of a request goes after its socket. -/
theorem tries_removeRequest {leaf : String} {dir recordFile : Object} (checked : List (String × Object))
    (hbelongs : ∀ path, Belongs leaf path → P path) (hm : Thinned P d m) :
    Tries respond (Thinned P d) (removeRequest leaf dir recordFile checked) (fun _ _ => True) m := by
  have hinside : ∀ name, P (.inside .agents leaf, name) := fun _ => hbelongs _ (.inr (.inl rfl))
  unfold removeRequest
  apply Tries.bind (tries_same hm)
  rintro _ m' hm' rfl
  apply Tries.bind (tries_same hm')
  rintro _ m' hm' rfl
  apply Tries.bind (tries_removeAll checked hinside hm')
  intro _ m' hm' _
  apply Tries.bind (tries_same hm')
  rintro _ m' hm' rfl
  apply Tries.bind (tries_remove (hinside _) hm')
  intro _ m' hm' _
  apply Tries.bind (tries_same hm')
  rintro _ m' hm' rfl
  exact tries_remove (hbelongs _ (.inl rfl)) hm'

/-- INTERNAL: the socket is taken away only when it is recorded and refuses. -/
theorem tries_reclaimSocket {record : AgentRecord} {path : Path} (requireStopped : Bool)
    (hpath : Closed record (m.objects path) → P path) (hm : Thinned P d m) :
    Tries respond (Thinned P d) (reclaimSocket record path requireStopped)
      (fun goes _ => goes = true → Closed record (m.objects path)) m := by
  unfold reclaimSocket
  apply Tries.bind (tries_read rfl hm)
  rintro reply m' hm' ⟨rfl, hreply⟩
  cases reply with
  | failed => exact Tries.throw hm'
  | notFound =>
    apply Tries.pure hm'
    intro _ o ho
    rcases hreply with hreply | hreply
    · simp [answer, ho] at hreply
    · cases hreply
  | found o =>
    apply Tries.bind (tries_refuseIf hm')
    rintro _ m' hm' ⟨rfl, hrecorded⟩
    apply Tries.bind (tries_read rfl hm')
    rintro socket m' hm' ⟨rfl, _⟩
    apply Tries.bind (tries_refuseIf hm')
    rintro _ m' hm' ⟨rfl, _⟩
    apply Tries.bind (tries_read rfl hm')
    rintro connection m' hm' ⟨rfl, hconnection⟩
    have hlive : Tries respond (Thinned P d) (do
        refuseIf .cleanupUncertain requireStopped
        return false) (fun goes _ => goes = true → Closed record (m'.objects path)) m' := by
      apply Tries.bind (tries_refuseIf hm')
      rintro _ m' hm' ⟨rfl, _⟩
      apply Tries.pure hm'
      intro hgoes
      cases hgoes
    cases connection with
    | accepted => exact hlive
    | pending => exact hlive
    | failed => exact Tries.throw hm'
    | refused =>
      have hclosed : Closed record (m'.objects path) := by
        intro current hcurrent
        have hfound : o = current := by
          rcases hreply with hreply | hreply
          · simpa [answer, hcurrent] using hreply
          · cases hreply
        have hrefused : current.connection = .refused := by
          rcases hconnection with hconnection | hconnection
          · simpa [answer, hcurrent] using hconnection.symm
          · cases hconnection
        exact ⟨by simpa [hfound] using hrecorded, hrefused⟩
      apply Tries.bind (tries_read rfl hm')
      rintro again m' hm' ⟨rfl, _⟩
      cases again with
      | failed => exact Tries.throw hm'
      | notFound => exact Tries.throw hm'
      | found current =>
        apply Tries.bind (tries_refuseIf hm')
        rintro _ m' hm' ⟨rfl, _⟩
        apply Tries.bind (tries_remove (hpath hclosed) hm')
        intro _ m' hm' _
        apply Tries.pure hm'
        intro _
        exact hclosed

/-- INTERNAL: a cleanup takes nothing away unless every entry is a private file of a known name. -/
theorem tries_cleanup {tree : Tree} {leaf : String} {dir : Object} {isPublic : Bool}
    (hpath : ∀ names : List String, m.listing (.inside tree leaf) = names.map some →
      (∀ name ∈ names, allowedName isPublic name = true ∧
        ∃ o, m.objects (.inside tree leaf, name) = some o ∧ o.isPrivate false = true) →
      P (.top tree, leaf) ∧ ∀ name, P (.inside tree leaf, name))
    (hm : Thinned P d m) : Tries respond (Thinned P d) (cleanup tree leaf dir isPublic) (fun _ _ => True) m := by
  unfold cleanup
  apply Tries.bind (tries_same hm)
  rintro _ m' hm' rfl
  apply Tries.bind (tries_entries hm')
  rintro names m' hm' ⟨rfl, hnames⟩
  apply Tries.bind (tries_checkAll isPublic names hm')
  rintro checked m' hm' ⟨rfl, hchecked⟩
  obtain ⟨hdir, hinside⟩ := hpath names hnames hchecked
  apply Tries.bind (tries_removeAll _ hinside hm')
  intro _ m' hm' _
  apply Tries.bind (tries_same hm')
  rintro _ m' hm' rfl
  exact tries_remove hdir hm'

end Removals

/-! ## One request -/

section Request

variable {decode : List UInt8 → Option AgentRecord} {P : Path → Prop} {d m : Volume} {leaf : String}

/-- **A request is taken away only when everything of it is recorded and nothing listens.** -/
theorem tries_recoverAgent (requireStopped : Bool)
    (hpath : Reclaimable decode m leaf → ∀ path, Belongs leaf path → P path) (hm : Thinned P d m) :
    Tries respond (Thinned P d) (recoverAgent decode leaf requireStopped) (fun _ _ => True) m := by
  unfold recoverAgent
  apply Tries.bind (tries_refuseIf hm)
  rintro _ m' hm' ⟨rfl, hnamed⟩
  have hnamed : requestName leaf = true := by simpa using hnamed
  apply Tries.bind (tries_openAt hm')
  rintro dir m' hm' ⟨rfl, hdir⟩
  apply Tries.bind (tries_checkPrivate hm')
  rintro _ m' hm' ⟨rfl, hdirPrivate⟩
  apply Tries.bind (tries_openAt hm')
  rintro recordFile m' hm' ⟨rfl, hrecordFile⟩
  apply Tries.bind (tries_checkPrivate hm')
  rintro _ m' hm' ⟨rfl, hrecordPrivate⟩
  apply Tries.bind (tries_readRecord decode hrecordFile hm')
  rintro record m' hm' ⟨rfl, hdecoded, hdirectory⟩
  apply Tries.bind (tries_entries hm')
  rintro names m' hm' ⟨rfl, hnames⟩
  apply Tries.bind (tries_checkRecorded record names hm')
  rintro checked m' hm' ⟨rfl, hentries⟩
  have hstale : Closed record (m'.objects (.sockets, socketName leaf)) → ∀ path, Belongs leaf path → P path := by
    intro hclosed
    apply hpath
    refine ⟨dir, recordFile, record, hnamed, hdirPrivate, hrecordPrivate, hdecoded, hdirectory, hdir, hrecordFile, ?_,
      hclosed⟩
    intro entry hentry
    rw [hnames] at hentry
    obtain ⟨name, hname, rfl⟩ := List.mem_map.mp hentry
    exact ⟨name, rfl, hentries name hname⟩
  apply Tries.bind (tries_same hm')
  rintro _ m' hm' rfl
  apply Tries.bind (tries_same hm')
  rintro _ m' hm' rfl
  apply Tries.bind (tries_directory hm')
  rintro _ m' hm' rfl
  apply Tries.bind (tries_ensureDirectory hm')
  rintro _ m' hm' rfl
  apply Tries.bind (tries_socketLeaf hm')
  rintro socket m' hm' ⟨rfl, rfl⟩
  have hsocket : Belongs leaf (.sockets, socketName leaf) := .inr (.inr ⟨hnamed, rfl⟩)
  apply Tries.bind (tries_reclaimSocket requireStopped (fun hclosed => hstale hclosed _ hsocket) hm')
  intro goes m'' hm'' hgoes
  cases goes with
  | false => exact Tries.pure hm'' trivial
  | true => exact tries_removeRequest checked (hstale (hgoes rfl)) hm''

end Request

/-! ## Requests are apart -/

/-- INTERNAL: the digits of a request's name. -/
theorem toList_of_requestName {leaf : String} (h : requestName leaf = true) :
    ∃ digits : String, leaf.toList = "req-".toList ++ digits.toList ∧ (bytes leaf).drop 4 = bytes digits ∧
      (bytes digits).length = 32 ∧ ∀ c ∈ digits.toList, isLowerHex c = true := by
  simp only [requestName, Bool.and_eq_true, decide_eq_true_eq, List.isPrefixOf_iff_prefix, List.all_eq_true] at h
  obtain ⟨⟨hsize, rest, hrest⟩, hdigits⟩ := h
  have hbytes : bytes leaf = bytes "req-" ++ bytes (String.ofList rest) := by
    have hrest' : (String.ofList rest).toList = rest := String.toList_ofList
    unfold bytes utf8
    rw [hrest', ← hrest, List.flatMap_append]
  have hdrop : (bytes leaf).drop 4 = bytes (String.ofList rest) := by
    rw [hbytes]
    rfl
  refine ⟨String.ofList rest, ?_, hdrop, ?_, ?_⟩
  · have hrest' : (String.ofList rest).toList = rest := String.toList_ofList
    rw [hrest', hrest]
  · rw [← hdrop, List.length_drop, length_bytes, hsize]
  · intro c hc
    apply hdigits
    rw [← hrest]
    rw [String.toList_ofList] at hc
    exact hc

/-- **The sockets of different requests have different names.** -/
theorem socketName_inj {leaf leaf' : String} (h : requestName leaf = true) (h' : requestName leaf' = true)
    (heq : socketName leaf = socketName leaf') : leaf = leaf' := by
  obtain ⟨digits, hleaf, hbytes, hlength, hhex⟩ := toList_of_requestName h
  obtain ⟨digits', hleaf', hbytes', hlength', hhex'⟩ := toList_of_requestName h'
  unfold socketName at heq
  rw [hbytes, hbytes'] at heq
  have hencoded : encodeUrlSafe (hexPairs (bytes digits)) =
      encodeUrlSafe (hexPairs (bytes digits')) := by
    have hlist := congrArg String.toList heq
    rw [String.toList_append, String.toList_append] at hlist
    exact String.toList_injective (List.append_cancel_right hlist)
  have hpairs : hexPairs (bytes digits) = hexPairs (bytes digits') := by
    have hdecoded := congrArg decodeUrlSafe hencoded
    rw [decodeUrlSafe_encodeUrlSafe, decodeUrlSafe_encodeUrlSafe] at hdecoded
    exact Option.some.inj hdecoded
  have heven : 2 ∣ (bytes digits).length := by
    rw [hlength]
    decide
  have hsame := hexPairs_inj (mem_hexBytes hhex) (mem_hexBytes hhex') (hlength.trans hlength'.symm) heven hpairs
  have hdigits := bytes_injective hsame
  apply String.toList_injective
  rw [hleaf, hleaf', hdigits]

/-- **A path belongs to one request at most.** -/
theorem belongs_inj {leaf leaf' : String} {path : Path} (h : Belongs leaf path) (h' : Belongs leaf' path) :
    leaf = leaf' := by
  rcases h with rfl | hinside | ⟨hnamed, rfl⟩
  · rcases h' with hpath | hinside | ⟨_, hpath⟩
    · simpa using hpath
    · cases hinside
    · simp at hpath
  · rcases h' with rfl | hinside' | ⟨_, rfl⟩
    · cases hinside
    · rw [hinside] at hinside'
      simpa using hinside'
    · cases hinside
  · rcases h' with hpath | hinside | ⟨hnamed', hpath⟩
    · simp at hpath
    · cases hinside
    · exact socketName_inj hnamed hnamed' (by simpa using hpath)

theorem historical_inj {leaf leaf' : String} {path : Path} (h : Historical leaf path) (h' : Historical leaf' path) :
    leaf = leaf' := by
  rcases h with rfl | hinside
  · rcases h' with hpath | hinside
    · simpa using hpath
    · cases hinside
  · rcases h' with rfl | hinside'
    · cases hinside
    · rw [hinside] at hinside'
      simpa using hinside'

/-- INTERNAL: the two trees are apart. -/
theorem not_historical_of_belongs {leaf leaf' : String} {path : Path} (h : Belongs leaf path) :
    ¬ Historical leaf' path := by
  rintro (rfl | hinside')
  · rcases h with hpath | hinside | ⟨_, hpath⟩
    · simp at hpath
    · cases hinside
    · simp at hpath
  · rcases h with rfl | hinside | ⟨_, rfl⟩
    · cases hinside'
    · rw [hinside] at hinside'
      simp at hinside'
    · cases hinside'

/-! ## The whole recovery -/

section Recovery

variable {decode : List UInt8 → Option AgentRecord} {d m m' : Volume} {leaf : String}

/-- INTERNAL: the listing of a directory that nothing was taken from. -/
theorem listing_eq {place : Place} (horder : m.order = d.order)
    (h : ∀ name, m.objects (place, name) = d.objects (place, name)) : m.listing place = d.listing place := by
  have hpresent : m.present place = d.present place := by
    funext entry
    cases entry with
    | none => rfl
    | some name => exact congrArg Option.isSome (h name)
  unfold Volume.listing
  rw [horder, hpresent]

/-- INTERNAL: whether a request can be taken away is seen from its own paths. -/
theorem Reclaimable.congr (h : Reclaimable decode m leaf) (horder : m.order = d.order)
    (hsame : ∀ path, Belongs leaf path → m.objects path = d.objects path) : Reclaimable decode d leaf := by
  obtain ⟨dir, recordFile, record, hstale⟩ := h
  have hinside : ∀ name, m.objects (.inside .agents leaf, name) = d.objects (.inside .agents leaf, name) :=
    fun name => hsame _ (.inr (.inl rfl))
  have hdir := hsame _ (.inl rfl)
  have hsocket := hsame _ (.inr (.inr ⟨hstale.named, rfl⟩))
  refine ⟨dir, recordFile, record, hstale.named, hstale.dirPrivate, hstale.recordPrivate, hstale.decoded,
    hstale.dirRecorded, hdir ▸ hstale.hasDir, hinside _ ▸ hstale.hasRecord, ?_, hsocket ▸ hstale.closed⟩
  intro entry hentry
  rw [← listing_eq horder hinside] at hentry
  obtain ⟨name, hname, hrecorded⟩ := hstale.entries entry hentry
  rw [hinside] at hrecorded
  exact ⟨name, hname, hrecorded⟩

theorem Unused.congr (h : Unused m leaf) (horder : m.order = d.order)
    (hsame : ∀ path, Historical leaf path → m.objects path = d.objects path) : Unused d leaf := by
  have hinside : ∀ name, m.objects (.inside .requests leaf, name) = d.objects (.inside .requests leaf, name) :=
    fun name => hsame _ (.inr rfl)
  obtain ⟨names, hnames, hunused, hentries⟩ := h.entries
  refine ⟨h.named, ?_, names, ?_, hunused, ?_⟩
  · rw [← hsame _ (.inl rfl)]
    exact h.dir
  · rw [← listing_eq horder hinside]
    exact hnames
  · intro name hname
    rw [← hinside]
    exact hentries name hname

/-- INTERNAL: the turn of a request, as a step of the loop. -/
theorem tries_turn (requireStopped : Bool) (hm : Thinned (Permitted decode d) d m)
    (hsame : ∀ path, Belongs leaf path → m.objects path = d.objects path) :
    Tries respond (Thinned (Permitted decode d) d)
      (ExceptT.lift (recoverAgent decode leaf requireStopped).run : Steps _)
      (fun _ m' => ∀ path, ¬ Belongs leaf path → m'.objects path = m.objects path) m := by
  have hown : Tries respond (Thinned (fun path => Belongs leaf path ∧ Reclaimable decode m leaf) m)
      (ExceptT.lift (recoverAgent decode leaf requireStopped).run : Steps (Except ExecutionError Unit))
      (fun _ _ => True) m := by
    apply Tries.attempt (tries_recoverAgent requireStopped (fun h path hpath => ⟨hpath, h⟩) (Thinned.refl _ m))
    · intro _ _ _ _
      trivial
    · intro _ _ _
      trivial
  apply Tries.mono (Tries.stopped_mono hown _)
  · rintro _ m' _ ⟨hwithin, _⟩ path hpath
    exact hwithin.kept fun h => hpath h.1
  · intro m' hwithin
    apply hm.trans
    apply hwithin.mono
    rintro path ⟨hpath, hreclaimable⟩
    exact .inl ⟨leaf, hpath, hreclaimable.congr hm.order hsame⟩

theorem tries_recoverAgents (requireStopped : Bool) (names : List String) (hnodup : names.Nodup)
    (hm : Thinned (Permitted decode d) d m)
    (hrest : ∀ leaf ∈ names, ∀ path, Belongs leaf path → m.objects path = d.objects path) :
    Tries respond (Thinned (Permitted decode d) d) (recoverAgents decode requireStopped names)
      (fun _ m' => ∀ path, (∀ leaf ∈ names, ¬ Belongs leaf path) → m'.objects path = m.objects path) m := by
  induction names generalizing m with
  | nil => exact Tries.pure hm fun _ _ => rfl
  | cons leaf names ih =>
    obtain ⟨hnot, hnodup⟩ := List.nodup_cons.mp hnodup
    unfold recoverAgents
    apply Tries.bind (tries_turn requireStopped hm (hrest leaf List.mem_cons_self))
    intro result m₁ hm₁ hkept
    have hrest₁ : ∀ other ∈ names, ∀ path, Belongs other path → m₁.objects path = d.objects path := by
      intro other hother path hpath
      rw [hkept path fun h => hnot (belongs_inj h hpath ▸ hother)]
      exact hrest other (List.mem_cons_of_mem _ hother) path hpath
    apply Tries.bind (ih hnodup hm₁ hrest₁)
    intro uncertain m₂ hm₂ hkept₂
    apply Tries.pure hm₂
    intro path hpath
    rw [hkept₂ path fun other hother => hpath other (List.mem_cons_of_mem _ hother)]
    exact hkept path (hpath leaf List.mem_cons_self)

/-- INTERNAL: the turn of a historical request. -/
theorem tries_recoverRequests (names : List String) (hnodup : names.Nodup)
    (hm : Thinned (Permitted decode d) d m)
    (hrest : ∀ leaf ∈ names, ∀ path, Historical leaf path → m.objects path = d.objects path) :
    Tries respond (Thinned (Permitted decode d) d) (recoverRequests names) (fun _ _ => True) m := by
  induction names generalizing m with
  | nil => exact Tries.pure hm trivial
  | cons leaf names ih =>
    obtain ⟨hnot, hnodup⟩ := List.nodup_cons.mp hnodup
    unfold recoverRequests
    apply Tries.bind (tries_refuseIf hm)
    rintro _ m' hm' ⟨rfl, hnamed⟩
    have hnamed : requestName leaf = true := by simpa using hnamed
    apply Tries.bind (tries_openAt hm')
    rintro dir m' hm' ⟨rfl, hdir⟩
    apply Tries.bind (tries_checkPrivate hm')
    rintro _ m' hm' ⟨rfl, hprivate⟩
    apply Tries.bind (tries_entries hm')
    rintro entries m' hm' ⟨rfl, hentries⟩
    have hnext : Tries respond (Thinned (Permitted decode d) d)
        (cleanupUnused leaf dir entries)
        (fun _ m₁ => ∀ path, ¬ Historical leaf path → m₁.objects path = m'.objects path) m' := by
      unfold cleanupUnused
      split
      · next hunused =>
        have hown : Tries respond (Thinned (fun path => Historical leaf path ∧ Unused m' leaf) m')
            (cleanup .requests leaf dir false) (fun _ _ => True) m' := by
          apply tries_cleanup _ (Thinned.refl _ m')
          intro names hnames hchecked
          have hsame : entries = names := by
            apply List.map_injective_iff.mpr (Option.some_injective String)
            rw [← hentries, hnames]
          have hvalid : Unused m' leaf := ⟨hnamed, ⟨dir, hdir, hprivate⟩, names, hnames, hsame ▸ hunused, hchecked⟩
          exact ⟨⟨.inl rfl, hvalid⟩, fun _ => ⟨.inr rfl, hvalid⟩⟩
        apply Tries.mono (Tries.stopped_mono hown _)
        · rintro _ m₁ _ ⟨hwithin, _⟩ path hpath
          exact hwithin.kept fun h => hpath h.1
        · intro m₁ hwithin
          apply hm'.trans
          apply hwithin.mono
          rintro path ⟨hpath, hvalid⟩
          exact .inr ⟨leaf, hpath, hvalid.congr hm'.order (hrest leaf List.mem_cons_self)⟩
      · exact Tries.pure hm' fun _ _ => rfl
    apply Tries.bind hnext
    intro _ m₁ hm₁ hkept
    apply ih hnodup hm₁
    intro other hother path hpath
    rw [hkept path fun h => hnot (historical_inj h hpath ▸ hother)]
    exact hrest other (List.mem_cons_of_mem _ hother) path hpath

theorem nodup_of_listing {place : Place} {names : List String} (h : m.listing place = names.map some) :
    names.Nodup := by
  have hnodup : (m.listing place).Nodup := (m.unique place).filter _
  rw [h] at hnodup
  exact hnodup.of_map _

theorem tries_recoverMode (decode : List UInt8 → Option AgentRecord) (requireStopped : Bool) (d : Volume) :
    Tries respond (Thinned (Permitted decode d) d) (recoverMode decode requireStopped) (fun _ _ => True) d := by
  have hd := Thinned.refl (Permitted decode d) d
  unfold recoverMode
  apply Tries.bind (tries_directory hd)
  rintro _ m hm rfl
  apply Tries.bind (tries_ensureDirectory hm)
  rintro _ m hm rfl
  apply Tries.bind (tries_entries hm)
  rintro leaves m hm ⟨rfl, hleaves⟩
  apply Tries.bind (tries_recoverAgents requireStopped leaves (nodup_of_listing hleaves) hm fun _ _ _ _ => rfl)
  intro uncertain m₁ hm₁ hkept
  apply Tries.bind (tries_ensureDirectory hm₁)
  rintro _ m₁ hm₁ rfl
  apply Tries.bind (tries_entries hm₁)
  rintro requests m₁ hm₁ ⟨rfl, hrequests⟩
  have hhistorical : ∀ leaf ∈ requests, ∀ path, Historical leaf path → m₁.objects path = m.objects path := by
    intro leaf _ path hpath
    exact hkept path fun other _ hother => not_historical_of_belongs hother hpath
  apply Tries.bind (tries_recoverRequests requests (nodup_of_listing hrequests) hm₁ hhistorical)
  intro _ m₂ hm₂ _
  apply Tries.mono (tries_refuseIf hm₂)
  intro _ _ _ _
  trivial

/-- What a recovery left, compared with the disk that it began with. -/
structure Spared (decode : List UInt8 → Option AgentRecord) (d d' : Volume) : Prop where
  /-- A path that is gone was permitted to go. -/
  gone : ∀ path o, d.objects path = some o → d'.objects path = none → Permitted decode d path
  /-- A path that is not gone is as it was. -/
  kept : ∀ path o, d'.objects path = some o → d.objects path = some o
  /-- Nothing of a request goes, nor its socket, unless all of it may. -/
  request : ∀ leaf, ¬ Reclaimable decode d leaf → ∀ path, Belongs leaf path → d'.objects path = d.objects path
  historical : ∀ leaf, ¬ Unused d leaf → ∀ path, Historical leaf path → d'.objects path = d.objects path

/-- INTERNAL: requests are spared whole, since their paths are apart. -/
theorem spared_of_within {d' : Volume} (hwithin : Thinned (Permitted decode d) d d') : Spared decode d d' := by
  refine ⟨?_, ?_, ?_, ?_⟩
  · intro path o ho hnone
    rcases hwithin.objects path with hsame | ⟨_, hpermitted⟩
    · rw [hsame, ho] at hnone
      cases hnone
    · exact hpermitted
  · intro path o ho
    rcases hwithin.objects path with hsame | ⟨hnone, _⟩
    · rw [← hsame, ho]
    · rw [hnone] at ho
      cases ho
  · intro leaf hleaf path hpath
    apply hwithin.kept
    rintro (⟨other, hother, hreclaimable⟩ | ⟨other, hother, _⟩)
    · exact hleaf (belongs_inj hother hpath ▸ hreclaimable)
    · exact not_historical_of_belongs hpath hother
  · intro leaf hleaf path hpath
    apply hwithin.kept
    rintro (⟨other, hother, _⟩ | ⟨other, hother, hunused⟩)
    · exact not_historical_of_belongs hother hpath
    · exact hleaf (historical_inj hother hpath ▸ hunused)

/-- **However the calls of a recovery go, and wherever it stops, it takes away requests whose
every entry is recorded and whose socket is gone or refuses, and historical requests that were
not handed over; nothing else.** -/
theorem recovery_spares (decode : List UInt8 → Option AgentRecord) (requireStopped : Bool) (d : Volume)
    (calls : List Bool) :
    Spared decode d ((recoverMode decode requireStopped).run.runFor respond calls d).2 :=
  spared_of_within (Keeps.runFor (tries_recoverMode decode requireStopped d) calls).1

end Recovery

/-- A request whose socket refuses connections. -/
def sampleLeaf : String := "req-00000000000000000000000000000000"

def sampleFile (inode : UInt64) : Object :=
  { kind := .file, owned := true, mode := 0o600, nlink := 1, identity := (1, inode), content := [], connection := .failed }

def sampleRecord : AgentRecord :=
  { directory := (1, 10), socket := (1, 11), files := [("pending", (1, 12)), ("known_hosts", (1, 13))] }

def sampleDirectory : Object := { sampleFile 10 with kind := .directory, mode := 0o700 }

def sampleObjects (path : Path) : Option Object :=
  if path = (.top .agents, sampleLeaf) then some sampleDirectory
  else if path = (.inside .agents sampleLeaf, "pending") then some (sampleFile 12)
  else if path = (.inside .agents sampleLeaf, "known_hosts") then some (sampleFile 13)
  else if path = (.inside .agents sampleLeaf, "agent.json") then some { sampleFile 14 with content := sampleRecord.encode }
  else if path = (.sockets, socketName sampleLeaf) then
    some { sampleFile 11 with kind := .socket, connection := .refused }
  else none

def sampleOrder (place : Place) : List (Option String) :=
  if place = .top .agents then [some sampleLeaf]
  else if place = .inside .agents sampleLeaf then [some "pending", some "known_hosts", some "agent.json"]
  else if place = .sockets then [some (socketName sampleLeaf)]
  else []

def sample : Volume where
  tops _ := sampleDirectory
  objects := sampleObjects
  order := sampleOrder
  unique place := by
    unfold sampleOrder
    split_ifs <;> decide
  listed path h := by
    unfold sampleObjects at h
    unfold sampleOrder
    split_ifs at h with h1 h2 h3 h4 h5 <;> simp_all
  nested tree leaf name h := by
    unfold sampleObjects at h
    split_ifs at h with h1 h2 h3 h4 h5 <;> simp_all [sampleObjects, sampleDirectory]

def sampleDecode (bytes : List UInt8) : Option AgentRecord := if bytes = sampleRecord.encode then some sampleRecord else none

/-- The record is an entry that it does not record itself. -/
theorem record_removed : some "agent.json" ∈ sample.listing (.inside .agents sampleLeaf) ∧
    sampleRecord.files.lookup "agent.json" = none ∧
    sample.objects (.top .agents, sampleLeaf) = some sampleDirectory ∧
    ((recoverMode sampleDecode true).run.runFor respond (List.replicate 100 true) sample).2.objects
      (.top .agents, sampleLeaf) = none := by
  refine ⟨?_, ?_, ?_, ?_⟩
  · decide +kernel
  · decide +kernel
  · decide +kernel
  · decide +kernel

end VaultAccess.Analysis.Reclaiming
