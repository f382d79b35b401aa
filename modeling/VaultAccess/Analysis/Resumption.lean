import VaultAccess.Analysis.Reclaiming
import VaultAccess.Library.Documents

/-!
# Interrupted cleanups

The end of a request and the recovery may be cut short anywhere, as often as one likes. What
they leave of a prepared request is the request with some of its objects gone. From there a
recovery without faults succeeds as long as the record is still in the directory, or neither
the directory nor the socket is left; a directory that lost its record is never taken away.
-/

set_option autoImplicit false

namespace VaultAccess.Analysis.Resumption

open VaultAccess.Library VaultAccess.Library.Prog VaultAccess.Library.Text VaultAccess.Model.SshMaterial
open VaultAccess.Analysis.Reclaiming
open VaultAccess.Model (ExecutionError)

/-! ## Calls without faults -/

section Calls

variable {d : Volume}

theorem gives_refuseIf {error : ExecutionError} {condition : Bool} (h : condition = false) :
    Gives answer (refuseIf error condition) d () d := by
  unfold refuseIf
  rw [h]
  rfl

theorem gives_okOr {α : Type} {error : ExecutionError} {value : Option α} {a : α} (h : value = some a) :
    Gives answer (okOr error value) d a d := by
  rw [h]
  rfl

theorem gives_metadata : Gives answer metadata d () d := rfl

theorem gives_directory : Gives answer directory d () d := rfl

theorem gives_syncAll : Gives answer syncAll d () d := rfl

theorem gives_identity (o : Object) : Gives answer (identity o) d o.identity d := rfl

theorem gives_checkPrivate {o : Object} {directory : Bool} (h : o.isPrivate directory = true) :
    Gives answer (checkPrivate o directory) d () d := by
  unfold checkPrivate
  apply Gives.bind gives_metadata
  apply gives_refuseIf
  rw [h]
  rfl

theorem gives_openAt {path : Path} {o : Object} {directory : Bool} (h : d.objects path = some o)
    (hprivate : o.isPrivate directory = true) : Gives answer (openAt path directory) d o d := by
  unfold openAt
  apply Gives.bind Gives.act
  apply gives_okOr
  simp only [answer, h, Option.filter_some]
  rw [if_pos]
  cases directory <;> simp_all [Object.isPrivate]

theorem gives_same {path : Path} {o : Object} {directory : Bool} (h : d.objects path = some o)
    (hprivate : o.isPrivate directory = true) : Gives answer (same path o directory) d () d := by
  unfold same
  apply Gives.bind (gives_openAt h hprivate)
  apply Gives.bind (gives_checkPrivate hprivate)
  apply Gives.bind gives_metadata
  apply Gives.bind gives_metadata
  apply gives_refuseIf
  simp

theorem gives_ensureDirectory {place : Place} (h : (d.tops place).isPrivate true = true) :
    Gives answer (ensureDirectory place) d () d := by
  unfold ensureDirectory
  apply Gives.bind Gives.act
  apply Gives.bind (gives_refuseIf rfl)
  apply Gives.bind Gives.act
  apply Gives.bind (gives_okOr rfl)
  apply Gives.bind (gives_checkPrivate h)
  exact gives_syncAll

theorem mapM_id_map_some (names : List String) : (names.map some).mapM id = some names := by
  induction names with
  | nil => rfl
  | cons name names ih =>
    rw [List.map_cons, List.mapM_cons, ih]
    rfl

theorem gives_entries {place : Place} {names : List String} (h : d.listing place = names.map some) :
    Gives answer (entries place) d names d := by
  unfold entries
  apply Gives.bind Gives.act
  apply Gives.bind (gives_okOr rfl)
  apply gives_okOr
  rw [h, mapM_id_map_some]

/-- INTERNAL: what can be taken away is taken away. -/
theorem gives_remove {path : Path} {directory : Bool} (h : d.removable path directory = true) :
    Gives answer (remove path directory) d () (d.unlink path (d.hollow_of_removable h)) := by
  have hcall : answer (.unlinkAt path directory) d = (true, d.unlink path (d.hollow_of_removable h)) := dif_pos h
  unfold remove
  apply Gives.bind Gives.act
  rw [hcall]
  apply Gives.bind (gives_refuseIf rfl)
  exact gives_syncAll

theorem removable_of_private {path : Path} {o : Object} (h : d.objects path = some o)
    (hprivate : o.isPrivate false = true) : d.removable path false = true := by
  unfold Volume.removable
  rw [h]
  simp_all [Object.isPrivate]

end Calls

/-! ## Removals without faults -/

section Removals

variable {place : Place}

/-- Exactly these names are gone. -/
structure Without (place : Place) (names : List String) (d d' : Volume) : Prop where
  tops : d'.tops = d.tops
  order : d'.order = d.order
  gone : ∀ name ∈ names, d'.objects (place, name) = none
  kept : ∀ path, (∀ name ∈ names, path ≠ (place, name)) → d'.objects path = d.objects path

theorem Without.cons {names : List String} {name : String} {d d' : Volume} {hollow : d.Hollow (place, name)}
    (h : Without place names (d.unlink (place, name) hollow) d') : Without place (name :: names) d d' where
  tops := h.tops
  order := h.order
  gone other hother := by
    by_cases hmem : other ∈ names
    · exact h.gone other hmem
    · have heq : other = name := (List.mem_cons.mp hother).resolve_right hmem
      subst heq
      rw [h.kept (place, other) fun next hnext hpath => hmem ((Prod.mk.inj hpath).2 ▸ hnext)]
      exact unlink_self
  kept path hpath := by
    rw [h.kept path fun next hnext => hpath next (List.mem_cons_of_mem _ hnext)]
    exact unlink_of_ne (hpath name List.mem_cons_self)

theorem Without.nil (place : Place) (d : Volume) : Without place [] d d :=
  ⟨rfl, rfl, fun _ hname => absurd hname List.not_mem_nil, fun _ _ => rfl⟩

theorem Without.within {P : Path → Prop} {names : List String} {d d' : Volume} (h : Without place names d d')
    (hpath : ∀ name ∈ names, P (place, name)) : Thinned P d d' := by
  refine ⟨h.tops, h.order, ?_⟩
  intro path
  by_cases hmem : ∃ name ∈ names, path = (place, name)
  · obtain ⟨name, hname, rfl⟩ := hmem
    exact .inr ⟨h.gone name hname, hpath name hname⟩
  · exact .inl (h.kept path fun name hname heq => hmem ⟨name, hname, heq⟩)

theorem gives_removeFile {d : Volume} {name : String} {o : Object} (h : d.objects (place, name) = some o)
    (hprivate : o.isPrivate false = true) :
    ∃ d', Gives answer (remove (place, name) false) d () d' ∧ Without place [name] d d' := by
  have hremovable := removable_of_private h hprivate
  exact ⟨_, gives_remove hremovable, (Without.nil place _).cons⟩

/-- INTERNAL: private files are removed one after another. -/
theorem gives_removeAll (checked : List (String × Object)) {d : Volume} (hnodup : (checked.map Prod.fst).Nodup)
    (h : ∀ entry ∈ checked, d.objects (place, entry.1) = some entry.2 ∧ entry.2.isPrivate false = true) :
    ∃ d', Gives answer (removeAll place checked) d () d' ∧ Without place (checked.map Prod.fst) d d' := by
  induction checked generalizing d with
  | nil =>
    exact ⟨d, rfl, Without.nil place d⟩
  | cons entry checked ih =>
    obtain ⟨hnot, hnodup⟩ := List.nodup_cons.mp hnodup
    obtain ⟨hfile, hprivate⟩ := h entry List.mem_cons_self
    have hremovable := removable_of_private hfile hprivate
    have hrest : ∀ other ∈ checked,
        (d.unlink (place, entry.1) (d.hollow_of_removable hremovable)).objects (place, other.1) = some other.2 ∧
          other.2.isPrivate false = true := by
      intro other hother
      have hne : (place, other.1) ≠ (place, entry.1) := by
        intro heq
        apply hnot
        rw [← (Prod.mk.inj heq).2]
        exact List.mem_map_of_mem hother
      obtain ⟨hobject, hother⟩ := h other (List.mem_cons_of_mem _ hother)
      refine ⟨?_, hother⟩
      rw [← hobject]
      exact unlink_of_ne hne
    obtain ⟨d', hgives, hwithout⟩ := ih hnodup hrest
    refine ⟨d', ?_, hwithout.cons⟩
    unfold removeAll
    apply Gives.bind (gives_same hfile hprivate)
    apply Gives.bind (gives_remove hremovable)
    exact hgives

end Removals

/-! ## A request that can be taken away -/

section Request

variable {decode : List UInt8 → Option AgentRecord} {d : Volume} {leaf : String} {dir recordFile : Object}
  {record : AgentRecord} {place : Place}

theorem gives_checkRecorded (names : List String) (h : ∀ name ∈ names, name = "agent.json" ∨
      ∃ o, d.objects (place, name) = some o ∧ Recorded record name o) :
    ∃ checked, Gives answer (checkRecorded place record names) d checked d ∧
      checked.map Prod.fst = names.filter (· ≠ "agent.json") ∧
      ∀ entry ∈ checked, d.objects (place, entry.1) = some entry.2 ∧ entry.2.isPrivate false = true := by
  induction names with
  | nil => exact ⟨[], rfl, rfl, fun entry hentry => absurd hentry List.not_mem_nil⟩
  | cons name names ih =>
    obtain ⟨checked, hgives, hnames, hfiles⟩ := ih fun other hother => h other (List.mem_cons_of_mem _ hother)
    unfold checkRecorded
    by_cases hname : name = "agent.json"
    · refine ⟨checked, ?_, ?_, hfiles⟩
      · rw [if_pos hname]
        exact hgives
      · simp [hnames, hname]
    · obtain ⟨o, ho, expected, hexpected, hprivate, hidentity⟩ := (h name List.mem_cons_self).resolve_left hname
      refine ⟨(name, o) :: checked, ?_, ?_, List.forall_mem_cons.mpr ⟨⟨ho, hprivate⟩, hfiles⟩⟩
      · rw [if_neg hname]
        apply Gives.bind (gives_okOr hexpected)
        apply Gives.bind (gives_openAt ho hprivate)
        apply Gives.bind (gives_checkPrivate hprivate)
        apply Gives.bind (gives_identity o)
        apply Gives.bind (gives_refuseIf (by simp [hidentity]))
        apply Gives.bind hgives
        exact Gives.pure
      · simp [hnames, hname]

theorem gives_readRecord (hstale : Stale decode d leaf dir recordFile record) (hpublic : record.isPublic = true)
    (hsize : recordFile.content.length ≤ 4096) : Gives answer (readRecord decode leaf dir) d record d := by
  have htake : recordFile.content.take 4097 = recordFile.content := List.take_of_length_le (by omega)
  unfold readRecord
  apply Gives.bind Gives.act
  apply Gives.bind (gives_okOr (a := recordFile.content) (by simp [answer, hstale.hasRecord, htake]))
  apply Gives.bind (gives_refuseIf (by simp; omega))
  apply Gives.bind (gives_okOr (htake ▸ hstale.decoded))
  apply Gives.bind (gives_identity dir)
  apply Gives.bind (gives_refuseIf (by simp [hstale.dirRecorded, hpublic]))
  exact Gives.pure

theorem gives_socketLeaf (h : requestName leaf = true) : Gives answer (socketLeaf leaf) d (socketName leaf) d := by
  unfold socketLeaf
  apply Gives.bind (gives_refuseIf (by simp [h]))
  exact Gives.pure

/-- INTERNAL: a stale socket is taken away. -/
theorem gives_reclaimSocket {name : String} (requireStopped : Bool)
    (hclosed : Closed record (d.objects (.sockets, name))) :
    ∃ d', Gives answer (reclaimSocket record (.sockets, name) requireStopped) d true d' ∧
      Without .sockets [name] d d' := by
  cases hsocket : d.objects (.sockets, name) with
  | none =>
    refine ⟨d, ?_, rfl, rfl, ?_, fun _ _ => rfl⟩
    · unfold reclaimSocket
      apply Gives.bind Gives.act
      simp only [answer, hsocket, Option.map_none, Option.getD_none]
      exact Gives.pure
    · intro other hother
      rw [List.mem_singleton.mp hother]
      exact hsocket
  | some o =>
    obtain ⟨hrecorded, hrefused⟩ := hclosed o hsocket
    have hkind : o.kind = .socket ∧ o.identity = record.socket := by
      simp only [Object.isRecordedSocket, Bool.and_eq_true, decide_eq_true_eq] at hrecorded
      exact ⟨hrecorded.1.1.1.1, hrecorded.2⟩
    have hremovable : d.removable (.sockets, name) false = true := by
      unfold Volume.removable
      rw [hsocket]
      simp [hkind.1]
    refine ⟨d.unlink (.sockets, name) (d.hollow_of_removable hremovable), ?_, ?_⟩
    · unfold reclaimSocket
      apply Gives.bind Gives.act
      simp only [answer, hsocket, Option.map_some, Option.getD_some]
      apply Gives.bind (gives_refuseIf (by simp [hrecorded]))
      apply Gives.bind Gives.act
      apply Gives.bind (gives_refuseIf rfl)
      apply Gives.bind Gives.act
      simp only [answer, hsocket, Option.map_some, Option.getD_some, hrefused]
      apply Gives.bind Gives.act
      simp only [answer, hsocket, Option.map_some, Option.getD_some]
      apply Gives.bind (gives_refuseIf (by simp [hkind.2]))
      apply Gives.bind (gives_remove hremovable)
      exact Gives.pure
    · exact (Without.nil .sockets _).cons

/-- INTERNAL: nothing is listed once every listed name is gone. -/
theorem listing_empty {d' : Volume} {names : List String} (hnames : d.listing place = names.map some)
    (horder : d'.order = d.order) (hgone : ∀ name ∈ names, d'.objects (place, name) = none)
    (hkept : ∀ name, d'.objects (place, name) = none ∨ d'.objects (place, name) = d.objects (place, name)) :
    d'.listing place = [] := by
  apply List.filter_eq_nil_iff.mpr
  intro entry hentry
  rw [horder] at hentry
  cases entry with
  | none =>
    have hlisted : none ∈ d.listing place := List.mem_filter.mpr ⟨hentry, rfl⟩
    rw [hnames] at hlisted
    simp at hlisted
  | some name =>
    intro hpresent
    have hsome : (d'.objects (place, name)).isSome := hpresent
    have hsame := (hkept name).resolve_left (Option.isSome_iff_ne_none.mp hsome)
    rw [hsame] at hsome
    have hlisted : some name ∈ d.listing place := List.mem_filter.mpr ⟨hentry, hsome⟩
    rw [hnames] at hlisted
    have hname : name ∈ names := by simpa using hlisted
    have hnone := hgone name hname
    rw [hsame] at hnone
    rw [hnone] at hsome
    cases hsome

/-- The request and its socket are gone; nothing else is. -/
structure Reclaimed (leaf : String) (d d' : Volume) : Prop where
  within : Thinned (Belongs leaf) d d'
  dir : d'.objects (.top .agents, leaf) = none
  socket : d'.objects (.sockets, socketName leaf) = none

/-- INTERNAL: the request goes after its socket. -/
theorem gives_removeRequest {d' : Volume} {names : List String} {checked : List (String × Object)}
    (hstale : Stale decode d leaf dir recordFile record)
    (hnames : d.listing (.inside .agents leaf) = names.map some)
    (hchecked : checked.map Prod.fst = names.filter (· ≠ "agent.json"))
    (hfiles : ∀ entry ∈ checked, d.objects (.inside .agents leaf, entry.1) = some entry.2 ∧
      entry.2.isPrivate false = true)
    (hsocket : Without .sockets [socketName leaf] d d') :
    ∃ d'', Gives answer (removeRequest leaf dir recordFile checked) d' () d'' ∧ Reclaimed leaf d d'' := by
  have hother : ∀ path : Path, path.1 ≠ .sockets → d'.objects path = d.objects path := by
    intro path hpath
    apply hsocket.kept
    rintro name _ rfl
    exact hpath rfl
  have hinside : ∀ name, d'.objects (.inside .agents leaf, name) = d.objects (.inside .agents leaf, name) :=
    fun name => hother _ (by simp)
  have hdir' : d'.objects (.top .agents, leaf) = some dir := by
    rw [hother _ (by simp)]
    exact hstale.hasDir
  have hrecord' : d'.objects (.inside .agents leaf, "agent.json") = some recordFile := by
    rw [hinside]
    exact hstale.hasRecord
  have hnodup : (checked.map Prod.fst).Nodup := by
    rw [hchecked]
    exact (nodup_of_listing hnames).filter _
  obtain ⟨d₂, hgives₂, hwithout₂⟩ := gives_removeAll checked hnodup (d := d')
    (fun entry hentry => hinside entry.1 ▸ hfiles entry hentry)
  have hdir₂ : d₂.objects (.top .agents, leaf) = some dir := by
    rw [hwithout₂.kept _ (by simp)]
    exact hdir'
  have hrecord₂ : d₂.objects (.inside .agents leaf, "agent.json") = some recordFile := by
    rw [hwithout₂.kept, hrecord']
    intro name hname heq
    rw [hchecked] at hname
    have hne := (List.mem_filter.mp hname).2
    simp only [Prod.mk.injEq, true_and] at heq
    simp [← heq] at hne
  obtain ⟨d₃, hgives₃, hwithout₃⟩ := gives_removeFile hrecord₂ hstale.recordPrivate
  have hdir₃ : d₃.objects (.top .agents, leaf) = some dir := by
    rw [hwithout₃.kept _ (by simp)]
    exact hdir₂
  have hgone : ∀ name ∈ names, d₃.objects (.inside .agents leaf, name) = none := by
    intro name hname
    by_cases hrecord : name = "agent.json"
    · exact hwithout₃.gone name (List.mem_singleton.mpr hrecord)
    · rw [hwithout₃.kept _ (by simp [hrecord])]
      apply hwithout₂.gone
      rw [hchecked]
      exact List.mem_filter.mpr ⟨hname, by simpa using hrecord⟩
  have hwithin : Thinned (Belongs leaf) d d₃ := by
    have hsocketPath : ∀ name ∈ [socketName leaf], Belongs leaf (.sockets, name) := by
      intro name hname
      rw [List.mem_singleton.mp hname]
      exact .inr (.inr ⟨hstale.named, rfl⟩)
    have h₁ := hsocket.within hsocketPath
    have h₂ := hwithout₂.within (P := Belongs leaf) fun _ _ => .inr (.inl rfl)
    have h₃ := hwithout₃.within (P := Belongs leaf) fun _ _ => .inr (.inl rfl)
    exact (h₁.trans h₂).trans h₃
  have hempty : d₃.listing (.inside .agents leaf) = [] := by
    apply listing_empty hnames hwithin.order hgone
    intro name
    exact (hwithin.objects (.inside .agents leaf, name)).symm.imp And.left id
  have hremovable : d₃.removable (.top .agents, leaf) true = true := by
    have hkind : dir.kind = .directory := by
      have hprivate := hstale.dirPrivate
      simp only [Object.isPrivate, if_true, Bool.and_eq_true, decide_eq_true_eq] at hprivate
      exact hprivate.2
    unfold Volume.removable
    rw [hdir₃]
    simp [hkind, hempty]
  refine ⟨d₃.unlink _ (d₃.hollow_of_removable hremovable), ?_, ?_, ?_, ?_⟩
  · unfold removeRequest
    apply Gives.bind (gives_same hdir' hstale.dirPrivate)
    apply Gives.bind (gives_same hrecord' hstale.recordPrivate)
    apply Gives.bind hgives₂
    apply Gives.bind (gives_same hrecord₂ hstale.recordPrivate)
    apply Gives.bind hgives₃
    apply Gives.bind (gives_same hdir₃ hstale.dirPrivate)
    exact gives_remove hremovable
  · exact hwithin.unlink (.inl rfl) _
  · exact unlink_self
  · rw [unlink_of_ne (by simp), hwithout₃.kept _ (by simp), hwithout₂.kept _ (by simp)]
    exact hsocket.gone _ (List.mem_singleton_self _)

/-- INTERNAL: a listing without odd names. -/
theorem eq_map_some {l : List (Option String)} (h : ∀ entry ∈ l, ∃ name, entry = some name) :
    ∃ names : List String, l = names.map some := by
  induction l with
  | nil => exact ⟨[], rfl⟩
  | cons entry l ih =>
    obtain ⟨name, rfl⟩ := h _ List.mem_cons_self
    obtain ⟨names, rfl⟩ := ih fun other hother => h other (List.mem_cons_of_mem _ hother)
    exact ⟨name :: names, rfl⟩

/-- **A request whose every entry is recorded and where nothing listens is taken away.** -/
theorem gives_recoverAgent (requireStopped : Bool) (hstale : Stale decode d leaf dir recordFile record)
    (htops : ∀ place, (d.tops place).isPrivate true = true) (hpublic : record.isPublic = true)
    (hsize : recordFile.content.length ≤ 4096) :
    ∃ d', Gives answer (recoverAgent decode leaf requireStopped) d () d' ∧ Reclaimed leaf d d' := by
  obtain ⟨names, hnames⟩ := eq_map_some (l := d.listing (.inside .agents leaf)) fun entry hentry =>
    (hstale.entries entry hentry).imp fun _ h => h.1
  have hentries : ∀ name ∈ names, name = "agent.json" ∨
      ∃ o, d.objects (.inside .agents leaf, name) = some o ∧ Recorded record name o := by
    intro name hname
    have hlisted : some name ∈ d.listing (.inside .agents leaf) := by
      rw [hnames]
      exact List.mem_map_of_mem hname
    obtain ⟨other, hother, hrecorded⟩ := hstale.entries _ hlisted
    rw [Option.some.inj hother]
    exact hrecorded
  obtain ⟨checked, hcheck, hchecked, hfiles⟩ := gives_checkRecorded names hentries
  obtain ⟨d₁, hreclaim, hsocket⟩ := gives_reclaimSocket requireStopped hstale.closed
  obtain ⟨d₂, hremove, hreclaimed⟩ := gives_removeRequest hstale hnames hchecked hfiles hsocket
  refine ⟨d₂, ?_, hreclaimed⟩
  unfold recoverAgent
  apply Gives.bind (gives_refuseIf (by simp [hstale.named]))
  apply Gives.bind (gives_openAt hstale.hasDir hstale.dirPrivate)
  apply Gives.bind (gives_checkPrivate hstale.dirPrivate)
  apply Gives.bind (gives_openAt hstale.hasRecord hstale.recordPrivate)
  apply Gives.bind (gives_checkPrivate hstale.recordPrivate)
  apply Gives.bind (gives_readRecord hstale hpublic hsize)
  apply Gives.bind (gives_entries hnames)
  apply Gives.bind hcheck
  apply Gives.bind (gives_same hstale.hasDir hstale.dirPrivate)
  apply Gives.bind (gives_same hstale.hasRecord hstale.recordPrivate)
  apply Gives.bind gives_directory
  apply Gives.bind (gives_ensureDirectory (htops _))
  apply Gives.bind (gives_socketLeaf hstale.named)
  apply Gives.bind hreclaim
  exact hremove

end Request

/-! ## Prepared requests -/

/-- A request that was fully prepared and whose socket does not listen any more, beside
historical requests that are kept. -/
structure Prepared (decode : List UInt8 → Option AgentRecord) where
  volume : Volume
  leaf : String
  dir : Object
  pending : Object
  knownHosts : Object
  recordFile : Object
  record : AgentRecord
  tops : ∀ place, (volume.tops place).isPrivate true = true
  alone : volume.order (.top .agents) = [some leaf]
  named : requestName leaf = true
  hasDir : volume.objects (.top .agents, leaf) = some dir
  dirPrivate : dir.isPrivate true = true
  entries : ∀ entry ∈ volume.listing (.inside .agents leaf),
    entry = some "pending" ∨ entry = some "known_hosts" ∨ entry = some "agent.json"
  hasPending : volume.objects (.inside .agents leaf, "pending") = some pending
  pendingPrivate : pending.isPrivate false = true
  hasKnownHosts : volume.objects (.inside .agents leaf, "known_hosts") = some knownHosts
  knownHostsPrivate : knownHosts.isPrivate false = true
  hasRecord : volume.objects (.inside .agents leaf, "agent.json") = some recordFile
  recordPrivate : recordFile.isPrivate false = true
  content : recordFile.content = record.encode
  /-- What was written is read back. -/
  decoded : decode record.encode = some record
  directory : record.directory = dir.identity
  files : record.files = [("pending", pending.identity), ("known_hosts", knownHosts.identity)]
  /-- The socket is gone already, or it is there and refuses. -/
  closed : Closed record (volume.objects (.sockets, socketName leaf))
  /-- The names in the other tree are of requests that were handed over. -/
  historical : ∀ entry ∈ volume.order (.top .requests), ∃ name, entry = some name ∧ requestName name = true ∧
    (∃ o, volume.objects (.top .requests, name) = some o ∧ o.isPrivate true = true) ∧
    ∃ names, volume.listing (.inside .requests name) = names.map some ∧ unused names = false

/-- An interrupted call: the end of the request, once more or again, or a recovery. It stops
where its system calls do. -/
inductive Attempt where
  | finalize (finished : Bool) (calls : List Bool)
  | recover (requireStopped : Bool) (calls : List Bool)
  deriving DecidableEq, Repr

section Runs

variable {decode : List UInt8 → Option AgentRecord} (p : Prepared decode)

/-- The request as the provider holds it. -/
def Prepared.material (finished : Bool) : Material :=
  { leaf := p.leaf, dir := p.dir, socketName := socketName p.leaf, socketIdentity := p.record.socket, finished }

def Prepared.step (d : Volume) : Attempt → Volume
  | .finalize finished calls => ((finalize (p.material finished)).run.runFor respond calls d).2
  | .recover requireStopped calls => ((recoverMode decode requireStopped).run.runFor respond calls d).2

/-- What interrupted calls leave. -/
def Prepared.run (attempts : List Attempt) : Volume := attempts.foldl p.step p.volume

/-- Without faults, a recovery returns `Ok` and the request and its socket are gone. -/
def Prepared.Recovers (requireStopped : Bool) (d : Volume) : Prop :=
  ∃ d', Gives answer (recoverMode decode requireStopped) d () d' ∧
    d'.objects (.top .agents, p.leaf) = none ∧ d'.objects (.sockets, socketName p.leaf) = none

/-- **The record is still in the directory, or neither the directory nor the socket is left.** -/
def Prepared.Resumable (d : Volume) : Prop :=
  (d.objects (.inside .agents p.leaf, "agent.json")).isSome ∨
    (d.objects (.top .agents, p.leaf) = none ∧ d.objects (.sockets, socketName p.leaf) = none)

/-! ## What interrupted calls leave -/

variable {p} {d : Volume}

/-- INTERNAL: the end of a request takes away what belongs to it. -/
theorem tries_finalize (finished : Bool) (hd : Thinned (Belongs p.leaf) p.volume d) :
    Tries respond (Thinned (Belongs p.leaf) p.volume) (finalize (p.material finished)) (fun _ _ => True) d := by
  have hsocket : Belongs p.leaf (.sockets, socketName p.leaf) := .inr (.inr ⟨p.named, rfl⟩)
  have hclose : Tries respond (Thinned (Belongs p.leaf) p.volume) (close (p.material finished)) (fun _ _ => True) d := by
    unfold close
    apply Tries.bind (tries_read rfl hd)
    rintro reply d' hd' ⟨rfl, _⟩
    cases reply with
    | notFound => exact Tries.pure hd' trivial
    | failed => exact Tries.pure hd' trivial
    | found o =>
      dsimp only
      split
      · apply Tries.bind (tries_unlinkAt hsocket hd')
        intro _ d' hd' _
        exact Tries.pure hd' trivial
      · exact Tries.pure hd' trivial
  unfold finalize
  apply Tries.bind hclose
  intro _ d' hd' _
  split
  · exact Tries.pure hd' trivial
  · apply Tries.bind (tries_entries hd')
    rintro names d' hd' ⟨rfl, _⟩
    apply Tries.bind (tries_refuseIf hd')
    rintro _ d' hd' ⟨rfl, _⟩
    exact tries_cleanup (fun _ _ _ => ⟨.inl rfl, fun _ => .inr (.inl rfl)⟩) hd'

/-- INTERNAL: the historical requests are as they were. -/
theorem requests_eq (hd : Thinned (Belongs p.leaf) p.volume d) {path : Path}
    (hpath : path.1 = .top .requests ∨ ∃ leaf, path.1 = .inside .requests leaf) :
    d.objects path = p.volume.objects path := by
  apply hd.kept
  rintro (rfl | hinside | ⟨_, rfl⟩)
  · simp at hpath
  · simp [hinside] at hpath
  · simp at hpath

/-- INTERNAL: a recovery finds nothing to take away but the request. -/
theorem belongs_of_permitted (hd : Thinned (Belongs p.leaf) p.volume d) {path : Path}
    (h : Permitted decode d path) : Belongs p.leaf path := by
  rcases h with ⟨leaf, hbelongs, dir, _, _, hstale⟩ | ⟨leaf, _, hunused⟩
  · have hlisted := d.listed (.top .agents, leaf) (by simp [hstale.hasDir])
    rw [hd.order, p.alone] at hlisted
    have hleaf : leaf = p.leaf := by simpa using hlisted
    rw [← hleaf]
    exact hbelongs
  · obtain ⟨o, ho, _⟩ := hunused.dir
    have hlisted := d.listed (.top .requests, leaf) (by simp [ho])
    rw [hd.order] at hlisted
    obtain ⟨name, hname, _, _, names, hnames, hkept⟩ := p.historical _ hlisted
    obtain rfl := Option.some.inj hname
    obtain ⟨names', hnames', hunused, _⟩ := hunused.entries
    rw [listing_eq hd.order fun _ => requests_eq hd (.inr ⟨_, rfl⟩), hnames] at hnames'
    have hsame := List.map_injective_iff.mpr (Option.some_injective String) hnames'
    rw [hsame, hunused] at hkept
    cases hkept

/-- **One interrupted call takes away what belongs to the request at most.** -/
theorem within_step (hd : Thinned (Belongs p.leaf) p.volume d) (attempt : Attempt) :
    Thinned (Belongs p.leaf) p.volume (p.step d attempt) := by
  cases attempt with
  | finalize finished calls => exact (Keeps.runFor (tries_finalize finished hd) calls).1
  | recover requireStopped calls =>
    apply hd.trans
    apply (Keeps.runFor (tries_recoverMode decode requireStopped d) calls).1.mono
    intro path hpath
    exact belongs_of_permitted hd hpath

theorem within_foldl (hd : Thinned (Belongs p.leaf) p.volume d) (attempts : List Attempt) :
    Thinned (Belongs p.leaf) p.volume (attempts.foldl p.step d) := by
  induction attempts generalizing d with
  | nil => exact hd
  | cons attempt attempts ih => exact ih (within_step hd attempt)

/-! ## Recovery without faults -/

theorem gives_recoverRequests (names : List String) (h : ∀ name ∈ names, requestName name = true ∧
      (∃ o, d.objects (.top .requests, name) = some o ∧ o.isPrivate true = true) ∧
      ∃ entries, d.listing (.inside .requests name) = entries.map some ∧ unused entries = false) :
    Gives answer (recoverRequests names) d () d := by
  induction names with
  | nil => exact Gives.pure
  | cons name names ih =>
    obtain ⟨hnamed, ⟨o, ho, hprivate⟩, entries, hentries, hkept⟩ := h name List.mem_cons_self
    unfold recoverRequests
    apply Gives.bind (gives_refuseIf (by simp [hnamed]))
    apply Gives.bind (gives_openAt ho hprivate)
    apply Gives.bind (gives_checkPrivate hprivate)
    apply Gives.bind (gives_entries hentries)
    have hcleanup : Gives answer (cleanupUnused name o entries) d () d := by
      unfold cleanupUnused
      rw [hkept]
      exact Gives.pure
    apply Gives.bind hcleanup
    exact ih fun other hother => h other (List.mem_cons_of_mem _ hother)

/-- INTERNAL: the loop over the historical requests leaves them. -/
theorem gives_requests (hd : Thinned (Belongs p.leaf) p.volume d) :
    ∃ names : List String, d.listing (.top .requests) = names.map some ∧
      Gives answer (recoverRequests names) d () d := by
  have hhistorical : ∀ entry ∈ d.listing (.top .requests), ∃ name, entry = some name ∧ requestName name = true ∧
      (∃ o, d.objects (.top .requests, name) = some o ∧ o.isPrivate true = true) ∧
      ∃ names, d.listing (.inside .requests name) = names.map some ∧ unused names = false := by
    intro entry hentry
    have horder := (List.mem_filter.mp hentry).1
    rw [hd.order] at horder
    obtain ⟨name, hname, hnamed, hdir, hnames⟩ := p.historical entry horder
    rw [← requests_eq hd (.inl rfl)] at hdir
    rw [← listing_eq hd.order fun _ => requests_eq hd (.inr ⟨_, rfl⟩)] at hnames
    exact ⟨name, hname, hnamed, hdir, hnames⟩
  obtain ⟨names, hnames⟩ := eq_map_some fun entry hentry => (hhistorical entry hentry).imp fun _ h => h.1
  refine ⟨names, hnames, gives_recoverRequests names ?_⟩
  intro name hname
  have hlisted : some name ∈ d.listing (.top .requests) := by
    rw [hnames]
    exact List.mem_map_of_mem hname
  obtain ⟨other, hother, hfacts⟩ := hhistorical _ hlisted
  rw [Option.some.inj hother]
  exact hfacts

/-- INTERNAL: the recovery, from what it does with the requests that have a record. -/
theorem gives_recoverMode {requireStopped : Bool} {leaves : List String} {d' : Volume}
    (hd : Thinned (Belongs p.leaf) p.volume d) (hd' : Thinned (Belongs p.leaf) p.volume d')
    (hleaves : d.listing (.top .agents) = leaves.map some)
    (h : Gives answer (recoverAgents decode requireStopped leaves) d false d') :
    Gives answer (recoverMode decode requireStopped) d () d' := by
  obtain ⟨names, hnames, hrequests⟩ := gives_requests hd'
  unfold recoverMode
  apply Gives.bind gives_directory
  apply Gives.bind (gives_ensureDirectory (hd.tops ▸ p.tops _))
  apply Gives.bind (gives_entries hleaves)
  apply Gives.bind h
  apply Gives.bind (gives_ensureDirectory (hd'.tops ▸ p.tops _))
  apply Gives.bind (gives_entries hnames)
  apply Gives.bind hrequests
  exact gives_refuseIf rfl

theorem fails_recoverMode {requireStopped : Bool} {leaves : List String} {d' : Volume}
    (hd : Thinned (Belongs p.leaf) p.volume d) (hd' : Thinned (Belongs p.leaf) p.volume d')
    (hleaves : d.listing (.top .agents) = leaves.map some)
    (h : Gives answer (recoverAgents decode requireStopped leaves) d true d') :
    Fails answer (recoverMode decode requireStopped) d .cleanupUncertain d' := by
  obtain ⟨names, hnames, hrequests⟩ := gives_requests hd'
  unfold recoverMode
  apply Gives.bind_fails gives_directory
  apply Gives.bind_fails (gives_ensureDirectory (hd.tops ▸ p.tops _))
  apply Gives.bind_fails (gives_entries hleaves)
  apply Gives.bind_fails h
  apply Gives.bind_fails (gives_ensureDirectory (hd'.tops ▸ p.tops _))
  apply Gives.bind_fails (gives_entries hnames)
  apply Gives.bind_fails hrequests
  rfl

/-- INTERNAL: two numbers of 64 bits. -/
theorem size_identityJson (i : Identity) : Json.size (identityJson i) ≤ 44 := by
  have hnumber : ∀ n : UInt64, Json.size (.int n.toNat) ≤ 20 := by
    intro n
    have hlt := n.toNat_lt
    exact Json.size_nat_le (by omega) (by omega)
  have hfirst := hnumber i.1
  have hsecond := hnumber i.2
  have hsize := Json.size_arr_le [.int i.1.toNat, .int i.2.toNat]
  simp only [List.map_cons, List.map_nil, List.sum_cons, List.sum_nil] at hsize
  unfold identityJson
  omega

/-- INTERNAL: the record of a prepared request is read whole. -/
theorem length_encode (p : Prepared decode) : p.recordFile.content.length ≤ 4096 := by
  have hquote : ∀ name : String, name ∈ ["directory", "socket", "files", "pending", "known_hosts"] →
      Json.weight (Json.quote name) ≤ 13 := by decide +kernel
  have hfile : ∀ file ∈ p.record.files, Json.size (.arr [.str file.1, identityJson file.2]) + 1 ≤ 62 := by
    intro file hfile
    have hname : Json.size (.str file.1) ≤ 13 := by
      apply hquote
      rw [p.files] at hfile
      simp only [List.mem_cons, List.not_mem_nil, or_false] at hfile
      rcases hfile with rfl | rfl <;> simp
    have hidentity := size_identityJson file.2
    have hsize := Json.size_arr_le [.str file.1, identityJson file.2]
    simp only [List.map_cons, List.map_nil, List.sum_cons, List.sum_nil] at hsize
    omega
  have hfiles := Json.size_arr_map_le hfile
  rw [p.files, List.length_cons, List.length_singleton] at hfiles
  have hdirectory := size_identityJson p.record.directory
  have hsocket := size_identityJson p.record.socket
  have hnames := hquote "directory" (by simp)
  have hnames' := hquote "socket" (by simp)
  have hnames'' := hquote "files" (by simp)
  have hsize := Json.size_obj_le [("directory", identityJson p.record.directory),
    ("socket", identityJson p.record.socket),
    ("files", .arr (p.record.files.map fun file => .arr [.str file.1, identityJson file.2]))]
  simp only [List.map_cons, List.map_nil, List.sum_cons, List.sum_nil, p.files] at hsize
  rw [p.content, AgentRecord.encode, Json.length_toVec]
  simp only [p.files]
  simp only [List.map_cons, List.map_nil] at hfiles ⊢
  omega

theorem listing_agents (hd : Thinned (Belongs p.leaf) p.volume d) : d.listing (.top .agents) =
    if (d.objects (.top .agents, p.leaf)).isSome then [some p.leaf] else [] := by
  unfold Volume.listing
  rw [hd.order, p.alone, List.filter_cons, List.filter_nil]
  rfl

/-- INTERNAL: while the record is there, everything that is there is recorded. -/
theorem stale_of_record (hd : Thinned (Belongs p.leaf) p.volume d)
    (hrecord : (d.objects (.inside .agents p.leaf, "agent.json")).isSome) :
    Stale decode d p.leaf p.dir p.recordFile p.record := by
  have hfile : ∀ {path : Path} {o : Object}, d.objects path = some o → p.volume.objects path = some o := by
    intro path o ho
    rcases hd.objects path with hsame | ⟨hnone, _⟩
    · rw [← hsame, ho]
    · rw [hnone] at ho
      cases ho
  have hpresent : ∀ {path : Path}, (d.objects path).isSome → d.objects path = p.volume.objects path := by
    intro path hpath
    obtain ⟨o, ho⟩ := Option.isSome_iff_exists.mp hpath
    rw [ho, hfile ho]
  obtain ⟨dir, hdir, _⟩ := d.nested _ _ _ hrecord
  refine ⟨p.named, p.dirPrivate, p.recordPrivate, ?_, p.directory.symm, ?_, ?_, ?_, ?_⟩
  · rw [List.take_of_length_le (by have := length_encode p; omega), p.content]
    exact p.decoded
  · rw [hpresent (by simp [hdir])]
    exact p.hasDir
  · rw [hpresent hrecord]
    exact p.hasRecord
  · intro entry hentry
    obtain ⟨horder, hthere⟩ := List.mem_filter.mp hentry
    have hlisted : entry ∈ p.volume.listing (.inside .agents p.leaf) := by
      apply List.mem_filter.mpr
      refine ⟨hd.order ▸ horder, ?_⟩
      cases entry with
      | none => rfl
      | some name =>
        have hthere : (d.objects (.inside .agents p.leaf, name)).isSome := hthere
        have hsame := hpresent hthere
        rw [hsame] at hthere
        exact hthere
    rcases p.entries entry hlisted with rfl | rfl | rfl
    · refine ⟨"pending", rfl, .inr ⟨p.pending, ?_, p.pending.identity, ?_, p.pendingPrivate, rfl⟩⟩
      · rw [hpresent hthere]
        exact p.hasPending
      · rw [p.files]
        rfl
    · refine ⟨"known_hosts", rfl, .inr ⟨p.knownHosts, ?_, p.knownHosts.identity, ?_, p.knownHostsPrivate, rfl⟩⟩
      · rw [hpresent hthere]
        exact p.hasKnownHosts
      · rw [p.files]
        rfl
    · exact ⟨"agent.json", rfl, .inl rfl⟩
  · intro o ho
    exact p.closed o (hfile ho)

theorem isPublic_record (p : Prepared decode) : p.record.isPublic = true := by
  unfold AgentRecord.isPublic
  rw [p.files]
  rfl

/-- INTERNAL: while the record is there, a recovery takes the request away. -/
theorem recovers_of_record {requireStopped : Bool} (hd : Thinned (Belongs p.leaf) p.volume d)
    (hrecord : (d.objects (.inside .agents p.leaf, "agent.json")).isSome) : p.Recovers requireStopped d := by
  have hstale := stale_of_record hd hrecord
  obtain ⟨d', hgives, hreclaimed⟩ := gives_recoverAgent requireStopped hstale (fun _ => hd.tops ▸ p.tops _)
    (isPublic_record p) (length_encode p)
  have hleaves : d.listing (.top .agents) = [p.leaf].map some := by
    rw [listing_agents hd, hstale.hasDir]
    rfl
  have hagents : Gives answer (recoverAgents decode requireStopped [p.leaf]) d false d' := by
    unfold recoverAgents
    apply Gives.bind hgives.attempt
    apply Gives.bind Gives.pure
    exact Gives.pure
  exact ⟨d', gives_recoverMode hd (hd.trans hreclaimed.within) hleaves hagents, hreclaimed.dir, hreclaimed.socket⟩

/-- INTERNAL: without the directory, a recovery does nothing. -/
theorem gives_of_absent {requireStopped : Bool} (hd : Thinned (Belongs p.leaf) p.volume d)
    (hdir : d.objects (.top .agents, p.leaf) = none) : Gives answer (recoverMode decode requireStopped) d () d := by
  have hleaves : d.listing (.top .agents) = ([] : List String).map some := by
    rw [listing_agents hd, hdir]
    rfl
  exact gives_recoverMode hd hd hleaves Gives.pure

/-- INTERNAL: a directory without its record makes every recovery fail. -/
theorem fails_of_lost {requireStopped : Bool} (hd : Thinned (Belongs p.leaf) p.volume d)
    (hdir : (d.objects (.top .agents, p.leaf)).isSome)
    (hrecord : d.objects (.inside .agents p.leaf, "agent.json") = none) :
    Fails answer (recoverMode decode requireStopped) d .cleanupUncertain d := by
  have hsame : d.objects (.top .agents, p.leaf) = some p.dir := by
    rcases hd.objects (.top .agents, p.leaf) with hsame | ⟨hnone, _⟩
    · rw [hsame, p.hasDir]
    · rw [hnone] at hdir
      cases hdir
  have hleaves : d.listing (.top .agents) = [p.leaf].map some := by
    rw [listing_agents hd, hsame]
    rfl
  have hopen : Fails answer (openAt (.inside .agents p.leaf, "agent.json") false) d .unsafePath d := by
    unfold openAt
    apply Gives.bind_fails Gives.act
    simp only [answer, hrecord]
    rfl
  have hagent : Fails answer (recoverAgent decode p.leaf requireStopped) d .unsafePath d := by
    unfold recoverAgent
    apply Gives.bind_fails (gives_refuseIf (by simp [p.named]))
    apply Gives.bind_fails (gives_openAt hsame p.dirPrivate)
    apply Gives.bind_fails (gives_checkPrivate p.dirPrivate)
    exact hopen.bind
  have hagents : Gives answer (recoverAgents decode requireStopped [p.leaf]) d true d := by
    unfold recoverAgents
    apply Gives.bind hagent.attempt
    apply Gives.bind Gives.pure
    exact Gives.pure
  exact fails_recoverMode hd hd hleaves hagents

/-- INTERNAL: the two sides, for whatever was left of the request. -/
theorem recovers_iff {requireStopped : Bool} (hd : Thinned (Belongs p.leaf) p.volume d) :
    p.Recovers requireStopped d ↔ p.Resumable d := by
  constructor
  · rintro ⟨d', hgives, _, hsocket⟩
    by_contra hnot
    simp only [Prepared.Resumable, not_or, not_and, Option.not_isSome_iff_eq_none] at hnot
    cases hdir : d.objects (.top .agents, p.leaf) with
    | some dir => exact (fails_of_lost hd (by simp [hdir]) hnot.1).not_gives hgives
    | none =>
      obtain ⟨_, rfl⟩ := hgives.unique (gives_of_absent hd hdir)
      exact hnot.2 hdir hsocket
  · rintro (hrecord | ⟨hdir, hsocket⟩)
    · exact recovers_of_record hd hrecord
    · exact ⟨d, gives_of_absent hd hdir, hdir, hsocket⟩

/-- INTERNAL: a recovery leaves alone what it cannot resume. -/
theorem not_resumable_recover (requireStopped : Bool) (calls : List Bool) (hnot : ¬ p.Resumable d) :
    ¬ p.Resumable (p.step d (.recover requireStopped calls)) := by
  have hspared := spared_of_within (Keeps.runFor (tries_recoverMode decode requireStopped d) calls).1
  have hlost : ¬ Reclaimable decode d p.leaf := by
    rintro ⟨_, _, _, hstale⟩
    apply hnot
    exact .inl (by simp [hstale.hasRecord])
  have hsame : ∀ path, Belongs p.leaf path →
      (p.step d (.recover requireStopped calls)).objects path = d.objects path := hspared.request p.leaf hlost
  unfold Prepared.Resumable
  rw [hsame _ (.inr (.inl rfl)), hsame _ (.inl rfl), hsame _ (.inr (.inr ⟨p.named, rfl⟩))]
  exact hnot

theorem within_recoveries (hd : Thinned (Belongs p.leaf) p.volume d) (hnot : ¬ p.Resumable d)
    (recoveries : List (Bool × List Bool)) :
    Thinned (Belongs p.leaf) p.volume (recoveries.foldl (fun d r => p.step d (.recover r.1 r.2)) d) ∧
      ¬ p.Resumable (recoveries.foldl (fun d r => p.step d (.recover r.1 r.2)) d) := by
  induction recoveries generalizing d with
  | nil => exact ⟨hd, hnot⟩
  | cons r recoveries ih => exact ih (within_step hd _) (not_resumable_recover r.1 r.2 hnot)

end Runs

/-- How the calls before it bear on a recovery without faults. -/
structure Resumes {decode : List UInt8 → Option AgentRecord} (p : Prepared decode) (d : Volume) : Prop where
  recovers : ∀ requireStopped, p.Recovers requireStopped d ↔ p.Resumable d
  /-- Recoveries alone never mend it. -/
  forGood : ¬ p.Resumable d → ∀ recoveries : List (Bool × List Bool), ∀ requireStopped,
    ¬ p.Recovers requireStopped (recoveries.foldl (fun d r => p.step d (.recover r.1 r.2)) d)

/-- **After any interrupted calls, a recovery succeeds exactly when the record is still in the
directory, or neither the directory nor the socket is left.** -/
theorem recovery_resumes (decode : List UInt8 → Option AgentRecord) (p : Prepared decode) (attempts : List Attempt) :
    Resumes p (p.run attempts) := by
  have hd : Thinned (Belongs p.leaf) p.volume (p.run attempts) :=
    within_foldl (Thinned.refl (Belongs p.leaf) p.volume) attempts
  constructor
  · intro requireStopped
    exact recovers_iff hd
  · intro hnot recoveries requireStopped hrecovers
    obtain ⟨hd', hnot'⟩ := within_recoveries hd hnot recoveries
    exact hnot' ((recovers_iff hd').mp hrecovers)

/-! ## A record that is lost -/

def sampleRequest : Prepared sampleDecode where
  volume := sample
  leaf := sampleLeaf
  dir := sampleDirectory
  pending := sampleFile 12
  knownHosts := sampleFile 13
  recordFile := { sampleFile 14 with content := sampleRecord.encode }
  record := sampleRecord
  tops _ := rfl
  alone := rfl
  named := by decide +kernel
  hasDir := rfl
  dirPrivate := rfl
  entries := by decide +kernel
  hasPending := rfl
  pendingPrivate := rfl
  hasKnownHosts := by decide +kernel
  knownHostsPrivate := rfl
  hasRecord := by decide +kernel
  recordPrivate := rfl
  content := rfl
  decoded := if_pos rfl
  directory := rfl
  files := rfl
  closed := by
    intro o ho
    have hsocket : sample.objects (.sockets, socketName sampleLeaf) =
        some { sampleFile 11 with kind := .socket, connection := .refused } := by decide +kernel
    rw [hsocket] at ho
    cases ho
    exact ⟨rfl, rfl⟩
  historical := by
    intro entry hentry
    have hnone : sample.order (.top .requests) = [] := by decide +kernel
    rw [hnone] at hentry
    cases hentry

/-- The end of a request stops after it removed the record and before it removed the directory. -/
theorem record_lost : ¬ sampleRequest.Recovers true
    (sampleRequest.run [.finalize false (List.replicate 31 true)]) := by
  rintro ⟨d', hgives, _⟩
  have hfails : ((recoverMode sampleDecode true).run.clean answer
      (sampleRequest.run [.finalize false (List.replicate 31 true)])).1.isOk = false := by decide +kernel
  rw [hgives] at hfails
  cases hfails

end VaultAccess.Analysis.Resumption
