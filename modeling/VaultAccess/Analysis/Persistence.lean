import VaultAccess.Model.Persistence

/-!
# The state file is old or new

Whatever steps of a write fail and wherever the process stops, the state file holds the
old document or the new one; a write that reports an error left the old one in place or
poisoned the store.
-/

set_option autoImplicit false

namespace VaultAccess.Analysis.Persistence

open VaultAccess.Library VaultAccess.Model VaultAccess.Model.Persistence

/-! ## Settled stores -/

/-- A store between two calls: it is healthy, the state file is private and durable, and a
temporary file that was left behind can be removed. -/
structure Settled (process : Process) (files : Files) : Prop where
  healthy : files.poisoned = false
  readable : files.state.isPrivate process.uid = true
  durable : files.state.persisted = some files.state.content
  synced : files.previous = none
  leftover : ∀ file, files.temporary = some file → file.isPrivate process.uid = true

/-- A settled store with a state file. -/
def Holds (process : Process) (state : File) (files : Files) : Prop :=
  Settled process files ∧ files.state = state

/-- A machine that stops leaves the old bytes or the new ones. -/
def OldOrNew (old : List UInt8) (new : Option (List UInt8)) (files : Files) : Prop :=
  ∀ crash, files.afterCrash crash = old ∨ new = some (files.afterCrash crash)

theorem mode_private : PRIVATE_FILE_MODE &&& 0o777 = PRIVATE_FILE_MODE := by decide

section Steps

variable {process : Process} {state : File} {files : Files}

theorem Settled.afterCrash (h : Settled process files) (crash : Crash) :
    files.afterCrash crash = files.state.content := by
  unfold Files.afterCrash
  rw [h.synced, h.durable]
  rfl

theorem Holds.oldOrNew (h : Holds process state files) (new : Option (List UInt8)) :
    OldOrNew state.content new files := by
  obtain ⟨hsettled, rfl⟩ := h
  exact fun crash => Or.inl (hsettled.afterCrash crash)

theorem Holds.setTemporary (h : Holds process state files) {temporary : Option File}
    (hprivate : ∀ file, temporary = some file → file.isPrivate process.uid = true) :
    Holds process state { files with temporary } :=
  ⟨{ h.1 with leftover := hprivate }, h.2⟩

/-- INTERNAL: a change of the temporary file that keeps it private. -/
theorem Holds.mapTemporary (h : Holds process state files) (f : File → File)
    (hf : ∀ file, file.isPrivate process.uid = true → (f file).isPrivate process.uid = true) :
    Holds process state { files with temporary := files.temporary.map f } := by
  refine h.setTemporary fun file hfile => ?_
  obtain ⟨old, hold, rfl⟩ := Option.map_eq_some_iff.mp hfile
  exact hf old (h.1.leftover old hold)

/-- The steps before the rename. -/
def Quiet : FileAct → Bool
  | .rename | .syncDirectory | .storePoisoned => false
  | _ => true

/-- **A step before the rename** leaves the state file and the store as they are. -/
theorem Holds.quiet (h : Holds process state files) {a : FileAct} (ha : Quiet a = true) (fault : Persistence.Fault) :
    Holds process state (perform process a fault files).2 := by
  cases a with
  | loadPoisoned => exact h
  | validateLayout => exact h
  | readToString => exact h
  | temporaryExists => exact h
  | validateTemporary => exact h
  | validateOpenFile => exact h
  | stillAuthorized => exact h
  | removeTemporary =>
    simp only [perform]
    split
    · exact h.setTemporary fun file hfile => absurd hfile (by simp)
    · exact h
  | createTemporary =>
    simp only [perform]
    split
    · exact h
    · refine h.setTemporary fun file hfile => ?_
      obtain rfl := Option.some.inj hfile
      simp [File.isPrivate, process.keeps, mode_private]
  | setPermissions =>
    simp only [perform]
    split
    · exact h
    · refine h.mapTemporary _ fun file hfile => ?_
      simp only [File.isPrivate, Bool.and_eq_true, decide_eq_true_eq] at hfile ⊢
      exact ⟨hfile.1, mode_private⟩
  | writeAll bytes => exact h.mapTemporary _ fun file hfile => hfile
  | syncAll =>
    simp only [perform]
    split
    · exact h
    · exact h.mapTemporary _ fun file hfile => hfile
  | rename => exact absurd ha (by decide)
  | syncDirectory => exact absurd ha (by decide)
  | storePoisoned => exact absurd ha (by decide)

end Steps

/-! ## A write, step by step -/

section Write

variable {process : Process} {state : File} {files : Files} {new : Option (List UInt8)}

/-- INTERNAL: one step and what comes after it. -/
theorem keeps_step {α : Type} {a : FileAct} {next : FileAns a → Step α}
    {stopped : Files → Prop} {ended : α → Files → Prop} (hstopped : stopped files)
    (h : ∀ fault, Prog.Keeps (performs process) stopped (next (perform process a fault files).1) ended
      (perform process a fault files).2) :
    Prog.Keeps (performs process) stopped (step a >>= next) ended files := by
  refine ⟨hstopped, fun fault answer after hperform => ?_⟩
  obtain ⟨rfl, rfl⟩ := Prod.mk.inj (Option.some.inj hperform)
  exact h fault

/-- INTERNAL: one last step. -/
theorem keeps_last {a : FileAct} {stopped : Files → Prop} {ended : FileAns a → Files → Prop}
    (hstopped : stopped files) (h : ∀ fault, stopped (perform process a fault files).2 ∧
      ended (perform process a fault files).1 (perform process a fault files).2) :
    Prog.Keeps (performs process) stopped (step a) ended files := by
  refine ⟨hstopped, fun fault answer after hperform => ?_⟩
  obtain ⟨rfl, rfl⟩ := Prod.mk.inj (Option.some.inj hperform)
  exact h fault

/-- INTERNAL: one step before the rename and what comes after it. -/
theorem Holds.step {α : Type} {a : FileAct} {next : FileAns a → Step α} {ended : α → Files → Prop}
    (h : Holds process state files) (ha : Quiet a = true)
    (hnext : ∀ fault, Holds process state (perform process a fault files).2 →
      Prog.Keeps (performs process) (OldOrNew state.content new) (next (perform process a fault files).1)
        ended (perform process a fault files).2) :
    Prog.Keeps (performs process) (OldOrNew state.content new) (Persistence.step a >>= next) ended files :=
  keeps_step (h.oldOrNew new) fun fault => hnext fault (h.quiet ha fault)

theorem Holds.done {α : Type} {value : α} {ended : α → Files → Prop} (h : Holds process state files)
    (hended : ended value files) :
    Prog.Keeps (performs process) (OldOrNew state.content new) (pure value) ended files :=
  ⟨h.oldOrNew new, hended⟩

/-- INTERNAL: removing what an earlier write left. -/
theorem Holds.removeStalePrivateTemp (h : Holds process state files) :
    Prog.Keeps (performs process) (OldOrNew state.content new) removeStalePrivateTemp
      (fun _ files => Holds process state files) files := by
  unfold Model.Persistence.removeStalePrivateTemp
  refine h.step rfl fun fault h => ?_
  split
  · refine h.step rfl fun fault h => ?_
    split
    · exact h.done h
    · refine h.step rfl fun fault h => ?_
      split
      · exact h.done h
      · exact h.done h
  · exact h.done h

/-- INTERNAL: a complete write leaves the bytes. -/
theorem content_of_writeAll {bytes : List UInt8} {fault : Persistence.Fault}
    (h : (perform process (.writeAll bytes) fault files).1 = true) {file : File}
    (hfile : (perform process (.writeAll bytes) fault files).2.temporary = some file) :
    file.content = bytes := by
  have hok : fault.fails.isNone = true := h
  simp only [perform] at hfile
  obtain ⟨old, -, rfl⟩ := Option.map_eq_some_iff.mp hfile
  simp only [Option.isNone_iff_eq_none] at hok
  simp [hok]

/-- INTERNAL: a complete sync makes the bytes durable. -/
theorem persisted_of_syncAll {fault : Persistence.Fault} (h : (perform process .syncAll fault files).1 = true)
    {file : File} (hfile : (perform process .syncAll fault files).2.temporary = some file) :
    ∃ old, files.temporary = some old ∧ file.content = old.content ∧
      file.persisted = some old.content := by
  simp only [perform] at h hfile
  split at h
  · exact absurd h Bool.false_ne_true
  · next hok =>
    rw [if_neg hok] at hfile
    obtain ⟨old, hold, rfl⟩ := Option.map_eq_some_iff.mp hfile
    exact ⟨old, hold, rfl, rfl⟩

/-- INTERNAL: filling the temporary file. When it succeeds, the file holds the bytes and
they are durable. -/
theorem Holds.fillTemporary (h : Holds process state files) (encoded : List UInt8) :
    Prog.Keeps (performs process) (OldOrNew state.content new) (fillTemporary encoded)
      (fun filled files => Holds process state files ∧ (filled = true → ∀ file,
        files.temporary = some file → file.content = encoded ∧ file.persisted = some encoded)) files := by
  unfold Model.Persistence.fillTemporary
  refine h.step rfl fun fault h => ?_
  split
  · exact h.done ⟨h, fun hfilled => absurd hfilled Bool.false_ne_true⟩
  refine h.step rfl fun fault' h' => ?_
  split
  · exact h'.done ⟨h', fun hfilled => absurd hfilled Bool.false_ne_true⟩
  · next hwritten =>
    refine keeps_last (h'.oldOrNew new) fun fault'' => ?_
    have h'' := h'.quiet (a := .syncAll) rfl fault''
    refine ⟨h''.oldOrNew new, h'', fun hfilled file hfile => ?_⟩
    obtain ⟨old, hold, hcontent, hpersisted⟩ := persisted_of_syncAll hfilled hfile
    have hbytes := content_of_writeAll (by simpa using hwritten) hold
    exact ⟨hcontent.trans hbytes, hpersisted.trans (congrArg some hbytes)⟩

/-- How a write ends: with the new document in a settled store, or with an error and the
old state file in a settled store, or with a poisoned store. -/
def Ended (process : Process) (state : File) (new : Option (List UInt8)) :
    Except ProviderDiagnostic Unit → Files → Prop
  | .ok (), after => Settled process after ∧ new = some after.state.content
  | .error diagnostic, after => Holds process state after ∨
    (after.poisoned = true ∧ diagnostic = .persistenceFailure)

theorem Holds.error {diagnostic : ProviderDiagnostic} (h : Holds process state files) :
    Prog.Keeps (performs process) (OldOrNew state.content new) (pure (.error diagnostic))
      (Ended process state new) files :=
  h.done (Or.inl h)

/-- INTERNAL: the rename puts the temporary file in place of the state file. -/
theorem rename_cases (process : Process) (fault : Persistence.Fault) (files : Files) :
    perform process .rename fault files = (false, files) ∨
      ∃ file, files.temporary = some file ∧ perform process .rename fault files =
        (true, { files with
          state := file
          previous := some (files.previous.getD files.state)
          temporary := none }) := by
  simp only [perform]
  split
  · next file hfails htemporary => exact Or.inr ⟨file, htemporary, rfl⟩
  · exact Or.inl rfl

/-- The temporary file was renamed over a state file, and the directory is not synced. -/
structure Renamed (process : Process) (state : File) (encoded : List UInt8) (files : Files) : Prop where
  healthy : files.poisoned = false
  readable : files.state.isPrivate process.uid = true
  content : files.state.content = encoded
  durable : files.state.persisted = some encoded
  previous : files.previous = some state
  previous_durable : state.persisted = some state.content
  temporary : files.temporary = none

/-- INTERNAL: after the rename the old bytes or the new ones are there. -/
theorem Renamed.oldOrNew {encoded : List UInt8} (h : Renamed process state encoded files) (poisoned : Bool) :
    OldOrNew state.content (some encoded) { files with poisoned } := by
  intro crash
  unfold Files.afterCrash
  simp only [h.previous, h.durable, h.previous_durable, Option.getD_some]
  split
  · exact Or.inr rfl
  · exact Or.inl rfl

/-- INTERNAL: after the sync of the directory the new bytes are there. -/
theorem Renamed.settled {encoded : List UInt8} (h : Renamed process state encoded files) :
    Settled process { files with previous := none } where
  healthy := h.healthy
  readable := h.readable
  durable := h.durable.trans (congrArg some h.content.symm)
  synced := rfl
  leftover := fun file hfile => absurd (h.temporary.symm.trans hfile) (by simp)

end Write

section Store

variable {process : Process} {state : File} {files : Files}
variable (codec : Codec) (E : Externals) (disk : Model.Disk) (ownerUid : UInt32)

/-- INTERNAL: the last part of a write, once the temporary file is filled. -/
theorem Holds.replaceState {encoded : List UInt8} (h : Holds process state files)
    (hfilled : ∀ file, files.temporary = some file →
      file.content = encoded ∧ file.persisted = some encoded) :
    Prog.Keeps (performs process) (OldOrNew state.content (some encoded))
      Model.Persistence.replaceState (Ended process state (some encoded)) files := by
  unfold Model.Persistence.replaceState
  refine keeps_step (h.oldOrNew _) fun fault => ?_
  rcases rename_cases process fault files with heq | ⟨file, htemporary, heq⟩
  · rw [heq]
    exact h.error
  rw [heq]
  obtain ⟨hcontent, hpersisted⟩ := hfilled file htemporary
  obtain ⟨hsettled, rfl⟩ := h
  have hrenamed : Renamed process files.state encoded
      { files with state := file, previous := some (files.previous.getD files.state), temporary := none } :=
    { healthy := hsettled.healthy
      readable := hsettled.leftover file htemporary
      content := hcontent
      durable := hpersisted
      previous := by rw [hsettled.synced]; rfl
      previous_durable := hsettled.durable
      temporary := rfl }
  refine keeps_step (hrenamed.oldOrNew _) fun fault => ?_
  -- an unsynced directory and a lost authorization both poison the store
  cases hfails : fault.fails with
  | some diagnostic =>
    simp only [perform, hfails, Option.isSome_some, if_true]
    refine keeps_step (hrenamed.oldOrNew _) fun fault => ?_
    exact ⟨hrenamed.oldOrNew true, Or.inr ⟨rfl, rfl⟩⟩
  | none =>
    simp only [perform, hfails, Option.isSome_none, Bool.false_eq_true, if_false]
    have hsynced := hrenamed.settled
    have hnew : OldOrNew files.state.content (some encoded)
        { files with state := file, previous := none, temporary := none } := fun crash =>
      Or.inr (congrArg some ((hsynced.afterCrash crash).trans hcontent).symm)
    refine keeps_step hnew fun fault => ?_
    cases hauthorized : fault.authorized with
    | true =>
      simp only [perform, hauthorized]
      exact ⟨hnew, hsynced, congrArg some hcontent.symm⟩
    | false =>
      simp only [perform, hauthorized]
      refine keeps_step hnew fun fault => ?_
      exact ⟨fun crash => hnew crash, Or.inr ⟨rfl, rfl⟩⟩

/-- **A write**: wherever it stops, the old bytes or the new ones are there; and how it
ends. -/
theorem Holds.writeStateGuarded (h : Holds process state files) (s : ProviderState) :
    Prog.Keeps (performs process) (OldOrNew state.content (codec.encode s.wire))
      (writeStateGuarded codec E disk ownerUid s) (Ended process state (codec.encode s.wire)) files := by
  unfold Model.Persistence.writeStateGuarded
  refine h.step rfl fun fault h => ?_
  split
  · exact h.error
  split
  · exact h.error
  refine h.step rfl fun fault h => ?_
  split
  · exact h.error
  cases hencoded : codec.encode s.wire with
  | none => exact h.error
  | some encoded =>
    refine Prog.Keeps.bind (h.removeStalePrivateTemp.mono fun removed files _ h => ?_)
    split
    · exact h.error
    refine h.step rfl fun fault h => ?_
    split
    · exact h.error
    refine Prog.Keeps.bind ((h.fillTemporary encoded).mono fun filled files _ hfill => ?_)
    obtain ⟨h, hfilled⟩ := hfill
    split
    · exact h.step rfl fun fault h => h.error
    · next hdone =>
      refine h.step rfl fun fault h => ?_
      split
      · exact h.step rfl fun fault h => h.error
      refine h.step rfl fun fault h => ?_
      split
      · refine h.step rfl fun fault h => ?_
        split
        · exact h.error
        · exact h.error
      · exact h.replaceState (hfilled (by simpa using hdone))

end Store

/-! ## The store between calls -/

section Calls

variable (codec : Codec) (E : Externals) (ownerUid : UInt32) (process : Process)

/-- INTERNAL: a poisoned store refuses a write and stays as it is. -/
theorem write_poisoned {files : Files} (h : files.poisoned = true) (disk : Model.Disk) (s : ProviderState)
    (faults : List Persistence.Fault) :
    ((writeStateGuarded codec E disk ownerUid s).runFor (performs process) faults files).2 = files ∧
      ∀ result, ((writeStateGuarded codec E disk ownerUid s).runFor (performs process) faults files).1 =
        some result → result = .error .unsafeState := by
  have hkeeps : Prog.Keeps (performs process) (· = files) (writeStateGuarded codec E disk ownerUid s)
      (fun result _ => result = .error .unsafeState) files := by
    unfold Model.Persistence.writeStateGuarded
    refine keeps_step rfl fun fault => ?_
    rw [if_pos (show (perform process .loadPoisoned fault files).1 = true from h)]
    exact ⟨rfl, rfl⟩
  exact hkeeps.runFor faults

/-- INTERNAL: a poisoned store refuses a read and stays as it is. -/
theorem read_poisoned {files : Files} (h : files.poisoned = true) (disk : Model.Disk) (faults : List Persistence.Fault) :
    ((readState codec E disk ownerUid).runFor (performs process) faults files).2 = files ∧
      ∀ result, ((readState codec E disk ownerUid).runFor (performs process) faults files).1 =
        some result → result = .error .unsafeState := by
  have hkeeps : Prog.Keeps (performs process) (· = files) (readState codec E disk ownerUid)
      (fun result _ => result = .error .unsafeState) files := by
    unfold Model.Persistence.readState
    refine keeps_step rfl fun fault => ?_
    rw [if_pos (show (perform process .loadPoisoned fault files).1 = true from h)]
    exact ⟨rfl, rfl⟩
  exact hkeeps.runFor faults

/-- INTERNAL: what is read depends on the state file only. -/
theorem read_congr {files files' : Files} (hstate : files.state = files'.state)
    (hpoisoned : files.poisoned = files'.poisoned) (disk : Model.Disk) (faults : List Persistence.Fault) :
    ((readState codec E disk ownerUid).runFor (performs process) faults files).1 =
      ((readState codec E disk ownerUid).runFor (performs process) faults files').1 := by
  unfold Model.Persistence.readState
  match faults with
  | [] => rfl
  | first :: faults =>
    show (Prog.runFor _ (if files.poisoned then _ else _) faults files).1 =
      (Prog.runFor _ (if files'.poisoned then _ else _) faults files').1
    rw [hpoisoned]
    split
    · rfl
    · match faults with
      | [] => rfl
      | second :: faults =>
        simp only [Persistence.step, Prog.perform, Prog.act_bind, Prog.done_bind, Prog.runFor, performs, perform, hstate]
        split
        · rfl
        · match faults with
          | [] => rfl
          | third :: faults =>
            simp only [Prog.runFor, performs, perform, hstate]
            split
            · rfl
            · split <;> rfl

/-- A step to which nothing happens. -/
def Fine (fault : Persistence.Fault) : Prop := fault.fails = none ∧ fault.authorized = true

/-- **A write whose steps succeed** replaces the document of a settled store. -/
theorem Settled.write_fine {files : Files} (h : Settled process files) {disk : Model.Disk}
    {s : ProviderState} {encoded : List UInt8} (hvalid : s.validateForOwner E disk ownerUid = true)
    (hencoded : codec.encode s.wire = some encoded) {fault : Persistence.Fault} (hfine : Fine fault) :
    ∃ after, (writeStateGuarded codec E disk ownerUid s).runFor (performs process)
        (List.replicate 14 fault) files = (some (.ok ()), after) ∧
      Settled process after ∧ after.state.content = encoded := by
  obtain ⟨hfails, hauthorized⟩ := hfine
  have hprivate : File.isPrivate process.uid
      ⟨true, process.uid, PRIVATE_FILE_MODE, encoded, some encoded⟩ = true := by
    simp [File.isPrivate, mode_private]
  have hsettled : Settled process
      ⟨⟨true, process.uid, PRIVATE_FILE_MODE, encoded, some encoded⟩, none, none, false⟩ :=
    { healthy := rfl
      readable := hprivate
      durable := rfl
      synced := rfl
      leftover := fun file hfile => absurd hfile (by simp) }
  refine ⟨_, ?_, hsettled, rfl⟩
  cases htemporary : files.temporary with
  | none =>
    simp [Model.Persistence.writeStateGuarded, Model.Persistence.removeStalePrivateTemp,
      Model.Persistence.fillTemporary, Model.Persistence.replaceState, Persistence.step, Prog.perform,
      Prog.runFor, performs, perform, checked, hfails, hauthorized, h.healthy, h.readable, hvalid, hencoded,
      htemporary, hprivate, List.replicate]
  | some file =>
    have hleftover := h.leftover file htemporary
    simp [Model.Persistence.writeStateGuarded, Model.Persistence.removeStalePrivateTemp,
      Model.Persistence.fillTemporary, Model.Persistence.replaceState, Persistence.step, Prog.perform,
      Prog.runFor, performs, perform, checked, hfails, hauthorized, h.healthy, h.readable, hvalid, hencoded,
      htemporary, hleftover, hprivate, List.replicate]

/-- INTERNAL: a state that does not validate is refused before anything is touched. -/
theorem write_invalid {files : Files} (h : Settled process files) {disk : Model.Disk} {s : ProviderState}
    (hinvalid : s.validateForOwner E disk ownerUid = false) (faults : List Persistence.Fault) :
    ((writeStateGuarded codec E disk ownerUid s).runFor (performs process) faults files).2 = files ∧
      ∀ result, ((writeStateGuarded codec E disk ownerUid s).runFor (performs process) faults files).1 =
        some result → result = .error .invalidState := by
  have hkeeps : Prog.Keeps (performs process) (· = files) (writeStateGuarded codec E disk ownerUid s)
      (fun result _ => result = .error .invalidState) files := by
    unfold Model.Persistence.writeStateGuarded
    refine keeps_step rfl fun fault => ?_
    have hhealthy : (perform process .loadPoisoned fault files).1 = false := h.healthy
    rw [if_neg (by rw [hhealthy]; exact Bool.false_ne_true), if_pos (by rw [hinvalid]; rfl)]
    exact ⟨rfl, rfl⟩
  exact hkeeps.runFor faults

/-- **The step-by-step write refines the one of the runs**: when it comes to its end, it ends
as the write of the abstract store does for one of its outcomes, and a machine that stops
then finds that store's document. -/
theorem write_refines {files : Files} (h : Settled process files) {store : Store}
    (hdocument : codec.encode store.durable.wire = some files.state.content)
    (hhealthy : store.poisoned = false) (disk : Model.Disk) (s : ProviderState) (faults : List Persistence.Fault)
    (result : Except ProviderDiagnostic Unit)
    (hresult : ((writeStateGuarded codec E disk ownerUid s).runFor (performs process) faults files).1 =
      some result) (crash : Crash) :
    let after := ((writeStateGuarded codec E disk ownerUid s).runFor (performs process) faults files).2
    ∃ outcome, (store.writeState E ownerUid disk s outcome).2 = result ∧
      (store.writeState E ownerUid disk s outcome).1.poisoned = after.poisoned ∧
      codec.encode (store.writeState E ownerUid disk s outcome).1.durable.wire =
        some (after.afterCrash crash) := by
  intro after
  cases hvalid : s.validateForOwner E disk ownerUid with
  | false =>
    obtain ⟨hafter, hrefused⟩ := write_invalid codec E ownerUid process h hvalid faults
    refine ⟨.committed, ?_⟩
    rw [hrefused result hresult]
    simp only [after, hafter, Store.writeState, hhealthy, hvalid, h.afterCrash, h.healthy]
    exact ⟨rfl, hhealthy, hdocument⟩
  | true =>
    have hkept := (Holds.writeStateGuarded codec E disk ownerUid (⟨h, rfl⟩ : Holds process files.state files)
      s).runFor faults
    have hended := hkept.2 result hresult
    cases result with
    | ok value =>
      obtain ⟨hsettled, hnew⟩ := hended
      refine ⟨.committed, ?_⟩
      simp only [Store.writeState, hhealthy, hvalid]
      refine ⟨rfl, ?_, ?_⟩
      · rw [show after.poisoned = false from hsettled.healthy]
        rfl
      · rw [show after.afterCrash crash = after.state.content from hsettled.afterCrash crash]
        exact hnew
    | error diagnostic =>
      rcases hended with ⟨hsettled, hsame⟩ | ⟨hpoisoned, rfl⟩
      · refine ⟨.failedBefore diagnostic, ?_⟩
        simp only [Store.writeState, hhealthy, hvalid]
        refine ⟨rfl, ?_, ?_⟩
        · rw [show after.poisoned = false from hsettled.healthy]
          exact hhealthy
        · rw [show after.afterCrash crash = after.state.content from hsettled.afterCrash crash,
            show after.state = files.state from hsame]
          exact hdocument
      · rcases hkept.1 crash with hold | hnew
        · refine ⟨.uncertain false, ?_⟩
          simp only [Store.writeState, hhealthy, hvalid]
          exact ⟨rfl, hpoisoned.symm, hdocument.trans (congrArg some hold.symm)⟩
        · refine ⟨.uncertain true, ?_⟩
          simp only [Store.writeState, hhealthy, hvalid]
          exact ⟨rfl, hpoisoned.symm, hnew⟩

/-- The store goes on as it was: it reads as before, and a write whose steps succeed
replaces the document. -/
structure Usable (before after : Files) : Prop where
  settled : Settled process after
  reads : ∀ disk faults,
    ((readState codec E disk ownerUid).runFor (performs process) faults after).1 =
      ((readState codec E disk ownerUid).runFor (performs process) faults before).1
  writes : ∀ disk s encoded fault, s.validateForOwner E disk ownerUid = true →
    codec.encode s.wire = some encoded → Fine fault →
    ∃ later, (writeStateGuarded codec E disk ownerUid s).runFor (performs process)
        (List.replicate 14 fault) after = (some (.ok ()), later) ∧
      ∀ crash, later.afterCrash crash = encoded

/-- The store is poisoned: every later read and write fails, and leaves it so. -/
structure Refuses (after : Files) : Prop where
  poisoned : after.poisoned = true
  reads : ∀ disk faults,
    ((readState codec E disk ownerUid).runFor (performs process) faults after).2 = after ∧
      ∀ result, ((readState codec E disk ownerUid).runFor (performs process) faults after).1 =
        some result → result = .error .unsafeState
  writes : ∀ disk s faults,
    ((writeStateGuarded codec E disk ownerUid s).runFor (performs process) faults after).2 = after ∧
      ∀ result, ((writeStateGuarded codec E disk ownerUid s).runFor (performs process) faults after).1 =
        some result → result = .error .unsafeState

/-- **A write with failures, lost authorization or a crash at any step.** Wherever it stops,
the state file holds the complete old or the complete new document; it returns `Ok` only
with the new document durable; and after an error the old document is durable and the
store usable, or the store is poisoned and refuses every later call. -/
theorem write_old_or_new (files : Files) (h : Settled process files) (disk : Model.Disk)
    (s : ProviderState) (faults : List Persistence.Fault) :
    let outcome := (writeStateGuarded codec E disk ownerUid s).runFor (performs process) faults files
    (∀ crash, outcome.2.afterCrash crash = files.state.content ∨
      codec.encode s.wire = some (outcome.2.afterCrash crash)) ∧
    (outcome.1 = some (.ok ()) →
      ∀ crash, codec.encode s.wire = some (outcome.2.afterCrash crash)) ∧
    ∀ diagnostic, outcome.1 = some (.error diagnostic) →
      ((∀ crash, outcome.2.afterCrash crash = files.state.content) ∧
        Usable codec E ownerUid process files outcome.2) ∨
      Refuses codec E ownerUid process outcome.2 := by
  intro outcome
  obtain ⟨hstopped, hended⟩ := (Holds.writeStateGuarded codec E disk ownerUid
    (⟨h, rfl⟩ : Holds process files.state files) s).runFor faults
  refine ⟨hstopped, fun hok crash => ?_, fun diagnostic herror => ?_⟩
  · obtain ⟨hsettled, hnew⟩ := hended _ hok
    exact hnew.trans (congrArg some (hsettled.afterCrash crash).symm)
  · rcases hended _ herror with ⟨hsettled, hsame⟩ | ⟨hpoisoned, -⟩
    · left
      refine ⟨fun crash => (hsettled.afterCrash crash).trans (congrArg File.content hsame), hsettled, ?_, ?_⟩
      · exact fun disk faults => read_congr codec E ownerUid process hsame
          (hsettled.healthy.trans h.healthy.symm) disk faults
      · intro disk s encoded fault hvalid hencoded hfine
        obtain ⟨later, hrun, hlater, hcontent⟩ :=
          hsettled.write_fine codec E ownerUid process hvalid hencoded hfine
        exact ⟨later, hrun, fun crash => (hlater.afterCrash crash).trans hcontent⟩
    · right
      exact ⟨hpoisoned, read_poisoned codec E ownerUid process hpoisoned,
        fun disk s faults => write_poisoned codec E ownerUid process hpoisoned disk s faults⟩

end Calls

/-- A codec that writes one document. -/
def sampleCodec : Codec := ⟨fun _ => some [2], fun _ => none⟩

/-- A hash for the example. -/
def sampleExternals : Externals := ⟨fun _ => Vector.replicate 32 0, fun _ => true, fun _ _ _ => true⟩

/-- A process with the usual umask. -/
def sampleProcess : Process := ⟨0, 0o077, by decide⟩

/-- A fresh directory. -/
def sampleFiles : Files := ⟨⟨true, 0, PRIVATE_FILE_MODE, [1], some [1]⟩, none, none, false⟩

/-- INTERNAL: a fresh store is settled. -/
theorem settled_sampleFiles : Settled sampleProcess sampleFiles where
  healthy := rfl
  readable := by decide
  durable := rfl
  synced := rfl
  leftover := fun file hfile => absurd hfile (by simp [sampleFiles])

/-- A write to a fresh store whose steps succeed. -/
theorem write_old_or_new_fresh :
    Settled sampleProcess sampleFiles ∧
      ∀ crash, some [2] = some (((writeStateGuarded sampleCodec sampleExternals ⟨fun _ => none⟩ 0 .initial).runFor
        (performs sampleProcess) (List.replicate 14 ⟨none, 0, false, true⟩) sampleFiles).2.afterCrash crash) :=
  ⟨settled_sampleFiles, (write_old_or_new sampleCodec sampleExternals 0 sampleProcess sampleFiles
    settled_sampleFiles ⟨fun _ => none⟩ .initial (List.replicate 14 ⟨none, 0, false, true⟩)).2.1 (by decide +kernel)⟩

end VaultAccess.Analysis.Persistence
