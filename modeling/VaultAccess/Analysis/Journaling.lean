import VaultAccess.Analysis.Journals
import VaultAccess.Analysis.Review

/-!
# What the journal's threads come to

`begin`, `save` and `read` keep to the discipline of the journal's directory. So in every
run the first publication under a name is the only one for which `begin` may return, an
entry is always a complete journal, and `read` returns what was last written.
-/

set_option autoImplicit false

namespace VaultAccess.Analysis.Journals

open VaultAccess.Library VaultAccess.Library.Text
open VaultAccess.Model (WriteJournal Destination trimSlashes hexSha256)
open VaultAccess.Model.WriteJournal

/-! ## The discipline -/

/-- The thread's temporary file holds the journal, complete and synced. -/
structure Ready (t : ℕ) (temporary : Temporary) (journal : WriteJournal) (m : Mem) : Prop where
  owned : m.temporaries t = some temporary
  holds : m.files temporary.file = ⟨true, journal.toVec, true⟩
  sized : journal.toVec.length ≤ MAX_JOURNAL_BYTES

/-- Where a thread may perform an action. -/
def Good (S : Setup) (t : ℕ) : Act → Mem → Prop
  | .createNew, m => m.temporaries t = none ∧ m.begun t = true
  | .write file _, m => ∃ temporary, m.temporaries t = some temporary ∧ temporary.file = file
  | .syncFile file, m => ∃ temporary, m.temporaries t = some temporary ∧ temporary.file = file
  | .persistNoclobber temporary name journal, m =>
    Ready t temporary journal m ∧ isTemporary name = false
  | .persist temporary name journal, m => Ready t temporary journal m ∧ isTemporary name = false
  | .removeFile temporary, m => m.temporaries t = some temporary
  | .accepted journal, m => Stands S m t journal
  | .answered name result, m => Told m.log t name result
  | _, _ => True

section Steps

variable {S : Setup} {m m₁ : Mem} {t : ℕ}

theorem step_same (h : Inv S m) : Step S t m m := ⟨h, .refl m, fun u _ => .refl u m⟩

/-- INTERNAL: the actions that leave the memory as it is. -/
def still : Act → Bool
  | .createDirAll | .symlinkMetadata | .setPermissions _ | .isFile _ | .read .. => true
  | _ => false

theorem perform_still {a : Act} {input : Input} {answer : Ans a} (ha : still a = true)
    (hp : perform t a input m = some (answer, m₁)) : m₁ = m := by
  cases a <;> simp only [still, Bool.false_eq_true] at ha <;> cases input <;>
    simp only [perform] at hp <;> (try split_ifs at hp) <;> cases hp <;> rfl

theorem step_still {a : Act} {input : Input} {answer : Ans a} (ha : still a = true) (h : Inv S m)
    (hp : perform t a input m = some (answer, m₁)) : Step S t m m₁ := by
  rw [perform_still ha hp]
  exact step_same h

theorem step_ready {temporary : Temporary} {name : String} {journal : WriteJournal} (h : Inv S m)
    (hready : Ready t temporary journal m) (hname : isTemporary name = false) :
    Step S t m (m.publish t temporary name journal) :=
  step_publish h hready.owned hname hready.holds hready.sized

/-- **What an action does where it may be performed.** -/
theorem step_perform {a : Act} {input : Input} {answer : Ans a} (h : Inv S m) (hgood : Good S t a m)
    (hp : perform t a input m = some (answer, m₁)) : Step S t m m₁ := by
  cases a with
  | createDirAll => exact step_still rfl h hp
  | symlinkMetadata => exact step_still rfl h hp
  | setPermissions mode => exact step_still rfl h hp
  | isFile file => exact step_still rfl h hp
  | read file offset limit => exact step_still rfl h hp
  | createNew =>
    cases input <;> simp only [perform] at hp
    case random text =>
      split_ifs at hp with hfree
      cases hp
      exact step_createNew h hgood.1 hgood.2 (isTemporary_temporaryName text)
        (Option.not_isSome_iff_eq_none.mp hfree)
    all_goals cases hp; exact step_same h
  | write file data =>
    obtain ⟨temporary, ht, rfl⟩ := hgood
    cases input <;> simp only [perform] at hp
    case count n =>
      split_ifs at hp with hn
      cases hp
      exact step_setFile h ht
    all_goals cases hp; exact step_same h
  | syncFile file =>
    obtain ⟨temporary, ht, rfl⟩ := hgood
    cases input <;> simp only [perform] at hp
    case fine =>
      cases hp
      exact step_setFile h ht
    all_goals cases hp; exact step_same h
  | persistNoclobber temporary name journal =>
    cases input <;> simp only [perform] at hp
    case fine =>
      split_ifs at hp <;> cases hp
      · exact step_same h
      · exact step_ready h hgood.1 hgood.2
    all_goals cases hp; exact step_same h
  | persist temporary name journal =>
    cases input <;> simp only [perform] at hp
    case fine =>
      cases hp
      exact step_ready h hgood.1 hgood.2
    all_goals cases hp; exact step_same h
  | removeFile temporary =>
    simp only [perform] at hp
    cases hp
    exact step_drop h hgood
  | syncDirectory =>
    cases input <;> simp only [perform] at hp
    case fine =>
      cases hp
      exact step_sync h
    all_goals cases hp; exact step_same h
  | syncParent =>
    cases input <;> simp only [perform] at hp
    case fine =>
      cases hp
      exact step_anchor h
    all_goals cases hp; exact step_same h
  | openFile name =>
    cases input <;> simp only [perform] at hp
    case fine =>
      cases hp
      exact step_note h (by rintro u journal ⟨⟩) (by rintro u other result ⟨⟩)
    all_goals cases hp; exact step_same h
  | accepted journal =>
    simp only [perform] at hp
    cases hp
    apply step_note h
    · rintro u other ⟨⟩
      exact hgood
    · rintro u other result ⟨⟩
  | answered name result =>
    simp only [perform] at hp
    cases hp
    apply step_note h
    · rintro u other ⟨⟩
    · rintro u other result' ⟨⟩
      exact hgood

end Steps

/-- What the threads of the directory keep to. -/
def discipline (S : Setup) : Discipline (machine S) where
  inv := Inv S
  rely := Relies
  grows := Grows
  good := Good S
  rely_refl := Relies.refl
  rely_trans _ _ _ _ h h' := h.trans h'
  rely_grows _ _ _ h := h.grows
  perform _ _ _ _ _ _ h hgood hp :=
    have hstep := step_perform h hgood hp
    ⟨hstep.inv, hstep.grows, hstep.relies⟩
  spawned t _ m := m.temporaries t = none ∧ m.begun t = true
  spawn _ _ _ _ h hspawn :=
    have hstep := step_spawn h hspawn
    ⟨hstep.1.inv, hstep.2, hstep.1.relies⟩
  world := nofun
  abandon t _ h :=
    have hstep := @step_abandon S _ t h
    ⟨hstep.inv, hstep.relies⟩
  restart crash _ h := inv_restart crash h

/-! ## Programs -/

section Programs

variable {S : Setup} {t : ℕ}

/-- From memories with `P` the program is safe; it ends with `Q`, or fails with `R`. -/
abbrev Does (S : Setup) (t : ℕ) {α : Type} (P : Mem → Prop) (x : App α) (Q : α → Mem → Prop)
    (R : Mem → Prop) : Prop := Spec (discipline S) t P x Q R

/-- A fact that the steps of others keep. -/
abbrev Firm (S : Setup) (t : ℕ) (P : Mem → Prop) : Prop := Stable (discipline S) t P

/-- Nothing. -/
abbrev Any : Mem → Prop := fun _ => True

theorem firm_any : Firm S t Any := fun _ _ _ _ _ => trivial

theorem firm_const {c : Prop} : Firm S t (fun _ => c) := fun _ _ _ _ h => h

/-- The thread has no temporary file. -/
def Fresh (t : ℕ) (m : Mem) : Prop := m.temporaries t = none ∧ m.begun t = true

/-- The thread has this temporary file. -/
def Owns (t : ℕ) (temporary : Temporary) (m : Mem) : Prop := m.temporaries t = some temporary

/-- The thread's temporary file holds these bytes. -/
def Filled (t : ℕ) (temporary : Temporary) (content : List UInt8) (m : Mem) : Prop :=
  Owns t temporary m ∧ (m.files temporary.file).regular = true ∧
    (m.files temporary.file).content = content

/-- The thread's journal is the first that was published under the name. -/
def First (t : ℕ) (name : String) (journal : WriteJournal) (m : Mem) : Prop :=
  (m.written name).head? = some (t, journal)

/-- So the disk holds it. -/
def Durable (t : ℕ) (name : String) (journal : WriteJournal) (m : Mem) : Prop :=
  (m.kept name).head? = some (t, journal)

theorem firm_fresh : Firm S t (Fresh t) :=
  fun _ _ hrely _ h => ⟨hrely.owned.trans h.1, hrely.grows.begun t h.2⟩

theorem firm_owns (temporary : Temporary) : Firm S t (Owns t temporary) :=
  fun _ _ hrely _ h => hrely.owned.trans h

theorem firm_filled (temporary : Temporary) (content : List UInt8) :
    Firm S t (Filled t temporary content) := by
  intro m m₁ hrely hi h
  obtain ⟨howns, hregular, hcontent⟩ := h
  refine ⟨hrely.owned.trans howns, ?_, ?_⟩
  · rw [hrely.untouched temporary howns, hregular]
  · rw [hrely.untouched temporary howns, hcontent]

theorem firm_ready (temporary : Temporary) (journal : WriteJournal) :
    Firm S t (Ready t temporary journal) := by
  intro m m₁ hrely hi h
  refine ⟨hrely.owned.trans h.owned, ?_, h.sized⟩
  rw [hrely.untouched temporary h.owned, h.holds]

theorem lasting_first (name : String) (journal : WriteJournal) :
    Lasting (discipline S) (First t name journal) :=
  fun _ _ hgrows _ h => head_of_prefix (hgrows.written name) h

theorem lasting_durable (name : String) (journal : WriteJournal) :
    Lasting (discipline S) (Durable t name journal) :=
  fun _ _ hgrows _ h => head_of_prefix (hgrows.kept name) h

/-- INTERNAL: an action that leaves the memory as it is. -/
theorem does_still {a : Act} {P : Mem → Prop} (hP : Firm S t P) (ha : still a = true) :
    Does S t P (act a) (fun _ => P) Any := by
  apply Spec.act hP (fun _ => hP)
  · intro m hi hm
    cases a <;> simp only [still, Bool.false_eq_true] at ha <;> trivial
  · intro m input answer m₁ hi hm hp
    rw [perform_still ha hp]
    exact hm

theorem does_ensure {condition : Bool} {failure : JournalError} {P R : Mem → Prop} (hP : Firm S t P)
    (hR : ∀ m, condition = false → P m → R m) :
    Does S t P (ensure condition failure) (fun _ m => condition = true ∧ P m) R := by
  unfold ensure
  cases condition with
  | true => exact Spec.pure hP fun m _ hm => ⟨rfl, hm⟩
  | false => exact Spec.throw hP fun m _ hm => hR m rfl hm

/-- INTERNAL: an answer that says whether it was done. -/
theorem does_checked {x : App Bool} {P R : Mem → Prop} {Q : Bool → Mem → Prop} (hR : Firm S t R)
    (hQ : ∀ done, Firm S t (Q done)) (hx : Does S t P x Q R) (hfailed : ∀ m, Q false m → R m) :
    Does S t P (checked x) (fun _ => Q true) R := by
  refine Spec.bind hR hx fun done => ?_
  refine Spec.conseq (does_ensure (hQ done) fun m hdone hm => ?_) (fun _ _ hm => hm) ?_
    (fun _ _ hm => hm)
  · rw [hdone] at hm
    exact hfailed m hm
  · intro _ m _ hm
    rw [hm.1] at hm
    exact hm.2

/-- INTERNAL: a failure removes the thread's temporary file. -/
theorem does_orDrop {α : Type} {temporary : Temporary} {x : App α} {P : Mem → Prop}
    {Q : α → Mem → Prop} (hQ : ∀ value, Firm S t (Q value))
    (hx : Does S t P x Q (Owns t temporary)) : Does S t P (orDrop temporary x) Q Any := by
  refine Spec.bind firm_any (Spec.attempt (fun result => ?_) hx) fun result => ?_
  · cases result with
    | ok value => exact hQ value
    | error failure => exact firm_owns temporary
  · cases result with
    | ok value => exact Spec.pure (hQ value) fun _ _ hm => hm
    | error failure =>
      apply Spec.bind (Q := fun _ => Any) firm_any
      · exact Spec.act (firm_owns temporary) (fun _ => firm_any) (fun _ _ hm => hm)
          fun _ _ _ _ _ _ _ => trivial
      · exact fun _ => Spec.throw firm_any fun _ _ _ => trivial

/-- INTERNAL: a write of some bytes of the thread's temporary file. -/
theorem does_write (temporary : Temporary) (content data : List UInt8) :
    Does S t (Filled t temporary content) (act (.write temporary.file data))
      (fun answer => match answer with
        | some n => fun m => (0 < n ∧ n ≤ data.length) ∧ Filled t temporary (content ++ data.take n) m
        | none => Owns t temporary) (Owns t temporary) := by
  apply Spec.act (firm_filled temporary content)
  · intro answer
    cases answer with
    | none => exact firm_owns temporary
    | some n => exact Stable.and firm_const (firm_filled temporary _)
  · exact fun m _ hm => ⟨temporary, hm.1, rfl⟩
  · intro m input answer m₁ _ hm hp
    obtain ⟨howns, hregular, hcontent⟩ := hm
    change perform t (.write temporary.file data) input m = some (answer, m₁) at hp
    cases input <;> simp only [perform] at hp
    case count n =>
      split_ifs at hp with hn
      cases hp
      refine ⟨hn, howns, ?_, ?_⟩
      · simpa [Mem.setFile, File.append] using hregular
      · simp [Mem.setFile, File.append, hcontent]
    all_goals cases hp; exact howns

/-- INTERNAL: **all bytes are written, in as many writes as it takes.** -/
theorem does_writeAll (temporary : Temporary) (fuel : ℕ) : ∀ content data : List UInt8,
    data.length ≤ fuel → Does S t (Filled t temporary content) (writeAll temporary.file fuel data)
      (fun _ => Filled t temporary (content ++ data)) (Owns t temporary) := by
  induction fuel with
  | zero =>
    intro content data hfuel
    obtain rfl : data = [] := List.length_eq_zero_iff.mp (by omega)
    rw [List.append_nil]
    exact Spec.pure (firm_filled temporary content) fun _ _ hm => hm
  | succ fuel ih =>
    intro content data hfuel
    unfold writeAll
    split_ifs with hdata
    · rw [hdata, List.append_nil]
      exact Spec.pure (firm_filled temporary content) fun _ _ hm => hm
    · apply Spec.bind (firm_owns temporary) (does_write temporary content data)
      intro answer
      cases answer with
      | none => exact Spec.throw (firm_owns temporary) fun _ _ hm => hm
      | some n =>
        by_cases hn : 0 < n ∧ n ≤ data.length
        · have hrest := ih (content ++ data.take n) (data.drop n) (by rw [List.length_drop]; omega)
          rw [List.append_assoc, List.take_append_drop] at hrest
          exact hrest.conseq (fun _ _ hm => hm.2) (fun _ _ _ hm => hm) fun _ _ hm => hm
        · exact fun m _ hm => absurd hm.1 hn

/-- INTERNAL: **a temporary file that is filled is complete and synced.** -/
theorem does_fill {temporary : Temporary} {journal : WriteJournal}
    (hsized : journal.toVec.length ≤ MAX_JOURNAL_BYTES) :
    Does S t (Filled t temporary []) (fill temporary journal)
      (fun _ => Ready t temporary journal) (Owns t temporary) := by
  apply Spec.bind (firm_owns temporary) (does_writeAll temporary _ [] journal.toVec le_rfl)
  intro _
  rw [List.nil_append]
  refine does_checked (Q := fun done => if done then Ready t temporary journal else Owns t temporary)
    (firm_owns temporary) (fun done => ?_) ?_ fun _ hm => hm
  · cases done with
    | true => exact firm_ready temporary journal
    | false => exact firm_owns temporary
  · apply Spec.act (firm_filled temporary _)
    · intro done
      cases done with
      | true => exact firm_ready temporary journal
      | false => exact firm_owns temporary
    · exact fun m _ hm => ⟨temporary, hm.1, rfl⟩
    · intro m input answer m₁ _ hm hp
      obtain ⟨howns, hregular, hcontent⟩ := hm
      change perform t (.syncFile temporary.file) input m = some (answer, m₁) at hp
      cases input <;> simp only [perform] at hp
      case fine =>
        cases hp
        refine ⟨howns, ?_, hsized⟩
        simp [Mem.setFile, ← hregular, ← hcontent]
      all_goals cases hp; exact howns

/-- INTERNAL: a new temporary file is empty. -/
theorem does_createNew : Does S t (Fresh t) (act .createNew)
    (fun answer => match answer with
      | some temporary => Filled t temporary []
      | none => Any) Any := by
  apply Spec.act firm_fresh
  · intro answer
    cases answer with
    | none => exact firm_any
    | some temporary => exact firm_filled temporary []
  · exact fun _ _ hm => hm
  · intro m input answer m₁ _ hm hp
    change perform t .createNew input m = some (answer, m₁) at hp
    cases input <;> simp only [perform] at hp
    case random text =>
      split_ifs at hp
      cases hp
      refine ⟨Function.update_self .., ?_, ?_⟩ <;> simp [Mem.createNew]
    all_goals cases hp; trivial

/-- INTERNAL: **what `write_temporary` returns is a complete, private journal.** -/
theorem does_writeTemporary {journal : WriteJournal}
    (hsized : journal.toVec.length ≤ MAX_JOURNAL_BYTES) :
    Does S t (Fresh t) (writeTemporary journal)
      (fun temporary => Ready t temporary journal) Any := by
  apply Spec.bind firm_any does_createNew
  intro answer
  cases answer with
  | none => exact Spec.throw firm_any fun _ _ _ => trivial
  | some temporary =>
    apply Spec.bind firm_any
    · exact does_orDrop (fun _ => firm_ready temporary journal) (does_fill hsized)
    · exact fun _ => Spec.pure (firm_ready temporary journal) fun _ _ hm => hm

theorem does_prepareDirectory : Does S t (Fresh t) prepareDirectory (fun _ => Fresh t) Any := by
  apply Spec.bind firm_any
    (does_checked firm_any (fun _ => firm_fresh) (does_still firm_fresh rfl) fun _ _ => trivial)
  intro _
  apply Spec.bind firm_any (does_still firm_fresh rfl)
  intro answer
  cases answer with
  | none => exact Spec.throw firm_fresh fun _ _ _ => trivial
  | some metadata =>
    apply Spec.bind firm_any (does_ensure firm_fresh fun _ _ _ => trivial)
    intro _
    apply Spec.conseq (does_checked firm_any (fun _ => firm_fresh) (does_still firm_fresh rfl)
      fun _ _ => trivial) (fun _ _ hm => hm.2) (fun _ _ _ hm => hm) fun _ _ hm => hm

/-- INTERNAL: **a name that was free has no history, so the publication is its first.** -/
theorem does_publishFirst {temporary : Temporary} {name : String} {journal : WriteJournal}
    (hname : isTemporary name = false) :
    Does S t (Ready t temporary journal) (publishFirst temporary name journal)
      (fun _ => First t name journal) (Owns t temporary) := by
  apply Spec.bind (Q := fun done : Bool => if done then First t name journal else Owns t temporary)
    (firm_owns temporary)
  · apply Spec.act (firm_ready temporary journal)
    · intro done
      cases done with
      | true => exact (lasting_first name journal).stable
      | false => exact firm_owns temporary
    · exact fun _ _ hm => ⟨hm, hname⟩
    · intro m input answer m₁ hi hm hp
      change perform t (.persistNoclobber temporary name journal) input m = some (answer, m₁) at hp
      cases input <;> simp only [perform] at hp
      case fine =>
        split_ifs at hp with hfree <;> cases hp
        · exact hm.owned
        · obtain ⟨-, hempty⟩ | ⟨file, last, hentry, -⟩ := hi.shown name hname
          · have hwritten : (m.publish t temporary name journal).written name = [(t, journal)] := by
              simp [Mem.publish, hempty]
            exact congrArg List.head? hwritten
          · rw [hentry] at hfree
            exact absurd rfl hfree
      all_goals cases hp; exact hm.owned
  · intro done
    cases done with
    | true => exact Spec.pure (lasting_first name journal).stable fun _ _ hm => hm
    | false => exact Spec.throw (firm_owns temporary) fun _ _ hm => hm

/-- INTERNAL: **after a sync of the directory the disk holds the first journal.** -/
theorem does_syncFirst (name : String) (journal : WriteJournal) :
    Does S t (First t name journal) (checked (act .syncDirectory))
      (fun _ => Durable t name journal) Any := by
  refine does_checked (Q := fun done => if done then Durable t name journal else Any) firm_any
    (fun done => ?_) ?_ fun _ hm => hm
  · cases done with
    | true => exact (lasting_durable name journal).stable
    | false => exact firm_any
  · apply Spec.act (lasting_first name journal).stable
    · intro done
      cases done with
      | true => exact (lasting_durable name journal).stable
      | false => exact firm_any
    · exact fun _ _ _ => trivial
    · intro m input answer m₁ _ hm hp
      change perform t .syncDirectory input m = some (answer, m₁) at hp
      cases input <;> simp only [perform] at hp <;> cases hp <;> first | exact hm | trivial

/-- INTERNAL: **after a sync of the directory above, the first journal outlives the machine.** -/
theorem does_anchorFirst (journal : WriteJournal) :
    Does S t (Durable t (nameOf S journal) journal) (checked (act .syncParent))
      (fun _ m => Stands S m t journal) Any := by
  have hstands : Firm S t (fun m => Stands S m t journal) :=
    fun _ _ hrely _ hm => hm.grows hrely.grows
  refine does_checked (Q := fun done m => if done then Stands S m t journal else True) firm_any
    (fun done => ?_) ?_ fun _ hm => hm
  · cases done with
    | true => exact hstands
    | false => exact firm_any
  · apply Spec.act (lasting_durable _ journal).stable
    · intro done
      cases done with
      | true => exact hstands
      | false => exact firm_any
    · exact fun _ _ _ => trivial
    · intro m input answer m₁ _ hm hp
      change perform t .syncParent input m = some (answer, m₁) at hp
      cases input <;> simp only [perform] at hp <;> cases hp
      · trivial
      · exact ⟨rfl, hm⟩
      all_goals trivial

/-- **`begin` returns `Ok` only if its journal is the first under its name, and durable.** -/
theorem does_begin {journal : WriteJournal} (hsized : journal.toVec.length ≤ MAX_JOURNAL_BYTES) :
    Does S t (Fresh t) (begin S journal) (fun _ m => Stands S m t journal) Any := by
  have hname : isTemporary (nameOf S journal) = false := isTemporary_path ..
  apply Spec.bind firm_any (does_ensure firm_fresh fun _ _ _ => trivial)
  intro _
  apply Spec.bind firm_any (does_prepareDirectory.conseq (fun _ _ hm => hm.2) (fun _ _ _ hm => hm)
    fun _ _ hm => hm)
  intro _
  apply Spec.bind firm_any (does_writeTemporary hsized)
  intro temporary
  apply Spec.bind firm_any (does_orDrop (fun _ => (lasting_first _ journal).stable)
    (does_publishFirst hname))
  intro _
  apply Spec.bind firm_any (does_syncFirst _ journal)
  intro _
  apply Spec.bind firm_any (does_ensure (lasting_durable _ journal).stable fun _ _ _ => trivial)
  intro _
  apply Spec.bind firm_any ((does_anchorFirst journal).conseq (fun _ _ hm => hm.2)
    (fun _ _ _ hm => hm) fun _ _ hm => hm)
  intro _
  exact Spec.pure (fun _ _ hrely _ hm => hm.grows hrely.grows) fun _ _ hm => hm

/-- **`save` publishes what it completed.** -/
theorem does_save {journal : WriteJournal} {name : String}
    (hsized : journal.toVec.length ≤ MAX_JOURNAL_BYTES) (hname : isTemporary name = false) :
    Does S t (Fresh t) (save journal name) (fun _ => Any) Any := by
  apply Spec.bind firm_any (does_writeTemporary hsized)
  intro temporary
  apply Spec.bind (Q := fun _ => Any) firm_any
  · apply does_orDrop (fun _ => firm_any)
    refine does_checked (Q := fun done => if done then Any else Owns t temporary)
      (firm_owns temporary) (fun done => ?_) ?_ fun _ hm => hm
    · cases done with
      | true => exact firm_any
      | false => exact firm_owns temporary
    · apply Spec.act (firm_ready temporary journal)
      · intro done
        cases done with
        | true => exact firm_any
        | false => exact firm_owns temporary
      · exact fun _ _ hm => ⟨hm, hname⟩
      · intro m input answer m₁ _ hm hp
        change perform t (.persist temporary name journal) input m = some (answer, m₁) at hp
        cases input <;> simp only [perform] at hp <;> cases hp <;>
          first | exact hm.owned | trivial
  · intro _
    refine does_checked (Q := fun _ => Any) firm_any (fun _ => firm_any) ?_ fun _ _ => trivial
    exact Spec.act firm_any (fun _ => firm_any) (fun _ _ _ => trivial) fun _ _ _ _ _ _ _ => trivial

end Programs

/-! ## Reading -/

section Reading

variable {S : Setup} {t : ℕ} {α β : Type}

/-- From memories with `P` the program is safe; it ends with `Q`, or because the system failed. -/
def Sees (S : Setup) (t : ℕ) (P : Mem → Prop) (x : App α) (Q : α → Mem → Prop) : Prop :=
  Triple (discipline S) t P x.run fun result m => match result with
    | .ok value => Q value m
    | .error failure => failure = .io

theorem Sees.pure {P : Mem → Prop} {Q : α → Mem → Prop} {value : α} (hP : Firm S t P)
    (h : ∀ m, P m → Q value m) : Sees S t P (pure value) Q := Triple.done hP fun m _ hm => h m hm

theorem Sees.io {P : Mem → Prop} {Q : α → Mem → Prop} : Sees S t P (throw .io) Q :=
  fun _ _ _ _ _ _ => rfl

theorem Sees.bind {P : Mem → Prop} {Q : α → Mem → Prop} {Q' : β → Mem → Prop} {x : App α}
    {f : α → App β} (hx : Sees S t P x Q) (hf : ∀ value, Sees S t (Q value) (f value) Q') :
    Sees S t P (x >>= f) Q' := by
  refine Triple.bind hx fun result => ?_
  cases result with
  | ok value => exact hf value
  | error failure => exact Triple.done (fun _ _ _ _ h => h) fun _ _ h => h

theorem Sees.act {a : Act} {P : Mem → Prop} {Q : Ans a → Mem → Prop} (hP : Firm S t P)
    (hQ : ∀ answer, Firm S t (Q answer)) (hgood : ∀ m, P m → Good S t a m)
    (hpost : ∀ m input answer m₁, Inv S m → P m → perform t a input m = some (answer, m₁) →
      Q answer m₁) : Sees S t P (act a) Q :=
  Triple.act Q hP (fun m _ hm => hgood m hm) hpost fun answer => Triple.done (hQ answer) fun _ _ hm => hm

theorem Sees.exists {P : β → Mem → Prop} {x : App α} {Q : α → Mem → Prop}
    (h : ∀ b, Sees S t (P b) x Q) : Sees S t (fun m => ∃ b, P b m) x Q :=
  fun m hi ⟨b, hb⟩ => h b m hi hb

/-- The thread opened the file when it was the last written under the name. -/
def Found (t : ℕ) (name : String) (file : ℕ) (journal : WriteJournal) (m : Mem) : Prop :=
  Published m file journal ∧ Event.opened t name (some journal) ∈ m.log

theorem firm_found (name : String) (file : ℕ) (journal : WriteJournal) :
    Firm S t (Found t name file journal) :=
  fun _ _ hrely _ h => ⟨hrely.grows.published file journal h.1, hrely.grows.log _ h.2⟩

/-- INTERNAL: **what is opened is what was last written.** -/
theorem sees_openFile {name : String} (hname : isTemporary name = false) :
    Sees S t Any (act (.openFile name)) (fun answer m => match answer with
      | some file => ∃ journal, Found t name file journal m
      | none => True) := by
  apply Sees.act firm_any
  · intro answer
    cases answer with
    | none => exact firm_any
    | some file =>
      rintro m m₁ hrely hi ⟨journal, hfound⟩
      exact ⟨journal, firm_found name file journal m m₁ hrely hi hfound⟩
  · exact fun _ _ => trivial
  · intro m input answer m₁ hi _ hp
    cases input <;> simp only [perform] at hp
    case fine =>
      cases hp
      obtain ⟨hentry, -⟩ | ⟨file, last, hentry, hlast, hpublished⟩ := hi.shown name hname
      · rw [hentry]
        trivial
      · rw [hentry]
        refine ⟨last.2, ⟨hpublished.made, hpublished.holds, hpublished.sized, hpublished.released⟩, ?_⟩
        simp [Mem.note, hlast]
    all_goals cases hp; trivial

/-- INTERNAL: what is opened is a regular file. -/
theorem sees_isFile (name : String) (file : ℕ) (journal : WriteJournal) :
    Sees S t (Found t name file journal) (act (.isFile file))
      (fun answer m => answer ≠ some false ∧ Found t name file journal m) := by
  have hfirm : Firm S t (Found t name file journal) := firm_found name file journal
  apply Sees.act hfirm
  · exact fun _ => Stable.and firm_const hfirm
  · exact fun _ _ => trivial
  · intro m input answer m₁ hi hm hp
    cases input <;> simp only [perform] at hp
    case fine =>
      cases hp
      rw [hm.1.holds]
      exact ⟨nofun, hm⟩
    all_goals cases hp; exact ⟨nofun, hm⟩

/-- INTERNAL: a read brings the next bytes, and none only where there are none. -/
theorem sees_read (name : String) (file : ℕ) (journal : WriteJournal) (offset limit : ℕ) :
    Sees S t (Found t name file journal) (act (.read file offset limit)) (fun answer m =>
      match answer with
      | some chunk => (∃ rest, (journal.toVec.drop offset).take limit = chunk ++ rest ∧
          (chunk = [] → rest = [])) ∧ Found t name file journal m
      | none => True) := by
  apply Sees.act (firm_found name file journal)
  · intro answer
    cases answer with
    | none => exact firm_any
    | some chunk => exact Stable.and firm_const (firm_found name file journal)
  · exact fun _ _ => trivial
  · intro m input answer m₁ hi hm hp
    cases input <;> simp only [perform] at hp
    case count n =>
      have hbytes : nextBytes (m.files file) offset limit = (journal.toVec.drop offset).take limit := by
        rw [hm.1.holds]
        rfl
      rw [hbytes] at hp
      split_ifs at hp with hend hn <;> cases hp
      · exact ⟨⟨[], by rw [hend, List.append_nil], fun _ => rfl⟩, hm⟩
      · refine ⟨⟨_, (List.take_append_drop n _).symm, fun hchunk => ?_⟩, hm⟩
        have hlength := congrArg List.length hchunk
        rw [List.length_take, List.length_nil] at hlength
        omega
    all_goals cases hp; trivial

/-- INTERNAL: **however the file is read, its bytes are read.** -/
theorem sees_readToEnd (name : String) (file : ℕ) (journal : WriteJournal) (fuel : ℕ) :
    ∀ offset limit : ℕ, limit ≤ fuel →
      Sees S t (Found t name file journal) (readToEnd file fuel offset limit)
        (fun content m => content = (journal.toVec.drop offset).take limit ∧
          Found t name file journal m) := by
  induction fuel with
  | zero =>
    intro offset limit hfuel
    obtain rfl : limit = 0 := by omega
    exact Sees.pure (firm_found name file journal) fun m hm => ⟨by rw [List.take_zero], hm⟩
  | succ fuel ih =>
    intro offset limit hfuel
    apply Sees.bind (sees_read name file journal offset limit)
    intro answer
    cases answer with
    | none => exact Sees.io
    | some chunk =>
      simp only
      split_ifs with hchunk
      · apply Sees.pure (Stable.and firm_const (firm_found name file journal))
        rintro m ⟨⟨rest, hbytes, hrest⟩, hm⟩
        rw [hbytes, hchunk, hrest hchunk]
        exact ⟨rfl, hm⟩
      · have hpositive : 0 < chunk.length := List.length_pos_iff.mpr hchunk
        by_cases hbytes : ∃ rest, (journal.toVec.drop offset).take limit = chunk ++ rest
        · obtain ⟨rest, hbytes⟩ := hbytes
          have hrest : rest = (journal.toVec.drop (offset + chunk.length)).take (limit - chunk.length) := by
            have hdrop := congrArg (List.drop chunk.length) hbytes
            rw [List.drop_left, List.drop_take, List.drop_drop] at hdrop
            exact hdrop.symm
          apply Sees.bind
          · intro m hi hm
            exact ih (offset + chunk.length) (limit - chunk.length) (by omega) m hi hm.2
          · intro content
            apply Sees.pure (Stable.and firm_const (firm_found name file journal))
            rintro m ⟨hcontent, hm⟩
            rw [hbytes, hrest, hcontent]
            exact ⟨rfl, hm⟩
        · rintro m hi ⟨⟨rest, hrest, -⟩, -⟩
          exact absurd ⟨rest, hrest⟩ hbytes

theorem parse_toVec (S : Setup) {journal : WriteJournal}
    (hsized : journal.toVec.length ≤ MAX_JOURNAL_BYTES) : parse S journal.toVec = .ok journal := by
  unfold parse
  rw [if_pos hsized, S.decodes]

/-- **`read` returns what was last written when it opened the file, or the system failed.** -/
theorem sees_readJournal {name : String} (hname : isTemporary name = false) :
    Sees S t Any (read S name) (fun journal m => Event.opened t name (some journal) ∈ m.log) := by
  apply Sees.bind (sees_openFile hname)
  intro answer
  cases answer with
  | none => exact Sees.io
  | some file =>
    apply Sees.exists
    intro journal
    have hfirm : Firm S t (Found t name file journal) := firm_found name file journal
    apply Sees.bind (sees_isFile name file journal)
    intro regular
    cases regular with
    | none => exact Sees.io
    | some regular =>
      cases regular with
      | false => exact fun m hi hm => absurd rfl hm.1
      | true =>
        apply Sees.bind (Q := fun _ => Found t name file journal)
        · exact Sees.pure (Stable.and firm_const hfirm) fun m hm => hm.2
        · intro _
          apply Sees.bind (sees_readToEnd name file journal _ 0 _ le_rfl)
          intro content
          rintro m hi ⟨hcontent, hm⟩
          rw [List.drop_zero, List.take_of_length_le (Nat.le_succ_of_le hm.1.sized)] at hcontent
          rw [hcontent, parse_toVec S hm.1.sized]
          exact fun m₁ hrely hi₁ => (hfirm m m₁ hrely hi₁ hm).2

end Reading

/-! ## Runs -/

section Runs

variable (S : Setup)

/-- INTERNAL: **every call keeps to the discipline.** -/
theorem code_disciplined (t : ℕ) (call : Call) :
    Triple (discipline S) t (Fresh t) (code S call) (fun _ _ => True) := by
  have hend : ∀ P, Firm S t P → Triple (discipline S) t P (pure ()) (fun _ _ => True) :=
    fun P hP => Triple.done hP fun _ _ _ => trivial
  cases call with
  | begin journal =>
    apply Triple.bind (does_begin journal.property)
    intro result
    cases result with
    | error failure => exact hend Any firm_any
    | ok name =>
      apply Triple.act (fun _ => Any)
      · exact fun _ _ hrely _ hm => hm.grows hrely.grows
      · exact fun _ _ hm => hm
      · exact fun _ _ _ _ _ _ _ => trivial
      · exact fun _ => hend Any firm_any
  | save journal name =>
    apply Triple.bind (does_save journal.property name.property)
    intro result
    apply hend
    cases result with
    | ok value => exact firm_any
    | error failure => exact firm_any
  | read name =>
    apply Triple.bind (Triple.conseq (sees_readJournal name.property) (fun _ _ _ => trivial)
      fun _ _ _ hm => hm)
    intro result
    apply Triple.act (fun _ => Any)
    · intro m m₁ hrely hi hm
      cases result with
      | ok journal => exact hrely.grows.log _ hm
      | error failure => exact hm
    · intro m hi hm
      cases result with
      | ok journal => exact hm
      | error failure => exact hm
    · exact fun _ _ _ _ _ _ _ => trivial
    · exact fun _ => hend Any firm_any

theorem inv_initial : Inv S Mem.initial := by
  constructor
  case owned => exact fun t temporary ht => by cases ht
  case apart => exact fun t u temporary temporary' ht => by cases ht
  case shown => exact fun name _ => .inl ⟨rfl, rfl⟩
  case stored => exact fun name _ => .inl ⟨rfl, rfl⟩
  case history => exact fun name => List.prefix_rfl
  case accepted => exact fun t journal he => absurd he List.not_mem_nil
  case answered => exact fun t name result he => absurd he List.not_mem_nil
  case begun => exact fun t _ => rfl

theorem reach_disciplined (events : List (SystemEvent Input Empty Crash Call)) :
    ((System.idle Mem.initial).run (machine S) events).Disciplined (discipline S) :=
  System.run_disciplined (code_disciplined S) _ events (.idle (inv_initial S))

/-- **The invariant holds in every state of every run.** -/
theorem reach_inv (events : List (SystemEvent Input Empty Crash Call)) :
    Inv S (reach S events) := (reach_disciplined S events).inv

/-- INTERNAL: what processes do while the machine lives. -/
theorem reach_grows (events later : List (SystemEvent Input Empty Crash Call))
    (hlater : ∀ crash, SystemEvent.restart crash ∉ later) :
    Grows (reach S events) (reach S (events ++ later)) := by
  have hrun := System.run_grows (code_disciplined S) (fun _ _ _ h h' => h.trans h') _ later
    (reach_disciplined S events) hlater
  rwa [← System.run_append] at hrun

end Runs

/-! ## Names -/

/-- INTERNAL: what follows the last separator. -/
theorem split_last {a b a' b' : List Char} {c : Char} (hb : c ∉ b) (hb' : c ∉ b')
    (h : a ++ c :: b = a' ++ c :: b') : a = a' ∧ b = b' := by
  induction a generalizing a' with
  | nil =>
    cases a' with
    | nil => simpa using h
    | cons x a' =>
      simp only [List.nil_append, List.cons_append, List.cons.injEq] at h
      exact absurd (h.2 ▸ List.mem_append_right a' List.mem_cons_self) hb
  | cons x a ih =>
    cases a' with
    | nil =>
      simp only [List.nil_append, List.cons_append, List.cons.injEq] at h
      exact absurd (h.2 ▸ List.mem_append_right a List.mem_cons_self) hb'
    | cons y a' =>
      simp only [List.cons_append, List.cons.injEq] at h
      obtain ⟨rfl, rfl⟩ := ih h.2
      exact ⟨by rw [h.1], rfl⟩

theorem no_nul_of_reviewText {value : String} (h : Model.reviewText value = true) :
    '\x00' ∉ value.toList := by
  intro hmem
  simp only [Model.reviewText, Bool.and_eq_true, Bool.not_eq_true'] at h
  exact absurd (List.any_eq_false.mp h.2 _ hmem) (by decide)

/-- INTERNAL: the characters of an identifier. -/
theorem no_nul_of_uuidFrom : ∀ (index : ℕ) (text : List Char), Model.uuidFrom index text = true →
    '\x00' ∉ text
  | _, [], _ => List.not_mem_nil
  | index, c :: text, h => by
    simp only [Model.uuidFrom, Bool.and_eq_true] at h
    rw [List.mem_cons, not_or]
    refine ⟨?_, no_nul_of_uuidFrom (index + 1) text h.2⟩
    rintro rfl
    split_ifs at h
    · exact absurd h.1 (by decide)
    · exact absurd h.1 (by decide)

/-- Two attempts are for one place: the same server up to trailing slashes, account, folder id and
reference. -/
structure SamePlace (server : String) (d : Destination) (server' : String) (d' : Destination) :
    Prop where
  server : trimSlashes server = trimSlashes server'
  account : d.accountId = d'.accountId
  folderId : d.folderId = d'.folderId
  reference : d.reference = d'.reference

theorem path_of_samePlace (E : Model.Externals) {server server' : String} {d d' : Destination}
    (h : SamePlace server d server' d') : path E server d = path E server' d' := by
  unfold path digestText
  rw [h.server, h.account, h.folderId, h.reference]

/-- INTERNAL: what the parts of a destination may hold. -/
theorem no_nul_of_itemName {d : Destination} (h : d.itemName.isSome = true) :
    '\x00' ∉ d.accountId.toList ∧ '\x00' ∉ d.folderId.toList ∧ '\x00' ∉ d.reference.toList := by
  unfold Destination.itemName at h
  split_ifs at h with hvalid
  · simp only [Bool.and_eq_true, Model.validId, Model.uuidShape] at hvalid
    obtain ⟨⟨⟨haccount, hfolder⟩, -⟩, hreference⟩ := hvalid
    refine ⟨no_nul_of_uuidFrom 0 _ haccount.2, no_nul_of_uuidFrom 0 _ hfolder.2, ?_⟩
    exact no_nul_of_reviewText (reviewText_of_canonicalPath _ hreference)
  · cases h

/-- INTERNAL: the digested text tells the place. -/
theorem samePlace_of_digestText {server server' : String} {d d' : Destination}
    (hd : d.itemName.isSome = true) (hd' : d'.itemName.isSome = true)
    (h : digestText server d = digestText server' d') : SamePlace server d server' d' := by
  obtain ⟨haccount, hfolder, hreference⟩ := no_nul_of_itemName hd
  obtain ⟨haccount', hfolder', hreference'⟩ := no_nul_of_itemName hd'
  have htext := String.ofList_inj.mp h
  simp only [← List.cons_append, ← List.append_assoc] at htext
  obtain ⟨htext, href⟩ := split_last hreference hreference' htext
  obtain ⟨htext, hfol⟩ := split_last hfolder hfolder' htext
  obtain ⟨hserver, hacc⟩ := split_last haccount haccount' htext
  exact ⟨String.toList_inj.mp hserver, String.toList_inj.mp hacc, String.toList_inj.mp hfol,
    String.toList_inj.mp href⟩

/-- INTERNAL: **two places share a file only where two texts share a SHA-256 digest.** -/
theorem samePlace_of_path {E : Model.Externals} {server server' : String} {d d' : Destination}
    (hd : d.itemName.isSome = true) (hd' : d'.itemName.isSome = true)
    (h : path E server d = path E server' d') : SamePlace server d server' d' ∨
      (digestText server d ≠ digestText server' d' ∧
        E.sha256 (bytes (digestText server d)) = E.sha256 (bytes (digestText server' d'))) := by
  have hhex : hexSha256 E (bytes (digestText server d)) =
      hexSha256 E (bytes (digestText server' d')) := by
    unfold path at h
    exact (String.append_right_inj _).mp ((String.append_left_inj _).mp h)
  by_cases htext : digestText server d = digestText server' d'
  · exact .inl (samePlace_of_digestText hd hd' htext)
  · exact .inr ⟨htext, sha256_of_hexSha256 hhex⟩

/-! ## The journal's promise -/

/-- What holds of the directory and its history, at every instant. -/
structure Guarded (S : Setup) (m : Mem) : Prop where
  /-- At most one `begin` for a place returns `Ok`. -/
  once : ∀ t u journal journal', Event.accepted t journal ∈ m.log →
    Event.accepted u journal' ∈ m.log →
    SamePlace journal.server journal.destination journal'.server journal'.destination →
    t = u ∧ journal = journal'
  /-- No other journal was published under the name before its own. -/
  first : ∀ t journal, Event.accepted t journal ∈ m.log →
    (m.written (nameOf S journal)).head? = some (t, journal)
  /-- A file is absent, or it is the complete journal that was last written. -/
  complete : ∀ name, isTemporary name = false →
    (m.entries name = none ∧ m.written name = []) ∨
      ∃ file last, m.entries name = some file ∧ (m.written name).getLast? = some last ∧
        (m.files file).regular = true ∧ (m.files file).content = last.2.toVec ∧
        parse S (m.files file).content = .ok last.2
  /-- `read` returns what was last written when it opened the file, unless the system fails. -/
  read : ∀ t name result, Event.answered t name result ∈ m.log →
    (∃ journal, result = .ok journal ∧ Event.opened t name (some journal) ∈ m.log) ∨
      result = .error .io

/-- INTERNAL: the invariant says so. -/
theorem Inv.guarded {S : Setup} {m : Mem} (h : Inv S m) : Guarded S m := by
  have hfirst : ∀ t journal, Event.accepted t journal ∈ m.log →
      (m.written (nameOf S journal)).head? = some (t, journal) :=
    fun t journal he => head_of_prefix (h.history _) (h.accepted t journal he).first
  constructor
  case first => exact hfirst
  case once =>
    intro t u journal journal' he he' hplace
    have hname : nameOf S journal = nameOf S journal' := path_of_samePlace S.externals hplace
    have hhead := hfirst t journal he
    rw [hname, hfirst u journal' he', Option.some.injEq, Prod.mk.injEq] at hhead
    exact ⟨hhead.1.symm, hhead.2.symm⟩
  case complete =>
    intro name hname
    obtain hnone | ⟨file, last, hentry, hlast, hpublished⟩ := h.shown name hname
    · exact .inl hnone
    · refine .inr ⟨file, last, hentry, hlast, ?_, ?_, ?_⟩
      · rw [hpublished.holds]
      · rw [hpublished.holds]
      · rw [hpublished.holds]
        exact parse_toVec S hpublished.sized
  case read =>
    intro t name result he
    have htold := h.answered t name result he
    cases result with
    | ok journal => exact .inl ⟨journal, rfl, htold⟩
    | error failure => exact .inr (congrArg Except.error htold)

end VaultAccess.Analysis.Journals
