import VaultAccess.Analysis.Leases
import VaultAccess.Library.Outcomes

/-!
# Leases outlive every crash

Each program of the supervisor keeps what may run on disk wherever it stops; one life follows
another, and the next reading of the leases finds every complete one and no other.
-/

set_option autoImplicit false

namespace VaultAccess.Analysis.Leases

open VaultAccess.Library VaultAccess.Library.Text VaultAccess.Model.Manager VaultAccess.Model.Leases
open VaultAccess.Model (ExecutionError CleanupEvidence)
open VaultAccess.Model.Persistence (PRIVATE_FILE_MODE)

section Steps

variable {S : Setup} {m m₀ m₁ : Mem} {lease lease' : Lease}

/-! ## One action -/

/-- INTERNAL: an action, and what follows each answer that the directory allows. -/
theorem keeps_act {β : Type} {stopped : Mem → Prop} {a : Act} {f : Ans a → Steps β} {ended : β → Mem → Prop}
    (hm : stopped m)
    (h : ∀ answer, allowed S.config m a answer = true →
      Prog.Keeps (perform S) stopped (f answer) ended (effect S m a answer)) :
    Prog.Keeps (perform S) stopped (step a >>= f) ended m := by
  refine ⟨hm, ?_⟩
  intro input answer m₁ hperform
  unfold perform at hperform
  split at hperform
  · cases hperform
  · next answer' _ =>
    split_ifs at hperform with hallowed
    obtain ⟨rfl, rfl⟩ := Prod.mk.inj (Option.some.inj hperform)
    exact h answer' hallowed

/-! ## What a recording may change -/

/-- INTERNAL: nothing happened but faults, and every lease that was on disk is. -/
structure Near (S : Setup) (m₀ m : Mem) : Prop where
  base : Base S m
  disk : ∀ lease, OnDisk S m₀ lease → OnDisk S m lease
  faults : ∃ new, m.events = m₀.events ++ new ∧ ∀ e ∈ new, e = .fault

theorem Near.refl (h : Base S m) : Near S m m :=
  ⟨h, fun _ h => h, [], by simp, by simp⟩

theorem Near.trans (h : Near S m₀ m) (h' : Near S m m₁) : Near S m₀ m₁ := by
  obtain ⟨new, hevents, hnew⟩ := h.faults
  obtain ⟨new', hevents', hnew'⟩ := h'.faults
  refine ⟨h'.base, fun lease hlease => h'.disk lease (h.disk lease hlease), new ++ new', ?_, ?_⟩
  · rw [hevents', hevents, List.append_assoc]
  · intro e he
    rcases List.mem_append.mp he with hold | hlater
    · exact hnew e hold
    · exact hnew' e hlater

/-- INTERNAL: a fault is no start, no observation and no removal. -/
theorem Near.since {Marked : List Event → Event → Prop} {Quiet : Event → Prop} (h : Near S m₀ m)
    (hmarked : ∀ earlier, ¬ Marked earlier .fault) (hquiet : Quiet .fault) :
    Since Marked Quiet m.events ↔ Since Marked Quiet m₀.events := by
  obtain ⟨new, hevents, hnew⟩ := h.faults
  rw [hevents]
  clear hevents
  induction new using List.reverseRecOn with
  | nil => rw [List.append_nil]
  | append_singleton new e ih =>
    rw [← List.append_assoc, since_snoc, ih fun e he => hnew e (List.mem_append_left _ he),
      hnew e (by simp)]
    constructor
    · rintro (hfault | ⟨hold, -⟩)
      · exact absurd hfault (hmarked _)
      · exact hold
    · intro hold
      exact Or.inr ⟨hold, hquiet⟩

theorem Near.mayRun (h : Near S m₀ m) : MayRun m.events lease ↔ MayRun m₀.events lease :=
  h.since (by simp) (by simp)

theorem Near.spotted (h : Near S m₀ m) : Spotted m.events lease ↔ Spotted m₀.events lease :=
  h.since (by simp) (by simp)

theorem Near.early (h : Near S m₀ m) : Early m.events ↔ Early m₀.events :=
  h.since (by simp) (by simp)

theorem Near.scanned (h : Near S m₀ m) (hscanned : Scanned S m₀) : Scanned S m := by
  intro lease hspotted
  exact h.disk lease (hscanned lease (h.spotted.mp hspotted))

theorem Near.inv (h : Near S m₀ m) (hinv : Inv S m₀) : Inv S m := by
  refine ⟨h.base, ?_⟩
  rcases hinv.2 with hearly | hscanned
  · exact Or.inl (h.early.mpr hearly)
  · exact Or.inr (h.scanned hscanned)

theorem near_fault (h : Base S m) : Near S m (m.log .fault) := by
  refine ⟨h.log (by simp) (by simp), fun _ h => h, [.fault], rfl, by simp⟩

/-- INTERNAL: files that are not leases come and go. -/
theorem near_files {files : List (String × File)} (h : Base S m)
    (hproper : ∀ e ∈ files, Proper S e)
    (hunique : ∀ e ∈ files, ∀ e' ∈ files, e.1 = e'.1 → e = e')
    (hleases : ∀ e ∈ m.files, S.config.kind e.1 ≠ .staging → e ∈ files) :
    Near S m { m with files } := by
  have hdisk : ∀ lease, OnDisk S m lease → OnDisk S { m with files } lease := by
    rintro lease ⟨howns, file, hfile, hcontent⟩
    refine ⟨howns, file, hleases _ hfile ?_, hcontent⟩
    rw [kind_leasePath howns]
    simp
  refine ⟨⟨hproper, hunique, ?_, h.ended⟩, hdisk, [], by simp, by simp⟩
  intro lease hmay
  exact hdisk lease (h.kept lease hmay)

/-- A staging file with its content. -/
def Staged (m : Mem) (staging : String) (bytes : List UInt8) : Prop :=
  ∃ file, (staging, file) ∈ m.files ∧ file.content = bytes

theorem not_mem_of_not_present {filename : String} (h : m.present filename = false) :
    ∀ e ∈ m.files, e.1 ≠ filename := by
  simp only [Mem.present, List.any_eq_false, decide_eq_true_eq] at h
  exact h

/-- INTERNAL: a new file. -/
theorem near_add {filename : String} {file : File} (h : Base S m) (hnew : m.present filename = false)
    (hproper : Proper S (filename, file)) : Near S m (m.add filename file) := by
  have habsent := not_mem_of_not_present hnew
  apply near_files h
  · intro e he
    rcases List.mem_append.mp he with hold | hadded
    · exact h.proper e hold
    · rw [List.mem_singleton.mp hadded]
      exact hproper
  · intro e he e' he' heq
    rcases List.mem_append.mp he with hold | hadded
    · rcases List.mem_append.mp he' with hold' | hadded'
      · exact h.unique e hold e' hold' heq
      · rw [List.mem_singleton.mp hadded'] at heq
        exact absurd heq (habsent e hold)
    · rcases List.mem_append.mp he' with hold' | hadded'
      · rw [List.mem_singleton.mp hadded] at heq
        exact absurd heq.symm (habsent e' hold')
      · rw [List.mem_singleton.mp hadded, List.mem_singleton.mp hadded']
  · intro e he _
    exact List.mem_append_left _ he

/-- INTERNAL: a new staging file. -/
theorem near_create {staging : String} (h : Base S m) (hkind : S.config.kind staging = .staging)
    (hnew : m.present staging = false) :
    Near S m (m.add staging ⟨true, S.process.uid, PRIVATE_FILE_MODE &&& ~~~S.process.umask, []⟩) ∧
      Staged (m.add staging ⟨true, S.process.uid, PRIVATE_FILE_MODE &&& ~~~S.process.umask, []⟩) staging [] := by
  constructor
  · apply near_add h hnew
    refine ⟨?_, Or.inl hkind⟩
    simp only [File.isPrivate, S.process.keeps, decide_true, Bool.true_and, decide_eq_true_eq]
    decide
  · exact ⟨_, List.mem_append_right _ (List.mem_singleton.mpr rfl), rfl⟩

/-- INTERNAL: more bytes of a staging file. -/
theorem near_append {staging : String} {bytes : List UInt8} (more : List UInt8) (h : Base S m)
    (hkind : S.config.kind staging = .staging) (hstaged : Staged m staging bytes) :
    Near S m (m.append staging more) ∧ Staged (m.append staging more) staging (bytes ++ more) := by
  constructor
  · apply near_files h
    · intro e he
      obtain ⟨old, hold, rfl⟩ := List.mem_map.mp he
      have hproper := h.proper old hold
      by_cases hname : old.1 = staging
      · rw [if_pos hname]
        exact ⟨hproper.1, Or.inl (by rw [hname]; exact hkind)⟩
      · rw [if_neg hname]
        exact hproper
    · intro e he e' he' heq
      obtain ⟨old, hold, rfl⟩ := List.mem_map.mp he
      obtain ⟨old', hold', rfl⟩ := List.mem_map.mp he'
      have hname : ∀ e : String × File, (if e.1 = staging then (e.1, { e.2 with content := e.2.content ++ more })
          else e).1 = e.1 := by
        intro e
        split_ifs <;> rfl
      rw [hname, hname] at heq
      rw [h.unique old hold old' hold' heq]
    · intro e he hlease
      refine List.mem_map.mpr ⟨e, he, ?_⟩
      rw [if_neg]
      rintro rfl
      exact hlease hkind
  · obtain ⟨file, hfile, rfl⟩ := hstaged
    refine ⟨{ file with content := file.content ++ more }, List.mem_map.mpr ⟨_, hfile, ?_⟩, rfl⟩
    rw [if_pos rfl]

/-- INTERNAL: the staging file becomes the lease. -/
theorem near_link {staging : String} (h : Base S m) (hstaged : Staged m staging (encode lease))
    (howns : S.config.ownsName lease.name = true) (hnew : m.present (leasePath lease.name) = false) :
    Near S m (m.link staging (leasePath lease.name)) ∧
      OnDisk S (m.link staging (leasePath lease.name)) lease := by
  obtain ⟨file, hfile, hcontent⟩ := hstaged
  have hlink : m.link staging (leasePath lease.name) = m.add (leasePath lease.name) file := by
    unfold Mem.link
    cases hfind : m.files.find? fun e => e.1 = staging with
    | none =>
      have hnone := List.find?_eq_none.mp hfind _ hfile
      simp at hnone
    | some e =>
      have hname : e.1 = staging := by simpa using List.find?_some hfind
      have heq := h.unique e (List.mem_of_find?_eq_some hfind) _ hfile hname
      rw [heq]
  rw [hlink]
  constructor
  · apply near_add h hnew
    exact ⟨(h.proper _ hfile).1, Or.inr ⟨lease, howns, rfl, hcontent⟩⟩
  · exact ⟨howns, file, List.mem_append_right _ (List.mem_singleton.mpr rfl), hcontent⟩

/-- INTERNAL: a staging file is removed. -/
theorem near_delete {staging : String} (h : Base S m) (hkind : S.config.kind staging = .staging) :
    Near S m (m.delete staging) := by
  apply near_files h
  · intro e he
    exact h.proper e (List.mem_filter.mp he).1
  · intro e he e' he'
    exact h.unique e (List.mem_filter.mp he).1 e' (List.mem_filter.mp he').1
  · intro e he hlease
    refine List.mem_filter.mpr ⟨he, ?_⟩
    simp only [ne_eq, decide_eq_true_eq]
    rintro rfl
    exact hlease hkind

/-! ## Recording -/

theorem Near.fault (h : Near S m₀ m) : Near S m₀ (m.log .fault) := h.trans (near_fault h.base)

/-- INTERNAL: the bytes are written one piece after another. -/
theorem keeps_writeAll {staging : String} (hkind : S.config.kind staging = .staging) (fuel : ℕ) :
    ∀ (bytes written : List UInt8) (m : Mem), bytes.length ≤ fuel → Near S m₀ m → Staged m staging written →
      Prog.Keeps (perform S) (Near S m₀) (writeAll staging fuel bytes)
        (fun ok m => ok = true → Staged m staging (written ++ bytes)) m := by
  induction fuel with
  | zero =>
    intro bytes written m hlength hm hstaged
    have hempty : bytes = [] := List.length_eq_zero_iff.mp (Nat.le_zero.mp hlength)
    refine ⟨hm, fun _ => ?_⟩
    rw [hempty, List.append_nil]
    exact hstaged
  | succ fuel ih =>
    intro bytes written m hlength hm hstaged
    unfold writeAll
    cases bytes with
    | nil =>
      refine ⟨hm, fun _ => ?_⟩
      rw [List.append_nil]
      exact hstaged
    | cons byte rest =>
      apply keeps_act hm
      intro answer _
      cases answer with
      | none => exact ⟨hm.fault, by simp⟩
      | some n =>
        obtain ⟨hnear, hmore⟩ := near_append ((byte :: rest).take n) hm.base hkind hstaged
        cases n with
        | zero => exact ⟨hm.trans hnear, by simp⟩
        | succ n =>
          have hrest := ih ((byte :: rest).drop (n + 1)) _ _ ?_ (hm.trans hnear) hmore
          · rw [List.append_assoc, List.take_append_drop] at hrest
            exact hrest
          · rw [List.length_drop]
            simp only [List.length_cons] at hlength ⊢
            omega

/-- INTERNAL: from the bytes to the synced directory. -/
theorem keeps_publish {staging : String} (hkind : S.config.kind staging = .staging)
    (howns : S.config.ownsName lease.name = true) (hm : Near S m₀ m) (hstaged : Staged m staging []) :
    Prog.Keeps (perform S) (Near S m₀) (publish lease staging)
      (fun result m => result = .ok () → OnDisk S m lease ∧ ∀ lease', lease'.name = lease.name →
        ¬ OnDisk S m₀ lease') m := by
  unfold publish
  apply Prog.Keeps.bind
  apply (keeps_writeAll hkind _ _ _ m le_rfl hm hstaged).mono
  intro ok m hm hwritten
  cases ok with
  | false => exact ⟨hm, by simp⟩
  | true =>
    apply keeps_act hm
    intro synced _
    cases synced with
    | false => exact ⟨hm.fault, by simp⟩
    | true =>
      apply keeps_act hm
      intro linked hallowed
      cases linked with
      | false => exact ⟨hm.fault, by simp⟩
      | true =>
        simp only [allowed, Bool.not_true, Bool.false_or, Bool.and_eq_true, Bool.not_eq_true'] at hallowed
        obtain ⟨hnear, hdisk⟩ := near_link hm.base (hwritten rfl) howns hallowed.2
        have hfresh : ∀ lease', lease'.name = lease.name → ¬ OnDisk S m₀ lease' := by
          intro lease' hname hold
          obtain ⟨-, file, hfile, -⟩ := hm.disk lease' hold
          rw [hname] at hfile
          exact not_mem_of_not_present hallowed.2 _ hfile rfl
        apply keeps_act (hm.trans hnear)
        intro synced _
        cases synced with
        | false => exact ⟨(hm.trans hnear).fault, by simp⟩
        | true => exact ⟨hm.trans hnear, fun _ => ⟨hdisk, hfresh⟩⟩

/-- INTERNAL: a staging file is removed, or it is not. -/
theorem keeps_unstage {β : Type} {staging : String} {f : Bool → Steps β} {ended : β → Mem → Prop}
    (hkind : S.config.kind staging = .staging) (hm : Near S m₀ m)
    (hremoved : Near S m (m.delete staging) → Prog.Keeps (perform S) (Near S m₀) (f true) ended (m.delete staging))
    (hfault : Prog.Keeps (perform S) (Near S m₀) (f false) ended (m.log .fault)) :
    Prog.Keeps (perform S) (Near S m₀) (step (.removeFile staging) >>= f) ended m := by
  apply keeps_act hm
  intro removed _
  cases removed with
  | false => exact hfault
  | true =>
    have heffect : effect S m (.removeFile staging) true = m.delete staging := by
      simp only [effect, if_true, hkind]
    rw [heffect]
    exact hremoved (near_delete hm.base hkind)

/-- **A recording.** Wherever it stops, nothing is missing; at its end the lease is on disk, where
none of its name was. -/
theorem keeps_record (lease : Lease) (hm : Base S m) :
    Prog.Keeps (perform S) (Near S m) (record S lease)
      (fun result m' => result = .ok () → OnDisk S m' lease ∧ ∀ lease', lease'.name = lease.name →
        ¬ OnDisk S m lease') m := by
  have hnear := Near.refl hm
  unfold record
  split_ifs with howned
  · exact ⟨hnear, by simp⟩
  · have howns : S.config.ownsName lease.name = true := by simpa using howned
    apply keeps_act hnear
    intro random _
    cases random with
    | none => exact ⟨hnear, by simp⟩
    | some random =>
      have hkind := kind_stagingPath howns random
      apply keeps_act hnear
      intro created hallowed
      cases created with
      | false => exact ⟨hnear.fault, by simp⟩
      | true =>
        simp only [allowed, Bool.not_true, Bool.false_or, Bool.not_eq_true'] at hallowed
        obtain ⟨hcreated, hstaged⟩ := near_create hm hkind hallowed
        apply Prog.Keeps.bind
        apply (keeps_publish hkind howns (hnear.trans hcreated) hstaged).mono
        intro result m₁ hm₁ hpublished
        apply keeps_unstage hkind hm₁
        · intro hremoved
          have hm₂ := hm₁.trans hremoved
          cases result with
          | error error => exact ⟨hm₂, by simp⟩
          | ok u =>
            obtain ⟨hdisk, hfresh⟩ := hpublished rfl
            apply keeps_act hm₂
            intro synced _
            cases synced with
            | false => exact ⟨hm₂.fault, by simp⟩
            | true => exact ⟨hm₂, fun _ => ⟨hremoved.disk lease hdisk, hfresh⟩⟩
        · cases result with
          | error error => exact ⟨hm₁.fault, by simp⟩
          | ok u => exact ⟨hm₁.fault, by simp⟩

/-! ## Reading the leases -/

/-- A fault happened since. -/
def Faulted (m₀ m : Mem) : Prop := ∃ new, m.events = m₀.events ++ new ∧ Event.fault ∈ new

/-- A complete lease is longer than what is read. -/
def TooLong (S : Setup) (m : Mem) : Prop := ∃ lease, OnDisk S m lease ∧ 4096 < (encode lease).length

theorem Near.faulted (h : Near S m₀ m) : Faulted m₀ (m.log .fault) := by
  obtain ⟨new, hevents, -⟩ := h.faults
  refine ⟨new ++ [.fault], ?_, by simp⟩
  rw [Mem.log, hevents, List.append_assoc]

theorem Faulted.later (h : Faulted m₀ m) (hnear : Near S m m₁) : Faulted m₀ m₁ := by
  obtain ⟨new, hevents, hfault⟩ := h
  obtain ⟨new', hevents', -⟩ := hnear.faults
  refine ⟨new ++ new', ?_, List.mem_append_left _ hfault⟩
  rw [hevents', hevents, List.append_assoc]

/-- INTERNAL: a staging file that an earlier life left. -/
theorem keeps_sweep {filename : String} (hkind : S.config.kind filename = .staging) (hm : Near S m₀ m) :
    Prog.Keeps (perform S) (Near S m₀) (sweep S filename)
      (fun result m' => Near S m m' ∧ (result = .ok () ∨ Faulted m₀ m')) m := by
  have hsame := Near.refl hm.base
  unfold sweep
  apply keeps_act hm
  intro metadata hallowed
  cases metadata with
  | none => exact ⟨hm.fault, near_fault hm.base, Or.inr hm.faulted⟩
  | some file =>
    simp only [allowed, Option.all_some, decide_eq_true_eq] at hallowed
    have hprivate := (hm.base.proper _ hallowed).1
    simp only [hprivate, Bool.not_true, Bool.false_eq_true, if_false]
    apply keeps_unstage hkind hm
    · intro hremoved
      have hm₁ := hm.trans hremoved
      apply keeps_act hm₁
      intro synced _
      cases synced with
      | false => exact ⟨hm₁.fault, hremoved.fault, Or.inr hm₁.faulted⟩
      | true => exact ⟨hm₁, hremoved, Or.inl rfl⟩
    · exact ⟨hm.fault, near_fault hm.base, Or.inr hm.faulted⟩

/-- INTERNAL: a lease file is read. -/
theorem keeps_readLease {filename name : String} (hkind : S.config.kind filename = .lease name)
    (hm : Near S m₀ m) :
    Prog.Keeps (perform S) (Near S m₀) (readLease S filename name)
      (fun result m' => Near S m m' ∧ (∀ lease, result = .ok lease → lease.name = name ∧ OnDisk S m' lease) ∧
        (result.isOk = false → Faulted m₀ m' ∨ TooLong S m')) m := by
  have hsame := Near.refl hm.base
  obtain ⟨rfl, -⟩ := eq_leasePath hkind
  unfold readLease
  apply keeps_act hm
  intro file hallowed
  cases file with
  | none => exact ⟨hm.fault, near_fault hm.base, by simp, fun _ => Or.inl hm.faulted⟩
  | some file =>
    simp only [allowed, Option.all_some, decide_eq_true_eq] at hallowed
    have hproper := hm.base.proper _ hallowed
    obtain ⟨lease, howns, hpath, hcontent⟩ := hproper.complete (by simp [hkind])
    have hname : lease.name = name := by
      have happend : lease.name ++ ".json" = name ++ ".json" := hpath.symm
      have hlist := congrArg String.toList happend
      simp only [String.toList_append, List.append_cancel_right_eq] at hlist
      exact String.toList_inj.mp hlist
    have hdisk : OnDisk S m lease := ⟨howns, file, by rw [hname]; exact hallowed, hcontent⟩
    by_cases hlong : 4096 < file.content.length
    · simp only [hproper.1, Bool.not_true, Bool.false_or, hlong, decide_true, if_true]
      refine ⟨hm, hsame, by simp, fun _ => Or.inr ⟨lease, hdisk, ?_⟩⟩
      rw [← hcontent]
      exact hlong
    · have hdecode : S.codec.decode file.content = some lease := by
        rw [hcontent]
        exact S.codec.decodes lease
      simp only [hproper.1, Bool.not_true, Bool.false_or, hlong, decide_false, Bool.false_eq_true, if_false]
      rw [hdecode]
      simp only [hname, ne_eq, not_true_eq_false, if_false]
      refine ⟨hm, hsame, ?_, by simp [Except.isOk, Except.toBool]⟩
      intro lease' hresult
      rw [← Except.ok.inj hresult]
      exact ⟨hname, hdisk⟩

/-- What a reading of the leases ends with: all of them, or what kept it from its end. -/
structure Found (S : Setup) (m₀ : Mem) (names : List (Option String)) (result : Except ExecutionError (List Lease))
    (m : Mem) : Prop where
  listed : ∀ found, result = .ok found → (∀ lease ∈ found, OnDisk S m lease) ∧
    ∀ filename name, some filename ∈ names → S.config.kind filename = .lease name →
      ∃ lease ∈ found, lease.name = name
  failed : result.isOk = false → Faulted m₀ m ∨ TooLong S m

/-- INTERNAL: one more name. -/
theorem Found.cons {rest : List (Option String)} {filename : String}
    {result : Except ExecutionError (List Lease)} (h : Found S m₀ rest result m)
    (hfirst : ∀ name, S.config.kind filename = .lease name → ∀ found, result = .ok found →
      ∃ lease ∈ found, lease.name = name) : Found S m₀ (some filename :: rest) result m := by
  refine ⟨fun found heq => ⟨(h.listed found heq).1, ?_⟩, h.failed⟩
  intro other name hother hkind
  rcases List.mem_cons.mp hother with hsame | hmem
  · obtain rfl := Option.some.inj hsame
    exact hfirst name hkind found heq
  · exact (h.listed found heq).2 other name hmem hkind

/-- INTERNAL: the names of the directory, one after another. -/
theorem keeps_leasesFrom (names : List (Option String)) :
    ∀ (found : List Lease) (m : Mem), Near S m₀ m → (none ∈ names → Faulted m₀ m) →
      (∀ lease ∈ found, OnDisk S m lease) →
      Prog.Keeps (perform S) (Near S m₀) (leasesFrom S names found)
        (fun result m' => Found S m₀ names result m' ∧ ∀ all, result = .ok all → ∀ lease ∈ found, lease ∈ all) m := by
  induction names with
  | nil =>
    intro found m hm _ hfound
    refine ⟨hm, ⟨?_, by simp [Except.isOk, Except.toBool]⟩, ?_⟩
    · intro all hall
      obtain rfl := Except.ok.inj hall
      exact ⟨hfound, by simp⟩
    · intro all hall
      obtain rfl := Except.ok.inj hall
      exact fun lease hlease => hlease
  | cons entry rest ih =>
    intro found m hm hnone hfound
    cases entry with
    | none => exact ⟨hm, ⟨by simp, fun _ => Or.inl (hnone (by simp))⟩, by simp⟩
    | some filename =>
      have hrest : none ∈ rest → Faulted m₀ m := fun h => hnone (List.mem_cons_of_mem _ h)
      have hlater : ∀ {m'}, Near S m m' → none ∈ rest → Faulted m₀ m' := fun hnear h => (hrest h).later hnear
      unfold leasesFrom
      split
      · next hkind =>
        apply Prog.Keeps.bind
        apply (keeps_sweep hkind hm).mono
        rintro result m₁ hm₁ ⟨hnear, hresult⟩
        cases result with
        | error error => exact ⟨hm₁, ⟨by simp, fun _ => Or.inl (hresult.resolve_left (by simp))⟩, by simp⟩
        | ok u =>
          have hmore := ih found m₁ hm₁ (hlater hnear) fun lease hlease => hnear.disk lease (hfound lease hlease)
          apply hmore.mono
          rintro result m₂ - ⟨hall, hkept⟩
          refine ⟨hall.cons ?_, hkept⟩
          intro name hlease
          rw [hkind] at hlease
          cases hlease
      · next name hkind =>
        apply Prog.Keeps.bind
        apply (keeps_readLease hkind hm).mono
        rintro result m₁ hm₁ ⟨hnear, hread, hbad⟩
        cases result with
        | error error => exact ⟨hm₁, ⟨by simp, fun _ => hbad rfl⟩, by simp⟩
        | ok lease =>
          obtain ⟨hname, hdisk⟩ := hread lease rfl
          have hmore := ih (found ++ [lease]) m₁ hm₁ (hlater hnear) (by
            intro other hother
            rcases List.mem_append.mp hother with hold | hnew
            · exact hnear.disk other (hfound other hold)
            · rw [List.mem_singleton.mp hnew]
              exact hdisk)
          apply hmore.mono
          rintro result m₂ - ⟨hall, hkept⟩
          refine ⟨hall.cons ?_, ?_⟩
          · intro name' hlease all heq
            rw [hkind] at hlease
            exact ⟨lease, hkept all heq lease (by simp), hname.trans (Kind.lease.inj hlease)⟩
          · intro all heq other hother
            exact hkept all heq other (List.mem_append_left _ hother)
      · next hkind =>
        apply (ih found m hm hrest hfound).mono
        rintro result m₁ - ⟨hall, hkept⟩
        refine ⟨hall.cons ?_, hkept⟩
        intro name hlease
        rw [hkind] at hlease
        cases hlease

/-- What `leases` answers: every complete lease of the directory and no other file, or a reason. -/
structure Listed (S : Setup) (m₀ : Mem) (result : Except ExecutionError (List Lease)) (m : Mem) : Prop where
  listed : ∀ found, result = .ok found → (∀ lease ∈ found, OnDisk S m lease) ∧
    ∀ lease, OnDisk S m₀ lease → lease ∈ found
  failed : result.isOk = false → Faulted m₀ m ∨ TooLong S m

/-- **The reading of the leases.** -/
theorem keeps_leases (hm : Base S m) :
    Prog.Keeps (perform S) (Near S m) (leases S) (Listed S m) m := by
  have hnear := Near.refl hm
  unfold leases
  apply keeps_act hnear
  intro names hallowed
  cases names with
  | none => exact ⟨hnear.fault, by simp, fun _ => Or.inl hnear.faulted⟩
  | some names =>
    simp only [allowed, Option.all_some, List.isPerm_iff] at hallowed
    have heffect : Near S m (effect S m .readDir (some names)) ∧
        (none ∈ names → Faulted m (effect S m .readDir (some names))) := by
      simp only [effect]
      split_ifs with hnone
      · exact ⟨hnear.fault, fun _ => hnear.faulted⟩
      · exact ⟨hnear, fun h => absurd h hnone⟩
    apply (keeps_leasesFrom names [] _ heffect.1 heffect.2 (by simp)).mono
    rintro result m₁ hm₁ ⟨hfound, -⟩
    refine ⟨?_, hfound.failed⟩
    intro found heq
    obtain ⟨hdisk, hall⟩ := hfound.listed found heq
    refine ⟨hdisk, ?_⟩
    intro lease hlease
    have hlater := hm₁.disk lease hlease
    obtain ⟨howns, file, hfile, -⟩ := hlease
    have hkind := kind_leasePath howns
    have hname : leasePath lease.name ∈ m.names S.config := by
      refine List.mem_filter.mpr ⟨List.mem_map.mpr ⟨_, hfile, rfl⟩, ?_⟩
      simp [hkind]
    obtain ⟨hmem, -⟩ := List.mem_filter.mp (hallowed.mem_iff.mpr hname)
    obtain ⟨entry, hentry, hsome⟩ := List.mem_filterMap.mp hmem
    have hentry' : some (leasePath lease.name) ∈ names := by
      rw [← hsome]
      exact hentry
    obtain ⟨other, hother, hsame⟩ := hall _ _ hentry' hkind
    -- one file holds one lease
    obtain ⟨-, file', hfile', hcontent'⟩ := hdisk other hother
    rw [hsame] at hfile'
    have hcontent := hm₁.base.content hlater hfile'
    rw [encode_inj S.codec (hcontent.symm.trans hcontent')]
    exact hother

/-! ## Forgetting -/

theorem Near.ready (h : Near S m₀ m) (hready : Ready S m₀) : Ready S m := ⟨h.base, h.scanned hready.2⟩

theorem Ready.inv (h : Ready S m) : Inv S m := ⟨h.1, Or.inr h.2⟩

theorem Ready.fault (h : Ready S m) : Ready S (m.log .fault) := (near_fault h.1).ready h

/-- If there is a lease of the name, it is this one. -/
def Claims (m : Mem) (lease : Lease) : Prop :=
  ∀ file, (leasePath lease.name, file) ∈ m.files → file.content = encode lease

/-- The unit of the lease is not in use: it was seen unused, or it was never started. -/
structure Free (m : Mem) (lease : Lease) : Prop where
  still : ¬ MayRun m.events lease
  unseen : ¬ Spotted m.events lease
  ended : Ended lease.name m.events

theorem OnDisk.claims (h : OnDisk S m lease) (hbase : Base S m) : Claims m lease :=
  fun _ hfile => hbase.content h hfile

/-- INTERNAL: **a lease that is free goes, and the others stay.** -/
theorem ready_delete (hm : Ready S m) (howns : S.config.ownsName lease.name = true) (hclaims : Claims m lease)
    (hfree : Free m lease) :
    Ready S ((m.delete (leasePath lease.name)).log (.forgot lease.name)) := by
  -- every other unit that may run or was seen has a lease of another name
  have hother : ∀ other, OnDisk S m other → other ≠ lease → OnDisk S (m.delete (leasePath lease.name)) other := by
    rintro other ⟨howns', file, hfile, hcontent⟩ hne
    refine ⟨howns', file, List.mem_filter.mpr ⟨hfile, ?_⟩, hcontent⟩
    simp only [ne_eq, decide_eq_true_eq]
    intro hpath
    rw [hpath] at hfile
    apply hne
    apply encode_inj S.codec
    rw [← hcontent, hclaims file hfile]
  refine ⟨⟨?_, ?_, ?_, ?_⟩, ?_⟩
  · intro e he
    exact hm.1.proper e (List.mem_filter.mp he).1
  · intro e he e' he'
    exact hm.1.unique e (List.mem_filter.mp he).1 e' (List.mem_filter.mp he').1
  · intro other hmay
    rcases mayRun_snoc.mp hmay with hnew | ⟨hold, -⟩
    · cases hnew
    · apply hother other (hm.1.kept other hold)
      rintro rfl
      exact hfree.still hold
  · intro front name back hsplit
    rcases split_snoc hsplit with ⟨hfront, hname, -⟩ | ⟨rest, -, hold⟩
    · rw [hfront, Event.forgot.inj hname]
      exact hfree.ended
    · exact hm.1.ended front name rest hold
  · intro other hspotted
    rcases spotted_snoc.mp hspotted with hnew | ⟨hold, -⟩
    · cases hnew
    · apply hother other (hm.2 other hold)
      rintro rfl
      exact hfree.unseen hold

/-- INTERNAL: `forget`. -/
theorem keeps_forget (hm : Ready S m) (howns : S.config.ownsName lease.name = true) (hclaims : Claims m lease)
    (hfree : Free m lease) :
    Prog.Keeps (perform S) (Ready S) (forget lease) (fun _ m' => ∀ other, Claims m other → Claims m' other) m := by
  unfold forget
  apply keeps_act hm
  intro removed _
  cases removed with
  | false => exact ⟨hm.fault, fun _ h => h⟩
  | true =>
    have heffect : effect S m (.removeFile (leasePath lease.name)) true =
        (m.delete (leasePath lease.name)).log (.forgot lease.name) := by
      simp only [effect, if_true, kind_leasePath howns]
    rw [heffect]
    have hready := ready_delete hm howns hclaims hfree
    have hsmaller : ∀ other, Claims m other → Claims (m.delete (leasePath lease.name)) other :=
      fun other hother file hfile => hother file (List.mem_filter.mp hfile).1
    apply keeps_act hready
    intro synced _
    cases synced with
    | false => exact ⟨hready.fault, hsmaller⟩
    | true => exact ⟨hready, hsmaller⟩

/-! ## Recovery -/

/-- INTERNAL: what a look at a unit leaves. -/
theorem effect_owned (S : Setup) (m : Mem) (root : String) (lease : Lease) (reply : UnitReply) :
    effect S m (.owned root lease) reply = m ∨ effect S m (.owned root lease) reply = m.log (.seen lease) ∧
      ∃ identity, VaultAccess.Model.Manager.owned S.config root lease reply = .ok (some identity) := by
  simp only [effect]
  split
  · next identity hreply => exact Or.inr ⟨rfl, identity, hreply⟩
  · exact Or.inl rfl

/-- A provider that has not removed anything in this life, and has the lease of every unit it saw. -/
structure Scanning (S : Setup) (leases : List Lease) (m : Mem) : Prop where
  base : Base S m
  early : Early m.events
  scanned : Scanned S m
  leases : ∀ lease ∈ leases, OnDisk S m lease

theorem Scanning.inv {leases : List Lease} (h : Scanning S leases m) : Inv S m := ⟨h.base, Or.inl h.early⟩

theorem Scanning.ready {leases : List Lease} (h : Scanning S leases m) : Ready S m := ⟨h.base, h.scanned⟩

/-- INTERNAL: a unit that was seen gets its lease before anything is removed. -/
theorem keeps_seen {leases : List Lease} (hm : Scanning S leases m) :
    Prog.Keeps (perform S) (Inv S) (record S lease)
      (fun result m' => result = .ok () → Scanning S (leases ++ [lease]) m') (m.log (.seen lease)) := by
  have hbase : Base S (m.log (.seen lease)) := hm.base.log (by simp) (by simp)
  have hearly : Early (m.log (.seen lease)).events := early_snoc.mpr (Or.inr ⟨hm.early, by simp, by simp⟩)
  have hinv : Inv S (m.log (.seen lease)) := ⟨hbase, Or.inl hearly⟩
  apply (keeps_record lease hbase).stopped_mono
  · intro m₁ hnear
    exact hnear.inv hinv
  · intro result m₁ hnear hrecorded hresult
    obtain ⟨hdisk, -⟩ := hrecorded hresult
    refine ⟨hnear.base, hnear.early.mpr hearly, ?_, ?_⟩
    · intro other hspotted
      rcases spotted_snoc.mp (hnear.spotted.mp hspotted) with hnew | ⟨hold, -⟩
      · rw [← Event.seen.inj hnew]
        exact hdisk
      · exact hnear.disk other (hm.scanned other hold)
    · intro other hother
      rcases List.mem_append.mp hother with hold | hnew
      · exact hnear.disk other (hm.leases other hold)
      · rw [List.mem_singleton.mp hnew]
        exact hdisk

/-- INTERNAL: **the units that the manager lists.** -/
theorem keeps_recoverUnits (root : String) (units : List String) :
    ∀ (leases : List Lease) (m : Mem), Scanning S leases m →
      Prog.Keeps (perform S) (Inv S) (recoverUnits S root units leases)
        (fun result m' => ∀ all, result = .ok all → Scanning S all m') m := by
  induction units with
  | nil =>
    intro leases m hm
    refine ⟨hm.inv, fun all hall => ?_⟩
    rw [← Except.ok.inj hall]
    exact hm
  | cons name rest ih =>
    intro leases m hm
    unfold recoverUnits
    split_ifs with hskip
    · exact ih leases m hm
    · apply keeps_act hm.inv
      intro reply _
      rcases effect_owned S m root (leaseOf root name) reply with heffect | ⟨heffect, identity, howned⟩
      · rw [heffect]
        split
        · next identity howned =>
          simp only [effect, howned] at heffect
          have hlength := congrArg (fun m : Mem => m.events.length) heffect
          simp [Mem.log] at hlength
        · exact ih leases m hm
        · exact ih leases m hm
        · exact ⟨hm.inv, by simp⟩
      · rw [heffect, howned]
        apply Prog.Keeps.bind
        apply (keeps_seen hm).mono
        intro result m₁ hm₁ hrecorded
        cases result with
        | error error => exact ⟨hm₁, by simp⟩
        | ok u => exact ih _ m₁ (hrecorded rfl)

/-- INTERNAL: what the check of a unit leaves. -/
theorem effect_unused (S : Setup) (m : Mem) (root : String) (lease : Lease) (evidence : Evidence) :
    effect S m (.unused root lease) evidence =
      if VaultAccess.Model.Manager.unused S.config root lease evidence = .ok true then m.log (.unused lease)
      else m := by
  simp only [effect]
  split
  · next h => rw [if_pos h]
  · next h => rw [if_neg h]

/-- INTERNAL: a unit that is seen unused is free. -/
theorem free_unused (m : Mem) (lease : Lease) : Free (m.log (.unused lease)) lease := by
  constructor
  · intro hmay
    rcases mayRun_snoc.mp hmay with hnew | ⟨-, hno⟩
    · cases hnew
    · exact hno rfl
  · intro hspotted
    rcases spotted_snoc.mp hspotted with hnew | ⟨-, hno, -⟩
    · cases hnew
    · exact hno rfl
  · exact ended_snoc.mpr (Or.inl ⟨lease, rfl, Or.inl rfl⟩)

theorem Ready.unused (h : Ready S m) : Ready S (m.log (.unused lease)) :=
  ⟨h.1.log (by simp) (by simp), h.2.log (by simp)⟩

/-- INTERNAL: **the leases that were found.** -/
theorem keeps_recoverLeases (strict : Bool) (root : String) (leases : List Lease) :
    ∀ m : Mem, Ready S m →
      (∀ lease ∈ leases, S.config.ownsName lease.name = true ∧ Claims m lease) →
      Prog.Keeps (perform S) (Ready S) (recoverLeases S strict root leases) (fun _ _ => True) m := by
  induction leases with
  | nil => exact fun m hm _ => ⟨hm, trivial⟩
  | cons lease rest ih =>
    intro m hm hleases
    obtain ⟨howns, hclaims⟩ := hleases lease List.mem_cons_self
    have hrest : ∀ other ∈ rest, S.config.ownsName other.name = true ∧ Claims m other :=
      fun other hother => hleases other (List.mem_cons_of_mem _ hother)
    unfold recoverLeases
    apply keeps_act hm
    intro evidence _
    rw [effect_unused]
    split_ifs with hunused
    · rw [hunused]
      apply Prog.Keeps.bind
      apply (keeps_forget hm.unused howns hclaims (free_unused m lease)).mono
      intro result m₁ hm₁ hkept
      cases result with
      | error error => exact ⟨hm₁, trivial⟩
      | ok u =>
        apply keeps_act hm₁
        intro removed _
        cases removed with
        | false => exact ⟨hm₁, trivial⟩
        | true =>
          apply ih m₁ hm₁
          intro other hother
          exact ⟨(hrest other hother).1, hkept other (hrest other hother).2⟩
    · have hgo := ih m hm hrest
      cases hseen : VaultAccess.Model.Manager.unused S.config root lease evidence with
      | error error =>
        cases strict with
        | true => exact ⟨hm, trivial⟩
        | false => exact hgo
      | ok idle =>
        cases idle with
        | true => exact absurd hseen hunused
        | false => exact hgo

/-- INTERNAL: `recover_mode`. -/
theorem keeps_recoverMode (strict : Bool) (root : String) (hbase : Base S m) (hearly : Early m.events)
    (hscanned : Scanned S m) :
    Prog.Keeps (perform S) (Inv S) (recoverMode S strict root) (fun result m' => result = .ok () → Ready S m') m := by
  have hinv : Inv S m := ⟨hbase, Or.inl hearly⟩
  unfold recoverMode
  apply Prog.Keeps.bind
  apply (keeps_leases hbase).stopped_mono
  · intro m₁ hnear
    exact hnear.inv hinv
  · intro result m₁ hnear hlisted
    have hinv₁ := hnear.inv hinv
    cases result with
    | error error => exact ⟨hinv₁, by simp⟩
    | ok leases =>
      have hscanning : Scanning S leases m₁ :=
        ⟨hnear.base, hnear.early.mpr hearly, hnear.scanned hscanned, (hlisted.listed leases rfl).1⟩
      apply keeps_act hinv₁
      intro units _
      cases units with
      | none => exact ⟨hinv₁, by simp⟩
      | some units =>
        apply Prog.Keeps.bind
        apply (keeps_recoverUnits root units leases m₁ hscanning).mono
        intro result m₂ hinv₂ hrecovered
        cases result with
        | error error => exact ⟨hinv₂, by simp⟩
        | ok all =>
          have hall := hrecovered all rfl
          apply (keeps_recoverLeases strict root all m₂ hall.ready ?_).stopped_mono
          · exact fun _ h => h.inv
          · exact fun _ _ h _ _ => h
          · intro lease hlease
            have hdisk := hall.leases lease hlease
            exact ⟨hdisk.1, hdisk.claims hall.base⟩

/-- INTERNAL: a recovery. -/
theorem keeps_recover (strict : Bool) (hbase : Base S m) (hearly : Early m.events) (hscanned : Scanned S m) :
    Prog.Keeps (perform S) (Inv S) (recover S strict) (fun result m' => result = .ok () → Ready S m') m := by
  have hinv : Inv S m := ⟨hbase, Or.inl hearly⟩
  unfold recover connect
  apply Prog.Keeps.bind
  apply keeps_act hinv
  intro answer _
  cases answer with
  | none => exact ⟨hinv, hinv, by simp⟩
  | some root =>
    by_cases hvalid : validCgroup root = true
    · simp only [hvalid, if_true]
      exact ⟨hinv, keeps_recoverMode strict root hbase hearly hscanned⟩
    · simp only [hvalid, Bool.false_eq_true, if_false]
      exact ⟨hinv, hinv, by simp⟩

end Steps

end VaultAccess.Analysis.Leases
