import VaultAccess.Library.Concurrency
import VaultAccess.Analysis.Revisions
import VaultAccess.Model.WriteJournal

/-!
# One write attempt for one destination

The invariant of the journal's directory and what a thread may rely on: nobody else touches
its temporary file, and what was published under a name stays the first of that name. From
these come what the threads of `begin`, `save` and `read` find, in every run.
-/

set_option autoImplicit false

namespace VaultAccess.Analysis.Journals

open VaultAccess.Library VaultAccess.Library.Text
open VaultAccess.Model (WriteJournal Destination trimSlashes hexSha256)
open VaultAccess.Model.WriteJournal

/-! ## The invariant -/

/-- The file holds the journal, complete and synced, and no thread can write to it. -/
structure Published (m : Mem) (file : ℕ) (journal : WriteJournal) : Prop where
  made : file < m.nextFile
  holds : m.files file = ⟨true, journal.toVec, true⟩
  sized : journal.toVec.length ≤ MAX_JOURNAL_BYTES
  released : ∀ t temporary, m.temporaries t = some temporary → temporary.file ≠ file

/-- There is an entry if something was published under the name, and it is the last of that. -/
def Shows (m : Mem) (entry : Option ℕ) (history : List (ℕ × WriteJournal)) : Prop :=
  (entry = none ∧ history = []) ∨
    ∃ file last, entry = some file ∧ history.getLast? = some last ∧ Published m file last.2

/-- The name a journal is published under by `begin`. -/
def nameOf (S : Setup) (journal : WriteJournal) : String :=
  path S.externals journal.server journal.destination

/-- The disk holds the thread's journal, as the first under its name. -/
structure Stands (S : Setup) (m : Mem) (t : ℕ) (journal : WriteJournal) : Prop where
  anchored : m.anchored = true
  first : (m.kept (nameOf S journal)).head? = some (t, journal)

/-- What `read` returned is what was last written when it opened the file, or the system failed. -/
def Told (log : List Event) (t : ℕ) (name : String) : Except JournalError WriteJournal → Prop
  | .ok journal => Event.opened t name (some journal) ∈ log
  | .error failure => failure = .io

/-- The invariant. -/
structure Inv (S : Setup) (m : Mem) : Prop where
  owned : ∀ t temporary, m.temporaries t = some temporary →
    m.entries temporary.name = some temporary.file ∧ isTemporary temporary.name = true ∧
      temporary.file < m.nextFile
  apart : ∀ t u temporary temporary', m.temporaries t = some temporary →
    m.temporaries u = some temporary' → t ≠ u →
    temporary.name ≠ temporary'.name ∧ temporary.file ≠ temporary'.file
  shown : ∀ name, isTemporary name = false → Shows m (m.entries name) (m.written name)
  stored : ∀ name, isTemporary name = false → Shows m (m.disk name) (m.kept name)
  history : ∀ name, m.kept name <+: m.written name
  accepted : ∀ t journal, Event.accepted t journal ∈ m.log → Stands S m t journal
  answered : ∀ t name result, Event.answered t name result ∈ m.log → Told m.log t name result
  begun : ∀ t, m.begun t = false → m.temporaries t = none

/-- What every step of a process keeps. -/
structure Grows (m m₁ : Mem) : Prop where
  written : ∀ name, m.written name <+: m₁.written name
  kept : ∀ name, m.kept name <+: m₁.kept name
  anchored : m.anchored = true → m₁.anchored = true
  published : ∀ file journal, Published m file journal → Published m₁ file journal
  log : ∀ event ∈ m.log, event ∈ m₁.log
  begun : ∀ u, m.begun u = true → m₁.begun u = true

/-- What a thread may rely on. -/
structure Relies (t : ℕ) (m m₁ : Mem) : Prop where
  grows : Grows m m₁
  owned : m₁.temporaries t = m.temporaries t
  untouched : ∀ temporary, m.temporaries t = some temporary →
    m₁.files temporary.file = m.files temporary.file

/-- What a step of the thread comes to. -/
structure Step (S : Setup) (t : ℕ) (m m₁ : Mem) : Prop where
  inv : Inv S m₁
  grows : Grows m m₁
  relies : ∀ u, u ≠ t → Relies u m m₁

/-! ## Small facts -/

theorem head_of_prefix {α : Type} {l l' : List α} {a : α} (h : l <+: l') (ha : l.head? = some a) :
    l'.head? = some a := by
  obtain ⟨rest, rfl⟩ := h
  rw [List.head?_append, ha]
  rfl

theorem Grows.refl (m : Mem) : Grows m m :=
  ⟨fun _ => List.prefix_rfl, fun _ => List.prefix_rfl, id, fun _ _ h => h, fun _ h => h, fun _ h => h⟩

theorem Grows.trans {m m₁ m₂ : Mem} (h : Grows m m₁) (h' : Grows m₁ m₂) : Grows m m₂ := by
  constructor
  case written => exact fun name => (h.written name).trans (h'.written name)
  case kept => exact fun name => (h.kept name).trans (h'.kept name)
  case anchored => exact fun ha => h'.anchored (h.anchored ha)
  case published => exact fun file journal hp => h'.published file journal (h.published file journal hp)
  case log => exact fun event he => h'.log event (h.log event he)
  case begun => exact fun u hu => h'.begun u (h.begun u hu)

theorem Relies.refl (t : ℕ) (m : Mem) : Relies t m m := ⟨.refl m, rfl, fun _ _ => rfl⟩

theorem Relies.trans {t : ℕ} {m m₁ m₂ : Mem} (h : Relies t m m₁) (h' : Relies t m₁ m₂) :
    Relies t m m₂ := by
  refine ⟨h.grows.trans h'.grows, h'.owned.trans h.owned, fun temporary ht => ?_⟩
  rw [h'.untouched temporary (h.owned.trans ht), h.untouched temporary ht]

theorem Shows.grows {m m₁ : Mem} {entry : Option ℕ} {history : List (ℕ × WriteJournal)}
    (h : Shows m entry history) (hg : Grows m m₁) : Shows m₁ entry history := by
  obtain h | ⟨file, last, hentry, hlast, hpublished⟩ := h
  · exact .inl h
  · exact .inr ⟨file, last, hentry, hlast, hg.published file last.2 hpublished⟩

theorem Stands.grows {S : Setup} {m m₁ : Mem} {t : ℕ} {journal : WriteJournal}
    (h : Stands S m t journal) (hg : Grows m m₁) : Stands S m₁ t journal :=
  ⟨hg.anchored h.anchored, head_of_prefix (hg.kept _) h.first⟩

theorem Told.log {log log' : List Event} {t : ℕ} {name : String}
    {result : Except JournalError WriteJournal} (h : Told log t name result)
    (hlog : ∀ event ∈ log, event ∈ log') : Told log' t name result := by
  cases result with
  | ok journal => exact hlog _ h
  | error failure => exact h

theorem isTemporary_temporaryName (random : String) : isTemporary (temporaryName random) = true := by
  unfold isTemporary temporaryName Model.startsWith
  rw [List.isPrefixOf_iff_prefix, String.toList_append, String.toList_append, List.append_assoc]
  exact List.prefix_append _ _

theorem isTemporary_path (E : Model.Externals) (server : String) (d : Destination) :
    isTemporary (path E server d) = false := by
  unfold isTemporary path Model.startsWith
  rw [String.toList_append, String.toList_append]
  rfl

/-! ## Steps

One lemma for each change of the memory: it keeps the invariant, and what every other thread
relies on. -/

section Steps

variable {S : Setup} {m : Mem} {t : ℕ}

/-- INTERNAL: an event that says what is so. -/
theorem step_note {event : Event} (h : Inv S m)
    (haccepted : ∀ u journal, event = .accepted u journal → Stands S m u journal)
    (hanswered : ∀ u name result, event = .answered u name result → Told m.log u name result) :
    Step S t m (m.note event) := by
  have hlog : ∀ e ∈ m.log, e ∈ (m.note event).log := fun e he => List.mem_append_left _ he
  have hgrows : Grows m (m.note event) := ⟨fun _ => List.prefix_rfl, fun _ => List.prefix_rfl, id,
    fun _ _ hp => ⟨hp.made, hp.holds, hp.sized, hp.released⟩, hlog, fun _ hu => hu⟩
  refine ⟨?_, hgrows, fun u _ => ⟨hgrows, rfl, fun _ _ => rfl⟩⟩
  constructor
  case owned => exact h.owned
  case apart => exact h.apart
  case shown => exact fun name hname => (h.shown name hname).grows hgrows
  case stored => exact fun name hname => (h.stored name hname).grows hgrows
  case history => exact h.history
  case begun => exact h.begun
  case accepted =>
    intro u journal he
    obtain he | he := List.mem_append.mp he
    · exact (h.accepted u journal he).grows hgrows
    · exact (haccepted u journal (List.mem_singleton.mp he).symm).grows hgrows
  case answered =>
    intro u name result he
    obtain he | he := List.mem_append.mp he
    · exact (h.answered u name result he).log hlog
    · exact (hanswered u name result (List.mem_singleton.mp he).symm).log hlog

/-- INTERNAL: the thread's own temporary file changes. -/
theorem step_setFile {temporary : Temporary} {value : File} (h : Inv S m)
    (ht : m.temporaries t = some temporary) : Step S t m (m.setFile temporary.file value) := by
  have hgrows : Grows m (m.setFile temporary.file value) := by
    refine ⟨fun _ => List.prefix_rfl, fun _ => List.prefix_rfl, id, fun file journal hp => ?_,
      fun _ he => he, fun _ hu => hu⟩
    refine ⟨hp.made, ?_, hp.sized, hp.released⟩
    have hne : file ≠ temporary.file := (hp.released t temporary ht).symm
    simpa only [Mem.setFile, Function.update_of_ne hne] using hp.holds
  refine ⟨?_, hgrows, fun u hu => ⟨hgrows, rfl, fun temporary' hu' => ?_⟩⟩
  · exact ⟨h.owned, h.apart, fun name hname => (h.shown name hname).grows hgrows,
      fun name hname => (h.stored name hname).grows hgrows, h.history,
      fun u journal he => (h.accepted u journal he).grows hgrows, h.answered, h.begun⟩
  · have hne := (h.apart u t temporary' temporary hu' ht hu).2
    simp only [Mem.setFile, Function.update_of_ne hne]

/-- INTERNAL: a new temporary file. -/
theorem step_createNew {name : String} (h : Inv S m) (ht : m.temporaries t = none)
    (hbegun : m.begun t = true) (hname : isTemporary name = true) (hfree : m.entries name = none) :
    Step S t m (m.createNew t name) := by
  have hgrows : Grows m (m.createNew t name) := by
    refine ⟨fun _ => List.prefix_rfl, fun _ => List.prefix_rfl, id, fun file journal hp => ?_,
      fun _ he => he, fun _ hu => hu⟩
    have hne : file ≠ m.nextFile := Nat.ne_of_lt hp.made
    refine ⟨Nat.lt_succ_of_lt hp.made, ?_, hp.sized, fun u temporary hu => ?_⟩
    · simpa only [Mem.createNew, Function.update_of_ne hne] using hp.holds
    · simp only [Mem.createNew] at hu
      by_cases hut : u = t
      · subst hut
        simp only [Function.update_self, Option.some.injEq] at hu
        rw [← hu]
        exact hne.symm
      · rw [Function.update_of_ne hut] at hu
        exact hp.released u temporary hu
  -- The temporary file of another thread has another name, since its entry is there.
  have hother : ∀ u temporary, u ≠ t → (m.createNew t name).temporaries u = some temporary →
      m.temporaries u = some temporary ∧ temporary.name ≠ name ∧ temporary.file < m.nextFile := by
    intro u temporary hut hu
    simp only [Mem.createNew, Function.update_of_ne hut] at hu
    obtain ⟨hentry, -, hfile⟩ := h.owned u temporary hu
    refine ⟨hu, ?_, hfile⟩
    rintro rfl
    rw [hfree] at hentry
    cases hentry
  have hself : ∀ temporary, (m.createNew t name).temporaries t = some temporary →
      temporary = ⟨name, m.nextFile⟩ := by
    intro temporary hu
    simp only [Mem.createNew, Function.update_self, Option.some.injEq] at hu
    exact hu.symm
  refine ⟨?_, hgrows, fun u hu => ⟨hgrows, Function.update_of_ne hu _ _, fun temporary hu' => ?_⟩⟩
  · constructor
    case owned =>
      intro u temporary hu
      by_cases hut : u = t
      · subst hut
        obtain rfl := hself temporary hu
        exact ⟨Function.update_self .., hname, Nat.lt_succ_self _⟩
      · obtain ⟨hu, hne, hfile⟩ := hother u temporary hut hu
        obtain ⟨hentry, htemporary, -⟩ := h.owned u temporary hu
        refine ⟨?_, htemporary, Nat.lt_succ_of_lt hfile⟩
        simpa only [Mem.createNew, Function.update_of_ne hne] using hentry
    case apart =>
      intro u v temporary temporary' hu hv huv
      by_cases hut : u = t
      · subst hut
        obtain rfl := hself temporary hu
        obtain ⟨-, hne, hfile⟩ := hother v temporary' (Ne.symm huv) hv
        exact ⟨hne.symm, (Nat.ne_of_lt hfile).symm⟩
      · obtain ⟨hu, hne, hfile⟩ := hother u temporary hut hu
        by_cases hvt : v = t
        · subst hvt
          obtain rfl := hself temporary' hv
          exact ⟨hne, Nat.ne_of_lt hfile⟩
        · exact h.apart u v temporary temporary' hu (hother v temporary' hvt hv).1 huv
    case shown =>
      intro final hfinal
      have hne : final ≠ name := by
        rintro rfl
        rw [hname] at hfinal
        cases hfinal
      have hshown := (h.shown final hfinal).grows hgrows
      simpa only [Mem.createNew, Function.update_of_ne hne] using hshown
    case stored => exact fun final hfinal => (h.stored final hfinal).grows hgrows
    case history => exact h.history
    case accepted => exact fun u journal he => (h.accepted u journal he).grows hgrows
    case answered => exact h.answered
    case begun =>
      intro u hu
      have hut : u ≠ t := by
        rintro rfl
        rw [show (m.createNew u name).begun = m.begun from rfl, hbegun] at hu
        cases hu
      simpa only [Mem.createNew, Function.update_of_ne hut] using h.begun u hu
  · have hne : temporary.file ≠ m.nextFile := Nat.ne_of_lt (h.owned u temporary hu').2.2
    simp only [Mem.createNew, Function.update_of_ne hne]

/-- INTERNAL: the thread gives up its temporary file, whose entry goes or stays. -/
theorem step_drop {temporary : Temporary} {removed : Bool} (h : Inv S m)
    (ht : m.temporaries t = some temporary) : Step S t m (m.drop t temporary removed) := by
  have hgrows : Grows m (m.drop t temporary removed) := by
    refine ⟨fun _ => List.prefix_rfl, fun _ => List.prefix_rfl, id, fun file journal hp => ?_,
      fun _ he => he, fun _ hu => hu⟩
    refine ⟨hp.made, hp.holds, hp.sized, fun u other hu => ?_⟩
    have hut : u ≠ t := by
      rintro rfl
      simp [Mem.drop] at hu
    simp only [Mem.drop, Function.update_of_ne hut] at hu
    exact hp.released u other hu
  have hother : ∀ u other, (m.drop t temporary removed).temporaries u = some other →
      u ≠ t ∧ m.temporaries u = some other := by
    intro u other hu
    have hut : u ≠ t := by
      rintro rfl
      simp [Mem.drop] at hu
    simp only [Mem.drop, Function.update_of_ne hut] at hu
    exact ⟨hut, hu⟩
  have hentry : ∀ name, name ≠ temporary.name →
      (m.drop t temporary removed).entries name = m.entries name := by
    intro name hne
    simp only [Mem.drop]
    split_ifs
    · rw [Function.update_of_ne hne]
    · rfl
  refine ⟨?_, hgrows, fun u hu => ⟨hgrows, Function.update_of_ne hu _ _, fun _ _ => rfl⟩⟩
  constructor
  case owned =>
    intro u other hu
    obtain ⟨hut, hu⟩ := hother u other hu
    obtain ⟨hfile, hname, hlt⟩ := h.owned u other hu
    exact ⟨(hentry _ (h.apart u t other temporary hu ht hut).1).trans hfile, hname, hlt⟩
  case apart =>
    intro u v other other' hu hv huv
    exact h.apart u v other other' (hother u other hu).2 (hother v other' hv).2 huv
  case shown =>
    intro name hname
    have hne : name ≠ temporary.name := by
      rintro rfl
      rw [(h.owned t temporary ht).2.1] at hname
      cases hname
    rw [hentry name hne]
    exact (h.shown name hname).grows hgrows
  case stored => exact fun name hname => (h.stored name hname).grows hgrows
  case history => exact h.history
  case accepted => exact fun u journal he => (h.accepted u journal he).grows hgrows
  case answered => exact h.answered
  case begun =>
    intro u hu
    simp only [Mem.drop]
    by_cases hut : u = t
    · rw [hut, Function.update_self]
    · rw [Function.update_of_ne hut]
      exact h.begun u hu

/-- INTERNAL: a thread ends. -/
theorem step_abandon (h : Inv S m) : Step S t m (m.abandon t) := by
  cases ht : m.temporaries t with
  | none =>
    have hsame : m.abandon t = m := by
      unfold Mem.abandon
      rw [← ht, Function.update_eq_self]
    rw [hsame]
    exact ⟨h, .refl m, fun u _ => .refl u m⟩
  | some temporary => exact @step_drop S m t temporary false h ht

/-- INTERNAL: **the temporary file gets its final name.** -/
theorem step_publish {temporary : Temporary} {name : String} {journal : WriteJournal} (h : Inv S m)
    (ht : m.temporaries t = some temporary) (hname : isTemporary name = false)
    (hfile : m.files temporary.file = ⟨true, journal.toVec, true⟩)
    (hsized : journal.toVec.length ≤ MAX_JOURNAL_BYTES) :
    Step S t m (m.publish t temporary name journal) := by
  have hother : ∀ u other, (m.publish t temporary name journal).temporaries u = some other →
      u ≠ t ∧ m.temporaries u = some other := by
    intro u other hu
    have hut : u ≠ t := by
      rintro rfl
      simp [Mem.publish] at hu
    simp only [Mem.publish, Function.update_of_ne hut] at hu
    exact ⟨hut, hu⟩
  have hwritten : ∀ final,
      m.written final <+: (m.publish t temporary name journal).written final := by
    intro final
    simp only [Mem.publish]
    by_cases hfinal : final = name
    · rw [hfinal, Function.update_self]
      exact List.prefix_append _ _
    · simp only [Function.update_of_ne hfinal, List.prefix_rfl]
  have hgrows : Grows m (m.publish t temporary name journal) := by
    refine ⟨hwritten, fun _ => List.prefix_rfl, id, fun file other hp => ?_, fun _ he => he,
      fun _ hu => hu⟩
    exact ⟨hp.made, hp.holds, hp.sized, fun u other hu => hp.released u other (hother u other hu).2⟩
  have hpublished : Published (m.publish t temporary name journal) temporary.file journal := by
    refine ⟨(h.owned t temporary ht).2.2, hfile, hsized, fun u other hu => ?_⟩
    obtain ⟨hut, hu⟩ := hother u other hu
    exact (h.apart u t other temporary hu ht hut).2
  have hentry : ∀ final, final ≠ name → final ≠ temporary.name →
      (m.publish t temporary name journal).entries final = m.entries final := by
    intro final hne hne'
    simp only [Mem.publish, Function.update_of_ne hne, Function.update_of_ne hne']
  have hne_temporary : ∀ final, isTemporary final = false → final ≠ temporary.name := by
    rintro final hfinal rfl
    rw [(h.owned t temporary ht).2.1] at hfinal
    cases hfinal
  refine ⟨?_, hgrows, fun u hu => ⟨hgrows, Function.update_of_ne hu _ _, fun _ _ => rfl⟩⟩
  constructor
  case owned =>
    intro u other hu
    obtain ⟨hut, hu⟩ := hother u other hu
    obtain ⟨hfile', hname', hlt⟩ := h.owned u other hu
    have hne : other.name ≠ name := by
      rintro rfl
      rw [hname] at hname'
      cases hname'
    exact ⟨(hentry _ hne (h.apart u t other temporary hu ht hut).1).trans hfile', hname', hlt⟩
  case apart =>
    intro u v other other' hu hv huv
    exact h.apart u v other other' (hother u other hu).2 (hother v other' hv).2 huv
  case shown =>
    intro final hfinal
    by_cases hne : final = name
    · subst hne
      refine .inr ⟨temporary.file, (t, journal), Function.update_self .., ?_, hpublished⟩
      simp only [Mem.publish, Function.update_self, List.getLast?_append, List.getLast?_singleton,
        Option.some_or]
    · rw [hentry final hne (hne_temporary final hfinal)]
      have hsame : (m.publish t temporary name journal).written final = m.written final :=
        Function.update_of_ne hne ..
      rw [hsame]
      exact (h.shown final hfinal).grows hgrows
  case stored => exact fun final hfinal => (h.stored final hfinal).grows hgrows
  case history => exact fun final => (h.history final).trans (hwritten final)
  case accepted => exact fun u other he => (h.accepted u other he).grows hgrows
  case answered => exact h.answered
  case begun =>
    intro u hu
    simp only [Mem.publish]
    by_cases hut : u = t
    · rw [hut, Function.update_self]
    · rw [Function.update_of_ne hut]
      exact h.begun u hu

/-- INTERNAL: the directory is synced. -/
theorem step_sync (h : Inv S m) : Step S t m m.sync := by
  have hgrows : Grows m m.sync := ⟨fun _ => List.prefix_rfl, h.history, id,
    fun _ _ hp => ⟨hp.made, hp.holds, hp.sized, hp.released⟩, fun _ he => he, fun _ hu => hu⟩
  refine ⟨?_, hgrows, fun u _ => ⟨hgrows, rfl, fun _ _ => rfl⟩⟩
  exact ⟨h.owned, h.apart, fun name hname => (h.shown name hname).grows hgrows,
    fun name hname => (h.shown name hname).grows hgrows, fun _ => List.prefix_rfl,
    fun u journal he => (h.accepted u journal he).grows hgrows, h.answered, h.begun⟩

/-- INTERNAL: the directory above is synced. -/
theorem step_anchor (h : Inv S m) : Step S t m m.anchor := by
  have hgrows : Grows m m.anchor := ⟨fun _ => List.prefix_rfl, fun _ => List.prefix_rfl, fun _ => rfl,
    fun _ _ hp => ⟨hp.made, hp.holds, hp.sized, hp.released⟩, fun _ he => he, fun _ hu => hu⟩
  refine ⟨?_, hgrows, fun u _ => ⟨hgrows, rfl, fun _ _ => rfl⟩⟩
  exact ⟨h.owned, h.apart, fun name hname => (h.shown name hname).grows hgrows,
    fun name hname => (h.stored name hname).grows hgrows, h.history,
    fun u journal he => (h.accepted u journal he).grows hgrows, h.answered, h.begun⟩

/-- INTERNAL: a thread begins. -/
theorem step_spawn {m₁ : Mem} (h : Inv S m) (hm : m.spawn t = some m₁) :
    Step S t m m₁ ∧ m₁.temporaries t = none ∧ m₁.begun t = true := by
  unfold Mem.spawn at hm
  split_ifs at hm with hbegun
  obtain rfl := Option.some.inj hm
  have hnone : m.temporaries t = none := h.begun t (by simpa using hbegun)
  have hmono : ∀ u, m.begun u = true → Function.update m.begun t true u = true := by
    intro u hu
    by_cases hut : u = t
    · rw [hut, Function.update_self]
    · rwa [Function.update_of_ne hut]
  have hgrows : Grows m { m with begun := Function.update m.begun t true } :=
    ⟨fun _ => List.prefix_rfl, fun _ => List.prefix_rfl, id,
      fun _ _ hp => ⟨hp.made, hp.holds, hp.sized, hp.released⟩, fun _ he => he, hmono⟩
  refine ⟨⟨?_, hgrows, fun u _ => ⟨hgrows, rfl, fun _ _ => rfl⟩⟩, hnone, Function.update_self ..⟩
  refine ⟨h.owned, h.apart, fun name hname => (h.shown name hname).grows hgrows,
    fun name hname => (h.stored name hname).grows hgrows, h.history,
    fun u journal he => (h.accepted u journal he).grows hgrows, h.answered, fun u hu => ?_⟩
  have hut : u ≠ t := by
    rintro rfl
    simp at hu
  have hold : m.begun u = false := (Function.update_of_ne hut _ _).symm.trans hu
  exact h.begun u hold

/-- INTERNAL: what the machine's end leaves under a name. -/
theorem shows_pick {crash : Crash} {name : String} (h : Inv S m) (hname : isTemporary name = false) :
    Shows (m.restart crash) (crash.pick m.anchored none m.entries m.disk name)
      (crash.pick m.anchored [] m.written m.kept name) := by
  have hpublished : ∀ file journal, Published m file journal →
      Published (m.restart crash) file journal := by
    intro file journal hp
    refine ⟨hp.made, ?_, hp.sized, fun u temporary hu => by cases hu⟩
    simp [Mem.restart, hp.holds]
  have hshows : ∀ entry history, Shows m entry history → Shows (m.restart crash) entry history := by
    rintro entry history (h | ⟨file, last, hentry, hlast, hp⟩)
    · exact .inl h
    · exact .inr ⟨file, last, hentry, hlast, hpublished file last.2 hp⟩
  unfold Crash.pick
  split_ifs
  · exact .inl ⟨rfl, rfl⟩
  · exact hshows _ _ (h.stored name hname)
  · exact hshows _ _ (h.shown name hname)

/-- INTERNAL: **what the machine's end leaves.** -/
theorem inv_restart (crash : Crash) (h : Inv S m) : Inv S (m.restart crash) := by
  constructor
  case owned => exact fun u temporary hu => by cases hu
  case apart => exact fun u v temporary temporary' hu => by cases hu
  case shown => exact fun name hname => shows_pick h hname
  case stored => exact fun name hname => shows_pick h hname
  case history => exact fun name => List.prefix_rfl
  case answered => exact h.answered
  case begun => exact fun u _ => rfl
  case accepted =>
    intro u journal he
    obtain ⟨hanchored, hfirst⟩ := h.accepted u journal he
    refine ⟨hanchored, ?_⟩
    simp only [Mem.restart, Crash.pick, hanchored, Bool.not_true, Bool.and_false, Bool.false_eq_true,
      if_false]
    split_ifs
    · exact hfirst
    · exact head_of_prefix (h.history _) hfirst

end Steps

end VaultAccess.Analysis.Journals
