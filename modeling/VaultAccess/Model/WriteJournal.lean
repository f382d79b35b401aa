import VaultAccess.Library.Programs
import VaultAccess.Model.Policy
import VaultAccess.Model.Provider

/-!
# The journal of secret writes

`src/write_journal.rs`, action by action, on one directory that any number of processes
share. A process may end anywhere. The machine may end too: then a change of the directory
that was not synced may be undone, and a file that was not synced may hold anything. What
an action answers is up to the world, as far as the directory allows it; renames and links
are atomic. `written`, `kept` and `log` are a history that no action reads.
-/

set_option autoImplicit false

namespace VaultAccess.Model

open VaultAccess.Library VaultAccess.Library.Text

/-- SRCLINE: write_journal.rs:14-21 -/
structure WriteJournal where
  server : String
  destination : Destination
  fields : List String
  receipt : WriteReceipt
  deriving DecidableEq, Repr

namespace WriteJournal

def MAX_JOURNAL_BYTES : ℕ := 65536

/-- `serde_json::to_vec` of a journal. -/
def toVec (journal : WriteJournal) : List UInt8 :=
  Json.toVec (.obj [("server", .str journal.server), ("destination", journal.destination.toJson),
    ("fields", Json.texts journal.fields), ("receipt", journal.receipt.toJson)])

/-- What does not change while the directory is used. `decode` is `serde_json::from_slice`: it
reads back what was written. -/
structure Setup where
  externals : Externals
  decode : List UInt8 → Option WriteJournal
  decodes : ∀ journal, decode journal.toVec = some journal
  /-- There is a directory above the journal's. -/
  hasParent : Bool

/-- What the file name is a digest of. -/
def digestText (server : String) (d : Destination) : String :=
  String.ofList ((trimSlashes server).toList ++ '\x00' :: (d.accountId.toList ++
    '\x00' :: (d.folderId.toList ++ '\x00' :: d.reference.toList)))

/-- The name in the journal's directory.
SRCLINE: write_journal.rs:24-38 -/
def path (E : Externals) (server : String) (d : Destination) : String :=
  "create-" ++ hexSha256 E (bytes (digestText server d)) ++ ".json"

/-- The name of a temporary file, from the characters that `tempfile` draws. -/
def temporaryName (random : String) : String := ".create-" ++ random ++ ".tmp"

/-- Names that a temporary file may have. -/
def isTemporary (name : String) : Bool := startsWith name ".create-"

/-! ## The directory -/

structure File where
  regular : Bool
  content : List UInt8
  /-- Synced since it was last written. -/
  synced : Bool
  deriving DecidableEq, Repr

structure Temporary where
  name : String
  file : ℕ
  deriving DecidableEq, Repr

/-- A call's error: the system's, or one that the code makes. -/
inductive JournalError where
  | io
  | refused (text : String)
  deriving DecidableEq, Repr

/-- What happened. The last journal written under a name is told when it is opened. -/
inductive Event where
  | accepted (thread : ℕ) (journal : WriteJournal)
  | opened (thread : ℕ) (name : String) (last : Option WriteJournal)
  | answered (thread : ℕ) (name : String) (result : Except JournalError WriteJournal)

/-- The directory as processes find it and as the disk holds it. -/
structure Mem where
  entries : String → Option ℕ
  disk : String → Option ℕ
  files : ℕ → File
  nextFile : ℕ
  /-- The disk holds the directory's own entry. -/
  anchored : Bool
  /-- The temporary files that threads own. -/
  temporaries : ℕ → Option Temporary
  /-- What was published under a name and not undone, with the thread that did. -/
  written : String → List (ℕ × WriteJournal)
  /-- The part of it that the disk holds. -/
  kept : String → List (ℕ × WriteJournal)
  log : List Event
  begun : ℕ → Bool

namespace Mem

def initial : Mem where
  entries := fun _ => none
  disk := fun _ => none
  files := fun _ => ⟨true, [], false⟩
  nextFile := 0
  anchored := false
  temporaries := fun _ => none
  written := fun _ => []
  kept := fun _ => []
  log := []
  begun := fun _ => false

variable (m : Mem)

def note (event : Event) : Mem := { m with log := m.log ++ [event] }

def createNew (thread : ℕ) (name : String) : Mem :=
  { m with
    entries := Function.update m.entries name (some m.nextFile)
    files := Function.update m.files m.nextFile ⟨true, [], false⟩
    nextFile := m.nextFile + 1
    temporaries := Function.update m.temporaries thread (some ⟨name, m.nextFile⟩) }

def setFile (file : ℕ) (value : File) : Mem := { m with files := Function.update m.files file value }

/-- The temporary file gets its final name. -/
def publish (thread : ℕ) (temporary : Temporary) (name : String) (journal : WriteJournal) : Mem :=
  { m with
    entries := Function.update (Function.update m.entries temporary.name none) name
      (some temporary.file)
    temporaries := Function.update m.temporaries thread none
    written := Function.update m.written name (m.written name ++ [(thread, journal)]) }

/-- The thread gives up its temporary file, and removes it if it can. -/
def drop (thread : ℕ) (temporary : Temporary) (removed : Bool) : Mem :=
  { m with
    entries := if removed then Function.update m.entries temporary.name none else m.entries
    temporaries := Function.update m.temporaries thread none }

def sync : Mem := { m with disk := m.entries, kept := m.written }

def anchor : Mem := { m with anchored := true }

end Mem

/-! ## Actions -/

structure Metadata where
  isDir : Bool
  isSymlink : Bool
  deriving DecidableEq, Repr

/-- What the code does. The journals of the two publications, `accepted` and `answered` are for
the history. -/
inductive Act where
  | createDirAll
  | symlinkMetadata
  | setPermissions (mode : UInt32)
  | createNew
  | write (file : ℕ) (data : List UInt8)
  | syncFile (file : ℕ)
  | persistNoclobber (temporary : Temporary) (name : String) (journal : WriteJournal)
  | persist (temporary : Temporary) (name : String) (journal : WriteJournal)
  | removeFile (temporary : Temporary)
  | syncDirectory
  | syncParent
  | openFile (name : String)
  | isFile (file : ℕ)
  | read (file offset limit : ℕ)
  | accepted (journal : WriteJournal)
  | answered (name : String) (result : Except JournalError WriteJournal)

def Ans : Act → Type
  | .createDirAll | .setPermissions _ | .syncFile _ | .persistNoclobber .. | .persist ..
  | .syncDirectory | .syncParent => Bool
  | .symlinkMetadata => Option Metadata
  | .createNew => Option Temporary
  | .write .. => Option ℕ
  | .openFile _ => Option ℕ
  | .isFile _ => Option Bool
  | .read .. => Option (List UInt8)
  | .removeFile _ | .accepted _ | .answered .. => Unit

/-- What the world decides: that an action fails, what a directory is, what `tempfile` draws, and
how many bytes a write or a read moves. -/
inductive Input where
  | failed
  | fine
  | metadata (metadata : Metadata)
  | random (text : String)
  | count (n : ℕ)
  deriving DecidableEq, Repr

/-- The next bytes of a file, at most `limit`. -/
def nextBytes (file : File) (offset limit : ℕ) : List UInt8 := (file.content.drop offset).take limit

/-- A write that takes some bytes makes the file unsynced. -/
def File.append (file : File) (data : List UInt8) : File :=
  { file with content := file.content ++ data, synced := false }

def perform (thread : ℕ) : (a : Act) → Input → Mem → Option (Ans a × Mem)
  | .createDirAll, input, m => some (decide (input = .fine), m)
  | .symlinkMetadata, .metadata metadata, m => some (some metadata, m)
  | .symlinkMetadata, _, m => some (none, m)
  | .setPermissions _, input, m => some (decide (input = .fine), m)
  | .createNew, .random text, m =>
    -- `tempfile` draws again while there is a file of the name.
    if (m.entries (temporaryName text)).isSome then none
    else some (some ⟨temporaryName text, m.nextFile⟩, m.createNew thread (temporaryName text))
  | .createNew, _, m => some (none, m)
  | .write file data, .count n, m =>
    if 0 < n ∧ n ≤ data.length then
      some (some n, m.setFile file ((m.files file).append (data.take n)))
    else none
  | .write _ _, _, m => some (none, m)
  | .syncFile file, .fine, m => some (true, m.setFile file { m.files file with synced := true })
  | .syncFile _, _, m => some (false, m)
  | .persistNoclobber temporary name journal, .fine, m =>
    if (m.entries name).isSome then some (false, m)
    else some (true, m.publish thread temporary name journal)
  | .persistNoclobber .., _, m => some (false, m)
  | .persist temporary name journal, .fine, m => some (true, m.publish thread temporary name journal)
  | .persist .., _, m => some (false, m)
  | .removeFile temporary, input, m => some ((), m.drop thread temporary (decide (input = .fine)))
  | .syncDirectory, .fine, m => some (true, m.sync)
  | .syncDirectory, _, m => some (false, m)
  | .syncParent, .fine, m => some (true, m.anchor)
  | .syncParent, _, m => some (false, m)
  | .openFile name, .fine, m =>
    some (m.entries name, m.note (.opened thread name ((m.written name).getLast?.map Prod.snd)))
  | .openFile _, _, m => some (none, m)
  | .isFile file, .fine, m => some (some (m.files file).regular, m)
  | .isFile _, _, m => some (none, m)
  | .read file offset limit, .count n, m =>
    let rest := nextBytes (m.files file) offset limit
    if rest = [] then some (some [], m)
    else if 0 < n ∧ n ≤ rest.length then some (some (rest.take n), m)
    else none
  | .read .., _, m => some (none, m)
  | .accepted journal, _, m => some ((), m.note (.accepted thread journal))
  | .answered name result, _, m => some ((), m.note (.answered thread name result))

/-! ## The calls -/

abbrev App := ExceptT JournalError (Prog Act Ans)

def act (a : Act) : App (Ans a) := ExceptT.lift (Prog.perform a)

/-- `anyhow::ensure!`. -/
def ensure (condition : Bool) (failure : JournalError) : App Unit :=
  if condition then pure () else throw failure

/-- What fails as the system does. -/
def checked (x : App Bool) : App Unit := x >>= fun done => ensure done .io

/-- `write_all`: each write takes at least one byte, so there are at most as many as bytes. -/
def writeAll (file : ℕ) : ℕ → List UInt8 → App Unit
  | 0, _ => pure ()
  | fuel + 1, data =>
    if data = [] then pure ()
    else do
      let some n ← act (.write file data) | throw .io
      writeAll file fuel (data.drop n)

/-- A failure removes the temporary file. -/
def orDrop {α : Type} (temporary : Temporary) (x : App α) : App α := do
  match ← ExceptT.lift x.run with
  | .ok value => pure value
  | .error failure => do
    act (.removeFile temporary)
    throw failure

/-- SRCLINE: write_journal.rs:73 -/
def fill (temporary : Temporary) (journal : WriteJournal) : App Unit := do
  writeAll temporary.file journal.toVec.length journal.toVec
  checked (act (.syncFile temporary.file))

/-- SRCLINE: write_journal.rs:67-76 -/
def writeTemporary (journal : WriteJournal) : App Temporary := do
  let some temporary ← act .createNew | throw .io
  orDrop temporary (fill temporary journal)
  pure temporary

/-- SRCLINE: write_journal.rs:46-53 -/
def prepareDirectory : App Unit := do
  checked (act .createDirAll)
  let some metadata ← act .symlinkMetadata | throw .io
  ensure (metadata.isDir && !metadata.isSymlink) (.refused "unsafe journal directory")
  checked (act (.setPermissions 0o700))

def attempted : JournalError := .refused
  "reference already has a write attempt; inspect and reconcile it before any further action"

/-- SRCLINE: write_journal.rs:57-58 -/
def publishFirst (temporary : Temporary) (name : String) (journal : WriteJournal) : App Unit := do
  let done ← act (.persistNoclobber temporary name journal)
  ensure done attempted

/-- SRCLINE: write_journal.rs:41-66 -/
def begin (S : Setup) (journal : WriteJournal) : App String := do
  ensure (journal.receipt.status = .uncertain) (.refused "invalid initial write state")
  prepareDirectory
  let name := path S.externals journal.server journal.destination
  let temporary ← writeTemporary journal
  orDrop temporary (publishFirst temporary name journal)
  checked (act .syncDirectory)
  ensure S.hasParent (.refused "invalid journal directory")
  checked (act .syncParent)
  pure name

/-- SRCLINE: write_journal.rs:79-86 -/
def save (journal : WriteJournal) (name : String) : App Unit := do
  let temporary ← writeTemporary journal
  orDrop temporary (checked (act (.persist temporary name journal)))
  checked (act .syncDirectory)

/-- `take(limit).read_to_end`: each read but the last brings at least one byte. -/
def readToEnd (file : ℕ) : ℕ → ℕ → ℕ → App (List UInt8)
  | 0, _, _ => pure []
  | fuel + 1, offset, limit => do
    let some chunk ← act (.read file offset limit) | throw .io
    if chunk = [] then pure []
    else do
      let rest ← readToEnd file fuel (offset + chunk.length) (limit - chunk.length)
      pure (chunk ++ rest)

/-- What is made of the bytes of a file.
SRCLINE: write_journal.rs:99-100 -/
def parse (S : Setup) (content : List UInt8) : Except JournalError WriteJournal :=
  if content.length ≤ MAX_JOURNAL_BYTES then
    match S.decode content with
    | some journal => .ok journal
    | none => .error (.refused "invalid write journal")
  else .error (.refused "invalid journal size")

/-- SRCLINE: write_journal.rs:89-101 -/
def read (S : Setup) (name : String) : App WriteJournal := do
  let some file ← act (.openFile name) | throw .io
  let some regular ← act (.isFile file) | throw .io
  ensure regular (.refused "invalid journal file")
  let content ← readToEnd file (MAX_JOURNAL_BYTES + 1) 0 (MAX_JOURNAL_BYTES + 1)
  parse S content

/-! ## Processes -/

/-- A journal of at most 65536 bytes. -/
abbrev Sized := { journal : WriteJournal // journal.toVec.length ≤ MAX_JOURNAL_BYTES }

/-- A name that is not a temporary file's. -/
abbrev Final := { name : String // isTemporary name = false }

/-- A call of a process. -/
inductive Call where
  | begin (journal : Sized)
  | save (journal : Sized) (name : Final)
  | read (name : Final)

/-- The call's code; the history is told when `begin` returns `Ok` and what `read` returns. -/
def code (S : Setup) : Call → Prog Act Ans Unit
  | .begin journal => (begin S journal.val).run >>= fun
    | .ok _ => Prog.perform (Act.accepted journal.val)
    | .error _ => pure ()
  | .save journal name => (save journal.val name.val).run >>= fun _ => pure ()
  | .read name => (read S name.val).run >>= fun result => Prog.perform (Act.answered name.val result)

def Mem.spawn (m : Mem) (thread : ℕ) : Option Mem :=
  if m.begun thread then none
  else some { m with begun := Function.update m.begun thread true }

/-- The process of the thread ends: nobody removes the temporary file. -/
def Mem.abandon (m : Mem) (thread : ℕ) : Mem :=
  { m with temporaries := Function.update m.temporaries thread none }

/-- What the end of the machine undoes: the directory itself if the disk does not hold its entry,
the changes of some entries, and the bytes of unsynced files. -/
structure Crash where
  directory : Bool
  lost : String → Bool
  torn : ℕ → List UInt8

/-- What is left of an entry. -/
def Crash.pick {α : Type} (crash : Crash) (anchored : Bool) (nothing : α) (shown disk : String → α)
    (name : String) : α :=
  if crash.directory && !anchored then nothing else if crash.lost name then disk name else shown name

def Mem.restart (m : Mem) (crash : Crash) : Mem :=
  { m with
    entries := crash.pick m.anchored none m.entries m.disk
    disk := crash.pick m.anchored none m.entries m.disk
    files := fun file =>
      if (m.files file).synced then m.files file else { m.files file with content := crash.torn file }
    temporaries := fun _ => none
    written := crash.pick m.anchored [] m.written m.kept
    kept := crash.pick m.anchored [] m.written m.kept }

/-- Processes on one directory. A machine that ends takes all of them with it. -/
def machine (S : Setup) : Machine Act Ans Mem Input Empty Crash Call where
  perform := perform
  code := code S
  spawn thread _ m := m.spawn thread
  world := nofun
  abandon thread m := m.abandon thread
  restart crash m := m.restart crash

/-- What a run of processes on an empty directory comes to. -/
def reach (S : Setup) (events : List (SystemEvent Input Empty Crash Call)) : Mem :=
  ((System.idle Mem.initial).run (machine S) events).mem

end WriteJournal

end VaultAccess.Model
