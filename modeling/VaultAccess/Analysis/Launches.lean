import VaultAccess.Analysis.Bridge
import VaultAccess.Analysis.Validation

/-!
# What the provider launches

The arguments and the environment the provider accepts are read back by the helper as they
were sent; and the policies whose variables are accepted when their request executes.
-/

set_option autoImplicit false

namespace VaultAccess.Analysis.Bridge

open VaultAccess.Library VaultAccess.Library.Frames VaultAccess.Library.Text VaultAccess.Model
open VaultAccess.Model.Bridge

/-! ## What the provider sends -/

/-- INTERNAL: **the arguments that `checked_arguments` accepts.** -/
theorem checkedArgumentsFrom_ok (argv : List String) : ∀ {size : ℕ} {arguments : List (List UInt8)},
    checkedArgumentsFrom size argv = .ok arguments → arguments = (argv.map bytes).map (· ++ [0]) ∧
      (∀ text ∈ argv.map bytes, (0 : UInt8) ∉ text) ∧
      (argv ≠ [] → size + total arguments ≤ MAX_ARG_BYTES) := by
  induction argv with
  | nil =>
    intro size arguments h
    rw [← Except.ok.inj h]
    exact ⟨rfl, by simp, by simp⟩
  | cons arg rest ih =>
    intro size arguments h
    simp only [checkedArgumentsFrom, bind, Except.bind, pure, Except.pure] at h
    split_ifs at h with hsize hzero
    cases hrest : checkedArgumentsFrom (size + (arg.utf8ByteSize + 1)) rest with
    | error e => simp [hrest] at h
    | ok others =>
      simp only [hrest, Except.ok.injEq] at h
      subst h
      obtain ⟨rfl, htexts, hbound⟩ := ih hrest
      have hfirst : (0 : UInt8) ∉ bytes arg := by simpa using hzero
      refine ⟨rfl, List.forall_mem_cons.mpr ⟨hfirst, htexts⟩, fun _ => ?_⟩
      have hlength := length_bytes arg
      rw [total, List.map_cons, List.sum_cons, List.length_append, List.length_singleton, hlength]
      cases rest with
      | nil =>
        simp only [List.map_nil, List.sum_nil]
        omega
      | cons next others =>
        have hmore := hbound (by simp)
        rw [total] at hmore
        omega

/-- INTERNAL: an accepted argument list has a command and is not too long. -/
theorem checkedArguments_ok {argv : List String} {arguments : List (List UInt8)}
    (h : checkedArguments argv = .ok arguments) :
    arguments = (argv.map bytes).map (· ++ [0]) ∧ (∀ text ∈ argv.map bytes, (0 : UInt8) ∉ text) ∧
      total arguments ≤ MAX_ARG_BYTES ∧ 1 ≤ argv.length ∧ argv.length ≤ Bridge.MAX_ARGS ∧
      (argv.map bytes).head? ≠ some [] := by
  unfold checkedArguments at h
  split_ifs at h with hchecks
  simp only [Bool.or_eq_true, List.isEmpty_iff, decide_eq_true_eq, not_or, Nat.not_lt,
    Bool.not_eq_true] at hchecks
  obtain ⟨⟨hne, hcount⟩, hcommand⟩ := hchecks
  obtain ⟨harguments, htexts, hbound⟩ := checkedArgumentsFrom_ok argv h
  refine ⟨harguments, htexts, by simpa using hbound hne, List.length_pos_of_ne_nil hne, hcount, ?_⟩
  cases argv with
  | nil => exact absurd rfl hne
  | cons first rest =>
    intro hempty
    have hnil : bytes first = [] := by simpa using hempty
    have hsize := length_bytes first
    rw [hnil, List.length_nil] at hsize
    have hfirst : first.isEmpty = false := by simpa using hcommand
    rw [String.isEmpty] at hfirst
    simp [← hsize] at hfirst

/-- The entry of a mapping. -/
def mappingEntry (m : String × String) : List UInt8 := entry (bytes m.1) (bytes m.2)

/-- A name that `from_mappings` accepts, for the baseline or a mapping. -/
def NameOk (name : String) : Prop :=
  name = "LANG" ∨ name = "LC_ALL" ∨ validEnvironmentName name = true

/-- INTERNAL: **the mappings that the loop of `from_mappings` accepts.** -/
theorem fromMappingsLoop_iff (mappings : List (String × String)) :
    ∀ (names : List String) (entries out : List (List UInt8)),
      fromMappingsLoop names entries mappings = .ok out ↔ out = entries ++ mappings.map mappingEntry ∧
        (∀ m ∈ mappings, NameOk m.1 ∧ m.1 ∉ names ∧ (0 : UInt8) ∉ bytes m.2) ∧
        (mappings.map Prod.fst).Nodup ∧
        (mappings ≠ [] → out.length ≤ MAX_ENTRIES ∧ total out ≤ MAX_BYTES) := by
  induction mappings with
  | nil =>
    intro names entries out
    simp [fromMappingsLoop, eq_comm]
  | cons m rest ih =>
    obtain ⟨name, value⟩ := m
    intro names entries out
    have hchecks : ((!(decide (name = "LANG") || decide (name = "LC_ALL")) &&
        !validEnvironmentName name) || names.contains name || (bytes value).contains 0) = false ↔
        NameOk name ∧ name ∉ names ∧ (0 : UInt8) ∉ bytes value := by
      simp only [NameOk, Bool.or_eq_false_iff, Bool.and_eq_false_iff, Bool.not_eq_false',
        Bool.or_eq_true, decide_eq_true_eq, List.contains_eq_mem, decide_eq_false_iff_not, and_assoc,
        or_assoc]
    simp only [fromMappingsLoop]
    by_cases hok : NameOk name ∧ name ∉ names ∧ (0 : UInt8) ∉ bytes value
    · rw [hchecks.mpr hok, if_neg (by simp)]
      by_cases hsize : (entries ++ [entry (bytes name) (bytes value)]).length ≤ MAX_ENTRIES ∧
          total (entries ++ [entry (bytes name) (bytes value)]) ≤ MAX_BYTES
      · have hlimits : ¬ ((decide ((entries ++ [entry (bytes name) (bytes value)]).length > MAX_ENTRIES) ||
            decide (((entries ++ [entry (bytes name) (bytes value)]).map List.length).sum > MAX_BYTES)) =
              true) := by
          simp only [Bool.or_eq_true, decide_eq_true_eq, not_or, Nat.not_lt]
          exact hsize
        rw [if_neg hlimits, ih (name :: names)]
        constructor
        · rintro ⟨rfl, hrest, hdistinct, hbound⟩
          refine ⟨by simp [mappingEntry], List.forall_mem_cons.mpr ⟨hok, fun m hm => ?_⟩, ?_, fun _ => ?_⟩
          · obtain ⟨hname, hnew, hvalue⟩ := hrest m hm
            exact ⟨hname, fun hmem => hnew (List.mem_cons_of_mem _ hmem), hvalue⟩
          · rw [List.map_cons, List.nodup_cons]
            refine ⟨fun hmem => ?_, hdistinct⟩
            obtain ⟨m, hm, heq⟩ := List.mem_map.mp hmem
            exact (hrest m hm).2.1 (heq ▸ List.mem_cons_self)
          · cases rest with
            | nil => simpa using hsize
            | cons next others => exact hbound (by simp)
        · rintro ⟨rfl, hall, hdistinct, hbound⟩
          rw [List.map_cons, List.nodup_cons] at hdistinct
          refine ⟨by simp [mappingEntry], fun m hm => ?_, hdistinct.2, fun _ => hbound (by simp)⟩
          obtain ⟨hname, hnew, hvalue⟩ := hall m (List.mem_cons_of_mem _ hm)
          refine ⟨hname, fun hmem => ?_, hvalue⟩
          rcases List.mem_cons.mp hmem with heq | hmem
          · have hfst : m.1 ∈ rest.map Prod.fst := List.mem_map_of_mem hm
            exact hdistinct.1 (heq ▸ hfst)
          · exact hnew hmem
      · have hlimits : (decide ((entries ++ [entry (bytes name) (bytes value)]).length > MAX_ENTRIES) ||
            decide (((entries ++ [entry (bytes name) (bytes value)]).map List.length).sum > MAX_BYTES)) =
              true := by
          simp only [Bool.or_eq_true, decide_eq_true_eq]
          rw [not_and_or, Nat.not_le, Nat.not_le] at hsize
          exact hsize
        rw [if_pos hlimits]
        refine ⟨fun h => absurd h (by simp), ?_⟩
        rintro ⟨rfl, -, -, hbound⟩
        -- the entries so far are a part of the result
        refine absurd (hbound (by simp)) fun hle => hsize ⟨le_trans ?_ hle.1, le_trans ?_ hle.2⟩
        · simp
        · simp [total, mappingEntry]
    · have hrejected := mt hchecks.mp hok
      rw [Bool.not_eq_false] at hrejected
      rw [if_pos hrejected]
      exact ⟨fun h => absurd h (by simp), fun h => absurd (h.2.1 _ List.mem_cons_self) hok⟩

/-- **The mappings that `from_mappings` accepts**, and what it makes of them.
SRCLINE: ports.rs:91-126 -/
theorem fromMappings_iff (mappings : List (String × String)) (out : List (List UInt8)) :
    fromMappings mappings = .ok out ↔ out = (baseline ++ mappings).map mappingEntry ∧
      (∀ m ∈ mappings, validEnvironmentName m.1 = true ∧ (0 : UInt8) ∉ bytes m.2) ∧
      (mappings.map Prod.fst).Nodup ∧ mappings.length + 2 ≤ MAX_ENTRIES ∧ total out ≤ MAX_BYTES := by
  have hreserved : validEnvironmentName "LANG" = false ∧ validEnvironmentName "LC_ALL" = false := by
    decide +kernel
  have hdifferent : ("LANG" : String) ≠ "LC_ALL" := by decide
  rw [fromMappings, fromMappingsLoop_iff, List.nil_append]
  simp only [baseline, List.cons_append, List.nil_append, List.map_cons, List.nodup_cons, List.mem_cons,
    not_or, List.not_mem_nil, not_false_eq_true, true_and]
  constructor
  · rintro ⟨rfl, hnames, ⟨⟨-, hlang⟩, hlc, hdistinct⟩, hbound⟩
    have hall : ∀ m ∈ mappings, NameOk m.1 ∧ (0 : UInt8) ∉ bytes m.2 :=
      fun m hm => hnames m (Or.inr (Or.inr hm))
    refine ⟨rfl, fun m hm => ⟨?_, (hall m hm).2⟩, hdistinct, ?_, (hbound (by simp)).2⟩
    · rcases (hall m hm).1 with hname | hname | hname
      · exact absurd (List.mem_map_of_mem hm) (hname ▸ hlang)
      · exact absurd (List.mem_map_of_mem hm) (hname ▸ hlc)
      · exact hname
    · have hcount := (hbound (by simp)).1
      simp only [List.length_cons, List.length_map] at hcount
      omega
  · rintro ⟨rfl, hall, hdistinct, hcount, hbound⟩
    have hbaseline : ∀ name, validEnvironmentName name = false → name ∉ mappings.map Prod.fst := by
      intro name hname hmem
      obtain ⟨m, hm, rfl⟩ := List.mem_map.mp hmem
      rw [(hall m hm).1] at hname
      simp at hname
    refine ⟨rfl, ?_, ⟨⟨hdifferent, hbaseline _ hreserved.1⟩, hbaseline _ hreserved.2, hdistinct⟩,
      fun _ => ⟨?_, hbound⟩⟩
    swap
    · simp only [List.length_cons, List.length_map]
      omega
    rintro m (rfl | rfl | hm)
    · exact ⟨Or.inl rfl, by decide +kernel⟩
    · exact ⟨Or.inr (Or.inl rfl), by decide +kernel⟩
    · exact ⟨Or.inr (Or.inr (hall m hm).1), (hall m hm).2⟩

theorem helperName_of_valid {name : String} (h : validEnvironmentName name = true) :
    helperName (bytes name) = true := by
  simp only [validEnvironmentName, Bool.and_eq_true] at h
  simp only [helperName, Bool.and_eq_true]
  exact ⟨⟨h.1.1.1.1, h.1.2⟩, h.2⟩

/-- INTERNAL: the entries of `from_mappings` are the texts of the environment with their NULs. -/
theorem map_mappingEntry (mappings : List (String × String)) :
    (baseline ++ mappings).map mappingEntry =
      ([Text.bytes "LANG=C", Text.bytes "LC_ALL=C"] ++
        (mappings.map fun m => (bytes m.1, bytes m.2)).map variableText).map (· ++ [0]) := by
  have hbaseline : baseline.map mappingEntry =
      [Text.bytes "LANG=C", Text.bytes "LC_ALL=C"].map (· ++ [0]) := by
    decide +kernel
  have hrest : mappings.map mappingEntry =
      ((mappings.map fun m => (bytes m.1, bytes m.2)).map variableText).map (· ++ [0]) := by
    rw [List.map_map, List.map_map]
    refine List.map_congr_left fun m _ => ?_
    simp [variableText, mappingEntry, entry]
  rw [List.map_append, List.map_append, hbaseline, hrest]

/-- INTERNAL: **what the provider accepts is within the limits of the helper.** -/
theorem exists_child_of_provider {argv : List String} {arguments entries : List (List UInt8)}
    {mappings : List (String × String)} (hargv : checkedArguments argv = .ok arguments)
    (hmappings : fromMappings mappings = .ok entries) :
    ∃ child : Child, child.argv = argv.map bytes ∧
      child.mappings = mappings.map (fun m => (bytes m.1, bytes m.2)) ∧
      child.argv.map (· ++ [0]) = arguments ∧ child.environment.map (· ++ [0]) = entries := by
  obtain ⟨harguments, htexts, hargvBytes, hne, hcount, hcommand⟩ := checkedArguments_ok hargv
  obtain ⟨hentries, hall, hdistinct, henvCount, hbytes⟩ := (fromMappings_iff mappings entries).mp hmappings
  rw [map_mappingEntry] at hentries
  have hnames : ∀ e ∈ mappings.map (fun m => (bytes m.1, bytes m.2)), helperName e.1 = true := by
    intro e he
    obtain ⟨m, hm, rfl⟩ := List.mem_map.mp he
    exact helperName_of_valid (hall m hm).1
  have hvalues : ∀ e ∈ mappings.map (fun m => (bytes m.1, bytes m.2)), (0 : UInt8) ∉ e.2 := by
    intro e he
    obtain ⟨m, hm, rfl⟩ := List.mem_map.mp he
    exact (hall m hm).2
  have hdistinct' : ((mappings.map fun m => (bytes m.1, bytes m.2)).map Prod.fst).Nodup := by
    have hcomp : (mappings.map fun m => (bytes m.1, bytes m.2)).map Prod.fst =
        (mappings.map Prod.fst).map bytes := by
      rw [List.map_map, List.map_map]
      rfl
    rw [hcomp]
    exact hdistinct.map bytes_injective
  have hargvBytes' : total ((argv.map bytes).map (· ++ [0])) ≤ MAX_ARG_BYTES := harguments ▸ hargvBytes
  have hlengths : 1 ≤ (argv.map bytes).length ∧ (argv.map bytes).length ≤ Bridge.MAX_ARGS := by
    rw [List.length_map]
    exact ⟨hne, hcount⟩
  have henvCount' : (mappings.map fun m => (bytes m.1, bytes m.2)).length + 2 ≤ MAX_ENTRIES := by
    rw [List.length_map]
    exact henvCount
  rw [hentries] at hbytes
  exact ⟨⟨_, _, hlengths, hcommand, htexts, hargvBytes', henvCount', hnames, hdistinct', hvalues, hbytes⟩,
    rfl, rfl, harguments.symm, hentries.symm⟩

/-! ## Packets of the provider -/

section Packets

variable {Fd : Type} (kernel : Kernel Fd)

/-- The descriptors of a prepared executable pass the kernel's checks, and a producer has no working
directory. -/
structure DescriptorsPass (prepared : PreparedExecutable Fd) : Prop where
  file : kernel.executable prepared.file = true
  directory : prepared.workingDirectory.all kernel.directory = true
  output : prepared.producerOutput.all kernel.producerOutput = true
  exclusive : prepared.workingDirectory = none ∨ prepared.producerOutput = none

/-- INTERNAL: the packet of a child fits. -/
theorem length_encode (child : Child) (code : UInt8) : (child.encode code).length ≤ MAX_PACKET := by
  have harguments := child.argvBytes
  have henvironment := child.bytes
  have hargc := child.argvCount.2
  have henvc := child.count
  have hlength : (child.encode code).length = 10 +
      ((child.argv.map (· ++ [0]) ++ child.environment.map (· ++ [0])).flatMap frame).length := by
    simp only [Child.encode, payload, List.length_append, List.length_cons, length_le, MAGIC,
      List.length_nil]
    omega
  have hcount : child.environment.length = child.mappings.length + 2 := by
    simp [Child.environment]
  rw [hlength, length_flatMap_frame, total, List.map_append, List.sum_append, List.length_append,
    List.length_map, List.length_map, hcount]
  simp only [total, MAX_ARG_BYTES, MAX_BYTES, Bridge.MAX_ARGS, MAX_ENTRIES, MAX_PACKET] at *
  have henvironment' : ((child.environment.map (· ++ [0])).map List.length).sum ≤ 32 * 1024 := henvironment
  omega

/-- INTERNAL: what `Bridge::send` hands to `sendmsg`. -/
theorem send_child (child : Child) (prepared : PreparedExecutable Fd)
    (hargv : prepared.argv = child.argv.map (· ++ [0])) (h : DescriptorsPass kernel prepared) :
    ∃ code fds, send kernel .connected prepared (child.environment.map (· ++ [0])) =
      .ok ⟨child.encode code, fds⟩ ∧ FdsPass kernel code fds := by
  have hpayload : ∀ code, payload code prepared.argv (child.environment.map (· ++ [0])) =
      child.encode code := by
    intro code
    rw [hargv]
    rfl
  obtain ⟨file, argv, directory, output⟩ := prepared
  obtain ⟨hfile, hdirectory, houtput, hexclusive⟩ := h
  simp only at hfile hdirectory houtput hexclusive hpayload
  cases directory with
  | none =>
    cases output with
    | none =>
      refine ⟨TRANSFER, [file], ?_, Or.inl ⟨rfl, file, rfl, hfile⟩⟩
      simp [send, hfile, PreparedExecutable.code, length_encode, hpayload, bind, Except.bind, pure, Except.pure]
    | some output =>
      have houtput' : kernel.producerOutput output = true := by simpa using houtput
      refine ⟨TRANSFER_PRODUCER, [file, output], ?_,
        Or.inr (Or.inr ⟨rfl, file, output, rfl, hfile, houtput'⟩)⟩
      simp [send, hfile, houtput', PreparedExecutable.code, length_encode, hpayload, bind, Except.bind, pure,
        Except.pure]
  | some directory =>
    have hnone : output = none := by simpa using hexclusive
    subst hnone
    have hdirectory' : kernel.directory directory = true := by simpa using hdirectory
    refine ⟨TRANSFER_SSH, [file, directory], ?_,
      Or.inr (Or.inl ⟨rfl, file, directory, rfl, hfile, hdirectory'⟩)⟩
    simp [send, hfile, hdirectory', PreparedExecutable.code, length_encode, hpayload, bind, Except.bind, pure,
      Except.pure]

/-- INTERNAL: the texts the helper finds in the packet of a child. -/
theorem pointers_encode (child : Child) (code : UInt8) (fds : List Fd) (hfds : FdsPass kernel code fds) :
    ∃ launch, parse kernel ⟨child.encode code, fds⟩ = .ok launch ∧
      launch.packet = ⟨child.encode code, fds⟩ ∧
      launch.pointers launch.arguments = child.argv.map some ∧
      launch.pointers launch.environment = child.environment.map some := by
  have htexts := cstr_header code (child.argv.map (· ++ [0])).length
    (child.environment.map (· ++ [0])).length (child.argv.map (· ++ [0]))
    (child.environment.map (· ++ [0])) child.validFrom.1
  have hargv : texts (child.argv.map (· ++ [0])) = child.argv :=
    (terminated_map child.argv child.argvTexts).2
  have henvironment : texts (child.environment.map (· ++ [0])) = child.environment :=
    (terminated_map child.environment child.environment_texts).2
  rw [hargv, henvironment] at htexts
  exact ⟨_, parse_encode kernel child code fds hfds, rfl, htexts.1, htexts.2⟩

/-- **Launch packets are read as they were written.** What `checked_arguments` and `from_mappings`
accept is sent in a packet that the helper accepts, and it finds the same arguments and the same
environment. For every packet whatever the helper either rejects it or finds texts that end inside
its buffer, and never reads past the end. It accepts exactly the encodings of arguments and an
environment within its limits, whose descriptors pass; the texts may be any bytes without NUL.
SRCLINE: bridge.rs:160-208, bridge.rs:631-737, execution.rs:184-200, ports.rs:91-126 -/
theorem launch_packets :
    (∀ argv arguments mappings entries prepared, checkedArguments argv = .ok arguments →
      fromMappings mappings = .ok entries → prepared.argv = arguments →
      DescriptorsPass kernel prepared →
      ∃ packet launch, send kernel .connected prepared entries = .ok packet ∧
        parse kernel packet = .ok launch ∧
        launch.pointers launch.arguments = argv.map (fun arg => some (bytes arg)) ∧
        launch.pointers launch.environment =
          (baseline ++ mappings).map (fun m => some (bytes m.1 ++ 61 :: bytes m.2))) ∧
    (∀ packet, parse kernel packet ≠ .error .outOfBounds ∧
      ∀ launch, parse kernel packet = .ok launch → launch.packet = packet ∧
        ∀ offset ∈ launch.arguments ++ launch.environment, (cstr packet.bytes offset).isSome = true) ∧
    ∀ packet, (∃ launch, parse kernel packet = .ok launch) ↔
      ∃ (child : Child) (code : UInt8), packet.bytes = child.encode code ∧
        FdsPass kernel code packet.fds := by
  refine ⟨?_, fun packet => ⟨parse_inBounds kernel packet, ?_⟩, fun packet => ⟨?_, ?_⟩⟩
  · intro argv arguments mappings entries prepared hargv hmappings hprepared hpass
    obtain ⟨child, hchildArgv, hchildMappings, rfl, rfl⟩ := exists_child_of_provider hargv hmappings
    obtain ⟨code, fds, hsend, hfds⟩ := send_child kernel child prepared hprepared hpass
    obtain ⟨launch, hparse, -, hpointers, henvironment⟩ := pointers_encode kernel child code fds hfds
    refine ⟨_, launch, hsend, hparse, ?_, ?_⟩
    · rw [hpointers, hchildArgv, List.map_map]
      rfl
    · rw [henvironment, Child.environment, hchildMappings, List.map_append, List.map_append, List.map_map,
        List.map_map]
      rfl
  · intro launch hparse
    obtain ⟨child, code, hbytes, hfds⟩ := exists_child kernel hparse
    obtain ⟨data, fds⟩ := packet
    simp only at hbytes hfds
    subst hbytes
    obtain ⟨launch', hparse', hpacket, hpointers, henvironment⟩ :=
      pointers_encode kernel child code fds hfds
    obtain rfl : launch' = launch := Except.ok.inj (hparse'.symm.trans hparse)
    refine ⟨hpacket, fun offset hoffset => ?_⟩
    have hread : cstr (child.encode code) offset ∈ launch'.pointers launch'.arguments ++
        launch'.pointers launch'.environment := by
      rw [Launch.pointers, Launch.pointers, hpacket, ← List.map_append]
      exact List.mem_map_of_mem hoffset
    rw [hpointers, henvironment, ← List.map_append] at hread
    obtain ⟨text, -, htext⟩ := List.mem_map.mp hread
    simp only [← htext, Option.isSome_some]
  · rintro ⟨launch, hparse⟩
    exact exists_child kernel hparse
  · rintro ⟨child, code, hbytes, hfds⟩
    obtain ⟨data, fds⟩ := packet
    simp only at hbytes hfds
    subst hbytes
    exact ⟨_, parse_encode kernel child code fds hfds⟩

end Packets

/-- INTERNAL: the byte 255 is not a text. -/
theorem bytes_ne_255 (text : String) : bytes text ≠ [255] := by
  intro h
  unfold bytes utf8 at h
  cases hchars : text.toList with
  | nil => simp [hchars] at h
  | cons c rest =>
    rw [hchars, List.flatMap_cons] at h
    have hlength := congrArg List.length h
    rw [List.length_append, String.length_utf8EncodeChar, List.length_singleton] at hlength
    have hpos := c.utf8Size_pos
    have hsmall : c.utf8Size = 1 := by omega
    rw [utf8EncodeChar_of_utf8Size hsmall, List.singleton_append, List.cons.injEq] at h
    have hascii := utf8Size_eq_one_iff.mp hsmall
    have hbyte := congrArg UInt8.toNat h.1
    rw [UInt8.toNat_ofNat'] at hbyte
    have h255 : (255 : UInt8).toNat = 255 := rfl
    omega

/-- A packet may carry an argument that is not UTF-8. The helper accepts it, but no argument list of
the provider has this encoding.
SRCLINE: bridge.rs:659-690, execution.rs:184-200 -/
theorem packet_beyond_utf8 :
    ¬ ∀ (Fd : Type) (kernel : Kernel Fd) (packet : Packet Fd) (launch : Launch Fd),
      parse kernel packet = .ok launch →
      ∃ argv arguments mappings entries code, checkedArguments argv = .ok arguments ∧
        fromMappings mappings = .ok entries ∧ packet.bytes = payload code arguments entries := by
  intro hclaim
  let kernel : Kernel Unit := ⟨fun _ => true, fun _ => true, fun _ => true⟩
  have hfds : FdsPass kernel TRANSFER [()] := Or.inl ⟨rfl, (), rfl, rfl⟩
  let child : Child :=
    { argv := [[255]], mappings := [], argvCount := by decide, command := by decide
      argvTexts := by decide, argvBytes := by decide, count := by decide, names := by simp
      distinct := by simp, values := by simp, bytes := by decide +kernel }
  obtain ⟨launch, hparse, -, hpointers, -⟩ := pointers_encode kernel child TRANSFER [()] hfds
  obtain ⟨argv, arguments, mappings, entries, code, hargv, hmappings, hbytes⟩ :=
    hclaim Unit kernel _ launch hparse
  obtain ⟨child', hchildArgv, -, rfl, rfl⟩ := exists_child_of_provider hargv hmappings
  have hcode : code = TRANSFER := by
    have h := congrArg (·[5]?) hbytes
    simpa [Child.encode, payload, MAGIC] using h.symm
  subst hcode
  obtain ⟨launch', hparse', -, hpointers', -⟩ := pointers_encode kernel child' TRANSFER [()] hfds
  rw [← show child.encode TRANSFER = child'.encode TRANSFER from hbytes] at hparse'
  obtain rfl : launch' = launch := Except.ok.inj (hparse'.symm.trans hparse)
  have hsame : child'.argv = [[255]] :=
    List.map_injective_iff.mpr (Option.some_injective _) (hpointers'.symm.trans hpointers)
  rw [hchildArgv] at hsame
  cases argv with
  | nil => simp at hsame
  | cons first rest =>
    rw [List.map_cons, List.cons.injEq] at hsame
    exact bytes_ne_255 first hsame.1

/-! ## The variables of a policy -/

/-- The names of the variables a policy selects. -/
def variableNames (credentials : List LoginCredentialDraft) : List String :=
  (credentials.flatMap (·.fieldMappings)).map (·.environment)

/-- Whatever its credentials resolve to, values without NUL within the limit, the variables of the
policy are accepted, and every packet with them is accepted by the helper. -/
def Launchable (policy : OperationPolicy) : Prop :=
  ∀ resolved mappings, executionMappings policy.credentials resolved = some mappings →
    (∀ m ∈ mappings, (0 : UInt8) ∉ bytes m.2) →
    total ((baseline ++ mappings).map mappingEntry) ≤ MAX_BYTES →
    ∃ entries, fromMappings mappings = .ok entries ∧
      ∀ (Fd : Type) (kernel : Kernel Fd) (prepared : PreparedExecutable Fd) (argv : List String),
        checkedArguments argv = .ok prepared.argv → DescriptorsPass kernel prepared →
        ∃ packet launch, send kernel .connected prepared entries = .ok packet ∧
          parse kernel packet = .ok launch

/-- INTERNAL: the names of the mappings of an execution. -/
theorem executionMappings_fst (credentials : List LoginCredentialDraft) :
    ∀ {resolved : List (List String)} {mappings : List (String × String)},
      executionMappings credentials resolved = some mappings →
      mappings.map Prod.fst = variableNames credentials := by
  induction credentials with
  | nil =>
    intro resolved mappings h
    cases resolved with
    | nil =>
      rw [← Option.some.inj h]
      rfl
    | cons => simp [executionMappings] at h
  | cons credential credentials ih =>
    intro resolved mappings h
    cases resolved with
    | nil => simp [executionMappings] at h
    | cons values resolved =>
      simp only [executionMappings] at h
      split_ifs at h with hlength
      obtain ⟨rest, hrest, rfl⟩ := Option.map_eq_some_iff.mp h
      have hfst : ((credential.fieldMappings.map (·.environment)).zip values).map Prod.fst =
          credential.fieldMappings.map (·.environment) := by
        rw [List.map_fst_zip]
        rw [List.length_map]
        omega
      rw [List.map_append, hfst, ih hrest]
      simp [variableNames]

/-- INTERNAL: an execution may resolve every value to the empty text. -/
theorem executionMappings_empty (credentials : List LoginCredentialDraft) :
    ∃ resolved, executionMappings credentials resolved =
      some ((variableNames credentials).map fun name => (name, "")) := by
  induction credentials with
  | nil => exact ⟨[], rfl⟩
  | cons credential credentials ih =>
    obtain ⟨resolved, hresolved⟩ := ih
    refine ⟨List.replicate credential.fieldMappings.length "" :: resolved, ?_⟩
    have hzip : (credential.fieldMappings.map (·.environment)).zip
        (List.replicate credential.fieldMappings.length "") =
          credential.fieldMappings.map fun m => (m.environment, "") := by
      induction credential.fieldMappings with
      | nil => rfl
      | cons m rest ih => simp [List.replicate_succ, ih]
    simp [executionMappings, hresolved, hzip, variableNames, Function.comp_def]

/-- INTERNAL: an ASCII text has the codes of its characters as bytes. -/
theorem bytes_of_ascii (text : String) (h : ∀ c ∈ text.toList, c.toNat < 128) :
    bytes text = text.toList.map fun c => UInt8.ofNat c.toNat := by
  unfold bytes utf8
  generalize text.toList = l at h
  induction l with
  | nil => rfl
  | cons c l ih =>
    have hc := utf8EncodeChar_of_utf8Size (utf8Size_eq_one_iff.mpr (h c List.mem_cons_self))
    rw [List.flatMap_cons, hc, ih fun d hd => h d (List.mem_cons_of_mem _ hd)]
    rfl

theorem ofNat_toNat_inj {c d : Char} (hc : c.toNat < 128) (hd : d.toNat < 128)
    (h : UInt8.ofNat c.toNat = UInt8.ofNat d.toNat) : c = d := by
  have hnat := congrArg UInt8.toNat h
  rw [UInt8.toNat_ofNat', UInt8.toNat_ofNat'] at hnat
  exact Char.toNat_inj.mp (by omega)

/-- INTERNAL: ASCII texts start with the same characters where they start with the same bytes. -/
theorem startsWith_of_bytes {name pat : String} (hname : ∀ c ∈ name.toList, c.toNat < 128)
    (hpat : ∀ c ∈ pat.toList, c.toNat < 128) (h : Bridge.startsWith (bytes name) pat = true) :
    Model.startsWith name pat = true := by
  rw [Bridge.startsWith, bytes_of_ascii name hname, bytes_of_ascii pat hpat] at h
  unfold Model.startsWith
  generalize name.toList = l at h hname
  generalize pat.toList = p at h hpat
  induction p generalizing l with
  | nil => rfl
  | cons c p ih =>
    cases l with
    | nil => simp at h
    | cons d l =>
      simp only [List.map_cons, List.isPrefixOf, Bool.and_eq_true, beq_iff_eq] at h ⊢
      refine ⟨ofNat_toNat_inj (hpat c List.mem_cons_self) (hname d List.mem_cons_self) h.1, ?_⟩
      exact ih l (fun e he => hname e (List.mem_cons_of_mem _ he)) h.2
        fun e he => hpat e (List.mem_cons_of_mem _ he)

/-- INTERNAL: the code of a character of a name. -/
theorem nameByte (c : Char) : (c = '_' || isAsciiUppercase c) = true →
    (decide (UInt8.ofNat c.toNat = 95) || isUppercase (UInt8.ofNat c.toNat)) = true := by
  intro h
  rw [Bool.or_eq_true, decide_eq_true_eq, isAsciiUppercase_iff] at h
  rw [Bool.or_eq_true, decide_eq_true_eq]
  rcases h with rfl | h
  · exact Or.inl rfl
  · right
    simp only [isUppercase, Bool.and_eq_true, decide_eq_true_eq, UInt8.le_iff_toNat_le,
      UInt8.toNat_ofNat']
    have hlow : (65 : UInt8).toNat = 65 := rfl
    have hhigh : (90 : UInt8).toNat = 90 := rfl
    omega

/-- INTERNAL: the code of a later character of a name. -/
theorem nameByte_digit (c : Char) : (c = '_' || isAsciiUppercase c || isAsciiDigit c) = true →
    (decide (UInt8.ofNat c.toNat = 95) || isUppercase (UInt8.ofNat c.toNat) ||
      isDigit (UInt8.ofNat c.toNat)) = true := by
  intro h
  rw [Bool.or_eq_true] at h ⊢
  refine h.imp (nameByte c) fun hdigit => ?_
  rw [isAsciiDigit_iff] at hdigit
  simp only [isDigit, Bool.and_eq_true, decide_eq_true_eq, UInt8.le_iff_toNat_le, UInt8.toNat_ofNat']
  have hlow : (48 : UInt8).toNat = 48 := rfl
  have hhigh : (57 : UInt8).toNat = 57 := rfl
  omega

/-- INTERNAL: the shape of a name a policy accepts. -/
theorem validEnvironment_shape {name : String} (h : validEnvironment name = true) :
    (∀ c ∈ name.toList, c.toNat < 128) ∧ nameBytes (bytes name) = true := by
  simp only [validEnvironment, Bool.and_eq_true] at h
  have hchars := h.1.1.1.1.1.2
  have hascii : ∀ c ∈ name.toList, c.toNat < 128 := by
    intro c hc
    have hclass : (c = '_' || isAsciiUppercase c || isAsciiDigit c) = true := by
      cases hname : name.toList with
      | nil => simp [hname] at hc
      | cons d rest =>
        rw [hname] at hchars hc
        simp only [Bool.and_eq_true, List.all_eq_true] at hchars
        rcases List.mem_cons.mp hc with rfl | hc
        · rw [Bool.or_eq_true]
          exact Or.inl hchars.1
        · exact hchars.2 c hc
    simp only [Bool.or_eq_true, decide_eq_true_eq, isAsciiUppercase_iff, isAsciiDigit_iff] at hclass
    rcases hclass with (rfl | h) | h
    · decide
    · omega
    · omega
  refine ⟨hascii, ?_⟩
  rw [bytes_of_ascii name hascii]
  cases hname : name.toList with
  | nil => rfl
  | cons d rest =>
    rw [hname] at hchars
    simp only [Bool.and_eq_true, List.all_eq_true] at hchars
    simp only [List.map_cons, nameBytes, Bool.and_eq_true, List.all_eq_true, List.mem_map,
      forall_exists_index, and_imp, forall_apply_eq_imp_iff₂]
    exact ⟨nameByte d hchars.1, fun c hc => nameByte_digit c (hchars.2 c hc)⟩

/-- INTERNAL: **the names a policy accepts are accepted when its request executes, but for
`SHELL`.** -/
theorem validEnvironmentName_iff {name : String} (h : validEnvironment name = true) :
    validEnvironmentName name = true ↔ name ≠ "SHELL" := by
  obtain ⟨hascii, hshape⟩ := validEnvironment_shape h
  simp only [validEnvironment, Bool.and_eq_true, Bool.not_eq_true', decide_eq_true_eq] at h
  obtain ⟨⟨⟨⟨⟨⟨⟨hne, hsize⟩, -⟩, hld⟩, hdyld⟩, hvaultwarden⟩, hbitwarden⟩, hreserved⟩ := h
  have hbefore : ∀ pat : String, (∀ c ∈ pat.toList, c.toNat < 128) → Model.startsWith name pat = false →
      Bridge.startsWith (bytes name) pat = false := by
    intro pat hpat hno
    rw [Bool.eq_false_iff]
    intro hyes
    rw [startsWith_of_bytes hascii hpat hyes] at hno
    simp at hno
  have hmem : reservedNames.contains (bytes name) = decide (name = "SHELL") := by
    have hother : ∀ other ∈ ["LD_PRELOAD", "LD_LIBRARY_PATH"], name ≠ other := by
      rintro other hother rfl
      revert hld
      simp only [List.mem_cons, List.not_mem_nil, or_false] at hother
      rcases hother with rfl | rfl <;> decide +kernel
    have hlisted : name ∉ reservedEnvironments := by simpa using hreserved
    simp only [reservedEnvironments, List.mem_cons, List.not_mem_nil, or_false, not_or] at hlisted
    rw [Bool.eq_iff_iff, List.contains_iff_mem, reservedNames, List.mem_map_of_injective bytes_injective]
    simp [hlisted.1, hlisted.2.1, hlisted.2.2.1, hlisted.2.2.2.1, hother "LD_PRELOAD" (by simp),
      hother "LD_LIBRARY_PATH" (by simp)]
  have hlength := length_bytes name
  have hnonempty : (bytes name).isEmpty = false := by
    rw [Bool.eq_false_iff, ne_eq, List.isEmpty_iff]
    intro hnil
    rw [hnil, List.length_nil] at hlength
    simp [String.isEmpty, ← hlength] at hne
  simp only [validEnvironmentName, hnonempty, hshape, hmem, hbefore "DYLD_" (by simp) hdyld,
    hbefore "LD_" (by simp) hld, hbefore "VAULTWARDEN_" (by simp) hvaultwarden,
    hbefore "BITWARDEN_" (by simp) hbitwarden, Bool.not_false, Bool.and_true, Bool.true_and,
    Bool.and_eq_true, decide_eq_true_eq, Bool.not_eq_true', decide_eq_false_iff_not]
  have hbound : (bytes name).length ≤ 128 := by omega
  simp [hbound]

/-- INTERNAL: what a validated policy says about its variables. -/
theorem variableNames_valid {policy : OperationPolicy} (h : validateDraft policy.draft = true) :
    (∀ name ∈ variableNames policy.credentials, validEnvironment name = true) ∧
      (variableNames policy.credentials).Nodup ∧ (variableNames policy.credentials).length ≤ 128 := by
  have hcases : policy.credentials = [] ∨ (policy.credentials.length ≤ MAX_CREDENTIALS ∧
      validCredentials policy.credentials = true) := by
    unfold validateDraft at h
    rw [show policy.draft.create = policy.create from rfl, show policy.draft.ssh = policy.ssh from rfl]
      at h
    cases hc : policy.create with
    | some create =>
      simp only [hc, Bool.and_eq_true, List.isEmpty_iff] at h
      exact Or.inl h.1.1.1.2
    | none =>
      cases hs : policy.ssh with
      | some ssh =>
        simp only [hc, hs, Bool.and_eq_true, List.isEmpty_iff] at h
        exact Or.inl h.1.1.1.1.2
      | none =>
        simp only [hc, hs, Bool.and_eq_true, decide_eq_true_eq] at h
        exact Or.inr ⟨h.1.2, h.2⟩
  rcases hcases with hnil | ⟨hcount, hvalid⟩
  · simp [hnil, variableNames]
  · simp only [validCredentials, Bool.and_eq_true, List.all_eq_true] at hvalid
    obtain ⟨⟨-, hunique⟩, hall⟩ := hvalid
    have hcredential : ∀ c ∈ policy.credentials, c.fieldMappings.length ≤ MAX_FIELD_MAPPINGS ∧
        ∀ m ∈ c.fieldMappings, validEnvironment m.environment = true := by
      intro c hc
      have hone := hall c hc
      simp only [validCredential, Bool.and_eq_true, decide_eq_true_eq, List.all_eq_true] at hone
      exact ⟨hone.1.1.1.2, fun m hm => (hone.1.1.2 m hm).2⟩
    refine ⟨?_, ?_, ?_⟩
    · intro name hname
      obtain ⟨m, hm, rfl⟩ := List.mem_map.mp hname
      obtain ⟨c, hc, hm⟩ := List.mem_flatMap.mp hm
      exact (hcredential c hc).2 m hm
    · have hno : hasDuplicates (variableNames policy.credentials) = false := by
        simpa [uniqueCredentialEnvironments, variableNames] using hunique
      exact (hasDuplicates_eq_false_iff _).mp hno
    · have hsum : (policy.credentials.map fun c => c.fieldMappings.length).sum ≤
          policy.credentials.length * MAX_FIELD_MAPPINGS := by
        have hle := List.sum_le_card_nsmul (policy.credentials.map fun c => c.fieldMappings.length)
          MAX_FIELD_MAPPINGS (by
            intro n hn
            obtain ⟨c, hc, rfl⟩ := List.mem_map.mp hn
            exact (hcredential c hc).1)
        simpa using hle
      simp only [MAX_CREDENTIALS, MAX_FIELD_MAPPINGS] at hcount hsum
      rw [variableNames, List.length_map, List.length_flatMap]
      omega

/-- INTERNAL: **the variables of a validated policy are accepted exactly where they are few and none is
`SHELL`.** -/
theorem launchable_iff {policy : OperationPolicy} (h : validateDraft policy.draft = true) :
    Launchable policy ↔ "SHELL" ∉ variableNames policy.credentials ∧
      (variableNames policy.credentials).length ≤ 30 := by
  obtain ⟨hnames, hdistinct, hcount⟩ := variableNames_valid h
  constructor
  · intro hlaunch
    -- empty values are within the limit
    obtain ⟨resolved, hresolved⟩ := executionMappings_empty policy.credentials
    have hvalues : ∀ m ∈ (variableNames policy.credentials).map (fun name => (name, "")),
        (0 : UInt8) ∉ bytes m.2 := by
      intro m hm
      obtain ⟨name, -, rfl⟩ := List.mem_map.mp hm
      exact List.not_mem_nil
    have hbytes : total ((baseline ++ (variableNames policy.credentials).map
        fun name => (name, "")).map mappingEntry) ≤ MAX_BYTES := by
      have hbaseline : (baseline.map mappingEntry).map List.length = [7, 9] := by decide +kernel
      have hsum : ((((variableNames policy.credentials).map fun name => (name, "")).map
          mappingEntry).map List.length).sum ≤ (variableNames policy.credentials).length * 66 := by
        have hle := List.sum_le_card_nsmul ((((variableNames policy.credentials).map
          fun name => (name, "")).map mappingEntry).map List.length) 66 (by
            intro n hn
            simp only [List.mem_map, exists_exists_and_eq_and] at hn
            obtain ⟨name, hname, rfl⟩ := hn
            have hsize := hnames name hname
            simp only [validEnvironment, Bool.and_eq_true, decide_eq_true_eq] at hsize
            have hlength := length_bytes name
            have hempty : bytes "" = [] := rfl
            simp only [mappingEntry, entry, hempty, List.length_append, List.length_cons, List.length_nil]
            omega)
        simpa using hle
      rw [total, List.map_append, List.map_append, List.sum_append, hbaseline]
      simp only [MAX_BYTES, List.sum_cons, List.sum_nil]
      omega
    obtain ⟨entries, hentries, -⟩ := hlaunch resolved _ hresolved hvalues hbytes
    obtain ⟨-, hall, -, hfew, -⟩ := (fromMappings_iff _ _).mp hentries
    constructor
    · intro hshell
      have hvalid := (hall ("SHELL", "") (List.mem_map.mpr ⟨"SHELL", hshell, rfl⟩)).1
      exact (validEnvironmentName_iff (hnames "SHELL" hshell)).mp hvalid rfl
    · simpa [MAX_ENTRIES] using hfew
  · rintro ⟨hshell, hfew⟩ resolved mappings hresolved hvalues hbytes
    have hfst := executionMappings_fst policy.credentials hresolved
    have hlength : mappings.length = (variableNames policy.credentials).length := by
      rw [← hfst, List.length_map]
    have haccepted : fromMappings mappings = .ok ((baseline ++ mappings).map mappingEntry) := by
      refine (fromMappings_iff _ _).mpr ⟨rfl, fun m hm => ⟨?_, hvalues m hm⟩, ?_, ?_, hbytes⟩
      · have hmem : m.1 ∈ variableNames policy.credentials := hfst ▸ List.mem_map_of_mem hm
        exact (validEnvironmentName_iff (hnames m.1 hmem)).mpr fun heq => hshell (heq ▸ hmem)
      · rw [hfst]
        exact hdistinct
      · simp only [MAX_ENTRIES]
        omega
    refine ⟨_, haccepted, fun Fd kernel prepared argv hargv hpass => ?_⟩
    obtain ⟨child, -, -, hchildArgv, hchildEnv⟩ := exists_child_of_provider hargv haccepted
    obtain ⟨code, fds, hsend, hfds⟩ := send_child kernel child prepared hchildArgv.symm hpass
    rw [hchildEnv] at hsend
    exact ⟨_, _, hsend, parse_encode kernel child code fds hfds⟩

/-- **The variables of an accepted policy are accepted when its request executes exactly where there
are at most thirty and none is `SHELL`.** `from_draft` allows 128 variables and does not reserve
`SHELL`; `from_mappings` allows thirty beside the baseline and reserves it.
SRCLINE: policy.rs:890-959, ports.rs:91-154 -/
theorem policies_launchable (E : Externals) (disk : Disk) (draft : OperationPolicyDraft)
    (approved : ApprovedImage) (policy : OperationPolicy)
    (h : OperationPolicy.fromDraft E disk draft approved = some policy) :
    Launchable policy ↔ "SHELL" ∉ variableNames policy.credentials ∧
      (variableNames policy.credentials).length ≤ 30 :=
  launchable_iff (intact_of_fromDraft E disk draft approved policy h).1.valid

/-- An operation with one variable. -/
def loginDraft (variableName : String) : OperationPolicyDraft where
  id := "deploy"
  description := "Deploy"
  imageId := "tool"
  targets := ["prod"]
  arguments := [.target]
  credentials := [⟨"2f1c8a40-6d3e-4b57-9c21-08e5f7a1b6d4", "Deploy key", .login,
    [⟨.password, variableName⟩], none⟩]
  ssh := none
  create := none
  requirePassword := false

/-- INTERNAL: the policy of such an operation. -/
theorem fromDraft_login {variableName : String} (E : Externals)
    (h : validateDraft (loginDraft variableName) = true) :
    OperationPolicy.fromDraft E Sample.disk (loginDraft variableName) (Sample.image E) =
      some (OperationPolicy.ofCanonical E (loginDraft variableName) (Sample.image E).resolved) := by
  have hcanonical : canonicalizeDraft (loginDraft variableName) = loginDraft variableName := rfl
  unfold OperationPolicy.fromDraft
  rw [h, Sample.image_intact, hcanonical]
  rfl

/-- The theorem at a policy with the variable `TOKEN`. -/
theorem policies_launchable_token :
    Launchable (OperationPolicy.ofCanonical Sample.externals (loginDraft "TOKEN")
      (Sample.image Sample.externals).resolved) :=
  (policies_launchable Sample.externals Sample.disk (loginDraft "TOKEN") (Sample.image Sample.externals) _
    (fromDraft_login Sample.externals (by decide +kernel))).mpr (by decide +kernel)

/-- A policy with the variable `SHELL` is accepted, and its requests can be approved, but every
execution fails after its claim.
SRCLINE: policy.rs:931-959, ports.rs:138-154 -/
theorem shell_policy_not_launchable :
    ¬ ∀ (E : Externals) (disk : Disk) (draft : OperationPolicyDraft) (approved : ApprovedImage)
      (policy : OperationPolicy), OperationPolicy.fromDraft E disk draft approved = some policy →
      Launchable policy := by
  intro hclaim
  have haccepted := fromDraft_login Sample.externals
    (show validateDraft (loginDraft "SHELL") = true by decide +kernel)
  have hlaunch := hclaim _ _ _ _ _ haccepted
  have hvalid := (intact_of_fromDraft _ _ _ _ _ haccepted).1.valid
  exact ((launchable_iff hvalid).mp hlaunch).1 (by decide +kernel)

end VaultAccess.Analysis.Bridge
