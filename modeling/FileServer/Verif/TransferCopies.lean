import FileServer.Verif.OpenFiles
import FileServer.Verif.TransferPaths

/-!
# The copy of a transfer

`HandleHelperTransfer` on a file system, whatever calls the system refuses and wherever it breaks
off the reads and writes. Once the destination is open it has been created or emptied, so what the
command leaves is the front of the source that was written, and a later failure takes nothing back.
-/
namespace FileServer

open FileServer.Lib

variable {ω : Type}

/-- The bytes of some blocks. -/
def joined {limit : Nat} (blocks : Blocks limit) : List UInt8 := blocks.flatMap Subtype.val

/-- How many bytes the system takes in a call. -/
def takenBy : HelperEvent → Nat
  | ⟨.write .., answer⟩ =>
    match answer with
    | .ok count => count.val
    | .error _ => 0
  | _ => 0

/-- How many bytes the system takes in all. -/
def taken (events : List HelperEvent) : Nat := (events.map takenBy).sum

@[simp]
theorem taken_nil : taken [] = 0 := rfl

@[simp]
theorem taken_cons (event : HelperEvent) (later : List HelperEvent) :
    taken (event :: later) = takenBy event + taken later := by
  simp [taken]

@[simp]
theorem taken_append (before after : List HelperEvent) :
    taken (before ++ after) = taken before + taken after := by
  simp [taken]

/-- How many bytes the reads of a loop bring. -/
def broughtBy : HelperEvent → Nat
  | ⟨.readAgain .., blocks⟩ => (joined blocks).length
  | _ => 0

/-- How many bytes the reads bring in all. -/
def brought (events : List HelperEvent) : Nat := (events.map broughtBy).sum

@[simp]
theorem brought_nil : brought [] = 0 := rfl

@[simp]
theorem brought_cons (event : HelperEvent) (later : List HelperEvent) :
    brought (event :: later) = broughtBy event + brought later := by
  simp [brought]

@[simp]
theorem brought_append (before after : List HelperEvent) :
    brought (before ++ after) = brought before + brought after := by
  simp [brought]

section

variable (kernel : HostSystem ω)

/-- A write at the end of a file appends what the system takes, or fails without effect. -/
theorem calls_write {host : Host ω} {fd : Descriptor} {place : Location} {content : List UInt8}
    (opened : host.file fd = some ⟨place, content.length⟩)
    (here : host.tree.content place = some content) (bytes : List UInt8) :
    (∃ failure world,
        Host.calls kernel host (.write fd bytes) = (.error failure, { host with world })) ∨
      ∃ count after, Host.calls kernel host (.write fd bytes) = (.ok count, after) ∧
        after.tree.node = Function.update host.tree.node place
          (some (.regular (content ++ bytes.take count.val))) ∧
        after.file fd = some ⟨place, (content ++ bytes.take count.val).length⟩ := by
  have holds : host.Holds fd place content content.length := ⟨opened, here, Nat.le_refl _⟩
  obtain failed | ⟨count, after, called, changed, moved⟩ := holds.calls_write kernel bytes
  · exact Or.inl failed
  · rw [overwrite_length] at changed moved
    refine Or.inr ⟨count, after, called, changed, ?_⟩
    rw [moved.file, List.length_append]

/-- The copying loop appends what the system takes of the blocks. -/
theorem ends_copyFile {host : Host ω} {destFd : Descriptor} {place : Location}
    {content : List UInt8} (opened : host.file destFd = some ⟨place, content.length⟩)
    (here : host.tree.content place = some content) (blocks : Blocks 8192) :
    (copyFile destFd blocks).Ends (Host.calls kernel) host fun events copied after =>
      after.tree.node = Function.update host.tree.node place
          (some (.regular (content ++ (joined blocks).take (taken events)))) ∧
        brought events = 0 ∧ taken events ≤ (joined blocks).length ∧
        (copied = true → taken events = (joined blocks).length) := by
  induction blocks generalizing host content with
  | nil =>
    refine Script.ends_pure.mpr ⟨?_, rfl, Nat.zero_le _, fun _ => rfl⟩
    rw [joined, List.flatMap_nil, List.take_nil, List.append_nil,
      ← FileTree.content_eq_some.mp here, Function.update_eq_self]
  | cons bytes later ih =>
    have split : joined (bytes :: later) = bytes.val ++ joined later := List.flatMap_cons
    obtain ⟨failure, world, failed⟩ | ⟨count, middle, written, changed, moved⟩ :=
      calls_write kernel opened here bytes.val
    · refine Script.Ends.call failed (Script.ends_pure.mpr ⟨?_, rfl, Nat.zero_le _, nofun⟩)
      rw [taken_cons, taken_nil, takenBy, List.take_zero, List.append_nil,
        ← FileTree.content_eq_some.mp here, Function.update_eq_self]
    · refine Script.Ends.call written ?_
      have bound := count.property
      show Script.Ends _ _ _ (if count.val ≠ bytes.val.length then pure false
        else copyFile destFd later)
      by_cases part : count.val ≠ bytes.val.length
      · rw [if_pos part]
        have sum : taken [⟨.write destFd bytes.val, .ok count⟩] = count.val := rfl
        refine Script.ends_pure.mpr ⟨?_, rfl, ?_, nofun⟩
        · rw [changed, sum, split, List.take_append_of_le_length bound]
        · rw [sum, split, List.length_append]
          omega
      · have whole : count.val = bytes.val.length := not_not.mp part
        rw [whole, List.take_length] at changed moved
        have regular : middle.tree.content place = some (content ++ bytes.val) := by
          rw [FileTree.content_eq_some, changed, Function.update_self]
        rw [if_neg part]
        refine (ih moved regular).weaken fun events copied after ends => ?_
        obtain ⟨final, quiet, few, all⟩ := ends
        have idle : brought (⟨.write destFd bytes.val, .ok count⟩ :: events) = 0 := by
          rw [brought_cons, quiet]
          rfl
        have sum : taken (⟨.write destFd bytes.val, .ok count⟩ :: events) =
            bytes.val.length + taken events := by
          rw [taken_cons, takenBy, whole]
        rw [sum, split, List.length_append]
        refine ⟨?_, idle, by omega, fun done => by rw [all done]⟩
        rw [final, changed, Function.update_idem, List.take_length_add_append, List.append_assoc]

/-- What the reads of a loop bring is the front of what there is to read. -/
theorem joined_portions {limit : Nat} (granted : Blocks limit) (rest : List UInt8) :
    joined (portions granted rest) <+: rest := by
  induction granted generalizing rest with
  | nil => exact List.nil_prefix
  | cons block later ih =>
    cases rest with
    | nil => exact List.nil_prefix
    | cons byte rest =>
      have behind := ih ((byte :: rest).drop block.val.length)
      have whole := List.take_append_drop block.val.length (byte :: rest)
      show ((byte :: rest).take block.val.length ++
        joined (portions later ((byte :: rest).drop block.val.length))) <+: byte :: rest
      calc (byte :: rest).take block.val.length ++
            joined (portions later ((byte :: rest).drop block.val.length))
          <+: (byte :: rest).take block.val.length ++ (byte :: rest).drop block.val.length :=
            (List.prefix_append_right_inj _).mpr behind
        _ = byte :: rest := whole

/-- A loop of reads brings the front of what there is to read, and leaves the tree and the other
files. -/
theorem calls_readAgain (host : Host ω) {fd : Descriptor} {place : Location}
    (opened : host.file fd = some ⟨place, 0⟩) (limit : Nat) :
    ∃ blocks after, Host.calls kernel host (.readAgain fd limit) = (blocks, after) ∧
      joined blocks <+: readable host.tree place ∧ after.tree = host.tree ∧
      ∀ other, other ≠ fd → after.file other = host.file other := by
  let world := (kernel.answer host.world (.readAgain fd limit)).2
  let granted := (kernel.answer host.world (.readAgain fd limit)).1
  have called : Host.calls kernel host (.readAgain fd limit) =
      ({ host with world } : Host ω).readAgain fd granted := rfl
  have same : ({ host with world } : Host ω).file fd = some ⟨place, 0⟩ := opened
  rw [called]
  unfold Host.readAgain Host.contentOf readable
  cases here : host.tree.content place with
  | none =>
    refine ⟨[], { host with world }, ?_, List.nil_prefix, rfl, fun _ _ => rfl⟩
    simp [same, here]
  | some content =>
    simp only [same, here, Option.bind_some, Option.map_some, List.drop_zero, Nat.zero_add]
    exact ⟨_, _, rfl, joined_portions granted content, rfl,
      fun other apart => Host.file_seek_of_ne _ apart _⟩

/-- With the destination open and empty, the front of the source is left there that is written. -/
theorem ends_transferOpened {host : Host ω} {srcFd destFd : Descriptor}
    {source destination : Location} (reads : host.file srcFd = some ⟨source, 0⟩)
    (writes : host.file destFd = some ⟨destination, 0⟩) (apart : destFd ≠ srcFd)
    (empty : host.tree.content destination = some []) (recv : List UInt8) :
    (transferOpened srcFd destFd recv).Ends (Host.calls kernel) host fun events result after =>
      after.tree.node = Function.update host.tree.node destination
          (some (.regular ((readable host.tree source).take (taken events)))) ∧
        brought events ≤ (readable host.tree source).length ∧
        (result = .ok () → taken events = brought events) := by
  have unchanged : host.tree.node = Function.update host.tree.node destination
      (some (.regular ((readable host.tree source).take 0))) := by
    rw [List.take_zero, ← FileTree.content_eq_some.mp empty, Function.update_eq_self]
  obtain ⟨account, first, asked, -⟩ := Host.calls_outside kernel host (.getpwnam recv) rfl
  refine Script.Ends.call asked ?_
  cases account with
  | none => exact Script.ends_pure.mpr ⟨unchanged, Nat.zero_le _, nofun⟩
  | some pw =>
    obtain ⟨owned, second, changed, -⟩ := Host.calls_outside kernel { host with world := first }
      (.fchown destFd pw.uid pw.gid) rfl
    refine Script.Ends.call changed ?_
    obtain ⟨locked, third, answered, -⟩ := Host.calls_outside kernel { host with world := second }
      (.setLock destFd .exclusive) rfl
    refine Script.Ends.call answered ?_
    cases locked with
    | error failure => exact Script.ends_pure.mpr ⟨unchanged, Nat.zero_le _, nofun⟩
    | ok _ =>
      obtain ⟨blocks, after, brought_, front, same, others⟩ :=
        calls_readAgain kernel { host with world := third } reads 8192
      refine Script.Ends.call brought_ ?_
      have still : after.file destFd = some ⟨destination, ([] : List UInt8).length⟩ :=
        (others destFd apart).trans writes
      have regular : after.tree.content destination = some [] := by
        rw [same]
        exact empty
      apply Script.Ends.bind
      refine (ends_copyFile kernel still regular blocks).weaken
        fun events copied last ends => ?_
      obtain ⟨final, quiet, few, all⟩ := ends
      have whole : (joined blocks).take (taken events) =
          (readable host.tree source).take (taken events) := by
        rw [List.prefix_iff_eq_take.mp front, List.take_take, Nat.min_eq_left few]
      have left : last.tree.node = Function.update host.tree.node destination
          (some (.regular ((readable host.tree source).take (taken events)))) := by
        rw [final, same, List.nil_append, whole]
      have bound : (joined blocks).length ≤ (readable host.tree source).length := front.length_le
      cases copied with
      | false =>
        refine Script.ends_pure.mpr ⟨?_, ?_, nofun⟩
        · simpa [takenBy] using left
        · simpa [broughtBy, quiet] using bound
      | true =>
        refine Script.ends_pure.mpr ⟨?_, ?_, fun _ => ?_⟩
        · simpa [takenBy] using left
        · simpa [broughtBy, quiet] using bound
        · simp [takenBy, broughtBy, quiet, all rfl]

/-- The call empties or creates a file. -/
def HelperEvent.Cuts : HelperEvent → Prop
  | ⟨.openFile _ flags _, answer⟩ => flags.trunc = true ∧ ∃ fd, answer = .ok fd
  | _ => False

/-- What there is to read from the source once the destination is open. -/
def leftToRead (before : FileTree) (source destination : Location) : List UInt8 :=
  if source = destination then [] else readable before source

/-- What a part of a transfer leaves: as long as nothing is emptied it changes nothing and does not
succeed; then the front of the source lies at the destination that was written. -/
structure Copied (before : FileTree) (source destination : Location) (events : List HelperEvent)
    (succeeded : Prop) (after : FileTree) : Prop where
  /-- Nothing has been opened for writing. -/
  untouched : (∀ event ∈ events, ¬ event.Cuts) → after = before ∧ ¬ succeeded
  /-- The destination has been opened. -/
  written : (∃ event ∈ events, HelperEvent.Cuts event) →
    after.node = Function.update before.node destination
        (some (.regular ((leftToRead before source destination).take (taken events)))) ∧
      brought events ≤ (leftToRead before source destination).length ∧
      (succeeded → taken events = brought events)

/-- A call in front that neither empties nor copies does not matter. -/
theorem Copied.cons {before after : FileTree} {source destination : Location}
    {events : List HelperEvent} {succeeded : Prop} {event : HelperEvent}
    (copied : Copied before source destination events succeeded after) (quiet : ¬ event.Cuts)
    (idle : takenBy event = 0 ∧ broughtBy event = 0) :
    Copied before source destination (event :: events) succeeded after where
  untouched none := copied.untouched fun other member => none other (List.mem_cons_of_mem _ member)
  written cuts := by
    obtain ⟨other, member, cut⟩ := cuts
    have later : other ∈ events := by
      rcases List.mem_cons.mp member with rfl | later
      · exact absurd cut quiet
      · exact later
    rw [taken_cons, brought_cons, idle.1, idle.2, Nat.zero_add, Nat.zero_add]
    exact copied.written ⟨other, later, cut⟩

/-- Calls without an effect leave the tree to a part that fails. -/
theorem Copied.of_untouched {before : FileTree} {source destination : Location}
    {events : List HelperEvent} {succeeded : Prop} (quiet : ∀ event ∈ events, ¬ event.Cuts)
    (failed : ¬ succeeded) : Copied before source destination events succeeded before where
  untouched _ := ⟨rfl, failed⟩
  written cuts := by
    obtain ⟨event, member, cut⟩ := cuts
    exact absurd cut (quiet event member)

/-- With the source open, the destination is opened, or nothing happens. -/
theorem ends_transferLocked {host : Host ω} {srcFd : Descriptor} {source : Location}
    (reads : host.file srcFd = some ⟨source, 0⟩) (path recv : List UInt8) :
    (transferLocked srcFd path recv).Ends (Host.calls kernel) host fun events result after =>
      Copied host.tree source (host.view.resolve path) events (result = .ok ()) after.tree := by
  obtain ⟨locked, first, answered, -⟩ :=
    Host.calls_outside kernel host (.setLock srcFd .shared) rfl
  refine Script.Ends.call answered ?_
  cases locked with
  | error failure =>
    obtain ⟨world, closed⟩ := Host.calls_close kernel { host with world := first } srcFd
    refine Script.Ends.call closed (Script.ends_pure.mpr ?_)
    exact Copied.of_untouched (by simp [HelperEvent.Cuts]) nofun
  | ok _ =>
    let flags : OpenFlags := ⟨.writeOnly, true, true, false, false⟩
    let second := (kernel.answer first (.openFile path flags 0o644)).2
    let granted := (kernel.answer first (.openFile path flags 0o644)).1
    let asked : Host ω := { host with world := second }
    have called : Host.calls kernel { host with world := first } (.openFile path flags 0o644) =
        asked.openFrom host.view path flags granted := rfl
    obtain ⟨failure, failed⟩ | ⟨fd, place, tree, opened, free, cut⟩ :=
      asked.openFrom_cases host.view path flags granted
    · refine Script.Ends.call (called.trans failed) ?_
      obtain ⟨world, closed⟩ := Host.calls_close kernel asked srcFd
      refine Script.Ends.call closed (Script.ends_pure.mpr ?_)
      exact Copied.of_untouched (by simp [HelperEvent.Cuts]) nofun
    · refine Script.Ends.call (called.trans opened) ?_
      let middle : Host ω := { asked with tree, files := (fd, ⟨place, 0⟩) :: asked.files }
      obtain ⟨-, named, emptied⟩ := FileTree.openFile_cuts cut
      have apart : fd ≠ srcFd := by
        rintro rfl
        rw [show host.file fd = none from free] at reads
        cases reads
      have still : middle.file srcFd = some ⟨source, 0⟩ := by
        have different : (srcFd == fd) = false := by simpa using apart.symm
        show List.lookup srcFd ((fd, ⟨place, 0⟩) :: host.files) = _
        rw [List.lookup_cons, different]
        exact reads
      have writes : middle.file fd = some ⟨place, 0⟩ := List.lookup_cons_self
      have regular : middle.tree.content place = some [] := by
        rw [FileTree.content_eq_some]
        show tree.node place = _
        rw [emptied, Function.update_self]
      have left : readable middle.tree source = leftToRead host.tree source place := by
        unfold leftToRead
        by_cases same : source = place
        · rw [if_pos same, readable, same, regular]
          rfl
        · have other : tree.node source = host.tree.node source := by
            rw [emptied, Function.update_of_ne same]
          rw [if_neg same, readable, readable, FileTree.content, FileTree.content, other]
      apply Script.Ends.bind
      refine (ends_transferOpened kernel still writes apart regular recv).weaken
        fun events result after ends => ?_
      rw [left] at ends
      obtain ⟨final, bound, all⟩ := ends
      obtain ⟨third, closedSrc⟩ := Host.calls_close kernel after srcFd
      refine Script.Ends.call closedSrc ?_
      obtain ⟨fourth, closedDest⟩ := Host.calls_close kernel
        { after with world := third, files := after.files.filter (·.1 ≠ srcFd) } fd
      refine Script.Ends.call closedDest (Script.ends_pure.mpr ⟨fun quiet => ?_, fun _ => ?_⟩)
      · exact absurd ⟨rfl, fd, rfl⟩
          (quiet ⟨.openFile path flags 0o644, .ok fd⟩ (List.mem_cons_of_mem _ List.mem_cons_self))
      · have place_ : host.view.resolve path = place := named
        have taken_ : taken (⟨.setLock srcFd .shared, .ok ()⟩ ::
            ⟨.openFile path flags 0o644, .ok fd⟩ ::
              (events ++ [⟨.close srcFd, ()⟩, ⟨.close fd, ()⟩])) = taken events := by
          simp [takenBy]
        have brought_ : brought (⟨.setLock srcFd .shared, .ok ()⟩ ::
            ⟨.openFile path flags 0o644, .ok fd⟩ ::
              (events ++ [⟨.close srcFd, ()⟩, ⟨.close fd, ()⟩])) = brought events := by
          simp [broughtBy]
        refine ⟨?_, ?_, fun done => ?_⟩
        · show after.tree.node = _
          have same : middle.tree.node = Function.update host.tree.node place
              (some (.regular [])) := emptied
          rw [final, same, Function.update_idem, place_, ← taken_]
        · rw [place_]
          exact brought_.le.trans bound
        · exact taken_.trans ((all done).trans brought_.symm)

/-- The path of the source, as it is cut. -/
def sourcePath (root sender filename : List UInt8) : List UInt8 :=
  formatted 512 (root ++ str "/" ++ sender ++ str "/" ++ filename)

/-- The path of the destination, as it is cut. -/
def destinationPath (root recv targetPath filename : List UInt8) : List UInt8 :=
  formatted 512 (root ++ str "/" ++ recv ++ str "/" ++ targetPath ++ str "/" ++ filename)

/-- The call is a response. -/
def HelperEvent.Responds : HelperEvent → Prop
  | ⟨.writeResponse _, _⟩ => True
  | _ => False

/-- How a transfer ends: with a response, after a part that copies and, if it empties a file, succeeds
exactly if all of its calls work. -/
def EndsCopied (res : HelperResponse) (before : FileTree) (source destination : Location)
    (events : List HelperEvent) (after : FileTree) : Prop :=
  ∃ front result sent,
    events = front ++ [⟨.writeResponse (transferResponse res result), sent⟩] ∧
    (∀ event ∈ front, ¬ HelperEvent.Responds event) ∧
    ((∃ event ∈ front, HelperEvent.Cuts event) →
      (result = .ok () ↔ ∀ event ∈ front, HelperEvent.Works event)) ∧
    Copied before source destination front (result = .ok ()) after

/-- A part that copies, followed by the response. -/
theorem endsCopied_respond {before : FileTree} {source destination : Location} (host : Host ω)
    (front : List HelperEvent) (result : Except (List UInt8) Unit) (res : HelperResponse)
    (silent : ∀ event ∈ front, ¬ event.Responds)
    (tells : (∃ event ∈ front, HelperEvent.Cuts event) →
      (result = .ok () ↔ ∀ event ∈ front, HelperEvent.Works event))
    (copied : Copied before source destination front (result = .ok ()) host.tree) :
    (do
      let _ ← system (.writeResponse (transferResponse res result))
      return HelperOutcome.returned : HelperScript HelperOutcome).Ends (Host.calls kernel) host
        fun events _ after =>
          EndsCopied res before source destination (front ++ events) after.tree := by
  obtain ⟨sent, world, answered, -⟩ := Host.calls_outside kernel host
    (.writeResponse (transferResponse res result)) rfl
  refine Script.Ends.call answered (Script.ends_pure.mpr ?_)
  exact ⟨front, result, sent, rfl, silent, tells, copied⟩

/-- A transfer ends as it should be known. -/
theorem ends_handleHelperTransfer (host : Host ω) (root sender filename recv targetPath : List UInt8)
    (res : HelperResponse) :
    (handleHelperTransfer root sender filename recv targetPath res).Ends (Host.calls kernel)
      host.fresh fun events _ after =>
        EndsCopied res host.tree (host.fresh.view.resolve (sourcePath root sender filename))
          (host.fresh.view.resolve (destinationPath root recv targetPath filename)) events
          after.tree := by
  unfold handleHelperTransfer
  by_cases dots : (hasDots targetPath || hasDots filename) = true
  · simp only [dots, ↓reduceIte]
    exact endsCopied_respond kernel host.fresh []
      (.error (str "Security Error: Illegal path characters")) res (by simp) (by simp)
      (.of_untouched (by simp) nofun)
  · simp only [if_neg dots]
    let path := sourcePath root sender filename
    let target := destinationPath root recv targetPath filename
    let flags : OpenFlags := ⟨.readOnly, false, false, false, false⟩
    let world := (kernel.answer host.world (.openFile path flags 0)).2
    let granted := (kernel.answer host.world (.openFile path flags 0)).1
    let asked : Host ω := { host.fresh with world }
    have called : Host.calls kernel host.fresh (.openFile path flags 0) =
        asked.openFrom host.fresh.view path flags granted := rfl
    have keeps : ∀ answer, ¬ HelperEvent.Cuts ⟨.openFile path flags 0, answer⟩ :=
      fun answer cut => Bool.false_ne_true cut.1
    obtain ⟨failure, failed⟩ | ⟨srcFd, place, tree, opened, -, found⟩ :=
      asked.openFrom_cases host.fresh.view path flags granted
    · refine Script.Ends.call (called.trans failed) ?_
      exact endsCopied_respond kernel asked [⟨.openFile path flags 0, .error failure⟩]
        (.error (str "Source file not found")) res (by simp [HelperEvent.Responds])
        (by simp [keeps]) (.of_untouched (by simp [keeps]) nofun)
    · refine Script.Ends.call (called.trans opened) ?_
      obtain ⟨rfl, named⟩ := FileTree.openFile_reads rfl rfl found
      let middle : Host ω := { asked with files := (srcFd, ⟨place, 0⟩) :: asked.files }
      have reads : middle.file srcFd = some ⟨place, 0⟩ := List.lookup_cons_self
      have quiet : (transferLocked srcFd target recv).Only fun op => ∀ res, op ≠ .writeResponse res :=
        only_transferLocked (fun op copies => by cases op <;> simp_all [HelperOp.copies]) srcFd recv
          (fun _ => nofun)
      have silent := quiet.every.ends (Host.calls kernel) middle
      have tells := (every_transferLocked srcFd target recv).ends (Host.calls kernel) middle
      have copies := ends_transferLocked kernel reads target recv
      apply Script.Ends.bind
      show Script.Ends _ middle _ (transferLocked srcFd target recv)
      refine ((silent.conj tells).conj copies).weaken fun events result after all => ?_
      obtain ⟨⟨silent, tells⟩, copied⟩ := all
      have from_ : host.fresh.view.resolve (sourcePath root sender filename) = place := named
      rw [from_]
      refine (endsCopied_respond kernel after (⟨.openFile path flags 0, .ok srcFd⟩ :: events) result
        res ?_ (fun _ => ?_) (copied.cons (keeps _) ⟨rfl, rfl⟩)).weaken ?_
      · intro event member
        rcases List.mem_cons.mp member with rfl | later
        · exact id
        · intro responds
          obtain ⟨op, answer⟩ := event
          cases op with
          | writeResponse response => exact silent _ later response rfl
          | _ => exact responds
      · rw [tells.1, List.forall_mem_cons, and_iff_right ⟨srcFd, rfl⟩]
      · exact fun _ _ _ ends => ends

end

section

variable (before after : FileTree) (source destination : Location) (events : List HelperEvent)

/-- With status zero the destination has the content that the source had, which is as it was; with
another status nothing has changed. -/
def AllOrNothing (status : Int32) : Prop :=
  if status = 0 then ∃ content, before.content source = some content ∧
    after.content destination = some content ∧ after.node source = before.node source
  else after.node = before.node

/-- The calls besides the response do what the transfer needs. -/
def Uninterrupted : Prop := ∀ event ∈ events, event.Works ∨ event.Responds

/-- The copy can be whole, or need not be: if a file is emptied, then either no call fails and the
source is a regular file in another place, or an empty one, that is read to its end, or a call
fails and the destination was the front of the source that the system takes until then. -/
def SparesFiles : Prop :=
  (∃ event ∈ events, HelperEvent.Cuts event) →
    (Uninterrupted events → ∃ content, before.content source = some content ∧
      (source ≠ destination ∨ content = []) ∧ brought events = content.length) ∧
    (¬ Uninterrupted events → before.content destination =
      some ((leftToRead before source destination).take (taken events)))

end

section

variable {before after : FileTree} {source destination : Location}

/-- A success leaves everything exactly if the source was a file that has been read to its end and
was not emptied. -/
theorem allOrNothing_succeeded {count : Nat}
    (final : after.node = Function.update before.node destination
      (some (.regular ((leftToRead before source destination).take count))))
    (bound : count ≤ (leftToRead before source destination).length) :
    AllOrNothing before after source destination 0 ↔ ∃ content,
      before.content source = some content ∧ (source ≠ destination ∨ content = []) ∧
        count = content.length := by
  have reached : after.content destination =
      some ((leftToRead before source destination).take count) := by
    rw [FileTree.content_eq_some, final, Function.update_self]
  have length : ((leftToRead before source destination).take count).length = count :=
    List.length_take_of_le bound
  unfold AllOrNothing
  rw [if_pos rfl, reached]
  refine exists_congr fun content => and_congr_right fun had => ?_
  constructor
  · rintro ⟨same, -⟩
    have whole : (leftToRead before source destination).take count = content :=
      Option.some.inj same
    refine ⟨?_, by rw [← whole, length]⟩
    by_cases apart : source = destination
    · right
      rw [← whole, leftToRead, if_pos apart, List.take_nil]
    · exact Or.inl apart
  · rintro ⟨kept, all⟩
    by_cases apart : source = destination
    · have empty : content = [] := kept.resolve_left (not_not_intro apart)
      subst empty
      have left : (leftToRead before source destination).take count = [] := by
        rw [leftToRead, if_pos apart, List.take_nil]
      refine ⟨by rw [left], ?_⟩
      rw [left, ← apart] at final
      rw [final, Function.update_self, FileTree.content_eq_some.mp had]
    · have left : (leftToRead before source destination).take count = content := by
        rw [leftToRead, if_neg apart, readable, had, Option.getD_some, all, List.take_length]
      exact ⟨by rw [left], by rw [final, Function.update_of_ne apart]⟩

/-- A failure leaves nothing exactly if the destination was what it is afterwards. -/
theorem allOrNothing_failed {status : Int32} (failed : status ≠ 0) {content : List UInt8}
    (final : after.node = Function.update before.node destination (some (.regular content))) :
    AllOrNothing before after source destination status ↔
      before.content destination = some content := by
  unfold AllOrNothing
  rw [if_neg failed, FileTree.content_eq_some, final]
  constructor
  · intro same
    rw [← same, Function.update_self]
  · intro same
    rw [← same, Function.update_eq_self]

/-- A transfer leaves everything or nothing exactly if it spares the files. -/
theorem EndsCopied.allOrNothing_iff {res : HelperResponse} {events : List HelperEvent}
    (ends : EndsCopied res before source destination events after) (fresh : res.status = -1) :
    (∀ response sent, ⟨.writeResponse response, sent⟩ ∈ events →
      AllOrNothing before after source destination response.status) ↔
        SparesFiles before source destination events := by
  obtain ⟨front, result, sent, rfl, silent, tells, copied⟩ := ends
  have only : (∀ response other, ⟨.writeResponse response, other⟩ ∈
      front ++ [⟨.writeResponse (transferResponse res result), sent⟩] →
        AllOrNothing before after source destination response.status) ↔
      AllOrNothing before after source destination (transferResponse res result).status := by
    constructor
    · exact fun all => all _ sent (List.mem_append_right _ List.mem_cons_self)
    · intro holds response other member
      rcases List.mem_append.mp member with earlier | here
      · exact absurd trivial (silent _ earlier)
      · cases List.mem_singleton.mp here
        exact holds
  have works : Uninterrupted
      (front ++ [⟨.writeResponse (transferResponse res result), sent⟩]) ↔
        ∀ event ∈ front, HelperEvent.Works event := by
    constructor
    · intro all event member
      exact (all event (List.mem_append_left _ member)).resolve_right (silent event member)
    · intro all event member
      rcases List.mem_append.mp member with earlier | here
      · exact Or.inl (all event earlier)
      · rw [List.mem_singleton.mp here]
        exact Or.inr trivial
  have status : (transferResponse res result).status = 0 ↔ result = .ok () := by
    cases result with
    | ok _ => exact iff_of_true rfl rfl
    | error message =>
      have kept : (transferResponse res (.error message)).status = -1 := fresh
      exact iff_of_false (by rw [kept]; decide) nofun
  have cuts : (∃ event ∈ front ++ [⟨.writeResponse (transferResponse res result), sent⟩],
      HelperEvent.Cuts event) ↔ ∃ event ∈ front, HelperEvent.Cuts event := by
    simp [HelperEvent.Cuts, or_and_right, exists_or]
  rw [only]
  unfold SparesFiles
  rw [works, cuts]
  simp only [taken_append, brought_append, taken_cons, brought_cons, taken_nil, brought_nil, takenBy,
    broughtBy, Nat.add_zero]
  by_cases cut : ∃ event ∈ front, HelperEvent.Cuts event
  · obtain ⟨final, bound, all⟩ := copied.written cut
    have told := tells cut
    rw [← told]
    by_cases done : result = .ok ()
    · have same : taken front = brought front := all done
      have success := allOrNothing_succeeded final (same.le.trans bound)
      rw [status.mpr done, success, same]
      exact ⟨fun holds _ => ⟨fun _ => holds, fun fails => absurd done fails⟩,
        fun spares => (spares cut).1 done⟩
    · rw [allOrNothing_failed (mt status.mp done) final]
      exact ⟨fun holds _ => ⟨fun works => absurd works done, fun _ => holds⟩,
        fun spares => (spares cut).2 done⟩
  · obtain ⟨same, failed⟩ := copied.untouched fun event member cuts => cut ⟨event, member, cuts⟩
    unfold AllOrNothing
    rw [if_neg (mt status.mp failed), same]
    exact iff_of_true rfl fun cuts => absurd cuts cut

end

/-- A transfer on the files of a host: its status tells whether it has left everything or nothing. -/
def TransferTells (kernel : HostSystem ω) (host : Host ω)
    (root sender filename recv targetPath : List UInt8) : Prop :=
  let run := (handleHelperTransfer root sender filename recv targetPath
    (.blank HelperCommand.transfer.toWord)).runOn (Host.calls kernel) host.fresh
  ∀ response sent, ⟨.writeResponse response, sent⟩ ∈ run.events →
    AllOrNothing host.tree run.world.tree
      (host.fresh.view.resolve (sourcePath root sender filename))
      (host.fresh.view.resolve (destinationPath root recv targetPath filename)) response.status

/-- The status tells what a transfer has left exactly if it spares the files. -/
theorem transferTells_iff (kernel : HostSystem ω) (host : Host ω)
    (root sender filename recv targetPath : List UInt8) :
    TransferTells kernel host root sender filename recv targetPath ↔
      SparesFiles host.tree (host.fresh.view.resolve (sourcePath root sender filename))
        (host.fresh.view.resolve (destinationPath root recv targetPath filename))
        ((handleHelperTransfer root sender filename recv targetPath
          (.blank HelperCommand.transfer.toWord)).runOn (Host.calls kernel) host.fresh).events :=
  (ends_handleHelperTransfer kernel host root sender filename recv targetPath
    (.blank HelperCommand.transfer.toWord)).allOrNothing_iff rfl

/-- A file that a user transfers to herself, into its own directory, is empty afterwards. -/
theorem not_transferTells_self :
    ¬ TransferTells obliging aliceNotes (str "/srv") (str "alice") (str "notes") (str "alice")
      (str ".") := by
  intro tells
  obtain ⟨front, result, sent, events, -⟩ := ends_handleHelperTransfer obliging aliceNotes (str "/srv")
    (str "alice") (str "notes") (str "alice") (str ".") (.blank HelperCommand.transfer.toWord)
  have holds := tells _ sent (by rw [events]; exact List.mem_append_right _ List.mem_cons_self)
  have same : aliceNotes.fresh.view.resolve (destinationPath (str "/srv") (str "alice") (str ".")
      (str "notes")) =
    aliceNotes.fresh.view.resolve (sourcePath (str "/srv") (str "alice") (str "notes")) := by decide
  have draft : aliceNotes.tree.content (aliceNotes.fresh.view.resolve (sourcePath (str "/srv")
      (str "alice") (str "notes"))) = some (str "draft") := by decide +kernel
  have empty : ((handleHelperTransfer (str "/srv") (str "alice") (str "notes") (str "alice") (str ".")
      (.blank HelperCommand.transfer.toWord)).runOn (Host.calls obliging) aliceNotes.fresh).world.tree.content
        (aliceNotes.fresh.view.resolve (sourcePath (str "/srv") (str "alice") (str "notes"))) =
          some [] := by decide +kernel
  unfold AllOrNothing at holds
  rw [same] at holds
  split at holds
  · obtain ⟨content, had, left, -⟩ := holds
    rw [draft] at had
    rw [empty] at left
    exact absurd (had.trans left.symm) (by decide)
  · rw [FileTree.content_eq_some, holds, ← FileTree.content_eq_some, draft] at empty
    exact absurd empty (by decide)

end FileServer
