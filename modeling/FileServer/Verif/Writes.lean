import FileServer.Verif.OpenFiles

/-!
# What a write leaves

`HandleHelperWrite` and `HandleHelperUpload` on a file system, whatever calls the system refuses and
however little its writes take. A write puts its bytes over the content from the offset on, or behind
the end with spaces in between. The file is opened, and for an upload emptied, before anything else
is checked, so a command that fails later leaves what it has done so far.
-/
namespace FileServer

open FileServer.Lib

variable {ω : Type} (kernel : HostSystem ω)

/-- A part has put the bytes of its writes over a file from a position on. -/
structure Wrote (host : Host ω) (fd : Descriptor) (place : Location) (content : List UInt8)
    (position : Nat) (bytes : List UInt8) (after : Host ω) : Prop where
  /-- The file has changed, and nothing else. -/
  changed : after.tree.node = Function.update host.tree.node place
    (some (.regular (overwrite content position bytes)))
  /-- The descriptor is behind the bytes. -/
  holds : after.Holds fd place (overwrite content position bytes) (position + bytes.length)

section

variable {host middle after : Host ω} {fd : Descriptor} {place : Location} {content : List UInt8}
  {position : Nat}

/-- Nothing has been written. -/
theorem Wrote.none (holds : middle.Holds fd place content position)
    (same : middle.tree = host.tree) : Wrote host fd place content position [] middle where
  changed := by
    rw [overwrite_nil, ← holds.node, same, Function.update_eq_self]
  holds := by
    rw [overwrite_nil]
    exact holds

/-- Calls before that leave the tree do not matter. -/
theorem Wrote.since {bytes : List UInt8}
    (wrote : Wrote middle fd place content position bytes after)
    (same : middle.tree = host.tree) : Wrote host fd place content position bytes after where
  changed := by rw [← same, wrote.changed]
  holds := wrote.holds

/-- One part goes on where the other has stopped. -/
theorem Wrote.trans {first second : List UInt8} (inside : position ≤ content.length)
    (one : Wrote host fd place content position first middle)
    (other : Wrote middle fd place (overwrite content position first) (position + first.length)
      second after) : Wrote host fd place content position (first ++ second) after where
  changed := by
    rw [other.changed, one.changed, Function.update_idem, overwrite_overwrite inside]
  holds := by
    have moved := other.holds
    rwa [overwrite_overwrite inside, Nat.add_assoc, ← List.length_append] at moved

/-- Spaces are written behind a position, all of them if no call fails. -/
theorem ends_padFile (holds : host.Holds fd place content position) (count : Nat) :
    (padFile fd count).Ends (Host.calls kernel) host fun events padded after =>
      Wrote host fd place content position (stored events) after ∧
        (AllSucceed events → padded = true ∧ stored events = List.replicate count 32) := by
  induction count generalizing host content position with
  | zero => exact Script.ends_pure.mpr ⟨.none holds rfl, fun _ => ⟨rfl, rfl⟩⟩
  | succ count ih =>
    obtain ⟨failure, world, failed⟩ | ⟨taken, middle, written, changed, moved⟩ :=
      holds.calls_write kernel [32]
    · refine Script.Ends.call failed (Script.ends_pure.mpr ⟨.none (holds.world world) rfl, ?_⟩)
      exact fun all => absurd (all _ List.mem_cons_self) Bool.false_ne_true
    · refine Script.Ends.call written ?_
      refine (ih moved).weaken fun events padded after ends => ?_
      obtain ⟨wrote, whole⟩ := ends
      have first : Wrote host fd place content position ([32].take taken.val) middle :=
        ⟨changed, moved⟩
      refine ⟨first.trans holds.inside wrote, fun all => ?_⟩
      obtain ⟨one, rest⟩ := (allSucceed_cons _ _).mp all
      have taken_ : taken.val = 1 := of_decide_eq_true one
      obtain ⟨done, spaces⟩ := whole rest
      refine ⟨done, ?_⟩
      rw [stored_cons, spaces, storedBy, taken_]
      rfl

/-- Where the bytes of a write begin. -/
def writeStart (content : List UInt8) (offset : Int32) : Nat :=
  min offset.toInt.toNat content.length

/-- The position of a write is sought, with spaces behind the end of the file. -/
theorem ends_seekPadded (holds : host.Holds fd place content position) (offset : Int32) :
    (seekPadded fd content.length offset).Ends (Host.calls kernel) host fun events result after =>
      after.tree.node = Function.update host.tree.node place
          (some (.regular (overwrite content (writeStart content offset) (stored events)))) ∧
        (result = .ok () →
          Wrote host fd place content (writeStart content offset) (stored events) after) ∧
        (AllSucceed events → result = .ok () ∧ 0 ≤ offset.toInt ∧
          stored events = List.replicate (offset.toInt.toNat - content.length) 32) := by
  have unchanged : host.tree.node = Function.update host.tree.node place
      (some (.regular (overwrite content (writeStart content offset) []))) := by
    rw [overwrite_nil, ← holds.node, Function.update_eq_self]
  unfold seekPadded
  by_cases beyond : offset.toInt > content.length
  · rw [if_pos beyond]
    have start : writeStart content offset = content.length := Nat.min_eq_right (by omega)
    obtain ⟨failure, world, failed⟩ | ⟨middle, sought, same, there⟩ := holds.calls_seekEnd kernel
    · refine Script.Ends.call failed (Script.ends_pure.mpr ⟨unchanged, nofun, ?_⟩)
      exact fun all => absurd (all _ List.mem_cons_self) Bool.false_ne_true
    · refine Script.Ends.call sought (Script.Ends.bind ?_)
      refine (ends_padFile kernel there (offset.toInt - content.length).toNat).weaken
        fun events padded after ends => ?_
      obtain ⟨wrote, whole⟩ := ends
      have spaces := wrote.since same
      rw [← start] at spaces
      have stored_ : ∀ rest : List HelperEvent, stored rest = [] →
          stored (⟨.seekEnd fd, .ok ()⟩ :: (events ++ rest)) = stored events := by
        intro rest none
        simp [storedBy, none]
      have succeeded : AllSucceed (⟨.seekEnd fd, .ok ()⟩ :: events) → padded = true ∧
          stored events = List.replicate (offset.toInt - content.length).toNat 32 :=
        fun all => whole ((allSucceed_cons _ _).mp all).2
      cases padded with
      | false =>
        refine Script.ends_pure.mpr ⟨?_, nofun, fun all => ?_⟩
        · rw [stored_ [] rfl]
          exact spaces.changed
        · rw [List.append_nil] at all
          exact absurd (succeeded all).1 Bool.false_ne_true
      | true =>
        refine Script.ends_pure.mpr ⟨?_, fun _ => ?_, fun all => ⟨rfl, by omega, ?_⟩⟩
        · rw [stored_ [] rfl]
          exact spaces.changed
        · rw [stored_ [] rfl]
          exact spaces
        · rw [List.append_nil] at all
          rw [stored_ [] rfl, (succeeded all).2]
          congr 1
          omega
  · rw [if_neg beyond]
    obtain ⟨failure, world, failed⟩ | ⟨middle, sought, same, forward, there⟩ :=
      holds.calls_seekSet kernel (show offset.toInt ≤ content.length by omega)
    · refine Script.Ends.call failed (Script.ends_pure.mpr ⟨unchanged, nofun, ?_⟩)
      exact fun all => absurd (all _ List.mem_cons_self) Bool.false_ne_true
    · have start : writeStart content offset = offset.toInt.toNat := Nat.min_eq_left (by omega)
      have nothing := Wrote.none there same
      rw [← start] at nothing
      have none : offset.toInt.toNat - content.length = 0 := by omega
      refine Script.Ends.call sought (Script.ends_pure.mpr ⟨nothing.changed, fun _ => nothing, ?_⟩)
      intro _
      refine ⟨rfl, forward, ?_⟩
      rw [none]
      rfl

/-- The part of a write under the lock. -/
theorem ends_writeLocked (holds : host.Holds fd place content position) (offset : Int32)
    (data : List UInt8) :
    (writeLocked fd offset data).Ends (Host.calls kernel) host fun events result after =>
      after.tree.node = Function.update host.tree.node place
          (some (.regular (overwrite content (writeStart content offset) (stored events)))) ∧
        (AllSucceed events → result = .ok () ∧ 0 ≤ offset.toInt ∧
          stored events = List.replicate (offset.toInt.toNat - content.length) 32 ++ data) := by
  have unchanged : host.tree.node = Function.update host.tree.node place
      (some (.regular (overwrite content (writeStart content offset) []))) := by
    rw [overwrite_nil, ← holds.node, Function.update_eq_self]
  have inside : writeStart content offset ≤ content.length := Nat.min_le_right _ _
  obtain ⟨failure, world, failed⟩ | ⟨mode, world, found⟩ := holds.calls_fstat kernel
  · refine Script.Ends.call failed (Script.ends_pure.mpr ⟨unchanged, ?_⟩)
    exact fun all => absurd (all _ List.mem_cons_self) Bool.false_ne_true
  · refine Script.Ends.call found (Script.Ends.bind ?_)
    refine (ends_seekPadded kernel (holds.world world) offset).weaken
      fun before result middle ends => ?_
    obtain ⟨changed, sought, succeeded⟩ := ends
    cases result with
    | error text =>
      refine Script.ends_pure.mpr ⟨?_, fun all => ?_⟩
      · simpa [storedBy] using changed
      · rw [List.append_nil] at all
        exact absurd (succeeded ((allSucceed_cons _ _).mp all).2).1 nofun
    | ok _ =>
      have wrote := sought rfl
      obtain ⟨failure, last, failed⟩ | ⟨taken, after, written, changed, moved⟩ :=
        wrote.holds.calls_write kernel data
      · refine Script.Ends.call failed (Script.ends_pure.mpr ⟨?_, fun all => ?_⟩)
        · simpa [storedBy] using wrote.changed
        · exact absurd (all ⟨.write fd data, .error failure⟩ (by simp)) Bool.false_ne_true
      · have whole := wrote.trans inside ⟨changed, moved⟩
        have stored_ : stored (⟨.fstat fd, .ok ⟨.regular, mode, content.length⟩⟩ ::
            (before ++ [⟨.write fd data, .ok taken⟩])) =
              stored before ++ data.take taken.val := by
          simp [storedBy]
        refine Script.Ends.call written ?_
        show Script.Ends _ _ _ (if taken.val ≠ data.length then pure _ else pure (Except.ok ()))
        by_cases part : taken.val ≠ data.length
        · rw [if_pos part]
          refine Script.ends_pure.mpr ⟨?_, fun all => ?_⟩
          · rw [stored_]
            exact whole.changed
          · have complete := all ⟨.write fd data, .ok taken⟩ (by simp)
            exact absurd (of_decide_eq_true complete) part
        · rw [if_neg part]
          refine Script.ends_pure.mpr ⟨?_, fun all => ⟨rfl, ?_⟩⟩
          · rw [stored_]
            exact whole.changed
          · have earlier := ((allSucceed_append _ _).mp ((allSucceed_cons _ _).mp all).2).1
            obtain ⟨-, forward, spaces⟩ := succeeded earlier
            rw [stored_, spaces, not_not.mp part, List.take_length]
            exact ⟨forward, rfl⟩

end

/-- The flags that `HandleHelperWrite` opens its file with. -/
def writeFlags : OpenFlags := ⟨.readWrite, true, false, false, false⟩

/-- How a write ends: without its file open it has done nothing and has failed; otherwise the file
is there and has what was written over it, and everything is written and answered with zero if no call
has failed. -/
structure WriteEnds (host : Host ω) (session : ClientSession) (path : List UInt8) (offset : Int32)
    (data : List UInt8) (events : List HelperEvent) (after : Host ω) : Prop where
  /-- The file has not been opened. -/
  untouched : (∀ fd, ⟨.openFile path writeFlags 0o700, .ok fd⟩ ∉ events) →
    after.tree = host.tree ∧ ¬ AllSucceed events
  /-- The file has been opened. -/
  opened : ∀ fd, ⟨.openFile path writeFlags 0o700, .ok fd⟩ ∈ events → ∃ view,
    host.Enters session.homeText session.workdirText view ∧
      host.tree.node (view.resolve path) ≠ some .directory ∧
      after.tree.node = Function.update host.tree.node (view.resolve path)
        (some (.regular (overwrite (readable host.tree (view.resolve path))
          (writeStart (readable host.tree (view.resolve path)) offset) (stored events)))) ∧
      (AllSucceed events → 0 ≤ offset.toInt ∧ stored events = List.replicate
        (offset.toInt.toNat - (readable host.tree (view.resolve path)).length) 32 ++ data)
  /-- The answer, if no call has failed. -/
  answered : AllSucceed events →
    (∃ response, ⟨.writeResponse response, true⟩ ∈ events ∧ response.status = 0) ∧
      ∀ response sent, ⟨.writeResponse response, sent⟩ ∈ events → response.status = 0

/-- The end of a command on a file: nothing changes, and one answer is given, at the latest if no call
has failed. -/
theorem ends_answer (host : Host ω) (res : HelperResponse) :
    (regainAndRespond res).Ends (Host.calls kernel) host fun events _ after =>
      after.tree = host.tree ∧ stored events = [] ∧
        (∀ path flags mode fd, ⟨.openFile path flags mode, fd⟩ ∉ events) ∧
        (∀ response sent, ⟨.writeResponse response, sent⟩ ∈ events → response = res) ∧
        (AllSucceed events → ⟨.writeResponse res, true⟩ ∈ events) := by
  refine ((ends_regainAndRespond kernel host res).conj
    ((every_regainAndRespond res).ends _ _)).weaken fun events outcome after both => ?_
  obtain ⟨⟨⟨world, rfl⟩, -, -, -⟩, rest⟩ := both
  exact ⟨rfl, rest⟩

/-- What a part of a command does that only works on files. -/
def HelperOp.worksInside (op : HelperOp) : Prop :=
  (∀ path flags mode, op ≠ .openFile path flags mode) ∧ ∀ response, op ≠ .writeResponse response

/-- The part of a write under the lock neither opens nor answers. -/
theorem worksInside_writeLocked (fd : Descriptor) (offset : Int32) (data : List UInt8) :
    (writeLocked fd offset data).Only HelperOp.worksInside := by
  apply only_writeLocked
  intro op works
  constructor
  · rintro path flags mode rfl
    exact absurd works Bool.false_ne_true
  · rintro response rfl
    exact absurd works Bool.false_ne_true

/-- The part of `HandleHelperWrite` with its file open. -/
def writeOpened (fd : Descriptor) (offset : Int32) (data : List UInt8) (res : HelperResponse) :
    HelperScript HelperOutcome := do
  match ← system (.setLock fd .exclusive) with
  | .error text =>
    system (.close fd)
    system (.close fd)
    regainAndRespond (res.say (str "Error locking fd: " ++ text))
  | .ok _ =>
    let written ← writeLocked fd offset data
    system (.close fd)
    regainAndRespond <| match written with
      | .error text => if text = [] then res else res.say text
      | .ok _ => res.succeed (str "Success")

/-- With its file open a write puts its bytes there, and answers with zero if no call has failed. -/
theorem ends_writeOpened {host : Host ω} {fd : Descriptor} {place : Location}
    {content : List UInt8} (holds : host.Holds fd place content 0) (offset : Int32)
    (data : List UInt8) (res : HelperResponse) :
    (writeOpened fd offset data res).Ends (Host.calls kernel) host fun events _ after =>
      after.tree.node = Function.update host.tree.node place
          (some (.regular (overwrite content (writeStart content offset) (stored events)))) ∧
        (∀ path flags mode fd, ⟨.openFile path flags mode, fd⟩ ∉ events) ∧
        (AllSucceed events → 0 ≤ offset.toInt ∧
          stored events = List.replicate (offset.toInt.toNat - content.length) 32 ++ data ∧
          (∃ response, ⟨.writeResponse response, true⟩ ∈ events ∧ response.status = 0) ∧
          ∀ response sent, ⟨.writeResponse response, sent⟩ ∈ events → response.status = 0) := by
  obtain ⟨locked, first, answered, -⟩ :=
    Host.calls_outside kernel host (.setLock fd .exclusive) rfl
  refine Script.Ends.call answered ?_
  cases locked with
  | error failure =>
    refine Script.Ends.call rfl (Script.Ends.call rfl ?_)
    refine (ends_answer kernel _ _).weaken fun tail outcome after ends => ?_
    obtain ⟨same, none, closed, -, -⟩ := ends
    refine ⟨?_, ?_, fun all => absurd (all _ List.mem_cons_self) Bool.false_ne_true⟩
    · have nothing : stored (⟨.setLock fd .exclusive, .error failure⟩ :: ⟨.close fd, ()⟩ ::
          ⟨.close fd, ()⟩ :: tail) = [] := by simp [storedBy, none]
      rw [nothing, overwrite_nil, ← holds.node, same]
      exact (Function.update_eq_self _ _).symm
    · intro path flags mode other member
      refine closed path flags mode other ?_
      simpa using member
  | ok _ =>
    apply Script.Ends.bind
    refine ((ends_writeLocked kernel (holds.world first) offset data).conj
      ((worksInside_writeLocked fd offset data).every.ends _ _)).weaken
        fun before written middle both => ?_
    obtain ⟨⟨changed, succeeded⟩, inside⟩ := both
    refine Script.Ends.call rfl ?_
    refine (ends_answer kernel _ _).weaken fun tail outcome after ends => ?_
    obtain ⟨same, none, closed, only, given⟩ := ends
    refine ⟨?_, ?_, fun all => ?_⟩
    · have all : stored (⟨.setLock fd .exclusive, .ok ()⟩ ::
          (before ++ ⟨.close fd, ()⟩ :: tail)) = stored before := by simp [storedBy, none]
      rw [all, same]
      exact changed
    · intro path flags mode other member
      have somewhere := (List.mem_cons.mp member).resolve_left nofun
      rcases List.mem_append.mp somewhere with earlier | later
      · exact (inside _ earlier).1 path flags mode rfl
      · exact closed path flags mode other ((List.mem_cons.mp later).resolve_left nofun)
    · obtain ⟨earlier, later⟩ := (allSucceed_append _ _).mp ((allSucceed_cons _ _).mp all).2
      obtain ⟨rfl, forward, whole⟩ := succeeded earlier
      have sent := given ((allSucceed_cons _ _).mp later).2
      refine ⟨forward, ?_, ⟨res.succeed (str "Success"), ?_, rfl⟩, fun response other member => ?_⟩
      · simpa [storedBy, none] using whole
      · exact List.mem_cons_of_mem _ (List.mem_append_right _ (List.mem_cons_of_mem _ sent))
      · have somewhere := (List.mem_cons.mp member).resolve_left nofun
        rcases List.mem_append.mp somewhere with inner | outer
        · exact absurd rfl ((inside _ inner).2 response)
        · rw [only response other ((List.mem_cons.mp outer).resolve_left nofun)]
          rfl

/-- Every write ends so. -/
theorem ends_handleHelperWrite (host : Host ω) (session : ClientSession) (path : List UInt8)
    (offset : Int32) (data : List UInt8) (res : HelperResponse) :
    (handleHelperWrite session path offset data res).Ends (Host.calls kernel) host
      fun events _ after => WriteEnds host session path offset data events after := by
  apply Script.Ends.bind
  refine ((ends_sandboxUser kernel host session session.homeText session.workdirText).conj
    (((every_sandboxUser session session.homeText session.workdirText).conj
      (plain_sandboxUser session session.homeText session.workdirText).every).ends _ _)).weaken
        fun before inside middle both => ?_
  obtain ⟨⟨⟨view, first, rfl, enters⟩, -⟩, works, plain⟩ := both
  obtain ⟨none, unopened, silent⟩ := aside_of_plain plain
  cases inside with
  | false =>
    obtain ⟨sent, second, called, -⟩ := Host.calls_outside kernel { host with view, world := first }
      (.writeResponse (res.say (str "Sandbox error"))) rfl
    have failed : ¬ AllSucceed (before ++ [⟨.writeResponse (res.say (str "Sandbox error")), sent⟩]) :=
      fun all => absurd (works ((allSucceed_append _ _).mp all).1) Bool.false_ne_true
    refine Script.Ends.call called (Script.ends_pure.mpr ⟨fun _ => ⟨rfl, failed⟩,
      fun fd member => ?_, fun all => absurd all failed⟩)
    rcases List.mem_append.mp member with earlier | last
    · exact absurd earlier (unopened _ _ _ _)
    · cases List.mem_singleton.mp last
  | true =>
    have entered := enters rfl
    let inHome : Host ω := { host with view, world := first }
    obtain ⟨failure, second, refused⟩ | ⟨fd, place, tree, second, granted, free, opens⟩ :=
      inHome.calls_openFile kernel path writeFlags 0o700
    · refine Script.Ends.call refused ?_
      refine (ends_answer kernel { inHome with world := second }
        (res.say (str "Open failed: " ++ failure))).weaken fun tail outcome after ends => ?_
      obtain ⟨same, -, closed, -, -⟩ := ends
      have failed : ¬ AllSucceed (before ++ ⟨.openFile path writeFlags 0o700, .error failure⟩ :: tail) :=
        fun all => absurd (all ⟨.openFile path writeFlags 0o700, .error failure⟩ (by simp))
          Bool.false_ne_true
      refine ⟨fun _ => ⟨same, failed⟩, fun fd member => ?_, fun all => absurd all failed⟩
      rcases List.mem_append.mp member with earlier | later
      · exact absurd earlier (unopened _ _ _ _)
      · exact absurd ((List.mem_cons.mp later).resolve_left nofun) (closed _ _ _ _)
    · refine Script.Ends.call granted ?_
      obtain ⟨file, named, created⟩ := FileTree.openFile_writes opens
      subst named
      let inFile : Host ω :=
        { inHome with tree, world := second, files := (fd, ⟨view.resolve path, 0⟩) :: inHome.files }
      have holds : inFile.Holds fd (view.resolve path)
          (readable host.tree (view.resolve path)) 0 := by
        refine ⟨List.lookup_cons_self, ?_, Nat.zero_le _⟩
        rw [FileTree.content_eq_some]
        show tree.node _ = _
        rw [created, Function.update_self]
        rfl
      have put : ∀ bytes, Function.update tree.node (view.resolve path) (some (.regular bytes)) =
          Function.update host.tree.node (view.resolve path) (some (.regular bytes)) := by
        intro bytes
        rw [created]
        exact Function.update_idem _ _ _
      refine (ends_writeOpened kernel holds offset data res).weaken
        fun tail outcome after ends => ?_
      obtain ⟨changed, closed, succeeded⟩ := ends
      have opened : (⟨.openFile path writeFlags 0o700, .ok fd⟩ : HelperEvent) ∈
          before ++ ⟨.openFile path writeFlags 0o700, .ok fd⟩ :: tail := by simp
      have later : AllSucceed (before ++ ⟨.openFile path writeFlags 0o700, .ok fd⟩ :: tail) →
          AllSucceed tail := fun all => ((allSucceed_cons _ _).mp ((allSucceed_append _ _).mp all).2).2
      have stored_ : stored (before ++ ⟨.openFile path writeFlags 0o700, .ok fd⟩ :: tail) =
          stored tail := by simp [storedBy, none]
      show WriteEnds host session path offset data
        (before ++ ⟨.openFile path writeFlags 0o700, .ok fd⟩ :: tail) after
      refine ⟨fun unasked => absurd opened (unasked fd), fun _ _ => ⟨view, entered, file, ?_, ?_⟩,
        fun all => ?_⟩
      · rw [stored_, changed]
        exact put _
      · intro all
        obtain ⟨forward, whole, -⟩ := succeeded (later all)
        rw [stored_]
        exact ⟨forward, whole⟩
      · obtain ⟨-, -, ⟨response, sent, zero⟩, only⟩ := succeeded (later all)
        refine ⟨⟨response, ?_, zero⟩, fun other answered member => ?_⟩
        · exact List.mem_append_right _ (List.mem_cons_of_mem _ sent)
        · rcases List.mem_append.mp member with inner | outer
          · exact absurd inner (silent _ _)
          · exact only other answered ((List.mem_cons.mp outer).resolve_left nofun)

/-- The run of a write on a file system. -/
def writeRun (host : Host ω) (session : ClientSession) (path : List UInt8) (offset : Int32)
    (data : List UInt8) : Script.Execution HelperOp HelperOp.Answer HelperOutcome (Host ω) :=
  (handleHelperWrite session path offset data (.blank HelperCommand.write.toWord)).runOn
    (Host.calls kernel) host

/-- A content cut or padded with spaces to the offset, the data, and what of the content lay behind
it. -/
def writtenContent (content : List UInt8) (offset : Nat) (data : List UInt8) : List UInt8 :=
  (content ++ List.replicate (offset - content.length) 32).take offset ++ data ++
    content.drop (offset + data.length)

/-- The bytes that a write puts behind the end or over the content leave what they should. -/
theorem overwrite_padded (content : List UInt8) (offset : Int32) (data : List UInt8) :
    overwrite content (writeStart content offset)
        (List.replicate (offset.toInt.toNat - content.length) 32 ++ data) =
      writtenContent content offset.toInt.toNat data := by
  unfold overwrite writtenContent writeStart
  generalize offset.toInt.toNat = position
  rcases Nat.le_total position content.length with inside | beyond
  · rw [Nat.min_eq_left inside, Nat.sub_eq_zero_of_le inside]
    simp
  · have padded : (content ++ List.replicate (position - content.length) (32 : UInt8)).length =
        position := by
      rw [List.length_append, List.length_replicate]
      omega
    have behind : content.length + (List.replicate (position - content.length) (32 : UInt8) ++
        data).length = position + data.length := by
      rw [List.length_append, List.length_replicate]
      omega
    rw [Nat.min_eq_right beyond, behind, List.take_length, List.take_of_length_le padded.le]
    simp only [List.append_assoc]

/-- The length of a content after a write. -/
theorem length_writtenContent (content : List UInt8) (offset : Nat) (data : List UInt8) :
    (writtenContent content offset data).length =
      max content.length (offset + data.length) := by
  unfold writtenContent
  simp only [List.length_append, List.length_take, List.length_replicate, List.length_drop]
  omega

/-- Between the old end and the offset lie spaces. -/
theorem writtenContent_gap (content : List UInt8) {offset index : Nat} (data : List UInt8)
    (behind : content.length ≤ index) (before : index < offset) :
    (writtenContent content offset data)[index]? = some 32 := by
  have padded : index < (content ++
      List.replicate (offset - content.length) (32 : UInt8)).length := by
    rw [List.length_append, List.length_replicate]
    omega
  unfold writtenContent
  rw [List.append_assoc, List.getElem?_append_left (by rw [List.length_take]; omega),
    List.getElem?_take_of_lt before, List.getElem?_append_right behind,
    List.getElem?_replicate_of_lt (by omega)]

/-- If no call fails or writes short (a seek to a negative offset fails), a write answers with zero,
and the content of the file, or the empty content of a file that did not exist, is cut or padded with
spaces to the offset, followed by the data and by what lay behind it; nothing else changes. -/
theorem write_puts_data (host : Host ω) (session : ClientSession) (path : List UInt8)
    (offset : Int32) (data : List UInt8)
    (works : AllSucceed (writeRun kernel host session path offset data).events) :
    let run := writeRun kernel host session path offset data
    ((∃ response, ⟨.writeResponse response, true⟩ ∈ run.events ∧ response.status = 0) ∧
        ∀ response sent, ⟨.writeResponse response, sent⟩ ∈ run.events → response.status = 0) ∧
      ∃ view, host.Enters session.homeText session.workdirText view ∧
        let place := view.resolve path
        let content := readable host.tree place
        let left := writtenContent content offset.toInt.toNat data
        host.tree.node place ≠ some .directory ∧
          run.world.tree.node = Function.update host.tree.node place (some (.regular left)) ∧
          left.length = max content.length (offset.toInt.toNat + data.length) ∧
          ∀ index, content.length ≤ index → index < offset.toInt.toNat →
            left[index]? = some 32 := by
  have ends : WriteEnds host session path offset data
      (writeRun kernel host session path offset data).events
      (writeRun kernel host session path offset data).world :=
    ends_handleHelperWrite kernel host session path offset data _
  by_cases opened : ∃ fd, ⟨.openFile path writeFlags 0o700, .ok fd⟩ ∈
      (writeRun kernel host session path offset data).events
  · obtain ⟨fd, member⟩ := opened
    obtain ⟨view, enters, file, changed, whole⟩ := ends.opened fd member
    refine ⟨ends.answered works, view, enters, file, ?_, length_writtenContent _ _ _,
      fun index behind before => writtenContent_gap _ data behind before⟩
    rw [changed, (whole works).2, overwrite_padded]
  · have failed := (ends.untouched fun fd member => opened ⟨fd, member⟩).2
    exact absurd works failed

/-- A write behind the end of a file. -/
theorem write_puts_data_notes :
    (writeRun obliging aliceNotes (aliceAt []) (str "notes") 7 (str "two")).world.tree.content
      (aliceHome.resolve (str "notes")) = some (str "draft  two") := by
  obtain ⟨-, view, enters, -, changed, -⟩ := write_puts_data obliging aliceNotes (aliceAt [])
    (str "notes") 7 (str "two") (by decide +kernel)
  obtain rfl := enters.unique enters_alice
  rw [FileTree.content_eq_some, changed, Function.update_self]
  decide +kernel

/-- The flags that `HandleHelperUpload` opens its file with. -/
def uploadFlags : OpenFlags := ⟨.writeOnly, true, true, false, false⟩

/-- How an upload ends: without its file open it has done nothing, and otherwise the file is there,
and empty if the command has not answered with zero. -/
structure UploadEnds (host : Host ω) (session : ClientSession) (path : List UInt8)
    (events : List HelperEvent) (after : Host ω) : Prop where
  /-- The file has not been opened. -/
  untouched : (∀ fd, ⟨.openFile path uploadFlags 0o600, .ok fd⟩ ∉ events) →
    after.tree = host.tree
  /-- The file has been opened. -/
  opened : ∀ fd, ⟨.openFile path uploadFlags 0o600, .ok fd⟩ ∈ events → ∃ view,
    host.Enters session.homeText session.workdirText view ∧
      host.tree.node (view.resolve path) ≠ some .directory ∧
      ∀ response sent, ⟨.writeResponse response, sent⟩ ∈ events → response.status ≠ 0 →
        after.tree.node = Function.update host.tree.node (view.resolve path) (some (.regular []))

/-- The end of a transfer leaves the tree, opens nothing and answers nothing. -/
theorem ends_endTransfer (host : Host ω) (fd : Descriptor) :
    (endTransfer fd).Ends (Host.calls kernel) host fun events _ after =>
      after.tree = host.tree ∧ Aside events := by
  have plain : (endTransfer fd).Only fun op => op.plain = true ∧ op.reads = true := by
    apply only_endTransfer <;> exact ⟨rfl, rfl⟩
  refine ((Host.ends_reads kernel host (plain.weaken fun _ => And.right)).conj
    (plain.every.ends _ _)).weaken fun events outcome after both => ?_
  obtain ⟨⟨files, world, rfl⟩, idle⟩ := both
  exact ⟨rfl, aside_of_plain fun event member => (idle event member).1⟩

/-- The part of `HandleHelperUpload` behind its answer. -/
def uploadBlocks (fd : Descriptor) (sent : Bool) : HelperScript HelperOutcome := do
  if sent then
    let blocks ← system (.readServer bufferSize)
    streamToFile fd blocks
  endTransfer fd

/-- It gives no other answer. -/
theorem silent_uploadBlocks (fd : Descriptor) (sent : Bool) : (uploadBlocks fd sent).Only Silent := by
  have streams : ∀ blocks : Blocks bufferSize,
      (streamToFile fd blocks >>= fun _ => endTransfer fd).Only Silent := fun blocks =>
    .bind (only_streamToFile silent_of_worksOnFiles fd blocks) fun _ => silent_endTransfer fd
  cases sent with
  | false => exact silent_endTransfer fd
  | true => exact .call rfl streams

/-- The part of `HandleHelperUpload` with its file open. -/
def uploadOpened (fd : Descriptor) (res : HelperResponse) : HelperScript HelperOutcome := do
  match ← system (.setLock fd .exclusive) with
  | .error _ =>
    let _ ← system (.writeResponse (res.say (str "Lock failed")))
    endTransfer fd
  | .ok _ =>
    uploadBlocks fd (← system (.writeResponse (res.succeed (str "Success"))))

/-- With its file open an upload leaves the tree if it does not answer with zero. -/
theorem ends_uploadOpened (host : Host ω) (fd : Descriptor) (res : HelperResponse) :
    (uploadOpened fd res).Ends (Host.calls kernel) host fun events _ after =>
      ∀ response sent, ⟨.writeResponse response, sent⟩ ∈ events → response.status ≠ 0 →
        after.tree = host.tree := by
  obtain ⟨locked, first, answered, -⟩ :=
    Host.calls_outside kernel host (.setLock fd .exclusive) rfl
  refine Script.Ends.call answered ?_
  cases locked with
  | error failure =>
    refine Script.Ends.call rfl ?_
    refine (ends_endTransfer kernel _ fd).weaken fun events outcome after ends => ?_
    exact fun _ _ _ _ => ends.1
  | ok _ =>
    obtain ⟨sent, second, called, -⟩ := Host.calls_outside kernel { host with world := first }
      (.writeResponse (res.succeed (str "Success"))) rfl
    refine Script.Ends.call called ?_
    show Script.Ends _ _ _ (uploadBlocks fd sent)
    refine ((silent_uploadBlocks fd sent).every.ends _ _).weaken fun events outcome after silent => ?_
    intro response other member failed
    have later := (List.mem_cons.mp member).resolve_left nofun
    rcases List.mem_cons.mp later with here | behind
    · cases here
      exact absurd rfl failed
    · exact absurd (silent _ behind) Bool.true_eq_false.mp

/-- Every upload ends so. -/
theorem ends_handleHelperUpload (host : Host ω) (session : ClientSession) (path : List UInt8)
    (res : HelperResponse) :
    (handleHelperUpload session path res).Ends (Host.calls kernel) host fun events _ after =>
      UploadEnds host session path events after := by
  apply Script.Ends.bind
  refine ((ends_sandboxUser kernel host session session.homeText session.workdirText).conj
    ((plain_sandboxUser session session.homeText session.workdirText).every.ends _ _)).weaken
      fun before inside middle both => ?_
  obtain ⟨⟨⟨view, first, rfl, enters⟩, -⟩, plain⟩ := both
  obtain ⟨none, unopened, silent⟩ := aside_of_plain plain
  cases inside with
  | false =>
    refine Script.Ends.call rfl (Script.ends_pure.mpr ⟨fun _ => rfl, fun fd member => ?_⟩)
    rcases List.mem_append.mp member with earlier | last
    · exact absurd earlier (unopened _ _ _ _)
    · cases List.mem_singleton.mp last
  | true =>
    have entered := enters rfl
    let inHome : Host ω := { host with view, world := first }
    obtain ⟨failure, second, refused⟩ | ⟨fd, place, tree, second, granted, free, opens⟩ :=
      inHome.calls_openFile kernel path uploadFlags 0o600
    · refine Script.Ends.call refused ?_
      have tail : (system (.writeResponse (res.say (str "Open/Create failed: " ++ failure))) >>=
          fun _ => regainRoot >>= fun regained =>
            if regained then pure HelperOutcome.returned else pure .exited).Only
              fun op => op.reads = true ∧ ∀ path flags mode, op ≠ .openFile path flags mode := by
        refine .call ⟨rfl, by simp⟩ fun _ => .bind (only_regainRoot ⟨rfl, by simp⟩ ⟨rfl, by simp⟩)
          fun regained => ?_
        cases regained with
        | false => trivial
        | true => trivial
      refine ((Host.ends_reads kernel { inHome with world := second }
        (tail.weaken fun _ => And.left)).conj (tail.every.ends _ _)).weaken
          fun later outcome after both => ?_
      obtain ⟨⟨files, world, rfl⟩, idle⟩ := both
      refine ⟨fun _ => rfl, fun fd member => ?_⟩
      rcases List.mem_append.mp member with earlier | last
      · exact absurd earlier (unopened _ _ _ _)
      · have behind := (List.mem_cons.mp last).resolve_left nofun
        exact absurd rfl ((idle _ behind).2 path uploadFlags 0o600)
    · refine Script.Ends.call granted ?_
      obtain ⟨file, named, created⟩ := FileTree.openFile_writes opens
      subst named
      let inFile : Host ω :=
        { inHome with tree, world := second, files := (fd, ⟨view.resolve path, 0⟩) :: inHome.files }
      have opened : ∀ tail : List HelperEvent, ⟨.openFile path uploadFlags 0o600, .ok fd⟩ ∈
          before ++ ⟨.openFile path uploadFlags 0o600, .ok fd⟩ :: tail := by simp
      refine (ends_uploadOpened kernel inFile fd res).weaken fun tail outcome after ends => ?_
      show UploadEnds host session path
        (before ++ ⟨.openFile path uploadFlags 0o600, .ok fd⟩ :: tail) after
      refine ⟨fun unasked => absurd (opened tail) (unasked fd), fun _ _ => ⟨view, entered, file,
        fun response sent member failed => ?_⟩⟩
      rcases List.mem_append.mp member with earlier | last
      · exact absurd earlier (silent _ _)
      · rw [ends response sent ((List.mem_cons.mp last).resolve_left nofun) failed]
        exact created

/-- The run of an upload on a file system. -/
def uploadRun (host : Host ω) (session : ClientSession) (path : List UInt8) :
    Script.Execution HelperOp HelperOp.Answer HelperOutcome (Host ω) :=
  (handleHelperUpload session path (.blank HelperCommand.upload.toWord)).runOn
    (Host.calls kernel) host

/-- The command has answered with -1. -/
def AnswersFailure (events : List HelperEvent) : Prop :=
  ∃ response sent, ⟨.writeResponse response, sent⟩ ∈ events ∧ response.status = -1

/-- The same as a test of the calls. -/
theorem answersFailure_iff (events : List HelperEvent) : AnswersFailure events ↔
    (events.any fun event => match event with
      | ⟨.writeResponse response, _⟩ => response.status = -1
      | _ => false) = true := by
  rw [List.any_eq_true]
  constructor
  · rintro ⟨response, sent, member, status⟩
    exact ⟨_, member, decide_eq_true status⟩
  · rintro ⟨⟨op, answer⟩, member, fails⟩
    cases op with
    | writeResponse response => exact ⟨response, answer, member, of_decide_eq_true fails⟩
    | _ => exact absurd fails Bool.false_ne_true

instance : DecidablePred AnswersFailure := fun events =>
  decidable_of_iff _ (answersFailure_iff events).symm

/-- The target has been opened. -/
def OpensTarget (path : List UInt8) (flags : OpenFlags) (mode : UInt32)
    (events : List HelperEvent) : Prop :=
  ∃ fd, ⟨.openFile path flags mode, .ok fd⟩ ∈ events

/-- A command that answers with -1 leaves at the target what was there before. -/
def SparesTarget (host : Host ω) (session : ClientSession) (path : List UInt8)
    (run : Script.Execution HelperOp HelperOp.Answer HelperOutcome (Host ω)) : Prop :=
  AnswersFailure run.events →
    ∀ view, host.Enters session.homeText session.workdirText view →
      run.world.tree.node (view.resolve path) = host.tree.node (view.resolve path)

/-- A file is left as it was if its content was there before. -/
theorem spared_iff {before after : FileTree} {place : Location} {left : List UInt8}
    (changed : after.node = Function.update before.node place (some (.regular left))) :
    after.node place = before.node place ↔ before.content place = some left := by
  rw [changed, Function.update_self, FileTree.content_eq_some, eq_comm]

/-- A content with bytes put over it was there before if the bytes were. -/
theorem content_overwrite_iff {tree : FileTree} {place : Location} (offset : Int32)
    (bytes : List UInt8) :
    tree.content place = some (overwrite (readable tree place)
        (writeStart (readable tree place) offset) bytes) ↔
      ∃ content, tree.content place = some content ∧
        bytes <+: content.drop (writeStart content offset) := by
  constructor
  · intro here
    have same : readable tree place = overwrite (readable tree place)
        (writeStart (readable tree place) offset) bytes := by
      conv_lhs => rw [readable, here, Option.getD_some]
    refine ⟨readable tree place, here.trans (congrArg some same.symm), ?_⟩
    exact (overwrite_eq_self_iff bytes).mp same.symm
  · rintro ⟨content, here, front⟩
    have known : readable tree place = content := by rw [readable, here, Option.getD_some]
    rw [known, (overwrite_eq_self_iff bytes).mpr front, here]

/-- A write that answers with -1 leaves its target exactly if the target was not opened, or existed
and was given only bytes that were there; an upload does exactly if the target was not opened, or
existed and was empty. -/
theorem sparesTarget_iff (host : Host ω) (session : ClientSession) (path : List UInt8)
    (offset : Int32) (data : List UInt8) :
    let written := writeRun kernel host session path offset data
    let uploaded := uploadRun kernel host session path
    (SparesTarget host session path written ↔ (AnswersFailure written.events →
        OpensTarget path writeFlags 0o700 written.events →
          ∀ view, host.Enters session.homeText session.workdirText view →
            ∃ content, host.tree.content (view.resolve path) = some content ∧
              stored written.events <+: content.drop (writeStart content offset))) ∧
      (SparesTarget host session path uploaded ↔ (AnswersFailure uploaded.events →
        OpensTarget path uploadFlags 0o600 uploaded.events →
          ∀ view, host.Enters session.homeText session.workdirText view →
            host.tree.content (view.resolve path) = some [])) := by
  have ends : WriteEnds host session path offset data
      (writeRun kernel host session path offset data).events
      (writeRun kernel host session path offset data).world :=
    ends_handleHelperWrite kernel host session path offset data _
  have uploads : UploadEnds host session path (uploadRun kernel host session path).events
      (uploadRun kernel host session path).world :=
    ends_handleHelperUpload kernel host session path _
  constructor
  · refine imp_congr_right fun failed => ?_
    by_cases opens : OpensTarget path writeFlags 0o700
        (writeRun kernel host session path offset data).events
    · obtain ⟨fd, member⟩ := opens
      obtain ⟨view, enters, -, changed, -⟩ := ends.opened fd member
      have spared := (spared_iff changed).trans (content_overwrite_iff offset _)
      constructor
      · intro spares _ other enters'
        obtain rfl := enters.unique enters'
        exact spared.mp (spares view enters)
      · intro kept other enters'
        obtain rfl := enters.unique enters'
        exact spared.mpr (kept ⟨fd, member⟩ view enters)
    · refine iff_of_true (fun view _ => ?_) fun opened => absurd opened opens
      rw [(ends.untouched fun fd member => opens ⟨fd, member⟩).1]
  · refine imp_congr_right fun failed => ?_
    by_cases opens : OpensTarget path uploadFlags 0o600 (uploadRun kernel host session path).events
    · obtain ⟨fd, member⟩ := opens
      obtain ⟨view, enters, -, emptied⟩ := uploads.opened fd member
      obtain ⟨response, sent, answered, status⟩ := failed
      have spared := spared_iff (emptied response sent answered (by rw [status]; decide))
      constructor
      · intro spares _ other enters'
        obtain rfl := enters.unique enters'
        exact spared.mp (spares view enters)
      · intro kept other enters'
        obtain rfl := enters.unique enters'
        exact spared.mpr (kept ⟨fd, member⟩ view enters)
    · refine iff_of_true (fun view _ => ?_) fun opened => absurd opened opens
      rw [uploads.untouched fun fd member => opens ⟨fd, member⟩]

/-- A write at a negative offset of a file that does not exist fails and leaves an empty file. -/
theorem not_sparesTarget_negative :
    ¬ SparesTarget aliceNotes (aliceAt []) (str "new")
      (writeRun obliging aliceNotes (aliceAt []) (str "new") (-1) (str "text")) := by
  intro spares
  have failed : AnswersFailure
      (writeRun obliging aliceNotes (aliceAt []) (str "new") (-1) (str "text")).events := by
    decide +kernel
  have same := spares failed aliceHome enters_alice
  revert same
  decide +kernel

end FileServer