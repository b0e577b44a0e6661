import FileServer.Model.Accounts
import FileServer.Verif.Sandboxes

/-!
# Open files of the helper

What the calls on a descriptor do to the file behind it. A descriptor holds a file as long as its
place has a content and its position lies in it; reads, writes and changes of the position keep that,
and a write puts the bytes that the system takes over what lay there.
-/
namespace FileServer

open FileServer.Lib

variable {ω : Type}

namespace Host

/-- A new position is found with its file. -/
theorem file_seek {host : Host ω} {fd : Descriptor} {file : OpenFile}
    (opened : host.file fd = some file) (position : Nat) :
    (host.seek fd position).file fd = some { file with position } := by
  have search : ∀ files : List (Descriptor × OpenFile), files.lookup fd = some file →
      List.lookup fd (files.map fun entry =>
        if entry.1 = fd then (fd, { entry.2 with position }) else entry) =
          some { file with position } := by
    intro files found
    induction files with
    | nil => cases found
    | cons entry later ih =>
      obtain ⟨number, other⟩ := entry
      by_cases same : number = fd
      · subst same
        rw [List.lookup_cons_self, Option.some.injEq] at found
        rw [List.map_cons, if_pos rfl, List.lookup_cons_self, found]
      · have apart : (fd == number) = false := by simpa using Ne.symm same
        rw [List.lookup_cons, apart] at found
        rw [List.map_cons, if_neg same, List.lookup_cons, apart]
        exact ih found
  exact search host.files opened

/-- The other files keep their positions. -/
theorem file_seek_of_ne (host : Host ω) {fd other : Descriptor} (apart : other ≠ fd)
    (position : Nat) : (host.seek fd position).file other = host.file other := by
  show List.lookup other (host.files.map fun entry =>
    if entry.1 = fd then (fd, { entry.2 with position }) else entry) = host.files.lookup other
  induction host.files with
  | nil => rfl
  | cons entry later ih =>
    obtain ⟨number, file⟩ := entry
    by_cases same : number = fd
    · have different : (other == fd) = false := by simpa using apart
      rw [List.map_cons, if_pos same, List.lookup_cons, List.lookup_cons, same, different]
      exact ih
    · rw [List.map_cons, if_neg same, List.lookup_cons, List.lookup_cons, ih]

/-- A file is opened, or nothing changes. -/
theorem openFrom_cases (host : Host ω) (view : View) (path : List UInt8) (flags : OpenFlags)
    (granted : Except Failure Descriptor) :
    (∃ failure, host.openFrom view path flags granted = (.error failure, host)) ∨
      ∃ fd place tree, host.openFrom view path flags granted =
          (.ok fd, { host with tree, files := (fd, ⟨place, 0⟩) :: host.files }) ∧
        host.file fd = none ∧
        host.tree.openFile view path flags.mode = some (place, tree) := by
  unfold openFrom attempt
  cases granted with
  | error failure => exact Or.inl ⟨failure, rfl⟩
  | ok fd =>
    cases used : host.file fd with
    | some file => exact Or.inl ⟨refusal, by simp [used]⟩
    | none =>
      cases opened : host.tree.openFile view path flags.mode with
      | none => exact Or.inl ⟨refusal, by simp [used]⟩
      | some result =>
        obtain ⟨place, tree⟩ := result
        exact Or.inr ⟨fd, place, tree, by simp [used], used, rfl⟩

end Host

/-- What there is to read at a place. -/
def readable (tree : FileTree) (place : Location) : List UInt8 := (tree.content place).getD []

/-- The bytes that a call has put into a file. -/
def storedBy : HelperEvent → List UInt8
  | ⟨.write _ bytes, .ok count⟩ => bytes.take count.val
  | _ => []

/-- The bytes that a run has put into a file, one write after the other. -/
def stored (events : List HelperEvent) : List UInt8 := events.flatMap storedBy

@[simp]
theorem stored_nil : stored [] = [] := rfl

@[simp]
theorem stored_cons (event : HelperEvent) (later : List HelperEvent) :
    stored (event :: later) = storedBy event ++ stored later := List.flatMap_cons

@[simp]
theorem stored_append (before after : List HelperEvent) :
    stored (before ++ after) = stored before ++ stored after := List.flatMap_append

/-- The call has succeeded, and has written all it was given. -/
def HelperEvent.succeeds : HelperEvent → Bool
  | ⟨.getuid, uid⟩ => uid = 0
  | ⟨.initgroups .., done⟩ | ⟨.setegid _, done⟩ | ⟨.seteuid _, done⟩ | ⟨.chroot _, done⟩ => done
  | ⟨.chdir _, done⟩ | ⟨.setLock .., done⟩ | ⟨.seekSet .., done⟩ | ⟨.seekEnd _, done⟩ => done.isOk
  | ⟨.openFile .., fd⟩ => fd.isOk
  | ⟨.fstat _, st⟩ => st.isOk
  | ⟨.read .., bytes⟩ => bytes.isOk
  | ⟨.write _ bytes, .ok count⟩ => count.val = bytes.length
  | ⟨.write .., .error _⟩ => false
  | ⟨.writeResponse _, sent⟩ | ⟨.writeServer _, sent⟩ | ⟨.writeAll .., sent⟩ => sent
  | _ => true

/-- All calls have succeeded. -/
def AllSucceed (events : List HelperEvent) : Prop := ∀ event ∈ events, event.succeeds = true

instance : DecidablePred AllSucceed := fun events =>
  inferInstanceAs (Decidable (∀ event ∈ events, event.succeeds = true))

@[simp]
theorem allSucceed_cons (event : HelperEvent) (later : List HelperEvent) :
    AllSucceed (event :: later) ↔ event.succeeds = true ∧ AllSucceed later :=
  List.forall_mem_cons

@[simp]
theorem allSucceed_append (before after : List HelperEvent) :
    AllSucceed (before ++ after) ↔ AllSucceed before ∧ AllSucceed after :=
  List.forall_mem_append

/-- Calls that send nothing to the server send no response. -/
theorem response_behind {events : List HelperEvent}
    (silent : ∀ event ∈ events, event.1.toServer = false) (later : List HelperEvent) :
    AccountEnvironment.response (events ++ later) = AccountEnvironment.response later := by
  have none : ∀ event ∈ events, AccountEnvironment.responseOf event = none := by
    intro event member
    have quiet := silent event member
    obtain ⟨op, answer⟩ := event
    cases op <;> first | rfl | exact absurd quiet Bool.noConfusion
  unfold AccountEnvironment.response
  rw [List.findSome?_append, List.findSome?_eq_none_iff.mpr none, Option.none_or]

namespace Host

/-- A call that is granted and that the tree carries out. -/
theorem attempt_ok {α β : Type} (host : Host ω) {result : α → Option (β × Host ω)} {value : α}
    {answer : β} {after : Host ω} (settled : result value = some (answer, after)) :
    host.attempt (.ok value) result = (.ok answer, after) := by
  simp only [attempt, settled]

/-- A descriptor with a position in a regular file. -/
structure Holds (host : Host ω) (fd : Descriptor) (place : Location) (content : List UInt8)
    (position : Nat) : Prop where
  /-- The descriptor is open. -/
  file : host.file fd = some ⟨place, position⟩
  /-- What the file contains. -/
  here : host.tree.content place = some content
  /-- The position is not behind the end. -/
  inside : position ≤ content.length

namespace Holds

variable {host : Host ω} {fd : Descriptor} {place : Location} {content : List UInt8}
  {position : Nat}

/-- What the tree has at the place. -/
theorem node (holds : host.Holds fd place content position) :
    host.tree.node place = some (.regular content) :=
  FileTree.content_eq_some.mp holds.here

/-- The state of the system does not matter. -/
theorem world (holds : host.Holds fd place content position) (world : ω) :
    ({ host with world } : Host ω).Holds fd place content position :=
  ⟨holds.file, holds.here, holds.inside⟩

/-- Another position in the file. -/
theorem seek (holds : host.Holds fd place content position) {other : Nat}
    (inside : other ≤ content.length) : (host.seek fd other).Holds fd place content other :=
  ⟨file_seek holds.file other, holds.here, inside⟩

variable (kernel : HostSystem ω)

/-- A write puts what the system takes over the content from the position on, or it fails without
effect. -/
theorem calls_write (holds : host.Holds fd place content position) (bytes : List UInt8) :
    (∃ failure world,
        calls kernel host (.write fd bytes) = (.error failure, { host with world })) ∨
      ∃ count after, calls kernel host (.write fd bytes) = (.ok count, after) ∧
        after.tree.node = Function.update host.tree.node place
          (some (.regular (overwrite content position (bytes.take count.val)))) ∧
        after.Holds fd place (overwrite content position (bytes.take count.val))
          (position + (bytes.take count.val).length) := by
  have called : ∀ granted world, kernel.answer host.world (.write fd bytes) = (granted, world) →
      calls kernel host (.write fd bytes) = ({ host with world } : Host ω).attempt granted
        fun count => (({ host with world } : Host ω).store fd (bytes.take count.val)).map
          fun after => (count, after) := by
    intro granted world answered
    unfold calls
    rw [answered]
    rfl
  match answered : kernel.answer host.world (.write fd bytes) with
  | (.error failure, world) => exact Or.inl ⟨failure, world, called _ _ answered⟩
  | (.ok count, world) =>
    have asked := holds.world world
    obtain ⟨tree, written, changed⟩ :=
      FileTree.write_inside asked.here asked.inside (bytes.take count.val)
    have stored : ({ host with world } : Host ω).store fd (bytes.take count.val) =
        some (({ host with world, tree } : Host ω).seek fd
          (position + (bytes.take count.val).length)) := by
      unfold store
      rw [asked.file, Option.bind_some, written]
      rfl
    have bound := le_length_overwrite asked.inside (bytes.take count.val)
    have written_ : ({ host with world, tree } : Host ω).Holds fd place
        (overwrite content position (bytes.take count.val)) position := by
      refine ⟨asked.file, ?_, by omega⟩
      rw [FileTree.content_eq_some, changed, Function.update_self]
    refine Or.inr ⟨count, _, (called _ _ answered).trans (attempt_ok _ ?_), changed,
      written_.seek bound⟩
    rw [stored, Option.map_some]

/-- The end of the file is sought, or nothing happens. -/
theorem calls_seekEnd (holds : host.Holds fd place content position) :
    (∃ failure world, calls kernel host (.seekEnd fd) = (.error failure, { host with world })) ∨
      ∃ after, calls kernel host (.seekEnd fd) = (.ok (), after) ∧ after.tree = host.tree ∧
        after.Holds fd place content content.length := by
  let granted : Except Failure Unit := (kernel.answer host.world (.seekEnd fd)).1
  let asked : Host ω := { host with world := (kernel.answer host.world (.seekEnd fd)).2 }
  have called : calls kernel host (.seekEnd fd) = asked.attempt granted fun _ =>
      (asked.contentOf fd).map fun found => ((), asked.seek fd found.2.length) := rfl
  rw [called]
  cases granted with
  | error failure => exact Or.inl ⟨failure, _, rfl⟩
  | ok _ =>
    have moved := (holds.world (kernel.answer host.world (.seekEnd fd)).2).seek (Nat.le_refl _)
    have found : asked.contentOf fd = some (⟨place, position⟩, content) := by
      unfold contentOf
      rw [show asked.file fd = _ from holds.file, Option.bind_some,
        show asked.tree.content place = _ from holds.here, Option.map_some]
    refine Or.inr ⟨asked.seek fd content.length, attempt_ok _ ?_, rfl, moved⟩
    rw [found, Option.map_some]

/-- A position in the file is sought, or nothing happens; a negative one is refused. -/
theorem calls_seekSet (holds : host.Holds fd place content position) {offset : Int32}
    (bound : offset.toInt ≤ content.length) :
    (∃ failure world,
        calls kernel host (.seekSet fd offset) = (.error failure, { host with world })) ∨
      ∃ after, calls kernel host (.seekSet fd offset) = (.ok (), after) ∧
        after.tree = host.tree ∧ 0 ≤ offset.toInt ∧
        after.Holds fd place content offset.toInt.toNat := by
  let granted : Except Failure Unit := (kernel.answer host.world (.seekSet fd offset)).1
  let asked : Host ω := { host with world := (kernel.answer host.world (.seekSet fd offset)).2 }
  have called : calls kernel host (.seekSet fd offset) = asked.attempt granted fun _ =>
      if offset.toInt < 0 then none
      else (asked.file fd).map fun _ => ((), asked.seek fd offset.toInt.toNat) := rfl
  rw [called]
  cases granted with
  | error failure => exact Or.inl ⟨failure, _, rfl⟩
  | ok _ =>
    by_cases negative : offset.toInt < 0
    · exact Or.inl ⟨refusal, _, by simp only [attempt, if_pos negative]; rfl⟩
    · have moved := (holds.world (kernel.answer host.world (.seekSet fd offset)).2).seek
        (show offset.toInt.toNat ≤ content.length by omega)
      refine Or.inr ⟨asked.seek fd offset.toInt.toNat, attempt_ok _ ?_, rfl, by omega, moved⟩
      rw [if_neg negative, show asked.file fd = _ from holds.file, Option.map_some]

/-- The type and the size of the file are reported, or nothing happens. -/
theorem calls_fstat (holds : host.Holds fd place content position) :
    (∃ failure world, calls kernel host (.fstat fd) = (.error failure, { host with world })) ∨
      ∃ mode world, calls kernel host (.fstat fd) =
        (.ok ⟨.regular, mode, content.length⟩, { host with world }) := by
  let granted : Except Failure FileStat := (kernel.answer host.world (.fstat fd)).1
  let asked : Host ω := { host with world := (kernel.answer host.world (.fstat fd)).2 }
  have called : calls kernel host (.fstat fd) = asked.attempt granted fun st =>
      ((asked.file fd).bind fun file => asked.tree.node file.place).map fun node =>
        (statOf node st, asked) := rfl
  rw [called]
  cases granted with
  | error failure => exact Or.inl ⟨failure, _, rfl⟩
  | ok st =>
    have settled : (((asked.file fd).bind fun file => asked.tree.node file.place).map
        fun node => (statOf node st, asked)) =
          some (⟨.regular, st.mode, content.length⟩, asked) := by
      rw [show asked.file fd = _ from holds.file, Option.bind_some,
        show asked.tree.node place = _ from holds.node, Option.map_some]
      rfl
    exact Or.inr ⟨st.mode, _, attempt_ok _ settled⟩

/-- A read brings as much of the rest of the file as it has room for, or it fails. -/
theorem calls_read (holds : host.Holds fd place content position) (limit : Nat) :
    (∃ failure world,
        calls kernel host (.read fd limit) = (.error failure, { host with world })) ∨
      ∃ bytes after, calls kernel host (.read fd limit) = (.ok bytes, after) ∧
        bytes.val = (content.drop position).take limit ∧ after.tree = host.tree := by
  let granted : Except Failure { bytes : List UInt8 // bytes.length ≤ limit } :=
    (kernel.answer host.world (.read fd limit)).1
  let asked : Host ω := { host with world := (kernel.answer host.world (.read fd limit)).2 }
  have called : calls kernel host (.read fd limit) = asked.attempt granted fun _ =>
      (asked.contentOf fd).map fun found =>
        (⟨(found.2.drop found.1.position).take limit, List.length_take_le _ _⟩,
          asked.seek fd (found.1.position +
            ((found.2.drop found.1.position).take limit).length)) := rfl
  rw [called]
  cases granted with
  | error failure => exact Or.inl ⟨failure, _, rfl⟩
  | ok _ =>
    have found : asked.contentOf fd = some (⟨place, position⟩, content) := by
      unfold contentOf
      rw [show asked.file fd = _ from holds.file, Option.bind_some,
        show asked.tree.content place = _ from holds.here, Option.map_some]
    refine Or.inr ⟨⟨(content.drop position).take limit, List.length_take_le _ _⟩,
      asked.seek fd (position + ((content.drop position).take limit).length),
      attempt_ok _ ?_, rfl, rfl⟩
    rw [found, Option.map_some]

end Holds

variable (kernel : HostSystem ω) (host : Host ω)

/-- A descriptor is closed. -/
theorem calls_close (fd : Descriptor) : ∃ world, calls kernel host (.close fd) =
    ((), { host with world, files := host.files.filter (·.1 ≠ fd) }) :=
  ⟨_, rfl⟩

/-- A file is opened by its path, or nothing happens. -/
theorem calls_openFile (path : List UInt8) (flags : OpenFlags) (mode : UInt32) :
    (∃ failure world, calls kernel host (.openFile path flags mode) =
        (.error failure, { host with world })) ∨
      ∃ fd place tree world, calls kernel host (.openFile path flags mode) =
          (.ok fd, { host with tree, world, files := (fd, ⟨place, 0⟩) :: host.files }) ∧
        host.file fd = none ∧ host.tree.openFile host.view path flags.mode = some (place, tree) := by
  let granted : Except Failure Descriptor :=
    (kernel.answer host.world (.openFile path flags mode)).1
  let asked : Host ω := { host with world := (kernel.answer host.world (.openFile path flags mode)).2 }
  have called : calls kernel host (.openFile path flags mode) =
      asked.openFrom host.view path flags granted := rfl
  rw [called]
  obtain ⟨failure, failed⟩ | ⟨fd, place, tree, opened, free, found⟩ :=
    asked.openFrom_cases host.view path flags granted
  · exact Or.inl ⟨failure, _, failed⟩
  · exact Or.inr ⟨fd, place, tree, _, opened, free, found⟩

end Host

/-- The call neither opens a file, nor writes to one, nor responds to the server. -/
def HelperOp.plain : HelperOp → Bool
  | openFile .. | openat .. | write .. | writeAll .. | writeResponse _ => false
  | _ => true

/-- The calls of a part that touches no file. -/
structure Aside (events : List HelperEvent) : Prop where
  /-- Nothing is put into a file. -/
  stored : stored events = []
  /-- No file is opened. -/
  opens : ∀ path flags mode fd, ⟨.openFile path flags mode, fd⟩ ∉ events
  /-- Nothing is answered. -/
  answers : ∀ response sent, ⟨.writeResponse response, sent⟩ ∉ events

/-- Plain calls touch no file. -/
theorem aside_of_plain {events : List HelperEvent}
    (plain : ∀ event ∈ events, event.1.plain = true) : Aside events where
  stored := by
    refine List.flatMap_eq_nil_iff.mpr fun event member => ?_
    have idle := plain event member
    obtain ⟨op, answer⟩ := event
    cases op <;> first | rfl | exact absurd idle Bool.false_ne_true
  opens path flags mode fd member := absurd (plain _ member) Bool.false_ne_true
  answers response sent member := absurd (plain _ member) Bool.false_ne_true

/-- The sandbox makes plain calls. -/
theorem plain_sandboxUser (session : ClientSession) (root directory : List UInt8) :
    (sandboxUser session root directory).Only fun op => op.plain = true :=
  only_sandboxUser session root directory (fun _ => rfl) (fun _ => rfl) rfl (fun _ _ => rfl)
    (fun _ => rfl) fun _ => rfl

/-- The privileges are dropped if no call fails. -/
theorem every_dropPrivilegesTemp (session : ClientSession) :
    (dropPrivilegesTemp session).Every fun events dropped => AllSucceed events → dropped = true := by
  intro uid
  show Script.Every _ (if uid ≠ 0 then pure false else _)
  split
  · next other => exact fun all => absurd (of_decide_eq_true (all _ List.mem_cons_self)) other
  · rintro (_ | _)
    · exact fun all => all _ (List.mem_cons_of_mem _ List.mem_cons_self)
    · rintro (_ | _)
      · exact fun all => all _ (List.mem_cons_of_mem _ (List.mem_cons_of_mem _ List.mem_cons_self))
      · rintro (_ | _)
        · exact fun all => all _ (List.mem_cons_of_mem _ (List.mem_cons_of_mem _
            (List.mem_cons_of_mem _ List.mem_cons_self)))
        · exact fun _ => rfl

/-- The sandbox is entered if no call fails. -/
theorem every_sandboxUser (session : ClientSession) (root directory : List UInt8) :
    (sandboxUser session root directory).Every fun events inside =>
      AllSucceed events → inside = true := by
  rintro (_ | _)
  · exact fun all => all _ List.mem_cons_self
  · rintro (failure | _)
    · exact fun all => all _ (List.mem_cons_of_mem _ List.mem_cons_self)
    · refine (every_dropPrivilegesTemp session).weaken fun events dropped goes all => goes ?_
      exact ((allSucceed_cons _ _).mp ((allSucceed_cons _ _).mp all).2).2

/-- The answer is given if no call fails. -/
theorem every_regainAndRespond (res : HelperResponse) :
    (regainAndRespond res).Every fun events _ =>
      stored events = [] ∧ (∀ path flags mode fd, ⟨.openFile path flags mode, fd⟩ ∉ events) ∧
        (∀ response sent, ⟨.writeResponse response, sent⟩ ∈ events → response = res) ∧
        (AllSucceed events → ⟨.writeResponse res, true⟩ ∈ events) := by
  rintro (_ | _)
  · refine ⟨rfl, by simp, by simp, by simp [HelperEvent.succeeds]⟩
  · rintro (_ | _)
    · refine ⟨rfl, by simp, by simp, by simp [HelperEvent.succeeds]⟩
    · intro sent
      refine ⟨rfl, by simp, ?_, ?_⟩
      · intro response other member
        have same : response = res ∧ other = sent := by simpa using member
        exact same.1
      · cases sent with
        | true => simp
        | false => simp [HelperEvent.succeeds]

end FileServer
