import FileServer.Lib.Paths
import FileServer.Verif.HelperFraming
import FileServer.Verif.TransferCommands

/-!
# The paths of a transfer

`HandleHelperTransfer` runs as root in the root directory of the system and puts its paths together
from strings. No string takes it out of the homes of the two users: a string without two dots in a
row has no component that goes up, whether or not the path is cut at the size of its array.
-/
namespace FileServer

open FileServer.Lib

/-- The name has letters only. -/
def Alphabetic (name : List UInt8) : Prop := ∀ byte ∈ name, isAlpha byte

/-- Whether it does can be computed. -/
instance : DecidablePred Alphabetic := fun name => List.decidableBAll _ name

/-- A name of letters is a name for an entry, if there is a letter. -/
theorem Alphabetic.properName {name : List UInt8} (letters : Alphabetic name) (filled : name ≠ []) :
    ProperName name := by
  have slash : isAlpha 47 = false := rfl
  have dot : isAlpha 46 = false := rfl
  refine ⟨filled, fun member => ?_, fun same => ?_, fun same => ?_⟩
  · simp [letters 47 member] at slash
  · simp [letters 46 (same ▸ by decide)] at dot
  · simp [letters 46 (same ▸ by decide)] at dot

/-- The place that a user has below the root directory. -/
def homeLocation (root : Location) (name : List UInt8) : Location := root ++ components name

/-- Every component of a name of letters is a name for an entry. -/
theorem Alphabetic.proper {name : List UInt8} (letters : Alphabetic name) :
    Location.Proper (components name) := by
  by_cases empty : name = []
  · subst empty
    exact fun other member => absurd member (by simp [components])
  · have proper := letters.properName empty
    rw [proper.components]
    intro other member
    rw [List.mem_singleton.mp member]
    exact proper

/-- A path behind the home of a user leads below it, if no component goes up. -/
theorem resolve_behindHome {root : Location} (proper : root.Proper) {name rest : List UInt8}
    (letters : Alphabetic name) (down : str ".." ∉ components rest) (cwd : Location) :
    View.resolve ⟨[], cwd⟩ (root.render ++ 47 :: (name ++ 47 :: rest)) =
      homeLocation root name ++ (components rest).filter fun part => part ≠ str "." := by
  have absolute := root.isAbsolute_render_append (47 :: (name ++ 47 :: rest))
  unfold View.resolve View.origin
  rw [absolute, if_pos rfl, components_slash, components_slash, proper.components,
    Location.walk_append, Location.walk_append, Location.walk_proper _ _ proper,
    Location.walk_proper _ _ letters.proper, Location.walk_downward _ _ down]
  rfl

/-- The array for a path has room for the root directory and for a name of letters. -/
theorem formatted_behindHome {root name : List UInt8} (rootShort : root.length ≤ 63)
    (nameShort : name.length ≤ 19) (rest : List UInt8) :
    formatted 512 (root ++ str "/" ++ name ++ str "/" ++ rest) =
      root ++ 47 :: (name ++ 47 :: rest.take (511 - (root.length + name.length + 2))) := by
  have slash : str "/" = [47] := rfl
  have front : root ++ str "/" ++ name ++ str "/" ++ rest =
      (root ++ 47 :: (name ++ [47])) ++ rest := by simp [slash]
  have width : (root ++ 47 :: (name ++ [47])).length = root.length + name.length + 2 := by
    simp only [List.length_append, List.length_cons, List.length_nil]
    omega
  unfold formatted
  rw [front, List.take_append, List.take_of_length_le (by omega), width]
  simp

/-- A file that the call opens is below one place if it is opened for reading, and below another
if it is opened for writing, for a process with the root of the system and any current
directory. -/
def HelperOp.Confined (source destination : Location) : HelperOp → Prop
  | openFile path flags _ => ∀ cwd, (if flags.access = .readOnly then source else destination) <+:
      View.resolve ⟨[], cwd⟩ path
  | openat .. => False
  | _ => True

/-- Two strings without two dots in a row make a path, cut anywhere, without a component that goes
up. -/
theorem dots_not_mem_components_take {first later : List UInt8} (firstPlain : ¬ str ".." <:+: first)
    (laterPlain : ¬ str ".." <:+: later) (count : Nat) :
    str ".." ∉ components ((first ++ 47 :: later).take count) := by
  intro member
  by_cases inside : count ≤ first.length
  · have part := infix_of_mem_components member
    rw [List.take_append_of_le_length inside] at part
    exact firstPlain (part.trans (List.take_prefix count first).isInfix)
  · obtain ⟨more, rfl⟩ : ∃ more, count = first.length + (more + 1) :=
      ⟨count - first.length - 1, by omega⟩
    rw [List.take_length_add_append, List.take_succ_cons, components_slash,
      List.mem_append] at member
    cases member with
    | inl early => exact firstPlain (infix_of_mem_components early)
    | inr late =>
      have part := infix_of_mem_components late
      exact laterPlain (part.trans (List.take_prefix more later).isInfix)

/-- The call is one that a transfer makes to copy a file that is open. -/
def HelperOp.copies : HelperOp → Bool
  | getpwnam _ | fchown .. | setLock .. | readAgain .. | write .. | close _ => true
  | _ => false

section

variable {allowed : HelperOp → Prop} (copies : ∀ op, op.copies = true → allowed op)
include copies

/-- The part of a transfer with the destination open. -/
theorem only_transferOpened (srcFd destFd : Descriptor) (recv : List UInt8) :
    (transferOpened srcFd destFd recv).Only allowed := by
  refine .call (copies _ rfl) fun account => ?_
  cases account with
  | none => trivial
  | some pw =>
    refine .call (copies _ rfl) fun owned => .call (copies _ rfl) fun locked => ?_
    cases locked with
    | error failure => trivial
    | ok _ =>
      refine .call (copies _ rfl) fun blocks => Script.Only.bind
        (only_copyFile destFd (fun _ => copies _ rfl) blocks) fun copied => ?_
      cases copied with
      | true => trivial
      | false => trivial

/-- The part of a transfer with the source open, which opens the destination. -/
theorem only_transferLocked (srcFd : Descriptor) {path : List UInt8} (recv : List UInt8)
    (opens : allowed (.openFile path ⟨.writeOnly, true, true, false, false⟩ 0o644)) :
    (transferLocked srcFd path recv).Only allowed := by
  refine .call (copies _ rfl) fun locked => ?_
  cases locked with
  | error failure => exact .call (copies _ rfl) fun _ => trivial
  | ok _ =>
    refine .call opens fun opened => ?_
    cases opened with
    | error failure => exact .call (copies _ rfl) fun _ => trivial
    | ok destFd =>
      refine Script.Only.bind (only_transferOpened copies srcFd destFd recv) fun copied => ?_
      exact .call (copies _ rfl) fun _ => .call (copies _ rfl) fun _ => trivial

end

/-- A call that copies is confined. -/
theorem HelperOp.confined_of_copies {source destination : Location} (op : HelperOp)
    (copies : op.copies = true) : op.Confined source destination := by
  cases op with
  | openFile path flags mode => cases copies
  | openat directory path flags mode => cases copies
  | _ => trivial

/-- A transfer opens its source below the home of the sender and its destination below the home of
the receiver, whatever the two strings that it is given. -/
theorem transfer_staysInHomes {root : Location} (proper : root.Proper)
    (rootShort : root.render.length ≤ 63) {sender recv : List UInt8}
    (senderLetters : Alphabetic sender) (senderShort : sender.length ≤ 19)
    (recvLetters : Alphabetic recv) (recvShort : recv.length ≤ 19)
    (filename targetPath : List UInt8) (res : HelperResponse) :
    (handleHelperTransfer root.render sender filename recv targetPath res).Only
      (HelperOp.Confined (homeLocation root sender) (homeLocation root recv)) := by
  have responds : ∀ result : Except (List UInt8) Unit, Script.Only
      (HelperOp.Confined (homeLocation root sender) (homeLocation root recv)) (do
        let _ ← system (.writeResponse (transferResponse res result))
        return HelperOutcome.returned) :=
    fun result => .call trivial fun _ => trivial
  unfold handleHelperTransfer
  by_cases dots : (hasDots targetPath || hasDots filename) = true
  · simp only [dots, ↓reduceIte]
    exact responds (.error (str "Security Error: Illegal path characters"))
  · obtain ⟨targetPlain, filePlain⟩ : ¬ str ".." <:+: targetPath ∧ ¬ str ".." <:+: filename := by
      simpa [hasDots] using dots
    simp only [if_neg dots]
    refine .call (fun cwd => ?_) fun opened => ?_
    · have plain : str ".." ∉
          components (filename.take (511 - (root.render.length + sender.length + 2))) := by
        intro member
        have part := infix_of_mem_components member
        exact filePlain (part.trans (List.take_prefix _ filename).isInfix)
      rw [if_pos rfl, formatted_behindHome rootShort senderShort,
        resolve_behindHome proper senderLetters plain]
      exact List.prefix_append _ _
    · have below : ∀ cwd, homeLocation root recv <+: View.resolve ⟨[], cwd⟩ (formatted 512
          (root.render ++ str "/" ++ recv ++ str "/" ++ targetPath ++ str "/" ++ filename)) := by
        intro cwd
        have joined : root.render ++ str "/" ++ recv ++ str "/" ++ targetPath ++ str "/" ++
            filename = root.render ++ str "/" ++ recv ++ str "/" ++
              (targetPath ++ 47 :: filename) := by
          have slash : str "/" = [47] := rfl
          simp [slash]
        have plain := dots_not_mem_components_take targetPlain filePlain
          (511 - (root.render.length + recv.length + 2))
        rw [joined, formatted_behindHome rootShort recvShort,
          resolve_behindHome proper recvLetters plain]
        exact List.prefix_append _ _
      cases opened with
      | error failure => exact responds (.error (str "Source file not found"))
      | ok srcFd =>
        refine Script.Only.bind
          (only_transferLocked HelperOp.confined_of_copies srcFd recv below) fun transferred => ?_
        exact responds transferred

/-- Two users below a root directory, and names with dots and slashes. -/
theorem transfer_staysInHomes_dotted :
    (handleHelperTransfer (Location.render [str "srv", str "files"]) (str "alice")
      (str "././/notes") (str "bob") (str "/new/.") (.blank 12)).Only
        (HelperOp.Confined (homeLocation [str "srv", str "files"] (str "alice"))
          (homeLocation [str "srv", str "files"] (str "bob"))) := by
  have proper : Location.Proper [str "srv", str "files"] := by
    intro name member
    rcases List.mem_pair.mp member with rfl | rfl
    · exact ⟨by decide, by decide, by decide, by decide⟩
    · exact ⟨by decide, by decide, by decide, by decide⟩
  exact transfer_staysInHomes proper (by decide) (by decide) (by decide) (by decide) (by decide) _ _ _

end FileServer
