import FileServer.Lib.CString
import FileServer.Lib.Serial
import FileServer.Model.FileAccess
import Mathlib.Data.Fintype.Basic

/-!
# File requests in sequence

What a request answers and leaves when no other process touches the file, and when several do. The
record lock puts requests on one file in the order in which they get it, as long as no
`O_TRUNC` takes effect under somebody else's lock. An upload empties the file when it opens it,
before it asks for the lock, and so does the creation of a file; where that falls into another
request, no order explains the result.
-/
namespace FileServer

open FileServer.Lib

/-- A request executed alone on a content. -/
def FileRequest.execute : FileRequest → List UInt8 → FileAnswer × List UInt8
  | upload data, _ => (.success, data)
  | createFile, _ => (.success, [])
  | write offset data, content =>
    if offset.toInt > content.length then
      (.success, content ++ List.replicate (offset.toInt - content.length).toNat 32 ++ data)
    else if offset.toInt < 0 then (.failure, content)
    else (.success, writeAt content offset.toInt.toNat data)
  | read offset, content =>
    if offset.toInt > content.length ∨ offset.toInt < 0 then (.failure, content)
    else
      let bytes := (content.drop offset.toInt.toNat).take 4096
      (⟨0, UInt32.ofNat bytes.length, bytes⟩, content)
  | download, content => (⟨0, UInt32.ofNat content.length, content⟩, content)

namespace FilePhase

/-- The process is working on the file under its lock. -/
def busy : FilePhase → Bool
  | ready | opened | closing | finished _ => false
  | _ => true

/-- The process does not change the file from here on. -/
def readsOnly : FilePhase → Bool
  | statWrite _ _ | seekEnd _ _ _ | padding _ _ _ _ _ | writing _ _ | receiving _ _ | closing => false
  | _ => true

/-- The answer and the content when a working process goes on alone. -/
def complete (content : List UInt8) : FilePhase → FileAnswer × List UInt8
  | statWrite offset data => (FileRequest.write offset data).execute content
  | seekEnd size offset data =>
    (.success, content ++ List.replicate (offset.toInt - size).toNat 32 ++ data)
  | padding position index offset data _ =>
    (.success, writeAt content position
      (List.replicate (offset.toInt - index).toNat 32 ++ data))
  | writing position data => (.success, writeAt content position data)
  | statRead offset => (FileRequest.read offset).execute content
  | reading position =>
    let bytes := (content.drop position).take 4096
    (⟨0, UInt32.ofNat bytes.length, bytes⟩, content)
  | receiving position left => (.success, writeAt content position left)
  | statDownload => FileRequest.download.execute content
  | sending size position sent => (⟨0, size, sent ++ content.drop position⟩, content)
  | unlocking answer => (answer, content)
  | ready | opened | closing | finished _ => (.failure, content)

/-- The padding loop followed by the data is one write. -/
theorem complete_pad (content : List UInt8) (position index : Nat) (offset : Int32)
    (data : List UInt8) : (pad position index offset data).complete content =
      (.success, writeAt content position
        (List.replicate (offset.toInt - index).toNat 32 ++ data)) := by
  simp only [pad]
  split
  · rfl
  · rename_i reached
    rw [Int.toNat_of_nonpos (by omega), List.replicate_zero, List.nil_append]
    rfl

/-- The upload loop is one write. -/
theorem complete_receive (content : List UInt8) (position : Nat) (left : List UInt8) :
    (receive position left).complete content = (.success, writeAt content position left) := by
  by_cases end_ : left = []
  · simp [receive, end_, complete, writeAt]
  · simp [receive, end_, complete]

/-- A call made under the lock leads to the same answer and content in the end. -/
theorem complete_advance {phase after : FilePhase} {more : Nat} {content changed : List UInt8}
    (step : phase.advance more content = some (after, changed)) :
    after.complete changed = phase.complete content := by
  cases phase with
  | statWrite offset data =>
    simp only [advance] at step
    simp only [complete, FileRequest.execute]
    split at step
    · rename_i beyond
      cases step
      simp only [beyond, ↓reduceIte]
    · rename_i inside
      split at step
      · rename_i negative
        cases step
        simp only [inside, negative, ↓reduceIte]
      · rename_i positive
        cases step
        simp only [inside, positive, ↓reduceIte]
  | seekEnd size offset data =>
    cases step
    rw [complete_pad, writeAt_end, ← List.append_assoc]
    rfl
  | padding position index offset data short =>
    cases step
    have count : (offset.toInt - index).toNat = (offset.toInt - (index + 1 : Nat)).toNat + 1 := by
      omega
    have written := writeAt_append content position [32]
      (List.replicate (offset.toInt - (index + 1 : Nat)).toNat 32 ++ data)
    rw [complete_pad, complete, count, List.replicate_succ]
    exact congrArg _ written
  | writing position data =>
    cases step
    rfl
  | statRead offset =>
    simp only [advance] at step
    simp only [complete, FileRequest.execute]
    split at step
    · rename_i beyond
      cases step
      simp only [beyond, true_or, ↓reduceIte]
    · rename_i inside
      split at step
      · rename_i negative
        cases step
        simp only [negative, or_true, ↓reduceIte]
      · rename_i positive
        cases step
        simp only [inside, positive, or_self, ↓reduceIte]
  | reading position =>
    cases step
    rfl
  | receiving position left =>
    cases step
    rw [complete_receive, writeAt_append, List.take_append_drop]
    rfl
  | statDownload =>
    cases step
    simp [complete, FileRequest.execute]
  | sending size position sent =>
    simp only [advance] at step
    split at step
    · rename_i none
      cases step
      have end_ : content.drop position = [] := by
        rcases List.take_eq_nil_iff.mp none with absurd_ | empty
        · exact absurd absurd_ (by decide)
        · exact empty
      simp [complete, end_]
    · cases step
      have rest : (content.drop position).take 16384 ++ content.drop
          (position + ((content.drop position).take 16384).length) = content.drop position := by
        rw [← List.drop_drop]
        generalize content.drop position = left
        conv_rhs => rw [← List.take_append_drop 16384 left]
        congr 1
        conv_lhs => rw [← List.take_append_drop 16384 left]
        simp
      simp only [complete, List.append_assoc, rest]
  | _ => cases step

/-- A call under the lock is made by a process at work, which stays at work; one that only reads
changes nothing. -/
theorem busy_advance {phase after : FilePhase} {more : Nat} {content changed : List UInt8}
    (step : phase.advance more content = some (after, changed)) :
    phase.busy = true ∧ after.busy = true ∧
      (phase.readsOnly = true → after.readsOnly = true ∧ changed = content) := by
  cases phase with
  | statWrite offset data | statRead offset | sending size position sent =>
    simp only [advance] at step
    repeat' split at step
    all_goals
      cases step
      simp [busy, readsOnly]
  | seekEnd size offset data | padding position index offset data short =>
    cases step
    simp only [pad]
    split <;> simp [busy, readsOnly]
  | receiving position left =>
    cases step
    simp only [receive]
    split <;> simp [busy, readsOnly]
  | writing position data | reading position | statDownload =>
    cases step
    simp [busy, readsOnly]
  | _ => cases step

/-- A process at work holds its lock. -/
theorem held_of_busy {phase : FilePhase} (working : phase.busy = true) : phase.held = true := by
  cases phase <;> first | rfl | cases working

/-- What a process at work does not change, it leaves as it is. -/
theorem complete_readsOnly {phase : FilePhase} (reads : phase.readsOnly = true)
    (working : phase.busy = true) (content : List UInt8) : (phase.complete content).2 = content := by
  cases phase with
  | statRead offset =>
    simp only [complete, FileRequest.execute]
    split <;> rfl
  | reading position | statDownload | sending size position sent | unlocking answer => rfl
  | ready | opened | finished answer => cases working
  | _ => cases reads

end FilePhase

namespace FileRequest

/-- The phases a process can be in when it serves the request. -/
def Fits : FileRequest → FilePhase → Prop
  | createFile, phase => phase.busy = false
  | read _, phase | download, phase => phase.readsOnly = true
  | upload _, phase | write _ _, phase => phase ≠ .closing

/-- An upload between its open, which empties the file, and its lock. -/
def pending : FileRequest → FilePhase → Bool
  | upload _, .opened => true
  | _, _ => false

/-- The request has its place in the order: when it has the lock, or has emptied the file it
creates. -/
def begun : FileRequest → FilePhase → Bool
  | _, .ready => false
  | createFile, _ => true
  | _, .opened => false
  | _, _ => true

/-- An upload that waits for its lock is not at work. -/
theorem not_busy_of_pending {request : FileRequest} {phase : FilePhase}
    (waits : request.pending phase = true) : phase.busy = false := by
  cases phase <;> cases request <;> first | rfl | cases waits

/-- A request at work has its place in the order. -/
theorem begun_of_busy {request : FileRequest} {phase : FilePhase}
    (working : phase.busy = true) : request.begun phase = true := by
  cases phase <;> cases request <;> first | rfl | cases working

/-- A request that has the lock runs its own code. -/
theorem fits_begin (request : FileRequest) : request.Fits (.begin_ request) := by
  cases request with
  | upload data =>
    simp only [Fits, FilePhase.begin_, FilePhase.receive]
    split <;> exact nofun
  | write offset data => exact nofun
  | _ => rfl

/-- Only the creation of a file goes on to close it first. -/
theorem createFile_of_closing {request : FileRequest} (fits : request.Fits .closing) :
    request = .createFile := by
  cases request with
  | createFile => rfl
  | upload data | write offset data => exact absurd rfl fits
  | read offset | download => cases fits

/-- A request that takes a read lock does not change the file. -/
theorem readsOnly_of_shared {request : FileRequest} {phase : FilePhase}
    (shared : request.lockMode = .shared) (fits : request.Fits phase) :
    phase.readsOnly = true := by
  cases request with
  | read offset | download => exact fits
  | _ => cases shared

/-- A call under the lock goes on with the code of the request. -/
theorem fits_advance {request : FileRequest} {phase after : FilePhase} {more : Nat}
    {content changed : List UInt8} (fits : request.Fits phase)
    (step : phase.advance more content = some (after, changed)) : request.Fits after := by
  obtain ⟨working, still, reads⟩ := FilePhase.busy_advance step
  cases request with
  | createFile =>
    rw [Fits, working] at fits
    cases fits
  | read offset | download => exact (reads fits).1
  | upload data | write offset data =>
    rintro rfl
    cases still

/-- A request other than the creation of a file is at work once it has the lock. -/
theorem busy_begin {request : FileRequest} (other : request ≠ .createFile) :
    (FilePhase.begin_ request).busy = true := by
  cases request with
  | upload data =>
    simp only [FilePhase.begin_, FilePhase.receive]
    split <;> rfl
  | createFile => exact absurd rfl other
  | _ => rfl

end FileRequest

variable {process : Type} [DecidableEq process]

namespace FileState

/-- No `O_TRUNC` takes effect while a request is at work on the file, and no request but the
creation of a file gets the lock while another upload waits for it with the file emptied. -/
def Separated (request : process → FileRequest) (state : FileState process) :
    process × Nat → Prop
  | (caller, _) =>
    match state.phase caller with
    | .ready => (request caller).truncates = true → ∀ other, (state.phase other).busy = false
    | .opened => request caller ≠ .createFile →
        ∀ other, other ≠ caller → (request other).pending (state.phase other) = false
    | _ => True

/-- Whether a step keeps apart can be computed. -/
instance [Fintype process] (request : process → FileRequest) (state : FileState process) :
    (step : process × Nat) → Decidable (Separated request state step)
  | (caller, _) =>
    match phase : state.phase caller with
    | .ready => decidable_of_iff
        ((request caller).truncates = true → ∀ other, (state.phase other).busy = false)
        (by simp only [Separated, phase])
    | .opened => decidable_of_iff
        (request caller ≠ .createFile →
          ∀ other, other ≠ caller → (request other).pending (state.phase other) = false)
        (by simp only [Separated, phase])
    | .closing | .statWrite _ _ | .seekEnd _ _ _ | .padding _ _ _ _ _ | .writing _ _
    | .statRead _ | .reading _ | .receiving _ _ | .statDownload | .sending _ _ _
    | .unlocking _ | .finished _ => .isTrue (by simp only [Separated, phase])

/-- The requests executed one after the other. -/
def serial (request : process → FileRequest) (order : List process) (initial : List UInt8) :
    List (process × FileAnswer) × List UInt8 :=
  inOrder (fun caller => (request caller).execute) order initial

/-- Some order of the requests served explains every answer and the final content. -/
def Serializable (request : process → FileRequest) (initial : List UInt8)
    (state : FileState process) : Prop :=
  ∃ order : List process, order.Nodup ∧ (∀ caller, caller ∈ order ↔ state.phase caller ≠ .ready) ∧
    (∀ caller answer, (caller, answer) ∈ (serial request order initial).1 →
      state.phase caller = .finished answer) ∧
    (serial request order initial).2 = state.content

/-- A process is on the way to the answer and content of its place in the order. -/
def OnWay (answer : FileAnswer) (content final : List UInt8) (phase : FilePhase) : Prop :=
  (phase.busy = true → phase.complete content = (answer, final)) ∧
    ∀ given, phase = .finished given → given = answer

/-- What the processes keep, with the order of the requests begun so far. -/
structure Sound (request : process → FileRequest) (initial : List UInt8)
    (state : FileState process) (order : List process) : Prop where
  /-- A write lock excludes others. -/
  consistent : state.locks.Consistent
  /-- Who is under way has its lock. -/
  holds : ∀ caller, (state.phase caller).held = true →
    (caller, (request caller).lockMode) ∈ state.locks
  /-- Every process runs the code of its request. -/
  fits : ∀ caller, (request caller).Fits (state.phase caller)
  /-- Every request has one place in the order. -/
  nodup : order.Nodup
  /-- The requests begun are in the order. -/
  begun : ∀ caller, caller ∈ order ↔ (request caller).begun (state.phase caller) = true
  /-- Each is on the way to its answer, and whoever is at work to the content of the order. -/
  onWay : ∀ caller answer, (caller, answer) ∈ (serial request order initial).1 →
    OnWay answer state.content (serial request order initial).2 (state.phase caller)
  /-- While an upload has emptied the file, nobody is at work. -/
  emptied : ∀ caller, (request caller).pending (state.phase caller) = true →
    state.content = [] ∧ ∀ other, (state.phase other).busy = false
  /-- Otherwise, while nobody is at work, the content is that of the order. -/
  settled : (∀ caller, (request caller).pending (state.phase caller) = false) →
    (∀ other, (state.phase other).busy = false) →
    state.content = (serial request order initial).2

section Steps

variable {request : process → FileRequest} {initial : List UInt8}
  {state after : FileState process} {order : List process} {caller : process}

/-- One process changes phase, perhaps with the content, the locks and the order. -/
theorem Sound.change (sound : Sound request initial state order) {phase : FilePhase}
    {content : List UInt8} {locks : LockTable process} {longer : List process}
    (consistent : locks.Consistent)
    (kept : ∀ other, other ≠ caller → ∀ mode, (other, mode) ∈ state.locks → (other, mode) ∈ locks)
    (holds : phase.held = true → (caller, (request caller).lockMode) ∈ locks)
    (fits : (request caller).Fits phase) (nodup : longer.Nodup)
    (begun : caller ∈ longer ↔ (request caller).begun phase = true)
    (same : ∀ other, other ≠ caller → (other ∈ longer ↔ other ∈ order))
    (answers : ∀ other answer, other ≠ caller →
      (other, answer) ∈ (serial request longer initial).1 →
        (other, answer) ∈ (serial request order initial).1)
    (onWay : ∀ answer, (caller, answer) ∈ (serial request longer initial).1 →
      OnWay answer content (serial request longer initial).2 phase)
    (alone : (content = state.content ∧
        (serial request longer initial).2 = (serial request order initial).2) ∨
      ∀ other, other ≠ caller → (state.phase other).busy = false)
    (emptied : (request caller).pending phase = true →
      content = [] ∧ ∀ other, other ≠ caller → (state.phase other).busy = false)
    (waiting : (∃ other, other ≠ caller ∧ (request other).pending (state.phase other) = true) →
      content = [] ∧ phase.busy = false)
    (settled : (request caller).pending phase = false → phase.busy = false →
      (∀ other, other ≠ caller → (request other).pending (state.phase other) = false) →
      (∀ other, other ≠ caller → (state.phase other).busy = false) →
      content = (serial request longer initial).2) :
    Sound request initial ⟨content, locks, Function.update state.phase caller phase⟩ longer := by
  refine ⟨consistent, ?_, ?_, nodup, ?_, ?_, ?_, ?_⟩
  · rw [Function.forall_update_iff state.phase
      fun other phase => phase.held = true → (other, (request other).lockMode) ∈ locks]
    exact ⟨holds, fun other apart held => kept other apart _ (sound.holds other held)⟩
  · rw [Function.forall_update_iff state.phase fun other phase => (request other).Fits phase]
    exact ⟨fits, fun other _ => sound.fits other⟩
  · rw [Function.forall_update_iff state.phase
      fun other phase => other ∈ longer ↔ (request other).begun phase = true]
    exact ⟨begun, fun other apart => (same other apart).trans (sound.begun other)⟩
  · rw [Function.forall_update_iff state.phase fun other phase => ∀ answer,
      (other, answer) ∈ (serial request longer initial).1 →
        OnWay answer content (serial request longer initial).2 phase]
    refine ⟨onWay, fun other apart answer member => ?_⟩
    have before := sound.onWay other answer (answers other answer apart member)
    rcases alone with ⟨unchanged, final⟩ | idle
    · rwa [unchanged, final]
    · exact ⟨fun working => absurd working (by simp [idle other apart]), before.2⟩
  · intro other waits
    rw [Function.forall_update_iff state.phase fun _ phase => phase.busy = false]
    by_cases mine : other = caller
    · subst mine
      simp only [Function.update_self] at waits
      exact ⟨(emptied waits).1, FileRequest.not_busy_of_pending waits, (emptied waits).2⟩
    · simp only [Function.update_of_ne mine] at waits
      obtain ⟨cleared, idle⟩ := waiting ⟨other, mine, waits⟩
      exact ⟨cleared, idle, fun third _ => (sound.emptied other waits).2 third⟩
  · intro open_ idle
    rw [Function.forall_update_iff state.phase
      fun other phase => (request other).pending phase = false] at open_
    rw [Function.forall_update_iff state.phase fun _ phase => phase.busy = false] at idle
    exact settled open_.1 idle.1 open_.2 idle.2

/-- A change that adds nothing to the order. -/
theorem Sound.move (sound : Sound request initial state order) {phase : FilePhase}
    {content : List UInt8} {locks : LockTable process}
    (consistent : locks.Consistent)
    (kept : ∀ other, other ≠ caller → ∀ mode, (other, mode) ∈ state.locks → (other, mode) ∈ locks)
    (holds : phase.held = true → (caller, (request caller).lockMode) ∈ locks)
    (fits : (request caller).Fits phase)
    (begun : (request caller).begun (state.phase caller) = (request caller).begun phase)
    (onWay : ∀ answer, (caller, answer) ∈ (serial request order initial).1 →
      OnWay answer content (serial request order initial).2 phase)
    (alone : content = state.content ∨
      ∀ other, other ≠ caller → (state.phase other).busy = false)
    (emptied : (request caller).pending phase = true →
      content = [] ∧ ∀ other, other ≠ caller → (state.phase other).busy = false)
    (waiting : (∃ other, other ≠ caller ∧ (request other).pending (state.phase other) = true) →
      content = [] ∧ phase.busy = false)
    (settled : (request caller).pending phase = false → phase.busy = false →
      (∀ other, other ≠ caller → (request other).pending (state.phase other) = false) →
      (∀ other, other ≠ caller → (state.phase other).busy = false) →
      content = (serial request order initial).2) :
    Sound request initial ⟨content, locks, Function.update state.phase caller phase⟩ order :=
  sound.change consistent kept holds fits sound.nodup (begun ▸ sound.begun caller)
    (fun _ _ => Iff.rfl) (fun _ _ _ member => member) onWay
    (alone.imp_left fun same => ⟨same, rfl⟩) emptied waiting settled

/-- A change that gives the caller its place at the end of the order. -/
theorem Sound.join (sound : Sound request initial state order) {phase : FilePhase}
    {content : List UInt8} {locks : LockTable process}
    (consistent : locks.Consistent)
    (kept : ∀ other, other ≠ caller → ∀ mode, (other, mode) ∈ state.locks → (other, mode) ∈ locks)
    (holds : phase.held = true → (caller, (request caller).lockMode) ∈ locks)
    (fits : (request caller).Fits phase)
    (fresh : (request caller).begun (state.phase caller) = false)
    (begun : (request caller).begun phase = true)
    (onWay : OnWay ((request caller).execute (serial request order initial).2).1 content
      ((request caller).execute (serial request order initial).2).2 phase)
    (alone : (content = state.content ∧ ((request caller).execute
        (serial request order initial).2).2 = (serial request order initial).2) ∨
      ∀ other, other ≠ caller → (state.phase other).busy = false)
    (idle : (request caller).pending phase = false)
    (waiting : (∃ other, other ≠ caller ∧ (request other).pending (state.phase other) = true) →
      content = [] ∧ phase.busy = false)
    (settled : phase.busy = false →
      content = ((request caller).execute (serial request order initial).2).2) :
    Sound request initial ⟨content, locks, Function.update state.phase caller phase⟩
      (order ++ [caller]) := by
  have absent : caller ∉ order := by
    rw [sound.begun caller, fresh]
    decide
  have longer : serial request (order ++ [caller]) initial =
      ((serial request order initial).1 ++
          [(caller, ((request caller).execute (serial request order initial).2).1)],
        ((request caller).execute (serial request order initial).2).2) :=
    inOrder_append _ order caller initial
  refine sound.change consistent kept holds fits ?_ ?_ ?_ ?_ ?_ ?_ ?_ waiting ?_
  · exact List.nodup_append.mpr ⟨sound.nodup, by simp, by
      rintro other member _ last rfl
      exact absent (List.mem_singleton.mp last ▸ member)⟩
  · simp [begun]
  · intro other apart
    simp [apart]
  · intro other answer apart member
    rw [longer] at member
    simpa [apart] using member
  · intro answer member
    have last : answer = ((request caller).execute (serial request order initial).2).1 := by
      rw [longer] at member
      rcases List.mem_append.mp member with early | last
      · have listed := List.mem_map_of_mem (f := Prod.fst) early
        rw [serial, map_fst_inOrder] at listed
        exact absurd listed absent
      · exact (Prod.mk.inj (List.mem_singleton.mp last)).2
    rw [last, longer]
    exact onWay
  · rw [longer]
    exact alone
  · intro waits
    rw [idle] at waits
    cases waits
  · rw [longer]
    exact fun _ done _ _ => settled done

/-- Opening the file, where nobody is at work if that empties it. -/
theorem Sound.open_ (sound : Sound request initial state order)
    (ready : state.phase caller = .ready)
    (apart : (request caller).truncates = true → ∀ other, (state.phase other).busy = false) :
    ∃ order, Sound request initial ⟨if (request caller).truncates then [] else state.content,
      state.locks, Function.update state.phase caller .opened⟩ order := by
  have unbegun : (request caller).begun (state.phase caller) = false := by
    rw [ready]
    cases request caller <;> rfl
  -- an upload is not in the order yet, the creation of a file is
  cases kind : request caller with
  | createFile =>
    rw [kind] at apart
    refine ⟨order ++ [caller], sound.join sound.consistent (fun _ _ _ held => held) nofun ?_ unbegun
      ?_ ⟨nofun, nofun⟩ (Or.inr fun other _ => apart rfl other) ?_ (fun _ => ⟨rfl, rfl⟩) ?_⟩ <;>
      rw [kind]
    · rfl
    · rfl
    · rfl
    · exact fun _ => rfl
  | upload data =>
    rw [kind] at apart
    refine ⟨order, sound.move sound.consistent (fun _ _ _ held => held) nofun ?_ ?_
      (fun _ _ => ⟨nofun, nofun⟩) (Or.inr fun other _ => apart rfl other)
      (fun _ => ⟨rfl, fun other _ => apart rfl other⟩) (fun _ => ⟨rfl, rfl⟩) ?_⟩
    · rw [kind]
      exact nofun
    · rw [unbegun, kind]
      rfl
    · rw [kind]
      exact nofun
  | write offset data | read offset | download =>
    refine ⟨order, sound.move sound.consistent (fun _ _ _ held => held) nofun ?_ ?_
      (fun _ _ => ⟨nofun, nofun⟩) (Or.inl rfl) ?_ ?_ ?_⟩
    · rw [kind]
      first | rfl | exact nofun
    · rw [unbegun, kind]
      rfl
    · rw [kind]
      intro waits
      cases waits
    · rintro ⟨other, -, waits⟩
      exact ⟨(sound.emptied other waits).1, rfl⟩
    · intro _ _ open_ idle
      refine sound.settled (fun other => ?_) fun other => ?_
      · by_cases mine : other = caller
        · rw [mine, ready, kind]
          rfl
        · exact open_ other mine
      · by_cases mine : other = caller
        · rw [mine, ready]
          rfl
        · exact idle other mine

omit [DecidableEq process] in
/-- A request begun has an answer due. -/
theorem Sound.due (sound : Sound request initial state order)
    (begun : (request caller).begun (state.phase caller) = true) :
    ∃ answer, (caller, answer) ∈ (serial request order initial).1 := by
  have listed := (sound.begun caller).mpr begun
  rw [← map_fst_inOrder (fun caller => (request caller).execute) order initial] at listed
  obtain ⟨⟨_, answer⟩, member, rfl⟩ := List.mem_map.mp listed
  exact ⟨answer, member⟩

/-- What the order leaves is what a request other than an upload finds under its lock. -/
theorem Sound.found (sound : Sound request initial state order)
    (opened : state.phase caller = .opened)
    (granted : state.locks.grantable caller (request caller).lockMode = true)
    (open_ : ∀ other, (request other).pending (state.phase other) = false) :
    state.content = (serial request order initial).2 := by
  by_cases idle : ∀ other, (state.phase other).busy = false
  · exact sound.settled open_ idle
  · -- somebody at work beside the caller only reads
    obtain ⟨other, working⟩ := not_forall.mp idle
    rw [Bool.not_eq_false] at working
    have apart : other ≠ caller := by
      rintro rfl
      rw [opened] at working
      cases working
    obtain ⟨answer, member⟩ := sound.due (FileRequest.begun_of_busy working)
    have shared := (LockTable.grantable_iff.mp granted other _
      (sound.holds other (FilePhase.held_of_busy working)) apart).1
    have reads := FileRequest.readsOnly_of_shared shared (sound.fits other)
    rw [← FilePhase.complete_readsOnly reads working state.content,
      (sound.onWay other answer member).1 working]

/-- Getting the lock, where no other upload waits for it with the file emptied. -/
theorem Sound.lock (sound : Sound request initial state order)
    (opened : state.phase caller = .opened)
    (granted : state.locks.grantable caller (request caller).lockMode = true)
    (apart : request caller ≠ .createFile →
      ∀ other, other ≠ caller → (request other).pending (state.phase other) = false) :
    ∃ order, Sound request initial ⟨state.content,
      state.locks.acquire caller (request caller).lockMode,
      Function.update state.phase caller (.begin_ (request caller))⟩ order := by
  have consistent := sound.consistent.acquire granted
  have kept : ∀ other, other ≠ caller → ∀ mode, (other, mode) ∈ state.locks →
      (other, mode) ∈ state.locks.acquire caller (request caller).lockMode :=
    fun other different mode held => LockTable.mem_acquire.mpr (Or.inr ⟨held, different⟩)
  have holds : (caller, (request caller).lockMode) ∈
      state.locks.acquire caller (request caller).lockMode :=
    LockTable.mem_acquire.mpr (Or.inl ⟨rfl, rfl⟩)
  -- whoever is at work beside a writer would hold a lock that hinders it
  have alone : (request caller).lockMode = .exclusive →
      ∀ other, other ≠ caller → (state.phase other).busy = false := by
    intro exclusive other different
    by_contra working
    rw [Bool.not_eq_false] at working
    have compatible := LockTable.grantable_iff.mp granted other _
      (sound.holds other (FilePhase.held_of_busy working)) different
    rw [exclusive] at compatible
    cases compatible.2
  by_cases create : request caller = .createFile
  · have phase : FilePhase.begin_ (request caller) = .closing := by rw [create]; rfl
    rw [phase]
    refine ⟨order, sound.move consistent kept (fun _ => holds) ?_ ?_ (fun _ _ => ⟨nofun, nofun⟩)
      (Or.inl rfl) ?_ ?_ ?_⟩
    · rw [create]
      rfl
    · rw [opened, create]
      rfl
    · rw [create]
      exact nofun
    · rintro ⟨other, -, waits⟩
      exact ⟨(sound.emptied other waits).1, rfl⟩
    · intro _ _ open_ idle
      refine sound.settled (fun other => ?_) fun other => ?_
      · by_cases mine : other = caller
        · rw [mine, opened, create]
          rfl
        · exact open_ other mine
      · by_cases mine : other = caller
        · rw [mine, opened]
          rfl
        · exact idle other mine
  · have working := FileRequest.busy_begin create
    have executed : (FilePhase.begin_ (request caller)).complete state.content =
        (request caller).execute (serial request order initial).2 := by
      by_cases waits : (request caller).pending (state.phase caller) = true
      · -- an upload finds the file as it emptied it, and does not depend on what was there
        rw [(sound.emptied caller waits).1]
        cases kind : request caller with
        | upload data =>
          rw [FilePhase.begin_, FilePhase.complete_receive]
          exact congrArg _ (writeAt_end [] data)
        | _ =>
          rw [opened, kind] at waits
          cases waits
      · rw [Bool.not_eq_true] at waits
        have open_ : ∀ other, (request other).pending (state.phase other) = false := by
          intro other
          by_cases mine : other = caller
          · rwa [mine]
          · exact apart create other mine
        rw [← sound.found opened granted open_]
        cases kind : request caller with
        | upload data =>
          rw [opened, kind] at waits
          cases waits
        | createFile => exact absurd kind create
        | write offset data | read offset | download => rfl
    refine ⟨order ++ [caller], sound.join consistent kept (fun _ => holds)
      (FileRequest.fits_begin _) ?_ (FileRequest.begun_of_busy working)
      ⟨fun _ => executed, ?_⟩ ?_ ?_ ?_ ?_⟩
    · rw [opened]
      cases kind : request caller with
      | createFile => exact absurd kind create
      | _ => rfl
    · intro given done
      rw [done] at working
      cases working
    · by_cases shared : (request caller).lockMode = .shared
      · refine Or.inl ⟨rfl, ?_⟩
        cases kind : request caller with
        | read offset =>
          simp only [FileRequest.execute]
          split <;> rfl
        | download => rfl
        | _ =>
          rw [kind] at shared
          cases shared
      · refine Or.inr (alone ?_)
        cases mode : (request caller).lockMode with
        | shared => exact absurd mode shared
        | exclusive => rfl
    · by_contra waits
      rw [Bool.not_eq_false] at waits
      rw [FileRequest.not_busy_of_pending waits] at working
      cases working
    · rintro ⟨other, different, waits⟩
      rw [apart create other different] at waits
      cases waits
    · intro idle
      rw [working] at idle
      cases idle

omit [DecidableEq process] in
/-- The answer a process is about to give is the one due. -/
theorem Sound.answers (sound : Sound request initial state order) {answer due : FileAnswer}
    (before : state.phase caller = .unlocking answer ∨
      state.phase caller = .closing ∧ answer = .success)
    (listed : (caller, due) ∈ (serial request order initial).1) : answer = due := by
  rcases before with phase | ⟨phase, rfl⟩
  · have onWay := sound.onWay caller due listed
    rw [phase] at onWay
    exact (Prod.mk.inj (onWay.1 rfl)).1
  · obtain ⟨found, same⟩ := mem_inOrder listed
    have create := FileRequest.createFile_of_closing (phase ▸ sound.fits caller)
    simpa [create, FileRequest.execute] using same.symm

/-- Giving up the lock. -/
theorem Sound.unlock (sound : Sound request initial state order) {answer : FileAnswer}
    (before : state.phase caller = .unlocking answer ∨
      state.phase caller = .closing ∧ answer = .success) :
    Sound request initial ⟨state.content, state.locks.release caller,
      Function.update state.phase caller (.finished answer)⟩ order := by
  have begun : (request caller).begun (state.phase caller) = true := by
    rcases before with phase | ⟨phase, -⟩ <;> rw [phase] <;> cases request caller <;> rfl
  have mine : (request caller).pending (state.phase caller) = false := by
    rcases before with phase | ⟨phase, -⟩ <;> rw [phase] <;> cases request caller <;> rfl
  refine sound.move (sound.consistent.release caller)
    (fun other different mode held => LockTable.mem_release.mpr ⟨held, different⟩) nofun ?_ ?_ ?_
    (Or.inl rfl) ?_ ?_ ?_
  · cases request caller with
    | upload data | write offset data => exact nofun
    | _ => rfl
  · rw [begun]
    cases request caller <;> rfl
  · intro due listed
    refine ⟨nofun, fun given done => ?_⟩
    cases done
    exact sound.answers before listed
  · cases request caller <;> exact nofun
  · rintro ⟨other, -, waits⟩
    exact ⟨(sound.emptied other waits).1, rfl⟩
  · intro _ _ open_ idle
    rcases before with phase | ⟨phase, -⟩
    · obtain ⟨due, listed⟩ := sound.due begun
      have onWay := sound.onWay caller due listed
      rw [phase] at onWay
      exact (Prod.mk.inj (onWay.1 rfl)).2
    · refine sound.settled (fun other => ?_) fun other => ?_
      · by_cases same : other = caller
        · rwa [same]
        · exact open_ other same
      · by_cases same : other = caller
        · rw [same, phase]
          rfl
        · exact idle other same

/-- A call made under the lock. -/
theorem Sound.work (sound : Sound request initial state order) {more : Nat}
    {phase : FilePhase} {content : List UInt8}
    (step : (state.phase caller).advance more state.content = some (phase, content)) :
    Sound request initial ⟨content, state.locks, Function.update state.phase caller phase⟩
      order := by
  obtain ⟨working, still, reads⟩ := FilePhase.busy_advance step
  have held := sound.holds caller (FilePhase.held_of_busy working)
  refine sound.move sound.consistent (fun _ _ _ held => held) (fun _ => held)
    (FileRequest.fits_advance (sound.fits caller) step) ?_ ?_ ?_ ?_ ?_ ?_
  · rw [FileRequest.begun_of_busy working, FileRequest.begun_of_busy still]
  · intro answer listed
    refine ⟨fun _ => ?_, fun given done => ?_⟩
    · rw [FilePhase.complete_advance step]
      exact (sound.onWay caller answer listed).1 working
    · rw [done] at still
      cases still
  · -- a reader changes nothing, a writer is at work alone
    cases mode : (request caller).lockMode with
    | shared =>
      exact Or.inl (reads (FileRequest.readsOnly_of_shared mode (sound.fits caller))).2
    | exclusive =>
      rw [mode] at held
      refine Or.inr fun other different => ?_
      by_contra busy
      rw [Bool.not_eq_false] at busy
      exact different (sound.consistent.exclusive held
        ⟨_, sound.holds other (FilePhase.held_of_busy busy)⟩)
  · intro waits
    rw [FileRequest.not_busy_of_pending waits] at still
    cases still
  · rintro ⟨other, -, waits⟩
    rw [(sound.emptied other waits).2 caller] at working
    cases working
  · intro _ idle
    rw [still] at idle
    cases idle

/-- A step of a process, where it keeps apart from the others. -/
theorem Sound.next (sound : Sound request initial state order) {more : Nat}
    (separated : Separated request state (caller, more))
    (step : state.next request (caller, more) = some after) :
    ∃ order, Sound request initial after order := by
  simp only [FileState.next, enter] at step
  simp only [Separated] at separated
  cases phase : state.phase caller with
  | ready =>
    rw [phase] at step separated
    cases step
    exact sound.open_ phase separated
  | opened =>
    rw [phase] at step separated
    simp only at step
    split at step
    · rename_i granted
      cases step
      exact sound.lock phase granted separated
    · cases step
  | closing =>
    rw [phase] at step
    cases step
    exact ⟨order, sound.unlock (Or.inr ⟨phase, rfl⟩)⟩
  | unlocking answer =>
    rw [phase] at step
    cases step
    exact ⟨order, sound.unlock (Or.inl phase)⟩
  | finished answer =>
    rw [phase] at step
    cases step
  | _ =>
    rw [phase] at step
    obtain ⟨⟨entered, content⟩, taken, rfl⟩ := Option.map_eq_some_iff.mp step
    exact ⟨order, sound.work (phase.symm ▸ taken)⟩

end Steps

omit [DecidableEq process] in
/-- Nobody has begun. -/
theorem sound_start (request : process → FileRequest) (initial : List UInt8) :
    Sound request initial (start initial) [] where
  consistent := LockTable.consistent_nil
  holds _ := nofun
  fits caller := by
    simp only [start]
    cases request caller <;> first | rfl | exact nofun
  nodup := List.nodup_nil
  begun caller := by
    simp only [start]
    cases request caller <;> simp [FileRequest.begun]
  onWay _ _ := nofun
  emptied caller := by
    simp only [start]
    cases request caller <;> exact nofun
  settled _ _ := rfl

/-- Requests none of which empties the file under another one's lock, or gets its lock while an
upload has emptied the file and still waits, have the effect of the same requests executed one
after the other. -/
theorem serializable_of_separated (request : process → FileRequest) (initial : List UInt8)
    (schedule : List (process × Nat)) (state : FileState process)
    (separated : StepsMeet (next request) (Separated request) (start initial) schedule)
    (run : runFrom (next request) (start initial) schedule = some state)
    (served : ∀ caller, state.phase caller = .ready ∨
      ∃ answer, state.phase caller = .finished answer) :
    Serializable request initial state := by
  have kept : ∃ order, Sound request initial state order := by
    refine run_invariant_of_meets (fun state => ∃ order, Sound request initial state order) ?_
      ⟨[], sound_start request initial⟩ separated run
    rintro state ⟨caller, more⟩ after ⟨order, sound⟩ apart step
    exact sound.next apart step
  obtain ⟨order, sound⟩ := kept
  refine ⟨order, sound.nodup, fun caller => ?_, fun caller answer listed => ?_, ?_⟩
  · rw [sound.begun caller]
    rcases served caller with ready | ⟨answer, finished⟩
    · simp [ready, FileRequest.begun]
    · rw [finished]
      cases request caller <;> simp [FileRequest.begun]
  · have begun : (request caller).begun (state.phase caller) = true := by
      rw [← sound.begun caller]
      have member := List.mem_map_of_mem (f := Prod.fst) listed
      rwa [serial, map_fst_inOrder] at member
    rcases served caller with ready | ⟨given, finished⟩
    · simp [ready, FileRequest.begun] at begun
    · rw [finished, (sound.onWay caller answer listed).2 given finished]
  · refine (sound.settled (fun caller => ?_) fun caller => ?_).symm
    · rcases served caller with phase | ⟨answer, phase⟩ <;>
        rw [phase] <;> cases request caller <;> rfl
    · rcases served caller with phase | ⟨answer, phase⟩ <;> rw [phase] <;> rfl

/-- An upload in two writes, and a download of the same file. -/
def uploadAndDownload (first : Bool) : FileRequest :=
  if first then .upload (str "new text") else .download

/-- The download opens the file during the upload and waits for its lock. -/
def downloadWaits : List (Bool × Nat) :=
  [(true, 0), (true, 0), (false, 0), (true, 2), (true, 9), (true, 0), (false, 0), (false, 0),
    (false, 0), (false, 0), (false, 0)]

/-- The download returns what the upload has written. -/
theorem serializable_downloadWaits :
    ∃ state, runFrom (next uploadAndDownload) (start (str "old")) downloadWaits = some state ∧
      state.phase false = .finished ⟨0, 8, str "new text"⟩ ∧
      Serializable uploadAndDownload (str "old") state :=
  ⟨_, rfl, rfl, serializable_of_separated uploadAndDownload (str "old") downloadWaits _
    (by decide +kernel) rfl (by rintro (_ | _) <;> exact Or.inr ⟨_, rfl⟩)⟩

/-- Two uploads of different lengths. -/
def twoUploads (first : Bool) : FileRequest :=
  if first then .upload (str "longer") else .upload (str "xy")

/-- Both open the file before either has the lock. -/
def openedTogether : List (Bool × Nat) :=
  [(true, 0), (false, 0), (true, 0), (true, 9), (true, 0), (false, 0), (false, 9), (false, 0)]

/-- The shorter upload leaves the end of the longer one in the file. -/
theorem not_serializable_openedTogether :
    ∃ state, runFrom (next twoUploads) (start []) openedTogether = some state ∧
      (∀ caller, state.phase caller = .finished .success) ∧
      state.content = str "xynger" ∧ ¬ Serializable twoUploads [] state := by
  refine ⟨_, rfl, by decide +kernel, by decide +kernel, ?_⟩
  rintro ⟨order, nodup, members, -, final⟩
  have both : order.Perm [true, false] := by
    refine (List.perm_ext_iff_of_nodup nodup (by decide)).mpr fun caller => ?_
    rw [members]
    revert caller
    decide +kernel
  -- whichever upload comes second decides the content
  obtain ⟨one, two, rfl⟩ := List.length_eq_two.mp both.length_eq
  revert nodup final
  cases one <;> cases two <;> decide +kernel

end FileState

end FileServer
