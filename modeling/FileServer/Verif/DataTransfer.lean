import FileServer.Lib.Run
import FileServer.Model.DataTransfer

/-!
# Transfers that are reported as concluded

In the order of their positions, the bytes of a transfer are where they were sent from, in a
socket, held by a process, or where they are sent to. An invariant says so for every step of an
upload and of a download; it decides when the report of success means that every byte has
arrived.
-/
namespace FileServer

open FileServer.Lib

/-- What the process of the server has read and not yet written. -/
def ChildPhase.held {κ : Type} (loop : κ → CopyLoop) : ChildPhase κ → List UInt8
  | copying progress => (loop progress).held
  | _ => []

/-- The process of the server is in its copying loop, or just behind it. -/
def ChildPhase.begun {κ : Type} : ChildPhase κ → Bool
  | copying _ | concluding => true
  | _ => false

/-- Outside the copying loop nothing is held. -/
theorem ChildPhase.held_of_begun {κ : Type} {loop : κ → CopyLoop} {child : ChildPhase κ}
    (outside : child.begun = false) : child.held loop = [] := by
  cases child with
  | copying progress => cases outside
  | _ => rfl

namespace HelperPhase

/-- What the helper has read and not yet written. -/
def held : HelperPhase → List UInt8
  | copying _ loop => loop.held
  | _ => []

/-- The helper has not written its response. -/
def early : HelperPhase → Bool
  | idle | opening | locking | measuring | responding _ | refusing => true
  | _ => false

/-- The helper of an upload has emptied the file and not yet written to it. -/
def emptied : HelperPhase → Bool
  | locking | responding _ => true
  | _ => false

/-- The copying loop of the helper is over. -/
def late : HelperPhase → Bool
  | unlocking | finished => true
  | _ => false

end HelperPhase

/-- A call of a copying loop fails. -/
def UploadLabel.breaks : UploadLabel → Bool
  | child (.copy call) | helper (.copy call) => call.fails
  | _ => false

namespace Upload

/-- Where the bytes of an upload are. -/
structure Sound (file : SharedFile) (upload : Upload) : Prop where
  /-- The helper is asked once a data connection is accepted. -/
  begins : upload.child = .accepting → upload.helper = .idle
  /-- The process of the server copies after a response with status 0. -/
  answered : upload.child.begun = true ∨ upload.message = some 0 → upload.response = some 0
  /-- The helper has not responded in its first phases. -/
  silent : upload.helper.early = true → upload.response = none
  /-- Nothing moves before the response. -/
  waits : upload.response = none →
    upload.toHelper.buffered = [] ∧ upload.fromClient.buffered = upload.sent
  /-- The file is empty before the helper writes to it. -/
  empty : upload.helper.emptied = true → file.content = []
  /-- After the response every byte that the client has sent is somewhere. -/
  flow : upload.response = some 0 →
    file.content ++ (upload.helper.held ++ (upload.toHelper.buffered ++
      (upload.child.held id ++ upload.fromClient.buffered))) = upload.sent
  /-- The helper writes at the end of the file. -/
  position : ∀ position loop, upload.helper = .copying position loop →
    position = file.content.length ∧ upload.response = some 0
  /-- The helper copies until the connection is closed and read to its end. -/
  drained : upload.response = some 0 → upload.helper.late = true →
    upload.toHelper.buffered = [] ∧ upload.toHelper.closed = true
  /-- The connection to the helper is closed last. -/
  closes : upload.toHelper.closed = true → upload.child = .ended
  /-- The process of the server copies until the client is done. -/
  ends : upload.child = .concluding ∨ upload.message = some 0 →
    upload.fromClient.buffered = [] ∧ upload.fromClient.closed = true
  /-- The last message is sent at the end. -/
  last : upload.message ≠ none → upload.child = .closing ∨ upload.child = .ended

/-- An upload that has not begun. -/
theorem sound_start (file : SharedFile) : Sound file start := by
  constructor <;> simp [start, Stream.fresh, ChildPhase.begun, HelperPhase.emptied,
    HelperPhase.late]

/-- The client may send more or close. -/
theorem Sound.client {file : SharedFile} {upload : Upload} (sound : Sound file upload)
    (open_ : upload.fromClient.closed = false) (bytes : List UInt8) :
    Sound file { upload with
      sent := upload.sent ++ bytes, fromClient := upload.fromClient.give bytes } ∧
    Sound file { upload with fromClient := upload.fromClient.close } := by
  obtain ⟨begins, answered, silent, waits, empty, flow, position, drained, closes, ends, last⟩ :=
    sound
  have copies : ¬ (upload.child = .concluding ∨ upload.message = some 0) := by
    intro concluded
    rw [(ends concluded).2] at open_
    cases open_
  constructor
  · refine ⟨begins, answered, silent, ?_, empty, ?_, position, drained, closes,
      fun concluded => absurd concluded copies, last⟩
    · intro unanswered
      obtain ⟨none, all⟩ := waits unanswered
      exact ⟨none, congrArg (· ++ bytes) all⟩
    · intro success
      rw [← flow success]
      simp only [Stream.give, List.append_assoc]
  · exact ⟨begins, answered, silent, waits, empty, flow, position, drained, closes,
      fun concluded => absurd concluded copies, last⟩

/-- The process of the server goes on outside its loop, perhaps with its last message. -/
theorem Sound.outside {file : SharedFile} {upload : Upload} (sound : Sound file upload)
    {child : ChildPhase CopyLoop} {message : Option Int32}
    (from_ : upload.child.held id = []) (to_ : child.begun = false) (on : child ≠ .accepting)
    (closed : upload.toHelper.closed = true → child = .ended)
    (said : message = some 0 → upload.child = .concluding ∨ upload.message = some 0)
    (last : message ≠ none → child = .closing ∨ child = .ended) :
    Sound file { upload with child, message } := by
  have outside : child.held id = [] := ChildPhase.held_of_begun to_
  have concluded : child.begun = true ∨ message = some 0 →
      upload.child = .concluding ∨ upload.message = some 0 := by
    rintro (begun | success)
    · rw [to_] at begun
      cases begun
    · exact said success
  refine ⟨fun accepting => absurd accepting on, fun either => ?_, sound.silent, sound.waits,
    sound.empty, fun success => ?_, sound.position, sound.drained, closed, fun either => ?_, last⟩
  · refine sound.answered ((concluded either).imp_left fun concluding => ?_)
    rw [concluding]
    rfl
  · have flow := sound.flow success
    rw [from_] at flow
    rw [outside]
    exact flow
  · refine sound.ends (concluded (either.imp_left fun concluding => ?_))
    rw [show child = .concluding from concluding]
    rfl

/-- A process of the server that is not behind its last message has sent none. -/
theorem Sound.unsaid {file : SharedFile} {upload : Upload} (sound : Sound file upload)
    (closing : upload.child ≠ .closing) (ended : upload.child ≠ .ended) :
    upload.message = none := by
  by_contra said
  rcases sound.last said with same | same
  · exact closing same
  · exact ended same

/-- A call of the copying loop of the server that does not fail. -/
theorem Sound.childCopies {file : SharedFile} {upload : Upload} {loop : CopyLoop} {call : CopyCall}
    {moved : CopyStep} (sound : Sound file upload) (copies : upload.child = .copying loop)
    (made : loop.next bufferSize upload.fromClient.buffered upload.fromClient.closed call = some moved)
    (succeeds : call.fails = false) :
    Sound file { upload with
      child := if moved.loop = .stopped then .concluding else .copying moved.loop
      fromClient := upload.fromClient.take moved.taken
      toHelper := upload.toHelper.give moved.given } := by
  obtain ⟨child, helper, sent, fromClient, toHelper, response, message⟩ := upload
  obtain rfl : child = .copying loop := copies
  have made : loop.next bufferSize fromClient.buffered fromClient.closed call = some moved := made
  have sound_ := sound
  obtain ⟨begins, answered, silent, waits, empty, flow, position, drained, closes, ends, last⟩ :=
    sound_
  have conserves := CopyLoop.next_conserves made succeeds
  have stopped := CopyLoop.next_over made succeeds
  have success : response = some 0 := answered (.inl rfl)
  have held : (if moved.loop = .stopped then ChildPhase.concluding
      else .copying moved.loop).held id = moved.loop.held := by
    split
    · rename_i ended
      rw [ended]
      rfl
    · rfl
  have alive : toHelper.closed = false := by
    rw [Bool.eq_false_iff]
    intro closed
    cases closes closed
  have unsaid : message = none := by
    by_contra said
    rcases last said with closing | ended
    · cases closing
    · cases ended
  refine ⟨fun accepting => ?_, fun _ => success, silent, fun unanswered => ?_, empty, fun _ => ?_,
    position, fun _ late => ?_, fun closed => ?_, fun concluded => ?_, fun said => ?_⟩
  · split at accepting <;> cases accepting
  · rw [show response = none from unanswered] at success
    cases success
  · rw [held, ← flow success]
    simp only [Stream.give, Stream.take, ChildPhase.held, id, List.append_assoc, conserves]
  · rw [(drained success late).2] at alive
    cases alive
  · rw [show toHelper.closed = true from closed] at alive
    cases alive
  · have ended : moved.loop = .stopped := by
      rcases concluded with concluding | success
      · by_contra goes
        rw [if_neg goes] at concluding
        cases concluding
      · rw [show message = some 0 from success] at unsaid
        cases unsaid
    obtain ⟨-, -, none, closed⟩ := stopped ended
    exact ⟨by simp [Stream.take, none], closed⟩
  · exact absurd unsaid said

/-- The process of the server reads the response. -/
theorem Sound.receives {file : SharedFile} {upload : Upload} {status : Int32}
    (sound : Sound file upload) (waiting : upload.child = .waiting)
    (arrived : upload.response = some status) :
    Sound file { upload with child := if status = 0 then .copying .reading else .refusing } := by
  obtain ⟨child, helper, sent, fromClient, toHelper, response, message⟩ := upload
  obtain rfl : child = .waiting := waiting
  have sound_ := sound
  obtain ⟨begins, answered, silent, waits, empty, flow, position, drained, closes, ends, last⟩ :=
    sound_
  have unsaid : message = none := sound.unsaid (by simp) (by simp)
  split
  · rename_i zero
    subst zero
    have success : response = some 0 := arrived
    refine ⟨nofun, fun _ => success, silent, waits, empty, flow,
      position, drained, fun closed => (nomatch closes closed), fun concluded => ?_,
      fun said => absurd unsaid said⟩
    rcases concluded with concluding | said
    · cases concluding
    · rw [show message = some 0 from said] at unsaid
      cases unsaid
  · exact sound.outside rfl rfl (by simp) (fun closed => nomatch closes closed) .inr
      fun said => absurd unsaid said

/-- A data connection is accepted. -/
theorem Sound.accepts {file : SharedFile} {upload : Upload} (sound : Sound file upload)
    (accepting : upload.child = .accepting) :
    Sound file { upload with child := .waiting, helper := .opening } := by
  obtain ⟨child, helper, sent, fromClient, toHelper, response, message⟩ := upload
  obtain rfl : child = .accepting := accepting
  have closes := sound.closes
  have unsaid : message = none := sound.unsaid (by simp) (by simp)
  have idle : helper = .idle := sound.begins rfl
  subst idle
  have moved : Sound file ⟨.waiting, .idle, sent, fromClient, toHelper, response, message⟩ :=
    sound.outside rfl rfl (by simp) (fun closed => nomatch closes closed) .inr
      fun said => absurd unsaid said
  obtain ⟨-, answered, silent, waits, -, flow, -, -, closes, ends, last⟩ := moved
  exact ⟨nofun, answered, fun _ => silent rfl, waits,
    nofun, flow, nofun,
    nofun, closes, ends, last⟩

/-- The connection to the helper is closed. -/
theorem Sound.disconnects {file : SharedFile} {upload : Upload} (sound : Sound file upload)
    (closing : upload.child = .closing) :
    Sound file { upload with child := .ended, toHelper := upload.toHelper.close } := by
  obtain ⟨child, helper, sent, fromClient, toHelper, response, message⟩ := upload
  obtain rfl : child = .closing := closing
  have moved : Sound file ⟨.ended, helper, sent, fromClient, toHelper, response, message⟩ :=
    sound.outside rfl rfl (by simp) (fun _ => rfl) .inr fun _ => .inr rfl
  obtain ⟨-, answered, silent, waits, empty, flow, position, drained, -, ends, last⟩ := moved
  exact ⟨nofun, answered, silent, waits, empty, flow, position,
    fun success late => ⟨(drained success late).1, rfl⟩, fun _ => rfl, ends, last⟩

/-- A call of the process of the server. -/
theorem Sound.child {file : SharedFile} {upload after : Upload} {call : ChildCall}
    (sound : Sound file upload) (succeeds : ∀ copy, call = .copy copy → copy.fails = false)
    (step : upload.nextChild call = some after) : Sound file after := by
  obtain ⟨child, helper, sent, fromClient, toHelper, response, message⟩ := upload
  have closes := sound.closes
  unfold nextChild at step
  cases child <;> cases call <;>
    simp only [Option.some.injEq, reduceCtorEq, Option.map_eq_some_iff] at step
  case copying.copy loop call =>
    obtain ⟨moved, made, rfl⟩ := step
    exact sound.childCopies rfl made (succeeds _ rfl)
  case waiting.receive =>
    obtain ⟨status, arrived, rfl⟩ := step
    exact sound.receives rfl arrived
  case accepting.accept =>
    subst step
    exact sound.accepts rfl
  case closing.close =>
    subst step
    exact sound.disconnects rfl
  case accepting.acceptFails | accepting.requestFails | waiting.receiveFails =>
    subst step
    have unsaid : message = none := sound.unsaid (by simp) (by simp)
    exact sound.outside rfl rfl (by simp) (fun closed => nomatch closes closed) .inr
      fun said => absurd unsaid said
  case concluding.report =>
    subst step
    exact sound.outside rfl rfl (by simp) (fun closed => nomatch closes closed)
      (fun _ => .inl rfl) fun _ => .inl rfl
  case refusing.report =>
    subst step
    exact sound.outside rfl rfl (by simp) (fun closed => nomatch closes closed)
      nofun fun _ => .inl rfl

/-- The helper goes on before its response. -/
theorem Sound.early {file other : SharedFile} {upload : Upload} (sound : Sound file upload)
    {helper : HelperPhase} (begun : upload.helper ≠ .idle) (from_ : upload.helper.early = true)
    (to_ : helper.early = true) (empty : helper.emptied = true → other.content = []) :
    Sound other { upload with helper } := by
  have unanswered := sound.silent from_
  refine ⟨fun accepting => absurd (sound.begins accepting) begun, sound.answered,
    fun _ => unanswered, sound.waits, empty, fun success => ?_, fun place loop copying => ?_,
    fun success => ?_, sound.closes, sound.ends, sound.last⟩
  · rw [show upload.response = some 0 from success] at unanswered
    cases unanswered
  · rw [show helper = _ from copying] at to_
    cases to_
  · rw [show upload.response = some 0 from success] at unanswered
    cases unanswered

/-- The helper gives up without a response, or with one that is not a success. -/
theorem Sound.gives_up {file : SharedFile} {upload : Upload} (sound : Sound file upload)
    {response : Option Int32} (begun : upload.helper ≠ .idle)
    (from_ : upload.helper.early = true) (fails : response ≠ some 0) :
    Sound file { upload with helper := .unlocking, response } := by
  have unanswered := sound.silent from_
  refine ⟨fun accepting => absurd (sound.begins accepting) begun, fun runs => ?_, nofun,
    fun _ => sound.waits unanswered, nofun, fun success => absurd success fails, nofun,
    fun success => absurd success fails, sound.closes, sound.ends, sound.last⟩
  have success := sound.answered runs
  rw [unanswered] at success
  cases success

/-- A call of the copying loop of the helper that does not fail. -/
theorem Sound.helperCopies {file : SharedFile} {upload : Upload} {place : Nat} {loop : CopyLoop}
    {call : CopyCall} {moved : CopyStep} (sound : Sound file upload)
    (copies : upload.helper = .copying place loop)
    (made : loop.next bufferSize upload.toHelper.buffered upload.toHelper.closed call = some moved)
    (succeeds : call.fails = false) :
    Sound { file with content := writeAt file.content place moved.given } { upload with
      helper := if moved.loop = .stopped then .unlocking
        else .copying (place + moved.given.length) moved.loop
      toHelper := upload.toHelper.take moved.taken } := by
  obtain ⟨child, helper, sent, fromClient, toHelper, response, message⟩ := upload
  obtain rfl : helper = .copying place loop := copies
  have made : loop.next bufferSize toHelper.buffered toHelper.closed call = some moved := made
  have sound_ := sound
  obtain ⟨begins, answered, silent, waits, empty, flow, position, drained, closes, ends, last⟩ :=
    sound_
  have conserves := CopyLoop.next_conserves made succeeds
  have stopped := CopyLoop.next_over made succeeds
  obtain ⟨place_, success⟩ := position place loop rfl
  have place_ : place = file.content.length := place_
  have success : response = some 0 := success
  have held : (if moved.loop = .stopped then HelperPhase.unlocking
      else .copying (place + moved.given.length) moved.loop).held = moved.loop.held := by
    split
    · rename_i ended
      rw [ended]
      rfl
    · rfl
  subst place_
  refine ⟨fun accepting => ?_, answered, fun early => ?_, fun unanswered => ?_, fun emptied => ?_,
    fun _ => ?_, fun place loop copying => ?_, fun _ late => ?_, closes, ends, last⟩
  · cases begins accepting
  · split at early <;> cases early
  · rw [show response = none from unanswered] at success
    cases success
  · split at emptied <;> cases emptied
  · rw [held, writeAt_end, ← flow success]
    have moves := congrArg (· ++ (child.held id ++ fromClient.buffered)) conserves
    simp only [List.append_assoc] at moves
    simp only [Stream.take, HelperPhase.held, List.append_assoc, moves]
  · split at copying
    · cases copying
    · obtain ⟨rfl, rfl⟩ := HelperPhase.copying.inj copying
      exact ⟨by rw [writeAt_end, List.length_append], success⟩
  · have ended : moved.loop = .stopped := by
      by_contra goes
      rw [if_neg goes] at late
      cases late
    obtain ⟨-, -, none, closed⟩ := stopped ended
    exact ⟨by simp [Stream.take, none], closed⟩

/-- The helper responds with success. -/
theorem Sound.responds {file : SharedFile} {upload : Upload} {payloadLen : UInt32}
    (sound : Sound file upload) (responding : upload.helper = .responding payloadLen) :
    Sound file { upload with helper := .copying 0 .reading, response := some 0 } := by
  obtain ⟨child, helper, sent, fromClient, toHelper, response, message⟩ := upload
  obtain rfl : helper = .responding payloadLen := responding
  have sound_ := sound
  obtain ⟨begins, answered, silent, waits, empty, flow, position, drained, closes, ends, last⟩ :=
    sound_
  have unanswered : response = none := silent rfl
  have copies : child.begun = false := by
    rw [Bool.eq_false_iff]
    intro begun
    rw [show response = some 0 from answered (.inl begun)] at unanswered
    cases unanswered
  have held : child.held id = [] := ChildPhase.held_of_begun copies
  obtain ⟨none, all⟩ := waits unanswered
  have nothing : file.content = [] := empty rfl
  refine ⟨fun accepting => (nomatch begins accepting), fun _ => rfl, nofun, nofun, nofun,
    fun _ => ?_, fun place loop copying => ?_, nofun, closes, ends, last⟩
  · show file.content ++ ([] ++ (toHelper.buffered ++ (child.held id ++ fromClient.buffered))) =
      sent
    rw [nothing, show toHelper.buffered = [] from none, held]
    exact all
  · obtain ⟨rfl, rfl⟩ := HelperPhase.copying.inj copying
    exact ⟨(congrArg List.length nothing).symm, rfl⟩

/-- A call of the helper process. -/
theorem Sound.helper {file written : SharedFile} {upload after : Upload} {action : HelperAction}
    (sound : Sound file upload) (succeeds : ∀ copy, action = .copy copy → copy.fails = false)
    (step : upload.nextHelper file action = some (written, after)) : Sound written after := by
  obtain ⟨child, helper, sent, fromClient, toHelper, response, message⟩ := upload
  have sound_ := sound
  obtain ⟨begins, answered, silent, waits, empty, flow, position, drained, closes, ends, last⟩ :=
    sound_
  unfold nextHelper at step
  cases helper <;> cases action <;>
    simp only [Option.some.injEq, reduceCtorEq, Option.map_eq_some_iff,
      Option.ite_none_right_eq_some, Prod.mk.injEq] at step
  case copying.copy place loop call =>
    obtain ⟨moved, made, rfl, rfl⟩ := step
    exact sound.helperCopies rfl made (succeeds _ rfl)
  case responding.proceed =>
    obtain ⟨rfl, rfl⟩ := step
    exact sound.responds rfl
  case opening.proceed =>
    obtain ⟨rfl, rfl⟩ := step
    exact sound.early (by simp) rfl rfl fun _ => rfl
  case locking.proceed =>
    obtain ⟨granted, rfl, rfl⟩ := step
    exact sound.early (by simp) rfl rfl fun _ => empty rfl
  case opening.fail | locking.fail =>
    obtain ⟨rfl, rfl⟩ := step
    exact sound.early (by simp) rfl rfl nofun
  case responding.fail | refusing.fail =>
    obtain ⟨rfl, rfl⟩ := step
    have unanswered : response = none := silent rfl
    exact sound.gives_up (by simp) rfl (by simp [unanswered])
  case refusing.proceed =>
    obtain ⟨rfl, rfl⟩ := step
    exact sound.gives_up (by simp) rfl (by decide)
  case unlocking.proceed | unlocking.fail =>
    obtain ⟨rfl, rfl⟩ := step
    exact ⟨fun accepting => (nomatch begins accepting), answered, nofun, waits, nofun, flow, nofun,
      fun success _ => drained success rfl, closes, ends, last⟩

/-- Every step in which no call of a copying loop fails. -/
theorem Sound.next {file written : SharedFile} {upload after : Upload} {label : UploadLabel}
    (sound : Sound file upload) (whole : label.breaks = false)
    (step : upload.next file label = some (written, after)) : Sound written after := by
  cases label with
  | send bytes =>
    rw [Upload.next, Option.ite_none_left_eq_some, Option.some.injEq, Prod.mk.injEq] at step
    obtain ⟨open_, rfl, rfl⟩ := step
    exact (sound.client (Bool.eq_false_iff.mpr open_) bytes).1
  | hangUp =>
    rw [Upload.next, Option.ite_none_left_eq_some, Option.some.injEq, Prod.mk.injEq] at step
    obtain ⟨open_, rfl, rfl⟩ := step
    exact (sound.client (Bool.eq_false_iff.mpr open_) []).2
  | child call =>
    obtain ⟨state, stepped, same⟩ := Option.map_eq_some_iff.mp step
    obtain ⟨rfl, rfl⟩ := Prod.mk.inj same
    refine sound.child (fun copy copies => ?_) stepped
    rw [copies] at whole
    exact whole
  | helper action =>
    refine sound.helper (fun copy copies => ?_) step
    rw [copies] at whole
    exact whole

/-- Once the helper is done, the file holds what the client has sent when success is
reported. -/
theorem Sound.whole {file : SharedFile} {upload : Upload} (sound : Sound file upload)
    (concluded : upload.message = some 0) (finished : upload.helper = .finished) :
    file.content = upload.sent := by
  have success := sound.answered (.inr concluded)
  have moved : upload.child.held id = [] := by
    rcases sound.last (by rw [concluded]; simp) with closing | ended
    · rw [closing]
      rfl
    · rw [ended]
      rfl
  have none := (sound.drained success (by rw [finished]; rfl)).1
  have all := sound.flow success
  rw [finished, none, moved, (sound.ends (.inr concluded)).1] at all
  simpa [HelperPhase.held] using all

end Upload

/-- The process of the server leaves its copying loop early. -/
def DownloadLabel.breaks : DownloadLabel → Bool
  | child (.copy call) => call.fails || call = .readEnd
  | _ => false

namespace Download

/-- Where the bytes of a download are. -/
structure Sound (content : List UInt8) (download : Download) : Prop where
  /-- The helper is asked once a data connection is accepted. -/
  begins : download.child = .accepting → download.helper = .idle
  /-- The process of the server copies after a response with status 0. -/
  answered : download.child.begun = true ∨ download.message = some 0 →
    ∃ payloadLen, download.response = some (0, payloadLen)
  /-- The helper has not responded in its first phases. -/
  silent : download.helper.early = true → download.response = none
  /-- Nothing moves before the response. -/
  waits : download.response = none → download.toServer.buffered = [] ∧ download.delivered = []
  /-- Nothing is delivered before the response is read. -/
  untouched : download.child = .accepting ∨ download.child = .waiting → download.delivered = []
  /-- The response announces the size of the file, cut to 32 bits. -/
  measured : ∀ payloadLen, download.helper = .responding payloadLen ∨
    download.response = some (0, payloadLen) → payloadLen = UInt32.ofNat content.length
  /-- After the response every byte of the file is somewhere. -/
  flow : ∀ payloadLen, download.response = some (0, payloadLen) → ∃ rest,
    download.delivered ++ (download.child.held Prod.snd ++ (download.toServer.buffered ++ rest)) =
        content ∧
      ∀ position loop, download.helper = .copying position loop →
        rest = loop.held ++ content.drop position
  /-- The helper reads the file after its response. -/
  position : ∀ position loop, download.helper = .copying position loop →
    ∃ payloadLen, download.response = some (0, payloadLen)
  /-- The process of the server counts the bytes that it still has to read. -/
  counted : ∀ left loop payloadLen, download.child = .copying (left, loop) →
    download.response = some (0, payloadLen) →
      download.delivered.length + loop.held.length + left = payloadLen.toNat
  /-- It is done when it has written as many as were announced. -/
  ends : download.child = .concluding ∨ download.message = some 0 → ∀ payloadLen,
    download.response = some (0, payloadLen) → download.delivered.length = payloadLen.toNat
  /-- The last message is sent at the end. -/
  last : download.message ≠ none → download.child = .closing ∨ download.child = .ended

/-- A download that has not begun. -/
theorem sound_start (content : List UInt8) : Sound content start := by
  constructor <;> simp [start, Stream.fresh, ChildPhase.begun]

/-- What the process of the server holds at the head of its loop. -/
theorem held_head (left : Nat) : (head left).held Prod.snd = [] := by
  unfold head
  split
  · rfl
  · rfl

/-- What the process of the server holds after a call. -/
theorem held_proceed (left : Nat) (loop : CopyLoop) :
    (proceed left loop).held Prod.snd = loop.held := by
  cases loop with
  | reading => exact held_head left
  | writing block => rfl
  | stopped => rfl

/-- After a call the process of the server has begun to copy. -/
theorem begun_proceed (left : Nat) (loop : CopyLoop) : (proceed left loop).begun = true := by
  cases loop with
  | reading =>
    show (head left).begun = true
    unfold head
    split
    · rfl
    · rfl
  | writing block => rfl
  | stopped => rfl

/-- After a call the loop goes on, or is done. -/
theorem proceed_cases (left : Nat) (loop : CopyLoop) :
    proceed left loop = .copying (left, loop) ∨
      (proceed left loop = .concluding ∧ (loop = .stopped ∨ (left = 0 ∧ loop = .reading))) := by
  cases loop with
  | reading =>
    by_cases done : left = 0
    · exact .inr ⟨if_pos done, .inr ⟨done, rfl⟩⟩
    · exact .inl (if_neg done)
  | writing block => exact .inl rfl
  | stopped => exact .inr ⟨rfl, .inl rfl⟩

/-- The process of the server goes on outside its loop, perhaps with its last message. -/
theorem Sound.outside {content : List UInt8} {download : Download}
    (sound : Sound content download) {child : ChildPhase (Nat × CopyLoop)}
    {message : Option Int32} (from_ : download.child.held Prod.snd = [])
    (to_ : child.begun = false) (on : child ≠ .accepting)
    (waits : child = .waiting → download.child = .accepting)
    (said : message = some 0 → download.child = .concluding ∨ download.message = some 0)
    (last : message ≠ none → child = .closing ∨ child = .ended) :
    Sound content { download with child, message } := by
  have outside : child.held Prod.snd = [] := ChildPhase.held_of_begun to_
  have concluded : child.begun = true ∨ message = some 0 →
      download.child = .concluding ∨ download.message = some 0 := by
    rintro (begun | success)
    · rw [to_] at begun
      cases begun
    · exact said success
  refine ⟨fun accepting => absurd accepting on, fun either => ?_, sound.silent, sound.waits,
    fun either => ?_, sound.measured, fun payloadLen success => ?_, sound.position,
    fun left loop _ copying => ?_, fun either => ?_, last⟩
  · refine sound.answered ((concluded either).imp_left fun concluding => ?_)
    rw [concluding]
    rfl
  · exact sound.untouched (.inl (waits (either.resolve_left on)))
  · obtain ⟨rest, whole, unread⟩ := sound.flow payloadLen success
    rw [from_] at whole
    refine ⟨rest, ?_, unread⟩
    rw [outside]
    exact whole
  · rw [show child = _ from copying] at to_
    cases to_
  · refine sound.ends (concluded (either.imp_left fun concluding => ?_))
    rw [show child = .concluding from concluding]
    rfl

/-- A process of the server that is not behind its last message has sent none. -/
theorem Sound.unsaid {content : List UInt8} {download : Download} (sound : Sound content download)
    (closing : download.child ≠ .closing) (ended : download.child ≠ .ended) :
    download.message = none := by
  by_contra said
  rcases sound.last said with same | same
  · exact closing same
  · exact ended same

/-- A call of the copying loop of the server that does not end it early. -/
theorem Sound.childCopies {content : List UInt8} {download : Download} {left : Nat} {loop : CopyLoop}
    {call : CopyCall} {moved : CopyStep} (sound : Sound content download)
    (copies : download.child = .copying (left, loop))
    (made : loop.next (min left bufferSize) download.toServer.buffered download.toServer.closed call =
      some moved) (succeeds : call.fails = false) (goes : call ≠ .readEnd) :
    Sound content { download with
      child := proceed (left - moved.taken) moved.loop
      toServer := download.toServer.take moved.taken
      delivered := download.delivered ++ moved.given } := by
  obtain ⟨child, helper, toServer, response, delivered, message⟩ := download
  obtain rfl : child = .copying (left, loop) := copies
  have sound_ := sound
  obtain ⟨begins, answered, silent, waits, untouched, measured, flow, position, counted, ends,
    last⟩ := sound_
  have conserves := CopyLoop.next_conserves made succeeds
  have counts : moved.given.length + moved.loop.held.length = loop.held.length + moved.taken :=
    (CopyLoop.next_counts made succeeds).1
  have room : moved.taken ≤ min left bufferSize := (CopyLoop.next_counts made succeeds).2
  have goes_on : moved.loop ≠ .stopped := fun ended =>
    goes (CopyLoop.next_over made succeeds ended).2.1
  obtain ⟨payloadLen, success⟩ := answered (.inl rfl)
  have unsaid : message = none := by
    by_contra said
    rcases last said with closing | ended
    · cases closing
    · cases ended
  have before : delivered.length + loop.held.length + left = payloadLen.toNat :=
    counted left loop payloadLen rfl success
  have after : (delivered ++ moved.given).length + moved.loop.held.length +
      (left - moved.taken) = payloadLen.toNat := by
    have fits : moved.taken ≤ left := by omega
    rw [List.length_append]
    omega
  have same : ∀ other, response = some (0, other) → other = payloadLen := by
    intro other answered
    rw [show response = _ from success] at answered
    cases answered
    rfl
  refine ⟨fun accepting => ?_, fun _ => ⟨payloadLen, success⟩, silent, fun unanswered => ?_,
    fun either => ?_, measured, fun other answered => ?_, position,
    fun left_ loop_ other copying answered => ?_,
    fun concluded other answered => ?_, fun said => absurd unsaid said⟩
  · have begun := begun_proceed (left - moved.taken) moved.loop
    rw [show proceed _ _ = .accepting from accepting] at begun
    cases begun
  · rw [show response = none from unanswered] at success
    cases success
  · have begun := begun_proceed (left - moved.taken) moved.loop
    rcases either with accepting | waiting
    · rw [show proceed _ _ = .accepting from accepting] at begun
      cases begun
    · rw [show proceed _ _ = .waiting from waiting] at begun
      cases begun
  · obtain ⟨rest, whole, unread⟩ := flow other answered
    refine ⟨rest, ?_, unread⟩
    rw [held_proceed, ← whole]
    have moves := congrArg (· ++ rest) conserves
    simp only [List.append_assoc] at moves
    simp only [Stream.take, ChildPhase.held, List.append_assoc, moves]
  · obtain rfl := same other answered
    rcases proceed_cases (left - moved.taken) moved.loop with copies | ⟨concludes, -⟩
    · rw [show proceed _ _ = _ from copying] at copies
      cases copies
      exact after
    · rw [show proceed _ _ = _ from copying] at concludes
      cases concludes
  · obtain rfl := same other answered
    rcases concluded with concluding | success
    · rcases proceed_cases (left - moved.taken) moved.loop with copies | ⟨-, stopped | done⟩
      · rw [show proceed _ _ = _ from concluding] at copies
        cases copies
      · exact absurd stopped goes_on
      · rw [done.1, done.2] at after
        exact after
    · rw [show message = some 0 from success] at unsaid
      cases unsaid

/-- The process of the server reads the response. -/
theorem Sound.receives {content : List UInt8} {download : Download} {status : Int32}
    {payloadLen : UInt32} (sound : Sound content download) (waiting : download.child = .waiting)
    (arrived : download.response = some (status, payloadLen)) :
    Sound content { download with
      child := if status = 0 then head payloadLen.toNat else .refusing } := by
  obtain ⟨child, helper, toServer, response, delivered, message⟩ := download
  obtain rfl : child = .waiting := waiting
  have sound_ := sound
  obtain ⟨begins, answered, silent, waits, untouched, measured, flow, position, counted, ends,
    last⟩ := sound_
  have answered_ : response = some (status, payloadLen) := arrived
  have unsaid : message = none := sound.unsaid (by simp) (by simp)
  by_cases success : status = 0
  · subst success
    have nothing : delivered = [] := untouched (.inr rfl)
    have same : ∀ other, response = some (0, other) → other = payloadLen := by
      intro other answered
      rw [answered_] at answered
      cases answered
      rfl
    have begun := begun_proceed payloadLen.toNat .reading
    show Sound content ⟨proceed payloadLen.toNat .reading, helper, toServer, response, delivered,
      message⟩
    refine ⟨fun accepting => ?_, fun _ => ⟨payloadLen, answered_⟩, silent, waits,
      fun _ => nothing, measured, fun other answered => ?_, position,
      fun left loop other copying answered => ?_, fun concluded other answered => ?_,
      fun said => absurd unsaid said⟩
    · rw [show proceed _ _ = .accepting from accepting] at begun
      cases begun
    · obtain ⟨rest, whole, unread⟩ := flow other answered
      refine ⟨rest, ?_, unread⟩
      rw [show ChildPhase.held Prod.snd _ = [] from held_proceed payloadLen.toNat .reading]
      exact whole
    · obtain rfl := same other answered
      rcases proceed_cases other.toNat .reading with copies | ⟨concludes, -⟩
      · rw [show proceed _ _ = _ from copying] at copies
        cases copies
        rw [show delivered = [] from nothing]
        exact Nat.zero_add _
      · rw [show proceed _ _ = _ from copying] at concludes
        cases concludes
    · obtain rfl := same other answered
      rcases concluded with concluding | said
      · rcases proceed_cases other.toNat .reading with copies | ⟨-, stopped | done⟩
        · rw [show proceed _ _ = _ from concluding] at copies
          cases copies
        · cases stopped
        · rw [show delivered = [] from nothing, done.1]
          rfl
      · rw [show message = some 0 from said] at unsaid
        cases unsaid
  · rw [if_neg success]
    exact sound.outside rfl rfl (by simp) nofun .inr fun said => absurd unsaid said

/-- A data connection is accepted. -/
theorem Sound.accepts {content : List UInt8} {download : Download} (sound : Sound content download)
    (accepting : download.child = .accepting) :
    Sound content { download with child := .waiting, helper := .opening } := by
  obtain ⟨child, helper, toServer, response, delivered, message⟩ := download
  obtain rfl : child = .accepting := accepting
  have unsaid : message = none := sound.unsaid (by simp) (by simp)
  have idle : helper = .idle := sound.begins rfl
  subst idle
  have moved : Sound content ⟨.waiting, .idle, toServer, response, delivered, message⟩ :=
    sound.outside rfl rfl (by simp) (fun _ => rfl) .inr fun said => absurd unsaid said
  obtain ⟨-, answered, silent, waits, untouched, measured, flow, -, counted, ends, last⟩ := moved
  refine ⟨nofun, answered, fun _ => silent rfl, waits, untouched, fun payloadLen either => ?_,
    fun payloadLen success => ?_, nofun, counted, ends, last⟩
  · exact measured payloadLen (either.imp_left nofun)
  · obtain ⟨rest, whole, -⟩ := flow payloadLen success
    exact ⟨rest, whole, nofun⟩

/-- A call of the process of the server. -/
theorem Sound.child {content : List UInt8} {download after : Download} {call : ChildCall}
    (sound : Sound content download) (goes : (DownloadLabel.child call).breaks = false)
    (step : download.nextChild call = some after) : Sound content after := by
  obtain ⟨child, helper, toServer, response, delivered, message⟩ := download
  unfold nextChild at step
  cases child <;> cases call <;>
    simp only [Option.some.injEq, reduceCtorEq, Option.map_eq_some_iff] at step
  case copying.copy progress call =>
    obtain ⟨moved, made, rfl⟩ := step
    obtain ⟨succeeds, goes⟩ : call.fails = false ∧ call ≠ .readEnd := by
      simpa [DownloadLabel.breaks] using goes
    exact sound.childCopies rfl made succeeds goes
  case waiting.receive =>
    obtain ⟨⟨status, payloadLen⟩, arrived, rfl⟩ := step
    exact sound.receives rfl arrived
  case accepting.accept =>
    subst step
    exact sound.accepts rfl
  case accepting.acceptFails | accepting.requestFails | waiting.receiveFails =>
    subst step
    have unsaid : message = none := sound.unsaid (by simp) (by simp)
    exact sound.outside rfl rfl (by simp) nofun .inr fun said => absurd unsaid said
  case closing.close =>
    subst step
    exact sound.outside rfl rfl (by simp) nofun .inr fun _ => .inr rfl
  case concluding.report =>
    subst step
    exact sound.outside rfl rfl (by simp) nofun (fun _ => .inl rfl) fun _ => .inl rfl
  case refusing.report =>
    subst step
    exact sound.outside rfl rfl (by simp) nofun nofun fun _ => .inl rfl

/-- A call of the helper process leaves the content of the file as it is. -/
theorem content_nextHelper {file read : SharedFile} {download after : Download}
    {action : HelperAction} (step : download.nextHelper file action = some (read, after)) :
    read.content = file.content := by
  obtain ⟨child, helper, toServer, response, delivered, message⟩ := download
  unfold nextHelper at step
  cases helper <;> cases action <;>
    simp only [Option.some.injEq, reduceCtorEq, Option.map_eq_some_iff,
      Option.ite_none_right_eq_some, Prod.mk.injEq] at step
  case locking.proceed =>
    obtain ⟨-, rfl, -⟩ := step
    rfl
  case copying.copy position loop call =>
    obtain ⟨moved, -, rfl, -⟩ := step
    rfl
  all_goals
    obtain ⟨rfl, -⟩ := step
    rfl

/-- The helper goes on before its response. -/
theorem Sound.early {content : List UInt8} {download : Download} (sound : Sound content download)
    {helper : HelperPhase} (begun : download.helper ≠ .idle)
    (from_ : download.helper.early = true) (to_ : helper.early = true)
    (measured : ∀ payloadLen, helper = .responding payloadLen →
      payloadLen = UInt32.ofNat content.length) :
    Sound content { download with helper } := by
  have unanswered := sound.silent from_
  refine ⟨fun accepting => absurd (sound.begins accepting) begun, sound.answered,
    fun _ => unanswered, sound.waits, sound.untouched, fun payloadLen either => ?_,
    fun payloadLen success => ?_, fun place loop copying => ?_, sound.counted, sound.ends,
    sound.last⟩
  · rcases either with responding | success
    · exact measured payloadLen responding
    · exact sound.measured payloadLen (.inr success)
  · rw [show download.response = _ from success] at unanswered
    cases unanswered
  · rw [show helper = _ from copying] at to_
    cases to_

/-- The helper gives up without a response, or with one that is not a success. -/
theorem Sound.gives_up {content : List UInt8} {download : Download}
    (sound : Sound content download) {response : Option (Int32 × UInt32)}
    (begun : download.helper ≠ .idle) (from_ : download.helper.early = true)
    (fails : ∀ payloadLen, response ≠ some (0, payloadLen)) :
    Sound content { download with helper := .unlocking, response } := by
  have unanswered := sound.silent from_
  refine ⟨fun accepting => absurd (sound.begins accepting) begun, fun runs => ?_, nofun,
    fun _ => sound.waits unanswered, sound.untouched, fun payloadLen either => ?_,
    fun payloadLen success => absurd success (fails payloadLen), nofun,
    fun _ _ payloadLen _ success => absurd success (fails payloadLen),
    fun _ payloadLen success => absurd success (fails payloadLen), sound.last⟩
  · obtain ⟨payloadLen, success⟩ := sound.answered runs
    rw [unanswered] at success
    cases success
  · rcases either with responding | success
    · cases responding
    · exact absurd success (fails payloadLen)

/-- A call of the copying loop of the helper, which may fail. -/
theorem Sound.helperCopies {content : List UInt8} {download : Download} {place : Nat} {loop : CopyLoop}
    {call : CopyCall} {moved : CopyStep} (sound : Sound content download)
    (copies : download.helper = .copying place loop)
    (made : loop.next bufferSize (content.drop place) true call = some moved) :
    Sound content { download with
      helper := if moved.loop = .stopped then .unlocking
        else .copying (place + moved.taken) moved.loop
      toServer := download.toServer.give moved.given } := by
  obtain ⟨child, helper, toServer, response, delivered, message⟩ := download
  obtain rfl : helper = .copying place loop := copies
  have sound_ := sound
  obtain ⟨begins, answered, silent, waits, untouched, measured, flow, position, counted, ends,
    last⟩ := sound_
  obtain ⟨payloadLen, success⟩ := position place loop rfl
  refine ⟨fun accepting => ?_, answered, fun early => ?_, fun unanswered => ?_, untouched,
    fun other either => ?_, fun other answered => ?_, fun _ _ _ => ⟨payloadLen, success⟩,
    counted, ends, last⟩
  · cases begins accepting
  · split at early <;> cases early
  · rw [show response = none from unanswered] at success
    cases success
  · refine measured other (either.imp_left fun responding => ?_)
    split at responding <;> cases responding
  · obtain ⟨rest, whole, unread⟩ := flow other answered
    have rest_ : rest = loop.held ++ content.drop place := unread place loop rfl
    cases failing : call.fails with
    | true =>
      rw [CopyLoop.next_fails made failing]
      refine ⟨rest, ?_, fun place' loop' copying => ?_⟩
      · rw [← whole]
        simp [Stream.give]
      · cases copying
    | false =>
      have conserves := CopyLoop.next_conserves made failing
      refine ⟨moved.loop.held ++ (content.drop place).drop moved.taken, ?_,
        fun place' loop' copying => ?_⟩
      · refine Eq.trans ?_ whole
        rw [rest_, ← conserves]
        simp only [Stream.give, List.append_assoc]
      · split at copying
        · cases copying
        · obtain ⟨rfl, rfl⟩ := HelperPhase.copying.inj copying
          rw [List.drop_drop]

/-- The helper responds with success and the size of the file. -/
theorem Sound.responds {content : List UInt8} {download : Download} {payloadLen : UInt32}
    (sound : Sound content download) (responding : download.helper = .responding payloadLen) :
    Sound content { download with
      helper := .copying 0 .reading, response := some (0, payloadLen) } := by
  obtain ⟨child, helper, toServer, response, delivered, message⟩ := download
  obtain rfl : helper = .responding payloadLen := responding
  have sound_ := sound
  obtain ⟨begins, answered, silent, waits, untouched, measured, flow, position, counted, ends,
    last⟩ := sound_
  have unanswered : response = none := silent rfl
  have nothing := waits unanswered
  have copies : child.begun = false := by
    rw [Bool.eq_false_iff]
    intro begun
    obtain ⟨other, success⟩ := answered (.inl begun)
    rw [show response = _ from success] at unanswered
    cases unanswered
  have held : child.held Prod.snd = [] := ChildPhase.held_of_begun copies
  have size : payloadLen = UInt32.ofNat content.length := measured payloadLen (.inl rfl)
  have undelivered : delivered = [] := nothing.2
  have unsent : toServer.buffered = [] := nothing.1
  have unsaid : message ≠ some 0 := by
    intro said
    obtain ⟨other, success⟩ := answered (.inr said)
    rw [show response = _ from success] at unanswered
    cases unanswered
  refine ⟨fun accepting => ?_, fun _ => ⟨payloadLen, rfl⟩, fun early => ?_, fun none => ?_,
    untouched, fun other either => ?_, fun other answered => ?_, fun _ _ _ => ⟨payloadLen, rfl⟩,
    fun left loop other copying _ => ?_, fun concluded => ?_, last⟩
  · cases begins accepting
  · cases early
  · cases none
  · rcases either with responding | same
    · cases responding
    · cases same
      exact size
  · refine ⟨content, ?_, fun place loop copying => ?_⟩
    · rw [undelivered, held, unsent]
      rfl
    · cases copying
      rfl
  · rw [show child = _ from copying] at copies
    cases copies
  · rcases concluded with concluding | said
    · rw [show child = _ from concluding] at copies
      cases copies
    · exact absurd said unsaid

/-- A call of the helper process, which may fail. -/
theorem Sound.helper {file read : SharedFile} {download after : Download} {action : HelperAction}
    (sound : Sound file.content download)
    (step : download.nextHelper file action = some (read, after)) : Sound file.content after := by
  obtain ⟨child, helper, toServer, response, delivered, message⟩ := download
  have sound_ := sound
  obtain ⟨begins, answered, silent, waits, untouched, measured, flow, position, counted, ends,
    last⟩ := sound_
  unfold nextHelper at step
  cases helper <;> cases action <;>
    simp only [Option.some.injEq, reduceCtorEq, Option.map_eq_some_iff,
      Option.ite_none_right_eq_some, Prod.mk.injEq] at step
  case copying.copy place loop call =>
    obtain ⟨moved, made, -, rfl⟩ := step
    exact sound.helperCopies rfl made
  case responding.proceed payloadLen =>
    obtain ⟨-, rfl⟩ := step
    exact sound.responds rfl
  case locking.proceed =>
    obtain ⟨granted, -, rfl⟩ := step
    exact sound.early (by simp) rfl rfl nofun
  case opening.proceed | opening.fail | locking.fail | measuring.fail =>
    obtain ⟨-, rfl⟩ := step
    exact sound.early (by simp) rfl rfl nofun
  case measuring.proceed =>
    obtain ⟨-, rfl⟩ := step
    refine sound.early (by simp) rfl rfl fun payloadLen responding => ?_
    cases responding
    rfl
  case responding.fail payloadLen =>
    obtain ⟨-, rfl⟩ := step
    have unanswered : response = none := silent rfl
    exact sound.gives_up (by simp) rfl (by simp [unanswered])
  case refusing.fail =>
    obtain ⟨-, rfl⟩ := step
    have unanswered : response = none := silent rfl
    exact sound.gives_up (by simp) rfl (by simp [unanswered])
  case refusing.proceed =>
    obtain ⟨-, rfl⟩ := step
    refine sound.gives_up (by simp) rfl fun payloadLen success => ?_
    cases success
  case unlocking.proceed | unlocking.fail =>
    obtain ⟨-, rfl⟩ := step
    refine ⟨fun accepting => (nomatch begins accepting), answered, nofun, waits, untouched,
      fun payloadLen either => ?_, fun payloadLen success => ?_, nofun, counted, ends, last⟩
    · exact measured payloadLen (either.imp_left nofun)
    · obtain ⟨rest, whole, -⟩ := flow payloadLen success
      exact ⟨rest, whole, nofun⟩

/-- Every step in which the process of the server does not leave its loop early. -/
theorem Sound.next {file read : SharedFile} {download after : Download} {label : DownloadLabel}
    (sound : Sound file.content download) (goes : label.breaks = false)
    (step : download.next file label = some (read, after)) :
    Sound read.content after ∧ read.content = file.content := by
  cases label with
  | child call =>
    obtain ⟨state, stepped, same⟩ := Option.map_eq_some_iff.mp step
    obtain ⟨rfl, rfl⟩ := Prod.mk.inj same
    exact ⟨sound.child goes stepped, rfl⟩
  | helper action =>
    have same := content_nextHelper step
    rw [same]
    exact ⟨sound.helper step, rfl⟩

/-- A file of which the length fits its field is delivered whole when success is reported. -/
theorem Sound.whole {content : List UInt8} {download : Download} (sound : Sound content download)
    (small : content.length < 2 ^ 32) (concluded : download.message = some 0) :
    download.delivered = content := by
  obtain ⟨payloadLen, success⟩ := sound.answered (.inr concluded)
  obtain ⟨rest, whole, -⟩ := sound.flow payloadLen success
  have size : payloadLen.toNat = content.length := by
    rw [sound.measured payloadLen (.inr success), UInt32.toNat_ofNat', Nat.mod_eq_of_lt small]
  have delivered := sound.ends (.inr concluded) payloadLen success
  have lengths := congrArg List.length whole
  rw [List.length_append] at lengths
  have none : download.child.held Prod.snd ++ (download.toServer.buffered ++ rest) = [] := by
    rw [← List.length_eq_zero_iff]
    omega
  rw [none, List.append_nil] at whole
  exact whole

end Download

/-- A step of an upload with its file. -/
def Upload.step (state : SharedFile × Upload) (label : UploadLabel) : Option (SharedFile × Upload) :=
  state.2.next state.1 label

/-- A step of a download with its file. -/
def Download.step (state : SharedFile × Download) (label : DownloadLabel) :
    Option (SharedFile × Download) :=
  state.2.next state.1 label

/-- Success of an upload is reported only if, once the helper is done, the file holds what the
client has sent. -/
def Upload.Honest (state : SharedFile × Upload) : Prop :=
  state.2.message = some 0 → state.2.helper = .finished → state.1.content = state.2.sent

/-- Success of a download is reported only if the file is delivered whole. -/
def Download.Honest (content : List UInt8) (state : SharedFile × Download) : Prop :=
  state.2.message = some 0 → state.2.delivered = content

/-- Transfers are reported honestly in every run in which no call of a copying loop fails, of an
upload, and of a download of a file whose length fits its field. In a download only the loop in
the process of the server matters. -/
theorem honest_of_unbroken (content : List UInt8) :
    (∀ schedule state,
      StepsMeet Upload.step (fun _ label => label.breaks = false) (⟨content, []⟩, .start) schedule →
        runFrom Upload.step (⟨content, []⟩, .start) schedule = some state →
          Upload.Honest state) ∧
    ∀ schedule state, content.length < 2 ^ 32 →
      StepsMeet Download.step (fun _ label => label.breaks = false) (⟨content, []⟩, .start)
          schedule →
        runFrom Download.step (⟨content, []⟩, .start) schedule = some state →
          Download.Honest content state := by
  constructor
  · intro schedule state unbroken run
    have sound := run_invariant_of_meets (fun state => Upload.Sound state.1 state.2)
      (fun _ _ _ sound whole step => sound.next whole step) (Upload.sound_start _) unbroken run
    exact sound.whole
  · intro schedule state small unbroken run concluded
    have sound := run_invariant_of_meets
      (fun state => Download.Sound state.1.content state.2 ∧ state.1.content = content)
      (fun state label after kept goes step => by
        obtain ⟨sound, same⟩ := kept.1.next goes step
        exact ⟨sound, same.trans kept.2⟩)
      ⟨Download.sound_start content, rfl⟩ unbroken run
    rw [← sound.2] at small ⊢
    exact sound.1.whole small concluded

/-- The steps of an upload of one byte. -/
def uploadByte : List UploadLabel :=
  [.child .accept, .helper .proceed, .helper .proceed, .helper .proceed, .send [97], .hangUp,
    .child .receive, .child (.copy (.read 0)), .child (.copy (.write 0)), .child (.copy .readEnd),
    .child .report, .child .close, .helper (.copy (.read 0)), .helper (.copy (.write 0)),
    .helper (.copy .readEnd), .helper .proceed]

/-- The steps of a download of one byte. -/
def downloadByte : List DownloadLabel :=
  [.child .accept, .helper .proceed, .helper .proceed, .helper .proceed, .helper .proceed,
    .child .receive, .helper (.copy (.read 0)), .helper (.copy (.write 0)),
    .child (.copy (.read 0)), .child (.copy (.write 0)), .child .report]

/-- A transfer of one byte in either direction is reported honestly. -/
theorem honest_byte :
    (∃ state, runFrom Upload.step (⟨[], []⟩, .start) uploadByte = some state ∧
      state.2.message = some 0 ∧ state.1.content = state.2.sent) ∧
    ∃ state, runFrom Download.step (⟨[97], []⟩, .start) downloadByte = some state ∧
      state.2.message = some 0 ∧ state.2.delivered = [97] := by
  constructor
  · refine ⟨_, rfl, rfl, ?_⟩
    exact (honest_of_unbroken []).1 uploadByte _ (by decide) rfl rfl rfl
  · refine ⟨_, rfl, rfl, ?_⟩
    exact (honest_of_unbroken [97]).2 downloadByte _ (by decide) (by decide) rfl rfl

/-- When its socket fails, the process of the server reports a download of nothing as
concluded. -/
theorem not_honest : ¬ ((∀ content schedule state,
      runFrom Upload.step (⟨content, []⟩, .start) schedule = some state → Upload.Honest state) ∧
    ∀ content schedule state,
      runFrom Download.step (⟨content, []⟩, .start) schedule = some state →
        Download.Honest content state) := by
  intro all
  have honest := all.2 [97]
    [.child .accept, .helper .proceed, .helper .proceed, .helper .proceed, .helper .proceed,
      .child .receive, .child (.copy .readFails), .child .report] _ rfl rfl
  cases honest

end FileServer
