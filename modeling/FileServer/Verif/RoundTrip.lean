import FileServer.Verif.DataTransfer

/-!
# A download of what has been uploaded

The client may ask for a download as soon as its upload is reported as concluded, when the helper
process of the upload may still have to read its connection and write the file. The write lock
keeps the helper process of the download away until the last byte is written. When no call fails,
the download then delivers the bytes of the upload, and whatever the processes do next, it comes
to its end.
-/
namespace FileServer

open FileServer.Lib

/-- The call fails. -/
def ChildCall.fails : ChildCall → Bool
  | acceptFails | requestFails | receiveFails => true
  | copy call => call.fails
  | accept | receive | report | close => false

/-- The call fails. -/
def HelperAction.fails : HelperAction → Bool
  | proceed => false
  | fail => true
  | copy call => call.fails

/-- A call fails in the upload. -/
def UploadLabel.fails : UploadLabel → Bool
  | send _ | hangUp => false
  | child call => call.fails
  | helper action => action.fails

/-- A call fails in the download. -/
def DownloadLabel.fails : DownloadLabel → Bool
  | child call => call.fails
  | helper action => action.fails

/-- A call fails in one of the transfers. -/
def RoundTripLabel.fails : RoundTripLabel → Bool
  | upload label => label.fails
  | download label => label.fails

/-- An upload in which no call fails leaves no copying loop early. -/
theorem UploadLabel.breaks_of_fails {label : UploadLabel} (succeeds : label.fails = false) :
    label.breaks = false := by
  cases label with
  | send bytes => rfl
  | hangUp => rfl
  | child call =>
    cases call with
    | copy call => exact succeeds
    | _ => rfl
  | helper action =>
    cases action with
    | copy call => exact succeeds
    | _ => rfl

namespace HelperPhase

/-- The helper of an upload holds the lock. -/
def locked : HelperPhase → Bool
  | responding _ | copying _ _ | unlocking => true
  | _ => false

/-- The helper has not yet asked for the lock. -/
def waits : HelperPhase → Bool
  | idle | opening | locking => true
  | _ => false

variable {phase : HelperPhase}

/-- Before it asks for the lock it has not written its response. -/
theorem early_of_waits (waits : phase.waits = true) : phase.early = true := by
  cases phase with
  | idle | opening | locking => rfl
  | _ => cases waits

/-- Before it asks for the lock it is not behind its loop. -/
theorem late_of_waits (waits : phase.waits = true) : phase.late = false := by
  cases phase with
  | idle | opening | locking => rfl
  | _ => cases waits

/-- With its response written and without the lock it is done. -/
theorem eq_finished (unlocked : phase.locked = false) (answered : phase.early = false) :
    phase = .finished := by
  cases phase with
  | finished => rfl
  | idle | opening | locking | measuring | refusing => cases answered
  | _ => cases unlocked

end HelperPhase

namespace Upload

/-- An upload in which no call has failed. -/
structure Smooth (upload : Upload) : Prop where
  /-- The connection to the helper is closed before the process of the server ends. -/
  closed : upload.child = .ended → upload.toHelper.closed = true
  /-- The helper has had no failure. -/
  served : upload.helper ≠ .refusing
  /-- The helper leaves its copying loop when the loop is over. -/
  copies : ∀ position loop, upload.helper = .copying position loop → loop ≠ .stopped

/-- An upload that has not begun. -/
theorem smooth_start : Smooth start := ⟨nofun, nofun, nofun⟩

/-- A call of the process of the server. -/
theorem Smooth.child {upload after : Upload} {call : ChildCall} (smooth : upload.Smooth)
    (succeeds : call.fails = false) (step : upload.nextChild call = some after) :
    after.Smooth := by
  obtain ⟨child, helper, sent, fromClient, toHelper, response, message⟩ := upload
  obtain ⟨closed, served, copies⟩ := smooth
  unfold nextChild at step
  cases child <;> cases call <;>
    simp only [Option.some.injEq, reduceCtorEq, Option.map_eq_some_iff] at step
  case accepting.acceptFails | accepting.requestFails | waiting.receiveFails => cases succeeds
  case accepting.accept =>
    subst step
    exact ⟨nofun, nofun, nofun⟩
  case closing.close =>
    subst step
    exact ⟨fun _ => rfl, served, copies⟩
  case concluding.report | refusing.report =>
    subst step
    exact ⟨nofun, served, copies⟩
  case waiting.receive =>
    obtain ⟨status, -, rfl⟩ := step
    refine ⟨fun ended => ?_, served, copies⟩
    simp only at ended
    split at ended <;> cases ended
  case copying.copy =>
    obtain ⟨moved, -, rfl⟩ := step
    refine ⟨fun ended => ?_, served, copies⟩
    simp only at ended
    split at ended <;> cases ended

/-- A call of the helper process; it gives up the lock last. -/
theorem Smooth.helper {file written : SharedFile} {upload after : Upload} {action : HelperAction}
    (smooth : upload.Smooth) (succeeds : action.fails = false)
    (step : upload.nextHelper file action = some (written, after)) : after.Smooth := by
  obtain ⟨child, helper, sent, fromClient, toHelper, response, message⟩ := upload
  obtain ⟨closed, served, copies⟩ := smooth
  unfold nextHelper at step
  cases helper <;> cases action <;>
    simp only [Option.some.injEq, reduceCtorEq, Option.map_eq_some_iff,
      Option.ite_none_right_eq_some, Prod.mk.injEq] at step
  case opening.fail | locking.fail | responding.fail | refusing.fail | unlocking.fail =>
    cases succeeds
  case refusing.proceed => exact absurd rfl served
  case opening.proceed | unlocking.proceed =>
    obtain ⟨-, rfl⟩ := step
    exact ⟨closed, by simp, by simp⟩
  case locking.proceed =>
    obtain ⟨-, -, rfl⟩ := step
    exact ⟨closed, by simp, by simp⟩
  case responding.proceed =>
    obtain ⟨-, rfl⟩ := step
    refine ⟨closed, by simp, fun position loop copying => ?_⟩
    cases copying
    rintro ⟨⟩
  case copying.copy =>
    obtain ⟨moved, -, -, rfl⟩ := step
    refine ⟨closed, fun refusing => ?_, fun position loop copying => ?_⟩
    · simp only at refusing
      split at refusing <;> cases refusing
    · simp only at copying
      split at copying
      · cases copying
      · rename_i goes
        cases copying
        exact goes

/-- Every step of an upload that is no failure. -/
theorem Smooth.next {file written : SharedFile} {upload after : Upload} {label : UploadLabel}
    (smooth : upload.Smooth) (succeeds : label.fails = false)
    (step : upload.next file label = some (written, after)) : after.Smooth := by
  cases label with
  | send bytes =>
    rw [Upload.next, Option.ite_none_left_eq_some, Option.some.injEq, Prod.mk.injEq] at step
    obtain ⟨-, -, rfl⟩ := step
    exact ⟨smooth.closed, smooth.served, smooth.copies⟩
  | hangUp =>
    rw [Upload.next, Option.ite_none_left_eq_some, Option.some.injEq, Prod.mk.injEq] at step
    obtain ⟨-, -, rfl⟩ := step
    exact ⟨smooth.closed, smooth.served, smooth.copies⟩
  | child call =>
    obtain ⟨state, stepped, same⟩ := Option.map_eq_some_iff.mp step
    obtain ⟨-, rfl⟩ := Prod.mk.inj same
    exact smooth.child succeeds stepped
  | helper action => exact smooth.helper succeeds step

end Upload

namespace Download

/-- A download in which no call has failed. -/
structure Smooth (content : List UInt8) (download : Download) : Prop where
  /-- The helper is asked when a data connection is accepted. -/
  asked : download.child ≠ .accepting → download.helper ≠ .idle
  /-- The helper does not refuse. -/
  answers : ∀ status payloadLen, download.response = some (status, payloadLen) → status = 0
  /-- The process of the server has had no failure. -/
  willing : download.child ≠ .refusing
  /-- The helper has had no failure. -/
  served : download.helper ≠ .refusing
  /-- Success is reported before the process of the server ends. -/
  spoken : download.child = .closing ∨ download.child = .ended → download.message = some 0
  /-- The helper responds before it gives up its lock. -/
  responded : download.helper.late = true → download.response ≠ none
  /-- The process of the server leaves its copying loop when it has nothing left to read. -/
  reads : ∀ left loop, download.child = .copying (left, loop) →
    loop ≠ .stopped ∧ (loop = .reading → left ≠ 0)
  /-- The helper leaves its copying loop when the loop is over. -/
  serves : ∀ position loop, download.helper = .copying position loop → loop ≠ .stopped
  /-- The helper keeps the connection open. -/
  stays : download.toServer.closed = false
  /-- The helper leaves its copying loop when it has sent the whole file. -/
  emptied : download.helper.late = true →
    download.delivered ++ (download.child.held Prod.snd ++ download.toServer.buffered) = content

/-- A download that has not begun. -/
theorem smooth_start (content : List UInt8) : Smooth content start := by
  constructor <;> simp [start, Stream.fresh, HelperPhase.late]

/-- What the process of the server does outside its loop. -/
theorem Smooth.outside {content : List UInt8} {download : Download}
    (smooth : Smooth content download) {child : ChildPhase (Nat × CopyLoop)}
    {message : Option Int32} (from_ : download.child.held Prod.snd = [])
    (to_ : child.held Prod.snd = []) (asked : download.helper ≠ .idle)
    (willing : child ≠ .refusing)
    (spoken : child = .closing ∨ child = .ended → message = some 0)
    (reads : ∀ left loop, child = .copying (left, loop) →
      loop ≠ .stopped ∧ (loop = .reading → left ≠ 0)) :
    Smooth content { download with child, message } := by
  refine ⟨fun _ => asked, smooth.answers, willing, smooth.served, spoken, smooth.responded, reads,
    smooth.serves, smooth.stays, fun late => ?_⟩
  have whole := smooth.emptied late
  rw [from_] at whole
  rw [to_]
  exact whole

/-- The loop of the process of the server goes on with something left to read. -/
theorem proceed_reads {left rest : Nat} {loop now : CopyLoop} (goes : loop ≠ .stopped)
    (copying : proceed left loop = .copying (rest, now)) :
    now ≠ .stopped ∧ (now = .reading → rest ≠ 0) := by
  cases loop with
  | reading =>
    change head left = _ at copying
    unfold head at copying
    split at copying
    · cases copying
    · rename_i more
      cases copying
      exact ⟨nofun, fun _ => more⟩
  | writing block =>
    cases copying
    exact ⟨nofun, nofun⟩
  | stopped => exact absurd rfl goes

/-- While its connection stays open the loop of the process of the server is not left early. -/
theorem Smooth.goes_on {content : List UInt8} {download after : Download} {call : ChildCall}
    (smooth : Smooth content download) (succeeds : call.fails = false)
    (step : download.nextChild call = some after) :
    (DownloadLabel.child call).breaks = false := by
  obtain ⟨child, helper, toServer, response, delivered, message⟩ := download
  cases call with
  | copy call =>
    cases call with
    | readEnd =>
      cases child with
      | copying progress =>
        obtain ⟨left, loop⟩ := progress
        have stays : toServer.closed = false := smooth.stays
        have none : loop.next (min left bufferSize) toServer.buffered toServer.closed .readEnd =
            none := by
          rw [stays]
          cases loop with
          | reading => exact if_neg fun ready => Bool.false_ne_true ready.2
          | writing block => rfl
          | stopped => rfl
        unfold nextChild at step
        simp only [none, Option.map_none, reduceCtorEq] at step
      | _ => cases step
    | _ => exact succeeds
  | _ => rfl

/-- A call of the process of the server. -/
theorem Smooth.child {content : List UInt8} {download after : Download} {call : ChildCall}
    (smooth : Smooth content download) (succeeds : call.fails = false)
    (step : download.nextChild call = some after) : Smooth content after := by
  have goes := smooth.goes_on succeeds step
  obtain ⟨child, helper, toServer, response, delivered, message⟩ := download
  unfold nextChild at step
  cases child <;> cases call <;>
    simp only [Option.some.injEq, reduceCtorEq, Option.map_eq_some_iff] at step
  case accepting.acceptFails | accepting.requestFails | waiting.receiveFails => cases succeeds
  case refusing.report => exact absurd rfl smooth.willing
  case accepting.accept =>
    subst step
    exact ⟨by simp, smooth.answers, by simp, by simp, by simp, by rintro ⟨⟩, by simp, by simp,
      smooth.stays, by rintro ⟨⟩⟩
  case waiting.receive =>
    obtain ⟨⟨status, payloadLen⟩, answered, rfl⟩ := step
    obtain rfl := smooth.answers status payloadLen answered
    have begun := begun_proceed payloadLen.toNat .reading
    show Smooth content ⟨proceed payloadLen.toNat .reading, helper, toServer, response, delivered,
      message⟩
    refine smooth.outside rfl (held_head _) (smooth.asked (by simp)) (fun refusing => ?_)
      (fun either => ?_) fun left loop => proceed_reads (show CopyLoop.reading ≠ _ by simp)
    · rw [refusing] at begun
      cases begun
    · rcases either with closing | ended
      · rw [closing] at begun
        cases begun
      · rw [ended] at begun
        cases begun
  case concluding.report =>
    subst step
    exact smooth.outside rfl rfl (smooth.asked (by simp)) (by simp) (fun _ => rfl) (by simp)
  case closing.close =>
    subst step
    exact smooth.outside rfl rfl (smooth.asked (by simp)) (by simp)
      (fun _ => smooth.spoken (.inl rfl)) (by simp)
  case copying.copy progress call =>
    obtain ⟨left, loop⟩ := progress
    obtain ⟨moved, made, rfl⟩ := step
    obtain ⟨succeeds, goes⟩ : call.fails = false ∧ call ≠ .readEnd := by
      simpa [DownloadLabel.breaks] using goes
    have conserves := CopyLoop.next_conserves made succeeds
    have goes_on : moved.loop ≠ .stopped := fun ended =>
      goes (CopyLoop.next_over made succeeds ended).2.1
    have begun := begun_proceed (left - moved.taken) moved.loop
    refine ⟨fun _ => smooth.asked (by simp), smooth.answers, fun refusing => ?_, smooth.served,
      fun either => ?_, smooth.responded, fun rest now copying => proceed_reads goes_on copying,
      smooth.serves, smooth.stays, fun late => ?_⟩
    · rw [show proceed _ _ = .refusing from refusing] at begun
      cases begun
    · rcases either with closing | ended
      · rw [show proceed _ _ = .closing from closing] at begun
        cases begun
      · rw [show proceed _ _ = .ended from ended] at begun
        cases begun
    · rw [← smooth.emptied late]
      show (delivered ++ moved.given) ++ ((proceed (left - moved.taken) moved.loop).held Prod.snd ++
        toServer.buffered.drop moved.taken) = delivered ++ (loop.held ++ toServer.buffered)
      rw [held_proceed, List.append_assoc, conserves]

/-- A call of the helper process. -/
theorem Smooth.helper {file read : SharedFile} {download after : Download} {action : HelperAction}
    (sound : Sound file.content download) (smooth : Smooth file.content download)
    (succeeds : action.fails = false)
    (step : download.nextHelper file action = some (read, after)) :
    Smooth file.content after := by
  obtain ⟨child, helper, toServer, response, delivered, message⟩ := download
  unfold nextHelper at step
  cases helper <;> cases action <;>
    simp only [Option.some.injEq, reduceCtorEq, Option.map_eq_some_iff,
      Option.ite_none_right_eq_some, Prod.mk.injEq] at step
  case opening.fail | locking.fail | measuring.fail | responding.fail | refusing.fail |
      unlocking.fail => cases succeeds
  case refusing.proceed => exact absurd rfl smooth.served
  case opening.proceed | measuring.proceed =>
    obtain ⟨-, rfl⟩ := step
    exact ⟨by simp, smooth.answers, smooth.willing, by simp, smooth.spoken, by rintro ⟨⟩,
      smooth.reads, by simp, smooth.stays, by rintro ⟨⟩⟩
  case locking.proceed =>
    obtain ⟨-, -, rfl⟩ := step
    exact ⟨by simp, smooth.answers, smooth.willing, by simp, smooth.spoken, by rintro ⟨⟩,
      smooth.reads, by simp, smooth.stays, by rintro ⟨⟩⟩
  case responding.proceed payloadLen =>
    obtain ⟨-, rfl⟩ := step
    refine ⟨by simp, fun status length answered => ?_, smooth.willing, by simp, smooth.spoken,
      by simp, smooth.reads, fun position loop copying => ?_, smooth.stays, by rintro ⟨⟩⟩
    · cases answered
      rfl
    · cases copying
      rintro ⟨⟩
  case unlocking.proceed =>
    obtain ⟨-, rfl⟩ := step
    exact ⟨by simp, smooth.answers, smooth.willing, by simp, smooth.spoken,
      fun _ => smooth.responded rfl, smooth.reads, by simp, smooth.stays,
      fun _ => smooth.emptied rfl⟩
  case copying.copy position loop call =>
    obtain ⟨moved, made, -, rfl⟩ := step
    obtain ⟨payloadLen, answered⟩ := sound.position position loop rfl
    have stopped : moved.loop = .stopped → loop = .reading ∧ moved.given = [] ∧
        file.content.drop position = [] := by
      intro ended
      obtain ⟨reading, rfl, none, -⟩ := CopyLoop.next_over made succeeds ended
      subst reading
      rw [CopyLoop.next, if_pos ⟨none, rfl⟩] at made
      cases made
      exact ⟨rfl, rfl, none⟩
    refine ⟨fun _ idle => ?_, smooth.answers, smooth.willing, fun refusing => ?_, smooth.spoken,
      fun _ => ?_, smooth.reads, fun position_ loop_ copying => ?_, smooth.stays, fun late => ?_⟩
    · simp only at idle
      split at idle <;> cases idle
    · simp only at refusing
      split at refusing <;> cases refusing
    · rw [show response = _ from answered]
      rintro ⟨⟩
    · simp only at copying
      split at copying
      · cases copying
      · rename_i goes
        cases copying
        exact goes
    · simp only at late
      split at late
      · rename_i ended
        obtain ⟨rfl, given, none⟩ := stopped ended
        obtain ⟨rest, whole, unread⟩ := sound.flow payloadLen answered
        have nothing : rest = [] := by
          rw [unread position .reading rfl, none]
          rfl
        rw [nothing, List.append_nil] at whole
        simp only [Stream.give, given, List.append_nil]
        exact whole
      · cases late

end Download

namespace Upload

/-- The process of the server asks the helper when it accepts a data connection. -/
theorem helper_nextChild {upload after : Upload} {call : ChildCall}
    (step : upload.nextChild call = some after) :
    after.helper = upload.helper ∨ (upload.child = .accepting ∧ after.helper = .opening) := by
  obtain ⟨child, helper, sent, fromClient, toHelper, response, message⟩ := upload
  unfold nextChild at step
  cases child <;> cases call <;>
    simp only [Option.some.injEq, reduceCtorEq, Option.map_eq_some_iff] at step
  case accepting.accept =>
    subst step
    exact .inr ⟨rfl, rfl⟩
  case waiting.receive | copying.copy =>
    obtain ⟨_, -, rfl⟩ := step
    exact .inl rfl
  all_goals
    subst step
    exact .inl rfl

/-- The helper of an upload holds the write lock from before its response until it is done. -/
structure Locks (file : SharedFile) (upload : Upload) : Prop where
  /-- It holds the lock while it responds and copies. -/
  held : upload.helper.locked = true → (Direction.upload, LockMode.exclusive) ∈ file.locks
  /-- It holds no lock when it is done. -/
  given : upload.helper = .finished → ¬ file.locks.Holds .upload

/-- A call of the helper process. -/
theorem Locks.helper {file written : SharedFile} {upload after : Upload} {action : HelperAction}
    (locks : Locks file upload) (smooth : upload.Smooth) (succeeds : action.fails = false)
    (step : upload.nextHelper file action = some (written, after)) : Locks written after := by
  obtain ⟨child, helper, sent, fromClient, toHelper, response, message⟩ := upload
  unfold nextHelper at step
  cases helper <;> cases action <;>
    simp only [Option.some.injEq, reduceCtorEq, Option.map_eq_some_iff,
      Option.ite_none_right_eq_some, Prod.mk.injEq] at step
  case opening.fail | locking.fail | responding.fail | refusing.fail | unlocking.fail =>
    cases succeeds
  case refusing.proceed => exact absurd rfl smooth.served
  case opening.proceed =>
    obtain ⟨-, rfl⟩ := step
    exact ⟨by rintro ⟨⟩, by simp⟩
  case locking.proceed =>
    obtain ⟨-, rfl, rfl⟩ := step
    exact ⟨fun _ => LockTable.mem_acquire.mpr (.inl ⟨rfl, rfl⟩), by simp⟩
  case responding.proceed =>
    obtain ⟨rfl, rfl⟩ := step
    exact ⟨fun _ => locks.held rfl, by simp⟩
  case copying.copy =>
    obtain ⟨moved, -, rfl, rfl⟩ := step
    refine ⟨fun _ => locks.held rfl, fun finished => ?_⟩
    simp only at finished
    split at finished <;> cases finished
  case unlocking.proceed =>
    obtain ⟨rfl, rfl⟩ := step
    refine ⟨by rintro ⟨⟩, fun _ holds => ?_⟩
    obtain ⟨mode, member⟩ := holds
    exact (LockTable.mem_release.mp member).2 rfl

/-- Every step of an upload that is no failure. -/
theorem Locks.next {file written : SharedFile} {upload after : Upload} {label : UploadLabel}
    (locks : Locks file upload) (smooth : upload.Smooth) (succeeds : label.fails = false)
    (step : upload.next file label = some (written, after)) : Locks written after := by
  cases label with
  | send bytes =>
    rw [Upload.next, Option.ite_none_left_eq_some, Option.some.injEq, Prod.mk.injEq] at step
    obtain ⟨-, rfl, rfl⟩ := step
    exact ⟨locks.held, locks.given⟩
  | hangUp =>
    rw [Upload.next, Option.ite_none_left_eq_some, Option.some.injEq, Prod.mk.injEq] at step
    obtain ⟨-, rfl, rfl⟩ := step
    exact ⟨locks.held, locks.given⟩
  | child call =>
    obtain ⟨state, stepped, same⟩ := Option.map_eq_some_iff.mp step
    obtain ⟨rfl, rfl⟩ := Prod.mk.inj same
    rcases helper_nextChild stepped with kept | ⟨-, opened⟩
    · exact ⟨kept ▸ locks.held, kept ▸ locks.given⟩
    · exact ⟨opened ▸ (by rintro ⟨⟩), opened ▸ (by rintro ⟨⟩)⟩
  | helper action => exact locks.helper smooth succeeds step

/-- What a download does with the locks leaves those of the upload. -/
theorem Locks.download {file read : SharedFile} {upload : Upload} {download after : Download}
    {label : DownloadLabel} (locks : Locks file upload)
    (step : download.next file label = some (read, after)) : Locks read upload := by
  have kept : ∀ mode, (Direction.upload, mode) ∈ read.locks ↔
      (Direction.upload, mode) ∈ file.locks := by
    intro mode
    cases label with
    | child call =>
      obtain ⟨state, -, same⟩ := Option.map_eq_some_iff.mp step
      obtain ⟨rfl, rfl⟩ := Prod.mk.inj same
      exact Iff.rfl
    | helper action =>
      obtain ⟨child, helper, toServer, response, delivered, message⟩ := download
      unfold Download.next at step
      unfold Download.nextHelper at step
      cases helper <;> cases action <;>
        simp only [Option.some.injEq, reduceCtorEq, Option.map_eq_some_iff,
          Option.ite_none_right_eq_some, Prod.mk.injEq] at step
      case locking.proceed =>
        obtain ⟨-, rfl, -⟩ := step
        simp
      case unlocking.proceed | unlocking.fail =>
        obtain ⟨rfl, -⟩ := step
        simp
      case copying.copy =>
        obtain ⟨moved, -, rfl, -⟩ := step
        exact Iff.rfl
      all_goals
        obtain ⟨rfl, -⟩ := step
        exact Iff.rfl
  refine ⟨fun locked => (kept _).mpr (locks.held locked), fun finished holds => ?_⟩
  obtain ⟨mode, member⟩ := holds
  exact locks.given finished ⟨mode, (kept mode).mp member⟩

/-- When the helper of an upload is done, no step changes the file. -/
theorem Sound.finished {file written : SharedFile} {upload after : Upload} {label : UploadLabel}
    (sound : Sound file upload) (finished : upload.helper = .finished)
    (step : upload.next file label = some (written, after)) :
    written.content = file.content ∧ after.helper = .finished := by
  cases label with
  | send bytes =>
    rw [Upload.next, Option.ite_none_left_eq_some, Option.some.injEq, Prod.mk.injEq] at step
    obtain ⟨-, rfl, rfl⟩ := step
    exact ⟨rfl, finished⟩
  | hangUp =>
    rw [Upload.next, Option.ite_none_left_eq_some, Option.some.injEq, Prod.mk.injEq] at step
    obtain ⟨-, rfl, rfl⟩ := step
    exact ⟨rfl, finished⟩
  | child call =>
    obtain ⟨state, stepped, same⟩ := Option.map_eq_some_iff.mp step
    obtain ⟨rfl, rfl⟩ := Prod.mk.inj same
    rcases helper_nextChild stepped with kept | ⟨accepting, -⟩
    · exact ⟨rfl, kept.trans finished⟩
    · have idle := sound.begins accepting
      rw [finished] at idle
      cases idle
  | helper action =>
    obtain ⟨child, helper, sent, fromClient, toHelper, response, message⟩ := upload
    obtain rfl : helper = .finished := finished
    cases action <;> cases step

/-- The locks on the file do not matter for its bytes. -/
theorem Sound.of_content {file other : SharedFile} {upload : Upload} (sound : Sound file upload)
    (same : other.content = file.content) : Sound other upload := by
  refine ⟨sound.begins, sound.answered, sound.silent, sound.waits, fun emptied => ?_,
    fun success => ?_, fun position loop copying => ?_, sound.drained, sound.closes, sound.ends,
    sound.last⟩
  · rw [same]
    exact sound.empty emptied
  · rw [same]
    exact sound.flow success
  · rw [same]
    exact sound.position position loop copying

end Upload

namespace Download

/-- Until the helper has its lock, the file may change. -/
theorem Sound.before {content : List UInt8} {download : Download} (sound : Sound content download)
    (waits : download.helper.waits = true) (other : List UInt8) : Sound other download := by
  have early := HelperPhase.early_of_waits waits
  have silent := sound.silent early
  refine ⟨sound.begins, sound.answered, sound.silent, sound.waits, sound.untouched,
    fun payloadLen either => ?_, fun payloadLen success => ?_, sound.position, sound.counted,
    sound.ends, sound.last⟩
  · rcases either with responding | success
    · rw [responding] at waits
      cases waits
    · rw [silent] at success
      cases success
  · rw [silent] at success
    cases success

/-- Until the helper has its lock, the file may change. -/
theorem Smooth.before {content : List UInt8} {download : Download}
    (smooth : Smooth content download) (waits : download.helper.waits = true)
    (other : List UInt8) : Smooth other download := by
  refine ⟨smooth.asked, smooth.answers, smooth.willing, smooth.served, smooth.spoken,
    smooth.responded, smooth.reads, smooth.serves, smooth.stays, fun late => ?_⟩
  exact absurd (late.symm.trans (HelperPhase.late_of_waits waits)) (by decide)

/-- The helper is past its lock only when the lock was granted. -/
theorem granted {file read : SharedFile} {download after : Download} {label : DownloadLabel}
    (succeeds : label.fails = false) (step : download.next file label = some (read, after))
    (waits : download.helper.waits = true) (holds : after.helper.waits = false) :
    file.locks.grantable .download .shared = true := by
  obtain ⟨child, helper, toServer, response, delivered, message⟩ := download
  cases label with
  | child call =>
    obtain ⟨state, stepped, same⟩ := Option.map_eq_some_iff.mp step
    obtain ⟨-, rfl⟩ := Prod.mk.inj same
    unfold nextChild at stepped
    cases child <;> cases call <;>
      simp only [Option.some.injEq, reduceCtorEq, Option.map_eq_some_iff] at stepped
    case accepting.accept =>
      subst stepped
      cases holds
    case waiting.receive | copying.copy =>
      obtain ⟨_, -, rfl⟩ := stepped
      exact absurd (waits.symm.trans holds) (by decide)
    all_goals
      subst stepped
      exact absurd (waits.symm.trans holds) (by decide)
  | helper action =>
    unfold Download.next at step
    unfold nextHelper at step
    cases helper <;> cases action <;>
      simp only [Option.some.injEq, reduceCtorEq, Option.ite_none_right_eq_some,
        Prod.mk.injEq] at step
    case locking.proceed => exact step.1
    case opening.proceed =>
      obtain ⟨-, rfl⟩ := step
      cases holds
    case opening.fail | locking.fail => cases succeeds
    all_goals cases waits

end Download

namespace RoundTrip

/-- An upload and a download of its file in which no call has failed. -/
structure Sound (state : RoundTrip) : Prop where
  /-- Where the bytes of the upload are. -/
  upload : Upload.Sound state.file state.upload
  /-- The upload has had no failure. -/
  stored : state.upload.Smooth
  /-- Where the bytes of the download are. -/
  download : Download.Sound state.file.content state.download
  /-- The download has had no failure. -/
  fetched : Download.Smooth state.file.content state.download
  /-- The helper of the upload writes under its lock. -/
  locks : Upload.Locks state.file state.upload
  /-- The helper of the download gets its lock when the upload is done. -/
  behind : state.download.helper.waits = false → state.upload.helper = .finished

/-- Neither transfer has begun. -/
theorem sound_start (content : List UInt8) : Sound (start content) :=
  ⟨Upload.sound_start _, Upload.smooth_start, Download.sound_start content,
    Download.smooth_start content, ⟨nofun, nofun⟩, nofun⟩

/-- The write lock of the upload keeps the helper of the download waiting until the upload is
done. -/
theorem Sound.finished {state : RoundTrip} (sound : state.Sound)
    (concluded : state.upload.message = some 0)
    (grant : state.file.locks.grantable .download .shared = true) :
    state.upload.helper = .finished := by
  have success := sound.upload.answered (.inr concluded)
  have locked : state.upload.helper.locked = false := by
    by_contra locked
    have member := sound.locks.held (Bool.not_eq_false _ ▸ locked)
    have compatible := LockTable.grantable_iff.mp grant .upload .exclusive member nofun
    exact absurd compatible.1 nofun
  have early : state.upload.helper.early = false := by
    by_contra early
    rw [sound.upload.silent (Bool.not_eq_false _ ▸ early)] at success
    cases success
  exact HelperPhase.eq_finished locked early

/-- Every step that is no failure. -/
theorem Sound.next {state after : RoundTrip} {label : RoundTripLabel} (sound : state.Sound)
    (succeeds : label.fails = false) (step : state.next label = some after) : after.Sound := by
  obtain ⟨file, upload, download⟩ := state
  cases label with
  | upload label =>
    obtain ⟨⟨written, stored⟩, stepped, rfl⟩ := Option.map_eq_some_iff.mp step
    have whole := UploadLabel.breaks_of_fails succeeds
    have kept := sound.upload.next whole stepped
    have locks := sound.locks.next sound.stored succeeds stepped
    have smooth := sound.stored.next succeeds stepped
    cases waits : download.helper.waits with
    | true =>
      exact ⟨kept, smooth, sound.download.before waits _, sound.fetched.before waits _, locks,
        fun holds => absurd (waits.symm.trans holds) (by decide)⟩
    | false =>
      obtain ⟨same, finished⟩ := sound.upload.finished (sound.behind waits) stepped
      refine ⟨kept, smooth, ?_, ?_, locks, fun _ => finished⟩
      · show Download.Sound written.content download
        rw [same]
        exact sound.download
      · show Download.Smooth written.content download
        rw [same]
        exact sound.fetched
  | download label =>
    rw [RoundTrip.next, Option.ite_none_right_eq_some] at step
    obtain ⟨concluded, mapped⟩ := step
    obtain ⟨⟨read, fetched⟩, stepped, rfl⟩ := Option.map_eq_some_iff.mp mapped
    have goes : label.breaks = false := by
      cases label with
      | child call =>
        obtain ⟨_, moved, -⟩ := Option.map_eq_some_iff.mp stepped
        exact sound.fetched.goes_on succeeds moved
      | helper action => rfl
    obtain ⟨kept, same⟩ := sound.download.next goes stepped
    have smooth : Download.Smooth read.content fetched := by
      rw [same]
      cases label with
      | child call =>
        obtain ⟨_, moved, pair⟩ := Option.map_eq_some_iff.mp stepped
        obtain ⟨-, rfl⟩ := Prod.mk.inj pair
        exact sound.fetched.child succeeds moved
      | helper action => exact sound.fetched.helper sound.download succeeds stepped
    refine ⟨sound.upload.of_content same, sound.stored, kept, smooth, sound.locks.download stepped,
      fun holds => ?_⟩
    cases waits : download.helper.waits with
    | true => exact sound.finished concluded (Download.granted succeeds stepped waits holds)
    | false => exact sound.behind waits

end RoundTrip

/-- While an upload that is reported as concluded is not done, one of its processes can go on. -/
theorem Upload.ready {file : SharedFile} {upload : Upload} (sound : Upload.Sound file upload)
    (smooth : upload.Smooth) (concluded : upload.message = some 0)
    (open_ : upload.helper ≠ .finished) :
    ∃ label after, label.fails = false ∧ upload.next file label = some after := by
  have success := sound.answered (.inr concluded)
  have early : upload.helper.early = false := by
    by_contra early
    rw [sound.silent (Bool.not_eq_false _ ▸ early)] at success
    cases success
  obtain ⟨child, helper, sent, fromClient, toHelper, response, message⟩ := upload
  rcases sound.last (by rw [concluded]; simp) with closing | ended
  · obtain rfl : child = .closing := closing
    exact ⟨.child .close, _, rfl, rfl⟩
  · have ready : toHelper.buffered ≠ [] ∨ toHelper.closed = true := .inr (smooth.closed ended)
    cases helper with
    | idle | opening | locking | measuring | responding payloadLen | refusing => cases early
    | copying position loop =>
      obtain ⟨call, moved, succeeds, made⟩ :=
        CopyLoop.next_ready bufferSize (smooth.copies position loop rfl) ready
      exact ⟨.helper (.copy call), _, succeeds, congrArg (Option.map _) made⟩
    | unlocking => exact ⟨.helper .proceed, _, rfl, rfl⟩
    | finished => exact absurd rfl open_

/-- While a download that may lock its file is not reported, one of its processes can go on. -/
theorem Download.ready {file : SharedFile} {download : Download}
    (sound : Download.Sound file.content download)
    (smooth : Download.Smooth file.content download)
    (free : file.locks.grantable .download .shared = true)
    (running : download.message = none) :
    ∃ label after, label.fails = false ∧ download.next file label = some after := by
  obtain ⟨child, helper, toServer, response, delivered, message⟩ := download
  -- A helper that is not done can go on; its file is a source without an end to wait for.
  have serving : helper ≠ .idle → helper ≠ .finished →
      ∃ label after, label.fails = false ∧
        Download.next file ⟨child, helper, toServer, response, delivered, message⟩ label =
          some after := by
    intro asked open_
    cases helper with
    | idle => exact absurd rfl asked
    | opening | measuring | responding payloadLen | unlocking =>
      exact ⟨.helper .proceed, _, rfl, rfl⟩
    | locking => exact ⟨.helper .proceed, _, rfl, if_pos free⟩
    | copying position loop =>
      have ready : file.content.drop position ≠ [] ∨ true = true := .inr rfl
      obtain ⟨call, moved, succeeds, made⟩ :=
        CopyLoop.next_ready bufferSize (smooth.serves position loop rfl) ready
      exact ⟨.helper (.copy call), _, succeeds, congrArg (Option.map _) made⟩
    | refusing => exact absurd rfl smooth.served
    | finished => exact absurd rfl open_
  cases child with
  | accepting => exact ⟨.child .accept, _, rfl, rfl⟩
  | waiting =>
    by_cases done : helper = .finished
    · have responded : response ≠ none := smooth.responded (by rw [done]; rfl)
      obtain ⟨answer, answered⟩ := Option.ne_none_iff_exists'.mp responded
      subst answered
      exact ⟨.child .receive, _, rfl, rfl⟩
    · exact serving (smooth.asked nofun) done
  | copying progress =>
    obtain ⟨left, loop⟩ := progress
    obtain ⟨goes, more⟩ := smooth.reads left loop rfl
    by_cases done : helper = .finished
    · have ready : loop = .reading → toServer.buffered ≠ [] := by
        rintro rfl none
        obtain ⟨payloadLen, answered⟩ := sound.answered (.inl rfl)
        have counted : delivered.length + 0 + left = payloadLen.toNat :=
          sound.counted left .reading payloadLen rfl answered
        have whole : delivered ++ ([] ++ toServer.buffered) = file.content :=
          smooth.emptied (by rw [done]; rfl)
        have announced : payloadLen.toNat ≤ file.content.length := by
          rw [sound.measured payloadLen (.inr answered), UInt32.toNat_ofNat']
          exact Nat.mod_le _ _
        rw [none, List.append_nil, List.append_nil] at whole
        rw [← whole] at announced
        have rest := more rfl
        omega
      cases loop with
      | reading =>
        obtain ⟨call, moved, succeeds, made⟩ :=
          CopyLoop.next_ready (min left bufferSize) goes (.inl (ready rfl))
        exact ⟨.child (.copy call), _, succeeds,
          congrArg (Option.map _) (congrArg (Option.map _) made)⟩
      | writing block => exact ⟨.child (.copy (.write 0)), _, rfl, rfl⟩
      | stopped => exact absurd rfl goes
    · exact serving (smooth.asked nofun) done
  | concluding => exact ⟨.child .report, _, rfl, rfl⟩
  | refusing => exact absurd rfl smooth.willing
  | closing =>
    rw [show message = some 0 from smooth.spoken (.inl rfl)] at running
    cases running
  | ended =>
    rw [show message = some 0 from smooth.spoken (.inr rfl)] at running
    cases running

namespace RoundTrip

/-- From the report of the upload to that of the download some process can go on. -/
theorem Sound.ready {state : RoundTrip} (sound : state.Sound)
    (concluded : state.upload.message = some 0) (running : state.download.message = none) :
    ∃ label after, label.fails = false ∧ state.next label = some after := by
  by_cases done : state.upload.helper = .finished
  · have free : state.file.locks.grantable .download .shared = true := by
      apply LockTable.grantable_iff.mpr
      intro holder held member other
      cases holder with
      | upload => exact absurd ⟨held, member⟩ (sound.locks.given done)
      | download => exact absurd rfl other
    obtain ⟨label, after, succeeds, step⟩ := Download.ready sound.download sound.fetched free running
    have taken : state.next (.download label) =
        some { state with file := after.1, download := after.2 } := by
      rw [RoundTrip.next, if_pos concluded, step]
      rfl
    exact ⟨.download label, _, succeeds, taken⟩
  · obtain ⟨label, after, succeeds, step⟩ := Upload.ready sound.upload sound.stored concluded done
    have taken : state.next (.upload label) =
        some { state with file := after.1, upload := after.2 } := by
      rw [RoundTrip.next, step]
      rfl
    exact ⟨.upload label, _, succeeds, taken⟩

end RoundTrip

/-- What the processes of an upload that is reported as concluded still have to do; every byte of
the file leaves its work to a download. -/
def Upload.work (upload : Upload) : Nat :=
  (if upload.child = .closing then 1 else 0) +
    match upload.helper with
    | .copying _ loop => 2 + loop.work 8 upload.toHelper.buffered
    | .unlocking => 1
    | _ => 0

/-- A step of an upload that is reported as concluded. -/
theorem Upload.work_next {file written : SharedFile} {upload after : Upload} {label : UploadLabel}
    (sound : Upload.Sound file upload) (concluded : upload.message = some 0)
    (succeeds : label.fails = false) (step : upload.next file label = some (written, after)) :
    after.message = some 0 ∧
      after.work + 8 * written.content.length < upload.work + 8 * file.content.length := by
  have success := sound.answered (.inr concluded)
  have early : upload.helper.early = false := by
    by_contra early
    rw [sound.silent (Bool.not_eq_false _ ▸ early)] at success
    cases success
  have stopped := (sound.ends (.inr concluded)).2
  have last := sound.last (by rw [concluded]; simp)
  obtain ⟨child, helper, sent, fromClient, toHelper, response, message⟩ := upload
  cases label with
  | send bytes | hangUp =>
    rw [Upload.next, if_pos stopped] at step
    cases step
  | child call =>
    obtain ⟨state, stepped, same⟩ := Option.map_eq_some_iff.mp step
    obtain ⟨rfl, rfl⟩ := Prod.mk.inj same
    rcases last with closing | ended
    · obtain rfl : child = .closing := closing
      cases call <;> cases stepped
      refine ⟨concluded, ?_⟩
      show 0 + _ + _ < 1 + _ + _
      simp only [Stream.close]
      omega
    · obtain rfl : child = .ended := ended
      cases call <;> cases stepped
  | helper action =>
    unfold Upload.next Upload.nextHelper at step
    cases helper <;> cases action <;>
      simp only [Option.some.injEq, reduceCtorEq,
        Option.map_eq_some_iff, Prod.mk.injEq] at step
    case copying.copy position loop call =>
      obtain ⟨moved, made, rfl, rfl⟩ := step
      obtain ⟨rfl, -⟩ := sound.position position loop rfl
      refine ⟨concluded, ?_⟩
      have moves := CopyLoop.next_work 8 (fun _ => by decide) made succeeds
      by_cases ended : moved.loop = .stopped
      · simp only [Upload.work, writeAt_end, List.length_append, if_pos ended]
        omega
      · simp only [Upload.work, writeAt_end, List.length_append, if_neg ended, Stream.take]
        omega
    case unlocking.proceed =>
      obtain ⟨rfl, rfl⟩ := step
      refine ⟨concluded, ?_⟩
      simp only [Upload.work]
      omega
    case unlocking.fail => cases succeeds
    all_goals cases early

/-- What the process of the server still has to do for a download. -/
def Download.childWork (buffered : List UInt8) : ChildPhase (Nat × CopyLoop) → Nat
  | .accepting => 8 + 4 * buffered.length
  | .waiting => 7 + 4 * buffered.length
  | .copying (_, loop) => 3 + loop.work 0 buffered
  | .concluding | .refusing => 2 + 4 * buffered.length
  | .closing => 1 + 4 * buffered.length
  | .ended => 4 * buffered.length

/-- What the helper process still has to do for a download. -/
def Download.helperWork (content : List UInt8) : HelperPhase → Nat
  | .idle => 8 + 8 * content.length
  | .opening => 7 + 8 * content.length
  | .locking => 6 + 8 * content.length
  | .measuring => 5 + 8 * content.length
  | .responding _ => 4 + 8 * content.length
  | .copying position loop => 2 + loop.work 4 (content.drop position)
  | .refusing => 2
  | .unlocking => 1
  | .finished => 0

/-- What the processes of a download still have to do. -/
def Download.work (content : List UInt8) (download : Download) : Nat :=
  childWork download.toServer.buffered download.child + helperWork content download.helper

/-- Bytes that the helper gives are work for the process of the server. -/
theorem Download.childWork_give (buffered bytes : List UInt8)
    (child : ChildPhase (Nat × CopyLoop)) :
    childWork (buffered ++ bytes) child = childWork buffered child + 4 * bytes.length := by
  cases child <;> simp only [childWork, CopyLoop.work, List.length_append] <;> omega

/-- What is left to do at the head of the loop. -/
theorem Download.childWork_head (buffered : List UInt8) (left : Nat) :
    childWork buffered (head left) ≤ 4 + 4 * buffered.length := by
  unfold head
  split
  · show 2 + _ ≤ _
    omega
  · simp only [childWork, CopyLoop.work, CopyLoop.held, List.length_nil]
    omega

/-- A step of a download that is no failure. -/
theorem Download.work_next {file read : SharedFile} {download after : Download}
    {label : DownloadLabel} (sound : Download.Sound file.content download)
    (smooth : Download.Smooth file.content download) (succeeds : label.fails = false)
    (step : download.next file label = some (read, after)) :
    after.work file.content < download.work file.content := by
  obtain ⟨child, helper, toServer, response, delivered, message⟩ := download
  cases label with
  | child call =>
    obtain ⟨state, stepped, same⟩ := Option.map_eq_some_iff.mp step
    obtain ⟨-, rfl⟩ := Prod.mk.inj same
    unfold nextChild at stepped
    cases child <;> cases call <;>
      simp only [Option.some.injEq, reduceCtorEq, Option.map_eq_some_iff] at stepped
    case accepting.accept =>
      subst stepped
      obtain rfl : helper = .idle := sound.begins rfl
      simp only [work, childWork, helperWork]
      omega
    case waiting.receive =>
      obtain ⟨⟨status, payloadLen⟩, answered, rfl⟩ := stepped
      obtain rfl := smooth.answers status payloadLen answered
      have begun := childWork_head toServer.buffered payloadLen.toNat
      show childWork toServer.buffered (head payloadLen.toNat) + helperWork file.content helper <
        7 + 4 * toServer.buffered.length + helperWork file.content helper
      omega
    case copying.copy progress call =>
      obtain ⟨left, loop⟩ := progress
      obtain ⟨moved, made, rfl⟩ := stepped
      have room : loop = .reading → 0 < min left bufferSize := fun reading =>
        Nat.lt_min.mpr ⟨Nat.pos_of_ne_zero ((smooth.reads left loop rfl).2 reading), by decide⟩
      have moves := CopyLoop.next_work 0 room made succeeds
      have goes : childWork (toServer.buffered.drop moved.taken)
          (proceed (left - moved.taken) moved.loop) ≤
            3 + moved.loop.work 0 (toServer.buffered.drop moved.taken) := by
        cases moved.loop with
        | reading =>
          have begun := childWork_head (toServer.buffered.drop moved.taken) (left - moved.taken)
          simp only [proceed, CopyLoop.work, CopyLoop.held, List.length_nil]
          omega
        | writing block => exact Nat.le_refl _
        | stopped =>
          simp only [proceed, childWork, CopyLoop.work]
          omega
      simp only [work, Stream.take]
      show _ < 3 + loop.work 0 toServer.buffered + _
      omega
    case concluding.report | refusing.report =>
      subst stepped
      simp only [work, childWork]
      omega
    case closing.close =>
      subst stepped
      simp only [work, childWork]
      omega
    all_goals cases succeeds
  | helper action =>
    unfold Download.next nextHelper at step
    cases helper <;> cases action <;>
      simp only [Option.some.injEq, reduceCtorEq,
        Option.map_eq_some_iff, Option.ite_none_right_eq_some, Prod.mk.injEq] at step
    case opening.proceed | measuring.proceed | unlocking.proceed | refusing.proceed =>
      obtain ⟨-, rfl⟩ := step
      simp only [work, helperWork]
      omega
    case locking.proceed =>
      obtain ⟨-, -, rfl⟩ := step
      simp only [work, helperWork]
      omega
    case responding.proceed =>
      obtain ⟨-, rfl⟩ := step
      simp only [work, helperWork, CopyLoop.work, CopyLoop.held, List.drop_zero, List.length_nil]
      omega
    case copying.copy position loop call =>
      obtain ⟨moved, made, -, rfl⟩ := step
      have moves := CopyLoop.next_work 4 (fun _ => by decide) made succeeds
      rw [List.drop_drop] at moves
      by_cases ended : moved.loop = .stopped
      · simp only [work, helperWork, Stream.give, childWork_give, if_pos ended]
        omega
      · simp only [work, helperWork, Stream.give, childWork_give, if_neg ended]
        omega
    all_goals cases succeeds

/-- Until the helper has its lock, every byte of the file is still to be read. -/
theorem Download.work_before {download : Download} (waits : download.helper.waits = true)
    (content other : List UInt8) :
    download.work other + 8 * content.length = download.work content + 8 * other.length := by
  obtain ⟨child, helper, toServer, response, delivered, message⟩ := download
  cases helper with
  | idle | opening | locking =>
    simp only [work, helperWork]
    omega
  | _ => cases waits

namespace RoundTrip

/-- What all processes still have to do. -/
def work (state : RoundTrip) : Nat :=
  state.upload.work + state.download.work state.file.content

/-- After the report of the upload every step that is no failure leaves less to do. -/
theorem Sound.work_next {state after : RoundTrip} {label : RoundTripLabel} (sound : state.Sound)
    (concluded : state.upload.message = some 0) (succeeds : label.fails = false)
    (step : state.next label = some after) :
    after.upload.message = some 0 ∧ after.work < state.work := by
  obtain ⟨file, upload, download⟩ := state
  cases label with
  | upload label =>
    obtain ⟨⟨written, stored⟩, stepped, rfl⟩ := Option.map_eq_some_iff.mp step
    obtain ⟨said, less⟩ := Upload.work_next sound.upload concluded succeeds stepped
    refine ⟨said, ?_⟩
    change stored.work + 8 * written.content.length < upload.work + 8 * file.content.length at less
    show stored.work + download.work written.content < upload.work + download.work file.content
    cases waits : download.helper.waits with
    | true =>
      have shifted := Download.work_before waits file.content written.content
      omega
    | false =>
      have same := (sound.upload.finished (sound.behind waits) stepped).1
      change written.content = file.content at same
      rw [same] at less ⊢
      omega
  | download label =>
    rw [RoundTrip.next, if_pos concluded] at step
    obtain ⟨⟨read, fetched⟩, stepped, rfl⟩ := Option.map_eq_some_iff.mp step
    refine ⟨concluded, ?_⟩
    have less : fetched.work file.content < download.work file.content :=
      Download.work_next sound.download sound.fetched succeeds stepped
    have same : read.content = file.content := by
      cases label with
      | child call =>
        obtain ⟨_, -, pair⟩ := Option.map_eq_some_iff.mp stepped
        exact congrArg (fun pair : SharedFile × Download => pair.1.content) pair.symm
      | helper action => exact Download.content_nextHelper stepped
    show upload.work + fetched.work read.content < upload.work + download.work file.content
    rw [same]
    omega

/-- When the helper of the download has responded, the file holds what the client has sent. -/
theorem Sound.arrived {state : RoundTrip} (sound : state.Sound)
    (concluded : state.upload.message = some 0) {answer : Int32 × UInt32}
    (answered : state.download.response = some answer) :
    state.file.content = state.upload.sent := by
  apply sound.upload.whole concluded
  apply sound.behind
  by_contra waits
  have early := HelperPhase.early_of_waits (Bool.not_eq_false _ ▸ waits)
  rw [sound.download.silent early] at answered
  cases answered

/-- The bytes delivered are the first of the upload. -/
theorem Sound.delivered {state : RoundTrip} (sound : state.Sound)
    (concluded : state.upload.message = some 0) :
    state.download.delivered <+: state.upload.sent := by
  cases answered : state.download.response with
  | none =>
    rw [(sound.download.waits answered).2]
    exact List.nil_prefix
  | some answer =>
    obtain ⟨status, payloadLen⟩ := answer
    obtain rfl := sound.fetched.answers status payloadLen answered
    rw [← sound.arrived concluded answered]
    obtain ⟨rest, whole, -⟩ := sound.download.flow payloadLen answered
    exact ⟨_, whole⟩

/-- A download that has sent its last message has delivered the bytes of the upload. -/
theorem Sound.whole {state : RoundTrip} (sound : state.Sound)
    (concluded : state.upload.message = some 0) (small : state.upload.sent.length < 2 ^ 32)
    (said : state.download.message ≠ none) :
    state.download.message = some 0 ∧ state.download.delivered = state.upload.sent := by
  have reported : state.download.message = some 0 :=
    sound.fetched.spoken (sound.download.last said)
  obtain ⟨payloadLen, answered⟩ := sound.download.answered (.inr reported)
  have same := sound.arrived concluded answered
  rw [← same] at small ⊢
  exact ⟨reported, sound.download.whole small reported⟩

end RoundTrip

/-- In every run without a failing call, from the report of the upload on, the bytes that a
download delivers are the first of those uploaded, and all of them when it has sent its last
message; until then some process can go on without a failure, and the work that is left bounds how
often. -/
theorem download_of_upload (content : List UInt8) (schedule : List RoundTripLabel)
    (state : RoundTrip)
    (intact : StepsMeet RoundTrip.next (fun _ label => label.fails = false) (.start content)
      schedule)
    (run : runFrom RoundTrip.next (.start content) schedule = some state)
    (concluded : state.upload.message = some 0) (small : state.upload.sent.length < 2 ^ 32) :
    state.download.delivered <+: state.upload.sent ∧
      (state.download.message ≠ none →
        state.download.message = some 0 ∧ state.download.delivered = state.upload.sent) ∧
      (state.download.message = none →
        ∃ label after, label.fails = false ∧ state.next label = some after) ∧
      ∀ more final, StepsMeet RoundTrip.next (fun _ label => label.fails = false) state more →
        runFrom RoundTrip.next state more = some final → more.length ≤ state.work := by
  have sound := run_invariant_of_meets RoundTrip.Sound
    (fun _ _ _ sound succeeds step => sound.next succeeds step) (RoundTrip.sound_start content)
    intact run
  refine ⟨sound.delivered concluded, sound.whole concluded small, sound.ready concluded,
    fun more final goes on => ?_⟩
  have bound := run_length_le (fun state : RoundTrip => state.Sound ∧ state.upload.message = some 0)
    RoundTrip.work
    (fun state label after kept succeeds step => by
      obtain ⟨said, less⟩ := kept.1.work_next kept.2 succeeds step
      exact ⟨⟨kept.1.next succeeds step, said⟩, less⟩)
    ⟨sound, concluded⟩ goes on
  omega

/-- An upload of one byte, and a download that is asked for before the helper of the upload has
read the byte. -/
def overlapping : List RoundTripLabel :=
  (uploadByte.take 11).map .upload ++
    ([.download (.child .accept), .download (.helper .proceed)] ++
      ((uploadByte.drop 11).map .upload ++ (downloadByte.drop 2).map .download))

/-- The download of one byte delivers it. -/
theorem download_of_upload_byte :
    ∃ state, runFrom RoundTrip.next (.start [98, 99]) overlapping = some state ∧
      state.upload.sent = [97] ∧ state.download.message = some 0 ∧
        state.download.delivered = state.upload.sent := by
  refine ⟨_, rfl, rfl, rfl, ?_⟩
  exact ((download_of_upload [98, 99] overlapping _ (by decide) rfl rfl (by decide)).2.1
    nofun).2

end FileServer
