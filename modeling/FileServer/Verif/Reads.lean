import FileServer.Model.HandlerAnswers
import FileServer.Verif.Login
import FileServer.Verif.OpenFiles

/-!
# What a read delivers

`HandleHelperRead` on a file system and `handleRead` in front of it. The helper reads once, into an
array of 4096 bytes, so what lies behind that is not delivered; and the server tells that a file is
empty wherever the helper sends no bytes.
-/
namespace FileServer

open FileServer.Lib

variable {ω : Type} (kernel : HostSystem ω)

/-- A file is opened and locked, or a call fails. -/
theorem ends_lockFile (host : Host ω) (path : List UInt8) (type : LockType) :
    (lockFile path type).Ends (Host.calls kernel) host fun events result after =>
      after.tree = host.tree ∧ after.view = host.view ∧
        (∀ event ∈ events, event.1.toServer = false) ∧
        match result with
        | .error _ => ¬ AllSucceed events
        | .ok fd => after.file fd = some ⟨host.view.resolve path, 0⟩ ∧
            host.tree.node (host.view.resolve path) ≠ none ∧
            (type = .exclusive → host.tree.node (host.view.resolve path) ≠ some .directory) := by
  let flags : OpenFlags :=
    ⟨if type = .exclusive then .readWrite else .readOnly, false, false, false, false⟩
  obtain ⟨failure, first, refused⟩ | ⟨fd, place, tree, first, granted, free, opens⟩ :=
    host.calls_openFile kernel path flags 0
  · refine Script.Ends.call refused (Script.ends_pure.mpr ⟨rfl, rfl, by simp [HelperOp.toServer], ?_⟩)
    exact fun all => absurd (all _ List.mem_cons_self) Bool.false_ne_true
  · obtain ⟨rfl, rfl⟩ := FileTree.openFile_reads rfl rfl opens
    obtain ⟨found, regular⟩ := FileTree.openFile_finds rfl opens
    refine Script.Ends.call granted ?_
    let middle : Host ω :=
      { host with world := first, files := (fd, ⟨host.view.resolve path, 0⟩) :: host.files }
    obtain ⟨locked, second, answered, -⟩ :=
      Host.calls_outside kernel middle (.setLock fd type) rfl
    refine Script.Ends.call answered ?_
    cases locked with
    | error failure =>
      refine Script.Ends.call rfl (Script.ends_pure.mpr
        ⟨rfl, rfl, by simp [HelperOp.toServer], ?_⟩)
      exact fun all => absurd (all ⟨.setLock fd type, .error failure⟩ (by simp)) Bool.false_ne_true
    | ok _ =>
      refine Script.ends_pure.mpr ⟨rfl, rfl, by simp [HelperOp.toServer], List.lookup_cons_self,
        found, ?_⟩
      rintro rfl
      exact regular rfl

/-- The part of a read under the lock. -/
theorem ends_readLocked {host : Host ω} {fd : Descriptor} {place : Location}
    {content : List UInt8} (holds : host.Holds fd place content 0) (offset : Int32) :
    (readLocked fd offset).Ends (Host.calls kernel) host fun events result after =>
      after.tree = host.tree ∧
        (offset.toInt < 0 ∨ content.length < offset.toInt → ∃ text, result = .error text) ∧
        (AllSucceed events → offset.toInt ≤ content.length → 0 ≤ offset.toInt ∧
          ∃ bytes, result = .ok bytes ∧
            bytes.val = (content.drop offset.toInt.toNat).take 4096) := by
  obtain ⟨failure, world, failed⟩ | ⟨mode, world, found⟩ := holds.calls_fstat kernel
  · refine Script.Ends.call failed (Script.ends_pure.mpr ⟨rfl, fun _ => ⟨_, rfl⟩, ?_⟩)
    exact fun all => absurd (all _ List.mem_cons_self) Bool.false_ne_true
  · refine Script.Ends.call found ?_
    show Script.Ends _ _ _ (if offset.toInt > content.length then pure _ else _)
    by_cases beyond : offset.toInt > content.length
    · rw [if_pos beyond]
      exact Script.ends_pure.mpr ⟨rfl, fun _ => ⟨_, rfl⟩, fun _ inside => by omega⟩
    · rw [if_neg beyond]
      obtain ⟨failure, world, failed⟩ | ⟨middle, sought, same, forward, there⟩ :=
        (holds.world world).calls_seekSet kernel (show offset.toInt ≤ content.length by omega)
      · refine Script.Ends.call failed (Script.ends_pure.mpr ⟨rfl, fun _ => ⟨_, rfl⟩, ?_⟩)
        exact fun all => absurd (all ⟨.seekSet fd offset, .error failure⟩ (by simp))
          Bool.false_ne_true
      · refine Script.Ends.call sought ?_
        obtain ⟨failure, world, failed⟩ | ⟨bytes, after, read, front, kept⟩ :=
          there.calls_read kernel 4096
        · refine Script.Ends.call failed (Script.ends_pure.mpr ⟨same, by omega, ?_⟩)
          exact fun all => absurd (all ⟨.read fd 4096, .error failure⟩ (by simp))
            Bool.false_ne_true
        · refine Script.Ends.call read (Script.ends_pure.mpr ⟨kept.trans same, by omega, ?_⟩)
          exact fun _ _ => ⟨forward, bytes, rfl, front⟩

/-- Calls that send nothing to the server send no payload and no response. -/
theorem nothing_sent {events : List HelperEvent}
    (silent : ∀ event ∈ events, event.1.toServer = false) (later : List HelperEvent) :
    payloadOf (events ++ later) = payloadOf later ∧
      AccountEnvironment.response (events ++ later) = AccountEnvironment.response later := by
  have empty : payloadOf events = [] := by
    refine List.flatMap_eq_nil_iff.mpr fun event member => ?_
    have quiet := silent event member
    obtain ⟨op, answer⟩ := event
    cases op <;> first | rfl | exact absurd quiet Bool.noConfusion
  refine ⟨?_, response_behind silent later⟩
  unfold payloadOf at empty ⊢
  rw [List.flatMap_append, empty, List.nil_append]

/-- The end of `HandleHelperRead`. -/
def answerRead (res : HelperResponse) :
    Except (List UInt8) { bytes : List UInt8 // bytes.length ≤ 4096 } → HelperScript HelperOutcome
  | .error text => regainAndRespond (res.say text)
  | .ok ⟨bytes, _⟩ => do
    let res := { res with payloadLen := UInt32.ofNat bytes.length }.succeed (str "Success")
    if ← regainRoot then
      let _ ← system (.writeResponse res)
      if 0 < res.payloadLen then
        let _ ← system (.writeServer bytes)
      return .returned
    else return .exited

/-- What the server receives of a read that has brought some bytes. -/
structure Delivers (bytes : List UInt8) (events : List HelperEvent) : Prop where
  /-- A response announces them. -/
  announced : ∃ res, AccountEnvironment.response events = some res ∧ res.status = 0 ∧
    res.payloadLen = UInt32.ofNat bytes.length
  /-- They follow. -/
  payload : payloadOf events = bytes

/-- Calls made before that send nothing change nothing about it. -/
theorem Delivers.behind {bytes : List UInt8} {events later : List HelperEvent}
    (silent : ∀ event ∈ events, event.1.toServer = false) (delivers : Delivers bytes later) :
    Delivers bytes (events ++ later) := by
  obtain ⟨payload, response⟩ := nothing_sent silent later
  obtain ⟨⟨res, arrived, announces⟩, follows⟩ := delivers
  exact ⟨⟨res, response.trans arrived, announces⟩, payload.trans follows⟩

/-- A response and the bytes that it announces. -/
def sendPayload (res : HelperResponse) (bytes : List UInt8) : HelperScript HelperOutcome := do
  if ← regainRoot then
    let _ ← system (.writeResponse res)
    if 0 < res.payloadLen then
      let _ ← system (.writeServer bytes)
    return .returned
  else return .exited

/-- The bytes are delivered if no call fails. -/
theorem every_sendPayload {res : HelperResponse} {bytes : List UInt8} (zero : res.status = 0)
    (length : res.payloadLen = UInt32.ofNat bytes.length) (short : bytes.length < 2 ^ 32) :
    (sendPayload res bytes).Every fun events outcome =>
      outcome ≠ .undefined ∧ (AllSucceed events → Delivers bytes events) := by
  rintro (_ | _)
  · exact ⟨nofun, fun all => absurd (all _ List.mem_cons_self) Bool.false_ne_true⟩
  · rintro (_ | _)
    · refine ⟨nofun, fun all => ?_⟩
      exact absurd (all _ (List.mem_cons_of_mem _ List.mem_cons_self)) Bool.false_ne_true
    · intro sent
      have whole : ∀ {later : List HelperEvent}, AllSucceed (⟨.seteuid 0, true⟩ ::
          ⟨.setegid 0, true⟩ :: ⟨.writeResponse res, sent⟩ :: later) → sent = true := fun all =>
        all _ (List.mem_cons_of_mem _ (List.mem_cons_of_mem _ List.mem_cons_self))
      show Script.Every _ (if 0 < res.payloadLen then _ else _)
      by_cases filled : 0 < res.payloadLen
      · rw [if_pos filled]
        intro follows
        refine ⟨nofun, fun all => ?_⟩
        obtain rfl := whole all
        have arrived : follows = true := all ⟨.writeServer bytes, follows⟩ (by simp)
        subst arrived
        exact ⟨⟨_, rfl, zero, length⟩, by simp [payloadOf]⟩
      · rw [if_neg filled]
        refine ⟨nofun, fun all => ?_⟩
        obtain rfl := whole all
        have empty : bytes = [] := by
          rw [UInt32.not_lt, UInt32.le_iff_toNat_le, length, UInt32.toNat_ofNat', UInt32.toNat_zero,
            Nat.mod_eq_of_lt short] at filled
          exact List.length_eq_zero_iff.mp (Nat.le_zero.mp filled)
        exact ⟨⟨_, rfl, zero, length⟩, by simp [payloadOf, empty]⟩

/-- A read that has failed is answered with its status, and otherwise the bytes are delivered if no
call fails. -/
theorem every_answerRead (res : HelperResponse)
    (found : Except (List UInt8) { bytes : List UInt8 // bytes.length ≤ 4096 }) :
    (answerRead res found).Every fun events _ =>
      (∀ text, found = .error text → ∀ response, AccountEnvironment.response events = some response →
          response.status = res.status) ∧
        ∀ bytes, found = .ok bytes → AllSucceed events → Delivers bytes.val events := by
  cases found with
  | error text =>
    rintro (_ | _)
    · exact ⟨fun _ _ response => nofun, fun _ => nofun⟩
    · rintro (_ | _)
      · exact ⟨fun _ _ response => nofun, fun _ => nofun⟩
      · intro sent
        refine ⟨fun _ _ response arrived => ?_, fun _ => nofun⟩
        cases sent with
        | false => cases arrived
        | true =>
          cases arrived
          rfl
  | ok found =>
    obtain ⟨bytes, short⟩ := found
    let answer := { res with payloadLen := UInt32.ofNat bytes.length }.succeed (str "Success")
    show Script.Every _ (sendPayload answer bytes)
    have sends : (sendPayload answer bytes).Every _ := every_sendPayload rfl rfl (by omega)
    refine sends.weaken fun events _ delivers => ⟨fun _ => nofun, fun found same => ?_⟩
    cases same
    exact delivers.2

/-- `HandleHelperRead` in its sandbox. -/
def readInside (path : List UInt8) (offset : Int32) (res : HelperResponse) :
    HelperScript HelperOutcome := do
  match ← lockFile path .shared with
  | .error text => regainAndRespond (res.say (str "Lock failed: " ++ text))
  | .ok lockFd =>
    let found ← readLocked lockFd offset
    unlockFile lockFd
    answerRead res found

/-- A read changes nothing. -/
theorem reads_readInside (path : List UInt8) (offset : Int32) (res : HelperResponse) :
    (readInside path offset res).Only (·.reads = true) := by
  have answers : ∀ found, (answerRead res found).Only (·.reads = true) := by
    intro found
    cases found with
    | error text => apply only_regainAndRespond <;> rfl
    | ok found =>
      refine .bind (only_regainRoot rfl rfl) fun regained => ?_
      cases regained with
      | false => trivial
      | true =>
        refine .call rfl fun sent => ?_
        show Script.Only _ (if _ then _ else _)
        split
        · exact .call rfl fun _ => trivial
        · trivial
  have locks : (lockFile path .shared).Only (·.reads = true) :=
    only_lockFile path .shared (fun _ => rfl) (fun _ => rfl) fun _ => rfl
  refine .bind locks fun locked => ?_
  cases locked with
  | error text => exact answers (.error (str "Lock failed: " ++ text))
  | ok fd =>
    have inner : (readLocked fd offset).Only (·.reads = true) := by
      refine .call rfl fun found => ?_
      cases found with
      | error text => trivial
      | ok st =>
        simp only []
        split
        · trivial
        · split
          · trivial
          · refine .call rfl fun sought => ?_
            cases sought with
            | error text => trivial
            | ok _ =>
              refine .call rfl fun read => ?_
              cases read with
              | error text => trivial
              | ok bytes => trivial
    exact .bind inner fun found => .call rfl fun _ => .call rfl fun _ => answers found

/-- A read inside its sandbox fails or delivers the bytes that fit. -/
theorem ends_readInside {host : Host ω} {path : List UInt8} {content : List UInt8}
    (here : host.tree.content (host.view.resolve path) = some content) (offset : Int32)
    (res : HelperResponse) :
    (readInside path offset res).Ends (Host.calls kernel) host fun events _ _ =>
      (offset.toInt < 0 ∨ content.length < offset.toInt →
        ∀ response, AccountEnvironment.response events = some response →
          response.status = res.status) ∧
      (AllSucceed events → offset.toInt ≤ content.length →
        Delivers ((content.drop offset.toInt.toNat).take 4096) events) := by
  apply Script.Ends.bind
  refine (ends_lockFile kernel host path .shared).weaken fun locking locked middle ends => ?_
  obtain ⟨tree, -, quiet, found⟩ := ends
  cases locked with
  | error failure =>
    refine ((every_answerRead res (.error (str "Lock failed: " ++ failure))).ends _ _).weaken
      fun events outcome after answered => ?_
    rw [(nothing_sent quiet events).2]
    refine ⟨fun _ => answered.1 _ rfl, fun all => ?_⟩
    exact absurd ((allSucceed_append _ _).mp all).1 found
  | ok fd =>
    have holds : middle.Holds fd (host.view.resolve path) content 0 := by
      refine ⟨found.1, ?_, Nat.zero_le _⟩
      rw [tree]
      exact here
    apply Script.Ends.bind
    have silent : (readLocked fd offset).Only Silent := only_readLocked silent_of_worksOnFiles fd offset
    refine ((ends_readLocked kernel holds offset).conj (silent.every.ends _ _)).weaken
      fun reading result after both => ?_
    obtain ⟨⟨-, refused, brings⟩, still⟩ := both
    refine Script.Ends.call rfl (Script.Ends.call rfl ?_)
    refine ((every_answerRead res result).ends _ _).weaken fun events outcome last answered => ?_
    have front : ∀ event ∈ locking ++ (reading ++ [⟨.clearLock fd, ()⟩, ⟨.close fd, ()⟩]),
        event.1.toServer = false := by
      intro event member
      simp only [List.mem_append, List.mem_cons, List.not_mem_nil, or_false] at member
      rcases member with first | second | rfl | rfl
      · exact quiet event first
      · exact still event second
      · rfl
      · rfl
    have split : locking ++ (reading ++ ⟨.clearLock fd, ()⟩ :: ⟨.close fd, ()⟩ :: events) =
        (locking ++ (reading ++ [⟨.clearLock fd, ()⟩, ⟨.close fd, ()⟩])) ++ events := by simp
    refine ⟨fun outside response arrived => ?_, fun all inside => ?_⟩
    · obtain ⟨text, failed⟩ := refused outside
      rw [split, (nothing_sent front events).2] at arrived
      exact answered.1 text failed response arrived
    · obtain ⟨-, earlier, later⟩ : AllSucceed locking ∧ AllSucceed reading ∧ AllSucceed events := by
        refine ⟨((allSucceed_append _ _).mp all).1, ?_⟩
        have rest := (allSucceed_append _ _).mp ((allSucceed_append _ _).mp all).2
        exact ⟨rest.1, ((allSucceed_cons _ _).mp ((allSucceed_cons _ _).mp rest.2).2).2⟩
      obtain ⟨-, bytes, succeeded, same⟩ := brings earlier inside
      rw [← same, split]
      exact (answered.2 bytes succeeded later).behind front

/-- How a read ends: the tree stays as it is, a position outside the file is answered with a failure,
and the bytes from any other on that fit the array are delivered if no call fails. -/
structure ReadEnds (host : Host ω) (session : ClientSession) (path : List UInt8) (offset : Int32)
    (events : List HelperEvent) (after : Host ω) : Prop where
  /-- The tree. -/
  kept : after.tree = host.tree
  /-- A position outside the file. -/
  refused : ∀ view content, host.Enters session.homeText session.workdirText view →
    host.tree.content (view.resolve path) = some content →
    (offset.toInt < 0 ∨ content.length < offset.toInt) →
      ∀ response, AccountEnvironment.response events = some response → response.status ≠ 0
  /-- A position in the file. -/
  delivered : AllSucceed events → ∀ view content,
    host.Enters session.homeText session.workdirText view →
    host.tree.content (view.resolve path) = some content → offset.toInt ≤ content.length →
      Delivers ((content.drop offset.toInt.toNat).take 4096) events

/-- Every read ends so. -/
theorem ends_handleHelperRead (host : Host ω) (session : ClientSession) (path : List UInt8)
    (offset : Int32) {res : HelperResponse} (fresh : res.status ≠ 0) :
    (handleHelperRead session path offset res).Ends (Host.calls kernel) host
      fun events _ after => ReadEnds host session path offset events after := by
  apply Script.Ends.bind
  refine ((ends_sandboxUser kernel host session session.homeText session.workdirText).conj
    (((every_sandboxUser session session.homeText session.workdirText).conj
      (silent_sandboxUser session session.homeText session.workdirText).every).ends _ _)).weaken
        fun before inside middle both => ?_
  obtain ⟨⟨⟨view, first, rfl, enters⟩, -⟩, works, silent⟩ := both
  cases inside with
  | false =>
    obtain ⟨sent, second, called, -⟩ := Host.calls_outside kernel { host with view, world := first }
      (.writeResponse (res.say (str "Sandbox error"))) rfl
    refine Script.Ends.call called (Script.ends_pure.mpr ⟨rfl, ?_, fun all => ?_⟩)
    · intro other content _ here outside response arrived
      rw [(nothing_sent silent _).2] at arrived
      cases sent with
      | false => cases arrived
      | true =>
        cases arrived
        exact fresh
    · exact absurd (works ((allSucceed_append _ _).mp all).1) Bool.false_ne_true
  | true =>
    have entered := enters rfl
    let inHome : Host ω := { host with view, world := first }
    show Script.Ends _ _ _ (readInside path offset res)
    have kept := Host.ends_reads kernel inHome (reads_readInside path offset res)
    have brings := fun content (here : inHome.tree.content (view.resolve path) = some content) =>
      ends_readInside kernel here offset res
    unfold Script.Ends at kept brings ⊢
    obtain ⟨files, world, same⟩ := kept
    refine ⟨by rw [same], fun other content enters' here outside response arrived => ?_,
      fun all other content enters' here inside => ?_⟩
    · obtain rfl := entered.unique enters'
      rw [(nothing_sent silent _).2] at arrived
      rw [(brings content here).1 outside response arrived]
      exact fresh
    · obtain rfl := entered.unique enters'
      exact ((brings content here).2 ((allSucceed_append _ _).mp all).2 inside).behind silent

/-- The call sends something to the client. -/
def HandlerOp.repliesToClient : HandlerOp → Bool
  | sendProtocolMsg .. | sendProtocolMsgBg .. | sendProtocolMsgLocked .. | writeClient .. => true
  | _ => false

/-- What is sent to the client. -/
def replies (events : List HandlerEvent) : List HandlerEvent :=
  events.filter (·.1.repliesToClient)

/-- A text for the client. -/
abbrev textReply (status : Int32) (msg : List UInt8) : HandlerEvent :=
  ⟨.sendProtocolMsg .text status msg, ()⟩

/-- Bytes of a file for the client. -/
abbrev bytesReply (bytes : List UInt8) : HandlerEvent := ⟨.writeClient .readcmd bytes, ()⟩

/-- The length announced is the length of the bytes. -/
theorem length_announced {bytes : List UInt8} {res : HelperResponse} (short : bytes.length < 2 ^ 32)
    (length : res.payloadLen = UInt32.ofNat bytes.length) :
    res.payloadLen.toNat = bytes.length := by
  rw [length, UInt32.toNat_ofNat']
  exact Nat.mod_eq_of_lt short

/-- A request for data is answered once: with an error if the helper has not answered with zero, and
otherwise with the bytes announced, or with a text if there are none. -/
theorem ends_fetch (call : HandlerCall) {answers : HandlerAnswers}
    (connects : answers .connectToHelper = true) (memory : ∀ size, (answers (.malloc size)).isSome)
    (carries : ∀ request, (answers (.sendHelperRequest request)).carries = true) (helper : Helper)
    (calls : ω → (op : HelperOp) → op.Answer × ω) (registry : SharedRegistry) (world : ω) (unreachable : List UInt8) (request : HelperRequest) (type : MsgType)
    (empty : List UInt8) :
    let served := (helper.serve request.call).runOn calls world
    (call.fetch unreachable request type empty).Ends (answers.serveStream helper calls)
      (registry, world, []) fun events _ after =>
        after.2.1 = served.world ∧
          ((∀ res, AccountEnvironment.response served.events = some res → res.status ≠ 0) →
            ∃ msg, replies events = [textReply (-1) msg]) ∧
          ∀ bytes, Delivers bytes served.events → bytes.length < 2 ^ 32 →
            replies events = [if bytes = [] then textReply 0 empty
              else ⟨.writeClient type bytes, ()⟩] := by
  intro served
  let serve := answers.serveStream helper calls
  have connects : serve (registry, world, []) .connectToHelper = (true, registry, world, []) :=
    congrArg (·, registry, world, []) connects
  unfold HandlerCall.fetch HandlerCall.askHelper
  refine Script.Ends.call connects ?_
  cases arrived : AccountEnvironment.response served.events with
  | none =>
    have sends := HandlerAnswers.serveStream_failed registry [] (carries request) arrived
    have failed : ∀ bytes, ¬ Delivers bytes served.events := by
      rintro bytes ⟨⟨res, announced, -⟩, -⟩
      exact absurd (arrived.symm.trans announced) (by simp)
    refine Script.Ends.call sends (Script.Ends.call rfl (Script.ends_pure.mpr ⟨rfl, ?_, ?_⟩))
    · exact fun _ => ⟨_, rfl⟩
    · exact fun bytes delivers => absurd delivers (failed bytes)
  | some res =>
    refine Script.Ends.call
      (HandlerAnswers.serveStream_answered registry [] (carries request) arrived) ?_
    show Script.Ends _ _ _ (if res.status ≠ 0 then call.reply (-1) res.msgText else
      if 0 < res.payloadLen then _ else call.reply 0 empty)
    by_cases zero : res.status = 0
    · rw [if_neg (not_not.mpr zero)]
      by_cases filled : 0 < res.payloadLen
      · rw [if_pos filled]
        obtain ⟨room, granted⟩ := Option.isSome_iff_exists.mp (memory res.payloadLen)
        have allocates : serve (registry, served.world, payloadOf served.events)
            (.malloc res.payloadLen) =
              (some room, registry, served.world, payloadOf served.events) :=
          congrArg (·, registry, served.world, payloadOf served.events) granted
        refine Script.Ends.call allocates ?_
        by_cases enough : res.payloadLen.toNat ≤ (payloadOf served.events).length
        · have reading : serve (registry, served.world, payloadOf served.events)
              (.readHelper res.payloadLen) =
                (some ⟨(payloadOf served.events).take res.payloadLen.toNat,
                    List.length_take_of_le enough⟩, registry, served.world,
                  (payloadOf served.events).drop res.payloadLen.toNat) :=
            congrArg (·, registry, served.world, (payloadOf served.events).drop
              res.payloadLen.toNat) (dif_pos enough)
          refine Script.Ends.call reading (Script.Ends.call rfl (Script.ends_pure.mpr
            ⟨rfl, fun failed => absurd zero (failed res rfl), ?_⟩))
          rintro bytes ⟨⟨_, announced, -, length⟩, payload⟩ short
          cases arrived.symm.trans announced
          have same := length_announced short length
          have some_ : bytes ≠ [] := by
            rintro rfl
            rw [UInt32.lt_iff_toNat_lt, same] at filled
            exact absurd filled (by decide)
          have whole : (payloadOf served.events).take res.payloadLen.toNat = bytes := by
            rw [payload, same, List.take_length]
          rw [if_neg some_]
          show [(⟨.writeClient type ((payloadOf served.events).take res.payloadLen.toNat), ()⟩ :
            HandlerEvent)] = _
          rw [whole]
        · have reading : serve (registry, served.world, payloadOf served.events)
              (.readHelper res.payloadLen) =
                (none, registry, served.world,
                  (payloadOf served.events).drop res.payloadLen.toNat) :=
            congrArg (·, registry, served.world, (payloadOf served.events).drop
              res.payloadLen.toNat) (dif_neg enough)
          refine Script.Ends.call reading (Script.Ends.call rfl (Script.ends_pure.mpr
            ⟨rfl, fun failed => absurd zero (failed res rfl), ?_⟩))
          rintro bytes ⟨⟨_, announced, -, length⟩, payload⟩ short
          cases arrived.symm.trans announced
          have same := length_announced short length
          rw [payload, same] at enough
          exact absurd (Nat.le_refl _) enough
      · rw [if_neg filled]
        refine Script.Ends.call rfl (Script.ends_pure.mpr
          ⟨rfl, fun failed => absurd zero (failed res rfl), ?_⟩)
        rintro bytes ⟨⟨_, announced, -, length⟩, payload⟩ short
        cases arrived.symm.trans announced
        have nothing : bytes = [] := by
          have same := length_announced short length
          rw [UInt32.not_lt, UInt32.le_iff_toNat_le, same, UInt32.toNat_zero] at filled
          exact List.length_eq_zero_iff.mp (Nat.le_zero.mp filled)
        rw [if_pos nothing]
        rfl
    · rw [if_pos zero]
      refine Script.Ends.call rfl (Script.ends_pure.mpr ⟨rfl, fun _ => ⟨_, rfl⟩, ?_⟩)
      rintro bytes ⟨⟨_, announced, status, -⟩, -⟩ -
      cases arrived.symm.trans announced
      exact absurd status zero

/-- A read command with its position and its path, of a session that is logged in, which finds the
helper and has memory. -/
structure HandlerCall.Reads (call : HandlerCall) (answers : HandlerAnswers) (path : List UInt8)
    (offset : Int32) : Prop where
  /-- The session is logged in. -/
  loggedIn : call.session.state = .loggedIn
  /-- The arguments of the command. -/
  parsed : offsetAndPath (str "Usage: read -offset=N <path>")
    (str "Usage: read [-offset=N] <path>") call.args = .ok (offset, path)
  /-- The helper is reached. -/
  connects : answers .connectToHelper = true
  /-- There is memory. -/
  memory : ∀ size, (answers (.malloc size)).isSome
  /-- Requests can be sent, and responses be read. -/
  carries : ∀ request, (answers (.sendHelperRequest request)).carries = true

section

variable (call : HandlerCall) (answers : HandlerAnswers) (helper : Helper)
  (registry : SharedRegistry) (host : Host ω)

/-- The run of the server for a read command. -/
def serverRead : Script.Execution HandlerOp HandlerOp.Answer (Option ClientSession)
    (SharedRegistry × Host ω × List UInt8) :=
  (handleRead call).runOn (answers.serveStream helper (Host.calls kernel)) (registry, host, [])

/-- The run of the helper for it. -/
def helperRead (session : ClientSession) (path : List UInt8) (offset : Int32) :
    Script.Execution HelperOp HelperOp.Answer HelperOutcome (Host ω) :=
  (handleHelperRead session path offset (.blank HelperCommand.read.toWord)).runOn
    (Host.calls kernel) host

/-- The server replies once: with an error if the helper has not answered with zero, and otherwise
with the bytes announced, or with a text if there are none. -/
theorem replies_serverRead {path : List UInt8} {offset : Int32}
    (reads : call.Reads answers path offset) :
    let served := helperRead kernel host call.session path offset
    let run := serverRead kernel call answers helper registry host
    run.world.2.1 = served.world ∧
      ((∀ res, AccountEnvironment.response served.events = some res → res.status ≠ 0) →
        ∃ msg, replies run.events = [textReply (-1) msg]) ∧
      ∀ bytes, Delivers bytes served.events → bytes.length ≤ 4096 →
        replies run.events = [if bytes = [] then textReply 0 (str "File is empty")
          else bytesReply bytes] := by
  have ends := ends_fetch call reads.connects reads.memory reads.carries helper (Host.calls kernel)
    registry host (str "Internal error: Helper unreachable")
    (.readWrite .read [path] offset (some call.session) []) .readcmd (str "File is empty")
  have selected : handleRead call = call.fetch (str "Internal error: Helper unreachable")
      (.readWrite .read [path] offset (some call.session) []) .readcmd (str "File is empty") := by
    unfold handleRead HandlerCall.loggedIn
    simp only [reads.loggedIn, ne_eq, not_true_eq_false, ↓reduceIte, reads.parsed]
  unfold serverRead
  rw [selected]
  obtain ⟨world, refused, delivered⟩ := ends
  exact ⟨world, refused, fun bytes sent short => delivered bytes sent (by omega)⟩

/-- What the claimed reply to a read holds: the rest of the file, or a text for an empty file. -/
def restReply (content : List UInt8) (position : Nat) : HandlerEvent :=
  if content = [] then textReply 0 (str "File is empty") else bytesReply (content.drop position)

/-- A read of a content delivers what lies behind the position, a position outside the content is
answered with an error, and no file changes. -/
structure ReadsRest (content : List UInt8) (offset : Int32) : Prop where
  /-- A position in the file. -/
  delivered : 0 ≤ offset.toInt → offset.toInt ≤ content.length →
    replies (serverRead kernel call answers helper registry host).events =
      [restReply content offset.toInt.toNat]
  /-- A position outside the file. -/
  refused : offset.toInt < 0 ∨ content.length < offset.toInt → ∃ status msg, status ≠ 0 ∧
    replies (serverRead kernel call answers helper registry host).events = [textReply status msg]
  /-- The files. -/
  unchanged : (serverRead kernel call answers helper registry host).world.2.1.tree = host.tree

/-- The bytes that fit are the rest of the file exactly if the rest is not longer, and is empty only
where the file is. -/
theorem fittingReply_iff (content : List UInt8) {position : Nat} (inside : position ≤ content.length) :
    (if (content.drop position).take 4096 = [] then textReply 0 (str "File is empty")
        else bytesReply ((content.drop position).take 4096)) = restReply content position ↔
      content.length ≤ position + 4096 ∧ (position < content.length ∨ content = []) := by
  have short : (content.drop position).take 4096 = content.drop position ↔
      content.length ≤ position + 4096 := by
    constructor
    · intro same
      have length := congrArg List.length same
      rw [List.length_take, List.length_drop] at length
      omega
    · intro fits
      exact List.take_of_length_le (by rw [List.length_drop]; omega)
  have empty : (content.drop position).take 4096 = [] ↔ content.length ≤ position := by
    rw [List.take_eq_nil_iff, List.drop_eq_nil_iff]
    omega
  unfold restReply
  by_cases nothing : content = []
  · subst nothing
    simp
  · rw [if_neg nothing]
    by_cases end_ : content.length ≤ position
    · rw [if_pos (empty.mpr end_)]
      refine iff_of_false nofun fun both => ?_
      rcases both.2 with before | none
      · omega
      · exact nothing none
    · rw [if_neg (fun none => end_ (empty.mp none))]
      constructor
      · intro same
        injection same with op
        injection op with kind bytes
        exact ⟨short.mp bytes, Or.inl (by omega)⟩
      · intro both
        rw [short.mpr both.1]

/-- A read whose calls succeed delivers the rest of the file exactly if at most 4096 bytes are left,
and at least one unless the file is empty. -/
theorem readsRest_iff {path : List UInt8} {offset : Int32} {view : View} {content : List UInt8}
    (reads : call.Reads answers path offset)
    (enters : host.Enters call.session.homeText call.session.workdirText view)
    (here : host.tree.content (view.resolve path) = some content)
    (granted : 0 ≤ offset.toInt → offset.toInt ≤ content.length →
      AllSucceed (helperRead kernel host call.session path offset).events) :
    ReadsRest kernel call answers helper registry host content offset ↔
      (0 ≤ offset.toInt → offset.toInt ≤ content.length →
        content.length ≤ offset.toInt + 4096 ∧ (offset.toInt < content.length ∨ content = [])) := by
  have ends : ReadEnds host call.session path offset
      (helperRead kernel host call.session path offset).events
      (helperRead kernel host call.session path offset).world :=
    ends_handleHelperRead kernel host call.session path offset (by decide)
  obtain ⟨world, fails, delivers⟩ := replies_serverRead kernel call answers helper registry host reads
  have told : 0 ≤ offset.toInt → offset.toInt ≤ content.length →
      (replies (serverRead kernel call answers helper registry host).events =
          [restReply content offset.toInt.toNat] ↔
        content.length ≤ offset.toInt + 4096 ∧ (offset.toInt < content.length ∨ content = [])) := by
    intro forward inside
    have sent := ends.delivered (granted forward inside) view content enters here inside
    rw [delivers _ sent (by rw [List.length_take]; omega), List.singleton_inj]
    refine (fittingReply_iff content (by omega)).trans ?_
    have number : (offset.toInt.toNat : Int) = offset.toInt := Int.toNat_of_nonneg forward
    refine and_congr ?_ (or_congr ?_ Iff.rfl)
    · omega
    · omega
  constructor
  · intro rest forward inside
    exact (told forward inside).mp (rest.delivered forward inside)
  · intro fits
    refine ⟨fun forward inside => (told forward inside).mpr (fits forward inside),
      fun outside => ?_, ?_⟩
    · obtain ⟨msg, replied⟩ := fails (ends.refused view content enters here outside)
      exact ⟨-1, msg, by decide, replied⟩
    · rw [world]
      exact ends.kept

end

/-- A command that reads a short file from its third byte on. -/
theorem reads_notes :
    (commandCall 9 (aliceAt []) (str "read -offset=2 notes")).Reads willing (str "notes") 2 :=
  ⟨rfl, by decide +kernel, rfl, fun _ => rfl, fun _ => rfl⟩

/-- It delivers the rest of the file. -/
theorem readsRest_iff_notes :
    ReadsRest obliging (commandCall 9 (aliceAt []) (str "read -offset=2 notes")) willing srvHelper
      initSharedRegistry aliceNotes (str "draft") 2 := by
  have granted : 0 ≤ (2 : Int32).toInt → (2 : Int32).toInt ≤ (str "draft").length →
      AllSucceed (helperRead obliging aliceNotes (aliceAt []) (str "notes") 2).events :=
    fun _ _ => by decide +kernel
  refine (readsRest_iff obliging _ willing srvHelper initSharedRegistry aliceNotes reads_notes
    enters_alice (by decide +kernel) granted).mpr fun _ _ => ⟨by decide, Or.inl (by decide)⟩

/-- A user with a file that is one byte longer than the array of the helper. -/
def aliceLong : Host UInt32 where
  tree := [⟨[str "srv"], .directory⟩, ⟨[str "srv", str "alice"], .directory⟩,
    ⟨[str "srv", str "alice", str "notes"], .regular (List.replicate 4097 0)⟩].toAList
  view := ⟨[], []⟩
  files := []
  start := []
  world := 3

/-- How many bytes of a file a reply carries. -/
def carriedLength : HandlerEvent → Nat
  | ⟨.writeClient _ bytes, _⟩ => bytes.length
  | _ => 0

/-- The last byte of that file is not delivered. -/
theorem not_readsRest_long :
    ¬ ReadsRest obliging (commandCall 9 (aliceAt []) (str "read notes")) willing srvHelper
      initSharedRegistry aliceLong (List.replicate 4097 0) 0 := by
  intro rest
  have told := rest.delivered (by decide) (by rw [List.length_replicate]; decide)
  have lengths := congrArg (List.map carriedLength) told
  revert lengths
  decide +kernel

end FileServer
