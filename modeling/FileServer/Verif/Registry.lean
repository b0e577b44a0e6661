import FileServer.Model.Registry

/-!
# Effects of the critical sections

What each operation on the table of transfers does to it, stated on the slots. The copy of a
file name is the only one that goes through memory: a name that fits its field changes that
field and nothing else.
-/
namespace FileServer

open FileServer.Lib

namespace TransferRequest

/-- The slot with a file name that fits its field. -/
def named (filename : List UInt8) (slot : TransferRequest) : TransferRequest :=
  { slot with filename := slot.filename.snprintf filename (by decide) }

/-- A file name that fits its field is stored inside the slot. -/
theorem overwrite_filename {filename : List UInt8} (short : filename.length < filenameSize)
    (slot : TransferRequest) :
    overwrite (layout.encode slot) filenameOffset (filename.take (filenameMax - 1) ++ [0]) =
      layout.encode (slot.named filename) := by
  have bound : filename.length < 256 := short
  have whole : filename.take 4095 = filename := List.take_of_length_le (by omega)
  have fits : filename.take 255 = filename := List.take_of_length_le (by omega)
  have inside := overwrite_append
    (Layout.word32.encode slot.id ++ (slot.sender.bytes ++ slot.receiver.bytes))
    slot.filename.bytes (TransferStatus.layout.encode slot.status) 0 (filename ++ [0]) (by
      simp only [List.length_append, List.length_singleton, CharArray.length_bytes]
      omega)
  have front : (Layout.word32.encode slot.id ++ (slot.sender.bytes ++ slot.receiver.bytes)).length
      = filenameOffset := by
    simp only [List.length_append, Layout.length_encode, CharArray.length_bytes]
    rfl
  rw [front] at inside
  simpa [layout, Layout.map, Layout.pair, CharArray.layout, named, CharArray.snprintf, fits,
    whole] using inside

/-- The bytes that a file name of any length leaves in its field and in the stage behind it. -/
def spill (filename : List UInt8) (slot : TransferRequest) : List UInt8 :=
  overwrite (slot.filename.bytes ++ TransferStatus.layout.encode slot.status) 0
    ((filename.take (filenameMax - 1) ++ [0]).take (filenameSize + TransferStatus.layout.size))

/-- The slot with a file name of any length. -/
def spilled (filename : List UInt8) (slot : TransferRequest) : TransferRequest :=
  { slot with
    filename := .ofBytes filenameSize (slot.spill filename)
    status := TransferStatus.layout.decode ((slot.spill filename).drop filenameSize) }

/-- A slot is read from memory in which a file name has been stored. -/
theorem decode_spilled (filename : List UInt8) (slot : TransferRequest) (rest : List UInt8) :
    layout.decode (overwrite (layout.encode slot ++ rest) filenameOffset
      (filename.take (filenameMax - 1) ++ [0])) = slot.spilled filename := by
  let front := Layout.word32.encode slot.id ++ ((CharArray.layout maxUsernameLen).encode slot.sender
    ++ (CharArray.layout maxUsernameLen).encode slot.receiver)
  let fields := (CharArray.layout filenameSize).pair TransferStatus.layout
  let text := filename.take (filenameMax - 1) ++ [0]
  have width : front.length = filenameOffset := by
    simp only [front, List.length_append, Layout.length_encode]
    rfl
  have split : layout.encode slot ++ rest =
      front ++ (fields.encode (slot.filename, slot.status) ++ rest) := by
    simp [layout, Layout.map, Layout.pair, front, fields]
  have stored := overwrite_behind front (fields.encode (slot.filename, slot.status) ++ rest) text 0
  rw [width, Nat.add_zero] at stored
  have read : ∀ memory, layout.decode (front ++ memory) =
      { slot with filename := (fields.decode memory).1, status := (fields.decode memory).2 } := by
    intro memory
    simp only [layout, Layout.map, Layout.pair, front, fields, List.append_assoc,
      Layout.decode_encode, Layout.drop_encode]
  have kept : (overwrite (fields.encode (slot.filename, slot.status) ++ rest) 0 text).take
      fields.size = slot.spill filename := by
    have taken := take_overwrite (fields.encode (slot.filename, slot.status)) rest text
      (Nat.zero_le _)
    rwa [Layout.length_encode] at taken
  have long : fields.size ≤
      (overwrite (fields.encode (slot.filename, slot.status) ++ rest) 0 text).length := by
    simp only [overwrite, List.length_append, List.length_drop, Layout.length_encode]
    omega
  rw [split, stored, read, ← fields.decode_take long, kept]
  rfl

/-- A file name that fits its field changes only that. -/
theorem spilled_short {filename : List UInt8} (short : filename.length < filenameSize)
    (slot : TransferRequest) : slot.spilled filename = slot.named filename := by
  have read := slot.decode_spilled filename []
  rw [List.append_nil, overwrite_filename short, Layout.decode_encode_self] at read
  exact read.symm

/-- A longer file name fills its field and goes on over the status. -/
theorem spill_long {filename : List UInt8} (long : filenameSize ≤ filename.length)
    (slot : TransferRequest) : slot.spill filename = filename.take filenameSize ++
      overwrite (TransferStatus.layout.encode slot.status) 0
        (((filename.drop filenameSize).take 3839 ++ [0]).take 4) := by
  have field : (filename.take filenameSize).length = filenameSize := List.length_take_of_le long
  have width : slot.filename.bytes.length = filenameSize := slot.filename.length_bytes
  have parts : filenameMax - 1 = filenameSize + 3839 := rfl
  have copied : filename.take (filenameMax - 1) ++ [0] =
      filename.take filenameSize ++ ((filename.drop filenameSize).take 3839 ++ [0]) := by
    rw [← List.append_assoc, parts, ← List.take_add]
  have cut : (filename.take (filenameMax - 1) ++ [0]).take
      (filenameSize + TransferStatus.layout.size) = filename.take filenameSize ++
        ((filename.drop filenameSize).take 3839 ++ [0]).take 4 := by
    rw [copied, List.take_append, field, List.take_of_length_le (by omega), Nat.add_sub_cancel_left]
    rfl
  unfold spill
  rw [cut, overwrite_through (field.trans width.symm)]

/-- What a longer file name leaves in a pending slot: the status depends on the bytes that do not
fit the field, of which a single one may be the value of a status. -/
theorem status_spilled_long {filename : List UInt8} (clean : NulFree filename)
    (long : filenameSize ≤ filename.length) (slot : TransferRequest)
    (pending : slot.status = .pending) :
    ((slot.spilled filename).status = .pending ↔ filename.drop filenameSize = [1]) ∧
      ((slot.spilled filename).status = .notified ↔ filename.drop filenameSize = [2]) := by
  have stored : (slot.spilled filename).status = .ofWord (Layout.bytesWord
      (overwrite [1, 0, 0, 0] 0 (((filename.drop filenameSize).take 3839 ++ [0]).take 4))) := by
    have field : (filename.take filenameSize).length = filenameSize := List.length_take_of_le long
    show TransferStatus.layout.decode ((slot.spill filename).drop filenameSize) = _
    rw [slot.spill_long long, List.drop_left' field, pending]
    rfl
  have kept : NulFree (filename.drop filenameSize) :=
    fun member => clean (List.mem_of_mem_drop member)
  have small : ∀ (byte : UInt8) (value : UInt32), value.toNat < 256 →
      (Layout.bytesWord [byte, 0, 0, 0] = value ↔ byte = UInt8.ofNat value.toNat) := by
    intro byte value low
    have bound := byte.toNat_lt
    rw [← UInt32.toNat_inj, ← UInt8.toNat_inj]
    simp only [Layout.bytesWord, List.getD_cons_zero, List.getD_cons_succ, UInt32.toNat_ofNat',
      UInt8.toNat_ofNat', UInt8.toNat_zero]
    omega
  rw [stored, TransferStatus.ofWord_eq_iff, TransferStatus.ofWord_eq_iff]
  cases spilled : filename.drop filenameSize with
  | nil => decide
  | cons byte later =>
    cases later with
    | nil =>
      have word : overwrite [1, 0, 0, 0] 0 (([byte].take 3839 ++ [0]).take 4) = [byte, 0, 0, 0] :=
        rfl
      rw [word, small byte _ (by decide), small byte _ (by decide)]
      simp [TransferStatus.toWord]
    | cons second more =>
      rw [spilled] at kept
      have second_ : second.toNat ≠ 0 := by
        intro zero
        have same : second = 0 := UInt8.toNat_inj.mp zero
        exact kept (by simp [same])
      have large : ∀ bytes : List UInt8, bytes.getD 1 0 = second →
          256 ≤ (Layout.bytesWord bytes).toNat := by
        intro bytes same
        have bound₀ := (bytes.getD 0 0).toNat_lt
        have bound₂ := (bytes.getD 2 0).toNat_lt
        have bound₃ := (bytes.getD 3 0).toNat_lt
        have bound₁ := second.toNat_lt
        unfold Layout.bytesWord
        rw [same, UInt32.toNat_ofNat']
        omega
      have word := large (overwrite [1, 0, 0, 0] 0
        (((byte :: second :: more).take 3839 ++ [0]).take 4)) rfl
      constructor
      · refine iff_of_false (fun same => ?_) (by simp)
        rw [same] at word
        exact absurd word (by decide)
      · refine iff_of_false (fun same => ?_) (by simp)
        rw [same] at word
        exact absurd word (by decide)

end TransferRequest

namespace SharedRegistry

/-- A file name that fits its field changes one slot in that field. -/
theorem storeFilename_short (registry : SharedRegistry) (before : List TransferRequest)
    {after : List TransferRequest} {slot : TransferRequest}
    (split : registry.pending = before ++ slot :: after)
    {filename : List UInt8} (short : filename.length < filenameSize) :
    (registry.storeFilename before.length filename).pending =
        before ++ slot.named filename :: after ∧
      (registry.storeFilename before.length filename).globalIdCounter =
        registry.globalIdCounter := by
  have memory : registry.transferMemory =
      TransferRequest.layout.encodeList before ++ (TransferRequest.layout.encode slot ++
        (TransferRequest.layout.encodeList after ++
          Layout.word32.encode registry.globalIdCounter)) := by
    simp [transferMemory, split, Layout.encodeList, List.append_assoc]
  have stored : overwrite registry.transferMemory
      (before.length * TransferRequest.layout.size + filenameOffset)
      (filename.take (filenameMax - 1) ++ [0]) =
      TransferRequest.layout.encodeList (before ++ slot.named filename :: after) ++
        Layout.word32.encode registry.globalIdCounter := by
    have inside := overwrite_append (TransferRequest.layout.encodeList before)
      (TransferRequest.layout.encode slot)
      (TransferRequest.layout.encodeList after ++ Layout.word32.encode registry.globalIdCounter)
      filenameOffset (filename.take (filenameMax - 1) ++ [0]) (by
        have bound : filename.length < 256 := short
        have size : TransferRequest.layout.size = 304 := rfl
        simp only [List.length_append, List.length_take, List.length_singleton,
          Layout.length_encode, size, filenameOffset]
        omega)
    rw [Layout.length_encodeList, TransferRequest.overwrite_filename short] at inside
    rw [memory, inside]
    simp [Layout.encodeList, List.append_assoc]
  have count : (before ++ slot.named filename :: after).length = maxTransfers := by
    rw [← registry.length_pending, split]
    simp
  have size := TransferRequest.layout.length_encodeList (before ++ slot.named filename :: after)
  rw [count] at size
  constructor
  · rw [storeFilename, stored]
    change Layout.decodeList _ maxTransfers _ = _
    rw [← count, Layout.decodeList_encodeList]
  · rw [storeFilename, stored, withTransferMemory, List.drop_left' size,
      Layout.decode_encode_self]

/-- A file name of any length leaves the slots before its own as they are, and its own up to the
field it is copied to. -/
theorem storeFilename_split (registry : SharedRegistry) (before : List TransferRequest)
    {after : List TransferRequest} {slot : TransferRequest}
    (split : registry.pending = before ++ slot :: after) (filename : List UInt8) :
    ∃ later, (registry.storeFilename before.length filename).pending =
      before ++ slot.spilled filename :: later := by
  let rest := TransferRequest.layout.encodeList after ++
    Layout.word32.encode registry.globalIdCounter
  let text := filename.take (filenameMax - 1) ++ [0]
  have memory : registry.transferMemory = TransferRequest.layout.encodeList before ++
      (TransferRequest.layout.encode slot ++ rest) := by
    simp [transferMemory, split, Layout.encodeList, rest]
  have count : maxTransfers = before.length + (after.length + 1) := by
    rw [← registry.length_pending, split, List.length_append, List.length_cons]
  have stored := overwrite_behind (TransferRequest.layout.encodeList before)
    (TransferRequest.layout.encode slot ++ rest) text filenameOffset
  rw [Layout.length_encodeList] at stored
  refine ⟨TransferRequest.layout.decodeList after.length ((overwrite
    (TransferRequest.layout.encode slot ++ rest) filenameOffset text).drop
      TransferRequest.layout.size), ?_⟩
  change TransferRequest.layout.decodeList maxTransfers (overwrite _ _ text) = _
  rw [memory, stored, count, Layout.decodeList_append, Layout.decodeList,
    TransferRequest.decode_spilled]

/-- A request leaves the table of users alone. -/
theorem onlineUsers_createRequest (registry : SharedRegistry)
    (filename destUser username : List UInt8) :
    (registry.createRequest filename destUser username).2.onlineUsers = registry.onlineUsers := by
  simp only [createRequest, updateSlot]
  split
  · rfl
  · rename_i taken
    rw [← (Prod.mk.inj taken).2]
    rfl

/-- A request either finds no free slot and changes nothing, or takes the first free one with
the next number. -/
theorem createRequest_split (registry : SharedRegistry) (filename destUser username : List UInt8) :
    ((∀ slot ∈ registry.pending, slot.status ≠ .free) ∧
        registry.createRequest filename destUser username = (-1, registry)) ∨
      ∃ before slot after, registry.pending = before ++ slot :: after ∧ slot.status = .free ∧
        registry.pending.findIdx (·.status = .free) = before.length ∧
        (registry.createRequest filename destUser username).1 =
          (registry.globalIdCounter + 1).toInt32 ∧
        ∃ taken : SharedRegistry, taken.globalIdCounter = registry.globalIdCounter + 1 ∧
          taken.pending = before ++
            slot.requested (registry.globalIdCounter + 1) username destUser :: after ∧
          (registry.createRequest filename destUser username).2 =
            taken.storeFilename before.length filename := by
  obtain ⟨fails, same⟩ | ⟨before, slot, after, split, -, free, index, same⟩ :=
    updateFirst_cases (fun slot : TransferRequest => slot.status = .free)
      (·.requested (registry.globalIdCounter + 1) username destUser) registry.pending
  · left
    simp only [createRequest, updateSlot, same]
    exact ⟨fun slot member => by simpa using fails slot member, trivial⟩
  · right
    refine ⟨before, slot, after, split, by simpa using free, index, ?_, { (registry.updateSlot
      (fun slot => slot.status = .free) (·.requested (registry.globalIdCounter + 1) username
        destUser)).2 with globalIdCounter := registry.globalIdCounter + 1 }, rfl,
      congrArg Prod.snd same, ?_⟩
    · simp only [createRequest, updateSlot, same]
    · simp only [createRequest, updateSlot, same, index]

/-- The same for a file name that fits its field. -/
theorem createRequest_cases (registry : SharedRegistry) {filename : List UInt8}
    (short : filename.length < filenameSize) (destUser username : List UInt8) :
    ((∀ slot ∈ registry.pending, slot.status ≠ .free) ∧
        registry.createRequest filename destUser username = (-1, registry)) ∨
      ∃ before slot after, registry.pending = before ++ slot :: after ∧ slot.status = .free ∧
        registry.pending.findIdx (·.status = .free) = before.length ∧
        (registry.createRequest filename destUser username).1 =
          (registry.globalIdCounter + 1).toInt32 ∧
        (registry.createRequest filename destUser username).2.pending =
          before ++ (slot.requested (registry.globalIdCounter + 1) username destUser).named
            filename :: after ∧
        (registry.createRequest filename destUser username).2.globalIdCounter =
          registry.globalIdCounter + 1 := by
  obtain full | ⟨before, slot, after, split, free, index, number, taken, counted, pending,
      same⟩ := registry.createRequest_split filename destUser username
  · exact Or.inl full
  · have stored := taken.storeFilename_short before pending short
    rw [← same, counted] at stored
    exact Or.inr ⟨before, slot, after, split, free, index, number, stored⟩

/-- An accept either finds nothing and changes nothing, or frees the slot of the request. -/
theorem acceptRequest_cases (registry : SharedRegistry) (reqId : UInt32)
    (username : List UInt8) :
    ((registry.acceptRequest reqId username).1 = none ∧
        (registry.acceptRequest reqId username).2.pending = registry.pending) ∨
      ∃ before slot after, registry.pending = before ++ slot :: after ∧ slot.id = reqId ∧
        slot.status = .notified ∧ slot.receiverText = username ∧
        (registry.acceptRequest reqId username).1 = some slot ∧
        (registry.acceptRequest reqId username).2.pending = before ++ slot.accepted :: after := by
  obtain ⟨-, same⟩ | ⟨before, slot, after, split, -, found, -, same⟩ :=
    updateFirst_cases (·.acceptable reqId username) (·.accepted) registry.pending
  · exact Or.inl ⟨congrArg Prod.fst same, congrArg Prod.snd same⟩
  · obtain ⟨number, status, mine⟩ : slot.id = reqId ∧ slot.status = .notified ∧
        slot.receiverText = username := by simpa [TransferRequest.acceptable] using found
    exact Or.inr ⟨before, slot, after, split, number, status, mine, congrArg Prod.fst same,
      congrArg Prod.snd same⟩

/-- A reject either rejects the request of a slot in use with the number, offered to the
caller, or changes nothing. -/
theorem rejectRequest_cases (registry : SharedRegistry) (targetId : UInt32)
    (username : List UInt8) :
    ((∀ senderName, (registry.rejectRequest targetId username).1 ≠ .rejected senderName) ∧
        (registry.rejectRequest targetId username).2.pending = registry.pending) ∨
      ∃ before slot after, registry.pending = before ++ slot :: after ∧ slot.id = targetId ∧
        slot.status ≠ .free ∧ slot.receiverText = username ∧
        (registry.rejectRequest targetId username).1 =
          .rejected (slot.senderText.take (maxUsernameLen - 1)) ∧
        (registry.rejectRequest targetId username).2.pending =
          before ++ { slot with status := .rejected, id := 0 } :: after := by
  obtain ⟨-, same⟩ | ⟨before, slot, after, split, -, found, -, same⟩ :=
    updateFirst_cases (·.occupied targetId) (·.rejected username) registry.pending
  · left
    simp [rejectRequest, updateSlot, same]
  · obtain ⟨number, busy⟩ : slot.id = targetId ∧ slot.status ≠ .free := by
      simpa [TransferRequest.occupied] using found
    by_cases mine : slot.receiverText = username
    · have update : slot.rejected username = { slot with status := .rejected, id := 0 } :=
        if_pos mine
      refine Or.inr ⟨before, slot, after, split, number, busy, mine, ?_⟩
      simp [rejectRequest, updateSlot, same, mine, update]
    · have update : slot.rejected username = slot := if_neg mine
      rw [update] at same
      left
      simp [rejectRequest, updateSlot, same, mine]
      exact split.symm

/-- A reject leaves the table of users alone. -/
theorem onlineUsers_rejectRequest (registry : SharedRegistry) (targetId : UInt32)
    (username : List UInt8) :
    (registry.rejectRequest targetId username).2.onlineUsers = registry.onlineUsers := by
  simp only [rejectRequest]
  split
  · rfl
  · split
    · rfl
    · rfl

/-- A reject counts no request. -/
theorem globalIdCounter_rejectRequest (registry : SharedRegistry) (targetId : UInt32)
    (username : List UInt8) :
    (registry.rejectRequest targetId username).2.globalIdCounter = registry.globalIdCounter := by
  simp only [rejectRequest]
  split
  · rfl
  · split <;> rfl

end SharedRegistry

end FileServer
