import FileServer.Model.Worker
import FileServer.Verif.DataPorts
import FileServer.Verif.Reads
import Mathlib.Algebra.Order.BigOperators.Group.List
import Mathlib.Data.Nat.Bitwise

/-!
# What a listing shows

`handleHelperLs`, `handleLs` in front of it and the rows that `readThreadFunc` prints. The helper
collects the entries in an array of 1024 elements with 56 bytes for a name, and asks for the attributes
of an entry under a path of at most 4095 bytes. Every entry has its row exactly if the entries, their
names and their paths fit.
-/
namespace FileServer

open FileServer.Lib

/-- A directory that is listed under some path. -/
structure Directory (path : List UInt8) where
  /-- The names that `readdir` returns. -/
  names : List { name : List UInt8 // NulFree name ∧ name ≠ [] }
  /-- No name is there twice. -/
  distinct : names.Nodup
  /-- What `stat` tells of a path. -/
  stat : List UInt8 → Except Failure FileStat
  /-- The attributes of an entry. -/
  attributes : List UInt8 → FileStat
  /-- `stat` tells them under the path of the entry. -/
  found : ∀ name ∈ names, stat (path ++ str "/" ++ name) = .ok (attributes name)
  /-- A size is an `off_t`. -/
  sizes : ∀ text st, stat text = .ok st → st.size < 2 ^ 63

/-- The type of a file as a character. -/
def typeChar : FileType → UInt8
  | .directory => 100
  | .link => 108
  | .regular | .other => 45

/-- The type of a file and its permissions as ten characters: a letter where the bit is set. -/
def modeText (st : FileStat) : List UInt8 :=
  typeChar st.type :: (List.range 9).map fun place =>
    if st.mode.toNat.testBit (8 - place) then (str "rwxrwxrwx").getD place 0 else 45

/-- A bit of a mode as the mask that picks it. -/
theorem and_mask_ne_zero (mode : UInt32) {mask : UInt32} {place : Nat}
    (bit : mask.toNat = 2 ^ place) : mode &&& mask ≠ 0 ↔ mode.toNat.testBit place = true := by
  rw [ne_eq, ← UInt32.toNat_inj, UInt32.toNat_and, bit, Nat.and_two_pow, UInt32.toNat_zero]
  cases mode.toNat.testBit place <;> simp

/-- The helper writes these characters. -/
theorem permissionText_eq (st : FileStat) : permissionText st = modeText st := by
  obtain ⟨type, mode, size⟩ := st
  have bits := fun (mask : UInt32) (place : Nat) (bit : mask.toNat = 2 ^ place) =>
    and_mask_ne_zero mode bit
  unfold permissionText modeText
  simp only [bits 0o400 8 rfl, bits 0o200 7 rfl, bits 0o100 6 rfl, bits 0o040 5 rfl, bits 0o020 4 rfl,
    bits 0o010 3 rfl, bits 0o004 2 rfl, bits 0o002 1 rfl, bits 0o001 0 rfl]
  cases type <;> rfl

/-- They are a string of ten. -/
theorem permissionText_spec (st : FileStat) :
    NulFree (permissionText st) ∧ (permissionText st).length = 10 := by
  refine ⟨?_, rfl⟩
  intro zero
  simp only [permissionText, List.mem_cons, List.not_mem_nil, or_false] at zero
  rcases zero with type | bit | bit | bit | bit | bit | bit | bit | bit | bit
  · revert type
    cases st.type <;> decide
  all_goals
    revert bit
    split <;> decide

namespace Directory

/-- The name is not `.` or `..`. -/
def isEntry (name : { name : List UInt8 // NulFree name ∧ name ≠ [] }) : Bool :=
  name.val ≠ str "." ∧ name.val ≠ str ".."

variable {path : List UInt8} (directory : Directory path)

/-- The entries besides `.` and `..`. -/
def entries : List { name : List UInt8 // NulFree name ∧ name ≠ [] } :=
  directory.names.filter isEntry

/-- The row that an entry should have. -/
def row (name : List UInt8) : ListRow :=
  ⟨modeText (directory.attributes name), name, (directory.attributes name).size⟩

/-- The element of the array for an entry, if the helper finds it. -/
def listed (name : List UInt8) : Option FileEntry :=
  (directory.stat (formatted pathMax (path ++ str "/" ++ name))).toOption.map (fileEntry name)

/-- What the helper lists of some names. -/
def listing (names : List { name : List UInt8 // NulFree name ∧ name ≠ [] }) : List FileEntry :=
  (names.filter isEntry).filterMap fun name => directory.listed name.val

/-- The answers of the system tell of the directory, and no other call fails. -/
structure Answers (events : List HelperEvent) : Prop where
  /-- The names. -/
  opened : ∀ answer, ⟨.opendir path, answer⟩ ∈ events → answer = .ok directory.names
  /-- The attributes. -/
  told : ∀ text answer, ⟨.stat text, answer⟩ ∈ events → answer = directory.stat text
  /-- The other calls. -/
  succeeded : AllSucceed events

/-- The loop goes on over an entry that it finds if there is room for it, and over one that it does
not find. -/
theorem every_listEntries_told (names : List { name : List UInt8 // NulFree name ∧ name ≠ [] })
    (entries : List FileEntry) (room : entries.length ≤ maxEntries) :
    (listEntries path names entries).Every fun events result =>
      (∀ text answer, ⟨.stat text, answer⟩ ∈ events → answer = directory.stat text) →
        result = if entries.length + (directory.listing names).length ≤ maxEntries
          then some (entries ++ directory.listing names) else none := by
  induction names generalizing entries with
  | nil =>
    show _ → some entries = if entries.length + 0 ≤ maxEntries then some (entries ++ []) else none
    intro _
    rw [if_pos (by omega), List.append_nil]
  | cons name later ih =>
    obtain ⟨name, proper⟩ := name
    unfold listEntries
    by_cases dots : name = str "." ∨ name = str ".."
    · have skipped : directory.listing (⟨name, proper⟩ :: later) = directory.listing later := by
        unfold listing
        rw [List.filter_cons_of_neg]
        unfold isEntry
        simp only [decide_eq_true_eq]
        tauto
      rw [if_pos dots, skipped]
      exact ih entries room
    · have asked : directory.listing (⟨name, proper⟩ :: later) =
          (directory.listed name).toList ++ directory.listing later := by
        unfold listing
        rw [List.filter_cons_of_pos (by unfold isEntry; simp only [decide_eq_true_eq]; tauto),
          List.filterMap_cons]
        cases directory.listed name <;> rfl
      rw [if_neg dots, asked]
      intro found
      cases found with
      | error failure =>
        refine (ih entries room).weaken fun events result goes told => ?_
        have failed := told _ _ List.mem_cons_self
        have absent : directory.listed name = none := by
          unfold listed
          rw [← failed]
          rfl
        rw [absent]
        exact goes fun text answer member => told text answer (List.mem_cons_of_mem _ member)
      | ok st =>
        have present : .ok st = directory.stat (formatted pathMax (path ++ str "/" ++ name)) →
            directory.listed name = some (fileEntry name st) := by
          intro found
          unfold listed
          rw [← found]
          rfl
        show Script.Every _ (if entries.length < maxEntries then _ else _)
        by_cases space : entries.length < maxEntries
        · rw [if_pos space]
          have grown : (entries ++ [fileEntry name st]).length = entries.length + 1 :=
            List.length_append
          refine (ih _ (by omega)).weaken fun events result goes told => ?_
          rw [present (told _ _ List.mem_cons_self),
            goes fun text answer member => told text answer (List.mem_cons_of_mem _ member), grown]
          simp only [Option.toList_some, List.append_assoc, List.length_append, List.length_singleton,
            Nat.add_assoc]
        · rw [if_neg space]
          intro told
          rw [present (told _ _ List.mem_cons_self), if_neg]
          simp only [Option.toList_some, List.length_append, List.length_singleton]
          omega

/-- The end of a listing delivers the array. -/
theorem every_endListing (res : HelperResponse) {entries : List FileEntry}
    (few : entries.length ≤ maxEntries) :
    (endListing res entries).Every fun events outcome => outcome ≠ .undefined ∧
      (AllSucceed events → Delivers (FileEntry.layout.encodeList entries) events) := by
  let answer := (res.succeed (str "Success")).listed entries.length
  let bytes := FileEntry.layout.encodeList entries
  have length : bytes.length = entries.length * 80 := Layout.length_encodeList _ _
  have announced : answer.payloadLen = UInt32.ofNat bytes.length := congrArg UInt32.ofNat length.symm
  have size : maxEntries = 1024 := rfl
  intro _
  show Script.Every _ (sendPayload answer bytes)
  have sends : (sendPayload answer bytes).Every _ := every_sendPayload rfl announced (by omega)
  refine sends.weaken fun events outcome both => ⟨both.1, fun all => ?_⟩
  obtain ⟨announces, payload⟩ := both.2 ((allSucceed_cons _ _).mp all).2
  exact ⟨announces, payload⟩

/-- The helper goes through the directory without leaving its array, and the server receives all it has
listed, exactly if that fits the array. -/
theorem every_handleHelperLs (session : ClientSession) (rootDir : List UInt8) (res : HelperResponse) :
    (handleHelperLs session path rootDir res).Every fun events outcome =>
      directory.Answers events →
        if (directory.listing directory.names).length ≤ maxEntries
          then outcome ≠ .undefined ∧
            Delivers (FileEntry.layout.encodeList (directory.listing directory.names)) events
          else outcome = .undefined := by
  apply (Script.every_bind _ _).mpr
  refine ((every_sandboxUser session rootDir _).conj
    (silent_sandboxUser session rootDir _).every).weaken fun before inside both => ?_
  obtain ⟨works, silent⟩ := both
  cases inside with
  | false =>
    intro sent answers
    exact absurd (works ((allSucceed_append _ _).mp answers.succeeded).1) Bool.false_ne_true
  | true =>
    rintro (failure | names)
    · refine (every_regainAndRespond _).weaken fun events outcome _ answers => ?_
      exact absurd (answers.opened (.error failure) (by simp)) (by simp)
    · show Script.Every _ (listEntries path names [] >>= _)
      apply (Script.every_bind _ _).mpr
      have loop := (directory.every_listEntries_told names [] (Nat.zero_le _)).conj
        (every_listEntries path names [] (Nat.zero_le _))
      have still : (listEntries path names []).Only Silent :=
        only_listEntries (fun _ => rfl) path names []
      refine (loop.conj still.every).weaken fun looping listed all => ?_
      obtain ⟨⟨goes, bounded⟩, quiet⟩ := all
      have told : ∀ ending : List HelperEvent,
          directory.Answers (before ++ ⟨.opendir path, .ok names⟩ :: (looping ++ ending)) →
            listed = if (directory.listing directory.names).length ≤ maxEntries
              then some (directory.listing directory.names) else none := by
        intro ending answers
        obtain rfl : names = directory.names := by
          have same := answers.opened (.ok names) (by simp)
          injection same
        rw [goes fun text answer member => answers.told text answer (by simp [member]),
          List.length_nil, Nat.zero_add, List.nil_append]
      rcases bounded with ⟨rfl, -⟩ | ⟨entries, rfl, -, few⟩
      · intro answers
        have filled := told [] answers
        rw [if_neg fun few => by rw [if_pos few] at filled; cases filled]
      · refine (every_endListing res few).weaken fun ending outcome sends answers => ?_
        have filled := told ending answers
        have fits : (directory.listing directory.names).length ≤ maxEntries := by
          by_contra many
          rw [if_neg many] at filled
          cases filled
        rw [if_pos fits] at filled ⊢
        injection filled with same
        subst same
        refine ⟨sends.1, ?_⟩
        have front : ∀ event ∈ before ++ ⟨.opendir path, .ok names⟩ :: looping,
            event.1.toServer = false := by
          intro event member
          rcases List.mem_append.mp member with first | rest
          · exact silent event first
          · rcases List.mem_cons.mp rest with rfl | later
            · rfl
            · exact quiet event later
        have split : before ++ ⟨.opendir path, .ok names⟩ :: (looping ++ ending) =
            (before ++ ⟨.opendir path, .ok names⟩ :: looping) ++ ending := by simp
        have later : AllSucceed ending := by
          have whole := answers.succeeded
          rw [split] at whole
          exact ((allSucceed_append _ _).mp whole).2
        rw [split]
        exact (sends.2 later).behind front

end Directory

/-- The row of an element of the array whose strings end in it. -/
def rowOf (entry : FileEntry) : ListRow :=
  ⟨cString entry.perms.bytes, cString entry.name.bytes, entry.size.toInt64.toInt⟩

/-- The strings of an element end in it. -/
def Terminated (entry : FileEntry) : Prop :=
  (0 : UInt8) ∈ entry.name.bytes ∧ (0 : UInt8) ∈ entry.perms.bytes

/-- The client finds the row of such an element at its place in memory. -/
theorem listRow_encode {entry : FileEntry} (ended : Terminated entry) {front : List UInt8}
    {index : Nat} (place : front.length = index * FileEntry.layout.size) (rest : List UInt8) :
    listRow (front ++ (FileEntry.layout.encode entry ++ rest)) index = rowOf entry := by
  have memory : (front ++ (FileEntry.layout.encode entry ++ rest)).drop
      (index * FileEntry.layout.size) = FileEntry.layout.encode entry ++ rest :=
    List.drop_left' place
  have image : FileEntry.layout.encode entry = entry.name.bytes ++ (entry.perms.bytes ++
      (entry.padding.bytes ++ Layout.word64.encode entry.size)) := rfl
  have perms : (FileEntry.layout.encode entry ++ rest).drop 56 = entry.perms.bytes ++
      (entry.padding.bytes ++ Layout.word64.encode entry.size ++ rest) := by
    rw [image, List.append_assoc, List.drop_left' entry.name.length_bytes, List.append_assoc]
  unfold listRow
  rw [memory]
  simp only [FileEntry.layout.decode_encode, perms]
  rw [cString_append_of_mem ended.2, image, List.append_assoc, cString_append_of_mem ended.1]
  rfl

/-- The client reads an array of such elements row by row. -/
theorem listRows_encodeList {entries : List FileEntry} (ended : ∀ entry ∈ entries, Terminated entry) :
    listRows (FileEntry.layout.encodeList entries) = entries.map rowOf := by
  have count : (FileEntry.layout.encodeList entries).length / FileEntry.layout.size =
      entries.length := by
    rw [Layout.length_encodeList]
    exact Nat.mul_div_cancel _ (by decide)
  unfold listRows
  rw [count]
  apply List.ext_getElem
  · simp
  · intro index _ inside
    have before : index < entries.length := by simpa using inside
    have split : FileEntry.layout.encodeList entries ++ [0] =
        FileEntry.layout.encodeList (entries.take index) ++ (FileEntry.layout.encode entries[index] ++
          (FileEntry.layout.encodeList (entries.drop (index + 1)) ++ [0])) := by
      have parts : entries = entries.take index ++ entries[index] :: entries.drop (index + 1) := by
        rw [← List.drop_eq_getElem_cons before, List.take_append_drop]
      conv_lhs => rw [parts]
      unfold Layout.encodeList
      rw [List.flatMap_append, List.flatMap_cons, List.append_assoc, List.append_assoc]
    rw [List.getElem_map, List.getElem_range, List.getElem_map, split]
    apply listRow_encode (ended _ (List.getElem_mem before))
    rw [Layout.length_encodeList, List.length_take_of_le (Nat.le_of_lt before)]

/-- The row that the client makes of an entry. -/
def shownEntry (name : List UInt8) (st : FileStat) : ListRow := ⟨modeText st, name.take 55, st.size⟩

/-- The element for an entry holds it. -/
theorem rowOf_fileEntry {name : List UInt8} (clean : NulFree name) {st : FileStat}
    (small : st.size < 2 ^ 63) :
    Terminated (fileEntry name st) ∧ rowOf (fileEntry name st) = shownEntry name st := by
  have cut : NulFree (name.take 55) := fun zero => clean (List.mem_of_mem_take zero)
  have shorter : (name.take 55).length < 56 := by
    rw [List.length_take]
    omega
  have perms := permissionText_spec st
  have first : cString (fileEntry name st).name.bytes = name.take 55 := by
    have stored := CharArray.cString_strncpy cut shorter []
    rwa [List.append_nil] at stored
  have second : cString (fileEntry name st).perms.bytes = modeText st := by
    have stored := CharArray.cString_strncpy perms.1 (show _ < 11 by rw [perms.2]; decide) []
    rw [List.append_nil] at stored
    rw [← permissionText_eq]
    exact stored
  have size : (fileEntry name st).size.toInt64.toInt = st.size := Int64.toInt_ofNat_of_lt small
  have ended : ∀ {n : Nat} (array : CharArray n), (cString array.bytes).length < n →
      (0 : UInt8) ∈ array.bytes := by
    intro n array short
    by_contra clean
    rw [cString_of_nulFree clean, array.length_bytes] at short
    exact Nat.lt_irrefl _ short
  refine ⟨⟨ended _ (first ▸ shorter), ended _ ?_⟩, ?_⟩
  · rw [second, ← permissionText_eq, perms.2]
    decide
  · unfold rowOf shownEntry
    rw [first, second, size]

namespace Directory

variable {path : List UInt8} (directory : Directory path)

/-- The row that the client prints for an entry, if the helper finds it. -/
def shown (name : List UInt8) : Option ListRow :=
  (directory.stat (formatted pathMax (path ++ str "/" ++ name))).toOption.map (shownEntry name)

/-- The client prints the row of what the helper lists. -/
theorem map_listed {name : List UInt8} (clean : NulFree name) :
    (∀ entry, directory.listed name = some entry → Terminated entry) ∧
      (directory.listed name).map rowOf = directory.shown name := by
  unfold listed shown
  cases told : directory.stat (formatted pathMax (path ++ str "/" ++ name)) with
  | error failure => exact ⟨nofun, rfl⟩
  | ok st =>
    obtain ⟨ended, same⟩ := rowOf_fileEntry clean (directory.sizes _ _ told)
    refine ⟨fun entry listed => ?_, congrArg some same⟩
    cases listed
    exact ended

/-- The rows that the client makes of what the helper lists. -/
theorem listRows_listing : listRows (FileEntry.layout.encodeList (directory.listing directory.names)) =
    directory.entries.filterMap fun name => directory.shown name.val := by
  have ended : ∀ entry ∈ directory.listing directory.names, Terminated entry := by
    intro entry member
    obtain ⟨name, -, listed⟩ := List.mem_filterMap.mp member
    exact (directory.map_listed name.property.1).1 entry listed
  rw [listRows_encodeList ended]
  unfold listing entries
  rw [List.map_filterMap]
  exact List.filterMap_congr fun name _ => (directory.map_listed name.property.1).2

/-- The entries fit the array, their names fit its elements, and the path of each, cut to its array,
leads to the attributes of the entry. -/
structure Fits : Prop where
  /-- The array. -/
  few : directory.entries.length ≤ maxEntries
  /-- The names. -/
  short : ∀ name ∈ directory.entries, name.val.length ≤ 55
  /-- The paths. -/
  reached : ∀ name ∈ directory.entries, ∃ st,
    directory.stat (formatted pathMax (path ++ str "/" ++ name)) = .ok st ∧
      modeText st = modeText (directory.attributes name) ∧
      st.size = (directory.attributes name).size

/-- The path of an entry that is not cut leads to its attributes. -/
theorem reached_of_short {name : { name : List UInt8 // NulFree name ∧ name ≠ [] }}
    (member : name ∈ directory.entries) (short : path.length + name.val.length + 1 < pathMax) :
    directory.stat (formatted pathMax (path ++ str "/" ++ name)) =
      .ok (directory.attributes name) := by
  have slash : (str "/").length = 1 := rfl
  have whole : formatted pathMax (path ++ str "/" ++ name) = path ++ str "/" ++ name := by
    apply List.take_of_length_le
    simp only [List.length_append]
    omega
  rw [whole]
  exact directory.found name (List.mem_filter.mp member).1

/-- The row of an entry is as it should be exactly if its name and its path fit. -/
theorem shown_eq_row_iff (name : List UInt8) : directory.shown name = some (directory.row name) ↔
    name.length ≤ 55 ∧ ∃ st, directory.stat (formatted pathMax (path ++ str "/" ++ name)) = .ok st ∧
      modeText st = modeText (directory.attributes name) ∧
      st.size = (directory.attributes name).size := by
  unfold shown row shownEntry
  cases directory.stat (formatted pathMax (path ++ str "/" ++ name)) with
  | error failure => exact iff_of_false nofun fun both => nomatch both.2
  | ok st =>
    have cut : name.take 55 = name ↔ name.length ≤ 55 := List.take_eq_self_iff name
    constructor
    · intro same
      injection same with same
      injection same with mode front size
      exact ⟨cut.mp front, st, rfl, mode, Int.ofNat.inj size⟩
    · rintro ⟨short, other, same, mode, size⟩
      cases same
      show some (ListRow.mk (modeText st) (name.take 55) st.size) = _
      rw [mode, cut.mpr short, size]

/-- Rows that are those of the entries in some order are the right ones. -/
theorem shown_eq_row_of_perm
    (same : (directory.entries.filterMap fun name => directory.shown name.val).Perm
      (directory.entries.map fun name => directory.row name.val)) :
    ∀ name ∈ directory.entries, directory.shown name.val = some (directory.row name.val) := by
  let made (name : { name : List UInt8 // NulFree name ∧ name ≠ [] }) : ListRow :=
    (directory.shown name.val).getD (directory.row name.val)
  have all : ∀ name ∈ directory.entries, directory.shown name.val = some (made name) := by
    have count := same.length_eq
    rw [List.length_map] at count
    intro name member
    have shows := List.filterMap_length_eq_length.mp count name member
    obtain ⟨row, shown⟩ := Option.isSome_iff_exists.mp shows
    show directory.shown name.val = some ((directory.shown name.val).getD _)
    rw [shown]
    rfl
  have front : ∀ name ∈ directory.entries, (made name).name = name.val.take 55 := by
    intro name member
    obtain ⟨st, -, row⟩ := Option.map_eq_some_iff.mp (all name member)
    rw [← row]
    rfl
  rw [List.filterMap_eq_map_iff_forall_eq_some.mpr all] at same
  have lengths := ((same.map fun row => row.name.length)).sum_eq
  rw [List.map_map, List.map_map] at lengths
  have short : ∀ name ∈ directory.entries, name.val.length ≤ 55 := by
    by_contra long
    push Not at long
    obtain ⟨name, member, long⟩ := long
    refine absurd lengths (Nat.ne_of_lt (List.sum_lt_sum _ _ ?_ ⟨name, member, ?_⟩))
    · intro other inside
      show (made other).name.length ≤ other.val.length
      rw [front other inside, List.length_take]
      omega
    · show (made name).name.length < name.val.length
      rw [front name member, List.length_take]
      omega
  intro name member
  obtain ⟨other, -, equal⟩ := List.mem_map.mp (same.mem_iff.mp (List.mem_map_of_mem member))
  have names : other.val = name.val := by
    have here := front name member
    rw [← equal, List.take_of_length_le (short name member)] at here
    exact here
  rw [all name member, ← equal, names]

/-- The rows are those of the entries in some order exactly if the names and the paths of all fit. -/
theorem rows_perm_iff : (directory.entries.filterMap fun name => directory.shown name.val).Perm
      (directory.entries.map fun name => directory.row name.val) ↔
    ∀ name ∈ directory.entries, directory.shown name.val = some (directory.row name.val) := by
  constructor
  · exact directory.shown_eq_row_of_perm
  · intro all
    rw [List.filterMap_eq_map_iff_forall_eq_some.mpr all]

end Directory

/-- A listing of a path, of a session that is logged in, which finds the helper and has memory. -/
structure HandlerCall.Lists (call : HandlerCall) (answers : HandlerAnswers) (path : List UInt8) :
    Prop where
  /-- The session is logged in. -/
  loggedIn : call.session.state = .loggedIn
  /-- The arguments of the command. -/
  parsed : ∃ name, call.args = [name, path]
  /-- The helper is reached. -/
  connects : answers .connectToHelper = true
  /-- There is memory. -/
  memory : ∀ size, (answers (.malloc size)).isSome
  /-- Requests can be sent, and responses be read. -/
  carries : ∀ request, (answers (.sendHelperRequest request)).carries = true

/-- The rows that the client prints for a message of the server. -/
def shownRows : HandlerEvent → List ListRow
  | ⟨.writeClient .lsres payload, _⟩ => listRows payload
  | _ => []

section

variable {ω : Type} (calls : ω → (op : HelperOp) → op.Answer × ω) (call : HandlerCall)
  (answers : HandlerAnswers) (helper : Helper) (registry : SharedRegistry) (world : ω)

/-- The run of the server for a listing. -/
def serverList : Script.Execution HandlerOp HandlerOp.Answer (Option ClientSession)
    (SharedRegistry × ω × List UInt8) :=
  (handleLs call).runOn (answers.serveStream helper calls) (registry, world, [])

/-- The run of the helper for it. -/
def helperList (path : List UInt8) : Script.Execution HelperOp HelperOp.Answer HelperOutcome ω :=
  (handleHelperLs call.session path helper.rootDir (.blank HelperCommand.ls.toWord)).runOn calls world

/-- The client prints the rows of the bytes that the helper delivers. -/
theorem rows_serverList {path : List UInt8} (lists : call.Lists answers path) {bytes : List UInt8}
    (delivers : Delivers bytes (helperList calls call helper world path).events)
    (short : bytes.length < 2 ^ 32) :
    (replies (serverList calls call answers helper registry world).events).flatMap shownRows =
      listRows bytes := by
  obtain ⟨name, args⟩ := lists.parsed
  let unreachable := str "Internal server error: Helper unreachable"
  have selected : handleLs call = call.fetch unreachable (.plain .ls [path] (some call.session))
      .lsres (str "Directory is empty") := by
    unfold handleLs HandlerCall.loggedIn
    rw [if_neg (not_not.mpr lists.loggedIn), args]
  obtain ⟨-, -, delivered⟩ := ends_fetch call lists.connects lists.memory lists.carries helper calls
    registry world unreachable (.plain .ls [path] (some call.session)) .lsres (str "Directory is empty")
  unfold serverList
  rw [selected, delivered bytes delivers short]
  by_cases nothing : bytes = []
  · subst nothing
    rfl
  · rw [if_neg nothing]
    exact List.append_nil _

/-- The array is not left, and the client prints one row for every entry besides the dots. -/
structure ListsEvery {path : List UInt8} (directory : Directory path) : Prop where
  /-- The array. -/
  inBounds : (helperList calls call helper world path).value ≠ .undefined
  /-- The rows. -/
  rows : ((replies (serverList calls call answers helper registry world).events).flatMap
    shownRows).Perm (directory.entries.map fun name => directory.row name.val)
  /-- No row is there twice. -/
  distinct : ((replies (serverList calls call answers helper registry world).events).flatMap
    shownRows).Nodup

variable {path : List UInt8} (directory : Directory path)

/-- What the helper lists fits the array exactly if the array is not left, and then the client prints
the rows of it. -/
theorem rows_of_answers (lists : call.Lists answers path)
    (told : directory.Answers (helperList calls call helper world path).events) :
    ((directory.listing directory.names).length ≤ maxEntries ↔
      (helperList calls call helper world path).value ≠ .undefined) ∧
    ((directory.listing directory.names).length ≤ maxEntries →
      (replies (serverList calls call answers helper registry world).events).flatMap shownRows =
        directory.entries.filterMap fun name => directory.shown name.val) := by
  have ran := (directory.every_handleHelperLs call.session helper.rootDir
    (.blank HelperCommand.ls.toWord)).runOn calls world told
  by_cases few : (directory.listing directory.names).length ≤ maxEntries
  · rw [if_pos few] at ran
    refine ⟨iff_of_true few ran.1, fun _ => ?_⟩
    have size : maxEntries = 1024 := rfl
    have short : (FileEntry.layout.encodeList (directory.listing directory.names)).length < 2 ^ 32 := by
      rw [Layout.length_encodeList, FileEntry.size_layout]
      omega
    rw [rows_serverList calls call answers helper registry world lists ran.2 short]
    exact directory.listRows_listing
  · rw [if_neg few] at ran
    exact ⟨iff_of_false few (not_not.mpr ran), fun fits => absurd fits few⟩

/-- A listing that shows every entry fits. -/
theorem fits_of_listsEvery (lists : call.Lists answers path)
    (told : directory.Answers (helperList calls call helper world path).events)
    (every : ListsEvery calls call answers helper registry world directory) : directory.Fits := by
  obtain ⟨bound, rows⟩ := rows_of_answers calls call answers helper registry world directory lists told
  have few := bound.mpr every.inBounds
  have perm := every.rows
  rw [rows few] at perm
  have all := directory.rows_perm_iff.mp perm
  have count := perm.length_eq
  rw [← directory.listRows_listing, listRows, List.length_map, List.length_range,
    Layout.length_encodeList, Nat.mul_div_cancel _ (by decide), List.length_map] at count
  exact ⟨count ▸ few, fun name member => ((directory.shown_eq_row_iff _).mp (all name member)).1,
    fun name member => ((directory.shown_eq_row_iff _).mp (all name member)).2⟩

/-- A listing that fits shows every entry. -/
theorem listsEvery_of_fits (lists : call.Lists answers path)
    (told : directory.Answers (helperList calls call helper world path).events)
    (fits : directory.Fits) : ListsEvery calls call answers helper registry world directory := by
  obtain ⟨bound, rows⟩ := rows_of_answers calls call answers helper registry world directory lists told
  have few : (directory.listing directory.names).length ≤ maxEntries :=
    Nat.le_trans (List.length_filterMap_le _ _) fits.few
  have all : ∀ name ∈ directory.entries,
      directory.shown name.val = some (directory.row name.val) := fun name member =>
    (directory.shown_eq_row_iff _).mpr ⟨fits.short name member, fits.reached name member⟩
  have made := List.filterMap_eq_map_iff_forall_eq_some.mpr all
  have names : (directory.entries.map fun name => directory.row name.val).Nodup := by
    refine (directory.distinct.filter _).map fun left right same => ?_
    exact Subtype.ext (congrArg ListRow.name same)
  refine ⟨bound.mp few, ?_, ?_⟩
  · rw [rows few, made]
  · rw [rows few, made]
    exact names

/-- A listing shows every entry exactly if the entries, their names and their paths fit. -/
theorem listsEvery_iff (lists : call.Lists answers path)
    (told : directory.Answers (helperList calls call helper world path).events) :
    ListsEvery calls call answers helper registry world directory ↔ directory.Fits :=
  ⟨fits_of_listsEvery calls call answers helper registry world directory lists told,
    listsEvery_of_fits calls call answers helper registry world directory lists told⟩

end

/-- A system that tells of the directory and grants everything else. -/
def Directory.calls {path : List UInt8} (directory : Directory path) (world : Unit) (op : HelperOp) :
    op.Answer × Unit :=
  (match op with
    | .opendir _ => .ok directory.names
    | .stat text => directory.stat text
    | op => (obliging.answer 0 op).1, world)

/-- Its answers tell of the directory. -/
theorem Directory.answers_calls {path : List UInt8} (directory : Directory path) {α : Type}
    (script : HelperScript α) : directory.Answers (script.runOn directory.calls ()).events := by
  have answered : ∀ op answer, ⟨op, answer⟩ ∈ (script.runOn directory.calls ()).events →
      answer = (directory.calls () op).1 := by
    induction script with
    | pure value => exact fun _ _ member => absurd member List.not_mem_nil
    | call op next ih =>
      intro other answer member
      rcases List.mem_cons.mp member with same | later
      · cases same
        rfl
      · exact ih _ other answer later
  refine ⟨fun answer => answered (.opendir path) answer,
    fun text answer => answered (.stat text) answer, ?_⟩
  rintro ⟨op, answer⟩ member
  rw [answered op answer member]
  cases op <;> first | rfl | simp [HelperEvent.succeeds, calls, obliging, allBytes]

/-- A home with a file and a directory. -/
def homeListing : Directory (str ".") where
  names := [⟨str ".", by decide⟩, ⟨str "..", by decide⟩, ⟨str "notes", by decide⟩,
    ⟨str "photos", by decide⟩]
  distinct := by decide
  stat text := if text = str "./notes" then .ok ⟨.regular, 0o640, 5⟩ else .ok ⟨.directory, 0o755, 4096⟩
  attributes name := if name = str "notes" then ⟨.regular, 0o640, 5⟩ else ⟨.directory, 0o755, 4096⟩
  found := by decide
  sizes := by
    intro text st told
    split at told
    · cases told
      decide
    · cases told
      decide

/-- The call for a listing of the current directory. -/
theorem lists_here : (commandCall 9 (aliceAt []) (str "ls .")).Lists willing (str ".") :=
  ⟨rfl, ⟨str "ls", by decide +kernel⟩, rfl, fun _ => rfl, fun _ => rfl⟩

/-- Both are shown. -/
theorem listsEvery_home :
    ListsEvery homeListing.calls (commandCall 9 (aliceAt []) (str "ls .")) willing srvHelper
      initSharedRegistry () homeListing := by
  refine (listsEvery_iff _ _ willing srvHelper initSharedRegistry () homeListing lists_here
    (homeListing.answers_calls _)).mpr ⟨by decide, by decide, fun name member => ?_⟩
  have short : name.val.length ≤ 55 := by
    revert name
    decide
  have long : (str ".").length = 1 := rfl
  have room : pathMax = 4096 := rfl
  exact ⟨_, homeListing.reached_of_short member (by omega), rfl, rfl⟩

/-- A directory of empty files that are numbered. -/
def numberedListing (count : Nat) : Directory (str ".") where
  names := (List.range count).map fun number : Nat => ⟨formatInt number, by
    refine ⟨fun zero => ?_, formatInt_ne_nil number⟩
    exact absurd (decimal_formatInt number 0 zero).1 (by decide)⟩
  distinct := by
    refine List.nodup_range.map fun left right same => ?_
    have values := congrArg (fun name => digitsValue 10 name.val) same
    simpa only [digitsValue_formatInt] using values
  stat _ := .ok ⟨.regular, 0o644, 0⟩
  attributes _ := ⟨.regular, 0o644, 0⟩
  found _ _ := rfl
  sizes _ _ told := by
    cases told
    decide

/-- All of them are entries. -/
theorem length_entries_numberedListing (count : Nat) :
    (numberedListing count).entries.length = count := by
  have all : (numberedListing count).entries = (numberedListing count).names := by
    apply List.filter_eq_self.mpr
    intro name member
    obtain ⟨number, -, rfl⟩ := List.mem_map.mp member
    have dot : ∀ later, formatInt number ≠ 46 :: later := by
      intro later same
      exact absurd (decimal_formatInt number 46 (same ▸ List.mem_cons_self)).1 (by decide)
    exact decide_eq_true ⟨dot _, dot _⟩
  rw [all]
  exact (List.length_map _).trans List.length_range

/-- The last of 1025 is stored behind the array. -/
theorem not_listsEvery_crowded :
    ¬ ListsEvery (numberedListing 1025).calls (commandCall 9 (aliceAt []) (str "ls .")) willing
      srvHelper initSharedRegistry () (numberedListing 1025) := by
  intro every
  have few := (fits_of_listsEvery _ _ willing srvHelper initSharedRegistry () _ lists_here
    ((numberedListing 1025).answers_calls _) every).few
  rw [length_entries_numberedListing] at few
  exact absurd few (by decide)

end FileServer
