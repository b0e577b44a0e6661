import Mathlib.Data.List.Perm.Subperm
import Mathlib.Logic.Function.Basic
import FileServer.Lib.Run
import FileServer.Lib.Serial

/-!
# Sections behind a semaphore

Processes that access one memory in sections, each between a wait for a semaphore and a post to it. A
wait that is interrupted ends without having been granted, and its caller enters the section all the
same. The value of the semaphore and the number of callers in a section add up to the first value and
the number of interrupted waits. So without them the sections of a semaphore that starts at one have
the effect of single steps, and after the first of them the sections are never kept apart again.
-/
namespace FileServer.Lib

variable {process memory task : Type} {Scratch : task → Type}

/-- An access to the memory by a caller with local variables. -/
abbrev Access (memory scratch : Type) := memory × scratch → memory × scratch

/-- Accesses one after the other. -/
def accessAll {scratch : Type} (todo : List (Access memory scratch)) (state : memory × scratch) :
    memory × scratch :=
  todo.foldl (fun state access => access state) state

/-- What the sections do. -/
structure Sections (memory : Type) {task : Type} (Scratch : task → Type) where
  /-- The local variables at the beginning. -/
  begins : (entered : task) → Scratch entered
  /-- The accesses. -/
  accesses : (entered : task) → List (Access memory (Scratch entered))

namespace Sections

variable (sections : Sections memory Scratch)

/-- A section on a memory that nobody else accesses. -/
def alone (entered : task) (content : memory) : memory × Scratch entered :=
  accessAll (sections.accesses entered) (content, sections.begins entered)

/-- A section as a single step, with what it leaves in the local variables. -/
def execute (entered : task) (content : memory) : (Σ entered, Scratch entered) × memory :=
  (⟨entered, (sections.alone entered content).2⟩, (sections.alone entered content).1)

end Sections

/-- Where a process stands. -/
inductive SectionPhase (memory : Type) {task : Type} (Scratch : task → Type)
  /-- In no section. -/
  | outside
  /-- Waits for the semaphore in front of a section. -/
  | waiting (entered : task)
  /-- In a section, with the accesses that are left and its local variables. -/
  | inside (entered : task) (todo : List (Access memory (Scratch entered)))
    (scratch : Scratch entered)

/-- The process is in a section. -/
def SectionPhase.isInside : SectionPhase memory Scratch → Bool
  | inside .. => true
  | _ => false

/-- A semaphore, the memory and the processes. -/
structure Guard (process memory : Type) {task : Type} (Scratch : task → Type) where
  /-- The value of the semaphore. -/
  value : Nat
  /-- Where every process stands. -/
  phase : process → SectionPhase memory Scratch
  /-- The memory. -/
  content : memory
  /-- The sections that have ended, with what they have left in the local variables. -/
  ended : List (Σ entered, Scratch entered)

/-- What a process does next. -/
inductive GuardCall (task : Type)
  /-- It comes to wait for the semaphore. -/
  | wait (entered : task)
  /-- Its wait is granted. -/
  | grant
  /-- Its wait is interrupted. -/
  | interrupt
  /-- Its next access. -/
  | access
  /-- The post behind a section. -/
  | post

/-- The wait of a process is interrupted. -/
def GuardCall.isInterrupt : GuardCall task → Bool
  | interrupt => true
  | _ => false

/-- How often waits are interrupted. -/
def interruptions (schedule : List (process × GuardCall task)) : Nat :=
  schedule.countP fun step => step.2.isInterrupt

namespace Guard

variable [DecidableEq process]

/-- Nobody is in a section. -/
def start (value : Nat) (content : memory) : Guard process memory Scratch :=
  ⟨value, fun _ => .outside, content, []⟩

/-- The process goes on elsewhere. -/
def go (state : Guard process memory Scratch) (caller : process)
    (phase : SectionPhase memory Scratch) : Guard process memory Scratch :=
  { state with phase := Function.update state.phase caller phase }

/-- The post behind a section. -/
def leave (state : Guard process memory Scratch) (entered : task) (scratch : Scratch entered) :
    Guard process memory Scratch :=
  { state with
    value := state.value + 1
    ended := state.ended ++ [⟨entered, scratch⟩] }

variable (sections : Sections memory Scratch)

/-- One step of a process. -/
def next (state : Guard process memory Scratch) (step : process × GuardCall task) :
    Option (Guard process memory Scratch) :=
  match state.phase step.1, step.2 with
  | .outside, .wait entered => some (state.go step.1 (.waiting entered))
  | .waiting entered, .grant =>
    if 0 < state.value then
      some ({ state with value := state.value - 1 }.go step.1
        (.inside entered (sections.accesses entered) (sections.begins entered)))
    else none
  | .waiting entered, .interrupt =>
    some (state.go step.1
      (.inside entered (sections.accesses entered) (sections.begins entered)))
  | .inside entered (access :: todo) scratch, .access =>
    let (content, scratch) := access (state.content, scratch)
    some ({ state with content }.go step.1 (.inside entered todo scratch))
  | .inside entered [] scratch, .post =>
    some ((state.leave entered scratch).go step.1 .outside)
  | _, _ => none

/-- What a step of a process brings about. -/
inductive Moves (state : Guard process memory Scratch) (caller : process) :
    GuardCall task → Guard process memory Scratch → Prop
  /-- It waits. -/
  | wait (entered : task) (out : state.phase caller = .outside) :
    Moves state caller (.wait entered) (state.go caller (.waiting entered))
  /-- It enters the section with the semaphore. -/
  | grant {entered : task} (waits : state.phase caller = .waiting entered)
    (free : 0 < state.value) :
    Moves state caller .grant ({ state with value := state.value - 1 }.go caller
      (.inside entered (sections.accesses entered) (sections.begins entered)))
  /-- It enters the section without the semaphore. -/
  | interrupt {entered : task} (waits : state.phase caller = .waiting entered) :
    Moves state caller .interrupt (state.go caller
      (.inside entered (sections.accesses entered) (sections.begins entered)))
  /-- It accesses the memory. -/
  | access {entered : task} {access : Access memory (Scratch entered)}
    {todo : List (Access memory (Scratch entered))} {scratch : Scratch entered}
    (goes : state.phase caller = .inside entered (access :: todo) scratch) :
    Moves state caller .access ({ state with content := (access (state.content, scratch)).1 }.go
      caller (.inside entered todo (access (state.content, scratch)).2))
  /-- It leaves the section. -/
  | post {entered : task} {scratch : Scratch entered}
    (done : state.phase caller = .inside entered [] scratch) :
    Moves state caller .post ((state.leave entered scratch).go caller .outside)

variable {sections}

/-- Every step is of one of these kinds. -/
theorem moves {state after : Guard process memory Scratch} {caller : process}
    {call : GuardCall task} (stepped : next sections state (caller, call) = some after) :
    Moves sections state caller call after := by
  unfold next at stepped
  dsimp only at stepped
  split at stepped
  case h_1 entered phase =>
    obtain rfl := Option.some.inj stepped
    exact .wait entered phase
  case h_2 entered phase =>
    obtain ⟨free, same⟩ := Option.ite_none_right_eq_some.mp stepped
    obtain rfl := Option.some.inj same
    exact .grant phase free
  case h_3 entered phase =>
    obtain rfl := Option.some.inj stepped
    exact .interrupt phase
  case h_4 entered access todo scratch phase =>
    obtain rfl := Option.some.inj stepped
    exact .access phase
  case h_5 entered scratch phase =>
    obtain rfl := Option.some.inj stepped
    exact .post phase
  case h_6 => cases stepped

section

variable (state : Guard process memory Scratch) (caller : process)
  (phase : SectionPhase memory Scratch)

/-- The process itself has gone on. -/
@[simp]
theorem phase_go_self : (state.go caller phase).phase caller = phase := Function.update_self ..

/-- The other processes stand where they stood. -/
theorem phase_go_other {other : process} (apart : other ≠ caller) :
    (state.go caller phase).phase other = state.phase other := Function.update_of_ne apart ..

end

/-- The processes in a section, and how many there can be. -/
structure Balanced (units : Nat) (state : Guard process memory Scratch) (holders : List process) :
    Prop where
  /-- Each is listed once. -/
  nodup : holders.Nodup
  /-- They are listed. -/
  listed : ∀ caller, caller ∈ holders ↔ (state.phase caller).isInside = true
  /-- With the value of the semaphore they add up. -/
  total : state.value + holders.length = units

/-- A process that enters a section is one more. -/
theorem Balanced.enter {units more : Nat} {state after : Guard process memory Scratch}
    {holders : List process} (balanced : state.Balanced units holders) {caller : process}
    {phase : SectionPhase memory Scratch} (inside : phase.isInside = true)
    (out : (state.phase caller).isInside = false)
    (same : after.phase = (state.go caller phase).phase)
    (total : after.value + 1 + units = state.value + more) :
    after.Balanced more (caller :: holders) := by
  have fresh : caller ∉ holders := by
    rw [balanced.listed, out]
    exact Bool.false_ne_true
  refine ⟨List.nodup_cons.mpr ⟨fresh, balanced.nodup⟩, fun other => ?_, ?_⟩
  · rw [same, List.mem_cons]
    by_cases mine : other = caller
    · subst mine
      simp [inside]
    · rw [phase_go_other _ _ _ mine, ← balanced.listed]
      simp [mine]
  · have sum := balanced.total
    rw [List.length_cons]
    omega

/-- Every step keeps the balance; an interrupted wait adds a unit. -/
theorem Balanced.next {units : Nat} {state after : Guard process memory Scratch}
    {holders : List process} (balanced : state.Balanced units holders) {caller : process}
    {call : GuardCall task} (moves : Moves sections state caller call after) :
    ∃ holders, after.Balanced (units + if call.isInterrupt then 1 else 0) holders := by
  -- a step that leaves the process where it is, inside or not
  have stays : ∀ {now : SectionPhase memory Scratch}, now.isInside = (state.phase caller).isInside →
      ∀ other, other ∈ holders ↔ ((state.go caller now).phase other).isInside = true := by
    intro now same other
    by_cases mine : other = caller
    · subst mine
      rw [phase_go_self, same, balanced.listed]
    · rw [phase_go_other _ _ _ mine, balanced.listed]
  cases moves with
  | wait entered out =>
    exact ⟨holders, balanced.nodup, stays (by rw [out]; rfl), balanced.total⟩
  | grant waits free =>
    refine ⟨caller :: holders, balanced.enter rfl (by rw [waits]; rfl) rfl ?_⟩
    show state.value - 1 + 1 + units = state.value + (units + 0)
    omega
  | interrupt waits =>
    refine ⟨caller :: holders, balanced.enter rfl (by rw [waits]; rfl) rfl ?_⟩
    show state.value + 1 + units = state.value + (units + 1)
    omega
  | access goes =>
    exact ⟨holders, balanced.nodup, stays (by rw [goes]; rfl), balanced.total⟩
  | post done =>
    have listed : caller ∈ holders := by
      rw [balanced.listed, done]
      rfl
    refine ⟨holders.erase caller, balanced.nodup.erase caller, fun other => ?_, ?_⟩
    · by_cases mine : other = caller
      · subst mine
        rw [phase_go_self]
        simp [balanced.nodup.not_mem_erase, SectionPhase.isInside]
      · rw [phase_go_other _ _ _ mine, List.mem_erase_of_ne mine, balanced.listed]
        rfl
    · have sum := balanced.total
      have positive := List.length_pos_of_mem listed
      rw [List.length_erase_of_mem listed]
      show state.value + 1 + (holders.length - 1) = units + 0
      omega

/-- The value of the semaphore and the callers in a section add up to the first value and the number
of interrupted waits. -/
theorem balanced_of_run {value : Nat} {content : memory}
    {schedule : List (process × GuardCall task)} {state : Guard process memory Scratch}
    (run : runFrom (next sections) (start value content) schedule = some state) :
    ∃ holders, state.Balanced (value + interruptions schedule) holders := by
  refine run_history (fun schedule state =>
    ∃ holders, Balanced (value + interruptions schedule) state holders) ?_ ?_ run
  · intro schedule state step after _ balanced stepped
    obtain ⟨holders, balanced⟩ := balanced
    obtain ⟨more, kept⟩ := balanced.next (moves stepped)
    refine ⟨more, ?_⟩
    unfold interruptions at kept ⊢
    rwa [List.countP_append, List.countP_singleton, ← Nat.add_assoc]
  · exact ⟨[], List.nodup_nil, fun caller => by simp [start, SectionPhase.isInside], rfl⟩

omit [DecidableEq process] in
/-- No more processes are in a section than there are units. -/
theorem Balanced.length_le {units : Nat} {state : Guard process memory Scratch}
    {holders : List process} (balanced : state.Balanced units holders) {callers : List process}
    (nodup : callers.Nodup) (inside : ∀ caller ∈ callers, (state.phase caller).isInside = true) :
    callers.length ≤ units := by
  have listed : callers ⊆ holders := fun caller member =>
    (balanced.listed caller).mpr (inside caller member)
  have few := (List.subperm_of_subset nodup listed).length_le
  have sum := balanced.total
  omega

omit [DecidableEq process] in
/-- Two processes in a section are one if there is only one unit. -/
theorem Balanced.exclusive {state : Guard process memory Scratch} {holders : List process}
    (balanced : state.Balanced 1 holders) {first second : process}
    (one : (state.phase first).isInside = true) (other : (state.phase second).isInside = true) :
    first = second := by
  have short : holders.length ≤ 1 := by
    have sum := balanced.total
    omega
  have member := (balanced.listed first).mpr one
  have member' := (balanced.listed second).mpr other
  cases holders with
  | nil => exact absurd member List.not_mem_nil
  | cons holder others =>
    obtain rfl := List.eq_nil_of_length_eq_zero (Nat.le_zero.mp (Nat.le_of_succ_le_succ short))
    rw [List.mem_singleton.mp member, List.mem_singleton.mp member']

/-- The memory and what the sections have found out are as if the sections that have ended had been
single steps, up to the section that has begun. -/
structure Serial (sections : Sections memory Scratch) (first : memory)
    (state : Guard process memory Scratch) (committed : memory) : Prop where
  /-- The sections that have ended. -/
  ended : inOrder sections.execute (state.ended.map Sigma.fst) first =
    (state.ended.map fun done => (done.1, done), committed)
  /-- What is left of a section that has begun leads where the whole section does. -/
  begun : ∀ caller entered todo scratch, state.phase caller = .inside entered todo scratch →
    accessAll todo (state.content, scratch) = sections.alone entered committed
  /-- Without one the memory is as they have left it. -/
  idle : (∀ caller, (state.phase caller).isInside = false) → state.content = committed

/-- A step that keeps the sections apart keeps them single steps. -/
theorem Serial.next {first committed : memory} {state after : Guard process memory Scratch}
    (serial : Serial sections first state committed) {caller : process} {call : GuardCall task}
    (moves : Moves sections state caller call after)
    (apart : ∀ one other, (state.phase one).isInside = true → (state.phase other).isInside = true →
      one = other)
    (apart' : ∀ one other, (after.phase one).isInside = true →
      (after.phase other).isInside = true → one = other) :
    ∃ committed, Serial sections first after committed := by
  -- a process that enters a section was alone outside of one
  have enters : ∀ {entered : task} {now : Guard process memory Scratch},
      state.phase caller = .waiting entered → now.content = state.content →
      now.ended = state.ended →
      now.phase = (state.go caller
        (.inside entered (sections.accesses entered) (sections.begins entered))).phase →
      (∀ one other, (now.phase one).isInside = true → (now.phase other).isInside = true →
        one = other) → Serial sections first now committed := by
    intro entered now waits content ended phase alone
    have mine : now.phase caller =
        .inside entered (sections.accesses entered) (sections.begins entered) := by
      rw [phase, phase_go_self]
    have quiet : ∀ other, (state.phase other).isInside = false := by
      intro other
      by_cases same : other = caller
      · rw [same, waits]
        rfl
      · by_contra busy
        apply same
        apply alone other caller
        · rw [phase, phase_go_other _ _ _ same]
          exact Bool.not_eq_false _ ▸ busy
        · rw [mine]
          rfl
    refine ⟨ended ▸ serial.ended, fun other begun todo scratch goes => ?_, fun idle => ?_⟩
    · obtain rfl := alone other caller (by rw [goes]; rfl) (by rw [mine]; rfl)
      rw [mine] at goes
      cases goes
      rw [content, serial.idle quiet]
      rfl
    · have busy := idle caller
      rw [mine] at busy
      cases busy
  cases moves with
  | wait entered out =>
    refine ⟨committed, serial.ended, fun other begun todo scratch goes => ?_, fun idle => ?_⟩
    · by_cases mine : other = caller
      · rw [mine, phase_go_self] at goes
        cases goes
      · rw [phase_go_other _ _ _ mine] at goes
        exact serial.begun other begun todo scratch goes
    · refine serial.idle fun other => ?_
      by_cases mine : other = caller
      · rw [mine, out]
        rfl
      · have quiet := idle other
        rwa [phase_go_other _ _ _ mine] at quiet
  | grant waits free => exact ⟨committed, enters waits rfl rfl rfl apart'⟩
  | interrupt waits => exact ⟨committed, enters waits rfl rfl rfl apart'⟩
  | @access entered access todo scratch goes =>
    refine ⟨committed, serial.ended, fun other begun todo' scratch' inside => ?_, fun idle => ?_⟩
    · by_cases mine : other = caller
      · subst mine
        rw [phase_go_self] at inside
        cases inside
        exact serial.begun other entered (access :: todo) scratch goes
      · rw [phase_go_other _ _ _ mine] at inside
        exact absurd (apart other caller (by rw [inside]; rfl) (by rw [goes]; rfl)) mine
    · have busy := idle caller
      rw [phase_go_self] at busy
      cases busy
  | @post entered scratch done =>
    have whole : (state.content, scratch) = sections.alone entered committed :=
      serial.begun caller entered [] scratch done
    refine ⟨state.content, ?_, fun other begun todo scratch' inside => ?_, fun _ => rfl⟩
    · let left : Σ entered, Scratch entered := ⟨entered, scratch⟩
      show inOrder _ ((state.ended ++ [left]).map Sigma.fst) first =
        ((state.ended ++ [left]).map _, _)
      rw [List.map_append, List.map_append, List.map_singleton, List.map_singleton, inOrder_append,
        serial.ended]
      unfold Sections.execute
      rw [← whole]
    · by_cases mine : other = caller
      · subst mine
        rw [phase_go_self] at inside
        cases inside
      · rw [phase_go_other _ _ _ mine] at inside
        have goes : state.phase other = .inside begun todo scratch' := inside
        exact absurd (apart other caller (by rw [goes]; rfl) (by rw [done]; rfl)) mine

/-- Without interrupted waits the sections behind a semaphore that starts at one have the effect of
single steps. -/
theorem serial_of_run {content : memory} {schedule : List (process × GuardCall task)}
    {state : Guard process memory Scratch}
    (run : runFrom (next sections) (start 1 content) schedule = some state)
    (uninterrupted : interruptions schedule = 0) :
    ∃ committed, Serial sections content state committed := by
  have apart : ∀ {schedule : List (process × GuardCall task)}
      {state : Guard process memory Scratch},
      runFrom (next sections) (start 1 content) schedule = some state →
        interruptions schedule = 0 → ∀ one other, (state.phase one).isInside = true →
          (state.phase other).isInside = true → one = other := by
    intro schedule state run none one other
    obtain ⟨holders, balanced⟩ := balanced_of_run run
    rw [none] at balanced
    exact balanced.exclusive
  refine run_history (fun schedule state => interruptions schedule = 0 →
    ∃ committed, Serial sections content state committed) ?_ ?_ run uninterrupted
  · intro schedule state step after earlier serial stepped none
    have both : interruptions schedule + interruptions [step] = 0 := by
      rw [← none]
      exact (List.countP_append ..).symm
    have quiet : interruptions schedule = 0 := by omega
    obtain ⟨committed, serial⟩ := serial quiet
    refine serial.next (moves stepped) (apart earlier quiet) (apart ?_ none)
    rw [runFrom_append, earlier, Option.bind_some, runFrom, stepped]
    rfl
  · intro _
    refine ⟨content, rfl, fun caller entered todo scratch inside => ?_, fun _ => rfl⟩
    cases inside

variable (sections)

/-- A process that is in a section comes out of it. -/
theorem exists_out {state : Guard process memory Scratch} {caller : process}
    (inside : (state.phase caller).isInside = true) :
    ∃ later after, runFrom (next sections) state later = some after ∧ interruptions later = 0 ∧
      after.value = state.value + 1 ∧
      after.phase = Function.update state.phase caller .outside := by
  cases phase : state.phase caller with
  | outside => rw [phase] at inside; cases inside
  | waiting entered => rw [phase] at inside; cases inside
  | inside entered todo scratch =>
    clear inside
    induction todo generalizing state scratch with
    | nil =>
      refine ⟨[(caller, .post)], (state.leave entered scratch).go caller .outside, ?_, rfl, rfl, rfl⟩
      simp [runFrom, next, phase]
    | cons access todo ih =>
      let accessed : Guard process memory Scratch :=
        { state with content := (access (state.content, scratch)).1 }.go caller
          (.inside entered todo (access (state.content, scratch)).2)
      obtain ⟨later, after, run, none, value, same⟩ := ih _ (phase_go_self _ caller _ :
        accessed.phase caller = _)
      refine ⟨(caller, .access) :: later, after, ?_, none, value, ?_⟩
      · have stepped : next sections state (caller, .access) = some accessed := by
          simp [next, phase, accessed]
        rw [runFrom, stepped]
        exact run
      · rw [same]
        exact Function.update_idem ..

/-- One run behind another. -/
theorem run_behind {state middle after : Guard process memory Scratch}
    {earlier later : List (process × GuardCall task)}
    (first : runFrom (next sections) state earlier = some middle)
    (second : runFrom (next sections) middle later = some after)
    (none : interruptions earlier = 0) (none' : interruptions later = 0) :
    runFrom (next sections) state (earlier ++ later) = some after ∧
      interruptions (earlier ++ later) = 0 := by
  refine ⟨?_, ?_⟩
  · rw [runFrom_append, first]
    exact second
  · unfold interruptions at none none' ⊢
    rw [List.countP_append, none, none']

/-- All that are in a section come out of it. -/
theorem exists_empty {units : Nat} {state : Guard process memory Scratch} {holders : List process}
    (balanced : state.Balanced units holders) :
    ∃ later after, runFrom (next sections) state later = some after ∧ interruptions later = 0 ∧
      after.value = units ∧ ∀ caller, (after.phase caller).isInside = false := by
  induction holders generalizing state with
  | nil =>
    refine ⟨[], state, rfl, rfl, balanced.total, fun caller => ?_⟩
    by_contra busy
    exact List.not_mem_nil ((balanced.listed caller).mpr (Bool.not_eq_false _ ▸ busy))
  | cons holder others ih =>
    obtain ⟨fresh, nodup⟩ := List.nodup_cons.mp balanced.nodup
    obtain ⟨earlier, middle, first, none, value, same⟩ := exists_out sections
      ((balanced.listed holder).mp List.mem_cons_self)
    have rest : middle.Balanced units others := by
      refine ⟨nodup, fun other => ?_, ?_⟩
      · rw [same]
        by_cases mine : other = holder
        · rw [mine, Function.update_self]
          simp [fresh, SectionPhase.isInside]
        · rw [Function.update_of_ne mine, ← balanced.listed]
          simp [mine]
      · have sum := balanced.total
        rw [List.length_cons] at sum
        omega
    obtain ⟨later, after, second, none', total, out⟩ := ih rest
    obtain ⟨run, quiet⟩ := run_behind sections first second none none'
    exact ⟨_, after, run, quiet, total, out⟩

/-- A process that is in no section comes into one while the semaphore has units left. -/
theorem exists_inside {state : Guard process memory Scratch} {caller : process}
    (out : (state.phase caller).isInside = false) (free : 0 < state.value) (entered : task) :
    ∃ later after, runFrom (next sections) state later = some after ∧ interruptions later = 0 ∧
      after.value + 1 = state.value ∧ (after.phase caller).isInside = true ∧
      ∀ other, other ≠ caller → after.phase other = state.phase other := by
  have grants : ∀ {waiting : Guard process memory Scratch} {entered : task},
      waiting.phase caller = .waiting entered → waiting.value = state.value →
      (∀ other, other ≠ caller → waiting.phase other = state.phase other) →
      ∃ after, next sections waiting (caller, .grant) = some after ∧
        after.value + 1 = state.value ∧ (after.phase caller).isInside = true ∧
        ∀ other, other ≠ caller → after.phase other = state.phase other := by
    intro waiting entered waits value kept
    have left : 0 < waiting.value := by omega
    refine ⟨_, by simp only [next, waits, if_pos left]; rfl, ?_, ?_, fun other apart => ?_⟩
    · show waiting.value - 1 + 1 = state.value
      omega
    · rw [phase_go_self]
      rfl
    · rw [phase_go_other _ _ _ apart]
      exact kept other apart
  cases phase : state.phase caller with
  | outside =>
    obtain ⟨after, granted, ends⟩ := grants (phase_go_self state caller (.waiting entered)) rfl
      fun other apart => phase_go_other state caller _ apart
    refine ⟨[(caller, .wait entered), (caller, .grant)], after, ?_, rfl, ends⟩
    have waits : next sections state (caller, .wait entered) =
        some (state.go caller (.waiting entered)) := by
      simp only [next, phase]
    rw [runFrom, waits, Option.bind_some, runFrom, granted]
    rfl
  | waiting entered =>
    obtain ⟨after, granted, ends⟩ := grants phase rfl fun _ _ => rfl
    refine ⟨[(caller, .grant)], after, ?_, rfl, ends⟩
    rw [runFrom, granted]
    rfl
  | inside entered todo scratch =>
    rw [phase] at out
    cases out

/-- So do as many processes as there are units. -/
theorem exists_all_inside {state : Guard process memory Scratch} {callers : List process}
    (nodup : callers.Nodup) (out : ∀ caller ∈ callers, (state.phase caller).isInside = false)
    (free : callers.length ≤ state.value) (entered : task) :
    ∃ later after, runFrom (next sections) state later = some after ∧ interruptions later = 0 ∧
      (∀ caller ∈ callers, (after.phase caller).isInside = true) ∧
      ∀ other, other ∉ callers → after.phase other = state.phase other := by
  induction callers generalizing state with
  | nil => exact ⟨[], state, rfl, rfl, fun _ member => absurd member List.not_mem_nil, fun _ _ => rfl⟩
  | cons caller others ih =>
    obtain ⟨fresh, nodup⟩ := List.nodup_cons.mp nodup
    rw [List.length_cons] at free
    obtain ⟨earlier, middle, first, none, value, entered_, kept⟩ := exists_inside
      sections (out caller List.mem_cons_self) (by omega) entered
    obtain ⟨later, after, second, none', inside, same⟩ := ih nodup
      (fun other member => by
        rw [kept other fun mine => fresh (mine ▸ member)]
        exact out other (List.mem_cons_of_mem _ member)) (by omega)
    obtain ⟨run, quiet⟩ := run_behind sections first second none none'
    refine ⟨_, after, run, quiet, fun other member => ?_, fun other apart => ?_⟩
    · rcases List.mem_cons.mp member with rfl | later
      · rw [same other fresh]
        exact entered_
      · exact inside other later
    · rw [List.mem_cons, not_or] at apart
      rw [same other apart.2, kept other apart.1]

/-- However a run goes on, as many processes as the first value and the interrupted waits add up to can
be in a section together later on, whoever they are. -/
theorem crowded_of_run {value : Nat} {content : memory}
    {schedule : List (process × GuardCall task)} {state : Guard process memory Scratch}
    (run : runFrom (next sections) (start value content) schedule = some state)
    {callers : List process} (nodup : callers.Nodup)
    (few : callers.length ≤ value + interruptions schedule) (entered : task) :
    ∃ later after, runFrom (next sections) state later = some after ∧ interruptions later = 0 ∧
      ∀ caller ∈ callers, (after.phase caller).isInside = true := by
  obtain ⟨holders, balanced⟩ := balanced_of_run run
  obtain ⟨earlier, middle, first, none, total, out⟩ := exists_empty sections balanced
  obtain ⟨later, after, second, none', inside, -⟩ := exists_all_inside sections nodup
    (fun caller _ => out caller) (Nat.le_trans few (Nat.le_of_eq total.symm)) entered
  obtain ⟨both, quiet⟩ := run_behind sections first second none none'
  exact ⟨_, after, both, quiet, inside⟩

end Guard

end FileServer.Lib
