import Docket.Proofs.ConflictDetection
import Docket.Proofs.LifeStages
import Docket.Proofs.Linearization
import Docket.Proofs.TaskIdSpelling

/-! The journal of the service can be trusted. The lines that tell of added events, read one after
another, spell the stream of their task: each gives the number of events that stood before it and
the names of those that it adds, and nothing that failed is told. The other lines stand for what
they say they stand for: a decision without events, or a task that had already ended. All of this is
said of the lines as they are written, that is, of their levels, messages and details. -/
namespace Docket.FaithfulJournal
open ConflictDetection LifeStages Linearization
open Docket.Journal Docket.Text
open Docket.Service (Entry)

/-- A command, and what the store does to it. -/
structure Request where
  command : Command
  failLoad : Option String := none
  failAppend : Option String := none

namespace Request

/-- Nobody comes between the steps of a request. -/
def disturbance (request : Request) : Disturbance :=
  { failLoad := request.failLoad, failAppend := request.failAppend }

/-- What a service does with a request. -/
def handle (request : Request) (store : Store) : Outcome (List Event) :=
  store.handle request.disturbance request.command

end Request

/-- The lines that are written while something is carried out. -/
def page {α : Type} (outcome : Outcome α) : List Line := outcome.journal.map Entry.line

/-- A store and all that has been told about it. -/
structure Log where
  store : Store := .empty
  journal : List Line := []

namespace Log

/-- Carries a request out and tells of it. -/
def carryOut (log : Log) (request : Request) : Log :=
  ⟨(request.handle log.store).store, log.journal ++ page (request.handle log.store)⟩

/-- Carries requests out one after another, over an empty store. -/
def after (requests : List Request) : Log := requests.foldl carryOut {}

end Log

/-- The text of a detail of a line. -/
def detail (line : Line) (name : String) : Option String := line.fields.lookup name

/-- Names in quotes, with commas between them and brackets around them. -/
def listed (names : List String) : String :=
  "[" ++ ", ".intercalate (names.map fun name => "\"" ++ name ++ "\"") ++ "]"

/-- A line is about an operation on a task. -/
structure Notice (line : Line) (level : Level) (message : String) (task : TaskId)
    (operation : String) : Prop where
  level : line.level = level
  message : line.message = message
  task : detail line "task_id" = some task.text
  operation : detail line "operation" = some operation

/-- A line tells of events that have been added to the stream of a task. -/
structure TellsAdded (line : Line) (task : TaskId) (operation : String) (version : Nat)
    (names : List String) : Prop where
  notice : Notice line .info "appended task events" task operation
  version : detail line "version" = some (toString version)
  events : detail line "events" = some (listed names)

/-- A line tells that an operation had nothing to add. -/
def TellsIdle (line : Line) (task : TaskId) (operation : String) : Prop :=
  Notice line .debug "command produced no observable change" task operation

/-- A line tells how the life of a task had ended, before the operation was asked for. -/
structure TellsEnded (line : Line) (task : TaskId) (operation ending : String) : Prop where
  notice : Notice line .warn "command received for a task in a terminal state" task operation
  ending : detail line "lifecycle" = some ending

/-- The lines at a level, in their order. -/
def atLevel (level : Level) (lines : List Line) : List Line :=
  lines.filter fun line => line.level = level

/-- The lines at the level of information that name a task, in their order. -/
def told (id : TaskId) (lines : List Line) : List Line :=
  lines.filter fun line => line.level = .info ∧ detail line "task_id" = some id.text

/-- Lines that tell of some events of a task, all of them and in their order. The first starts at a
version, and each starts where the one before it has ended. -/
inductive Continues (id : TaskId) :
    (version : Nat) → (lines : List Line) → (names : List String) → Prop
  | nothing (version : Nat) : Continues id version [] []
  | next {line : Line} {operation : String} {version : Nat} {added names : List String}
      {lines : List Line} (tells : TellsAdded line id operation version added)
      (later : Continues id (version + added.length) lines names) :
      Continues id version (line :: lines) (added ++ names)

/-- Some event of a history completes or deletes the task. -/
def Ended (history : List Event) : Prop := ∃ event ∈ history, Completes event ∨ Deletes event

/-- The word for the ending that came first in a history. -/
inductive FirstEnding (history : List Event) : String → Prop
  | completed (stage : StageOf history .completed) : FirstEnding history "completed"
  | deleted (stage : StageOf history .deleted) : FirstEnding history "deleted"

/-- What a request leaves in the journal. -/
structure Noted (store : Store) (request : Request) (outcome : Outcome (List Event)) : Prop where
  /-- One line tells of added events, and of all of them, just where the store has changed. -/
  added :
    (∃ line version added,
      atLevel .info (page outcome) = [line] ∧ added ≠ [] ∧
        TellsAdded line request.command.task request.command.action.operation version
          (added.map Event.typeName) ∧
        outcome.store.stream request.command.task =
          store.stream request.command.task ++ added) ∨
      atLevel .info (page outcome) = [] ∧ outcome.store = store
  /-- One line tells that there was nothing to add just where that is the answer. -/
  idle :
    (∃ line, atLevel .debug (page outcome) = [line] ∧
        TellsIdle line request.command.task request.command.action.operation ∧
        outcome.result = .ok []) ∨
      atLevel .debug (page outcome) = [] ∧ outcome.result ≠ .ok []
  /-- A command for a task that has ended is told of first, with the ending that came first. -/
  warned : request.failLoad = none → Ended (store.stream request.command.task) →
    ∃ line lines ending, page outcome = line :: lines ∧
      TellsEnded line request.command.task request.command.action.operation ending ∧
      FirstEnding (store.stream request.command.task) ending ∧ atLevel .warn lines = []
  unwarned : request.failLoad ≠ none ∨ ¬ Ended (store.stream request.command.task) →
    atLevel .warn (page outcome) = []
  /-- Where nothing fails, the command is answered with its decision. -/
  served : request.failLoad = none → request.failAppend = none →
    outcome.result = .ok (decision request.command (store.stream request.command.task))
  unread : request.failLoad ≠ none → page outcome = []
  /-- Whatever fails, nothing but the warning is told. -/
  failed : ∀ error, outcome.result = .error error →
    ∀ line ∈ page outcome, line.level = .warn

/-- What an entry has to say. -/
def Says (line : Line) : Entry → Prop
  | .terminalState task stage operation => TellsEnded line task operation stage.name
  | .noChange task operation => TellsIdle line task operation
  | .appended task operation version names =>
    TellsAdded line task operation version.toNat names

/-- What may become of a request. -/
inductive Course (store : Store) (request : Request) : Outcome (List Event) → Prop
  | unread {detail : String} (fails : request.failLoad = some detail) :
      Course store request { result := .error (.persistence detail), store := store }
  | idle (reads : request.failLoad = none)
      (nothing : decision request.command (store.stream request.command.task) = []) :
      Course store request
        { result := .ok []
          store := store
          journal := (request.command.begin (store.stream request.command.task)).warnings ++
            [.noChange request.command.task request.command.action.operation] }
  | failed {detail : String} (reads : request.failLoad = none)
      (fails : request.failAppend = some detail) :
      Course store request
        { result := .error (.persistence detail)
          store := store
          journal := (request.command.begin (store.stream request.command.task)).warnings }
  | appended (reads : request.failLoad = none)
      (something : decision request.command (store.stream request.command.task) ≠ []) :
      Course store request
        { result := .ok (decision request.command (store.stream request.command.task))
          store := store.extend request.command.task
            (decision request.command (store.stream request.command.task))
          journal := (request.command.begin (store.stream request.command.task)).warnings ++
            [.appended request.command.task request.command.action.operation
              (versionOf (store.stream request.command.task))
              ((decision request.command (store.stream request.command.task)).map
                Event.typeName)] }

variable {store : Store} {request : Request} {requests : List Request} {id task : TaskId}
variable {names added : List String}

theorem digit_eq_digitChar (n : Nat) : digit n = (n % 10).digitChar := by
  have each : ∀ d : Fin 10, Char.ofNat ('0'.toNat + d) = Nat.digitChar d := by decide
  exact each ⟨n % 10, Nat.mod_lt n (by decide)⟩

/-- Numbers in the journal are spelled as numbers are everywhere. -/
theorem decimal_eq_toString (n : Nat) : decimal n = toString n := by
  have digits : decimalDigits n = Nat.toDigits 10 n := by
    induction n using decimalDigits.induct with
    | case1 n small =>
      rw [decimalDigits, if_pos small, Nat.toDigits_of_lt_base small, digit_eq_digitChar,
        Nat.mod_eq_of_lt small]
    | case2 n large ih =>
      rw [decimalDigits, if_neg large, ih, digit_eq_digitChar,
        @Nat.toDigits_eq_if 10 n (by decide), if_neg large]
  rw [decimal, digits]
  rfl

/-- The line of an entry says all that the entry holds. -/
theorem says_line (entry : Entry) : Says entry.line entry := by
  cases entry with
  | terminalState task stage operation => exact ⟨⟨rfl, rfl, rfl, rfl⟩, rfl⟩
  | noChange task operation => exact ⟨rfl, rfl, rfl, rfl⟩
  | appended task operation version names =>
    refine ⟨⟨rfl, rfl, rfl, rfl⟩, ?_, rfl⟩
    rw [← decimal_eq_toString]
    rfl

theorem course_of_handle (store : Store) (request : Request) :
    Course store request (request.handle store) := by
  obtain ⟨command, failLoad, failAppend⟩ := request
  cases failLoad with
  | some detail =>
    rw [Request.handle, handle_unread rfl]
    exact .unread rfl
  | none =>
    rw [Request.handle, handle_of_load rfl, Pending.commit]
    have version : (command.begin (store.stream command.task)).snapshot.version =
        versionOf (store.stream command.task) := Task.version_replay ..
    split
    · rename_i nothing
      exact .idle rfl (List.isEmpty_iff.mp nothing)
    · rename_i something
      have decided : decision command (store.stream command.task) ≠ [] := by
        intro nothing
        exact something (List.isEmpty_iff.mpr nothing)
      cases failAppend with
      | some detail => exact .failed rfl rfl
      | none =>
        have own : ∀ event ∈ decision command (store.stream command.task),
            event.task = command.task := fun event member => Task.task_of_mem_eventsFor member
        -- Nobody has come between, so the version that was replayed is still the one there is.
        have answered : Disturbance.append
              (Request.disturbance ⟨command, none, none⟩) store
              (command.begin (store.stream command.task)).command.task
              (command.begin (store.stream command.task)).snapshot.version
              (command.begin (store.stream command.task)).events =
            .ok (store.extend command.task (decision command (store.stream command.task))) := by
          rw [version]
          exact Store.append_eq_ok.mpr ⟨own, rfl, rfl⟩
        rw [answered, version]
        exact .appended rfl decided

section
variable {history : List Event} {stage : Lifecycle} {level : Journal.Level}

theorem terminal_iff_ended (reached : StageOf history stage) :
    stage.isTerminal = true ↔ Ended history := by
  cases reached with
  | @completed before after event split endless completes =>
    have member : event ∈ history := by simp [split]
    exact ⟨fun _ => ⟨event, member, .inl completes⟩, fun _ => rfl⟩
  | @deleted before after event split endless deletes =>
    have member : event ∈ history := by simp [split]
    exact ⟨fun _ => ⟨event, member, .inr deletes⟩, fun _ => rfl⟩
  | opened endless | uncreated endless =>
    refine ⟨nofun, ?_⟩
    rintro ⟨event, member, completes | deletes⟩
    · exact absurd completes (endless event member).1
    · exact absurd deletes (endless event member).2

/-- The stage that a command finds is the one that the history leads to. -/
theorem stageOf_snapshot (command : Command) (history : List Event) :
    StageOf history (command.begin history).snapshot.lifecycle := by
  have replayed : (command.begin history).snapshot.lifecycle =
      LastWord.stageAfter .uncreated history := lifecycle_applyAll (.uncreated command.task) history
  rw [replayed]
  exact stageOf_stageAfter history

/-- A stage at the end of a life is named by the ending that came first. -/
theorem firstEnding_of_terminal (reached : StageOf history stage)
    (terminal : stage.isTerminal = true) : FirstEnding history stage.name := by
  cases stage with
  | uncreated | opened => cases terminal
  | completed => exact .completed reached
  | deleted => exact .deleted reached

theorem warnings_of_ended (command : Command) (ended : Ended history) :
    ∃ stage, FirstEnding history stage.name ∧ (command.begin history).warnings =
      [.terminalState command.task stage command.action.operation] := by
  have reached := stageOf_snapshot command history
  have terminal := (terminal_iff_ended reached).mpr ended
  exact ⟨_, firstEnding_of_terminal reached terminal, if_pos terminal⟩

theorem warnings_of_endless (command : Command) (endless : ¬ Ended history) :
    (command.begin history).warnings = [] := by
  apply if_neg
  intro terminal
  exact endless ((terminal_iff_ended (stageOf_snapshot command history)).mp terminal)

/-- The lines of the warnings before a decision. -/
theorem warn_of_mem_warnings {command : Command} {line : Line}
    (member : line ∈ (command.begin history).warnings.map Entry.line) : line.level = .warn := by
  unfold Pending.warnings at member
  split at member
  · rw [List.mem_singleton.mp member]
    rfl
  · cases member

theorem atLevel_append (level : Level) (earlier later : List Line) :
    atLevel level (earlier ++ later) = atLevel level earlier ++ atLevel level later :=
  List.filter_append ..

theorem atLevel_warnings (command : Command) (other : level ≠ .warn) :
    atLevel level ((command.begin history).warnings.map Entry.line) = [] := by
  apply List.filter_eq_nil_iff.mpr
  intro line member
  rw [warn_of_mem_warnings member, decide_eq_true_eq]
  exact other.symm

/-- Warnings are passed over by those who look for another level. -/
theorem atLevel_behind_warnings (command : Command) (other : level ≠ .warn)
    (later : List Entry) :
    atLevel level (((command.begin history).warnings ++ later).map Entry.line) =
      atLevel level (later.map Entry.line) := by
  rw [List.map_append, atLevel_append, atLevel_warnings command other, List.nil_append]

end

section
variable {outcome : Outcome (List Event)}

theorem added_of_course (course : Course store request outcome) :
    (∃ line version added,
      atLevel .info (page outcome) = [line] ∧ added ≠ [] ∧
        TellsAdded line request.command.task request.command.action.operation version
          (added.map Event.typeName) ∧
        outcome.store.stream request.command.task =
          store.stream request.command.task ++ added) ∨
      atLevel .info (page outcome) = [] ∧ outcome.store = store := by
  have apart : Level.info ≠ .warn := nofun
  cases course with
  | unread fails => exact .inr ⟨rfl, rfl⟩
  | idle reads nothing =>
    exact .inr ⟨(atLevel_behind_warnings request.command apart _).trans rfl, rfl⟩
  | failed reads fails => exact .inr ⟨atLevel_warnings request.command apart, rfl⟩
  | appended reads something =>
    exact .inl ⟨_, _, _, (atLevel_behind_warnings request.command apart _).trans rfl, something,
      says_line (.appended ..), Store.stream_extend_self ..⟩

theorem idle_of_course (course : Course store request outcome) :
    (∃ line, atLevel .debug (page outcome) = [line] ∧
        TellsIdle line request.command.task request.command.action.operation ∧
        outcome.result = .ok []) ∨
      atLevel .debug (page outcome) = [] ∧ outcome.result ≠ .ok [] := by
  have apart : Level.debug ≠ .warn := nofun
  cases course with
  | unread fails => exact .inr ⟨rfl, nofun⟩
  | idle reads nothing =>
    exact .inl ⟨_, (atLevel_behind_warnings request.command apart _).trans rfl,
      says_line (.noChange ..), rfl⟩
  | failed reads fails => exact .inr ⟨atLevel_warnings request.command apart, nofun⟩
  | appended reads something =>
    exact .inr ⟨(atLevel_behind_warnings request.command apart _).trans rfl,
      fun same => something (Except.ok.inj same)⟩

/-- Where the load works, the warnings come first, and no other line is at their level. -/
theorem page_of_course (course : Course store request outcome)
    (reads : request.failLoad = none) :
    ∃ lines, page outcome =
        (request.command.begin (store.stream request.command.task)).warnings.map Entry.line ++
          lines ∧
      atLevel .warn lines = [] := by
  cases course with
  | unread fails => cases reads.symm.trans fails
  | idle | appended => exact ⟨_, List.map_append, rfl⟩
  | failed => exact ⟨[], (List.append_nil _).symm, rfl⟩

theorem warned_of_course (course : Course store request outcome)
    (reads : request.failLoad = none) (ended : Ended (store.stream request.command.task)) :
    ∃ line lines ending, page outcome = line :: lines ∧
      TellsEnded line request.command.task request.command.action.operation ending ∧
      FirstEnding (store.stream request.command.task) ending ∧ atLevel .warn lines = [] := by
  obtain ⟨lines, written, others⟩ := page_of_course course reads
  obtain ⟨stage, first, warned⟩ := warnings_of_ended request.command ended
  rw [warned] at written
  exact ⟨_, lines, stage.name, written, says_line (.terminalState ..), first, others⟩

theorem unread_of_course (course : Course store request outcome)
    (fails : request.failLoad ≠ none) : page outcome = [] := by
  cases course with
  | unread => rfl
  | idle reads | failed reads | appended reads => exact absurd reads fails

theorem unwarned_of_course (course : Course store request outcome)
    (quiet : request.failLoad ≠ none ∨ ¬ Ended (store.stream request.command.task)) :
    atLevel .warn (page outcome) = [] := by
  by_cases reads : request.failLoad = none
  · obtain ⟨lines, written, others⟩ := page_of_course course reads
    have endless := quiet.resolve_left (not_not_intro reads)
    rw [written, warnings_of_endless request.command endless]
    exact others
  · rw [unread_of_course course reads]
    rfl

theorem served_of_course (course : Course store request outcome)
    (reads : request.failLoad = none) (works : request.failAppend = none) :
    outcome.result = .ok (decision request.command (store.stream request.command.task)) := by
  cases course with
  | unread fails => cases reads.symm.trans fails
  | idle _ nothing => rw [nothing]
  | failed _ fails => cases works.symm.trans fails
  | appended => rfl

theorem failed_of_course (course : Course store request outcome) {error : StoreError}
    (refused : outcome.result = .error error) : ∀ line ∈ page outcome, line.level = .warn := by
  cases course with
  | unread => exact List.forall_mem_nil _
  | idle | appended => cases refused
  | failed => exact fun line member => warn_of_mem_warnings member

theorem noted_of_course (course : Course store request outcome) :
    Noted store request outcome where
  added := added_of_course course
  idle := idle_of_course course
  warned := warned_of_course course
  unwarned := unwarned_of_course course
  served := served_of_course course
  unread := unread_of_course course
  failed := fun _ => failed_of_course course

end

section
variable {line : Line} {lines : List Line} {operation : String} {version : Nat}

theorem told_append (id : TaskId) (earlier later : List Line) :
    told id (earlier ++ later) = told id earlier ++ told id later := List.filter_append ..

theorem told_of_level (id : TaskId) (other : ∀ line ∈ lines, line.level ≠ .info) :
    told id lines = [] := by
  apply List.filter_eq_nil_iff.mpr
  intro line member told
  exact other line member (of_decide_eq_true told).1

theorem told_warnings (id : TaskId) (command : Command) (history : List Event) :
    told id ((command.begin history).warnings.map Entry.line) = [] := by
  apply told_of_level
  intro line member
  rw [warn_of_mem_warnings member]
  exact nofun

/-- The text of an identifier names one task. -/
theorem text_injective {one other : TaskId} (same : one.text = other.text) : one = other := by
  have read := TaskIdSpelling.ofText?_text one
  rw [same, TaskIdSpelling.ofText?_text] at read
  exact (Option.some.inj read).symm

/-- Lines about added events are told of one task. -/
theorem told_tellsAdded (id : TaskId) (tells : TellsAdded line task operation version names) :
    told id [line] = if task = id then [line] else [] := by
  split
  · rename_i same
    cases same
    exact List.filter_cons_of_pos (decide_eq_true ⟨tells.notice.level, tells.notice.task⟩)
  · rename_i other
    refine List.filter_cons_of_neg fun both => other ?_
    have named := tells.notice.task.symm.trans (of_decide_eq_true both).2
    exact text_injective (Option.some.inj named)

/-- The next line starts at the version that all those before it have led to. -/
theorem continues_concat (continues : Continues id version lines names)
    (tells : TellsAdded line id operation (version + names.length) added) :
    Continues id version (lines ++ [line]) (names ++ added) := by
  induction continues with
  | nothing version =>
    have alone := Continues.next tells (.nothing _)
    rwa [List.append_nil] at alone
  | next first later ih =>
    rw [List.append_assoc]
    rw [List.length_append, ← Nat.add_assoc] at tells
    exact .next first (ih tells)

end

theorem after_concat (requests : List Request) (request : Request) :
    Log.after (requests ++ [request]) = (Log.after requests).carryOut request := by
  rw [Log.after, List.foldl_append]
  rfl

/-- What a request does to a stream and to what is told of its task. -/
theorem told_of_course {outcome : Outcome (List Event)} (course : Course store request outcome)
    (id : TaskId) :
    outcome.store.stream id = store.stream id ∧ told id (page outcome) = [] ∨
      ∃ line operation,
        outcome.store.stream id =
            store.stream id ++ decision request.command (store.stream id) ∧
          told id (page outcome) = [line] ∧
          TellsAdded line id operation (versionOf (store.stream id)).toNat
            ((decision request.command (store.stream id)).map Event.typeName) := by
  cases course with
  | unread => exact .inl ⟨rfl, rfl⟩
  | idle =>
    refine .inl ⟨rfl, ?_⟩
    rw [page, List.map_append, told_append, told_warnings, List.nil_append]
    exact told_of_level id (List.forall_mem_singleton.mpr nofun)
  | failed => exact .inl ⟨rfl, told_warnings id request.command _⟩
  | appended =>
    have tells := says_line (.appended request.command.task request.command.action.operation
      (versionOf (store.stream request.command.task))
      ((decision request.command (store.stream request.command.task)).map Event.typeName))
    have written := told_tellsAdded id tells
    rw [page, List.map_append, told_append, told_warnings, List.nil_append,
      Store.stream_extend]
    by_cases own : request.command.task = id
    · cases own
      rw [if_pos rfl] at written ⊢
      exact .inr ⟨_, _, rfl, written, tells⟩
    · rw [if_neg own] at written ⊢
      exact .inl ⟨rfl, written⟩

/-- Streams never get shorter. -/
theorem short_of_carryOut {log : Log} (short : Short (log.carryOut request).store) :
    Short log.store := by
  intro id
  have bound := short id
  rcases told_of_course (course_of_handle log.store request) id with
    ⟨same, -⟩ | ⟨_, _, grown, -⟩
  · rwa [Log.carryOut, same] at bound
  · rw [Log.carryOut, grown, List.length_append] at bound
    omega

/-- One request more, and the lines go on where they have ended. -/
theorem continues_carryOut {log : Log} (short : Short log.store)
    (continues : Continues id 0 (told id log.journal)
      ((log.store.stream id).map Event.typeName)) :
    Continues id 0 (told id (log.carryOut request).journal)
      (((log.carryOut request).store.stream id).map Event.typeName) := by
  rw [Log.carryOut, told_append]
  rcases told_of_course (course_of_handle log.store request) id with
    ⟨same, silent⟩ | ⟨line, operation, grown, written, tells⟩
  · rw [same, silent, List.append_nil]
    exact continues
  · rw [grown, written, List.map_append]
    have meets : (versionOf (log.store.stream id)).toNat =
        0 + ((log.store.stream id).map Event.typeName).length := by
      have bound := short id
      rw [toNat_versionOf, List.length_map]
      omega
    rw [meets] at tells
    exact continues_concat continues tells

theorem continues_after (short : Short (Log.after requests).store) (id : TaskId) :
    Continues id 0 (told id (Log.after requests).journal)
      (((Log.after requests).store.stream id).map Event.typeName) := by
  induction requests using List.reverseRecOn with
  | nil =>
    have start : ((Log.after []).store.stream id).map Event.typeName = [] := by
      rw [Log.after, List.foldl_nil, Store.stream_empty, List.map_nil]
    rw [start]
    exact .nothing 0
  | append_singleton requests request ih =>
    rw [after_concat] at short ⊢
    have before := short_of_carryOut short
    exact continues_carryOut before (ih before)

theorem length_decision_le (command : Command) (history : List Event) :
    (decision command history).length ≤ 2 := by
  obtain ⟨task, action, author⟩ := command
  rw [decision, Task.eventsFor, List.length_map]
  cases action with
  | create | assign | complete | delete => exact Nat.le_succ 1
  | update dueDate workQueue =>
    simp only [Task.changesFor, Task.changesForUpdate, List.length_append]
    split <;> split <;> simp

/-- No request makes a stream longer by more than two events. -/
theorem length_stream_after (requests : List Request) (id : TaskId) :
    ((Log.after requests).store.stream id).length ≤ 2 * requests.length := by
  induction requests using List.reverseRecOn with
  | nil => simp [Log.after]
  | append_singleton requests request ih =>
    rw [after_concat, Log.carryOut, List.length_append, List.length_singleton]
    rcases told_of_course (course_of_handle (Log.after requests).store request) id with
      ⟨same, -⟩ | ⟨_, _, grown, -⟩
    · rw [same]
      omega
    · have few := length_decision_le request.command ((Log.after requests).store.stream id)
      rw [grown, List.length_append]
      omega

theorem short_of_few (few : 2 * requests.length < greatestVersion) :
    Short (Log.after requests).store :=
  fun id => lt_of_le_of_lt (length_stream_after requests id) few

/-- However many commands are carried out, on whatever tasks and with whatever failures, the lines
that tell of a task's events spell its stream; and what a command leaves in the journal says what it
has found, and what it has done. -/
theorem journal_spells_streams :
    (∀ requests, Short (Log.after requests).store → ∀ id,
      Continues id 0 (told id (Log.after requests).journal)
        (((Log.after requests).store.stream id).map Event.typeName)) ∧
    ∀ store request, Noted store request (request.handle store) :=
  ⟨fun _ short id => continues_after short id,
    fun store request => noted_of_course (course_of_handle store request)⟩

/-- An update of a task that is not there yet, of its due date and its queue. -/
def rescheduling : Command := ⟨⟨7⟩, .update (some ⟨.first, .midnight⟩) ⟨some "q", none⟩, {}⟩

/-- The update fails, goes through and has nothing to add; then the task is deleted, and somebody
who wants to complete it fails to load it. -/
def troubles : List Request :=
  [{ command := rescheduling, failAppend := some "disk full" }, { command := rescheduling },
    { command := ⟨⟨8⟩, .complete ⟨.first, .midnight⟩, {}⟩ }, { command := rescheduling },
    { command := ⟨⟨7⟩, .delete none ⟨.first, .midnight⟩, {}⟩ },
    { command := ⟨⟨7⟩, .complete ⟨.last, .midnight⟩, {}⟩, failLoad := some "unplugged" }]

/-- The completion again, which comes too late. -/
def lateness : Request := { command := ⟨⟨7⟩, .complete ⟨.last, .midnight⟩, {}⟩ }

theorem troubles_spelled :
    Short (Log.after (troubles ++ [lateness])).store ∧
      (Log.after (troubles ++ [lateness])).journal.map (fun line =>
          (line.level, detail line "version", detail line "events", detail line "lifecycle")) =
        [(.info, some "0", some "[\"TaskDueDateUpdated\", \"TaskWorkqueueUpdated\"]", none),
          (.info, some "0", some "[\"TaskCompleted\"]", none), (.debug, none, none, none),
          (.info, some "2", some "[\"TaskDeleted\"]", none), (.warn, none, none, some "deleted"),
          (.info, some "3", some "[\"TaskCompleted\"]", none)] ∧
      Continues ⟨7⟩ 0 (told ⟨7⟩ (Log.after (troubles ++ [lateness])).journal)
        (((Log.after (troubles ++ [lateness])).store.stream ⟨7⟩).map Event.typeName) ∧
      ∃ line lines ending, page (lateness.handle (Log.after troubles).store) = line :: lines ∧
        TellsEnded line ⟨7⟩ "record_task_completed" ending ∧
        FirstEnding ((Log.after troubles).store.stream ⟨7⟩) ending := by
  obtain ⟨spells, noted⟩ := journal_spells_streams
  have short : Short (Log.after (troubles ++ [lateness])).store := short_of_few (by decide)
  have stream : ((Log.after troubles).store.stream ⟨7⟩).getLast? =
      some ⟨⟨7⟩, .deleted none ⟨.first, .midnight⟩, {}⟩ := by cbv
  have ended : Ended ((Log.after troubles).store.stream ⟨7⟩) :=
    ⟨_, List.mem_of_getLast? stream, .inr ⟨_, _, rfl⟩⟩
  obtain ⟨line, lines, ending, written, tells, first, -⟩ :=
    (noted (Log.after troubles).store lateness).warned rfl ended
  exact ⟨short, by cbv, spells _ short ⟨7⟩, line, lines, ending, written, tells, first⟩

end Docket.FaithfulJournal
