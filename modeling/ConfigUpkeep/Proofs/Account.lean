/-
# ConfigUpkeep.Proofs.Account -- what a run says

A run says two kinds of things.  On its way it makes remarks: records that show no document
and raise no alarm (`Record.IsRemark`).  A dry run with a plan then shows the document that
it would have written (`Plan.exhibit`), and nothing else ever does.  What is noted on any of
these records can be read back, and is not mistaken for a failure (`Record.Noted`).

`Command.journal_run` says so of every run: its journal is some remarks, and behind them
the document of its plan if the run is dry.  Remarks are a matter of each action alone
(`Action.Remarks`), so they are followed through a run by the law for a sequence.

The output of a run is its journal, displayed, and behind it the failure (`Run.output_report`).
-/
import ConfigUpkeep.Run
import ConfigUpkeep.Proofs.Effect
import ConfigUpkeep.Proofs.JsonLines

namespace ConfigUpkeep

set_option autoImplicit false

/-! ## Notes -/

namespace Record

/-- The notes of the record are values that can be read back, and none is named like a part of
a failure's payload. -/
structure Noted (record : Record) : Prop where
  readable : ∀ note ∈ record.notes.toList, Json.Readable note.2
  apart : ∀ note ∈ record.notes.toList, note.1 ∉ Failure.memberNames

theorem noted_plain (level : Level) (message : Text) : (plain level message).Noted :=
  ⟨fun _ member => absurd member List.not_mem_nil, fun _ member => absurd member List.not_mem_nil⟩

theorem noted_styled (style : Style) (level : Level) (message : Text) {more : List (Text × Json)}
    (readable : ∀ note ∈ more, Json.Readable note.2)
    (apart : ∀ note ∈ more, note.1 ∉ Failure.memberNames) :
    (styled style level message more).Noted where
  readable note member := by
    rcases List.mem_cons.1 (OrderedMap.mem_of_mem_ofList member) with rfl | later
    · exact .string _
    · exact readable note later
  apart note member := by
    rcases List.mem_cons.1 (OrderedMap.mem_of_mem_ofList member) with rfl | later
    · show Notes.style ∉ Failure.memberNames
      decide
    · exact apart note later

theorem noted_document (message text : Text) : (document message text).Noted :=
  noted_styled _ _ _ (List.forall_mem_singleton.2 (.string _))
    (List.forall_mem_singleton.2 (by decide : Notes.document ∉ Failure.memberNames))

/-- Marked with a command a record has one note more. -/
theorem Noted.under {record : Record} (noted : record.Noted) (command : Text) :
    (record.under command).Noted := by
  have among : ∀ note ∈ (record.under command).notes.toList,
      note = (Notes.command, .string command) ∨ note ∈ record.notes.toList := by
    intro note member
    exact (OrderedMap.mem_insertAll member).imp_left fun outer =>
      List.mem_singleton.1 (OrderedMap.mem_of_mem_ofList outer)
  refine ⟨fun note member => ?_, fun note member => ?_⟩
  · rcases among note member with rfl | own
    · exact .string command
    · exact noted.readable note own
  · rcases among note member with rfl | own
    · show Notes.command ∉ Failure.memberNames
      decide
    · exact noted.apart note own

end Record

/-! ## Remarks -/

namespace Record

/-- The record shows a whole document. -/
def isDocument (record : Record) : Bool := record.style? = some .document

/-- A remark: whatever command it is marked with, the record shows no document and raises no
alarm; and its notes can be read back. -/
structure IsRemark (record : Record) : Prop where
  undocumented : ∀ command, (record.under command).isDocument = false
  calm : ∀ command, (record.under command).isAlarm = false
  noted : record.Noted

theorem isRemark_plain {level : Level} (mild : level.rank < Level.error.rank) (message : Text) :
    (plain level message).IsRemark where
  undocumented _ := rfl
  calm _ := decide_eq_false (Nat.not_le.2 mild)
  noted := noted_plain level message

theorem isRemark_step (number total message : Text) : (step number total message).IsRemark where
  undocumented _ := rfl
  calm _ := rfl
  noted := by
    refine noted_styled _ _ _ ?_ ?_
    · exact List.forall_mem_cons.2 ⟨.string _, List.forall_mem_singleton.2 (.string _)⟩
    · exact List.forall_mem_cons.2 ⟨(by decide : Notes.stepNumber ∉ Failure.memberNames),
        List.forall_mem_singleton.2 (by decide : Notes.stepTotal ∉ Failure.memberNames)⟩

theorem isRemark_success (message : Text) : (success message).IsRemark where
  undocumented _ := rfl
  calm _ := rfl
  noted := noted_styled _ _ _ (List.forall_mem_nil _) (List.forall_mem_nil _)

theorem isRemark_of_mem_list {heading : Text} {items : List Text} :
    ∀ record ∈ list heading items, record.IsRemark := by
  intro record member
  unfold list at member
  split at member
  · cases member
  · rw [List.mem_singleton.1 member]
    refine ⟨fun _ => rfl, fun _ => rfl, noted_styled _ _ _ ?_ ?_⟩
    · refine List.forall_mem_singleton.2 (.array fun item listed => ?_)
      obtain ⟨t, -, rfl⟩ := List.mem_map.1 listed
      exact .string t
    · exact List.forall_mem_singleton.2 (by decide : Notes.items ∉ Failure.memberNames)

/-- Remarks of one level, made of any texts. -/
theorem isRemark_of_mem_map {α : Type} {level : Level} (mild : level.rank < Level.error.rank)
    (word : α → Text) (found : List α) :
    ∀ record ∈ found.map fun a => plain level (word a), record.IsRemark := by
  intro record member
  obtain ⟨a, -, rfl⟩ := List.mem_map.1 member
  exact isRemark_plain mild (word a)

end Record

/-! ## Actions that make remarks -/

namespace Action

variable {α β : Type}

/-- The action adds nothing but remarks to the journal. -/
def Remarks (action : Action α) : Prop :=
  ∀ before, ∃ added : List Record, (∀ record ∈ added, record.IsRemark) ∧
    (action.outcome before).2.journal = before.journal ++ added

theorem remarks_of_same {action : Action α}
    (same : ∀ before, (action.outcome before).2.journal = before.journal) : Remarks action :=
  fun before => ⟨[], List.forall_mem_nil _, by rw [same, List.append_nil]⟩

theorem remarks_bind {action : Action α} {next : α → Action β} (here : Remarks action)
    (later : ∀ a, Remarks (next a)) : Remarks (action >>= next) := by
  intro before
  obtain ⟨first, firstAll, firstSaid⟩ := here before
  rw [outcome_bind]
  cases done : action.outcome before with
  | mk result after =>
      rw [done] at firstSaid
      cases result with
      | error failure => exact ⟨first, firstAll, firstSaid⟩
      | ok a =>
          obtain ⟨second, secondAll, secondSaid⟩ := later a after
          refine ⟨first ++ second, List.forall_mem_append.2 ⟨firstAll, secondAll⟩, ?_⟩
          show ((next a).outcome after).2.journal = _
          rw [secondSaid, firstSaid, List.append_assoc]

theorem remarks_sayAll {records : List Record} (all : ∀ record ∈ records, record.IsRemark) :
    Remarks (sayAll records) :=
  fun _ => ⟨records, all, rfl⟩

theorem remarks_say {record : Record} (remark : record.IsRemark) : Remarks (say record) :=
  fun _ => ⟨[record], List.forall_mem_singleton.2 remark, rfl⟩

/-- Writing is done in silence. -/
theorem remarks_writeText (path : Path) (t : Text) (failure : Failure) :
    Remarks (writeText path t failure) := by
  refine remarks_of_same fun before => ?_
  rw [outcome_writeText]
  cases before.disk.write? path (Utf8.encode t) <;> rfl

end Action

/-- Replacing a document is told in remarks. -/
theorem remarks_commit (place : Place) (target : Path) (loaded updated : Text)
    (kind : Backup.Kind) : (commit place target loaded updated kind false).Remarks := by
  refine Action.remarks_bind (Action.remarks_say (Record.isRemark_step _ _ _)) fun _ => ?_
  refine Action.remarks_bind ?_ fun backup => ?_
  · exact Action.remarks_bind (Action.remarks_writeText _ _ _) fun _ =>
      Action.remarks_of_same fun _ => rfl
  · refine Action.remarks_bind (Action.remarks_say (Record.isRemark_success _)) fun _ => ?_
    refine Action.remarks_bind (Action.remarks_say (Record.isRemark_step _ _ _)) fun _ => ?_
    exact Action.remarks_bind (Action.remarks_writeText _ _ _) fun _ =>
      Action.remarks_of_same fun _ => rfl

/-! ## Verdicts -/

/-- The record with which a dry run shows the document that it would have written. -/
def Plan.exhibit (plan : Plan) : Record :=
  .document ("Dry run: " ++ plan.target.spelling ++ " left unchanged") plan.updated

/-- The document that a run with a plan shows: one if the run is dry and would write. -/
def exhibits (dryRun : Bool) (planned : Except Failure (Option Plan)) : List Record :=
  match dryRun, planned with
  | true, .ok (some plan) => [plan.exhibit]
  | _, _ => []

theorem exhibits_error (dryRun : Bool) (failure : Failure) :
    exhibits dryRun (.error failure) = [] := by
  cases dryRun <;> rfl

theorem exhibits_none (dryRun : Bool) : exhibits dryRun (.ok none) = [] := by
  cases dryRun <;> rfl

theorem exhibits_of_unplanned {planned : Except Failure (Option Plan)}
    (unplanned : ∀ plan, planned ≠ .ok (some plan)) (dryRun : Bool) :
    exhibits dryRun planned = [] := by
  cases planned with
  | error failure => exact exhibits_error _ _
  | ok intended =>
      cases intended with
      | none => exact exhibits_none _
      | some plan => exact absurd rfl (unplanned plan)

theorem eq_exhibit_of_mem {dryRun : Bool} {planned : Except Failure (Option Plan)}
    {record : Record} (shown : record ∈ exhibits dryRun planned) :
    ∃ plan : Plan, record = plan.exhibit := by
  unfold exhibits at shown
  split at shown
  · exact ⟨_, List.mem_singleton.1 shown⟩
  · cases shown

/-- The journal is the earlier one with remarks and the documents shown. -/
def Extends (before after : Progress) (shown : List Record) : Prop :=
  ∃ added : List Record, (∀ record ∈ added, record.IsRemark) ∧
    after.journal = before.journal ++ (added ++ shown)

theorem extends_of_remarks {α : Type} {action : Action α} (remarks : action.Remarks)
    (before : Progress) : Extends before (action.outcome before).2 [] := by
  obtain ⟨added, all, said⟩ := remarks before
  exact ⟨added, all, by rw [said, List.append_nil]⟩

section

variable (place : Place) (target : Path) (loaded : Text) (before : Progress)
  {remarks : List Record} (all : ∀ record ∈ remarks, record.IsRemark)

include all

theorem extends_settled (dryRun : Bool) :
    Extends before (((Verdict.settled remarks).carryOut place target loaded dryRun).outcome
      before).2 [] :=
  extends_of_remarks (Action.remarks_sayAll all) before

theorem extends_refused (failure : Failure) (dryRun : Bool) :
    Extends before (((Verdict.refused remarks failure).carryOut place target loaded
      dryRun).outcome before).2 [] :=
  extends_of_remarks (Action.remarks_bind (Action.remarks_sayAll all) fun _ =>
    Action.remarks_of_same fun _ => rfl) before

/-- A verdict that replaces the document shows it in a dry run, and tells of it in a wet one. -/
theorem extends_replace (updated : Text) (kind : Backup.Kind) {closing : Path → List Record}
    (closed : ∀ backup, ∀ record ∈ closing backup, record.IsRemark) (dryRun : Bool) :
    Extends before (((Verdict.replace remarks kind updated closing).carryOut place target loaded
      dryRun).outcome before).2 (exhibits dryRun (.ok (some ⟨target, loaded, updated⟩))) := by
  cases dryRun with
  | true => exact ⟨remarks, all, by rw [← List.append_assoc]; rfl⟩
  | false =>
      refine extends_of_remarks (Action.remarks_bind (Action.remarks_sayAll all) fun _ =>
        Action.remarks_bind (remarks_commit _ _ _ _ _) fun kept => ?_) before
      cases kept with
      | none => exact Action.remarks_of_same fun _ => rfl
      | some backup => exact Action.remarks_sayAll (closed backup)

end

/-! ## Runs -/

namespace Command

variable (command : Command) (place : Place) (template : Path)

theorem isRemark_opening (target : Path) :
    ∀ record ∈ command.opening target template, record.IsRemark := by
  cases command with
  | normalize =>
      exact List.forall_mem_cons.2 ⟨Record.isRemark_plain (by decide) _,
        List.forall_mem_singleton.2 (Record.isRemark_plain (by decide) _)⟩
  | validate mend => exact List.forall_mem_singleton.2 (Record.isRemark_plain (by decide) _)
  | migrate => exact List.forall_mem_singleton.2 (Record.isRemark_plain (by decide) _)

/-- Once a document is loaded, the command makes remarks and shows what it would write. -/
theorem extends_judge (target : Path) (loaded : Text) (dryRun : Bool) (before : Progress) :
    Extends before ((command.judge template target loaded >>= fun verdict =>
        verdict.carryOut place target loaded dryRun).outcome before).2
      (exhibits dryRun (command.planFor template target before.disk loaded)) := by
  cases command with
  | normalize =>
      simp only [judge, Action.outcome_bind, Action.outcome_load, planFor]
      cases before.disk.load .template template with
      | error failure =>
          simp only [Except.map, exhibits_error]
          exact ⟨[], List.forall_mem_nil _, (List.append_nil _).symm⟩
      | ok layout =>
          refine extends_replace _ _ _ _ (Record.isRemark_of_mem_map (by decide) _ _) _ _
            (fun backup => ?_) _
          exact List.forall_mem_cons.2 ⟨Record.isRemark_success _,
            List.forall_mem_singleton.2 (Record.isRemark_plain (by decide) _)⟩
  | validate mend =>
      simp only [judge, Action.outcome_bind, Action.outcome_pure, planFor, Verdict.validating]
      cases (Repair.check loaded).hadIssues with
      | false =>
          simp only [Bool.false_eq_true, if_false, exhibits_none]
          exact extends_settled _ _ _ _
            (List.forall_mem_singleton.2 (Record.isRemark_success _)) _
      | true =>
          cases mend with
          | false =>
              simp only [if_true, Bool.false_eq_true, if_false, exhibits_error]
              exact extends_refused _ _ _ _ (List.forall_mem_append.2
                ⟨Record.isRemark_of_mem_list,
                  List.forall_mem_singleton.2 (Record.isRemark_plain (by decide) _)⟩) _ _
          | true =>
              refine extends_replace _ _ _ _ Record.isRemark_of_mem_list _ _ (fun _ => ?_) _
              exact List.forall_mem_append.2 ⟨Record.isRemark_of_mem_list,
                List.forall_mem_singleton.2 (Record.isRemark_success _)⟩
  | migrate =>
      simp only [judge, Action.outcome_bind, Action.outcome_pure, planFor, Verdict.migrating]
      cases Migration.ofDocument? loaded with
      | none =>
          simp only [Option.map_none, exhibits_none]
          exact extends_settled _ _ _ _
            (List.forall_mem_singleton.2 (Record.isRemark_success _)) _
      | some migration =>
          refine extends_replace _ _ _ _ ?_ _ _ (fun _ => ?_) _
          · refine List.forall_mem_append.2 ⟨List.forall_mem_append.2
              ⟨Record.isRemark_of_mem_map (by decide) _ _,
                Record.isRemark_of_mem_map (by decide) _ _⟩, ?_⟩
            split
            · exact List.forall_mem_singleton.2 (Record.isRemark_plain (by decide) _)
            · exact List.forall_mem_nil _
          · exact List.forall_mem_append.2 ⟨Record.isRemark_of_mem_list,
              List.forall_mem_singleton.2 (Record.isRemark_success _)⟩

/-- **What a run says**: remarks, and behind them the document of its plan if the run is dry. -/
theorem journal_run (given : Text) (dryRun : Bool) (disk : Disk) :
    ∃ added : List Record, (∀ record ∈ added, record.IsRemark) ∧
      ((command.run place template given dryRun).outcome { disk := disk }).2.journal =
        added ++ exhibits dryRun (command.plan place template given disk) := by
  simp only [run, Action.outcome_bind, Action.outcome_ofExcept, plan]
  cases Path.ofUser place.directory given with
  | error failure => exact ⟨[], List.forall_mem_nil _, (exhibits_error _ _).symm⟩
  | ok target =>
      have opening := command.isRemark_opening template target
      simp only [Action.outcome_sayAll, Action.outcome_load]
      cases disk.load .config target with
      | error failure =>
          refine ⟨command.opening target template, opening, ?_⟩
          simp only [exhibits_error, List.append_nil, List.nil_append]
      | ok loaded =>
          obtain ⟨added, all, said⟩ := command.extends_judge place template target loaded dryRun
            { disk := disk, journal := [] ++ command.opening target template }
          rw [Action.outcome_bind, List.nil_append] at said
          refine ⟨command.opening target template ++ added,
            List.forall_mem_append.2 ⟨opening, all⟩, ?_⟩
          rw [List.append_assoc]
          exact said

end Command

namespace Run

/-- What a run says, every record marked with its command; nothing if its settings are wrong. -/
def said (surroundings : Surroundings) (command : Command) (flags : Flags) (document : Text)
    (before : Disk) : List Record :=
  match Context.ofFlags surroundings flags with
  | .error _ => []
  | .ok context =>
      (work command surroundings.place context.template document flags.dryRun before).2.journal.map
        (Record.under command.name)

/-- How a run shows what it says. -/
def shown (surroundings : Surroundings) (flags : Flags) : Display :=
  match Context.ofFlags surroundings flags with
  | .error _ => fallbackDisplay surroundings flags
  | .ok context => display surroundings context.verbosity context.format

variable (surroundings : Surroundings) (command : Command) (flags : Flags) (document : Text)
  (before : Disk)

/-- **The output of a run** is what it says, displayed, and behind it why it failed. -/
theorem output_report :
    let report := report surroundings command flags document before
    report.output =
      (shown surroundings flags).chunks (said surroundings command flags document before) ++
        (report.failure.map (shown surroundings flags).failure).getD [] := by
  simp only [report, said, shown]
  cases Context.ofFlags surroundings flags with
  | error failure => rfl
  | ok context => rfl

/-- With right settings, what a run says is some remarks and the document that it shows. -/
theorem said_of_resolved {context : Context}
    (resolved : Context.ofFlags surroundings flags = .ok context) :
    ∃ added : List Record, (∀ record ∈ added, record.IsRemark) ∧
      said surroundings command flags document before =
        (added ++ exhibits flags.dryRun
          (command.plan surroundings.place context.template document before)).map
            (Record.under command.name) := by
  obtain ⟨added, all, journal⟩ := command.journal_run surroundings.place context.template
    document flags.dryRun before
  refine ⟨added, all, ?_⟩
  rw [said, resolved, ← journal]
  rfl

/-- What holds of remarks and of the documents shown, marked with a command, holds of all that
a run says. -/
theorem forall_mem_said {property : Record → Prop}
    (remarks : ∀ record : Record, record.IsRemark → ∀ name, property (record.under name))
    (documents : ∀ (plan : Plan) (name : Text), property (plan.exhibit.under name)) :
    ∀ record ∈ said surroundings command flags document before, property record := by
  intro record member
  cases resolved : Context.ofFlags surroundings flags with
  | error failure =>
      rw [said, resolved] at member
      cases member
  | ok context =>
      obtain ⟨added, all, marked⟩ :=
        said_of_resolved surroundings command flags document before resolved
      rw [marked] at member
      obtain ⟨raw, listed, rfl⟩ := List.mem_map.1 member
      rcases List.mem_append.1 listed with remark | shown
      · exact remarks raw (all raw remark) command.name
      · obtain ⟨plan, rfl⟩ := eq_exhibit_of_mem shown
        exact documents plan command.name

/-- A run raises no alarm on its way. -/
theorem isAlarm_of_mem_said :
    ∀ record ∈ said surroundings command flags document before, record.isAlarm = false :=
  forall_mem_said surroundings command flags document before
    (fun _ remark => remark.calm) fun _ _ => rfl

/-- The notes on what a run says can be read back. -/
theorem noted_of_mem_said :
    ∀ record ∈ said surroundings command flags document before, record.Noted :=
  forall_mem_said surroundings command flags document before
    (fun _ remark => remark.noted.under) fun _ name => (Record.noted_document _ _).under name

/-- The documents that a run shows: the one of its plan if the run is dry. -/
theorem filter_isDocument_said {context : Context}
    (resolved : Context.ofFlags surroundings flags = .ok context) :
    (said surroundings command flags document before).filter Record.isDocument =
      (exhibits flags.dryRun
        (command.plan surroundings.place context.template document before)).map
          (Record.under command.name) := by
  obtain ⟨added, all, marked⟩ :=
    said_of_resolved surroundings command flags document before resolved
  have remarks : (added.map (Record.under command.name)).filter Record.isDocument = [] := by
    rw [List.filter_eq_nil_iff]
    intro record member
    obtain ⟨raw, listed, rfl⟩ := List.mem_map.1 member
    rw [(all raw listed).undocumented]
    exact Bool.false_ne_true
  rw [marked, List.map_append, List.filter_append, remarks, List.nil_append, List.filter_eq_self]
  intro record member
  obtain ⟨raw, shown, rfl⟩ := List.mem_map.1 member
  obtain ⟨plan, rfl⟩ := eq_exhibit_of_mem shown
  rfl

end Run

end ConfigUpkeep
