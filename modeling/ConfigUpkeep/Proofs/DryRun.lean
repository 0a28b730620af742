/-
# ConfigUpkeep.Proofs.DryRun -- a dry run foretells the run that writes

A dry run and the run that writes differ in one place only: where the one carries out its
plan, the other shows the new text.  So a dry run ends as the other run ends, and shows a
document exactly if the other run writes one, and then the same text (`Run.Foretells`).

The record of a document is shown whatever the threshold.  For people its chunk is the text
itself; for programs it is a line with one JSON object, which is read back
(`Display.chunk?_document`).

A dry run makes no backup, and so it cannot see that there is no room for one.  On a disk that
refuses no write this happens in one way: a directory stands in the place of the backup
(`Run.Obstructed`).  `Run.foretells_iff` says that nothing else keeps a dry run from telling
the truth.
-/
import ConfigUpkeep.Proofs.Account
import ConfigUpkeep.Proofs.AllOrBackup
import ConfigUpkeep.Proofs.JsonRoundTrip
import ConfigUpkeep.Proofs.Utf8RoundTrip

namespace ConfigUpkeep

set_option autoImplicit false

/-! ## The chunk of a document -/

/-- The chunk gives the text of a document to the output: for people it is the text with
nothing added, for programs a line with an object that has the text as a member. -/
def Chunk.Carries (text : Text) (chunk : Chunk) : Format → Prop
  | .pretty => chunk = ⟨.output, text⟩
  | .json => ∃ line object, chunk = ⟨.output, line ++ "\n"⟩ ∧ Json.read? line = some object ∧
      object.get? Notes.document = some (.string text)

namespace Display

variable (display : Display) (command message text : Text)

/-- The members of the record of a document. -/
def documentMembers : List (Text × Json) :=
  [(timestamp, .string display.now.iso), (level, .string Level.info.word),
    (Notes.command, .string command), (Display.message, .string message),
    (Notes.document, .string text)]

theorem members_document :
    display.members ((Record.document message text).under command) =
      display.documentMembers command message text := rfl

/-- The object of a document has its members as they stand. -/
theorem object_documentMembers :
    Json.object (display.documentMembers command message text) =
      .members (display.documentMembers command message text) := by
  refine Json.object_of_distinct ?_ ?_
  · show [timestamp, level, Notes.command, Display.message, Notes.document].Nodup
    decide
  · intro field member
    have named : ∀ name ∈ [timestamp, level, Notes.command, Display.message, Notes.document],
        Json.index? name = none := by decide
    exact named field.1 (List.mem_map_of_mem (f := Prod.fst) member)

/-- The object of a document is read back. -/
theorem read?_document :
    Json.read? (Json.object (display.members ((Record.document message text).under
      command))).render = some (.members (display.documentMembers command message text)) := by
  have ordered := display.object_documentMembers command message text
  rw [members_document, ordered]
  refine Json.read?_render (.members ordered fun field member => ?_)
  simp only [documentMembers, List.mem_cons, List.not_mem_nil, or_false] at member
  rcases member with rfl | rfl | rfl | rfl | rfl <;> exact .string _

/-- **A document is shown** whatever the threshold, and its chunk carries the text. -/
theorem chunk?_document :
    ∃ chunk, display.chunk? ((Record.document message text).under command) = some chunk ∧
      chunk.Carries text display.format := by
  refine ⟨_, rfl, ?_⟩
  cases display with
  | mk format threshold color now =>
      cases format with
      | pretty => exact rfl
      | json => exact ⟨_, _, rfl, read?_document _ command message text, rfl⟩

end Display

/-! ## What a dry run foretells -/

/-- The flags of the dry run. -/
def Flags.dry (flags : Flags) : Flags := { flags with dryRun := true }

/-- The flags of the run that writes. -/
def Flags.wet (flags : Flags) : Flags := { flags with dryRun := false }

namespace Run

variable (surroundings : Surroundings) (command : Command) (flags : Flags) (document : Text)
  (before : Disk)

/-- One of the records is a document and no other, and its chunk carries the text. -/
def Shows (display : Display) (records : List Record) (text : Text) : Prop :=
  ∃ record chunk, records.filter Record.isDocument = [record] ∧
    display.chunk? record = some chunk ∧ chunk.Carries text display.format

/-- The dry run tells what the run that writes does. -/
structure Foretells : Prop where
  /-- It changes nothing. -/
  untouched : (report surroundings command flags.dry document before).Untouched before
  failure : (report surroundings command flags.dry document before).failure =
    (report surroundings command flags.wet document before).failure
  exitCode : (report surroundings command flags.dry document before).exitCode =
    (report surroundings command flags.wet document before).exitCode
  /-- What the other run writes to the document, it shows, as the only document. -/
  shows : ∀ target text, Path.ofUser surroundings.place.directory document = .ok target →
    target ∈ (report surroundings command flags.wet document before).written →
    (report surroundings command flags.wet document before).disk.node? target =
      some (.file (Utf8.encode text)) →
    (report surroundings command flags.dry document before).output =
        (shown surroundings flags).chunks
          (said surroundings command flags.dry document before) ∧
      Shows (shown surroundings flags) (said surroundings command flags.dry document before) text
  /-- It shows no document if the other run writes nothing. -/
  silence : (report surroundings command flags.wet document before).written = [] →
    ∀ record ∈ said surroundings command flags.dry document before, record.isDocument = false

/-- The run has a document to replace, but a directory stands in the place of its backup. -/
def Obstructed : Prop :=
  ∃ context plan, Context.ofFlags surroundings flags = .ok context ∧
    command.plan surroundings.place context.template document before = .ok (some plan) ∧
    before.node? (command.backupPath surroundings.place plan.target) = some .directory

section

variable {surroundings command flags document before}

/-- A run without a document to replace ends as the dry run does, writes nothing, and the dry
run shows no document. -/
theorem silent_of_unplanned
    (unplanned : ∀ context plan, Context.ofFlags surroundings flags = .ok context →
      command.plan surroundings.place context.template document before ≠ .ok (some plan)) :
    (report surroundings command flags.dry document before).failure =
        (report surroundings command flags.wet document before).failure ∧
      (report surroundings command flags.wet document before).written = [] ∧
      ∀ record ∈ said surroundings command flags.dry document before,
        record.isDocument = false := by
  cases resolved : Context.ofFlags surroundings flags with
  | error failure =>
      obtain ⟨dryFailure, -⟩ :=
        report_of_refused surroundings command flags.dry document before resolved
      obtain ⟨wetFailure, -, written⟩ :=
        report_of_refused surroundings command flags.wet document before resolved
      refine ⟨dryFailure.trans wetFailure.symm, written, ?_⟩
      rw [said, show Context.ofFlags surroundings flags.dry = _ from resolved]
      exact List.forall_mem_nil _
  | ok context =>
      obtain ⟨dryFailure, -⟩ :=
        report_eq_effect surroundings command flags.dry document before resolved
      obtain ⟨wetFailure, -, written⟩ :=
        report_eq_effect surroundings command flags.wet document before resolved
      rw [Command.effect_of_unplanned fun plan => unplanned context plan resolved]
        at dryFailure wetFailure written
      refine ⟨dryFailure.trans wetFailure.symm, written, fun record member => ?_⟩
      have documents := filter_isDocument_said surroundings command flags.dry document before
        resolved
      rw [exhibits_of_unplanned fun plan => unplanned context plan resolved, List.map_nil,
        List.filter_eq_nil_iff] at documents
      simpa using documents record member

/-- A run without a document to replace is foretold. -/
theorem foretells_of_unplanned
    (unplanned : ∀ context plan, Context.ofFlags surroundings flags = .ok context →
      command.plan surroundings.place context.template document before ≠ .ok (some plan)) :
    Foretells surroundings command flags document before := by
  obtain ⟨failure, written, silence⟩ := silent_of_unplanned unplanned
  constructor
  case untouched => exact (report_allOrBackup surroundings command flags.dry document before).dry rfl
  case failure => exact failure
  case exitCode => rw [Report.exitCode, Report.exitCode, failure]
  case shows =>
    intro target text _ member
    rw [written] at member
    cases member
  case silence => exact fun _ => silence

/-- A run with a document to replace is foretold, if there is room for the backup. -/
theorem foretells_of_planned {context : Context} {plan : Plan}
    (resolved : Context.ofFlags surroundings flags = .ok context)
    (planned : command.plan surroundings.place context.template document before = .ok (some plan))
    (willing : ∀ path, before.refuses .write path = false)
    (free : before.node? (command.backupPath surroundings.place plan.target) ≠ some .directory) :
    Foretells surroundings command flags document before := by
  obtain ⟨meant, loads, -, -⟩ := Command.of_plan planned
  obtain ⟨content, found, -⟩ := Disk.exists_of_load loads
  have apart : command.backupPath surroundings.place plan.target ≠ plan.target :=
    Backup.path_ne _ _ _ _
  obtain ⟨after, carried, -, node⟩ := Plan.carryOut_of_willing willing apart found free
  obtain ⟨dryFailure, -⟩ :=
    report_eq_effect surroundings command flags.dry document before resolved
  obtain ⟨wetFailure, disk, written⟩ :=
    report_eq_effect surroundings command flags.wet document before resolved
  rw [show flags.dry.dryRun = true from rfl, Command.effect_dry, planned] at dryFailure
  rw [show flags.wet.dryRun = false from rfl, Command.effect_of_planned planned, carried]
    at wetFailure disk written
  have failure := dryFailure.trans wetFailure.symm
  constructor
  case untouched => exact (report_allOrBackup surroundings command flags.dry document before).dry rfl
  case failure => exact failure
  case exitCode => rw [Report.exitCode, Report.exitCode, failure]
  case shows =>
    intro target text meantToo _ holds
    obtain rfl := Except.ok.inj (meant.symm.trans meantToo)
    rw [disk, node, if_pos rfl, Option.some_inj, Node.file.injEq] at holds
    obtain rfl := Utf8.encode_inj holds
    have documents := filter_isDocument_said surroundings command flags.dry document before
      resolved
    rw [planned] at documents
    obtain ⟨chunk, appears, carries⟩ := (shown surroundings flags).chunk?_document command.name
      ("Dry run: " ++ plan.target.spelling ++ " left unchanged") plan.updated
    refine ⟨?_, _, chunk, documents, appears, carries⟩
    rw [output_report, dryFailure]
    exact List.append_nil _
  case silence =>
    intro nothing
    rw [written] at nothing
    cases nothing

/-- A run whose backup has no place fails, and the dry run does not. -/
theorem not_foretells_of_obstructed
    (obstructed : Obstructed surroundings command flags document before) :
    ¬ Foretells surroundings command flags document before := by
  obtain ⟨context, plan, resolved, planned, blocked⟩ := obstructed
  intro foretells
  obtain ⟨dryFailure, -⟩ :=
    report_eq_effect surroundings command flags.dry document before resolved
  obtain ⟨wetFailure, -⟩ :=
    report_eq_effect surroundings command flags.wet document before resolved
  rw [show flags.dry.dryRun = true from rfl, Command.effect_dry, planned] at dryFailure
  rw [show flags.wet.dryRun = false from rfl, Command.effect_of_planned planned,
    Plan.carryOut_of_directory blocked] at wetFailure
  cases dryFailure.symm.trans (foretells.failure.trans wetFailure)

/-- **A dry run foretells the run that writes**, on a disk that refuses no write, if and only
if no directory stands where that run needs room for its backup. -/
theorem foretells_iff (willing : ∀ path, before.refuses .write path = false) :
    Foretells surroundings command flags document before ↔
      ¬ Obstructed surroundings command flags document before := by
  constructor
  · exact fun foretells obstructed => not_foretells_of_obstructed obstructed foretells
  · intro free
    by_cases plans : ∃ context plan, Context.ofFlags surroundings flags = .ok context ∧
        command.plan surroundings.place context.template document before = .ok (some plan)
    · obtain ⟨context, plan, resolved, planned⟩ := plans
      exact foretells_of_planned resolved planned willing fun blocked =>
        free ⟨context, plan, resolved, planned, blocked⟩
    · exact foretells_of_unplanned fun context plan resolved planned =>
        plans ⟨context, plan, resolved, planned⟩

end

end Run

/-! ## A dry run that tells the truth, and one that does not -/

namespace DryRun

/-- The directory `/w` on the fifth of January 2026, 07:08:09. -/
def surroundings : Surroundings where
  place := ⟨⟨"/w"⟩, ⟨1767596889000⟩⟩
  valueOf _ := none
  terminal := false
  template := ⟨"/w/templates/config.zsh.example"⟩

def backup : Path := ⟨"/w/c.migrated.backup.20260105_070809"⟩

/-- A disk that refuses nothing, with a document and something in the place of its backup. -/
def shelf (beside : Option Node) : Disk :=
  .ofList [(⟨"/w/c"⟩, some (.file (Utf8.encode "old"))), (backup, beside)] []

/-- A migration is foretold if there is room for its backup. -/
theorem foretells_iff_room :
    Run.Foretells surroundings .migrate {} "c" (shelf none) := by
  have willing : ∀ path, (shelf none).refuses .write path = false := fun _ => rfl
  refine (Run.foretells_iff willing).2 ?_
  rintro ⟨context, plan, -, planned, blocked⟩
  obtain ⟨meant, -⟩ := Command.of_plan planned
  have target : Path.ofUser surroundings.place.directory "c" = .ok ⟨"/w/c"⟩ :=
    Path.ofUser_eq_ok.2 (by decide +kernel)
  rw [← Except.ok.inj (target.symm.trans meant)] at blocked
  exact absurd blocked (by decide +kernel)

/-- **A dry run need not tell the truth**, although its disk refuses nothing: it does not see
the directory in the place of the backup. -/
theorem not_foretold :
    ¬ ∀ (surroundings : Surroundings) (command : Command) (flags : Flags) (document : Text)
      (before : Disk), (∀ operation path, before.refuses operation path = false) →
      Run.Foretells surroundings command flags document before := by
  intro foretold
  have foretells := foretold surroundings .migrate {} "c" (shelf (some .directory)) fun _ _ => rfl
  have dry : (Run.report surroundings .migrate (Flags.dry {}) "c"
      (shelf (some .directory))).failure = none := by
    decide +kernel
  have wet : (Run.report surroundings .migrate (Flags.wet {}) "c"
      (shelf (some .directory))).failure = some (.backupFailed backup) := by
    decide +kernel
  cases dry.symm.trans (foretells.failure.trans wet)

end DryRun

end ConfigUpkeep
