/-
# ConfigUpkeep.Proofs.Recheck -- checking a document and mending it agree, run after run

A validation finds issues in a document or finds it clean.  On a disk that refuses nothing
this decides everything: a clean document is left alone, whether or not it was to be mended
(`Run.validation_of_clean`); a document with issues fails a check (`Run.check_of_issues`), and
a mending run replaces it (`Run.mend_of_room`) unless there is no room for its backup
(`Run.mend_of_directory`).

A mended document is clean, and it comes back as it was written, since mending puts no byte
order mark in front of a document (`Repair.head?_check`).  So the runs that follow a mending
run find nothing, whenever they take place.

`Run.recheck` puts this together.  Runs on one document share their surroundings but for the
clock; when they take place and how they are shown is the `Occasion`.
-/
import ConfigUpkeep.Proofs.AllOrBackup
import ConfigUpkeep.Proofs.Appearance
import ConfigUpkeep.Proofs.Mending
import ConfigUpkeep.Proofs.Utf8RoundTrip

namespace ConfigUpkeep

set_option autoImplicit false

/-- When a run takes place, and how it is shown; the run is not dry. -/
structure Occasion where
  now : Instant
  flags : Flags
  wet : flags.dryRun = false

/-- The surroundings on an occasion. -/
def Surroundings.on (surroundings : Surroundings) (occasion : Occasion) : Surroundings :=
  { surroundings with place := { surroundings.place with now := occasion.now } }

theorem Report.exitCode_eq_zero {report : Report} :
    report.exitCode = 0 ↔ report.failure = none := by
  unfold exitCode
  cases report.failure <;> simp

theorem Report.exitCode_eq_one {report : Report} {failure : Failure}
    (failed : report.failure = some failure) : report.exitCode = 1 := by
  rw [exitCode, failed]
  rfl

namespace Run

/-- The run that validates a document on an occasion, and mends it if asked to. -/
def validation (surroundings : Surroundings) (document : Text) (mend : Bool) (occasion : Occasion)
    (disk : Disk) : Report :=
  report (surroundings.on occasion) (.validate mend) occasion.flags document disk

/-- Where a mending run keeps the old text of a document. -/
def mendedBackup (surroundings : Surroundings) (occasion : Occasion) (target : Path) : Path :=
  Command.backupPath (.validate true) (surroundings.on occasion).place target

section

variable {surroundings : Surroundings} {document text : Text} {target template : Path}
  {disk : Disk} (mend : Bool) (occasion : Occasion)

/-- With wrong settings a validation fails before it looks at the document. -/
theorem validation_of_refused (document : Text) (disk : Disk) {failure : Failure}
    (wrong : surroundings.templateOfRun = .error failure) :
    let report := validation surroundings document mend occasion disk
    report.failure = some failure ∧ report.Untouched disk := by
  have refused : Context.ofFlags (surroundings.on occasion) occasion.flags = .error failure :=
    Context.ofFlags_of_templateOfRun wrong occasion.flags
  exact report_of_refused _ _ _ _ _ refused

/-- With right settings a validation does what its plan says. -/
theorem validation_eq_effect (found : surroundings.templateOfRun = .ok template) :
    let report := validation surroundings document mend occasion disk
    let effect := Command.effect (.validate mend) (surroundings.on occasion).place template
      document false disk
    report.failure = failureOf effect.result ∧ report.disk = effect.disk ∧
      report.written = effect.written := by
  obtain ⟨context, resolved, rfl⟩ :=
    Context.exists_of_templateOfRun (show (surroundings.on occasion).templateOfRun = _ from found)
      occasion.flags
  have done := report_eq_effect (surroundings.on occasion) (.validate mend) occasion.flags
    document disk resolved
  rwa [occasion.wet] at done

variable (meant : Path.ofUser surroundings.place.directory document = .ok target)
  (loads : disk.load .config target = .ok text)

include meant loads

/-- The plan of a validation follows from the issues of the document. -/
theorem plan_validation (template : Path) :
    Command.plan (.validate mend) (surroundings.on occasion).place template document disk =
      if (Repair.check text).hadIssues then
        if mend then .ok (some ⟨target, text, (Repair.check text).document⟩)
        else .error (.issuesFound (Repair.check text).issues.length target)
      else .ok none := by
  rw [Command.plan, show Path.ofUser (surroundings.on occasion).place.directory document = _
    from meant]
  simp only [loads]
  rfl

variable (found : surroundings.templateOfRun = .ok template)

include found

/-- A clean document is left alone. -/
theorem validation_of_clean (clean : (Repair.check text).hadIssues = false) :
    let report := validation surroundings document mend occasion disk
    report.failure = none ∧ report.Untouched disk := by
  intro report
  have planned := plan_validation mend occasion meant loads template
  rw [clean, if_neg Bool.false_ne_true] at planned
  obtain ⟨failure, same, written⟩ := validation_eq_effect mend occasion found
  rw [Command.effect, planned] at failure same written
  exact ⟨failure, same, written⟩

section

variable (issues : (Repair.check text).hadIssues = true)

include issues

/-- A check of a document with issues fails for them. -/
theorem check_of_issues :
    let report := validation surroundings document false occasion disk
    report.failure = some (.issuesFound (Repair.check text).issues.length target) ∧
      report.Untouched disk := by
  intro report
  have planned := plan_validation false occasion meant loads template
  rw [issues, if_pos rfl, if_neg Bool.false_ne_true] at planned
  obtain ⟨failure, same, written⟩ := validation_eq_effect false occasion found
  rw [Command.effect, planned] at failure same written
  exact ⟨failure, same, written⟩

/-- A mending run of a document with issues carries out its plan. -/
theorem mend_eq_carryOut :
    let report := validation surroundings document true occasion disk
    let carried := Plan.carryOut ⟨target, text, (Repair.check text).document⟩
      (mendedBackup surroundings occasion target) disk
    report.failure = failureOf carried.result ∧ report.disk = carried.disk ∧
      report.written = carried.written := by
  have planned := plan_validation true occasion meant loads template
  rw [issues, if_pos rfl, if_pos rfl] at planned
  obtain ⟨failure, same, written⟩ := validation_eq_effect true occasion found
  rw [Command.effect_of_planned planned] at failure same written
  exact ⟨failure, same, written⟩

/-- A directory in the place of the backup fails a mending run. -/
theorem mend_of_directory
    (blocked : disk.node? (mendedBackup surroundings occasion target) = some .directory) :
    let report := validation surroundings document true occasion disk
    report.failure = some (.backupFailed (mendedBackup surroundings occasion target)) ∧
      report.Untouched disk := by
  intro report
  obtain ⟨failure, same, written⟩ := mend_eq_carryOut occasion meant loads found issues
  rw [Plan.carryOut_of_directory blocked] at failure same written
  exact ⟨failure, same, written⟩

/-- Otherwise the mended document replaces the old one. -/
theorem mend_of_room {content : Bytes} (willing : ∀ path, disk.refuses .write path = false)
    (here : disk.node? target = some (.file content))
    (free : disk.node? (mendedBackup surroundings occasion target) ≠ some .directory) :
    let report := validation surroundings document true occasion disk
    report.failure = none ∧
      report.written = [mendedBackup surroundings occasion target, target] ∧
      report.disk.refuses = disk.refuses ∧
      report.disk.node? target =
        some (.file (Utf8.encode (Repair.check text).document)) := by
  intro report
  obtain ⟨failure, same, written⟩ := mend_eq_carryOut occasion meant loads found issues
  have apart : mendedBackup surroundings occasion target ≠ target := Backup.path_ne _ _ _ _
  let plan : Plan := ⟨target, text, (Repair.check text).document⟩
  obtain ⟨after, carried, refuses, node⟩ :=
    Plan.carryOut_of_willing willing (show _ ≠ plan.target from apart) here free
  rw [carried] at failure same written
  refine ⟨failure, written, ?_, ?_⟩
  · rw [same, refuses]
  · rw [same, node, if_pos rfl]

end

end

/-- How the runs that check a document and the runs that mend it agree. -/
structure Concur (surroundings : Surroundings) (document : Text) (target : Path) (before : Disk) :
    Prop where
  /-- A check fails exactly where a mending run writes, but for wrong settings and for a
  directory in the place of the backup. -/
  writes : ∀ checking mending : Occasion,
    (validation surroundings document false checking before).exitCode = 1 ∧
        (validation surroundings document false checking before).failure.map Failure.code =
          some .validationFailed ∧
        (∃ template, surroundings.templateOfRun = .ok template) ∧
        before.node? (mendedBackup surroundings mending target) ≠ some .directory ↔
      (validation surroundings document true mending before).written =
        [mendedBackup surroundings mending target, target]
  /-- A mending run that does not write these two writes nothing. -/
  otherwise : ∀ mending : Occasion,
    (validation surroundings document true mending before).written =
        [mendedBackup surroundings mending target, target] ∨
      (validation surroundings document true mending before).Untouched before
  /-- A check writes nothing. -/
  looks : ∀ checking : Occasion,
    (validation surroundings document false checking before).Untouched before
  /-- After a mending run that succeeds a check succeeds, and so does another mending run, which
  writes nothing. -/
  settled : ∀ mending again : Occasion,
    (validation surroundings document true mending before).exitCode = 0 →
    let after := (validation surroundings document true mending before).disk
    (validation surroundings document false again after).exitCode = 0 ∧
      (validation surroundings document true again after).exitCode = 0 ∧
      (validation surroundings document true again after).Untouched after

section

variable {surroundings : Surroundings} {document text : Text} {target template : Path}
  {before : Disk}

/-- With wrong settings every run fails, and none does anything. -/
theorem concur_of_refused {failure : Failure}
    (wrong : surroundings.templateOfRun = .error failure) :
    Concur surroundings document target before := by
  have refused (mend : Bool) (occasion : Occasion) :=
    validation_of_refused mend occasion document before wrong
  constructor
  case writes =>
    intro checking mending
    constructor
    · rintro ⟨-, -, ⟨template, right⟩, -⟩
      rw [wrong] at right
      cases right
    · intro written
      rw [(refused true mending).2.2] at written
      cases written
  case otherwise => exact fun mending => Or.inr (refused true mending).2
  case looks => exact fun checking => (refused false checking).2
  case settled =>
    intro mending again succeeds
    rw [Report.exitCode_eq_zero, (refused true mending).1] at succeeds
    cases succeeds

variable (meant : Path.ofUser surroundings.place.directory document = .ok target)
  (found : surroundings.templateOfRun = .ok template)

include meant found

/-- On a clean document every run succeeds, and none does anything. -/
theorem concur_of_clean (loads : before.load .config target = .ok text)
    (clean : (Repair.check text).hadIssues = false) :
    Concur surroundings document target before := by
  have idle (mend : Bool) (occasion : Occasion) :=
    validation_of_clean mend occasion meant loads found clean
  constructor
  case writes =>
    intro checking mending
    constructor
    · rintro ⟨-, failed, -, -⟩
      rw [(idle false checking).1] at failed
      cases failed
    · intro written
      rw [(idle true mending).2.2] at written
      cases written
  case otherwise => exact fun mending => Or.inr (idle true mending).2
  case looks => exact fun checking => (idle false checking).2
  case settled =>
    intro mending again _
    rw [(idle true mending).2.1]
    exact ⟨Report.exitCode_eq_zero.2 (idle false again).1,
      Report.exitCode_eq_zero.2 (idle true again).1, (idle true again).2⟩

/-- A document with issues is mended for good, if there is room for its backup. -/
theorem concur_of_issues {content : Bytes}
    (willing : ∀ operation path, before.refuses operation path = false)
    (here : before.node? target = some (.file content))
    (unmarked : (Utf8.decode content).head? ≠ some Utf8.mark)
    (issues : (Repair.check (Utf8.decode content)).hadIssues = true) :
    Concur surroundings document target before := by
  have loads : before.load .config target = .ok (Utf8.decode content) :=
    Disk.load_of_node? here (fun operation => willing operation target) .config
  have check (checking : Occasion) := check_of_issues checking meant loads found issues
  have blocked (mending : Occasion) := mend_of_directory mending meant loads found issues
  have mended (mending : Occasion) := mend_of_room mending meant loads found issues
    (willing .write) here
  constructor
  case writes =>
    intro checking mending
    constructor
    · rintro ⟨-, -, -, free⟩
      exact (mended mending free).2.1
    · intro written
      refine ⟨Report.exitCode_eq_one (check checking).1, ?_, ⟨template, found⟩, ?_⟩
      · rw [(check checking).1]
        rfl
      · intro directory
        rw [(blocked mending directory).2.2] at written
        cases written
  case otherwise =>
    intro mending
    by_cases directory :
        before.node? (mendedBackup surroundings mending target) = some .directory
    · exact Or.inr (blocked mending directory).2
    · exact Or.inl (mended mending directory).2.1
  case looks => exact fun checking => (check checking).2
  case settled =>
    intro mending again succeeds
    have free : before.node? (mendedBackup surroundings mending target) ≠ some .directory := by
      intro directory
      rw [Report.exitCode_eq_zero, (blocked mending directory).1] at succeeds
      cases succeeds
    obtain ⟨-, -, refuses, node⟩ := mended mending free
    -- the mended text is read back as it was written: it starts with no mark
    have plain : (Repair.check (Utf8.decode content)).document.head? ≠ some Utf8.mark := by
      intro marked
      rcases Repair.head?_check marked (by decide) with before_ | guard
      · exact unmarked before_
      · exact absurd guard (by decide)
    have loadsAgain := Disk.load_of_node? node
      (fun operation => by rw [refuses]; exact willing operation target) .config
    rw [Utf8.decode_encode plain] at loadsAgain
    have clean := (Repair.check_check (Utf8.decode content)).2.2.2.1
    have idle (mend : Bool) := validation_of_clean mend again meant loadsAgain found clean
    exact ⟨Report.exitCode_eq_zero.2 (idle false).1, Report.exitCode_eq_zero.2 (idle true).1,
      (idle true).2⟩

end

/-- **Checking and mending agree**, on a disk that refuses nothing, whenever the runs take
place: what fails a check is mended, and stays mended. -/
theorem recheck {surroundings : Surroundings} {document : Text} {target : Path} {before : Disk}
    {content : Bytes} (meant : Path.ofUser surroundings.place.directory document = .ok target)
    (willing : ∀ operation path, before.refuses operation path = false)
    (here : before.node? target = some (.file content))
    (unmarked : (Utf8.decode content).head? ≠ some Utf8.mark) :
    Concur surroundings document target before := by
  cases found : surroundings.templateOfRun with
  | error failure => exact concur_of_refused found
  | ok template =>
      cases issues : (Repair.check (Utf8.decode content)).hadIssues with
      | false =>
          exact concur_of_clean meant found
            (Disk.load_of_node? here (fun operation => willing operation target) .config) issues
      | true => exact concur_of_issues meant found willing here unmarked issues

end Run

/-! ## A document that is mended, and two that fail a check and are not -/

namespace Recheck

/-- The directory `/w`, and the template that the environment names, if it names one. -/
def surroundings (given : Option Text) : Surroundings where
  place := ⟨⟨"/w"⟩, ⟨1767596889000⟩⟩
  valueOf name := if name = Environment.Variable.template.name then given else none
  terminal := false
  template := ⟨"/w/templates/config.zsh.example"⟩

/-- The fifth of January 2026, 07:08:09. -/
def morning : Occasion := ⟨⟨1767596889000⟩, {}, rfl⟩

/-- A document that uses a table and does not declare it. -/
def undeclared : Text := "REPO_CONFIGS[app]=\"make\""

def backup : Path := ⟨"/w/c.validated.backup.20260105_070809"⟩

/-- A disk that refuses nothing, with the document and something in the place of its backup. -/
def shelf (beside : Option Node) : Disk :=
  .ofList [(⟨"/w/c"⟩, some (.file (Utf8.encode undeclared))), (backup, beside)] []

theorem node?_shelf (beside : Option Node) :
    (shelf beside).node? ⟨"/w/c"⟩ = some (.file (Utf8.encode undeclared)) := by
  cases beside <;> rfl

theorem meant : Path.ofUser ⟨"/w"⟩ "c" = .ok ⟨"/w/c"⟩ := Path.ofUser_eq_ok.2 (by decide +kernel)

theorem unmarked : (Utf8.decode (Utf8.encode undeclared)).head? ≠ some Utf8.mark := by
  decide +kernel

/-- The runs on this document agree. -/
theorem recheck_undeclared : Run.Concur (surroundings none) "c" ⟨"/w/c"⟩ (shelf none) :=
  Run.recheck meant (fun _ _ => rfl) (node?_shelf none) unmarked

/-- A check fails for the document exactly where a mending run writes. -/
def FailsWhereMended (surroundings : Surroundings) (document : Text) (target : Path)
    (before : Disk) (checking mending : Occasion) : Prop :=
  (Run.validation surroundings document false checking before).exitCode = 1 ∧
      (Run.validation surroundings document false checking before).failure.map Failure.code =
        some .validationFailed ↔
    (Run.validation surroundings document true mending before).written =
      [Run.mendedBackup surroundings mending target, target]

/-- **A check may fail where a mending run does not write**, although the disk refuses nothing:
with a directory in the place of the backup, and with settings that are wrong in a way that has
the code of a document with issues. -/
theorem not_failsWhereMended :
    (¬ ∀ (surroundings : Surroundings) (document : Text) (target : Path) (before : Disk)
      (content : Bytes) (checking mending : Occasion),
      Path.ofUser surroundings.place.directory document = .ok target →
      (∀ operation path, before.refuses operation path = false) →
      before.node? target = some (.file content) →
      (Utf8.decode content).head? ≠ some Utf8.mark →
      FailsWhereMended surroundings document target before checking mending) ∧
    ¬ FailsWhereMended (surroundings (some "\x00")) "c" ⟨"/w/c"⟩ (shelf none) morning morning := by
  constructor
  · intro agree
    have same := agree (surroundings none) "c" ⟨"/w/c"⟩ (shelf (some .directory)) _ morning morning
      meant (fun _ _ => rfl) (node?_shelf _) unmarked
    exact absurd (same.1 (by decide +kernel)) (by decide +kernel)
  · intro same
    exact absurd (same.1 (by decide +kernel)) (by decide +kernel)

end Recheck

end ConfigUpkeep
