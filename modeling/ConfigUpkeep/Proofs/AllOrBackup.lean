/-
# ConfigUpkeep.Proofs.AllOrBackup -- a run keeps the old text, or touches nothing

Whatever the disk refuses and wherever a run stops, a document is either left alone or
replaced after its text was kept (`AllOrBackup`).  No other file changes; the document is
written last; a run that fails changes nothing, unless the last write fails, and then the
backup stands beside the old document.

A run goes one of four ways (`Course`), which `Run.report_course` reads off its plan;
`Run.report_allOrBackup` goes through them.  That writing the document leaves the backup
alone rests on their paths being different (`Backup.path_ne`).
-/
import ConfigUpkeep.Run
import ConfigUpkeep.Proofs.BackupPath
import ConfigUpkeep.Proofs.Effect

namespace ConfigUpkeep

set_option autoImplicit false

/-! ## What plans say -/

/-- A file that cannot be loaded is a failure before any write. -/
theorem Disk.code_of_load {disk : Disk} {source : Source} {path : Path} {failure : Failure}
    (refused : disk.load source path = .error failure) : failure.code ≠ .writeFailed := by
  unfold load at refused
  split at refused
  · cases refused
    simp [Failure.code]
  · cases refused
    cases source <;> simp [Failure.code]
  · split at refused
    · cases refused
    · cases refused
      simp [Failure.code]

/-- A path that the user cannot mean is a failure before any write. -/
theorem Path.code_of_ofUser {directory : Path} {given : Text} {failure : Failure}
    (refused : ofUser directory given = .error failure) : failure.code ≠ .writeFailed := by
  unfold ofUser at refused
  split at refused
  · cases refused
  · cases refused
    simp [Failure.code]

/-- Settings that cannot be resolved are a failure before any write. -/
theorem Context.code_of_ofFlags {surroundings : Surroundings} {flags : Flags} {failure : Failure}
    (refused : ofFlags surroundings flags = .error failure) : failure.code ≠ .writeFailed := by
  unfold ofFlags at refused
  split at refused
  · rename_i environment _
    cases located : templatePath surroundings.place.directory surroundings.template environment with
    | ok template =>
        rw [resolve, located] at refused
        cases refused
    | error cause =>
        rw [resolve, located] at refused
        cases refused
        unfold templatePath at located
        split at located
        · exact Path.code_of_ofUser located
        · cases located
  · cases refused
    simp [Failure.code]

namespace Command

/-- The command has nothing to do on a document with this text. -/
def leaves (text : Text) : Command → Bool
  | .normalize => false
  | .validate _ => !(Repair.check text).hadIssues
  | .migrate => Migration.isCurrent text

section

variable {command : Command} {template target : Path} {disk : Disk} {loaded : Text}

theorem code_of_planFor {failure : Failure}
    (refused : command.planFor template target disk loaded = .error failure) :
    failure.code ≠ .writeFailed := by
  cases command with
  | normalize =>
      simp only [planFor] at refused
      cases laidOut : disk.load .template template with
      | ok layout =>
          rw [laidOut] at refused
          cases refused
      | error cause =>
          rw [laidOut] at refused
          cases refused
          exact Disk.code_of_load laidOut
  | validate mend =>
      simp only [planFor] at refused
      split at refused
      · split at refused
        · cases refused
        · cases refused
          simp [Failure.code]
      · cases refused
  | migrate => cases refused

/-- A plan replaces the document that was loaded, and only if the command has something to do
and is asked to do it. -/
theorem of_planFor {plan : Plan}
    (planned : command.planFor template target disk loaded = .ok (some plan)) :
    plan.target = target ∧ plan.loaded = loaded ∧ command ≠ .validate false ∧
      command.leaves loaded = false := by
  cases command with
  | normalize =>
      simp only [planFor] at planned
      cases laidOut : disk.load .template template with
      | error failure =>
          rw [laidOut] at planned
          cases planned
      | ok layout =>
          rw [laidOut] at planned
          cases planned
          exact ⟨rfl, rfl, by simp, rfl⟩
  | validate mend =>
      simp only [planFor] at planned
      split at planned
      · rename_i issues
        split at planned
        · rename_i mends
          cases planned
          exact ⟨rfl, rfl, by simp [mends], by simp [leaves, issues]⟩
        · cases planned
      · cases planned
  | migrate =>
      simp only [planFor, Migration.ofDocument?] at planned
      split at planned
      · cases planned
      · rename_i outdated
        cases planned
        exact ⟨rfl, rfl, by simp, by simpa [leaves] using outdated⟩

end

variable {command : Command} {place : Place} {template : Path} {given : Text} {disk : Disk}

theorem code_of_plan {failure : Failure}
    (refused : command.plan place template given disk = .error failure) :
    failure.code ≠ .writeFailed := by
  unfold plan at refused
  split at refused
  · rename_i meant
    cases refused
    exact Path.code_of_ofUser meant
  · split at refused
    · rename_i loaded
      cases refused
      exact Disk.code_of_load loaded
    · exact code_of_planFor refused

/-- What a plan says about a run. -/
theorem of_plan {plan : Plan} (planned : command.plan place template given disk = .ok (some plan)) :
    Path.ofUser place.directory given = .ok plan.target ∧
      disk.load .config plan.target = .ok plan.loaded ∧ command ≠ .validate false ∧
      command.leaves plan.loaded = false := by
  unfold Command.plan at planned
  split at planned
  · cases planned
  · rename_i target meant
    split at planned
    · cases planned
    · rename_i loaded loads
      obtain ⟨rfl, rfl, asked, busy⟩ := of_planFor planned
      exact ⟨meant, loads, asked, busy⟩

end Command

/-! ## The course of a run -/

/-- The run left the disk as it found it. -/
def Report.Untouched (report : Report) (before : Disk) : Prop :=
  report.disk = before ∧ report.written = []

/-- Why a run of the command on the document can fail: for its settings, for what it reads, or
because one of its two writes is refused. -/
inductive Reason (surroundings : Surroundings) (command : Command) (flags : Flags)
    (document : Text) (before : Disk) : Failure → Prop where
  | settings {failure : Failure} : Context.ofFlags surroundings flags = .error failure →
      Reason surroundings command flags document before failure
  | reading {context : Context} {failure : Failure} :
      Context.ofFlags surroundings flags = .ok context →
      command.plan surroundings.place context.template document before = .error failure →
      Reason surroundings command flags document before failure
  | backup {context : Context} {plan : Plan} :
      Context.ofFlags surroundings flags = .ok context →
      command.plan surroundings.place context.template document before = .ok (some plan) →
      before.write? (command.backupPath surroundings.place plan.target)
        (Utf8.encode plan.loaded) = none →
      Reason surroundings command flags document before
        (.backupFailed (command.backupPath surroundings.place plan.target))
  | target {context : Context} {plan : Plan} {kept : Disk} :
      Context.ofFlags surroundings flags = .ok context →
      command.plan surroundings.place context.template document before = .ok (some plan) →
      before.write? (command.backupPath surroundings.place plan.target)
        (Utf8.encode plan.loaded) = some kept →
      kept.write? plan.target (Utf8.encode plan.updated) = none →
      Reason surroundings command flags document before (.writeFailed plan.target)

/-- The ways a run of the command on the document can go that starts on the disk `before`: it
fails or ends before it writes, it fails after the backup, or it replaces the document. -/
inductive Course (surroundings : Surroundings) (command : Command) (flags : Flags)
    (document : Text) (before : Disk) (report : Report) : Prop where
  | refused {failure : Failure} : report.Untouched before → report.failure = some failure →
      failure.code ≠ .writeFailed → Reason surroundings command flags document before failure →
      Course surroundings command flags document before report
  | idle : report.Untouched before → report.failure = none →
      (∀ context plan, flags.dryRun = false → Context.ofFlags surroundings flags = .ok context →
        command.plan surroundings.place context.template document before ≠ .ok (some plan)) →
      Course surroundings command flags document before report
  | halfway {context : Context} {plan : Plan} : flags.dryRun = false →
      Context.ofFlags surroundings flags = .ok context →
      command.plan surroundings.place context.template document before = .ok (some plan) →
      before.write? (command.backupPath surroundings.place plan.target)
        (Utf8.encode plan.loaded) = some report.disk →
      report.disk.write? plan.target (Utf8.encode plan.updated) = none →
      report.failure = some (.writeFailed plan.target) →
      report.written = [command.backupPath surroundings.place plan.target] →
      Course surroundings command flags document before report
  | replaced {context : Context} {plan : Plan} {kept : Disk} : flags.dryRun = false →
      Context.ofFlags surroundings flags = .ok context →
      command.plan surroundings.place context.template document before = .ok (some plan) →
      before.write? (command.backupPath surroundings.place plan.target)
        (Utf8.encode plan.loaded) = some kept →
      kept.write? plan.target (Utf8.encode plan.updated) = some report.disk →
      report.failure = none →
      report.written = [command.backupPath surroundings.place plan.target, plan.target] →
      Course surroundings command flags document before report

namespace Run

variable (surroundings : Surroundings) (command : Command) (flags : Flags) (document : Text)
  (before : Disk)

/-- What a run leaves behind once its settings are resolved. -/
theorem report_eq_effect {context : Context}
    (resolved : Context.ofFlags surroundings flags = .ok context) :
    let report := report surroundings command flags document before
    let effect := command.effect surroundings.place context.template document flags.dryRun before
    report.failure = failureOf effect.result ∧ report.disk = effect.disk ∧
      report.written = effect.written := by
  have done := command.effect_run surroundings.place context.template document flags.dryRun before
  simp only [report, resolved]
  rw [← done]
  exact ⟨rfl, rfl, rfl⟩

/-- A run whose settings are wrong fails and touches nothing. -/
theorem report_of_refused {failure : Failure}
    (refused : Context.ofFlags surroundings flags = .error failure) :
    let report := report surroundings command flags document before
    report.failure = some failure ∧ report.Untouched before := by
  simp [report, refused, Report.Untouched]

end Run

section

variable {surroundings : Surroundings} {command : Command} {flags : Flags} {document : Text}
  {before : Disk} {report : Report}

/-- A plan that is carried out goes as far as its writes are not refused. -/
theorem Course.of_carryOut {context : Context} {plan : Plan} (wet : flags.dryRun = false)
    (resolved : Context.ofFlags surroundings flags = .ok context)
    (planned : command.plan surroundings.place context.template document before = .ok (some plan))
    (failed : report.failure = Run.failureOf
      (plan.carryOut (command.backupPath surroundings.place plan.target) before).result)
    (disk : report.disk =
      (plan.carryOut (command.backupPath surroundings.place plan.target) before).disk)
    (written : report.written =
      (plan.carryOut (command.backupPath surroundings.place plan.target) before).written) :
    Course surroundings command flags document before report := by
  rw [Plan.carryOut] at failed disk written
  cases keeps : before.write? (command.backupPath surroundings.place plan.target)
      (Utf8.encode plan.loaded) with
  | none =>
      rw [keeps] at failed disk written
      exact .refused ⟨disk, written⟩ failed (by simp [Failure.code])
        (.backup resolved planned keeps)
  | some kept =>
      simp only [keeps] at failed disk written
      cases writes : kept.write? plan.target (Utf8.encode plan.updated) with
      | none =>
          rw [writes] at failed disk written
          subst disk
          exact .halfway wet resolved planned keeps writes failed written
      | some after =>
          rw [writes] at failed disk written
          subst disk
          exact .replaced wet resolved planned keeps writes failed written

end

/-- Every run goes one of these ways. -/
theorem Run.report_course (surroundings : Surroundings) (command : Command) (flags : Flags)
    (document : Text) (before : Disk) :
    Course surroundings command flags document before
      (report surroundings command flags document before) := by
  cases resolved : Context.ofFlags surroundings flags with
  | error failure =>
      obtain ⟨failed, untouched⟩ :=
        report_of_refused surroundings command flags document before resolved
      exact .refused untouched failed (Context.code_of_ofFlags resolved) (.settings resolved)
  | ok context =>
      have only {other : Context} (again : Context.ofFlags surroundings flags = .ok other) :
          other = context := Except.ok.inj (again.symm.trans resolved)
      obtain ⟨failed, disk, written⟩ :=
        report_eq_effect surroundings command flags document before resolved
      rw [Command.effect] at failed disk written
      cases planned : command.plan surroundings.place context.template document before with
      | error failure =>
          rw [planned] at failed disk written
          exact .refused ⟨disk, written⟩ failed (Command.code_of_plan planned)
            (.reading resolved planned)
      | ok intended =>
          cases intended with
          | none =>
              rw [planned] at failed disk written
              refine .idle ⟨disk, written⟩ failed ?_
              intro other plan _ again plannedToo
              rw [only again, planned] at plannedToo
              cases plannedToo
          | some plan =>
              cases wet : flags.dryRun with
              | true =>
                  rw [planned, wet] at failed disk written
                  refine .idle ⟨disk, written⟩ failed ?_
                  intro _ _ dry
                  rw [wet] at dry
                  cases dry
              | false =>
                  rw [planned, wet] at failed disk written
                  exact .of_carryOut wet resolved planned failed disk written

/-! ## All or backup -/

/-- What a run may do to the disk, whatever the disk refuses: `report` is what the run of the
command on the document left behind that started on the disk `before`. -/
structure AllOrBackup (surroundings : Surroundings) (command : Command) (flags : Flags)
    (document : Text) (before : Disk) (report : Report) : Prop where
  /-- A file that changed was written. -/
  frame : ∀ path, report.disk.node? path ≠ before.node? path → path ∈ report.written
  /-- Only the document and its backup are written. -/
  paths : ∀ path ∈ report.written, ∃ target,
    Path.ofUser surroundings.place.directory document = .ok target ∧
      (path = target ∨ path = command.backupPath surroundings.place target)
  /-- Where the document was written, its loaded text had been written to the backup, and the
  two files hold the loaded text and the computed one. -/
  replaced : ∀ target, Path.ofUser surroundings.place.directory document = .ok target →
    target ∈ report.written → ∃ context plan kept,
      Context.ofFlags surroundings flags = .ok context ∧
      command.plan surroundings.place context.template document before = .ok (some plan) ∧
      before.load .config target = .ok plan.loaded ∧
      before.write? (command.backupPath surroundings.place target) (Utf8.encode plan.loaded) =
        some kept ∧
      kept.write? target (Utf8.encode plan.updated) = some report.disk ∧
      report.written = [command.backupPath surroundings.place target, target] ∧
      report.disk.node? (command.backupPath surroundings.place target) =
        some (.file (Utf8.encode plan.loaded)) ∧
      report.disk.node? target = some (.file (Utf8.encode plan.updated))
  /-- A run fails for a reason. -/
  reason : ∀ failure, report.failure = some failure →
    Reason surroundings command flags document before failure
  /-- A run that fails before the last write changes nothing. -/
  early : ∀ failure, report.failure = some failure → failure.code ≠ .writeFailed →
    report.Untouched before
  /-- A run that fails in the last write has written the backup. -/
  late : ∀ failure, report.failure = some failure → failure.code = .writeFailed →
    ∃ target loaded, Path.ofUser surroundings.place.directory document = .ok target ∧
      failure = .writeFailed target ∧ before.load .config target = .ok loaded ∧
      before.write? (command.backupPath surroundings.place target) (Utf8.encode loaded) =
        some report.disk ∧
      report.written = [command.backupPath surroundings.place target]
  /-- A dry run changes nothing. -/
  dry : flags.dryRun = true → report.Untouched before
  /-- Validating without mending changes nothing. -/
  unasked : command = .validate false → report.Untouched before
  /-- A document that the command leaves alone does not change: one without issues in
  validating, and one that is current in migrating. -/
  settled : ∀ target text, Path.ofUser surroundings.place.directory document = .ok target →
    before.load .config target = .ok text → command.leaves text = true → report.Untouched before
  /-- A run that succeeds has carried out its plan. -/
  carried : ∀ context plan, report.failure = none → flags.dryRun = false →
    Context.ofFlags surroundings flags = .ok context →
    command.plan surroundings.place context.template document before = .ok (some plan) →
    report.written = [command.backupPath surroundings.place plan.target, plan.target]

namespace AllOrBackup

variable {surroundings : Surroundings} {command : Command} {flags : Flags} {document : Text}
  {before : Disk} {report : Report}

/-- A run that touched nothing and did not fail in the last write is as it should be, unless
it succeeded with a plan to carry out. -/
theorem of_untouched (untouched : report.Untouched before)
    (reason : ∀ failure, report.failure = some failure →
      Reason surroundings command flags document before failure)
    (early : ∀ failure, report.failure = some failure → failure.code ≠ .writeFailed)
    (idle : ∀ context plan, report.failure = none → flags.dryRun = false →
      Context.ofFlags surroundings flags = .ok context →
      command.plan surroundings.place context.template document before ≠ .ok (some plan)) :
    AllOrBackup surroundings command flags document before report where
  frame path changed := by
    rw [untouched.1] at changed
    exact absurd rfl changed
  paths path member := by
    rw [untouched.2] at member
    cases member
  replaced target meant member := by
    rw [untouched.2] at member
    cases member
  reason := reason
  early failure failed _ := untouched
  late failure failed late := absurd late (early failure failed)
  dry _ := untouched
  unasked _ := untouched
  settled _ _ _ _ _ := untouched
  carried context plan succeeds wet resolved planned :=
    absurd planned (idle context plan succeeds wet resolved)

section

variable {context : Context} {plan : Plan} (wet : flags.dryRun = false)
  (planned : command.plan surroundings.place context.template document before = .ok (some plan))

include wet planned

/-- A run with a plan to carry out is not dry, was asked to write, and does not leave its
document alone. -/
theorem not_idle : flags.dryRun ≠ true ∧ command ≠ .validate false ∧
    ∀ target text, Path.ofUser surroundings.place.directory document = .ok target →
      before.load .config target = .ok text → command.leaves text ≠ true := by
  obtain ⟨meant, loads, asked, busy⟩ := Command.of_plan planned
  refine ⟨?_, asked, ?_⟩
  · rw [wet]
    exact Bool.false_ne_true
  · intro target text meantToo loadsToo
    obtain rfl := Except.ok.inj (meant.symm.trans meantToo)
    obtain rfl := Except.ok.inj (loads.symm.trans loadsToo)
    rw [busy]
    exact Bool.false_ne_true

/-- A run whose last write failed is as it should be. -/
theorem of_halfway (resolved : Context.ofFlags surroundings flags = .ok context)
    (failed : report.failure = some (.writeFailed plan.target))
    (keeps : before.write? (command.backupPath surroundings.place plan.target)
      (Utf8.encode plan.loaded) = some report.disk)
    (refuses : report.disk.write? plan.target (Utf8.encode plan.updated) = none)
    (written : report.written = [command.backupPath surroundings.place plan.target]) :
    AllOrBackup surroundings command flags document before report := by
  obtain ⟨wet_, asked, busy⟩ := not_idle wet planned
  obtain ⟨meant, loads, -, -⟩ := Command.of_plan planned
  have only {other : Path} (meantToo : Path.ofUser surroundings.place.directory document = .ok other) :
      other = plan.target := Except.ok.inj (meantToo.symm.trans meant)
  constructor
  case frame =>
    intro path changed
    rw [Disk.node?_write? keeps] at changed
    split at changed
    · rename_i here
      rw [written, here]
      exact List.mem_singleton_self _
    · exact absurd rfl changed
  case paths =>
    intro path member
    rw [written, List.mem_singleton] at member
    exact ⟨plan.target, meant, Or.inr member⟩
  case replaced =>
    intro target meantToo member
    rw [written, List.mem_singleton, only meantToo] at member
    exact absurd member.symm (Backup.path_ne _ _ _ _)
  case reason =>
    intro failure fails
    obtain rfl := Option.some.inj (failed.symm.trans fails)
    exact .target resolved planned keeps refuses
  case early =>
    intro failure fails early
    obtain rfl := Option.some.inj (failed.symm.trans fails)
    exact absurd rfl early
  case late =>
    intro failure fails _
    obtain rfl := Option.some.inj (failed.symm.trans fails)
    exact ⟨plan.target, plan.loaded, meant, rfl, loads, keeps, written⟩
  case dry => exact fun dry => absurd dry wet_
  case unasked => exact fun unasked => absurd unasked asked
  case settled =>
    intro target text meantToo loadsToo leaves
    exact absurd leaves (busy target text meantToo loadsToo)
  case carried =>
    intro _ _ succeeds
    rw [failed] at succeeds
    cases succeeds

/-- A run that wrote the backup and the document is as it should be. -/
theorem of_replaced {kept : Disk} (resolved : Context.ofFlags surroundings flags = .ok context)
    (succeeded : report.failure = none)
    (keeps : before.write? (command.backupPath surroundings.place plan.target)
      (Utf8.encode plan.loaded) = some kept)
    (writes : kept.write? plan.target (Utf8.encode plan.updated) = some report.disk)
    (written : report.written =
      [command.backupPath surroundings.place plan.target, plan.target]) :
    AllOrBackup surroundings command flags document before report := by
  obtain ⟨wet_, asked, busy⟩ := not_idle wet planned
  obtain ⟨meant, loads, -, -⟩ := Command.of_plan planned
  have only {other : Path} (meantToo : Path.ofUser surroundings.place.directory document = .ok other) :
      other = plan.target := Except.ok.inj (meantToo.symm.trans meant)
  have apart : command.backupPath surroundings.place plan.target ≠ plan.target :=
    Backup.path_ne _ _ _ _
  have node (path : Path) : report.disk.node? path =
      if path = plan.target then some (.file (Utf8.encode plan.updated))
      else if path = command.backupPath surroundings.place plan.target then
        some (.file (Utf8.encode plan.loaded))
      else before.node? path := by
    rw [Disk.node?_write? writes, Disk.node?_write? keeps]
  constructor
  case frame =>
    intro path changed
    rw [written, List.mem_cons, List.mem_singleton]
    rw [node] at changed
    by_cases here : path = plan.target
    · exact Or.inr here
    · by_cases beside : path = command.backupPath surroundings.place plan.target
      · exact Or.inl beside
      · rw [if_neg here, if_neg beside] at changed
        exact absurd rfl changed
  case paths =>
    intro path member
    rw [written, List.mem_cons, List.mem_singleton] at member
    exact ⟨plan.target, meant, member.symm⟩
  case replaced =>
    intro target meantToo _
    obtain rfl := only meantToo
    refine ⟨context, plan, kept, resolved, planned, loads, keeps, writes, written, ?_, ?_⟩
    · rw [node, if_neg apart, if_pos rfl]
    · rw [node, if_pos rfl]
  case reason =>
    intro failure fails
    rw [succeeded] at fails
    cases fails
  case early =>
    intro failure fails
    rw [succeeded] at fails
    cases fails
  case late =>
    intro failure fails
    rw [succeeded] at fails
    cases fails
  case dry => exact fun dry => absurd dry wet_
  case unasked => exact fun unasked => absurd unasked asked
  case settled =>
    intro target text meantToo loadsToo leaves
    exact absurd leaves (busy target text meantToo loadsToo)
  case carried =>
    intro other elsewhere _ _ resolvedToo plannedToo
    obtain rfl := Except.ok.inj (resolved.symm.trans resolvedToo)
    obtain rfl := Option.some.inj (Except.ok.inj (planned.symm.trans plannedToo))
    exact written

end

/-- A run that goes one of the ways runs go is as it should be. -/
theorem of_course (course : Course surroundings command flags document before report) :
    AllOrBackup surroundings command flags document before report := by
  cases course with
  | refused untouched failed code reason =>
      refine of_untouched untouched ?_ ?_ ?_
      · intro other fails
        obtain rfl := Option.some.inj (failed.symm.trans fails)
        exact reason
      · intro other fails
        obtain rfl := Option.some.inj (failed.symm.trans fails)
        exact code
      · intro _ _ succeeds
        cases failed.symm.trans succeeds
  | idle untouched succeeded nothing =>
      refine of_untouched untouched ?_ ?_ ?_
      · intro other fails
        cases succeeded.symm.trans fails
      · intro other fails
        cases succeeded.symm.trans fails
      · intro context plan _
        exact nothing context plan
  | halfway wet resolved planned keeps refuses failed written =>
      exact of_halfway wet planned resolved failed keeps refuses written
  | replaced wet resolved planned keeps writes succeeded written =>
      exact of_replaced wet planned resolved succeeded keeps writes written

end AllOrBackup

/-- **A run keeps the old text or touches nothing**, whatever its disk refuses. -/
theorem Run.report_allOrBackup (surroundings : Surroundings) (command : Command) (flags : Flags)
    (document : Text) (before : Disk) :
    AllOrBackup surroundings command flags document before
      (report surroundings command flags document before) :=
  .of_course (report_course surroundings command flags document before)

end ConfigUpkeep
