/-
# ConfigUpkeep.Proofs.Effect -- what a run does, apart from what it says

A run of a command reads, and then it writes.  What it reads decides what it is about to
write, if anything, or why it fails (`Command.plan`); a plan is carried out in two writes,
the loaded text to the backup and then the new text to the document (`Plan.carryOut`).

`Command.effect_run` says that this is all that a run does: its result, its disk and the
paths it wrote are those of the plan carried out (`Command.effect`), whatever is refused
and whatever is said.  It follows the actions of a run one by one; `outcome_bind` and the
laws around it say what each action does.
-/
import ConfigUpkeep.Command

namespace ConfigUpkeep

set_option autoImplicit false

/-! ## What actions do -/

namespace Action

variable {α β : Type}

/-- How an action ends that starts at some progress, and what has been done then. -/
def outcome (action : Action α) (before : Progress) : Except Failure α × Progress :=
  action.run.run before

theorem outcome_pure (a : α) (before : Progress) :
    (pure a : Action α).outcome before = (.ok a, before) := rfl

theorem outcome_ofExcept (result : Except Failure α) (before : Progress) :
    outcome (ExceptT.mk (pure result)) before = (result, before) := rfl

/-- A failure ends the run, and what was done before it stays done. -/
theorem outcome_bind (action : Action α) (next : α → Action β) (before : Progress) :
    (action >>= next).outcome before =
      match action.outcome before with
      | (.ok a, after) => (next a).outcome after
      | (.error failure, after) => (.error failure, after) := by
  have sequenced : (action >>= next).outcome before =
      (fun done : Except Failure α × Progress => (ExceptT.bindCont next done.1).run done.2)
        (action.outcome before) := rfl
  rw [sequenced]
  obtain ⟨result, after⟩ := action.outcome before
  cases result <;> rfl

theorem outcome_say (record : Record) (before : Progress) :
    (say record).outcome before =
      (.ok (), { before with journal := before.journal ++ [record] }) := rfl

theorem outcome_sayAll (records : List Record) (before : Progress) :
    (sayAll records).outcome before =
      (.ok (), { before with journal := before.journal ++ records }) := rfl

theorem outcome_isThere (path : Path) (before : Progress) :
    (isThere path).outcome before =
      match before.disk.isThere? path with
      | some answer => (.ok answer, before)
      | none => (.error (.checkFailed path), before) := by
  have asked : (isThere path).outcome before =
      (match before.disk.isThere? path with
        | some answer => pure answer
        | none => throw (.checkFailed path) : Action Bool).outcome before := rfl
  rw [asked]
  cases before.disk.isThere? path <;> rfl

theorem outcome_readText (path : Path) (before : Progress) :
    (readText path).outcome before =
      match before.disk.read? path with
      | some content => (.ok (Utf8.decode content), before)
      | none => (.error (.readFailed path), before) := by
  have asked : (readText path).outcome before =
      (match before.disk.read? path with
        | some content => pure (Utf8.decode content)
        | none => throw (.readFailed path) : Action Text).outcome before := rfl
  rw [asked]
  cases before.disk.read? path <;> rfl

theorem outcome_writeText (path : Path) (t : Text) (failure : Failure) (before : Progress) :
    (writeText path t failure).outcome before =
      match before.disk.write? path (Utf8.encode t) with
      | some disk => (.ok (), { before with disk := disk, written := before.written ++ [path] })
      | none => (.error failure, before) := by
  have asked : (writeText path t failure).outcome before =
      (match before.disk.write? path (Utf8.encode t) with
        | some disk => set { before with disk := disk, written := before.written ++ [path] }
        | none => throw failure : Action Unit).outcome before := rfl
  rw [asked]
  cases before.disk.write? path (Utf8.encode t) <;> rfl

end Action

/-- What loading a file gives: its text, or why it cannot be loaded. -/
def Disk.load (disk : Disk) (source : Source) (path : Path) : Except Failure Text :=
  match disk.isThere? path with
  | none => .error (.checkFailed path)
  | some false => .error (.notFound source path)
  | some true =>
      match disk.read? path with
      | some content => .ok (Utf8.decode content)
      | none => .error (.readFailed path)

/-- What is loaded is the text that a file's content spells. -/
theorem Disk.exists_of_load {disk : Disk} {source : Source} {path : Path} {t : Text}
    (loads : disk.load source path = .ok t) :
    ∃ content, disk.node? path = some (.file content) ∧ Utf8.decode content = t := by
  unfold load read? at loads
  split at loads
  · cases loads
  · cases loads
  · split at loads
    · rename_i content readable
      cases loads
      refine ⟨content, ?_, rfl⟩
      split at readable
      · cases readable
      · split at readable
        · rename_i here
          rw [here, Option.some.inj readable]
        · cases readable
    · cases loads

/-- A file that the disk does not refuse is loaded. -/
theorem Disk.load_of_node? {disk : Disk} {path : Path} {content : Bytes}
    (found : disk.node? path = some (.file content))
    (willing : ∀ operation, disk.refuses operation path = false) (source : Source) :
    disk.load source path = .ok (Utf8.decode content) := by
  simp [load, isThere?, read?, found, willing]

/-- A disk writes where it does not refuse to and no directory stands. -/
theorem Disk.exists_write? {disk : Disk} {path : Path} (content : Bytes)
    (willing : disk.refuses .write path = false) (free : disk.node? path ≠ some .directory) :
    ∃ after, disk.write? path content = some after := by
  simp [write?, willing, free]

/-- Loading changes nothing. -/
theorem Action.outcome_load (source : Source) (path : Path) (before : Progress) :
    (load source path).outcome before = (before.disk.load source path, before) := by
  rw [load, outcome_bind, outcome_isThere, Disk.load]
  cases before.disk.isThere? path with
  | none => rfl
  | some answer =>
      cases answer with
      | false => rfl
      | true =>
          show (readText path).outcome before = _
          rw [outcome_readText]
          cases before.disk.read? path <;> rfl

/-! ## Plans -/

/-- A document to be replaced, its loaded text, and its new text. -/
structure Plan where
  target : Path
  loaded : Text
  updated : Text
  deriving DecidableEq, Repr

/-- The outcome of a run, apart from what it says. -/
structure Effect where
  result : Except Failure Unit
  disk : Disk
  written : List Path

/-- Carry out a plan: write the loaded text to the backup, then the new text to the document.
A write that is refused ends it. -/
def Plan.carryOut (plan : Plan) (backup : Path) (disk : Disk) : Effect :=
  match disk.write? backup (Utf8.encode plan.loaded) with
  | none => ⟨.error (.backupFailed backup), disk, []⟩
  | some kept =>
      match kept.write? plan.target (Utf8.encode plan.updated) with
      | none => ⟨.error (.writeFailed plan.target), kept, [backup]⟩
      | some after => ⟨.ok (), after, [backup, plan.target]⟩

/-- A directory in the place of the backup ends a plan before it writes. -/
theorem Plan.carryOut_of_directory {plan : Plan} {backup : Path} {disk : Disk}
    (blocked : disk.node? backup = some .directory) :
    plan.carryOut backup disk = ⟨.error (.backupFailed backup), disk, []⟩ := by
  simp [carryOut, Disk.write?, blocked]

/-- Otherwise a plan for a file is carried out on a disk that refuses no write. -/
theorem Plan.carryOut_of_willing {plan : Plan} {backup : Path} {disk : Disk} {content : Bytes}
    (willing : ∀ path, disk.refuses .write path = false) (apart : backup ≠ plan.target)
    (found : disk.node? plan.target = some (.file content))
    (free : disk.node? backup ≠ some .directory) :
    ∃ after, plan.carryOut backup disk = ⟨.ok (), after, [backup, plan.target]⟩ ∧
      after.refuses = disk.refuses ∧
      ∀ path, after.node? path =
        if path = plan.target then some (.file (Utf8.encode plan.updated))
        else if path = backup then some (.file (Utf8.encode plan.loaded))
        else disk.node? path := by
  obtain ⟨kept, keeps⟩ := Disk.exists_write? (Utf8.encode plan.loaded) (willing backup) free
  have untouched : kept.node? plan.target = some (.file content) := by
    rw [Disk.node?_write? keeps, if_neg apart.symm, found]
  obtain ⟨after, writes⟩ := Disk.exists_write? (Utf8.encode plan.updated)
    (Disk.refuses_write? keeps ▸ willing plan.target) (by rw [untouched]; simp)
  refine ⟨after, by simp only [carryOut, keeps, writes], ?_, fun path => ?_⟩
  · rw [Disk.refuses_write? writes, Disk.refuses_write? keeps]
  · rw [Disk.node?_write? writes, Disk.node?_write? keeps]

namespace Command

/-- The kind of the command's backups. -/
def kind : Command → Backup.Kind
  | .normalize => .normalized
  | .validate _ => .validated
  | .migrate => .migrated

/-- Where the command keeps the old text of a document. -/
def backupPath (command : Command) (place : Place) (target : Path) : Path :=
  Backup.path place.directory target command.kind place.now

/-- The plan for a loaded document; none if it is left alone. -/
def planFor (template target : Path) (disk : Disk) (loaded : Text) :
    Command → Except Failure (Option Plan)
  | .normalize =>
      (disk.load .template template).map fun layout =>
        some ⟨target, loaded, Layout.normalize loaded layout⟩
  | .validate mend =>
      let repair := Repair.check loaded
      if repair.hadIssues then
        if mend then .ok (some ⟨target, loaded, repair.document⟩)
        else .error (.issuesFound repair.issues.length target)
      else .ok none
  | .migrate =>
      .ok ((Migration.ofDocument? loaded).map fun migration =>
        ⟨target, loaded, migration.document⟩)

/-- What a run is about to write, by what it reads; or why it fails before it writes. -/
def plan (command : Command) (place : Place) (template : Path) (given : Text) (disk : Disk) :
    Except Failure (Option Plan) :=
  match Path.ofUser place.directory given with
  | .error failure => .error failure
  | .ok target =>
      match disk.load .config target with
      | .error failure => .error failure
      | .ok loaded => command.planFor template target disk loaded

/-- What a run does: it carries out its plan, unless the run is dry. -/
def effect (command : Command) (place : Place) (template : Path) (given : Text) (dryRun : Bool)
    (disk : Disk) : Effect :=
  match command.plan place template given disk with
  | .error failure => ⟨.error failure, disk, []⟩
  | .ok none => ⟨.ok (), disk, []⟩
  | .ok (some plan) =>
      if dryRun then ⟨.ok (), disk, []⟩
      else plan.carryOut (command.backupPath place plan.target) disk

section

variable {command : Command} {place : Place} {template : Path} {given : Text} {disk : Disk}

/-- A dry run ends as its planning does, and changes nothing. -/
theorem effect_dry : command.effect place template given true disk =
    ⟨(command.plan place template given disk).map fun _ => (), disk, []⟩ := by
  unfold effect
  cases command.plan place template given disk with
  | error failure => rfl
  | ok intended => cases intended <;> rfl

/-- So does a run that plans nothing. -/
theorem effect_of_unplanned
    (unplanned : ∀ plan, command.plan place template given disk ≠ .ok (some plan))
    (dryRun : Bool) : command.effect place template given dryRun disk =
      ⟨(command.plan place template given disk).map fun _ => (), disk, []⟩ := by
  unfold effect
  cases planned : command.plan place template given disk with
  | error failure => rfl
  | ok intended =>
      cases intended with
      | none => rfl
      | some plan => exact absurd planned (unplanned plan)

/-- A run that is not dry carries out its plan. -/
theorem effect_of_planned {plan : Plan}
    (planned : command.plan place template given disk = .ok (some plan)) :
    command.effect place template given false disk =
      plan.carryOut (command.backupPath place plan.target) disk := by
  rw [effect, planned]
  rfl

end

end Command

/-! ## Runs -/

/-- The effect of what was done. -/
def Effect.ofOutcome (done : Except Failure Unit × Progress) : Effect :=
  ⟨done.1, done.2.disk, done.2.written⟩

section

variable (place : Place) (target : Path) (loaded updated : Text) (kind : Backup.Kind)

/-- A commit carries out the plan. -/
theorem effect_commit (before : Progress) (fresh : before.written = []) :
    let done := (commit place target loaded updated kind false).outcome before
    Effect.ofOutcome (done.1.map fun _ => (), done.2) =
      Plan.carryOut ⟨target, loaded, updated⟩ (Backup.path place.directory target kind place.now)
        before.disk := by
  simp only [commit, Action.backUp, Action.outcome_bind, Action.outcome_say,
    Action.outcome_writeText, Bool.false_eq_true, if_false, Plan.carryOut]
  cases before.disk.write? (Backup.path place.directory target kind place.now)
      (Utf8.encode loaded) with
  | none => simp [Effect.ofOutcome, fresh, Except.map]
  | some kept =>
      simp only [Action.outcome_pure]
      cases kept.write? target (Utf8.encode updated) with
      | none => simp [Effect.ofOutcome, fresh, Except.map]
      | some after => simp [Effect.ofOutcome, fresh, Except.map]

/-- A verdict that leaves the document alone writes nothing. -/
theorem effect_settled (remarks : List Record) (dryRun : Bool) (before : Progress)
    (fresh : before.written = []) :
    Effect.ofOutcome (((Verdict.settled remarks).carryOut place target loaded dryRun).outcome
      before) = ⟨.ok (), before.disk, []⟩ := by
  show Effect.mk (.ok ()) before.disk before.written = _
  rw [fresh]

/-- A verdict that refuses the document writes nothing. -/
theorem effect_refused (remarks : List Record) (failure : Failure) (dryRun : Bool)
    (before : Progress) (fresh : before.written = []) :
    Effect.ofOutcome (((Verdict.refused remarks failure).carryOut place target loaded
      dryRun).outcome before) = ⟨.error failure, before.disk, []⟩ := by
  show Effect.mk (.error failure) before.disk before.written = _
  rw [fresh]

variable (remarks : List Record) (closing : Path → List Record)

/-- Carrying out a verdict that replaces the document carries out the plan, unless the run is
dry.  What is said before and after does not matter. -/
theorem effect_replace (dryRun : Bool) (before : Progress) (fresh : before.written = []) :
    Effect.ofOutcome (((Verdict.replace remarks kind updated closing).carryOut place target loaded
        dryRun).outcome before) =
      if dryRun then ⟨.ok (), before.disk, []⟩
      else Plan.carryOut ⟨target, loaded, updated⟩
        (Backup.path place.directory target kind place.now) before.disk := by
  cases dryRun with
  | true =>
      have written : ([] : List Path) = before.written := fresh.symm
      rw [if_pos rfl, written]
      rfl
  | false =>
      have committed := effect_commit place target loaded updated kind
        { before with journal := before.journal ++ remarks } fresh
      simp only [Bool.false_eq_true, if_false]
      rw [← committed]
      simp only [Verdict.carryOut, Action.outcome_bind, Action.outcome_sayAll]
      cases (commit place target loaded updated kind false).outcome
          { before with journal := before.journal ++ remarks } with
      | mk result after =>
          cases result with
          | error failure => rfl
          | ok kept => cases kept <;> rfl

end

namespace Command

variable (command : Command) (place : Place) (template : Path)

/-- Once a document is loaded, the command judges it and carries out the plan for it. -/
theorem effect_judge (target : Path) (loaded : Text) (dryRun : Bool) (before : Progress)
    (fresh : before.written = []) :
    Effect.ofOutcome ((command.judge template target loaded >>= fun verdict =>
        verdict.carryOut place target loaded dryRun).outcome before) =
      match command.planFor template target before.disk loaded with
      | .error failure => ⟨.error failure, before.disk, []⟩
      | .ok none => ⟨.ok (), before.disk, []⟩
      | .ok (some plan) =>
          if dryRun then ⟨.ok (), before.disk, []⟩
          else plan.carryOut (command.backupPath place plan.target) before.disk := by
  cases command with
  | normalize =>
      simp only [judge, Action.outcome_bind, Action.outcome_load, planFor]
      cases before.disk.load .template template with
      | error failure => simp [Effect.ofOutcome, fresh, Except.map]
      | ok layout => exact effect_replace _ _ _ _ _ _ _ _ _ fresh
  | validate mend =>
      simp only [judge, Action.outcome_bind, Action.outcome_pure, planFor, Verdict.validating]
      cases (Repair.check loaded).hadIssues with
      | false => exact effect_settled _ _ _ _ _ _ fresh
      | true =>
          cases mend with
          | false => exact effect_refused _ _ _ _ _ _ _ fresh
          | true => exact effect_replace _ _ _ _ _ _ _ _ _ fresh
  | migrate =>
      simp only [judge, Action.outcome_bind, Action.outcome_pure, planFor, Verdict.migrating]
      cases Migration.ofDocument? loaded with
      | none => exact effect_settled _ _ _ _ _ _ fresh
      | some migration => exact effect_replace _ _ _ _ _ _ _ _ _ fresh

/-- **A run does what its plan says**, and nothing else. -/
theorem effect_run (given : Text) (dryRun : Bool) (disk : Disk) :
    Effect.ofOutcome ((command.run place template given dryRun).outcome { disk := disk }) =
      command.effect place template given dryRun disk := by
  simp only [run, Action.outcome_bind, Action.outcome_ofExcept, effect, plan]
  cases Path.ofUser place.directory given with
  | error failure => rfl
  | ok target =>
      simp only [Action.outcome_sayAll, Action.outcome_load]
      cases disk.load .config target with
      | error failure => rfl
      | ok loaded =>
          have judged := command.effect_judge place template target loaded dryRun
            { disk := disk, journal := [] ++ command.opening target template } rfl
          rw [Action.outcome_bind] at judged
          exact judged

end Command

end ConfigUpkeep
