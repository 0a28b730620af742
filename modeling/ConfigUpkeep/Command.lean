/-
# ConfigUpkeep.Command -- what a run does to the disk

A command loads a document, and for normalizing a template; what it concludes from the
texts is its *verdict*, a value (`Verdict`).  There are three: the document is settled
and nothing is to be done; the run is refused; or the document is to be replaced.

Only the third one writes, and always in the same way (`commit`): first the old text to
a backup beside the document, then the new text to the document.  Everything is read
before anything is written, so a run that fails before the last write leaves the
document as it was.  A dry run shows the new text instead and writes nothing.

A run works on `Progress`: the disk, the paths it wrote, and what it said.  How a run
is shown plays no part here.
-/
import ConfigUpkeep.Backup
import ConfigUpkeep.Disk
import ConfigUpkeep.Document.Layout
import ConfigUpkeep.Document.Migration
import ConfigUpkeep.Failure
import ConfigUpkeep.Journal

namespace ConfigUpkeep

set_option autoImplicit false

/-- What a run has done so far. -/
structure Progress where
  disk : Disk
  written : List Path := []
  journal : List Record := []

/-- A part of a run: it may fail, and what was done before it failed stays done. -/
abbrev Action (α : Type) := ExceptT Failure (StateM Progress) α

namespace Action

def say (record : Record) : Action Unit :=
  modify fun progress => { progress with journal := progress.journal ++ [record] }

def sayAll (records : List Record) : Action Unit :=
  modify fun progress => { progress with journal := progress.journal ++ records }

/-- Whether something stands at the path. -/
def isThere (path : Path) : Action Bool := do
  match (← get).disk.isThere? path with
  | some answer => pure answer
  | none => throw (.checkFailed path)

def readText (path : Path) : Action Text := do
  match (← get).disk.read? path with
  | some content => pure (Utf8.decode content)
  | none => throw (.readFailed path)

/-- Write a text to the path; `failure` if the platform does not. -/
def writeText (path : Path) (t : Text) (failure : Failure) : Action Unit := do
  let progress ← get
  match progress.disk.write? path (Utf8.encode t) with
  | some disk => set { progress with disk := disk, written := progress.written ++ [path] }
  | none => throw failure

/-- The text of a file that has to exist. -/
def load (source : Source) (path : Path) : Action Text := do
  if ← isThere path then readText path else throw (.notFound source path)

/-- Keep a text as the backup of a document, and tell where. -/
def backUp (directory target : Path) (loaded : Text) (kind : Backup.Kind) (now : Instant) :
    Action Path := do
  let path := Backup.path directory target kind now
  writeText path loaded (.backupFailed path)
  pure path

end Action

/-! ## Verdicts -/

/-- What a command concludes from the texts it loaded. -/
inductive Verdict where
  | settled (remarks : List Record)
  | refused (remarks : List Record) (failure : Failure)
  /-- The document is to be replaced; the closing remarks may name the backup. -/
  | replace (remarks : List Record) (kind : Backup.Kind) (updated : Text)
      (closing : Path → List Record)

namespace Verdict

/-- Normalizing always replaces the document.  Conflicts among the aliases are warned of. -/
def normalizing (template loaded : Text) : Verdict :=
  .replace
    ((Alias.conflicts (Alias.ofDocument loaded)).map fun conflict =>
      .plain .warn conflict.describe)
    .normalized
    (Layout.normalize loaded template)
    fun backup =>
      [.success "Config normalized", .plain .info ("Backup available at: " ++ backup.spelling)]

/-- Validating lists the issues, and mends them if asked to. -/
def validating (mend : Bool) (target : Path) (loaded : Text) : Verdict :=
  let repair := Repair.check loaded
  if repair.hadIssues then
    let found := Record.list "Issues found:" (repair.issues.map Issue.message)
    if mend then
      .replace found .validated repair.document fun _ =>
        Record.list "Fixes applied:" repair.remedies ++ [.success "Config fixed"]
    else
      .refused (found ++ [.plain .info "Run with --fix to automatically fix these issues"])
        (.issuesFound repair.issues.length target)
  else .settled [.success "No issues found! Config is valid."]

def version : Text := Decimal.digits Migration.currentVersion

/-- Migrating replaces a document that is not current, and tells each change. -/
def migrating (loaded : Text) : Verdict :=
  match Migration.ofDocument? loaded with
  | none => .settled [.success ("Already at version " ++ version ++ ", skipping")]
  | some migration =>
      let renamed := migration.renames.map Migration.Rename.describe
      .replace
        (renamed.map (fun change => .plain .info ("Renamed " ++ change)) ++
          migration.remedies.map (.plain .info) ++
          if migration.versionAdded then [.plain .info ("Added " ++ Migration.versionLine)] else [])
        .migrated
        migration.document
        fun _ =>
          Record.list "Changes:" (renamed ++ migration.remedies) ++
            [.success ("Migration complete! Config now at version " ++ version)]

end Verdict

/-! ## Carrying out -/

/-- Where a run takes place. -/
structure Place where
  directory : Path
  now : Instant
  deriving DecidableEq, Repr

def commitSteps : Text := "2"

/-- Replace a document by a new text, after its old text was kept; tell where.  In a dry
run the new text is shown instead. -/
def commit (place : Place) (target : Path) (loaded updated : Text) (kind : Backup.Kind)
    (dryRun : Bool) : Action (Option Path) :=
  if dryRun then do
    Action.say (.document ("Dry run: " ++ target.spelling ++ " left unchanged") updated)
    pure none
  else do
    Action.say (.step "1" commitSteps "Creating backup")
    let backup ← Action.backUp place.directory target loaded kind place.now
    Action.say (.success ("Backup created: " ++ backup.spelling))
    Action.say (.step "2" commitSteps ("Writing " ++ target.spelling))
    Action.writeText target updated (.writeFailed target)
    pure (some backup)

def Verdict.carryOut (place : Place) (target : Path) (loaded : Text) (dryRun : Bool) :
    Verdict → Action Unit
  | .settled remarks => Action.sayAll remarks
  | .refused remarks failure => do
      Action.sayAll remarks
      throw failure
  | .replace remarks kind updated closing => do
      Action.sayAll remarks
      match ← commit place target loaded updated kind dryRun with
      | some backup => Action.sayAll (closing backup)
      | none => pure ()

/-! ## Commands -/

/-- What a run can be asked to do. -/
inductive Command where
  | normalize
  | validate (mend : Bool)
  | migrate
  deriving DecidableEq, Repr

namespace Command

def name : Command → Text
  | .normalize => "normalize"
  | .validate _ => "validate"
  | .migrate => "migrate"

/-- What is said before anything is loaded. -/
def opening (target template : Path) : Command → List Record
  | .normalize =>
      [.plain .info ("Normalizing config: " ++ target.spelling),
        .plain .debug ("Template: " ++ template.spelling)]
  | .validate _ => [.plain .info ("Validating config: " ++ target.spelling)]
  | .migrate => [.plain .info ("Migrating config: " ++ target.spelling)]

/-- What the command concludes from the document, after loading what else it needs. -/
def judge (template target : Path) (loaded : Text) : Command → Action Verdict
  | .normalize => do
      let layout ← Action.load .template template
      pure (.normalizing layout loaded)
  | .validate mend => pure (.validating mend target loaded)
  | .migrate => pure (.migrating loaded)

/-- Run the command on the document that the user means. -/
def run (command : Command) (place : Place) (template : Path) (given : Text) (dryRun : Bool) :
    Action Unit := do
  let target ← ExceptT.mk (pure (Path.ofUser place.directory given))
  Action.sayAll (command.opening target template)
  let loaded ← Action.load .config target
  let verdict ← command.judge template target loaded
  verdict.carryOut place target loaded dryRun

end Command

end ConfigUpkeep
