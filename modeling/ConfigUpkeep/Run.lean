/-
# ConfigUpkeep.Run -- a run from its command line to its output

A run finds its settings in the flags of its command line and in its environment
(`Context`), works on the disk (`Command.run`), and shows what it said.  The work does
not look at how it is shown: `Run.work` gives the failure, the disk and the paths
written, from the command, its target, the template and the kind of run alone, and
`Run.report` adds the output.

A run whose settings are wrong fails before it touches the disk, and shows the failure
as its flags alone ask for.
-/
import ConfigUpkeep.Invocation
import ConfigUpkeep.Journal.Display

namespace ConfigUpkeep

set_option autoImplicit false

/-- What surrounds a run. -/
structure Surroundings where
  place : Place
  /-- The value of each variable of the environment. -/
  valueOf : Text → Option Text
  /-- The output goes to a terminal. -/
  terminal : Bool
  /-- Where the template that comes with the tool stands. -/
  template : Path

structure Context where
  verbosity : Verbosity
  format : Format
  template : Path
  deriving DecidableEq, Repr

namespace Context

/-- The template of a run: the one the environment names, else the one that comes with
the tool. -/
def templatePath (directory bundled : Path) (environment : Environment) : Except Failure Path :=
  match environment.template with
  | some given => Path.ofUser directory given
  | none => .ok bundled

/-- The settings that follow from flags and environment. -/
def resolve (directory bundled : Path) (flags : Flags) (environment : Environment) :
    Except Failure Context :=
  (templatePath directory bundled environment).map fun template =>
    { verbosity := flags.chosenVerbosity environment
      format := flags.formatOfRun environment
      template := template }

/-- The settings of a run in its surroundings. -/
def ofFlags (surroundings : Surroundings) (flags : Flags) : Except Failure Context :=
  match Environment.read surroundings.valueOf with
  | .ok environment =>
      resolve surroundings.place.directory surroundings.template flags environment
  | .error problems => .error (.invalidEnvironment problems)

end Context

/-- What a run leaves behind. -/
structure Report where
  failure : Option Failure
  disk : Disk
  written : List Path
  output : List Chunk

namespace Report

/-- The number that the run ends with: zero unless it failed. -/
def exitCode (report : Report) : Nat := if report.failure.isSome then 1 else 0

/-- All that the run wrote to a stream. -/
def stream (report : Report) (stream : Stream) : Text := (Chunk.on stream report.output).flatten

end Report

namespace Run

def failureOf {α : Type} : Except Failure α → Option Failure
  | .ok _ => none
  | .error failure => some failure

/-- The work of a run on a disk: why it failed, if it did, and what it has done. -/
def work (command : Command) (place : Place) (template : Path) (document : Text)
    (dryRun : Bool) (disk : Disk) : Option Failure × Progress :=
  let (result, progress) := (command.run place template document dryRun).run.run { disk := disk }
  (failureOf result, progress)

def color (surroundings : Surroundings) : Bool :=
  usesColor (surroundings.valueOf againstColor) (surroundings.valueOf inFavourOfColor)
    surroundings.terminal

/-- How a run in a context shows its records. -/
def display (surroundings : Surroundings) (verbosity : Verbosity) (format : Format) : Display where
  format := format
  threshold := verbosity.threshold
  color := color surroundings
  now := surroundings.place.now

/-- How a run without a context shows why it failed. -/
def fallbackDisplay (surroundings : Surroundings) (flags : Flags) : Display :=
  display surroundings .standard (flags.chosenFormat.getD .standard)

/-- Run a command and show what it said. -/
def report (surroundings : Surroundings) (command : Command) (flags : Flags) (document : Text)
    (disk : Disk) : Report :=
  match Context.ofFlags surroundings flags with
  | .error failure =>
      { failure := some failure
        disk := disk
        written := []
        output := (fallbackDisplay surroundings flags).failure failure }
  | .ok context =>
      let shown := display surroundings context.verbosity context.format
      let (failure, progress) :=
        work command surroundings.place context.template document flags.dryRun disk
      { failure := failure
        disk := progress.disk
        written := progress.written
        output :=
          shown.chunks (progress.journal.map (Record.under command.name)) ++
            (failure.map shown.failure).getD [] }

end Run

def toolVersion : Text := "0.1.0"

/-- Do what a command line asks for; none if it asks for nothing the tool does. -/
def Invocation.perform (surroundings : Surroundings) (arguments : List Text) (disk : Disk) :
    Option Report :=
  (Invocation.ofArguments arguments).map fun invocation =>
    match invocation with
    | .version =>
        { failure := none, disk := disk, written := [], output := [⟨.output, toolVersion ++ "\n\n"⟩] }
    | .run command flags document => Run.report surroundings command flags document disk

/-- The paths that a run looks at: its template and its document. -/
def Surroundings.pathsOf (surroundings : Surroundings) (arguments : List Text) : List Path :=
  match Invocation.ofArguments arguments with
  | some (.run _ flags document) =>
      match Context.ofFlags surroundings flags,
          Path.ofUser surroundings.place.directory document with
      | .ok context, .ok target => [context.template, target]
      | _, _ => []
  | _ => []

end ConfigUpkeep
