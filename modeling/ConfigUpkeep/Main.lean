/-
# ConfigUpkeep.Main -- the command line on a real disk

The program takes a snapshot of the files that a run may look at, asks the library what
the run does to it, and then does that to the real files.  Whether a file can be written
shows only when it is: if the platform refuses a write, the run is asked for again on
the snapshot with that write refused, and so ends as it would have.

The template that comes with the tool is looked for beside the program's directory; the
built-in text stands in for it where there is none.
-/
import ConfigUpkeep.Run
import ConfigUpkeep.Template
import Std.Time.DateTime.Timestamp

namespace ConfigUpkeep.Main

set_option autoImplicit false

def spelled (path : Path) : String := String.ofList path.spelling

def bytesOf (content : ByteArray) : Bytes := content.toList

def arrayOf (content : Bytes) : ByteArray := ⟨content.toArray⟩

/-- The file at a path, and whether the platform refuses to read it. -/
def lookInto (path : Path) : IO (Option Node × List (Operation × Path)) :=
  try
    return (some (.file (bytesOf (← IO.FS.readBinFile (spelled path)))), [])
  catch _ => return (some (.file []), [(.read, path)])

/-- What stands at a path, and what the platform refuses there. -/
def look (path : Path) : IO (Option Node × List (Operation × Path)) := do
  let file := (← IO.currentDir) / spelled path
  try
    if (← file.metadata).type == .dir then return (some .directory, [])
    lookInto path
  catch problem =>
    match problem with
    | .noFileOrDirectory .. => return (none, [])
    | _ => return (none, [(.access, path)])

/-- The disk as far as the paths go. -/
def snapshot (paths : List Path) : IO Disk := do
  let seen ← paths.mapM fun path => do
    let (node, refused) ← look path
    return ((path, node), refused)
  return .ofList (seen.map Prod.fst) (seen.flatMap Prod.snd)

/-- Write the files of a report; the first path that the platform refuses, if any. -/
def writeOut (disk : Disk) : List Path → IO (Option Path)
  | [] => return none
  | path :: rest => do
      match disk.node? path with
      | some (.file content) =>
          let written ← try
              IO.FS.writeBinFile (spelled path) (arrayOf content)
              pure true
            catch _ => pure false
          if written then writeOut disk rest else return some path
      | _ => writeOut disk rest

/-- Perform a run on a snapshot and on the real files.  Each refusal is learned once, and
a run writes two files at most. -/
def perform (surroundings : Surroundings) (arguments : List Text) (disk : Disk) :
    Nat → IO (Option Report)
  | 0 => return Invocation.perform surroundings arguments disk
  | tries + 1 => do
      let some report := Invocation.perform surroundings arguments disk | return none
      match ← writeOut report.disk report.written with
      | none => return some report
      | some path => perform surroundings arguments (disk.refusing .write path) tries

def put (chunk : Chunk) : IO Unit := do
  let stream ← match chunk.stream with
    | .output => IO.getStdout
    | .alarm => IO.getStderr
  stream.putStr (String.ofList chunk.text)
  stream.flush

/-- The variables that a run listens to. -/
def variableNames : List Text :=
  [Environment.Variable.verbosity.name, Environment.Variable.format.name,
    Environment.Variable.template.name, Environment.Variable.debug.name, againstColor,
    inFavourOfColor]

def variableValues : IO (OrderedMap Text Text) := do
  let found ← variableNames.filterMapM fun name => do
    return (← IO.getEnv (String.ofList name)).map fun value => (name, value.toList)
  return .ofList found

def now : IO Instant := do
  return ⟨(← Std.Time.Timestamp.now).toMillisecondsSinceUnixEpoch.val⟩

/-- The path of the template beside the program's directory. -/
def templatePath : IO Path := do
  let program : Path := ⟨(← IO.appPath).toString.toList⟩
  return Path.resolve program.parent ⟨"../templates/config.zsh.example"⟩

/-- Run the command line given by the words of the user. -/
def run (words : List Text) : IO UInt32 := do
  let found ← variableValues
  let directory : Path := ⟨(← IO.currentDir).toString.toList⟩
  let template ← templatePath
  let surroundings : Surroundings :=
    { place := ⟨directory, ← now⟩
      valueOf := found.get?
      terminal := ← (← IO.getStdout).isTty
      template := template }
  let arguments := ("program" : Text) :: ("script" : Text) :: words
  let disk ← snapshot (template :: surroundings.pathsOf arguments)
  let disk :=
    if (disk.node? template).isNone && !disk.refuses .access template then
      disk.put template (some (.file (Utf8.encode Template.text)))
    else disk
  match ← perform surroundings arguments disk 2 with
  | none =>
      put ⟨.alarm, Invocation.usage⟩
      return 1
  | some report =>
      report.output.forM put
      return report.exitCode.toUInt32

end ConfigUpkeep.Main

def main (words : List String) : IO UInt32 :=
  ConfigUpkeep.Main.run (words.map String.toList)
