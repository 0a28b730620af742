/-
# ConfigUpkeep.Disk -- files as a run finds and leaves them

A disk gives every path a node or none, and may refuse an operation at a path.  It is
flat: a path exists if and only if it has a node, whatever its parents.  Reading and
writing a directory fail; a directory exists like a file.

A write that fails leaves the disk as it was, and a write that succeeds changes the
path written and nothing else (`node?_write?`).

`Disk.ofTree` is the disk of a directory tree, where the spelling of a path does not
matter, and where no path leads through a file.
-/
import ConfigUpkeep.Path
import ConfigUpkeep.Text.Utf8

namespace ConfigUpkeep

set_option autoImplicit false

inductive Node where
  | file (content : Bytes)
  | directory
  deriving DecidableEq, Repr

inductive Operation where
  | access
  | read
  | write
  deriving DecidableEq, Repr

/-- What stands at each path, and the operations that are refused there. -/
structure Disk where
  node? : Path → Option Node
  refuses : Operation → Path → Bool

namespace Disk

/-- Whether something stands at the path; none if the platform does not tell. -/
def isThere? (disk : Disk) (path : Path) : Option Bool :=
  if disk.refuses .access path then none else some (disk.node? path).isSome

/-- The content of the file at the path; none if it cannot be read. -/
def read? (disk : Disk) (path : Path) : Option Bytes :=
  if disk.refuses .read path then none
  else match disk.node? path with
    | some (.file content) => some content
    | _ => none

def put (disk : Disk) (path : Path) (node : Option Node) : Disk :=
  { disk with node? := fun other => if other = path then node else disk.node? other }

/-- The disk with a file at the path; none if it cannot be written. -/
def write? (disk : Disk) (path : Path) (content : Bytes) : Option Disk :=
  if disk.refuses .write path || disk.node? path = some .directory then none
  else some (disk.put path (some (.file content)))

def refusing (disk : Disk) (operation : Operation) (path : Path) : Disk :=
  { disk with
    refuses := fun asked at_ =>
      (decide (asked = operation) && decide (at_ = path)) || disk.refuses asked at_ }

/-- A write changes the path written and nothing else. -/
theorem node?_write? {disk after : Disk} {path : Path} {content : Bytes}
    (written : disk.write? path content = some after) (other : Path) :
    after.node? other = if other = path then some (.file content) else disk.node? other := by
  unfold write? at written
  split at written
  · simp at written
  · cases written; rfl

/-- A write refuses nothing new. -/
theorem refuses_write? {disk after : Disk} {path : Path} {content : Bytes}
    (written : disk.write? path content = some after) : after.refuses = disk.refuses := by
  unfold write? at written
  split at written
  · simp at written
  · cases written; rfl

/-- What was written is read back, unless reading is refused. -/
theorem read?_write? {disk after : Disk} {path : Path} {content : Bytes}
    (written : disk.write? path content = some after) (readable : disk.refuses .read path = false) :
    after.read? path = some content := by
  rw [read?, refuses_write? written, readable, node?_write? written path]
  simp

/-! ## Lists of files and directory trees -/

/-- The node that a list gives a path: the last one it gives. -/
def listed? (nodes : List (Path × Option Node)) (path : Path) : Option Node :=
  ((nodes.reverse.find? fun entry => entry.1 = path).map Prod.snd).join

/-- The disk of a list of nodes, with the operations refused at paths. -/
def ofList (nodes : List (Path × Option Node)) (refused : List (Operation × Path)) : Disk where
  node? := listed? nodes
  refuses operation path := decide ((operation, path) ∈ refused)

/-- The node that a tree gives some names: the one listed at these names, or a directory
where something is listed further down. -/
def nodeInTree? (nodes : List (Path × Node)) (names : List Text) : Option Node :=
  match nodes.find? fun entry => entry.1.names = names with
  | some entry => some entry.2
  | none =>
      if nodes.any fun entry => names.isPrefixOf entry.1.names then some .directory else none

/-- The path leads through a file: one of its directories is a file, or it is itself one
and ends in a slash. -/
def leadsThroughFile (nodes : List (Path × Node)) (path : Path) : Bool :=
  nodes.any fun entry =>
    entry.2 != .directory && entry.1.names.isPrefixOf path.names &&
      (path.endsInSlash || entry.1.names != path.names)

/-- The disk of a directory tree. -/
def ofTree (nodes : List (Path × Node)) : Disk where
  node? path := nodeInTree? nodes path.names
  refuses _ path := leadsThroughFile nodes path

end Disk

end ConfigUpkeep
