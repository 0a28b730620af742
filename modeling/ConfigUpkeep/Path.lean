/-
# ConfigUpkeep.Path -- names of files

A path is kept as it is spelled.  Its *names* are the pieces between slashes that are
not empty.  A path is rooted if it starts with a slash, and everything else is seen
from the working directory.

* `Path.normal` removes what does not matter -- empty pieces, single dots, and a name
  before a double dot -- without looking at the working directory, and keeps a slash at
  the end;
* `Path.resolve` gives the rooted path that is meant, seen from a directory, without a
  slash at the end;
* `Path.absolute` does the first, and the second where the result is not rooted.  It is
  what every path given by the user goes through, once.

A path that holds the character NUL is refused there (`Path.ofUser?`).
-/
import ConfigUpkeep.Text

namespace ConfigUpkeep

set_option autoImplicit false

/-- A path, as it is spelled. -/
structure Path where
  spelling : Text
  deriving DecidableEq, Repr

namespace Path

def isRooted (path : Path) : Bool := path.spelling.head? = some '/'

def endsInSlash (path : Path) : Bool := path.spelling.getLast? = some '/'

/-- The names on the way, dots included. -/
def names (path : Path) : List Text := (path.spelling.splitOn '/').filter fun name => !name.isEmpty

def here : Text := "."

def above : Text := ".."

/-- Go one name further.  The way is kept backwards, its last name first.  Going up
from the root stays at the root; going up from anywhere else leaves a double dot where
no name is left to take back. -/
def descend (rooted : Bool) (way : List Text) (name : Text) : List Text :=
  if name = here then way
  else if name = above then
    match way with
    | last :: rest => if last = above then name :: way else rest
    | [] => if rooted then [] else [name]
  else name :: way

/-- The names with dots taken out. -/
def collapse (rooted : Bool) (names : List Text) : List Text :=
  (names.foldl (descend rooted) []).reverse

/-- The rooted path along some names. -/
def ofNames (names : List Text) : Path := ⟨'/' :: Text.joined "/" names⟩

/-- The path without detours.  A slash at the end stays, and the empty path is the
current directory. -/
def normal (path : Path) : Path :=
  let body := Text.joined "/" (collapse path.isRooted path.names)
  let ending : Text := if path.endsInSlash then "/" else []
  if path.isRooted then ⟨'/' :: body ++ (if body.isEmpty then [] else ending)⟩
  else ⟨(if body.isEmpty then here else body) ++ ending⟩

/-- The rooted path that is meant by a path seen from a directory. -/
def resolve (directory path : Path) : Path :=
  if path.isRooted then ofNames (collapse true path.names)
  else ofNames (collapse true (directory.names ++ path.names))

/-- The rooted path that a user means. -/
def absolute (directory path : Path) : Path :=
  if path.normal.isRooted then path.normal else resolve directory path.normal

/-- The last name of the path, or nothing for a path without names. -/
def fileName (path : Path) : Text := path.names.getLast?.getD []

/-- The directory that holds the path's last name. -/
def parent (path : Path) : Path :=
  let upper := Text.joined "/" path.names.dropLast
  if path.isRooted then ⟨'/' :: upper⟩ else ⟨if upper.isEmpty then here else upper⟩

/-- The path of a name beside the path's last name, seen from a directory. -/
def sibling (directory path : Path) (name : Text) : Path :=
  absolute directory (resolve (resolve directory path.parent) ⟨name⟩)

/-- The character that no path may hold. -/
def nul : Char := '\x00'

/-- The rooted path that a user means, unless the text can be no path. -/
def ofUser? (directory : Path) (given : Text) : Option Path :=
  if given.contains nul then none else some (absolute directory ⟨given⟩)

end Path

end ConfigUpkeep
