/-
# ConfigUpkeep.Document.Revision -- what can be done to a document

The three commands change documents in three ways.  A `Revision` is one of them, as a
function on documents; `Revision.applyAll` does several in turn.
-/
import ConfigUpkeep.Document.Layout
import ConfigUpkeep.Document.Migration
import ConfigUpkeep.Document.Repair

namespace ConfigUpkeep

set_option autoImplicit false

/-- A way to change a document. -/
inductive Revision where
  /-- Bring the document into the layout of a template. -/
  | normalize (template : Text)
  /-- Mend the structural issues. -/
  | mend
  /-- Replace canonical names by shorthands, unless the document is current. -/
  | migrate
  deriving DecidableEq, Repr

namespace Revision

/-- The document after the change. -/
def apply (revision : Revision) (document : Text) : Text :=
  match revision with
  | .normalize template => Layout.normalize document template
  | .mend => (Repair.check document).document
  | .migrate => ((Migration.ofDocument? document).map Migration.document).getD document

/-- The document after several changes, the first of the list first. -/
def applyAll (revisions : List Revision) (document : Text) : Text :=
  revisions.foldl (fun changed revision => revision.apply changed) document

end Revision

end ConfigUpkeep
