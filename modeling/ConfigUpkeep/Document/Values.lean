/-
# ConfigUpkeep.Document.Values -- everything a document says

`Values` is what the tool takes from a document: its settings, its aliases, and the
entries of its keyed tables with their keys resolved.  `Values.ofDocument` reads
them.  Aliases resolve keys wherever they stand in the document, because the whole
alias table is read first.

A setting is listed once at most: of several segments that set one scalar the first
counts (`Scalar.value?`), in contrast to aliases, of which the last counts.
-/
import ConfigUpkeep.Document.Alias

namespace ConfigUpkeep

set_option autoImplicit false

/-- A scalar and the value it is set to. -/
structure Setting where
  scalar : Scalar
  value : Text
  deriving DecidableEq, Repr

/-- The line that makes the setting. -/
def Setting.assignment (setting : Setting) : Text := setting.scalar.assignment setting.value

/-- What a document says: its settings, its aliases, and the entries of each keyed table. -/
structure Values where
  settings : List Setting
  aliases : List Alias
  entries : Category → List Entry

namespace Values

/-- The settings of a document, in the order of `Scalar.all`. -/
def settingsOf (document : Text) : List Setting :=
  Scalar.all.filterMap fun scalar => (scalar.value? document).map fun value => ⟨scalar, value⟩

/-- The entries of a keyed table, keys resolved by the document's own aliases. -/
def entriesOf (document : Text) (category : Category) : List Entry :=
  ((Table.keyed category).entries document).map (Alias.resolveEntry (Alias.ofDocument document))

/-- Everything the document says. -/
def ofDocument (document : Text) : Values where
  settings := settingsOf document
  aliases := Alias.ofDocument document
  entries := entriesOf document

end Values

end ConfigUpkeep
