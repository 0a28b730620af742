/-
# ConfigUpkeep.Document.Layout -- a template filled with a document's values

Normalizing a document brings it into the layout of a template and keeps what it
says.  The template is walked once, line by line, and never backwards; the walk is a
machine with three modes (`Mode`):

* while *copying*, a line that sets a scalar is replaced by the document's own
  setting of it, if there is one; the guard of the alias table is followed by the
  document's aliases, and a section header opens its section;
* the template's own aliases are *skipped* up to the next delimiter line;
* *inside a section* lines are copied up to the first example, the document's entries
  stand in place of the examples, and copying goes on behind them.

A walk is over when no line is left.  A section header on the last line therefore
opens nothing, and the entries of its table are not written.

`Walk.rank_step_lt` is why the walk ends: a step consumes a line or returns to
copying, so a template of n lines takes at most 2n steps.
-/
import ConfigUpkeep.Document.Values
import ConfigUpkeep.Document.Line

namespace ConfigUpkeep.Layout

set_option autoImplicit false

/-! ## What is written in place of the template's lines -/

/-- The line, or the setting that stands in its place: the first of the settings whose
scalar the line sets. -/
def substitute (settings : List Setting) (line : Text) : Text :=
  match settings.find? fun setting => Line.starts setting.scalar.opening line with
  | some setting => setting.assignment
  | none => line

/-- The aliases behind the guard of their table: nothing for none, else an empty line
and one line each. -/
def aliasBlock (aliases : List Alias) : List Text :=
  if aliases.isEmpty then []
  else [] :: aliases.map fun alias_ => alias_.toEntry.assignment .aliases

/-- The entries of a section: nothing for none, else one line each between empty lines. -/
def entryBlock (category : Category) (entries : List Entry) : List Text :=
  if entries.isEmpty then []
  else [] :: entries.map (Entry.assignment (.keyed category)) ++ [[]]

/-- The line belongs to the examples of the category's section. -/
def isExample (category : Category) (line : Text) : Bool :=
  Line.isExampleLabel category line || Line.isExampleAssignment (.keyed category) line

/-- In the sections with labelled examples, one blank line directly before a rule goes
with the examples. -/
def dropGap (category : Category) : List Text → List Text
  | gap :: rule :: rest =>
      if category ≠ .ide ∧ gap.isBlank ∧ Line.isRule rule then rule :: rest
      else gap :: rule :: rest
  | rest => rest

/-! ## The walk -/

/-- What the walk is doing. -/
inductive Mode where
  | copying
  | skippingAliases
  | inSection (category : Category)
  deriving DecidableEq, Repr

/-- A point of the walk: what it is doing, and the lines it has not consumed. -/
structure Walk where
  mode : Mode
  rest : List Text
  deriving DecidableEq, Repr

namespace Walk

/-- What the walk does after copying a line. -/
def modeAfter (line : Text) : Mode :=
  if Line.guardsAliases line then .skippingAliases
  else match Line.sectionOpened line with
    | some category => .inSection category
    | none => .copying

/-- One step: the lines it writes, and the point it reaches. -/
def step (values : Values) (walk : Walk) : List Text × Walk :=
  match walk.mode, walk.rest with
  | .copying, [] => ([], walk)
  | .copying, line :: rest =>
      let shown := substitute values.settings line
      let aliases := if Line.guardsAliases shown then aliasBlock values.aliases else []
      (shown :: aliases, ⟨modeAfter shown, rest⟩)
  | .skippingAliases, rest =>
      ([], ⟨.copying, rest.dropWhile fun line => !Line.isDelimiter line⟩)
  | .inSection category, rest =>
      let shown := rest.takeWhile fun line => !isExample category line
      let examples := rest.dropWhile fun line => !isExample category line
      (shown ++ entryBlock category (values.entries category),
        ⟨.copying, dropGap category (examples.dropWhile (isExample category))⟩)

/-- One where the next step may consume no line. -/
def slack : Mode → Nat
  | .copying => 0
  | _ => 1

theorem slack_le_one (mode : Mode) : slack mode ≤ 1 := by cases mode <;> simp [slack]

/-- Twice the lines left, and one more where the next step may consume none. -/
def rank (walk : Walk) : Nat := 2 * walk.rest.length + slack walk.mode

theorem length_dropGap_le (category : Category) (ls : List Text) :
    (dropGap category ls).length ≤ ls.length := by
  rcases ls with _ | ⟨gap, _ | ⟨rule, rest⟩⟩
  · exact Nat.le_refl _
  · exact Nat.le_refl _
  · simp only [dropGap]
    split <;> simp

/-- The walk never goes back: a step leaves no more lines than it found. -/
theorem length_rest_step_le (values : Values) (walk : Walk) :
    (walk.step values).2.rest.length ≤ walk.rest.length := by
  obtain ⟨mode, rest⟩ := walk
  cases mode with
  | copying => cases rest <;> simp [step]
  | skippingAliases => exact (List.dropWhile_sublist _).length_le
  | inSection category =>
      calc (dropGap category _).length ≤ _ := length_dropGap_le _ _
        _ ≤ _ := (List.dropWhile_sublist _).length_le
        _ ≤ _ := (List.dropWhile_sublist _).length_le

/-- Every step before the end lowers the rank. -/
theorem rank_step_lt (values : Values) {walk : Walk} (unfinished : walk.rest ≠ []) :
    (walk.step values).2.rank < walk.rank := by
  have shrinks := length_rest_step_le values walk
  obtain ⟨mode, rest⟩ := walk
  cases mode with
  | copying =>
      cases rest with
      | nil => exact absurd rfl unfinished
      | cons line rest =>
          have := slack_le_one (modeAfter (substitute values.settings line))
          simp only [step, rank, List.length_cons]
          omega
  | skippingAliases =>
      simp only [step, rank, slack] at shrinks ⊢
      omega
  | inSection category =>
      simp only [step, rank, slack] at shrinks ⊢
      omega

/-- The lines that the walk writes from a point on. -/
def run (values : Values) (walk : Walk) : List Text :=
  if unfinished : walk.rest = [] then []
  else
    have := rank_step_lt values unfinished
    (walk.step values).1 ++ run values (walk.step values).2
termination_by walk.rank

def start (template : Text) : Walk := ⟨.copying, template.lines⟩

end Walk

/-! ## Filling and normalizing -/

/-- The template with the values in place of its settings, aliases and examples. -/
def fill (values : Values) (template : Text) : Text :=
  Text.unlines ((Walk.start template).run values)

/-- The document in the layout of the template. -/
def normalize (document template : Text) : Text := fill (Values.ofDocument document) template

end ConfigUpkeep.Layout
