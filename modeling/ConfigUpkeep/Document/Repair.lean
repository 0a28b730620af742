/-
# ConfigUpkeep.Document.Repair -- structural issues, and the lines that mend them

Two things are wrong with a document when

* a keyed table is used and declared nowhere (`Issue.undeclared`), or
* a line that assigns an alias runs straight into a section banner
  (`Issue.crowdedBanner`).

Each is mended by inserting lines, never by changing or removing one.  A missing
declaration goes, with an empty line, before the first use of its table, and an empty
line goes before a crowded banner.  `Repair.declarations` and `Repair.spacing` do one
thing each, and `Repair.check` does both, one on the other's result.

What counts as a use is a parameter of the first pass: a check looks at assignments
in the first column, a migration at assignments of any indent.

Main statement: every issue is an inserted guard or an inserted empty line
(`length_spacedLines`, `length_declaredLines`), so a document without issues is
returned as it is and every other one grows.
-/
import ConfigUpkeep.Document.Line

namespace ConfigUpkeep

set_option autoImplicit false

/-- A structural issue of a document. -/
inductive Issue where
  /-- The keyed table is used and never declared. -/
  | undeclared (category : Category)
  /-- A section banner directly follows an alias. -/
  | crowdedBanner
  deriving DecidableEq, Repr

namespace Issue

/-- What the user is told is wrong. -/
def message : Issue → Text
  | .undeclared category => "Missing " ++ (Table.keyed category).name ++ " declaration"
  | .crowdedBanner => "Missing blank line after " ++ Table.aliases.name ++ " block"

/-- What the user is told was done about it. -/
def remedy : Issue → Text
  | .undeclared category => "Added: " ++ (Table.keyed category).guardedDeclaration
  | .crowdedBanner => "Added: blank line before section header"

end Issue

/-- A document with its issues mended, and the issues. -/
structure Repair where
  document : Text
  issues : List Issue
  deriving DecidableEq, Repr

namespace Repair

def remedies (repair : Repair) : List Text := repair.issues.map Issue.remedy

def hadIssues (repair : Repair) : Bool := !repair.issues.isEmpty

/-! ## Declarations -/

/-- Recognises a use of a keyed table on a line. -/
abbrev Uses := Category → Text → Bool

/-- The lines use the table and none of them declares it. -/
def isUndeclared (uses : Uses) (ls : List Text) (category : Category) : Bool :=
  ls.any (uses category) && !ls.any (Line.declares (.keyed category))

/-- The declaration of a table, and the empty line below it. -/
def declarationLines (category : Category) : List Text :=
  [(Table.keyed category).guardedDeclaration, []]

/-- The lines with a declaration before the first use of each awaited table. -/
def declaredLines (uses : Uses) : List Category → List Text → List Text
  | _, [] => []
  | awaited, line :: rest =>
      let here := awaited.filter fun category => uses category line
      let later := awaited.filter fun category => !uses category line
      here.flatMap declarationLines ++ line :: declaredLines uses later rest

/-- The awaited tables in the order of their first use. -/
def usedFirst (uses : Uses) : List Category → List Text → List Category
  | _, [] => []
  | awaited, line :: rest =>
      let here := awaited.filter fun category => uses category line
      let later := awaited.filter fun category => !uses category line
      here ++ usedFirst uses later rest

/-- Declare every table that is used and declared nowhere. -/
def declarations (uses : Uses) (document : Text) : Repair :=
  let ls := document.lines
  let undeclared := Category.all.filter (isUndeclared uses ls)
  ⟨Text.unlines (declaredLines uses undeclared ls),
    (usedFirst uses undeclared ls).map .undeclared⟩

/-- Each table used first brings two lines. -/
theorem length_declaredLines (uses : Uses) (awaited : List Category) (ls : List Text) :
    (declaredLines uses awaited ls).length =
      ls.length + 2 * (usedFirst uses awaited ls).length := by
  induction ls generalizing awaited with
  | nil => rfl
  | cons line rest ih =>
      have two (here : List Category) :
          (here.flatMap declarationLines).length = 2 * here.length := by
        induction here with
        | nil => rfl
        | cons category here ih => simp [declarationLines, ih]; omega
      simp only [declaredLines, usedFirst, List.length_append, List.length_cons, two, ih]
      omega

/-! ## Spacing -/

/-- The second of two neighbouring lines is a banner crowded by an alias. -/
def isCrowded (line next : Text) : Bool :=
  Line.isAssignment .aliases line && Line.isBanner next

/-- The lines with an empty line before each crowded banner. -/
def spacedLines : List Text → List Text
  | [] => []
  | [line] => [line]
  | line :: next :: rest =>
      if isCrowded line next then line :: [] :: spacedLines (next :: rest)
      else line :: spacedLines (next :: rest)

/-- How many banners are crowded. -/
def crowdedBanners : List Text → Nat
  | [] => 0
  | [_] => 0
  | line :: next :: rest =>
      (if isCrowded line next then 1 else 0) + crowdedBanners (next :: rest)

/-- Put an empty line before every crowded banner. -/
def spacing (document : Text) : Repair :=
  ⟨Text.unlines (spacedLines document.lines),
    List.replicate (crowdedBanners document.lines) .crowdedBanner⟩

/-- Each crowded banner brings one line. -/
theorem length_spacedLines (ls : List Text) :
    (spacedLines ls).length = ls.length + crowdedBanners ls := by
  fun_induction spacedLines ls with
  | case1 => rfl
  | case2 => rfl
  | case3 line next rest crowded ih =>
      simp only [List.length_cons] at ih ⊢
      simp only [crowdedBanners, crowded, if_true, ih]
      omega
  | case4 line next rest free ih =>
      simp only [List.length_cons] at ih ⊢
      simp only [crowdedBanners, free, if_false, ih, Bool.false_eq_true]
      omega

/-! ## Both -/

/-- One repair after another: the second works on the first one's document. -/
def andThen (first : Repair) (second : Text → Repair) : Repair :=
  let done := second first.document
  ⟨done.document, first.issues ++ done.issues⟩

/-- Check a document and mend what is wrong with it. -/
def check (document : Text) : Repair :=
  (declarations (fun category => Line.isAssignment (.keyed category)) document).andThen spacing

end Repair

end ConfigUpkeep
