/-
# ConfigUpkeep.Proofs.Padding -- adding lines on which nobody finds anything

A mute line sets no scalar and assigns to no table.  Some lines are another list of lines
with mute lines added (`Padded`): what is on a line is an old one or mute
(`Padded.mem_or_mute`), no old line is lost (`Padded.sublist`), and a reader that finds
nothing on mute lines finds the same (`Padded.filterMap_eq`).

Both passes of a repair only add mute lines (`Repair.padded_declaredLines`,
`Repair.padded_spacedLines`).
-/
import ConfigUpkeep.Document.Repair
import ConfigUpkeep.Proofs.Reading

namespace ConfigUpkeep

set_option autoImplicit false

/-- The second lines are the first ones with mute lines added. -/
inductive Padded : List Text → List Text → Prop where
  | nil : Padded [] []
  | kept (line : Text) {ls ms : List Text} : Padded ls ms → Padded (line :: ls) (line :: ms)
  | added {line : Text} {ls ms : List Text} : Line.Mute line → Padded ls ms → Padded ls (line :: ms)

namespace Padded

variable {ls ms : List Text}

theorem refl : ∀ ls : List Text, Padded ls ls
  | [] => nil
  | line :: ls => kept line (refl ls)

theorem append_left {block : List Text} (mute : ∀ l ∈ block, Line.Mute l) (padded : Padded ls ms) :
    Padded ls (block ++ ms) := by
  induction block with
  | nil => exact padded
  | cons line block ih =>
      obtain ⟨here, later⟩ := List.forall_mem_cons.1 mute
      exact added here (ih later)

theorem mem_or_mute (padded : Padded ls ms) {l : Text} (member : l ∈ ms) :
    l ∈ ls ∨ Line.Mute l := by
  induction padded with
  | nil => cases member
  | kept line padded ih =>
      rcases List.mem_cons.1 member with rfl | later
      · exact Or.inl (List.mem_cons_self ..)
      · exact (ih later).imp_left (List.mem_cons_of_mem _)
  | added mute padded ih =>
      rcases List.mem_cons.1 member with rfl | later
      · exact Or.inr mute
      · exact ih later

/-- A reader that finds nothing on mute lines finds the same. -/
theorem filterMap_eq {β : Type} {reader : Text → Option β} (padded : Padded ls ms)
    (blind : ∀ l, Line.Mute l → reader l = none) : ms.filterMap reader = ls.filterMap reader := by
  induction padded with
  | nil => rfl
  | kept line padded ih => rw [List.filterMap_cons, List.filterMap_cons, ih]
  | added mute padded ih => rw [List.filterMap_cons_none (blind _ mute), ih]

theorem findSome?_eq {β : Type} {reader : Text → Option β} (padded : Padded ls ms)
    (blind : ∀ l, Line.Mute l → reader l = none) : ms.findSome? reader = ls.findSome? reader := by
  rw [← List.head?_filterMap, padded.filterMap_eq blind, List.head?_filterMap]

theorem ne_nil (padded : Padded ls ms) (some_ : ls ≠ []) : ms ≠ [] := by
  cases padded with
  | nil => exact some_
  | kept => simp
  | added => simp

/-- No line is lost, and none changes its place. -/
theorem sublist (padded : Padded ls ms) : ls.Sublist ms := by
  induction padded with
  | nil => exact .slnil
  | kept line padded ih => exact .cons_cons line ih
  | added mute padded ih => exact .cons _ ih

/-- Where no old line holds a line feed, no line holds one. -/
theorem not_mem_newline (padded : Padded ls ms) (free : ∀ l ∈ ls, '\n' ∉ l) :
    ∀ l ∈ ms, '\n' ∉ l := by
  intro l member
  rcases padded.mem_or_mute member with old | mute
  · exact free l old
  · exact Text.not_mem_of_flat mute.flat

/-- A document with mute lines added is cut into its lines again. -/
theorem lines_unlines {document : Text} (padded : Padded document.lines ms) :
    (Text.unlines ms).lines = ms := by
  refine Text.lines_unlines (padded.not_mem_newline fun l member => ?_)
    (padded.ne_nil (Text.lines_ne_nil document))
  exact (List.of_mem_splitOn member).1

end Padded

namespace Repair

theorem mute_of_mem_declarationLines {category : Category} :
    ∀ l ∈ declarationLines category, Line.Mute l := by
  intro l member
  simp only [declarationLines, List.mem_cons, List.not_mem_nil, or_false] at member
  rcases member with rfl | rfl
  · exact Line.mute_guardedDeclaration _
  · exact Line.mute_nil

/-- Declaring tables adds mute lines only. -/
theorem padded_declaredLines (uses : Uses) (awaited : List Category) (ls : List Text) :
    Padded ls (declaredLines uses awaited ls) := by
  induction ls generalizing awaited with
  | nil => exact .nil
  | cons line rest ih =>
      rw [declaredLines]
      refine Padded.append_left (fun l member => ?_) (.kept line (ih _))
      obtain ⟨category, -, declared⟩ := List.mem_flatMap.1 member
      exact mute_of_mem_declarationLines l declared

/-- Spacing banners adds mute lines only. -/
theorem padded_spacedLines (ls : List Text) : Padded ls (spacedLines ls) := by
  fun_induction spacedLines ls with
  | case1 => exact .nil
  | case2 line => exact Padded.refl [line]
  | case3 line next rest crowded ih => exact .kept line (.added Line.mute_nil ih)
  | case4 line next rest free ih => exact .kept line ih

end Repair

end ConfigUpkeep
