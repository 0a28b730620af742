/-
# ConfigUpkeep.Proofs.Progress -- how the walk over a template comes to its end

While copying, a walk consumes one line with each step.  From every other mode it returns to
copying with the next step, and where aliases are skipped up to a delimiter that stands next,
it consumes nothing on the way.  So the lines that are left do not bound the steps, but twice
these lines do, with one more wherever the walk is not copying (`Walk.rank`).

`Walk.point` is where the walk is after some steps, and its `Walk.cursor` counts the lines of
the template that are consumed by then.  `Walk.Advances` is what one step does to the cursor
(`advances_step`).  The points are those of `Walk.trace` (`exists_count`), and `finishes` puts
the steps together: a template of n lines takes at most 2n of them, and then all its lines
are consumed.
-/
import Mathlib.Logic.Function.Iterate
import ConfigUpkeep.Proofs.Steering

namespace ConfigUpkeep.Layout.Walk

set_option autoImplicit false

variable (values : Values)

/-- The point that the walk reaches with one step. -/
def next (walk : Walk) : Walk := (walk.step values).2

/-- The point that the walk over the template reaches with some steps. -/
def point (template : Text) (count : Nat) : Walk := (next values)^[count] (start template)

/-- The lines of the template that are consumed. -/
def cursor (template : Text) (walk : Walk) : Nat := template.lines.length - walk.rest.length

/-! ## One step -/

/-- What one step does on the way through the template. -/
structure Advances (template : Text) (before after : Walk) : Prop where
  onward : cursor template before ≤ cursor template after
  copies : before.mode = .copying → cursor template after = cursor template before + 1
  returns : before.mode ≠ .copying → after.mode = .copying
  /-- Nothing is consumed exactly where a delimiter stands behind the aliases at once. -/
  stays_iff : cursor template after = cursor template before ↔
    before.mode = .skippingAliases ∧ ∃ line ∈ before.rest.head?, Line.isDelimiter line = true

/-- A section consumes lines while there are any: up to the first example, or that example. -/
theorem length_behindExamples_lt (category : Category) {rest : List Text} (some_ : rest ≠ []) :
    (behindExamples category rest).length < rest.length := by
  obtain ⟨line, rest, rfl⟩ := List.exists_cons_of_ne_nil some_
  have fewer : (((line :: rest).dropWhile fun l => !isExample category l).dropWhile
      (isExample category)).length ≤ rest.length := by
    cases shown : isExample category line with
    | true =>
        rw [List.dropWhile_cons_of_neg (by simp [shown]), List.dropWhile_cons_of_pos shown]
        exact (List.dropWhile_suffix _).length_le
    | false =>
        rw [List.dropWhile_cons_of_pos (by simp [shown])]
        exact ((List.dropWhile_suffix _).trans (List.dropWhile_suffix _)).length_le
  have behind := (dropGap_suffix category (((line :: rest).dropWhile fun l =>
    !isExample category l).dropWhile (isExample category))).length_le
  rw [behindExamples, List.length_cons]
  omega

/-- Skipping consumes nothing exactly where a delimiter stands next. -/
theorem length_dropWhile_eq_iff {rest : List Text} (some_ : rest ≠ []) :
    (rest.dropWhile fun line => !Line.isDelimiter line).length = rest.length ↔
      ∃ line ∈ rest.head?, Line.isDelimiter line = true := by
  obtain ⟨line, rest, rfl⟩ := List.exists_cons_of_ne_nil some_
  cases delimits : Line.isDelimiter line with
  | true =>
      rw [List.dropWhile_cons_of_neg (by simp [delimits])]
      simp [delimits]
  | false =>
      have fewer := (List.dropWhile_suffix (fun line => !Line.isDelimiter line) (l := rest)).length_le
      rw [List.dropWhile_cons_of_pos (by simp [delimits]), List.length_cons]
      simp only [List.head?_cons, Option.mem_some_iff, exists_eq_left', delimits]
      simp
      omega

variable {values} {template : Text} {walk : Walk}

/-- The lines that are left are the last lines of the template, so the cursor tells them. -/
theorem rest_eq_drop (ahead : walk.rest <:+ template.lines) :
    walk.rest = template.lines.drop (cursor template walk) :=
  List.suffix_iff_eq_drop.1 ahead

theorem cursor_eq_iff (ahead : walk.rest <:+ template.lines) :
    cursor template walk = template.lines.length ↔ walk.rest = [] := by
  have within := ahead.length_le
  have lines : 0 < template.lines.length := List.length_pos_iff.2 template.lines_ne_nil
  rw [← List.length_eq_zero_iff, cursor]
  omega

/-- **One step** copies one line or returns to copying, and never goes back. -/
theorem advances_step (ahead : walk.rest <:+ template.lines) (unfinished : walk.rest ≠ []) :
    Advances template walk (next values walk) := by
  have within := ahead.length_le
  have shrinks : (next values walk).rest.length ≤ walk.rest.length :=
    rest_step_suffix.length_le
  have onward : cursor template walk ≤ cursor template (next values walk) := by
    rw [cursor, cursor]
    omega
  have stays : cursor template (next values walk) = cursor template walk ↔
      (next values walk).rest.length = walk.rest.length := by
    rw [cursor, cursor]
    omega
  obtain ⟨mode, rest⟩ := walk
  cases mode with
  | copying =>
      obtain ⟨line, rest, rfl⟩ := List.exists_cons_of_ne_nil unfinished
      have left : (next values ⟨.copying, line :: rest⟩).rest.length + 1 = (line :: rest).length :=
        rfl
      refine ⟨onward, fun _ => ?_, fun other => absurd rfl other, ?_⟩
      · rw [cursor, cursor]
        dsimp only at left within ⊢
        omega
      · rw [stays]
        refine iff_of_false (Nat.ne_of_lt (Nat.lt_of_succ_le (Nat.le_of_eq left))) ?_
        rintro ⟨⟨⟩, -⟩
  | skippingAliases =>
      refine ⟨onward, nofun, fun _ => rfl, ?_⟩
      rw [stays]
      exact (length_dropWhile_eq_iff unfinished).trans (and_iff_right rfl).symm
  | inSection category =>
      have fewer : (next values ⟨.inSection category, rest⟩).rest.length < rest.length :=
        length_behindExamples_lt category unfinished
      refine ⟨onward, nofun, fun _ => rfl, ?_⟩
      rw [stays]
      refine iff_of_false (Nat.ne_of_lt fewer) ?_
      rintro ⟨⟨⟩, -⟩

/-! ## All steps -/

theorem point_succ (values : Values) (template : Text) (count : Nat) :
    point values template (count + 1) = next values (point values template count) :=
  Function.iterate_succ_apply' _ _ _

/-- Wherever the walk is, the lines that are left are the last lines of the template. -/
theorem rest_point_suffix (values : Values) (template : Text) (count : Nat) :
    (point values template count).rest <:+ template.lines := by
  induction count with
  | zero => exact List.suffix_refl _
  | succ count ih =>
      rw [point_succ]
      exact rest_step_suffix.trans ih

/-- A walk takes some steps, no more than its rank, and passes through the points that it reaches
with them. -/
theorem exists_count (values : Values) (walk : Walk) :
    ∃ count ≤ walk.rank, (∀ k < count, ((next values)^[k] walk).rest ≠ []) ∧
      ((next values)^[count] walk).rest = [] ∧
      trace values walk = (List.range (count + 1)).map fun k => (next values)^[k] walk := by
  fun_induction trace values walk with
  | case1 walk done =>
      exact ⟨0, Nat.zero_le _, fun k before => absurd before (Nat.not_lt_zero k), done, rfl⟩
  | case2 walk unfinished shorter ih =>
      obtain ⟨count, few, goesOn, ends, passed⟩ := ih
      refine ⟨count + 1, by omega, fun k before => ?_, ends, ?_⟩
      · cases k with
        | zero => exact unfinished
        | succ k => exact goesOn k (by omega)
      · rw [List.range_succ_eq_map, List.map_cons, List.map_map, passed]
        rfl

/-- The walk over the template takes the number of steps and comes to its end with them. -/
structure Finishes (values : Values) (template : Text) (count : Nat) : Prop where
  goesOn : ∀ k < count, (point values template k).rest ≠ []
  ends : (point values template count).rest = []
  written : (start template).run values =
    (List.range count).flatMap fun k => ((point values template k).step values).1
  advances : ∀ k < count,
    Advances template (point values template k) (point values template (k + 1))
  /-- The cursor tells the lines that are left. -/
  located : ∀ k, (point values template k).rest =
    template.lines.drop (cursor template (point values template k))
  /-- Only where all lines are consumed are none left. -/
  done_iff : ∀ k, (point values template k).rest = [] ↔
    cursor template (point values template k) = template.lines.length

/-- **A walk comes to its end**: over a template of n lines it takes at most 2n steps, whatever
the values are. -/
theorem finishes (values : Values) (template : Text) :
    ∃ count ≤ 2 * template.lines.length, Finishes values template count := by
  obtain ⟨count, few, goesOn, ends, passed⟩ := exists_count values (start template)
  have written : (start template).run values =
      (List.range count).flatMap fun k => ((point values template k).step values).1 := by
    rw [run_eq_flatMap_trace, passed, List.range_succ, List.map_append, List.map_singleton,
      List.dropLast_concat, List.flatMap_map]
    rfl
  have ahead := rest_point_suffix values template
  refine ⟨count, few, goesOn, ends, written, fun k before => ?_, fun k => rest_eq_drop (ahead k),
    fun k => (cursor_eq_iff (ahead k)).symm⟩
  rw [point_succ]
  exact advances_step (ahead k) (goesOn k before)

end ConfigUpkeep.Layout.Walk
