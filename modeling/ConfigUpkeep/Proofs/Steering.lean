/-
# ConfigUpkeep.Proofs.Steering -- what steers the walk over a template

A walk passes through points (`Walk.trace`), and what it writes at a point depends on the
values, but where it goes next should not: a template decides which of its lines are kept,
and a document only fills them in.  Of the three modes two keep to this.  While copying,
though, the walk looks for the guard of the aliases in the line *after* substitution, and
so in what a document gives a scalar.

This module says exactly how far the template steers alone.  Two documents *part* at a
point where a scalar is set and only one of them has the line mention the guard
(`Parts`).

* `step_eq_iff`: two walks that are at one point take the same next point unless the
  documents part there.
* `trace_eq_iff`: two walks pass through the same points exactly if the documents part at
  none of them, by induction along the first walk.
* `passes_eq_iff`: hence two documents are steered alike by every template whose scalars
  are set apart from its guard (`GuardApart`) exactly if they mention the guard in the
  values of the same scalars.

The points of a walk give what it writes, one step after another
(`normalize_eq_flatMap_passes`).
-/
import ConfigUpkeep.Proofs.Walk

namespace ConfigUpkeep

set_option autoImplicit false

/-- A line that sets a scalar sets one scalar to one value. -/
theorem Scalar.assignment_inj {a b : Scalar} {value other : Text}
    (same : a.assignment value = b.assignment other) : a = b ∧ value = other := by
  have read := isPrefixOf?_assignment a b other
  rw [← same, isPrefixOf?_assignment, if_pos rfl] at read
  by_cases equal : a = b
  · rw [if_pos equal] at read
    exact ⟨equal, Option.some.inj read⟩
  · rw [if_neg equal] at read
    cases read

namespace Layout

namespace Walk

/-! ## The points of a walk -/

/-- The points that a walk passes through, from the given one to the one where no line is
left. -/
def trace (values : Values) (walk : Walk) : List Walk :=
  if unfinished : walk.rest = [] then [walk]
  else
    have := rank_step_lt values unfinished
    walk :: trace values (walk.step values).2
termination_by walk.rank

variable (values : Values)

theorem trace_done {walk : Walk} (done : walk.rest = []) : trace values walk = [walk] := by
  rw [trace, dif_pos done]

theorem trace_step {walk : Walk} (unfinished : walk.rest ≠ []) :
    trace values walk = walk :: trace values (walk.step values).2 := by
  rw [trace, dif_neg unfinished]

/-- A walk is first of all where it starts. -/
theorem head?_trace (walk : Walk) : (trace values walk).head? = some walk := by
  by_cases done : walk.rest = []
  · rw [trace_done values done]
    rfl
  · rw [trace_step values done]
    rfl

theorem mem_trace_self (walk : Walk) : walk ∈ trace values walk :=
  List.mem_of_head? (head?_trace values walk)

theorem trace_ne_nil (walk : Walk) : trace values walk ≠ [] :=
  List.ne_nil_of_mem (mem_trace_self values walk)

/-- A walk writes what its steps write, from one point to the next. -/
theorem run_eq_flatMap_trace (walk : Walk) :
    run values walk = (trace values walk).dropLast.flatMap fun point => (point.step values).1 := by
  fun_induction run values walk with
  | case1 walk done =>
      rw [trace_done values done]
      rfl
  | case2 walk unfinished shorter ih =>
      rw [trace_step values unfinished, List.dropLast_cons_of_ne_nil (trace_ne_nil values _),
        List.flatMap_cons, ← ih]

variable {values}

/-- The lines ahead of a point were ahead from the start. -/
theorem rest_subset_of_mem_trace {walk point : Walk} (member : point ∈ trace values walk) :
    point.rest ⊆ walk.rest := by
  fun_induction trace values walk with
  | case1 walk done =>
      obtain rfl := List.mem_singleton.1 member
      exact List.Subset.refl _
  | case2 walk unfinished shorter ih =>
      rcases List.mem_cons.1 member with rfl | later
      · exact List.Subset.refl _
      · exact List.Subset.trans (ih later) rest_step_suffix.subset

/-! ## Where two walks part -/

/-- The values part at the point: it copies a line that sets a scalar, and the line mentions the
guard of the aliases with the setting of one of them and not with that of the other. -/
def Parts (first second : List Setting) (point : Walk) : Prop :=
  point.mode = .copying ∧ ∃ (scalar : Scalar) (own : Text) (rest : List Text),
    point.rest = scalar.assignment own :: rest ∧
      Line.guardsAliases ((Setting.valueIn? first scalar).getD own) ≠
        Line.guardsAliases ((Setting.valueIn? second scalar).getD own)

/-- A walk skips aliases exactly behind a line that guards them. -/
theorem modeAfter_eq_skipping {line : Text} :
    modeAfter line = .skippingAliases ↔ Line.guardsAliases line = true := by
  rw [modeAfter]
  cases guards : Line.guardsAliases line with
  | true => simp
  | false => cases Line.sectionOpened line <;> simp

/-- After two lines that open the same section, if any, the walk is in the same mode exactly if
both guard the aliases or none does. -/
theorem modeAfter_eq_iff {a b : Text} (opened : Line.sectionOpened a = Line.sectionOpened b) :
    modeAfter a = modeAfter b ↔ Line.guardsAliases a = Line.guardsAliases b := by
  constructor
  · intro same
    rw [Bool.eq_iff_iff, ← modeAfter_eq_skipping, ← modeAfter_eq_skipping, same]
  · intro same
    rw [modeAfter, modeAfter, same, opened]

/-- **Two walks at one point take the same next point** unless the values part there. -/
theorem step_eq_iff {first second : Values} {walk : Walk} :
    (walk.step first).2 = (walk.step second).2 ↔ ¬ Parts first.settings second.settings walk := by
  obtain ⟨mode, rest⟩ := walk
  cases mode with
  | skippingAliases => simp [step, Parts]
  | inSection category => simp [step, Parts]
  | copying =>
      cases rest with
      | nil => simp [step, Parts]
      | cons line rest =>
          have next : ∀ values : Values, (Walk.step values ⟨.copying, line :: rest⟩).2 =
              ⟨modeAfter (substitute values.settings line), rest⟩ := fun _ => rfl
          rw [next, next, Walk.mk.injEq, and_iff_left rfl]
          rcases assignment_or_silent line with ⟨scalar, own, rfl⟩ | silent
          · rw [substitute_assignment, substitute_assignment,
              modeAfter_eq_iff (by rw [sectionOpened_assignment, sectionOpened_assignment]),
              guardsAliases_assignment, guardsAliases_assignment]
            constructor
            · rintro same ⟨-, other, value, behind, here, differ⟩
              obtain ⟨line, -⟩ := List.cons.inj here
              obtain ⟨rfl, rfl⟩ := Scalar.assignment_inj line
              exact differ same
            · intro apart
              exact Decidable.byContradiction fun differ =>
                apart ⟨rfl, scalar, own, rest, rfl, differ⟩
          · rw [substitute_of_silent _ silent, substitute_of_silent _ silent]
            refine iff_of_true rfl ?_
            rintro ⟨-, scalar, own, behind, here, -⟩
            obtain ⟨rfl, -⟩ := List.cons.inj here
            have sets := silent scalar
            rw [Scalar.starts_assignment] at sets
            simp at sets

/-- **Two walks pass through the same points exactly if the values part at none of them.** -/
theorem trace_eq_iff {first second : Values} {walk : Walk} :
    trace first walk = trace second walk ↔
      ∀ point ∈ trace first walk, ¬ Parts first.settings second.settings point := by
  fun_induction trace first walk with
  | case1 walk done =>
      rw [trace_done second done, List.forall_mem_singleton]
      refine iff_of_true rfl ?_
      rintro ⟨-, scalar, own, rest, here, -⟩
      rw [done] at here
      cases here
  | case2 walk unfinished shorter ih =>
      rw [trace_step second unfinished, List.cons_inj_right, List.forall_mem_cons]
      constructor
      · intro same
        have next : (walk.step first).2 = (walk.step second).2 := by
          have heads := congrArg List.head? same
          rwa [head?_trace, head?_trace, Option.some_inj] at heads
        rw [← next] at same
        exact ⟨step_eq_iff.1 next, ih.1 same⟩
      · rintro ⟨here, later⟩
        rw [← step_eq_iff.2 here]
        exact ih.2 later

end Walk

/-! ## What steers a document into a template -/

/-- The points that the walk over the template passes through with what the document says. -/
def passes (document template : Text) : List Walk :=
  (Walk.start template).trace (Values.ofDocument document)

/-- A normalized document is what is written at these points. -/
theorem normalize_eq_flatMap_passes (document template : Text) :
    normalize document template = Text.unlines ((passes document template).dropLast.flatMap
      fun point => (point.step (Values.ofDocument document)).1) := by
  rw [normalize, fill, Walk.run_eq_flatMap_trace]
  rfl

/-- No line of the template both sets a scalar and guards the aliases. -/
def GuardApart (template : Text) : Prop :=
  ∀ line ∈ template.lines, Line.guardsAliases line = true →
    ∀ scalar : Scalar, Line.starts scalar.opening line = false

/-- Where the template's own setting does not mention the guard, a document does so through its
value only. -/
theorem guardsAliases_valueIn? (document : Text) (scalar : Scalar) {own : Text}
    (unguarded : Line.guardsAliases own = false) :
    Line.guardsAliases ((Setting.valueIn? (Values.settingsOf document) scalar).getD own) =
      (scalar.value? document).any Line.guardsAliases := by
  rw [Values.valueIn?_settingsOf]
  cases scalar.value? document with
  | none => exact unguarded
  | some value => rfl

/-- A template that only sets a scalar, to nothing. -/
theorem lines_bare (scalar : Scalar) : (scalar.assignment []).lines = [scalar.assignment []] := by
  cases scalar <;> decide

theorem guardApart_bare (scalar : Scalar) : GuardApart (scalar.assignment []) := by
  intro line member guards
  rw [lines_bare, List.mem_singleton] at member
  rw [member, guardsAliases_assignment] at guards
  exact absurd guards (by decide)

section

variable {first second template : Text}

/-- Two documents that pass alike through the template that sets a scalar to nothing mention the
guard both or neither in the value of the scalar. -/
theorem mentions_of_passes_bare {scalar : Scalar}
    (alike : passes first (scalar.assignment []) = passes second (scalar.assignment [])) :
    (scalar.value? first).any Line.guardsAliases =
      (scalar.value? second).any Line.guardsAliases := by
  have whole := Walk.trace_eq_iff.1 alike (Walk.start (scalar.assignment []))
    (Walk.mem_trace_self _ _)
  have unguarded : Line.guardsAliases [] = false := by decide
  refine Decidable.byContradiction fun differ => whole ⟨rfl, scalar, [], [], lines_bare scalar, ?_⟩
  rwa [← guardsAliases_valueIn? first scalar unguarded,
    ← guardsAliases_valueIn? second scalar unguarded] at differ

/-- Documents that mention the guard in the values of the same scalars part nowhere in a template
that sets its scalars apart from the guard. -/
theorem not_parts_of_mentions (apart : GuardApart template)
    (mentions : ∀ scalar : Scalar, (scalar.value? first).any Line.guardsAliases =
      (scalar.value? second).any Line.guardsAliases) :
    ∀ point ∈ passes first template,
      ¬ Walk.Parts (Values.settingsOf first) (Values.settingsOf second) point := by
  rintro point passed ⟨-, scalar, own, rest, here, differ⟩
  have ahead : scalar.assignment own ∈ template.lines :=
    Walk.rest_subset_of_mem_trace passed (by rw [here]; exact List.mem_cons_self ..)
  have unguarded : Line.guardsAliases own = false := by
    rw [← guardsAliases_assignment scalar, ← Bool.not_eq_true]
    intro guards
    have silent := apart _ ahead guards scalar
    rw [Scalar.starts_assignment] at silent
    simp at silent
  rw [guardsAliases_valueIn? _ _ unguarded, guardsAliases_valueIn? _ _ unguarded] at differ
  exact differ (mentions scalar)

end

/-- **How far a template steers alone.**  Two documents pass through the same points of a
template exactly if they part at none of them; and they pass through the same points of
every template whose scalars are set apart from the guard exactly if they mention the guard
in the values of the same scalars. -/
theorem passes_eq_iff (first second : Text) :
    (∀ template, passes first template = passes second template ↔
      ∀ point ∈ passes first template,
        ¬ Walk.Parts (Values.settingsOf first) (Values.settingsOf second) point) ∧
    ((∀ template, GuardApart template → passes first template = passes second template) ↔
      ∀ scalar : Scalar, (scalar.value? first).any Line.guardsAliases =
        (scalar.value? second).any Line.guardsAliases) := by
  refine ⟨fun template => Walk.trace_eq_iff, fun alike scalar => ?_,
    fun mentions template apart => ?_⟩
  · exact mentions_of_passes_bare (alike _ (guardApart_bare scalar))
  · exact Walk.trace_eq_iff.2 (not_parts_of_mentions apart mentions)

namespace Steering

/-! ## A value that steers -/

/-- A template that sets one scalar and has one more line. -/
def page : Text := "GIT_USERNAME=\nkept"

def harmless : Text := "GIT_USERNAME=me"

/-- A document whose value mentions the guard of the aliases. -/
def guarding : Text := "GIT_USERNAME=" ++ Table.aliases.unsetTest

theorem lines_page : page.lines = ["GIT_USERNAME=".toList, "kept".toList] := by decide

theorem normalize_harmless : normalize harmless page = "GIT_USERNAME=me\nkept".toList := by
  have plain : ∀ l ∈ page.lines, Plain (substitute (Values.settingsOf harmless) l) := by decide
  have written := Walk.run_copying_append (Values.ofDocument harmless) plain []
  rw [List.append_nil, Walk.run_nil, List.append_nil] at written
  rw [normalize, fill, Walk.start, written]
  decide

/-- Behind the value that mentions the guard the template is skipped to its end. -/
theorem normalize_guarding : normalize guarding page = guarding := by
  have guards : Line.guardsAliases
      (substitute (Values.settingsOf guarding) "GIT_USERNAME=".toList) = true := by
    decide
  have unnamed : (Values.ofDocument guarding).aliases = [] := by
    rw [Values.ofDocument, Alias.ofDocument, Table.entries_eq_nil (by decide)]
    rfl
  have skipped : ["kept".toList].dropWhile (fun l => !Line.isDelimiter l) = [] := by decide
  rw [normalize, fill, Walk.start, lines_page, Walk.run_guard (Values.ofDocument guarding) guards,
    unnamed, skipped, Walk.run_nil]
  decide

/-- A value can steer the walk: the last line of the template is kept with one document and is
lost with another. -/
theorem not_steered :
    ¬ (∀ template first second, passes first template = passes second template) ∧
      normalize harmless page = "GIT_USERNAME=me\nkept".toList ∧
      normalize guarding page = guarding := by
  refine ⟨fun alike => ?_, normalize_harmless, normalize_guarding⟩
  have whole := Walk.trace_eq_iff.1 (alike page harmless guarding) (Walk.start page)
    (Walk.mem_trace_self _ _)
  exact whole ⟨rfl, .gitUsername, [], ["kept".toList], lines_page, by decide⟩

end Steering

end Layout

end ConfigUpkeep
