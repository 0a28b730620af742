/-
# ConfigUpkeep.Proofs.BundledTemplate -- the template that comes with the tool, filled

The walk over the bundled template in closed form: `run_template` says which lines are
written for any values whose settings do not mention the guard of the aliases.  The
template's lines are the same for all of them, and between them stand the substituted
settings, the aliases, and the entries of each category (`filled`).

Nearly every line of the template is a *remark*: empty, or a comment that opens no
optional section and holds no double bracket.  A remark says nothing to any reader: it
is plain, it sets no scalar and it assigns to no table.  Lines are checked to be remarks
by their characters (`spelled`), and nothing else about their words is used.
-/
import ConfigUpkeep.Template
import ConfigUpkeep.Proofs.Reading
import ConfigUpkeep.Proofs.Walk

namespace ConfigUpkeep

set_option autoImplicit false

/-! ## Remarks -/

namespace Line

/-- An empty line, or a comment that opens no optional section and holds no double bracket. -/
def isRemark (line : Text) : Bool :=
  (line.isEmpty || starts ['#'] line) && !starts ['#', ' ', 'O', 'p', 't'] line &&
    !line.mentions ['[', '['] && line.all fun c => !Text.endsLine c

/-- A comment that could be an example: behind its sign stands the first letter of an example
label or of a table. -/
def isExampleLike (line : Text) : Bool :=
  ['A', 'i', 'W', 'R'].any fun c => starts ['#', ' ', c] line

/-- A remark that is no example. -/
def isProse (line : Text) : Bool := isRemark line && !isExampleLike line

theorem starts_of_starts {short long line : Text} (shorter : short <+: long)
    (begins : starts long line = true) : starts short line = true := by
  rw [starts_iff] at begins ⊢
  exact shorter.trans begins

theorem flat_of_isRemark {line : Text} (remark : isRemark line = true) : line.Flat := by
  simp only [isRemark, Bool.and_eq_true, List.all_eq_true, Bool.not_eq_true'] at remark
  exact remark.2

/-- A remark is empty or starts with a comment sign. -/
theorem eq_nil_or_of_isRemark {line : Text} (remark : isRemark line = true) :
    line = [] ∨ ∃ rest, line = '#' :: rest := by
  simp only [isRemark, Bool.and_eq_true, Bool.or_eq_true, List.isEmpty_iff, starts_iff] at remark
  rcases remark.1.1.1 with empty | ⟨rest, rfl⟩
  · exact Or.inl empty
  · exact Or.inr ⟨rest, rfl⟩

theorem mute_of_isRemark {line : Text} (remark : isRemark line = true) : Mute line := by
  have flat := flat_of_isRemark remark
  rcases eq_nil_or_of_isRemark remark with rfl | ⟨rest, rfl⟩
  · exact mute_nil
  · exact mute_of_first flat (by decide)

/-- A remark is plain: the walk copies it. -/
theorem plain_of_isRemark {line : Text} (remark : isRemark line = true) : Layout.Plain line := by
  simp only [isRemark, Bool.and_eq_true, Bool.not_eq_true'] at remark
  obtain ⟨⟨⟨-, unopened⟩, unguarded⟩, -⟩ := remark
  constructor
  · cases guards : guardsAliases line with
    | false => rfl
    | true =>
        rw [guardsAliases, Text.mentions_iff] at guards
        have inside : ['[', '['] <:+: line := List.IsInfix.trans ⟨[], _, rfl⟩ guards
        rw [← Text.mentions_iff, unguarded] at inside
        cases inside
  · rw [sectionOpened, List.find?_eq_none]
    intro category _ opens
    have shorter : ['#', ' ', 'O', 'p', 't'] <+: sectionHeader category := by
      cases category <;> exact ⟨_, rfl⟩
    rw [starts_of_starts shorter opens] at unopened
    cases unopened

/-- Examples are example-like. -/
theorem isExampleLike_of_isExample {category : Category} {line : Text}
    (shown : Layout.isExample category line = true) : isExampleLike line = true := by
  rw [isExampleLike, List.any_eq_true]
  rw [Layout.isExample, Bool.or_eq_true] at shown
  rcases shown with label | assigned
  · obtain ⟨label, listed, begins⟩ := List.any_eq_true.1 label
    have shorter : ∃ c ∈ ['A', 'i', 'W', 'R'], ['#', ' ', c] <+: label := by
      cases category with
      | ide => cases listed
      | ci =>
          simp only [exampleLabels, List.mem_cons, List.not_mem_nil, or_false] at listed
          rcases listed with rfl | rfl | rfl
          · exact ⟨'A', by simp, _, rfl⟩
          · exact ⟨'i', by simp, _, rfl⟩
          · exact ⟨'W', by simp, _, rfl⟩
      | modules =>
          simp only [exampleLabels, List.mem_cons, List.not_mem_nil, or_false] at listed
          rcases listed with rfl | rfl | rfl
          · exact ⟨'A', by simp, _, rfl⟩
          · exact ⟨'i', by simp, _, rfl⟩
          · exact ⟨'W', by simp, _, rfl⟩
    obtain ⟨c, listed, shorter⟩ := shorter
    exact ⟨c, listed, starts_of_starts shorter begins⟩
  · refine ⟨'R', by simp, starts_of_starts ?_ assigned⟩
    cases category <;> exact ⟨_, rfl⟩

theorem isExample_of_isProse {line : Text} (prose : isProse line = true) (category : Category) :
    Layout.isExample category line = false := by
  rw [isProse, Bool.and_eq_true, Bool.not_eq_true'] at prose
  cases shown : Layout.isExample category line with
  | false => rfl
  | true =>
      rw [isExampleLike_of_isExample shown] at prose
      cases prose.2

theorem isRemark_of_isProse {line : Text} (prose : isProse line = true) :
    isRemark line = true := by
  rw [isProse, Bool.and_eq_true] at prose
  exact prose.1

/-- What is checked of the characters of a literal is true of the literal. -/
theorem spelled {α : Type} (f : Text → α) (cs : List Char) : f (String.ofList cs).toList = f cs := by
  rw [String.toList_ofList]

end Line

/-! ## The lines of the template -/

namespace Template

open Line

/-- What the template itself sets a scalar to. -/
def preset : Scalar → Text
  | .gitUsername => "\"$\x7bUSER\x7d\""
  | .branchPrefix => "\"$\x7bUSER\x7d\""
  | .baseDevPath => "\"$HOME/dev\""
  | .configVersion => "1"

theorem isProse_nil : isProse [] = true := rfl

theorem isProse_rule : isProse rule = true := by
  unfold rule
  exact (spelled isProse _).trans (by decide)

theorem isRemark_nil : isRemark [] = true := rfl

theorem isRemark_rule : isRemark rule = true := isRemark_of_isProse isProse_rule

theorem isDelimiter_rule : isDelimiter rule = true := by
  unfold rule
  exact (spelled isDelimiter _).trans (by decide)

/-! ### The lines before the guard -/

/-- The lines before the guard of the aliases: all settings are among them. -/
def beforeGuard : List Text := opening ++ required ++ shortcuts.take 4

/-- The example aliases. -/
def exampleAliases : List Text := shortcuts.drop 5

theorem shortcuts_eq :
    shortcuts = shortcuts.take 4 ++ Table.aliases.guardedDeclaration :: exampleAliases := by
  have guard : "[[ -z $\x7b(t)REPO_MAPPINGS\x7d ]] && declare -gA REPO_MAPPINGS".toList =
      Table.aliases.guardedDeclaration := by
    decide
  rw [← guard]
  rfl

theorem isRemark_exampleAliases : ∀ l ∈ exampleAliases, isRemark l = true := by
  repeat' refine List.forall_mem_cons.2 ⟨?_, ?_⟩
  all_goals
    first
    | exact List.forall_mem_nil _
    | with_reducible exact isRemark_nil
    | with_reducible exact (spelled isRemark _).trans (by decide)

theorem isDelimiter_exampleAliases : ∀ l ∈ exampleAliases, isDelimiter l = false := by
  repeat' refine List.forall_mem_cons.2 ⟨?_, ?_⟩
  all_goals
    first
    | exact List.forall_mem_nil _
    | with_reducible exact (spelled isDelimiter _).trans (by decide)
    | rfl

/-- Every line before the guard is a remark or sets a scalar. -/
theorem isRemark_or_preset :
    ∀ l ∈ beforeGuard, isRemark l = true ∨ ∃ scalar : Scalar, l = scalar.assignment (preset scalar) := by
  repeat' refine List.forall_mem_cons.2 ⟨?_, ?_⟩
  all_goals
    first
    | exact List.forall_mem_nil _
    | with_reducible exact Or.inl isRemark_nil
    | with_reducible exact Or.inl isRemark_rule
    | with_reducible exact Or.inl ((spelled isRemark _).trans (by decide))
    | skip
  · exact Or.inr ⟨.configVersion, by decide⟩
  · exact Or.inr ⟨.gitUsername, by decide⟩
  · exact Or.inr ⟨.branchPrefix, by decide⟩
  · exact Or.inr ⟨.baseDevPath, by decide⟩

theorem guardsAliases_preset (scalar : Scalar) : guardsAliases (preset scalar) = false := by
  cases scalar <;> decide

theorem flat_preset (scalar : Scalar) : (preset scalar).Flat := by
  cases scalar <;> decide

/-! ### Sections -/

/-- The lines of the template's section of a category. -/
def sectionOf : Category → List Text
  | .ide => editors
  | .ci => builds
  | .modules => modules

/-- The line behind the first rule of a section. -/
def header : Category → Text
  | .ide => "# Optional: IDE configuration (uncomment to enable 'ide' command)"
  | .ci => "# Optional: CI commands (uncomment to enable ci/test/lint shortcuts)"
  | .modules => "# Optional: Modular builds (uncomment to enable ci_modules/lint_modules)"

/-- The lines between a header and the first example. -/
def introduction (category : Category) : List Text := ((sectionOf category).drop 2).take 8

/-- How many lines the examples have that are dropped. -/
def exampleCount : Category → Nat
  | .ide => 4
  | .ci => 2
  | .modules => 2

/-- The examples that are dropped. -/
def examples (category : Category) : List Text :=
  ((sectionOf category).drop 10).take (exampleCount category)

/-- The lines of a section behind the examples that are dropped. -/
def remainder (category : Category) : List Text :=
  ((sectionOf category).drop 10).drop (exampleCount category)

theorem sectionOf_eq (category : Category) :
    sectionOf category =
      rule :: header category ::
        (introduction category ++ (examples category ++ remainder category)) := by
  cases category <;> rfl

theorem sectionOpened_header (category : Category) :
    sectionOpened (header category) = some category := by
  cases category <;> decide

theorem guardsAliases_header (category : Category) : guardsAliases (header category) = false := by
  cases category <;> decide

theorem mute_header (category : Category) : Mute (header category) := by
  cases category <;>
    exact (spelled Mute _).mpr (mute_of_first (by decide) (by decide))

theorem isProse_introduction (category : Category) :
    ∀ l ∈ introduction category, isProse l = true := by
  cases category
  all_goals
    repeat' refine List.forall_mem_cons.2 ⟨?_, ?_⟩
    all_goals
      first
      | exact List.forall_mem_nil _
      | with_reducible exact isProse_nil
      | with_reducible exact isProse_rule
      | with_reducible exact (spelled isProse _).trans (by decide)

theorem isRemark_remainder (category : Category) :
    ∀ l ∈ remainder category, isRemark l = true := by
  cases category
  all_goals
    repeat' refine List.forall_mem_cons.2 ⟨?_, ?_⟩
    all_goals
      first
      | exact List.forall_mem_nil _
      | with_reducible exact isRemark_nil
      | with_reducible exact (spelled isRemark _).trans (by decide)

theorem isRemark_examples (category : Category) :
    ∀ l ∈ examples category, isRemark l = true := by
  cases category
  all_goals
    repeat' refine List.forall_mem_cons.2 ⟨?_, ?_⟩
    all_goals
      first
      | exact List.forall_mem_nil _
      | with_reducible exact (spelled isRemark _).trans (by decide)

theorem isExample_examples (category : Category) :
    ∀ l ∈ examples category, Layout.isExample category l = true := by
  cases category
  all_goals
    repeat' refine List.forall_mem_cons.2 ⟨?_, ?_⟩
    all_goals
      first
      | exact List.forall_mem_nil _
      | with_reducible exact (spelled (Layout.isExample _) _).trans (by decide)

/-! ### The lines at the end -/

theorem plain_computed : ∀ l ∈ computed, Layout.Plain l := by
  repeat' refine List.forall_mem_cons.2 ⟨?_, ?_⟩
  all_goals
    first
    | exact List.forall_mem_nil _
    | with_reducible exact plain_of_isRemark isRemark_nil
    | with_reducible exact plain_of_isRemark isRemark_rule
    | with_reducible exact plain_of_isRemark ((spelled isRemark _).trans (by decide))
    | exact ⟨by decide, by decide⟩

theorem mute_computed : ∀ l ∈ computed, Mute l := by
  repeat' refine List.forall_mem_cons.2 ⟨?_, ?_⟩
  all_goals
    first
    | exact List.forall_mem_nil _
    | with_reducible exact mute_of_isRemark isRemark_nil
    | with_reducible exact mute_of_isRemark isRemark_rule
    | with_reducible exact mute_of_isRemark ((spelled isRemark _).trans (by decide))
    | skip
  · refine (spelled Mute _).mpr ⟨by decide, fun scalar => ?_, fun table => ?_⟩
    · cases scalar <;> decide
    · rcases table with _ | _ | _ | _ <;> exact starts_eq_false (by decide) _ _
  · exact (spelled Mute _).mpr (mute_of_first (by decide) (by decide))
  · exact (spelled Mute _).mpr (mute_of_first (by decide) (by decide))

/-! ## The template filled -/

theorem lines_eq :
    lines = beforeGuard ++ Table.aliases.guardedDeclaration ::
      (exampleAliases ++ (sectionOf .ide ++ (sectionOf .ci ++ (sectionOf .modules ++ computed)))) := by
  rw [lines, shortcuts_eq]
  simp only [beforeGuard, sectionOf, List.append_assoc, List.cons_append]

theorem flat_of_mem_sectionOf {category : Category} {l : Text} (member : l ∈ sectionOf category) :
    l.Flat := by
  rw [sectionOf_eq] at member
  simp only [List.mem_cons, List.mem_append] at member
  rcases member with rfl | rfl | inside | inside | inside
  · exact flat_of_isRemark isRemark_rule
  · exact (mute_header category).flat
  · exact flat_of_isRemark (isRemark_of_isProse (isProse_introduction category l inside))
  · exact flat_of_isRemark (isRemark_examples category l inside)
  · exact flat_of_isRemark (isRemark_remainder category l inside)

theorem flat_lines : ∀ l ∈ lines, l.Flat := by
  intro l member
  rw [lines_eq] at member
  simp only [List.mem_append, List.mem_cons] at member
  rcases member with inside | rfl | inside | inside | inside | inside | inside
  · rcases isRemark_or_preset l inside with remark | ⟨scalar, rfl⟩
    · exact flat_of_isRemark remark
    · exact Text.flat_append.2 ⟨scalar.flat_opening, flat_preset scalar⟩
  · exact (mute_guardedDeclaration .aliases).flat
  · exact flat_of_isRemark (isRemark_exampleAliases l inside)
  · exact flat_of_mem_sectionOf inside
  · exact flat_of_mem_sectionOf inside
  · exact flat_of_mem_sectionOf inside
  · exact (mute_computed l inside).flat

theorem lines_text : Text.lines text = lines :=
  Text.lines_unlines (fun l member => Text.not_mem_of_flat (flat_lines l member)) (by simp [lines_eq])

/-- A section with entries in place of its first examples. -/
def sectionWith (category : Category) (entries : List Entry) : List Text :=
  rule :: header category :: (introduction category ++ Layout.entryBlock category entries) ++
    remainder category

/-- The lines of the filled template. -/
def filled (values : Values) : List Text :=
  beforeGuard.map (Layout.substitute values.settings) ++
    (Table.aliases.guardedDeclaration :: Layout.aliasBlock values.aliases ++
      (sectionWith .ide (values.entries .ide) ++ (sectionWith .ci (values.entries .ci) ++
        (sectionWith .modules (values.entries .modules) ++ computed))))

theorem substitute_of_mute (settings : List Setting) {line : Text} (mute : Mute line) :
    Layout.substitute settings line = line :=
  Layout.substitute_of_silent settings mute.silent

theorem plain_beforeGuard : ∀ l ∈ beforeGuard, Layout.Plain l := by
  intro l member
  rcases isRemark_or_preset l member with remark | ⟨scalar, rfl⟩
  · exact plain_of_isRemark remark
  · refine ⟨?_, Layout.sectionOpened_assignment _ _⟩
    rw [Layout.guardsAliases_assignment, guardsAliases_preset]

theorem examples_ne_nil (category : Category) : examples category ≠ [] := by
  cases category <;> exact List.cons_ne_nil _ _

/-- Behind the examples of a section stands an empty line, and behind that no rule unless
the section is over. -/
theorem remainder_eq_cons (category : Category) :
    remainder category = [[]] ∨
      ∃ label rest, remainder category = [] :: label :: rest ∧ isRule label = false := by
  cases category with
  | ide => exact Or.inl rfl
  | ci => exact Or.inr ⟨_, _, rfl, by decide⟩
  | modules => exact Or.inr ⟨_, _, rfl, by decide⟩

theorem head?_remainder_append (category : Category) (rest : List Text) :
    (remainder category ++ rest).head? = some [] := by
  rcases remainder_eq_cons category with alone | ⟨label, others, more, -⟩
  · rw [alone]
    rfl
  · rw [more]
    rfl

/-- In the sections of the template no blank line is dropped behind the examples. -/
theorem dropGap_remainder (category : Category) (rest : List Text) :
    Layout.dropGap category (remainder category ++ rest) = remainder category ++ rest := by
  cases category with
  | ide => cases rest <;> rfl
  | ci =>
      rcases remainder_eq_cons .ci with alone | ⟨label, others, more, unruled⟩
      · cases alone
      · simp [more, Layout.dropGap, unruled]
  | modules =>
      rcases remainder_eq_cons .modules with alone | ⟨label, others, more, unruled⟩
      · cases alone
      · simp [more, Layout.dropGap, unruled]

section

open Layout (Walk)

variable (values : Values)

/-- Plain lines that say nothing are copied as they are. -/
theorem run_mute {ls : List Text} (plain : ∀ l ∈ ls, Layout.Plain l) (mute : ∀ l ∈ ls, Mute l)
    (rest : List Text) :
    Walk.run values ⟨.copying, ls ++ rest⟩ = ls ++ Walk.run values ⟨.copying, rest⟩ := by
  have kept : ∀ l ∈ ls, Layout.substitute values.settings l = l :=
    fun l member => substitute_of_mute _ (mute l member)
  have same : ls.map (Layout.substitute values.settings) = ls :=
    (List.map_congr_left kept).trans (List.map_id' ls)
  have plain_ : ∀ l ∈ ls, Layout.Plain (Layout.substitute values.settings l) := by
    intro l member
    rw [kept l member]
    exact plain l member
  rw [Walk.run_copying_append values plain_, same]

/-- A section of the template is written with the entries in place of its first examples. -/
theorem run_sectionOf (category : Category) (rest : List Text) :
    Walk.run values ⟨.copying, sectionOf category ++ rest⟩ =
      sectionWith category (values.entries category) ++ Walk.run values ⟨.copying, rest⟩ := by
  have same := substitute_of_mute values.settings (mute_header category)
  have unguarded : guardsAliases (Layout.substitute values.settings (header category)) = false := by
    rw [same, guardsAliases_header]
  have opens : sectionOpened (Layout.substitute values.settings (header category)) =
      some category := by
    rw [same, sectionOpened_header]
  have stop : ∀ l ∈ (remainder category ++ rest).head?, Layout.isExample category l = false := by
    rw [head?_remainder_append]
    rintro l ⟨⟩
    exact isExample_of_isProse isProse_nil category
  have title : ∀ l ∈ [rule], isRemark l = true := by simp [isRemark_rule]
  have top := run_mute values (fun l member => plain_of_isRemark (title l member))
    (fun l member => mute_of_isRemark (title l member))
  have body := Walk.run_section values unguarded opens
    (fun l member => isExample_of_isProse (isProse_introduction category l member) category)
    (isExample_examples category) (examples_ne_nil category) stop
  have bottom := run_mute values
    (fun l member => plain_of_isRemark (isRemark_remainder category l member))
    (fun l member => mute_of_isRemark (isRemark_remainder category l member)) rest
  calc Walk.run values ⟨.copying, sectionOf category ++ rest⟩
      = Walk.run values ⟨.copying, [rule] ++ header category ::
          (introduction category ++ (examples category ++ (remainder category ++ rest)))⟩ := by
        rw [sectionOf_eq]
        simp
    _ = _ := by
        rw [top, body, dropGap_remainder, bottom, same, sectionWith]
        simp

/-- **The bundled template filled**: the lines written for settings that do not mention the
guard of the aliases. -/
theorem run_template (unguarded : Layout.Unguarded values.settings) :
    (Walk.start text).run values = filled values := by
  have plain : ∀ l ∈ beforeGuard, Layout.Plain (Layout.substitute values.settings l) :=
    fun l member => Layout.plain_substitute unguarded (plain_beforeGuard l member)
  have same := substitute_of_mute values.settings (mute_guardedDeclaration .aliases)
  have guards : guardsAliases (Layout.substitute values.settings Table.aliases.guardedDeclaration) =
      true := by
    rw [same, guardsAliases, Text.mentions_iff]
    exact ⟨[], _, rfl⟩
  have skipped (rest : List Text) :
      (exampleAliases ++ (sectionOf .ide ++ rest)).dropWhile (fun l => !isDelimiter l) =
        sectionOf .ide ++ rest := by
    refine List.dropWhile_append_of_head? ?_ ?_
    · simpa using isDelimiter_exampleAliases
    · rw [sectionOf_eq]
      rintro l ⟨⟩
      simp [isDelimiter_rule]
  have bottom := run_mute values plain_computed mute_computed []
  rw [List.append_nil, Walk.run_nil, List.append_nil] at bottom
  rw [Walk.start, lines_text, lines_eq, Walk.run_copying_append values plain,
    Walk.run_guard values guards, skipped, same, run_sectionOf, run_sectionOf, run_sectionOf, bottom]
  rfl

end

end Template

end ConfigUpkeep
