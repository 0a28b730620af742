/-
# ConfigUpkeep.Proofs.Diagnosis -- what a check finds in a normalized document

The bundled template declares the alias table and no other, and it has a rule directly behind
the aliases that are filled in.  So a normalized document is not clean if there is anything to
fill in: a check of it misses a declaration for each keyed table with entries, and finds one
banner crowded if there are aliases (`Layout.diagnosis`).

Three facts about the filled template make up the proof:

* no line of it declares a keyed table, unless a text that was filled in does
  (`Template.declares_of_mem_filled`);
* a keyed table is used in its own section and nowhere else, and only if it has entries; the
  sections stand in the order of the categories (`Template.lacks_filled`);
* the only banner directly behind an alias is the rule of the first section
  (`Template.crowdedBanners_filled`).
-/
import ConfigUpkeep.Proofs.Insertion
import ConfigUpkeep.Proofs.Normalization

namespace ConfigUpkeep

set_option autoImplicit false

/-! ## Lines that declare no table -/

namespace Line

/-- The line mentions the flag of a declaration. -/
def isFlagged (line : Text) : Bool := line.mentions ['-', 'g', 'A']

/-- A line declares no table if it does not mention some part of the declaration. -/
theorem declares_eq_false {table : Table} {line part : Text}
    (inside : table.declaration.mentions part = true) (missing : line.mentions part = false) :
    declares table line = false := by
  rw [Bool.eq_false_iff, ne_eq, Text.mentions_iff] at missing
  rw [Bool.eq_false_iff, ne_eq, declares, Text.mentions_iff]
  exact fun declared => missing (((Text.mentions_iff _ _).1 inside).trans declared)

theorem declares_of_not_isFlagged {line : Text} (plain : isFlagged line = false)
    (category : Category) : declares (.keyed category) line = false :=
  declares_eq_false (by cases category <;> decide) plain

/-- A setting declares a table only through its value. -/
theorem declares_setting (category : Category) (scalar : Scalar) (value : Text) :
    declares (.keyed category) (scalar.assignment value) = declares (.keyed category) value := by
  have free : 'd' ∉ scalar.opening := by cases scalar <;> decide
  obtain ⟨rest, begins⟩ : ∃ rest, (Table.keyed category).declaration = 'd' :: rest := ⟨_, rfl⟩
  rw [Bool.eq_iff_iff, declares, declares, Text.mentions_iff, Text.mentions_iff, begins,
    Scalar.assignment]
  exact List.cons_infix_append_iff free

/-- An entry declares a table only through its key or its value. -/
theorem declares_entry {category : Category} {table : Table} {entry : Entry}
    (key : declares (.keyed category) entry.key = false)
    (value : declares (.keyed category) entry.value = false) :
    declares (.keyed category) (entry.assignment table) = false := by
  have written : entry.assignment table =
      table.name ++ '[' :: (entry.key ++ ']' :: (['='] ++ '"' :: (entry.value ++ ['"']))) := by
    simp [Entry.assignment, Table.assignment, Table.opening]
  have noOpening : '[' ∉ (Table.keyed category).declaration := by cases category <;> decide
  have noClosing : ']' ∉ (Table.keyed category).declaration := by cases category <;> decide
  have noQuote : '"' ∉ (Table.keyed category).declaration := by cases category <;> decide
  have name : declares (.keyed category) table.name = false := by
    cases category <;> rcases table with _ | _ | _ | _ <;> decide
  have sign : declares (.keyed category) ['='] = false := by cases category <;> decide
  have nothing : declares (.keyed category) [] = false := by cases category <;> decide
  rw [Bool.eq_false_iff, ne_eq, declares, Text.mentions_iff] at key value name sign nothing ⊢
  rw [written, List.infix_append_cons_iff noOpening, List.infix_append_cons_iff noClosing,
    List.infix_append_cons_iff noQuote, List.infix_append_cons_iff noQuote]
  rintro (inName | inKey | inSign | inValue | behind)
  · exact name inName
  · exact key inKey
  · exact sign inSign
  · exact value inValue
  · exact nothing behind

end Line

namespace Values

/-- The texts among the values: those of the settings, and the keys and values of every table. -/
def texts (values : Values) : List Text :=
  values.settings.map Setting.value ++
    Table.all.flatMap fun table => (values.entriesIn table).flatMap fun entry =>
      [entry.key, entry.value]

variable {values : Values}

theorem mem_texts_of_setting {setting : Setting} (member : setting ∈ values.settings) :
    setting.value ∈ values.texts :=
  List.mem_append_left _ (List.mem_map_of_mem member)

theorem mem_texts_of_entry {table : Table} {entry : Entry} {t : Text}
    (member : entry ∈ values.entriesIn table) (part : t ∈ [entry.key, entry.value]) :
    t ∈ values.texts := by
  have listed : table ∈ Table.all := by rcases table with _ | _ | _ | _ <;> decide
  exact List.mem_append_right _
    (List.mem_flatMap.2 ⟨table, listed, List.mem_flatMap.2 ⟨entry, member, part⟩⟩)

/-- No text among the values mentions how tables are declared. -/
def Undeclaring (values : Values) : Prop := ∀ t ∈ values.texts, t.mentions "declare -gA" = false

instance (values : Values) : Decidable values.Undeclaring :=
  inferInstanceAs (Decidable (∀ t ∈ values.texts, t.mentions "declare -gA" = false))

theorem Undeclaring.declares (undeclaring : values.Undeclaring) {t : Text} (member : t ∈ values.texts)
    (category : Category) : Line.declares (.keyed category) t = false :=
  Line.declares_eq_false (by cases category <;> decide) (undeclaring t member)

theorem Undeclaring.declares_entry (undeclaring : values.Undeclaring) {table : Table} {entry : Entry}
    (member : entry ∈ values.entriesIn table) (category : Category) :
    Line.declares (.keyed category) (entry.assignment table) = false :=
  Line.declares_entry (undeclaring.declares (mem_texts_of_entry member (by simp)) category)
    (undeclaring.declares (mem_texts_of_entry member (by simp)) category)

end Values

namespace Template

open Line Layout

theorem isFlagged_rule : isFlagged rule = false := by
  unfold rule
  exact (spelled isFlagged _).trans (by decide)

theorem isFlagged_nil : isFlagged [] = false := rfl

/-- But for the declaration of the alias table the template mentions no declaration. -/
theorem isFlagged_of_mem {part : List Text}
    (member : part ∈ [beforeGuard, exampleAliases, editors, builds, modules, computed]) :
    ∀ l ∈ part, isFlagged l = false := by
  simp only [List.mem_cons, List.not_mem_nil, or_false] at member
  rcases member with rfl | rfl | rfl | rfl | rfl | rfl
  all_goals
    repeat' refine List.forall_mem_cons.2 ⟨?_, ?_⟩
    all_goals
      first
      | exact List.forall_mem_nil _
      | with_reducible exact isFlagged_nil
      | with_reducible exact isFlagged_rule
      | with_reducible exact (spelled isFlagged _).trans (by decide)

/-- The template declares no keyed table. -/
theorem declares_of_mem_lines (category : Category) :
    ∀ l ∈ lines, declares (.keyed category) l = false := by
  intro l member
  have parts : l = Table.aliases.guardedDeclaration ∨
      ∃ part ∈ [beforeGuard, exampleAliases, editors, builds, modules, computed], l ∈ part := by
    rw [lines_eq] at member
    simpa [sectionOf, or_left_comm] using member
  rcases parts with rfl | ⟨part, listed, inside⟩
  · cases category <;> decide
  · exact declares_of_not_isFlagged (isFlagged_of_mem listed l inside) category

variable {values : Values}

theorem declares_substitute (undeclaring : values.Undeclaring) (category : Category) {l : Text}
    (member : l ∈ lines) :
    declares (.keyed category) (substitute values.settings l) = false := by
  rw [substitute]
  split
  · rename_i setting found
    rw [Setting.assignment, declares_setting]
    exact undeclaring.declares (Values.mem_texts_of_setting (List.mem_of_find?_eq_some found)) category
  · exact declares_of_mem_lines category l member

/-- **No line of the filled template declares a keyed table**, if no text filled in does. -/
theorem declares_of_mem_filled (unguarded : Unguarded values.settings)
    (undeclaring : values.Undeclaring) (category : Category) :
    ∀ l ∈ filled values, declares (.keyed category) l = false := by
  have blank : declares (.keyed category) [] = false := by cases category <;> rfl
  intro l member
  rw [← run_template values unguarded] at member
  cases Walk.source_of_mem_run member with
  | copied listed =>
      rw [Walk.start, lines_text] at listed
      exact declares_of_mem_lines category l listed
  | setting listed =>
      rw [Walk.start, lines_text] at listed
      exact declares_substitute undeclaring category listed
  | aliases listed =>
      rcases mem_aliasBlock listed with rfl | ⟨a, defined, rfl⟩
      · exact blank
      · have listed : a.toEntry ∈ values.entriesIn .aliases := List.mem_map_of_mem defined
        exact undeclaring.declares_entry listed category
  | entries _ listed =>
      rcases mem_entryBlock listed with rfl | ⟨entry, made, rfl⟩
      · exact blank
      · exact undeclaring.declares_entry made category

/-! ## Where tables are used -/

/-- The lines up to the aliases, and the aliases. -/
def upper (values : Values) : List Text :=
  beforeGuard.map (substitute values.settings) ++
    Table.aliases.guardedDeclaration :: aliasBlock values.aliases

/-- The lines behind the aliases: the sections, and the settings that follow from the others. -/
def lower (values : Values) : List Text :=
  (Category.all.flatMap fun category => sectionWith category (values.entries category)) ++ computed

theorem filled_eq (values : Values) : filled values = upper values ++ lower values := by
  simp [filled, upper, lower, Category.all]

/-- Before the guard no line assigns to a table. -/
theorem unassigned_beforeGuard (settings : List Setting) (table : Table) :
    ∀ l ∈ beforeGuard.map (substitute settings), isAssignment table l = false := by
  intro l member
  rcases mute_or_setting settings l member with mute | ⟨scalar, rfl⟩
  · exact mute.unassigned table
  · exact scalar.unassigned_assignment _ table

/-- In a section a line assigns to the table of the section, if there are entries. -/
theorem of_isAssignment_sectionWith {table : Table} {category : Category} {entries : List Entry}
    {l : Text} (member : l ∈ sectionWith category entries) (assigns : isAssignment table l = true) :
    table = .keyed category ∧ entries ≠ [] := by
  rcases mute_of_mem_sectionWith member with mute | ⟨entry, listed, rfl⟩
  · rw [mute.unassigned table] at assigns
    cases assigns
  · rw [Entry.isAssignment_line, decide_eq_true_iff] at assigns
    exact ⟨assigns, List.ne_nil_of_mem listed⟩

/-- The table of a section is used in it exactly if there are entries. -/
theorem any_sectionWith (category : Category) (entries : List Entry) :
    (sectionWith category entries).any (isAssignment (.keyed category)) = !entries.isEmpty := by
  cases entries with
  | nil =>
      exact List.any_eq_false.2 fun l member assigns =>
        (of_isAssignment_sectionWith member assigns).2 rfl
  | cons entry entries =>
      refine List.any_eq_true.2 ⟨entry.assignment (.keyed category), ?_, ?_⟩
      · simp [sectionWith, entryBlock]
      · exact (Entry.isAssignment_line _ _ entry).trans (decide_eq_true rfl)

/-- Up to the sections no keyed table is used. -/
theorem unused_upper (values : Values) (category : Category) :
    ∀ l ∈ upper values, isAssignment (.keyed category) l = false := by
  intro l member
  rcases List.mem_append.1 member with inside | inside
  · exact unassigned_beforeGuard values.settings _ l inside
  · rcases List.mem_cons.1 inside with rfl | inside
    · exact (mute_guardedDeclaration .aliases).unassigned _
    · rcases mem_aliasBlock inside with rfl | ⟨a, -, rfl⟩
      · exact mute_nil.unassigned _
      · exact (Entry.isAssignment_line _ _ a.toEntry).trans (decide_eq_false (by simp))

/-- Behind the aliases only keyed tables with entries are assigned to. -/
theorem of_isAssignment_lower {table : Table} {l : Text} (member : l ∈ lower values)
    (assigns : isAssignment table l = true) :
    ∃ category, table = .keyed category ∧ values.entries category ≠ [] := by
  rcases List.mem_append.1 member with inside | inside
  · obtain ⟨category, -, there⟩ := List.mem_flatMap.1 inside
    exact ⟨category, of_isAssignment_sectionWith there assigns⟩
  · rw [(mute_computed l inside).unassigned table] at assigns
    cases assigns

/-- A keyed table is used exactly if it has entries. -/
theorem exists_use_filled (values : Values) (category : Category) :
    (∃ l ∈ filled values, isAssignment (.keyed category) l = true) ↔
      values.entries category ≠ [] := by
  rw [filled_eq]
  constructor
  · rintro ⟨l, member, assigns⟩
    rcases List.mem_append.1 member with inside | inside
    · rw [unused_upper values category l inside] at assigns
      cases assigns
    · obtain ⟨_, same, entries⟩ := of_isAssignment_lower inside assigns
      obtain rfl := Table.keyed.inj same
      exact entries
  · intro entries
    have used : (sectionWith category (values.entries category)).any
        (isAssignment (.keyed category)) = true := by
      rw [any_sectionWith]
      simpa using entries
    obtain ⟨l, inside, assigns⟩ := List.any_eq_true.1 used
    refine ⟨l, List.mem_append_right _ (List.mem_append_left _ ?_), assigns⟩
    exact List.mem_flatMap.2 ⟨category, category.mem_all, inside⟩

end Template

namespace Repair

/-- Tables that are used in blocks of their own are used in the order of the blocks. -/
theorem pairwise_blocks {uses : Uses} (block : Category → List Text)
    (own : ∀ a b, ∀ l ∈ block b, uses a l = true → a = b) (back : List Text)
    {categories : List Category} (nodup : categories.Nodup) {front : List Text}
    (unused : ∀ category ∈ categories, ∀ l ∈ front, uses category l = false) :
    (categories.filter fun category => (block category).any (uses category)).Pairwise fun a b =>
      (front ++ (categories.flatMap block ++ back)).findIdx (uses a) <
        (front ++ (categories.flatMap block ++ back)).findIdx (uses b) := by
  induction categories generalizing front with
  | nil => exact .nil
  | cons category others ih =>
      obtain ⟨apart, nodup⟩ := List.nodup_cons.1 nodup
      obtain ⟨-, unusedFront⟩ := List.forall_mem_cons.1 unused
      have unusedBlock : ∀ other ∈ others, ∀ l ∈ front ++ block category, uses other l = false := by
        intro other listed l member
        rcases List.mem_append.1 member with inside | inside
        · exact unusedFront other listed l inside
        · rw [Bool.eq_false_iff]
          intro used
          rw [own _ _ l inside used] at listed
          exact apart listed
      have split : front ++ ((category :: others).flatMap block ++ back) =
          (front ++ block category) ++ (others.flatMap block ++ back) := by
        simp
      have later := ih nodup unusedBlock
      rw [split, List.filter_cons]
      split
      · rename_i used
        refine List.pairwise_cons.2 ⟨fun other listed => ?_, later⟩
        obtain ⟨l, inside, here⟩ := List.any_eq_true.1 used
        exact List.findIdx_append_lt ⟨l, List.mem_append_right _ inside, here⟩
          (unusedBlock other (List.mem_filter.1 listed).1) _
      · exact later

end Repair

namespace Template

open Line Layout

variable {values : Values}

/-- **The tables that a filled template lacks**: those with entries, section by section. -/
theorem lacks_filled (unguarded : Unguarded values.settings) (undeclaring : values.Undeclaring) :
    Repair.Lacks (fun category => isAssignment (.keyed category)) (filled values)
      (Category.all.filter fun category => !(values.entries category).isEmpty) where
  mem_iff category := by
    rw [exists_use_filled,
      and_iff_left (declares_of_mem_filled unguarded undeclaring category), List.mem_filter]
    simp [category.mem_all]
  ordered := by
    have blocks := Repair.pairwise_blocks
      (fun category => sectionWith category (values.entries category))
      (fun a b l inside assigns => Table.keyed.inj (of_isAssignment_sectionWith inside assigns).1)
      computed Repair.nodup_all fun category _ => unused_upper values category
    simp only [any_sectionWith] at blocks
    rw [filled_eq]
    exact blocks

/-! ## Where banners are crowded -/

/-- The last of some aliases crowds the banner behind them, and no other one does. -/
theorem crowdedBanners_aliases {aliases : List Alias} (some_ : aliases ≠ []) {banner : Text}
    (bannered : isBanner banner = true) (rest : List Text) :
    Repair.crowdedBanners
        (aliases.map (fun a => a.toEntry.assignment .aliases) ++ banner :: rest) =
      1 + Repair.crowdedBanners (banner :: rest) := by
  have assigns (a : Alias) : isAssignment .aliases (a.toEntry.assignment .aliases) = true :=
    (Entry.isAssignment_line _ _ a.toEntry).trans (decide_eq_true rfl)
  have unbannered (a : Alias) : isBanner (a.toEntry.assignment .aliases) = false := rfl
  induction aliases with
  | nil => exact absurd rfl some_
  | cons a aliases ih =>
      rw [List.map_cons, List.cons_append, Repair.crowdedBanners_cons]
      cases aliases with
      | nil => simp [Repair.gap, Repair.isCrowded, assigns, bannered]
      | cons b aliases =>
          rw [ih (by simp)]
          simp [Repair.gap, Repair.isCrowded, unbannered]

theorem isRule_rule : isRule rule = true := by
  unfold rule
  exact (spelled isRule _).trans (by decide)

theorem lower_eq_cons (values : Values) : ∃ rest, lower values = rule :: rest := ⟨_, rfl⟩

/-- **One banner of a filled template is crowded** if there are aliases, and none if not. -/
theorem crowdedBanners_filled (values : Values) :
    Repair.crowdedBanners (filled values) = if values.aliases.isEmpty then 0 else 1 := by
  have none_ : Repair.crowdedBanners (lower values) = 0 := by
    have unaliased : ∀ l ∈ lower values, isAssignment .aliases l = false := by
      intro l member
      rw [Bool.eq_false_iff]
      intro assigns
      obtain ⟨_, same, -⟩ := of_isAssignment_lower member assigns
      cases same
    have whole := Repair.crowdedBanners_append unaliased []
    rwa [List.append_nil] at whole
  have top : ∀ l ∈ [Table.aliases.guardedDeclaration, []], isAssignment .aliases l = false := by
    simpa using ⟨(mute_guardedDeclaration .aliases).unassigned _, mute_nil.unassigned _⟩
  rw [filled_eq, upper, List.append_assoc,
    Repair.crowdedBanners_append (unassigned_beforeGuard values.settings .aliases), aliasBlock]
  split
  · rw [Repair.crowdedBanners_append (fun l member => top l (by simpa using Or.inl member)), none_]
  · rename_i some_
    obtain ⟨rest, below⟩ := lower_eq_cons values
    have apart (ms : List Text) : Table.aliases.guardedDeclaration :: ([] :: ms) =
        [Table.aliases.guardedDeclaration, []] ++ ms := rfl
    rw [apart, List.append_assoc, Repair.crowdedBanners_append top, below,
      crowdedBanners_aliases (by simpa using some_) (isBanner_of_isRule isRule_rule), ← below, none_]

end Template

namespace Layout

variable {document : Text}

theorem lines_normalize (legible : (Values.ofDocument document).Legible) :
    (normalize document Template.text).lines = Template.filled (Values.ofDocument document) := by
  have written := Template.written_of_mem_filled legible
  rw [normalize, fill_text legible.unguarded]
  exact Text.lines_unlines (fun l member => Text.not_mem_of_flat ((written l member).flat legible))
    (filled_ne_nil _)

theorem issues_check_normalize (legible : (Values.ofDocument document).Legible)
    (undeclaring : (Values.ofDocument document).Undeclaring) :
    (Repair.check (normalize document Template.text)).issues =
      (Category.all.filter fun category =>
          !(Values.entriesOf document category).isEmpty).map .undeclared ++
        if (Alias.ofDocument document).isEmpty then [] else [.crowdedBanner] := by
  have lacks := Template.lacks_filled legible.unguarded undeclaring
  rw [← lines_normalize legible] at lacks
  rw [Repair.issues_check lacks, lines_normalize legible, Template.crowdedBanners_filled,
    apply_ite (List.replicate · Issue.crowdedBanner)]
  rfl

/-- **What a check finds in a normalized document**: a missing declaration for each keyed table
with entries, in the order of the sections, and a crowded banner if there are aliases.  So the
document is clean exactly if there is neither an alias nor an entry. -/
theorem diagnosis (document : Text)
    (aliases : ∀ a ∈ Alias.ofDocument document, a.toEntry.Flat)
    (entries : ∀ category, ∀ entry ∈ Values.entriesOf document category, entry.Flat)
    (unguarded : Unguarded (Values.settingsOf document))
    (undeclaring : (Values.ofDocument document).Undeclaring) :
    let found := Repair.check (normalize document Template.text)
    let tables := Category.all.filter fun category => !(Values.entriesOf document category).isEmpty
    found.issues = tables.map .undeclared ++
        (if (Alias.ofDocument document).isEmpty then [] else [.crowdedBanner]) ∧
      found.issues.map Issue.message =
        (tables.map fun category => "Missing " ++ (Table.keyed category).name ++ " declaration") ++
          (if (Alias.ofDocument document).isEmpty then []
            else ["Missing blank line after REPO_MAPPINGS block".toList]) ∧
      (found.hadIssues = false ↔
        Alias.ofDocument document = [] ∧ ∀ category, Values.entriesOf document category = []) := by
  intro found tables
  have issues : found.issues = tables.map .undeclared ++
      if (Alias.ofDocument document).isEmpty then [] else [.crowdedBanner] :=
    issues_check_normalize (Values.legible_ofDocument aliases entries unguarded) undeclaring
  refine ⟨issues, ?_, ?_⟩
  · rw [issues, List.map_append, List.map_map]
    congr 1
    split <;> rfl
  · have noTable : tables = [] ↔ ∀ category, Values.entriesOf document category = [] := by
      rw [List.filter_eq_nil_iff]
      simp [Category.mem_all]
    rw [Repair.hadIssues, Bool.not_eq_false', List.isEmpty_iff, issues, List.append_eq_nil_iff,
      List.map_eq_nil_iff, noTable, and_comm]
    refine and_congr_left fun _ => ?_
    cases Alias.ofDocument document <;> simp

/-- A document with an alias and a build command, normalized: the table of the commands lacks a
declaration, and the alias crowds the rule below it. -/
theorem diagnosis_canonical :
    let document : Text := "REPO_MAPPINGS[a]=\"App\"\nREPO_CONFIGS[App]=\"make||\""
    (Repair.check (normalize document Template.text)).issues = [.undeclared .ci, .crowdedBanner] ∧
      (Repair.check (normalize document Template.text)).issues.map Issue.message =
        ["Missing REPO_CONFIGS declaration".toList,
          "Missing blank line after REPO_MAPPINGS block".toList] := by
  intro document
  have entries : ∀ category, ∀ entry ∈ Values.entriesOf document category, entry.Flat := by
    intro category
    cases category <;> decide +kernel
  obtain ⟨issues, messages, -⟩ :=
    diagnosis document (by decide +kernel) entries (by decide +kernel) (by decide +kernel)
  refine ⟨issues.trans ?_, messages.trans ?_⟩
  · decide +kernel
  · decide +kernel

end Layout

end ConfigUpkeep
