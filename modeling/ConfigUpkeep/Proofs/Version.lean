/-
# ConfigUpkeep.Proofs.Version -- a migration settles a document without a version

A document is current if a segment sets the version that a migration stamps, and a
migration stamps a document only if no segment sets a version.  Both ask how segments
start, and neither answer changes between the question and the stamp:

* renaming keys moves no start of a segment (`Migration.opens_renamed_iff`), although keys
  and shorthands may hold line ends.  What a key takes away stands in the alias table too,
  and what a shorthand brings stood there before;
* declaring tables adds no segment that sets anything (`Padded.opens_iff`).

So a migration makes exactly those documents current that set no version
(`Migration.isCurrent_apply`), and the next run leaves such a document alone
(`Job.untouched_of_follows`).  A version that stands in the document already is kept,
whatever it is: `Migration.not_current` is a document that no migration makes current.
-/
import ConfigUpkeep.Proofs.Agreement
import ConfigUpkeep.Proofs.History
import ConfigUpkeep.Proofs.Segments

namespace ConfigUpkeep

set_option autoImplicit false

/-! ## Renamed lines -/

namespace Alias

variable {document : Text} {a : Alias}

/-- An alias stands in its document as it is written. -/
theorem infix_of_mem_ofDocument (defined : a ∈ ofDocument document) :
    a.toEntry.assignment .aliases <:+: document := by
  obtain ⟨entry, found, rfl⟩ := List.mem_map.1 defined
  exact Entry.infix_of_mem_scan found

theorem shorthand_infix (defined : a ∈ ofDocument document) : a.shorthand <:+: document := by
  refine List.IsInfix.trans ?_ (infix_of_mem_ofDocument defined)
  exact ⟨Table.aliases.opening, "]=\"" ++ a.canonical ++ "\"", by
    simp [Entry.assignment, Table.assignment, toEntry]⟩

/-- The canonical name stands behind a closing bracket. -/
theorem canonical_infix (defined : a ∈ ofDocument document) :
    ']' :: '=' :: '"' :: a.canonical <:+: document := by
  refine List.IsInfix.trans ?_ (infix_of_mem_ofDocument defined)
  exact ⟨Table.aliases.opening ++ a.shorthand, "\"", by
    simp [Entry.assignment, Table.assignment, toEntry]⟩

end Alias

namespace Migration

/-- A key that is found is not empty, and ends in front of the bracket. -/
theorem named_of_keyIn? {table : Table} {line key rest : Text}
    (found : keyIn? table line = some (key, rest)) : key ≠ [] ∧ ']' ∉ key := by
  simp only [keyIn?, Option.bind_eq_some_iff] at found
  obtain ⟨inner, -, found⟩ := found
  split at found
  · cases found
  · rename_i some_
    simp only [Option.map_eq_some_iff, Prod.mk.injEq] at found
    obtain ⟨after, -, rfl, rfl⟩ := found
    exact ⟨some_, Entry.not_mem_before _ _⟩

theorem named_of_renameIn? {aliases : List Alias} {line rest : Text} {rename : Rename}
    (found : renameIn? aliases line = some (rename, rest)) :
    rename.canonical ≠ [] ∧ ']' ∉ rename.canonical := by
  obtain ⟨category, -, here⟩ := List.exists_of_findSome?_eq_some found
  obtain ⟨⟨key, after⟩, keyed, here⟩ := Option.bind_eq_some_iff.1 here
  obtain ⟨shorthand, -, same⟩ := Option.map_eq_some_iff.1 here
  cases same
  exact named_of_keyIn? keyed

/-- What stands in front of a key on a line: the indent and the name of the table. -/
def front (category : Category) (line : Text) : Text := line.indent ++ (Table.keyed category).name

theorem not_mem_front (category : Category) (line : Text) : ']' ∉ front category line := by
  intro inside
  rcases List.mem_append.1 inside with blank | named
  · have all : line.indent.all Text.isSpace = true := List.all_takeWhile
    exact absurd (List.all_eq_true.1 all ']' blank) (by decide)
  · revert named
    cases category <;> decide

/-- A line is kept, or the canonical name of an alias between brackets becomes its shorthand. -/
theorem renameLine_cases (aliases : List Alias) (line : Text) :
    renameLine aliases line = line ∨
      ∃ (category : Category) (a : Alias) (rest : Text), a ∈ aliases ∧ ']' ∉ a.canonical ∧
        line = front category line ++ '[' :: (a.canonical ++ ']' :: rest) ∧
        renameLine aliases line = front category line ++ '[' :: (a.shorthand ++ ']' :: rest) := by
  cases called : renameIn? aliases line with
  | none =>
      left
      rw [renameLine, called]
  | some found =>
      right
      obtain ⟨rename, rest⟩ := found
      obtain ⟨behind, short⟩ := exists_of_renameIn? called
      have noBracket := (named_of_renameIn? called).2
      obtain ⟨a, listed, canonical, same⟩ := Alias.exists_of_shorthandOf? short
      refine ⟨rename.category, a, rest, listed, canonical ▸ noBracket, ?_, ?_⟩
      · have joined := Text.indent_append_dropIndent line
        rw [behind] at joined
        rw [canonical, front]
        simpa [Table.opening] using joined.symm
      · rw [renameLine, called, same, front]
        simp [Table.opening]

/-- What stands behind a closing bracket on a line is still there when the line is renamed. -/
theorem infix_renameLine (aliases : List Alias) {behind line : Text}
    (inside : ']' :: behind <:+: line) : behind <:+: renameLine aliases line := by
  rcases renameLine_cases aliases line with
    same | ⟨category, a, rest, -, noBracket, written, renamed⟩
  · rw [same]
    exact (List.suffix_cons ']' behind).isInfix.trans inside
  · have apart : ']' ∉ front category line ++ '[' :: a.canonical := by
      simp [not_mem_front, noBracket]
    rw [written, ← List.cons_append, ← List.append_assoc, List.cons_infix_append_iff apart,
      List.infix_cons_iff, List.cons_prefix_cons] at inside
    have kept : behind <:+: rest := by
      rcases inside with ⟨-, first⟩ | later
      · exact first.isInfix
      · exact (List.suffix_cons ']' behind).isInfix.trans later
    rw [renamed]
    exact kept.trans ⟨front category line ++ '[' :: (a.shorthand ++ [']']), [], by simp⟩

/-! ## What segments start with -/

/-- A text by which a version is recognised at the start of a segment: it starts like a setting
of the version, and holds no bracket and no line end. -/
structure Recogniser (o : Text) : Prop where
  version : Scalar.configVersion.opening <+: o
  flat : o.Flat
  noOpening : '[' ∉ o
  noClosing : ']' ∉ o

theorem recogniser_opening : Recogniser Scalar.configVersion.opening := by
  constructor <;> decide

theorem recogniser_versionLine : Recogniser versionLine := by
  constructor <;> decide

theorem hasVersion_iff (document : Text) :
    hasVersion document = true ↔ Text.Opens Scalar.configVersion.opening document := by
  simp [hasVersion, Text.Opens, Line.starts_iff]

theorem isCurrent_iff (document : Text) :
    isCurrent document = true ↔ Text.Opens versionLine document := by
  simp [isCurrent, Text.Opens, Line.starts_iff]

section

variable {o : Text} (recogniser : Recogniser o)

include recogniser

/-- A segment starts in front of the brackets, between them, or behind them. -/
theorem Recogniser.opens_brackets_iff (before key after : Text) :
    Text.Opens o (before ++ '[' :: (key ++ ']' :: after)) ↔
      Text.Opens o before ∨ Text.Within o key ∨ Text.Within o after := by
  rw [Text.opens_iff recogniser.flat, Text.opens_iff recogniser.flat,
    List.prefix_append_cons_iff recogniser.noOpening,
    Text.within_append_cons_iff (by decide) recogniser.noOpening,
    Text.within_append_cons_iff (by decide) recogniser.noClosing, or_assoc]

theorem Recogniser.opens_of_within {t : Text} (within : Text.Within o t) : Text.Opens o t :=
  (Text.opens_iff recogniser.flat).2 (Or.inr within)

/-- What opens a segment of a renamed line opened one before, or came with a shorthand. -/
theorem Recogniser.opens_or_shorthand {aliases : List Alias} {line : Text}
    (opens : Text.Opens o (renameLine aliases line)) :
    Text.Opens o line ∨ ∃ a ∈ aliases, Text.Within o a.shorthand := by
  rcases renameLine_cases aliases line with
    same | ⟨category, a, rest, defined, -, written, renamed⟩
  · left
    rwa [same] at opens
  · rw [renamed, recogniser.opens_brackets_iff] at opens
    rw [written, recogniser.opens_brackets_iff]
    rcases opens with before | brought | after
    · exact Or.inl (Or.inl before)
    · exact Or.inr ⟨a, defined, brought⟩
    · exact Or.inl (Or.inr (Or.inr after))

/-- What opens a segment of a line still does once the line is renamed, or went with a canonical
name. -/
theorem Recogniser.opens_or_canonical {aliases : List Alias} {line : Text}
    (opens : Text.Opens o line) :
    Text.Opens o (renameLine aliases line) ∨
      ∃ a ∈ aliases, a.canonical <:+: line ∧ Text.Within o a.canonical := by
  rcases renameLine_cases aliases line with
    same | ⟨category, a, rest, defined, -, written, renamed⟩
  · left
    rwa [same]
  · have onLine : a.canonical <:+: line := by
      rw [written]
      exact ⟨front category line ++ ['['], ']' :: rest, by simp⟩
    rw [written, recogniser.opens_brackets_iff] at opens
    rw [renamed, recogniser.opens_brackets_iff]
    rcases opens with before | taken | after
    · exact Or.inl (Or.inl before)
    · exact Or.inr ⟨a, defined, onLine, taken⟩
    · exact Or.inl (Or.inr (Or.inr after))

/-- A canonical name that is gone from a line stands in an alias, and is still there. -/
theorem Recogniser.opens_of_canonical {document : Text} {a : Alias}
    (defined : a ∈ Alias.ofDocument document) (onLine : '\n' ∉ a.canonical)
    (within : Text.Within o a.canonical) : ∃ l ∈ renamedLines document, Text.Opens o l := by
  have apart : '\n' ∉ ']' :: '=' :: '"' :: a.canonical := by simpa using onLine
  obtain ⟨line, listed, inside⟩ :=
    Text.exists_line_of_infix apart (Alias.canonical_infix defined)
  have kept : '=' :: '"' :: a.canonical <:+: renameLine (Alias.ofDocument document) line :=
    infix_renameLine _ inside
  have still : a.canonical <:+: renameLine (Alias.ofDocument document) line :=
    ((List.suffix_cons _ _).trans (List.suffix_cons _ _)).isInfix.trans kept
  exact ⟨_, List.mem_map_of_mem listed, recogniser.opens_of_within (within.mono still)⟩

/-- **Renaming moves no start of a segment** that sets a version. -/
theorem opens_renamed_iff (document : Text) :
    Text.Opens o (Text.unlines (renamedLines document)) ↔ Text.Opens o document := by
  have some_ : renamedLines document ≠ [] := by simp [renamedLines, Text.lines_ne_nil]
  rw [Text.opens_unlines some_, Text.opens_iff_lines]
  constructor
  · rintro ⟨renamed, member, opens⟩
    obtain ⟨line, listed, rfl⟩ := List.mem_map.1 member
    rcases recogniser.opens_or_shorthand opens with before | ⟨a, defined, brought⟩
    · exact ⟨line, listed, before⟩
    · rw [← Text.opens_iff_lines]
      exact recogniser.opens_of_within (brought.mono (Alias.shorthand_infix defined))
  · rintro ⟨line, listed, opens⟩
    rcases recogniser.opens_or_canonical opens with after | ⟨a, defined, onLine, taken⟩
    · exact ⟨_, List.mem_map_of_mem listed, after⟩
    · refine recogniser.opens_of_canonical defined ?_ taken
      intro inside
      exact (List.of_mem_splitOn listed).1 (onLine.subset inside)

/-- A line on which nobody finds anything sets no version. -/
theorem Recogniser.not_opens_of_mute {line : Text} (mute : Line.Mute line) :
    ¬ Text.Opens o line := by
  rw [Text.opens_of_flat mute.flat]
  intro starts
  have sets := (Line.starts_iff _ _).2 (recogniser.version.trans starts)
  rw [mute.silent] at sets
  cases sets

end

end Migration

/-- Mute lines open no segment that the old lines do not open. -/
theorem Padded.opens_iff {o document : Text} (recogniser : Migration.Recogniser o) {ms : List Text}
    (padded : Padded document.lines ms) :
    Text.Opens o (Text.unlines ms) ↔ Text.Opens o document := by
  rw [Text.opens_unlines (padded.ne_nil (Text.lines_ne_nil document)), Text.opens_iff_lines]
  constructor
  · rintro ⟨l, member, opens⟩
    rcases padded.mem_or_mute member with old | mute
    · exact ⟨l, old, opens⟩
    · exact absurd opens (recogniser.not_opens_of_mute mute)
  · rintro ⟨l, member, opens⟩
    exact ⟨l, padded.sublist.subset member, opens⟩

namespace Migration

variable {document : Text}

/-- The document once its keys are renamed and its tables declared. -/
def declared (document : Text) : Text :=
  (Repair.declarations (fun category => Line.isIndentedAssignment (.keyed category))
    (Text.unlines (renamedLines document))).document

/-- Renaming and declaring leave alone what sets a version. -/
theorem opens_declared_iff {o : Text} (recogniser : Recogniser o) (document : Text) :
    Text.Opens o (declared document) ↔ Text.Opens o document := by
  rw [declared, Repair.declarations, Padded.opens_iff recogniser (Repair.padded_declaredLines _ _ _),
    opens_renamed_iff recogniser]

theorem hasVersion_declared (document : Text) :
    hasVersion (declared document) = hasVersion document := by
  rw [Bool.eq_iff_iff, hasVersion_iff, hasVersion_iff, opens_declared_iff recogniser_opening]

theorem isCurrent_declared (document : Text) :
    isCurrent (declared document) = isCurrent document := by
  rw [Bool.eq_iff_iff, isCurrent_iff, isCurrent_iff, opens_declared_iff recogniser_versionLine]

/-- The version is stamped exactly where the document sets none. -/
theorem versionAdded_apply (document : Text) :
    (apply document).versionAdded = !hasVersion document := by
  rw [← hasVersion_declared]
  rfl

/-- Stamped lines carry the version. -/
theorem isCurrent_stamp (ls : List Text) : isCurrent (Text.unlines (stamp ls)) = true := by
  have stamped : versionLine ∈ stamp ls := mem_stamp.2 (Or.inl (by simp [versionBlock]))
  rw [isCurrent_iff, Text.opens_unlines (List.ne_nil_of_mem stamped)]
  exact ⟨versionLine, stamped, Text.opens_of_front recogniser_versionLine.flat List.prefix_rfl⟩

/-- **What a migration makes current**: what was current, and what set no version. -/
theorem isCurrent_apply (document : Text) :
    isCurrent (apply document).document = (isCurrent document || !hasVersion document) := by
  have parts : (apply document).document =
      if !hasVersion (declared document) then Text.unlines (stamp (declared document).lines)
      else declared document := rfl
  rw [parts, hasVersion_declared]
  cases hasVersion document with
  | false => simp [isCurrent_stamp]
  | true => simp [isCurrent_declared]

end Migration

/-! ## The next run -/

/-- A plan for a migration writes the document migrated. -/
theorem Command.updated_of_plan {place : Place} {template : Path} {given : Text} {disk : Disk}
    {plan : Plan} (planned : Command.migrate.plan place template given disk = .ok (some plan)) :
    plan.updated = (Migration.apply plan.loaded).document := by
  unfold Command.plan at planned
  split at planned
  · cases planned
  · split at planned
    · cases planned
    · simp only [planFor, Migration.ofDocument?] at planned
      split at planned
      · cases planned
      · cases planned
        rfl

/-- The path that a user means is the target of the job. -/
theorem Job.ofUser_of_target? {job : Job} {target : Path} (meant : job.target? = some target) :
    Path.ofUser job.surroundings.place.directory job.document = .ok target := by
  unfold target? at meant
  cases given : Path.ofUser job.surroundings.place.directory job.document with
  | error failure =>
      rw [given] at meant
      cases meant
  | ok path =>
      rw [given] at meant
      rw [Option.some.inj meant]

/-- The first job migrated a document, and the second one migrates it next: it finds there what
the first one left, and its disk refuses nothing. -/
structure Job.Follows (first again : Job) (target : Path) (before found : Disk) : Prop where
  migrates : first.command = .migrate
  migratesAgain : again.command = .migrate
  meant : first.target? = some target
  meantAgain : again.target? = some target
  replaced : target ∈ (first.report before).written
  left : found.node? target = (first.report before).disk.node? target
  willing : ∀ operation path, found.refuses operation path = false

namespace Job

variable {first again : Job} {target : Path} {before found : Disk} {loaded : Text}

/-- The second job loads the text that the first one wrote, unless it loses a mark at its front. -/
theorem Follows.load_again (follows : first.Follows again target before found)
    (loads : before.load .config target = .ok loaded)
    (unmarked : (Migration.apply loaded).document.head? ≠ some Utf8.mark) :
    found.load .config target = .ok (Migration.apply loaded).document := by
  have course := Run.report_allOrBackup first.surroundings first.command first.flags
    first.document before
  obtain ⟨context, plan, _, _, planned, loadsPlan, _, _, _, _, stands⟩ :=
    course.replaced target (ofUser_of_target? follows.meant) follows.replaced
  obtain rfl := Except.ok.inj (loads.symm.trans loadsPlan)
  rw [follows.migrates] at planned
  have left : found.node? target =
      some (.file (Utf8.encode (Migration.apply plan.loaded).document)) := by
    rw [← Command.updated_of_plan planned, ← stands]
    exact follows.left
  rw [Disk.load_of_node? left fun operation => follows.willing operation target,
    Utf8.decode_encode unmarked]

/-- The second job leaves alone what the first one wrote, if the document set no version. -/
theorem Follows.leaves_again (follows : first.Follows again target before found)
    (unversioned : Migration.hasVersion loaded = false) :
    again.command.leaves (Migration.apply loaded).document = true := by
  rw [follows.migratesAgain]
  show Migration.isCurrent (Migration.apply loaded).document = true
  rw [Migration.isCurrent_apply, unversioned]
  simp

section

variable (follows : first.Follows again target before found)
  (loads : before.load .config target = .ok loaded)
  (unversioned : Migration.hasVersion loaded = false)
  (unmarked : (Migration.apply loaded).document.head? ≠ some Utf8.mark)

include follows loads unversioned unmarked

/-- After a document that sets no version was migrated, the next job touches nothing. -/
theorem untouched_of_follows : (again.report found).Untouched found := by
  have course := Run.report_allOrBackup again.surroundings again.command again.flags
    again.document found
  exact course.settled target _ (ofUser_of_target? follows.meantAgain)
    (follows.load_again loads unmarked) (follows.leaves_again unversioned)

/-- It succeeds, unless its settings are wrong. -/
theorem succeeds_of_follows {context : Context}
    (resolved : Context.ofFlags again.surroundings again.flags = .ok context) :
    (again.report found).failure = none := by
  have loadsAgain := follows.load_again loads unmarked
  have meant := ofUser_of_target? follows.meantAgain
  have unplanned (other : Context) (plan : Plan) : again.command.plan again.surroundings.place
      other.template again.document found ≠ .ok (some plan) := by
    intro planned
    obtain ⟨meantPlan, loadsPlan, -, busy⟩ := Command.of_plan planned
    obtain rfl := Except.ok.inj (meant.symm.trans meantPlan)
    rw [← Except.ok.inj (loadsAgain.symm.trans loadsPlan), follows.leaves_again unversioned] at busy
    cases busy
  have course := Run.report_allOrBackup again.surroundings again.command again.flags
    again.document found
  rw [Option.eq_none_iff_forall_ne_some]
  intro failure fails
  cases course.reason failure fails with
  | settings refused =>
      rw [resolved] at refused
      cases refused
  | reading _ refused =>
      simp only [Command.plan, meant, loadsAgain, follows.migratesAgain] at refused
      cases refused
  | backup _ planned _ => exact unplanned _ _ planned
  | target _ planned _ _ => exact unplanned _ _ planned

end

end Job

/-! ## Settled, or not -/

namespace Migration

/-- **A migration settles a document if and only if the document sets no version.**  Then the
document migrated is current and calls for no migration, and a job that migrates the file next
touches nothing and succeeds. -/
theorem settles_iff :
    (∀ document migration, ofDocument? document = some migration →
      (isCurrent migration.document = true ↔ hasVersion document = false) ∧
        (ofDocument? migration.document = none ↔ hasVersion document = false)) ∧
    ∀ (first again : Job) (target : Path) (before found : Disk) (loaded : Text),
      first.Follows again target before found → before.load .config target = .ok loaded →
      hasVersion loaded = false → (apply loaded).document.head? ≠ some Utf8.mark →
      (again.report found).Untouched found ∧
        ∀ context, Context.ofFlags again.surroundings again.flags = .ok context →
          (again.report found).failure = none := by
  constructor
  · intro document migration called
    unfold ofDocument? at called
    split at called
    · cases called
    · rename_i outdated
      cases called
      have outdated : isCurrent document = false := by simpa using outdated
      rw [ofDocument?, isCurrent_apply, outdated]
      cases hasVersion document <;> simp
  · intro first again target before found loaded follows loads unversioned unmarked
    exact ⟨Job.untouched_of_follows follows loads unversioned unmarked,
      fun _ resolved => Job.succeeds_of_follows follows loads unversioned unmarked resolved⟩

/-- A job that migrates the document `c` in the directory `/w`. -/
def migrating (milliseconds : Int) : Job where
  surroundings :=
    { place := ⟨⟨"/w"⟩, ⟨milliseconds⟩⟩
      valueOf := fun _ => none
      terminal := false
      template := ⟨"/w/templates/config.zsh.example"⟩ }
  command := .migrate
  flags := {}
  document := "c"

/-- A directory with the document alone. -/
def shelf (content : Text) : Disk := .ofList [(⟨"/w/c"⟩, some (.file (Utf8.encode content)))] []

/-- A document of the first layout: an alias, and a table keyed by the canonical name. -/
def legacy : Text := "REPO_MAPPINGS[app]=\"mobile-app\"\n  REPO_CONFIGS[mobile-app]=\"make\""

/-- It is migrated once, and the second job touches nothing. -/
theorem settles_iff_legacy :
    isCurrent (apply legacy).document = true ∧
      ((migrating 1767596890000).report (shelf (apply legacy).document)).Untouched
        (shelf (apply legacy).document) := by
  have unversioned : hasVersion legacy = false := by decide +kernel
  have called : ofDocument? legacy = some (apply legacy) := by decide +kernel
  have follows : (migrating 1767596889000).Follows (migrating 1767596890000) ⟨"/w/c"⟩
      (shelf legacy) (shelf (apply legacy).document) :=
    { migrates := rfl
      migratesAgain := rfl
      meant := by decide +kernel
      meantAgain := by decide +kernel
      replaced := by decide +kernel
      left := by decide +kernel
      willing := fun _ _ => rfl }
  have loads : (shelf legacy).load .config ⟨"/w/c"⟩ = .ok legacy := by
    have found : (shelf legacy).node? ⟨"/w/c"⟩ = some (.file (Utf8.encode legacy)) := by
      decide +kernel
    rw [Disk.load_of_node? found fun _ => rfl, Utf8.decode_encode (by decide +kernel)]
  have unmarked : (apply legacy).document.head? ≠ some Utf8.mark := by decide +kernel
  exact ⟨(settles_iff.1 legacy (apply legacy) called).1.2 unversioned,
    (settles_iff.2 _ _ _ _ _ _ follows loads unversioned unmarked).1⟩

/-- **Not every migration settles its document**: an older version is kept as it stands. -/
theorem not_current :
    ¬ ∀ document migration, ofDocument? document = some migration →
      isCurrent migration.document = true ∧ ofDocument? migration.document = none := by
  intro settles
  have called : ofDocument? "CONFIG_VERSION=0" = some ⟨"CONFIG_VERSION=0", [], [], false⟩ := by
    decide +kernel
  exact absurd (settles _ _ called).1 (by decide +kernel)

end Migration

end ConfigUpkeep
