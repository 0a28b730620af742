/-
# ConfigUpkeep.Proofs.Appearance -- how a run is shown does not change what it does

Options and variables for the display say how much a run shows, in which form and in which
colours.  Runs that differ in nothing else are *alike* (`Alike`).  They find the same
template, or fail to for the same reason (`Alike.templateOfRun_eq`), and a run does and says
what follows from its template, its place and its document alone; so runs that are alike do
the same and say the same (`Run.sameEffect`, `Run.said_eq`).

What is said is shown record by record.  A stricter threshold drops records of reporting and
nothing else: the chunks it leaves stand as they stood and in their order
(`Display.chunks_sublist`), lists and documents among them (`Display.outputs_sublist`), and a
failure is shown at every threshold (`Display.failure_of_mild`).  `Run.display_inert` says all
of this of two runs that are alike.
-/
import Mathlib.Data.List.Basic
import ConfigUpkeep.Proofs.Account

namespace ConfigUpkeep

set_option autoImplicit false

/-! ## Settings that decide what is done -/

/-- The template of a run, or why its settings are wrong.  Flags have no part in it. -/
def Surroundings.templateOfRun (surroundings : Surroundings) : Except Failure Path :=
  match Environment.read surroundings.valueOf with
  | .ok environment =>
      Context.templatePath surroundings.place.directory surroundings.template environment
  | .error problems => .error (.invalidEnvironment problems)

namespace Context

variable {surroundings : Surroundings}

theorem map_template_ofFlags (surroundings : Surroundings) (flags : Flags) :
    (ofFlags surroundings flags).map Context.template = surroundings.templateOfRun := by
  unfold ofFlags Surroundings.templateOfRun
  cases Environment.read surroundings.valueOf with
  | error problems => rfl
  | ok environment =>
      simp only [resolve]
      cases templatePath surroundings.place.directory surroundings.template environment <;> rfl

theorem exists_of_templateOfRun {template : Path} (found : surroundings.templateOfRun = .ok template)
    (flags : Flags) : ∃ context, ofFlags surroundings flags = .ok context ∧
      context.template = template := by
  rw [← map_template_ofFlags surroundings flags] at found
  cases resolved : ofFlags surroundings flags with
  | error failure =>
      rw [resolved] at found
      cases found
  | ok context =>
      rw [resolved] at found
      exact ⟨context, rfl, Except.ok.inj found⟩

theorem ofFlags_of_templateOfRun {failure : Failure}
    (wrong : surroundings.templateOfRun = .error failure) (flags : Flags) :
    ofFlags surroundings flags = .error failure := by
  rw [← map_template_ofFlags surroundings flags] at wrong
  cases resolved : ofFlags surroundings flags with
  | error other =>
      rw [resolved] at wrong
      rw [Except.error.inj wrong]
  | ok context =>
      rw [resolved] at wrong
      cases wrong

end Context

namespace Environment

/-- The reader of a variable accepts its value, if it has one. -/
def Accepts {α : Type} (reader : Text → Option α) (value : Option Text) : Prop :=
  ∀ received, value = some received → (reader received).isSome = true

/-- Two values of a variable that are the same, or both valid. -/
def Interchangeable {α : Type} (reader : Text → Option α) (value other : Option Text) : Prop :=
  value = other ∨ Accepts reader value ∧ Accepts reader other

theorem problem?_of_accepts {α : Type} {reader : Text → Option α} {value : Option Text}
    (valid : Accepts reader value) (problem : Text → Problem) :
    problem? problem reader value = none := by
  cases value with
  | none => rfl
  | some received => simp [problem?, valid received rfl]

theorem problem?_of_interchangeable {α : Type} {reader : Text → Option α}
    {value other : Option Text} (similar : Interchangeable reader value other)
    (problem : Text → Problem) : problem? problem reader value = problem? problem reader other := by
  rcases similar with rfl | ⟨valid, validToo⟩
  · rfl
  · rw [problem?_of_accepts valid, problem?_of_accepts validToo]

end Environment

open Environment (Variable Interchangeable)

/-- The surroundings and the flags of two runs that differ only in the display: in flags other
than the one for a dry run, in the terminal, in valid values of three variables, and in
variables that nothing but the display reads. -/
structure Alike (first second : Surroundings) (flags others : Flags) : Prop where
  place : first.place = second.place
  bundled : first.template = second.template
  dryRun : flags.dryRun = others.dryRun
  template : first.valueOf Variable.template.name = second.valueOf Variable.template.name
  verbosity : Interchangeable Verbosity.ofName? (first.valueOf Variable.verbosity.name)
    (second.valueOf Variable.verbosity.name)
  format : Interchangeable Format.ofName? (first.valueOf Variable.format.name)
    (second.valueOf Variable.format.name)
  debug : Interchangeable Environment.switch? (first.valueOf Variable.debug.name)
    (second.valueOf Variable.debug.name)

namespace Alike

variable {first second : Surroundings} {flags others : Flags}
  (alike : Alike first second flags others)

include alike

theorem problems_eq :
    Environment.problems first.valueOf = Environment.problems second.valueOf := by
  unfold Environment.problems
  rw [Environment.problem?_of_interchangeable alike.verbosity,
    Environment.problem?_of_interchangeable alike.format,
    Environment.problem?_of_interchangeable alike.debug]

/-- Runs that are alike find the same template, or fail to for the same reason. -/
theorem templateOfRun_eq : first.templateOfRun = second.templateOfRun := by
  unfold Surroundings.templateOfRun Environment.read
  rw [alike.problems_eq]
  by_cases fine : (Environment.problems second.valueOf).isEmpty = true
  · simp only [if_pos fine, Context.templatePath, alike.template, alike.place, alike.bundled]
  · simp only [if_neg fine]

end Alike

/-! ## The same effect -/

/-- Two runs end in the same way, and leave the same disk. -/
structure Report.SameEffect (report other : Report) : Prop where
  failure : report.failure = other.failure
  exitCode : report.exitCode = other.exitCode
  disk : report.disk = other.disk
  written : report.written = other.written

namespace Run

section

variable {first second : Surroundings} {flags others : Flags}
  (alike : Alike first second flags others) (command : Command) (document : Text) (before : Disk)

include alike

/-- Runs that are alike have settings that are wrong in the same way, or the same template. -/
theorem settings_of_alike :
    (∃ failure, Context.ofFlags first flags = .error failure ∧
      Context.ofFlags second others = .error failure) ∨
    ∃ context other, Context.ofFlags first flags = .ok context ∧
      Context.ofFlags second others = .ok other ∧ context.template = other.template := by
  cases found : first.templateOfRun with
  | error failure =>
      exact Or.inl ⟨failure, Context.ofFlags_of_templateOfRun found flags,
        Context.ofFlags_of_templateOfRun (alike.templateOfRun_eq ▸ found) others⟩
  | ok template =>
      obtain ⟨context, resolved, same⟩ := Context.exists_of_templateOfRun found flags
      obtain ⟨other, resolvedToo, sameToo⟩ :=
        Context.exists_of_templateOfRun (alike.templateOfRun_eq ▸ found) others
      exact Or.inr ⟨context, other, resolved, resolvedToo, same.trans sameToo.symm⟩

/-- Runs that are alike say the same. -/
theorem said_eq : said first command flags document before =
    said second command others document before := by
  unfold said
  rcases settings_of_alike alike with ⟨failure, refused, refusedToo⟩ |
    ⟨context, other, resolved, resolvedToo, same⟩
  · rw [refused, refusedToo]
  · simp only [resolved, resolvedToo, same, alike.place, alike.dryRun]

/-- **Runs that are alike do the same.** -/
theorem sameEffect : (report first command flags document before).SameEffect
    (report second command others document before) := by
  unfold report
  rcases settings_of_alike alike with ⟨failure, refused, refusedToo⟩ |
    ⟨context, other, resolved, resolvedToo, same⟩
  · rw [refused, refusedToo]
    exact ⟨rfl, rfl, rfl, rfl⟩
  · simp only [resolved, resolvedToo, same, alike.place, alike.dryRun]
    exact ⟨rfl, rfl, rfl, rfl⟩

end

end Run

/-! ## What a threshold leaves -/

namespace Chunk

variable {stream : Stream} {chunks others : List Chunk}

theorem on_append : on stream (chunks ++ others) = on stream chunks ++ on stream others := by
  rw [on, List.filter_append, List.map_append]
  rfl

theorem on_sublist (kept : chunks.Sublist others) : (on stream chunks).Sublist (on stream others) :=
  (kept.filter _).map _

end Chunk

/-- A record of lists or documents raises no alarm. -/
theorem Record.isAlarm_of_isOutput {record : Record} (output : record.isOutput = true) :
    record.isAlarm = false := by
  unfold isOutput at output
  unfold isAlarm
  cases styled : record.style? with
  | none =>
      rw [styled] at output
      cases output
  | some style =>
      rw [styled] at output
      cases style <;> first | rfl | cases output

namespace Display

/-- The chunk of a record, whether or not it is shown. -/
def chunk (display : Display) (record : Record) : Chunk where
  stream := if record.isAlarm then .alarm else .output
  text :=
    match display.format with
    | .pretty => display.pretty record
    | .json => display.json record

/-- The second display shows in the same form and colours, and no less serious records. -/
structure Stricter (lax strict : Display) : Prop where
  format : lax.format = strict.format
  color : lax.color = strict.color
  rank : lax.threshold.rank ≤ strict.threshold.rank

section

variable (display : Display) (records : List Record)

/-- The chunks of some records are those of the records that are shown. -/
theorem chunks_eq : display.chunks records =
    (records.filter (Record.isShown display.threshold)).map display.chunk := by
  induction records with
  | nil => rfl
  | cons record rest ih =>
      have here : display.chunk? record =
          if record.isShown display.threshold then some (display.chunk record) else none := rfl
      rw [chunks] at ih ⊢
      by_cases appears : record.isShown display.threshold = true
      · rw [List.filterMap_cons_some (by rw [here, if_pos appears]), ih,
          List.filter_cons_of_pos appears, List.map_cons]
      · rw [List.filterMap_cons_none (by rw [here, if_neg appears]), ih,
          List.filter_cons_of_neg appears]

/-- Records that raise no alarm are all on the output, in order. -/
theorem on_output_map (calm : ∀ record ∈ records, record.isAlarm = false) :
    Chunk.on .output (records.map display.chunk) =
      records.map fun record => (display.chunk record).text := by
  rw [Chunk.on, List.filter_eq_self.2, List.map_map]
  · rfl
  · intro chunk member
    obtain ⟨record, listed, rfl⟩ := List.mem_map.1 member
    simp [Display.chunk, calm record listed]

/-- The texts of lists and documents are all on the output, in order. -/
theorem outputs_sublist : ((records.filter Record.isOutput).map fun record =>
    (display.chunk record).text).Sublist (Chunk.on .output (display.chunks records)) := by
  have among : (records.filter Record.isOutput).Sublist
      (records.filter (Record.isShown display.threshold)) :=
    List.monotone_filter_right _ fun record output => by simp [Record.isShown, output]
  have calm : ∀ record ∈ records.filter Record.isOutput, record.isAlarm = false :=
    fun record listed => Record.isAlarm_of_isOutput (List.mem_filter.1 listed).2
  rw [← on_output_map display _ calm, chunks_eq]
  exact Chunk.on_sublist (among.map _)

/-- Records that raise no alarm leave nothing on the stream for errors. -/
theorem on_alarm_chunks (calm : ∀ record ∈ records, record.isAlarm = false) :
    Chunk.on .alarm (display.chunks records) = [] := by
  rw [Chunk.on, List.map_eq_nil_iff, List.filter_eq_nil_iff, chunks_eq]
  intro chunk member
  obtain ⟨record, listed, rfl⟩ := List.mem_map.1 member
  simp [Display.chunk, calm record (List.mem_filter.1 listed).1]

end

section

variable {lax strict : Display} (stricter : Stricter lax strict) (now : lax.now = strict.now)

include stricter now

/-- A record looks the same at every threshold. -/
theorem chunk_eq : lax.chunk = strict.chunk := by
  obtain ⟨format, color, -⟩ := stricter
  cases lax
  cases strict
  cases format
  cases color
  cases now
  rfl

/-- **A stricter threshold only leaves records out.** -/
theorem chunks_sublist (records : List Record) :
    (strict.chunks records).Sublist (lax.chunks records) := by
  rw [chunks_eq, chunks_eq, chunk_eq stricter now]
  refine (List.monotone_filter_right _ fun record appears => ?_).map _
  simp only [Record.isShown, Bool.or_eq_true, decide_eq_true_eq] at appears ⊢
  exact appears.imp_right (Nat.le_trans stricter.rank)

end

/-- The failure of a run is shown at every threshold that a verbosity brings. -/
theorem failure_of_mild {display : Display} (mild : display.threshold.rank ≤ Level.error.rank)
    (failure : Failure) : display.failure failure =
      match display.format with
      | .pretty => [display.chunk (Record.fail failure.message)]
      | .json => [⟨.output, failure.payload.render ++ "\n"⟩] := by
  have appears : (Record.fail failure.message).isShown display.threshold = true :=
    decide_eq_true mild
  rw [Display.failure, chunks_eq, List.filter_cons_of_pos appears]
  rfl

end Display

/-! ## Runs that are shown differently -/

namespace Run

section

variable (surroundings : Surroundings) (flags : Flags)

theorem now_shown : (shown surroundings flags).now = surroundings.place.now := by
  unfold shown
  cases Context.ofFlags surroundings flags <;> rfl

theorem rank_threshold_shown :
    (shown surroundings flags).threshold.rank ≤ Level.error.rank := by
  have mild (verbosity : Verbosity) : verbosity.threshold.rank ≤ Level.error.rank := by
    cases verbosity <;> decide
  unfold shown
  cases Context.ofFlags surroundings flags with
  | error failure => exact mild .standard
  | ok context => exact mild context.verbosity

end

/-- The second run shows what the first one shows, but for reports that are not serious
enough. -/
structure Abridges (first second : Surroundings) (flags others : Flags) (command : Command)
    (document : Text) (before : Disk) : Prop where
  alarm : Chunk.on .alarm (report second command others document before).output =
    Chunk.on .alarm (report first command flags document before).output
  output : (Chunk.on .output (report second command others document before).output).Sublist
    (Chunk.on .output (report first command flags document before).output)
  /-- Every list and every document that the runs show is on the output of the second one. -/
  outputs : ((said first command flags document before).filter Record.isOutput).map
      (fun record => ((shown first flags).chunk record).text) |>.Sublist
    (Chunk.on .output (report second command others document before).output)

variable {first second : Surroundings} {flags others : Flags}
  (alike : Alike first second flags others) (command : Command) (document : Text) (before : Disk)

include alike

/-- A run with a stricter threshold abridges. -/
theorem abridges (stricter : Display.Stricter (shown first flags) (shown second others)) :
    Abridges first second flags others command document before := by
  have now : (shown first flags).now = (shown second others).now := by
    rw [now_shown, now_shown, alike.place]
  have failures (failure : Failure) :
      (shown first flags).failure failure = (shown second others).failure failure := by
    rw [Display.failure_of_mild (rank_threshold_shown first flags),
      Display.failure_of_mild (rank_threshold_shown second others), stricter.format,
      Display.chunk_eq stricter now]
  have strictOutput : (report second command others document before).output =
      (shown second others).chunks (said first command flags document before) ++
        ((report first command flags document before).failure.map
          (shown first flags).failure).getD [] := by
    rw [output_report, (sameEffect alike command document before).failure,
      said_eq alike command document before, funext failures]
  have calm := isAlarm_of_mem_said first command flags document before
  constructor
  · rw [strictOutput, output_report, Chunk.on_append, Chunk.on_append,
      Display.on_alarm_chunks _ _ calm, Display.on_alarm_chunks _ _ calm]
  · rw [strictOutput, output_report]
    exact Chunk.on_sublist ((Display.chunks_sublist stricter now _).append_right _)
  · rw [strictOutput, Chunk.on_append, Display.chunk_eq stricter now]
    exact (Display.outputs_sublist _ _).trans (List.sublist_append_left _ _)

/-- **The display has no influence on what runs do.**  Runs that are alike have the same
effect, whatever the disk refuses; and the one with the stricter threshold, if form and
colours are the same, shows what the other one shows but for reports. -/
theorem display_inert :
    (report first command flags document before).SameEffect
        (report second command others document before) ∧
      said first command flags document before = said second command others document before ∧
      (Display.Stricter (shown first flags) (shown second others) →
        Abridges first second flags others command document before) :=
  ⟨sameEffect alike command document before, said_eq alike command document before,
    abridges alike command document before⟩

end Run

/-! ## A run on a terminal that is to show errors only -/

namespace Appearance

/-- The directory `/w` on the fifth of January 2026, 07:08:09. -/
def plainly : Surroundings where
  place := ⟨⟨"/w"⟩, ⟨1767596889000⟩⟩
  valueOf _ := none
  terminal := false
  template := ⟨"/w/templates/config.zsh.example"⟩

/-- The same directory, on a terminal without colours, with reports of errors only. -/
def quietly : Surroundings :=
  { plainly with
    valueOf := fun name =>
      if name = Variable.verbosity.name then some "error"
      else if name = againstColor then some "1"
      else none
    terminal := true }

/-- A disk with a document that has an issue. -/
def shelf : Disk := .ofList [(⟨"/w/c"⟩, some (.file (Utf8.encode "REPO_CONFIGS[app]=\"make\"")))] []

theorem display_inert_quiet :
    (Run.report plainly (.validate false) {} "c" shelf).SameEffect
        (Run.report quietly (.validate false) {} "c" shelf) ∧
      Run.Abridges plainly quietly {} {} (.validate false) "c" shelf := by
  have alike : Alike plainly quietly {} {} :=
    { place := rfl
      bundled := rfl
      dryRun := rfl
      template := by decide
      verbosity := Or.inr ⟨nofun, fun received given => by
        obtain rfl : "error".toList = received := Option.some.inj given
        decide⟩
      format := Or.inl (by decide)
      debug := Or.inl (by decide) }
  have stricter : Display.Stricter (Run.shown plainly {}) (Run.shown quietly {}) :=
    { format := by decide +kernel
      color := by decide +kernel
      rank := by decide +kernel }
  obtain ⟨same, -, abridges⟩ := Run.display_inert alike (.validate false) "c" shelf
  exact ⟨same, abridges stricter⟩

end Appearance

end ConfigUpkeep
