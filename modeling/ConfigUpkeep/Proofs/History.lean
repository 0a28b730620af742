/-
# ConfigUpkeep.Proofs.History -- backups over many runs

A history is a list of jobs done one after the other on the same disk, by the same person
or not, in any directory and at any instant.  Each job keeps at most one text, at the path
of its backup (`Job.keeps?`), and does nothing else to paths that are not its document
(`Job.node?_report`).  So a path that is no later job's document holds what the last job
with a backup there kept, or what it held before (`History.node?_after`).

A backup is therefore lost exactly when a later backup takes its path and holds another
text (`History.holds_iff`).  Stamps count seconds, so this needs a job with the same
command, on a document of the same name, in the same second; `History.not_lasting` is two
such jobs.
-/
import ConfigUpkeep.Proofs.AllOrBackup
import ConfigUpkeep.Proofs.Utf8RoundTrip

namespace ConfigUpkeep

set_option autoImplicit false

/-- A run that is to take place. -/
structure Job where
  surroundings : Surroundings
  command : Command
  flags : Flags
  document : Text

namespace Job

/-- What the job leaves behind on a disk. -/
def report (job : Job) (disk : Disk) : Report :=
  Run.report job.surroundings job.command job.flags job.document disk

/-- The path of the document, if the user can mean one. -/
def target? (job : Job) : Option Path :=
  (Path.ofUser job.surroundings.place.directory job.document).toOption

/-- Where the job keeps the old text of a document. -/
def backupPath (job : Job) (target : Path) : Path :=
  job.command.backupPath job.surroundings.place target

/-- The text that the job keeps at a path: the text of its document, if the path is that of
its backup and was written. -/
def keeps? (job : Job) (path : Path) (disk : Disk) : Option Text :=
  match job.target? with
  | none => none
  | some target =>
      if path = job.backupPath target ∧ path ∈ (job.report disk).written then
        (disk.load .config target).toOption
      else none

variable {job : Job} {disk : Disk} {path : Path} {text : Text}

theorem keeps?_of_unwritten (unwritten : path ∉ (job.report disk).written) :
    job.keeps? path disk = none := by
  unfold keeps?
  split
  · rfl
  · rw [if_neg]
    intro both
    exact unwritten both.2

/-- The text kept is the one loaded from the document. -/
theorem of_keeps? (kept : job.keeps? path disk = some text) :
    ∃ target, job.target? = some target ∧ path = job.backupPath target ∧
      path ∈ (job.report disk).written ∧ disk.load .config target = .ok text := by
  unfold keeps? at kept
  split at kept
  · cases kept
  · rename_i target meant
    split at kept
    · rename_i both
      refine ⟨target, meant, both.1, both.2, ?_⟩
      cases loads : disk.load .config target with
      | error failure =>
          rw [loads] at kept
          cases kept
      | ok loaded =>
          rw [loads] at kept
          exact congrArg Except.ok (Option.some.inj kept)
    · cases kept

/-- What a job kept stands at the path, if nothing else was written there. -/
theorem node?_of_plan {context : Context} {plan : Plan}
    (planned : job.command.plan job.surroundings.place context.template job.document disk =
      .ok (some plan))
    (wrote : path ∈ (job.report disk).written ↔ path = job.backupPath plan.target)
    (node : (job.report disk).disk.node? path =
      if path = job.backupPath plan.target then some (.file (Utf8.encode plan.loaded))
      else disk.node? path) :
    (job.report disk).disk.node? path =
      ((job.keeps? path disk).map fun text => .file (Utf8.encode text)).or (disk.node? path) := by
  obtain ⟨meant, loads, _⟩ := Command.of_plan planned
  by_cases beside : path = job.backupPath plan.target
  · have kept : job.keeps? path disk = some plan.loaded := by
      have target : job.target? = some plan.target := by
        rw [target?, meant]
        rfl
      rw [keeps?, target]
      show (if path = job.backupPath plan.target ∧ path ∈ (job.report disk).written then
        (disk.load .config plan.target).toOption else none) = some plan.loaded
      rw [if_pos ⟨beside, wrote.2 beside⟩, loads]
      rfl
    rw [node, if_pos beside, kept]
    rfl
  · have unwritten : path ∉ (job.report disk).written := fun member => beside (wrote.1 member)
    rw [node, if_neg beside, keeps?_of_unwritten unwritten]
    rfl

/-- **What a job does to a path that is not its document**: it keeps a text there, or leaves
the path alone. -/
theorem node?_report (elsewhere : job.target? ≠ some path) :
    (job.report disk).disk.node? path =
      ((job.keeps? path disk).map fun text => .file (Utf8.encode text)).or (disk.node? path) := by
  have alone (untouched : (job.report disk).Untouched disk) :
      (job.report disk).disk.node? path =
        ((job.keeps? path disk).map fun text => .file (Utf8.encode text)).or
          (disk.node? path) := by
    have unwritten : path ∉ (job.report disk).written := by
      rw [untouched.2]
      exact List.not_mem_nil
    rw [keeps?_of_unwritten unwritten, untouched.1]
    rfl
  have course := Run.report_course job.surroundings job.command job.flags job.document disk
  cases course with
  | refused untouched _ _ _ => exact alone untouched
  | idle untouched _ _ => exact alone untouched
  | @halfway context plan _ _ planned keeps _ _ written =>
      refine node?_of_plan planned ?_ (Disk.node?_write? keeps path)
      show path ∈ (Run.report ..).written ↔ _
      rw [written]
      exact List.mem_singleton
  | @replaced context plan kept _ _ planned keeps writes _ written =>
      have apart : path ≠ plan.target := by
        rintro rfl
        refine elsewhere ?_
        rw [target?, (Command.of_plan planned).1]
        rfl
      refine node?_of_plan planned ?_ ?_
      · show path ∈ (Run.report ..).written ↔ _
        rw [written, List.mem_cons, List.mem_singleton]
        exact or_iff_left apart
      · show (Run.report ..).disk.node? path = _
        rw [Disk.node?_write? writes, if_neg apart, Disk.node?_write? keeps]
        rfl

/-- The backups of two jobs have one name: both do the same to documents of one name, in one
second. -/
def Collides (job other : Job) : Prop :=
  job.command.kind = other.command.kind ∧
    job.surroundings.place.now.stamp = other.surroundings.place.now.stamp ∧
    job.target?.map Path.fileName = other.target?.map Path.fileName

/-- Jobs that keep a text at one path collide. -/
theorem collides_of_keeps? {other : Job} {found : Disk} {lost : Text}
    (kept : job.keeps? path disk = some text) (keptToo : other.keeps? path found = some lost) :
    job.Collides other := by
  obtain ⟨target, meant, here, _⟩ := of_keeps? kept
  obtain ⟨elsewhere, meantToo, hereToo, _⟩ := of_keeps? keptToo
  obtain ⟨names, kinds, stamps⟩ := Backup.of_path_eq (here.symm.trans hereToo)
  refine ⟨kinds, stamps, ?_⟩
  rw [meant, meantToo]
  exact congrArg some names

end Job

/-! ## Histories -/

namespace History

/-- The disk after the jobs are done, one after the other. -/
def after : List Job → Disk → Disk
  | [], disk => disk
  | job :: later, disk => after later (job.report disk).disk

/-- The text that the last of the jobs with a backup at the path keeps there. -/
def lastKept? (path : Path) : List Job → Disk → Option Text
  | [], _ => none
  | job :: later, disk =>
      (lastKept? path later (job.report disk).disk).or (job.keeps? path disk)

variable {path : Path}

theorem after_append (earlier later : List Job) (disk : Disk) :
    after (earlier ++ later) disk = after later (after earlier disk) := by
  induction earlier generalizing disk with
  | nil => rfl
  | cons job earlier ih => exact ih (job.report disk).disk

/-- What stands at a path that is no job's document is what the jobs last kept there, or what
stood there before. -/
theorem node?_after (jobs : List Job) (disk : Disk)
    (elsewhere : ∀ job ∈ jobs, job.target? ≠ some path) :
    (after jobs disk).node? path =
      ((lastKept? path jobs disk).map fun text => .file (Utf8.encode text)).or
        (disk.node? path) := by
  induction jobs generalizing disk with
  | nil => rfl
  | cons job later ih =>
      have rest := ih (job.report disk).disk fun other member =>
        elsewhere other (List.mem_cons_of_mem _ member)
      have first : (job.report disk).disk.node? path =
          ((job.keeps? path disk).map fun text => .file (Utf8.encode text)).or
            (disk.node? path) :=
        Job.node?_report (elsewhere job (List.mem_cons_self ..))
      show (after later (job.report disk).disk).node? path = _
      rw [rest, first, lastKept?]
      cases lastKept? path later (job.report disk).disk with
      | some text => rfl
      | none => rfl

/-- A text that jobs last kept is one that a job among them kept, on the disk that it found. -/
theorem of_lastKept? {jobs : List Job} {disk : Disk} {text : Text}
    (last : lastKept? path jobs disk = some text) :
    ∃ job ∈ jobs, ∃ found, job.keeps? path found = some text := by
  induction jobs generalizing disk with
  | nil => cases last
  | cons job later ih =>
      rw [lastKept?] at last
      cases rest : lastKept? path later (job.report disk).disk with
      | some other =>
          rw [rest] at last
          obtain rfl := Option.some.inj last
          obtain ⟨keeper, member, found, kept⟩ := ih rest
          exact ⟨keeper, List.mem_cons_of_mem _ member, found, kept⟩
      | none =>
          rw [rest] at last
          exact ⟨job, List.mem_cons_self .., disk, last⟩

/-- What stands at a path where a job kept a text, after later jobs on other documents. -/
theorem node?_kept {job : Job} {later : List Job} {disk : Disk} {text : Text}
    (kept : job.keeps? path disk = some text)
    (elsewhere : ∀ other ∈ later, other.target? ≠ some path) :
    (after (job :: later) disk).node? path = some (.file (Utf8.encode
      ((lastKept? path later (job.report disk).disk).getD text))) := by
  have beside : job.target? ≠ some path := by
    obtain ⟨target, meant, here, _⟩ := Job.of_keeps? kept
    rw [meant, here]
    intro same
    exact Backup.path_ne _ _ _ _ (Option.some.inj same).symm
  have stands := node?_after later (job.report disk).disk elsewhere
  rw [Job.node?_report beside, kept] at stands
  show (after later (job.report disk).disk).node? path = _
  rw [stands]
  cases lastKept? path later (job.report disk).disk with
  | some other => rfl
  | none => rfl

theorem collides_of_lastKept? {job : Job} {later : List Job} {disk found : Disk} {text other : Text}
    (kept : job.keeps? path disk = some text) (last : lastKept? path later found = some other) :
    ∃ keeper ∈ later, keeper.Collides job := by
  obtain ⟨keeper, member, _, keptToo⟩ := of_lastKept? last
  exact ⟨keeper, member, Job.collides_of_keeps? keptToo kept⟩

/-- A text that no later job collides with stays where it was kept. -/
theorem holds_of_apart {job : Job} {later : List Job} {disk : Disk} {text : Text}
    (kept : job.keeps? path disk = some text)
    (elsewhere : ∀ other ∈ later, other.target? ≠ some path)
    (apart : ∀ other ∈ later, ¬ other.Collides job) :
    (after (job :: later) disk).node? path = some (.file (Utf8.encode text)) := by
  rw [node?_kept kept elsewhere]
  cases last : lastKept? path later (job.report disk).disk with
  | none => rfl
  | some other =>
      obtain ⟨keeper, member, collides⟩ := collides_of_lastKept? kept last
      exact absurd collides (apart keeper member)

/-- **When a kept text lasts.**  In a history in which a job keeps a text and no later job
works on the backup itself, the backup holds the text in the end if and only if the last
later job with a backup at the same path, if any, kept the same text.  Such a job collides
with the first one. -/
theorem holds_iff {earlier later : List Job} {job : Job} {initial : Disk} {text : Text}
    (kept : job.keeps? path (after earlier initial) = some text)
    (elsewhere : ∀ other ∈ later, other.target? ≠ some path) :
    let found := after (earlier ++ [job]) initial
    ((after (earlier ++ job :: later) initial).node? path = some (.file (Utf8.encode text)) ↔
      ∀ other, lastKept? path later found = some other → other = text) ∧
    ∀ other, lastKept? path later found = some other → ∃ keeper ∈ later, keeper.Collides job := by
  intro found
  have here : found = (job.report (after earlier initial)).disk := after_append earlier [job] initial
  have stands := node?_kept kept elsewhere
  rw [← here] at stands
  rw [after_append, stands]
  refine ⟨?_, fun other last => collides_of_lastKept? kept last⟩
  constructor
  · intro holds other last
    rw [last] at holds
    exact Utf8.encode_inj (Node.file.inj (Option.some.inj holds))
  · intro same
    cases last : lastKept? path later found with
    | none => rfl
    | some other =>
        rw [same other last]
        rfl

/-! ## Two jobs in one second -/

/-- A job that normalizes the document `c` in the directory `/w` after a template named in the
environment. -/
def normalizing (milliseconds : Int) : Job where
  surroundings :=
    { place := ⟨⟨"/w"⟩, ⟨milliseconds⟩⟩
      valueOf := fun name => if name = Environment.Variable.template.name then some "/w/t" else none
      terminal := false
      template := ⟨"/w/templates/config.zsh.example"⟩ }
  command := .normalize
  flags := {}
  document := "c"

/-- A directory with a document and a template. -/
def shelf : Disk :=
  .ofList
    [(⟨"/w/c"⟩, some (.file (Utf8.encode "old"))), (⟨"/w/t"⟩, some (.file (Utf8.encode "new")))] []

/-- Where a job keeps the old text of `c` that starts in the ninth second after 07:08 on the
fifth of January 2026. -/
def keptAt : Path := ⟨"/w/c.normalized.backup.20260105_070809"⟩

/-- The backup of a job in another second leaves the first backup as it was. -/
theorem holds_iff_later_second :
    (after [normalizing 1767596889000, normalizing 1767596890000] shelf).node? keptAt =
      some (.file (Utf8.encode "old")) := by
  have kept : (normalizing 1767596889000).keeps? keptAt (after [] shelf) = some "old" := by
    decide +kernel
  have elsewhere : ∀ other ∈ [normalizing 1767596890000], other.target? ≠ some keptAt := by
    decide +kernel
  have alone : lastKept? keptAt [normalizing 1767596890000]
      (after ([] ++ [normalizing 1767596889000]) shelf) = none := by
    decide +kernel
  refine (holds_iff kept elsewhere).1.2 ?_
  intro other last
  rw [alone] at last
  cases last

/-- **A kept text need not last**, even if nothing is refused and every job rewrites and
succeeds: the second of two jobs in one second writes over the backup of the first one. -/
theorem not_lasting :
    ¬ ∀ (initial : Disk) (earlier later : List Job) (job : Job) (path : Path) (text : Text),
      (∀ operation place, initial.refuses operation place = false) →
      (∀ other ∈ earlier ++ job :: later,
        other.command ≠ .validate false ∧ other.flags.dryRun = false) →
      job.keeps? path (after earlier initial) = some text →
      (job.report (after earlier initial)).failure = none →
      (∀ other ∈ later, other.target? ≠ some path) →
      (after (earlier ++ job :: later) initial).node? path = some (.file (Utf8.encode text)) := by
  intro lasting
  have nothing : ∀ operation place, shelf.refuses operation place = false := by
    intro operation place
    rfl
  have held := lasting shelf [] [normalizing 1767596889999] (normalizing 1767596889000) keptAt "old"
    nothing (by decide) (by decide +kernel) (by decide +kernel) (by decide +kernel)
  have lost : (after [normalizing 1767596889000, normalizing 1767596889999] shelf).node? keptAt =
      some (.file (Utf8.encode "new")) := by
    decide +kernel
  exact absurd (lost.symm.trans held) (by decide)

end History

end ConfigUpkeep
