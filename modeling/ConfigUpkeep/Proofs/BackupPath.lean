/-
# ConfigUpkeep.Proofs.BackupPath -- where backups stand

The path of a backup ends in the name made for it (`fileName_path`), so it is never the
path of the document (`path_ne`): writing the one leaves the other alone.

Neither the word for a kind nor a stamp holds a point or a slash.  So the parts of the
name can be read off it again, and backups under one path were made for documents of one
name, by one command, under one stamp (`of_path_eq`).

Beside a canonical path more is known: the backup stands in the same directory
(`beside_path`), and its path is the path of the document with something behind it
(`path_eq`).  So the path of a backup tells the document, the kind and the second
(`path_eq_path_iff`).
-/
import ConfigUpkeep.Backup
import ConfigUpkeep.Proofs.CanonicalPaths
import ConfigUpkeep.Proofs.Stamps

namespace ConfigUpkeep

set_option autoImplicit false

namespace Backup

theorem Kind.not_mem_name (kind : Kind) {c : Char} (other : c ∈ ['.', '/']) : c ∉ kind.name := by
  simp only [List.mem_cons, List.not_mem_nil, or_false] at other
  rcases other with rfl | rfl <;> cases kind <;> decide

theorem Kind.name_inj {a b : Kind} (same : a.name = b.name) : a = b := by
  have back := ofName?_name a
  rw [same, ofName?_name] at back
  exact (Option.some.inj back).symm

/-! ## The name of a backup -/

/-- The parts of a backup's name can be read off it. -/
theorem fileName_inj {name other : Text} {kind asked : Kind} {now later : Instant}
    (same : fileName name kind now = fileName other asked later) :
    name = other ∧ kind = asked ∧ now.stamp = later.stamp := by
  have shape (name : Text) (kind : Kind) (now : Instant) :
      fileName name kind now = (name ++ '.' :: kind.name ++ ".backup".toList) ++ '.' :: now.stamp := by
    simp [fileName]
  rw [shape, shape] at same
  obtain ⟨front, stamps⟩ := List.append_cons_inj_of_not_mem (now.not_mem_stamp (by simp))
    (later.not_mem_stamp (by simp)) same
  obtain ⟨names, kinds⟩ := List.append_cons_inj_of_not_mem (kind.not_mem_name (by simp))
    (asked.not_mem_name (by simp)) (List.append_cancel_right front)
  exact ⟨names, Kind.name_inj kinds, stamps⟩

theorem isName_fileName {name : Text} (noSlash : '/' ∉ name) (kind : Kind) (now : Instant) :
    Path.IsName (fileName name kind now) := by
  have kind_ := kind.not_mem_name (c := '/') (by simp)
  have stamp_ := now.not_mem_stamp (c := '/') (by simp)
  constructor
  · simp [fileName]
  · simp [fileName, noSlash, kind_, stamp_]

theorem length_lt_fileName (name : Text) (kind : Kind) (now : Instant) :
    name.length + 2 < (fileName name kind now).length := by
  simp [fileName]
  omega

theorem isStep_fileName {name : Text} (noSlash : '/' ∉ name) (kind : Kind) (now : Instant) :
    Path.IsStep (fileName name kind now) := by
  have long := length_lt_fileName name kind now
  refine ⟨isName_fileName noSlash kind now, fun same => ?_, fun same => ?_⟩
  · rw [same, show Path.here.length = 1 from rfl] at long
    omega
  · rw [same, show Path.above.length = 2 from rfl] at long
    omega

end Backup

namespace Path

theorem not_mem_fileName (path : Path) : '/' ∉ path.fileName := by
  rw [fileName]
  cases last : path.names.getLast? with
  | none => simp
  | some name => exact (isName_of_mem_names (List.mem_of_getLast? last)).2

end Path

namespace Backup

/-! ## The path of a backup -/

variable (directory target : Path) (kind : Kind) (now : Instant)

/-- The path of a backup ends in the backup's name. -/
theorem fileName_path :
    (path directory target kind now).fileName = fileName target.fileName kind now :=
  Path.fileName_sibling _ _ (isStep_fileName target.not_mem_fileName kind now)

/-- **A backup never stands where the document stands.** -/
theorem path_ne : path directory target kind now ≠ target := by
  intro same
  have longer := length_lt_fileName target.fileName kind now
  have ends := fileName_path directory target kind now
  rw [same] at ends
  rw [← ends] at longer
  omega

variable {directory target kind now}

/-- **Backups under one path** were made for documents of one name, by one command, and under
one stamp. -/
theorem of_path_eq {elsewhere other : Path} {asked : Kind} {later : Instant}
    (same : path directory target kind now = path elsewhere other asked later) :
    target.fileName = other.fileName ∧ kind = asked ∧ now.stamp = later.stamp := by
  have names := fileName_path directory target kind now
  rw [same, fileName_path] at names
  exact fileName_inj names.symm

/-! ## Backups beside canonical paths -/

/-- The backup stands in the directory of the document, and not where the document stands. -/
structure Beside (target backup : Path) : Prop where
  directory : backup.parent = target.parent
  apart : backup ≠ target

variable (directory kind now)

theorem canonical_path : (path directory target kind now).Canonical :=
  Path.canonical_absolute _ _

theorem beside_path (canonical : target.Canonical) :
    Beside target (path directory target kind now) := by
  have leads := isStep_fileName target.not_mem_fileName kind now
  have all : ∀ name ∈ target.names.dropLast ++ [fileName target.fileName kind now],
      Path.IsName name :=
    List.forall_mem_append.2
      ⟨fun name member => Path.isName_of_mem_names (List.dropLast_subset _ member),
        List.forall_mem_singleton.2 leads.1⟩
  refine ⟨?_, path_ne _ _ _ _⟩
  rw [path, canonical.sibling_eq directory leads, Path.parent_of_rooted rfl, Path.names_ofNames all,
    List.dropLast_concat, Path.parent_of_rooted canonical.isRooted]

/-- Behind the path of a document stand the kind of its backup and a stamp. -/
theorem path_eq (canonical : target.Canonical) (bare : target.endsInSlash = false) :
    path directory target kind now = ⟨fileName target.spelling kind now⟩ := by
  obtain ⟨spelled, some_⟩ := canonical.eq_ofNames bare
  have leads := isStep_fileName target.not_mem_fileName kind now
  obtain ⟨front, written⟩ := Path.exists_joined_append_singleton target.names.dropLast
  have last : target.names.dropLast ++ [target.fileName] = target.names := by
    rw [Path.fileName, List.getLast?_eq_getLast_of_ne_nil some_]
    exact List.dropLast_concat_getLast some_
  have whole : target.spelling = '/' :: (front ++ target.fileName) := by
    rw [← written, last]
    exact congrArg Path.spelling spelled
  rw [path, canonical.sibling_eq directory leads, Path.ofNames, written, whole]
  simp [fileName]

/-- **Backups stand under one path only where they have to.**  Of documents whose paths users
give without a slash at the end, and at instants with a date, two backups stand under one path
exactly if they are of one document, of one kind, and of one second.  The backup of any document
that users name stands beside it, and so does the backup of a backup. -/
theorem path_eq_path_iff :
    (∀ target other : Path, target.IsMeant → other.IsMeant →
      target.endsInSlash = false → other.endsInSlash = false →
      ∀ (directory elsewhere : Path) (kind asked : Kind) (now later : Instant),
        now.isDated = true → later.isDated = true →
          (path directory target kind now = path elsewhere other asked later ↔
            target = other ∧ kind = asked ∧ now.wholeSeconds = later.wholeSeconds)) ∧
      ∀ target : Path, target.IsMeant → ∀ (directory : Path) (kind : Kind) (now : Instant),
        Beside target (path directory target kind now) ∧
          ∀ (elsewhere : Path) (asked : Kind) (later : Instant),
            Beside (path directory target kind now)
              (path elsewhere (path directory target kind now) asked later) := by
  refine ⟨fun target other meant meant_ bare bare_ directory elsewhere kind asked now later dated
    dated_ => ?_, fun target meant directory kind now => ⟨?_, fun elsewhere asked later => ?_⟩⟩
  · rw [path_eq directory kind now meant.canonical bare,
      path_eq elsewhere asked later meant_.canonical bare_, Path.mk.injEq]
    constructor
    · intro same
      obtain ⟨spelled, kinds, stamps⟩ := fileName_inj same
      exact ⟨(Path.mk.injEq ..).mpr spelled, kinds, (Instant.stamp_eq_iff dated dated_).1 stamps⟩
    · rintro ⟨rfl, rfl, seconds⟩
      rw [fileName, fileName, (Instant.stamp_eq_iff dated dated_).2 seconds]
  · exact beside_path directory kind now meant.canonical
  · exact beside_path elsewhere asked later (canonical_path directory kind now)

/-- A document that is named like a backup, and the milliseconds at either end of one second
before the year 0. -/
theorem path_eq_path_iff_before_year_zero :
    let target : Path := ⟨"/w/c.migrated.backup.-1123_000000"⟩
    let now : Instant := ⟨-62198755200001⟩
    let later : Instant := ⟨-62198755201000⟩
    (target.IsMeant ∧ target.endsInSlash = false ∧ now.isDated = true ∧ later.isDated = true) ∧
      path ⟨"/w"⟩ target .migrated now = path ⟨"/"⟩ target .migrated later := by
  intro target now later
  have meant : target.IsMeant :=
    ⟨⟨"/w"⟩, "c.migrated.backup.-1123_000000", Path.ofUser_eq_ok.2 (by decide +kernel)⟩
  have bare : target.endsInSlash = false := by decide +kernel
  have dated : now.isDated = true := by decide
  have dated_ : later.isDated = true := by decide
  have one := path_eq_path_iff.1 target target meant meant bare bare ⟨"/w"⟩ ⟨"/"⟩ .migrated
    .migrated now later dated dated_
  exact ⟨⟨meant, bare, dated, dated_⟩, one.2 ⟨rfl, rfl, by decide⟩⟩

end Backup

end ConfigUpkeep
