/-
# ConfigUpkeep.Proofs.Fidelity -- what a backup holds of the document

A backup is written from the text that was loaded, not from the bytes of the document.  So a
run that replaces a document keeps the UTF-8 bytes of what the document's bytes spell
(`Run.node?_backup`), and that is the content of the document exactly if the content is the
bytes of a text without a byte order mark at its front (`Run.backup_eq_iff`).

A mark at the front is not in the backup, and a byte that spells no character is not in it
either.  `Fidelity.not_faithful` is a migration that loses a mark, although nothing is
refused and the run succeeds.
-/
import ConfigUpkeep.Proofs.AllOrBackup
import ConfigUpkeep.Proofs.Utf8RoundTrip

namespace ConfigUpkeep

set_option autoImplicit false

namespace Run

section

variable {surroundings : Surroundings} {command : Command} {flags : Flags} {document : Text}
  {before : Disk} {target : Path}
  (meant : Path.ofUser surroundings.place.directory document = .ok target)
  (written : target ∈ (report surroundings command flags document before).written)

include meant written

/-- The backup of a run that replaces a document holds the bytes of the text loaded from it. -/
theorem node?_backup : ∃ content, before.node? target = some (.file content) ∧
    (report surroundings command flags document before).disk.node?
      (command.backupPath surroundings.place target) =
        some (.file (Utf8.encode (Utf8.decode content))) := by
  have course := report_allOrBackup surroundings command flags document before
  obtain ⟨_, plan, _, _, _, loads, _, _, _, kept, _⟩ := course.replaced target meant written
  obtain ⟨content, found, spelt⟩ := Disk.exists_of_load loads
  refine ⟨content, found, ?_⟩
  rw [kept, spelt]

/-- **When a backup is faithful.**  The backup of a run that replaces a document holds what the
document held, byte for byte, if and only if the document held the bytes of a text that does
not start with a byte order mark. -/
theorem backup_eq_iff :
    (report surroundings command flags document before).disk.node?
        (command.backupPath surroundings.place target) = before.node? target ↔
      ∃ text, before.node? target = some (.file (Utf8.encode text)) ∧
        text.head? ≠ some Utf8.mark := by
  obtain ⟨content, found, kept⟩ := node?_backup meant written
  rw [kept, found, Option.some_inj, Node.file.injEq, Utf8.encode_decode_iff]
  constructor
  · rintro ⟨text, rfl, unmarked⟩
    exact ⟨text, rfl, unmarked⟩
  · rintro ⟨text, same, unmarked⟩
    exact ⟨text, (Node.file.inj (Option.some.inj same)).symm, unmarked⟩

end

end Run

/-! ## A faithful backup, and one that is not -/

namespace Fidelity

/-- The directory `/w` on the fifth of January 2026, 07:08:09. -/
def surroundings : Surroundings where
  place := ⟨⟨"/w"⟩, ⟨1767596889000⟩⟩
  valueOf _ := none
  terminal := false
  template := ⟨"/w/templates/config.zsh.example"⟩

/-- A disk with one file and no faults. -/
def shelf (content : Bytes) : Disk := .ofList [(⟨"/w/c"⟩, some (.file content))] []

/-- What a migration of the file leaves behind. -/
def migrated (content : Bytes) : Report := Run.report surroundings .migrate {} "c" (shelf content)

def backup : Path := ⟨"/w/c.migrated.backup.20260105_070809"⟩

/-- Characters of two, three and four bytes are kept, and so is a mark behind the front. -/
theorem backup_eq_iff_multibyte :
    let content := Utf8.encode "# é€\uFEFF😀"
    (migrated content).disk.node? backup = some (.file content) := by
  intro content
  have meant : Path.ofUser surroundings.place.directory "c" = .ok ⟨"/w/c"⟩ :=
    Path.ofUser_eq_ok.2 (by decide +kernel)
  have written : (⟨"/w/c"⟩ : Path) ∈ (migrated content).written := by decide +kernel
  have found : (shelf content).node? ⟨"/w/c"⟩ = some (.file content) := by decide +kernel
  have beside : Command.migrate.backupPath surroundings.place ⟨"/w/c"⟩ = backup := by
    decide +kernel
  have same := (Run.backup_eq_iff meant written).2 ⟨"# é€\uFEFF😀", found, by decide⟩
  rwa [beside, found] at same

/-- **A backup need not be faithful**, even if nothing is refused and the run succeeds: the
mark at the front of a document is in no backup. -/
theorem not_faithful :
    ¬ ∀ (surroundings : Surroundings) (command : Command) (flags : Flags) (document : Text)
      (before : Disk) (target : Path),
      (∀ operation place, before.refuses operation place = false) →
      Path.ofUser surroundings.place.directory document = .ok target →
      (Run.report surroundings command flags document before).failure = none →
      target ∈ (Run.report surroundings command flags document before).written →
      (Run.report surroundings command flags document before).disk.node?
        (command.backupPath surroundings.place target) = before.node? target := by
  intro faithful
  have nothing : ∀ operation place,
      (shelf (Utf8.encode "\uFEFFold")).refuses operation place = false := by
    intro operation place
    rfl
  have same := faithful surroundings .migrate {} "c" (shelf (Utf8.encode "\uFEFFold")) ⟨"/w/c"⟩
    nothing (Path.ofUser_eq_ok.2 (by decide +kernel)) (by decide +kernel) (by decide +kernel)
  have kept : (migrated (Utf8.encode "\uFEFFold")).disk.node? backup =
      some (.file (Utf8.encode "old")) := by
    decide +kernel
  have beside : Command.migrate.backupPath surroundings.place ⟨"/w/c"⟩ = backup := by
    decide +kernel
  rw [beside] at same
  exact absurd (kept.symm.trans same) (by decide +kernel)

/-- A byte that spells no character is not in the backup either. -/
example : (migrated [0xFF]).disk.node? backup = some (.file (Utf8.encode "\uFFFD")) := by
  decide +kernel

end Fidelity

end ConfigUpkeep
