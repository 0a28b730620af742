/-
# ConfigUpkeep.Proofs.Confluence -- every order of changes has one normal form

Normalizing, mending and migrating a document change its lines in three different ways,
and none of them changes what it says (`Revision.agrees_apply`).  So whatever is done to a
document and in whatever order, it is brought into the same layout in the end
(`Revision.normalize_applyAll`); in particular normalizing twice is normalizing once.

What is carried along a run is more than agreement with the first document.  The next
change needs a document that is read line by line, whose settings do not mention the guard
of the aliases, and whose shorthands are resolved.  The first is part of `Agrees`, and the
others follow from it (`Agrees.unguarded`, `Agrees.settled`).
-/
import ConfigUpkeep.Proofs.Agreement

namespace ConfigUpkeep

set_option autoImplicit false

/-! ## What agreeing documents have in common -/

namespace Agrees

variable {first second : Text} (agrees : Agrees first second)

include agrees

/-- A setting of the second document is one of the first, or the template's. -/
theorem value_eq_or {scalar : Scalar} {value : Text} (given : scalar.value? second = some value) :
    scalar.value? first = some value ∨ value = Template.preset scalar := by
  have same := agrees.scalars scalar
  rw [given, Option.getD_some] at same
  cases before : scalar.value? first with
  | none =>
      rw [before] at same
      exact Or.inr same
  | some own =>
      rw [before] at same
      exact Or.inl (congrArg some same.symm)

theorem unguarded (free : Layout.Unguarded (Values.settingsOf first)) :
    Layout.Unguarded (Values.settingsOf second) := by
  intro setting made
  rcases agrees.value_eq_or (Values.mem_settingsOf.1 made) with before | preset
  · exact free setting (Values.mem_settingsOf.2 before)
  · rw [preset, Template.guardsAliases_preset]

theorem settled (resolved : Alias.Settled (Alias.ofDocument first)) :
    Alias.Settled (Alias.ofDocument second) := by
  rwa [agrees.aliases]

end Agrees

/-- Values that differ at most in making a setting of the template or not making it fill the
template alike. -/
theorem Template.filled_congr {first second : Values} (aliases : second.aliases = first.aliases)
    (entries : second.entries = first.entries)
    (scalars : ∀ scalar, (Setting.valueIn? second.settings scalar).getD (preset scalar) =
      (Setting.valueIn? first.settings scalar).getD (preset scalar)) :
    filled second = filled first := by
  have settings : beforeGuard.map (Layout.substitute second.settings) =
      beforeGuard.map (Layout.substitute first.settings) := by
    refine List.map_congr_left fun l member => ?_
    rcases isRemark_or_preset l member with remark | ⟨scalar, rfl⟩
    · have mute := Line.mute_of_isRemark remark
      rw [substitute_of_mute _ mute, substitute_of_mute _ mute]
    · rw [Layout.substitute_assignment, Layout.substitute_assignment, scalars]
  rw [filled, filled, settings, aliases, entries]

/-- **Documents that agree are normalized alike.** -/
theorem Agrees.normalize_eq {first second : Text} (agrees : Agrees first second)
    (free : Layout.Unguarded (Values.settingsOf first)) :
    Layout.normalize second Template.text = Layout.normalize first Template.text := by
  have scalars (scalar : Scalar) :
      (Setting.valueIn? (Values.ofDocument second).settings scalar).getD (Template.preset scalar) =
        (Setting.valueIn? (Values.ofDocument first).settings scalar).getD
          (Template.preset scalar) := by
    have left := Values.valueIn?_settingsOf second scalar
    have right := Values.valueIn?_settingsOf first scalar
    rw [Values.ofDocument, left, Values.ofDocument, right]
    exact agrees.scalars scalar
  have same : Template.filled (Values.ofDocument second) =
      Template.filled (Values.ofDocument first) :=
    Template.filled_congr agrees.aliases (funext agrees.entries) scalars
  rw [Layout.normalize, Layout.normalize, Layout.fill_text (agrees.unguarded free),
    Layout.fill_text free, same]

/-! ## One change -/

/-- What a document says that is read line by line can be filled in. -/
theorem LineStructured.legible {document : Text} (structured : LineStructured document)
    (free : Layout.Unguarded (Values.settingsOf document)) :
    (Values.ofDocument document).Legible := by
  have aliases := Alias.flat_of_mem structured
  refine Values.legible_ofDocument aliases (fun category entry member => ?_) free
  obtain ⟨raw, found, rfl⟩ := List.mem_map.1 member
  have flat := Entry.flat_of_mem structured found
  rcases Alias.resolveKey_eq_or (Alias.ofDocument document) raw.key with same | ⟨a, defined, short⟩
  · rwa [Alias.resolveEntry, same]
  · rw [Alias.resolveEntry, short]
    exact ⟨(aliases a defined).1, flat.2⟩

namespace Layout

/-- **Normalizing keeps what a document says**, where shorthands are resolved already. -/
theorem agrees_normalize {document : Text} (structured : LineStructured document)
    (free : Unguarded (Values.settingsOf document))
    (settled : Alias.Settled (Alias.ofDocument document)) :
    Agrees document (normalize document Template.text) := by
  have legible := structured.legible free
  have aliases := aliases_normalize legible
  refine ⟨lineStructured_fill legible, aliases, fun category => ?_, fun scalar => ?_⟩
  · have entries := entries_fill legible (.keyed category)
    rw [Values.entriesOf, aliases, normalize, entries]
    exact Alias.map_resolveEntry settled _
  · rw [value?_normalize legible]
    rfl

end Layout

namespace Revision

variable {document : Text}

/-- No change by the bundled template, by mending or by migrating changes what a document
says. -/
theorem agrees_apply (structured : LineStructured document)
    (free : Layout.Unguarded (Values.settingsOf document))
    (settled : Alias.Settled (Alias.ofDocument document)) {revision : Revision}
    (bundled : ∀ template, revision = .normalize template → template = Template.text) :
    Agrees document (revision.apply document) := by
  cases revision with
  | normalize template =>
      obtain rfl := bundled template rfl
      exact Layout.agrees_normalize structured free settled
  | mend => exact Repair.agrees_check structured
  | migrate =>
      rw [apply, Migration.ofDocument?]
      split
      · exact Agrees.refl structured
      · exact Migration.agrees_apply structured settled

/-! ## All orders of changes -/

/-- What the document says is kept along every run of changes. -/
theorem agrees_applyAll (structured : LineStructured document)
    (free : Layout.Unguarded (Values.settingsOf document))
    (settled : Alias.Settled (Alias.ofDocument document)) {revisions : List Revision}
    (bundled : ∀ template, .normalize template ∈ revisions → template = Template.text) :
    Agrees document (applyAll revisions document) := by
  -- The document changes at every step, so the induction is for all documents.
  induction revisions generalizing document with
  | nil => exact Agrees.refl structured
  | cons revision rest ih =>
      have here : Agrees document (revision.apply document) :=
        agrees_apply structured free settled fun template same =>
          bundled template (same ▸ List.mem_cons_self ..)
      have later : ∀ template, .normalize template ∈ rest → template = Template.text :=
        fun template member => bundled template (List.mem_cons_of_mem _ member)
      exact here.trans (ih here.structured (here.unguarded free) (here.settled settled) later)

/-- **Confluence**: after any changes in any order the document is normalized to what it was
normalized to before them. -/
theorem normalize_applyAll (structured : LineStructured document)
    (free : Layout.Unguarded (Values.settingsOf document))
    (settled : Alias.Settled (Alias.ofDocument document)) {revisions : List Revision}
    (bundled : ∀ template, .normalize template ∈ revisions → template = Template.text) :
    Layout.normalize (applyAll revisions document) Template.text =
      Layout.normalize document Template.text :=
  (agrees_applyAll structured free settled bundled).normalize_eq free

/-- A document that keys a table by a canonical name and declares nothing, mended, migrated,
and normalized in between. -/
theorem normalize_applyAll_canonical :
    let document : Text := Text.unlines
      [Entry.assignment .aliases ⟨"a", "App"⟩, Entry.assignment (.keyed .ci) ⟨"App", "make||"⟩]
    Layout.normalize
        (applyAll [.mend, .migrate, .normalize Template.text, .migrate, .mend] document)
        Template.text =
      Layout.normalize document Template.text := by
  intro document
  have structured : LineStructured document := by
    refine .unlines ?_ ?_ (by simp)
    · decide
    · intro line member
      simp only [List.mem_cons, List.not_mem_nil, or_false] at member
      rcases member with rfl | rfl
      · exact Entry.whole_of_writable (by decide) .aliases
      · exact Entry.whole_of_writable (by decide) (.keyed .ci)
  refine normalize_applyAll structured (by decide +kernel) (by decide +kernel) ?_
  simp

end Revision

end ConfigUpkeep
