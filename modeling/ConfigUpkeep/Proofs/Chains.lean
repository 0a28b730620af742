/-
# ConfigUpkeep.Proofs.Chains -- keys that are resolved twice

A key is resolved by one look-up: a canonical name becomes its shorthand, and the shorthand is
not looked up again.  So resolving a key twice gives something else than resolving it once
exactly if the key is *chained*: the shorthand that counts for it is itself a canonical name,
for which another shorthand counts (`Alias.chained_iff`).

Hence entries resolved twice are the entries resolved once exactly if no key among them is
chained, and this is so for all entries exactly if no canonical name is
(`Alias.resolves_once_iff`).  It is enough that no shorthand is a canonical name
(`Alias.not_chained_of_disjoint`), but nothing makes sure of that.  Aliases in a chain are no
conflict, and a document can define them (`Chains.not_idempotent`).
-/
import ConfigUpkeep.Proofs.Transcription

namespace ConfigUpkeep

set_option autoImplicit false

namespace Alias

/-! ## Chained keys -/

/-- The shorthand that counts for the key is a canonical name, for which another one counts. -/
def Chained (aliases : List Alias) (key : Text) : Prop :=
  ∃ middle last, shorthandOf? aliases key = some middle ∧
    shorthandOf? aliases middle = some last ∧ last ≠ middle

variable {aliases : List Alias} {key : Text}

/-- **What resolving twice does**: it changes a key once more exactly if the key is chained. -/
theorem chained_iff :
    Chained aliases key ↔ resolveKey aliases (resolveKey aliases key) ≠ resolveKey aliases key := by
  cases first : shorthandOf? aliases key with
  | none =>
      have same := resolveKey_of_none first
      rw [same, same]
      refine iff_of_false ?_ (fun differ => differ rfl)
      rintro ⟨middle, last, short, -⟩
      rw [first] at short
      cases short
  | some middle =>
      rw [resolveKey_of_some first]
      constructor
      · rintro ⟨between, last, short, next, differ⟩
        rw [first] at short
        cases short
        rwa [resolveKey_of_some next]
      · intro differ
        cases next : shorthandOf? aliases middle with
        | none => exact absurd (resolveKey_of_none next) differ
        | some last =>
            rw [resolveKey_of_some next] at differ
            exact ⟨middle, last, first, next, differ⟩

instance (aliases : List Alias) (key : Text) : Decidable (Chained aliases key) :=
  decidable_of_iff _ chained_iff.symm

/-- A chained key is a canonical name. -/
theorem exists_of_chained (chained : Chained aliases key) : ∃ a ∈ aliases, a.canonical = key := by
  obtain ⟨middle, last, short, -⟩ := chained
  obtain ⟨a, listed, named, -⟩ := exists_of_shorthandOf? short
  exact ⟨a, listed, named⟩

/-- Where no shorthand is a canonical name, no key is chained. -/
theorem not_chained_of_disjoint
    (disjoint : ∀ a ∈ aliases, ∀ b ∈ aliases, b.canonical ≠ a.shorthand) :
    ¬ Chained aliases key := by
  rintro ⟨middle, last, short, next, -⟩
  obtain ⟨a, listed, -, rfl⟩ := exists_of_shorthandOf? short
  obtain ⟨b, there, named, -⟩ := exists_of_shorthandOf? next
  exact disjoint a listed b there named

/-! ## Entries resolved twice -/

theorem resolveEntry_resolveEntry_iff (entry : Entry) :
    resolveEntry aliases (resolveEntry aliases entry) = resolveEntry aliases entry ↔
      ¬ Chained aliases entry.key := by
  simp [chained_iff, resolveEntry]

/-- Entries resolved twice are the entries resolved once exactly if no key among them is
chained. -/
theorem map_resolveEntry_iff (entries : List Entry) :
    (entries.map (resolveEntry aliases)).map (resolveEntry aliases) =
        entries.map (resolveEntry aliases) ↔
      ∀ entry ∈ entries, ¬ Chained aliases entry.key := by
  simp only [List.map_map, List.map_inj_left, Function.comp_apply, resolveEntry_resolveEntry_iff]

/-- **When resolving once is enough.**  Entries resolved twice are the entries resolved once
exactly if none of their keys is chained.  This is so for all entries exactly if no canonical name
is chained, and it is so if no shorthand is a canonical name. -/
theorem resolves_once_iff (aliases : List Alias) :
    (∀ entries : List Entry,
        (entries.map (resolveEntry aliases)).map (resolveEntry aliases) =
            entries.map (resolveEntry aliases) ↔
          ∀ entry ∈ entries, ¬ Chained aliases entry.key) ∧
      ((∀ entries : List Entry,
          (entries.map (resolveEntry aliases)).map (resolveEntry aliases) =
            entries.map (resolveEntry aliases)) ↔
        ∀ a ∈ aliases, ¬ Chained aliases a.canonical) ∧
      ((∀ a ∈ aliases, ∀ b ∈ aliases, b.canonical ≠ a.shorthand) →
        ∀ a ∈ aliases, ¬ Chained aliases a.canonical) := by
  refine ⟨map_resolveEntry_iff, ⟨fun stable a _ => ?_, fun unchained entries => ?_⟩,
    fun disjoint a _ => not_chained_of_disjoint disjoint⟩
  · have alone := (map_resolveEntry_iff [⟨a.canonical, []⟩]).1 (stable _)
    exact alone _ (List.mem_singleton_self _)
  · rw [map_resolveEntry_iff]
    intro entry _ chained
    obtain ⟨a, listed, named⟩ := exists_of_chained chained
    exact unchained a listed (named ▸ chained)

end Alias

namespace Chains

/-! ## A chain of two aliases -/

/-- The shorthand of `A` is the canonical name of another alias. -/
def links : List Alias := [⟨"b", "A"⟩, ⟨"c", "b"⟩]

/-- A document that defines the two aliases and nothing else. -/
def document : Text := Table.aliases.transcript (links.map Alias.toEntry)

def entry : Entry := ⟨"A", "make"⟩

/-- Aliases without a conflict, read off a document: a key becomes `b`, and when it is resolved
again it becomes `c`. -/
theorem not_idempotent :
    Alias.ofDocument document = links ∧ Alias.conflicts links = [] ∧
      ([entry].map (Alias.resolveEntry links)).map (Alias.resolveEntry links) ≠
        [entry].map (Alias.resolveEntry links) := by
  refine ⟨?_, by decide, by decide⟩
  rw [Alias.ofDocument, document, Table.entries_transcript _ (by decide)]
  rfl

end Chains

end ConfigUpkeep
