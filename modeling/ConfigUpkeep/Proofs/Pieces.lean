/-
# ConfigUpkeep.Proofs.Pieces -- the pieces of a text

How a text that was put together from lines is cut again.  A text is *flat* if it holds no
character that ends a segment.  Cutting a document into lines and cutting it into segments are
the same where the lines are flat (`segments_unlines`).
-/
import ConfigUpkeep.Text
import ConfigUpkeep.Proofs.Lists

namespace ConfigUpkeep.Text

set_option autoImplicit false

/-! ## Texts without a line end -/

/-- The text holds no character that ends a segment. -/
def Flat (t : Text) : Prop := ∀ c ∈ t, endsLine c = false

instance (t : Text) : Decidable t.Flat := List.decidableBAll (fun c => endsLine c = false) t

theorem flat_nil : Flat [] := by simp [Flat]

theorem flat_cons {c : Char} {t : Text} : Flat (c :: t) ↔ endsLine c = false ∧ Flat t := by
  simp [Flat]

theorem flat_append {s t : Text} : Flat (s ++ t) ↔ Flat s ∧ Flat t := by
  simp [Flat, or_imp, forall_and]

/-- A flat text holds no line feed. -/
theorem not_mem_of_flat {t : Text} (flat : Flat t) : '\n' ∉ t := by
  intro member
  exact absurd (flat '\n' member) (by decide)

/-! ## Lines put together -/

/-- Where only line feeds end a segment, a part of the text without one is flat. -/
theorem flat_of_not_mem {s t : Text} (feeds : ∀ c ∈ t, endsLine c = true → c = '\n')
    (among : ∀ c ∈ s, c ∈ t) (free : '\n' ∉ s) : s.Flat := by
  intro c inside
  cases ends : endsLine c with
  | false => rfl
  | true =>
      obtain rfl := feeds c (among c inside) ends
      exact absurd inside free

theorem flat_of_mem_lines {l t : Text} (feeds : ∀ c ∈ t, endsLine c = true → c = '\n')
    (member : l ∈ t.lines) : l.Flat := by
  obtain ⟨free, kept⟩ := List.of_mem_splitOn member
  exact flat_of_not_mem feeds kept free

theorem unlines_singleton (l : Text) : unlines [l] = l := by simp [unlines]

theorem unlines_cons_cons (l m : Text) (ls : List Text) :
    unlines (l :: m :: ls) = l ++ '\n' :: unlines (m :: ls) := by
  simp [unlines, List.intercalate]

/-- A text of lines starts with a character other than a line feed if its first line does. -/
theorem head?_unlines_iff {c : Char} {ls : List Text} (solid : c ≠ '\n') :
    (unlines ls).head? = some c ↔ ∃ l, ls.head? = some l ∧ l.head? = some c := by
  cases ls with
  | nil => simp [unlines]
  | cons l rest =>
      cases rest with
      | nil => simp [unlines_singleton]
      | cons m rest =>
          rw [unlines_cons_cons]
          cases l with
          | nil => simp [Ne.symm solid]
          | cons d l => simp

/-- A character of a text of lines is a line feed or stands on a line. -/
theorem mem_unlines {c : Char} {ls : List Text} (inside : c ∈ unlines ls) :
    c = '\n' ∨ ∃ l ∈ ls, c ∈ l := by
  induction ls with
  | nil => simp [unlines] at inside
  | cons l rest ih =>
      cases rest with
      | nil =>
          rw [unlines_singleton] at inside
          exact Or.inr ⟨l, List.mem_cons_self .., inside⟩
      | cons m rest =>
          rw [unlines_cons_cons, List.mem_append, List.mem_cons] at inside
          rcases inside with here | rfl | later
          · exact Or.inr ⟨l, List.mem_cons_self .., here⟩
          · exact Or.inl rfl
          · rcases ih later with rfl | ⟨k, member, onLine⟩
            · exact Or.inl rfl
            · exact Or.inr ⟨k, List.mem_cons_of_mem _ member, onLine⟩

/-- Where all lines are flat, only line feeds end a segment. -/
theorem eq_newline_of_mem_unlines {ls : List Text} (flat : ∀ l ∈ ls, Flat l) :
    ∀ c ∈ unlines ls, endsLine c = true → c = '\n' := by
  intro c inside ends
  rcases mem_unlines inside with rfl | ⟨l, member, onLine⟩
  · rfl
  · rw [flat l member c onLine] at ends
    cases ends

/-- A line stands in the text of lines. -/
theorem infix_unlines {l : Text} {ls : List Text} (member : l ∈ ls) : l <:+: unlines ls := by
  induction ls with
  | nil => cases member
  | cons m ls ih =>
      cases ls with
      | nil =>
          obtain rfl := List.mem_singleton.1 member
          simp [unlines_singleton]
      | cons n ls =>
          rw [unlines_cons_cons]
          rcases List.mem_cons.1 member with rfl | later
          · exact (List.prefix_append l _).isInfix
          · exact (ih later).trans ((List.suffix_cons _ _).trans (List.suffix_append m _)).isInfix

/-- No line of a text is longer than the text. -/
theorem length_le_of_mem_lines {l t : Text} (member : l ∈ t.lines) : l.length ≤ t.length := by
  have inside := (infix_unlines member).length_le
  rwa [unlines_lines] at inside

/-- Flat lines are the segments of their text. -/
theorem segments_unlines {ls : List Text} (flat : ∀ l ∈ ls, Flat l) (some_ : ls ≠ []) :
    segments (unlines ls) = ls := by
  induction ls with
  | nil => exact absurd rfl some_
  | cons l rest ih =>
      obtain ⟨here, later⟩ := List.forall_mem_cons.1 flat
      have alone : List.splitOnP endsLine l = [l] := List.splitOnP_eq_singleton here
      cases rest with
      | nil => rw [unlines_singleton, segments, alone]
      | cons m rest =>
          have back := ih later (by simp)
          rw [segments] at back ⊢
          rw [unlines_cons_cons, List.splitOnP_append_cons _ _ (by decide), alone, back]
          rfl

end ConfigUpkeep.Text
