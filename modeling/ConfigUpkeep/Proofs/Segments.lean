/-
# ConfigUpkeep.Proofs.Segments -- what a segment of a text can start with

A text has a segment that starts with `o` (`Text.Opens`) if it starts with `o` itself or
holds `o` behind a character that ends a segment (`Text.Within`); `Text.opens_iff` says so
for every `o` without such a character.  The second form is about consecutive characters,
and those can be followed through a text that is taken apart: at a character which `o` does
not hold (`Text.within_append_cons_iff`), and into lines (`Text.opens_unlines`).
-/
import ConfigUpkeep.Proofs.Pieces

namespace ConfigUpkeep.Text

set_option autoImplicit false

variable {p s t : Text} {x : Char}

/-- What holds no line feed stands on a line. -/
theorem exists_line_of_infix (apart : '\n' ∉ p) (inside : p <:+: t) : ∃ l ∈ t.lines, p <:+: l := by
  have onLine : ∀ ls : List Text, ls ≠ [] → p <:+: unlines ls → ∃ l ∈ ls, p <:+: l := by
    intro ls some_ found
    induction ls with
    | nil => exact absurd rfl some_
    | cons l ls ih =>
        cases ls with
        | nil =>
            rw [unlines_singleton] at found
            exact ⟨l, List.mem_cons_self .., found⟩
        | cons m ls =>
            rw [unlines_cons_cons, List.infix_append_cons_iff apart] at found
            rcases found with here | later
            · exact ⟨l, List.mem_cons_self .., here⟩
            · obtain ⟨k, member, there⟩ := ih (by simp) later
              exact ⟨k, List.mem_cons_of_mem _ member, there⟩
  rw [← unlines_lines t] at inside
  exact onLine t.lines (lines_ne_nil t) inside

/-! ## Segments -/

/-- Some segment of the text starts with `opening`. -/
def Opens (opening t : Text) : Prop := ∃ segment ∈ t.segments, opening <+: segment

/-- The text holds `opening` behind a character that ends a segment. -/
def Within (opening t : Text) : Prop := ∃ c, endsLine c = true ∧ c :: opening <:+: t

/-- Where a segment ends the text is cut. -/
theorem segments_append_cons (s t : Text) {c : Char} (ends : endsLine c = true) :
    segments (s ++ c :: t) = segments s ++ segments t :=
  List.splitOnP_append_cons s t ends

theorem segments_of_flat (flat : t.Flat) : segments t = [t] := List.splitOnP_eq_singleton flat

/-- A text is one segment, or it goes on behind its first segment. -/
theorem flat_or_split (t : Text) :
    t.Flat ∨ ∃ (front : Text) (c : Char) (rest : Text),
      t = front ++ c :: rest ∧ front.Flat ∧ endsLine c = true := by
  induction t with
  | nil => exact Or.inl flat_nil
  | cons d t ih =>
      cases ends : endsLine d with
      | true => exact Or.inr ⟨[], d, t, rfl, flat_nil, ends⟩
      | false =>
          rcases ih with flat | ⟨front, c, rest, rfl, flat, stops⟩
          · exact Or.inl (flat_cons.2 ⟨ends, flat⟩)
          · exact Or.inr ⟨d :: front, c, rest, rfl, flat_cons.2 ⟨ends, flat⟩, stops⟩

variable {o : Text}

theorem opens_append_cons_iff {c : Char} (ends : endsLine c = true) :
    Opens o (s ++ c :: t) ↔ Opens o s ∨ Opens o t := by
  simp [Opens, segments_append_cons s t ends, or_and_right, exists_or]

theorem opens_of_flat (flat : t.Flat) : Opens o t ↔ o <+: t := by
  simp [Opens, segments_of_flat flat]

/-- What a text starts with opens its first segment. -/
theorem opens_of_front (flat : o.Flat) (front : o <+: t) : Opens o t := by
  obtain ⟨rest, rfl⟩ := front
  rcases flat_or_split rest with alone | ⟨before, c, after, rfl, free, ends⟩
  · exact (opens_of_flat (flat_append.2 ⟨flat, alone⟩)).2 (List.prefix_append o rest)
  · rw [← List.append_assoc, opens_append_cons_iff ends, opens_of_flat (flat_append.2 ⟨flat, free⟩)]
    exact Or.inl (List.prefix_append o before)

/-- **What opens a segment** stands at the front of the text or behind the end of a segment. -/
theorem opens_iff (flat : o.Flat) : Opens o t ↔ o <+: t ∨ Within o t := by
  constructor
  · -- The induction is on the length: behind its first segment a text is a shorter one.
    induction len : t.length using Nat.strongRecOn generalizing t with
    | ind n ih =>
        intro opens
        rcases flat_or_split t with alone | ⟨front, c, rest, rfl, free, ends⟩
        · exact Or.inl ((opens_of_flat alone).1 opens)
        · rw [opens_append_cons_iff ends, opens_of_flat free] at opens
          rcases opens with first | later
          · exact Or.inl (first.trans (List.prefix_append front (c :: rest)))
          · have shorter : rest.length < n := by
              rw [← len, List.length_append, List.length_cons]
              omega
            right
            rcases ih rest.length shorter rfl later with here | ⟨d, stops, there⟩
            · exact ⟨c, ends, (List.cons_prefix_cons.2 ⟨rfl, here⟩).isInfix.trans
                (List.suffix_append front (c :: rest)).isInfix⟩
            · exact ⟨d, stops, there.trans ((List.suffix_cons c rest).trans
                (List.suffix_append front (c :: rest))).isInfix⟩
  · rintro (front | ⟨c, ends, before, after, rfl⟩)
    · exact opens_of_front flat front
    · rw [List.append_assoc, List.cons_append, opens_append_cons_iff ends]
      exact Or.inr (opens_of_front flat (List.prefix_append o after))

theorem Within.mono (within : Within o s) (inside : s <:+: t) : Within o t := by
  obtain ⟨c, ends, here⟩ := within
  exact ⟨c, ends, here.trans inside⟩

/-- A character that ends no segment and is not in `o` cuts a text in two. -/
theorem within_append_cons_iff (inner : endsLine x = false) (apart : x ∉ o) :
    Within o (s ++ x :: t) ↔ Within o s ∨ Within o t := by
  have cut (c : Char) (ends : endsLine c = true) :
      c :: o <:+: s ++ x :: t ↔ c :: o <:+: s ∨ c :: o <:+: t := by
    refine List.infix_append_cons_iff fun inside => ?_
    rcases List.mem_cons.1 inside with rfl | inside
    · rw [ends] at inner
      cases inner
    · exact apart inside
  constructor
  · rintro ⟨c, ends, here⟩
    exact ((cut c ends).1 here).imp (fun found => ⟨c, ends, found⟩) fun found => ⟨c, ends, found⟩
  · rintro (⟨c, ends, here⟩ | ⟨c, ends, here⟩)
    · exact ⟨c, ends, (cut c ends).2 (Or.inl here)⟩
    · exact ⟨c, ends, (cut c ends).2 (Or.inr here)⟩

/-- The segments of a text of lines are those of its lines. -/
theorem opens_unlines {ls : List Text} (some_ : ls ≠ []) :
    Opens o (unlines ls) ↔ ∃ l ∈ ls, Opens o l := by
  induction ls with
  | nil => exact absurd rfl some_
  | cons l ls ih =>
      cases ls with
      | nil => simp [unlines_singleton]
      | cons m ls =>
          rw [unlines_cons_cons, opens_append_cons_iff (by decide), ih (by simp)]
          simp

/-- A segment of a text starts on a line of the text. -/
theorem opens_iff_lines : Opens o t ↔ ∃ l ∈ t.lines, Opens o l := by
  rw [← opens_unlines (lines_ne_nil t), unlines_lines]

end ConfigUpkeep.Text
