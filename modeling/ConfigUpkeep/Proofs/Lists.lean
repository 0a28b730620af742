/-
# ConfigUpkeep.Proofs.Lists -- laws of lists

What the other modules need to know about lists and the library does not say.  Nothing here is
about texts or documents: the elements are of any type.

* Cutting: what a test lets pass at the front of a list, and the pieces between elements that a
  test singles out.
* Searching: a block of consecutive elements, and the first element that passes a test.
* Dropping what occurs again, for a list that grows at its end (`List.map_eraseDups`).
-/
import Mathlib.Data.List.Induction

namespace List

set_option autoImplicit false

universe u v

variable {α : Type u} {β : Type v}

/-! ## The front of a list -/

section

variable {p : α → Bool} {front rest : List α} (kept : ∀ a ∈ front, p a = true)
  (stops : ∀ a ∈ rest.head?, p a = false)

include kept stops

/-- What a test lets pass is the front, if it passes the test and what follows does not begin so. -/
theorem takeWhile_append_of_head? : (front ++ rest).takeWhile p = front := by
  rw [takeWhile_append_of_pos kept]
  cases rest with
  | nil => simp
  | cons a rest => simp [stops a rfl]

theorem dropWhile_append_of_head? : (front ++ rest).dropWhile p = rest := by
  rw [dropWhile_append_of_pos kept]
  cases rest with
  | nil => rfl
  | cons a rest => simp [stops a rfl]

end

/-- The first element that a test leaves does not pass it. -/
theorem eq_false_of_mem_head?_dropWhile {p : α → Bool} {l : List α} {a : α}
    (first : a ∈ (l.dropWhile p).head?) : p a = false := by
  have stops := head?_dropWhile_not p l
  rw [Option.mem_def.1 first] at stops
  simpa using stops

/-! ## Pieces -/

/-- A piece of a list cut at some elements is without them, and holds elements of the list. -/
theorem of_mem_splitOnP {p : α → Bool} {l piece : List α} (member : piece ∈ l.splitOnP p) :
    (∀ a ∈ piece, p a = false) ∧ ∀ a ∈ piece, a ∈ l := by
  induction l generalizing piece with
  | nil =>
      obtain rfl : piece = [] := by simpa using member
      simp
  | cons b l ih =>
      rw [splitOnP_cons_eq_if_modifyHead] at member
      obtain ⟨first, others, cut⟩ := exists_cons_of_ne_nil (splitOnP_ne_nil p l)
      rw [cut] at member ih
      split at member
      · rcases mem_cons.1 member with rfl | later
        · simp
        · obtain ⟨free, kept⟩ := ih later
          exact ⟨free, fun a inside => mem_cons_of_mem _ (kept a inside)⟩
      · rename_i goes
        rcases mem_cons.1 member with rfl | later
        · obtain ⟨free, kept⟩ := ih (mem_cons_self ..)
          constructor
          · intro a inside
            rcases mem_cons.1 inside with rfl | inside
            · simpa using goes
            · exact free a inside
          · intro a inside
            rcases mem_cons.1 inside with rfl | inside
            · exact mem_cons_self ..
            · exact mem_cons_of_mem _ (kept a inside)
        · obtain ⟨free, kept⟩ := ih (mem_cons_of_mem _ later)
          exact ⟨free, fun a inside => mem_cons_of_mem _ (kept a inside)⟩

/-- A piece of a list cut at an element is without it, and holds elements of the list. -/
theorem of_mem_splitOn [BEq α] [LawfulBEq α] {sep : α} {l piece : List α}
    (member : piece ∈ l.splitOn sep) : sep ∉ piece ∧ ∀ a ∈ piece, a ∈ l := by
  rw [splitOn_eq_splitOnP] at member
  obtain ⟨free, kept⟩ := of_mem_splitOnP member
  refine ⟨fun inside => ?_, kept⟩
  have := free sep inside
  simp at this

/-! ## Consecutive elements -/

section

variable {p s t : List α} {x : α}

/-- What does not hold an element stands at the front before the element, or not at all. -/
theorem prefix_append_cons_iff (apart : x ∉ p) : p <+: s ++ x :: t ↔ p <+: s := by
  constructor
  · intro front
    rcases prefix_or_prefix_of_prefix front (prefix_append s (x :: t)) with short | ⟨more, rfl⟩
    · exact short
    · rw [prefix_append_right_inj] at front
      cases more with
      | nil => simp
      | cons y more =>
          obtain ⟨rfl, -⟩ := cons_prefix_cons.1 front
          simp at apart
  · intro front
    exact front.trans (prefix_append s (x :: t))

/-- What does not hold an element stands before the element or behind it. -/
theorem infix_append_cons_iff (apart : x ∉ p) : p <:+: s ++ x :: t ↔ p <:+: s ∨ p <:+: t := by
  induction s with
  | nil =>
      have nothing : p <+: x :: t ↔ p = [] := by
        rw [← prefix_nil]
        exact prefix_append_cons_iff (s := []) apart
      rw [nil_append, infix_cons_iff, nothing, infix_nil]
  | cons y s ih =>
      rw [cons_append, infix_cons_iff, infix_cons_iff, ih, or_assoc, ← cons_append,
        prefix_append_cons_iff apart]

/-- What starts with an element is not found earlier than the element. -/
theorem cons_infix_append_iff (apart : x ∉ s) : x :: p <:+: s ++ t ↔ x :: p <:+: t := by
  induction s with
  | nil => rfl
  | cons y s ih =>
      have here : x ≠ y := by
        rintro rfl
        exact apart (mem_cons_self ..)
      have later : x ∉ s := fun inside => apart (mem_cons_of_mem _ inside)
      rw [cons_append, infix_cons_iff, cons_prefix_cons, ih later]
      simp [here]

/-- What is behind the last occurrence of an element, and what is before it, are determined. -/
theorem append_cons_inj_of_not_mem {a b : List α} (left : x ∉ a) (right : x ∉ b)
    (same : s ++ x :: a = t ++ x :: b) : s = t ∧ a = b := by
  induction s generalizing t with
  | nil =>
      cases t with
      | nil => exact ⟨rfl, (cons.inj same).2⟩
      | cons y t =>
          have inside : x ∈ a := by
            rw [(cons.inj same).2]
            exact mem_append_right _ (mem_cons_self ..)
          exact absurd inside left
  | cons y s ih =>
      cases t with
      | nil =>
          have inside : x ∈ b := by
            rw [← (cons.inj same).2]
            exact mem_append_right _ (mem_cons_self ..)
          exact absurd inside right
      | cons z t =>
          obtain ⟨first, others⟩ := cons.inj same
          obtain ⟨front, back⟩ := ih others
          exact ⟨by rw [first, front], back⟩

end

/-! ## First occurrences -/

/-- What is found in the front comes before what is not. -/
theorem findIdx_append_lt {p q : α → Bool} {front : List α} (found : ∃ a ∈ front, p a = true)
    (missing : ∀ a ∈ front, q a = false) (back : List α) :
    (front ++ back).findIdx p < (front ++ back).findIdx q := by
  have first : front.findIdx p < front.length := findIdx_lt_length_of_exists found
  have second : front.findIdx q = front.length := findIdx_eq_length_of_false missing
  rw [findIdx_append, findIdx_append, if_pos first, second, if_neg (Nat.lt_irrefl _)]
  omega

/-! ## What occurs again -/

section

variable [BEq α] [LawfulBEq α] [BEq β] [LawfulBEq β]

theorem eraseDups_append_of_mem {l : List α} {a : α} (known : a ∈ l) :
    (l ++ [a]).eraseDups = l.eraseDups := by
  rw [eraseDups_append]
  simp [removeAll, known]

theorem eraseDups_append_of_not_mem {l : List α} {a : α} (fresh : a ∉ l) :
    (l ++ [a]).eraseDups = l.eraseDups ++ [a] := by
  rw [eraseDups_append]
  simp [removeAll, fresh, eraseDups_cons]

/-- Where no two elements become equal, it does not matter whether what occurs again is dropped
before or after. -/
theorem map_eraseDups {f : α → β} {l : List α} (inj : ∀ a ∈ l, ∀ b ∈ l, f a = f b → a = b) :
    l.eraseDups.map f = (l.map f).eraseDups := by
  induction l using reverseRecOn with
  | nil => rfl
  | append_singleton l a ih =>
      have earlier := ih fun b there c here =>
        inj b (mem_append_left _ there) c (mem_append_left _ here)
      have known : f a ∈ l.map f ↔ a ∈ l := by
        constructor
        · intro again
          obtain ⟨b, there, same⟩ := mem_map.1 again
          rwa [← inj b (mem_append_left _ there) a (by simp) same]
        · exact mem_map_of_mem
      rw [map_append, map_singleton]
      by_cases again : a ∈ l
      · rw [eraseDups_append_of_mem again, eraseDups_append_of_mem (known.2 again), earlier]
      · rw [eraseDups_append_of_not_mem again, eraseDups_append_of_not_mem (mt known.1 again),
          map_append, earlier, map_singleton]

end

end List
