/-
# ConfigUpkeep.Text -- texts, their lines, and the characters that end them

A text is a list of Unicode characters, so that every statement about documents
is a statement about lists.  Two ways of cutting a text are in use, and they are
not the same:

* `Text.lines` cuts at the line feed alone.  Documents are edited line by line in
  this sense; `Text.unlines` puts the lines back, and the two are inverse
  (`unlines_lines`, `lines_unlines`).
* `Text.segments` cuts at every character of `Text.endsLine`: the line feed, the
  carriage return, and the two Unicode separators.  A setting is read off one
  segment, so a stray carriage return ends its value.

Blank space is the class `Text.isSpace`, which is wider than the ASCII blanks
(`isSpace_of_isWhitespace`).
-/

namespace ConfigUpkeep

set_option autoImplicit false

/-- A text: a list of Unicode characters. -/
abbrev Text := List Char

/-- A string literal stands for its characters. -/
instance : Coe String Text := ⟨String.toList⟩

instance (t : Text) (ts : List Text) : Decidable (t ∈ ts) := List.instDecidableMemOfLawfulBEq t ts

namespace Text

/-! ## Searching and joining -/

/-- `t.mentions needle`: the needle occurs somewhere in `t`. -/
def mentions (t needle : Text) : Bool :=
  match t with
  | [] => needle.isEmpty
  | c :: rest => needle.isPrefixOf (c :: rest) || mentions rest needle

/-- The needle occurs exactly when it is a block of consecutive characters. -/
theorem mentions_iff (t needle : Text) : t.mentions needle = true ↔ needle <:+: t := by
  induction t with
  | nil => cases needle <;> simp [mentions]
  | cons c rest ih =>
      rw [List.infix_cons_iff, mentions, Bool.or_eq_true, List.isPrefixOf_iff_prefix, ih]

/-- What is left behind a prefix is what the text goes on with. -/
theorem isPrefixOf?_eq_some {p t rest : Text} :
    p.isPrefixOf? t = some rest ↔ t = p ++ rest := by
  induction p generalizing t with
  | nil =>
      show some t = some rest ↔ t = rest
      exact Option.some_inj
  | cons c p ih =>
      cases t with
      | nil =>
          show (none : Option Text) = some rest ↔ [] = c :: (p ++ rest)
          simp
      | cons d t =>
          show (if c == d then p.isPrefixOf? t else none) = some rest ↔ d :: t = c :: (p ++ rest)
          by_cases same : c = d
          · simp [same, ih]
          · simp only [beq_iff_eq, same, if_false, reduceCtorEq, false_iff]
            intro e
            exact same (List.cons.inj e).1.symm

/-- Texts written one after another with `separator` between neighbours. -/
def joined (separator : Text) (parts : List Text) : Text :=
  separator.intercalate parts

/-! ## Lines -/

/-- The lines of a text: the pieces between its line feeds.  Never empty. -/
def lines (t : Text) : List Text := t.splitOn '\n'

/-- The text with the given lines: a line feed between neighbours, none at the end. -/
def unlines (ls : List Text) : Text := ['\n'].intercalate ls

theorem lines_ne_nil (t : Text) : lines t ≠ [] := List.splitOn_ne_nil _ _

/-- Cutting into lines loses nothing. -/
theorem unlines_lines (t : Text) : unlines (lines t) = t := List.intercalate_splitOn _

/-- Lines without a line feed are found again. -/
theorem lines_unlines {ls : List Text} (flat : ∀ l ∈ ls, '\n' ∉ l) (some_ : ls ≠ []) :
    lines (unlines ls) = ls :=
  List.splitOn_intercalate _ flat some_

/-- The characters that end a segment: line feed, carriage return, and the line
and paragraph separators. -/
def endsLine (c : Char) : Bool :=
  c = '\n' || c = '\r' || c = '\u2028' || c = '\u2029'

/-- The pieces of a text between the characters that end a segment. -/
def segments (t : Text) : List Text := t.splitOnP endsLine

/-! ## Blank space -/

/-- White space and line ends: the ASCII blanks, the no-break space, the byte order
mark, the Unicode space separators, and the two Unicode line separators. -/
def isSpace (c : Char) : Bool :=
  (0x09 ≤ c.toNat && c.toNat ≤ 0x0D) || c.toNat = 0x20 || c.toNat = 0xA0 ||
    c.toNat = 0x1680 || (0x2000 ≤ c.toNat && c.toNat ≤ 0x200A) || c.toNat = 0x2028 ||
    c.toNat = 0x2029 || c.toNat = 0x202F || c.toNat = 0x205F || c.toNat = 0x3000 ||
    c.toNat = 0xFEFF

/-- Every ASCII blank is blank space. -/
theorem isSpace_of_isWhitespace {c : Char} (ascii : c.isWhitespace = true) :
    isSpace c = true := by
  have cases : c = ' ' ∨ c = '\t' ∨ c = '\r' ∨ c = '\n' := by
    simpa [Char.isWhitespace, or_assoc] using ascii
  rcases cases with rfl | rfl | rfl | rfl <;> decide

/-- Every character that ends a segment is blank space. -/
theorem isSpace_of_endsLine {c : Char} (ends : endsLine c = true) : isSpace c = true := by
  have cases : c = '\n' ∨ c = '\r' ∨ c = '\u2028' ∨ c = '\u2029' := by
    simpa [endsLine, or_assoc] using ends
  rcases cases with rfl | rfl | rfl | rfl <;> decide

/-- The text without the blank space at its front. -/
def dropIndent (t : Text) : Text := t.dropWhile isSpace

def indent (t : Text) : Text := t.takeWhile isSpace

/-- Nothing is lost between the indent and the rest. -/
theorem indent_append_dropIndent (t : Text) : t.indent ++ t.dropIndent = t :=
  List.takeWhile_append_dropWhile

def isBlank (t : Text) : Bool := t.all isSpace

end Text

end ConfigUpkeep
