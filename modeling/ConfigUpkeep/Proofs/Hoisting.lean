/-
# ConfigUpkeep.Proofs.Hoisting -- options in front of operands

The words behind a command are read one after another, and what a word is depends on the
words before it alone (`Arguments.roleBehind`): behind two dashes all words are literal,
behind an option that takes a value stands its value, whatever it is, and elsewhere a word
is what it is written like.

* `parted_eq`: options and their values on the one side, operands and literal words on the
  other, are the two parts into which the words fall.  The induction is on the parts; what is
  carried is that the options have not ended and no value is awaited.
* `optionsFirst_among`: hoisting again finds the same options.  The words between the options and
  the operands are what moves, so the induction lets operands stand there: the first of them
  may become the value of an option that stood last without one, and nothing changes place.

The main result is `hoisted_stable`.
-/
import Mathlib.Data.List.Induction
import ConfigUpkeep.Invocation

namespace ConfigUpkeep.Arguments

set_option autoImplicit false

/-! ## What words are read as -/

/-- What a word is read as. -/
inductive Role where
  | option
  /-- The value of the option directly before it. -/
  | value
  | operand
  /-- Two dashes that end the options, or any word behind them. -/
  | literal
  deriving DecidableEq, Repr

/-- Words of the role are brought in front. -/
def Role.goesAhead : Role → Bool
  | .option | .value => true
  | .operand | .literal => false

/-- Words that have been read, each with its role. -/
abbrev Reading := List (Text × Role)

namespace Reading

/-- The options have ended. -/
def ended (read : Reading) : Bool := read.any fun entry => entry.2 = .literal

/-- The last word is an option that takes the next word. -/
def awaits (read : Reading) : Bool :=
  match read.getLast? with
  | some (word, .option) => decide (word ∈ valued)
  | _ => false

/-- The words that are brought in front. -/
def ahead (read : Reading) : List Text :=
  (read.filter fun entry => entry.2.goesAhead).map Prod.fst

/-- The words that are not brought in front. -/
def behind (read : Reading) : List Text :=
  (read.filter fun entry => !entry.2.goesAhead).map Prod.fst

end Reading

/-- What a word is read as behind the words that have been read. -/
def roleBehind (read : Reading) (word : Text) : Role :=
  if read.ended then .literal
  else if read.awaits then .value
  else if word = ender then .literal
  else if isOptionLike word then .option
  else .operand

/-- Read words behind the words that have been read. -/
def readOn (read : Reading) (words : List Text) : Reading :=
  words.foldl (fun read word => read ++ [(word, roleBehind read word)]) read

/-- The words, each with what it is read as. -/
def reading (words : List Text) : Reading := readOn [] words

theorem readOn_cons (read : Reading) (word : Text) (words : List Text) :
    readOn read (word :: words) = readOn (read ++ [(word, roleBehind read word)]) words := rfl

namespace Reading

theorem ended_append (read more : Reading) : (read ++ more).ended = (read.ended || more.ended) :=
  List.any_append

theorem ended_singleton (word : Text) (role : Role) :
    ended [(word, role)] = decide (role = .literal) := by
  simp [ended]

theorem awaits_append_singleton (read : Reading) (word : Text) (role : Role) :
    awaits (read ++ [(word, role)]) = (decide (role = .option) && decide (word ∈ valued)) := by
  cases role <;> simp [awaits]

/-- The next word is what it is written like. -/
def Free (read : Reading) : Prop := read.ended = false ∧ read.awaits = false

theorem free_append_singleton {read : Reading} {word : Text} {role : Role}
    (open_ : read.ended = false) (other : role ≠ .literal)
    (settled : role = .option → word ∉ valued) : Free (read ++ [(word, role)]) := by
  constructor
  · rw [ended_append, ended_singleton, open_, decide_eq_false other]
    rfl
  · rw [awaits_append_singleton]
    cases decided : decide (role = .option) with
    | false => rfl
    | true => exact decide_eq_false (settled (of_decide_eq_true decided))

theorem ahead_append (read more : Reading) : (read ++ more).ahead = read.ahead ++ more.ahead := by
  simp [ahead]

theorem behind_append (read more : Reading) :
    (read ++ more).behind = read.behind ++ more.behind := by
  simp [behind]

theorem ahead_literal (words : List Text) : ahead (words.map fun word => (word, .literal)) = [] := by
  simp [ahead, Role.goesAhead]

theorem behind_literal (words : List Text) :
    behind (words.map fun word => (word, .literal)) = words := by
  induction words with
  | nil => rfl
  | cons word words ih => exact congrArg (word :: ·) ih

end Reading

/-- Behind the end of the options all words are literal. -/
theorem readOn_of_ended {read : Reading} (ended : read.ended = true) (words : List Text) :
    readOn read words = read ++ words.map fun word => (word, .literal) := by
  induction words generalizing read with
  | nil => simp [readOn]
  | cons word words ih =>
      have role : roleBehind read word = .literal := by rw [roleBehind, if_pos ended]
      rw [readOn_cons, role, ih (by rw [Reading.ended_append, ended]; rfl)]
      simp

/-! ### The law of roles -/

theorem reading_append_singleton (words : List Text) (word : Text) :
    reading (words ++ [word]) = reading words ++ [(word, roleBehind (reading words) word)] := by
  rw [reading, readOn, List.foldl_append]
  rfl

/-- Reading loses no word, adds none, and changes no place. -/
theorem words_reading (words : List Text) : (reading words).map Prod.fst = words := by
  induction words using List.reverseRecOn with
  | nil => rfl
  | append_singleton words word ih => simp [reading_append_singleton, ih]

/-- What has been read before a place is the reading of the words before it. -/
theorem reading_of_prefix {words : List Text} {before after : Reading}
    (cut : reading words = before ++ after) : reading (before.map Prod.fst) = before := by
  induction words using List.reverseRecOn generalizing after with
  | nil =>
      obtain ⟨rfl, -⟩ := List.append_eq_nil_iff.1 cut.symm
      rfl
  | append_singleton words last ih =>
      rcases List.eq_nil_or_concat after with rfl | ⟨after, entry, rfl⟩
      · rw [List.append_nil] at cut
        rw [← cut, words_reading]
      · rw [reading_append_singleton, List.concat_eq_append, ← List.append_assoc] at cut
        exact ih (List.append_inj' cut rfl).1

variable {words : List Text} {before after : Reading} {word : Text} {role : Role}

/-- Every word has the role that the words before it give it. -/
theorem role_eq (cut : reading words = before ++ (word, role) :: after) :
    role = roleBehind before word := by
  have earlier := reading_of_prefix cut
  rw [List.append_cons] at cut
  have now := reading_of_prefix cut
  rw [List.map_append, List.map_singleton, reading_append_singleton, earlier] at now
  exact (Prod.mk.inj (List.singleton_inj.1 (List.append_cancel_left now))).2.symm

/-- Behind a literal word all words are literal. -/
theorem literal_of_literal (cut : reading words = before ++ (word, .literal) :: after) :
    ∀ entry ∈ after, entry.2 = .literal := by
  intro entry member
  obtain ⟨front, back, rfl⟩ := List.append_of_mem member
  have ended : Reading.ended (before ++ (word, .literal) :: front) = true := by
    simp [Reading.ended]
  rw [← List.cons_append, ← List.append_assoc] at cut
  rw [role_eq cut, roleBehind, if_pos ended]

/-- The word ends the options: two dashes that are no value. -/
def Ends (entry : Text × Role) : Prop := entry.1 = ender ∧ entry.2 ≠ .value

theorem literal_of_ends (cut : reading words = before ++ (word, role) :: after)
    (ends : Ends (word, role)) : role = .literal := by
  obtain ⟨rfl, free⟩ := ends
  have law := role_eq cut
  rw [roleBehind] at law
  split at law
  · exact law
  · split at law
    · exact absurd law free
    · rwa [if_pos rfl] at law

/-- Where the options have ended, a word ended them. -/
theorem exists_ends (ended : (reading words).ended = true) : ∃ entry ∈ reading words, Ends entry := by
  induction words using List.reverseRecOn with
  | nil => cases ended
  | append_singleton words last ih =>
      rw [reading_append_singleton] at ended ⊢
      cases earlier : (reading words).ended with
      | true =>
          obtain ⟨entry, member, ends⟩ := ih earlier
          exact ⟨entry, List.mem_append_left _ member, ends⟩
      | false =>
          rw [Reading.ended_append, earlier, Bool.false_or, Reading.ended_singleton,
            decide_eq_true_iff] at ended
          refine ⟨_, List.mem_append_right _ (List.mem_singleton_self _), ?_⟩
          rw [ended]
          refine ⟨?_, by simp⟩
          grind [roleBehind]

/-- Behind an option that takes a value any word is its value. -/
theorem roleBehind_valued {read : Reading} (open_ : read.ended = false) {option : Text}
    (takes : option ∈ valued) (word : Text) :
    roleBehind (read ++ [(option, .option)]) word = .value := by
  rw [roleBehind, Reading.ended_append, open_, Reading.ended_singleton, if_neg (by simp),
    Reading.awaits_append_singleton, if_pos (by simp [takes])]

/-- So behind such an option stands its value. -/
theorem value_of_valued {option : Text}
    (cut : reading words = before ++ (option, .option) :: (word, role) :: after)
    (takes : option ∈ valued) : role = .value := by
  have opening := role_eq cut
  have open_ : before.ended = false := by
    cases ended : before.ended with
    | false => rfl
    | true =>
        rw [roleBehind, if_pos ended] at opening
        cases opening
  rw [List.append_cons] at cut
  exact (role_eq cut).trans (roleBehind_valued open_ takes word)

/-- Before a word ends the options, a word that stays behind is not written like an option. -/
theorem unlike_of_behind (cut : reading words = before ++ (word, role) :: after)
    (open_ : ∀ earlier ∈ before ++ [(word, role)], ¬ Ends earlier)
    (stays : role.goesAhead = false) : isOptionLike word = false := by
  have law := role_eq cut
  cases role with
  | operand => grind [roleBehind]
  | option => cases stays
  | value => cases stays
  | literal =>
      rw [List.append_cons] at cut
      have now := reading_of_prefix cut
      have ended : (reading ((before ++ [(word, Role.literal)]).map Prod.fst)).ended = true := by
        rw [now]
        simp [Reading.ended]
      obtain ⟨entry, member, ends⟩ := exists_ends ended
      rw [now] at member
      exact absurd ends (open_ entry member)

/-! ## The two parts -/

theorem roleBehind_of_free {read : Reading} (free : read.Free) (word : Text) :
    roleBehind read word =
      if word = ender then .literal else if isOptionLike word then .option else .operand := by
  simp [roleBehind, free.1, free.2]

theorem roleBehind_option {read : Reading} (free : read.Free) {word : Text} (other : word ≠ ender)
    (like : isOptionLike word = true) : roleBehind read word = .option := by
  rw [roleBehind_of_free free, if_neg other, if_pos like]

/-- **Options and values on the one side, operands and literal words on the other** are the parts
into which words fall, whatever has been read before and awaits nothing. -/
theorem parted_eq {read : Reading} (free : read.Free) (words : List Text) :
    (readOn read words).ahead = read.ahead ++ (parted words).1 ∧
      (readOn read words).behind = read.behind ++ (parted words).2 := by
  fun_induction parted words generalizing read with
  | case1 => simp [readOn]
  | case2 rest =>
      have role : roleBehind read ender = .literal := by
        rw [roleBehind_of_free free, if_pos rfl]
      have ended : Reading.ended (read ++ [(ender, .literal)]) = true := by simp [Reading.ended]
      rw [readOn_cons, role, readOn_of_ended ended, Reading.ahead_append, Reading.behind_append,
        Reading.ahead_literal, Reading.behind_literal]
      simp [Reading.ahead, Reading.behind, Role.goesAhead]
  | case3 word other like takes =>
      have role := roleBehind_option free other like
      rw [readOn_cons, role]
      simp [readOn, Reading.ahead, Reading.behind, Role.goesAhead]
  | case4 word other like takes value rest ih =>
      have role := roleBehind_option free other like
      have open_ : Reading.ended (read ++ [(word, .option)]) = false := by
        rw [Reading.ended_append, free.1, Reading.ended_singleton]
        rfl
      have role_ := roleBehind_valued free.1 takes value
      have free_ : Reading.Free (read ++ [(word, .option)] ++ [(value, .value)]) :=
        Reading.free_append_singleton open_ (by simp) (by simp)
      obtain ⟨front, back⟩ := ih free_
      rw [readOn_cons, role, readOn_cons, role_, front, back]
      simp [Reading.ahead, Reading.behind, Role.goesAhead]
  | case5 word rest other like plain ih =>
      have role := roleBehind_option free other like
      have free_ : Reading.Free (read ++ [(word, .option)]) :=
        Reading.free_append_singleton free.1 (by simp) fun _ => plain
      obtain ⟨front, back⟩ := ih free_
      rw [readOn_cons, role, front, back]
      simp [Reading.ahead, Reading.behind, Role.goesAhead]
  | case6 word rest other unlike ih =>
      have role : roleBehind read word = .operand := by
        rw [roleBehind_of_free free, if_neg other, if_neg unlike]
      have free_ : Reading.Free (read ++ [(word, .operand)]) :=
        Reading.free_append_singleton free.1 (by simp) (by simp)
      obtain ⟨front, back⟩ := ih free_
      rw [readOn_cons, role, front, back]
      simp [Reading.ahead, Reading.behind, Role.goesAhead]

/-- The parts of words, in the order of the words. -/
theorem parted_eq_reading (words : List Text) :
    parted words = ((reading words).ahead, (reading words).behind) := by
  have start : Reading.Free [] := ⟨rfl, rfl⟩
  obtain ⟨front, back⟩ := parted_eq start words
  exact Prod.ext front.symm back.symm

/-! ## Hoisting again -/

section

variable {word : Text} (rest : List Text)

theorem parted_ender : parted (ender :: rest) = ([], ender :: rest) := by
  rw [parted.eq_def]
  simp

theorem parted_operand (other : word ≠ ender) (unlike : isOptionLike word = false) :
    parted (word :: rest) = ((parted rest).1, word :: (parted rest).2) := by
  rw [parted.eq_def]
  simp [other, unlike]

theorem parted_option (other : word ≠ ender) (like : isOptionLike word = true)
    (plain : word ∉ valued) : parted (word :: rest) = (word :: (parted rest).1, (parted rest).2) := by
  rw [parted.eq_def]
  simp [other, like, plain]

theorem parted_valued (other : word ≠ ender) (like : isOptionLike word = true)
    (takes : word ∈ valued) (value : Text) :
    parted (word :: value :: rest) = (word :: value :: (parted rest).1, (parted rest).2) := by
  rw [parted.eq_def]
  simp [other, like, takes]

end

/-- Words that are no options stay behind. -/
theorem parted_operands_append {operands : List Text}
    (plain : ∀ word ∈ operands, word ≠ ender ∧ isOptionLike word = false) (words : List Text) :
    parted (operands ++ words) = ((parted words).1, operands ++ (parted words).2) := by
  induction operands with
  | nil => rfl
  | cons word operands ih =>
      obtain ⟨⟨other, unlike⟩, later⟩ := List.forall_mem_cons.1 plain
      rw [List.cons_append, parted_operand _ other unlike, ih later]
      rfl

/-- The words with their options in front. -/
def optionsFirst (words : List Text) : List Text := (parted words).1 ++ (parted words).2

theorem optionsFirst_operands {operands : List Text}
    (plain : ∀ word ∈ operands, word ≠ ender ∧ isOptionLike word = false) :
    optionsFirst operands = operands := by
  have parts := parted_operands_append plain []
  rw [List.append_nil] at parts
  rw [optionsFirst, parts]
  exact List.append_nil operands

/-- **Words that have their options in front keep their places** when options are brought in front
again, also with operands between the options and the rest. -/
theorem optionsFirst_among (words : List Text) {operands : List Text}
    (plain : ∀ word ∈ operands, word ≠ ender ∧ isOptionLike word = false) :
    optionsFirst ((parted words).1 ++ (operands ++ (parted words).2)) =
      (parted words).1 ++ (operands ++ (parted words).2) := by
  fun_induction parted words generalizing operands with
  | case1 => rw [List.nil_append, List.append_nil, optionsFirst_operands plain]
  | case2 rest =>
      rw [List.nil_append, optionsFirst, parted_operands_append plain, parted_ender]
      rfl
  | case3 word other like takes =>
      -- An option that stood last takes the first of the operands as its value.
      rw [List.append_nil, List.singleton_append]
      cases operands with
      | nil => simp [optionsFirst, parted, other, like, takes]
      | cons value operands =>
          have later := optionsFirst_operands (List.forall_mem_cons.1 plain).2
          rw [optionsFirst, parted_valued _ other like takes]
          exact congrArg (word :: value :: ·) later
  | case4 word other like takes value rest ih =>
      rw [optionsFirst, List.cons_append, List.cons_append, parted_valued _ other like takes]
      exact congrArg (word :: value :: ·) (ih plain)
  | case5 word rest other like plain_ ih =>
      rw [optionsFirst, List.cons_append, parted_option _ other like plain_]
      exact congrArg (word :: ·) (ih plain)
  | case6 word rest other unlike ih =>
      -- The operand joins those between the options and the rest.
      have more : ∀ w ∈ operands ++ [word], w ≠ ender ∧ isOptionLike w = false :=
        List.forall_mem_append.2
          ⟨plain, List.forall_mem_singleton.2 ⟨other, by simpa using unlike⟩⟩
      have again := ih more
      rwa [List.append_assoc, List.singleton_append] at again

theorem optionsFirst_optionsFirst (words : List Text) :
    optionsFirst (optionsFirst words) = optionsFirst words :=
  optionsFirst_among words (List.forall_mem_nil _)

/-! ## A full command line -/

/-- A command line with a command: a program, a script, a word that is no option, and the
words of the user. -/
def HasCommand (arguments : List Text) : Prop :=
  ∃ program script command words,
    arguments = program :: script :: command :: words ∧ "-".toList.isPrefixOf command = false

/-- The options that take a value. -/
theorem mem_valued {word : Text} : word ∈ valued ↔ word = "--log-level" ∨ word = "--format" := by
  simp [valued]

/-- The parts into which words fall.  Both are made of the words in their order, the one of the
words that the other is not made of. -/
structure Parts (words options others : List Text) : Prop where
  words_eq : (reading words).map Prod.fst = words
  options_eq : options = (reading words).ahead
  others_eq : others = (reading words).behind
  /-- Two dashes that are no value stay behind, and all words behind them. -/
  ended : ∀ before entry after, reading words = before ++ entry :: after → Ends entry →
    ∀ later ∈ entry :: after, later.2.goesAhead = false
  /-- Before that, what stays behind is a dash alone or starts with none. -/
  plain : ∀ before entry after, reading words = before ++ entry :: after →
    (∀ earlier ∈ before ++ [entry], ¬ Ends earlier) → entry.2.goesAhead = false →
      entry.1 = "-".toList ∨ "-".toList.isPrefixOf entry.1 = false
  /-- Behind an option that takes a value (`mem_valued`) stands the word that stood there. -/
  paired : ∀ before option entry after,
    reading words = before ++ (option, .option) :: entry :: after → option ∈ valued →
      options = Reading.ahead before ++ option :: entry.1 :: Reading.ahead after

theorem parts_parted (words : List Text) : Parts words (parted words).1 (parted words).2 := by
  rw [parted_eq_reading]
  refine ⟨words_reading words, rfl, rfl, ?_, ?_, ?_⟩
  · rintro before ⟨word, role⟩ after cut ends later member
    obtain rfl := literal_of_ends cut ends
    rcases List.mem_cons.1 member with rfl | behind
    · rfl
    · rw [literal_of_literal cut later behind]
      rfl
  · rintro before ⟨word, role⟩ after cut open_ stays
    have unlike := unlike_of_behind cut open_ stays
    rw [isOptionLike, Bool.and_eq_false_iff] at unlike
    exact unlike.symm.imp_left (by simp)
  · rintro before option ⟨word, role⟩ after cut takes
    obtain rfl := value_of_valued cut takes
    rw [cut]
    simp [Reading.ahead, Role.goesAhead]

/-- **Options are brought in front, and nothing else changes place.**  Where a command line has a
command, the words behind it fall into the options with their values and the other words, each
part in its order; every other command line stays as it is; and bringing options in front once
is enough. -/
theorem hoisted_stable (arguments : List Text) :
    (∀ program script command words, arguments = program :: script :: command :: words →
      "-".toList.isPrefixOf command = false →
        ∃ options others, Parts words options others ∧
          hoisted arguments = program :: script :: command :: (options ++ others)) ∧
      (¬ HasCommand arguments → hoisted arguments = arguments) ∧
      hoisted (hoisted arguments) = hoisted arguments := by
  have front (program script : Text) {command : Text} (words : List Text)
      (isCommand : "-".toList.isPrefixOf command = false) :
      hoisted (program :: script :: command :: words) =
        program :: script :: command :: optionsFirst words := by
    rw [hoisted, isCommand]
    rfl
  have still (none_ : ¬ HasCommand arguments) : hoisted arguments = arguments := by
    unfold hoisted
    split
    · rename_i program script command words
      split
      · rfl
      · rename_i isCommand
        exact absurd ⟨_, _, _, _, rfl, Bool.eq_false_iff.2 isCommand⟩ none_
    · rfl
  refine ⟨?_, still, ?_⟩
  · rintro program script command words rfl isCommand
    exact ⟨_, _, parts_parted words, front _ _ _ isCommand⟩
  · by_cases has : HasCommand arguments
    · obtain ⟨program, script, command, words, rfl, isCommand⟩ := has
      rw [front _ _ _ isCommand, front _ _ _ isCommand, optionsFirst_optionsFirst]
    · rw [still has, still has]

/-- Two dashes as a value end nothing, and an option at the end takes what comes to stand behind
it. -/
example :
    let line : List Text := ["p", "s", "migrate", "c", "--format", "--", "-", "--json", "--log-level"]
    let inFront : List Text :=
      ["p", "s", "migrate", "--format", "--", "--json", "--log-level", "c", "-"]
    hoisted line = inFront := by
  decide

end ConfigUpkeep.Arguments
