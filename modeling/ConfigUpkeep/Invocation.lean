/-
# ConfigUpkeep.Invocation -- what a command line asks for

A command line is a program, a script, and the words of the user.  The first word is a
command; options may stand anywhere behind it and are brought in front of everything
else before they are read (`Arguments.hoisted`).  An option that takes a value takes the
next word, whatever it is.  Two dashes end the options: they and all behind them stay
where they are.

`Invocation.parse` reads the words.  A command takes one document.  Each option may be
given once; a word that is no option of the command, a missing value, or a value outside
the words allowed leave no invocation.

The verbosities `debug`, `info` and `error` are accepted and change nothing: on the
command line only `warn` takes effect.
-/
import ConfigUpkeep.Command

namespace ConfigUpkeep

set_option autoImplicit false

namespace Arguments

/-- The options that take the next word as their value. -/
def valued : List Text := ["--log-level", "--format"]

/-- What ends the options. -/
def ender : Text := "--"

/-- The word is written like an option: a dash and more. -/
def isOptionLike (word : Text) : Bool := "-".toList.isPrefixOf word && word != ("-" : Text)

/-- The options among some words, each with its value if it takes one, and the other
words.  Behind two dashes there are no options. -/
def parted : List Text → List Text × List Text
  | [] => ([], [])
  | word :: rest =>
      if word = ender then ([], word :: rest)
      else if isOptionLike word then
        if word ∈ valued then
          match rest with
          | [] => ([word], [])
          | value :: rest => (word :: value :: (parted rest).1, (parted rest).2)
        else (word :: (parted rest).1, (parted rest).2)
      else ((parted rest).1, word :: (parted rest).2)

/-- A full command line with the options of its command in front.  A command line
without a command stays as it is. -/
def hoisted : List Text → List Text
  | program :: script :: command :: rest =>
      if "-".toList.isPrefixOf command then program :: script :: command :: rest
      else program :: script :: command :: ((parted rest).1 ++ (parted rest).2)
  | short => short

/-- Hoisting loses no word and adds none. -/
theorem length_parted (words : List Text) :
    (parted words).1.length + (parted words).2.length = words.length := by
  fun_induction parted words with
  | case1 => rfl
  | case2 => simp
  | case3 => simp
  | case4 _ _ _ value rest ih =>
      simp only [List.length_cons]
      omega
  | case5 _ _ _ _ _ ih =>
      simp only [List.length_cons]
      omega
  | case6 _ _ _ _ ih =>
      simp only [List.length_cons]
      omega

end Arguments

/-- The options as they stand on a command line, and whether each was given. -/
structure Options where
  flags : Flags := {}
  mend : Bool := false
  /-- A verbosity was given, whether or not it counts. -/
  verbosityGiven : Bool := false
  version : Bool := false
  deriving DecidableEq, Repr

namespace Options

/-- The verbosity that a word on the command line brings about. -/
def effective : Verbosity → Option Verbosity
  | .warn => some .warn
  | _ => none

/-- Take a verbosity, if none was given before. -/
def withVerbosity (options : Options) (word : Text) : Option Options :=
  if options.verbosityGiven then none
  else
    (Verbosity.ofName? word).map fun verbosity =>
      { options with
        verbosityGiven := true
        flags := { options.flags with verbosity := effective verbosity } }

/-- Take a format, if none was given before. -/
def withFormat (options : Options) (word : Text) : Option Options :=
  if options.flags.format.isSome then none
  else
    (Format.ofName? word).map fun format =>
      { options with flags := { options.flags with format := some format } }

/-- Take an option that is a word of its own, if it was not given before.  Mending is an
option of validating only. -/
def withWord (options : Options) (validates : Bool) (word : Text) : Option Options :=
  let flags := options.flags
  if word = "--verbose".toList ∨ word = "-v".toList then
    if flags.verbose then none else some { options with flags := { flags with verbose := true } }
  else if word = "--dry-run".toList then
    if flags.dryRun then none else some { options with flags := { flags with dryRun := true } }
  else if word = "--json".toList then
    if flags.json then none else some { options with flags := { flags with json := true } }
  else if word = "--fix".toList then
    if options.mend || !validates then none else some { options with mend := true }
  else if word = "--version".toList then
    if options.version then none else some { options with version := true }
  else none

/-- Read the options in front of other words; what is left are the other words. -/
def read (validates : Bool) (options : Options) : List Text → Option (Options × List Text)
  | [] => some (options, [])
  | word :: rest =>
      if word = Arguments.ender ∨ !Arguments.isOptionLike word then some (options, word :: rest)
      else if word = "--log-level".toList then
        match rest with
        | value :: rest =>
            (options.withVerbosity value).bind fun options => read validates options rest
        | [] => none
      else if word = "--format".toList then
        match rest with
        | value :: rest =>
            (options.withFormat value).bind fun options => read validates options rest
        | [] => none
      else
        let given :=
          match ("--log-level=" : Text).isPrefixOf? word, ("--format=" : Text).isPrefixOf? word with
          | some value, _ => options.withVerbosity value
          | none, some value => options.withFormat value
          | none, none => options.withWord validates word
        given.bind fun options => read validates options rest

end Options

/-- What a command line asks for: the version of the tool, or a run of a command on a
document. -/
inductive Invocation where
  | version
  | run (command : Command) (flags : Flags) (document : Text)
  deriving DecidableEq, Repr

namespace Invocation

def versionWord : Text := "--version"

/-- The words that are no options: all but the first pair of dashes. -/
def positionals (words : List Text) : List Text :=
  words.takeWhile (· != Arguments.ender) ++ (words.dropWhile (· != Arguments.ender)).drop 1

/-- The command that a word names, once it is known whether issues are to be mended. -/
def command? (word : Text) (mend : Bool) : Option Command :=
  [Command.normalize, .validate mend, .migrate].find? fun command => command.name = word

/-- Read the words of the user, options in front. -/
def parse (words : List Text) : Option Invocation :=
  match words with
  | [] => none
  | first :: rest =>
      if first = versionWord then some .version
      else
        (command? first false).bind fun named =>
          (Options.read (named == .validate false) {} rest).bind fun (options, others) =>
            if options.version then some .version
            else
              match positionals others, command? first options.mend with
              | [document], some command => some (.run command options.flags document)
              | _, _ => none

/-- What a user is told whose words ask for nothing. -/
def usage : Text :=
  "usage: (normalize | validate [--fix] | migrate) [--verbose] [--dry-run] [--json] " ++
    "[--log-level LEVEL] [--format FORMAT] CONFIG\n"

/-- Read a full command line: a program, a script, and the words of the user. -/
def ofArguments (arguments : List Text) : Option Invocation :=
  parse ((Arguments.hoisted arguments).drop 2)

end Invocation

end ConfigUpkeep
