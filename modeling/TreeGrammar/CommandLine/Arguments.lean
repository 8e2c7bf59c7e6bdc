/-
# TreeGrammar.CommandLine.Arguments -- the command line taken apart

An option may be shortened to any beginning that belongs to no other option, and
its value may follow behind an equals sign.  Options of one letter may stand
together behind one dash.  Behind `--` nothing is an option.  Arguments are read from
the left; the first text that is no option names the output directory, and what is
left over is refused at the end.

The line is taken apart as `argparse` does it, and what `argparse` makes of `-v=v`, of
`-hx` and of `--grammar=--` has changed.  `Release` tells the two ways apart: that of
3.12.3, with which the command runs, and the earlier one.
-/
import TreeGrammar.Text.Digit
import TreeGrammar.Text.Quoted

set_option autoImplicit false

namespace TreeGrammar.CommandLine

inductive Flag where
  | help
  | grammar
  | strict
  | verbose
  deriving DecidableEq

/-- The spellings of the options. -/
def spellings : List (String × Flag) :=
  [("-h", .help), ("--help", .help), ("--grammar", .grammar), ("--strict", .strict),
    ("-v", .verbose), ("--verbose", .verbose)]

/-- The flag of an exact spelling. -/
def flag? (text : Text) : Option Flag :=
  (spellings.find? fun spelling => spelling.1.toList = text).map Prod.snd

/-- The name under which errors speak of an option. -/
def Flag.title : Flag → Text
  | .help => "-h/--help"
  | .grammar => "--grammar"
  | .strict => "--strict"
  | .verbose => "-v/--verbose"

/-- Why a command line is refused. -/
inductive UsageError where
  | ambiguous (text : Text) (candidates : List Text)
  | expectedArgument (flag : Flag)
  | ignoredValue (flag : Flag) (value : Text)
  | missingDirectory
  | unrecognized (texts : List Text)
  deriving DecidableEq

def UsageError.message : UsageError → Text
  | .ambiguous text candidates =>
      "ambiguous option: " ++ text ++ " could match " ++ Text.join ", " candidates
  | .expectedArgument flag => "argument " ++ flag.title ++ ": expected one argument"
  | .ignoredValue flag value =>
      "argument " ++ flag.title ++ ": ignored explicit argument " ++ Text.quoted value
  | .missingDirectory => "the following arguments are required: output_dir"
  | .unrecognized texts => "unrecognized arguments: " ++ Text.join " " texts

/-! ## Single arguments -/

/-- Which `argparse` reads the command line. -/
inductive Release where
  /-- That of 3.12.3.  What stands behind an equals sign is a value, for an option of one
  letter too, and a letter that is no option is left over with all that follows it. -/
  | current
  /-- An earlier one.  An option of one letter takes further ones behind an equals sign too, a
  letter that is no option is refused as its value, and `--` is no value of an option. -/
  | early
  deriving DecidableEq

/-- The text that marks where the options end. -/
def endMark : Text := ['-', '-']

/-- What one text of the command line is. -/
inductive Word where
  | plain (text : Text)
  /-- The mark behind which nothing is an option. -/
  | mark
  /-- An option with what is written together with it, which may be further options if it was
  spelled by a letter. -/
  | option (flag : Flag) (letter : Bool) (attached : Option Text)
  | unknown (text : Text)

/-- A number with a minus sign, which is no option. -/
def isNegativeNumber (text : Text) : Bool :=
  match Text.dropEnd "\n" text with
  | '-' :: rest =>
      let whole := rest.takeWhile Text.isDecimalDigit
      match rest.dropWhile Text.isDecimalDigit with
      | [] => !whole.isEmpty
      | '.' :: part => !part.isEmpty && part.all Text.isDecimalDigit
      | _ => false
  | _ => false

/-- An option that is spelled out in front of an equals sign. -/
def spelledOut? (release : Release) (text : Text) : Option Word :=
  match Text.cut '=' text with
  | (_, none) => none
  | (spelling, some value) =>
      (flag? spelling).map fun flag =>
        .option flag (release = .early && spelling.length = 2) (some value)

/-- The options that a text may shorten. -/
def shortened (text : Text) : List (Text × Word) :=
  let (beginning, value) := Text.cut '=' text
  (spellings.filter fun spelling => beginning.isPrefixOf spelling.1.toList).map fun spelling =>
    (spelling.1.toList, .option spelling.2 false value)

/-- An option of one letter with more behind it. -/
def letterOption? : Text → Option Word
  | a :: b :: rest => (flag? [a, b]).map fun flag => .option flag true (some rest)
  | _ => none

/-- What a text is that begins with a dash and is spelled like no option. -/
def unspelled (text : Text) : Word :=
  if isNegativeNumber text || ' ' ∈ text then .plain text else .unknown text

/-- What a text is, in front of the mark. -/
def classify (release : Release) (text : Text) : Except UsageError Word :=
  match text with
  | '-' :: second :: _ =>
      match flag? text with
      | some flag => .ok (.option flag (text.length = 2) none)
      | none =>
          match spelledOut? release text with
          | some word => .ok word
          | none =>
              if second = '-' then
                match shortened text with
                | [] => .ok (unspelled text)
                | [(_, word)] => .ok word
                | candidates => .error (.ambiguous text (candidates.map Prod.fst))
              else .ok ((letterOption? text).getD (unspelled text))
  | _ => .ok (.plain text)

/-- What all the texts are. -/
def classifyAll (release : Release) : List Text → Except UsageError (List Word)
  | [] => .ok []
  | text :: rest =>
      if text = endMark then .ok (.mark :: rest.map .plain)
      else do
        let word ← classify release text
        let words ← classifyAll release rest
        return word :: words

/-! ## The whole line -/

/-- The grammar that a command line names. -/
inductive GrammarValue where
  | absent
  /-- The mark, written together with its option where it is no value. -/
  | dropped
  | path (text : Text)
  deriving DecidableEq

/-- The value that a text written together with the option is. -/
def GrammarValue.ofAttached (release : Release) (text : Text) : GrammarValue :=
  if release = .early ∧ text = endMark then .dropped else .path text

/-- The options read so far, and the texts that are none. -/
structure Options where
  directory : Option Text
  grammar : GrammarValue
  strict : Bool
  verbose : Bool
  extras : List Text

def Options.start : Options := ⟨none, .absent, false, false, []⟩

/-- What a command line asks for. -/
inductive Request where
  | help
  | generate (directory : Text) (grammar : GrammarValue) (strict verbose : Bool)
  deriving DecidableEq

/-- What becomes of a text behind a flag that begins with no flag of one letter: it is refused as
a value of the flag, or left over. -/
def unclustered (flag : Flag) (text : Text) : Release → Except UsageError (List Flag × List Text)
  | .early => .error (.ignoredValue flag text)
  | .current =>
      match text with
      | '=' :: value => .error (.ignoredValue flag value)
      | '-' :: _ => .error (.ignoredValue flag text)
      | _ => .ok ([flag], ['-' :: text])

/-- The flags written together behind one dash, and what is left over of them. -/
def cluster (release : Release) (flag : Flag) :
    Text → Except UsageError (List Flag × List Text)
  | [] => .ok ([flag], [])
  | c :: rest =>
      match flag? ['-', c] with
      | none => unclustered flag (c :: rest) release
      | some next => do
          let (flags, left) ← cluster release next rest
          return (flag :: flags, left)

/-- The flags that an option without a value of its own sets, and what is left over. -/
def flagsOf (release : Release) (flag : Flag) (letter : Bool) :
    Option Text → Except UsageError (List Flag × List Text)
  | none => .ok ([flag], [])
  | some attached =>
      if letter && attached ≠ [] then cluster release flag attached
      else .error (.ignoredValue flag attached)

/-- The options with flags set, or nothing if help is among the flags. -/
def Options.set (options : Options) : List Flag → Option Options
  | [] => some options
  | .help :: _ => none
  | .strict :: rest => { options with strict := true }.set rest
  | .verbose :: rest => { options with verbose := true }.set rest
  | .grammar :: rest => options.set rest

def Options.leave (options : Options) (texts : List Text) : Options :=
  { options with extras := options.extras ++ texts }

/-- The request at the end of the line. -/
def Options.finish (options : Options) : Except UsageError Request :=
  match options.directory with
  | none => .error .missingDirectory
  | some directory =>
      if options.extras = [] then
        .ok (.generate directory options.grammar options.strict options.verbose)
      else .error (.unrecognized options.extras)

/-- Read the words of a line.  The text taken as the directory takes the mark beside it along. -/
def readWords (release : Release) (options : Options) : List Word → Except UsageError Request
  | [] => options.finish
  | .plain text :: .mark :: rest =>
      if options.directory = none then readWords release { options with directory := some text } rest
      else readWords release (options.leave [text, endMark]) rest
  | .plain text :: rest =>
      if options.directory = none then readWords release { options with directory := some text } rest
      else readWords release (options.leave [text]) rest
  | .mark :: .plain text :: rest =>
      if options.directory = none then readWords release { options with directory := some text } rest
      else readWords release (options.leave [endMark, text]) rest
  | .mark :: rest => readWords release (options.leave [endMark]) rest
  | .unknown text :: rest => readWords release (options.leave [text]) rest
  | .option .grammar _ (some attached) :: rest =>
      readWords release { options with grammar := .ofAttached release attached } rest
  | .option .grammar _ none :: .plain text :: rest =>
      readWords release { options with grammar := .path text } rest
  | .option .grammar _ none :: _ => .error (.expectedArgument .grammar)
  | .option flag letter attached :: rest => do
      let (flags, left) ← flagsOf release flag letter attached
      match options.set flags with
      | none => return .help
      | some set => readWords release (set.leave left) rest

/-- What a command line asks for. -/
def parse (release : Release) (arguments : List Text) : Except UsageError Request := do
  readWords release .start (← classifyAll release arguments)

end TreeGrammar.CommandLine
