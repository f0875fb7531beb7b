import CognitiveLoad.Report
import CognitiveLoad.Text.Basic
import CognitiveLoad.Text.Digit

/-!
Reading the arguments of the command line. Each argument is first classified by its spelling alone:
a word, an option, an unknown option, or the `--` after which all is words. Then options and words
are taken in order; the first word is the path, and what nobody takes is refused at the end.
-/

namespace CognitiveLoad.CommandLine

inductive Flag where
  | help
  | language
  | threshold
  | ignore
  | recursive
  | withoutOperators
  | format
  | verbose
  deriving DecidableEq, Repr

namespace Flag

def takesValue : Flag → Bool
  | language | threshold | ignore | format => true
  | _ => false

/-- The long spelling, and the short one if there is one. -/
def spellings : List (String × Flag) :=
  [("-h", help), ("--help", help), ("--language", language), ("-l", language),
    ("--threshold", threshold), ("-t", threshold), ("--ignore", ignore), ("-i", ignore),
    ("--recursive", recursive), ("-r", recursive), ("--no-boolean-operators", withoutOperators),
    ("--format", format), ("-f", format), ("--verbose", verbose), ("-v", verbose)]

/-- How an option is called in messages. -/
def shown : Flag → String
  | help => "-h/--help"
  | language => "--language/-l"
  | threshold => "--threshold/-t"
  | ignore => "--ignore/-i"
  | recursive => "--recursive/-r"
  | withoutOperators => "--no-boolean-operators"
  | format => "--format/-f"
  | verbose => "--verbose/-v"

end Flag

/-- Why the arguments are refused. -/
inductive UsageError where
  | ambiguous (argument : String) (spellings : List String)
  | expectedValue (f : Flag)
  | ignoredValue (f : Flag) (value : String)
  | notInteger (f : Flag) (value : String)
  | notChoice (f : Flag) (value : String)
  | missingPath
  | unrecognized (arguments : List String)
  deriving DecidableEq, Repr

def UsageError.message : UsageError → String
  | ambiguous argument spellings =>
    let matching := ", ".intercalate spellings
    s!"ambiguous option: {argument} could match {matching}"
  | expectedValue f => s!"argument {f.shown}: expected one argument"
  | ignoredValue f value => s!"argument {f.shown}: ignored explicit argument {Text.quoted value}"
  | notInteger f value => s!"argument {f.shown}: invalid int value: {Text.quoted value}"
  | notChoice f value =>
    s!"argument {f.shown}: invalid choice: {Text.quoted value} (choose from 'text', 'json')"
  | missingPath => "the following arguments are required: path"
  | unrecognized arguments => "unrecognized arguments: " ++ " ".intercalate arguments

/-! ## Classes of arguments -/

/-- What follows the spelling of an option in the same argument: nothing, a value after an equals
sign, or the rest of an option of one letter, which may be a value or further letters. -/
inductive Tail where
  | nothing
  | value (cs : List Char)
  | letters (cs : List Char)
  deriving DecidableEq, Repr

inductive Class where
  | word
  | divider
  | option (f : Flag) (tail : Tail)
  | unknown
  deriving DecidableEq, Repr

structure Argument where
  text : String
  kind : Class
  deriving DecidableEq, Repr

/-- The number of digits, then the end, which may have a newline before it. -/
def endsAfterDigits (atLeast : Nat) (cs : List Char) : Bool :=
  let rest := cs.dropWhile Text.isDigit
  atLeast ≤ (cs.takeWhile Text.isDigit).length && (rest == [] || rest == ['\n'])

/-- Negative numbers are words: digits, or a fraction with digits after the point. -/
def isNegativeNumber : List Char → Bool
  | '-' :: cs =>
    endsAfterDigits 1 cs ||
      match cs.dropWhile Text.isDigit with
      | '.' :: fraction => endsAfterDigits 1 fraction
      | _ => false
  | _ => false

/-- The spellings that a long option may be short for. -/
def completions (beginning : List Char) : List (String × Flag) :=
  Flag.spellings.filter fun s => beginning.isPrefixOf s.1.toList

/-- What follows the equals sign after an option of one letter may be further letters, unless it is
empty. -/
def Tail.afterLetter : Tail → Tail
  | value (c :: cs) => letters (c :: cs)
  | tail => tail

def isLong (cs : List Char) : Bool :=
  ['-', '-'].isPrefixOf cs

/-- What stands before the first equals sign, and what follows it. -/
def cutAtEquals (cs : List Char) : List Char × Tail :=
  match cs.dropWhile (· ≠ '=') with
  | [] => (cs, .nothing)
  | _ :: value => (cs.takeWhile (· ≠ '='), .value value)

/-- The class of an argument that begins with a hyphen and is no spelling of an option, neither
whole nor up to an equals sign. -/
def classifyOther (text : String) : Except UsageError Class :=
  let cs := text.toList
  let leftover : Class :=
    if isNegativeNumber cs || cs.contains ' ' then .word else .unknown
  if isLong cs then
    let (beginning, tail) := cutAtEquals cs
    match completions beginning with
    | [] => .ok leftover
    | [(_, f)] => .ok (.option f tail)
    | several => .error (.ambiguous text (several.map Prod.fst))
  else
    match Flag.spellings.lookup (String.ofList (cs.take 2)) with
    | some f => .ok (.option f (.letters (cs.drop 2)))
    | none => .ok leftover

def classify (text : String) : Except UsageError Class :=
  let cs := text.toList
  if cs.head? ≠ some '-' || cs.length = 1 then .ok .word
  else
    let (spelling, tail) := cutAtEquals cs
    match Flag.spellings.lookup (String.ofList spelling) with
    | some f => .ok (.option f (if isLong cs then tail else tail.afterLetter))
    | none => classifyOther text

/-- After a divider all arguments are words. -/
def classifyAll : List String → Except UsageError (List Argument)
  | [] => .ok []
  | text :: rest =>
    if text = "--" then .ok (⟨text, .divider⟩ :: rest.map (⟨·, .word⟩))
    else do
      let kind ← classify text
      let others ← classifyAll rest
      return ⟨text, kind⟩ :: others

/-! ## Taking the arguments in order -/

/-- What is known of an option with a value: it is not there, it is there without a value, or it has
one. -/
inductive Given (α : Type) where
  | absent
  | empty
  | value (a : α)
  deriving DecidableEq, Repr

/-- What the arguments ask for. -/
structure Options where
  path : Option String := none
  language : Given String := .absent
  threshold : Given Int := .absent
  ignore : List (Given String) := []
  recursive : Bool := false
  withoutOperators : Bool := false
  format : Given Format := .absent
  verbose : Bool := false
  unused : List String := []
  deriving DecidableEq, Repr

/-- Why reading ends before the last argument. -/
inductive Stop where
  | help
  | usage (e : UsageError)
  deriving DecidableEq, Repr

/-- The value of an option by its text. A divider is taken out wherever it stands, so an option that
has it attached is left without a value. -/
def Given.ofText (text : String) : Given String :=
  if text = "--" then .empty else .value text

/-- Reads the text of a value; where there is none, nothing is checked. -/
def Given.read {α : Type} (read? : String → Option α) (e : UsageError) :
    Given String → Except Stop (Given α)
  | absent => .ok absent
  | empty => .ok empty
  | value text =>
    match read? text with
    | some a => .ok (value a)
    | none => .error (.usage e)

/-- Takes one option with the text of its value, which is empty for an option that takes none. -/
def Options.take (o : Options) (f : Flag) (value : String) : Except Stop Options :=
  match f with
  | .help => .error .help
  | .language => .ok { o with language := .ofText value }
  | .threshold => do
    let threshold ← (Given.ofText value).read Text.integer? (.notInteger f value)
    return { o with threshold := threshold }
  | .ignore => .ok { o with ignore := o.ignore ++ [.ofText value] }
  | .recursive => .ok { o with recursive := true }
  | .withoutOperators => .ok { o with withoutOperators := true }
  | .format => do
    let format ← (Given.ofText value).read Format.ofName? (.notChoice f value)
    return { o with format := format }
  | .verbose => .ok { o with verbose := true }

def Options.takeAll (o : Options) : List (Flag × String) → Except Stop Options
  | [] => .ok o
  | (f, value) :: rest => do
    let o ← o.take f value
    o.takeAll rest

/-- The value of an option that has none attached: the next argument, if it is a word. -/
def nextValue (f : Flag) : List Argument → Except UsageError (String × List Argument)
  | ⟨text, .word⟩ :: rest => .ok (text, rest)
  | _ => .error (.expectedValue f)

/-- The options spelled by letters after a one-letter option, and the arguments that are left. Each
letter is an option; the first one that takes a value takes all that is attached to it. -/
def letters (f : Flag) : List Char → List Argument →
    Except UsageError (List (Flag × String) × List Argument)
  | [], rest =>
    if f.takesValue then do
      let (value, rest) ← nextValue f rest
      return ([(f, value)], rest)
    else .ok ([(f, "")], rest)
  | c :: cs, rest =>
    if f.takesValue then .ok ([(f, String.ofList (c :: cs))], rest)
    else
      match Flag.spellings.lookup (String.ofList ['-', c]) with
      | none => .error (.ignoredValue f (String.ofList (c :: cs)))
      | some next => do
        let (others, rest) ← letters next cs rest
        return ((f, "") :: others, rest)

/-- The options in one argument, and the arguments that are left. -/
def optionsIn (f : Flag) (tail : Tail) (rest : List Argument) :
    Except UsageError (List (Flag × String) × List Argument) :=
  match tail with
  | .nothing => letters f [] rest
  | .value cs =>
    if f.takesValue then .ok ([(f, String.ofList cs)], rest)
    else .error (.ignoredValue f (String.ofList cs))
  | .letters cs => letters f cs rest

/-- A divider right after the path goes with it. -/
def afterPath : List Argument → List Argument
  | ⟨_, .divider⟩ :: rest => rest
  | rest => rest

def takeWithin : (fuel : Nat) → Options → List Argument → Except Stop Options
  | 0, o, _ => .ok o
  | _ + 1, o, [] => .ok o
  | fuel + 1, o, a :: rest =>
    match a.kind with
    | .word =>
      if o.path.isNone then takeWithin fuel { o with path := some a.text } (afterPath rest)
      else takeWithin fuel { o with unused := o.unused ++ [a.text] } rest
    | .unknown => takeWithin fuel { o with unused := o.unused ++ [a.text] } rest
    | .divider =>
      match o.path, rest with
      | none, word :: rest => takeWithin fuel { o with path := some word.text } rest
      | _, _ => takeWithin fuel { o with unused := o.unused ++ [a.text] } rest
    | .option f tail =>
      match optionsIn f tail rest with
      | .error e => .error (.usage e)
      | .ok (options, rest) => do
        let o ← o.takeAll options
        takeWithin fuel o rest

/-- Takes all arguments. Every step takes at least one, so their number bounds the steps. -/
def takeArguments (arguments : List Argument) : Except Stop Options :=
  takeWithin arguments.length {} arguments

/-- The options of a list of arguments, with the path that has to be among them. -/
def parse (arguments : List String) : Except Stop (String × Options) :=
  match classifyAll arguments with
  | .error e => .error (.usage e)
  | .ok classified => do
    let o ← takeArguments classified
    match o.path with
    | none => .error (.usage .missingPath)
    | some path =>
      if o.unused.isEmpty then return (path, o) else .error (.usage (.unrecognized o.unused))

end CognitiveLoad.CommandLine
