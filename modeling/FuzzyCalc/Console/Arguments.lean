import FuzzyCalc.Decimal.Numeral
import FuzzyCalc.Text.Quoted

/-!
# Command-line arguments

The program has four options and no other arguments. A long option may be cut short as long as it
stays unambiguous, and takes its value from the next argument or after an equals sign. Short options
may be bundled, and the value of the last one may follow at once. The arguments are first told apart
into options and plain arguments, then read from left to right; what nothing takes is refused at the
end. Asking for help ends the reading at once.
-/

namespace FuzzyCalc.Console

/-- The options. -/
inductive Flag where
  /-- Show the help. -/
  | help
  /-- Evaluate the line that is the value of this option. -/
  | evaluate
  /-- Trace the evaluation. -/
  | verbose
  /-- Use the precision that is the value of this option. -/
  | precision
  deriving DecidableEq, Repr, Inhabited

namespace Flag

/-- All options. -/
def all : List Flag := [help, evaluate, verbose, precision]

/-- The letter of the short form. -/
def short? : Flag → Option Char
  | help => some 'h'
  | evaluate => some 'e'
  | verbose => some 'v'
  | precision => none

/-- The long form without its two dashes. -/
def long : Flag → List Char
  | help => "help".toList
  | evaluate => "evaluate".toList
  | verbose => "verbose".toList
  | precision => "precision".toList

/-- Whether the option has a value. -/
def takesValue : Flag → Bool
  | help | verbose => false
  | evaluate | precision => true

/-- The option with a short form. -/
def ofShort? (c : Char) : Option Flag := all.find? (·.short? == some c)

/-- The option with a long form. -/
def ofLong? (name : List Char) : Option Flag := all.find? (·.long == name)

/-- All forms of an option, as error messages name it. -/
def names (flag : Flag) : String :=
  match flag.short? with
  | some c => String.ofList ['-', c] ++ "/--" ++ String.ofList flag.long
  | none => "--" ++ String.ofList flag.long

end Flag

/-- What is wrong with the arguments. -/
inductive UsageError where
  /-- A cut short option with several meanings. -/
  | ambiguous (argument : List Char) (options : List Flag)
  /-- An option without its value. -/
  | missingValue (flag : Flag)
  /-- An option with a value that it does not take. -/
  | unexpectedValue (flag : Flag) (value : List Char)
  /-- A precision that is not an integer. -/
  | notAnInteger (value : List Char)
  /-- Arguments that nothing takes. -/
  | unrecognized (arguments : List (List Char))
  /-- A precision below one. -/
  | noPrecision
  deriving DecidableEq, Repr, Inhabited

/-- The message for wrong arguments. -/
def UsageError.message : UsageError → String
  | ambiguous argument options =>
    "ambiguous option: " ++ String.ofList argument ++ " could match " ++
      String.intercalate ", " (options.map fun flag ↦ "--" ++ String.ofList flag.long)
  | missingValue flag => "argument " ++ flag.names ++ ": expected one argument"
  | unexpectedValue flag value =>
    "argument " ++ flag.names ++ ": ignored explicit argument " ++
      String.ofList (Text.quoted value)
  | notAnInteger value =>
    "argument " ++ Flag.precision.names ++ ": invalid int value: " ++
      String.ofList (Text.quoted value)
  | unrecognized arguments =>
    "unrecognized arguments: " ++ String.intercalate " " (arguments.map String.ofList)
  | noPrecision => "precision must be at least 1"

/-- An argument by its form. -/
inductive Argument where
  /-- An argument that can be the value of an option. -/
  | plain (text : List Char)
  /-- Two dashes: everything after them is plain. -/
  | separator
  /-- An option in its long form, with the text after the equals sign if there is one. -/
  | long (flag : Flag) (value : Option (List Char))
  /-- A short option and what follows it in the same argument. -/
  | short (flag : Flag) (tail : List Char)
  /-- An option that the program does not have. -/
  | unknown (text : List Char)
  deriving DecidableEq, Repr, Inhabited

namespace Argument

/-- Split a text at the first equals sign. -/
def splitValue (text : List Char) : List Char × Option (List Char) :=
  match text.dropWhile (· != '=') with
  | [] => (text, none)
  | _ :: value => (text.takeWhile (· != '='), some value)

/-- Whether a text after its dash is a number: digits of any script, with at most one point, which
has digits behind it. A line break may follow. -/
def isUnsignedNumber (text : List Char) : Bool :=
  let isDigit := fun c ↦ (Text.digitValue? c).isSome
  let text := if text.getLast? = some '\n' then text.dropLast else text
  match text.dropWhile isDigit with
  | [] => !text.isEmpty
  | '.' :: decimals => !decimals.isEmpty && decimals.all isDigit
  | _ => false

/-- An argument that begins with a dash but is no option of the program. -/
def notAnOption (text : List Char) : Argument :=
  if isUnsignedNumber text.tail || text.contains ' ' then plain text else unknown text

/-- Tell the form of an argument before any separator. -/
def ofText (text : List Char) : Except UsageError Argument :=
  match text with
  | ['-', '-'] => .ok .separator
  | '-' :: '-' :: body =>
    let (name, value) := splitValue body
    match Flag.ofLong? name with
    | some flag => .ok (.long flag value)
    | none =>
      match Flag.all.filter fun flag ↦ name.isPrefixOf flag.long with
      | [] => .ok (notAnOption text)
      | [flag] => .ok (.long flag value)
      | flags => .error (.ambiguous text flags)
  | '-' :: c :: tail =>
    match Flag.ofShort? c with
    | some flag => .ok (.short flag tail)
    | none => .ok (notAnOption text)
  | _ => .ok (.plain text)

/-- Tell the forms of all arguments. -/
def ofTexts : List (List Char) → Except UsageError (List Argument)
  | [] => .ok []
  | text :: rest => do
    match ← ofText text with
    | .separator => .ok (.separator :: rest.map plain)
    | argument => return argument :: (← ofTexts rest)

end Argument

/-- What the arguments ask for. -/
structure Settings where
  /-- The lines to evaluate. -/
  lines : List (List Char)
  /-- How often tracing was asked for. -/
  verbosity : Nat
  /-- The precision. -/
  precision : Int
  /-- The arguments that nothing has taken. -/
  leftOver : List (List Char)
  deriving DecidableEq, Repr, Inhabited

/-- The settings without any arguments. -/
def Settings.standard : Settings := ⟨[], 0, 28, []⟩

/-- What the program is asked to do. -/
inductive Intent where
  /-- Show the help. -/
  | showHelp
  /-- Run with settings. -/
  | run (settings : Settings)
  deriving DecidableEq, Repr, Inhabited

/-- The most digits that the value of an option may have. -/
def maxIntegerDigits : Nat := 4300

/-- Whether a character may stand around an integer. -/
def isIntegerBlank (c : Char) : Bool :=
  Text.isBlank c && !(0x1C ≤ c.toNat && c.toNat ≤ 0x1F)

/-- Drop underscores that stand between two digits; any other underscore stays. -/
def dropSeparators : List Char → List Char
  | a :: '_' :: b :: rest =>
    if Digits.isDigit a && Digits.isDigit b then a :: dropSeparators (b :: rest)
    else a :: '_' :: dropSeparators (b :: rest)
  | a :: rest => a :: dropSeparators rest
  | [] => []

/-- Read an integer: blanks around, a sign, digits of any script with single underscores between
them. -/
def readInteger? (text : List Char) : Option Int :=
  let trimmed := ((text.dropWhile isIntegerBlank).reverse.dropWhile isIntegerBlank).reverse
  let plain := dropSeparators (trimmed.map Decimal.toAsciiDigit)
  if maxIntegerDigits < plain.countP Digits.isDigit then none else Decimal.readSigned? plain

namespace Settings

/-- Take an option with its value. -/
def takeValue (s : Settings) (flag : Flag) (value : List Char) : Except UsageError Settings :=
  match flag with
  | .precision =>
    match readInteger? value with
    | some n => .ok { s with precision := n }
    | none => .error (.notAnInteger value)
  | _ => .ok { s with lines := s.lines ++ [value] }

/-- Leave an argument to be refused at the end. -/
def leave (s : Settings) (text : List Char) : Settings := { s with leftOver := s.leftOver ++ [text] }

end Settings

/-- How a bundle of short options ends. -/
inductive BundleEnd where
  /-- With an option that has no value. -/
  | closed
  /-- With an option and its value. -/
  | value (flag : Flag) (text : List Char)
  /-- With an option whose value is the next argument. -/
  | waiting (flag : Flag)
  /-- With letters that are no option. -/
  | unknown (text : List Char)
  deriving DecidableEq, Repr, Inhabited

/-- A bundle of short options. -/
structure Bundle where
  /-- The options without a value, in order. -/
  flags : List Flag
  /-- How the bundle ends. -/
  ending : BundleEnd
  deriving DecidableEq, Repr, Inhabited

namespace Bundle

/-- Put an option without a value in front. -/
def cons (flag : Flag) (b : Bundle) : Bundle := { b with flags := flag :: b.flags }

/-- Read a bundle: an option and the characters after it. An equals sign after an option begins its
value. -/
def read (flag : Flag) : List Char → Except UsageError Bundle
  | [] => .ok (if flag.takesValue then ⟨[], .waiting flag⟩ else ⟨[flag], .closed⟩)
  | c :: tail =>
    if flag.takesValue then .ok ⟨[], .value flag (if c == '=' then tail else c :: tail)⟩
    else if c == '=' then .error (.unexpectedValue flag tail)
    else if c == '-' then .error (.unexpectedValue flag (c :: tail))
    else match Flag.ofShort? c with
      | some next => cons flag <$> read next tail
      | none => .ok ⟨[flag], .unknown ('-' :: c :: tail)⟩

end Bundle

/-- One step that the arguments ask for. -/
inductive Action where
  /-- An option without a value. -/
  | flag (flag : Flag)
  /-- An option with its value. -/
  | value (flag : Flag) (text : List Char)
  /-- An argument that nothing takes. -/
  | leave (text : List Char)
  /-- Something is wrong. -/
  | fail (error : UsageError)
  deriving DecidableEq, Repr, Inhabited

/-- The actions that arguments ask for, up to the first wrong one. An option may be waiting for its
value, with the options bundled before it. -/
def actions : (waiting : Option (List Flag × Flag)) → List Argument → List Action
  | none, [] => []
  | some (flags, flag), .plain text :: rest =>
    flags.map .flag ++ .value flag text :: actions none rest
  | some (_, flag), _ => [.fail (.missingValue flag)]
  | none, .plain text :: rest => .leave text :: actions none rest
  | none, .separator :: rest => .leave ['-', '-'] :: actions none rest
  | none, .unknown text :: rest => .leave text :: actions none rest
  | none, .long flag (some text) :: rest =>
    if flag.takesValue then .value flag text :: actions none rest
    else [.fail (.unexpectedValue flag text)]
  | none, .long flag none :: rest =>
    if flag.takesValue then actions (some ([], flag)) rest else .flag flag :: actions none rest
  | none, .short flag tail :: rest =>
    match Bundle.read flag tail with
    | .error error => [.fail error]
    | .ok ⟨flags, .closed⟩ => flags.map .flag ++ actions none rest
    | .ok ⟨flags, .value flag text⟩ => flags.map .flag ++ .value flag text :: actions none rest
    | .ok ⟨flags, .waiting flag⟩ => actions (some (flags, flag)) rest
    | .ok ⟨flags, .unknown text⟩ => flags.map .flag ++ .leave text :: actions none rest

/-- Carry out actions one after the other. Asking for help ends it. -/
def carryOut (s : Settings) : List Action → Except UsageError Intent
  | [] => .ok (.run s)
  | .flag flag :: rest =>
    if flag = .help then .ok .showHelp
    else carryOut { s with verbosity := s.verbosity + 1 } rest
  | .value flag text :: rest =>
    match s.takeValue flag text with
    | .ok s => carryOut s rest
    | .error error => .error error
  | .leave text :: rest => carryOut (s.leave text) rest
  | .fail error :: _ => .error error

/-- Read the arguments of the program. -/
def parseArguments (texts : List (List Char)) : Except UsageError Intent := do
  match ← carryOut .standard (actions none (← Argument.ofTexts texts)) with
  | .showHelp => .ok .showHelp
  | .run s => if s.leftOver = [] then .ok (.run s) else .error (.unrecognized s.leftOver)

end FuzzyCalc.Console
