/-!
Contract: the arguments of the command line.

Owns:
- the options and the operand, with the requests that they make;
- the reading of a list of arguments from the left, which ends at the first fault or at a request
  for help or for the version;
- the faults of usage and their messages.

Does not own: the wording of help.

An option that takes a value takes it behind an equals sign, or in the same argument behind its
letter, or from the next argument. From the next argument it takes nothing that starts with a dash,
except a single dash. Letters can be grouped behind one dash. Behind two dashes alone every
argument is an operand.
-/

namespace RiscAssembler.CommandLine

inductive Product where
  | machineCode
  | tokens
  | instructions
deriving DecidableEq, Repr

def Product.ofName? : String → Option Product
  | "bin" => some machineCode
  | "tokens" => some tokens
  | "instructions" => some instructions
  | _ => none

inductive ReportStyle where
  | human
  | plain
  | json
deriving DecidableEq, Repr

def ReportStyle.ofName? : String → Option ReportStyle
  | "human" => some human
  | "plain" => some plain
  | "json" => some json
  | _ => none

inductive ValueOption where
  | output
  | emit
  | diagnostics
deriving DecidableEq, Repr

inductive Flag where
  | verbose
  | quiet
  | help
  | version
deriving DecidableEq, Repr

def ValueOption.ofName? : String → Option ValueOption
  | "output" => some output
  | "emit" => some emit
  | "diagnostics" => some diagnostics
  | _ => none

def ValueOption.name : ValueOption → String
  | output => "--output"
  | emit => "--emit"
  | diagnostics => "--diagnostics"

def ValueOption.ofLetter? : Char → Option ValueOption
  | 'o' => some output
  | _ => none

def Flag.ofName? : String → Option Flag
  | "verbose" => some verbose
  | "quiet" => some quiet
  | "help" => some help
  | "version" => some version
  | _ => none

def Flag.ofLetter? : Char → Option Flag
  | 'v' => some verbose
  | 'q' => some quiet
  | 'h' => some help
  | 'V' => some version
  | _ => none

inductive UsageFault where
  | missingInput
  | emptyInput
  | unexpectedOperand (argument : String)
  | unknownOption (argument : String)
  | unwantedValue (argument : String)
  | missingValue (option : ValueOption)
  | invalidValue (option : ValueOption) (value : String)
  | repeatedOption (argument : String)
deriving DecidableEq, Repr

def UsageFault.message : UsageFault → String
  | missingInput => "no input file is given"
  | emptyInput => "the path of the input file is empty"
  | unexpectedOperand argument => "unexpected argument " ++ argument
  | unknownOption argument => "unknown option " ++ argument
  | unwantedValue argument => "no value is expected in " ++ argument
  | missingValue option => "a value is required for " ++ option.name
  | invalidValue option value => "invalid value " ++ value ++ " for " ++ option.name
  | repeatedOption argument => argument ++ " cannot be given twice"

/-- Why the reading of arguments ends before their end. -/
inductive Stop where
  | usage (fault : UsageFault)
  | help
  | version
deriving DecidableEq, Repr

/-- What has been chosen so far. -/
structure Choices where
  input : Option String
  output : Option String
  product : Option Product
  reportStyle : Option ReportStyle
  quiet : Bool
deriving DecidableEq, Repr

namespace Choices

def initial : Choices := ⟨none, none, none, none, false⟩

def choose (option : ValueOption) (value : String) (choices : Choices) : Except Stop Choices :=
  match option with
  | .output =>
      if value.isEmpty then .error (.usage (.missingValue option))
      else if choices.output.isSome then .error (.usage (.repeatedOption option.name))
      else .ok { choices with output := some value }
  | .emit =>
      match Product.ofName? value with
      | none => .error (.usage (.invalidValue option value))
      | some product =>
          if choices.product.isSome then .error (.usage (.repeatedOption option.name))
          else .ok { choices with product := some product }
  | .diagnostics =>
      match ReportStyle.ofName? value with
      | none => .error (.usage (.invalidValue option value))
      | some style =>
          if choices.reportStyle.isSome then .error (.usage (.repeatedOption option.name))
          else .ok { choices with reportStyle := some style }

/-- Raises a flag. Two of them set which log lines are written, and of these only the verbose one
may be raised again. The other two end the reading. -/
def raise (flag : Flag) (choices : Choices) : Except Stop Choices :=
  match flag with
  | .verbose => .ok choices
  | .quiet =>
      if choices.quiet then .error (.usage (.repeatedOption "--quiet"))
      else .ok { choices with quiet := true }
  | .help => .error .help
  | .version => .error .version

/-- Takes an operand, of which there may be only one. -/
def takeOperand (argument : String) (choices : Choices) : Except Stop Choices :=
  if choices.input.isSome then .error (.usage (.unexpectedOperand argument))
  else if argument.isEmpty then .error (.usage .emptyInput)
  else .ok { choices with input := some argument }

end Choices

/-- The choices after an argument, and the option that still waits for its value. -/
abbrev Taken : Type := Choices × Option ValueOption

def takeLong (text : List Char) (choices : Choices) : Except Stop Taken :=
  let name := String.ofList (text.takeWhile (· ≠ '='))
  let argument := "--" ++ String.ofList text
  match ValueOption.ofName? name, text.dropWhile (· ≠ '=') with
  | some option, [] => .ok (choices, some option)
  | some option, _ :: value => do
      if value.isEmpty then .error (.usage (.missingValue option))
      else return (← choices.choose option (String.ofList value), none)
  | none, value =>
      match Flag.ofName? name with
      | none => .error (.usage (.unknownOption argument))
      | some flag =>
          if value.isEmpty then do return (← choices.raise flag, none)
          else .error (.usage (.unwantedValue argument))

/-- Reads a group of letters, without its dash. -/
def takeLetters : List Char → Choices → Except Stop Taken
  | [], choices => .ok (choices, none)
  | letter :: rest, choices =>
      match ValueOption.ofLetter? letter, rest with
      | some option, [] => .ok (choices, some option)
      | some option, '=' :: value => do
          if value.isEmpty then .error (.usage (.missingValue option))
          else return (← choices.choose option (String.ofList value), none)
      | some option, value => do return (← choices.choose option (String.ofList value), none)
      | none, rest =>
          match Flag.ofLetter? letter with
          | none => .error (.usage (.unknownOption (String.ofList ['-', letter])))
          | some flag => do takeLetters rest (← choices.raise flag)

/-- Reads one argument that is not the two dashes alone. -/
def take (argument : String) (choices : Choices) : Except Stop Taken :=
  match argument.toList with
  | '-' :: '-' :: text => takeLong text choices
  | '-' :: letter :: rest => takeLetters (letter :: rest) choices
  | _ => do return (← choices.takeOperand argument, none)

/-- Whether an argument can be the value of the option in front of it. -/
def isValue (argument : String) : Bool :=
  argument = "-" || argument.toList.head? ≠ some '-'

/-- Reads arguments behind two dashes, which are all operands. -/
def takeOperands (choices : Choices) : List String → Except Stop Choices
  | [] => .ok choices
  | argument :: rest => do takeOperands (← choices.takeOperand argument) rest

def takeAll (choices : Choices) : List String → Except Stop Choices
  | [] => .ok choices
  | "--" :: rest => takeOperands choices rest
  | argument :: rest =>
      match take argument choices with
      | .error stop => .error stop
      | .ok (choices, none) => takeAll choices rest
      | .ok (choices, some option) =>
          match rest with
          | [] => .error (.usage (.missingValue option))
          | value :: rest =>
              if isValue value then
                match choices.choose option value with
                | .error stop => .error stop
                | .ok choices => takeAll choices rest
              else .error (.usage (.missingValue option))

structure Request where
  input : String
  output : Option String
  product : Product
  reportStyle : ReportStyle
deriving DecidableEq, Repr

/-- What a list of arguments asks for. Machine code and a report for people are the defaults. -/
def Request.ofArguments (arguments : List String) : Except Stop Request := do
  let choices ← takeAll .initial arguments
  match choices.input with
  | none => .error (.usage .missingInput)
  | some input =>
      return {
        input
        output := choices.output
        product := choices.product.getD .machineCode
        reportStyle := choices.reportStyle.getD .human }

end RiscAssembler.CommandLine
