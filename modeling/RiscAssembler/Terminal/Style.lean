/-!
Contract: styled text for a terminal.

Owns:
- whether colours are in use, by the settings of the environment;
- the styles in use and the control sequences that switch them on and off;
- text painted in a style, which is the bare text when colours are off.

A reset inside the text would end the style early, so the style is switched on again behind it.
-/

namespace RiscAssembler.Terminal

/-- Whether control sequences are written. -/
inductive Colours where
  | on
  | off
deriving DecidableEq, Repr

/-- What decides about colours: the values of three variables of the environment, those that are
set, and whether the output channel leads to a terminal. -/
structure Settings where
  noColor : Option String
  cliColor : Option String
  cliColorForce : Option String
  isTerminal : Bool
deriving DecidableEq, Repr

/-- Colours are on if they are forced, and otherwise off if they are refused. Otherwise a terminal
has them, unless it is told not to. The value `0` says no, and any other value yes, except that a
refusal holds with any value. -/
def Settings.colours (settings : Settings) : Colours :=
  if settings.cliColorForce.any (· ≠ "0") then .on
  else if settings.noColor.isSome then .off
  else if settings.isTerminal ∧ settings.cliColor.all (· ≠ "0") then .on
  else .off

inductive Style where
  | bold
  | red
  | boldRed
deriving DecidableEq, Repr

/-- The control sequence that ends every style. -/
def reset : List Char := ['\x1b', '[', '0', 'm']

def Style.start : Style → List Char
  | bold => ['\x1b', '[', '1', 'm']
  | red => ['\x1b', '[', '3', '1', 'm']
  | boldRed => ['\x1b', '[', '1', ';', '3', '1', 'm']

/-- Switches the style on again behind every reset inside the text. -/
def Style.resumed (style : Style) : List Char → List Char
  | [] => []
  | '\x1b' :: '[' :: '0' :: 'm' :: rest => reset ++ style.start ++ style.resumed rest
  | character :: rest => character :: style.resumed rest

def paint (colours : Colours) (style : Style) (text : List Char) : List Char :=
  match colours with
  | .on => style.start ++ style.resumed text ++ reset
  | .off => text

end RiscAssembler.Terminal
