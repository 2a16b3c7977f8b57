/-
# Console styles

Colours and bold face are written as escape sequences around a text. A colour ends by going
back to the default colour, bold face by dropping all attributes.
-/

namespace StagedSearch

inductive Colour where
  | yellow
  | white
  | brightBlack
  | brightRed
  | brightGreen
  | brightYellow
  | brightBlue
  | brightMagenta
  | brightCyan
  | brightWhite
deriving DecidableEq, Inhabited

namespace Colour

def code : Colour → Nat
  | yellow => 33
  | white => 37
  | brightBlack => 90
  | brightRed => 91
  | brightGreen => 92
  | brightYellow => 93
  | brightBlue => 94
  | brightMagenta => 95
  | brightCyan => 96
  | brightWhite => 97

def paint (colour : Colour) (text : String) : String :=
  s!"\x1b[{colour.code}m" ++ text ++ "\x1b[39m"

def paintBold (colour : Colour) (text : String) : String :=
  "\x1b[1m" ++ colour.paint text ++ "\x1b[0m"

end Colour

end StagedSearch
