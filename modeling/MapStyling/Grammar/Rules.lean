import MapStyling.Grammar.Pattern
import MapStyling.Text.Hexadecimal

/-!
# The Rules of Style Texts

The grammar of numbers, dimensions, colors and truth words.

Numbers, units and words are tokens, so a blank inside one ends it. A
dimension is a number with its unit directly behind it. All other rules let
spaces and tabs stand between their parts.

The words of a choice are tried in order, and a choice does not come back to
a shorter word: `y` has to stand behind `yes` for both to be read.

## Main definitions

* `RuleName`: The rules.
* `RuleName.pattern`: What each of them matches.
-/

namespace MapStyling

namespace Grammar

/-- Names of the rules. -/
inductive RuleName
  | number
  | unit
  | dimension
  | trueWord
  | falseWord
  | yamlBool
  | flagTrue
  | flagFalse
  | flag
  | numberLiteral
  | hexColor
  | rgbaColor
  | rgbColor
  | color
  | dimensions
  | dimensionList
  | endOfInput
  deriving DecidableEq, Repr

namespace RuleName

/-- The rules that a text can be matched against. -/
def all : List RuleName :=
  [number, unit, dimension, trueWord, falseWord, yamlBool, flagTrue, flagFalse, flag,
   numberLiteral, hexColor, rgbaColor, rgbColor, color, dimensions, dimensionList]

def spelling : RuleName → String
  | number => "number"
  | unit => "unit"
  | dimension => "dimension"
  | trueWord => "true_word"
  | falseWord => "false_word"
  | yamlBool => "yaml_bool"
  | flagTrue => "flag_true"
  | flagFalse => "flag_false"
  | flag => "flag"
  | numberLiteral => "number_literal"
  | hexColor => "hex_color"
  | rgbaColor => "rgba_color"
  | rgbColor => "rgb_color"
  | color => "color"
  | dimensions => "dimensions"
  | dimensionList => "dimension_list"
  | endOfInput => "EOI"

/-- The rule with a spelling. -/
def ofSpelling? (s : String) : Option RuleName :=
  all.find? fun r => r.spelling == s

end RuleName

namespace Rules

abbrev Rule := Pattern RuleName

/-- Patterns one after the other. -/
def inOrder : Rule → List Rule → Rule
  | p, [] => p
  | p, q :: qs => .sequence p (inOrder q qs)

/-- The first of several words that stands at the place. -/
def oneOf : String → List String → Rule
  | w, [] => .word w.toList
  | w, v :: vs => .choice (.word w.toList) (oneOf v vs)

def sign : Rule := .optional (oneOf "+" ["-"])

def endOfInput : Rule := .rule .endOfInput .token .finish

/-- A rule that has to match a whole text. -/
def whole (body : Rule) : Rule := inOrder .start [body, endOfInput]

def number : Rule := .rule .number .token <|
  inOrder sign
    [.choice
      (.sequence (.oneOrMore Char.isDigit)
        (.optional (.sequence (.word ['.']) (.zeroOrMore Char.isDigit))))
      (.sequence (.word ['.']) (.oneOrMore Char.isDigit)),
     .optional (inOrder (.anyCase ['e']) [sign, .oneOrMore Char.isDigit])]

def unit : Rule := .rule .unit .token (oneOf "px" ["ms", "m", "s", "%"])

def dimension : Rule := .rule .dimension .joined (.sequence number (.optional unit))

def trueWord : Rule := .rule .trueWord .token <|
  oneOf "true" ["True", "TRUE", "yes", "Yes", "YES", "on", "On", "ON", "y", "Y"]

def falseWord : Rule := .rule .falseWord .token <|
  oneOf "false" ["False", "FALSE", "no", "No", "NO", "off", "Off", "OFF", "n", "N"]

def yamlBool : Rule := .rule .yamlBool .spaced (whole (.choice trueWord falseWord))

def flagTrue : Rule := .rule .flagTrue .token (oneOf "true" [])

def flagFalse : Rule := .rule .flagFalse .token (oneOf "false" [])

def flag : Rule := .rule .flag .spaced (whole (.choice flagTrue flagFalse))

def numberLiteral : Rule := .rule .numberLiteral .spaced (whole number)

def hexColor : Rule := .rule .hexColor .token (.sequence (.word ['#']) (.oneOrMore Text.isHexDigit))

def rgbaColor : Rule := .rule .rgbaColor .spaced <|
  inOrder (.anyCase "rgba".toList)
    [.word ['('], number, .word [','], number, .word [','], number, .word [','], number,
     .word [')']]

def rgbColor : Rule := .rule .rgbColor .spaced <|
  inOrder (.anyCase "rgb".toList)
    [.word ['('], number, .word [','], number, .word [','], number, .word [')']]

def color : Rule := .rule .color .spaced <|
  whole (.choice hexColor (.choice rgbaColor rgbColor))

def dimensions : Rule := .rule .dimensions .spaced <|
  .sequence dimension (.repeated (.sequence (.word [',']) dimension))

def dimensionList : Rule := .rule .dimensionList .spaced <|
  whole (.choice (inOrder (.word ['[']) [dimensions, .word [']']]) dimensions)

end Rules

/-- What each rule matches. -/
def RuleName.pattern : RuleName → Pattern RuleName
  | .number => Rules.number
  | .unit => Rules.unit
  | .dimension => Rules.dimension
  | .trueWord => Rules.trueWord
  | .falseWord => Rules.falseWord
  | .yamlBool => Rules.yamlBool
  | .flagTrue => Rules.flagTrue
  | .flagFalse => Rules.flagFalse
  | .flag => Rules.flag
  | .numberLiteral => Rules.numberLiteral
  | .hexColor => Rules.hexColor
  | .rgbaColor => Rules.rgbaColor
  | .rgbColor => Rules.rgbColor
  | .color => Rules.color
  | .dimensions => Rules.dimensions
  | .dimensionList => Rules.dimensionList
  | .endOfInput => Rules.endOfInput

end Grammar

end MapStyling
