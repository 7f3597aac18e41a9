/-
# Tags

A tag says what a node stands for. A plain scalar without a tag gets one from its
text: the numerals, truth values, dates and the words for nothing are known by
their form, and everything else is text. Two marks, `<<` and `=`, are known too;
as values they stand for nothing that can be made.
-/

import DataContract.Text.Digit

set_option autoImplicit false

namespace DataContract.Yaml

/-- What a node stands for. -/
inductive Tag where
  | null
  | boolean
  | integer
  | float
  | timestamp
  | text
  | sequence
  | mapping
  | set
  | bytes
  | pairs
  | merge
  | defaultValue
  | unknown
deriving DecidableEq

namespace Tag

/-- The beginning that the names of all known tags have. -/
def namespaceText : String := "tag:yaml.org,2002:"

/-- The known tags by the end of their names. -/
def names : List (String × Tag) :=
  [("null", .null), ("bool", .boolean), ("int", .integer), ("float", .float),
    ("timestamp", .timestamp), ("str", .text), ("seq", .sequence), ("map", .mapping),
    ("set", .set), ("binary", .bytes), ("omap", .pairs), ("pairs", .pairs), ("merge", .merge),
    ("value", .defaultValue)]

/-- The tag with a name. -/
def ofName (name : String) : Tag :=
  ((names.find? fun (word, _) => namespaceText ++ word == name).map (·.2)).getD .unknown

/-- The words for truth values: each in lower case, with a capital, and in capitals. -/
def booleanWords : List (String × Bool) :=
  [("yes", true), ("Yes", true), ("YES", true), ("no", false), ("No", false), ("NO", false),
    ("true", true), ("True", true), ("TRUE", true), ("false", false), ("False", false),
    ("FALSE", false), ("on", true), ("On", true), ("ON", true), ("off", false), ("Off", false),
    ("OFF", false)]

/-- The words for nothing. -/
def nullWords : List String := ["", "~", "null", "Null", "NULL"]

/-- A numeral without its sign. -/
def dropSign : List Char → List Char
  | '+' :: rest | '-' :: rest => rest
  | cs => cs

/-- Whether a character is a digit or the low line that may stand between digits. -/
def isLooseDigit (c : Char) : Bool := Text.isAsciiDigit c || c == '_'

/-- Whether a text is not empty and made of some characters. -/
def isRun (admits : Char → Bool) (cs : List Char) : Bool := !cs.isEmpty && cs.all admits

/-- Whether a text is a run of digits and low lines that begins with a digit. -/
def isLooseNumeral : List Char → Bool
  | c :: rest => Text.isAsciiDigit c && rest.all isLooseDigit
  | [] => false

/-- Whether a text is a number of minutes or seconds. -/
def isSixtieth : List Char → Bool
  | [d] => Text.isAsciiDigit d
  | [t, d] => '0' ≤ t && t ≤ '5' && Text.isAsciiDigit d
  | _ => false

/-- A text split at its colons. -/
def colonParts (cs : List Char) : List (List Char) := cs.splitOn ':'

/-- Whether a text has colons, a numeral before the first and sixtieths after each. -/
def isSexagesimal (cs : List Char) : Bool :=
  match colonParts cs with
  | first :: second :: rest => isLooseNumeral first && (second :: rest).all isSixtieth
  | _ => false

/-- Whether a character is a digit of base sixteen or a low line. -/
def isLooseHex (c : Char) : Bool := (Text.hexValue? c).isSome || c == '_'

/-- Whether a text has the form of an integer: of base two, eight, ten, sixteen or sixty. -/
def isInteger (cs : List Char) : Bool :=
  match dropSign cs with
  | ['0'] => true
  | '0' :: 'b' :: rest => isRun (fun c => c == '0' || c == '1' || c == '_') rest
  | '0' :: 'x' :: rest => isRun isLooseHex rest
  | '0' :: rest => isRun (fun c => ('0' ≤ c && c ≤ '7') || c == '_') rest
  | cs => isLooseNumeral cs || isSexagesimal cs

/-- Whether a text is empty or an exponent, which needs a sign. -/
def isExponent : List Char → Bool
  | [] => true
  | e :: sign :: digits =>
    (e == 'e' || e == 'E') && (sign == '+' || sign == '-') && isRun Text.isAsciiDigit digits
  | _ => false

/-- Whether a text is a fraction after its point, with the exponent that may follow. -/
def isFraction (cs : List Char) : Bool := isExponent (cs.dropWhile isLooseDigit)

/-- Whether a text is one of three spellings of a word. -/
def isWord (spellings : List String) (cs : List Char) : Bool :=
  spellings.contains (String.ofList cs)

/-- Whether a text has the form of a number with a fraction. -/
def isFloat (cs : List Char) : Bool :=
  let unsigned := dropSign cs
  let whole := unsigned.takeWhile (· != '.')
  match unsigned.dropWhile (· != '.') with
  | [] => false
  | _ :: fraction =>
    if whole.isEmpty then
      isWord ["inf", "Inf", "INF"] fraction ||
        (unsigned.length == cs.length &&
          (isWord ["nan", "NaN", "NAN"] fraction ||
            (fraction.head?.any Text.isAsciiDigit && isFraction fraction)))
    else
      (isLooseNumeral whole && isFraction fraction) ||
        (isSexagesimal whole && fraction.all isLooseDigit)

end Tag

end DataContract.Yaml
