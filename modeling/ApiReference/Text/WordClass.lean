import ApiReference.Text.Alphabetic
import ApiReference.Text.Mark
import ApiReference.Text.Numeral
import ApiReference.Text.Ranges

/-!
# Classes of word characters

Letters, digits and the characters that make up a word. On ASCII each class is the familiar one;
beyond it, the properties of the character database decide.
-/

namespace ApiReference.Text

def isLetter (c : Char) : Bool :=
  if c.toNat < 128 then c.isAlpha else inRanges alphabeticRanges c

/-- A decimal digit of any script. -/
def isDecimal (c : Char) : Bool :=
  if c.toNat < 128 then c.isDigit else inRanges decimalRanges c

/-- A letter or a numeral of any kind. -/
def isAlphanumeric (c : Char) : Bool :=
  isLetter c || isDecimal c || (128 ≤ c.toNat && inRanges numeralRanges c)

/-- A connector such as the low line. -/
def isConnector (c : Char) : Bool :=
  inRanges [(0x5F, 0x5F), (0x203F, 0x2040), (0x2054, 0x2054), (0xFE33, 0xFE34), (0xFE4D, 0xFE4F),
    (0xFF3F, 0xFF3F)] c

/-- A character of a word: letter, mark, decimal digit, connector or joiner. -/
def isWordChar (c : Char) : Bool :=
  isLetter c || isDecimal c || c == '_' ||
    (128 ≤ c.toNat && (inRanges markRanges c || isConnector c || c.toNat == 0x200C ||
      c.toNat == 0x200D))

end ApiReference.Text
