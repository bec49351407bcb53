import LoopLang.Text.WidthTable

namespace LoopLang.Text

def isBlank (c : Char) : Bool := blanks.contains c

/-- The columns of a terminal that a character takes. Controls are counted as one, and the Khmer
    abbreviation for "and so on", which is drawn as three signs, as three. -/
def columns (c : Char) : Nat :=
  if c.toNat < 0x7f then 1
  else if c.toNat = 0x17d8 then 3
  else if weightless.contains c then 0
  else if wide.contains c then 2
  else 1

end LoopLang.Text
