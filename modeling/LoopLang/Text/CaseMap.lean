import LoopLang.Text.CaseTable

namespace LoopLang.Text

namespace CaseRun

def image? (r : CaseRun) (c : Char) : Option Char :=
  if r.first ≤ c.toNat ∧ c.toNat ≤ r.last ∧ (c.toNat - r.first) % r.step = 0 then
    some (Char.ofNat (c.toNat - r.first + r.image))
  else none

end CaseRun

/-- What a character becomes: its long form, else the form of the first run that covers it, else
    itself. -/
def mapCase (runs : List CaseRun) (long : List (Nat × List Nat)) (c : Char) : List Char :=
  match long.lookup c.toNat with
  | some form => form.map Char.ofNat
  | none => [(runs.findSome? (·.image? c)).getD c]

def upperChar (c : Char) : List Char := mapCase capitals longCapitals c

def lowerChar (c : Char) : List Char := mapCase smallLetters longSmallLetters c

def meetsCased (cs : List Char) : Bool :=
  match cs.dropWhile caseIgnorable.contains with
  | [] => false
  | c :: _ => casedLetters.contains c

/-- The small sigma depends on its place: at the end of a word it is the final form. -/
def lowerSigma (before after : List Char) : Char :=
  if meetsCased before && !meetsCased after then 'ς' else 'σ'

/-- The small letters of a text, with the characters before it in reverse. -/
def lowerFrom (before : List Char) : List Char → List Char
  | [] => []
  | c :: after =>
    (if c = 'Σ' then [lowerSigma before after] else lowerChar c) ++ lowerFrom (c :: before) after

def lowerCase (s : String) : String := String.ofList (lowerFrom [] s.toList)

def upperCase (s : String) : String := String.ofList (s.toList.flatMap upperChar)

end LoopLang.Text
