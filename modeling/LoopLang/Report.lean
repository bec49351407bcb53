import LoopLang.Error
import LoopLang.Text.Width

namespace LoopLang

namespace Position

/-- The number of characters before the place of a line and column in `source`. A column past the
    end of its line counts as the end of the line, and a line past the last one as the end. -/
def offsetAt (column : Nat) : (line : Nat) → (source : List Char) → Nat
  | 0, source => source.length
  | 1, source => min (column - 1) (source.takeWhile (· ≠ '\n')).length
  | line + 2, source =>
    match source.dropWhile (· ≠ '\n') with
    | [] => source.length
    | _ :: rest => source.length - rest.length + offsetAt column (line + 1) rest

def offset (p : Position) (source : List Char) : Nat := offsetAt p.column p.line source

end Position

namespace Report

def endsLine (c : Char) : Bool :=
  c == '\r' || c == '\n' || c == '\x0b' || c == '\x0c' || c == '\u0085' || c == '\u2028' ||
    c == '\u2029'

/-- The lines of a text with what ends them; `begun` is the line so far, in reverse. -/
def linesFrom (begun : List Char) : List Char → List (List Char)
  | [] => if begun.isEmpty then [] else [begun.reverse]
  | '\r' :: '\n' :: cs => ('\n' :: '\r' :: begun).reverse :: linesFrom [] cs
  | c :: cs =>
    if endsLine c then (c :: begun).reverse :: linesFrom [] cs else linesFrom (c :: begun) cs

/-- A place in a text as reports give it: the line's number from zero, the column in it from zero,
    and the line. The end of the text is on the last line. -/
structure Spot where
  line : Nat
  column : Nat
  text : List Char
  deriving DecidableEq, Repr

def spotIn (offset : Nat) : List (List Char) → Spot
  | [] => ⟨0, offset, []⟩
  | [text] => ⟨0, offset, text⟩
  | text :: rest =>
    if offset < text.length then ⟨0, offset, text⟩
    else
      let spot := spotIn (offset - text.length) rest
      { spot with line := spot.line + 1 }

def Spot.isInside (s : Spot) : Bool := s.column < s.text.length

inductive Colour where
  | red | frame | margin | source | note
  deriving DecidableEq, Repr

def Colour.code : Colour → String
  | red => "31"
  | frame => "38;5;246"
  | margin => "38;5;240"
  | source => "38;5;249"
  | note => "38;5;115"

structure Style where
  coloured : Bool
  width : Nat

namespace Style

def paint (s : Style) (c : Colour) (text : String) : String :=
  if s.coloured then "\x1b[" ++ c.code ++ "m" ++ text ++ "\x1b[0m" else text

def blank (n : Nat) : String := String.ofList (List.replicate n ' ')

def repeated (n : Nat) (text : String) : String := String.join (List.replicate n text)

def tabWidth : Nat := 4

/-- A character of the source as it is shown, with its columns. Tabs and other blanks are spaces;
    the size of a tab depends on the number of characters before it. -/
def shown (index : Nat) (c : Char) : Char × Nat :=
  if c = '\t' then (' ', tabWidth - index % tabWidth)
  else if Text.isBlank c then (' ', 1)
  else (c, Text.columns c)

/-- The columns of each of the first `count` characters of a line, and one each beyond its end. -/
def widths (text : List Char) (count : Nat) : List Nat :=
  (List.range count).map fun i => (text[i]?.map fun c => (shown i c).2).getD 1

def margin (s : Style) : String := " " ++ s.paint .margin (blank (s.width + 1) ++ "│") ++ " "

def sourceRow (s : Style) (number : Nat) (text : List Char) (column : Nat) : String :=
  let digits := toString (number + 1)
  let row := text.zipIdx.map fun (c, i) =>
    let (c, width) := shown i c
    let painted := s.paint (if i = column then .red else .source) c.toString
    if c = ' ' then repeated width painted else painted
  " " ++ s.paint .frame (blank (s.width - digits.length) ++ digits ++ " │") ++ " " ++
    String.join row ++ "\n"

def markRow (s : Style) (text : List Char) (column : Nat) : String :=
  let cell := fun (i, width) =>
    if i = column then
      match width with
      | 0 => ""
      | n + 1 => s.paint .red "┬" ++ repeated n (s.paint .red "─")
    else blank width
  let row := (widths text (column + 3)).zipIdx.map fun (w, i) => cell (i, w)
  s.margin ++ String.join row ++ "\n"

def messageRow (s : Style) (text : List Char) (column : Nat) (message : String) : String :=
  let cell := fun (i, width) =>
    if i < column then blank width
    else if i = column then
      match width with
      | 0 => ""
      | n + 1 => s.paint .red "╰" ++ repeated n (s.paint .red "─")
    else repeated width (s.paint .red "─")
  let row := (widths text (column + 3)).zipIdx.map fun (w, i) => cell (i, w)
  s.margin ++ String.join row ++ " " ++ message ++ "\n"

def noteRows (s : Style) (note : String) : String :=
  s.margin ++ "\n" ++ s.margin ++ s.paint .note "Note" ++ ": " ++ note ++ "\n"

end Style

def trimEnd (text : List Char) : List Char := (text.reverse.dropWhile Text.isBlank).reverse

def framed (coloured : Bool) (file title message : String) (note : Option String) (spot : Spot) :
    String :=
  let number := toString (spot.line + 1)
  let s : Style := ⟨coloured, number.length⟩
  let text := trimEnd spot.text
  let head :=
    s.paint .red "Error:" ++ s!" {title}\n" ++ Style.blank (s.width + 2) ++ s.paint .frame "╭" ++
      s.paint .frame "─" ++ s.paint .frame "[" ++ s!" {file}:{number}:{spot.column + 1} " ++
      s.paint .frame "]" ++ "\n" ++ Style.blank (s.width + 2) ++ s.paint .frame "│" ++ "\n"
  let body :=
    if spot.isInside then
      s.sourceRow spot.line text spot.column ++ s.markRow text spot.column ++
        s.messageRow text spot.column message
    else s.margin ++ "\n"
  let foot := s.paint .frame (Style.repeated (s.width + 2) "─" ++ "╯") ++ "\n"
  head ++ body ++ (note.map s.noteRows).getD "" ++ foot

end Report

namespace Error

/-- The report on an error in a file. An error without a place has no frame. -/
def render (e : Error) (file source : String) (coloured : Bool) : String :=
  match e.position? with
  | none =>
    (⟨coloured, 0⟩ : Report.Style).paint .red "Error:" ++ s!" {e.title}: {e.message}\n"
  | some position =>
    let cs := source.toList
    let spot := Report.spotIn (position.offset cs) (Report.linesFrom [] cs)
    let note := e.function?.map fun f => s!"{f.text} defined at {f.position.text}"
    Report.framed coloured file e.title e.message note spot

end Error
end LoopLang
