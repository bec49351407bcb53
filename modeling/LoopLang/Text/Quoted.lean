import LoopLang.Text.InvisibleTable

namespace LoopLang.Text

/-- A character between single quotes, as messages show it. The quote and the backslash are
    escaped, and so is all that could not be seen. -/
def quoted (c : Char) : String :=
  let body :=
    match c with
    | '\x00' => "\\0"
    | '\t' => "\\t"
    | '\r' => "\\r"
    | '\n' => "\\n"
    | '\'' => "\\'"
    | '\\' => "\\\\"
    | c =>
      if invisible.contains c then
        "\\u\x7b" ++ String.ofList (Nat.toDigits 16 c.toNat) ++ "\x7d"
      else c.toString
  "'" ++ body ++ "'"

end LoopLang.Text
