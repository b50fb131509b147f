import Runbook.Text.Ascii
import Runbook.Text.Invisible

/-!
Texts in double quotes, as messages show them: what a reader could not see is written as an escape.
-/

namespace Runbook.Text

/-- The escape that stands for a character inside double quotes. -/
def quotedChar (c : Char) : String :=
  match c with
  | '\x00' => "\\0"
  | '\t' => "\\t"
  | '\n' => "\\n"
  | '\r' => "\\r"
  | '"' => "\\\""
  | '\\' => "\\\\"
  | c => if isInvisible c then "\\u\x7b" ++ hexText c.toNat ++ "\x7d" else c.toString

/-- A text in double quotes. -/
def quoted (text : String) : String :=
  "\"" ++ text.toList.foldl (fun shown c => shown ++ quotedChar c) "" ++ "\""

end Runbook.Text
