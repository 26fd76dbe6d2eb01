import JourneyPlanner.Text.Visible

/-!
# Diagnostic texts

Diagnostics put a text between quotes and show characters that cannot be seen
as escapes.
-/

namespace JourneyPlanner.Text

/-- A character as it stands between the quotes of a diagnostic. -/
def diagnosticChar (c : Char) : List Char :=
  if c = '"' then ['\\', '"']
  else if c = '\\' then ['\\', '\\']
  else if c = '\n' then ['\\', 'n']
  else if c = '\r' then ['\\', 'r']
  else if c = '\t' then ['\\', 't']
  else if c.toNat = 0 then ['\\', '0']
  else if isVisible c then [c]
  else ['\\', 'u', '\x7b'] ++ Nat.toDigits 16 c.toNat ++ ['\x7d']

/-- A text between the quotes of a diagnostic. -/
def diagnosticQuoted (text : String) : String :=
  "\"" ++ String.ofList (text.toList.flatMap diagnosticChar) ++ "\""

end JourneyPlanner.Text
