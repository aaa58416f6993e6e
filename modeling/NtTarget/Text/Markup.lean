/-!
# Escaped markup text

Five characters have a meaning of their own inside markup and are written as
entities; every other character stands for itself.
-/

namespace NtTarget.Markup

/-- The entity of a character that cannot stand for itself. -/
def entity? (c : Char) : Option String :=
  match c with
  | '<' => some "&lt;"
  | '>' => some "&gt;"
  | '&' => some "&amp;"
  | '\'' => some "&apos;"
  | '"' => some "&quot;"
  | _ => none

def escapeChar (c : Char) : List Char :=
  match entity? c with
  | some entity => entity.toList
  | none => [c]

/-- A text with its five special characters replaced by their entities. -/
def escape (text : String) : String :=
  String.ofList (text.toList.flatMap escapeChar)

end NtTarget.Markup
