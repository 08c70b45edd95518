import OperatorGen.Unicode.Property

/-!
# Text in diagnostics

A diagnostic that quotes a text shows what is in it: quotes, backslashes and the common
controls are escaped by a letter, and every character that cannot be shown by itself is
written as its code point.
-/
namespace OperatorGen.Diagnostic

/-- A character as it stands between the quotes. -/
def quoteChar (c : Char) : List Char :=
  match c with
  | '\x00' => ['\\', '0']
  | '\t' => ['\\', 't']
  | '\r' => ['\\', 'r']
  | '\n' => ['\\', 'n']
  | '"' => ['\\', '"']
  | '\\' => ['\\', '\\']
  | c =>
    if Unicode.isVisible c then [c]
    else ['\\', 'u', '\x7b'] ++ Nat.toDigits 16 c.toNat ++ ['\x7d']

/-- A text in quotes. -/
def quote (text : String) : String :=
  String.ofList ('"' :: (text.toList.flatMap quoteChar ++ ['"']))

end OperatorGen.Diagnostic
