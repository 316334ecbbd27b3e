import BeanContainer.Text.Invisible

/-!
# Quoted text

A text between double quotes.  Quotes and backslashes take a backslash, line
ends, tabs and the null character have letters, and every other character
without a shape of its own is spelt out by its code point.
-/

namespace BeanContainer.Text

/-- One character inside quotes. -/
def quoteChar (c : Char) : List Char :=
  match c with
  | '"' => ['\\', '"']
  | '\\' => ['\\', '\\']
  | '\n' => ['\\', 'n']
  | '\r' => ['\\', 'r']
  | '\t' => ['\\', 't']
  | '\x00' => ['\\', '0']
  | c =>
      if isInvisible c then
        "\\u\x7b".toList ++ Nat.toDigits 16 c.toNat ++ "\x7d".toList
      else [c]

/-- The text between quotes. -/
def quote (text : String) : String :=
  String.ofList ('"' :: text.toList.flatMap quoteChar ++ ['"'])

example : quote "a\"b\n" = "\"a\\\"b\\n\"" := by decide

end BeanContainer.Text
