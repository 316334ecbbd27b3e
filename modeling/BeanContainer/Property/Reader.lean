import BeanContainer.Property.Document

/-!
# Reading documents

Documents are written as JSON.  Numerals keep whether they were written as whole
numbers, and of several fields with one name the last one counts.
-/

namespace BeanContainer.DocumentReader

/-- The text without leading spaces, tabs and line ends. -/
def skipSpace (text : List Char) : List Char :=
  text.dropWhile fun c => c = ' ' || c = '\n' || c = '\r' || c = '\t'

/-- The value of a hexadecimal digit. -/
def hexDigit? (c : Char) : Option Nat :=
  if c.isDigit then some (c.toNat - '0'.toNat)
  else if 'a' ≤ c.toLower && c.toLower ≤ 'f' then some (c.toLower.toNat - 'a'.toNat + 10)
  else none

/-- Four hexadecimal digits. -/
def readUnit : List Char → Option (Nat × List Char)
  | a :: b :: c :: d :: rest => do
      let digits ← [a, b, c, d].mapM hexDigit?
      return (digits.foldl (fun number digit => 16 * number + digit) 0, rest)
  | _ => none

/-- The character behind a backslash and a `u`, which may take two units. -/
def readPoint (text : List Char) : Option (Char × List Char) := do
  let (first, rest) ← readUnit text
  if first < 0xd800 ∨ 0xdfff < first then return (Char.ofNat first, rest)
  else
    let rest ← Text.dropFront? "\\u".toList rest
    let (second, rest) ← readUnit rest
    if first < 0xdc00 ∧ 0xdc00 ≤ second ∧ second ≤ 0xdfff then
      return (Char.ofNat (0x10000 + (first - 0xd800) * 0x400 + (second - 0xdc00)), rest)
    else none

/-- What a single character behind a backslash stands for. -/
def unescape? (c : Char) : Option Char :=
  match c with
  | '"' | '\\' | '/' => some c
  | 'n' => some '\n'
  | 't' => some '\t'
  | 'r' => some '\r'
  | 'b' => some '\x08'
  | 'f' => some '\x0c'
  | _ => none

/-- The characters up to the closing quote. -/
def readText : (fuel : Nat) → List Char → Option (List Char × List Char)
  | 0, _ => none
  | _ + 1, '"' :: rest => some ([], rest)
  | fuel + 1, '\\' :: 'u' :: rest => do
      let (c, rest) ← readPoint rest
      let (tail, rest) ← readText fuel rest
      return (c :: tail, rest)
  | fuel + 1, '\\' :: escaped :: rest => do
      let c ← unescape? escaped
      let (tail, rest) ← readText fuel rest
      return (c :: tail, rest)
  | fuel + 1, c :: rest => do
      let (tail, rest) ← readText fuel rest
      return (c :: tail, rest)
  | _ + 1, [] => none

mutual

/-- A document at the start of the text. -/
def readValue : (fuel : Nat) → List Char → Option (Document × List Char)
  | 0, _ => none
  | fuel + 1, text =>
      match skipSpace text with
      | 't' :: 'r' :: 'u' :: 'e' :: rest => some (.bool true, rest)
      | 'f' :: 'a' :: 'l' :: 's' :: 'e' :: rest => some (.bool false, rest)
      | 'n' :: 'u' :: 'l' :: 'l' :: rest => some (.null, rest)
      | '"' :: rest => do
          let (content, rest) ← readText rest.length rest
          return (.text (String.ofList content), rest)
      | '[' :: rest =>
          match skipSpace rest with
          | ']' :: rest => some (.array [], rest)
          | rest => do
              let (items, rest) ← readItems fuel rest
              return (.array items, rest)
      | '\x7b' :: rest =>
          match skipSpace rest with
          | '\x7d' :: rest => some (.object [], rest)
          | rest => do
              let (fields, rest) ← readFields fuel rest
              return (.ofFields fields, rest)
      | rest => do
          let numeral := rest.takeWhile fun c =>
            c.isDigit || c = '-' || c = '+' || c = '.' || c = 'e' || c = 'E'
          let number ← DocumentNumber.read? (String.ofList numeral)
          return (.number number, rest.drop numeral.length)

/-- One or more items up to the closing bracket. -/
def readItems : (fuel : Nat) → List Char → Option (List Document × List Char)
  | 0, _ => none
  | fuel + 1, text => do
      let (item, rest) ← readValue fuel text
      match skipSpace rest with
      | ',' :: rest => do
          let (items, rest) ← readItems fuel (skipSpace rest)
          return (item :: items, rest)
      | ']' :: rest => return ([item], rest)
      | _ => none

/-- One or more fields up to the closing brace. -/
def readFields : (fuel : Nat) → List Char → Option (List (String × Document) × List Char)
  | 0, _ => none
  | fuel + 1, '"' :: rest => do
      let (name, rest) ← readText rest.length rest
      let rest ← Text.dropFront? [':'] (skipSpace rest)
      let (value, rest) ← readValue fuel rest
      match skipSpace rest with
      | ',' :: rest => do
          let (fields, rest) ← readFields fuel (skipSpace rest)
          return ((String.ofList name, value) :: fields, rest)
      | '\x7d' :: rest => return ([(String.ofList name, value)], rest)
      | _ => none
  | _ + 1, _ => none

end

end BeanContainer.DocumentReader

namespace BeanContainer.Document

/-- Reads a document that makes up the whole text, but for space around it. -/
def read? (text : String) : Option Document := do
  let chars := text.toList
  let (document, rest) ← DocumentReader.readValue (2 * chars.length + 2) chars
  if (DocumentReader.skipSpace rest).isEmpty then some document else none

/-- The value of a field of an object. -/
def field? (document : Document) (name : String) : Option Document :=
  match document with
  | .object fields => (fields.find? fun field => field.1 = name).map (·.2)
  | _ => none

end BeanContainer.Document
