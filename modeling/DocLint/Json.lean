/-!
JSON values and their indented text.

* `Json` has the values that reports are made of; a number is a natural number,
  and the fields of an object keep their order, repeated names included.
* `Json.quote` writes a string between quotes. Quotes, backslashes and control
  characters are escaped, all other characters stand for themselves.
* `Json.write` writes a value with two blanks per level and one item a line;
  what is empty is written without a line of its own.
-/

namespace DocLint

/-- A JSON value. -/
inductive Json where
  | bool (b : Bool)
  | number (n : Nat)
  | string (s : String)
  | array (items : List Json)
  | object (fields : List (String × Json))

namespace Json

/-! ### Strings -/

/-- A hexadecimal digit, letters in lower case. -/
def hexDigit (n : Nat) : Char :=
  if n < 10 then Char.ofNat (0x30 + n) else Char.ofNat (0x61 + (n - 10))

/-- A character within quotes. -/
def escape (c : Char) : List Char :=
  if c = '\x22' then ['\\', '\x22']
  else if c = '\\' then ['\\', '\\']
  else if c = '\x08' then ['\\', 'b']
  else if c = '\t' then ['\\', 't']
  else if c = '\n' then ['\\', 'n']
  else if c = '\x0c' then ['\\', 'f']
  else if c = '\r' then ['\\', 'r']
  else if c.toNat < 0x20 then
    ['\\', 'u', '0', '0', hexDigit (c.toNat / 16), hexDigit (c.toNat % 16)]
  else [c]

/-- A string between quotes. -/
def quote (s : String) : List Char :=
  '\x22' :: (s.toList.flatMap escape ++ ['\x22'])

/-! ### Values -/

/-- A new line of the given level. -/
def newline (level : Nat) : List Char :=
  '\n' :: List.replicate (2 * level) ' '

mutual

/-- The text of a value whose first line is of the given level. -/
def write (level : Nat) : Json → List Char
  | bool true => "true".toList
  | bool false => "false".toList
  | number n => (toString n).toList
  | string s => quote s
  | array [] => ['[', ']']
  | array (x :: xs) => '[' :: writeItems (level + 1) (x :: xs) ++ newline level ++ [']']
  | object [] => ['\x7b', '\x7d']
  | object (f :: fs) =>
    '\x7b' :: writeFields (level + 1) (f :: fs) ++ newline level ++ ['\x7d']

/-- Items on lines of their own, with commas between them. -/
def writeItems (level : Nat) : List Json → List Char
  | [] => []
  | [x] => newline level ++ write level x
  | x :: y :: ys => newline level ++ write level x ++ ',' :: writeItems level (y :: ys)

/-- Fields on lines of their own, with commas between them. -/
def writeFields (level : Nat) : List (String × Json) → List Char
  | [] => []
  | [f] => newline level ++ writeField level f
  | f :: g :: gs => newline level ++ writeField level f ++ ',' :: writeFields level (g :: gs)

/-- A name, a colon and a value. -/
def writeField (level : Nat) : String × Json → List Char
  | (name, x) => quote name ++ ':' :: ' ' :: write level x

end

/-- The text of a value, with a line end after it. -/
def document (x : Json) : String :=
  String.ofList (write 0 x ++ ['\n'])

/-- Every item has a line, and nothing is escaped without need. -/
example : write 0 (array [array [], object [("é", bool true)], string "\t\x7f"]) =
    "[\n  [],\n  \x7b\n    \"é\": true\n  \x7d,\n  \"\\t\x7f\"\n]".toList := by decide

end Json

end DocLint
