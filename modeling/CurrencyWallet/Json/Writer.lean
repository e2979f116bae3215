import CurrencyWallet.Json.Basic

/-!
Writing JSON text, in one line or with one member a line.
-/
namespace CurrencyWallet.Json

open Text

/-- A quote, a backslash and every control character are escaped. -/
def escape (c : Char) : List Char :=
  match c with
  | '"' => ['\\', '"']
  | '\\' => ['\\', '\\']
  | '\x08' => ['\\', 'b']
  | '\x0c' => ['\\', 'f']
  | '\n' => ['\\', 'n']
  | '\r' => ['\\', 'r']
  | '\t' => ['\\', 't']
  | c =>
    if c.toNat < 0x20 then
      ['\\', 'u', '0', '0', hexDigit (c.toNat / 16), hexDigit (c.toNat % 16)]
    else [c]

def quote (s : String) : String := String.ofList ('"' :: s.toList.flatMap escape ++ ['"'])

def numberText (negative : Bool) (magnitude : Binary64) : String :=
  let body := String.ofList magnitude.plainText
  let body := if body.contains '.' then body else body ++ ".0"
  if negative then "-" ++ body else body

structure Layout where
  lineBreak : Nat → String
  afterColon : String

def Layout.line : Layout := ⟨fun _ => "", ""⟩

def Layout.indented : Layout :=
  ⟨fun depth => String.ofList ('\n' :: List.replicate (2 * depth) ' '), " "⟩

mutual

def write (layout : Layout) (depth : Nat) : Json → String
  | null => "null"
  | bool b => if b then "true" else "false"
  | whole n => toString n
  | binary negative magnitude => numberText negative magnitude
  | string s => quote s
  | array [] => "[]"
  | array (item :: items) =>
    "[" ++ layout.lineBreak (depth + 1) ++ write layout (depth + 1) item ++
      writeItems layout (depth + 1) items ++ layout.lineBreak depth ++ "]"
  | object [] => "\x7b\x7d"
  | object (m :: members) =>
    "\x7b" ++ layout.lineBreak (depth + 1) ++ writeMember layout (depth + 1) m ++
      writeMembers layout (depth + 1) members ++ layout.lineBreak depth ++ "\x7d"

def writeItems (layout : Layout) (depth : Nat) : List Json → String
  | [] => ""
  | item :: items =>
    "," ++ layout.lineBreak depth ++ write layout depth item ++ writeItems layout depth items

def writeMember (layout : Layout) (depth : Nat) : String × Json → String
  | (name, value) => quote name ++ ":" ++ layout.afterColon ++ write layout depth value

def writeMembers (layout : Layout) (depth : Nat) : List (String × Json) → String
  | [] => ""
  | m :: members =>
    "," ++ layout.lineBreak depth ++ writeMember layout depth m ++
      writeMembers layout depth members

end

def toLine (j : Json) : String := j.write .line 0

def toLines (j : Json) : String := j.write .indented 0

end CurrencyWallet.Json
