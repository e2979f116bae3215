import CurrencyWallet.Text.Unprintable

/-!
Texts in double quotes. Quotes and backslashes have a backslash before them, and characters without
a glyph of their own are named.
-/
namespace CurrencyWallet.Text

def codePointName (c : Char) : List Char :=
  '\\' :: 'u' :: '\x7b' :: Nat.toDigits 16 c.toNat ++ ['\x7d']

def quotedChar (c : Char) : List Char :=
  match c with
  | '\x00' => ['\\', '0']
  | '\t' => ['\\', 't']
  | '\r' => ['\\', 'r']
  | '\n' => ['\\', 'n']
  | '"' => ['\\', '"']
  | '\\' => ['\\', '\\']
  | _ => if isUnprintable c then codePointName c else [c]

def quoted (cs : List Char) : String := String.ofList ('"' :: cs.flatMap quotedChar ++ ['"'])

end CurrencyWallet.Text
