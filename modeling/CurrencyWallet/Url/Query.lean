import CurrencyWallet.Text.Numeral
import CurrencyWallet.Text.Split
import CurrencyWallet.Text.Utf8

/-!
The entries after the question mark of an address. They are split at `&` and at their first `=`;
then a plus is a space, and a percent sign with two hexadecimal digits is a byte.
-/
namespace CurrencyWallet.Url

open Text

def percentDecode : List Char → List UInt8
  | '%' :: high :: low :: rest =>
    match hexDigit? high, hexDigit? low with
    | some h, some l => UInt8.ofNat (16 * h + l) :: percentDecode rest
    | _, _ => Utf8.encode ['%'] ++ percentDecode (high :: low :: rest)
  | c :: rest => Utf8.encode [c] ++ percentDecode rest
  | [] => []

def decodeComponent (cs : List Char) : List Char :=
  Utf8.decodeLossy (percentDecode (cs.map fun c => if c = '+' then ' ' else c))

def queryEntry (cs : List Char) : List Char × List Char :=
  let (name, value) := (splitOnce '=' cs).getD (cs, [])
  (decodeComponent name, decodeComponent value)

def queryEntries (cs : List Char) : List (List Char × List Char) :=
  ((splitAt '&' cs).filter fun entry => !entry.isEmpty).map queryEntry

def queryText (cs : List Char) : List Char :=
  ((splitOnce '?' (cs.takeWhile (· ≠ '#'))).map (·.2)).getD []

end CurrencyWallet.Url
