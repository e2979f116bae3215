import CurrencyWallet.Ledger.Error
import CurrencyWallet.Text.Quoted
import CurrencyWallet.Url.Authority

/-!
Addresses of databases. Nothing answers at any of them, so that all there is to an address is what
is wrong with it.
-/
namespace CurrencyWallet.DatabaseUrl

open Text

def numberFault? (bound : Nat) (cs : List Char) : Option String :=
  let body := match cs with | '+' :: rest => rest | _ => cs
  match digits? body with
  | none => some "invalid digit found in string"
  | some [] =>
    some (if cs.isEmpty then "cannot parse integer from empty string"
      else "invalid digit found in string")
  | some ds => if ofDigits 0 ds < bound then none else some "number too large to fit in target type"

def sslModes : List String := ["disable", "allow", "prefer", "require", "verify-ca", "verify-full"]

def sslModeFault? (value : List Char) : Option String :=
  if String.ofList (value.map Char.toLower) ∈ sslModes then none
  else some ((StorageFault.configuration
    ("unknown value " ++ quoted value ++ " for \x60ssl_mode\x60")).message)

def optionFault? (name value : List Char) : Option String :=
  match String.ofList name with
  | "port" => numberFault? (2 ^ 16) value
  | "sslmode" | "ssl-mode" => sslModeFault? value
  | "statement-cache-capacity" => numberFault? (2 ^ 64) value
  | "hostaddr" =>
    if Url.isByteQuad value || Url.isEightGroups value then none
    else some "invalid IP address syntax"
  | _ => none

/-- What is wrong with the texts of an address; a host that begins with a slash is a file name. -/
def textFault? (a : Url.Authority) : Option String :=
  let host := Url.percentDecode a.host
  (if host.head? = some 0x2f then Utf8.fault? host else none) <|>
    Utf8.fault? (Url.percentDecode a.user) <|> Utf8.fault? (Url.percentDecode a.password)

def fault? (url : String) : Option String :=
  match Url.read url.toList with
  | .error fault => some fault.message
  | .ok (authority, query) =>
    authority.bind textFault? <|>
      (Url.queryEntries query).findSome? fun (name, value) => optionFault? name value

/-- How an attempt to connect ends: no server answers. -/
def connect (url : String) : StorageFault :=
  match fault? url with
  | some reason => .configuration reason
  | none => .poolTimedOut

end CurrencyWallet.DatabaseUrl
