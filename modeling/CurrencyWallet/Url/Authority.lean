import CurrencyWallet.Url.Host

/-!
The part of an address between two slashes and its path: a user with a password, a host and a port.
In the special schemes a backslash is as good as a slash, and the slashes may be missing or too
many.
-/
namespace CurrencyWallet.Url

open Text

def endsAuthority (special : Bool) (c : Char) : Bool :=
  c = '/' || c = '?' || c = '#' || (special && c = '\\')

def splitUser (cs : List Char) : Option (List Char × List Char) :=
  (splitOnce '@' cs.reverse).map fun (host, user) => (user.reverse, host.reverse)

/-- The host and what follows it. A colon in brackets belongs to the host. -/
def splitHost (bracketed : Bool) : List Char → List Char × List Char
  | [] => ([], [])
  | c :: cs =>
    if c = ':' ∧ ¬ bracketed then ([], c :: cs)
    else
      let inside := c = '[' ∨ (bracketed ∧ c ≠ ']')
      let (host, rest) := splitHost inside cs
      (c :: host, rest)

/-- Decimal digits of a number of 16 bits, or nothing; what follows a backslash does not count. -/
def isPort (cs : List Char) : Bool :=
  (digits? (cs.takeWhile (· ≠ '\\'))).any fun ds => ofDigits 0 ds < 2 ^ 16

structure Authority where
  host : List Char
  user : List Char
  password : List Char
  deriving DecidableEq

def Authority.ofTexts (userText hostText : List Char) : Authority :=
  let (user, password) := (splitOnce ':' userText).getD (userText, [])
  ⟨(splitHost false hostText).1, user, password⟩

def hostAndPortFault? (special : Bool) (cs : List Char) : Option Fault :=
  let (host, rest) := splitHost false cs
  if host.isEmpty && (special || !rest.isEmpty) then some .emptyHost
  else hostFault? special host <|>
    if isPort (rest.drop 1) then none else some .badPort

def readAuthority (special more : Bool) (cs : List Char) : Except Fault Authority :=
  let (hasUser, userText, hostText) := match splitUser cs with
    | some (user, host) => (true, user, host)
    | none => (false, [], cs)
  let authority := Authority.ofTexts userText hostText
  let isNamed := !authority.user.isEmpty || !authority.password.isEmpty
  if hasUser && userText.isEmpty && hostText.isEmpty && more then .error .emptyHost
  else match hostAndPortFault? special hostText with
    | some fault => .error fault
    | none => if isNamed && hostText.isEmpty then .error .emptyHost else .ok authority

def specialSchemes : List String := ["http", "https", "ws", "wss", "ftp"]

def isDriveName : List Char → Bool
  | [letter, mark] => letter.isAlpha && (mark = ':' || mark = '|')
  | _ => false

def readFileHost (cs : List Char) : Except Fault Unit :=
  if cs.isEmpty || isDriveName cs then .ok ()
  else match hostFault? true cs with
    | some fault => .error fault
    | none => .ok ()

def isSlash (c : Char) : Bool := c = '/' || c = '\\'

def isSchemeChar (c : Char) : Bool := c.isAlphanum || c = '+' || c = '-' || c = '.'

def splitScheme (cs : List Char) : Option (String × List Char) :=
  (splitOnce ':' cs).bind fun (scheme, rest) =>
    if (scheme.head?.any Char.isAlpha) && scheme.all isSchemeChar then
      some (String.ofList (scheme.map Char.toLower), rest)
    else none

/-- Removes controls and spaces at both ends, and tabs and line ends everywhere. -/
def cleaned (cs : List Char) : List Char :=
  let trimmed (cs : List Char) := cs.dropWhile (· ≤ ' ')
  (trimmed (trimmed cs).reverse).reverse.filter fun c => c ≠ '\t' ∧ c ≠ '\n' ∧ c ≠ '\r'

def read (cs : List Char) : Except Fault (Option Authority × List Char) :=
  match splitScheme (cleaned cs) with
  | none => .error .noScheme
  | some (scheme, rest) =>
    let query := queryText rest
    let authority (special : Bool) (start : List Char) :=
      let text := start.takeWhile fun c => !endsAuthority special c
      let more := !(start.drop text.length).isEmpty
      (readAuthority special more text).map fun authority => (some authority, query)
    if scheme ∈ specialSchemes then authority true (rest.dropWhile isSlash)
    else match rest with
      | first :: second :: start =>
        if scheme = "file" ∧ isSlash first ∧ isSlash second then
          (readFileHost (start.takeWhile fun c => !endsAuthority true c)).map fun _ => (none, query)
        else if scheme ≠ "file" ∧ first = '/' ∧ second = '/' then authority false start
        else .ok (none, query)
      | _ => .ok (none, query)

end CurrencyWallet.Url
