import ApiExposure.Net.Domain
import ApiExposure.Text.Percent

/-!
# Absolute URLs

Tells whether a text is an absolute URL and, if not, what is wrong with it.
Control characters and blanks around the text and tabs and line breaks inside
it do not count. Schemes of the web family need a host, the scheme of local
files may have one, and all other schemes may have one behind two slashes.
-/

namespace ApiExposure

/-- What is wrong with a text that is no absolute URL. -/
inductive UrlError where
  /-- No scheme in front. -/
  | relative
  /-- A host is needed and missing. -/
  | emptyHost
  /-- The host is no domain name. -/
  | badName
  /-- The port is no number below `2 ^ 16`. -/
  | badPort
  /-- The host ends in a number but is no version 4 address. -/
  | badAddress4
  /-- The host opens with a square bracket but is no version 6 address. -/
  | badAddress6
  /-- The host of an unknown scheme holds a character that no host can hold. -/
  | badHostCharacter
  deriving DecidableEq, Repr

namespace UrlError

/-- The wording of the fault. -/
def message : UrlError → String
  | relative => "relative URL without a base"
  | emptyHost => "empty host"
  | badName => "invalid international domain name"
  | badPort => "invalid port number"
  | badAddress4 => "invalid IPv4 address"
  | badAddress6 => "invalid IPv6 address"
  | badHostCharacter => "invalid domain character"

end UrlError

namespace Url

open Net Text

/-- Families of schemes that treat their host differently. -/
inductive Family where
  /-- Web schemes, which need a host. -/
  | web
  /-- Local files. -/
  | file
  /-- All other schemes. -/
  | other
  deriving DecidableEq, Repr

/-- The family of a scheme in lower case. -/
def family (scheme : List Char) : Family :=
  let s := String.ofList scheme
  if s = "http" ∨ s = "https" ∨ s = "ws" ∨ s = "wss" ∨ s = "ftp" then .web
  else if s = "file" then .file else .other

/-- The characters that count. -/
def significant (text : String) : List Char :=
  let low := fun (c : Char) => c.toNat ≤ 0x20
  let cs := (text.toList.dropWhile low).reverse.dropWhile low
  cs.reverse.filter (fun c => c ≠ '\t' ∧ c ≠ '\n' ∧ c ≠ '\r')

/-- A character that a scheme may hold behind its first letter. -/
def isSchemeChar (c : Char) : Bool := c.isAlphanum || c == '+' || c == '-' || c == '.'

/-- The scheme in lower case and the text behind its colon. -/
def scheme? (cs : List Char) : Option (List Char × List Char) :=
  match cs with
  | [] => none
  | c :: _ =>
    if !c.isAlpha then none
    else
      match cs.dropWhile isSchemeChar with
      | ':' :: rest => some ((cs.takeWhile isSchemeChar).map Char.toLower, rest)
      | _ => none

/-- A slash of either direction. -/
def isSlash (c : Char) : Bool := c == '/' || c == '\\'

/-- Characters that end the authority. -/
def endsAuthority (special : Bool) (c : Char) : Bool :=
  c == '/' || c == '?' || c == '#' || (special && c == '\\')

/-- The text behind the last `@` of the authority, and whether user data of at least one
character stands before it. -/
def splitUser (special : Bool) (cs : List Char) : Option (Bool × List Char) :=
  let authority := cs.takeWhile (fun c => !endsAuthority special c)
  if !authority.contains '@' then some (false, cs)
  else
    let host := (authority.reverse.takeWhile (· ≠ '@')).reverse
    let user := authority.take (authority.length - host.length - 1)
    let rest := cs.drop (user.length + 1)
    if user.isEmpty then
      match rest with
      | c :: _ => if endsAuthority special c then none else some (false, rest)
      | [] => some (false, rest)
    else some (user ≠ [':'], rest)

/-- The host in front of a port or path; a colon inside square brackets belongs to it. -/
def takeHost (special : Bool) : Bool → List Char → List Char × List Char
  | _, [] => ([], [])
  | inside, c :: cs =>
    if (c = ':' ∧ inside = false) ∨ endsAuthority special c then ([], c :: cs)
    else
      let inside := if c = '[' then true else if c = ']' then false else inside
      let (host, rest) := takeHost special inside cs
      (c :: host, rest)

/-- Checks a host in square brackets. -/
def checkBrackets (host : List Char) : Except UrlError Unit :=
  let inner := (host.drop 1).dropLast
  if host.length ≥ 2 ∧ host.getLast? = some ']' ∧ isAddress6 inner then .ok ()
  else .error .badAddress6

/-- Checks a host of a web or file URL. -/
def checkHost (host : List Char) : Except UrlError Unit :=
  if host.head? = some '[' then checkBrackets host
  else
    match utf8? (percentBytes host) with
    | none => .error .badName
    | some text =>
      match mapName? text.toList with
      | none => .error .badName
      | some name =>
        if !isName name then .error .badName
        else if name.isEmpty then .error .emptyHost
        else if endsInNumber name ∧ !isAddress4 name then .error .badAddress4
        else .ok ()

/-- Checks a host of an unknown scheme. -/
def checkOpaqueHost (host : List Char) : Except UrlError Unit :=
  if host.head? = some '[' then checkBrackets host
  else if host.any (fun c => "\x00 #/:<>?@[\\]^|".toList.contains c) then
    .error .badHostCharacter
  else .ok ()

/-- Checks the port behind a colon: digits up to the path. -/
def checkPort (cs : List Char) : Except UrlError Unit :=
  let (ds, rest) := takeDigits cs
  if valueOf 10 ds > 65535 then .error .badPort
  else
    match rest with
    | [] => .ok ()
    | c :: _ => if endsAuthority true c then .ok () else .error .badPort

/-- Checks user data, host and port. -/
def checkAuthority (fam : Family) (cs : List Char) : Except UrlError Unit :=
  let special := fam == .web
  match splitUser special cs with
  | none => .error .emptyHost
  | some (hasUser, rest) => do
    let (host, rest) := takeHost special false rest
    if special && host.isEmpty then .error .emptyHost
    if special then checkHost host else checkOpaqueHost host
    match rest with
    | ':' :: port =>
      if host.isEmpty then .error .emptyHost
      checkPort port
    | _ => .ok ()
    if host.isEmpty && hasUser then .error .emptyHost else .ok ()

/-- Checks the optional host of a file URL; a drive letter is no host. -/
def checkFile : List Char → Except UrlError Unit
  | a :: b :: cs =>
    if isSlash a && isSlash b then
      let host := cs.takeWhile (fun c => !endsAuthority true c)
      let drive := match host with
        | [c, d] => c.isAlpha && (d == ':' || d == '|')
        | _ => false
      if host.isEmpty || drive then .ok () else checkHost host
    else .ok ()
  | _ => .ok ()

/-- Whether a text is an absolute URL, or what is wrong with it. -/
def check (text : String) : Except UrlError Unit :=
  match scheme? (significant text) with
  | none => .error .relative
  | some (scheme, rest) =>
    match family scheme with
    | .web => checkAuthority .web (rest.dropWhile isSlash)
    | .file => checkFile rest
    | .other =>
      match rest with
      | '/' :: '/' :: rest => checkAuthority .other rest
      | _ => .ok ()

end Url

end ApiExposure
