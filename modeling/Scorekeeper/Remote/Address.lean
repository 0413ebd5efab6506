import Scorekeeper.Remote.Host
import Scorekeeper.Remote.Target
import Scorekeeper.Text.Token

/-!
# Addresses

An address is a scheme, a host with a port, and a path with a query and a
fragment.  Before the host a name and a password may stand.  What is not well
formed names no place, so that no request can be sent there.
-/

namespace Scorekeeper.Remote

open Text

inductive Scheme where
  | http
  | https
  | ws
  | wss
  | ftp
  | file
  /-- Any other scheme, by its name. -/
  | other (name : List Char)
  deriving DecidableEq, Repr

namespace Scheme

def name : Scheme → List Char
  | .http => "http".toList
  | .https => "https".toList
  | .ws => "ws".toList
  | .wss => "wss".toList
  | .ftp => "ftp".toList
  | .file => "file".toList
  | .other name => name

/-- The schemes that are known. -/
def known : List Scheme :=
  [.http, .https, .ws, .wss, .ftp, .file]

def ofName (name : List Char) : Scheme :=
  (known.find? fun scheme => scheme.name == name).getD (.other name)

/-- The port that is meant when none is given. -/
def usualPort? : Scheme → Option Nat
  | .http | .ws => some 80
  | .https | .wss => some 443
  | .ftp => some 21
  | _ => none

/-- Whether requests can be sent to addresses of the scheme. -/
def isServed : Scheme → Bool
  | .http | .https => true
  | _ => false

end Scheme

structure Address where
  scheme : Scheme
  /-- The name and the password with their marks, empty if there are none. -/
  user : List Char
  host : Host
  /-- The port, if it is not the usual one. -/
  port : Option Nat
  target : List Char
  fragment : Option (List Char)
  deriving DecidableEq, Repr

def isSchemeChar (c : Char) : Bool :=
  c.isAlpha || isDigit c || c == '+' || c == '-' || c == '.'

/-- The name of the scheme that a text begins with, in lower case, and what follows its colon. -/
def cutScheme (cs : List Char) : Option (List Char × List Char) :=
  match cut ':' cs with
  | (first :: name, some rest) =>
    if first.isAlpha ∧ name.all isSchemeChar then some (toLower (first :: name), rest) else none
  | _ => none

/-- Slashes lean either way, but for schemes that are not known. -/
def isSlash (c : Char) : Bool :=
  c == '/' || c == '\\'

/-- What stands before the path, the query and the fragment, and what follows it; the path begins
with one of `slashes`. -/
def cutAuthority (slashes cs : List Char) : List Char × List Char :=
  let goesOn (c : Char) : Bool := !slashes.contains c && c != '?' && c != '#'
  (cs.takeWhile goesOn, cs.dropWhile goesOn)

/-- The name and password before the last `@`, and the host and port after it. -/
def cutUser (authority : List Char) : List Char × List Char :=
  let place := (authority.reverse.takeWhile (· != '@')).reverse
  (authority.take (authority.length - place.length - 1), place)

/-- Writes a name and a password, which stands after the first colon. -/
def userText (user : List Char) : List Char :=
  let encode := encodePart
    ['"', '#', '<', '>', '?', '\x60', '\x7b', '\x7d', '/', ':', ';', '=', '@', '[', '\\', ']', '^',
      '|']
  let (name, password) := cut ':' user
  match encode name, encode (password.getD []) with
  | [], [] => []
  | name, [] => name ++ ['@']
  | name, password => name ++ ':' :: password ++ ['@']

/-- The host, and the port after the first colon that is not in brackets. -/
def cutPort (inBrackets : Bool) : List Char → List Char × Option (List Char)
  | [] => ([], none)
  | c :: rest =>
    if c = ':' ∧ inBrackets = false then ([], some rest)
    else
      let (host, port) := cutPort (c == '[' || (inBrackets && c != ']')) rest
      (c :: host, port)

/-- Reads a port, which may be left empty. -/
def readPort (cs : List Char) : Option (Option Nat) :=
  if cs = [] then some none
  else if cs.all isDigit && natOfDigits cs < UInt16.size then some (some (natOfDigits cs))
  else none

/-- The number of characters that an address may have. -/
def addressLimit : Nat := 65534

/-- The number of characters that the name of a scheme may have. -/
def schemeLimit : Nat := 64

namespace Address

/-- Writes an address in its usual form. -/
def text (address : Address) : List Char :=
  let port := address.port.map fun port => ':' :: digits port
  let fragment := address.fragment.map fun fragment => '#' :: fragment
  address.scheme.name ++ "://".toList ++ address.user ++ address.host.text ++ port.getD []
    ++ address.target ++ fragment.getD []

/-- Puts an address together from its host and port, and what follows them. -/
def ofParts? (scheme : Scheme) (user : List Char) (host : Option Host) (port rest : List Char) :
    Option Address := do
  let port ← readPort port
  some
    { scheme, user := userText user, host := ← host
      port := port.filter fun port => scheme.usualPort? != some port
      target := Remote.target rest, fragment := Remote.fragment? rest }

/-- Reads an address of a known scheme but that of files, from its host on. -/
def readWeb (scheme : Scheme) (cs : List Char) : Option Address :=
  let (authority, rest) := cutAuthority ['/', '\\'] cs
  let (user, place) := cutUser authority
  let (host, port) := cutPort false place
  ofParts? scheme user (Host.read? host) (port.getD []) rest

/-- Reads the address of a file on another machine, from its host on.  A drive would be on this
machine. -/
def readFile (cs : List Char) : Option Address :=
  let (authority, rest) := cutAuthority ['/', '\\'] cs
  let host := (Host.read? authority).filter fun host => host.text != "localhost".toList
  (ofParts? .file [] host [] rest).filter fun address =>
    !isDrive ((address.target.drop 1).takeWhile fun c => c != '/' && c != '?')

/-- Reads an address of a scheme that is not known, from its host on.  There a host stands as it
is, and only slashes that lean forward are slashes. -/
def readOther (name cs : List Char) : Option Address :=
  let (authority, rest) := cutAuthority ['/'] cs
  let (user, place) := cutUser authority
  let (host, port) := cutPort false place
  ofParts? (.other name) user (Host.readBare? host) ((port.getD []).takeWhile (· != '\\')) rest

/-- Reads an address that begins with a known scheme but that of files. -/
def read? (cs : List Char) : Option Address := do
  let (name, rest) ← cutScheme (tidy cs)
  match Scheme.ofName name with
  | .file | .other _ => none
  | scheme => readWeb scheme (rest.dropWhile isSlash)

end Address

end Scorekeeper.Remote
