import AgentOs.Lib.IpAddress

/-!
URLs, as `urllib.parse` splits them.

A text is cut into its components without decoding them (`urlparse`); user, password, host
and port are read from the network location when they are asked for. The case mapping, the
normalisation and the quoting of texts outside ASCII are a parameter (`Unicode`).
-/

namespace AgentOs.Lib

/-- The language's tables of texts: `lower`, `unicodedata.normalize('NFKC', _)`, `repr`. -/
structure Unicode where
  lower : String → String
  nfkc : List Char → List Char
  repr : List Char → String

/-- `ParseResult`. -/
structure ParsedUrl where
  scheme : String
  netloc : List Char
  path : String
  params : String
  query : String
  fragment : String
deriving DecidableEq, Repr

namespace Url

/-- What stands after the first `c`. -/
def after (c : Char) (text : List Char) : List Char := (text.dropWhile (· ≠ c)).tail

/-- What stands before the first `c`, or the whole text. -/
def before (c : Char) (text : List Char) : List Char := text.takeWhile (· ≠ c)

/-- What stands after the last `c`, or the whole text. -/
def afterLast (c : Char) (text : List Char) : List Char := (text.reverse.takeWhile (· ≠ c)).reverse

/-- What stands before the last `c`. -/
def beforeLast (c : Char) (text : List Char) : List Char :=
  (text.reverse.dropWhile (· ≠ c)).tail.reverse

def isSchemeChar (c : Char) : Bool := c.isAlphanum || c = '+' || c = '-' || c = '.'

/-- The scheme and what follows its colon; no scheme where the text before is not one. -/
def splitScheme (url : List Char) : String × List Char :=
  let scheme := before ':' url
  if ':' ∈ url ∧ scheme.head?.any Char.isAlpha ∧ scheme.all isSchemeChar then
    (.ofList (scheme.map Char.toLower), after ':' url)
  else ("", url)

/-- `_splitnetloc(url, 2)` where the text begins with two slashes. -/
def splitNetloc : List Char → List Char × List Char
  | '/' :: '/' :: rest =>
      let inside := fun c : Char => c ≠ '/' && c ≠ '?' && c ≠ '#'
      (rest.takeWhile inside, rest.dropWhile inside)
  | url => ([], url)

/-- `_check_bracketed_host`. -/
def checkBracketedHost (unicode : Unicode) (hostname : List Char) : Except String Unit :=
  match hostname with
  | 'v' :: rest =>
      let version := rest.takeWhile IpAddress.isHexDigit
      match rest.dropWhile IpAddress.isHexDigit with
      | '.' :: _ :: _ => if version = [] then .error "IPvFuture address is invalid" else .ok ()
      | _ => .error "IPvFuture address is invalid"
  | _ =>
      match IpAddress.parse hostname with
      | none => .error (unicode.repr hostname ++ " does not appear to be an IPv4 or IPv6 address")
      | some (.v4 _) => .error "An IPv4 address cannot be in brackets"
      | some (.v6 _ _) => .ok ()

/-- `_checknetloc`: no separator appears by normalisation. -/
def checkNetloc (unicode : Unicode) (netloc : List Char) : Except String Unit :=
  if netloc.all (·.toNat < 128) then .ok ()
  else
    let plain := netloc.filter (· ∉ ['@', ':', '#', '?'])
    let normal := unicode.nfkc plain
    if plain = normal then .ok ()
    else if normal.any (· ∈ ['/', '?', '#', '@', ':']) then
      .error ("netloc '" ++ .ofList netloc ++
        "' contains invalid characters under NFKC normalization")
    else .ok ()

/-- `uses_params`. -/
def usesParams : List String :=
  ["", "ftp", "hdl", "prospero", "http", "imap", "https", "shttp", "rtsp", "rtsps", "rtspu",
    "sip", "sips", "mms", "sftp", "tel"]

/-- `_splitparams`: the parameters of the last segment. -/
def splitParams (path : List Char) : List Char × List Char :=
  let last := afterLast '/' path
  (path.take (path.length - last.length) ++ before ';' last, after ';' last)

/-- `urlparse`. -/
def urlparse (unicode : Unicode) (url : String) : Except String ParsedUrl :=
  let url := (url.toList.dropWhile (·.toNat ≤ 32)).filter (· ∉ ['\t', '\r', '\n'])
  let (scheme, url) := splitScheme url
  let (netloc, url) := splitNetloc url
  if ¬('[' ∈ netloc ↔ ']' ∈ netloc) then .error "Invalid IPv6 URL"
  else do
    if '[' ∈ netloc then checkBracketedHost unicode (before ']' (after '[' netloc))
    let fragment := after '#' url
    let url := before '#' url
    let query := after '?' url
    let path := before '?' url
    checkNetloc unicode netloc
    let (path, params) :=
      if scheme ∈ usesParams ∧ ';' ∈ path then splitParams path else (path, [])
    return { scheme, netloc, path := .ofList path, params := .ofList params,
             query := .ofList query, fragment := .ofList fragment }

end Url

namespace ParsedUrl

open Url

variable (parsed : ParsedUrl)

/-- The user's part of the location, where there is one. -/
def userinfo : Option (List Char) :=
  if '@' ∈ parsed.netloc then some (beforeLast '@' parsed.netloc) else none

def username : Option String := parsed.userinfo.map fun info => .ofList (before ':' info)

def password : Option String :=
  parsed.userinfo.bind fun info => if ':' ∈ info then some (.ofList (after ':' info)) else none

/-- `_hostinfo`: the host, and the port's text. -/
def hostinfo : List Char × List Char :=
  let location := afterLast '@' parsed.netloc
  if '[' ∈ location then
    let bracketed := after '[' location
    (before ']' bracketed, after ':' (after ']' bracketed))
  else (before ':' location, after ':' location)

/-- The host in lower case; a zone keeps its own. -/
def hostname (unicode : Unicode) : Option String :=
  let host := parsed.hostinfo.1
  if host = [] then none
  else some (unicode.lower (.ofList (before '%' host)) ++ .ofList (host.dropWhile (· ≠ '%')))

def port (unicode : Unicode) : Except String (Option ℕ) :=
  let port := parsed.hostinfo.2
  if port = [] then .ok none
  else if ¬port.all Char.isDigit then
    .error ("Port could not be cast to integer value as " ++ unicode.repr port)
  else if 4300 < port.length then
    .error ("Exceeds the limit (4300 digits) for integer string conversion: value has " ++
      toString port.length ++ " digits; use sys.set_int_max_str_digits() to increase the limit")
  else if 65535 < IpAddress.ofDigits 10 port then .error "Port out of range 0-65535"
  else .ok (some (IpAddress.ofDigits 10 port))

end ParsedUrl

end AgentOs.Lib
