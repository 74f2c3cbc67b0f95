import AuthorWatch.Text.Quoted

/-! Addresses of feeds: a scheme, and an authority after two slashes. A host in brackets
has to be an IP address of version 6 or of a later kind. -/

namespace AuthorWatch

/-- Why an address cannot be split. -/
inductive AddressFault where
  | unbalancedBrackets
  | badFutureHost
  | notIpAddress (host : Text)
  | ipv4InBrackets
  /-- The authority holds a character that stands for one which separates parts. -/
  | disguisedSeparator (authority : Text)
  deriving DecidableEq

namespace AddressFault

def message : AddressFault → Text
  | unbalancedBrackets => "Invalid IPv6 URL"
  | badFutureHost => "IPvFuture address is invalid"
  | notIpAddress host => host.quoted ++ " does not appear to be an IPv4 or IPv6 address"
  | ipv4InBrackets => "An IPv4 address cannot be in brackets"
  | disguisedSeparator authority =>
    "netloc '" ++ authority ++ "' contains invalid characters under NFKC normalization"

end AddressFault

structure Address where
  scheme : Text
  authority : Text
  deriving DecidableEq

namespace Address

/-! ### Hosts in brackets -/

/-- A decimal number up to 255 without zeros in front. -/
def isOctet (t : Text) : Bool :=
  match t.mapM Glyph.digit? with
  | some [_] => true
  | some (0 :: _) => false
  | some [_, _] => true
  | some [a, b, c] => a * 100 + b * 10 + c ≤ 255
  | _ => false

def isIpv4 (t : Text) : Bool :=
  let octets := t.splitOn (.char '.')
  octets.length = 4 && octets.all isOctet

/-- One to four hexadecimal digits. -/
def isGroup (t : Text) : Bool :=
  0 < t.length && t.length ≤ 4 && t.all fun g => g.hexDigit?.isSome

/-- The groups of an address; an IPv4 address at its end counts as two. -/
def groups? (t : Text) : Option (List Text) :=
  let groups := t.splitOn (.char ':')
  match groups.getLast? with
  | some last =>
    if groups.length < 3 then none
    else if .char '.' ∈ last then
      if isIpv4 last then some (groups.dropLast ++ [[.char '0'], [.char '0']]) else none
    else some groups
  | none => none

/-- Eight groups, or fewer with one gap. A gap at an end shows as two empty groups. -/
def isIpv6Groups (groups : List Text) : Bool :=
  let inner := (groups.drop 1).dropLast
  match inner.findIdx? List.isEmpty with
  | none => groups.length = 8 && groups.all isGroup
  | some i =>
    let before := groups.take (i + 1)
    let after := groups.drop (i + 2)
    let before := if before = [[]] then [] else before
    let after := if after = [[]] then [] else after
    before.length + after.length < 8 && before.all isGroup && after.all isGroup

/-- The part before a percent sign; what follows it names a zone and is not empty. -/
def withoutZone? (t : Text) : Option Text :=
  match t.splitOn (.char '%') with
  | [address] => some address
  | [_, []] => none
  | [address, _] => some address
  | _ => none

def isIpv6 (t : Text) : Bool := (((withoutZone? t).bind groups?).map isIpv6Groups).getD false

/-- A later kind of address: `v`, hexadecimal digits, a point, and something after it. -/
def isFutureHost (t : Text) : Bool :=
  match t with
  | .char 'v' :: rest =>
    let digits := rest.takeWhile fun g => g.hexDigit?.isSome
    match rest.dropWhile fun g => g.hexDigit?.isSome with
    | .char '.' :: more => !digits.isEmpty && !more.isEmpty
    | _ => false
  | _ => false

def bracketedFault? (host : Text) : Option AddressFault :=
  if host.startsWith "v" then if isFutureHost host then none else some .badFutureHost
  else if isIpv4 host then some .ipv4InBrackets
  else if isIpv6 host then none
  else some (.notIpAddress host)

/-- What stands between the first opening bracket and the first closing one after it. -/
def bracketed (authority : Text) : Text :=
  ((authority.dropWhile (· ≠ .char '[')).drop 1).takeWhile (· ≠ .char ']')

/-! ### Parts of an address -/

/-- Characters whose compatibility form holds a slash, a question mark, a number sign, an
at sign or a colon. -/
def disguises : List Nat :=
  [0x2047, 0x2048, 0x2049, 0x2100, 0x2101, 0x2105, 0x2106, 0x2A74, 0xFE13, 0xFE16, 0xFE55, 0xFE56,
    0xFE5F, 0xFE6B, 0xFF03, 0xFF0F, 0xFF1A, 0xFF1F, 0xFF20]

def authorityFault? (authority : Text) : Option AddressFault :=
  let opens := .char '[' ∈ authority
  let closes := .char ']' ∈ authority
  if opens ≠ closes then some .unbalancedBrackets
  else
    let inner := if opens then bracketedFault? (bracketed authority) else none
    match inner with
    | some fault => some fault
    | none =>
      if authority.any fun g => g.codePoint ∈ disguises then some (.disguisedSeparator authority)
      else none

/-- A line end or tab, which an address loses wherever it stands. -/
def isDropped (g : Glyph) : Bool := g = .char '\t' || g = .char '\r' || g = .char '\n'

/-- An address without what it loses: control characters and spaces in front, and line ends. -/
def cleaned (t : Text) : Text :=
  (t.dropWhile fun g => g.codePoint ≤ 0x20).filter fun g => !isDropped g

def isSchemeGlyph (g : Glyph) : Bool :=
  g.satisfies fun c => c.isAlphanum || c = '+' || c = '-' || c = '.'

/-- The scheme in lower case and what follows its colon; a text without a scheme follows
the empty one. -/
def splitScheme (t : Text) : Text × Text :=
  let scheme := t.takeWhile (· ≠ .char ':')
  match t.dropWhile (· ≠ .char ':'), scheme with
  | _ :: rest, first :: _ =>
    if first.satisfies Char.isAlpha && scheme.all isSchemeGlyph then
      (scheme.map fun
        | .char c => .char c.toLower
        | g => g, rest)
    else ([], t)
  | _, _ => ([], t)

/-- What stands between two slashes and the next slash, question mark or number sign. -/
def authorityOf (t : Text) : Text :=
  match t with
  | .char '/' :: .char '/' :: rest =>
    rest.takeWhile fun g => !(g = .char '/' || g = .char '?' || g = .char '#')
  | _ => []

def split (t : Text) : Except AddressFault Address :=
  let (scheme, rest) := splitScheme (cleaned t)
  let authority := authorityOf rest
  match authorityFault? authority with
  | some fault => .error fault
  | none => .ok ⟨scheme, authority⟩

/-- A feed is reached by `ws` or `wss` at a host. -/
def isFeed (a : Address) : Bool := (a.scheme = "ws" || a.scheme = "wss") && !a.authority.isEmpty

end Address

end AuthorWatch
