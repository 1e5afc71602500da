import SourceAtlas.Text.Blank
import SourceAtlas.Text.Quoted

/-!
# URLs

The scheme and the authority of a URL.

* `Url.Fault`, `Url.Fault.message`: what is wrong with an authority;
* `Url.isIpv4`, `Url.isIpv6`: addresses as texts;
* `Url.split`: scheme and authority of a text, each empty when there is none.
-/

namespace SourceAtlas.Url

/-! ## Faults -/

/-- What is wrong with the authority of a URL. -/
inductive Fault where
  | unbalancedBrackets
  | malformedFutureAddress
  | ipv4InBrackets
  | noAddress (host : Text)
  /-- A point stands for a delimiter in its compatible form. -/
  | hiddenDelimiter (authority : Text)
deriving DecidableEq

def Fault.message : Fault → Text
  | unbalancedBrackets => "Invalid IPv6 URL"
  | malformedFutureAddress => "IPvFuture address is invalid"
  | ipv4InBrackets => "An IPv4 address cannot be in brackets"
  | noAddress host => host.quoted ++ " does not appear to be an IPv4 or IPv6 address"
  | hiddenDelimiter authority =>
    "netloc '" ++ authority ++ "' contains invalid characters under NFKC normalization"

/-! ## Addresses -/

/-- A decimal number up to 255 without needless zeros. -/
def isOctet (t : Text) : Bool :=
  !t.isEmpty && t.all Point.isDigit && t.length ≤ 3 &&
    (t.length = 1 || t.head? ≠ some (Point.ofChar '0')) &&
    t.foldl (fun n d => n * 10 + (d.toNat - 48)) 0 ≤ 255

/-- Four octets between points. -/
def isIpv4 (t : Text) : Bool :=
  let octets := t.splitOn '.'
  octets.length = 4 && octets.all isOctet

/-- One to four hexadecimal digits. -/
def isHextet (t : Text) : Bool := !t.isEmpty && t.length ≤ 4 && t.all fun p => p.hexValue?.isSome

/-- The parts of an address between colons, two hextets in place of an IPv4 address at the end. -/
def hextets? (t : Text) : Option (List Text) :=
  let parts := t.splitOn ':'
  let last := parts.getLastD []
  if parts.length < 3 then none
  else if !last.has '.' then some parts
  else if isIpv4 last then some (parts.dropLast ++ [Text.ofString "0", "0"]) else none

/-- Eight hextets, or fewer with one run of them left out. -/
def areHextets (parts : List Text) : Bool :=
  let empty := (List.range parts.length).filter fun i =>
    0 < i && i + 1 < parts.length && (parts.getD i []).isEmpty
  match empty with
  | [] => parts.length = 8 && parts.all isHextet
  | [i] =>
    let before := parts.take i
    let after := parts.drop (i + 1)
    let before := if before = [[]] then [] else before
    let after := if after = [[]] then [] else after
    before.all isHextet && after.all isHextet && before.length + after.length < 8
  | _ => false

/-- An IPv6 address, perhaps with a zone after a percent sign. -/
def isIpv6 (t : Text) : Bool :=
  let (address, zoned) :=
    match Text.cut? '%' t with
    | none => (t, true)
    | some (a, zone) => (a, !zone.isEmpty && !zone.has '%')
  zoned && !t.has '/' &&
    match hextets? address with
    | some parts => parts.length ≤ 9 && areHextets parts
    | none => false

/-- An address of a later version: `v`, hexadecimal digits, a point, and something more. -/
def isFutureAddress (t : Text) : Bool :=
  match t with
  | _ :: r =>
    let digits := r.takeWhile fun p => p.hexValue?.isSome
    !digits.isEmpty &&
      match r.drop digits.length with
      | d :: rest => d = '.' && !rest.isEmpty
      | [] => false
  | [] => false

/-- What is wrong with a host in brackets. -/
def bracketedFault? (host : Text) : Option Fault :=
  if host.startsWith "v" then if isFutureAddress host then none else some .malformedFutureAddress
  else if isIpv4 host then some .ipv4InBrackets
  else if isIpv6 host then none
  else some (.noAddress host)

/-! ## Delimiters -/

/-- The points beyond ASCII whose compatible form holds a delimiter of URLs. -/
def hiddenDelimiters : List Nat :=
  [0x2047, 0x2048, 0x2049, 0x2100, 0x2101, 0x2105, 0x2106, 0x2A74, 0xFE13, 0xFE16, 0xFE55, 0xFE56,
    0xFE5F, 0xFE6B, 0xFF03, 0xFF0F, 0xFF1A, 0xFF1F, 0xFF20]

/-- What is wrong with an authority. -/
def authorityFault? (authority : Text) : Option Fault :=
  if authority.has '[' != authority.has ']' then some .unbalancedBrackets
  else
    let bracketed :=
      match Text.cut? '[' authority with
      | some (_, r) => bracketedFault? (((Text.cut? ']' r).map Prod.fst).getD r)
      | none => none
    bracketed.or
      (if authority.any fun p => hiddenDelimiters.contains p.toNat then
        some (.hiddenDelimiter authority)
      else none)

/-! ## Parts -/

def isLetter (p : Point) : Bool :=
  (65 ≤ p.toNat && p.toNat ≤ 90) || (97 ≤ p.toNat && p.toNat ≤ 122)

/-- A point of a scheme. -/
def inScheme (p : Point) : Bool := isLetter p || p.isDigit || p = '+' || p = '-' || p = '.'

/-- The scheme, and what follows it. -/
def cutScheme (t : Text) : Text × Text :=
  match Text.cut? ':' t with
  | some (s, r) =>
    match s with
    | c :: _ => if isLetter c && s.all inScheme then (s, r) else ([], t)
    | [] => ([], t)
  | none => ([], t)

/-- The text without control points and spaces at its start, and without tabs and line ends. -/
def clean (t : Text) : Text :=
  (Text.trimStartBy (fun p => p.toNat ≤ 32) t).filter fun p => !(p = '\t' || p = '\n' || p = '\r')

/-- Scheme and authority of a text. -/
def split (t : Text) : Except Fault (Text × Text) :=
  let (scheme, rest) := cutScheme (clean t)
  match Text.after? rest "//" with
  | none => .ok (scheme, [])
  | some r =>
    let authority := r.takeWhile fun p : Point => !(p = '/' || p = '?' || p = '#')
    match authorityFault? authority with
    | some fault => .error fault
    | none => .ok (scheme, authority)

end SourceAtlas.Url
