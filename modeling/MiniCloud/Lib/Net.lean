import MiniCloud.Lib.Text

/-!
# Network addresses

What of `net`, `net/netip`, `strings` and `strconv` decides whether a text is a `host:port`
address. Only acceptance matters to the callers, so the parsers answer with a `Bool` and the
sixteen bytes of an IPv6 address are not built: what is counted is how many groups are still to
come and whether a `::` has been seen.
-/

namespace MiniCloud.Lib.Net

def bColon : UInt8 := ':'.toUInt8
def bDot : UInt8 := '.'.toUInt8
def bPercent : UInt8 := '%'.toUInt8
def bOpen : UInt8 := '['.toUInt8
def bClose : UInt8 := ']'.toUInt8

/-- `strings.LastIndexByte`. -/
def lastIndexByte (s : GoString) (b : UInt8) : Option Nat :=
  (s.reverse.idxOf? b).map fun i => s.length - 1 - i

/-- `net.SplitHostPort`: the host, without its brackets, and what follows the last colon. -/
def splitHostPort (hostport : GoString) : Option (GoString × GoString) :=
  match lastIndexByte hostport bColon with
  | none => none
  | some i =>
    let bracketed : Option (GoString × Nat × Nat) :=
      if hostport.head? = some bOpen then
        match hostport.idxOf? bClose with
        | none => none
        | some stop =>
          -- the first `]` stands just before the last colon
          if stop + 1 = i then some ((hostport.take stop).drop 1, 1, stop + 1) else none
      else if (hostport.take i).contains bColon then none
      else some (hostport.take i, 0, 0)
    match bracketed with
    | none => none
    | some (host, j, k) =>
      if (hostport.drop j).contains bOpen || (hostport.drop k).contains bClose then none
      else some (host, hostport.drop (i + 1))

/-- `strconv.ParseUint(s, 10, bits)`. -/
def parseUint (bits : Nat) (s : GoString) : Option Nat :=
  if s != [] && s.all Text.isDigit && Text.digitsValue s < 2 ^ bits then some (Text.digitsValue s)
  else none

/-- One decimal field of an IPv4 address. -/
def isOctet (field : GoString) : Bool :=
  field != [] && field.all Text.isDigit && (field.length == 1 || field.head? != some '0'.toUInt8) &&
    Text.digitsValue field ≤ 255

/-- `parseIPv4Fields`. -/
def isIPv4 (s : GoString) : Bool :=
  (s.splitOn bDot).length == 4 && (s.splitOn bDot).all isOctet

def isHex (b : UInt8) : Bool :=
  Text.isLowerHex b || ('A'.toUInt8 ≤ b && b ≤ 'F'.toUInt8)

/--
The loop of `parseIPv6`, with room for so many more 16-bit groups: an address without `::` fills
them all, one with `::` leaves at least one to it.
-/
def isGroups : Nat → Bool → GoString → Bool
  | 0, ellipsis, s => s == [] && !ellipsis
  | room + 1, ellipsis, s =>
    let digits := s.takeWhile isHex
    if digits == [] || 4 < digits.length then false
    else
      match s.drop digits.length with
      | [] => ellipsis == (room != 0)
      | b :: rest =>
        if b = bDot then
          -- an embedded IPv4 address takes the room of two groups
          (ellipsis || room == 1) && room != 0 && isIPv4 s && ellipsis == (room != 1)
        else if b = bColon then
          match rest with
          | [] => false
          | c :: more =>
            if c = bColon then
              if ellipsis then false
              else if more == [] then room != 0
              else isGroups room true more
            else isGroups room ellipsis rest
        else false

/-- `parseIPv6`: an address with an optional non-empty zone. -/
def isIPv6 (s : GoString) : Bool :=
  let address := s.takeWhile (· != bPercent)
  if s.drop address.length == [bPercent] then false
  else if address.take 2 == [bColon, bColon] then
    address.length == 2 || isGroups 8 true (address.drop 2)
  else isGroups 8 false address

/-- `_, err := netip.ParseAddr(s); err == nil`. -/
def isAddr (s : GoString) : Bool :=
  match s.find? fun b => b = bDot || b = bColon || b = bPercent with
  | none => false
  | some b => if b = bDot then isIPv4 s else b = bColon && isIPv6 s

example : isAddr "10.0.0.7" = true ∧ isAddr "10.0.0.07" = false ∧ isAddr "::1" = true ∧
    isAddr "fe80::1%eth0" = true ∧ isAddr "1:2:3:4:5:6:7::" = true ∧
    isAddr "1:2:3:4:5:6:7:8::" = false ∧ isAddr "::ffff:10.0.0.7" = true := by
  decide +kernel

/-- The white space of `unicode.IsSpace`, as UTF-8. -/
def spaces : List GoString :=
  ["\t", "\n", "\x0b", "\x0c", "\r", " ", "\u0085", "\u00a0", "\u1680", "\u2000", "\u2001",
    "\u2002", "\u2003", "\u2004", "\u2005", "\u2006", "\u2007", "\u2008", "\u2009", "\u200a",
    "\u2028", "\u2029", "\u202f", "\u205f", "\u3000"]

/-- `strings.TrimSpace(s) == s`, for valid UTF-8. -/
def isTrimmed (s : GoString) : Bool :=
  spaces.all fun space => !(space.isPrefixOf s) && !(space.isSuffixOf s)

def trimLeft : Nat → GoString → GoString
  | 0, s => s
  | n + 1, s =>
    match spaces.find? (·.isPrefixOf s) with
    | some space => trimLeft n (s.drop space.length)
    | none => s

def trimRight : Nat → GoString → GoString
  | 0, s => s
  | n + 1, s =>
    match spaces.find? (·.isSuffixOf s) with
    | some space => trimRight n (s.take (s.length - space.length))
    | none => s

/-- `strings.TrimSpace`; every round removes a byte at least. -/
def trimSpace (s : GoString) : GoString := trimRight s.length (trimLeft s.length s)

end MiniCloud.Lib.Net
