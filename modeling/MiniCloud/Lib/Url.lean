import MiniCloud.Lib.Json.Parse

/-!
# URL paths

The part of `net/url` that an absolute path goes through: `ParseRequestURI` on a text that starts
with a slash and has no query or fragment, and `EscapedPath`. Such a text has no scheme and no
authority, so parsing it is refusing control bytes and undoing the percent encoding.
-/

namespace MiniCloud.Lib.Url

/-- `stringContainsCTLByte`. -/
def containsCTL (s : GoString) : Bool := s.any fun b => b < 0x20 || b = 0x7F

/-- `unescape` in path mode: a `%` must be followed by two hexadecimal digits. -/
def unescapePath : GoString → Option GoString
  | [] => some []
  | b :: rest =>
    if b = 0x25 then
      match rest with
      | x :: y :: more =>
        match Json.hexValue x, Json.hexValue y with
        | some h, some l => (unescapePath more).map fun s => (h * 16 + l).toUInt8 :: s
        | _, _ => none
      | _ => none
    else (unescapePath rest).map fun s => b :: s

/-- The bytes `escape` leaves alone in a path. -/
def keepInPath (b : UInt8) : Bool :=
  Text.isLetter b || Text.isDigit b || Text.oneOf "-_.~$&+,/:;=@" b

def upperHex (n : Nat) : UInt8 := if n < 10 then (48 + n).toUInt8 else (55 + n).toUInt8

/-- `escape` in path mode. -/
def escapePath (s : GoString) : GoString :=
  s.flatMap fun b =>
    if keepInPath b then [b] else [0x25, upperHex (b.toNat / 16), upperHex (b.toNat % 16)]

/-- The `Path` of `url.ParseRequestURI(s)` for an absolute path. -/
def parseRequestPath (s : GoString) : Option GoString :=
  if containsCTL s then none else unescapePath s

end MiniCloud.Lib.Url
