import Stomp.Text.Utf8

/-!
# Header escapes

Header names and values travel with backslashes, line ends and colons written
as two characters.  Escaping works on text, its inverse on bytes.
-/

namespace Stomp.Wire

/-! ## Escaping -/

def escapeChar (c : Char) : List Char :=
  if c = '\\' then ['\\', '\\']
  else if c = '\r' then ['\\', 'r']
  else if c = '\n' then ['\\', 'n']
  else if c = ':' then ['\\', 'c']
  else [c]

def escape (text : String) : String :=
  String.ofList (text.toList.flatMap escapeChar)

/-! ## Undoing it -/

inductive EscapeFault where
  | unknown (octet : UInt8)
  | unfinished
  deriving DecidableEq, Repr

/-- An unknown escape is shown as the character whose code point is its octet. -/
def EscapeFault.message : EscapeFault → String
  | .unknown octet =>
      String.ofList
        ("invalid escape sequence '\\".toList ++ [Char.ofNat octet.toNat, '\''])
  | .unfinished => "incomplete escape sequence at end of header"

def escaped? (octet : UInt8) : Option UInt8 :=
  if octet = Bytes.backslash then some Bytes.backslash
  else if octet = 0x6E then some Bytes.lf
  else if octet = 0x72 then some Bytes.cr
  else if octet = 0x63 then some Bytes.colon
  else none

def unescape : Bytes → Except EscapeFault Bytes
  | [] => .ok []
  | b :: rest =>
      if b = Bytes.backslash then
        match rest with
        | [] => .error .unfinished
        | c :: rest =>
            match escaped? c with
            | some octet => (unescape rest).map (octet :: ·)
            | none => .error (.unknown c)
      else (unescape rest).map (b :: ·)

end Stomp.Wire
