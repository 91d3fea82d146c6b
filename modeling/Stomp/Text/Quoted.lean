import Stomp.Text.CharClass
import Stomp.Text.Numeral

/-!
# Quoted text

Text between double quotes, on one line and unambiguous to the eye: quotes,
backslashes and the common controls are written with a backslash, and every
other character that has no glyph of its own by its code point.
-/

namespace Stomp.Quoted

def byCodePoint (c : Char) : List Char :=
  ['\\', 'u', '{'] ++ Numeral.hex c.toNat ++ ['}']

def escapeChar (c : Char) : List Char :=
  if c = '\x00' then ['\\', '0']
  else if c = '\t' then ['\\', 't']
  else if c = '\r' then ['\\', 'r']
  else if c = '\n' then ['\\', 'n']
  else if c = '"' then ['\\', '"']
  else if c = '\\' then ['\\', '\\']
  else if CharClass.isExtending c || CharClass.isInvisible c then byCodePoint c
  else [c]

def quote (text : String) : String :=
  String.ofList ('"' :: text.toList.flatMap escapeChar ++ ['"'])

end Stomp.Quoted
