/-!
# URLs

What is read of a URL once it is parsed.  The parser is not part of the library: it is
given to what needs one, as a function from texts.
-/

namespace Stomp

structure Url where
  text : String
  scheme : String
  /-- The host as it stands in the text; some schemes do without. -/
  host? : Option String
  deriving DecidableEq, Repr

/-- A parser of URLs, which says in words what is wrong with a text that is none. -/
abbrev Url.Parser := String → Except String Url

end Stomp
