import Stomp.Text.Blank

/-!
# Protocol versions

The versions of STOMP that a client can offer, and their names in headers and
as WebSocket sub-protocols.
-/

namespace Stomp

inductive Version where
  | v10
  | v11
  | v12
  deriving DecidableEq, Repr

namespace Version

/-- Every version, the most preferred first. -/
def all : List Version := [.v12, .v11, .v10]

def name : Version → String
  | .v10 => "1.0"
  | .v11 => "1.1"
  | .v12 => "1.2"

def title : Version → String
  | .v10 => "V1_0"
  | .v11 => "V1_1"
  | .v12 => "V1_2"

def subprotocol : Version → String
  | .v10 => "v10.stomp"
  | .v11 => "v11.stomp"
  | .v12 => "v12.stomp"

/-- Age of a version; later versions are greater. -/
def rank : Version → Nat
  | .v10 => 0
  | .v11 => 1
  | .v12 => 2

instance : Ord Version where
  compare a b := compare a.rank b.rank

def read? (text : String) : Option Version :=
  all.find? fun version => version.name == Text.trim text

end Version

end Stomp
