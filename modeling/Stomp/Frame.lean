import Stomp.Text.Utf8
import Stomp.Text.Numeral

/-!
# Frames

A frame is a command, headers in the order in which they travel, and a body of
raw bytes.  Of repeated headers the first one counts.
-/

namespace Stomp

abbrev Header := String × String

structure Frame where
  command : String
  headers : List Header := []
  body : Bytes := []
  deriving DecidableEq, Repr

namespace Frame

def addHeader (frame : Frame) (name value : String) : Frame :=
  { frame with headers := frame.headers ++ [(name, value)] }

def addHeaders (frame : Frame) (headers : List Header) : Frame :=
  { frame with headers := frame.headers ++ headers }

def header? (frame : Frame) (name : String) : Option String :=
  (frame.headers.find? fun header => header.1 == name).map (·.2)

def bodyText? (frame : Frame) : Option String :=
  (Utf8.decode frame.body).toOption

def isConnected (frame : Frame) : Bool := frame.command == "CONNECTED"

def isError (frame : Frame) : Bool := frame.command == "ERROR"

/-- Commands whose headers travel without escapes. -/
def isVerbatimCommand (command : String) : Bool :=
  command == "CONNECT" || command == "CONNECTED" || command == "STOMP"

def isVerbatim (frame : Frame) : Bool := isVerbatimCommand frame.command

def display (frame : Frame) : String :=
  s!"Command: {frame.command}\n"
    ++ String.join (frame.headers.map fun header => s!"{header.1}: {header.2}\n")
    ++ s!"Body ({frame.body.length} bytes)\n"

end Frame

structure ServerError where
  message : String
  details : Option String
  receiptId : Option String
  frame : Frame
  deriving DecidableEq, Repr

namespace ServerError

def ofFrame (frame : Frame) : ServerError where
  message := (frame.header? "message").getD "unknown error"
  details := if frame.body.isEmpty then none else some (Utf8.decodeLossy frame.body)
  receiptId := frame.header? "receipt-id"
  frame := frame

def text (error : ServerError) : String :=
  match error.details with
  | none => s!"STOMP server error: {error.message}"
  | some details => s!"STOMP server error: {error.message}: {details}"

end ServerError

end Stomp
