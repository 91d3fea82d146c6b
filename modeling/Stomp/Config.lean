import Stomp.Heartbeat
import Stomp.Lifecycle
import Stomp.Url

/-!
# Configuration

What a session needs to know before it starts: the broker's URL, who the user
is, intervals and delays, and the versions to offer.  A configuration is drafted
setting by setting and checked once, when it is built.
-/

namespace Stomp

structure Config where
  url : Url
  userId : String
  heartbeat : Heartbeat
  /-- Pause between two attempts to connect; zero allows one attempt only. -/
  reconnectDelay : Duration
  /-- Whether frames that lack only their NUL are completed. -/
  completesFrames : Bool
  /-- Versions to offer, the most preferred first. -/
  versions : List Version
  /-- Virtual host; the host of the URL if not given. -/
  host : Option String
  connectHeaders : List Header
  /-- How long to wait for CONNECTED; zero waits forever. -/
  handshakeTimeout : Duration
  deriving DecidableEq, Repr

/-! ## Rejections -/

inductive Interval where
  | outgoing
  | incoming
  | reconnect
  deriving DecidableEq, Repr

def Interval.name : Interval → String
  | .outgoing => "heartbeat outgoing interval"
  | .incoming => "heartbeat incoming interval"
  | .reconnect => "reconnect delay"

inductive Rejection where
  | badUrl (text fault : String)
  | negative (interval : Interval) (value : Int)
  | tooLarge (interval : Interval) (value : Int)
  | foreignScheme (scheme : String)
  | noHost (url : String)
  | noVersion
  deriving DecidableEq, Repr

namespace Rejection

def reason : Rejection → String
  | .badUrl text fault => s!"invalid broker url '{text}': {fault}"
  | .negative interval value => s!"{interval.name} must be non-negative, got {value}"
  | .tooLarge interval value => s!"{interval.name} is too large: {value}"
  | .foreignScheme scheme => s!"broker url must use ws or wss, got '{scheme}'"
  | .noHost url => s!"broker url '{url}' has no host"
  | .noVersion => "at least one STOMP version must be offered"

def fault (rejection : Rejection) : Fault := .invalidConfig rejection.reason

end Rejection

/-! ## What a configuration means -/

namespace Config

def defaultReconnectDelay : Duration := Duration.ofMillis 5000

def defaultHandshakeTimeout : Duration := Duration.ofMillis 10000

def reconnects (config : Config) : Bool := config.reconnectDelay != 0

def checkUrl (url : Url) : Except Rejection Unit :=
  if url.scheme != "ws" && url.scheme != "wss" then .error (.foreignScheme url.scheme)
  else if (url.host?.getD "").isEmpty then .error (.noHost url.text)
  else .ok ()

def validate (config : Config) : Except Rejection Unit := do
  checkUrl config.url
  if config.versions.isEmpty then .error .noVersion else .ok ()

def acceptVersion (config : Config) : String :=
  ",".intercalate (config.versions.map Version.name)

def hostHeader (config : Config) : String :=
  (config.host.or config.url.host?).getD "/"

def userIdHeader : String := "X-User-Id"

def connectFrame (config : Config) : Frame :=
  { command := "CONNECT"
    headers :=
      [("accept-version", config.acceptVersion), ("host", config.hostHeader),
        ("heart-beat", config.heartbeat.text), (userIdHeader, config.userId)]
        ++ config.connectHeaders }

def subprotocols (config : Config) : List String :=
  config.versions.map Version.subprotocol

end Config

/-! ## Drafting -/

/-- A configuration whose URL and intervals have not been checked. -/
structure Draft where
  url : String
  userId : String
  outgoing : Int := Heartbeat.standard.send.toNat
  incoming : Int := Heartbeat.standard.receive.toNat
  reconnectDelay : Int := Duration.millis Config.defaultReconnectDelay
  completesFrames : Bool := true
  versions : List Version := Version.all
  host : Option String := none
  connectHeaders : List Header := []
  handshakeTimeout : Duration := Config.defaultHandshakeTimeout
  deriving DecidableEq, Repr

inductive Setting where
  | outgoing (ms : Int)
  | incoming (ms : Int)
  | heartbeat (offer : Heartbeat)
  | reconnectDelay (ms : Int)
  | completesFrames (on : Bool)
  | versions (offered : List Version)
  | host (name : String)
  | connectHeader (header : Header)
  | handshakeTimeout (limit : Duration)
  deriving DecidableEq, Repr

namespace Draft

/-- A later setting replaces an earlier one; CONNECT headers add up. -/
def set (draft : Draft) : Setting → Draft
  | .outgoing ms => { draft with outgoing := ms }
  | .incoming ms => { draft with incoming := ms }
  | .heartbeat offer =>
      { draft with outgoing := offer.send.toNat, incoming := offer.receive.toNat }
  | .reconnectDelay ms => { draft with reconnectDelay := ms }
  | .completesFrames on => { draft with completesFrames := on }
  | .versions offered => { draft with versions := offered }
  | .host name => { draft with host := some name }
  | .connectHeader header =>
      { draft with connectHeaders := draft.connectHeaders ++ [header] }
  | .handshakeTimeout limit => { draft with handshakeTimeout := limit }

def setAll (draft : Draft) (settings : List Setting) : Draft :=
  settings.foldl set draft

def millis (interval : Interval) (value : Int) : Except Rejection Nat :=
  if value < 0 then .error (.negative interval value) else .ok value.toNat

def millis32 (interval : Interval) (value : Int) : Except Rejection UInt32 := do
  let ms ← millis interval value
  if ms < Numeral.word32 then .ok (UInt32.ofNat ms) else .error (.tooLarge interval value)

def readUrl (parse : Url.Parser) (text : String) : Except Rejection Url :=
  (parse text).mapError (.badUrl text)

def build (draft : Draft) (parse : Url.Parser) : Except Rejection Config := do
  let url ← readUrl parse draft.url
  let send ← millis32 .outgoing draft.outgoing
  let receive ← millis32 .incoming draft.incoming
  let delay ← millis .reconnect draft.reconnectDelay
  let config : Config :=
    { url
      userId := draft.userId
      heartbeat := ⟨send, receive⟩
      reconnectDelay := Duration.ofMillis delay
      completesFrames := draft.completesFrames
      versions := draft.versions
      host := draft.host
      connectHeaders := draft.connectHeaders
      handshakeTimeout := draft.handshakeTimeout }
  config.validate
  return config

end Draft

end Stomp
