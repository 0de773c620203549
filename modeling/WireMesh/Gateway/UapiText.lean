import WireMesh.Lib.Search
import WireMesh.Gateway.Reconcile

-- The text of a request to a device, and how text is read as a request.
namespace Gateway.Uapi

open Text

def Line.name : Line → String
  | privateKey _                  => "private_key"
  | listenPort _                  => "listen_port"
  | replacePeers                  => "replace_peers"
  | publicKey _                   => "public_key"
  | remove                        => "remove"
  | endpoint _                    => "endpoint"
  | replaceAllowedIps             => "replace_allowed_ips"
  | allowedIp _                   => "allowed_ip"
  | persistentKeepaliveInterval _ => "persistent_keepalive_interval"

def Line.value : Line → List Char
  | privateKey key | publicKey key                     => writeHex key
  | listenPort n | persistentKeepaliveInterval n       => Nat.toDigits 10 n
  | replacePeers | remove | replaceAllowedIps          => "true".toList
  | endpoint text | allowedIp text                     => text.toList

def Line.field (l : Line) : Field :=
  (l.name.toList, l.value)

def Body.text (body : Body) : String :=
  String.ofList (writeFields (body.map Line.field))

def encodeSetText (cfg : DeviceConfig) : Except Error String := do
  return Body.text (← encodeSet cfg)

def encodeAddPeersText (peers : List PeerConfig) : Except Error String := do
  return Body.text (← encodeAddPeers peers)

-- What is before the first peer, or all if there is none.
def deviceHeaderText (encoded : String) : String :=
  String.ofList (cutBefore "public_key=".toList encoded.toList).1

def isListenPort (line : List Char) : Bool :=
  "listen_port=".toList.isPrefixOf line

def rewriteLine (port : Nat) (line : List Char) : List Char :=
  if isListenPort line then "listen_port=".toList ++ Nat.toDigits 10 port ++ ['\n'] else line

def rewriteListenPortText (encoded : String) (port : Nat) : Option String :=
  let (header, peers) := cutBefore "public_key=".toList encoded.toList
  let lines := splitInclusive '\n' header
  if lines.any isListenPort then
    some (String.ofList (lines.flatMap (rewriteLine port) ++ peers))
  else none

-- Keys have 32 bytes. Addresses are left as they are.
def readKey (value : List Char) : Option Key :=
  (readHex value).filter (·.length = 32)

def readTrue (value : List Char) : Option Unit :=
  if value = "true".toList then some () else none

def readLine (f : Field) : Option Line :=
  match String.ofList f.1 with
  | "private_key"                   => (readKey f.2).map .privateKey
  | "listen_port"                   => (parseDigits f.2).map .listenPort
  | "replace_peers"                 => (readTrue f.2).map fun _ => .replacePeers
  | "public_key"                    => (readKey f.2).map .publicKey
  | "remove"                        => (readTrue f.2).map fun _ => .remove
  | "endpoint"                      => some (.endpoint (String.ofList f.2))
  | "replace_allowed_ips"           => (readTrue f.2).map fun _ => .replaceAllowedIps
  | "allowed_ip"                    => some (.allowedIp (String.ofList f.2))
  | "persistent_keepalive_interval" => (parseDigits f.2).map .persistentKeepaliveInterval
  | _                               => none

-- What is said of the device, and then of each peer, in the order of the lines.
structure Request where
  device : List Line := []
  peers : List (Key × List Line) := []
deriving DecidableEq

def Request.ofBody : Body → Request
  | []                     => {}
  | .publicKey key :: body =>
    let r := Request.ofBody body
    { peers := (key, r.device) :: r.peers }
  | line :: body           =>
    let r := Request.ofBody body
    { r with device := line :: r.device }

-- The text is one request, with nothing after its end.
def readRequest (text : String) : Option Request := do
  let (fs, []) ← readFields text.toList | none
  return Request.ofBody (← fs.mapM readLine)

end Gateway.Uapi
