import OcppClient.Client
import OcppClient.Lib.Header

/-!
# Connecting over WebSocket

`connect.rs`: the request that opens a connection, the version the server picks out of those
offered, and the settings the client is made with, among them the reconnector that dials again.
What URL parsing, DNS, TCP, TLS and the opening handshake come to is a `Network`, which may be
another one at each dial. Then a client with the connections it has opened.
-/

namespace OcppClient.Connect

open Transition Http


def authorization : String := "authorization"

def secWebSocketProtocol : String := "sec-websocket-protocol"

structure Request where
  uri : String
  headers : HeaderMap

/-- What the world outside makes of one dial, with URLs, socket addresses, TLS settings, TCP streams
and WebSocket streams of the types `U`, `A`, `T`, `S` and `C`. -/
structure Network (U A T S C ε : Type) where
  parse : String → Except ε U
  toString : U → String
  socketAddrs : U → Except ε (List A)
  tcpConnect : List A → Except ε S
  intoClientRequest : String → Except ε Request
  clientAsyncTls : Request → S → Option T → Except ε (C × HeaderMap)

/-- The errors of `connect`, with its own texts. -/
inductive DialError (ε : Type)
  | network (e : ε)
  | invalidHeaderValue
  | toStr
  | text (message : String)

/-! ## Options and settings -/

inductive ReconnectBehavior
  | enabled (policy : ReconnectPolicy)
  | disabled
  deriving DecidableEq

instance reconnectInhabited : Inhabited ReconnectBehavior := ⟨.enabled default⟩

/-- `ConnectOptions`, with the caller's own reconnectors of type `X`. -/
structure ConnectOptions (T X : Type) where
  username : Option String
  password : Option (List UInt8)
  timeout : Option Duration
  reconnect : ReconnectBehavior
  tlsConfig : Option T
  reconnector : Option X
  keepalive : KeepaliveBehavior

instance optionsInhabited {T X : Type} : Inhabited (ConnectOptions T X) :=
  ⟨⟨none, none, none, default, none, none, .enabled default⟩⟩

structure WebSocketReconnector (T : Type) where
  address : String
  protocol : String
  username : Option String
  password : Option (List UInt8)
  tlsConfig : Option T

/-- A boxed reconnector: `SharedReconnector` around the caller's, or `WebSocketReconnector`. -/
inductive Reconnector (T X : Type)
  | shared (custom : X)
  | webSocket (r : WebSocketReconnector T)

/-- `ClientConfig`, with the reconnector itself. -/
structure Config (T X : Type) where
  timeout : Duration
  reconnector : Option (Reconnector T X)
  reconnectPolicy : ReconnectPolicy
  keepalive : KeepaliveBehavior

namespace Config

variable {T X : Type}

def new (timeout : Duration) : Config T X := ⟨timeout, none, default, .disabled⟩

def withReconnect (c : Config T X) (reconnector : Reconnector T X) (policy : ReconnectPolicy) :
    Config T X :=
  { c with reconnector := some reconnector, reconnectPolicy := policy }

def withKeepalive (c : Config T X) (keepalive : KeepaliveBehavior) : Config T X :=
  { c with keepalive := keepalive }

/-- What the client asks of its settings. -/
def toClientConfig (c : Config T X) : ClientConfig :=
  ⟨c.timeout, c.reconnector.isSome, c.reconnectPolicy, c.keepalive⟩

end Config

def defaultTimeout : Duration := .fromSecs 5

section Prepare

variable {T X : Type}

def prepare (address protocol : String) (options : Option (ConnectOptions T X)) : Config T X :=
  let defaults : ConnectOptions T X := default
  let timeout := (options.bind ConnectOptions.timeout).getD defaultTimeout
  let keepalive := (options.map ConnectOptions.keepalive).getD defaults.keepalive
  let reconnect := (options.map ConnectOptions.reconnect).getD default
  let username := options.bind ConnectOptions.username
  let password := options.bind ConnectOptions.password
  let tlsConfig := options.bind ConnectOptions.tlsConfig
  let custom := options.bind ConnectOptions.reconnector
  let config := (Config.new timeout).withKeepalive keepalive
  match reconnect, custom with
  | .disabled, _ => config
  | .enabled policy, some custom => config.withReconnect (.shared custom) policy
  | .enabled policy, none =>
    config.withReconnect (.webSocket ⟨address, protocol, username, password, tlsConfig⟩) policy

end Prepare

/-! ## One dial -/

section Dial

variable {U A T S C X ε : Type} (net : Network U A T S C ε)

/-- The text of the `Authorization` header. -/
def basic (username : String) (password : Option (List UInt8)) : String :=
  let data := asBytes (username ++ ":") ++ password.getD []
  "Basic " ++ String.ofList (Base64.encode data)

/-- `str::parse` as a `HeaderValue`. -/
def parseValue (s : String) : Except (DialError ε) HeaderValue :=
  match HeaderValue.fromStr s with
  | some v => .ok v
  | none => .error .invalidHeaderValue

/-- The credentials, where the options have a username. -/
def authorize (headers : HeaderMap) (options : Option (ConnectOptions T X)) :
    Except (DialError ε) HeaderMap :=
  match options.bind ConnectOptions.username with
  | some username => do
    let value ← parseValue (basic username (options.bind ConnectOptions.password))
    return headers.insert authorization value
  | none => return headers

/-- `setup_socket` up to the handshake: the TCP stream and the request. -/
def setupRequest (address protocols : String) (options : Option (ConnectOptions T X)) :
    Except (DialError ε) (S × Request) := do
  let address ← (net.parse address).mapError .network
  let socketAddrs ← (net.socketAddrs address).mapError .network
  let stream ← (net.tcpConnect socketAddrs).mapError .network
  let request ← (net.intoClientRequest (net.toString address)).mapError .network
  let value ← parseValue protocols
  let headers ← authorize (request.headers.insert secWebSocketProtocol value) options
  return (stream, { request with headers := headers })

def setupSocket (address protocols : String) (options : Option (ConnectOptions T X)) :
    Except (DialError ε) (C × String) := do
  let (stream, request) ← setupRequest net address protocols options
  let tlsConfig := options.bind ConnectOptions.tlsConfig
  let (stream, response) ← (net.clientAsyncTls request stream tlsConfig).mapError .network
  match response.get secWebSocketProtocol with
  | none => throw (.text "No OCPP protocol negotiated")
  | some protocol =>
    match protocol.toStr with
    | none => throw .toStr
    | some protocol => return (stream, protocol)

/-- The dial of a reconnector, where `dial` is what the caller's own do. -/
def Reconnector.connect (dial : X → Except (DialError ε) C) :
    Reconnector T X → Except (DialError ε) C
  | .shared custom => dial custom
  | .webSocket r => do
    let options : ConnectOptions T X :=
      ⟨r.username, r.password, none, .disabled, r.tlsConfig, none, .disabled⟩
    let (stream, _) ← setupSocket net r.address r.protocol (some options)
    return stream

end Dial

/-! ## Versions -/

inductive OcppVersion
  | v1_6
  | v2_0_1
  | v2_1
  deriving DecidableEq

def OcppVersion.protocol : OcppVersion → String
  | v1_6 => "ocpp1.6"
  | v2_0_1 => "ocpp2.0.1"
  | v2_1 => "ocpp2.1"

/-- A version whose feature is enabled in the build. -/
abbrev Compiled (features : OcppVersion → Bool) := { v : OcppVersion // features v = true }

def allCompiledIn (features : OcppVersion → Bool) : List (Compiled features) :=
  [OcppVersion.v2_1, .v2_0_1, .v1_6].filterMap fun v =>
    if h : features v = true then some ⟨v, h⟩ else none

/-- The stream and the settings a client is made of. -/
structure Made (T X C : Type) where
  stream : C
  config : Config T X

inductive NegotiatedClient (T X C : Type)
  | v1_6 (client : Made T X C)
  | v2_0_1 (client : Made T X C)
  | v2_1 (client : Made T X C)

/-- How a call that may panic ends. -/
inductive Outcome (α : Type)
  | returned (r : α)
  | panicked (message : String)

section Connect

variable {U A T S C X ε : Type} (net : Network U A T S C ε)

/-- The last `match` of `connect`, with the arms of the features that are enabled. -/
def negotiated (features : OcppVersion → Bool) (protocol : String) (client : Made T X C) :
    Outcome (Except (DialError ε) (NegotiatedClient T X C)) :=
  if features .v1_6 ∧ protocol = "ocpp1.6" then .returned (.ok (.v1_6 client))
  else if features .v2_0_1 ∧ protocol = "ocpp2.0.1" then .returned (.ok (.v2_0_1 client))
  else if features .v2_1 ∧ protocol = "ocpp2.1" then .returned (.ok (.v2_1 client))
  else .panicked "protocol only ever holds a value returned by OcppVersion::protocol"

/-- The `Sec-WebSocket-Protocol` that offers some versions. -/
def offer (versions : List OcppVersion) : String :=
  ", ".intercalate (versions.map OcppVersion.protocol)

def connect (features : OcppVersion → Bool) (address : String)
    (versions : Option (List (Compiled features))) (options : Option (ConnectOptions T X)) :
    Outcome (Except (DialError ε) (NegotiatedClient T X C)) :=
  let versions := (versions.getD (allCompiledIn features)).map Subtype.val
  match setupSocket net address (offer versions) options with
  | .error e => .returned (.error e)
  | .ok (stream, answer) =>
    match (versions.find? fun v => v.protocol = answer).map OcppVersion.protocol with
    | none =>
      .returned (.error (.text s!"Server negotiated unsupported protocol: {answer}"))
    | some protocol => negotiated features protocol ⟨stream, prepare address protocol options⟩

/-- What `connect_1_6`, `connect_2_0_1` and `connect_2_1` share. -/
def connectAs (protocol address : String) (options : Option (ConnectOptions T X)) :
    Except (DialError ε) (Made T X C) := do
  let config := prepare address protocol options
  let (stream, _) ← setupSocket net address protocol options
  return ⟨stream, config⟩

def connect_1_6 (address : String) (options : Option (ConnectOptions T X)) :
    Except (DialError ε) (Made T X C) :=
  connectAs net "ocpp1.6" address options

def connect_2_0_1 (address : String) (options : Option (ConnectOptions T X)) :
    Except (DialError ε) (Made T X C) :=
  connectAs net "ocpp2.0.1" address options

def connect_2_1 (address : String) (options : Option (ConnectOptions T X)) :
    Except (DialError ε) (Made T X C) :=
  connectAs net "ocpp2.1" address options

def websocketTransport (address : String) (version : OcppVersion)
    (options : Option (ConnectOptions T X)) : Except (DialError ε) C := do
  let (stream, _) ← setupSocket net address version.protocol options
  return stream

end Connect

/-! ## A client and the connections it opens -/

/-- A client, and the connection of each sink it was given so far. -/
structure Session (E R C : Type) where
  client : State E R
  opened : List C

/-- A step of the client, or the end of its dial: by what the network, and the caller's own
reconnector, come to then. -/
inductive SessionAct (E U A T S C X ε : Type)
  | act (a : Act E)
  | dialled (net : Network U A T S C ε) (dial : X → Except (DialError ε) C)

section Session

variable {E R U A T S C X ε : Type} [ProtocolError E] (env : Env R) (config : Config T X)

def Session.step (s : Session E R C) : SessionAct E U A T S C X ε → Option (Session E R C)
  | .act a =>
    match s.client.read, a with
    | .dial _, .poll .read (.done _) => none
    | _, a => (OcppClient.step env config.toClientConfig s.client a).map fun t =>
      { s with client := t }
  | .dialled net dial =>
    match config.reconnector, s.client.read with
    | some reconnector, .dial _ =>
      match reconnector.connect net dial with
      | .ok stream =>
        (readPoll env config.toClientConfig s.client (.done (.ok ()))).map fun t =>
          ⟨t, s.opened ++ [stream]⟩
      | .error _ =>
        (readPoll env config.toClientConfig s.client (.done (.error ""))).map fun t =>
          { s with client := t }
    | _, _ => none

end Session

/-! ## A concrete network -/

/-- Every dial reaches a server that picks one version, where it is offered. -/
def picking (pick : OcppVersion) : Network String Unit Unit Unit Unit Unit where
  parse := .ok
  toString := id
  socketAddrs _ := .ok []
  tcpConnect _ := .ok ()
  intoClientRequest uri := .ok ⟨uri, fun _ => []⟩
  clientAsyncTls request _ _ :=
    match (request.headers.get secWebSocketProtocol).bind HeaderValue.toStr,
      HeaderValue.fromStr pick.protocol with
    | some offered, some v =>
      if pick.protocol ∈ commaList offered then .ok ((), fun _ => [v]) else .error ()
    | _, _ => .error ()

end OcppClient.Connect
