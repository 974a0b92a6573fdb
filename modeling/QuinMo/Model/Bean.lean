import QuinMo.Model.Net

/-!
# Profile beans

The fields of `AbstractBean` and, per class, those that decide which core runs the node and how it
is chained. What only ends up inside a protocol's own options is left to the environment.
-/

namespace QuinMo

open Text Net

/-- The multiplexing fields of a `StandardV2RayBean`. -/
structure Mux where
  enableMux : Bool
  muxPadding : Bool
  muxConcurrency : Int
  muxType : Int
  deriving DecidableEq, Repr

/-- The fields of a `VMessBean` that choose its core. -/
structure VMess where
  alterId : Int
  type : String
  security : String
  encryption : String
  mux : Mux
  deriving DecidableEq, Repr

namespace VMess

def isVLESS (v : VMess) : Bool := v.alterId == -1

def isTLS (v : VMess) : Bool := v.security == "tls"

def isVisionFlow (v : VMess) : Bool := v.isVLESS && v.encryption == "xtls-rprx-vision"

def xrayLacksTransport (v : VMess) : Bool :=
  v.type == "quic" || (v.type == "http" && v.isTLS)

end VMess

/-- The bean classes, which are also the values of the `type` column. -/
inductive Kind where
  | socks (sUoT : Bool)
  | http
  | shadowsocks (sUoT : Bool)
  | vmess (fields : VMess)
  | trojan (mux : Mux)
  | trojanGo
  | mieru
  | naive (sUoT : Bool)
  | hysteria (protocolVersion protocol : Int) (serverPorts : String)
  | ssh
  | wireGuard
  | tuic
  | shadowTLS
  | anyTLS
  | chain (proxies : List Int)
  | neko
  | config (type : Int) (config : String)
  deriving DecidableEq, Repr

structure Bean where
  serverAddress : String
  serverPort : Int
  name : String
  customOutboundJson : String
  customConfigJson : String
  kind : Kind
  deriving DecidableEq, Repr

namespace Bean

/-- A bean with the defaults of `initializeDefaultValues`. -/
def default (kind : Kind) (name : String) (serverAddress : String) : Bean where
  serverAddress := serverAddress
  serverPort := 1080
  name := name
  customOutboundJson := ""
  customConfigJson := ""
  kind := kind

def canMapping (b : Bean) : Bool :=
  match b.kind with
  | .hysteria _ protocol _ => protocol != 1
  | .neko | .chain _ | .config _ _ => false
  | _ => true

def displayAddress (b : Bean) : String :=
  match b.kind with
  | .hysteria _ _ serverPorts => wrapIPV6Host b.serverAddress ++ ":" ++ serverPorts
  | .chain _ | .config _ _ => ""
  | _ => wrapIPV6Host b.serverAddress ++ ":" ++ toString b.serverPort

/-- `Math.abs` on a 32-bit number: the least one is its own absolute value. -/
def mathAbs (n : Int) : Int := if n = -2147483648 then n else n.natAbs

/-- `hashCode` is the 32-bit hash of the serialized bean. -/
def displayName (hashCode : Bean → Int) (b : Bean) : String :=
  if !isBlank b.name then b.name
  else match b.kind with
    | .chain _ => "Chain " ++ toString (mathAbs (hashCode b))
    | .config _ _ => "Custom " ++ toString (mathAbs (hashCode b))
    | _ => b.displayAddress

def sUoT (b : Bean) : Bool :=
  match b.kind with
  | .socks on | .shadowsocks on | .naive on => on
  | _ => false

end Bean

/-- `getFirstPort` of the Hysteria port list. -/
def getFirstPort (portStr : String) : Int :=
  (toIntOrNull
    (substringBefore (substringBefore (substringBefore portStr ":") ",") "-")).getD 443

end QuinMo
