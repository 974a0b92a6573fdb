import QuinMo.Model.V2RayForm

/-!
# Parsed VMess, VLESS and Trojan nodes

What a parser leaves in a bean, and the bean that `parseRaw` hands to the update. Of the parsers
the one for v2rayN links is written out, from the decoded JSON on.
-/

namespace QuinMo.Subscription

open Text Net V2Ray

/-- The fields a parser has set, null where it has set none. -/
structure ParsedNode where
  name : Option String
  customOutboundJson : Option String := none
  customConfigJson : Option String := none
  raw : Raw
  /-- For a node of a Clash file its `global-client-fingerprint`. -/
  clash : Option String := none
  deriving DecidableEq, Repr

/-- A TLS node without SNI takes its host header for it. -/
def fixSni (b : StandardV2RayBean) : StandardV2RayBean :=
  if b.security == "tls" && isBlank b.sni && !isBlank b.host && !isIpAddress b.host then
    { b with sni := b.host }
  else b

/-- A REALITY node needs a fingerprint. -/
def fixFingerprint (globalClientFingerprint : String) (b : StandardV2RayBean) : StandardV2RayBean :=
  if !isBlank b.realityPubKey && isBlank b.utlsFingerprint then
    { b with utlsFingerprint :=
        if isBlank globalClientFingerprint then "chrome" else globalClientFingerprint }
  else b

namespace ParsedNode

def content (L : LowerCase) (p : ParsedNode) : StandardV2RayBean :=
  let b := initializeDefaultValues L p.raw
  match p.clash with
  | none => b
  | some globalClientFingerprint => fixFingerprint globalClientFingerprint (fixSni b)

def bean (L : LowerCase) (p : ParsedNode) : AbstractBean StandardV2RayBean where
  name := p.name.getD ""
  customOutboundJson := p.customOutboundJson.getD ""
  customConfigJson := p.customConfigJson.getD ""
  content := p.content L

end ParsedNode

structure VmessQRCode where
  ps : String := ""
  add : String := ""
  port : String := ""
  id : String := ""
  aid : String := "0"
  scy : String := ""
  net : String := ""
  type : String := ""
  host : String := ""
  path : String := ""
  tls : String := ""
  sni : String := ""
  alpn : String := ""
  fp : String := ""
  verify_cert : Bool := true
  ech : String := ""
  pbk : String := ""
  sid : String := ""
  pqv : String := ""
  cert : String := ""
  packetEncoding : String := ""
  ed : Int := 0
  eh : String := ""

/-- v2rayN spells the h2 transport `h2`; the bean keeps `http`. -/
def VmessQRCode.transport (code : VmessQRCode) : String :=
  if code.net = "tcp" then (if code.type = "http" then "http" else code.net)
  else if code.net = "h2" then "http"
  else code.net

def parseV2RayN (code : VmessQRCode) : Except String ParsedNode :=
  if code.add = "" ∨ code.port = "" ∨ code.id = "" ∨ code.net = "" then
    .error "invalid VmessQRCode"
  else
    let type := code.transport
    let reality := code.tls = "reality"
    let tls := code.tls = "tls" ∨ reality
    let ech := tls ∧ isBlank code.ech = false
    let early := type = "ws" ∧ 0 < code.ed
    .ok {
      name := code.ps
      raw := {
        ofClass := .vmess (toIntOrNull code.aid)
        serverAddress := code.add
        serverPort := toIntOrNull code.port
        uuid := code.id
        encryption := code.scy
        type
        host := code.host
        path := code.path
        wsMaxEarlyData := if early then code.ed else none
        earlyDataHeaderName := if early ∧ isBlank code.eh = false then code.eh else none
        security := if tls then "tls" else none
        sni := if tls then (if isBlank code.sni then code.host else code.sni) else none
        alpn := if tls then code.alpn else none
        certificates := if tls ∧ isBlank code.cert = false then code.cert else none
        allowInsecure := if tls ∧ code.verify_cert = false then true else none
        utlsFingerprint := if tls then code.fp else none
        realityPubKey := if reality then code.pbk else none
        realityShortId := if reality then code.sid else none
        enableECH := if ech then true else none
        -- `1` asks for ECH without a config of its own
        echConfig := if ech ∧ code.ech ≠ "1" then code.ech else none
        packetEncoding :=
          if code.packetEncoding = "packetaddr" ∨ code.packetEncoding = "packet" then some 1
          else if code.packetEncoding = "xudp" then some 2
          else none
        realityMldsa65Verify := if reality ∧ isBlank code.pqv = false then code.pqv else none } }

theorem ifNullOrBlank_solid {s : String} (h : isBlank s = false) : ifNullOrBlank s "" = s := by
  simp [ifNullOrBlank, h]

theorem fixSni_normal {L : LowerCase} {b : StandardV2RayBean} (n : Normal L b) :
    Normal L (fixSni b) := by
  unfold fixSni
  split
  · exact { n with sni := n.host }
  · exact n

theorem fixFingerprint_normal {L : LowerCase} {b : StandardV2RayBean} (n : Normal L b)
    (globalClientFingerprint : String) : Normal L (fixFingerprint globalClientFingerprint b) := by
  have solid : isBlank (if isBlank globalClientFingerprint then "chrome"
      else globalClientFingerprint) = false := by
    split
    · decide
    · rename_i solid
      simpa using solid
  unfold fixFingerprint
  split
  · exact { n with utlsFingerprint := ifNullOrBlank_solid solid }
  · exact n

theorem fixSni_keeps (b : StandardV2RayBean) :
    (fixSni b).type = b.type ∧ (fixSni b).serverAddress = b.serverAddress := by
  unfold fixSni
  split <;> exact ⟨rfl, rfl⟩

theorem fixFingerprint_keeps (globalClientFingerprint : String) (b : StandardV2RayBean) :
    (fixFingerprint globalClientFingerprint b).type = b.type ∧
      (fixFingerprint globalClientFingerprint b).serverAddress = b.serverAddress := by
  unfold fixFingerprint
  split <;> exact ⟨rfl, rfl⟩

namespace ParsedNode

theorem content_normal (L : LowerCase) (p : ParsedNode) : Normal L (p.content L) := by
  unfold content
  split
  · exact initializeDefaultValues_normal L p.raw
  · exact fixFingerprint_normal (fixSni_normal (initializeDefaultValues_normal L p.raw)) _

theorem content_type (L : LowerCase) (p : ParsedNode) :
    (p.content L).type = defaultType L p.raw.type ∧
      (p.content L).serverAddress = defaultAddress p.raw.serverAddress := by
  unfold content
  split
  · exact ⟨rfl, rfl⟩
  · rw [(fixFingerprint_keeps _ _).1, (fixFingerprint_keeps _ _).2, (fixSni_keeps _).1,
      (fixSni_keeps _).2]
    exact ⟨rfl, rfl⟩

/-- The node is neither of the kinds that do not read back: a transport that is `h2` in
another spelling, and an address of brackets around a blank. -/
def Steady (L : LowerCase) (p : ParsedNode) : Prop :=
  (∀ t, p.raw.type = some t → L.lower t = "h2" → t = "h2") ∧
    ∀ a, p.raw.serverAddress = some a → isBlank (unwrapIPV6Host a) = true → isBlank a = true

theorem fixed_iff_steady (L : LowerCase) (p : ParsedNode) :
    (beanClass L).Fixed (p.content L) ↔ p.Steady L := by
  rw [fixed_iff (p.content_normal L), (p.content_type L).1, (p.content_type L).2, ne_eq,
    defaultType_h2, ← Bool.not_eq_true, defaultAddress_blank]
  simp only [Steady, not_exists, not_and, not_not, Bool.not_eq_false]

end ParsedNode

end QuinMo.Subscription
