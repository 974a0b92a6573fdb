import QuinMo.Model.BeanClasses

/-!
# Defaults that are filled in again

Profiles get their defaults when they are parsed, saved and loaded. The second time changes a
server address that brackets leave blank, and a transport that is `h2` in capitals.
-/

namespace QuinMo

open Text Net V2Ray

variable {L : LowerCase} {J : JSONObjects}

/-- The server address of a bean. -/
def addressOf : (kind : BeanKind) → (beanLayout L J kind).Raw → Option String
  | .standardV2Ray, r => V2Ray.Raw.serverAddress r
  | .socks, r => SOCKSBean.Raw.serverAddress r
  | .shadowsocks, r => ShadowsocksBean.Raw.serverAddress r
  | .trojanGo, r => TrojanGoBean.Raw.serverAddress r
  | .mieru, r => MieruBean.Raw.serverAddress r
  | .naive, r => NaiveBean.Raw.serverAddress r
  | .hysteria, r => HysteriaBean.Raw.serverAddress r
  | .ssh, r => SSHBean.Raw.serverAddress r
  | .wireGuard, r => WireGuardBean.Raw.serverAddress r
  | .tuic, r => TuicBean.Raw.serverAddress r
  | .anyTls, r => AnyTLSBean.Raw.serverAddress r
  | .neko, r => NekoBean.Raw.serverAddress r
  | .chain, r => ChainBean.Raw.serverAddress r
  | .config, r => ConfigBean.Raw.serverAddress r

/-- The transport of a bean whose class has one that is rewritten. -/
def transportOf : (kind : BeanKind) → (beanLayout L J kind).Raw → Option String
  | .standardV2Ray, r => V2Ray.Raw.type r
  | _, _ => none

/-- Brackets around nothing but white space. -/
def BlankInBrackets (address : Option String) : Prop :=
  ∃ a, address = some a ∧ isBlank (unwrapIPV6Host a) = true ∧ isBlank a = false

/-- `h2`, but not in small letters. -/
def CapitalH2 (L : LowerCase) (type : Option String) : Prop :=
  ∃ t, type = some t ∧ L.lower t = "h2" ∧ t ≠ "h2"

theorem defaultAddress_again_iff (address : Option String) :
    defaultAddress (some (defaultAddress address)) = defaultAddress address ↔
      ¬ BlankInBrackets address := by
  rw [BlankInBrackets, ← defaultAddress_blank]
  have bare := defaultAddress_bare address
  cases blank : isBlank (defaultAddress address) with
  | true =>
    refine iff_of_false ?_ (by simp)
    intro same
    rw [defaultAddress.eq_def] at same
    simp only [blank, if_true] at same
    rw [← same] at blank
    exact absurd blank (by decide)
  | false =>
    refine iff_of_true ?_ (by simp)
    rw [defaultAddress.eq_def]
    simp only [blank, bare, Bool.false_eq_true, if_false]

theorem defaultType_again_iff (type : Option String) :
    defaultType L (some (defaultType L type)) = defaultType L type ↔ ¬ CapitalH2 L type := by
  rw [CapitalH2, ← defaultType_h2]
  have normal := initializeDefaultValues_normal L { ofClass := .vmess none, type }
  have lower : L.lower (defaultType L type) = defaultType L type := normal.type
  have typed : isBlank (defaultType L type) = false := normal.typed
  by_cases h2 : defaultType L type = "h2"
  · refine iff_of_false ?_ (not_not_intro h2)
    rw [h2]
    have http : defaultType L (some "h2") = "http" := L.lower_letters "http" (by decide)
    rw [http]
    decide
  · refine iff_of_true ?_ h2
    rw [defaultType.eq_def]
    simp only [typed, h2, Bool.false_eq_true, if_false]
    exact lower

theorem standardV2Ray_again_iff (r : V2Ray.Raw) :
    V2Ray.initializeDefaultValues L (V2Ray.initializeDefaultValues L r).raw =
        V2Ray.initializeDefaultValues L r ↔
      ¬ BlankInBrackets r.serverAddress ∧ ¬ CapitalH2 L r.type := by
  rw [← defaultAddress_again_iff, ← defaultType_again_iff]
  have normal := initializeDefaultValues_normal L r
  have ofClass : ∀ c : V2Ray.Class, defaultClass c.raw = c := by
    intro c
    cases c <;> rfl
  constructor
  · intro again
    exact ⟨congrArg StandardV2RayBean.serverAddress again, congrArg StandardV2RayBean.type again⟩
  · rintro ⟨address, transport⟩
    have same : ∀ b : StandardV2RayBean, Normal L b →
        defaultAddress (some b.serverAddress) = b.serverAddress →
        defaultType L (some b.type) = b.type → V2Ray.initializeDefaultValues L b.raw = b := by
      intro b normal address transport
      simp only [V2Ray.initializeDefaultValues, StandardV2RayBean.raw, ofClass, address, transport,
        normal.security, normal.encryption, normal.uuid, normal.host, normal.path,
        normal.earlyDataHeaderName, normal.sni, normal.alpn, normal.certificates,
        normal.utlsFingerprint, normal.echConfig, Option.getD_some]
    exact same _ normal address transport

/-! ## The classes whose address alone can change -/

/-- The address is the same after a second round. -/
def AddressStays (address : Option String) : Prop :=
  defaultAddress (some (defaultAddress address)) = defaultAddress address

theorem SOCKSBean.again_iff (r : SOCKSBean.Raw) :
    SOCKSBean.initializeDefaultValues (SOCKSBean.initializeDefaultValues r).raw =
      SOCKSBean.initializeDefaultValues r ↔ AddressStays r.serverAddress := by
  simp [SOCKSBean.initializeDefaultValues, SOCKSBean.Fields.raw, AddressStays]

theorem ShadowsocksBean.again_iff (r : ShadowsocksBean.Raw) :
    ShadowsocksBean.initializeDefaultValues (ShadowsocksBean.initializeDefaultValues r).raw =
      ShadowsocksBean.initializeDefaultValues r ↔ AddressStays r.serverAddress := by
  simp [ShadowsocksBean.initializeDefaultValues, ShadowsocksBean.Fields.raw, AddressStays,
    ifNullOrBlank_twice]

theorem TrojanGoBean.again_iff (r : TrojanGoBean.Raw) :
    TrojanGoBean.initializeDefaultValues (TrojanGoBean.initializeDefaultValues r).raw =
      TrojanGoBean.initializeDefaultValues r ↔ AddressStays r.serverAddress := by
  simp [TrojanGoBean.initializeDefaultValues, TrojanGoBean.Fields.raw, AddressStays,
    ifNullOrBlank_twice]

theorem MieruBean.again_iff (r : MieruBean.Raw) :
    MieruBean.initializeDefaultValues (MieruBean.initializeDefaultValues r).raw =
      MieruBean.initializeDefaultValues r ↔ AddressStays r.serverAddress := by
  simp [MieruBean.initializeDefaultValues, MieruBean.Fields.raw, AddressStays]

theorem NaiveBean.again_iff (r : NaiveBean.Raw) :
    NaiveBean.initializeDefaultValues (NaiveBean.initializeDefaultValues r).raw =
      NaiveBean.initializeDefaultValues r ↔ AddressStays r.serverAddress := by
  simp [NaiveBean.initializeDefaultValues, NaiveBean.Fields.raw, AddressStays]

theorem HysteriaBean.again_iff (r : HysteriaBean.Raw) :
    HysteriaBean.initializeDefaultValues (HysteriaBean.initializeDefaultValues r).raw =
      HysteriaBean.initializeDefaultValues r ↔ AddressStays r.serverAddress := by
  simp [HysteriaBean.initializeDefaultValues, HysteriaBean.Fields.raw, AddressStays]

theorem SSHBean.again_iff (r : SSHBean.Raw) :
    SSHBean.initializeDefaultValues (SSHBean.initializeDefaultValues r).raw =
      SSHBean.initializeDefaultValues r ↔ AddressStays r.serverAddress := by
  simp [SSHBean.initializeDefaultValues, SSHBean.Fields.raw, AddressStays]

theorem WireGuardBean.again_iff (r : WireGuardBean.Raw) :
    WireGuardBean.initializeDefaultValues (WireGuardBean.initializeDefaultValues r).raw =
      WireGuardBean.initializeDefaultValues r ↔ AddressStays r.serverAddress := by
  simp [WireGuardBean.initializeDefaultValues, WireGuardBean.Fields.raw, AddressStays]

theorem TuicBean.again_iff (r : TuicBean.Raw) :
    TuicBean.initializeDefaultValues (TuicBean.initializeDefaultValues r).raw =
      TuicBean.initializeDefaultValues r ↔ AddressStays r.serverAddress := by
  simp [TuicBean.initializeDefaultValues, TuicBean.Fields.raw, AddressStays]

theorem AnyTLSBean.again_iff (r : AnyTLSBean.Raw) :
    AnyTLSBean.initializeDefaultValues (AnyTLSBean.initializeDefaultValues r).raw =
      AnyTLSBean.initializeDefaultValues r ↔ AddressStays r.serverAddress := by
  simp [AnyTLSBean.initializeDefaultValues, AnyTLSBean.Fields.raw, AddressStays]

theorem ChainBean.again_iff (r : ChainBean.Raw) :
    ChainBean.initializeDefaultValues (ChainBean.initializeDefaultValues r).raw =
      ChainBean.initializeDefaultValues r ↔ AddressStays r.serverAddress := by
  simp [ChainBean.initializeDefaultValues, ChainBean.Fields.raw, AddressStays]

theorem ConfigBean.again_iff (r : ConfigBean.Raw) :
    ConfigBean.initializeDefaultValues (ConfigBean.initializeDefaultValues r).raw =
      ConfigBean.initializeDefaultValues r ↔ AddressStays r.serverAddress := by
  simp [ConfigBean.initializeDefaultValues, ConfigBean.Fields.raw, AddressStays]

theorem NekoBean.again_iff (r : NekoBean.Raw J) :
    NekoBean.initializeDefaultValues (NekoBean.initializeDefaultValues r).raw =
      NekoBean.initializeDefaultValues r ↔ AddressStays r.serverAddress := by
  simp [NekoBean.initializeDefaultValues, NekoBean.Fields.raw, AddressStays]

/-- A second round of defaults changes nothing in a bean, of any class, unless brackets leave
its address blank or its transport is `h2` in capitals. -/
theorem defaults_again_iff (r : RawBean (beanLayout L J)) :
    FullBean.initializeDefaultValues (FullBean.initializeDefaultValues r).raw =
        FullBean.initializeDefaultValues r ↔
      ¬ BlankInBrackets (addressOf r.kind r.fields) ∧
        ¬ CapitalH2 L (transportOf r.kind r.fields) := by
  rw [← FullBean.initialized_iff]
  obtain ⟨kind, fields, name, outbound, config⟩ := r
  have untyped : ¬ CapitalH2 L none := by
    rintro ⟨t, absent, _⟩
    cases absent
  have plain : ∀ {again : Prop} {address : Option String}, (again ↔ AddressStays address) →
      (again ↔ ¬ BlankInBrackets address ∧ ¬ CapitalH2 L none) := by
    intro again address h
    rw [h, AddressStays, defaultAddress_again_iff, and_iff_left untyped]
  cases kind with
  | standardV2Ray => exact standardV2Ray_again_iff fields
  | socks => exact plain (SOCKSBean.again_iff fields)
  | shadowsocks => exact plain (ShadowsocksBean.again_iff fields)
  | trojanGo => exact plain (TrojanGoBean.again_iff fields)
  | mieru => exact plain (MieruBean.again_iff fields)
  | naive => exact plain (NaiveBean.again_iff fields)
  | hysteria => exact plain (HysteriaBean.again_iff fields)
  | ssh => exact plain (SSHBean.again_iff fields)
  | wireGuard => exact plain (WireGuardBean.again_iff fields)
  | tuic => exact plain (TuicBean.again_iff fields)
  | anyTls => exact plain (AnyTLSBean.again_iff fields)
  | chain => exact plain (ChainBean.again_iff fields)
  | config => exact plain (ConfigBean.again_iff fields)
  | neko => exact plain (NekoBean.again_iff fields)

/-- A Trojan node whose transport is spelled `H2`. -/
def capitalNode : RawBean (beanLayout .ascii emptyObjects) where
  kind := .standardV2Ray
  fields := ({ ofClass := .trojan none, type := some "H2" } : V2Ray.Raw)
  name := none
  customOutboundJson := none
  customConfigJson := none

/-- Its transport is `h2` after one round of defaults and `http` after two. -/
theorem capitalNode_changes_again :
    FullBean.initializeDefaultValues (FullBean.initializeDefaultValues capitalNode).raw ≠
      FullBean.initializeDefaultValues capitalNode := by
  intro same
  have fields : V2Ray.initializeDefaultValues .ascii
      (V2Ray.initializeDefaultValues .ascii
        ({ ofClass := .trojan none, type := some "H2" } : V2Ray.Raw)).raw =
      V2Ray.initializeDefaultValues .ascii { ofClass := .trojan none, type := some "H2" } :=
    (FullBean.initialized_iff _).mpr same
  have transport := congrArg StandardV2RayBean.type fields
  exact absurd transport (by decide)

end QuinMo
