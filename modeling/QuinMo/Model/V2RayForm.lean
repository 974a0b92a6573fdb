import QuinMo.Model.V2Ray

/-!
# Beans that read back as they were written

The type `h2` is read as `http`, and a blank address as the local one. Both occur: the type is put
into lower case after the test for `h2`, and the brackets of an address are removed after the test
for blanks.
-/

namespace QuinMo.V2Ray

open Text Net

theorem ifNullOrBlank_twice (s : Option String) (missing : String) :
    ifNullOrBlank (some (ifNullOrBlank s missing)) missing = ifNullOrBlank s missing := by
  unfold ifNullOrBlank
  repeat' split
  all_goals simp_all

/-- The form of a bean after `initializeDefaultValues`, as far as it is written. -/
structure Normal (L : LowerCase) (b : StandardV2RayBean) : Prop where
  address : (startsWith b.serverAddress "[" && endsWith b.serverAddress "]") = false
  type : L.lower b.type = b.type
  typed : isBlank b.type = false
  security : defaultSecurity b.ofClass b.security = b.security
  encryption : defaultEncryption b.ofClass b.encryption = b.encryption
  uuid : ifNullOrBlank b.uuid "" = b.uuid
  host : ifNullOrBlank b.host "" = b.host
  path : ifNullOrBlank b.path "" = b.path
  earlyDataHeaderName : ifNullOrBlank b.earlyDataHeaderName "" = b.earlyDataHeaderName
  sni : ifNullOrBlank b.sni "" = b.sni
  alpn : ifNullOrBlank b.alpn "" = b.alpn
  certificates : ifNullOrBlank b.certificates "" = b.certificates
  utlsFingerprint : ifNullOrBlank b.utlsFingerprint "" = b.utlsFingerprint
  echConfig : ifNullOrBlank b.echConfig "" = b.echConfig

section
variable {L : LowerCase} {b : StandardV2RayBean} (n : Normal L b)

theorem restored_ofClass : (initializeDefaultValues L b.written).ofClass = b.ofClass := by
  change defaultClass b.ofClass.raw = b.ofClass
  cases b.ofClass <;> rfl

include n

theorem restored_security : (initializeDefaultValues L b.written).security = b.security := by
  change defaultSecurity (initializeDefaultValues L b.written).ofClass b.security = b.security
  rw [restored_ofClass, n.security]

theorem restored_encryption : (initializeDefaultValues L b.written).encryption = b.encryption := by
  change defaultEncryption (initializeDefaultValues L b.written).ofClass b.encryption = b.encryption
  rw [restored_ofClass, n.encryption]

theorem restored_type (type : b.type ≠ "h2") :
    (initializeDefaultValues L b.written).type = b.type := by
  change defaultType L (some b.type) = b.type
  simp only [defaultType, n.typed, type]
  exact n.type

theorem restored_serverAddress (address : isBlank b.serverAddress = false) :
    (initializeDefaultValues L b.written).serverAddress = b.serverAddress := by
  change defaultAddress (some b.serverAddress) = b.serverAddress
  simp only [defaultAddress, address, n.address]
  rfl

theorem restored_writeTransport (type : b.type ≠ "h2") :
    (initializeDefaultValues L b.written).writeTransport = b.writeTransport := by
  have host : b.type = "ws" ∨ b.type = "http" ∨ b.type = "httpupgrade" →
      (initializeDefaultValues L b.written).host = b.host := by
    intro withHost
    change ifNullOrBlank (if _ then some b.host else none) "" = b.host
    rw [if_pos withHost, n.host]
  have path : (b.type = "ws" ∨ b.type = "http" ∨ b.type = "httpupgrade") ∨ b.type = "grpc" →
      (initializeDefaultValues L b.written).path = b.path := by
    intro withPath
    change ifNullOrBlank (if _ then some b.path else none) "" = b.path
    rw [if_pos withPath, n.path]
  unfold StandardV2RayBean.writeTransport
  rw [restored_type n type]
  split
  · rename_i ws
    have early : (initializeDefaultValues L b.written).wsMaxEarlyData = b.wsMaxEarlyData := by
      change Option.getD (if _ then some b.wsMaxEarlyData else none) 0 = _
      rw [if_pos ws]
      rfl
    have header :
        (initializeDefaultValues L b.written).earlyDataHeaderName = b.earlyDataHeaderName := by
      change ifNullOrBlank (if _ then some b.earlyDataHeaderName else none) "" = _
      rw [if_pos ws, n.earlyDataHeaderName]
    rw [host (.inl ws), path (.inl (.inl ws)), early, header]
  · split
    · rename_i http
      rw [host (.inr http), path (.inl (.inr http))]
    · split
      · rename_i grpc
        rw [path (.inr grpc)]
      · rfl

theorem restored_writeTls : (initializeDefaultValues L b.written).writeTls = b.writeTls := by
  unfold StandardV2RayBean.writeTls
  rw [restored_security n]
  split
  · rename_i tls
    simp [initializeDefaultValues, StandardV2RayBean.written, StandardV2RayBean.writtenAs,
      StandardV2RayBean.noteTls, tls, n.sni, n.alpn, n.certificates, n.utlsFingerprint]
  · rfl

theorem restored_serializeStandard (type : b.type ≠ "h2")
    (address : isBlank b.serverAddress = false) :
    (initializeDefaultValues L b.written).serializeStandard = b.serializeStandard := by
  have uuid : (initializeDefaultValues L b.written).uuid = b.uuid := n.uuid
  have echConfig : (initializeDefaultValues L b.written).echConfig = b.echConfig := n.echConfig
  have alterId : (initializeDefaultValues L b.written).writeAlterId = b.writeAlterId := by
    rw [StandardV2RayBean.writeAlterId, restored_ofClass, ← StandardV2RayBean.writeAlterId]
  rw [StandardV2RayBean.serializeStandard, restored_serverAddress n address, uuid,
    restored_encryption n, alterId, restored_type n type, restored_writeTransport n type,
    restored_security n, restored_writeTls n, echConfig]
  -- the other fields have no default that could change them
  rfl

/-- Apart from two kinds of beans, what is read back is written as before. -/
theorem restored_serialize (type : b.type ≠ "h2") (address : isBlank b.serverAddress = false) :
    (initializeDefaultValues L b.written).serialize = b.serialize := by
  rw [StandardV2RayBean.serialize, restored_ofClass, restored_serializeStandard n type address,
    ← StandardV2RayBean.serialize]

end

/-- Beans of one class that are written alike have the same written fields. -/
theorem written_eq_of_serialize {b d : StandardV2RayBean} (sameClass : b.javaClass = d.javaClass)
    (h : b.serialize = d.serialize) : b.written = d.written := by
  have read := b.deserializeClass_reads.run_append []
  rw [sameClass, h, d.deserializeClass_reads.run_append] at read
  exact (congrArg Prod.fst (Option.some.inj read)).symm

theorem serialize_inj_head {b d : StandardV2RayBean} (ofClass : b.ofClass = d.ofClass)
    (h : b.serialize = d.serialize) : b.serverAddress = d.serverAddress ∧ b.type = d.type := by
  have sameClass : b.javaClass = d.javaClass := by
    rw [StandardV2RayBean.javaClass, ofClass, ← StandardV2RayBean.javaClass]
  have written := written_eq_of_serialize sameClass h
  exact ⟨Option.some.inj (congrArg Raw.serverAddress written),
    Option.some.inj (congrArg Raw.type written)⟩

theorem lower_http (L : LowerCase) : L.lower "http" = "http" := L.lower_letters _ (by decide)

theorem lower_tcp (L : LowerCase) : L.lower "tcp" = "tcp" := L.lower_letters _ (by decide)

/-- Which beans are written as before after they were read back. -/
theorem fixed_iff {L : LowerCase} {b : StandardV2RayBean} (n : Normal L b) :
    (beanClass L).Fixed b ↔ b.type ≠ "h2" ∧ isBlank b.serverAddress = false := by
  constructor
  · rintro ⟨_, same⟩
    obtain ⟨address, type⟩ := serialize_inj_head restored_ofClass same
    refine ⟨?_, ?_⟩
    · intro h2
      have http : (initializeDefaultValues L b.written).type = "http" := by
        change defaultType L (some b.type) = "http"
        simp only [h2, defaultType]
        exact lower_http L
      rw [http, h2] at type
      exact absurd type (by decide)
    · by_contra blank
      have blank : isBlank b.serverAddress = true := by simpa using blank
      have here : (initializeDefaultValues L b.written).serverAddress = "127.0.0.1" := by
        change defaultAddress (some b.serverAddress) = "127.0.0.1"
        simp [defaultAddress, blank]
      rw [← address, here] at blank
      exact absurd blank (by decide)
  · rintro ⟨type, address⟩
    refine ⟨?_, restored_serialize n type address⟩
    change (initializeDefaultValues L b.written).javaClass = b.javaClass
    rw [StandardV2RayBean.javaClass, restored_ofClass, ← StandardV2RayBean.javaClass]

theorem defaultAddress_bare (address : Option String) :
    (startsWith (defaultAddress address) "[" && endsWith (defaultAddress address) "]") = false := by
  unfold defaultAddress
  split
  · decide
  · split
    · decide
    · split
      · exact unwrapIPV6Host_bare _
      · rename_i bare
        simpa using bare

theorem defaultSecurity_again (ofClass : Class) (security : Option String) :
    defaultSecurity ofClass (defaultSecurity ofClass security) =
        defaultSecurity ofClass security := by
  unfold defaultSecurity ifNullOrBlank
  repeat' split
  all_goals simp_all

theorem defaultEncryption_again (ofClass : Class) (encryption : Option String) :
    defaultEncryption ofClass (defaultEncryption ofClass encryption) =
      defaultEncryption ofClass encryption := by
  unfold defaultEncryption ifNullOrBlank
  repeat' split
  all_goals simp_all

theorem initializeDefaultValues_normal (L : LowerCase) (r : Raw) :
    Normal L (initializeDefaultValues L r) where
  address := defaultAddress_bare r.serverAddress
  type := L.lower_lower _
  typed := by
    change isBlank (defaultType L r.type) = false
    rw [defaultType.eq_def, L.isBlank_lower]
    split
    · decide
    · split
      · decide
      · rename_i notBlank
        split
        · decide
        · simpa using notBlank
  security := defaultSecurity_again _ _
  encryption := defaultEncryption_again _ _
  uuid := ifNullOrBlank_twice _ _
  host := ifNullOrBlank_twice _ _
  path := ifNullOrBlank_twice _ _
  earlyDataHeaderName := ifNullOrBlank_twice _ _
  sni := ifNullOrBlank_twice _ _
  alpn := ifNullOrBlank_twice _ _
  certificates := ifNullOrBlank_twice _ _
  utlsFingerprint := ifNullOrBlank_twice _ _
  echConfig := ifNullOrBlank_twice _ _

/-- The defaults leave `h2` where the type is spelled otherwise. -/
theorem defaultType_h2 (L : LowerCase) (type : Option String) :
    defaultType L type = "h2" ↔ ∃ t, type = some t ∧ L.lower t = "h2" ∧ t ≠ "h2" := by
  cases type with
  | none => simp [defaultType, lower_tcp]
  | some t =>
    have notBlank : L.lower t = "h2" → isBlank t = false := by
      intro h2
      rw [← L.isBlank_lower, h2]
      decide
    simp only [defaultType, Option.some.injEq, exists_eq_left']
    by_cases blank : isBlank t = true
    · have other : L.lower t ≠ "h2" := fun h2 => by simp [notBlank h2] at blank
      simp [blank, lower_tcp, other]
    · by_cases h2 : t = "h2"
      · simp [h2, lower_http, show isBlank "h2" = false by decide]
      · simp [blank, h2]

/-- The defaults leave a blank where brackets enclose one. -/
theorem defaultAddress_blank (address : Option String) : isBlank (defaultAddress address) = true ↔
    ∃ a, address = some a ∧ isBlank (unwrapIPV6Host a) = true ∧ isBlank a = false := by
  have local_ : isBlank "127.0.0.1" = false := by decide
  cases address with
  | none => simp [defaultAddress, local_]
  | some a =>
    simp only [defaultAddress, Option.some.injEq, exists_eq_left']
    by_cases blank : isBlank a = true
    · simp [blank, local_]
    · have solid : isBlank a = false := by simpa using blank
      cases bare : startsWith a "[" && endsWith a "]" with
      | true => simp [solid]
      | false => simp [solid, unwrapIPV6Host_of_bare bare]

end QuinMo.V2Ray
