import QuinMo.Lib.Zlib
import QuinMo.Links.Format
import QuinMo.Model.BeanClasses

/-!
# Links of the app's own format

`toUniversalLink` writes the bytes of a bean, compressed and in base64. The stream goes into a
buffer of four times the size of the bytes, which is enough because no bean is written in less
than nine bytes.
-/

namespace QuinMo.Links

open Text

/-- The type of each class of beans, as `putBean` sets it and `putByteArray` takes it. -/
def beanTypes : List (Int × BeanKind × String) := [
  (0, .socks, "class io.nekohasekai.sagernet.fmt.socks.SOCKSBean"),
  (1, .standardV2Ray, "class io.nekohasekai.sagernet.fmt.http.HttpBean"),
  (2, .shadowsocks, "class io.nekohasekai.sagernet.fmt.shadowsocks.ShadowsocksBean"),
  (4, .standardV2Ray, "class io.nekohasekai.sagernet.fmt.v2ray.VMessBean"),
  (6, .standardV2Ray, "class io.nekohasekai.sagernet.fmt.trojan.TrojanBean"),
  (7, .trojanGo, "class io.nekohasekai.sagernet.fmt.trojan_go.TrojanGoBean"),
  (21, .mieru, "class io.nekohasekai.sagernet.fmt.mieru.MieruBean"),
  (9, .naive, "class io.nekohasekai.sagernet.fmt.naive.NaiveBean"),
  (15, .hysteria, "class io.nekohasekai.sagernet.fmt.hysteria.HysteriaBean"),
  (17, .ssh, "class io.nekohasekai.sagernet.fmt.ssh.SSHBean"),
  (18, .wireGuard, "class io.nekohasekai.sagernet.fmt.wireguard.WireGuardBean"),
  (20, .tuic, "class io.nekohasekai.sagernet.fmt.tuic.TuicBean"),
  (19, .standardV2Ray, "class moe.matsuri.nb4a.proxy.shadowtls.ShadowTLSBean"),
  (22, .anyTls, "class moe.matsuri.nb4a.proxy.anytls.AnyTLSBean"),
  (8, .chain, "class io.nekohasekai.sagernet.fmt.internal.ChainBean"),
  (999, .neko, "class moe.matsuri.nb4a.proxy.neko.NekoBean"),
  (998, .config, "class moe.matsuri.nb4a.proxy.config.ConfigBean")]

/-- `TypeMap`, which has no name for chains. -/
def typeMap : List (String × Int) := [
  ("socks", 0), ("http", 1), ("ss", 2), ("vmess", 4), ("trojan", 6), ("trojan-go", 7),
  ("mieru", 21), ("naive", 9), ("hysteria", 15), ("ssh", 17), ("wg", 18), ("tuic", 20),
  ("shadowtls", 19), ("anytls", 22), ("neko", 999), ("config", 998)]

/-- `TypeMap.reversed`. -/
def reversedType (type : Int) : Option String := (typeMap.find? (·.2 == type)).map Prod.fst

/-- The type that `putBean` gives to an entity. -/
def putBeanType (javaClass : String) : Option Int :=
  (beanTypes.find? (·.2.2 == javaClass)).map Prod.fst

def MAX_UNIVERSAL_PAYLOAD_SIZE : Nat := 8388608

def zlibCompress (Z : Zlib) (input : List UInt8) : List UInt8 :=
  (Z.stream input).take (4 * input.length)

inductive UniversalError where
  | typeNotFound (type : String)
  | base64
  | dataFormat (message : String)
  /-- `requireBean` of an entity without a bean. -/
  | nullProfile
  /-- The app keeps what it could read before the bytes ended; that bean is not modelled. -/
  | truncated
  deriving DecidableEq, Repr

/-- The loop over the buffers. -/
def inflateAll (Z : Zlib) (inflater : Z.Inflater) (output : List UInt8) :
    Except UniversalError (List UInt8) :=
  if Z.finished inflater then .ok output
  else if (Z.inflate inflater).1.length = 0 then
    .error (.dataFormat "invalid or truncated zlib data")
  else if MAX_UNIVERSAL_PAYLOAD_SIZE < output.length + (Z.inflate inflater).1.length then
    .error (.dataFormat "decompressed data exceeds 8388608 bytes")
  else inflateAll Z (Z.inflate inflater).2 (output ++ (Z.inflate inflater).1)
termination_by MAX_UNIVERSAL_PAYLOAD_SIZE - output.length
decreasing_by
  rw [List.length_append]
  omega

def zlibDecompress (Z : Zlib) (input : List UInt8) : Except UniversalError (List UInt8) :=
  inflateAll Z (Z.setInput input) []

section
variable {L : LowerCase} {J : JSONObjects} (E : Encoding)

/-- `Util.b64Decode`. -/
def b64Decode (s : String) : Except UniversalError (List UInt8) :=
  match Base64.decode false (replace (replace s "-" "+") "_" "/").toList with
  | some bytes => .ok bytes
  | none => .error .base64

/-- `putByteArray` and `requireBean`. -/
def beanOf (type : Int) (bytes : List UInt8) :
    Except UniversalError (FullBean (beanLayout L J)) :=
  match beanTypes.find? (·.1 == type) with
  | none => .error .nullProfile
  | some (_, kind, javaClass) =>
    if bytes = [] then .error .nullProfile
    else match E.read (FullBean.deserializeFromBuffer kind javaClass) bytes with
      | some (raw, _) => .ok (FullBean.initializeDefaultValues raw)
      | none => .error .truncated

def typeNamed (type : String) : Except UniversalError Int :=
  match typeMap.lookup type with
  | some number => .ok number
  | none => .error (.typeNotFound type)

def parseUniversal (Z : Zlib) (link : String) :
    Except UniversalError (FullBean (beanLayout L J)) :=
  if contains link "?" then do
    let type ← typeNamed (substringBefore (substringAfter link "sn://" link) "?")
    let compressed ← b64Decode (substringAfter link "?" link)
    let bytes ← zlibDecompress Z compressed
    beanOf E type bytes
  else do
    let type ← typeNamed (substringBefore (substringAfter link "sn://" link) ":")
    let afterType := substringAfter link ":" link
    let bytes ← b64Decode (substringAfter afterType ":" afterType)
    beanOf E type bytes

/-- A missing name is printed as null. -/
def toUniversalLink (Z : Zlib) (b : FullBean (beanLayout L J)) : String :=
  "sn://" ++ (((putBeanType b.javaClass).bind reversedType).getD "null") ++ "?" ++
    String.ofList (Base64.encode true false (zlibCompress Z (b.bytes E)))

end

/-! ## Round trip -/

theorem inflateAll_yields {Z : Zlib} {s : Z.Inflater} {data : List UInt8} (h : Z.Yields s data)
    (output : List UInt8) (bound : output.length + data.length ≤ MAX_UNIVERSAL_PAYLOAD_SIZE) :
    inflateAll Z s output = .ok (output ++ data) := by
  induction h generalizing output with
  | done finished =>
    rw [inflateAll, if_pos finished, List.append_nil]
  | @more s rest unfinished some_bytes _ ih =>
    rw [List.length_append] at bound
    rw [inflateAll, if_neg (by rw [unfinished]; decide),
      if_neg (List.length_eq_zero_iff.not.mpr some_bytes), if_neg (by omega), ih, List.append_assoc]
    rw [List.length_append]
    omega

theorem zlib_round_trip {Z : Zlib} (lossless : Z.Lossless) {bytes : List UInt8}
    (size : 6 ≤ bytes.length) (bound : bytes.length ≤ MAX_UNIVERSAL_PAYLOAD_SIZE) :
    zlibDecompress Z (zlibCompress Z bytes) = .ok bytes := by
  have whole : zlibCompress Z bytes = Z.stream bytes := List.take_of_length_le (lossless.fits size)
  have some_bytes : bytes ≠ [] := by
    rintro rfl
    cases size
  rw [zlibDecompress, whole, inflateAll_yields (lossless.restores bytes some_bytes) []]
  · rfl
  · rwa [List.length_nil, Nat.zero_add]

section
variable {L : LowerCase} {J : JSONObjects}

theorem length_serializeStandard (b : V2Ray.StandardV2RayBean) : 5 ≤ b.serializeStandard.length := by
  unfold V2Ray.StandardV2RayBean.serializeStandard
  rw [List.length_append]
  exact Nat.le_add_right 5 _

theorem length_serializeV2Ray (b : V2Ray.StandardV2RayBean) : 5 ≤ b.serialize.length := by
  have standard := length_serializeStandard b
  unfold V2Ray.StandardV2RayBean.serialize
  split
  · exact standard
  all_goals
    rw [List.length_cons, List.length_append]
    omega

/-- Every bean but a chain starts with a version, an address, a port and two more values. -/
theorem length_serialize (b : FullBean (beanLayout L J)) (noChain : b.kind ≠ .chain) :
    5 ≤ ((beanLayout L J b.kind).serialize b.fields).length := by
  obtain ⟨kind, fields, _, _, _⟩ := b
  cases kind with
  | chain => exact absurd rfl noChain
  | standardV2Ray => exact length_serializeV2Ray fields
  | socks => exact Nat.le_add_left 5 2
  | shadowsocks => exact Nat.le_add_left 5 2
  | trojanGo => exact Nat.le_trans (Nat.le_add_right 5 1) (List.length_append ▸ Nat.le_add_right _ _)
  | mieru => exact Nat.le_add_left 5 2
  | naive => exact Nat.le_add_left 5 6
  | hysteria => exact Nat.le_add_left 5 14
  | ssh => exact List.length_append ▸ Nat.le_add_right 5 _
  | wireGuard => exact Nat.le_add_left 5 4
  | tuic => exact Nat.le_add_left 5 12
  | anyTls => exact Nat.le_add_left 5 6
  | neko => exact Nat.le_add_left 5 1
  | config => exact Nat.le_add_left 5 0

theorem length_bytes (E : Encoding) {b : FullBean (beanLayout L J)} (fits : b.Fits)
    (noChain : b.kind ≠ .chain) : 9 ≤ (b.bytes E).length := by
  have values : 9 ≤ (b.serializeToBuffer false).length := by
    have fields := length_serialize b noChain
    unfold FullBean.serializeToBuffer
    rw [List.length_append]
    exact Nat.add_le_add_right fields 4
  exact Nat.le_trans values (Encoding.length_le_write fits)

/-- The name and the type of a class lead to each other and back to the class. -/
def Typed (k : BeanKind) (javaClass : String) (type : Int) (name : String) : Prop :=
  putBeanType javaClass = some type ∧ reversedType type = some name ∧
    typeMap.lookup name = some type ∧ beanTypes.find? (·.1 == type) = some (type, k, javaClass) ∧
      '?' ∉ name.toList

instance (k : BeanKind) (javaClass : String) (type : Int) (name : String) :
    Decidable (Typed k javaClass type name) :=
  inferInstanceAs (Decidable (_ ∧ _ ∧ _ ∧ _ ∧ _))

theorem class_typed {k : BeanKind} (noChain : k ≠ .chain) {javaClass : String}
    (listed : javaClass ∈ k.classes) : ∃ type name, Typed k javaClass type name := by
  have all : ∀ javaClass ∈ k.classes, ∃ pair ∈ typeMap, Typed k javaClass pair.2 pair.1 := by
    cases k with
    | chain => exact absurd rfl noChain
    | _ => decide
  obtain ⟨pair, _, typed⟩ := all javaClass listed
  exact ⟨pair.2, pair.1, typed⟩

theorem b64Decode_encode (bytes : List UInt8) :
    b64Decode (String.ofList (Base64.encode true false bytes)) = .ok bytes := by
  unfold b64Decode
  rw [replace_symbols, String.toList_ofList, map_encode, Base64.decode_encode]

/-- A link of the form that `toUniversalLink` writes, taken apart. -/
theorem parseUniversal_parts (E : Encoding) (Z : Zlib) {name : String} (named : '?' ∉ name.toList)
    (code : List Char) :
    parseUniversal (L := L) (J := J) E Z ("sn://" ++ name ++ "?" ++ String.ofList code) = (do
      let type ← typeNamed name
      let compressed ← b64Decode (String.ofList code)
      let bytes ← zlibDecompress Z compressed
      beanOf E type bytes) := by
  have text : ("sn://" ++ name ++ "?" ++ String.ofList code).toList =
      's' :: 'n' :: ':' :: '/' :: ['/'] ++ (name.toList ++ '?' :: code) := by
    simp [String.toList_append]
  have mark : "?".toList = ['?'] := by decide
  have scheme : substringAfter ("sn://" ++ name ++ "?" ++ String.ofList code) "sn://"
      ("sn://" ++ name ++ "?" ++ String.ofList code) =
        String.ofList (name.toList ++ '?' :: code) := by
    apply substringAfter_found
    rw [text]
    exact breakOn_front
  have type : substringBefore (String.ofList (name.toList ++ '?' :: code)) "?" = name := by
    have found : breakOn "?".toList (String.ofList (name.toList ++ '?' :: code)).toList =
        some (name.toList, code) := by
      rw [mark, String.toList_ofList, breakOn_char named]
    rw [substringBefore_found found, String.ofList_toList]
  have query : breakOn "?".toList ("sn://" ++ name ++ "?" ++ String.ofList code).toList =
      some (['s', 'n', ':', '/', '/'] ++ name.toList, code) := by
    have plain : '?' ∉ ['s', 'n', ':', '/', '/'] ++ name.toList := by simpa using named
    rw [text, mark, ← List.append_assoc]
    exact breakOn_char plain
  have asks : contains ("sn://" ++ name ++ "?" ++ String.ofList code) "?" = true := by
    rw [contains, query]
    rfl
  unfold parseUniversal
  rw [if_pos asks, scheme, type, substringAfter_found query]

/-- A profile of any type but a chain, whose fields fit their types, comes back from its link with
the same type and the same bytes. -/
theorem universal_link_round_trip (E : Encoding) {Z : Zlib} (lossless : Z.Lossless)
    (b : FullBean (beanLayout L J)) (fits : b.Fits) (noChain : b.kind ≠ .chain)
    (initialized : FullBean.initializeDefaultValues b.raw = b)
    (size : (b.bytes E).length ≤ MAX_UNIVERSAL_PAYLOAD_SIZE) :
    (Z.stream (b.bytes E)).length ≤ 4 * (b.bytes E).length ∧
      ∃ c : FullBean (beanLayout L J), parseUniversal E Z (toUniversalLink E Z b) = .ok c ∧
        c.javaClass = b.javaClass ∧ c.bytes E = b.bytes E := by
  have nine := length_bytes E fits noChain
  have six : 6 ≤ (b.bytes E).length := Nat.le_trans (by decide) nine
  obtain ⟨type, name, put, reversed, named, found, plain⟩ := class_typed noChain (javaClass_mem b)
  obtain ⟨raw, read, _, javaClass, bytes⟩ :=
    FullBean.bytes_read_back (E := E) fits (b.initialized_iff.mpr initialized)
  refine ⟨lossless.fits six, FullBean.initializeDefaultValues raw, ?_, ?_, ?_⟩
  · have link : toUniversalLink E Z b = "sn://" ++ name ++ "?" ++
        String.ofList (Base64.encode true false (zlibCompress Z (b.bytes E))) := by
      unfold toUniversalLink
      rw [put, Option.bind_some, reversed, Option.getD_some]
    have some_bytes : b.bytes E ≠ [] := by
      intro empty
      rw [empty] at nine
      cases nine
    rw [link, parseUniversal_parts E Z plain]
    unfold typeNamed beanOf
    simp only [named, b64Decode_encode, zlib_round_trip lossless six size, found, bind, Except.bind,
      if_neg some_bytes, read]
  · exact javaClass
  · exact bytes

/-- What zlib makes of the 48 bytes of `keyNode` at level 9. -/
def keyNodeStream : List UInt8 := [
  120, 218, 99, 96, 96, 96, 200, 203, 79, 73, 213, 75, 173, 72, 204, 45, 200, 121, 42, 6, 228, 23,
  229, 231, 127, 97, 2, 210, 217, 169, 63, 11, 50, 138, 18, 139, 159, 54, 50, 66, 84, 61, 109, 108,
  4, 0, 97, 115, 16, 19]

theorem keyNode_link : ∃ c : FullBean (beanLayout .ascii emptyObjects),
    parseUniversal Binary.kryo (.sample (keyNode.bytes Binary.kryo) keyNodeStream)
      (toUniversalLink Binary.kryo (.sample (keyNode.bytes Binary.kryo) keyNodeStream) keyNode) =
        .ok c ∧
      c.javaClass = keyNode.javaClass ∧ c.bytes Binary.kryo = keyNode.bytes Binary.kryo :=
  (universal_link_round_trip Binary.kryo (Zlib.sample_lossless (by decide) (by decide)) keyNode
    (by decide) (by decide) rfl (by decide)).2

end

end QuinMo.Links
