import Mathlib.Data.List.Forall2
import QuinMo.Log.JsonWriter

/-!
# What a logged configuration reveals

Almost all secrets stand behind keys that are masked. The passphrase of an SSH key and the
obfuscation of Hysteria 1 do not, and the obfuscation of Hysteria 2 is an object that is there or
not.
-/

namespace QuinMo.Log

open Links V2Ray
open Text (isBlank)

/-- The profiles that the core runs itself. -/
inductive Node where
  /-- HTTP, VMess, VLESS, Trojan and ShadowTLS. -/
  | v2Ray (bean : StandardV2RayBean)
  | socks (bean : SOCKSBean.Fields)
  | shadowsocks (bean : ShadowsocksBean.Fields)
  /-- The core runs Hysteria over UDP only. -/
  | hysteria (bean : HysteriaBean.Fields) (udp : bean.protocol = HysteriaBean.PROTOCOL_UDP)
  | ssh (bean : SSHBean.Fields)
  | wireGuard (bean : WireGuardBean.Fields)
  | tuic (bean : TuicBean.Fields)
  | anyTls (bean : AnyTLSBean.Fields)

def v2RayOptions (globalAllowInsecure : Bool) (bean : StandardV2RayBean) : Except String Members :=
  match bean.ofClass with
  | .shadowTls version password => .ok (shadowTlsMembers
      (buildSingBoxOutboundShadowTLSBean globalAllowInsecure bean version password))
  | _ => (buildSingBoxOutboundStandardV2RayBean globalAllowInsecure bean).map v2RayMembers

def hysteriaOptions (describe : HysteriaBean.Fields → String) (globalAllowInsecure : Bool)
    (bean : HysteriaBean.Fields) : Option Members :=
  (buildSingBoxOutboundHysteriaBean describe globalAllowInsecure bean).toOption.map hysteriaMembers

/-- The options of the profile's outbound, unless the build fails; `describe` is the text of a bean
in the message of an error. -/
def Node.options (describe : HysteriaBean.Fields → String) (globalAllowInsecure : Bool) :
    Node → Option Members
  | v2Ray bean => (v2RayOptions globalAllowInsecure bean).toOption
  | socks bean => socksMembers (buildSingBoxOutboundSocksBean bean)
  | shadowsocks bean => shadowsocksMembers (buildSingBoxOutboundShadowsocksBean bean)
  | hysteria bean _ => hysteriaOptions describe globalAllowInsecure bean
  | ssh bean => sshMembers (buildSingBoxOutboundSSHBean bean)
  | wireGuard bean => wireGuardMembers (buildSingBoxEndpointWireGuardBean bean)
  | tuic bean => (buildSingBoxOutboundTuicBean globalAllowInsecure bean).toOption.map tuicMembers
  | anyTls bean => anyTlsMembers (buildSingBoxOutboundAnyTLSBean globalAllowInsecure bean)

def classWithoutSecrets : V2Ray.Class → V2Ray.Class
  | .vmess alterId => .vmess alterId
  | .trojan _ => .trojan ""
  | .http username _ => .http username ""
  | .shadowTls version _ => .shadowTls version ""

/-- The profile with its secrets left empty. -/
def Node.withoutSecrets : Node → Node
  | v2Ray bean => v2Ray { bean with ofClass := classWithoutSecrets bean.ofClass, uuid := "" }
  | socks bean => socks { bean with password := "" }
  | shadowsocks bean => shadowsocks { bean with password := "" }
  | hysteria bean udp => hysteria { bean with authPayload := "", obfuscation := "" } udp
  | ssh bean => ssh { bean with password := "", privateKey := "", privateKeyPassphrase := "" }
  | wireGuard bean => wireGuard { bean with privateKey := "", peerPreSharedKey := "" }
  | tuic bean => tuic { bean with uuid := "", token := "" }
  | anyTls bean => anyTls { bean with password := "" }

/-- An entry of the outbounds or endpoints: one that does not depend on the profile, or the
profile's own, with the fields that the config builder adds to its options, at least the tag. -/
inductive Entry where
  | other (j : Json)
  | node (added : String × Json) (more : Members)

inductive Section where
  | fixed (j : Json)
  | entries (list : List Entry)

/-- A configuration without the options of the profile. -/
abbrev Frame := List (String × Section)

section
variable (options : Members)

def Entry.json : Entry → Json
  | other j => j
  | node added more => .object (options ++ added :: more)

def Section.json : Section → Json
  | fixed j => j
  | entries list => .array (list.map (Entry.json options))

def config (frame : Frame) : Json :=
  .object (frame.map fun (key, part) => (key, part.json options))

end

/-- The pretty-printed configuration. -/
def configText (P : Printer) (options : Members) (frame : Frame) : List Char :=
  P.print (config options frame)

/-- What the log has of the configuration that is built for the profile. -/
def log (P : Printer) (B : Blanks) (describe : HysteriaBean.Fields → String)
    (globalAllowInsecure : Bool) (frame : Frame) (node : Node) : Option (List Char) :=
  (node.options describe globalAllowInsecure).map fun options =>
    redactSecrets B (configText P options frame)

/-- The frame has an entry for the profile. -/
def HasNode (frame : Frame) : Prop :=
  ∃ key list added more, (key, Section.entries list) ∈ frame ∧ Entry.node added more ∈ list

/-- A text in which some pieces are still open. -/
def plug (x : List (List Char)) (pieces : List (Option (List (List Char)))) : List (List Char) :=
  pieces.flatMap fun piece => piece.getD x

theorem plug_append (x : List (List Char)) (ps qs : List (Option (List (List Char)))) :
    plug x (ps ++ qs) = plug x ps ++ plug x qs :=
  List.flatMap_append

theorem length_plug (x : List (List Char)) (ps : List (Option (List (List Char)))) :
    (plug x ps).length = (plug [] ps).length + ps.count none * x.length := by
  induction ps with
  | nil => simp [plug]
  | cons p ps ih =>
    change (p.getD x ++ plug x ps).length = (p.getD [] ++ plug [] ps).length + _
    cases p with
    | none =>
      rw [List.count_cons_self, List.length_append, ih, Option.getD_none, Option.getD_none,
        List.nil_append, Nat.add_mul]
      omega
    | some l =>
      rw [List.count_cons_of_ne (Option.some_ne_none l), List.length_append, List.length_append, ih]
      simp only [Option.getD_some]
      omega

/-- The text tells what stands in its open pieces. -/
theorem plug_inj {x y : List (List Char)} {ps : List (Option (List (List Char)))}
    (open_piece : none ∈ ps) (same : plug x ps = plug y ps) : x = y := by
  have some_piece : 0 < ps.count none := List.count_pos_iff.mpr open_piece
  have size : x.length = y.length := by
    have total := congrArg List.length same
    rw [length_plug x, length_plug y, Nat.add_left_cancel_iff] at total
    exact Nat.eq_of_mul_eq_mul_left some_piece total
  clear some_piece
  induction ps with
  | nil => cases open_piece
  | cons p ps ih =>
    change p.getD x ++ plug x ps = p.getD y ++ plug y ps at same
    cases p with
    | none => exact (List.append_inj same size).1
    | some l =>
      refine ih ?_ (List.append_cancel_left same)
      simpa using open_piece

/-! ## Configurations with holes -/

section
variable {P : Printer} {B : Blanks}

/-- The lines of the options of an outbound. A comma is behind each option, since the config
builder adds fields after them. -/
def optionLines (P : Printer) (options : Members) : List Line :=
  options.flatMap fun (key, j) => j.lines P.escape 3 (some key) true

theorem memberLines_append (options : Members) (added : String × Json) (more : Members) :
    memberLines P.escape 3 (options ++ added :: more) =
      optionLines P options ++ memberLines P.escape 3 (added :: more) := by
  induction options with
  | nil => rfl
  | cons option options ih =>
    obtain ⟨key, j⟩ := option
    have comma : (!(options ++ added :: more).isEmpty) = true := by simp
    change j.lines P.escape 3 (some key) (!(options ++ added :: more).isEmpty) ++
      memberLines P.escape 3 (options ++ added :: more) =
        (j.lines P.escape 3 (some key) true ++ optionLines P options) ++ _
    rw [comma, ih, List.append_assoc]

theorem object_lines {members : Members} (some_member : members ≠ []) (indent : Nat)
    (key : Option String) (comma : Bool) : (Json.object members).lines P.escape indent key comma =
      [⟨indent, key.map P.escape, .plain .openObject, false⟩] ++
        memberLines P.escape (indent + 1) members ++
          [⟨indent, none, .plain .closeObject, comma⟩] := by
  cases members with
  | nil => exact absurd rfl some_member
  | cons m ms =>
    rw [Json.lines]
    rfl

theorem array_lines {items : List Json} (some_item : items ≠ []) (indent : Nat)
    (key : Option String) (comma : Bool) : (Json.array items).lines P.escape indent key comma =
      [⟨indent, key.map P.escape, .plain .openArray, false⟩] ++
        itemLines P.escape (indent + 1) items ++ [⟨indent, none, .plain .closeArray, comma⟩] := by
  cases items with
  | nil => exact absurd rfl some_item
  | cons j js =>
    rw [Json.lines]
    rfl

variable (P B) in
/-- What is logged of the options of an outbound. -/
def shown (options : Members) : List (List Char) := (optionLines P options).map (logged B)

variable (P B) in
/-- What is logged of the lines is a text whose open pieces are the logged options; there is one
under the condition. -/
def Template (condition : Prop) (lines : Members → List Line) : Prop :=
  ∃ pieces, (condition → none ∈ pieces) ∧
    ∀ options, (lines options).map (logged B) = plug (shown P B options) pieces

namespace Template

theorem constant (lines : List Line) : Template P B False fun _ => lines :=
  ⟨[some (lines.map (logged B))], False.elim, fun _ => (List.append_nil _).symm⟩

theorem hole : Template P B True (optionLines P) :=
  ⟨[none], fun _ => List.mem_singleton_self _, fun _ => (List.append_nil _).symm⟩

theorem append {p q : Prop} {f g : Members → List Line} (first : Template P B p f)
    (second : Template P B q g) : Template P B (p ∨ q) fun options => f options ++ g options := by
  obtain ⟨ps, left, text⟩ := first
  obtain ⟨qs, right, rest⟩ := second
  refine ⟨ps ++ qs, ?_, fun options => ?_⟩
  · rintro (holds | holds)
    · exact List.mem_append_left _ (left holds)
    · exact List.mem_append_right _ (right holds)
  · rw [List.map_append, text, rest, plug_append]

theorem congr {p q : Prop} {f g : Members → List Line} (h : Template P B p f) (weaker : q → p)
    (same : ∀ options, g options = f options) : Template P B q g := by
  obtain ⟨pieces, inside, text⟩ := h
  refine ⟨pieces, fun holds => inside (weaker holds), fun options => ?_⟩
  rw [same, text]

theorem without_hole {q : Prop} (lines : List Line) (absent : ¬ q) : Template P B q fun _ => lines :=
  (constant lines).congr absent fun _ => rfl

theorem entry (e : Entry) (comma : Bool) : Template P B (∃ added more, e = .node added more)
      fun options => (e.json options).lines P.escape 2 none comma := by
  cases e with
  | other j =>
    refine without_hole (j.lines P.escape 2 none comma) ?_
    rintro ⟨_, _, same⟩
    cases same
  | node added more =>
    have body := (hole (P := P) (B := B)).append (constant (memberLines P.escape 3 (added :: more)))
    have whole := ((constant [⟨2, none, .plain .openObject, false⟩]).append body).append
      (constant [⟨2, none, .plain .closeObject, comma⟩])
    refine whole.congr (fun _ => .inl (.inr (.inl trivial))) fun options => ?_
    have some_member : options ++ added :: more ≠ [] := by simp
    rw [← memberLines_append]
    exact object_lines some_member 2 none comma

theorem items (list : List Entry) : Template P B (∃ added more, Entry.node added more ∈ list)
      fun options => itemLines P.escape 2 (list.map (Entry.json options)) := by
  induction list with
  | nil =>
    refine without_hole [] ?_
    rintro ⟨_, _, listed⟩
    cases listed
  | cons e list ih =>
    refine ((entry e (!list.isEmpty)).append ih).congr ?_ fun options => ?_
    · rintro ⟨added, more, listed⟩
      rcases List.mem_cons.mp listed with same | listed
      · exact .inl ⟨added, more, same.symm⟩
      · exact .inr ⟨added, more, listed⟩
    · rw [← List.isEmpty_map (f := Entry.json options)]
      rfl

theorem part (key : String) (s : Section) (comma : Bool) :
    Template P B (∃ list added more, s = .entries list ∧ Entry.node added more ∈ list)
      fun options => (s.json options).lines P.escape 1 (some key) comma := by
  cases s with
  | fixed j =>
    refine without_hole (j.lines P.escape 1 (some key) comma) ?_
    rintro ⟨_, _, _, same, _⟩
    cases same
  | entries list =>
    cases list with
    | nil =>
      refine without_hole ((Json.array []).lines P.escape 1 (some key) comma) ?_
      rintro ⟨_, _, _, same, listed⟩
      cases same
      cases listed
    | cons e list =>
      have whole := ((constant [⟨1, some (P.escape key), .plain .openArray, false⟩]).append
        (items (P := P) (B := B) (e :: list))).append
          (constant [⟨1, none, .plain .closeArray, comma⟩])
      refine whole.congr ?_ fun options => array_lines (List.cons_ne_nil _ _) 1 (some key) comma
      rintro ⟨_, added, more, same, listed⟩
      cases same
      exact .inl (.inr ⟨added, more, listed⟩)

theorem sections (frame : Frame) : Template P B (HasNode frame)
      fun options => memberLines P.escape 1 (frame.map fun (key, s) => (key, s.json options)) := by
  induction frame with
  | nil =>
    refine without_hole [] ?_
    rintro ⟨_, _, _, _, listed, _⟩
    cases listed
  | cons named frame ih =>
    obtain ⟨key, s⟩ := named
    refine ((part key s (!frame.isEmpty)).append ih).congr ?_ fun options => ?_
    · rintro ⟨key', list, added, more, listed, node⟩
      rcases List.mem_cons.mp listed with same | listed
      · cases same
        exact .inl ⟨list, added, more, rfl, node⟩
      · exact .inr ⟨key', list, added, more, listed, node⟩
    · rw [← List.isEmpty_map (f := fun (key, s) => (key, Section.json options s))]
      rfl

end Template

theorem config_lines {frame : Frame} (used : HasNode frame) (options : Members) :
    (config options frame).lines P.escape 0 none false =
      [⟨0, none, .plain .openObject, false⟩] ++
        memberLines P.escape 1 (frame.map fun (key, s) => (key, s.json options)) ++
        [⟨0, none, .plain .closeObject, false⟩] := by
  have some_section : frame.map (fun (key, s) => (key, Section.json options s)) ≠ [] := by
    obtain ⟨_, _, _, _, listed, _⟩ := used
    exact List.ne_nil_of_mem (List.mem_map_of_mem listed)
  exact object_lines some_section 0 none false

/-- Two configurations with one frame are logged alike exactly if the options are. -/
theorem config_alike (pretty : P.Pretty) {frame : Frame} (used : HasNode frame)
    (options options' : Members) :
    redactSecrets B (configText P options frame) = redactSecrets B (configText P options' frame) ↔
      shown P B options = shown P B options' := by
  have some_line : ∀ options, (config options frame).lines P.escape 0 none false ≠ [] := by
    intro options
    rw [config_lines used]
    exact List.cons_ne_nil _ _
  obtain ⟨pieces, inside, text⟩ := ((Template.constant [⟨0, none, .plain .openObject, false⟩]).append
    (Template.sections (P := P) (B := B) frame)).append
      (Template.constant [⟨0, none, .plain .closeObject, false⟩])
  unfold configText
  rw [pretty.layout, pretty.layout, redacted_alike (some_line options) (some_line options'),
    config_lines used, config_lines used, text, text]
  constructor
  · exact plug_inj (inside (.inl (.inr used)))
  · exact fun same => congrArg (plug · pieces) same

/-! ## Options that are logged alike -/

variable (P B) in
/-- Two members with one key that are logged alike, wherever they stand. -/
def MemberAlike (m m' : String × Json) : Prop :=
  m.1 = m'.1 ∧ ∀ indent comma,
    (m.2.lines P.escape indent (some m.1) comma).map (logged B) =
      (m'.2.lines P.escape indent (some m'.1) comma).map (logged B)

variable (P B) in
/-- Two values that are logged alike behind any key. -/
def JsonAlike (j j' : Json) : Prop :=
  ∀ indent key comma, (j.lines P.escape indent key comma).map (logged B) =
    (j'.lines P.escape indent key comma).map (logged B)

variable (P B) in
abbrev Alike (ms ms' : Members) : Prop := List.Forall₂ (MemberAlike P B) ms ms'

theorem Alike.refl (ms : Members) : Alike P B ms ms :=
  List.forall₂_same.mpr fun _ _ => ⟨rfl, fun _ _ => rfl⟩

/-- The value of a masked key does not show. -/
theorem Alike.secret {key : String} (masked : sensitive (P.escape key) = true) (p q : String) :
    Alike P B (text key (some p)) (text key (some q)) := by
  refine .cons ⟨rfl, fun indent comma => ?_⟩ .nil
  have mask : ∀ s, logged B ⟨indent, some (P.escape key), .text s, comma⟩ =
      later B (Line.mk indent (some (P.escape key)) (.text stars) comma).written := by
    intro s
    simp [logged, Line.mask, masked]
  simp only [Json.lines, Option.map_some, List.map_cons, List.map_nil, mask]

theorem Alike.memberLines {ms ms' : Members} (h : Alike P B ms ms') (indent : Nat) :
    (Log.memberLines P.escape indent ms).map (logged B) =
      (Log.memberLines P.escape indent ms').map (logged B) := by
  induction h with
  | nil => rfl
  | @cons m m' ms ms' first rest ih =>
    have empty : ms.isEmpty = ms'.isEmpty := by cases rest <;> rfl
    obtain ⟨key, j⟩ := m
    obtain ⟨key', j'⟩ := m'
    rw [Log.memberLines, Log.memberLines, List.map_append, List.map_append, ih, empty,
      first.2 indent]

theorem Alike.shown {ms ms' : Members} (h : Alike P B ms ms') : shown P B ms = shown P B ms' := by
  induction h with
  | nil => rfl
  | cons first _ ih =>
    unfold Log.shown optionLines at ih ⊢
    rw [List.flatMap_cons, List.flatMap_cons, List.map_append, List.map_append, ih]
    exact congrArg (· ++ _) (first.2 3 true)

theorem Alike.object {ms ms' : Members} (h : Alike P B ms ms') :
    JsonAlike P B (.object ms) (.object ms') := by
  intro indent key comma
  cases h with
  | nil => rfl
  | cons first rest =>
    rw [object_lines (List.cons_ne_nil _ _), object_lines (List.cons_ne_nil _ _)]
    simp only [List.map_append]
    rw [Alike.memberLines (.cons first rest)]

theorem JsonAlike.array {j j' : Json} (h : JsonAlike P B j j') :
    JsonAlike P B (.array [j]) (.array [j']) := by
  intro indent key comma
  rw [array_lines (List.cons_ne_nil _ _), array_lines (List.cons_ne_nil _ _)]
  simp only [List.map_append, itemLines, List.append_nil]
  rw [h]

theorem JsonAlike.member {j j' : Json} (h : JsonAlike P B j j') (key : String) :
    Alike P B [(key, j)] [(key, j')] :=
  .cons ⟨rfl, fun indent comma => h indent (some key) comma⟩ .nil

theorem Alike.append {as as' bs bs' : Members} (h : Alike P B as as') (g : Alike P B bs bs') :
    Alike P B (as ++ bs) (as' ++ bs') :=
  List.rel_append h g

theorem Alike.followed {as as' : Members} (h : Alike P B as as') (bs : Members) :
    Alike P B (as ++ bs) (as' ++ bs) :=
  h.append (.refl bs)

/-! ## Profiles that differ in their secrets -/

theorem shown_append (as bs : Members) : shown P B (as ++ bs) = shown P B as ++ shown P B bs := by
  simp [shown, optionLines]

theorem Printer.Pretty.sensitive_escape (pretty : P.Pretty) {key : String}
    (letters : ∀ c ∈ key.toList, c.isLower ∨ c = '_') :
    sensitive (P.escape key) = decide (Word (lastPart key.toList)) := by
  rw [sensitive, pretty.letters key letters]

/-- The keys of secrets that are masked. -/
theorem Printer.Pretty.masked (pretty : P.Pretty) (key : String)
    (listed : key ∈ ["password", "uuid", "auth", "auth_str", "private_key", "pre_shared_key"]) :
    sensitive (P.escape key) = true := by
  have all : ∀ key ∈ ["password", "uuid", "auth", "auth_str", "private_key", "pre_shared_key"],
      (∀ c ∈ key.toList, c.isLower ∨ c = '_') ∧ Word (lastPart key.toList) := by decide
  rw [pretty.sensitive_escape (all key listed).1]
  exact decide_eq_true (all key listed).2

theorem Printer.Pretty.secret (pretty : P.Pretty) (key : String)
    (listed : key ∈ ["password", "uuid", "auth", "auth_str", "private_key", "pre_shared_key"])
    (p q : String) : Alike P B (text key (some p)) (text key (some q)) :=
  .secret (pretty.masked key listed) p q

theorem Printer.Pretty.upToSecret (pretty : P.Pretty) (key : String)
    (listed : key ∈ ["password", "uuid", "auth", "auth_str", "private_key", "pre_shared_key"])
    (first : Members) (p q : String) :
    Alike P B (first ++ text key (some p)) (first ++ text key (some q)) :=
  (Alike.refl first).append (pretty.secret key listed p q)

variable (P B) in
/-- Both builds fail, or the options are logged alike. -/
def BuiltAlike : Option Members → Option Members → Prop
  | some options, some options' => shown P B options = shown P B options'
  | none, none => True
  | _, _ => False

theorem log_alike (pretty : P.Pretty) {describe : HysteriaBean.Fields → String} {g : Bool}
    {frame : Frame} (used : HasNode frame) (node node' : Node) :
    log P B describe g frame node = log P B describe g frame node' ↔
      BuiltAlike P B (node.options describe g) (node'.options describe g) := by
  unfold log
  cases node.options describe g with
  | none =>
    cases node'.options describe g with
    | none => exact iff_of_true rfl trivial
    | some options' => exact ⟨nofun, False.elim⟩
  | some options =>
    cases node'.options describe g with
    | none => exact ⟨nofun, False.elim⟩
    | some options' =>
      rw [Option.map_some, Option.map_some, Option.some.injEq]
      exact config_alike pretty used options options'

variable (P B) in
/-- The values are logged alike behind the key, as options of an outbound. -/
def ShownAlike (key p q : String) : Prop :=
  logged B ⟨3, some (P.escape key), .text (P.escape p), true⟩ =
    logged B ⟨3, some (P.escape key), .text (P.escape q), true⟩

theorem Printer.Pretty.unsuspicious (pretty : P.Pretty) {s : String}
    (clear : Unsuspicious s.toList) : Unsuspicious (P.escape s).chars := by
  constructor
  · exact fun inside => clear.1 (pretty.special s '@' inside (.inl rfl))
  · intro c inside
    cases ends : isTerminator c with
    | false => rfl
    | true => exact ends.symm.trans (clear.2 c (pretty.special s c inside (.inr ends)))

/-- Behind a key that is not masked two values show that they differ, unless they have a part that
is taken for a URL with a name, or for a line of YAML. -/
theorem shownAlike_iff (pretty : P.Pretty) {key p q : String}
    (open_key : sensitive (P.escape key) = false) (clear_key : Unsuspicious key.toList)
    (clear : Unsuspicious p.toList) (clear' : Unsuspicious q.toList) :
    ShownAlike P B key p q ↔ p = q := by
  unfold ShownAlike
  rw [logged_as_written open_key (pretty.unsuspicious clear_key) (pretty.unsuspicious clear),
    logged_as_written open_key (pretty.unsuspicious clear_key) (pretty.unsuspicious clear')]
  constructor
  · intro same
    have value : quoted (P.escape p) ++ commaText true = quoted (P.escape q) ++ commaText true :=
      List.append_cancel_left (List.append_cancel_left same)
    have inner := (List.cons.inj (List.append_cancel_right value)).2
    exact pretty.injective p q (StringText.ext (List.append_cancel_right inner))
  · rintro rfl
    rfl

theorem shown_text (key p q : String) :
    shown P B (text key (some p)) = shown P B (text key (some q)) ↔ ShownAlike P B key p q := by
  change [logged B _] = [logged B _] ↔ _
  rw [List.singleton_inj]
  rfl

theorem shown_followed {bs bs' : Members} (last : Alike P B bs bs') (as as' : Members) :
    shown P B (as ++ bs) = shown P B (as' ++ bs') ↔ shown P B as = shown P B as' := by
  rw [shown_append, shown_append, last.shown, List.append_cancel_right_eq]

theorem shown_preceded {as as' : Members} (first : Alike P B as as') (bs bs' : Members) :
    shown P B (as ++ bs) = shown P B (as' ++ bs') ↔ shown P B bs = shown P B bs' := by
  rw [shown_append, shown_append, first.shown, List.append_cancel_left_eq]

theorem isSome_blankAsNull (s : String) : (blankAsNull s).isSome = !isBlank s := by
  unfold blankAsNull
  cases isBlank s <;> rfl

variable (pretty : P.Pretty)
include pretty

/-- Other ids and passwords do not show. -/
theorem v2Ray_alike (g : Bool) (bean : StandardV2RayBean) {c : V2Ray.Class} (uuid : String)
    (same : classWithoutSecrets bean.ofClass = classWithoutSecrets c) :
    BuiltAlike P B (v2RayOptions g bean).toOption
      (v2RayOptions g { bean with ofClass := c, uuid := uuid }).toOption := by
  have password := pretty.upToSecret (B := B) "password" (by decide)
  obtain ⟨c', _⟩ := bean
  cases c' <;> cases c <;> cases same
  case vmess alterId =>
    have id := pretty.upToSecret (B := B) "uuid" (by decide)
    by_cases vless : alterId = -1
    · subst vless
      exact ((((((id _ _ _).followed _).followed _).followed _).followed _).followed _).shown
    · simp only [v2RayOptions, buildSingBoxOutboundStandardV2RayBean, vless, if_false]
      exact (((((((id _ _ _).followed _).followed _).followed _).followed _).followed _).followed
        _).shown
  case trojan => exact ((((password _ _ _).followed _).followed _).followed _).shown
  case http => exact (((password _ _ _).followed _).followed _).shown
  case shadowTls => exact (((password _ _ _).followed _).followed _).shown

theorem socks_alike (bean : SOCKSBean.Fields) (password : String) :
    Alike P B (socksMembers (buildSingBoxOutboundSocksBean bean))
      (socksMembers (buildSingBoxOutboundSocksBean { bean with password := password })) :=
  (pretty.upToSecret "password" (by decide) _ _ _).followed _

theorem shadowsocks_alike (bean : ShadowsocksBean.Fields) (password : String) :
    Alike P B (shadowsocksMembers (buildSingBoxOutboundShadowsocksBean bean))
      (shadowsocksMembers (buildSingBoxOutboundShadowsocksBean
        { bean with password := password })) :=
  (((pretty.upToSecret "password" (by decide) _ _ _).followed _).followed _).followed _

theorem tuic_alike (g : Bool) (bean : TuicBean.Fields) (uuid token : String) :
    BuiltAlike P B ((buildSingBoxOutboundTuicBean g bean).toOption.map tuicMembers)
      ((buildSingBoxOutboundTuicBean g { bean with uuid := uuid, token := token }).toOption.map
        tuicMembers) := by
  by_cases removed : bean.protocolVersion = 4
  · simp only [buildSingBoxOutboundTuicBean, removed, if_true]
    exact trivial
  · simp only [buildSingBoxOutboundTuicBean, removed, if_false]
    have secrets := fun first : Members =>
      (pretty.upToSecret (B := B) "uuid" (by decide) first bean.uuid uuid).append
        (pretty.secret "password" (by decide) bean.token token)
    exact ((((((secrets _).followed _).followed _).followed _).followed _).followed _).shown

theorem anyTls_alike (g : Bool) (bean : AnyTLSBean.Fields) (password : String) :
    Alike P B (anyTlsMembers (buildSingBoxOutboundAnyTLSBean g bean))
      (anyTlsMembers (buildSingBoxOutboundAnyTLSBean g { bean with password := password })) :=
  (pretty.upToSecret "password" (by decide) _ _ _).followed _

theorem wireGuard_alike (bean : WireGuardBean.Fields) (privateKey peerPreSharedKey : String) :
    Alike P B (wireGuardMembers (buildSingBoxEndpointWireGuardBean bean))
      (wireGuardMembers (buildSingBoxEndpointWireGuardBean
        { bean with privateKey := privateKey, peerPreSharedKey := peerPreSharedKey })) := by
  have peer : Alike P B (peerMembers (buildSingBoxEndpointWireGuardBean bean))
      (peerMembers (buildSingBoxEndpointWireGuardBean
        { bean with privateKey := privateKey, peerPreSharedKey := peerPreSharedKey })) :=
    ((pretty.upToSecret "pre_shared_key" (by decide) _ _ _).followed _).followed _
  have key := pretty.upToSecret (B := B) "private_key" (by decide)
  exact (((key _ _ _).append (peer.object.array.member "peers")).followed _).followed _

/-- The passphrase of a key shows. -/
theorem ssh_alike (bean : SSHBean.Fields) (password privateKey privateKeyPassphrase : String) :
    shown P B (sshMembers (buildSingBoxOutboundSSHBean bean)) =
      shown P B (sshMembers (buildSingBoxOutboundSSHBean { bean with
        password := password, privateKey := privateKey
        privateKeyPassphrase := privateKeyPassphrase })) ↔
      (bean.authType = SSHBean.AUTH_TYPE_PRIVATE_KEY →
        ShownAlike P B "private_key_passphrase" bean.privateKeyPassphrase privateKeyPassphrase) := by
  simp only [sshMembers, buildSingBoxOutboundSSHBean]
  rw [shown_followed (.refl _), shown_followed (.refl _)]
  by_cases key : bean.authType = SSHBean.AUTH_TYPE_PRIVATE_KEY
  · simp only [key, if_true, forall_const]
    rw [shown_preceded (pretty.upToSecret "private_key" (by decide) _ _ _), shown_text]
  · simp only [key, if_false, false_imp_iff, iff_true]
    exact (((pretty.upToSecret "password" (by decide) _ _ _).followed _).followed _).shown

omit pretty in
/-- The obfuscation of Hysteria 1 shows. -/
theorem v1_alike (o : HysteriaServer) (obfs obfs' : String)
    {auth auth' auth_str auth_str' : Option String}
    (recv_window_conn recv_window : Option Int) (disable_mtu_discovery : Bool)
    (options : OutboundTLSOptions) (payload : Alike P B (text "auth" auth) (text "auth" auth'))
    (string : Alike P B (text "auth_str" auth_str) (text "auth_str" auth_str')) :
    shown P B (hysteriaMembers (.v1 o obfs auth auth_str recv_window_conn recv_window
        disable_mtu_discovery options)) =
      shown P B (hysteriaMembers (.v1 o obfs' auth' auth_str' recv_window_conn recv_window
        disable_mtu_discovery options)) ↔ ShownAlike P B "obfs" obfs obfs' := by
  unfold hysteriaMembers
  rw [shown_followed (.refl _), shown_followed (.refl _), shown_followed (.refl _),
    shown_followed (.refl _), shown_followed (.refl _), shown_followed (.refl _),
    shown_followed string, shown_followed payload, shown_preceded (.refl _), shown_text]

theorem hysteria_v1_alike (describe : HysteriaBean.Fields → String) (g : Bool)
    (bean : HysteriaBean.Fields) (authPayload obfuscation : String)
    (one : bean.protocolVersion = 1) :
    BuiltAlike P B (hysteriaOptions describe g bean) (hysteriaOptions describe g
      { bean with authPayload := authPayload, obfuscation := obfuscation }) ↔
      ShownAlike P B "obfs" bean.obfuscation obfuscation := by
  have auth : ∀ key, sensitive (P.escape key) = true → ∀ (p : Prop) [Decidable p],
      Alike P B (text key (if p then some bean.authPayload else none))
        (text key (if p then some authPayload else none)) := by
    intro key masked p _
    split
    · exact .secret masked _ _
    · exact .refl _
  simp only [hysteriaOptions, buildSingBoxOutboundHysteriaBean, one, if_true]
  exact v1_alike _ _ _ _ _ _ _ (auth _ (pretty.masked "auth" (by decide)) _)
    (auth _ (pretty.masked "auth_str" (by decide)) _)

/-- Whether there is an obfuscation in Hysteria 2 shows, and nothing else of it. -/
theorem v2_alike (o : HysteriaServer) (obfs obfs' : Option String) (password password' : String)
    (options : OutboundTLSOptions) : shown P B (hysteriaMembers (.v2 o obfs password options)) =
      shown P B (hysteriaMembers (.v2 o obfs' password' options)) ↔ obfs.isSome = obfs'.isSome := by
  unfold hysteriaMembers
  rw [shown_followed (.refl _), shown_followed (.refl _), shown_followed (.refl _),
    shown_followed (pretty.secret "password" (by decide) _ _), shown_preceded (.refl _)]
  match obfs, obfs' with
  | none, none => exact iff_of_true rfl rfl
  | some it, none => exact iff_of_false nofun nofun
  | none, some it => exact iff_of_false nofun nofun
  | some it, some it' =>
    have object := (pretty.upToSecret (B := B) "password" (by decide) (text "type" "salamander") it
      it').object.member "obfs"
    exact iff_of_true object.shown rfl

theorem hysteria_v2_alike (describe : HysteriaBean.Fields → String) (g : Bool)
    (bean : HysteriaBean.Fields) (authPayload obfuscation : String)
    (two : bean.protocolVersion = 2) :
    BuiltAlike P B (hysteriaOptions describe g bean) (hysteriaOptions describe g
      { bean with authPayload := authPayload, obfuscation := obfuscation }) ↔
      isBlank bean.obfuscation = isBlank obfuscation := by
  simp only [hysteriaOptions, buildSingBoxOutboundHysteriaBean, two, if_true]
  refine (v2_alike pretty _ _ _ _ _ _).trans ?_
  rw [isSome_blankAsNull, isSome_blankAsNull, Bool.not_inj_iff]

variable (P B) in
/-- What is logged of the secrets is the same: of SSH the passphrase of the key, of Hysteria 1 the
obfuscation, and of Hysteria 2 whether there is one. -/
def SecretsShownAlike : Node → Node → Prop
  | .ssh bean, .ssh bean' => bean.authType = SSHBean.AUTH_TYPE_PRIVATE_KEY →
      ShownAlike P B "private_key_passphrase" bean.privateKeyPassphrase bean'.privateKeyPassphrase
  | .hysteria bean _, .hysteria bean' _ =>
      (bean.protocolVersion = 1 → ShownAlike P B "obfs" bean.obfuscation bean'.obfuscation) ∧
        (bean.protocolVersion = 2 → isBlank bean.obfuscation = isBlank bean'.obfuscation)
  | _, _ => True

theorem hysteria_alike (describe : HysteriaBean.Fields → String) (g : Bool)
    (bean : HysteriaBean.Fields) (authPayload obfuscation : String) :
    BuiltAlike P B (hysteriaOptions describe g bean) (hysteriaOptions describe g
      { bean with authPayload := authPayload, obfuscation := obfuscation }) ↔
      (bean.protocolVersion = 1 → ShownAlike P B "obfs" bean.obfuscation obfuscation) ∧
        (bean.protocolVersion = 2 → isBlank bean.obfuscation = isBlank obfuscation) := by
  by_cases one : bean.protocolVersion = 1
  · rw [hysteria_v1_alike pretty describe g bean authPayload obfuscation one]
    simp [one]
  by_cases two : bean.protocolVersion = 2
  · rw [hysteria_v2_alike pretty describe g bean authPayload obfuscation two]
    simp [two]
  · simp only [hysteriaOptions, buildSingBoxOutboundHysteriaBean, one, two, if_false,
      false_imp_iff, and_true, iff_true]
    exact trivial

omit pretty in
/-- A profile is determined by its secrets and the rest of it. -/
theorem v2Ray_secrets {bean bean' : StandardV2RayBean}
    (same : (Node.v2Ray bean).withoutSecrets = (Node.v2Ray bean').withoutSecrets) :
    bean' = { bean with ofClass := bean'.ofClass, uuid := bean'.uuid } ∧
      classWithoutSecrets bean.ofClass = classWithoutSecrets bean'.ofClass := by
  cases bean
  cases bean'
  simp only [Node.withoutSecrets, Node.v2Ray.injEq, StandardV2RayBean.mk.injEq] at same ⊢
  simp [same]

theorem log_shown_iff (describe : HysteriaBean.Fields → String) (g : Bool) {frame : Frame}
    (used : HasNode frame) (node node' : Node)
    (same : node.withoutSecrets = node'.withoutSecrets) :
    log P B describe g frame node = log P B describe g frame node' ↔
      SecretsShownAlike P B node node' := by
  rw [log_alike pretty used]
  cases node <;> cases node' <;> try contradiction
  case v2Ray.v2Ray bean bean' =>
    obtain ⟨rest, kind⟩ := v2Ray_secrets same
    rw [rest]
    exact iff_of_true (v2Ray_alike pretty _ bean _ kind) trivial
  case socks.socks bean bean' =>
    cases bean
    cases bean'
    cases same
    exact iff_of_true (socks_alike pretty _ _).shown trivial
  case shadowsocks.shadowsocks bean bean' =>
    cases bean
    cases bean'
    cases same
    exact iff_of_true (shadowsocks_alike pretty _ _).shown trivial
  case hysteria.hysteria bean udp bean' udp' =>
    cases bean
    cases bean'
    cases same
    exact hysteria_alike pretty _ _ _ _ _
  case ssh.ssh bean bean' =>
    cases bean
    cases bean'
    cases same
    exact ssh_alike pretty _ _ _ _
  case wireGuard.wireGuard bean bean' =>
    cases bean
    cases bean'
    cases same
    exact iff_of_true (wireGuard_alike pretty _ _ _).shown trivial
  case tuic.tuic bean bean' =>
    cases bean
    cases bean'
    cases same
    exact iff_of_true (tuic_alike pretty _ _ _ _) trivial
  case anyTls.anyTls bean bean' =>
    cases bean
    cases bean'
    cases same
    exact iff_of_true (anyTls_alike pretty _ _ _).shown trivial

omit pretty in
/-- The secrets that show are the same: of SSH the passphrase of the key, of Hysteria 1 the
obfuscation, and of Hysteria 2 whether there is one. -/
def Unrevealed : Node → Node → Prop
  | .ssh bean, .ssh bean' => bean.authType = SSHBean.AUTH_TYPE_PRIVATE_KEY →
      bean.privateKeyPassphrase = bean'.privateKeyPassphrase
  | .hysteria bean _, .hysteria bean' _ =>
      (bean.protocolVersion = 1 → bean.obfuscation = bean'.obfuscation) ∧
        (bean.protocolVersion = 2 → isBlank bean.obfuscation = isBlank bean'.obfuscation)
  | _, _ => True

/-- The secrets that may show have no part that is taken for a URL with a name, or for a line of
YAML. -/
def PlainSecrets : Node → Prop
  | .ssh bean => Unsuspicious bean.privateKeyPassphrase.toList
  | .hysteria bean _ => Unsuspicious bean.obfuscation.toList
  | _ => True

omit pretty in
theorem Unrevealed.shown {node node' : Node} (h : Unrevealed node node') :
    SecretsShownAlike P B node node' := by
  cases node <;> cases node' <;> try exact trivial
  · exact ⟨fun one => congrArg (fun s => logged B ⟨3, _, .text (P.escape s), true⟩) (h.1 one), h.2⟩
  · exact fun key => congrArg (fun s => logged B ⟨3, _, .text (P.escape s), true⟩) (h key)

theorem SecretsShownAlike.unrevealed {node node' : Node} (h : SecretsShownAlike P B node node')
    (plain : PlainSecrets node) (plain' : PlainSecrets node') : Unrevealed node node' := by
  have open_key (key : String) (listed : key ∈ ["private_key_passphrase", "obfs"]) :
      sensitive (P.escape key) = false ∧ Unsuspicious key.toList := by
    have all : ∀ key ∈ ["private_key_passphrase", "obfs"],
        (∀ c ∈ key.toList, c.isLower ∨ c = '_') ∧ ¬ Word (lastPart key.toList) ∧
          Unsuspicious key.toList := by decide
    obtain ⟨letters, other, clear⟩ := all key listed
    rw [pretty.sensitive_escape letters]
    exact ⟨decide_eq_false other, clear⟩
  cases node <;> cases node' <;> try exact trivial
  · obtain ⟨quiet, clear⟩ := open_key "obfs" (by decide)
    exact ⟨fun one => (shownAlike_iff pretty quiet clear plain plain').mp (h.1 one), h.2⟩
  · obtain ⟨quiet, clear⟩ := open_key "private_key_passphrase" (by decide)
    exact fun key => (shownAlike_iff pretty quiet clear plain plain').mp (h key)

end

/-- Blanks in ASCII. -/
def isAsciiBlank (c : Char) : Bool := c == ' ' || (9 ≤ c.toNat && c.toNat ≤ 13)

theorem isAsciiBlank_visible (c : Char) (low : 32 < c.toNat) (_ : c.toNat < 127) :
    isAsciiBlank c = false := by
  have other : c ≠ ' ' := by
    rintro rfl
    exact absurd low (by decide)
  simp only [isAsciiBlank, Bool.or_eq_false_iff, beq_eq_false_iff_ne, Bool.and_eq_false_iff,
    decide_eq_false_iff_not]
  exact ⟨other, .inr (by omega)⟩

def asciiBlanks : Blanks where
  is := isAsciiBlank
  space := rfl
  newline := rfl
  visible := isAsciiBlank_visible

/-- A configuration with one outbound. -/
def oneOutbound : Frame :=
  [("log", .fixed (.object [("level", .string "warn")])),
    ("outbounds", .entries [.node ("domain_strategy", .string "") [("tag", .string "proxy")],
      .other (.object [("tag", .string "direct"), ("type", .string "direct")])])]

theorem oneOutbound_hasNode : HasNode oneOutbound :=
  ⟨"outbounds", _, ("domain_strategy", .string ""), [("tag", .string "proxy")],
    List.mem_cons_of_mem _ List.mem_cons_self, List.mem_cons_self⟩

/-- A description that tells nothing. -/
def unnamed (_ : HysteriaBean.Fields) : String := "HysteriaBean"

def sshWithKey (privateKey privateKeyPassphrase : String) : SSHBean.Fields :=
  ⟨"example.com", 22, "root", SSHBean.AUTH_TYPE_PRIVATE_KEY, "", privateKey,
    privateKeyPassphrase, ""⟩

end QuinMo.Log
