import QuinMo.Lib.Text
import QuinMo.Lib.Wire

/-!
# Beans as bytes

Two beans are equal if their bytes without the name are. Each class lays out its own fields;
`AbstractBean` writes the name and the custom JSON behind them.
-/

namespace QuinMo

/-- What a class of beans has to say. A bean that was not completed has null fields. -/
structure Layout where
  Raw : Type
  Fields : Type
  javaClass : Fields → String
  /-- All fields, none of them null. -/
  raw : Fields → Raw
  initializeDefaultValues : Raw → Fields
  serialize : Fields → List Token
  /-- The fields that `serialize` writes; the others are null. -/
  written : Fields → Raw
  deserialize : ∀ {I : Type} [Source I], String → Reader I Raw
  reads : ∀ {I : Type} [Stream I] (c : Fields),
    Reads (I := I) (deserialize (javaClass c)) (serialize c) (written c)
  serialize_congr : ∀ {c d}, written c = written d → serialize c = serialize d
  javaClass_again : ∀ c, initializeDefaultValues (raw c) = c →
    javaClass (initializeDefaultValues (written c)) = javaClass c
  /-- Defaults do not touch what was written of a bean that has its defaults. -/
  written_again : ∀ c, initializeDefaultValues (raw c) = c →
    written (initializeDefaultValues (written c)) = written c

/-- A class that writes all its fields, whatever they are. -/
def Layout.whole {Raw Fields : Type} (javaClass : String) (raw : Fields → Raw)
    (raw_inj : ∀ {c d}, raw c = raw d → c = d) (initializeDefaultValues : Raw → Fields)
    (serialize : Fields → List Token) (deserialize : ∀ {I : Type} [Source I], Reader I Raw)
    (reads : ∀ {I : Type} [Stream I] (c : Fields),
      Reads (I := I) deserialize (serialize c) (raw c)) : Layout where
  Raw := Raw
  Fields := Fields
  javaClass _ := javaClass
  raw := raw
  initializeDefaultValues := initializeDefaultValues
  serialize := serialize
  written := raw
  deserialize _ := deserialize
  reads := reads
  serialize_congr h := by rw [raw_inj h]
  javaClass_again _ _ := rfl
  written_again _ h := congrArg raw h

variable {K : Type} (layout : K → Layout)

/-- A bean with null for what was not set. -/
structure RawBean where
  kind : K
  fields : (layout kind).Raw
  name : Option String
  customOutboundJson : Option String
  customConfigJson : Option String

structure FullBean where
  kind : K
  fields : (layout kind).Fields
  name : String
  customOutboundJson : String
  customConfigJson : String

namespace FullBean

variable {layout}

def javaClass (b : FullBean layout) : String := (layout b.kind).javaClass b.fields

def raw (b : FullBean layout) : RawBean layout where
  kind := b.kind
  fields := (layout b.kind).raw b.fields
  name := b.name
  customOutboundJson := b.customOutboundJson
  customConfigJson := b.customConfigJson

def initializeDefaultValues (r : RawBean layout) : FullBean layout where
  kind := r.kind
  fields := (layout r.kind).initializeDefaultValues r.fields
  name := r.name.getD ""
  customOutboundJson := r.customOutboundJson.getD ""
  customConfigJson := r.customConfigJson.getD ""

/-- `initializeDefaultValues` leaves the bean as it is. -/
def Initialized (b : FullBean layout) : Prop :=
  (layout b.kind).initializeDefaultValues ((layout b.kind).raw b.fields) = b.fields

theorem initialized_iff (b : FullBean layout) :
    b.Initialized ↔ initializeDefaultValues b.raw = b := by
  obtain ⟨kind, fields, name, outbound, config⟩ := b
  simp [Initialized, initializeDefaultValues, raw]

def serializeToBuffer (b : FullBean layout) (serializeWithoutName : Bool) : List Token :=
  (layout b.kind).serialize b.fields ++ (.int 1 ::
    ((if serializeWithoutName then [] else [.string b.name]) ++
      [.string b.customOutboundJson, .string b.customConfigJson]))

def deserializeFromBuffer {I : Type} [Source I] (kind : K) (javaClass : String) :
    Reader I (RawBean layout) := do
  let fields ← (layout kind).deserialize javaClass
  let _extraVersion ← readInt
  let name ← readString
  let customOutboundJson ← readString
  let customConfigJson ← readString
  return { kind, fields, name, customOutboundJson, customConfigJson }

/-- `KryoConverters.serialize`. -/
def bytes (E : Encoding) (b : FullBean layout) : List UInt8 := E.write (b.serializeToBuffer false)

/-- `serializeForComparison`. -/
def bytesForComparison (E : Encoding) (b : FullBean layout) : List UInt8 :=
  E.write (b.serializeToBuffer true)

/-- The fields are values of a machine: numbers of 32 and 64 bits, and texts that have a length. -/
def Fits (b : FullBean layout) : Prop := ∀ t ∈ b.serializeToBuffer false, t.Fits

instance (b : FullBean layout) : Decidable b.Fits :=
  inferInstanceAs (Decidable (∀ t ∈ b.serializeToBuffer false, t.Fits))

theorem Fits.withoutName {b : FullBean layout} (h : b.Fits) :
    ∀ t ∈ b.serializeToBuffer true, t.Fits := by
  intro t listed
  apply h
  simp only [serializeToBuffer, if_true, List.nil_append] at listed
  simp only [serializeToBuffer, Bool.false_eq_true, if_false, List.mem_append, List.mem_cons] at *
  rcases listed with own | own | own | own
  · exact .inl own
  · exact .inr (.inl own)
  · exact .inr (.inr (.inr (.inl own)))
  · exact .inr (.inr (.inr (.inr own)))

/-- The bean as far as it is written. -/
def written (b : FullBean layout) : RawBean layout where
  kind := b.kind
  fields := (layout b.kind).written b.fields
  name := b.name
  customOutboundJson := b.customOutboundJson
  customConfigJson := b.customConfigJson

theorem deserializeFromBuffer_reads {I : Type} [Stream I] (b : FullBean layout) :
    Reads (I := I) (deserializeFromBuffer b.kind b.javaClass) (b.serializeToBuffer false)
      b.written := by
  refine ((layout b.kind).reads b.fields).bind fun fits rest => ?_
  simp only [Bool.false_eq_true, if_false, List.singleton_append, List.forall_mem_cons] at fits
  simp [written, fits]

variable {b a : FullBean layout}

theorem written_again (h : b.Initialized) :
    (initializeDefaultValues b.written).written = b.written := by
  obtain ⟨kind, fields, name, outbound, config⟩ := b
  simp only [written, initializeDefaultValues, Option.getD_some]
  rw [(layout kind).written_again fields h]

/-- What is written depends on the written fields only. -/
theorem serializeToBuffer_congr (same : a.written = b.written)
    (withoutName : Bool) : a.serializeToBuffer withoutName = b.serializeToBuffer withoutName := by
  obtain ⟨kind, fields, name, outbound, config⟩ := a
  obtain ⟨kind', fields', name', outbound', config'⟩ := b
  simp only [written, RawBean.mk.injEq, Option.some.injEq] at same
  obtain ⟨rfl, sameFields, rfl, rfl, rfl⟩ := same
  simp only [serializeToBuffer]
  rw [(layout kind).serialize_congr (eq_of_heq sameFields)]

/-! ## Equality -/

/-- The bean as far as it is compared. -/
def nameless (b : FullBean layout) : RawBean layout := { b.written with name := none }

/-- The beans are of one class and agree on the fields and the custom JSON it writes. -/
structure SameConfiguration (a b : FullBean layout) : Prop where
  javaClass : a.javaClass = b.javaClass
  nameless : a.nameless = b.nameless

/-- A reader for the bytes that are compared. -/
def readNameless {I : Type} [Source I] (kind : K) (javaClass : String) :
    Reader I (RawBean layout) := do
  let fields ← (layout kind).deserialize javaClass
  let _extraVersion ← readInt
  let customOutboundJson ← readString
  let customConfigJson ← readString
  return { kind, fields, name := none, customOutboundJson, customConfigJson }

theorem readNameless_reads {I : Type} [Stream I] (b : FullBean layout) :
    Reads (I := I) (readNameless b.kind b.javaClass) (b.serializeToBuffer true) b.nameless := by
  refine ((layout b.kind).reads b.fields).bind fun fits rest => ?_
  simp only [if_true, List.nil_append, List.forall_mem_cons] at fits
  simp [nameless, written, fits]

/-- No two kinds of beans have a class in common. -/
def ClassesApart (layout : K → Layout) : Prop :=
  ∀ a b : FullBean layout, a.javaClass = b.javaClass → a.kind = b.kind

theorem serialize_of_nameless (same : a.nameless = b.nameless) :
    a.serializeToBuffer true = b.serializeToBuffer true := by
  obtain ⟨kind, fields, name, outbound, config⟩ := a
  obtain ⟨kind', fields', name', outbound', config'⟩ := b
  simp only [nameless, written, RawBean.mk.injEq, Option.some.injEq] at same
  obtain ⟨rfl, sameFields, _, rfl, rfl⟩ := same
  simp only [serializeToBuffer, if_true]
  rw [(layout kind).serialize_congr (eq_of_heq sameFields)]

/-- `Arrays.hashCode` of bytes, as a number below 2³². -/
def arraysHashCode (bytes : List UInt8) : Nat :=
  bytes.foldl (fun result element =>
    -- a byte is signed
    (31 * result + (element.toNat + (if 128 ≤ element.toNat then 4294967040 else 0))) % 4294967296) 1

section
variable (E : Encoding)

def equals (a b : FullBean layout) : Bool :=
  a.javaClass == b.javaClass && a.bytesForComparison E == b.bytesForComparison E

def hashCode (b : FullBean layout) : Nat := arraysHashCode (b.bytesForComparison E)

/-- Whatever the bytes are, beans are compared by their class and these. -/
theorem equals_equivalence : Equivalence fun a b : FullBean layout => a.equals E b = true where
  refl _ := by simp [equals]
  symm h := by
    simp only [equals, Bool.and_eq_true, beq_iff_eq] at h ⊢
    exact ⟨h.1.symm, h.2.symm⟩
  trans h g := by
    simp only [equals, Bool.and_eq_true, beq_iff_eq] at h g ⊢
    exact ⟨h.1.trans g.1, h.2.trans g.2⟩

end

variable {E : Encoding}

theorem hashCode_of_equals (h : a.equals E b = true) : a.hashCode E = b.hashCode E := by
  simp only [equals, Bool.and_eq_true, beq_iff_eq] at h
  rw [hashCode, hashCode, h.2]

theorem nameless_of_bytes (fits : a.Fits) (fits' : b.Fits) (kind : a.kind = b.kind)
    (sameClass : a.javaClass = b.javaClass)
    (same : a.bytesForComparison E = b.bytesForComparison E) : a.nameless = b.nameless := by
  have read := a.readNameless_reads (I := E.Input)
  rw [kind, sameClass] at read
  exact Encoding.eq_of_write read b.readNameless_reads fits.withoutName fits'.withoutName same

/-- Beans are equal exactly if they are of one class and agree on what is written but the
name. -/
theorem equals_iff_same (apart : ClassesApart layout) (fits : a.Fits) (fits' : b.Fits) :
    a.equals E b = true ↔ SameConfiguration a b := by
  simp only [equals, Bool.and_eq_true, beq_iff_eq]
  constructor
  · rintro ⟨sameClass, same⟩
    exact ⟨sameClass, nameless_of_bytes fits fits' (apart a b sameClass) sameClass same⟩
  · rintro ⟨sameClass, same⟩
    refine ⟨sameClass, ?_⟩
    rw [bytesForComparison, bytesForComparison, serialize_of_nameless same]

/-- The bytes of a bean that has its defaults are read back to a bean that agrees with it
on all that was written. -/
theorem bytes_read_back (fits : b.Fits) (h : b.Initialized) : ∃ r : RawBean layout,
      E.read (deserializeFromBuffer b.kind b.javaClass) (b.bytes E) = some (r, []) ∧
        (initializeDefaultValues r).written = b.written ∧
        (initializeDefaultValues r).javaClass = b.javaClass ∧
        (initializeDefaultValues r).bytes E = b.bytes E := by
  refine ⟨b.written, Encoding.read_write b.deserializeFromBuffer_reads fits, written_again h, ?_, ?_⟩
  · exact (layout b.kind).javaClass_again b.fields h
  · rw [bytes, serializeToBuffer_congr (written_again h)]
    rfl

end FullBean

end QuinMo
