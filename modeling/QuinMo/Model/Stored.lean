import QuinMo.Lib.Text
import QuinMo.Lib.Wire

/-!
# Beans as the database stores them

A deserialization fills in defaults. `AbstractBean` writes and reads the name and the custom JSON
of every bean; the rest is up to the bean's class.
-/

namespace QuinMo

open Text

/-- A bean after `initializeDefaultValues`; `content` has the fields of its class. -/
structure AbstractBean (C : Type) where
  name : String
  customOutboundJson : String
  customConfigJson : String
  content : C
  deriving DecidableEq, Repr

/-- What the bean classes define themselves. -/
structure BeanClass (C : Type) where
  javaClass : C → String
  /-- The display name of a bean with a blank name: an address, or a hash of the bean. -/
  unnamed : AbstractBean C → String
  /-- `Deduplication.hash`. -/
  hash : C → String
  serialize : C → List Token
  /-- Read the fields of a class and fill in the defaults; the other tokens are left. -/
  deserialize : String → List Token → Option (C × List Token)
  /-- What a class reads of its own output. -/
  restored : C → C
  deserialize_serialize : ∀ c rest,
    deserialize (javaClass c) (serialize c ++ rest) = some (restored c, rest)

/-- Writing the fields again after they were read back gives the same. -/
def BeanClass.Fixed {C : Type} (F : BeanClass C) (c : C) : Prop :=
  F.javaClass (F.restored c) = F.javaClass c ∧ F.serialize (F.restored c) = F.serialize c

namespace AbstractBean

variable {C : Type} (F : BeanClass C)

def displayName (b : AbstractBean C) : String :=
  if !isBlank b.name then b.name else F.unnamed b

def serializeToBuffer (b : AbstractBean C) : List Token :=
  F.serialize b.content ++
    [.int 1, .string b.name, .string b.customOutboundJson, .string b.customConfigJson]

/-- The serialization without the name. -/
def serializeForComparison (b : AbstractBean C) : List Token :=
  F.serialize b.content ++ [.int 1, .string b.customOutboundJson, .string b.customConfigJson]

def deserializeFromBuffer (javaClass : String) (input : List Token) : Option (AbstractBean C) := do
  let (content, rest) ← F.deserialize javaClass input
  match rest with
  | .int _ :: .string name :: .string customOutboundJson :: .string customConfigJson :: _ =>
    -- the defaults of `AbstractBean` for what is null
    some ⟨name.getD "", customOutboundJson.getD "", customConfigJson.getD "", content⟩
  | _ => none

def equals (a b : AbstractBean C) : Bool :=
  F.javaClass a.content == F.javaClass b.content &&
    serializeForComparison F a == serializeForComparison F b

/-- The bean that a row holds after `b` was written to it. -/
def stored (b : AbstractBean C) : AbstractBean C :=
  (deserializeFromBuffer F (F.javaClass b.content) (serializeToBuffer F b)).getD b

/-- The bean with the custom JSON of another one. -/
def withCustoms (b old : AbstractBean C) : AbstractBean C :=
  { b with customOutboundJson := old.customOutboundJson, customConfigJson := old.customConfigJson }

theorem stored_eq (b : AbstractBean C) : stored F b =
    { b with content := F.restored b.content } := by
  simp [stored, deserializeFromBuffer, serializeToBuffer, F.deserialize_serialize]

theorem displayName_named (b : AbstractBean C) (h : isBlank b.name = false) :
    displayName F b = b.name := by
  simp [displayName, h]

theorem equals_iff {a b : AbstractBean C} : equals F a b = true ↔
    F.javaClass a.content = F.javaClass b.content ∧
      serializeForComparison F a = serializeForComparison F b := by
  simp [equals]

/-- With the same custom JSON only the fields of the class are compared. -/
theorem equals_withCustoms {a b : AbstractBean C} : equals F a (b.withCustoms a) = true ↔
    F.javaClass a.content = F.javaClass b.content ∧
      F.serialize a.content = F.serialize b.content := by
  rw [equals_iff, serializeForComparison, serializeForComparison]
  simp only [withCustoms, List.append_cancel_right_eq]

end AbstractBean

end QuinMo
