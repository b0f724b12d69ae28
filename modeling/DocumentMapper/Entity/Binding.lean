import DocumentMapper.Conversion.Basic
import DocumentMapper.Entity.Schema

/-
  How the fields that a store owns are kept in an entity: its
  identifier, its version token and the key of a transaction
  result.

  A field is bound to a member, or to accessors that the
  application brings along. Members that cannot hold a value
  say so, except for transaction keys, which are cut to the
  width of their member.

  Key definitions include:
    * `IdBinding`
    * `TokenType`, `VersionBinding`
    * `KeyType`, `KeyBinding`
    * `AttributeBinding`
-/

namespace DocumentMapper

variable {S : Schema}

------------------------------------------------------------
-- Identifiers
------------------------------------------------------------

/-
  Where the identifier is. An empty member has none; accessors
  decide for themselves, and always come to an answer. Unlike
  the getter of a version token, they have no exceptions.
-/
inductive IdBinding (S : Schema) where
  | member (m : Member S .string)
  | custom
      (get : Entity S → Option Text)
      (set? : Option (Entity S → Text → Entity S))

namespace IdBinding

/- The identifier of an entity. -/
def get
    (b : IdBinding S)
    (e : Entity S) : Option Text :=
  match b with
  | .member m => if e.get m = [] then none else some (e.get m)
  | .custom get _ => get e

/- Give an entity an identifier; without a setter it stays as it is. -/
def set
    (b : IdBinding S)
    (e : Entity S)
    (id : Text) : Entity S :=
  match b with
  | .member m => e.put m id
  | .custom _ (some set) => set e id
  | .custom _ none => e

end IdBinding

------------------------------------------------------------
-- Version Tokens
------------------------------------------------------------

/-
  The types of members that can hold a version token: numbers
  of 64 bits, with a sign or without, and optional ones. For
  these four it is told whether a token fits; an optional of
  an optional number is not among them.
-/
inductive TokenType where
  | uint64
  | int64
  | optionalUInt64
  | optionalInt64
  deriving DecidableEq, Repr

namespace TokenType

/- The field type of a token type. -/
@[reducible]
def fieldType : TokenType → FieldType
  | .uint64 => .uint64
  | .int64 => .int64
  | .optionalUInt64 => .option .uint64
  | .optionalInt64 => .option .int64

/- A signed number as a token; there is none for negative ones. -/
def tokenOfInt64
    (n : Int64) : Option UInt64 :=
  if n < 0 then none else some n.toUInt64

/- The token that a member holds. -/
def token : (t : TokenType) → t.fieldType.Value → Option UInt64
  | .uint64, n => some n
  | .int64, n => tokenOfInt64 n
  | .optionalUInt64, n => n
  | .optionalInt64, n => n.bind tokenOfInt64

/- A token as a signed number, if it fits. -/
def int64OfToken?
    (token : UInt64) : Option Int64 :=
  if Int64.maxValue.toUInt64 < token then
    none
  else
    some token.toInt64

/- The member value for a token, if it fits. -/
def ofToken? :
    (t : TokenType) → UInt64 → Option t.fieldType.Value
  | .uint64, token => some token
  | .int64, token => int64OfToken? token
  | .optionalUInt64, token => some (some token)
  | .optionalInt64, token => (int64OfToken? token).map some

/- A member reads back the token it was given. -/
theorem token_of_ofToken?
    {t : TokenType}
    {token : UInt64}
    {v : t.fieldType.Value}
    (h : t.ofToken? token = some v) :
    t.token v = some token := by
  have hSigned :
      ∀ {n : Int64}, int64OfToken? token = some n →
        tokenOfInt64 n = some token := by
    intro n hn
    unfold int64OfToken? at hn
    split at hn
    · cases hn
    · rename_i hFits
      cases hn
      have hNat : token.toNat < 2 ^ 63 := by
        rw [UInt64.lt_iff_toNat_lt] at hFits
        have hMax :
            Int64.maxValue.toUInt64.toNat = 2 ^ 63 - 1 := by
          decide
        omega
      have hInt : token.toInt64.toInt = token.toNat := by
        show token.toBitVec.toInt = _
        rw [BitVec.toInt_eq_toNat_cond]
        simp only [UInt64.toNat_toBitVec]
        rw [if_pos (by omega)]
      unfold tokenOfInt64
      rw [if_neg]
      · simp
      · rw [Int64.lt_iff_toInt_lt, hInt]
        have hZero : (0 : Int64).toInt = 0 := by decide
        omega
  cases t with
  | uint64 =>
      simp only [ofToken?, Option.some.injEq] at h
      exact congrArg some h.symm
  | int64 => exact hSigned h
  | optionalUInt64 =>
      simp only [ofToken?, Option.some.injEq] at h
      exact h.symm
  | optionalInt64 =>
      obtain ⟨n, hn, rfl⟩ := Option.map_eq_some_iff.mp h
      exact hSigned hn

end TokenType

/-
  Where the version token is. The getter of an application may
  throw; its setter always has an entity to give.
-/
inductive VersionBinding (S : Schema) where
  | member (t : TokenType) (m : Member S t.fieldType)
  | custom
      (get : Entity S → Except Text (Option UInt64))
      (set? : Option (Entity S → UInt64 → Entity S))

namespace VersionBinding

/- The token of an entity, or the exception of its getter. -/
def get
    (b : VersionBinding S)
    (e : Entity S) : Except Text (Option UInt64) :=
  match b with
  | .member t m => .ok (t.token (e.get m))
  | .custom get _ => get e

/- A token does not fit the member it is meant for. -/
def doesNotFit
    (field : Text)
    (token : UInt64) : Error :=
  .mapping
    (Text.lit "Version token " ++ Text.ofNat token.toNat ++
      Text.lit " does not fit the signed version field " ++
      Text.quoted field)

/- Give an entity a token; without a setter it stays as it is. -/
def set
    (b : VersionBinding S)
    (field : Text)
    (e : Entity S)
    (token : UInt64) : Result (Entity S) :=
  match b with
  | .member t m =>
      match t.ofToken? token with
      | some v => .ok (e.put m v)
      | none => .error (doesNotFit field token)
  | .custom _ (some set) => .ok (set e token)
  | .custom _ none => .ok e

end VersionBinding

------------------------------------------------------------
-- Transaction Keys
------------------------------------------------------------

/-
  The types of members that can hold a transaction key: the
  integral types, by their width and sign, and an optional
  number. A member of a narrow type is kept in a field of the
  next wider one, and has the values of its own type only.
-/
inductive KeyType where
  | bool
  | int8
  | uint8
  | int16
  | uint16
  | int32
  | uint32
  | int64
  | uint64
  | optionalInt64
  deriving DecidableEq, Repr

namespace KeyType

/- The field type of a key type. -/
@[reducible]
def fieldType : KeyType → FieldType
  | .bool => .bool
  | .int8 => .int32
  | .uint8 => .int32
  | .int16 => .int32
  | .uint16 => .int32
  | .int32 => .int32
  | .uint32 => .int64
  | .int64 => .int64
  | .uint64 => .uint64
  | .optionalInt64 => .option .int64

/- The key that a member holds. -/
def key : (t : KeyType) → t.fieldType.Value → Option Int64
  | .bool, b => some (if b then 1 else 0)
  | .int8, n => some n.toInt64
  | .uint8, n => some n.toInt64
  | .int16, n => some n.toInt64
  | .uint16, n => some n.toInt64
  | .int32, n => some n.toInt64
  | .uint32, n => some n
  | .int64, n => some n
  | .uint64, n => some n.toInt64
  | .optionalInt64, n => n

/- The member value for a key, cut to the width of the member. -/
def ofKey : (t : KeyType) → Int64 → t.fieldType.Value
  | .bool, key => key != 0
  | .int8, key => key.toInt8.toInt32
  | .uint8, key => key.toUInt64.toUInt8.toUInt32.toInt32
  | .int16, key => key.toInt16.toInt32
  | .uint16, key => key.toUInt64.toUInt16.toUInt32.toInt32
  | .int32, key => key.toInt32
  | .uint32, key => key.toUInt64.toUInt32.toUInt64.toInt64
  | .int64, key => key
  | .uint64, key => key.toUInt64
  | .optionalInt64, key => some key

end KeyType

/- The member that holds the transaction key. -/
structure KeyBinding (S : Schema) where
  type : KeyType
  member : Member S type.fieldType

namespace KeyBinding

/- The key of an entity. -/
def get
    (b : KeyBinding S)
    (e : Entity S) : Option Int64 :=
  b.type.key (e.get b.member)

/- Give an entity a key. -/
def set
    (b : KeyBinding S)
    (e : Entity S)
    (key : Int64) : Entity S :=
  e.put b.member (b.type.ofKey key)

end KeyBinding

------------------------------------------------------------
-- Attributes
------------------------------------------------------------

/- A member that is stored under an attribute name. -/
structure AttributeBinding (S : Schema) where
  name : Text
  index : S.Index
  isRequired : Bool := false

namespace AttributeBinding

/- Write the member of an entity. -/
def write
    (b : AttributeBinding S)
    (conversions : Conversions)
    (e : Entity S) : Result Json :=
  conversions.write (S.typeAt b.index) (e.value b.index)

/- Read the member from a stored value. -/
def read
    (b : AttributeBinding S)
    (conversions : Conversions)
    (e : Entity S)
    (value : Json) : Result (Entity S) :=
  (conversions.read (S.typeAt b.index) value).map
    (e.set b.index)

end AttributeBinding

end DocumentMapper
