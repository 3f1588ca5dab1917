import DynamoExpr.Value.Basic
import Std.Data.HashMap

/-!
# Equality of attribute values

Two values are equal when their canonical forms are the same: set members ascending, map fields
ascending by name, at every depth.  The hash feeds on the canonical form as well, so equal values
hash alike.
-/

namespace DynamoExpr.AttributeValue

/-- Puts a member before the first one that it does not exceed. -/
def insertMember {α : Type} (le : α → α → Bool) (x : α) : List α → List α
  | [] => [x]
  | y :: rest => if le x y then x :: y :: rest else y :: insertMember le x rest

/-- The members in ascending order, repetitions kept. -/
def sortMembers {α : Type} (le : α → α → Bool) : List α → List α
  | [] => []
  | x :: rest => insertMember le x (sortMembers le rest)

/-- The order of texts, by code points. -/
def textLe (a b : String) : Bool := !decide (b < a)

def bytesLe (a b : List UInt8) : Bool := !decide (b < a)

mutual

/-- The one form that all values equal to this one share. -/
def canonical : AttributeValue → AttributeValue
  | .stringSet members => .stringSet (sortMembers textLe members)
  | .numberSet members => .numberSet (sortMembers textLe members)
  | .binarySet members => .binarySet (sortMembers bytesLe members)
  | .list items => .list (canonicalItems items)
  | .map fields => .map (Fields.ascending (canonicalFields fields))
  | other => other

def canonicalItems : List AttributeValue → List AttributeValue
  | [] => []
  | item :: rest => canonical item :: canonicalItems rest

def canonicalFields : List (String × AttributeValue) → List (String × AttributeValue)
  | [] => []
  | (name, value) :: rest => (name, canonical value) :: canonicalFields rest

end

mutual

/-- The two values are the very same, part by part. -/
def same : AttributeValue → AttributeValue → Bool
  | .string a, .string b => a == b
  | .number a, .number b => a == b
  | .binary a, .binary b => a == b
  | .stringSet a, .stringSet b => a == b
  | .numberSet a, .numberSet b => a == b
  | .binarySet a, .binarySet b => a == b
  | .boolean a, .boolean b => a == b
  | .null a, .null b => a == b
  | .list a, .list b => sameItems a b
  | .map a, .map b => sameFields a b
  | _, _ => false

def sameItems : List AttributeValue → List AttributeValue → Bool
  | [], [] => true
  | a :: as, b :: bs => same a b && sameItems as bs
  | _, _ => false

def sameFields : List (String × AttributeValue) → List (String × AttributeValue) → Bool
  | [], [] => true
  | (name, a) :: as, (other, b) :: bs => name == other && same a b && sameFields as bs
  | _, _ => false

end

instance : BEq AttributeValue := ⟨fun a b => a.canonical.same b.canonical⟩

inductive HashWrite where
  | kind (type : AttributeType)
  | count (n : Nat)
  | text (value : String)
  | bytes (value : List UInt8)
  | flag (value : Bool)
deriving DecidableEq

/-- The number by which a type stands in a hash. -/
def typeCode (type : AttributeType) : Nat := AttributeType.all.idxOf type

/-- The hash of one write, apart from those of other kinds of write. -/
def HashWrite.code : HashWrite → UInt64
  | .kind type => mixHash 11 (hash (typeCode type))
  | .count n => mixHash 13 (hash n)
  | .text value => mixHash 17 (hash value)
  | .bytes value => mixHash 19 (hash (value.map UInt8.toNat))
  | .flag value => mixHash 23 (hash value)

mutual

def writes : AttributeValue → List HashWrite
  | .string text => [.kind .string, .text text]
  | .number text => [.kind .number, .text text]
  | .binary bytes => [.kind .binary, .bytes bytes]
  | .stringSet members => .kind .stringSet :: .count members.length :: members.map .text
  | .numberSet members => .kind .numberSet :: .count members.length :: members.map .text
  | .binarySet members => .kind .binarySet :: .count members.length :: members.map .bytes
  | .boolean value => [.kind .boolean, .flag value]
  | .null value => [.kind .null, .flag value]
  | .list items => .kind .list :: .count items.length :: itemWrites items
  | .map fields => .kind .map :: fieldWrites fields

def itemWrites : List AttributeValue → List HashWrite
  | [] => []
  | item :: rest => writes item ++ itemWrites rest

def fieldWrites : List (String × AttributeValue) → List HashWrite
  | [] => []
  | (name, value) :: rest => .text name :: writes value ++ fieldWrites rest

end

def hashFeed (value : AttributeValue) : List HashWrite := value.canonical.writes

instance : Hashable AttributeValue :=
  ⟨fun value => value.hashFeed.foldl (fun code write => mixHash code write.code) 7⟩

/--
Numbers the values by the order in which each is seen first, on top of those already numbered,
and counts the numbers given.
-/
def numberFrom (seen : Std.HashMap AttributeValue Nat) : List AttributeValue → List Nat × Nat
  | [] => ([], seen.size)
  | value :: rest =>
    match seen[value]? with
    | some index =>
      let (indexes, distinct) := numberFrom seen rest
      (index :: indexes, distinct)
    | none =>
      let (indexes, distinct) := numberFrom (seen.insert value seen.size) rest
      (seen.size :: indexes, distinct)

/-- Numbers the values by first occurrence; equal values share a number. -/
def numbering (values : List AttributeValue) : List Nat × Nat := numberFrom ∅ values

end DynamoExpr.AttributeValue
