import Proposal.Binary64
import Proposal.SortedMap
import Proposal.Unsigned

/-! JSON documents as they are written, and free-form values, which are documents in normal form. -/
namespace Proposal

/-- A number of a document. An integer keeps its sign, so that a written `-0` is told from `0`. -/
inductive Number
  | natural (value : Unsigned 64)
  | negative (magnitude : Nat) (bound : magnitude ≤ Nat.pow 2 63)
  | float (value : Binary64)
  deriving DecidableEq

namespace Number

/-- The number without the sign of an integer zero. -/
def normal : Number → Number
  | .natural value => .natural value
  | .negative magnitude bound =>
    if magnitude = 0 then .natural .zero else .negative magnitude bound
  | .float value => .float value

def IsNormal : Number → Prop
  | .negative magnitude _ => magnitude ≠ 0
  | _ => True

theorem isNormal_normal (number : Number) : number.normal.IsNormal := by
  cases number with
  | natural value => trivial
  | float value => trivial
  | negative magnitude bound =>
    by_cases zero : magnitude = 0
    · simp [normal, zero, IsNormal]
    · simp [normal, zero, IsNormal]

theorem IsNormal.normal_eq {number : Number} (normal : number.IsNormal) :
    number.normal = number := by
  cases number with
  | natural value => rfl
  | float value => rfl
  | negative magnitude bound => exact if_neg normal

end Number

/-- A JSON document. Members stand in the order in which they were written, repeated keys
included. -/
inductive Json
  | null
  | bool (value : Bool)
  | num (number : Number)
  | str (text : String)
  | arr (items : List Json)
  | obj (members : List (String × Json))

namespace Json

instance : Inhabited Json := ⟨.null⟩

mutual

/-- The normal form: members in key order, and of members with one key the last one. -/
def normal : Json → Json
  | .num number => .num number.normal
  | .arr items => .arr (normalItems items)
  | .obj members => .obj (SortedList.ofList (normalMembers members))
  | .null => .null
  | .bool value => .bool value
  | .str text => .str text

def normalItems : List Json → List Json
  | [] => []
  | item :: rest => item.normal :: normalItems rest

def normalMembers : List (String × Json) → List (String × Json)
  | [] => []
  | (key, body) :: rest => (key, body.normal) :: normalMembers rest

end

mutual

def IsNormal : Json → Prop
  | .num number => number.IsNormal
  | .arr items => ItemsNormal items
  | .obj members => SortedList.Ascending members ∧ MembersNormal members
  | _ => True

def ItemsNormal : List Json → Prop
  | [] => True
  | item :: rest => item.IsNormal ∧ ItemsNormal rest

def MembersNormal : List (String × Json) → Prop
  | [] => True
  | (_, body) :: rest => body.IsNormal ∧ MembersNormal rest

end

private theorem itemsNormal_iff {items : List Json} :
    ItemsNormal items ↔ ∀ item ∈ items, item.IsNormal := by
  induction items with
  | nil => simp [ItemsNormal]
  | cons item rest ih => simp [ItemsNormal, ih]

private theorem membersNormal_iff {members : List (String × Json)} :
    MembersNormal members ↔ ∀ member ∈ members, member.2.IsNormal := by
  induction members with
  | nil => simp [MembersNormal]
  | cons member rest ih => simp [MembersNormal, ih]

mutual

theorem isNormal_normal : (json : Json) → json.normal.IsNormal
  | .null => trivial
  | .bool _ => trivial
  | .num number => number.isNormal_normal
  | .str _ => trivial
  | .arr items => itemsNormal_iff.mpr (itemsNormal_normalItems items)
  | .obj members =>
    ⟨SortedList.ascending_ofList _, membersNormal_iff.mpr fun member present =>
      membersNormal_normalMembers members member (SortedList.mem_ofList present)⟩

private theorem itemsNormal_normalItems :
    (items : List Json) → ∀ item ∈ normalItems items, item.IsNormal
  | [], _, present => nomatch present
  | head :: rest, item, present => by
    rcases List.mem_cons.mp present with same | later
    · exact same ▸ isNormal_normal head
    · exact itemsNormal_normalItems rest item later

private theorem membersNormal_normalMembers :
    (members : List (String × Json)) → ∀ member ∈ normalMembers members, member.2.IsNormal
  | [], _, present => nomatch present
  | (key, body) :: rest, member, present => by
    rcases List.mem_cons.mp present with same | later
    · exact same ▸ isNormal_normal body
    · exact membersNormal_normalMembers rest member later

end

def isObject : Json → Bool
  | .obj _ => true
  | _ => false

mutual

/-- Whether a number with a fraction or an exponent occurs anywhere in the document. -/
def hasFloat : Json → Bool
  | .num (.float _) => true
  | .arr items => itemsHaveFloat items
  | .obj members => membersHaveFloat members
  | _ => false

def itemsHaveFloat : List Json → Bool
  | [] => false
  | item :: rest => item.hasFloat || itemsHaveFloat rest

def membersHaveFloat : List (String × Json) → Bool
  | [] => false
  | (_, body) :: rest => body.hasFloat || membersHaveFloat rest

end

end Json

/-- A free-form JSON value. -/
structure Value where
  json : Json
  normal : json.IsNormal

namespace Value

/-- The value of a document. -/
def ofJson (json : Json) : Value := ⟨json.normal, json.isNormal_normal⟩

instance : Inhabited Value := ⟨ofJson .null⟩

/-- The object without members. -/
def emptyObject : Value := ofJson (.obj [])

def isObject (value : Value) : Bool := value.json.isObject

def isEmptyObject (value : Value) : Bool :=
  match value.json with
  | .obj members => members.isEmpty
  | _ => false

end Value

end Proposal
