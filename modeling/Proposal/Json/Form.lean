import Proposal.Decimal
import Proposal.Json.Reader

/-! The JSON form of typed data. How much of it a reader insists on depends on where the document
comes from. -/
namespace Proposal

/-- Where a document comes from. Contracts take objects and names only; values and texts may give
records as arrays. -/
inductive Reading
  | value
  | text
  | contract
  deriving DecidableEq, Repr

/-- Data with a JSON form. A reader of the data looks at the parts of a text in the extent. -/
class JsonForm (α : Type) where
  toJson : α → Json
  ofJson? : Reading → Json → Option α
  extent : Extent := .all

export JsonForm (toJson ofJson?)

namespace Reading

def recordsFromArrays : Reading → Bool
  | .contract => false
  | _ => true

def alternativesFromArrays : Reading → Bool
  | .text => true
  | _ => false

def namesWithBodies : Reading → Bool
  | .contract => false
  | _ => true

end Reading

namespace Json

/-- The members of an object with no other keys than these and none twice, or the items of an array,
one for each key. -/
def fields? (fromArrays : Bool) (names : List String) : Json → Option (List (String × Json))
  | .obj members =>
    let keys := members.map Prod.fst
    if keys.all (names.contains ·) ∧ keys.Nodup then some members else none
  | .arr items =>
    if fromArrays ∧ items.length = names.length then some (names.zip items) else none
  | _ => none

/-- The fields of a record. -/
def record? (reading : Reading) (names : List String) (json : Json) :
    Option (List (String × Json)) :=
  json.fields? reading.recordsFromArrays names

/-- The fields of a record that may have other members beside them. -/
def openRecord? (reading : Reading) (names : List String) : Json → Option (List (String × Json))
  | .obj members => (Json.obj (members.filter fun member => names.contains member.1)).record?
      reading names
  | json => json.record? reading names

/-- The fields of an alternative. -/
def alternative? (reading : Reading) (names : List String) (json : Json) :
    Option (List (String × Json)) :=
  json.fields? reading.alternativesFromArrays names

/-- The alternative of a choice that a document names, and its body. -/
def choice? : Json → Option (String × Option Json)
  | .str name => some (name, none)
  | .obj [(name, body)] => some (name, some body)
  | _ => none

/-- The name of an alternative without a body. -/
def name? (reading : Reading) : Json → Option String
  | .str name => some name
  | .obj [(name, .null)] => if reading.namesWithBodies then some name else none
  | _ => none

end Json

/-- Reads a field that has to be there. -/
def field? {α : Type} [JsonForm α] (reading : Reading) (fields : List (String × Json))
    (name : String) : Option α :=
  (fields.lookup name).bind (ofJson? reading)

/-- Reads a field that may be left out, which says the same as null. -/
def optionalField? {α : Type} [JsonForm (Option α)] (reading : Reading)
    (fields : List (String × Json)) (name : String) : Option (Option α) :=
  match fields.lookup name with
  | none => some none
  | some json => ofJson? reading json

instance : JsonForm Bool where
  toJson value := .bool value
  ofJson?
    | _, .bool value => some value
    | _, _ => none

instance : JsonForm String where
  toJson text := .str text
  ofJson?
    | _, .str text => some text
    | _, _ => none

instance : JsonForm Value where
  toJson value := value.json
  ofJson? _ json := some (.ofJson json)

instance {α : Type} [JsonForm α] : JsonForm (Option α) where
  toJson
    | none => .null
    | some value => toJson value
  ofJson?
    | _, .null => some none
    | reading, json => (ofJson? reading json).map some
  extent := JsonForm.extent α

instance {α : Type} [JsonForm α] : JsonForm (List α) where
  toJson items := .arr (items.map toJson)
  ofJson?
    | reading, .arr items => items.mapM (ofJson? reading)
    | _, _ => none
  extent := (JsonForm.extent α).items

/-- A pair is an array of two. -/
instance {α β : Type} [JsonForm α] [JsonForm β] : JsonForm (α × β) where
  toJson pair := .arr [toJson pair.1, toJson pair.2]
  ofJson?
    | reading, .arr [left, right] => do
      return (← ofJson? reading left, ← ofJson? reading right)
    | _, _ => none
  extent := .parts (fun _ => .all) fun
    | 0 => JsonForm.extent α
    | _ => JsonForm.extent β

/-- A count is a JSON integer. -/
instance : JsonForm Count where
  toJson count := .num (.natural count)
  ofJson?
    | _, .num (.natural count) => some count
    | _, _ => none

/-- A number of decimal places is a JSON integer. -/
instance : JsonForm Places where
  toJson places := .num (.natural (places.widen (by decide)))
  ofJson?
    | _, .num (.natural count) => Unsigned.ofNat? 8 count.val
    | _, _ => none

/-- An amount in base units is a string, as it may be too large for a number. -/
instance : JsonForm BaseAmount where
  toJson amount := .str amount.text
  ofJson?
    | _, .str text => Unsigned.read? 128 text.toList
    | _, _ => none

instance {bits : Nat} : JsonForm (Decimal bits) where
  toJson number := .str number.text
  ofJson?
    | _, .str text => Decimal.read? bits text.toList
    | _, _ => none

/-- A payload is a string in base64. -/
instance : JsonForm Payload where
  toJson payload := .str payload.base64
  ofJson?
    | _, .str text => Payload.ofBase64? text
    | _, _ => none

/-- Reads data from a text that people wrote. -/
def ofText? {α : Type} [JsonForm α] (text : String) : Option α := do
  ofJson? .text (← Json.read? .document (JsonForm.extent α) text)

/-- Reads data from a payload as contracts do. -/
def ofPayload? {α : Type} [JsonForm α] (payload : Payload) : Option α := do
  ofJson? .contract (← Json.ofPayload? .contract (JsonForm.extent α) payload)

/-- Reads data from a free-form value. -/
def Value.as? {α : Type} [JsonForm α] (value : Value) : Option α := ofJson? .value value.json

/-- The free-form value that data has as its JSON form. -/
def valueOf {α : Type} [JsonForm α] (data : α) : Value := .ofJson (toJson data)

/-- The payload that contracts read data from. -/
def payloadOf {α : Type} [JsonForm α] (data : α) : Payload := (toJson data).payload

end Proposal
