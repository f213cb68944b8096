import Proposal.Json.Form

namespace Proposal

namespace Staking

inductive Execute
  | stake
  deriving DecidableEq, Repr

inductive Hook
  | stake
  deriving DecidableEq, Repr

instance : JsonForm Execute where
  toJson
    | .stake => .obj [("stake", .obj [])]
  ofJson? reading json := do
    match ← json.choice? with
    | ("stake", some body) => do
      let _ ← body.alternative? reading []
      return .stake
    | _ => none

instance : JsonForm Hook where
  toJson
    | .stake => .obj [("stake", .obj [])]
  ofJson? reading json := do
    match ← json.choice? with
    | ("stake", some body) => do
      let _ ← body.alternative? reading []
      return .stake
    | _ => none

end Staking

namespace DaoCore

inductive Execute
  | setItem (key value : String)
  | removeItem (key : String)
  deriving DecidableEq, Repr

instance : JsonForm Execute where
  toJson
    | .setItem key value =>
      .obj [("set_item", .obj [("key", toJson key), ("value", toJson value)])]
    | .removeItem key => .obj [("remove_item", .obj [("key", toJson key)])]
  ofJson? reading json := do
    match ← json.choice? with
    | ("set_item", some body) => do
      let fields ← body.alternative? reading ["key", "value"]
      return .setItem (← field? reading fields "key") (← field? reading fields "value")
    | ("remove_item", some body) => do
      let fields ← body.alternative? reading ["key"]
      return .removeItem (← field? reading fields "key")
    | _ => none

inductive Query
  | getItem (key : String)
  deriving DecidableEq, Repr

instance : JsonForm Query where
  toJson
    | .getItem key => .obj [("get_item", .obj [("key", toJson key)])]
  ofJson? reading json := do
    match ← json.choice? with
    | ("get_item", some body) => do
      let fields ← body.alternative? reading ["key"]
      return .getItem (← field? reading fields "key")
    | _ => none

/-- The item that a store has under a key. -/
structure Item where
  item : Option String
  deriving DecidableEq, Repr

instance : JsonForm Item where
  toJson answer := .obj [("item", toJson answer.item)]
  ofJson? reading json := do
    let fields ← json.record? reading ["item"]
    return { item := ← optionalField? reading fields "item" }

/-- The key under which a DAO stores the address of its vesting factory. -/
def vestingFactoryKey : String := "vesting"

end DaoCore

end Proposal
