import Proposal.Json.Form

namespace Proposal

inductive ActionKind
  | spend
  | stake
  | beginVesting
  | cancelVesting
  | registerSlash
  | setItem
  | removeItem
  | execute
  deriving DecidableEq, Repr

namespace ActionKind

def all : List ActionKind :=
  [.spend, .stake, .beginVesting, .cancelVesting, .registerSlash, .setItem, .removeItem, .execute]

theorem mem_all (kind : ActionKind) : kind ∈ all := by cases kind <;> decide

/-- The name in JSON. -/
def name : ActionKind → String
  | .spend => "spend"
  | .stake => "stake"
  | .beginVesting => "begin_vesting"
  | .cancelVesting => "cancel_vesting"
  | .registerSlash => "register_slash"
  | .setItem => "set_item"
  | .removeItem => "remove_item"
  | .execute => "execute"

/-- The name in messages to people. -/
def label : ActionKind → String
  | .spend => "Spend"
  | .stake => "Stake"
  | .beginVesting => "BeginVesting"
  | .cancelVesting => "CancelVesting"
  | .registerSlash => "RegisterSlash"
  | .setItem => "SetItem"
  | .removeItem => "RemoveItem"
  | .execute => "Execute"

/-- The place in the order of trial, lower first. Any other kind that calls a contract goes before
`execute`. -/
def priority : ActionKind → Nat
  | .beginVesting => 0
  | .stake => 1
  | .registerSlash => 2
  | .cancelVesting => 3
  | .setItem => 4
  | .removeItem => 5
  | .spend => 6
  | .execute => 255

theorem priority_injective {left right : ActionKind} (same : left.priority = right.priority) :
    left = right := by
  cases left <;> cases right <;> first | rfl | exact absurd same (by decide)

def ofName? (name : String) : Option ActionKind := all.find? fun kind => kind.name = name

end ActionKind

instance : JsonForm ActionKind where
  toJson kind := .str kind.name
  ofJson? reading json := (json.name? reading).bind ActionKind.ofName?

end Proposal
