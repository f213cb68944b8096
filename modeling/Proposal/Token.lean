import Proposal.Json.Form

namespace Proposal

inductive TokenType
  | native
  | cw20
  deriving DecidableEq, Repr

namespace TokenType

/-- The name in a key and in JSON. -/
def name : TokenType → String
  | .native => "native"
  | .cw20 => "cw20"

/-- The name that people see. -/
def label : TokenType → String
  | .native => "Native"
  | .cw20 => "Cw20"

def ofName? : String → Option TokenType
  | "native" => some .native
  | "cw20" => some .cw20
  | _ => none

/-- Native tokens come before contract tokens. -/
def rank : TokenType → Nat
  | .native => 0
  | .cw20 => 1

end TokenType

instance : JsonForm TokenType where
  toJson type := .str type.name
  ofJson? reading json := (json.name? reading).bind TokenType.ofName?

/-- Names a fungible asset: a native denom, or the address of a token contract. -/
structure TokenKey where
  type : TokenType
  name : String
  deriving DecidableEq, Repr

namespace TokenKey

def native (denom : String) : TokenKey := ⟨.native, denom⟩

def cw20 (address : String) : TokenKey := ⟨.cw20, address⟩

def label (key : TokenKey) : String := key.type.name ++ ":" ++ key.name

instance : Ord TokenKey :=
  ⟨compareLex (compareOn fun key => key.type.rank) (compareOn TokenKey.name)⟩

instance : Std.TransOrd TokenKey :=
  inferInstanceAs
    (Std.TransCmp (compareLex (compareOn fun key => key.type.rank) (compareOn TokenKey.name)))

instance : Std.LawfulEqOrd TokenKey where
  compare_self := Std.ReflCmp.compare_self
  eq_of_compare {left right} same := by
    have both :
        (compare left.type.rank right.type.rank).then (compare left.name right.name) = .eq := same
    rw [Ordering.then_eq_eq] at both
    have ranks := Std.LawfulEqCmp.eq_of_compare both.1
    have names := Std.LawfulEqCmp.eq_of_compare both.2
    obtain ⟨leftType, leftName⟩ := left
    obtain ⟨rightType, rightName⟩ := right
    cases leftType <;> cases rightType <;> simp_all [TokenType.rank]

end TokenKey

instance : JsonForm TokenKey where
  toJson key := .obj [("token_type", toJson key.type), ("denom_or_address", toJson key.name)]
  ofJson? reading json := do
    let fields ← json.record? reading ["token_type", "denom_or_address"]
    let type ← field? reading fields "token_type"
    let name ← field? reading fields "denom_or_address"
    return { type, name }

/-- The metadata of a token. -/
structure Token where
  type : TokenType
  name : String
  decimals : Places
  symbol : String
  deriving DecidableEq, Repr

def Token.key (token : Token) : TokenKey := ⟨token.type, token.name⟩

instance : JsonForm Token where
  toJson token :=
    .obj [("token_type", toJson token.type), ("denom_or_address", toJson token.name),
      ("decimals", toJson token.decimals), ("symbol", toJson token.symbol)]
  ofJson? reading json := do
    let fields ← json.record? reading ["token_type", "denom_or_address", "decimals", "symbol"]
    let type ← field? reading fields "token_type"
    let name ← field? reading fields "denom_or_address"
    let decimals ← field? reading fields "decimals"
    let symbol ← field? reading fields "symbol"
    return { type, name, decimals, symbol }

/-- An amount of a native token in base units. -/
structure Coin where
  denom : String
  amount : BaseAmount
  deriving DecidableEq, Repr

/-- A coin may carry other members, which say nothing. -/
instance : JsonForm Coin where
  toJson coin := .obj [("denom", toJson coin.denom), ("amount", toJson coin.amount)]
  ofJson? reading json := do
    let fields ← json.openRecord? reading ["denom", "amount"]
    let denom ← field? reading fields "denom"
    let amount ← field? reading fields "amount"
    return { denom, amount }
  extent := .fields [("denom", .all), ("amount", .all)] .nothing

/-- The only coin of a list that has no other. -/
def Coin.single? : List Coin → Option Coin
  | [coin] => some coin
  | _ => none

end Proposal
