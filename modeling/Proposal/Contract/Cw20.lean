import Proposal.Time

namespace Proposal.Cw20

/-- The point at which an allowance ends. -/
inductive Expiration
  | atHeight (height : Count)
  | atTime (time : Timestamp)
  | never
  deriving DecidableEq, Repr

instance : JsonForm Expiration where
  toJson
    | .atHeight height => .obj [("at_height", toJson height)]
    | .atTime time => .obj [("at_time", toJson time)]
    | .never => .obj [("never", .obj [])]
  ofJson? reading json := do
    match ← json.choice? with
    | ("at_height", some body) => return .atHeight (← ofJson? reading body)
    | ("at_time", some body) => return .atTime (← ofJson? reading body)
    | ("never", some body) => do
      let _ ← body.alternative? reading []
      return .never
    | _ => none

/-- A picture given by its address or by its bytes. -/
inductive Logo
  | url (address : String)
  | svg (picture : Payload)
  | png (picture : Payload)
  deriving DecidableEq, Repr

instance : JsonForm Logo where
  toJson
    | .url address => .obj [("url", toJson address)]
    | .svg picture => .obj [("embedded", .obj [("svg", toJson picture)])]
    | .png picture => .obj [("embedded", .obj [("png", toJson picture)])]
  ofJson? reading json := do
    match ← json.choice? with
    | ("url", some body) => return .url (← ofJson? reading body)
    | ("embedded", some body) =>
      match ← body.choice? with
      | ("svg", some picture) => return .svg (← ofJson? reading picture)
      | ("png", some picture) => return .png (← ofJson? reading picture)
      | _ => none
    | _ => none

inductive Execute
  | transfer (recipient : String) (amount : BaseAmount)
  | burn (amount : BaseAmount)
  | send (contract : String) (amount : BaseAmount) (hook : Payload)
  | increaseAllowance (spender : String) (amount : BaseAmount) (expires : Option Expiration)
  | decreaseAllowance (spender : String) (amount : BaseAmount) (expires : Option Expiration)
  | transferFrom (owner recipient : String) (amount : BaseAmount)
  | sendFrom (owner contract : String) (amount : BaseAmount) (hook : Payload)
  | burnFrom (owner : String) (amount : BaseAmount)
  | mint (recipient : String) (amount : BaseAmount)
  | updateMinter (minter : Option String)
  | updateMarketing (project description marketing : Option String)
  | uploadLogo (logo : Logo)
  deriving DecidableEq, Repr

instance : JsonForm Execute where
  toJson
    | .transfer recipient amount =>
      .obj [("transfer", .obj [("recipient", toJson recipient), ("amount", toJson amount)])]
    | .burn amount => .obj [("burn", .obj [("amount", toJson amount)])]
    | .send contract amount hook =>
      .obj [("send", .obj [("contract", toJson contract), ("amount", toJson amount),
        ("msg", toJson hook)])]
    | .increaseAllowance spender amount expires =>
      .obj [("increase_allowance", .obj [("spender", toJson spender), ("amount", toJson amount),
        ("expires", toJson expires)])]
    | .decreaseAllowance spender amount expires =>
      .obj [("decrease_allowance", .obj [("spender", toJson spender), ("amount", toJson amount),
        ("expires", toJson expires)])]
    | .transferFrom owner recipient amount =>
      .obj [("transfer_from", .obj [("owner", toJson owner), ("recipient", toJson recipient),
        ("amount", toJson amount)])]
    | .sendFrom owner contract amount hook =>
      .obj [("send_from", .obj [("owner", toJson owner), ("contract", toJson contract),
        ("amount", toJson amount), ("msg", toJson hook)])]
    | .burnFrom owner amount =>
      .obj [("burn_from", .obj [("owner", toJson owner), ("amount", toJson amount)])]
    | .mint recipient amount =>
      .obj [("mint", .obj [("recipient", toJson recipient), ("amount", toJson amount)])]
    | .updateMinter minter => .obj [("update_minter", .obj [("new_minter", toJson minter)])]
    | .updateMarketing project description marketing =>
      .obj [("update_marketing", .obj [("project", toJson project),
        ("description", toJson description), ("marketing", toJson marketing)])]
    | .uploadLogo logo => .obj [("upload_logo", toJson logo)]
  ofJson? reading json := do
    match ← json.choice? with
    | ("transfer", some body) => do
      let fields ← body.alternative? reading ["recipient", "amount"]
      return .transfer (← field? reading fields "recipient") (← field? reading fields "amount")
    | ("burn", some body) => do
      let fields ← body.alternative? reading ["amount"]
      return .burn (← field? reading fields "amount")
    | ("send", some body) => do
      let fields ← body.alternative? reading ["contract", "amount", "msg"]
      return .send (← field? reading fields "contract") (← field? reading fields "amount")
        (← field? reading fields "msg")
    | ("increase_allowance", some body) => do
      let fields ← body.alternative? reading ["spender", "amount", "expires"]
      return .increaseAllowance (← field? reading fields "spender")
        (← field? reading fields "amount") (← optionalField? reading fields "expires")
    | ("decrease_allowance", some body) => do
      let fields ← body.alternative? reading ["spender", "amount", "expires"]
      return .decreaseAllowance (← field? reading fields "spender")
        (← field? reading fields "amount") (← optionalField? reading fields "expires")
    | ("transfer_from", some body) => do
      let fields ← body.alternative? reading ["owner", "recipient", "amount"]
      return .transferFrom (← field? reading fields "owner")
        (← field? reading fields "recipient") (← field? reading fields "amount")
    | ("send_from", some body) => do
      let fields ← body.alternative? reading ["owner", "contract", "amount", "msg"]
      return .sendFrom (← field? reading fields "owner") (← field? reading fields "contract")
        (← field? reading fields "amount") (← field? reading fields "msg")
    | ("burn_from", some body) => do
      let fields ← body.alternative? reading ["owner", "amount"]
      return .burnFrom (← field? reading fields "owner") (← field? reading fields "amount")
    | ("mint", some body) => do
      let fields ← body.alternative? reading ["recipient", "amount"]
      return .mint (← field? reading fields "recipient") (← field? reading fields "amount")
    | ("update_minter", some body) => do
      let fields ← body.alternative? reading ["new_minter"]
      return .updateMinter (← optionalField? reading fields "new_minter")
    | ("update_marketing", some body) => do
      let fields ← body.alternative? reading ["project", "description", "marketing"]
      return .updateMarketing (← optionalField? reading fields "project")
        (← optionalField? reading fields "description")
        (← optionalField? reading fields "marketing")
    | ("upload_logo", some body) => return .uploadLogo (← ofJson? reading body)
    | _ => none

/-- What a token contract answers when asked about itself. -/
structure TokenInfo where
  name : String
  symbol : String
  decimals : Places
  totalSupply : BaseAmount
  deriving DecidableEq, Repr

instance : JsonForm TokenInfo where
  toJson info :=
    .obj [("name", toJson info.name), ("symbol", toJson info.symbol),
      ("decimals", toJson info.decimals), ("total_supply", toJson info.totalSupply)]
  ofJson? reading json := do
    let fields ← json.record? reading ["name", "symbol", "decimals", "total_supply"]
    let name ← field? reading fields "name"
    let symbol ← field? reading fields "symbol"
    let decimals ← field? reading fields "decimals"
    let totalSupply ← field? reading fields "total_supply"
    return { name, symbol, decimals, totalSupply }

end Proposal.Cw20
