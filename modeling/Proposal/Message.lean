import Proposal.Token

namespace Proposal

/-- A transfer of native tokens. -/
inductive BankMessage
  | send (recipient : String) (coins : List Coin)

instance : JsonForm BankMessage where
  toJson
    | .send recipient coins =>
      .obj [("send", .obj [("to_address", toJson recipient), ("amount", toJson coins)])]
  ofJson? reading json := do
    match ← json.choice? with
    | ("send", some body) => do
      let fields ← body.alternative? reading ["to_address", "amount"]
      return .send (← field? reading fields "to_address") (← field? reading fields "amount")
    | _ => none
  extent := .fields [("send", .fields [("to_address", .all),
    ("amount", JsonForm.extent (List Coin))] .all)] .all

/-- A call of a contract, or the making or the replacement of one. -/
inductive WasmMessage
  | execute (contract : String) (funds : List Coin) (body : Value)
  | instantiate (admin : Option String) (codeId : Count) (label : String) (body : Value)
      (funds : List Coin)
  | migrate (contract : String) (codeId : Count) (body : Value)

instance : JsonForm WasmMessage where
  toJson
    | .execute contract funds body =>
      .obj [("execute", .obj [("contract_addr", toJson contract), ("funds", toJson funds),
        ("msg", toJson body)])]
    | .instantiate admin codeId label body funds =>
      .obj [("instantiate", .obj [("admin", toJson admin), ("code_id", toJson codeId),
        ("label", toJson label), ("msg", toJson body), ("funds", toJson funds)])]
    | .migrate contract codeId body =>
      .obj [("migrate", .obj [("contract_addr", toJson contract), ("new_code_id", toJson codeId),
        ("msg", toJson body)])]
  ofJson? reading json := do
    match ← json.choice? with
    | ("execute", some body) => do
      let fields ← body.alternative? reading ["contract_addr", "funds", "msg"]
      return .execute (← field? reading fields "contract_addr") (← field? reading fields "funds")
        (← field? reading fields "msg")
    | ("instantiate", some body) => do
      let fields ← body.alternative? reading ["admin", "code_id", "label", "msg", "funds"]
      return .instantiate (← optionalField? reading fields "admin")
        (← field? reading fields "code_id") (← field? reading fields "label")
        (← field? reading fields "msg") (← field? reading fields "funds")
    | ("migrate", some body) => do
      let fields ← body.alternative? reading ["contract_addr", "new_code_id", "msg"]
      return .migrate (← field? reading fields "contract_addr")
        (← field? reading fields "new_code_id") (← field? reading fields "msg")
    | _ => none
  extent :=
    let funds := JsonForm.extent (List Coin)
    .fields [("execute", .fields [("contract_addr", .all), ("funds", funds), ("msg", .all)] .all),
      ("instantiate", .fields [("admin", .all), ("code_id", .all), ("label", .all), ("msg", .all),
        ("funds", funds)] .all)] .all

/-- A message of a module of the chain. The value is its encoding in base64, or still decoded. -/
structure StargateMessage where
  typeUrl : String
  value : Value

instance : JsonForm StargateMessage where
  toJson message :=
    .obj [("type_url", toJson message.typeUrl), ("value", toJson message.value)]
  ofJson? reading json := do
    let fields ← json.record? reading ["type_url", "value"]
    let typeUrl ← field? reading fields "type_url"
    let value ← field? reading fields "value"
    return { typeUrl, value }

/-- One instruction of a proposal. -/
inductive Message
  | bank (message : BankMessage)
  | wasm (message : WasmMessage)
  | stargate (message : StargateMessage)

namespace Message

def bankSend (recipient : String) (coins : List Coin) : Message := .bank (.send recipient coins)

def execute (contract : String) (body : Value) (funds : List Coin) : Message :=
  .wasm (.execute contract funds body)

/-- A call of a contract: its address, the coins that go with it and what it is told. -/
structure Call where
  contract : String
  funds : List Coin
  body : Value

def call? : Message → Option Call
  | .wasm (.execute contract funds body) => some ⟨contract, funds, body⟩
  | _ => none

end Message

instance : JsonForm Message where
  toJson
    | .bank message => .obj [("bank", toJson message)]
    | .wasm message => .obj [("wasm", toJson message)]
    | .stargate message => .obj [("stargate", toJson message)]
  ofJson? reading json := do
    match ← json.choice? with
    | ("bank", some body) => return .bank (← ofJson? reading body)
    | ("wasm", some body) => return .wasm (← ofJson? reading body)
    | ("stargate", some body) => return .stargate (← ofJson? reading body)
    | _ => none
  extent := .fields [("bank", JsonForm.extent BankMessage), ("wasm", JsonForm.extent WasmMessage)]
    .all

end Proposal
