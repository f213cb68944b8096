import Proposal.Error
import Proposal.Message

namespace Proposal

inductive ChainMessage
  | bankSend (recipient : String) (coins : List Coin)
  | execute (contract : String) (payload : Payload) (funds : List Coin)
  | instantiate (admin : Option String) (codeId : Count) (payload : Payload) (funds : List Coin)
      (label : String)
  | migrate (contract : String) (codeId : Count) (payload : Payload)
  | stargate (typeUrl : String) (value : Payload)
  deriving DecidableEq, Repr

namespace ChainMessage

/-- The chain's form of a message. The complaint is what the decoder says of a module value that is
not Base64. -/
def ofMessage (complaint : String → String) : Message → Result ChainMessage
  | .bank (.send recipient coins) => .ok (.bankSend recipient coins)
  | .wasm (.execute contract funds body) => .ok (.execute contract body.payload funds)
  | .wasm (.instantiate admin codeId label body funds) =>
    .ok (.instantiate admin codeId body.payload funds label)
  | .wasm (.migrate contract codeId body) => .ok (.migrate contract codeId body.payload)
  | .stargate message =>
    match message.value.json with
    | .str encoded =>
      (orError (.invalidBase64 (complaint encoded)) (Payload.ofBase64? encoded)).map
        (.stargate message.typeUrl)
    | _ => .error (.undecodedStargate message.typeUrl)

/-- The JSON form that the chain knows. -/
def toJson : ChainMessage → Json
  | .bankSend recipient coins =>
    .obj [("bank", .obj [("send", .obj [("to_address", JsonForm.toJson recipient),
      ("amount", JsonForm.toJson coins)])])]
  | .execute contract payload funds =>
    .obj [("wasm", .obj [("execute", .obj [("contract_addr", JsonForm.toJson contract),
      ("msg", JsonForm.toJson payload), ("funds", JsonForm.toJson funds)])])]
  | .instantiate admin codeId payload funds label =>
    .obj [("wasm", .obj [("instantiate", .obj [("admin", JsonForm.toJson admin),
      ("code_id", JsonForm.toJson codeId), ("msg", JsonForm.toJson payload),
      ("funds", JsonForm.toJson funds), ("label", JsonForm.toJson label)])])]
  | .migrate contract codeId payload =>
    .obj [("wasm", .obj [("migrate", .obj [("contract_addr", JsonForm.toJson contract),
      ("new_code_id", JsonForm.toJson codeId), ("msg", JsonForm.toJson payload)])])]
  | .stargate typeUrl value =>
    .obj [("stargate", .obj [("type_url", JsonForm.toJson typeUrl),
      ("value", JsonForm.toJson value)])]

end ChainMessage

end Proposal
