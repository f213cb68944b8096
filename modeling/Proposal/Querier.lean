import Proposal.Config
import Proposal.Contract.Cw20
import Proposal.Contract.Dao

namespace Proposal

/-- Answers the two questions that a context asks. -/
structure Querier where
  token : TokenKey → Result Token
  /-- The vesting factory of a DAO, if it has one. -/
  vestingFactory : String → Result (Option String)

/-- A question to a contract. -/
inductive ContractQuery
  | tokenInfo
  | item (key : String)
  deriving DecidableEq, Repr

/-- A chain that can be asked: its name, and what the contract at an address answers. -/
structure Connection where
  chainId : String
  ask : String → ContractQuery → Result Payload
  /-- What the reader says of an answer that does not have the form it should have. -/
  complaint : ContractQuery → Payload → String

namespace Connection

def nativeToken (config : ChainConfig) (denom : String) : Result Token :=
  (orError (.unknownDenom denom) (config.nativeToken? denom)).map NativeToken.token

/-- The answer of a contract as typed data. -/
def askFor {α : Type} [JsonForm α] (connection : Connection) (address : String)
    (query : ContractQuery) : Result α := do
  let answer ← connection.ask address query
  orError (.malformed (connection.complaint query answer)) (ofPayload? answer)

def token (connection : Connection) (config : ChainConfig) (key : TokenKey) : Result Token :=
  match key.type with
  | .native => nativeToken config key.name
  | .cw20 => do
    let info : Cw20.TokenInfo ← connection.askFor key.name .tokenInfo
    Amount.checkDecimals info.decimals
    return ⟨.cw20, key.name, info.decimals, info.symbol⟩

def vestingFactory (connection : Connection) (dao : String) : Result (Option String) := do
  let answer : DaoCore.Item ← connection.askFor dao (.item DaoCore.vestingFactoryKey)
  return answer.item

/-- The querier of a connection, which has to be to the chain of the config. -/
def querier (connection : Connection) (config : ChainConfig) : Result Querier :=
  if connection.chainId = config.chainId then
    .ok ⟨connection.token config, connection.vestingFactory⟩
  else .error (.invalidConfig (.otherChain connection.chainId config.chainId))

end Connection

/-- What is known of a chain without a connection. -/
structure Offline where
  config : ChainConfig
  tokens : List Token
  vestingFactory : Option String

namespace Offline

def token (chain : Offline) (key : TokenKey) : Result Token :=
  match chain.tokens.find? fun token => token.key = key with
  | some token => .ok token
  | none =>
    match key.type with
    | .native => Connection.nativeToken chain.config key.name
    | .cw20 => .error (.notFound ("token " ++ key.name ++ " (pass it with --token)"))

def querier (chain : Offline) : Querier := ⟨chain.token, fun _ => .ok chain.vestingFactory⟩

end Offline

/-- What a contract of a table answers to one question. -/
inductive CannedAnswer
  | payload (answer : Payload)
  | refused (reason : String)

/-- A contract that answers from a table. Items, where they are given, answer every question for
one. -/
structure CannedContract where
  tokenInfo : Option CannedAnswer
  items : Option (List (String × String))
  item : Option CannedAnswer

namespace CannedContract

def answer (contract : CannedContract) : ContractQuery → CannedAnswer
  | .tokenInfo => contract.tokenInfo.getD (.refused "unknown query")
  | .item key =>
    match contract.items with
    | some items => .payload (payloadOf (⟨items.lookup key⟩ : DaoCore.Item))
    | none => contract.item.getD (.refused "unknown query")

end CannedContract

/-- A chain whose contracts answer from tables. -/
def Connection.ofTable (chainId : String) (contracts : List (String × CannedContract))
    (complaint : ContractQuery → Payload → String) : Connection where
  chainId := chainId
  ask address query :=
    match contracts.lookup address with
    | none => .error (.noSuchContract address)
    | some contract =>
      match contract.answer query with
      | .payload answer => .ok answer
      | .refused reason => .error (.queryRefused reason)
  complaint := complaint

end Proposal
