import Proposal.Querier
import Proposal.Time
import Proposal.TokenCache

/-! The context of encoding and decoding. It is filled beforehand; no action asks the chain. -/
namespace Proposal

/-- An asset that a treasury holds. Balances are kept of native and contract tokens. -/
inductive AssetKind
  | native (denom : String)
  | cw20 (address : String)
  | cw1155 (address id : String)
  deriving DecidableEq, Repr

def AssetKind.token? : AssetKind → Option TokenKey
  | .native denom => some (.native denom)
  | .cw20 address => some (.cw20 address)
  | .cw1155 _ _ => none

instance : JsonForm AssetKind where
  toJson
    | .native denom => .obj [("native", toJson denom)]
    | .cw20 address => .obj [("cw20", toJson address)]
    | .cw1155 address id => .obj [("cw1155", toJson (address, id))]
  ofJson? reading json := do
    match ← json.choice? with
    | ("native", some body) => return .native (← ofJson? reading body)
    | ("cw20", some body) => return .cw20 (← ofJson? reading body)
    | ("cw1155", some body) => do
      let (address, id) ← ofJson? reading body
      return .cw1155 address id
    | _ => none

structure Asset where
  kind : AssetKind
  amount : BaseAmount
  deriving DecidableEq, Repr

instance : JsonForm Asset where
  toJson asset := .obj [("info", toJson asset.kind), ("amount", toJson asset.amount)]
  ofJson? reading json := do
    let fields ← json.record? reading ["info", "amount"]
    let kind ← field? reading fields "info"
    let amount ← field? reading fields "amount"
    return { kind, amount }

/-- The balance of each token of a treasury. -/
abbrev Balances := SortedMap TokenKey BaseAmount

namespace Balances

def get (balances : Balances) (key : TokenKey) : BaseAmount := (balances.get? key).getD .zero

/-- Adds an asset. A sum that is too large stays at the largest amount. -/
def addAsset (balances : Balances) (asset : Asset) : Balances :=
  match asset.kind.token? with
  | none => balances
  | some key => balances.insert key ((balances.get key).saturatingAdd asset.amount)

def ofAssets (assets : List Asset) : Balances := assets.foldl addAsset .empty

end Balances

structure Context where
  config : ChainConfig
  /-- The core contract of the DAO, from which proposals are executed. -/
  dao : String
  now : Timestamp
  vestingFactory : Option String
  tokens : TokenCache
  /-- The balances of the treasury, if they are known; amounts are not held against unknown ones. -/
  balances : Option Balances

namespace Context

/-- A context that knows the native tokens of a config that is in order. -/
def new (config : ChainConfig) (dao : String) (now : Timestamp) : Result Context := do
  config.check
  return {
    config := config
    dao := dao
    now := now
    vestingFactory := none
    tokens := config.nativeTokens.foldl (fun cache native => cache.insert native.token) .empty
    balances := none }

def withVestingFactory (context : Context) (factory : String) : Context :=
  { context with vestingFactory := some factory }

def withToken (context : Context) (token : Token) : Context :=
  { context with tokens := context.tokens.insert token }

def withBalances (context : Context) (assets : List Asset) : Context :=
  { context with balances := some (.ofAssets assets) }

def markLoading (context : Context) (key : TokenKey) : Context :=
  { context with tokens := context.tokens.markLoading key }

def markFailed (context : Context) (key : TokenKey) (reason : String) : Context :=
  { context with tokens := context.tokens.markFailed key reason }

/-- The token that new actions start out with. -/
def defaultToken (context : Context) : TokenKey :=
  match context.config.nativeTokens with
  | native :: _ => .native native.denom
  | [] => .native ""

def lookup (context : Context) (key : TokenKey) : TokenLookup := context.tokens.lookup key

/-- The metadata of a token, which has to be resolved. -/
def token (context : Context) (key : TokenKey) : Result Token :=
  match context.lookup key with
  | .resolved token => .ok token
  | .pending => .error (.tokenNotResolved key)
  | .failed reason => .error (.tokenFailed key reason)

def balance? (context : Context) (key : TokenKey) : Option BaseAmount :=
  context.balances.map fun balances => Balances.get balances key

/-- Asks for a token that is not resolved yet. A failure is noted, so that one bad token does not
stop the others. -/
def resolveToken (querier : Querier) (context : Context) (key : TokenKey) : Context :=
  if context.tokens.isResolved key then context
  else
    let started := context.markLoading key
    match querier.token key with
    | .ok token => started.withToken token
    | .error error => started.markFailed key error.message

def resolveTokens (context : Context) (querier : Querier) (keys : List TokenKey) : Context :=
  keys.foldl (resolveToken querier) context

def resolveVestingFactory (context : Context) (querier : Querier) : Context × Result Unit :=
  match querier.vestingFactory context.dao with
  | .ok factory => ({ context with vestingFactory := factory }, .ok ())
  | .error error => (context, .error error)

end Context

end Proposal
