import Proposal.Amount

namespace Proposal

structure NativeToken where
  denom : String
  symbol : String
  decimals : Places
  deriving DecidableEq, Repr

def NativeToken.token (native : NativeToken) : Token :=
  ⟨.native, native.denom, native.decimals, native.symbol⟩

instance : JsonForm NativeToken where
  toJson native :=
    .obj [("denom", toJson native.denom), ("symbol", toJson native.symbol),
      ("decimals", toJson native.decimals)]
  ofJson? reading json := do
    let fields ← json.record? reading ["denom", "symbol", "decimals"]
    let denom ← field? reading fields "denom"
    let symbol ← field? reading fields "symbol"
    let decimals ← field? reading fields "decimals"
    return { denom, symbol, decimals }

/-- The first native token is the one that new actions start out with. -/
structure ChainConfig where
  chainId : String
  nativeTokens : List NativeToken
  unbondingSeconds : Count
  deriving DecidableEq, Repr

instance : JsonForm ChainConfig where
  toJson config :=
    .obj [("chain_id", toJson config.chainId), ("native_tokens", toJson config.nativeTokens),
      ("unbonding_duration_seconds", toJson config.unbondingSeconds)]
  ofJson? reading json := do
    let fields ← json.record? reading
      ["chain_id", "native_tokens", "unbonding_duration_seconds"]
    let chainId ← field? reading fields "chain_id"
    let nativeTokens ← field? reading fields "native_tokens"
    let unbondingSeconds ← field? reading fields "unbonding_duration_seconds"
    return { chainId, nativeTokens, unbondingSeconds }

namespace ChainConfig

def nativeToken? (config : ChainConfig) (denom : String) : Option NativeToken :=
  config.nativeTokens.find? fun native => native.denom = denom

/-- The first fault of the native tokens behind those of the given denoms. -/
def nativeFault? (seen : List String) : List NativeToken → Option ConfigFault
  | [] => none
  | native :: rest =>
    if Text.allBlank native.denom then some .blankDenom
    else if Amount.maxDecimals < native.decimals.val then
      some (.tooPrecise native.denom native.decimals)
    else if native.denom ∈ seen then some (.repeatedDenom native.denom)
    else nativeFault? (native.denom :: seen) rest

def fault? (config : ChainConfig) : Option ConfigFault :=
  if Text.allBlank config.chainId then some .blankChainId
  else if config.nativeTokens.isEmpty then some .noNativeTokens
  else nativeFault? [] config.nativeTokens

def check (config : ChainConfig) : Result Unit :=
  match config.fault? with
  | some fault => .error (.invalidConfig fault)
  | none => .ok ()

/-- Reads a config and checks it. The complaint is what the reader says of other payloads. -/
def load (complaint : Payload → String) (payload : Payload) : Result ChainConfig := do
  let config : ChainConfig ← orError (.malformed (complaint payload)) (ofPayload? payload)
  config.check
  return config

end ChainConfig

end Proposal
