import Proposal.Token

namespace Proposal

inductive TokenState
  | loading
  | resolved (token : Token)
  | failed (reason : String)
  deriving DecidableEq, Repr

/-- What someone who needs a token can learn of it. -/
inductive TokenLookup
  | resolved (token : Token)
  | pending
  | failed (reason : String)
  deriving DecidableEq, Repr

def TokenLookup.name : TokenLookup → String
  | .resolved _ => "resolved"
  | .pending => "pending"
  | .failed _ => "failed"

structure TokenCache where
  states : SortedMap TokenKey TokenState

namespace TokenCache

def empty : TokenCache := ⟨.empty⟩

def state? (cache : TokenCache) (key : TokenKey) : Option TokenState := cache.states.get? key

def set (cache : TokenCache) (key : TokenKey) (state : TokenState) : TokenCache :=
  ⟨cache.states.insert key state⟩

def lookup (cache : TokenCache) (key : TokenKey) : TokenLookup :=
  match cache.state? key with
  | some (.resolved token) => .resolved token
  | some (.failed reason) => .failed reason
  | some .loading => .pending
  | none => .pending

def isResolved (cache : TokenCache) (key : TokenKey) : Bool :=
  match cache.state? key with
  | some (.resolved _) => true
  | _ => false

/-- Keeps the metadata of a token under its own key. -/
def insert (cache : TokenCache) (token : Token) : TokenCache :=
  cache.set token.key (.resolved token)

/-- Notes that a search began, which forgets an earlier failure. What is resolved stays so. -/
def markLoading (cache : TokenCache) (key : TokenKey) : TokenCache :=
  if cache.isResolved key then cache else cache.set key .loading

def markFailed (cache : TokenCache) (key : TokenKey) (reason : String) : TokenCache :=
  cache.set key (.failed reason)

theorem state?_set (cache : TokenCache) (key other : TokenKey) (state : TokenState) :
    (cache.set key state).state? other = if other = key then some state else cache.state? other :=
  cache.states.get?_insert key other state

end TokenCache

end Proposal
