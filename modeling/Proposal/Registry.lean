import Proposal.Action

namespace Proposal

/-- What becomes of a message: a form, a token that is pending or failed, or nothing that a kind
claims. -/
inductive Decoded
  | matched (kind : ActionKind) (action : Action)
  | pending (kind : ActionKind) (token : TokenKey)
  | unresolved (kind : ActionKind) (token : TokenKey) (reason : String)
  | raw (message : Message)

instance : JsonForm Decoded where
  toJson
    | .matched kind action =>
      .obj [("matched", .obj [("key", toJson kind), ("data", toJson action)])]
    | .pending kind token =>
      .obj [("pending", .obj [("key", toJson kind), ("token", toJson token)])]
    | .unresolved kind token reason =>
      .obj [("unresolved", .obj [("key", toJson kind), ("token", toJson token),
        ("reason", toJson reason)])]
    | .raw message => .obj [("raw", toJson message)]
  ofJson? reading json := do
    match ← json.choice? with
    | ("matched", some body) => do
      let fields ← body.alternative? reading ["key", "data"]
      return .matched (← field? reading fields "key") (← field? reading fields "data")
    | ("pending", some body) => do
      let fields ← body.alternative? reading ["key", "token"]
      return .pending (← field? reading fields "key") (← field? reading fields "token")
    | ("unresolved", some body) => do
      let fields ← body.alternative? reading ["key", "token", "reason"]
      return .unresolved (← field? reading fields "key") (← field? reading fields "token")
        (← field? reading fields "reason")
    | ("raw", some body) => return .raw (← ofJson? reading body)
    | _ => none
  extent := .fields [("raw", JsonForm.extent Message)] .all

/-- Kinds in the order of their priority, each once. -/
structure Registry where
  kinds : List ActionKind
  ascending : kinds.Pairwise fun left right => left.priority < right.priority
  deriving DecidableEq

namespace Registry

def empty : Registry := ⟨[], .nil⟩

/-- All kinds. -/
def standard : Registry where
  kinds :=
    [.beginVesting, .stake, .registerSlash, .cancelVesting, .setItem, .removeItem, .spend, .execute]
  ascending := by decide

/-- Puts a kind in front of those of a higher priority number. -/
def place (kind : ActionKind) : List ActionKind → List ActionKind
  | [] => [kind]
  | head :: rest =>
    if kind.priority < head.priority then kind :: head :: rest else head :: place kind rest

theorem mem_place {kind other : ActionKind} {kinds : List ActionKind} :
    other ∈ place kind kinds ↔ other = kind ∨ other ∈ kinds := by
  induction kinds with
  | nil => simp [place]
  | cons head rest ih =>
    unfold place
    split
    · simp
    · simp [ih, or_left_comm]

private theorem ascending_place {kind : ActionKind} {kinds : List ActionKind}
    (absent : kind ∉ kinds)
    (ascending : kinds.Pairwise fun left right => left.priority < right.priority) :
    (place kind kinds).Pairwise fun left right => left.priority < right.priority := by
  induction kinds with
  | nil => exact List.pairwise_singleton _ _
  | cons head rest ih =>
    obtain ⟨above, sorted⟩ := List.pairwise_cons.mp ascending
    unfold place
    split
    next less =>
      refine List.pairwise_cons.mpr ⟨fun other member => ?_, ascending⟩
      rcases List.mem_cons.mp member with same | later
      · exact same ▸ less
      · exact Nat.lt_trans less (above other later)
    next notLess =>
      have different : head.priority ≠ kind.priority := fun same =>
        absent (by simp [ActionKind.priority_injective same])
      refine List.pairwise_cons.mpr ⟨fun other member => ?_, ih (by simp_all) sorted⟩
      rcases mem_place.mp member with same | later
      · subst same; omega
      · exact above other later

/-- Takes a kind into use, once. -/
def register (registry : Registry) (kind : ActionKind) : Registry × Result Unit :=
  if present : kind ∈ registry.kinds then (registry, .error (.duplicateAction kind))
  else (⟨place kind registry.kinds, ascending_place present registry.ascending⟩, .ok ())

/-- A kind that is in use. -/
def get (registry : Registry) (kind : ActionKind) : Result ActionKind :=
  if kind ∈ registry.kinds then .ok kind else .error (.notRegistered kind)

def blank (registry : Registry) (kind : ActionKind) (context : Context) : Result Action := do
  return (← registry.get kind).blank context

def validate (registry : Registry) (action : Action) (context : Context) :
    Result (List FieldError) := do
  (← registry.get action.kind).validate action context

def encode (registry : Registry) (action : Action) (context : Context) : Result Message := do
  (← registry.get action.kind).encode action context

/-- Encodes a list of actions, up to the first that cannot be encoded. -/
def encodeAll (registry : Registry) (actions : List Action) (context : Context) :
    Result (List Message) :=
  actions.mapM fun action => registry.encode action context

/-- Tries kinds on a message. One that claims it and cannot decode it lets the next one try, unless
a token failed. -/
def decodeWith (message : Message) (context : Context) : List ActionKind → Decoded
  | [] => .raw message
  | kind :: rest =>
    if kind.claims message then
      match kind.decode message context with
      | .ok (.matched action) => .matched kind action
      | .ok (.pending token) => .pending kind token
      | .error (.tokenFailed token reason) => .unresolved kind token reason
      | .ok .notMatched => decodeWith message context rest
      | .error _ => decodeWith message context rest
    else decodeWith message context rest

/-- Decodes a message with the first kind that claims it. One that no kind claims stays as it is. -/
def decode (registry : Registry) (message : Message) (context : Context) : Decoded :=
  decodeWith message context registry.kinds

def decodeAll (registry : Registry) (messages : List Message) (context : Context) :
    List Decoded :=
  messages.map fun message => registry.decode message context

/-- The tokens that the kinds which claim a message need. -/
def tokensOf (registry : Registry) (message : Message) : List TokenKey :=
  (registry.kinds.filter fun kind => kind.claims message).flatMap fun kind =>
    kind.requiredTokens message

/-- Keeps the first of the keys that are the same. -/
def distinct (seen : List TokenKey) : List TokenKey → List TokenKey
  | [] => []
  | key :: rest =>
    if key ∈ seen then distinct seen rest else key :: distinct (key :: seen) rest

/-- The tokens to resolve before messages are decoded, each once. -/
def requiredTokens (registry : Registry) (messages : List Message) : List TokenKey :=
  distinct [] (messages.flatMap registry.tokensOf)

end Registry

end Proposal
