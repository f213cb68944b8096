import Mathlib.Tactic
import Proposal.Proofs.Resolution

/-! Of a context decoding reads the time and what is known of the tokens that the message requires,
and nothing else. -/
namespace Proposal

variable {α β : Type} {left right : Context} {message : Message} {key : TokenKey}
  {keys : List TokenKey}

namespace Context

/-- What the left context has resolved of some tokens the right context has resolved to the same. -/
def Keeps (left right : Context) (keys : List TokenKey) : Prop :=
  ∀ key ∈ keys, ∀ token, left.lookup key = .resolved token → right.lookup key = .resolved token

/-- A token that was not resolved before takes nothing away from those that were. -/
theorem keeps_withToken {context : Context} {token : Token}
    (lacking : ∀ other, context.lookup token.key ≠ .resolved other) :
    context.Keeps (context.withToken token) keys := by
  intro key _ other resolved
  have different : key ≠ token.key := by
    rintro rfl
    exact lacking other resolved
  rw [lookup_withToken, if_neg different, resolved]

/-- Decoding comes to the same on both sides, unless it stops on the left at a token of which the
right context says something else. -/
def Follows (left right : Context) (keys : List TokenKey) (onLeft onRight : Result (Match α)) :
    Prop :=
  onRight = onLeft ∨ ∃ key ∈ keys, left.StopsAt key onLeft ∧ right.lookup key ≠ left.lookup key

theorem Follows.map {onLeft onRight : Result (Match α)}
    (follows : left.Follows right keys onLeft onRight) (wrap : α → β) :
    left.Follows right keys (onLeft.map (·.map wrap)) (onRight.map (·.map wrap)) := by
  rcases follows with same | ⟨key, member, stops, differs⟩
  · exact .inl (by rw [same])
  · exact .inr ⟨key, member, stops.map wrap, differs⟩

private theorem follows_withTokenOf {onLeft onRight : Token → Result (Match α)}
    (keeps : left.Keeps right keys) (member : key ∈ keys)
    (goesOn : ∀ token, left.Follows right keys (onLeft token) (onRight token)) :
    left.Follows right keys (left.withTokenOf key onLeft) (right.withTokenOf key onRight) := by
  cases found : left.lookup key with
  | resolved token =>
    rw [withTokenOf, withTokenOf, found, keeps key member token found]
    exact goesOn token
  | pending =>
    by_cases same : right.lookup key = .pending
    · exact .inl (by rw [withTokenOf, withTokenOf, found, same])
    · exact .inr ⟨key, member, stopsAt_withTokenOf (by simp [found]) onLeft, by rwa [found]⟩
  | failed reason =>
    by_cases same : right.lookup key = .failed reason
    · exact .inl (by rw [withTokenOf, withTokenOf, found, same])
    · exact .inr ⟨key, member, stopsAt_withTokenOf (by simp [found]) onLeft, by rwa [found]⟩

end Context

/-- The time stands in for a start that the message does not give. -/
theorem BeginVesting.ofInstantiate_congr (sameTime : left.now = right.now)
    (instantiate : VestingContract.Instantiate) (token : Token) :
    ofInstantiate instantiate token right = ofInstantiate instantiate token left := by
  unfold ofInstantiate
  rw [sameTime]

private theorem Execute.follows_decodeFunds (keeps : left.Keeps right keys) {coins : List Coin}
    (asked : ∀ coin ∈ coins, .native coin.denom ∈ keys) :
    left.Follows right keys (decodeFunds left coins) (decodeFunds right coins) := by
  induction coins with
  | nil => exact .inl rfl
  | cons coin rest ih =>
    obtain ⟨first, others⟩ := List.forall_mem_cons.mp asked
    rw [decodeFunds, decodeFunds]
    refine Context.follows_withTokenOf keeps first fun token => ?_
    cases Amount.toHuman coin.amount token.decimals with
    | error error => exact .inl rfl
    | ok amount => exact (ih others).map _

namespace ActionKind

/-- A kind looks at no other tokens than those that it requires for the message. -/
theorem follows_decode (kind : ActionKind) (sameTime : left.now = right.now)
    (keeps : left.Keeps right keys) (asked : ∀ key ∈ kind.requiredTokens message, key ∈ keys) :
    left.Follows right keys (kind.decode message left) (kind.decode message right) := by
  cases kind with
  | spend =>
    refine Context.Follows.map ?_ _
    unfold Spend.decode
    cases found : Spend.Payment.ofMessage? message with
    | none => exact .inl rfl
    | some payment =>
      have required : payment.token ∈ keys := asked _ (by simp [requiredTokens, found])
      exact Context.follows_withTokenOf keeps required fun token => .inl rfl
  | stake =>
    refine Context.Follows.map ?_ _
    unfold Stake.decode
    cases found : Stake.Deposit.ofMessage? message with
    | none => exact .inl rfl
    | some deposit =>
      have required : deposit.token ∈ keys := asked _ (by simp [requiredTokens, found])
      exact Context.follows_withTokenOf keeps required fun token => .inl rfl
  | beginVesting =>
    refine Context.Follows.map ?_ _
    unfold BeginVesting.decode
    cases found : BeginVesting.Grant.ofMessage? message with
    | none => exact .inl rfl
    | some grant =>
      have required : grant.token ∈ keys := asked _ (by simp [requiredTokens, found])
      exact Context.follows_withTokenOf keeps required fun token =>
        .inl (BeginVesting.ofInstantiate_congr sameTime grant.instantiate token)
  | execute =>
    refine Context.Follows.map ?_ _
    unfold Execute.decode
    cases found : Execute.call? message with
    | none => exact .inl rfl
    | some call =>
      have required (coin : Coin) (member : coin ∈ call.funds) : .native coin.denom ∈ keys := by
        refine asked _ ?_
        simp only [requiredTokens, found]
        exact List.mem_map_of_mem member
      exact (Execute.follows_decodeFunds keeps required).map _
  | _ => exact .inl rfl

variable {kind : ActionKind}

theorem Passes.congr (passes : kind.Passes message left)
    (same : kind.decode message right = kind.decode message left) :
    kind.Passes message right := by
  rw [Passes, same]
  exact passes

theorem Decides.congr {decoded : Decoded} (decides : kind.Decides message left decoded)
    (same : kind.decode message right = kind.decode message left) :
    kind.Decides message right decoded := by
  cases decides with
  | matched claims found => exact .matched claims (same.trans found)
  | pending claims found => exact .pending claims (same.trans found)
  | unresolved claims found => exact .unresolved claims (same.trans found)

end ActionKind

namespace Registry

/-- The message waits on the left for a token of which the right context says something else. -/
def WaitsApart (left right : Context) (keys : List TokenKey) (decoded : Decoded) : Prop :=
  ∃ key ∈ keys, right.lookup key ≠ left.lookup key ∧
    ((∃ kind, decoded = .pending kind key) ∨ ∃ kind reason, decoded = .unresolved kind key reason)

/-- Kinds are tried on a message with the same outcome in both contexts, up to one that stops on the
left. -/
theorem decodeWith_eq_or_waitsApart (sameTime : left.now = right.now)
    (keeps : left.Keeps right keys) {kinds : List ActionKind}
    (asked : ∀ kind ∈ kinds, kind.claims message = true →
      ∀ key ∈ kind.requiredTokens message, key ∈ keys) :
    decodeWith message right kinds = decodeWith message left kinds ∨
      WaitsApart left right keys (decodeWith message left kinds) := by
  induction kinds with
  | nil => exact .inl rfl
  | cons kind rest ih =>
    obtain ⟨first, others⟩ := List.forall_mem_cons.mp asked
    cases claims : kind.claims message with
    | false =>
      rw [decodeWith_cons_of_passes (.inl claims), decodeWith_cons_of_passes (.inl claims)]
      exact ih others
    | true =>
      rcases kind.follows_decode sameTime keeps (first claims) with
        same | ⟨key, required, stops, differs⟩
      · rcases kind.passes_or_decides message left with passes | ⟨decoded, decides⟩
        · rw [decodeWith_cons_of_passes passes, decodeWith_cons_of_passes (passes.congr same)]
          exact ih others
        · rw [decodeWith_cons_of_decides decides,
            decodeWith_cons_of_decides (decides.congr same)]
          exact .inl rfl
      · refine .inr ⟨key, required, differs, ?_⟩
        generalize found : kind.decode message left = result at stops
        cases stops with
        | pending _ => exact .inl ⟨kind, decodeWith_cons_of_decides (.pending claims found) rest⟩
        | failed _ =>
          exact .inr ⟨kind, _, decodeWith_cons_of_decides (.unresolved claims found) rest⟩

private theorem decode_eq_or_waitsApart (registry : Registry) (sameTime : left.now = right.now)
    (keeps : left.Keeps right (registry.requiredTokens [message])) :
    registry.decode message right = registry.decode message left ∨
      WaitsApart left right (registry.requiredTokens [message]) (registry.decode message left) := by
  refine decodeWith_eq_or_waitsApart sameTime keeps fun kind inUse claims key required => ?_
  exact mem_requiredTokens_iff.mpr
    ⟨message, List.mem_singleton_self message, kind, inUse, claims, required⟩

/-- Contexts that agree on the time and on required tokens decode a message to the same; what is
settled stays so. -/
theorem decode_depends_on_required (registry : Registry) (message : Message)
    {left right : Context} (sameTime : left.now = right.now) :
    ((∀ key ∈ registry.requiredTokens [message], left.lookup key = right.lookup key) →
      registry.decode message left = registry.decode message right) ∧
    (left.Keeps right (registry.requiredTokens [message]) →
      ((∃ kind action, registry.decode message left = .matched kind action) ∨
        registry.decode message left = .raw message) →
      registry.decode message right = registry.decode message left) := by
  constructor
  · intro agree
    have keeps : left.Keeps right (registry.requiredTokens [message]) := by
      intro key required token resolved
      rw [← agree key required, resolved]
    rcases registry.decode_eq_or_waitsApart sameTime keeps with same | ⟨key, required, differs, _⟩
    · exact same.symm
    · exact absurd (agree key required).symm differs
  · intro keeps ended
    rcases registry.decode_eq_or_waitsApart sameTime keeps with
      same | ⟨_, _, _, ⟨_, pending⟩ | ⟨_, _, unresolved⟩⟩
    · exact same
    · rw [pending] at ended
      simp at ended
    · rw [unresolved] at ended
      simp at ended

/-- A token with more places than an amount can have. -/
def dust : Token := ⟨.native, "udust", ⟨30, by decide⟩, "DUST"⟩

def other : Token := ⟨.native, "uother", ⟨9, by decide⟩, "OTHER"⟩

/-- A call with two coins. The first cannot be shown, so that the second is not asked for. -/
def dustCall : Message :=
  .execute "contract" .emptyObject
    [⟨dust.name, ⟨3, by decide⟩⟩, ⟨other.name, ⟨3, by decide⟩⟩]

/-- The sample context, which knows the first of the two tokens. -/
def dusty : Context := Context.sample.withToken dust

/-- The same for another DAO, which has no factory and whose treasury is known to be empty. -/
def elsewhere : Context :=
  { dusty with dao := "elsewhere", vestingFactory := none, balances := some .empty }

/-- A call that no kind can show stays so once its other token is resolved; another DAO is shown the
same payment. -/
theorem decode_depends_on_required_dust :
    standard.decode dustCall (dusty.withToken other) = .raw dustCall ∧
      standard.decode (.bankSend "alice" [⟨"utoken", ⟨5, by decide⟩⟩]) dusty =
        standard.decode (.bankSend "alice" [⟨"utoken", ⟨5, by decide⟩⟩]) elsewhere := by
  have unclaimed : standard.decode dustCall dusty = .raw dustCall := rfl
  have lacking : dusty.lookup other.key = .pending := rfl
  have keeps : dusty.Keeps (dusty.withToken other) (standard.requiredTokens [dustCall]) :=
    Context.keeps_withToken (by simp [lacking])
  have sameTime : dusty.now = (dusty.withToken other).now := rfl
  have sameTimeElsewhere : dusty.now = elsewhere.now := rfl
  constructor
  · obtain ⟨_, stays⟩ := decode_depends_on_required standard dustCall sameTime
    exact (stays keeps (.inr unclaimed)).trans unclaimed
  · exact (decode_depends_on_required standard _ sameTimeElsewhere).1 fun _ _ => rfl

end Registry

end Proposal
