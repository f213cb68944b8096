import Mathlib.Tactic
import Proposal.Proofs.Decoding
import Proposal.Proofs.Encoding
import Proposal.Proofs.Registry

namespace Proposal

variable {context : Context} {message : Message}

private theorem Spend.claims_and_decode_of_encode {form : Spend} (reachable : context.Reachable)
    (made : form.encode context = .ok message) :
    ActionKind.spend.claims message = true ∧
      Spend.decode message context = .ok (.matched form) := by
  obtain ⟨_, token, base, resolved, exactly, rfl⟩ := encode_eq_ok_iff.mp made
  have key := reachable.key_of_lookup resolved
  have claimed : Payment.ofMessage? (form.messageOf token base) =
      some ⟨form.recipient, form.token, base⟩ := by
    rw [Payment.ofMessage?_eq_some_iff, ← key]
    obtain ⟨type, name, decimals, symbol⟩ := token
    cases type with
    | native => exact .inl ⟨⟨name, base⟩, rfl, rfl, rfl⟩
    | cw20 => exact .inr ⟨name, Message.typedCall?_execute _ _ _, rfl⟩
  refine ⟨Option.isSome_iff_exists.mpr ⟨_, claimed⟩, ?_⟩
  exact decode_eq_matched_iff.mpr ⟨_, token, claimed, resolved, exactly, rfl, key.symm⟩

private theorem Stake.claims_and_decode_of_encode {form : Stake} (reachable : context.Reachable)
    (made : form.encode context = .ok message) :
    ActionKind.stake.claims message = true ∧
      Stake.decode message context = .ok (.matched form) := by
  obtain ⟨_, token, base, resolved, exactly, rfl⟩ := encode_eq_ok_iff.mp made
  have key := reachable.key_of_lookup resolved
  have claimed : Deposit.ofMessage? (form.messageOf token base) =
      some ⟨form.contract, form.token, base⟩ := by
    rw [Deposit.ofMessage?_eq_some_iff, ← key]
    obtain ⟨type, name, decimals, symbol⟩ := token
    cases type with
    | native => exact .inr ⟨⟨name, base⟩, Message.typedCall?_execute _ _ _, rfl, rfl⟩
    | cw20 => exact .inl ⟨name, HookedSend.ofMessage?_message (by decide) rfl _, rfl⟩
  refine ⟨Option.isSome_iff_exists.mpr ⟨_, claimed⟩, ?_⟩
  exact decode_eq_matched_iff.mpr ⟨_, token, claimed, resolved, exactly, rfl, key.symm⟩

theorem CancelVesting.ofMessage?_messageOf (form : CancelVesting) :
    ofMessage? form.messageOf = some form :=
  ofMessage?_eq_some_iff.mpr (Message.typedCall?_execute _ _ _)

theorem RegisterSlash.ofMessage?_messageOf (form : RegisterSlash) :
    ofMessage? form.messageOf = some form :=
  ofMessage?_eq_some_iff.mpr (Message.typedCall?_execute _ _ _)

theorem SetItem.ofMessage?_messageOf (form : SetItem) (dao : String) :
    ofMessage? (form.messageOf dao) = some form :=
  ofMessage?_eq_some_iff.mpr ⟨dao, Message.typedCall?_execute _ _ _⟩

theorem RemoveItem.ofMessage?_messageOf (form : RemoveItem) (dao : String) :
    ofMessage? (form.messageOf dao) = some form :=
  ofMessage?_eq_some_iff.mpr ⟨dao, Message.typedCall?_execute _ _ _⟩

private theorem Execute.isObject_of_validate {form : Execute}
    (good : form.validate context = .ok []) :
    form.message.isObject = true := by
  obtain ⟨_, told, _⟩ := validate_eq_nil_iff.mp good
  unfold checkMessage at told
  split at told
  next => cases told
  next object => simpa using object

/-- Coins that pay for funds are shown as these funds. -/
theorem Execute.Pays.shown {fund : Fund} {coin : Coin} (reachable : context.Reachable)
    (pays : Pays context fund coin) : Shown context coin fund := by
  obtain ⟨token, resolved, name, exactly⟩ := pays
  have key := congrArg TokenKey.name (reachable.key_of_lookup resolved)
  have same : fund.denom = coin.denom := key.symm.trans name
  exact ⟨same, token, same ▸ resolved, exactly⟩

private theorem Execute.claims_and_decode_of_encode {form : Execute} (reachable : context.Reachable)
    (made : form.encode context = .ok message) :
    ActionKind.execute.claims message = true ∧
      Execute.decode message context = .ok (.matched form) := by
  obtain ⟨good, coins, pays, rfl⟩ := encode_eq_ok_iff.mp made
  have object := isObject_of_validate good
  have claimed : call? (.execute form.contract form.message coins) =
      some ⟨form.contract, coins, form.message⟩ := call?_eq_some_iff.mpr ⟨rfl, object⟩
  refine ⟨Option.isSome_iff_exists.mpr ⟨_, claimed⟩, ?_⟩
  have shown := (pays.imp fun _ _ pays => pays.shown reachable).flip
  exact decode_eq_matched_iff.mpr ⟨coins, rfl, object, shown⟩

/-- A kind whose forms are read off messages alone. -/
theorem ActionKind.claims_and_decode_of_found {α : Type} {kind : ActionKind} {found : Option α}
    {wrap : α → Action} {form : α} (read : found = some form)
    (claims : kind.claims message = found.isSome)
    (decodes : kind.decode message context = .ok ((matchOf found).map wrap)) :
    kind.claims message = true ∧ kind.decode message context = .ok (.matched (wrap form)) := by
  subst read
  exact ⟨claims, decodes⟩

/-- The kind of an action claims its message and decodes it to the same action. -/
theorem ActionKind.claims_and_decode_of_encode {action : Action} (reachable : context.Reachable)
    (notVesting : action.kind ≠ .beginVesting)
    (made : action.kind.encode action context = .ok message) :
    action.kind.claims message = true ∧
      action.kind.decode message context = .ok (.matched action) := by
  cases action with
  | spend form =>
    obtain ⟨claims, decoded⟩ := Spend.claims_and_decode_of_encode reachable made
    exact ⟨claims, map_eq_ok_iff.mpr ⟨_, decoded, rfl⟩⟩
  | stake form =>
    obtain ⟨claims, decoded⟩ := Stake.claims_and_decode_of_encode reachable made
    exact ⟨claims, map_eq_ok_iff.mpr ⟨_, decoded, rfl⟩⟩
  | beginVesting form => exact absurd rfl notVesting
  | cancelVesting form =>
    obtain ⟨_, rfl⟩ := CancelVesting.encode_eq_ok_iff.mp made
    have found := form.ofMessage?_messageOf
    exact claims_and_decode_of_found found rfl rfl
  | registerSlash form =>
    obtain ⟨_, rfl⟩ := RegisterSlash.encode_eq_ok_iff.mp made
    have found := form.ofMessage?_messageOf
    exact claims_and_decode_of_found found rfl rfl
  | setItem form =>
    obtain ⟨_, rfl⟩ := SetItem.encode_eq_ok_iff.mp made
    have found := form.ofMessage?_messageOf context.dao
    exact claims_and_decode_of_found found rfl rfl
  | removeItem form =>
    obtain ⟨_, rfl⟩ := RemoveItem.encode_eq_ok_iff.mp made
    have found := form.ofMessage?_messageOf context.dao
    exact claims_and_decode_of_found found rfl rfl
  | execute form =>
    obtain ⟨claims, decoded⟩ := Execute.claims_and_decode_of_encode reachable made
    exact ⟨claims, map_eq_ok_iff.mpr ⟨_, decoded, rfl⟩⟩

namespace Registry

/-- Decoding is a left inverse of encoding, new vestings apart, unless a general call has the shape
of a specific one. -/
theorem decode_encode {context : Context} {action : Action} {message : Message}
    (reachable : context.Reachable) (notVesting : action.kind ≠ .beginVesting)
    (made : standard.encode action context = .ok message)
    (general : action.kind = .execute →
      ∀ kind : ActionKind, kind ≠ .execute → kind.claims message = false) :
    standard.decode message context = .matched action.kind action := by
  rw [encode_standard] at made
  obtain ⟨claims, decoded⟩ := ActionKind.claims_and_decode_of_encode reachable notVesting made
  apply decode_of_passes (mem_standard _) claims decoded
  intro other earlier
  by_cases specific : action.kind = .execute
  · refine .inl (general specific other ?_)
    rintro rfl
    exact absurd earlier (specific ▸ Nat.lt_irrefl _)
  · exact ActionKind.passes_of_claims claims specific earlier

/-- A call that no specific kind claims, with 1.5 tokens. -/
def ping : Execute :=
  ⟨"contract", .ofJson (.obj [("ping", .obj [])]),
    [⟨"utoken", ⟨⟨1500000000000000000, by decide⟩⟩⟩]⟩

theorem decode_encode_ping :
    ∃ message, standard.encode (.execute ping) .sample = .ok message ∧
      standard.decode message .sample = .matched .execute (.execute ping) := by
  have made : standard.encode (.execute ping) .sample =
    .ok (.execute ping.contract ping.message [⟨"utoken", ⟨1500000, by decide⟩⟩]) := rfl
  refine ⟨_, made, decode_encode Context.reachable_sample (by decide) made fun _ kind other => ?_⟩
  cases kind with
  | execute => exact absurd rfl other
  | _ => decide

end Registry

end Proposal
