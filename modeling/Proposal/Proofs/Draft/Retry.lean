import Mathlib.Tactic
import Proposal.Proofs.Context
import Proposal.Proofs.Draft
import Proposal.Proofs.Resolution

/-! A draft names its tokens one at a time. Between two rounds another token may be missing and
another kind may decide. -/
namespace Proposal.Draft

/-- The token that a draft waits for, or that could not be resolved for it. -/
def awaited? (draft : Draft) : Option TokenKey :=
  match draft.state with
  | .decoding _ pending => pending
  | .resolutionFailed _ token _ => some token
  | _ => none

/-- The draft has a form to work on, or no kind claims its message. -/
def IsSettled (draft : Draft) : Prop :=
  (∃ action, draft.state = .editing action) ∨ ∃ message, draft.state = .notMatched message

/-- Some metadata for any token that is asked for, whatever was asked for before it. -/
structure Supply where
  token : List TokenKey → TokenKey → Token
  token_key (reported : List TokenKey) (key : TokenKey) : (token reported key).key = key

/-- A draft that is being decoded, with the tokens that it named so far. -/
structure Retrying where
  reported : List TokenKey
  context : Context
  draft : Draft

namespace Retrying

def opened (registry : Registry) (message : Message) (context : Context) : Retrying :=
  ⟨[], context, ofMessage registry message context⟩

/-- Resolves the token that the draft names and decodes the message again. -/
def round (registry : Registry) (supply : Supply) (retrying : Retrying) : Result Retrying :=
  match retrying.draft.awaited? with
  | none => .ok retrying
  | some key => do
    let context := retrying.context.withToken (supply.token retrying.reported key)
    let (draft, answer) := retrying.draft.retryDecode registry context
    answer
    return ⟨retrying.reported ++ [key], context, draft⟩

def rounds (registry : Registry) (supply : Supply) (retrying : Retrying) : Nat → Result Retrying
  | 0 => .ok retrying
  | count + 1 => do (← rounds registry supply retrying count).round registry supply

end Retrying

variable {registry : Registry} {supply : Supply} {context : Context} {message : Message}
  {draft : Draft} {retrying : Retrying} {count : Nat}

/-- A draft waits for a token that its message requires and that is not resolved. -/
structure Awaits (registry : Registry) (message : Message) (context : Context) (draft : Draft)
    (key : TokenKey) : Prop where
  named : draft.awaited? = some key
  undecoded : draft.undecoded? = some message
  required : key ∈ registry.requiredTokens [message]
  unresolved : ∀ token, context.lookup key ≠ .resolved token

private theorem Loads.settled_or_awaits (loads : Loads registry message context draft) :
    draft.IsSettled ∧ draft.awaited? = none ∨ ∃ key, Awaits registry message context draft key := by
  cases loads with
  | matched _ => exact .inl ⟨.inl ⟨_, rfl⟩, rfl⟩
  | pending decoded =>
    obtain ⟨required, pending⟩ :=
      Registry.required_of_decode_pending (List.mem_singleton_self message) decoded
    exact .inr ⟨_, rfl, rfl, required, by simp [pending]⟩
  | unresolved decoded =>
    obtain ⟨required, failed⟩ :=
      Registry.required_of_decode_unresolved (List.mem_singleton_self message) decoded
    exact .inr ⟨_, rfl, rfl, required, by simp [failed]⟩
  | raw _ => exact .inl ⟨.inr ⟨_, rfl⟩, rfl⟩

namespace Retrying

/-- What the rounds keep: the tokens named so far are required, resolved and distinct, one for each
round. -/
structure Sound (registry : Registry) (message : Message) (count : Nat) (retrying : Retrying) :
    Prop where
  decoded : retrying.draft = ofMessage registry message retrying.context
  distinct : retrying.reported.Nodup
  required : retrying.reported ⊆ registry.requiredTokens [message]
  resolved : ∀ key ∈ retrying.reported, ∃ token, retrying.context.lookup key = .resolved token
  counted : ∀ key, retrying.draft.awaited? = some key → retrying.reported.length = count

private theorem sound_opened (registry : Registry) (message : Message) (context : Context) :
    (opened registry message context).Sound registry message 0 where
  decoded := rfl
  distinct := .nil
  required := List.nil_subset _
  resolved := nofun
  counted _ _ := rfl

private theorem Sound.settled_or_awaits (sound : retrying.Sound registry message count) :
    retrying.draft.IsSettled ∧ retrying.draft.awaited? = none ∨
      ∃ key, Awaits registry message retrying.context retrying.draft key := by
  rw [sound.decoded]
  exact (loads_ofMessage registry message retrying.context).settled_or_awaits

/-- What is resolved is not asked for again. -/
theorem Sound.fresh (sound : retrying.Sound registry message count) {key : TokenKey}
    (awaits : Awaits registry message retrying.context retrying.draft key) :
    key ∉ retrying.reported := by
  intro named
  obtain ⟨token, resolved⟩ := sound.resolved key named
  exact awaits.unresolved token resolved

/-- The token that is missing is one more than the draft has named. -/
theorem Sound.named_append (sound : retrying.Sound registry message count) {key : TokenKey}
    (awaits : Awaits registry message retrying.context retrying.draft key) :
    (retrying.reported ++ [key]).Nodup ∧
      retrying.reported ++ [key] ⊆ registry.requiredTokens [message] := by
  constructor
  · rw [← List.concat_eq_append]
    exact sound.distinct.concat (sound.fresh awaits)
  · intro other member
    rcases List.mem_append.mp member with before | last
    · exact sound.required before
    · exact List.mem_singleton.mp last ▸ awaits.required

private theorem round_of_awaits {key : TokenKey}
    (awaits : Awaits registry message retrying.context retrying.draft key) :
    retrying.round registry supply = .ok ⟨retrying.reported ++ [key],
      retrying.context.withToken (supply.token retrying.reported key),
      ofMessage registry message
        (retrying.context.withToken (supply.token retrying.reported key))⟩ := by
  rw [round, awaits.named]
  simp only [retryDecode_of_undecoded awaits.undecoded]
  rfl

/-- One round resolves a token that was not named before, or the draft waits for nothing. -/
theorem Sound.round (sound : retrying.Sound registry message count) (supply : Supply) :
    ∃ next, retrying.round registry supply = .ok next ∧
      next.Sound registry message (count + 1) := by
  rcases sound.settled_or_awaits with ⟨_, idle⟩ | ⟨key, awaits⟩
  · refine ⟨retrying, by rw [Retrying.round, idle], { sound with counted := ?_ }⟩
    rw [idle]
    nofun
  · obtain ⟨distinct, required⟩ := sound.named_append awaits
    refine ⟨_, round_of_awaits awaits, rfl, distinct, required, ?_, ?_⟩
    · intro other member
      rw [Context.lookup_withToken, supply.token_key]
      split
      next => exact ⟨_, rfl⟩
      next different =>
        rcases List.mem_append.mp member with before | last
        · exact sound.resolved other before
        · exact absurd (List.mem_singleton.mp last) different
    · intro _ _
      rw [List.length_append, sound.counted key awaits.named, List.length_singleton]

private theorem sound_rounds (registry : Registry) (message : Message) (context : Context)
    (supply : Supply) (count : Nat) :
    ∃ retrying, (opened registry message context).rounds registry supply count = .ok retrying ∧
      retrying.Sound registry message count := by
  induction count with
  | zero => exact ⟨_, rfl, sound_opened registry message context⟩
  | succ count ih =>
    obtain ⟨before, ran, sound⟩ := ih
    obtain ⟨next, stepped, kept⟩ := sound.round supply
    exact ⟨next, by rw [rounds, ran]; exact stepped, kept⟩

/-- After as many rounds as its message requires tokens a draft has a form or is claimed by no kind;
no token is named twice. -/
theorem rounds_settle (registry : Registry) (message : Message) (context : Context)
    (supply : Supply) (count : Nat) :
    ∃ retrying, (opened registry message context).rounds registry supply count = .ok retrying ∧
      retrying.draft = ofMessage registry message retrying.context ∧
      retrying.reported.Nodup ∧ retrying.reported ⊆ registry.requiredTokens [message] ∧
      (∀ key, retrying.draft.awaited? = some key →
        key ∈ registry.requiredTokens [message] ∧ key ∉ retrying.reported ∧
          (∀ token, retrying.context.lookup key ≠ .resolved token) ∧
          retrying.reported.length = count) ∧
      ((registry.requiredTokens [message]).length ≤ count → retrying.draft.IsSettled) := by
  obtain ⟨retrying, ran, sound⟩ := sound_rounds registry message context supply count
  refine ⟨retrying, ran, sound.decoded, sound.distinct, sound.required, ?_, ?_⟩
  · intro key named
    rcases sound.settled_or_awaits with ⟨_, idle⟩ | ⟨other, awaits⟩
    · rw [idle] at named
      cases named
    · obtain rfl := Option.some.inj (awaits.named.symm.trans named)
      exact ⟨awaits.required, sound.fresh awaits, awaits.unresolved, sound.counted _ named⟩
  · intro enough
    rcases sound.settled_or_awaits with ⟨settled, _⟩ | ⟨key, awaits⟩
    · exact settled
    · obtain ⟨distinct, required⟩ := sound.named_append awaits
      have bounded := (List.subperm_of_subset distinct required).length_le
      rw [List.length_append, List.length_singleton, sound.counted key awaits.named] at bounded
      omega

/-- A call with two coins whose tokens are not known. -/
def twoCoins : Message :=
  .execute "pool" .emptyObject
    [⟨"uleft", ⟨11, by decide⟩⟩, ⟨"uright", ⟨13, by decide⟩⟩]

/-- Tokens of ten places, named like their keys. -/
def tenPlaces : Supply where
  token _ key := ⟨key.type, key.name, ⟨10, by decide⟩, key.name⟩
  token_key _ _ := rfl

theorem rounds_settle_two_coins :
    ∃ first second,
      (opened .standard twoCoins .sample).rounds .standard tenPlaces 1 = .ok first ∧
      first.draft.awaited? = some (.native "uright") ∧ .native "uright" ∉ first.reported ∧
      (opened .standard twoCoins .sample).rounds .standard tenPlaces 2 = .ok second ∧
      (Registry.standard.requiredTokens [twoCoins]).length = 2 ∧ second.draft.IsSettled := by
  obtain ⟨first, ran, _, _, _, awaits, _⟩ := rounds_settle .standard twoCoins .sample tenPlaces 1
  obtain ⟨second, ranOn, _, _, _, _, settles⟩ :=
    rounds_settle .standard twoCoins .sample tenPlaces 2
  have named : first.draft.awaited? = some (.native "uright") := by
    cases ran
    rfl
  have two : (Registry.standard.requiredTokens [twoCoins]).length = 2 := rfl
  exact ⟨first, second, ran, named, (awaits _ named).2.1, ranOn, two, settles two.le⟩

end Retrying

end Proposal.Draft
