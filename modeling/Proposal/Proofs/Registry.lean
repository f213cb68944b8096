import Mathlib.Tactic
import Proposal.Proofs.Claim

namespace Proposal

variable {message : Message} {context : Context} {kind : ActionKind} {action : Action}

namespace ActionKind

/-- Apart from general calls no message is claimed by two kinds. -/
theorem eq_of_claims {left right : ActionKind} (leftClaims : left.claims message = true)
    (rightClaims : right.claims message = true) (leftSpecific : left ≠ .execute)
    (rightSpecific : right ≠ .execute) : left = right := by
  have found := specificKind?_of_claims leftClaims leftSpecific
  rw [specificKind?_of_claims rightClaims rightSpecific] at found
  exact (Option.some.inj found).symm

theorem priority_le_execute (kind : ActionKind) : kind.priority ≤ execute.priority := by
  cases kind <;> decide

/-- The kind lets the next one try: it does not claim the message, or it cannot decode it for
another reason than a token. -/
def Passes (kind : ActionKind) (message : Message) (context : Context) : Prop :=
  kind.claims message = false ∨ kind.decode message context = .ok .notMatched ∨
    ∃ error, kind.decode message context = .error error ∧
      ∀ token reason, error ≠ .tokenFailed token reason

/-- A specific kind that claims a message is the first that does. -/
theorem passes_of_claims (claims : kind.claims message = true) (specific : kind ≠ .execute)
    {other : ActionKind} (earlier : other.priority < kind.priority) :
    other.Passes message context := by
  refine .inl (Bool.eq_false_iff.mpr fun otherClaims => ?_)
  have otherSpecific : other ≠ .execute := by
    rintro rfl
    exact absurd (priority_le_execute kind) (Nat.not_le.mpr earlier)
  have same := eq_of_claims otherClaims claims otherSpecific specific
  exact Nat.lt_irrefl _ (same ▸ earlier)

/-- What a kind makes of a message that it claims and does not leave to the next one. -/
inductive Decides (kind : ActionKind) (message : Message) (context : Context) : Decoded → Prop
  | matched {action : Action} (claims : kind.claims message = true)
      (decoded : kind.decode message context = .ok (.matched action)) :
      Decides kind message context (.matched kind action)
  | pending {token : TokenKey} (claims : kind.claims message = true)
      (decoded : kind.decode message context = .ok (.pending token)) :
      Decides kind message context (.pending kind token)
  | unresolved {token : TokenKey} {reason : String} (claims : kind.claims message = true)
      (decoded : kind.decode message context = .error (.tokenFailed token reason)) :
      Decides kind message context (.unresolved kind token reason)

theorem Decides.claims {decoded : Decoded} (decides : kind.Decides message context decoded) :
    kind.claims message = true := by
  cases decides <;> assumption

/-- A kind either leaves a message to the next one or says what becomes of it. -/
theorem passes_or_decides (kind : ActionKind) (message : Message) (context : Context) :
    kind.Passes message context ∨ ∃ decoded, kind.Decides message context decoded := by
  cases claims : kind.claims message with
  | false => exact .inl (.inl claims)
  | true =>
    cases decoded : kind.decode message context with
    | ok found =>
      cases found with
      | matched action => exact .inr ⟨_, .matched claims decoded⟩
      | pending token => exact .inr ⟨_, .pending claims decoded⟩
      | notMatched => exact .inl (.inr (.inl decoded))
    | error error =>
      cases error
      case tokenFailed token reason => exact .inr ⟨_, .unresolved claims decoded⟩
      all_goals exact .inl (.inr (.inr ⟨_, decoded, nofun⟩))

end ActionKind

namespace Registry

theorem decodeWith_cons_of_passes (passes : kind.Passes message context)
    (rest : List ActionKind) :
    decodeWith message context (kind :: rest) = decodeWith message context rest := by
  rw [decodeWith]
  rcases passes with unclaimed | notMatched | ⟨error, failed, other⟩
  · rw [unclaimed]
    rfl
  · rw [notMatched]
    exact ite_self _
  · rw [failed]
    cases error
    case tokenFailed token reason => exact absurd rfl (other token reason)
    all_goals exact ite_self _

theorem decodeWith_append {before rest : List ActionKind}
    (passes : ∀ other ∈ before, other.Passes message context) :
    decodeWith message context (before ++ rest) = decodeWith message context rest := by
  induction before with
  | nil => rfl
  | cons first others ih =>
    obtain ⟨firstPasses, othersPass⟩ := List.forall_mem_cons.mp passes
    rw [List.cons_append, decodeWith_cons_of_passes firstPasses, ih othersPass]

theorem decodeWith_cons_of_decides {decoded : Decoded}
    (decides : kind.Decides message context decoded) (rest : List ActionKind) :
    decodeWith message context (kind :: rest) = decoded := by
  rw [decodeWith, if_pos decides.claims]
  cases decides with
  | matched _ decoded => rw [decoded]
  | pending _ decoded => rw [decoded]
  | unresolved _ decoded => rw [decoded]

/-- A message is decided by the first kind that does not leave it to the next one, and stays as it
is if all of them do. -/
theorem decodeWith_cases (message : Message) (context : Context) (kinds : List ActionKind) :
    (∃ before kind after, kinds = before ++ kind :: after ∧
      (∀ other ∈ before, other.Passes message context) ∧
      kind.Decides message context (decodeWith message context kinds)) ∨
    (∀ kind ∈ kinds, kind.Passes message context) ∧
      decodeWith message context kinds = .raw message := by
  induction kinds with
  | nil => exact .inr ⟨nofun, rfl⟩
  | cons first rest ih =>
    rcases first.passes_or_decides message context with passes | ⟨decoded, decides⟩
    · rw [decodeWith_cons_of_passes passes]
      rcases ih with ⟨before, kind, after, rfl, earlier, decides⟩ | ⟨all, unclaimed⟩
      · exact .inl ⟨first :: before, kind, after, rfl, List.forall_mem_cons.mpr ⟨passes, earlier⟩,
          decides⟩
      · exact .inr ⟨List.forall_mem_cons.mpr ⟨passes, all⟩, unclaimed⟩
    · rw [decodeWith_cons_of_decides decides]
      exact .inl ⟨[], first, rest, rfl, nofun, decides⟩

private theorem decides_or_raw (message : Message) (context : Context) (kinds : List ActionKind) :
    (∃ kind ∈ kinds, kind.Decides message context (decodeWith message context kinds)) ∨
      decodeWith message context kinds = .raw message := by
  rcases decodeWith_cases message context kinds with
    ⟨before, kind, after, split, _, decides⟩ | ⟨_, unclaimed⟩
  · exact .inl ⟨kind, by simp [split], decides⟩
  · exact .inr unclaimed

/-- What does not stay as it is was decided by one of the kinds. -/
theorem decides_of_decodeWith {kinds : List ActionKind} {decoded : Decoded}
    (found : decodeWith message context kinds = decoded) (changed : decoded ≠ .raw message) :
    ∃ kind ∈ kinds, kind.Decides message context decoded := by
  subst found
  rcases decides_or_raw message context kinds with decided | unclaimed
  · exact decided
  · exact absurd unclaimed changed

/-- What a registry matches is claimed and decoded by the kind that it says. -/
theorem decodeWith_eq_matched {kinds : List ActionKind}
    (found : decodeWith message context kinds = .matched kind action) :
    kind ∈ kinds ∧ kind.claims message = true ∧
      kind.decode message context = .ok (.matched action) := by
  obtain ⟨decider, member, decides⟩ := decides_of_decodeWith found nofun
  cases decides with
  | matched claims decoded => exact ⟨member, claims, decoded⟩

/-- A kind has the say on a message if every kind before it leaves it the message. -/
theorem decode_of_decides {registry : Registry} {decoded : Decoded}
    (member : kind ∈ registry.kinds) (decides : kind.Decides message context decoded)
    (passes : ∀ other : ActionKind, other.priority < kind.priority → other.Passes message context) :
    registry.decode message context = decoded := by
  obtain ⟨before, after, split⟩ := List.append_of_mem member
  have ascending := registry.ascending
  rw [split, List.pairwise_append] at ascending
  have earlier (other : ActionKind) (present : other ∈ before) : other.priority < kind.priority :=
    ascending.2.2 other present kind List.mem_cons_self
  rw [decode, split, decodeWith_append fun other present => passes other (earlier other present)]
  exact decodeWith_cons_of_decides decides after

/-- A kind decodes a message that it claims if every kind before it lets it try. -/
theorem decode_of_passes {registry : Registry} (member : kind ∈ registry.kinds)
    (claims : kind.claims message = true)
    (decoded : kind.decode message context = .ok (.matched action))
    (passes : ∀ other : ActionKind, other.priority < kind.priority → other.Passes message context) :
    registry.decode message context = .matched kind action :=
  decode_of_decides member (.matched claims decoded) passes

theorem mem_standard (kind : ActionKind) : kind ∈ standard.kinds := by
  cases kind <;> decide

private theorem get_standard (kind : ActionKind) : standard.get kind = .ok kind :=
  if_pos (mem_standard kind)

/-- A message is made by the kind of its form. -/
theorem encode_eq_ok_iff {registry : Registry} :
    registry.encode action context = .ok message ↔
      action.kind ∈ registry.kinds ∧ action.kind.encode action context = .ok message := by
  by_cases inUse : action.kind ∈ registry.kinds
  · rw [encode, get, if_pos inUse, and_iff_right inUse]
    rfl
  · rw [encode, get, if_neg inUse]
    exact iff_of_false nofun fun found => inUse found.1

theorem encode_standard (action : Action) (context : Context) :
    standard.encode action context = action.kind.encode action context := by
  rw [encode, get_standard]
  rfl

theorem validate_standard (action : Action) (context : Context) :
    standard.validate action context = action.kind.validate action context := by
  rw [validate, get_standard]
  rfl

end Registry

end Proposal
