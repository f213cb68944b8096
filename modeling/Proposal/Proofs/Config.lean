import Mathlib.Tactic
import Proposal.Config
import Proposal.Proofs.Json.Form

namespace Proposal

/-- A text with a character that is not white space. -/
def Text.Inked (text : String) : Prop := ∃ char ∈ text.toList, ¬White char

private theorem Text.inked_iff {text : String} : Inked text ↔ allBlank text = false := by
  simp [Inked, allBlank, ← isBlank_eq_true_iff]

/-- A native token that a config may list: it has a name, and amounts can be given in its
precision. -/
structure NativeToken.InOrder (native : NativeToken) : Prop where
  named : Text.Inked native.denom
  precise : native.decimals.val ≤ 18

namespace ChainConfig

/-- A config of a chain with a name, whose native tokens are in order and have different denoms. -/
structure InOrder (config : ChainConfig) : Prop where
  named : Text.Inked config.chainId
  listed : config.nativeTokens ≠ []
  natives : ∀ native ∈ config.nativeTokens, native.InOrder
  distinct : (config.nativeTokens.map NativeToken.denom).Nodup

variable {config : ChainConfig}

private theorem nativeFault?_cons_eq_none_iff {seen : List String} {native : NativeToken}
    {rest : List NativeToken} :
    nativeFault? seen (native :: rest) = none ↔
      native.InOrder ∧ native.denom ∉ seen ∧
        nativeFault? (native.denom :: seen) rest = none := by
  constructor
  · intro faultless
    unfold nativeFault? at faultless
    split at faultless
    · cases faultless
    next inked =>
      split at faultless
      · cases faultless
      next precise =>
        split at faultless
        · cases faultless
        next fresh =>
          have named := Text.inked_iff.mpr (Bool.eq_false_of_not_eq_true inked)
          exact ⟨⟨named, Nat.le_of_not_lt precise⟩, fresh, faultless⟩
  · rintro ⟨⟨named, precise⟩, fresh, faultless⟩
    have within : ¬Amount.maxDecimals < native.decimals.val := Nat.not_lt.mpr precise
    unfold nativeFault?
    rw [if_neg (by simp [Text.inked_iff.mp named]), if_neg within, if_neg fresh]
    exact faultless

/-- The native tokens behind those of the given denoms have no fault if each is in order and no
denom comes twice. -/
theorem nativeFault?_eq_none_iff {seen : List String} {natives : List NativeToken} :
    nativeFault? seen natives = none ↔
      (∀ native ∈ natives, native.InOrder ∧ native.denom ∉ seen) ∧
        (natives.map NativeToken.denom).Nodup := by
  induction natives generalizing seen with
  | nil => simp [nativeFault?]
  | cons native rest ih =>
    rw [nativeFault?_cons_eq_none_iff, ih, List.forall_mem_cons, List.map_cons, List.nodup_cons]
    constructor
    · rintro ⟨inOrder, fresh, others, distinct⟩
      refine ⟨⟨⟨inOrder, fresh⟩, ?_⟩, ?_, distinct⟩
      · intro other member
        obtain ⟨otherInOrder, otherFresh⟩ := others other member
        exact ⟨otherInOrder, fun old => otherFresh (List.mem_cons_of_mem _ old)⟩
      · intro repeated
        obtain ⟨other, member, same⟩ := List.mem_map.mp repeated
        exact (others other member).2 (same ▸ List.mem_cons_self)
    · rintro ⟨⟨⟨inOrder, fresh⟩, others⟩, unrepeated, distinct⟩
      refine ⟨inOrder, fresh, ?_, distinct⟩
      intro other member
      obtain ⟨otherInOrder, otherFresh⟩ := others other member
      refine ⟨otherInOrder, List.not_mem_cons_of_ne_of_not_mem ?_ otherFresh⟩
      intro same
      exact unrepeated (List.mem_map.mpr ⟨other, member, same⟩)

private theorem fault?_eq_none_iff : config.fault? = none ↔ config.InOrder := by
  constructor
  · intro faultless
    unfold fault? at faultless
    split at faultless
    · cases faultless
    next inked =>
      split at faultless
      · cases faultless
      next listed =>
        obtain ⟨natives, distinct⟩ := nativeFault?_eq_none_iff.mp faultless
        exact {
          named := Text.inked_iff.mpr (Bool.eq_false_of_not_eq_true inked)
          listed := fun none => listed (List.isEmpty_iff.mpr none)
          natives := fun native member => (natives native member).1
          distinct := distinct }
  · intro inOrder
    have faultless : nativeFault? [] config.nativeTokens = none :=
      nativeFault?_eq_none_iff.mpr
        ⟨fun native member => ⟨inOrder.natives native member, List.not_mem_nil⟩, inOrder.distinct⟩
    unfold fault?
    rw [if_neg (by simp [Text.inked_iff.mp inOrder.named]), if_neg (by simp [inOrder.listed])]
    exact faultless

/-- A config passes its check if and only if it is in order. -/
theorem check_eq_ok_iff : config.check = .ok () ↔ config.InOrder := by
  rw [← fault?_eq_none_iff, check]
  cases config.fault? <;> simp

private theorem check_cases (config : ChainConfig) :
    config.check = .ok () ∨ ∃ fault, config.check = .error (.invalidConfig fault) := by
  unfold check
  split
  next fault _ => exact .inr ⟨fault, rfl⟩
  next => exact .inl rfl

end ChainConfig

instance : LawfulForm Places where
  ofJson?_arrange arranges reading places := by
    simp [toJson, ofJson?, arranges.natural, Unsigned.widen]

instance : BoundedForm Places 0 := ⟨fun _ => ⟨trivial, Nat.le_refl 0⟩⟩

instance : LawfulForm NativeToken where
  ofJson?_arrange arranges reading native := by
    apply arranges.read_record rfl (by simp)
    intro fields read found
    simp only [List.map_cons, List.map_nil, List.forall_mem_cons] at read found
    simp only [ofJson?, read]
    simp [found, field?, ofJson?_arrange arranges]

instance : BoundedForm NativeToken 1 where
  fits_toJson native := Json.fits_obj (by simp [fits_of_le])

instance : LawfulForm ChainConfig where
  ofJson?_arrange arranges reading config := by
    apply arranges.read_record rfl (by simp)
    intro fields read found
    simp only [List.map_cons, List.map_nil, List.forall_mem_cons] at read found
    simp only [ofJson?, read]
    simp [found, field?, ofJson?_arrange arranges]

instance : BoundedForm ChainConfig 3 where
  fits_toJson config := Json.fits_obj (by simp [fits_of_le])

namespace ChainConfig

/-- The payload of a config loads as the config, once it is checked. -/
theorem load_payloadOf (complaint : Payload → String) (config : ChainConfig) :
    load complaint (payloadOf config) = config.check.map fun _ => config := by
  have read : ofPayload? (payloadOf config) = some config :=
    ofPayload?_payloadOf (by decide) rfl config
  rw [load, read]
  change (config.check >>= fun _ => .ok config) = _
  cases config.check <;> rfl

/-- Every config can be saved; it loads as itself if it passes its check, and else as the fault that
the check finds. -/
theorem saved_config_reloads (complaint : Payload → String) (config : ChainConfig) :
    ∃ text, (toJson config).contractText? = some text ∧
      ((config.check = .ok () ∧ load complaint (.ofText text) = .ok config) ∨
        ∃ fault, config.check = .error (.invalidConfig fault) ∧
          load complaint (.ofText text) = .error (.invalidConfig fault)) := by
  refine ⟨_, contractText?_toJson config, ?_⟩
  have loaded : load complaint (.ofText (toJson config).contractText) =
      config.check.map fun _ => config := load_payloadOf complaint config
  rw [loaded]
  rcases check_cases config with passed | ⟨fault, failed⟩
  · rw [passed]
    exact .inl ⟨rfl, rfl⟩
  · rw [failed]
    exact .inr ⟨fault, rfl, rfl⟩

end ChainConfig

end Proposal
