import Mathlib.Tactic
import Proposal.Message.Chain
import Proposal.Proofs.Json.Form

namespace Proposal

namespace Json

mutual

/-- What is in normal form already is left as it is. -/
theorem IsNormal.normal_eq : (json : Json) → json.IsNormal → json.normal = json
  | .null, _ => rfl
  | .bool _, _ => rfl
  | .num _, normal => congrArg Json.num (Number.IsNormal.normal_eq normal)
  | .str _, _ => rfl
  | .arr items, normal => congrArg Json.arr (ItemsNormal.normalItems_eq items normal)
  | .obj members, normal => by
    rw [Json.normal, MembersNormal.normalMembers_eq members normal.2, normal.1.ofList_eq]

private theorem ItemsNormal.normalItems_eq :
    (items : List Json) → ItemsNormal items → normalItems items = items
  | [], _ => rfl
  | item :: rest, normal => by
    rw [normalItems, IsNormal.normal_eq item normal.1, ItemsNormal.normalItems_eq rest normal.2]

private theorem MembersNormal.normalMembers_eq :
    (members : List (String × Json)) → MembersNormal members → normalMembers members = members
  | [], _ => rfl
  | (_, body) :: rest, normal => by
    rw [normalMembers, IsNormal.normal_eq body normal.1,
      MembersNormal.normalMembers_eq rest normal.2]

end

mutual

/-- In a document in normal form a zero has no sign, so that all numbers are plain integers if none
has a fraction. -/
theorem IsNormal.isPlain : (json : Json) → json.IsNormal → json.hasFloat = false → json.IsPlain
  | .null, _, _ => trivial
  | .bool _, _, _ => trivial
  | .num (.natural _), _, _ => trivial
  | .num (.negative _ _), normal, _ => normal
  | .num (.float _), _, whole => absurd whole.symm Bool.false_ne_true
  | .str _, _, _ => trivial
  | .arr items, normal, whole => ItemsNormal.itemsPlain items normal whole
  | .obj members, normal, whole => MembersNormal.membersPlain members normal.2 whole

private theorem ItemsNormal.itemsPlain :
    (items : List Json) → ItemsNormal items → itemsHaveFloat items = false → ItemsPlain items
  | [], _, _ => trivial
  | item :: rest, normal, whole => by
    rw [itemsHaveFloat, Bool.or_eq_false_iff] at whole
    exact ⟨IsNormal.isPlain item normal.1 whole.1, ItemsNormal.itemsPlain rest normal.2 whole.2⟩

private theorem MembersNormal.membersPlain :
    (members : List (String × Json)) → MembersNormal members → membersHaveFloat members = false →
      MembersPlain members
  | [], _, _ => trivial
  | (_, body) :: rest, normal, whole => by
    rw [membersHaveFloat, Bool.or_eq_false_iff] at whole
    exact ⟨IsNormal.isPlain body normal.1 whole.1,
      MembersNormal.membersPlain rest normal.2 whole.2⟩

end

end Json

namespace Value

/-- A value without fractions, with at most so many arrays and objects inside one another. -/
structure Within (bound : Nat) (value : Value) : Prop where
  whole : value.json.hasFloat = false
  shallow : value.json.depth ≤ bound

variable {value left right : Value} {bound : Nat}

theorem Within.fits (within : value.Within bound) : value.json.Fits bound :=
  ⟨Json.IsNormal.isPlain value.json value.normal within.whole, within.shallow⟩

private theorem ofJson_json (value : Value) : ofJson value.json = value := by
  obtain ⟨json, normal⟩ := value
  simp only [ofJson, Json.IsNormal.normal_eq json normal]

private theorem ofPayload?_payload (within : value.Within 127) :
    ofPayload? value.payload = some value := by
  have read := within.fits.ofPayload?_print .document .lower
  rw [ofPayload?, payload, text, read, Option.map_some, ofJson_json]

private theorem eq_of_payload (leftWithin : left.Within 127) (rightWithin : right.Within 127)
    (same : left.payload = right.payload) : left = right := by
  have read := ofPayload?_payload leftWithin
  rw [same, ofPayload?_payload rightWithin] at read
  exact (Option.some.inj read).symm

end Value

/-- What a message tells a contract. -/
def WasmMessage.body : WasmMessage → Value
  | .execute _ _ body => body
  | .instantiate _ _ _ body _ => body
  | .migrate _ _ body => body

/-- The payload that the chain hands to a contract. -/
def ChainMessage.payload? : ChainMessage → Option Payload
  | .execute _ payload _ => some payload
  | .instantiate _ _ payload _ _ => some payload
  | .migrate _ _ payload => some payload
  | .bankSend .. => none
  | .stargate .. => none

/-- The chain's form of a message to a contract exists, and this is the payload in it. -/
def WasmMessage.Carries (message : WasmMessage) (payload : Payload) : Prop :=
  ∃ sent, (∀ complaint, ChainMessage.ofMessage complaint (.wasm message) = .ok sent) ∧
    sent.payload? = some payload

private theorem WasmMessage.carries_body (message : WasmMessage) :
    message.Carries message.body.payload := by
  cases message with
  | execute contract funds body => exact ⟨_, fun _ => rfl, rfl⟩
  | instantiate admin codeId label body funds => exact ⟨_, fun _ => rfl, rfl⟩
  | migrate contract codeId body => exact ⟨_, fun _ => rfl, rfl⟩

/-- Values without fractions are read back from their payloads, so that different ones are carried
by different payloads. -/
theorem Value.payloads_tell_values_apart :
    (∀ value : Value, value.Within 127 → ofPayload? value.payload = some value) ∧
    ∀ left right : WasmMessage, left.body.Within 127 → right.body.Within 127 →
      left.body ≠ right.body →
      ∃ payload other, left.Carries payload ∧ right.Carries other ∧ payload ≠ other := by
  refine ⟨fun value within => ofPayload?_payload within, ?_⟩
  intro left right leftWithin rightWithin different
  refine ⟨_, _, left.carries_body, right.carries_body, ?_⟩
  intro same
  exact different (eq_of_payload leftWithin rightWithin same)

/-- The extreme integers, an empty array and an empty object, under keys with quotes, escapes and
several scripts. -/
def Value.strange : Value :=
  .ofJson (.obj [
    ("say \"\\", .arr [.num (.negative (Nat.pow 2 63) (Nat.le_refl _)), .num (.natural .max)]),
    ("\x01\x7f", .obj [("naïve", .arr []), ("日本", .obj [])]),
    ("", .str "\x0a😀\"")])

/-- It comes back from its payload, and a number and its numeral go to a contract as different
payloads. -/
theorem Value.payloads_tell_values_apart_strange :
    ofPayload? strange.payload = some strange ∧
    let number : Value := .ofJson (.num (.natural .max))
    let numeral : Value := .ofJson (.str (Unsigned.text (.max : Count)))
    ∃ payload other, (WasmMessage.execute "hub" [] number).Carries payload ∧
      (WasmMessage.migrate "hub" .max numeral).Carries other ∧ payload ≠ other := by
  obtain ⟨restored, apart⟩ := payloads_tell_values_apart
  constructor
  · exact restored strange ⟨by decide +kernel, by decide +kernel⟩
  · apply apart
    · exact ⟨rfl, Nat.zero_le 127⟩
    · exact ⟨rfl, Nat.zero_le 127⟩
    · intro same
      cases congrArg Value.json same

end Proposal
