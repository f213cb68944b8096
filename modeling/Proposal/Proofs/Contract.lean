import Mathlib.Tactic
import Proposal.Contract.Cw20
import Proposal.Contract.Dao
import Proposal.Contract.Vesting
import Proposal.Proofs.Json.Form

/-! What contracts are told survives its JSON form, and tells itself from what other contracts are
told by its name. -/
namespace Proposal

open Json

/-- A choice whose JSON form names the alternative. -/
class NamedForm (α : Type) [JsonForm α] where
  verb : α → String
  choice?_of_ofJson? {reading : Reading} {json : Json} {data : α} :
    ofJson? reading json = some data → ∃ body, json.choice? = some (verb data, body)

/-- A choice of which no alternative is told by its name alone. -/
class BodiedForm (α : Type) [JsonForm α] : Prop where
  ofJson?_str (reading : Reading) (name : String) :
    (ofJson? reading (.str name) : Option α) = none

theorem Json.isObject_of_ofJson? {α : Type} [JsonForm α] [NamedForm α] [BodiedForm α]
    {reading : Reading} {json : Json} {data : α} (read : ofJson? reading json = some data) :
    json.isObject = true := by
  obtain ⟨body, chosen⟩ := NamedForm.choice?_of_ofJson? read
  unfold choice? at chosen
  split at chosen
  next name =>
    rw [BodiedForm.ofJson?_str] at read
    cases read
  next => rfl
  next => cases chosen

/-- Of data that is read off a choice by its name, the name is known. -/
theorem Json.choice?_of_bind {α : Type} {json : Json} {name : String}
    {read : String × Option Json → Option α} {data : α}
    (found : json.choice?.bind read = some data)
    (named : ∀ choice, read choice = some data → choice.1 = name) :
    ∃ body, json.choice? = some (name, body) := by
  obtain ⟨choice, chosen, reads⟩ := Option.bind_eq_some_iff.mp found
  exact ⟨choice.2, by rw [chosen, ← named choice reads]⟩

namespace Cw20

instance : SolidForm Expiration := ⟨fun _ => rfl⟩

instance : LawfulForm Expiration where
  ofJson?_arrange {arrange} arranges reading expiration := by
    cases expiration with
    | atHeight height =>
      have chosen := arranges.choice?
        (rfl : toJson (Expiration.atHeight height) = .obj [("at_height", toJson height)])
      have read := ofJson?_arrange arranges reading height
      simp only [ofJson?] at read ⊢
      simp [chosen, read]
    | atTime time =>
      have chosen := arranges.choice?
        (rfl : toJson (Expiration.atTime time) = .obj [("at_time", toJson time)])
      have read := ofJson?_arrange arranges reading time
      simp only [ofJson?] at read ⊢
      simp [chosen, read]
    | never =>
      apply arranges.read_alternative rfl (by simp)
      intro body fields chosen read _
      simp only [List.map_nil] at read
      simp [ofJson?, chosen, read]

instance : BoundedForm Expiration 2 where
  fits_toJson expiration := by
    cases expiration
    all_goals exact fits_obj (by simp [fits_obj, fits_of_le])

instance : LawfulForm Logo where
  ofJson?_arrange {arrange} arranges reading logo := by
    have embedded {picture : Payload} {kind : String} :
        (arrange (.obj [("embedded", .obj [(kind, toJson picture)])])).choice? =
          some ("embedded", some (.obj [(kind, arrange (toJson picture))])) := by
      rw [arranges.single, arranges.single]
      rfl
    cases logo with
    | url address =>
      have chosen := arranges.choice?
        (rfl : toJson (Logo.url address) = .obj [("url", toJson address)])
      have read := ofJson?_arrange arranges reading address
      simp only [ofJson?] at read ⊢
      simp [chosen, read]
    | svg picture =>
      have read := ofJson?_arrange arranges reading picture
      simp only [ofJson?] at read ⊢
      have shape : toJson (Logo.svg picture) =
        .obj [("embedded", .obj [("svg", toJson picture)])] := rfl
      rw [shape, embedded]
      simp [Json.choice?, read]
    | png picture =>
      have read := ofJson?_arrange arranges reading picture
      simp only [ofJson?] at read ⊢
      have shape : toJson (Logo.png picture) =
        .obj [("embedded", .obj [("png", toJson picture)])] := rfl
      rw [shape, embedded]
      simp [Json.choice?, read]

instance : BoundedForm Logo 2 where
  fits_toJson logo := by
    cases logo
    all_goals exact fits_obj (by simp [fits_obj, fits_of_le])

instance : LawfulForm Execute where
  ofJson?_arrange {arrange} arranges reading told := by
    cases told
    case uploadLogo logo =>
      have chosen := arranges.choice?
        (rfl : toJson (Execute.uploadLogo logo) = .obj [("upload_logo", toJson logo)])
      have read := ofJson?_arrange arranges reading logo
      simp only [ofJson?, Option.bind_eq_bind] at read ⊢
      simp only [chosen, Option.bind_some, read]
      rfl
    all_goals
      apply arranges.read_alternative rfl (by simp)
      intro body fields chosen read found
      simp only [List.map_cons, List.map_nil, List.forall_mem_cons] at read found
      simp only [ofJson?, chosen]
      simp [read, found, field?, optionalField?, ofJson?_arrange arranges]

instance : BoundedForm Execute 4 where
  fits_toJson told := by
    cases told
    all_goals exact fits_obj (by simp [fits_obj, fits_of_le])

/-- The name of the alternative. -/
def Execute.verb : Execute → String
  | .transfer .. => "transfer"
  | .burn .. => "burn"
  | .send .. => "send"
  | .increaseAllowance .. => "increase_allowance"
  | .decreaseAllowance .. => "decrease_allowance"
  | .transferFrom .. => "transfer_from"
  | .sendFrom .. => "send_from"
  | .burnFrom .. => "burn_from"
  | .mint .. => "mint"
  | .updateMinter .. => "update_minter"
  | .updateMarketing .. => "update_marketing"
  | .uploadLogo .. => "upload_logo"

instance : NamedForm Execute where
  verb := Execute.verb
  choice?_of_ofJson? found := by
    apply Json.choice?_of_bind found
    intro choice read
    -- Each branch returns the alternative that the name of the choice stands for.
    split at read
    all_goals
      simp only [Option.bind_eq_bind, Option.bind_eq_some_iff, Option.pure_def, Option.some.injEq,
        reduceCtorEq] at read
    all_goals grind [Execute.verb]

instance : BodiedForm Execute where
  ofJson?_str reading name := by simp [ofJson?, Json.choice?]

/-- What token contracts can be told. -/
def Execute.verbs : List String :=
  ["transfer", "burn", "send", "increase_allowance", "decrease_allowance", "transfer_from",
    "send_from", "burn_from", "mint", "update_minter", "update_marketing", "upload_logo"]

theorem Execute.verb_mem_verbs (told : Execute) : told.verb ∈ verbs := by
  cases told <;> simp [verb, verbs]

end Cw20

/-- What other contracts are told, in words that token contracts do not know. -/
class ForeignForm (α : Type) [JsonForm α] [NamedForm α] : Prop where
  verb_notMem (data : α) : NamedForm.verb data ∉ Cw20.Execute.verbs

theorem ForeignForm.verb_ne_send {α : Type} [JsonForm α] [NamedForm α] [ForeignForm α] (data : α) :
    NamedForm.verb data ≠ "send" := by
  intro same
  apply verb_notMem data
  simp [same, Cw20.Execute.verbs]

namespace DaoCore

instance : LawfulForm Execute where
  ofJson?_arrange arranges reading told := by
    cases told
    all_goals
      apply arranges.read_alternative rfl (by simp)
      intro body fields chosen read found
      simp only [List.map_cons, List.map_nil, List.forall_mem_cons] at read found
      simp only [ofJson?, chosen]
      simp [read, found, field?, ofJson?_arrange arranges]

instance : BoundedForm Execute 2 where
  fits_toJson told := by
    cases told
    all_goals exact fits_obj (by simp [fits_obj, fits_of_le])

instance : NamedForm Execute where
  verb
    | .setItem .. => "set_item"
    | .removeItem .. => "remove_item"
  choice?_of_ofJson? found := by
    apply Json.choice?_of_bind found
    intro choice read
    split at read
    all_goals
      simp only [Option.bind_eq_bind, Option.bind_eq_some_iff, Option.pure_def, Option.some.injEq,
        reduceCtorEq] at read
    all_goals grind

instance : BodiedForm Execute where
  ofJson?_str reading name := by simp [ofJson?, Json.choice?]

instance : ForeignForm Execute where
  verb_notMem told := by cases told <;> simp [NamedForm.verb, Cw20.Execute.verbs]

/-- There is one way of writing what the core contract is told as a free-form value. -/
theorem Execute.eq_valueOf {value : Value} {told : Execute} (read : value.as? = some told) :
    value = valueOf told := by
  obtain ⟨choice, chosen, reads⟩ := Option.bind_eq_some_iff.mp read
  split at reads
  next body =>
    obtain ⟨fields, members, reads⟩ := Option.bind_eq_some_iff.mp reads
    obtain ⟨key, keyRead, reads⟩ := Option.bind_eq_some_iff.mp reads
    obtain ⟨item, itemRead, same⟩ := Option.bind_eq_some_iff.mp reads
    cases same
    refine Value.eq_valueOf rfl (by simp) chosen members ?_
    simp [lookup_of_field?_text keyRead, lookup_of_field?_text itemRead, normal, toJson]
  next body =>
    obtain ⟨fields, members, reads⟩ := Option.bind_eq_some_iff.mp reads
    obtain ⟨key, keyRead, same⟩ := Option.bind_eq_some_iff.mp reads
    cases same
    refine Value.eq_valueOf rfl (by simp) chosen members ?_
    simp [lookup_of_field?_text keyRead, normal, toJson]
  next => cases reads

end DaoCore

namespace Staking

instance : LawfulForm Execute where
  ofJson?_arrange arranges reading told := by
    cases told
    apply arranges.read_alternative rfl (by simp)
    intro body fields chosen read _
    simp only [List.map_nil] at read
    simp [ofJson?, chosen, read]

instance : BoundedForm Execute 2 where
  fits_toJson
    | .stake => fits_obj (by simp [fits_obj])

instance : LawfulForm Hook where
  ofJson?_arrange arranges reading told := by
    cases told
    apply arranges.read_alternative rfl (by simp)
    intro body fields chosen read _
    simp only [List.map_nil] at read
    simp [ofJson?, chosen, read]

instance : BoundedForm Hook 2 where
  fits_toJson
    | .stake => fits_obj (by simp [fits_obj])

instance : NamedForm Execute where
  verb _ := "stake"
  choice?_of_ofJson? found := by
    apply Json.choice?_of_bind found
    intro choice read
    split at read
    · rfl
    · cases read

instance : BodiedForm Execute where
  ofJson?_str reading name := by simp [ofJson?, Json.choice?]

instance : ForeignForm Execute where
  verb_notMem told := by cases told; simp [NamedForm.verb, Cw20.Execute.verbs]

theorem Execute.eq_valueOf {value : Value} {told : Execute} (read : value.as? = some told) :
    value = valueOf told := by
  obtain ⟨choice, chosen, reads⟩ := Option.bind_eq_some_iff.mp read
  split at reads
  next body =>
    obtain ⟨fields, members, same⟩ := Option.bind_eq_some_iff.mp reads
    cases same
    exact Value.eq_valueOf rfl (by simp) chosen members (by simp)
  next => cases reads

instance : NamedForm Hook where
  verb _ := "stake"
  choice?_of_ofJson? found := by
    apply Json.choice?_of_bind found
    intro choice read
    split at read
    · rfl
    · cases read

end Staking

namespace VestingContract

instance : LawfulForm Execute where
  ofJson?_arrange arranges reading told := by
    cases told
    all_goals
      apply arranges.read_alternative rfl (by simp)
      intro body fields chosen read found
      simp only [List.map_cons, List.map_nil, List.forall_mem_cons] at read found
      simp only [ofJson?, chosen]
      simp [read, found, field?, ofJson?_arrange arranges]

instance : BoundedForm Execute 2 where
  fits_toJson told := by
    cases told
    all_goals exact fits_obj (by simp [fits_obj, fits_of_le])

instance : NamedForm Execute where
  verb
    | .cancel => "cancel"
    | .registerSlash .. => "register_slash"
  choice?_of_ofJson? found := by
    apply Json.choice?_of_bind found
    intro choice read
    split at read
    all_goals
      simp only [Option.bind_eq_bind, Option.bind_eq_some_iff, Option.pure_def, Option.some.injEq,
        reduceCtorEq] at read
    all_goals grind

instance : BodiedForm Execute where
  ofJson?_str reading name := by simp [ofJson?, Json.choice?]

instance : ForeignForm Execute where
  verb_notMem told := by cases told <;> simp [NamedForm.verb, Cw20.Execute.verbs]

/-- Amounts and times can be written in more than one way; a cancellation has none of them. -/
theorem Execute.eq_valueOf_cancel {value : Value} (read : value.as? = some Execute.cancel) :
    value = valueOf Execute.cancel := by
  obtain ⟨choice, chosen, reads⟩ := Option.bind_eq_some_iff.mp read
  split at reads
  next body =>
    obtain ⟨fields, members, _⟩ := Option.bind_eq_some_iff.mp reads
    exact Value.eq_valueOf rfl (by simp) chosen members (by simp)
  next body => simp [Option.bind_eq_some_iff] at reads
  next => cases reads

instance : LawfulForm Denom where
  ofJson?_arrange {arrange} arranges reading denom := by
    cases denom with
    | native denom =>
      have chosen := arranges.choice?
        (rfl : toJson (Denom.native denom) = .obj [("native", toJson denom)])
      have read := ofJson?_arrange arranges reading denom
      simp only [ofJson?] at read ⊢
      simp [chosen, read]
    | cw20 address =>
      have chosen := arranges.choice?
        (rfl : toJson (Denom.cw20 address) = .obj [("cw20", toJson address)])
      have read := ofJson?_arrange arranges reading address
      simp only [ofJson?] at read ⊢
      simp [chosen, read]

instance : BoundedForm Denom 1 where
  fits_toJson denom := by
    cases denom
    all_goals exact fits_obj (by simp [fits_of_le])

instance : LawfulForm Schedule where
  ofJson?_arrange {arrange} arranges reading schedule := by
    cases schedule with
    | saturatingLinear =>
      have shape : toJson Schedule.saturatingLinear = .str "saturating_linear" := rfl
      rw [shape, arranges.str]
      simp [ofJson?, Json.name?]
    | piecewiseLinear points =>
      have read := ofJson?_arrange arranges reading points
      have curve : toJson points = .arr (points.map toJson) := rfl
      have shape : toJson (Schedule.piecewiseLinear points) =
        .obj [("piecewise_linear", .arr (points.map toJson))] := rfl
      rw [curve, arranges.arr] at read
      rw [shape, arranges.single, arranges.arr]
      change (ofJson? reading (.arr ((points.map toJson).map arrange))).bind
        (fun points => some (Schedule.piecewiseLinear points)) = _
      rw [read]
      rfl

instance : BoundedForm Schedule 3 where
  fits_toJson schedule := by
    cases schedule with
    | saturatingLinear => exact fits_str 3 _
    | piecewiseLinear points => exact fits_obj (by simp [fits_of_le])

instance : LawfulForm Instantiate where
  ofJson?_arrange arranges reading message := by
    apply arranges.read_record rfl (by simp)
    intro fields read found
    simp only [List.map_cons, List.map_nil, List.forall_mem_cons] at read found
    simp only [ofJson?, read]
    simp [found, field?, optionalField?, ofJson?_arrange arranges]

instance : BoundedForm Instantiate 4 where
  fits_toJson message := fits_obj (by simp [fits_of_le])

instance : LawfulForm FactoryExecute where
  ofJson?_arrange arranges reading told := by
    cases told
    apply arranges.read_alternative rfl (by simp)
    intro body fields chosen read found
    simp only [List.map_cons, List.map_nil, List.forall_mem_cons] at read found
    simp only [ofJson?, chosen]
    simp [read, found, field?, ofJson?_arrange arranges]

instance : BoundedForm FactoryExecute 6 where
  fits_toJson
    | .instantiateNative message label => fits_obj (by simp [fits_obj, fits_of_le])

instance : LawfulForm FactoryHook where
  ofJson?_arrange arranges reading told := by
    cases told
    apply arranges.read_alternative rfl (by simp)
    intro body fields chosen read found
    simp only [List.map_cons, List.map_nil, List.forall_mem_cons] at read found
    simp only [ofJson?, chosen]
    simp [read, found, field?, ofJson?_arrange arranges]

instance : BoundedForm FactoryHook 6 where
  fits_toJson
    | .instantiate message label => fits_obj (by simp [fits_obj, fits_of_le])

instance : NamedForm FactoryExecute where
  verb _ := "instantiate_native_payroll_contract"
  choice?_of_ofJson? found := by
    apply Json.choice?_of_bind found
    intro choice read
    split at read
    · rfl
    · cases read

instance : BodiedForm FactoryExecute where
  ofJson?_str reading name := by simp [ofJson?, Json.choice?]

instance : ForeignForm FactoryExecute where
  verb_notMem told := by cases told; simp [NamedForm.verb, Cw20.Execute.verbs]

instance : NamedForm FactoryHook where
  verb _ := "instantiate_payroll_contract"
  choice?_of_ofJson? found := by
    apply Json.choice?_of_bind found
    intro choice read
    split at read
    · rfl
    · cases read

end VestingContract

end Proposal
