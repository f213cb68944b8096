import Mathlib.Tactic
import Proposal.Proofs.Json.Arrangement
import Proposal.Proofs.Json.RoundTrip
import Proposal.Proofs.Payload
import Proposal.Time

namespace Proposal

private theorem Unsigned.read?_text {bits : Nat} (number : Unsigned bits) :
    read? bits number.text.toList = some number := by
  have unsigned : Numeral.readSigned? number.write = Numeral.read? number.write := by
    unfold Numeral.readSigned?
    split
    next digits plus =>
      have member : '+' ∈ Numeral.write number.val := by
        rw [← Unsigned.write, plus]
        exact List.mem_cons_self ..
      exact absurd (Numeral.isDigit_of_mem_write member) (by decide)
    next => rfl
  rw [read?, text, String.toList_ofList, unsigned, write, Numeral.read?_write, Option.bind_some,
    ofNat?_val]

/-- Data that reads back from its JSON form, whatever the order of members in it. -/
class LawfulForm (α : Type) [JsonForm α] : Prop where
  ofJson?_arrange {arrange : Json → Json} (arranges : Json.Arranges arrange) (reading : Reading)
    (value : α) : ofJson? reading (arrange (toJson value)) = some value

export LawfulForm (ofJson?_arrange)

/-- Data whose JSON form is never null. -/
class SolidForm (α : Type) [JsonForm α] : Prop where
  ofJson?_null (reading : Reading) : (ofJson? reading .null : Option α) = none

/-- A document that every reader takes that goes so deep. -/
def Json.Fits (bound : Nat) (json : Json) : Prop := json.IsPlain ∧ json.depth ≤ bound

/-- Data whose JSON form holds integers only and nests at most so many arrays and objects. -/
class BoundedForm (α : Type) [JsonForm α] (bound : outParam Nat) : Prop where
  fits_toJson (value : α) : (toJson value).Fits bound

namespace Json

private theorem Fits.mono {bound larger : Nat} {json : Json} (fits : json.Fits bound)
    (le : bound ≤ larger) : json.Fits larger :=
  ⟨fits.1, fits.2.trans le⟩

theorem fits_str (bound : Nat) (text : String) : (Json.str text).Fits bound := by
  simp [Fits, IsPlain, depth]

private theorem fits_arr {bound : Nat} {items : List Json}
    (fits : ∀ item ∈ items, item.Fits bound) :
    (Json.arr items).Fits (bound + 1) := by
  refine ⟨itemsPlain_iff.mpr fun item member => (fits item member).1, ?_⟩
  rw [depth]
  exact Nat.succ_le_succ (itemsDepth_le_iff.mpr fun item member => (fits item member).2)

theorem fits_obj {bound : Nat} {members : List (String × Json)}
    (fits : ∀ member ∈ members, member.2.Fits bound) : (Json.obj members).Fits (bound + 1) := by
  refine ⟨membersPlain_iff.mpr fun member present => (fits member present).1, ?_⟩
  rw [depth]
  exact Nat.succ_le_succ (membersDepth_le_iff.mpr fun member present => (fits member present).2)

theorem Fits.items {bound : Nat} {items : List Json} (fits : (Json.arr items).Fits bound) :
    ∃ inner, bound = inner + 1 ∧ ∀ item ∈ items, item.Fits inner := by
  obtain ⟨plain, nested⟩ := fits
  rw [depth] at nested
  obtain ⟨inner, rfl⟩ : ∃ inner, bound = inner + 1 := ⟨bound - 1, by omega⟩
  have shallow := itemsDepth_le_iff.mp (Nat.le_of_succ_le_succ nested)
  exact ⟨inner, rfl, fun item member => ⟨itemsPlain_iff.mp plain item member, shallow item member⟩⟩

theorem Fits.members {bound : Nat} {members : List (String × Json)}
    (fits : (Json.obj members).Fits bound) :
    ∃ inner, bound = inner + 1 ∧ ∀ member ∈ members, member.2.Fits inner := by
  obtain ⟨plain, nested⟩ := fits
  rw [depth] at nested
  obtain ⟨inner, rfl⟩ : ∃ inner, bound = inner + 1 := ⟨bound - 1, by omega⟩
  have shallow := membersDepth_le_iff.mp (Nat.le_of_succ_le_succ nested)
  exact ⟨inner, rfl, fun member present =>
    ⟨membersPlain_iff.mp plain member present, shallow member present⟩⟩

mutual

/-- Putting members in key order makes no document deeper. -/
theorem Fits.normal {bound : Nat} : (json : Json) → json.Fits bound → json.normal.Fits bound
  | .null, fits => fits
  | .bool _, fits => fits
  | .num (.natural _), fits => fits
  | .num (.negative _ _), fits => by rwa [Json.normal, Number.normal, if_neg fits.1]
  | .num (.float _), fits => fits
  | .str _, fits => fits
  | .arr items, fits => by
    obtain ⟨inner, rfl, inside⟩ := fits.items
    exact fits_arr (fits_normalItems items inside)
  | .obj members, fits => by
    obtain ⟨inner, rfl, inside⟩ := fits.members
    exact fits_obj fun member present =>
      fits_normalMembers members inside member (SortedList.mem_ofList present)

private theorem fits_normalItems {bound : Nat} :
    (items : List Json) → (∀ item ∈ items, item.Fits bound) →
      ∀ item ∈ normalItems items, item.Fits bound
  | [], _, _, present => nomatch present
  | head :: rest, fits, item, present => by
    obtain ⟨first, others⟩ := List.forall_mem_cons.mp fits
    rcases List.mem_cons.mp present with same | later
    · exact same ▸ first.normal
    · exact fits_normalItems rest others item later

private theorem fits_normalMembers {bound : Nat} :
    (members : List (String × Json)) → (∀ member ∈ members, member.2.Fits bound) →
      ∀ member ∈ normalMembers members, member.2.Fits bound
  | [], _, _, present => nomatch present
  | (key, body) :: rest, fits, member, present => by
    obtain ⟨first, others⟩ := List.forall_mem_cons.mp fits
    rcases List.mem_cons.mp present with same | later
    · exact same ▸ first.normal
    · exact fits_normalMembers rest others member later

end

/-- A document is read back from its text, whichever case its escapes have. -/
theorem Fits.ofPayload?_print (grammar : Grammar) {json : Json} (fits : json.Fits grammar.depth)
    (hex : HexCase) :
    ofPayload? grammar .all (.ofText (String.ofList (json.print hex))) = some json := by
  rw [ofPayload?, Payload.text?_ofText]
  exact read?_print fits.1 fits.2

end Json

theorem fits_of_le {α : Type} [JsonForm α] {bound : Nat} [BoundedForm α bound] {larger : Nat}
    (le : bound ≤ larger) (value : α) : (toJson value).Fits larger :=
  (BoundedForm.fits_toJson value).mono le

section Values

open Json

instance : LawfulForm Bool where
  ofJson?_arrange arranges reading value := by simp [toJson, ofJson?, arranges.bool]

instance : LawfulForm String where
  ofJson?_arrange arranges reading text := by simp [toJson, ofJson?, arranges.str]

instance : LawfulForm Count where
  ofJson?_arrange arranges reading count := by simp [toJson, ofJson?, arranges.natural]

instance : LawfulForm BaseAmount where
  ofJson?_arrange arranges reading amount := by
    simp [toJson, ofJson?, arranges.str, Unsigned.read?_text]

instance : LawfulForm Timestamp where
  ofJson?_arrange arranges reading time := by
    simp [toJson, ofJson?, arranges.str, Unsigned.read?_text]

instance : LawfulForm Payload where
  ofJson?_arrange arranges reading payload := by
    simp [toJson, ofJson?, arranges.str, Payload.ofBase64?_base64]

instance : SolidForm String := ⟨fun _ => rfl⟩

instance : SolidForm Timestamp := ⟨fun _ => rfl⟩

variable {α β : Type} [JsonForm α] [JsonForm β]

instance [LawfulForm α] [SolidForm α] : LawfulForm (Option α) where
  ofJson?_arrange {arrange} arranges reading value := by
    cases value with
    | none => simp [toJson, ofJson?, arranges.null]
    | some value =>
      have read := ofJson?_arrange arranges reading value
      change ofJson? reading (arrange (toJson value)) = _
      generalize arrange (toJson value) = json at read
      cases json with
      | null => rw [SolidForm.ofJson?_null] at read; cases read
      | _ => simp [ofJson?, read]

instance [LawfulForm α] : LawfulForm (List α) where
  ofJson?_arrange {arrange} arranges reading values := by
    have read : (values.map (arrange ∘ toJson)).mapM (ofJson? reading) = some values := by
      induction values with
      | nil => rfl
      | cons value rest ih => simp [ofJson?_arrange arranges reading value, ih]
    change ofJson? reading (arrange (.arr (values.map toJson))) = _
    rw [arranges.arr, List.map_map]
    exact read

instance [LawfulForm α] [LawfulForm β] : LawfulForm (α × β) where
  ofJson?_arrange {arrange} arranges reading pair := by
    have left := ofJson?_arrange arranges reading pair.1
    have right := ofJson?_arrange arranges reading pair.2
    change ofJson? reading (arrange (.arr [toJson pair.1, toJson pair.2])) = _
    rw [arranges.arr]
    simp only [ofJson?] at left right ⊢
    simp [left, right]

instance : BoundedForm Bool 0 := ⟨fun _ => ⟨trivial, Nat.le_refl 0⟩⟩

instance : BoundedForm String 0 := ⟨fits_str 0⟩

instance : BoundedForm Count 0 := ⟨fun _ => ⟨trivial, Nat.le_refl 0⟩⟩

instance : BoundedForm BaseAmount 0 := ⟨fun amount => fits_str 0 amount.text⟩

instance : BoundedForm Timestamp 0 := ⟨fun time => fits_str 0 time.nanos.text⟩

instance : BoundedForm Payload 0 := ⟨fun payload => fits_str 0 payload.base64⟩

variable {bound other : Nat}

instance [BoundedForm α bound] : BoundedForm (Option α) bound where
  fits_toJson
    | none => ⟨trivial, Nat.zero_le bound⟩
    | some value => BoundedForm.fits_toJson value

instance [BoundedForm α bound] : BoundedForm (List α) (bound + 1) where
  fits_toJson values := by
    apply fits_arr
    intro item member
    obtain ⟨value, _, rfl⟩ := List.mem_map.mp member
    exact BoundedForm.fits_toJson value

instance [BoundedForm α bound] [BoundedForm β other] :
    BoundedForm (α × β) (max bound other + 1) where
  fits_toJson pair := by
    refine fits_arr ?_
    simp [fits_of_le]

end Values

namespace Json.Arranges

variable {arrange : Json → Json} {α : Type} [JsonForm α] {data : α}

/-- Data that is an alternative with fields reads back if its name and its fields, each arranged,
read as the data. -/
theorem read_alternative (arranges : Arranges arrange) {reading : Reading} {name : String}
    {members : List (String × Json)} (shape : toJson data = .obj [(name, .obj members)])
    (distinct : (members.map Prod.fst).Nodup)
    (reads : ∀ body fields, (arrange (toJson data)).choice? = some (name, some body) →
      body.alternative? reading (members.map Prod.fst) = some fields →
      (∀ member ∈ members, fields.lookup member.1 = some (arrange member.2)) →
      ofJson? reading (arrange (toJson data)) = some data) :
    ofJson? reading (arrange (toJson data)) = some data := by
  obtain ⟨fields, read, found⟩ := arranges.fields? reading.alternativesFromArrays distinct
  exact reads _ fields (by rw [shape, arranges.single]; rfl) read found

/-- Data that is a record reads back if its fields, each arranged, read as the data. -/
theorem read_record (arranges : Arranges arrange) {reading : Reading}
    {members : List (String × Json)} (shape : toJson data = .obj members)
    (distinct : (members.map Prod.fst).Nodup)
    (reads : ∀ fields,
      (arrange (toJson data)).record? reading (members.map Prod.fst) = some fields →
      (∀ member ∈ members, fields.lookup member.1 = some (arrange member.2)) →
      ofJson? reading (arrange (toJson data)) = some data) :
    ofJson? reading (arrange (toJson data)) = some data := by
  obtain ⟨fields, read, found⟩ := arranges.fields? reading.recordsFromArrays distinct
  exact reads fields (by rw [shape]; exact read) found

/-- The form of an alternative with one unnamed field. -/
theorem choice? (arranges : Arranges arrange) {json body : Json} {name : String}
    (shape : json = .obj [(name, body)]) :
    (arrange json).choice? = some (name, some (arrange body)) := by
  rw [shape, arranges.single]
  rfl

end Json.Arranges

theorem Value.as?_valueOf {α : Type} [JsonForm α] [LawfulForm α] (data : α) :
    (valueOf data).as? = some data :=
  ofJson?_arrange Json.arranges_normal .value data

/-- A free-form value is the JSON form of an alternative if it has the name and the fields of it. -/
theorem Value.eq_valueOf {α : Type} [JsonForm α] {data : α} {value : Value} {name : String}
    {body : Json} {members fields : List (String × Json)}
    (shape : toJson data = .obj [(name, .obj members)]) (distinct : (members.map Prod.fst).Nodup)
    (chosen : value.json.choice? = some (name, some body))
    (read : body.alternative? .value (members.map Prod.fst) = some fields)
    (found : ∀ member ∈ members, fields.lookup member.1 = some member.2.normal) :
    value = valueOf data := by
  obtain ⟨json, normal⟩ := value
  obtain rfl : json = .obj [(name, body)] := Json.choice?_eq_some_iff.mp chosen
  obtain ⟨again, readAgain, arranged⟩ := Json.arranges_normal.fields? false distinct
  have bodies : body = (Json.obj members).normal := by
    refine Json.eq_of_fields? normal.2.1 (Json.isNormal_normal _) read readAgain ?_
    intro name member
    obtain ⟨field, present, rfl⟩ := List.mem_map.mp member
    rw [found field present, arranged field present]
  subst bodies
  simp only [valueOf, ofJson, shape, Json.arranges_normal.single]

/-- A text is read off a field that holds just this text. -/
theorem lookup_of_field?_text {reading : Reading} {fields : List (String × Json)}
    {name text : String} (read : field? reading fields name = some text) :
    fields.lookup name = some (.str text) := by
  obtain ⟨json, found, read⟩ := Option.bind_eq_some_iff.mp read
  cases json with
  | str text => cases read; exact found
  | _ => cases read

/-- Data without fractions can be written for contracts. -/
theorem contractText?_toJson {α : Type} [JsonForm α] {bound : Nat} [BoundedForm α bound]
    (data : α) : (toJson data).contractText? = some (toJson data).contractText := by
  have fits : (toJson data).Fits bound := BoundedForm.fits_toJson data
  rw [Json.contractText?, Json.IsPlain.hasFloat_eq _ fits.1, if_neg Bool.false_ne_true]

/-- A payload reads as the data it was made of, strings with any characters included. -/
theorem ofPayload?_payloadOf {α : Type} [JsonForm α] [LawfulForm α] {bound : Nat}
    [BoundedForm α bound] (within : bound ≤ 127) (whole : JsonForm.extent α = .all) (data : α) :
    ofPayload? (payloadOf data) = some data := by
  have read := (fits_of_le within data).ofPayload?_print .contract .upper
  rw [ofPayload?, payloadOf, Json.payload, Json.contractText, whole, read]
  exact ofJson?_arrange Json.arranges_id .contract data

/-- The payload of a free-form value reads as the data that the value was made of. -/
theorem ofPayload?_valueOf {α : Type} [JsonForm α] [LawfulForm α] {bound : Nat}
    [BoundedForm α bound] (within : bound ≤ 127) (whole : JsonForm.extent α = .all) (data : α) :
    ofPayload? (valueOf data).payload = some data := by
  have read := (fits_of_le within data).normal.ofPayload?_print .contract .lower
  rw [ofPayload?, valueOf, Value.payload, Value.text, Value.ofJson, whole, read]
  exact ofJson?_arrange Json.arranges_normal .contract data

end Proposal
