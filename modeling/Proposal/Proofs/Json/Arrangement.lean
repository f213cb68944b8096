import Mathlib.Tactic
import Proposal.Json.Form

/-! Free-form values have their members in key order, payloads in the order of the fields; typed
data reads the same from both. -/
namespace Proposal

namespace SortedList

variable {κ : Type} {α : Type} [Ord κ]

private theorem insert_perm [Std.LawfulEqOrd κ] {key : κ} {value : α} {entries : List (κ × α)}
    (fresh : key ∉ entries.map Prod.fst) :
    (insert key value entries).Perm ((key, value) :: entries) := by
  induction entries with
  | nil => exact List.Perm.refl _
  | cons head rest ih =>
    rw [List.map_cons, List.mem_cons, not_or] at fresh
    unfold insert
    split
    next less => exact List.Perm.refl _
    next equal => exact absurd (Std.LawfulEqCmp.eq_of_compare equal) fresh.1
    next more => exact ((ih fresh.2).cons head).trans (List.Perm.swap _ _ _)

/-- Putting entries with different keys in order loses none of them. -/
theorem ofList_perm [Std.LawfulEqOrd κ] {entries : List (κ × α)}
    (distinct : (entries.map Prod.fst).Nodup) : (ofList entries).Perm entries := by
  have keeps (rest sorted : List (κ × α)) (distinct : ((rest ++ sorted).map Prod.fst).Nodup) :
      (rest.foldl (fun sorted entry => insert entry.1 entry.2 sorted) sorted).Perm
        (rest ++ sorted) := by
    induction rest generalizing sorted with
    | nil => exact List.Perm.refl _
    | cons entry rest ih =>
      have moved : (rest ++ entry :: sorted).Perm (entry :: rest ++ sorted) := List.perm_middle
      have fresh : entry.1 ∉ sorted.map Prod.fst := by
        rw [List.cons_append, List.map_cons, List.nodup_cons, List.map_append, List.mem_append,
          not_or] at distinct
        exact distinct.1.2
      have inserted : (rest ++ insert entry.1 entry.2 sorted).Perm (entry :: rest ++ sorted) :=
        ((insert_perm fresh).append_left rest).trans moved
      have again := ((inserted.map Prod.fst).nodup_iff).mpr distinct
      exact (ih _ again).trans inserted
  simpa [ofList] using keeps entries [] (by simpa using distinct)

/-- No key comes twice in a list in key order. -/
theorem Ascending.nodup_keys [Std.ReflOrd κ] {entries : List (κ × α)}
    (ascending : Ascending entries) : (entries.map Prod.fst).Nodup := by
  rw [List.Nodup, List.pairwise_map]
  refine List.Pairwise.imp ?_ ascending
  intro left right less same
  have equal : compare right.1 right.1 = .eq := Std.ReflCmp.compare_self
  rw [same, equal] at less
  cases less

/-- A list in key order is left as it is. -/
theorem Ascending.ofList_eq [Std.TransOrd κ] [Std.LawfulEqOrd κ] {entries : List (κ × α)}
    (ascending : Ascending entries) : ofList entries = entries :=
  (ascending_ofList entries).ext ascending fun _ =>
    (ofList_perm ascending.nodup_keys).mem_iff

end SortedList

namespace Json

private theorem lookup_of_mem {fields : List (String × Json)}
    (distinct : (fields.map Prod.fst).Nodup) {name : String} {body : Json}
    (member : (name, body) ∈ fields) :
    fields.lookup name = some body := by
  induction fields with
  | nil => cases member
  | cons head rest ih =>
    rw [List.map_cons, List.nodup_cons] at distinct
    rcases List.mem_cons.mp member with same | later
    · simp [← same]
    · have different : name ≠ head.1 := by
        intro same
        exact distinct.1 (List.mem_map.mpr ⟨(name, body), later, same⟩)
      rw [List.lookup_cons, beq_false_of_ne different]
      exact ih distinct.2 later

private theorem mem_of_lookup {fields : List (String × Json)} {name : String} {body : Json}
    (found : fields.lookup name = some body) : (name, body) ∈ fields := by
  obtain ⟨before, after, split, _⟩ := List.lookup_eq_some_iff.mp found
  simp [split]

theorem choice?_eq_some_iff {json body : Json} {name : String} :
    json.choice? = some (name, some body) ↔ json = .obj [(name, body)] := by
  constructor
  · intro chosen
    unfold choice? at chosen
    split at chosen
    · cases chosen
    · cases chosen
      rfl
    · cases chosen
  · rintro rfl
    rfl

/-- Where arrays are refused, the fields are the members of an object. -/
theorem fields?_false_eq_some_iff {json : Json} {names : List String}
    {fields : List (String × Json)} :
    json.fields? false names = some fields ↔
      json = .obj fields ∧ (∀ member ∈ fields, member.1 ∈ names) ∧
        (fields.map Prod.fst).Nodup := by
  cases json with
  | obj members =>
    simp only [fields?, Option.ite_none_right_eq_some, List.all_eq_true, List.mem_map,
      List.contains_iff_mem, forall_exists_index, and_imp, forall_apply_eq_imp_iff₂,
      Option.some.injEq, obj.injEq]
    constructor
    · rintro ⟨⟨known, distinct⟩, rfl⟩
      exact ⟨rfl, known, distinct⟩
    · rintro ⟨rfl, known, distinct⟩
      exact ⟨⟨known, distinct⟩, rfl⟩
  | _ => simp [fields?]

/-- Objects in normal form are known by their fields. -/
theorem eq_of_fields? {left right : Json} {names : List String}
    {leftFields rightFields : List (String × Json)} (leftNormal : left.IsNormal)
    (rightNormal : right.IsNormal) (leftRead : left.fields? false names = some leftFields)
    (rightRead : right.fields? false names = some rightFields)
    (same : ∀ name ∈ names, leftFields.lookup name = rightFields.lookup name) : left = right := by
  obtain ⟨rfl, leftKnown, leftDistinct⟩ := fields?_false_eq_some_iff.mp leftRead
  obtain ⟨rfl, rightKnown, rightDistinct⟩ := fields?_false_eq_some_iff.mp rightRead
  rw [IsNormal] at leftNormal rightNormal
  have members (member : String × Json) : member ∈ leftFields ↔ member ∈ rightFields := by
    constructor
    · intro present
      have found := lookup_of_mem leftDistinct present
      exact mem_of_lookup ((same _ (leftKnown member present)).symm.trans found)
    · intro present
      have found := lookup_of_mem rightDistinct present
      exact mem_of_lookup ((same _ (rightKnown member present)).trans found)
  exact congrArg obj (leftNormal.1.ext rightNormal.1 members)

/-- A way of writing a document again that changes at most the order of members. -/
structure Arranges (arrange : Json → Json) : Prop where
  null : arrange .null = .null
  bool (value : Bool) : arrange (.bool value) = .bool value
  natural (value : Unsigned 64) : arrange (.num (.natural value)) = .num (.natural value)
  str (text : String) : arrange (.str text) = .str text
  arr (items : List Json) : arrange (.arr items) = .arr (items.map arrange)
  obj {members : List (String × Json)} (distinct : (members.map Prod.fst).Nodup) :
    ∃ arranged, arrange (.obj members) = .obj arranged ∧
      arranged.Perm (members.map fun member => (member.1, arrange member.2))

theorem arranges_id : Arranges id where
  null := rfl
  bool _ := rfl
  natural _ := rfl
  str _ := rfl
  arr items := by simp
  obj _ := ⟨_, rfl, by simp⟩

private theorem normalItems_eq_map (items : List Json) : normalItems items = items.map normal := by
  induction items with
  | nil => rfl
  | cons item rest ih => rw [normalItems, ih, List.map_cons]

private theorem normalMembers_eq_map (members : List (String × Json)) :
    normalMembers members = members.map fun member => (member.1, member.2.normal) := by
  induction members with
  | nil => rfl
  | cons member rest ih => rw [normalMembers, ih, List.map_cons]

theorem arranges_normal : Arranges normal where
  null := by rw [normal]
  bool _ := by rw [normal]
  natural _ := by rw [normal, Number.normal]
  str _ := by rw [normal]
  arr items := by rw [normal, normalItems_eq_map]
  obj {members} distinct := by
    refine ⟨_, by rw [normal], ?_⟩
    rw [normalMembers_eq_map]
    apply SortedList.ofList_perm
    simpa [Function.comp_def] using distinct

variable {arrange : Json → Json}

/-- The fields of an arranged object are its bodies, arranged, under the same names. -/
theorem Arranges.fields? (arranges : Arranges arrange) (fromArrays : Bool)
    {members : List (String × Json)} (distinct : (members.map Prod.fst).Nodup) :
    ∃ fields, (arrange (.obj members)).fields? fromArrays (members.map Prod.fst) = some fields ∧
      ∀ member ∈ members, fields.lookup member.1 = some (arrange member.2) := by
  obtain ⟨arranged, same, perm⟩ := arranges.obj distinct
  have keys : (arranged.map Prod.fst).Perm (members.map Prod.fst) := by
    simpa [Function.comp_def] using perm.map Prod.fst
  have again : (arranged.map Prod.fst).Nodup := keys.nodup_iff.mpr distinct
  refine ⟨arranged, ?_, fun member present => ?_⟩
  · rw [same, Json.fields?, if_pos]
    refine ⟨?_, again⟩
    rw [List.all_eq_true]
    intro key present
    simpa using keys.mem_iff.mp present
  · exact lookup_of_mem again (perm.mem_iff.mpr (List.mem_map_of_mem present))

theorem Arranges.single (arranges : Arranges arrange) (name : String) (body : Json) :
    arrange (.obj [(name, body)]) = .obj [(name, arrange body)] := by
  have distinct : ([(name, body)].map Prod.fst).Nodup := List.nodup_singleton name
  obtain ⟨arranged, same, perm⟩ := arranges.obj distinct
  rw [same, List.perm_singleton.mp perm]

end Json

end Proposal
