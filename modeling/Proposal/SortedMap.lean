/-! Finite maps as lists of entries in key order, so that a map is known by the values of its keys:
`SortedMap.ext_get?`. -/
namespace Proposal

namespace SortedList

variable {κ : Type u} {α : Type v} [Ord κ]

/-- Every key comes after all keys in front of it. -/
def Ascending (entries : List (κ × α)) : Prop :=
  entries.Pairwise fun left right => compare left.1 right.1 = .lt

instance (entries : List (κ × α)) : Decidable (Ascending entries) :=
  inferInstanceAs (Decidable (List.Pairwise _ _))

/-- Gives a key a value, in place of the value that it may have. -/
def insert (key : κ) (value : α) : List (κ × α) → List (κ × α)
  | [] => [(key, value)]
  | entry :: rest =>
    match compare key entry.1 with
    | .lt => (key, value) :: entry :: rest
    | .eq => (key, value) :: rest
    | .gt => entry :: insert key value rest

def get? (key : κ) : List (κ × α) → Option α
  | [] => none
  | entry :: rest => if compare key entry.1 = .eq then some entry.2 else get? key rest

/-- The entries in key order; of entries with one key the last one counts. -/
def ofList (entries : List (κ × α)) : List (κ × α) :=
  entries.foldl (fun sorted entry => insert entry.1 entry.2 sorted) []

private theorem mem_insert {key : κ} {value : α} {entries : List (κ × α)} {entry : κ × α}
    (member : entry ∈ insert key value entries) : entry = (key, value) ∨ entry ∈ entries := by
  induction entries with
  | nil => simpa [insert] using member
  | cons head rest ih =>
    unfold insert at member
    split at member
    · simpa using member
    · rcases List.mem_cons.mp member with same | present
      · exact .inl same
      · exact .inr (List.mem_cons_of_mem head present)
    · rcases List.mem_cons.mp member with same | present
      · exact .inr (by simp [same])
      · exact (ih present).imp_right (List.mem_cons_of_mem head)

theorem mem_ofList {entries : List (κ × α)} {entry : κ × α} (member : entry ∈ ofList entries) :
    entry ∈ entries := by
  have found (rest sorted : List (κ × α))
      (member : entry ∈ rest.foldl (fun sorted entry => insert entry.1 entry.2 sorted) sorted) :
      entry ∈ rest ∨ entry ∈ sorted := by
    induction rest generalizing sorted with
    | nil => exact .inr member
    | cons head rest ih =>
      rcases ih _ member with later | earlier
      · exact .inl (List.mem_cons_of_mem head later)
      · rcases mem_insert earlier with same | old
        · exact .inl (by simp [same])
        · exact .inr old
  simpa using found entries [] member

theorem get?_insert [Std.LawfulEqOrd κ] [DecidableEq κ] (key other : κ) (value : α)
    (entries : List (κ × α)) :
    get? other (insert key value entries) =
      if other = key then some value else get? other entries := by
  induction entries with
  | nil => simp [insert, get?]
  | cons head rest ih =>
    unfold insert
    split
    next less => by_cases same : other = key <;> simp [get?, same]
    next equal =>
      have equal := Std.LawfulEqCmp.eq_of_compare equal
      by_cases same : other = key <;> simp_all [get?]
    next more =>
      by_cases same : other = key
      · subst same
        simp [get?, more, ih]
      · simp [get?, same, ih]

private theorem get?_eq_some_iff [Std.LawfulEqOrd κ] {entries : List (κ × α)}
    (ascending : Ascending entries) {key : κ} {value : α} :
    get? key entries = some value ↔ (key, value) ∈ entries := by
  induction entries with
  | nil => simp [get?]
  | cons head rest ih =>
    obtain ⟨above, sorted⟩ := List.pairwise_cons.mp ascending
    by_cases same : compare key head.1 = .eq
    · have keys := Std.LawfulEqCmp.eq_of_compare same
      constructor
      · intro found
        have values : head.2 = value := by simpa [get?, same] using found
        exact List.mem_cons.mpr (.inl (Prod.ext keys values.symm))
      · intro member
        rcases List.mem_cons.mp member with equal | later
        · simp [get?, ← equal]
        · have less := above _ later
          simp [keys] at less
    · have different : (key, value) ≠ head := fun equal => same (by simp [← equal])
      simp [get?, same, ih sorted, different]

variable [Std.TransOrd κ]

theorem Ascending.insert {entries : List (κ × α)} (ascending : Ascending entries) (key : κ)
    (value : α) : Ascending (insert key value entries) := by
  induction entries with
  | nil => exact List.pairwise_singleton _ _
  | cons head rest ih =>
    obtain ⟨above, sorted⟩ := List.pairwise_cons.mp ascending
    unfold SortedList.insert
    split
    next less =>
      refine List.pairwise_cons.mpr ⟨fun entry member => ?_, ascending⟩
      rcases List.mem_cons.mp member with same | present
      · exact same ▸ less
      · exact Std.TransCmp.lt_trans less (above entry present)
    next same =>
      exact List.pairwise_cons.mpr
        ⟨fun entry member => Std.TransCmp.lt_of_eq_of_lt same (above entry member), sorted⟩
    next more =>
      refine List.pairwise_cons.mpr ⟨fun entry member => ?_, ih sorted⟩
      rcases mem_insert member with same | present
      · exact same ▸ Std.OrientedCmp.lt_of_gt more
      · exact above entry present

theorem ascending_ofList (entries : List (κ × α)) : Ascending (ofList entries) := by
  have keeps (rest sorted : List (κ × α)) (ascending : Ascending sorted) :
      Ascending (rest.foldl (fun sorted entry => insert entry.1 entry.2 sorted) sorted) := by
    induction rest generalizing sorted with
    | nil => exact ascending
    | cons entry rest ih => exact ih _ (ascending.insert entry.1 entry.2)
  exact keeps entries [] .nil

/-- Lists in key order with the same entries are the same. -/
theorem Ascending.ext {left right : List (κ × α)} (leftAscending : Ascending left)
    (rightAscending : Ascending right) (same : ∀ entry, entry ∈ left ↔ entry ∈ right) :
    left = right := by
  induction left generalizing right with
  | nil => exact (List.eq_nil_iff_forall_not_mem.mpr fun entry => by simp [← same entry]).symm
  | cons head rest ih =>
    cases right with
    | nil => exact absurd ((same head).mp (by simp)) (by simp)
    | cons other others =>
      obtain ⟨above, sorted⟩ := List.pairwise_cons.mp leftAscending
      obtain ⟨otherAbove, otherSorted⟩ := List.pairwise_cons.mp rightAscending
      have irreflexive (entry : κ × α) : compare entry.1 entry.1 ≠ .lt := by simp
      have heads : head = other := by
        rcases List.mem_cons.mp ((same head).mp (by simp)) with equal | later
        · exact equal
        · rcases List.mem_cons.mp ((same other).mpr (by simp)) with equal | present
          · exact equal.symm
          · exact absurd (Std.TransCmp.lt_trans (above _ present) (otherAbove _ later))
              (irreflexive head)
      subst heads
      have tails (entry : κ × α) : entry ∈ rest ↔ entry ∈ others := by
        constructor
        · intro present
          rcases List.mem_cons.mp ((same entry).mp (List.mem_cons_of_mem _ present)) with
            equal | later
          · exact absurd (equal ▸ above entry present) (irreflexive head)
          · exact later
        · intro present
          rcases List.mem_cons.mp ((same entry).mpr (List.mem_cons_of_mem _ present)) with
            equal | later
          · exact absurd (equal ▸ otherAbove entry present) (irreflexive head)
          · exact later
      rw [ih sorted otherSorted tails]

end SortedList

/-- A finite map with its entries in key order. -/
structure SortedMap (κ : Type u) (α : Type v) [Ord κ] where
  entries : List (κ × α)
  ascending : SortedList.Ascending entries

namespace SortedMap

variable {κ : Type u} {α : Type v} [Ord κ]

def empty : SortedMap κ α := ⟨[], .nil⟩

instance : Inhabited (SortedMap κ α) := ⟨empty⟩

def get? (map : SortedMap κ α) (key : κ) : Option α := SortedList.get? key map.entries

theorem get?_empty (key : κ) : (empty : SortedMap κ α).get? key = none := rfl

variable [Std.TransOrd κ]

def insert (map : SortedMap κ α) (key : κ) (value : α) : SortedMap κ α :=
  ⟨SortedList.insert key value map.entries, map.ascending.insert key value⟩

/-- The map of a list of entries; of entries with one key the last one counts. -/
def ofList (entries : List (κ × α)) : SortedMap κ α :=
  ⟨SortedList.ofList entries, SortedList.ascending_ofList entries⟩

theorem get?_insert [Std.LawfulEqOrd κ] [DecidableEq κ] (map : SortedMap κ α) (key other : κ)
    (value : α) :
    (map.insert key value).get? other = if other = key then some value else map.get? other := by
  simpa [get?, insert] using SortedList.get?_insert key other value map.entries

/-- A map is known by the values of its keys. -/
theorem ext_get? [Std.LawfulEqOrd κ] {left right : SortedMap κ α}
    (same : ∀ key, left.get? key = right.get? key) : left = right := by
  have members (entry : κ × α) : entry ∈ left.entries ↔ entry ∈ right.entries := by
    rw [← SortedList.get?_eq_some_iff left.ascending, ← SortedList.get?_eq_some_iff right.ascending]
    exact iff_of_eq (congrArg (· = some entry.2) (same entry.1))
  have entries := left.ascending.ext right.ascending members
  cases left; cases right; cases entries; rfl

end SortedMap

end Proposal
