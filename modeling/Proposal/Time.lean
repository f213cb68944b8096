import Proposal.Json.Form

namespace Proposal

/-- Nanoseconds since the start of 1970. -/
structure Timestamp where
  nanos : Unsigned 64
  deriving DecidableEq, Repr, Inhabited

namespace Timestamp

def nanosPerSecond : Nat := 1000000000

def ofSeconds? (seconds : Count) : Option Timestamp :=
  (Unsigned.ofNat? 64 (seconds.val * nanosPerSecond)).map Timestamp.mk

/-- The whole seconds of a time. -/
def seconds (time : Timestamp) : Nat := time.nanos.val / nanosPerSecond

/-- The time so many seconds later. -/
def addSeconds? (time : Timestamp) (seconds : Count) : Option Timestamp :=
  (Unsigned.ofNat? 64 (time.nanos.val + seconds.val * nanosPerSecond)).map Timestamp.mk

instance : LT Timestamp := ⟨fun left right => left.nanos < right.nanos⟩
instance : LE Timestamp := ⟨fun left right => left.nanos ≤ right.nanos⟩
instance (left right : Timestamp) : Decidable (left < right) :=
  inferInstanceAs (Decidable (left.nanos < right.nanos))
instance (left right : Timestamp) : Decidable (left ≤ right) :=
  inferInstanceAs (Decidable (left.nanos ≤ right.nanos))

end Timestamp

/-- A time is a string, as its nanoseconds may be too many for a number. -/
instance : JsonForm Timestamp where
  toJson time := .str time.nanos.text
  ofJson?
    | _, .str text => (Unsigned.read? 64 text.toList).map Timestamp.mk
    | _, _ => none

inductive DurationUnit
  | seconds
  | minutes
  | hours
  | days
  | weeks
  | months
  | years
  deriving DecidableEq, Repr

namespace DurationUnit

/-- The fixed length of a unit: a month has 30 days and a year 365, whatever the calendar says. -/
def length : DurationUnit → Nat
  | .seconds => 1
  | .minutes => 60
  | .hours => 60 * 60
  | .days => 24 * 60 * 60
  | .weeks => 7 * 24 * 60 * 60
  | .months => 30 * 24 * 60 * 60
  | .years => 365 * 24 * 60 * 60

def name : DurationUnit → String
  | .seconds => "seconds"
  | .minutes => "minutes"
  | .hours => "hours"
  | .days => "days"
  | .weeks => "weeks"
  | .months => "months"
  | .years => "years"

def label : DurationUnit → String
  | .seconds => "Seconds"
  | .minutes => "Minutes"
  | .hours => "Hours"
  | .days => "Days"
  | .weeks => "Weeks"
  | .months => "Months"
  | .years => "Years"

/-- All units, the longest first. -/
def descending : List DurationUnit :=
  [.years, .months, .weeks, .days, .hours, .minutes, .seconds]

def ofName? (name : String) : Option DurationUnit :=
  descending.find? fun unit => unit.name = name

end DurationUnit

instance : JsonForm DurationUnit where
  toJson unit := .str unit.name
  ofJson? reading json := (json.name? reading).bind DurationUnit.ofName?

structure Duration where
  value : Count
  unit : DurationUnit
  deriving DecidableEq, Repr

namespace Duration

/-- The length in seconds, if it fits a count. -/
def seconds? (duration : Duration) : Option Count :=
  Unsigned.ofNat? 64 (duration.value.val * duration.unit.length)

/-- A number of seconds in the longest unit that divides it; messages do not keep the unit. -/
def ofSeconds (seconds : Count) : Duration :=
  if seconds.val = 0 then ⟨seconds, .seconds⟩
  else
    match DurationUnit.descending.find? fun unit => seconds.val % unit.length = 0 with
    | some unit =>
      ⟨⟨seconds.val / unit.length,
        Nat.lt_of_le_of_lt (Nat.div_le_self _ _) seconds.val_lt⟩, unit⟩
    | none => ⟨seconds, .seconds⟩

end Duration

instance : JsonForm Duration where
  toJson duration := .obj [("value", toJson duration.value), ("units", toJson duration.unit)]
  ofJson? reading json := do
    let fields ← json.record? reading ["value", "units"]
    let value ← field? reading fields "value"
    let unit ← field? reading fields "units"
    return { value, unit }

end Proposal
