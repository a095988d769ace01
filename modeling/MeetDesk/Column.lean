import MeetDesk.Text.Quoted

/-!
# Columns of the results table

The set of columns is closed, and a query names columns of it only. A text becomes a `Column` by
`Column.named?`, which compares it with the labels letter for letter; `Column.all` is in table order.
-/

namespace MeetDesk

/-- What kind of cells a column holds. -/
inductive ColumnKind where
  /-- Texts; also numbers that carry a mark, such as `90+`. -/
  | string
  /-- Numbers. -/
  | numeric
  deriving DecidableEq, Repr

/-- The word for a kind. -/
def ColumnKind.label : ColumnKind → String
  | string => "string"
  | numeric => "numeric"

/-- A column of the results table. -/
inductive Column where
  | name | sex | event | equipment | age | ageClass | birthYearClass | division | bodyweightKg
  | weightClassKg | squat1Kg | squat2Kg | squat3Kg | squat4Kg | best3SquatKg | bench1Kg | bench2Kg
  | bench3Kg | bench4Kg | best3BenchKg | deadlift1Kg | deadlift2Kg | deadlift3Kg | deadlift4Kg
  | best3DeadliftKg | totalKg | place | dots | wilks | glossbrenner | goodlift | tested | country
  | state | federation | parentFederation | date | meetCountry | meetState | meetTown | meetName
  | sanctioned
  deriving DecidableEq, Repr

namespace Column

/-- The name of a column in the table. -/
def label : Column → String
  | name => "Name"
  | sex => "Sex"
  | event => "Event"
  | equipment => "Equipment"
  | age => "Age"
  | ageClass => "AgeClass"
  | birthYearClass => "BirthYearClass"
  | division => "Division"
  | bodyweightKg => "BodyweightKg"
  | weightClassKg => "WeightClassKg"
  | squat1Kg => "Squat1Kg"
  | squat2Kg => "Squat2Kg"
  | squat3Kg => "Squat3Kg"
  | squat4Kg => "Squat4Kg"
  | best3SquatKg => "Best3SquatKg"
  | bench1Kg => "Bench1Kg"
  | bench2Kg => "Bench2Kg"
  | bench3Kg => "Bench3Kg"
  | bench4Kg => "Bench4Kg"
  | best3BenchKg => "Best3BenchKg"
  | deadlift1Kg => "Deadlift1Kg"
  | deadlift2Kg => "Deadlift2Kg"
  | deadlift3Kg => "Deadlift3Kg"
  | deadlift4Kg => "Deadlift4Kg"
  | best3DeadliftKg => "Best3DeadliftKg"
  | totalKg => "TotalKg"
  | place => "Place"
  | dots => "Dots"
  | wilks => "Wilks"
  | glossbrenner => "Glossbrenner"
  | goodlift => "Goodlift"
  | tested => "Tested"
  | country => "Country"
  | state => "State"
  | federation => "Federation"
  | parentFederation => "ParentFederation"
  | date => "Date"
  | meetCountry => "MeetCountry"
  | meetState => "MeetState"
  | meetTown => "MeetTown"
  | meetName => "MeetName"
  | sanctioned => "Sanctioned"

/-- The columns in table order. -/
def all : List Column :=
  [name, sex, event, equipment, age, ageClass, birthYearClass, division, bodyweightKg,
   weightClassKg, squat1Kg, squat2Kg, squat3Kg, squat4Kg, best3SquatKg, bench1Kg, bench2Kg,
   bench3Kg, bench4Kg, best3BenchKg, deadlift1Kg, deadlift2Kg, deadlift3Kg, deadlift4Kg,
   best3DeadliftKg, totalKg, place, dots, wilks, glossbrenner, goodlift, tested, country, state,
   federation, parentFederation, date, meetCountry, meetState, meetTown, meetName, sanctioned]

/-- The kind of a column's cells. -/
def kind : Column → ColumnKind
  | age | bodyweightKg | squat1Kg | squat2Kg | squat3Kg | squat4Kg | best3SquatKg | bench1Kg
  | bench2Kg | bench3Kg | bench4Kg | best3BenchKg | deadlift1Kg | deadlift2Kg | deadlift3Kg
  | deadlift4Kg | best3DeadliftKg | totalKg | dots | wilks | glossbrenner | goodlift => .numeric
  | _ => .string

/-- The column with the given name, if there is one. -/
def named? (s : String) : Option Column := all.find? fun c => c.label == s

/-- The columns that order the rows when the caller names none: by name, and for one name the
latest first. -/
def defaultOrder : Column × Column := (name, date)

/-- The message for a name that no column has. -/
def unknownMessage (s : String) : String := "Unknown column: " ++ Text.quoted s

theorem mem_all (c : Column) : c ∈ all := by cases c <;> decide

theorem named?_label (c : Column) : named? c.label = some c := by cases c <;> decide

end Column

end MeetDesk
