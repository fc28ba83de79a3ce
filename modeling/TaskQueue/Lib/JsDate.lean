import TaskQueue.Lib.JsString

/-!
# Dates

A time is a number of milliseconds since the epoch, and `toISOString` prints it
in the proleptic Gregorian calendar.
-/

namespace Ecma

/-- Year, month and day of a day number counted from 1970-01-01.  Years are
counted from March, so that the leap day comes last. -/
def civilFromDays (days : Nat) : Nat × Nat × Nat :=
  let z := days + 719468
  let era := z / 146097
  let dayOfEra := z % 146097
  let yearOfEra := (dayOfEra - dayOfEra / 1460 + dayOfEra / 36524 - dayOfEra / 146096) / 365
  let dayOfYear := dayOfEra - (365 * yearOfEra + yearOfEra / 4 - yearOfEra / 100)
  let m := (5 * dayOfYear + 2) / 153
  let month := if m < 10 then m + 3 else m - 9
  let year := yearOfEra + era * 400 + (if month ≤ 2 then 1 else 0)
  (year, month, dayOfYear - (153 * m + 2) / 5 + 1)

def padded (width n : Nat) : JsString :=
  let digits := decimal n
  List.replicate (width - digits.length) (digitUnit 0) ++ digits

/-- `new Date(ms).toISOString()`. -/
def toISOString (ms : Nat) : JsString :=
  let (year, month, day) := civilFromDays (ms / 86400000)
  let t := ms % 86400000
  padded 4 year ++ js "-" ++ padded 2 month ++ js "-" ++ padded 2 day ++ js "T" ++
    padded 2 (t / 3600000) ++ js ":" ++ padded 2 (t / 60000 % 60) ++ js ":" ++
    padded 2 (t / 1000 % 60) ++ js "." ++ padded 3 (t % 1000) ++ js "Z"

example : civilFromDays 19782 = (2024, 2, 29) := by decide

example : toISOString 86399007 = js "1970-01-01T23:59:59.007Z" := by decide

end Ecma
