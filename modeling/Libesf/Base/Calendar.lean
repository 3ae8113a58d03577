import Libesf.Base.Decimal

/-!
# Calendar time

`localtime` and `asctime` of the C library. A time is a number of seconds since the beginning of 1970, UTC, leap seconds not counted. A time zone adds a 32-bit number of seconds to it, which may depend on the time. The date is Gregorian, and `localtime` fails where its year does not fit an `int`.
-/

namespace Libesf

/-- `struct tm`, but for the members `asctime` does not read. Months count from January, years from 1900, the days of the week from Sunday. -/
structure Tm where
  sec : Int
  min : Int
  hour : Int
  mday : Int
  mon : Int
  year : Int
  wday : Int
  deriving DecidableEq, Repr

abbrev TimeZone := Int → Int32

/-- The date of a day, which is counted from the beginning of 1970: year, month and day of the month. Years start in March here, so that a leap day is the last day of its year. -/
def civil (days : Int) : Int × Int × Int :=
  let days := days + 719468
  let doe := days % 146097
  let yoe := (doe - doe / 1460 + doe / 36524 - doe / 146096) / 365
  let doy := doe - (365 * yoe + yoe / 4 - yoe / 100)
  let mp := (5 * doy + 2) / 153
  (days / 146097 * 400 + yoe + (if mp < 10 then 0 else 1), (if mp < 10 then mp + 2 else mp - 10),
    doy - (153 * mp + 2) / 5 + 1)

def localtime (zone : TimeZone) (time : Int) : Option Tm :=
  let time := time + (zone time).toInt
  let days := time / 86400
  let secs := time % 86400
  let (year, mon, mday) := civil days
  if Int32.minValue.toInt ≤ year - 1900 ∧ year - 1900 ≤ Int32.maxValue.toInt then
    some ⟨secs % 60, secs / 60 % 60, secs / 3600, mday, mon, year - 1900, (days + 4) % 7⟩
  else none

def abbreviation (names : List String) (i : Int) : Str :=
  ascii (if 0 ≤ i then names.getD i.toNat "???" else "???")

/-- `"%d"`. -/
def showInt (n : Int) : Str := ascii (toString n)

/-- `asctime`: `"%.3s %.3s%3d %.2d:%.2d:%.2d %d\n"`. -/
def asctime (tm : Tm) : Str :=
  abbreviation ["Sun", "Mon", "Tue", "Wed", "Thu", "Fri", "Sat"] tm.wday ++ ascii " " ++
    abbreviation ["Jan", "Feb", "Mar", "Apr", "May", "Jun", "Jul", "Aug", "Sep", "Oct", "Nov",
      "Dec"] tm.mon ++
    List.replicate (3 - (showInt tm.mday).length) 32 ++ showInt tm.mday ++ ascii " " ++
    decimalPadded 2 tm.hour.toNat ++ ascii ":" ++ decimalPadded 2 tm.min.toNat ++ ascii ":" ++
    decimalPadded 2 tm.sec.toNat ++ ascii " " ++ showInt (1900 + tm.year) ++ ascii "\n"

/-- `ctime`, which returns no string when there is no local time. -/
def ctime (zone : TimeZone) (time : Int) : Option Str := (localtime zone time).map asctime

/-- A year has about 365 days. -/
theorem civil_year_bounds {days : Int} (hlow : -1000000 ≤ days) (hhigh : days ≤ 1000000) :
    -3000 ≤ (civil days).1 ∧ (civil days).1 ≤ 6000 := by
  simp only [civil]
  split <;> omega

/-- A clock that counts nanoseconds in 64 bits has a local time wherever it is, since it does not get far enough from 1970. -/
theorem localtime_isSome (zone : TimeZone) {time : Int} (hlow : -2 ^ 34 ≤ time)
    (hhigh : time ≤ 2 ^ 34) : (localtime zone time).isSome = true := by
  have hzone := (zone time).toInt_lt
  have hzone' := (zone time).le_toInt
  have hyear : -3000 ≤ (civil ((time + (zone time).toInt) / 86400)).1 ∧
      (civil ((time + (zone time).toInt) / 86400)).1 ≤ 6000 :=
    civil_year_bounds (by omega) (by omega)
  have hmin : Int32.minValue.toInt = -2147483648 := by decide
  have hmax : Int32.maxValue.toInt = 2147483647 := by decide
  simp only [localtime]
  rw [if_pos (by omega)]
  rfl

theorem asctime_ne_nil (tm : Tm) : asctime tm ≠ [] := by
  rw [asctime]
  exact List.append_ne_nil_of_right_ne_nil _ (by decide)

theorem exists_ctime (zone : TimeZone) {time : Int} (hlow : -2 ^ 34 ≤ time) (hhigh : time ≤ 2 ^ 34) :
    ∃ text, ctime zone time = some text ∧ text ≠ [] := by
  obtain ⟨tm, htm⟩ := Option.isSome_iff_exists.1 (localtime_isSome zone hlow hhigh)
  exact ⟨asctime tm, by rw [ctime, htm, Option.map_some], asctime_ne_nil tm⟩

example : ctime (fun _ => 0) 951782400 = some (ascii "Tue Feb 29 00:00:00 2000\n") := by
  decide +kernel

example : ctime (fun _ => 3600) (-1) = some (ascii "Thu Jan  1 00:59:59 1970\n") := by decide +kernel

end Libesf
