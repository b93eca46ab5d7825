import Autoland.Proofs.CalendarDates
import Autoland.Proofs.DecimalTexts

/-! Points in time that are written and read back. -/

namespace Autoland.Table.Timestamp

open Numeral

def paddedDigits (width n : Nat) : List Char :=
  List.replicate (width - (Nat.toDigits 10 n).length) '0' ++ Nat.toDigits 10 n

theorem toList_padded (width n : Nat) : (padded width n).toList = paddedDigits width n := by
  have digits : (toString (n : Int)).toList = Nat.toDigits 10 n := Nat.toList_repr
  have long : (toString (n : Int)).length = (Nat.toDigits 10 n).length := by
    rw [← String.length_toList, digits]
  rw [padded, String.toList_append, String.toList_ofList, digits, long, paddedDigits]

theorem isDigit_paddedDigits (width n : Nat) : ∀ c ∈ paddedDigits width n, c.isDigit = true := by
  intro c member
  rcases List.mem_append.mp member with zero | digit
  · rw [List.eq_of_mem_replicate zero]
    rfl
  · exact isDigit_of_mem_toDigits n c digit

theorem ofDigits_paddedDigits (width n : Nat) : ofDigits (paddedDigits width n) = n := by
  have zeros : ∀ count,
      (List.replicate count '0').foldl (fun n c => 10 * n + digitValue c) 0 = 0 := by
    intro count
    induction count with
    | zero => rfl
    | succ count ih => exact ih
  rw [paddedDigits, ofDigits, List.foldl_append, zeros]
  exact ofDigits_toDigits n

theorem paddedDigits_ne_nil (width n : Nat) : paddedDigits width n ≠ [] := by
  rw [paddedDigits]
  exact List.append_ne_nil_of_right_ne_nil _ Nat.toDigits_ne_nil

theorem length_paddedDigits (width n : Nat) (positive : 0 < width) (small : n < 10 ^ width) :
    (paddedDigits width n).length = width := by
  have short := (Nat.length_toDigits_le_iff (b := 10) (by decide) positive).mpr small
  rw [paddedDigits, List.length_append, List.length_replicate]
  omega

section Read

variable (width n : Nat) (rest : List Char) (stops : ∀ c ∈ rest.head?, c.isDigit = false)

theorem trimStart_paddedDigits :
    Text.trimStart (paddedDigits width n ++ rest) = paddedDigits width n ++ rest := by
  rcases List.exists_cons_of_ne_nil (paddedDigits_ne_nil width n) with ⟨c, digits, shape⟩
  have digit := isDigit_paddedDigits width n c (shape ▸ List.mem_cons_self)
  have solid : Text.isBlank c = false := by
    simp only [Char.isDigit, Bool.and_eq_true, decide_eq_true_eq, UInt32.le_iff_toNat_le] at digit
    have low : 48 ≤ c.toNat := digit.1
    have high : c.toNat ≤ 57 := digit.2
    simp only [Text.isBlank, Bool.or_eq_false_iff, Bool.and_eq_false_iff, decide_eq_false_iff_not]
    omega
  rw [shape, List.cons_append, Text.trimStart, List.dropWhile_cons_of_neg]
  rw [solid]
  exact Bool.false_ne_true

include stops

theorem number?_paddedDigits (most : Nat) (short : (paddedDigits width n).length ≤ most) :
    number? most (paddedDigits width n ++ rest) = some (n, rest) := by
  have stopped : ∀ c ∈ (rest.take (most - (paddedDigits width n).length)).head?,
      c.isDigit = false := by
    intro c first
    rw [List.head?_take] at first
    split at first
    · cases first
    · exact stops c first
  have digits : ((paddedDigits width n ++ rest).take most).takeWhile Char.isDigit =
      paddedDigits width n := by
    rw [List.take_append, List.take_of_length_le short]
    exact takeWhile_isDigit _ _ (isDigit_paddedDigits width n) stopped
  have some : (paddedDigits width n).isEmpty = false :=
    List.isEmpty_eq_false_iff.mpr (paddedDigits_ne_nil width n)
  simp only [number?, digits, some, ofDigits_paddedDigits, List.drop_left, Bool.false_eq_true,
    if_false]

theorem pair?_paddedDigits (small : n < 100) :
    pair? (paddedDigits 2 n ++ rest) = some (n, rest) := by
  rw [pair?, trimStart_paddedDigits]
  exact number?_paddedDigits 2 n rest stops 2 (length_paddedDigits 2 n (by decide) small).le

end Read

def yearChars (year : Int) : List Char :=
  if year < 0 then '-' :: paddedDigits 4 year.natAbs
  else if 9999 < year then '+' :: paddedDigits 0 year.natAbs
  else paddedDigits 4 year.natAbs

theorem year?_yearChars (year : Int) (rest : List Char)
    (stops : ∀ c ∈ rest.head?, c.isDigit = false) :
    year? (yearChars year ++ rest) = some (year, rest) := by
  have signed : ∀ width, number? (paddedDigits width year.natAbs ++ rest).length
      (paddedDigits width year.natAbs ++ rest) = some (year.natAbs, rest) := by
    intro width
    exact number?_paddedDigits _ _ rest stops _ (by rw [List.length_append]; omega)
  unfold yearChars
  split
  · have back : -(year.natAbs : Int) = year := by omega
    have minus : year? ('-' :: (paddedDigits 4 year.natAbs ++ rest)) =
        (number? _ _).map fun found => (-(found.1 : Int), found.2) := rfl
    rw [List.cons_append, minus, signed]
    exact congrArg (fun year => some (year, rest)) back
  · have back : (year.natAbs : Int) = year := by omega
    split
    · have plus : year? ('+' :: (paddedDigits 0 year.natAbs ++ rest)) =
          (number? _ _).map fun found => ((found.1 : Int), found.2) := rfl
      rw [List.cons_append, plus, signed]
      exact congrArg (fun year => some (year, rest)) back
    · have short := length_paddedDigits 4 year.natAbs (by decide) (by omega)
      have unsigned : ∀ c tail, paddedDigits 4 year.natAbs ++ rest = c :: tail →
          c.isDigit = true := by
        intro c tail same
        rcases List.exists_cons_of_ne_nil (paddedDigits_ne_nil 4 year.natAbs) with
          ⟨first, digits, shape⟩
        rw [shape, List.cons_append, List.cons.injEq] at same
        rw [← same.1]
        exact isDigit_paddedDigits 4 year.natAbs first (shape ▸ List.mem_cons_self)
      rw [year?, trimStart_paddedDigits]
      split
      · rename_i minus
        exact absurd (unsigned _ _ minus) (by decide)
      · rename_i plus
        exact absurd (unsigned _ _ plus) (by decide)
      · rw [number?_paddedDigits _ _ _ stops 4 short.le]
        exact congrArg (fun year => some (year, rest)) back

theorem fraction?_digits (width n : Nat) (rest : List Char)
    (stops : ∀ c ∈ rest.head?, c.isDigit = false) (positive : 0 < width) (few : width ≤ 9)
    (small : n < 10 ^ width) :
    fraction? ('.' :: (paddedDigits width n ++ rest)) = some (n * 10 ^ (9 - width), rest) := by
  have long := length_paddedDigits width n positive small
  have left : rest.dropWhile Char.isDigit = rest := dropWhile_isDigit [] rest (by simp) stops
  have counted : (paddedDigits width n ++ rest).length - rest.length = width := by
    rw [List.length_append, long, Nat.add_sub_cancel]
  rw [fraction?, number?_paddedDigits _ _ _ stops 9 (long.le.trans few), Option.map_some]
  dsimp only
  rw [left, counted]
  rfl

theorem fraction?_writeFraction (nanos : Nat) (small : nanos < 1000000000) (mark : Char)
    (rest : List Char) (stops : mark.isDigit = false) (whole : mark ≠ '.') :
    fraction? ((writeFraction nanos).toList ++ mark :: rest) = some (nanos, mark :: rest) := by
  have stopped : ∀ c ∈ (mark :: rest).head?, c.isDigit = false := by
    intro c first
    cases first
    exact stops
  have point : ".".toList = ['.'] := rfl
  unfold writeFraction
  split
  · rename_i none
    rw [none, String.toList_empty, List.nil_append, fraction?]
    intro after same
    exact whole (List.cons.inj same).1
  · split
    · rw [String.toList_append, toList_padded, point, List.singleton_append, List.cons_append,
        fraction?_digits 3 _ _ stopped (by decide) (by decide) (by omega)]
      congr
      omega
    · split
      · rw [String.toList_append, toList_padded, point, List.singleton_append, List.cons_append,
          fraction?_digits 6 _ _ stopped (by decide) (by decide) (by omega)]
        congr
        omega
      · rw [String.toList_append, toList_padded, point, List.singleton_append, List.cons_append,
          fraction?_digits 9 _ _ stopped (by decide) (by decide) (by omega)]
        congr
        omega

theorem stops_writeFraction (nanos : Nat) :
    ∀ c ∈ ((writeFraction nanos).toList ++ ['Z']).head?, c.isDigit = false := by
  have point : ".".toList = ['.'] := rfl
  intro c first
  unfold writeFraction at first
  split at first
  · cases first
    rfl
  · (split at first <;> try split at first) <;>
    · rw [String.toList_append, point] at first
      cases first
      rfl

def dateChars (month day hour minute second nanos : Nat) : List Char :=
  '-' :: (paddedDigits 2 month ++ '-' :: (paddedDigits 2 day ++ 'T' :: (paddedDigits 2 hour ++
    ':' :: (paddedDigits 2 minute ++ ':' :: (paddedDigits 2 second ++
      ((writeFraction nanos).toList ++ ['Z']))))))

theorem mark?_cons (c : Char) (rest : List Char) (solid : Text.isBlank c = false) :
    mark? c (c :: rest) = some rest := by
  have trimmed : Text.trimStart (c :: rest) = c :: rest := by
    rw [Text.trimStart, List.dropWhile_cons_of_neg]
    rw [solid]
    exact Bool.false_ne_true
  rw [mark?, trimmed]
  exact if_pos rfl

theorem read?_chars (text : String) (year : Int) (month day hour minute second nanos : Nat)
    (chars : text.toList = yearChars year ++ dateChars month day hour minute second nanos)
    (months : 1 ≤ month ∧ month ≤ 12) (days : 1 ≤ day ∧ day ≤ daysInMonth year month)
    (hours : hour < 24) (minutes : minute < 60) (seconds : second ≤ 60)
    (small : nanos < 1000000000) (years : firstYear ≤ year ∧ year ≤ lastYear) :
    read? text =
      (let (second, nanos) := if second = 60 then (59, nanos + 1000000000) else (second, nanos)
      let seconds := daysFromDate year month day * 86400 + hour * 3600 + minute * 60 + second - 0
      if inCalendar seconds then some ⟨seconds, nanos⟩ else none) := by
  have few : day < 100 := by
    have most := daysInMonth_le year month
    omega
  have zone : offset? ['Z'] = some (0, []) := rfl
  have fraction := fraction?_writeFraction nanos small 'Z' [] rfl (by decide)
  have pair : ∀ (n : Nat) (mark : Char) (rest : List Char), n < 100 → mark.isDigit = false →
      pair? (paddedDigits 2 n ++ mark :: rest) = some (n, mark :: rest) := by
    intro n mark rest small stops
    refine pair?_paddedDigits n (mark :: rest) ?_ small
    intro c first
    cases first
    exact stops
  unfold read?
  rw [chars, dateChars, year?_yearChars _ _ (by simp), Option.bind_eq_bind, Option.bind_some]
  dsimp only
  rw [mark?_cons '-' _ rfl, Option.bind_eq_bind, Option.bind_some, pair month _ _ (by omega) rfl,
    Option.bind_eq_bind, Option.bind_some]
  dsimp only
  rw [mark?_cons '-' _ rfl, Option.bind_some, pair day _ _ few rfl, Option.bind_some]
  dsimp only
  rw [if_pos (.inl rfl), Option.bind_some, pair hour _ _ (by omega) rfl, Option.bind_some]
  dsimp only
  rw [mark?_cons ':' _ rfl, Option.bind_some, pair minute _ _ (by omega) rfl, Option.bind_some]
  dsimp only
  rw [mark?_cons ':' _ rfl, Option.bind_some,
    pair?_paddedDigits second _ (stops_writeFraction nanos) (by omega), Option.bind_some]
  dsimp only
  rw [fraction, Option.bind_some]
  dsimp only
  rw [zone, Option.bind_some]
  exact if_pos ⟨months.1, months.2, days.1, days.2, hours, minutes, seconds, years.1, years.2, rfl⟩

theorem toList_yearText (year : Int) :
    (if year < 0 then "-" ++ padded 4 (-year)
      else if 9999 < year then "+" ++ toString year else padded 4 year).toList =
      yearChars year := by
  unfold yearChars
  split
  · have size : -year = (year.natAbs : Int) := by omega
    rw [String.toList_append, size, toList_padded]
    rfl
  · obtain ⟨n, same⟩ : ∃ n : Nat, year = n := ⟨year.natAbs, by omega⟩
    rw [same, Int.natAbs_natCast]
    split
    · have digits : (toString (n : Int)).toList = paddedDigits 0 n := by
        rw [paddedDigits, Nat.zero_sub, List.replicate_zero, List.nil_append]
        exact Nat.toList_repr
      rw [String.toList_append, digits]
      rfl
    · exact toList_padded 4 n

theorem toList_writeMarked (total : Int) (nanos : Nat) (year : Int)
    (month day hour minute second : Nat)
    (dated : dateFromDays (total / 86400) = (year, (month : Int), (day : Int)))
    (hours : total % 86400 / 3600 = hour) (minutes : total % 86400 / 60 % 60 = minute)
    (seconds : total % 86400 % 60 = second) :
    (writeMarked "Z" ⟨total, nanos⟩).toList = yearChars year ++
      dateChars month day hour minute (second + nanos / 1000000000) (nanos % 1000000000) := by
  have whole : (second : Int) + (nanos / 1000000000 : Nat) =
      (second + nanos / 1000000000 : Nat) := (Int.natCast_add _ _).symm
  have dash : "-".toList = ['-'] := rfl
  have colon : ":".toList = [':'] := rfl
  have start : "T".toList = ['T'] := rfl
  have zone : "Z".toList = ['Z'] := rfl
  unfold writeMarked
  dsimp only
  rw [dated]
  dsimp only
  rw [hours, minutes, seconds, whole]
  simp only [String.toList_append, toList_yearText, toList_padded, dash, colon, start, zone,
    dateChars, List.append_assoc, List.nil_append, List.cons_append]

/-- Whether a point in time is in the calendar, within a leap second or in another one. -/
structure Regular (time : Timestamp) : Prop where
  calendar : inCalendar time.seconds = true
  fraction : time.nanos < 1000000000 ∨ time.seconds % 60 = 59 ∧ time.nanos < 2000000000

theorem read?_writeMarked (time : Timestamp) (regular : time.Regular) :
    read? (time.writeMarked "Z") = some time := by
  rcases time with ⟨total, nanos⟩
  rcases regular with ⟨calendar, fraction⟩
  dsimp only at calendar fraction
  obtain ⟨year, month, day, dated, date⟩ := isDate_dateFromDays (total / 86400)
  obtain ⟨hour, hours⟩ : ∃ hour : Nat, total % 86400 / 3600 = hour :=
    ⟨_, (Int.toNat_of_nonneg (by omega)).symm⟩
  obtain ⟨minute, minutes⟩ : ∃ minute : Nat, total % 86400 / 60 % 60 = minute :=
    ⟨_, (Int.toNat_of_nonneg (by omega)).symm⟩
  obtain ⟨second, seconds⟩ : ∃ second : Nat, total % 86400 % 60 = second :=
    ⟨_, (Int.toNat_of_nonneg (by omega)).symm⟩
  have chars := toList_writeMarked total nanos year month day hour minute second dated hours minutes
    seconds
  have years : firstYear ≤ year ∧ year ≤ lastYear := by
    rw [inCalendar, Bool.and_eq_true, decide_eq_true_eq, decide_eq_true_eq] at calendar
    exact date.year_of_inCalendar (by omega) (by omega)
  have read := read?_chars _ year month day hour minute (second + nanos / 1000000000)
    (nanos % 1000000000) chars date.monthOfYear date.dayOfMonth (by omega) (by omega) (by omega)
    (by omega) years
  rw [date.counted] at read
  rw [read]
  by_cases plain : nanos < 1000000000
  · have same : total / 86400 * 86400 + hour * 3600 + minute * 60 + second - 0 = total := by omega
    rw [Nat.div_eq_of_lt plain, Nat.mod_eq_of_lt plain, Nat.add_zero, if_neg (by omega)]
    dsimp only
    rw [same, if_pos calendar]
  · rcases fraction.resolve_left plain with ⟨last, short⟩
    have one : nanos / 1000000000 = 1 := by omega
    have rest : nanos % 1000000000 + 1000000000 = nanos := by omega
    have same : total / 86400 * 86400 + hour * 3600 + minute * 60 + (59 : Nat) - 0 = total := by
      omega
    rw [one, rest, if_pos (by omega)]
    dsimp only
    rw [same, if_pos calendar]

end Autoland.Table.Timestamp
