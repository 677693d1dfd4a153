/-!
# Dates and times

A value of a TOML text may be a date, a time, or both divided by `T`, `t` or a space, the last
with an optional offset.  Seconds may be left out.  Only the form matters here: such values never
reach a diagram.
-/

namespace NetDiagram.Toml

/-- Reads `n` decimal digits at the start of the list. -/
def takeNumber? (n : Nat) (cs : List Char) : Option (Nat × List Char) :=
  let ds := cs.take n
  if ds.length == n && ds.all Char.isDigit then
    some (ds.foldl (fun v c => 10 * v + (c.toNat - '0'.toNat)) 0, cs.drop n)
  else none

/-- Reads the given character at the start of the list. -/
def takeChar? (c : Char) : List Char → Option (List Char)
  | d :: cs => if d == c then some cs else none
  | [] => none

/-- The number of days of a month. -/
def daysInMonth (year month : Nat) : Nat :=
  if month == 2 then
    if (year % 4 == 0 && year % 100 != 0) || year % 400 == 0 then 29 else 28
  else if month == 4 || month == 6 || month == 9 || month == 11 then 30
  else 31

/-- Reads a date. -/
def takeDate? (cs : List Char) : Option (List Char) := do
  let (year, cs) ← takeNumber? 4 cs
  let cs ← takeChar? '-' cs
  let (month, cs) ← takeNumber? 2 cs
  let cs ← takeChar? '-' cs
  let (day, cs) ← takeNumber? 2 cs
  if 1 ≤ month && month ≤ 12 && 1 ≤ day && day ≤ daysInMonth year month then some cs else none

/-- Reads the fraction of a second, if there is one. -/
def takeFraction? : List Char → Option (List Char)
  | '.' :: cs => if (cs.takeWhile Char.isDigit).isEmpty then none else some (cs.dropWhile Char.isDigit)
  | cs => some cs

/-- Reads a time. -/
def takeTime? (cs : List Char) : Option (List Char) := do
  let (hour, cs) ← takeNumber? 2 cs
  let cs ← takeChar? ':' cs
  let (minute, cs) ← takeNumber? 2 cs
  if 23 < hour || 59 < minute then none
  else
    match cs with
    | ':' :: cs =>
      let (second, cs) ← takeNumber? 2 cs
      if 60 < second then none else takeFraction? cs
    | cs => some cs

/-- Reads an offset, if there is one. -/
def takeOffset? : List Char → Option (List Char)
  | [] => some []
  | c :: cs => do
    if c == 'Z' || c == 'z' then some cs
    else if c == '+' || c == '-' then
      let (hour, cs) ← takeNumber? 2 cs
      let cs ← takeChar? ':' cs
      let (minute, cs) ← takeNumber? 2 cs
      if 23 < hour || 59 < minute then none else some cs
    else none

/-- Whether the list is a date, a time or both. -/
def isDateTime (cs : List Char) : Bool :=
  match takeDate? cs with
  | some [] => true
  | some (c :: rest) =>
    (c == 'T' || c == 't' || c == ' ') && (takeTime? rest).bind takeOffset? == some []
  | none => takeTime? cs == some []

end NetDiagram.Toml
