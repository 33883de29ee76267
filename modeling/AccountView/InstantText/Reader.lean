import AccountView.LocalTime

namespace AccountView

/-! Reading instants from text: a date, a time of day and an offset from UTC, in extended form (with
separators) or in basic form, and then annotations in square brackets, which name zones and settings
and do not change the instant. -/

namespace InstantText

/-- A step of a reader takes its value off the front of the text. -/
abbrev Step (α : Type) := List Char → Option (α × List Char)

def char? (c : Char) : Step Unit
  | d :: rest => if d = c then some ((), rest) else none
  | [] => none

def digits? (count : Nat) : Step Nat := fun text =>
  let digits := text.take count
  if digits.length = count ∧ digits.all Char.isDigit then
    some (Nat.ofDigitChars 10 digits 0, text.drop count)
  else
    none

def twoDigits? (limit : Nat) : Step Nat := fun text => do
  let (n, rest) ← digits? 2 text
  if n ≤ limit then some (n, rest) else none

/-- Four digits, or a sign and six digits. The year 0 has no minus sign. -/
def year? : Step Int
  | '+' :: rest => do
    let (n, rest) ← digits? 6 rest
    if n ≤ 9999 then some (n, rest) else none
  | '-' :: rest => do
    let (n, rest) ← digits? 6 rest
    if 1 ≤ n ∧ n ≤ 9999 then some (-n, rest) else none
  | text => do
    let (n, rest) ← digits? 4 text
    some (n, rest)

def date? : Step CivilDate := fun text => do
  let (year, rest) ← year? text
  let extended := rest.head? = some '-'
  let (_, rest) ← if extended then char? '-' rest else some ((), rest)
  let (month, rest) ← digits? 2 rest
  let (_, rest) ← if extended then char? '-' rest else some ((), rest)
  let (day, rest) ← digits? 2 rest
  let date : CivilDate := ⟨year, month, day⟩
  if date.Valid then some (date, rest) else none

/-- Between two parts of a clock reading: a colon in extended form, nothing in basic form. Tells
whether another part follows. -/
def nextPart (extended : Bool) (text : List Char) : Bool × List Char :=
  if extended then
    match text with
    | ':' :: rest => (true, rest)
    | _ => (false, text)
  else
    ((digits? 2 text).isSome, text)

/-- One to nine digits after a point or a comma, as nanoseconds. -/
def fraction? : Step Nat
  | [] => some (0, [])
  | c :: rest =>
    if c = '.' ∨ c = ',' then
      let digits := (rest.take 9).takeWhile Char.isDigit
      if digits = [] then
        none
      else
        some (Nat.ofDigitChars 10 (digits.rightpad 9 '0') 0, rest.drop digits.length)
    else
      some (0, c :: rest)

/-- Hours, minutes, seconds and nanoseconds, of which all but the hours may be missing at the end.
-/
structure ClockParts where
  hour : Nat
  minute : Nat
  second : Nat
  nanosecond : Nat
  deriving DecidableEq

/-- Parts of a clock reading, each at most its limit. The form of the first separator is kept. -/
def clockParts? (hourLimit secondLimit : Nat) : Step ClockParts := fun text => do
  let (hour, rest) ← twoDigits? hourLimit text
  let extended := rest.head? = some ':'
  match nextPart extended rest with
  | (false, rest) => some (⟨hour, 0, 0, 0⟩, rest)
  | (true, rest) =>
    let (minute, rest) ← twoDigits? 59 rest
    match nextPart extended rest with
    | (false, rest) => some (⟨hour, minute, 0, 0⟩, rest)
    | (true, rest) =>
      let (second, rest) ← twoDigits? secondLimit rest
      let (nanosecond, rest) ← fraction? rest
      some (⟨hour, minute, second, nanosecond⟩, rest)

/-- A time of day. Second 60 is read as second 59. -/
def time? : Step ClockParts := fun text => do
  let (parts, rest) ← clockParts? 23 60 text
  some ({ parts with second := min parts.second 59 }, rest)

/-- An offset in seconds east of UTC: `Z`, or a sign and a clock reading, to the nearest second. -/
def offset? : Step Offset
  | 'Z' :: rest => some (.utc, rest)
  | 'z' :: rest => some (.utc, rest)
  | '+' :: rest => signed 1 rest
  | '-' :: rest => signed (-1) rest
  | _ => none
where
  signed (sign : Int) : Step Offset := fun text => do
    let (parts, rest) ← clockParts? 25 59 text
    let seconds := parts.hour * 3600 + parts.minute * 60 + parts.second +
      (if parts.nanosecond < 500000000 then 0 else 1)
    let offset ← Offset.ofSeconds? (sign * seconds)
    some (offset, rest)

/-- What follows the first character of a word that matches `lead`, as far as `inner` allows. -/
def word? (lead inner : Char → Bool) : Step Unit
  | c :: rest => if lead c then some ((), rest.dropWhile inner) else none
  | [] => none

def isZoneLead (c : Char) : Bool := c.isAlpha || c = '_' || c = '.'

def isZoneInner (c : Char) : Bool := isZoneLead c || c.isDigit || c = '+' || c = '-'

def isKeyLead (c : Char) : Bool := c.isLower || c = '_'

def isKeyInner (c : Char) : Bool := isKeyLead c || c.isDigit || c = '-'

/-- Skips words that each follow a mark. The first word has been taken. -/
def moreWords? (mark : Char) (lead inner : Char → Bool) : Nat → Step Unit
  | 0, text => some ((), text)
  | fuel + 1, text =>
    match text with
    | c :: rest =>
      if c = mark then do
        let (_, rest) ← word? lead inner rest
        moreWords? mark lead inner fuel rest
      else
        some ((), text)
    | [] => some ((), [])

def words? (mark : Char) (lead inner : Char → Bool) : Step Unit := fun text => do
  let (_, rest) ← word? lead inner text
  moreWords? mark lead inner rest.length rest

/-- An annotation opens with a bracket and may be marked as critical. -/
def opening? : Step Bool
  | '[' :: '!' :: rest => some (true, rest)
  | '[' :: rest => some (false, rest)
  | _ => none

def zoneOffset? : Step Unit := fun text => do
  let (_, rest) ← twoDigits? 25 text
  match nextPart (rest.head? = some ':') rest with
  | (false, rest) => some ((), rest)
  | (true, rest) =>
    let (_, rest) ← twoDigits? 59 rest
    some ((), rest)

/-- A setting, a key and its values. A critical one is refused, as none is known. -/
def setting? : Step Unit := fun text => do
  let (critical, rest) ← opening? text
  let (_, rest) ← word? isKeyLead isKeyInner rest
  let (_, rest) ← char? '=' rest
  let (_, rest) ← words? '-' Char.isAlphanum Char.isAlphanum rest
  let (_, rest) ← char? ']' rest
  if critical then none else some ((), rest)

/-- A zone by its offset or its name. A name that an equals sign follows is the key of a setting,
and nothing is taken. -/
def zone? : Step Unit := fun text => do
  let (_, rest) ← opening? text
  match rest with
  | '+' :: rest | '-' :: rest =>
    let (_, rest) ← zoneOffset? rest
    char? ']' rest
  | _ =>
    let (_, rest) ← word? isZoneLead isZoneInner rest
    if rest.head? = some '=' then
      some ((), text)
    else
      let (_, rest) ← moreWords? '/' isZoneLead isZoneInner rest.length rest
      char? ']' rest

def settings? : Nat → List Char → Option Unit
  | _, [] => some ()
  | 0, _ => none
  | fuel + 1, text => do
    let (_, rest) ← setting? text
    settings? fuel rest

def annotations? (text : List Char) : Option Unit :=
  match text with
  | [] => some ()
  | _ => do
    let (_, rest) ← zone? text
    settings? rest.length rest

def isDateEnd (c : Char) : Bool := c = 'T' || c = 't' || c = ' '

def read? (text : List Char) : Option Instant := do
  let (date, rest) ← date? text
  let (_, rest) ← word? isDateEnd (fun _ => false) rest
  let (time, rest) ← time? rest
  let (offset, rest) ← offset? rest
  annotations? rest
  let localTime : LocalTime := ⟨date, time.hour, time.minute, time.second⟩
  Instant.ofNanos?
    ((localTime.toSeconds - offset.seconds) * Instant.nanosPerSecond + time.nanosecond)

end InstantText

def Instant.ofText? (text : String) : Option Instant :=
  InstantText.read? text.toList

end AccountView
