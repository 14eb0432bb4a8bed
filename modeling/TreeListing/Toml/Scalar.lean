import TreeListing.Text
import TreeListing.Toml.Character
import TreeListing.Value

/-!
# Booleans, numbers and dates of a TOML document

Each of them is one word, except that a date may be followed by a space and a time. A date is read
as an object with its written form as the only member.
-/

namespace TreeListing.Toml

def isWord (c : Char) : Bool := isBare c || c = '+' || c = '.' || c = ':'

/-- Digits with single underscores between some of them; the underscores are left out. -/
def digitRun? (ok : Char → Bool) : List Char → Option (List Char)
  | [] => none
  | [c] => if ok c then some [c] else none
  | c :: '_' :: rest => if ok c then (digitRun? ok rest).map (c :: ·) else none
  | c :: rest => if ok c then (digitRun? ok rest).map (c :: ·) else none

def numeral (base : Nat) (digits : List Char) : Nat :=
  digits.foldl (fun n c => base * n + (Text.hexValue? c).getD 0) 0

def unsigned? (base : Nat) (cs : List Char) : Option Nat :=
  (digitRun? (fun c => (Text.hexValue? c).any (· < base)) cs).map (numeral base)

def splitSign : List Char → Bool × List Char
  | '-' :: rest => (true, rest)
  | '+' :: rest => (false, rest)
  | cs => (false, cs)

def decimal? (cs : List Char) : Option Nat :=
  if cs.head? = some '0' ∧ cs.length ≠ 1 then none else unsigned? 10 cs

/-- Whole numbers of 64 bits; in other bases than ten they have no sign. -/
def integer? (word : List Char) : Option Value :=
  let positive (n : Option Nat) : Option Value :=
    n.bind fun n => if n < 0x8000000000000000 then some (.integer n) else none
  match word with
  | '0' :: 'x' :: digits => positive (unsigned? 16 digits)
  | '0' :: 'o' :: digits => positive (unsigned? 8 digits)
  | '0' :: 'b' :: digits => positive (unsigned? 2 digits)
  | _ =>
    let (negative, digits) := splitSign word
    if negative then
      (decimal? digits).bind fun n =>
        if n ≤ 0x8000000000000000 then some (.integer (-n)) else none
    else positive (decimal? digits)

/-- Whether a decimal number is beyond all doubles. -/
def exceedsDouble (digits : Nat) (exponent : Int) : Bool :=
  let length : Int := (toString digits).length
  let bound := Nat.pow 2 1024 - Nat.pow 2 970
  if digits = 0 ∨ length + exponent < 300 then false
  else if 310 < length + exponent then true
  else if 0 ≤ exponent then bound ≤ digits * Nat.pow 10 exponent.toNat
  else bound * Nat.pow 10 (-exponent).toNat ≤ digits

/-- Numbers with a fraction or an exponent, and those that are no numbers. -/
def float? (word : List Char) : Option Value := do
  let (negative, unsigned) := splitSign word
  let result := Value.fraction (String.ofList word)
  if unsigned = "inf".toList ∨ unsigned = "nan".toList then return result
  let isPart (c : Char) : Bool := isDigit c || c = '_'
  let whole := unsigned.takeWhile isPart
  let _ ← decimal? whole
  let rest := unsigned.dropWhile isPart
  let fraction := if rest.head? = some '.' then some ((rest.drop 1).takeWhile isPart) else none
  let rest := if fraction.isSome then (rest.drop 1).dropWhile isPart else rest
  let places ← match fraction with
    | none => some []
    | some cs => digitRun? isDigit cs
  let exponent : Int ← match rest with
    | [] => if fraction.isSome then some 0 else none
    | c :: rest =>
      if c = 'e' ∨ c = 'E' then
        let (down, digits) := splitSign rest
        (unsigned? 10 digits).map fun n => if down then -(n : Int) else n
      else none
  let digits := numeral 10 (whole.filter isDigit ++ places)
  if !negative && exceedsDouble digits (exponent - places.length) then none else return result

def twoDigits? (limit : Nat) : List Char → Option Nat
  | [a, b] =>
    let n := numeral 10 [a, b]
    if isDigit a && isDigit b && n ≤ limit then some n else none
  | _ => none

def daysInMonth (year month : Nat) : Nat :=
  if month = 2 then
    if year % 4 = 0 ∧ (year % 100 ≠ 0 ∨ year % 400 = 0) then 29 else 28
  else if [4, 6, 9, 11].contains month then 30 else 31

def isDate (word : List Char) : Bool :=
  let year := word.take 4
  match (word.drop 4).take 1, (word.drop 7).take 1 with
  | ['-'], ['-'] =>
    match twoDigits? 12 ((word.drop 5).take 2), twoDigits? 31 (word.drop 8) with
    | some month, some day =>
      year.all isDigit && 1 ≤ month && 1 ≤ day && day ≤ daysInMonth (numeral 10 year) month
    | _, _ => false
  | _, _ => false

/-- The parts of a second, of which nine places are kept, without zeros at the end. -/
def secondParts? : List Char → Option (List Char)
  | [] => some []
  | '.' :: digits =>
    if digits.isEmpty || !digits.all isDigit then none
    else
      let kept := ((digits.take 9).reverse.dropWhile (· = '0')).reverse
      some (if kept.isEmpty then [] else '.' :: kept)
  | _ => none

/-- The written form of a time of day: hour, minute, second and its parts. -/
def time? (word : List Char) : Option (List Char) := do
  let colons := [(word.drop 2).head?, (word.drop 5).head?]
  let _ ← twoDigits? 23 (word.take 2)
  let _ ← twoDigits? 59 ((word.drop 3).take 2)
  let _ ← twoDigits? 60 ((word.drop 6).take 2)
  let parts ← secondParts? (word.drop 8)
  if colons = [some ':', some ':'] then return word.take 8 ++ parts else none

def offset? : List Char → Option (List Char)
  | [] => some []
  | ['Z'] | ['z'] => some ['Z']
  | sign :: rest => do
    let hour ← twoDigits? 23 (rest.take 2)
    let minute ← twoDigits? 59 (rest.drop 3)
    if (sign = '+' ∨ sign = '-') ∧ (rest.drop 2).head? = some ':' then
      return (if hour = 0 ∧ minute = 0 then '+' else sign) :: rest
    else none

def zonedTime? (word : List Char) : Option (List Char) := do
  let isTime (c : Char) : Bool := isDigit c || c = ':' || c = '.'
  let time ← time? (word.takeWhile isTime)
  let offset ← offset? (word.dropWhile isTime)
  return time ++ offset

/-- The member of a date that holds its written form. -/
def dateMember : String := "$__toml_private_datetime"

def dateValue (written : List Char) : Value :=
  .object [(dateMember, .string (String.ofList written))]

def dateTime? (word : List Char) : Option Value :=
  let date := word.take 10
  if isDate date then
    match word.drop 10 with
    | [] => some (dateValue date)
    | c :: time =>
      if c = 'T' ∨ c = 't' then
        (zonedTime? time).map fun time => dateValue (date ++ 'T' :: time)
      else none
  else (time? word).map dateValue

def word? (word : List Char) : Option Value :=
  if word = "true".toList then some (.bool true)
  else if word = "false".toList then some (.bool false)
  else (dateTime? word).or ((float? word).or (integer? word))

def scalar? (cs : List Char) : Option (Value × List Char) :=
  let word := cs.takeWhile isWord
  let rest := cs.dropWhile isWord
  let time := (rest.drop 1).takeWhile isWord
  match rest.head?, isDate word, zonedTime? time with
  | some ' ', true, some written =>
    some (dateValue (word ++ 'T' :: written), (rest.drop 1).dropWhile isWord)
  | _, _, _ => (word? word).map fun value => (value, rest)

end TreeListing.Toml
