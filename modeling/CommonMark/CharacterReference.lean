import CommonMark.CharacterReference.Names
import CommonMark.Text.Basic

/-!
# Character references

A reference is an ampersand, then `#` and 1 to 7 decimal digits, or `#x` and 1 to 6 hexadecimal digits,
or a name from the table, then a semicolon. `length?` measures the reference that starts a text, and a
`Probe` asks for it at a byte offset of a buffer, inside a window.
-/

namespace CommonMark

namespace CharacterReference

/-- Whether the table has this name; capitals matter (`is_named_entity`). -/
def isNamed (name : Text) : Bool :=
  let n := String.ofList name
  names.any fun e => e.1 == n

def isDecimal (c : Char) : Bool := '0' ≤ c && c ≤ '9'

def isHexadecimal (c : Char) : Bool :=
  isDecimal c || ('a' ≤ c && c ≤ 'f') || ('A' ≤ c && c ≤ 'F')

def isLetter (c : Char) : Bool := ('a' ≤ c && c ≤ 'z') || ('A' ≤ c && c ≤ 'Z')

/-- The characters that names of references are made of. -/
def isNameChar (c : Char) : Bool := isLetter c || isDecimal c

/-- One to `most` digits and the semicolon that ends them. -/
def digits? (isDigit : Char → Bool) (most : Nat) (t : Text) : Option Text :=
  let ds := t.takeWhile isDigit
  match t.dropWhile isDigit with
  | ';' :: _ => if ds ≠ [] ∧ ds.length ≤ most then some ds else none
  | _ => none

/-- What stands between the ampersand and the semicolon of a reference. -/
inductive Body where
  | decimal (digits : Text)
  | hexadecimal (digits : Text)
  | named (name : Text)
  deriving DecidableEq, Repr

namespace Body

/-- Characters of the whole reference, from the ampersand to the semicolon. -/
def length : Body → Nat
  | decimal ds => ds.length + 3
  | hexadecimal ds => ds.length + 4
  | named n => n.length + 2

end Body

/-- The reference that starts a text. -/
def read? : Text → Option Body
  | '&' :: '#' :: 'x' :: t => (digits? isHexadecimal 6 t).map .hexadecimal
  | '&' :: '#' :: 'X' :: t => (digits? isHexadecimal 6 t).map .hexadecimal
  | '&' :: '#' :: t => (digits? isDecimal 7 t).map .decimal
  | '&' :: t =>
    let name := t.takeWhile isNameChar
    match t.dropWhile isNameChar with
    | ';' :: _ => if isNamed name then some (.named name) else none
    | _ => none
  | _ => none

/-- The value of a digit. -/
def digitValue (c : Char) : Nat :=
  if isDecimal c then c.toNat - '0'.toNat
  else if 'a' ≤ c then c.toNat - 'a'.toNat + 10
  else c.toNat - 'A'.toNat + 10

/-- The number that digits write in a base. -/
def value (base : Nat) (ds : Text) : Nat := ds.foldl (fun n c => base * n + digitValue c) 0

/-- The character of a number; zero and numbers of no character give the replacement character. -/
def ofNumber (n : Nat) : Char :=
  if n ≠ 0 ∧ n.isValidChar then Char.ofNat n else '\ufffd'

/-- The characters that a reference stands for. -/
def Body.decode : Body → Text
  | .decimal ds => [ofNumber (value 10 ds)]
  | .hexadecimal ds => [ofNumber (value 16 ds)]
  | .named name =>
    match names.lookup (String.ofList name) with
    | some points => points.map Char.ofNat
    | none => []

end CharacterReference

/-- Asks a buffer how many bytes the reference at an offset has, reading at most the bytes that remain in the window;
zero when there is no reference (`EntityProbe::probe`). -/
abbrev Probe := (buffer : Text) → (position remaining : Nat) → Nat

namespace Probe

/-- Recognises the references of HTML (`Html5Entities`). -/
def html5 : Probe := fun buffer position remaining =>
  match buffer.slice? position remaining with
  | some w => (CharacterReference.read? w).elim 0 (·.length)
  | none => 0

/-- Recognises nothing (`NoEntities`). -/
def never : Probe := fun _ _ _ => 0

/-- Takes the whole window for a reference. -/
def every : Probe := fun _ _ remaining => remaining

end Probe

end CommonMark
