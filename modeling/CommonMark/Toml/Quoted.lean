import CommonMark.Toml.Value

/-!
# Quoted strings

Strings between single or double quotes, on one line or on several. Between double quotes a backslash starts
an escape. A string of several lines stands between three quotes each, does not begin with the line end after
them, and may end with up to two quotes of its own. The readers start after the opening quotes and give the
text that follows the closing ones; the number they take says how many characters to skip.
-/

namespace CommonMark.Toml

/-- Whether a character may stand in a string or a comment: no control character does but the tab. -/
def isPlainChar (c : Char) : Bool := c = '\t' || (' ' ≤ c && c ≠ '\x7f')

/-- The character of a hexadecimal number of so many digits. -/
def codePoint? (count : Nat) (t : Text) : Option Char :=
  let ds := t.take count
  if ds.length = count && ds.all CharacterReference.isHexadecimal then
    let n := CharacterReference.value 16 ds
    if n.isValidChar then some (Char.ofNat n) else none
  else none

/-- The escape after a backslash: its character, and how many characters it is written in. -/
def escape? : Text → Option (Char × Nat)
  | 'b' :: _ => some ('\x08', 1)
  | 't' :: _ => some ('\t', 1)
  | 'n' :: _ => some ('\n', 1)
  | 'f' :: _ => some ('\x0c', 1)
  | 'r' :: _ => some ('\r', 1)
  | 'e' :: _ => some ('\x1b', 1)
  | '"' :: _ => some ('"', 1)
  | '\\' :: _ => some ('\\', 1)
  | 'x' :: t => (codePoint? 2 t).map (·, 3)
  | 'u' :: t => (codePoint? 4 t).map (·, 5)
  | 'U' :: t => (codePoint? 8 t).map (·, 9)
  | _ => none

/-- The text after a line end. -/
def afterNewline? : Text → Option Text
  | '\n' :: t => some t
  | '\r' :: '\n' :: t => some t
  | _ => none

namespace Quoted

/-- A string of one line. -/
def line? (quote : Char) : Nat → Text → Option (Text × Text)
  | _, [] => none
  | n + 1, _ :: t => line? quote n t
  | 0, c :: t =>
    if c = quote then some ([], t)
    else if c = '\\' && quote = '"' then
      (escape? t).bind fun (d, n) => (line? quote n t).map fun (s, r) => (d :: s, r)
    else if isPlainChar c then (line? quote 0 t).map fun (s, r) => (c :: s, r)
    else none

/-- A string of several lines. After a backslash that ends a line, white space and line ends are left out. -/
def lines? (quote : Char) : (trimming : Bool) → Nat → Text → Option (Text × Text)
  | _, _, [] => none
  | trimming, n + 1, _ :: t => lines? quote trimming n t
  | trimming, 0, c :: t =>
    let goOn (s : Text) (n : Nat) : Option (Text × Text) :=
      (lines? quote false n t).map fun (s', r) => (s ++ s', r)
    if trimming && (c = ' ' || c = '\t') then lines? quote true 0 t
    else if c = quote then
      let n := ((c :: t).takeWhile (· = quote)).length
      if n < 3 then goOn (List.replicate n quote) (n - 1)
      else if n ≤ 5 then some (List.replicate (n - 3) quote, t.drop (n - 1))
      else none
    else if c = '\n' then if trimming then lines? quote true 0 t else goOn [c] 0
    else if c = '\r' then
      if t.head? ≠ some '\n' then none
      else if trimming then lines? quote true 1 t
      else goOn [c, '\n'] 1
    else if c = '\\' && quote = '"' then
      let gap := (t.takeWhile fun c => c = ' ' || c = '\t').length
      if (afterNewline? (t.drop gap)).isSome then lines? quote true gap t
      else (escape? t).bind fun (d, n) => goOn [d] n
    else if isPlainChar c then goOn [c] 0
    else none

/-- The string at the start of a text, with its quotes. -/
def read? : Text → Option (Text × Text)
  | [] => none
  | c :: t =>
    if c ≠ '"' && c ≠ '\'' then none
    else if [c, c].isPrefixOf t then
      let t := t.drop 2
      lines? c false 0 ((afterNewline? t).getD t)
    else line? c 0 t

end Quoted

end CommonMark.Toml
