import CommonMark.Toml.Quoted
import CommonMark.Toml.Table

/-!
# Reading TOML

A file is statements, one a line: the headers of tables and of arrays of tables, and keys with their values.
Between the brackets of arrays and the braces of inline tables lines may end anywhere, comments may stand, and
a comma may follow the last entry. Values nest up to a limit.
-/

namespace CommonMark.Toml

/-- How deep arrays and inline tables may nest. -/
def nestingLimit : Nat := 80

/-- White space of a line. -/
def isSpace (c : Char) : Bool := c = ' ' || c = '\t'

/-- Moves over white space, line ends and comments; none where a control character stands. -/
def skipBlank? : (inComment : Bool) → Text → Option Text
  | _, [] => some []
  | inComment, '\r' :: c :: t => if c = '\n' then skipBlank? false t else if inComment then none else some ('\r' :: c :: t)
  | inComment, c :: t =>
    if c = '\n' then skipBlank? false t
    else if inComment then if isPlainChar c then skipBlank? true t else none
    else if isSpace c then skipBlank? false t
    else if c = '#' then skipBlank? true t
    else some (c :: t)

/-- Moves to the next line: over white space and a comment. -/
def endLine? (t : Text) : Option Text :=
  let t := t.dropWhile isSpace
  let rest :=
    match t with
    | '#' :: _ => t.dropWhile isPlainChar
    | _ => t
  if rest = [] then some [] else afterNewline? rest

/-- The characters of a key without quotes. -/
def isKeyChar (c : Char) : Bool := CharacterReference.isNameChar c || c = '_' || c = '-'

/-- A key: a quoted string of one line, or letters, digits, hyphens and underscores. -/
def key? : Text → Option (Text × Text)
  | [] => none
  | c :: t =>
    if c = '"' || c = '\'' then Quoted.line? c 0 t
    else
      match (c :: t).takeWhile isKeyChar with
      | [] => none
      | k => some (k, (c :: t).dropWhile isKeyChar)

/-- Keys with periods between them, after white space. -/
def path? : Nat → Text → Option (List Text × Text)
  | 0, _ => none
  | n + 1, t => do
    let (k, t) ← key? (t.dropWhile isSpace)
    match t.dropWhile isSpace with
    | '.' :: t => (path? n t).map fun (ks, t) => (k :: ks, t)
    | t => some ([k], t)

/-- A value without quotes; a space may stand between a date and a time. -/
def bare? (t : Text) : Option (Value × Text) :=
  let isBare (c : Char) : Bool := !isSpace c && c ≠ '\n' && c ≠ '\r' && c ≠ ',' && c ≠ ']' && c ≠ '}' && c ≠ '#'
  let word := t.takeWhile isBare
  let rest := t.dropWhile isBare
  match rest with
  | ' ' :: c :: more =>
    if afterDate? word = some [] && CharacterReference.isDecimal c then
      (scalar? (word ++ ' ' :: (c :: more).takeWhile isBare)).map (·, (c :: more).dropWhile isBare)
    else (scalar? word).map (·, rest)
  | _ => (scalar? word).map (·, rest)

mutual

/-- A value, inside so many more arrays and inline tables. -/
def value? : (fuel depth : Nat) → Text → Option (Value × Text)
  | 0, _, _ => none
  | _ + 1, 0, '[' :: _ => none
  | _ + 1, 0, '\x7b' :: _ => none
  | n + 1, depth + 1, '[' :: t => (items? n depth t).map fun (vs, t) => (.array vs, t)
  | n + 1, depth + 1, '\x7b' :: t => do
    let (entries, t) ← pairs? n depth t
    let entries ← Node.inlineTable? entries
    some (.table entries, t)
  | _ + 1, _, t =>
    match t with
    | '"' :: _ | '\'' :: _ => (Quoted.read? t).map fun (s, t) => (.string s, t)
    | _ => bare? t

/-- The items of an array up to its bracket. -/
def items? : (fuel depth : Nat) → Text → Option (List Value × Text)
  | 0, _, _ => none
  | n + 1, depth, t => do
    match ← skipBlank? false t with
    | ']' :: t => some ([], t)
    | t =>
      let (v, t) ← value? n depth t
      match ← skipBlank? false t with
      | ']' :: t => some ([v], t)
      | ',' :: t => (items? n depth t).map fun (vs, t) => (v :: vs, t)
      | _ => none

/-- The entries of an inline table up to its brace. -/
def pairs? : (fuel depth : Nat) → Text → Option (List (List Text × Value) × Text)
  | 0, _, _ => none
  | n + 1, depth, t => do
    match ← skipBlank? false t with
    | '\x7d' :: t => some ([], t)
    | t =>
      let (ks, t) ← path? (t.length + 1) t
      let '=' :: t := t.dropWhile isSpace | none
      let (v, t) ← value? n depth (t.dropWhile isSpace)
      match ← skipBlank? false t with
      | '\x7d' :: t => some ([(ks, v)], t)
      | ',' :: t => (pairs? n depth t).map fun (ps, t) => ((ks, v) :: ps, t)
      | _ => none

end

/-- The statement at the start of a line. -/
def statement? (t : Text) : Option (Statement × Text) :=
  let fuel := 2 * t.length + 2
  match t with
  | '[' :: '[' :: t => do
    let (ks, t) ← path? fuel t
    let ']' :: ']' :: t := t | none
    some (.arrayHeader ks, t)
  | '[' :: t => do
    let (ks, t) ← path? fuel t
    let ']' :: t := t | none
    some (.header ks, t)
  | t => do
    let (ks, t) ← path? fuel t
    let '=' :: t := t | none
    let (v, t) ← value? fuel nestingLimit (t.dropWhile isSpace)
    some (.entry ks v, t)

/-- The statements of a text. -/
def statements? : Nat → Text → Option (List Statement)
  | 0, _ => none
  | n + 1, t => do
    match ← skipBlank? false t with
    | [] => some []
    | t =>
      let (s, t) ← statement? t
      (statements? n (← endLine? t)).map (s :: ·)

/-- The table that a file holds; a byte order mark at its start is left out. -/
def read? : Reader := fun t =>
  let t :=
    match t with
    | '\ufeff' :: t => t
    | t => t
  (statements? (t.length + 1) t).bind Node.table?

end CommonMark.Toml
