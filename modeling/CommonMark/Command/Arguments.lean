import CommonMark.Config

/-!
# Arguments

The command line: one subcommand, which takes flags, options with a value, and at most one input. A flag or an
option is given at most once, and no value is empty or looks like a flag. Short flags may be joined, and the
value of a short option may follow it without a space.
-/

namespace CommonMark.Command

/-- What rendering is asked for with. -/
structure RenderArguments where
  input : Option Text := none
  output : Option Text := none
  config : Option Text := none
  tight : Bool := false
  smart : Bool := false
  noEntities : Bool := false
  noReferenceDefinitions : Bool := false
  verbose : Bool := false
  deriving DecidableEq, Repr

/-- What the program is asked for. -/
inductive Request where
  | version
  | render (a : RenderArguments)
  deriving DecidableEq, Repr

namespace RenderArguments

/-- A value for a path, unless it has one or the value is empty. -/
def setPath? (old : Option Text) (new : Text) : Option (Option Text) :=
  if old.isNone && !new.isEmpty then some (some new) else none

/-- An option that takes a path. -/
inductive PathOption where
  | output
  | config
  deriving DecidableEq, Repr

/-- Takes the value of an option. -/
def setOption? (a : RenderArguments) (value : Text) : PathOption → Option RenderArguments
  | .output => (setPath? a.output value).map fun v => { a with output := v }
  | .config => (setPath? a.config value).map fun v => { a with config := v }

/-- Takes an argument that is no flag. -/
def setInput? (a : RenderArguments) (value : Text) : Option RenderArguments :=
  (setPath? a.input value).map fun v => { a with input := v }

/-- Takes a flag by its long name. -/
def setFlag? (a : RenderArguments) (name : String) : Option RenderArguments :=
  match name with
  | "tight" => if a.tight then none else some { a with tight := true }
  | "smart" => if a.smart then none else some { a with smart := true }
  | "no-entities" => if a.noEntities then none else some { a with noEntities := true }
  | "no-reference-definitions" =>
    if a.noReferenceDefinitions then none else some { a with noReferenceDefinitions := true }
  | "verbose" => if a.verbose then none else some { a with verbose := true }
  | _ => none

/-- The option of a long name. -/
def longOption? : String → Option PathOption
  | "output" => some .output
  | "config" => some .config
  | _ => none

/-- The option of a short name. -/
def shortOption? : Char → Option PathOption
  | 'o' => some .output
  | 'c' => some .config
  | _ => none

/-- Whether an argument cannot be a value: it starts with a hyphen that is not all of it. -/
def looksLikeFlag : Text → Bool
  | '-' :: _ :: _ => true
  | _ => false

/-- What an argument leaves to be done. -/
inductive Step where
  | done (a : RenderArguments)
  /-- The next argument is the value of an option. -/
  | needsValue (o : PathOption) (a : RenderArguments)
  | refused

/-- The arguments, if there are any. -/
def Step.ofOption : Option RenderArguments → Step
  | some a => .done a
  | none => .refused

/-- Takes a long flag or option, after its hyphens. -/
def takeLong (a : RenderArguments) (t : Text) : Step :=
  let name := String.ofList (t.takeWhile (· ≠ '='))
  match longOption? name, t.dropWhile (· ≠ '=') with
  | some o, '=' :: value => .ofOption (a.setOption? value o)
  | some o, _ => .needsValue o a
  | none, [] => .ofOption (a.setFlag? name)
  | none, _ => .refused

/-- Takes joined short flags, of which the last may be an option. -/
def takeShort (a : RenderArguments) : Text → Step
  | [] => .done a
  | c :: t =>
    match shortOption? c, t with
    | some o, [] => .needsValue o a
    | some o, '=' :: value => .ofOption (a.setOption? value o)
    | some o, value => .ofOption (a.setOption? value o)
    | none, _ =>
      if c = 'v' then
        match a.setFlag? "verbose" with
        | some a => takeShort a t
        | none => .refused
      else .refused

/-- Takes arguments; after a bare pair of hyphens none of them is a flag. -/
def take? (a : RenderArguments) : (plain : Bool) → List Text → Option RenderArguments
  | _, [] => some a
  | true, arg :: args => (a.setInput? arg).bind fun a => take? a true args
  | false, ['-', '-'] :: args => take? a true args
  | false, arg :: args =>
    if !looksLikeFlag arg then (a.setInput? arg).bind fun a => take? a false args
    else
      let step :=
        match arg with
        | '-' :: '-' :: name => a.takeLong name
        | flags => a.takeShort flags.tail
      match step, args with
      | .done a, args => take? a false args
      | .needsValue o a, value :: args =>
        if looksLikeFlag value then none else (a.setOption? value o).bind fun a => take? a false args
      | .needsValue .., [] => none
      | .refused, _ => none

/-- The options that arguments give. -/
def overrides (a : RenderArguments) : Overrides where
  smartPunctuation := if a.smart then some true else none
  referenceDefinitions := if a.noReferenceDefinitions then some false else none
  tight := if a.tight then some true else none
  preserveEntities := if a.noEntities then some false else none

end RenderArguments

/-- What arguments ask for; none if they cannot be understood. -/
def Request.ofArguments? : List Text → Option Request
  | [] => none
  | arg :: args =>
    if arg = "--version".toList || "-V".toList.isPrefixOf arg then some .version
    else if arg = "render".toList then (RenderArguments.take? {} false args).map .render
    else none

end CommonMark.Command
