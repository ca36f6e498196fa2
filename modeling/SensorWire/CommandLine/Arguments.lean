import SensorWire.CommandLine.Flag

/-!
# Arguments

The arguments of a command are flags with their values and other arguments. A flag is given by its long name after two dashes, or by
its letter after one; letters of switches may stand together. Two dashes alone end the flags, and where flags stand first only, so does
the first other argument.
-/

namespace SensorWire

/-- Why arguments cannot be read. -/
inductive FlagFault where
  /-- The arguments ask for help. -/
  | help
  | malformed (arg : Text)
  | unknown (name : Text)
  | unknownLetter (letter : UInt8) (group : Text)
  | missingValue (name : Text)
  | missingLetterValue (letter : UInt8) (group : Text)
  | badValue (f : Flag) (value why : Text)

/-- Arguments that were read. -/
structure Arguments where
  settings : List (String × FlagValue) := []
  others : List Text := []

namespace FlagFault

/-- A letter in quotation marks. Bytes that are no letter show the first byte of the character with their number. -/
def quotedLetter (b : UInt8) : Text :=
  let c := if b < 0x80 then Char.ofNat b.toNat else if b < 0xc0 then Char.ofNat 0xc2 else Char.ofNat 0xc3
  let shown := if c = '"' then [c] else if c = Char.ofNat 0x27 then ['\\', c] else Quoted.rune (.char c)
  .ofChars (Char.ofNat 0x27 :: shown ++ [Char.ofNat 0x27])

/-- The text of a fault. -/
def message : FlagFault → Text
  | help => "help requested"
  | malformed arg => "bad flag syntax: " ++ arg
  | unknown name => "unknown flag: --" ++ name
  | unknownLetter b group => Text.concat ["unknown shorthand flag: ", quotedLetter b, " in -", group]
  | missingValue name => "flag needs an argument: --" ++ name
  | missingLetterValue b group => Text.concat ["flag needs an argument: ", quotedLetter b, " in -", group]
  | badValue f value why => Text.concat ["invalid argument ", value.quoted, " for ", f.names.quoted, " flag: ", why]

end FlagFault

namespace Arguments

/-- The settings that an argument makes, and whether it takes the next argument as a value. -/
abbrev Step := Except FlagFault (List (String × FlagValue) × Bool)

/-- The setting of a flag to a value. -/
def setting (f : Flag) (t : Text) : Except FlagFault (String × FlagValue) :=
  match f.kind.read t with
  | .ok v => .ok (f.name, v)
  | .error why => .error (.badValue f t why)

/-- Reads a flag given by its long name, after the dashes. -/
def readLong (flags : List Flag) (arg name : Text) (next : Option Text) : Step :=
  let (name, value) := match name.cut? '=' with
    | some (name, value) => (name, some value)
    | none => (name, none)
  if name.isEmpty || name.startsWith "-" then .error (.malformed arg)
  else match flags.find? fun f => name == Text.ofString f.name with
    | none => .error (if name = "help" then .help else .unknown name)
    | some f => match value, next with
      | some t, _ => (setting f t).map fun s => ([s], false)
      | none, next =>
        if f.kind = .switch then (setting f "true").map fun s => ([s], false)
        else match next with
          | some t => (setting f t).map fun s => ([s], true)
          | none => .error (.missingValue name)

/-- Reads flags given by their letters. -/
def readLetters (flags : List Flag) (next : Option Text) : List UInt8 → Step
  | [] => .ok ([], false)
  | b :: rest =>
    let group : Text := ⟨b :: rest⟩
    if group.startsWith "test." then .ok ([], false)
    else match flags.find? fun f => f.letter.any fun c => c.toNat == b.toNat with
      | none => .error (if b = 0x68 then .help else .unknownLetter b group)
      | some f => match rest with
        | 0x3d :: v :: value => (setting f ⟨v :: value⟩).map fun s => ([s], false)
        | rest =>
          if f.kind = .switch then do
            let s ← setting f "true"
            let (more, taken) ← readLetters flags next rest
            return (s :: more, taken)
          else if !rest.isEmpty then (setting f ⟨rest⟩).map fun s => ([s], false)
          else match next with
            | some t => (setting f t).map fun s => ([s], true)
            | none => .error (.missingLetterValue b group)

/-- Reads an argument that starts with a dash. -/
def readFlag (flags : List Flag) (arg : Text) (next : Option Text) : Step :=
  match arg.bytes with
  | 0x2d :: 0x2d :: name => readLong flags arg ⟨name⟩ next
  | _ :: letters => readLetters flags next letters
  | [] => .ok ([], false)

/-- Whether an argument is a flag. -/
def isFlag (arg : Text) : Bool := arg.startsWith "-" && 1 < arg.length

/-- Puts settings before those of other arguments. -/
def withSettings (settings : List (String × FlagValue)) (a : Arguments) : Arguments :=
  { a with settings := settings ++ a.settings }

/-- Reads arguments; `mixed` says whether flags may follow other arguments. -/
def parse (flags : List Flag) (mixed : Bool) : List Text → Except FlagFault Arguments
  | [] => .ok {}
  | [arg] =>
    if arg = "--" then .ok {}
    else if isFlag arg then do
      let (settings, _) ← readFlag flags arg none
      return { settings }
    else .ok { others := [arg] }
  | arg :: next :: rest =>
    if arg = "--" then .ok { others := next :: rest }
    else if isFlag arg then do
      let (settings, taken) ← readFlag flags arg (some next)
      let a ← if taken then parse flags mixed rest else parse flags mixed (next :: rest)
      return a.withSettings settings
    else if mixed then do
      let a ← parse flags mixed (next :: rest)
      return { a with others := arg :: a.others }
    else .ok { others := arg :: next :: rest }

/-! ## Values -/

/-- The values of a flag, in the order in which they were given. -/
def values (a : Arguments) (name : String) : List FlagValue :=
  (a.settings.filter fun s => s.1 == name).map Prod.snd

/-- The text of a flag, the last one if it was given several times. -/
def text (a : Arguments) (name : String) (absent : Text := "") : Text :=
  match (a.values name).getLast? with
  | some (.text t) => t
  | _ => absent

/-- Whether a switch is on. -/
def switch (a : Arguments) (name : String) : Bool := (a.values name).getLast? == some (.switch true)

/-- The number of a flag. -/
def number (a : Arguments) (name : String) : Int :=
  match (a.values name).getLast? with
  | some (.number n) => n
  | _ => 0

/-- All texts of a flag. -/
def texts (a : Arguments) (name : String) : List Text :=
  (a.values name).flatMap fun
    | .texts l => l
    | _ => []

end Arguments

end SensorWire
