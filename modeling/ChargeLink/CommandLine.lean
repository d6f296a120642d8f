import ChargeLink.Settings.File

/-!
# The command line

The program takes the path of its settings, a port and a log level in place of
those set, and a flag to check the settings and do nothing else. An option is
given at most once; a word that starts with a hyphen is never the value of the
word before it. The path may also come from the environment.
-/

namespace ChargeLink

/-- What the command line sets. -/
structure Options where
  config : Option String
  port : Option Nat
  logLevel : Option String
  check : Bool
  deriving DecidableEq, Repr

/-- What the command line asks for. -/
inductive Command where
  | run (options : Options)
  | showVersion
  | showHelp
  deriving DecidableEq, Repr

/-- The options that take a value. -/
inductive ValueOption where
  | config
  | port
  | logLevel
  deriving DecidableEq, Repr

/-- What a word is before its value is known. -/
inductive OptionName where
  | value (o : ValueOption)
  | check
  | help
  | version
  deriving DecidableEq, Repr

namespace OptionName

/-- The option of a long name. -/
def ofLong? (name : String) : Option OptionName :=
  if name = "config" then some (.value .config)
  else if name = "port" then some (.value .port)
  else if name = "log-level" then some (.value .logLevel)
  else if name = "check" then some .check
  else if name = "help" then some .help
  else if name = "version" then some .version
  else none

/-- The option of a letter. -/
def ofLetter? (c : Char) : Option OptionName :=
  if c = 'c' then some (.value .config)
  else if c = 'p' then some (.value .port)
  else if c = 'l' then some (.value .logLevel)
  else if c = 'h' then some .help
  else if c = 'V' then some .version
  else none

end OptionName

namespace Options

/-- Nothing is set. -/
def none : Options :=
  ⟨.none, .none, .none, false⟩

/-- The number that a text of decimal digits with an optional sign stands for. -/
def integer? (s : String) : Option Int :=
  let number (cs : List Char) : Option Nat :=
    if cs.isEmpty || !cs.all Char.isDigit then .none
    else some (cs.foldl (fun n c => n * 10 + (c.toNat - 48)) 0)
  match s.toList with
  | '-' :: r => (number r).map fun n => -n
  | '+' :: r => (number r).map fun n => n
  | cs => (number cs).map fun n => n

/-- Sets an option. None if it is set already or the value does not fit. -/
def set? (o : Options) (name : ValueOption) (value : String) : Option Options :=
  match name with
  | .config =>
    if o.config.isSome || value.isEmpty then .none else some { o with config := some value }
  | .port =>
    match integer? value with
    | some n =>
      if o.port.isSome || n < 0 || 65535 < n then .none else some { o with port := some n.toNat }
    | .none => .none
  | .logLevel =>
    if o.logLevel.isSome then .none else some { o with logLevel := some value }

/-- Sets the flag, unless it is set already. -/
def setCheck? (o : Options) : Option Options :=
  if o.check then .none else some { o with check := true }

end Options

namespace Command

/-- Whether a word may be the value of the word before it. -/
def isPlain (word : String) : Bool :=
  match word.toList with
  | '-' :: _ :: _ => false
  | _ => true

/-- The parts of a word before and after its first equals sign. -/
def splitValue (cs : List Char) : String × Option String :=
  let name := cs.takeWhile fun c => c != '='
  (String.ofList name, if name.length < cs.length then some (String.ofList (cs.drop (name.length + 1)))
    else none)

/-- What comes of a word: it asks for something at once, sets something, or waits for its value. -/
inductive Progress where
  | ask (c : Command)
  | set (o : Options)
  | await (o : Options) (name : ValueOption)
  | bad

/-- Goes on with options that could be set or not. -/
def Progress.ofOptions? : Option Options → Progress
  | some o => .set o
  | none => .bad

/-- A word that starts with two hyphens. -/
def long (o : Options) (cs : List Char) : Progress :=
  let (name, value) := splitValue cs
  match OptionName.ofLong? name, value with
  | some (.value n), some v => .ofOptions? (o.set? n v)
  | some (.value n), none => .await o n
  | some .check, none => .ofOptions? o.setCheck?
  | some .help, none => .ask .showHelp
  | some .version, none => .ask .showVersion
  | _, _ => .bad

/-- A word that starts with one hyphen; only the first letter can be known and go on. -/
def short (o : Options) : List Char → Progress
  | [] => .bad
  | c :: r =>
    match OptionName.ofLetter? c, r with
    | some (.value n), [] => .await o n
    | some (.value n), '=' :: v => .ofOptions? (o.set? n (String.ofList v))
    | some (.value n), v => .ofOptions? (o.set? n (String.ofList v))
    | some .help, _ => .ask .showHelp
    | some .version, _ => .ask .showVersion
    | _, _ => .bad

/-- What comes of a word. -/
def word (o : Options) (w : String) : Progress :=
  match w.toList with
  | '-' :: '-' :: r => long o r
  | '-' :: r => short o r
  | _ => .bad

/-- Reads the words in turn, each option with its value. -/
def ofWords? (o : Options) : List String → Option Command
  | [] => some (.run o)
  | w :: rest =>
    if w = "--" then (if rest.isEmpty then some (.run o) else none)
    else
      match word o w, rest with
      | .ask c, _ => some c
      | .set o, rest => ofWords? o rest
      | .await o n, v :: rest =>
        if isPlain v then
          match o.set? n v with
          | some o => ofWords? o rest
          | none => none
        else none
      | .await _ _, [] => none
      | .bad, _ => none

/-- Reads the command line. The path from the environment counts if none is given; there it must
not be empty either. -/
def ofArguments? (arguments : List String) (fromEnvironment : Option String) : Option Command :=
  match ofWords? .none arguments, fromEnvironment with
  | some (.run o), some path =>
    if o.config.isSome then some (.run o) else (o.set? .config path).map Command.run
  | c, _ => c

/-- The name and version of the program. -/
def versionText : String :=
  "ocpp-exchange 0.1.0\n"

end Command

namespace Options

/-- The settings that are used: those stored if they can be used, else the defaults, with what the
command line puts in their place. -/
def settings (o : Options) (stored : Except SettingsFault Settings) : Settings :=
  let s := match stored with
    | .ok s => s
    | .error _ => .standard
  { s with
    server := { s.server with port := o.port.getD s.server.port }
    logging := { s.logging with level := o.logLevel.getD s.logging.level } }

/-- What a check of the settings from a path prints. -/
def report (path : String) (s : Settings) : String :=
  "Configuration is valid\n" ++
    "   Config file  : " ++ path ++ "\n" ++
    "   WS address   : " ++ s.server.address ++ "\n" ++
    "   Call timeout : " ++ toString s.session.timeoutSecs ++ "s\n" ++
    "   Busy policy  : " ++ s.session.busyPolicy.title ++ "\n" ++
    "   Log level    : " ++ s.logging.level ++ "\n"

/-- What a check of the settings prints, or why they are no good. -/
def checked (o : Options) (path : String) (stored : Except SettingsFault Settings) :
    Except SettingsFault String :=
  match (o.settings stored).check with
  | .ok s => .ok (report path s)
  | .error f => .error f

end Options

end ChargeLink
