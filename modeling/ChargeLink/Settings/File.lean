import ChargeLink.Settings.Document

/-!
# Where settings are kept

The document is kept in a file. A file that is missing stands for the defaults;
one that cannot be read, or is no text in UTF-8, is a fault.
-/

namespace ChargeLink

/-- What is found at a path. -/
inductive StoredFile where
  | missing
  | directory
  | bytes (content : ByteArray)

/-- What is at a path that a document is to be written to. -/
inductive FileTarget where
  /-- A file or nothing, below directories or nothing. -/
  | writable
  /-- A directory, or a path below a file. -/
  | blocked
  deriving DecidableEq

namespace Settings

/-- The settings in a file. -/
def ofFile : StoredFile → Except SettingsFault Settings
  | .missing => .ok standard
  | .directory => .error .unreadable
  | .bytes content =>
    match String.fromUTF8? content with
    | some text => ofText text
    | none => .error .unreadable

/-- What a file holds after the settings have been saved to it. -/
def save (s : Settings) : FileTarget → Except SettingsFault String
  | .writable => .ok s.text
  | .blocked => .error .unwritable

/-- A path below another one. -/
def below (directory name : String) : String :=
  if directory.isEmpty || directory.toList.getLast? == some '/' then directory ++ name
  else directory ++ "/" ++ name

/-- The path of the file if none is given: below the directory for settings, which counts only if
it is absolute, else below the home directory. -/
def defaultPath (home : String) (configHome : Option String) : String :=
  let directory := match configHome with
    | some d => if d.toList.head? == some '/' then d else below home ".config"
    | none => below home ".config"
  below (below directory "ocpp-exchange") "config.toml"

end Settings

end ChargeLink
