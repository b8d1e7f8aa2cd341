import LadderMonitor.Polling.Settings
import LadderMonitor.Yaml.Reading

namespace LadderMonitor

/-- What is found where a settings file should be. -/
inductive SettingsFile where
  | missing
  | content (bytes : List UInt8)
deriving DecidableEq, Repr

namespace SettingsFile

/-- What reading a file comes to. -/
inductive Found where
  /-- There is no file that can be opened and read. -/
  | inaccessible
  | undecodable (flaw : Utf8.Flaw)
  /-- The text is no document. -/
  | malformed
  | value (value : Yaml.Value)

/-- Reads a file. A scalar that is not what its type says can end the reading of a document. -/
def read : SettingsFile → Except Fault Found
  | missing => .ok .inaccessible
  | content bytes =>
    match Utf8.decode bytes with
    | .error flaw => .ok (.undecodable flaw)
    | .ok text =>
      match Yaml.read text with
      | .ok value => .ok (.value value)
      | .error .malformed => .ok .malformed
      | .error (.fault fault) => .error fault

end SettingsFile

namespace PathStep

def text : PathStep → String
  | field name => name
  | index position => toString position

end PathStep

namespace Issue

/-- The place of an issue as one key. -/
def key (issue : Issue) : String := ".".intercalate (issue.path.map (·.text))

end Issue

namespace Settings

/-- The failure of a whole file. -/
def fileFault (reason : String) : Fault := .settings "configuration" reason

def unreadable : Fault := fileFault "Failed to read <file>"

/-- What an issue of settings amounts to: its key, and why the value there is not accepted. -/
def issueFault (issue : Issue) : Fault :=
  .settings (if issue.path.isEmpty then "configuration" else issue.key) issue.complaint.message

/-- The settings that the entries of a mapping give. The first of several issues counts. -/
def ofEntries (entries : List (Yaml.Value × Yaml.Value)) : Except Fault Settings :=
  if entries.any fun e => !e.1.isText then .error .keyNotText
  else match ofFields (Yaml.Value.toFields entries) with
    | .ok settings => .ok settings
    | .refused [] => .error unreadable
    | .refused (issue :: _) => .error (issueFault issue)
    | .aborted fault => .error fault

/-- The settings in the value of a file. A file without value, and an absent value for the key
`monitor`, leave everything as it is by default. -/
def ofValue : Yaml.Value → Except Fault Settings
  | .null => .ok {}
  | .mapping entries =>
    match Yaml.Value.lookup? "monitor" entries with
    | none | some (.enclosing _) => ofEntries entries
    | some (.mapping inner) => ofEntries inner
    | some value =>
      if value.truth then .error (.settings "monitor" "Expected a mapping") else .ok {}
  | value => .error (fileFault ("Expected a mapping, got " ++ value.kind))

/-- The settings in what is found in a file. -/
def ofFound : SettingsFile.Found → Except Fault Settings
  | .inaccessible | .malformed => .error unreadable
  | .undecodable flaw => .error (.undecodable flaw)
  | .value value => ofValue value

def ofFile (file : SettingsFile) : Except Fault Settings := do ofFound (← file.read)

/-- The settings in a file, or the default ones if no file is named. -/
def load : Option SettingsFile → Except Fault Settings
  | none => .ok {}
  | some file => ofFile file

end Settings

end LadderMonitor
