import LadderMonitor.Monitor.State
import LadderMonitor.Polling.SettingsFile

namespace LadderMonitor

inductive ProjectSource where
  | project (project : Project)
  | document (document : Document)

inductive DeviceSource where
  | device (device : Device)
  /-- Something whose memory cannot be read. -/
  | other (kind : String)

inductive SettingsSource where
  | settings (settings : Settings)
  /-- A file, unless none is named. -/
  | file (file : Option SettingsFile)

namespace ProjectSource

def open? : ProjectSource → Reading Project
  | project p => .ok p
  | document (.object fields) => Project.ofDocument (.object fields)
  | document d => .aborted (.noProject d.kind)

end ProjectSource

namespace DeviceSource

def open? : DeviceSource → Reading Device
  | device d => .ok d
  | other kind => .aborted (.noDevice kind)

end DeviceSource

namespace SettingsSource

def open? : SettingsSource → Reading Settings
  | settings s => .ok s
  | file f =>
    match Settings.load f with
    | .ok s => .ok s
    | .error fault => .aborted fault

end SettingsSource

namespace Monitor

/-- A monitor for a project, with further networks to display. The project is looked at first, then
the device, then the settings; the first of them that is unusable decides the failure. -/
def open? (source : ProjectSource) (device : DeviceSource) (settings : SettingsSource)
    (extra : List Network) : Reading Monitor :=
  source.open?.andThen fun project =>
  device.open?.andThen fun device =>
  settings.open?.map fun settings => createDisplay settings device { project, extra }

end Monitor

end LadderMonitor
