/-
A session of the shell, from its start to its end.

It finds its settings, and writes the standard ones if there are none; puts a device on a
simulated sensor; talks with the user; and takes the device down.
-/
import DeviceConfig.Sensor.Simulator
import DeviceConfig.Shell.Dialogue
import DeviceConfig.Shell.Settings

namespace DeviceConfig

namespace Session

variable {F : Type} [FileStore F]

/-- The settings of a session, and what is said about them.  The environment is not saved. -/
def settings (env : Environment) (files : F) : Settings × List String × F :=
  let standard : Settings := {}
  match Settings.load env files with
  | (.ok (some s), files) => (s, [], files)
  | (.ok none, files) => match Settings.save env standard files with
    | (.ok (), files) =>
      (standard.override env, [s!"  Wrote default config to {env.settingsPath}"], files)
    | (.error e, files) =>
      (standard.override env, [s!"Error saving config: {e.message}"], files)
  | (.error e, files) =>
    (standard.override env, [s!"Config error: {e.message}", "  Using default configuration."],
      files)

def banner : List String :=
  ["",
    "  ╔══════════════════════════════════════╗",
    "  ║   devconf · device configuration     ║",
    "  ╚══════════════════════════════════════╝",
    ""]

/-- What is said about a device that has been started. -/
def welcome (s : Settings) : List String :=
  [s!"  Topic {s.topic} · state {(ProcessState.requested s.initialState).name}"] ++
    (s.dumpPath.map fun path => s!"  State mirrored to {path}").toList ++
    ["", "  Type /help for a list of commands.", ""]

/-- A device with some settings. -/
def lifecycle (s : Settings) (files : F) : Lifecycle Simulator Indifferent (Console F) :=
  { device := Device.new .powerOn {}
    sink := { files, dumpPath := s.dumpPath }
    topic := s.topic
    logFilter := .live "warn" }

/-- The session up to its first question. -/
def start (env : Environment) (files : F) : Dialogue Simulator Indifferent F :=
  let (s, notes, files) := settings env files
  let started := (lifecycle s files).start (ProcessState.requested s.initialState)
  { lifecycle := started : Dialogue _ _ _ }.printLines (notes ++ banner ++ welcome s)

/-- Takes the device down and says how many documents it has sent. -/
def finish (d : Dialogue Simulator Indifferent F) : Dialogue Simulator Indifferent F :=
  { d with lifecycle := d.lifecycle.shutdown }.printLine
    s!"  {d.lifecycle.sink.sent} state(s) dispatched."

/-- A whole session over some input. -/
def run (env : Environment) (input : String) (files : F) : Dialogue Simulator Indifferent F :=
  finish ((start env files).run (Dialogue.lines input))

end Session

end DeviceConfig
