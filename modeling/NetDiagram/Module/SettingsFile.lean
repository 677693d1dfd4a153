import NetDiagram.Diagram.Reading
import NetDiagram.Module.Settings

/-!
# Settings in a file

A settings file is a TOML text with a table `model`.  Everything in it may be left out, and other
keys are passed over.
-/

namespace NetDiagram.Module

/-- The fields of the table `model`. -/
def settingsShape : Record.Shape where
  name := "ModelConfig"
  fields := [Record.optional "name" Record.text, Record.optional "author" Record.text,
    Record.optional "comment" Record.text]
  closed := false

/-- Reads the table `model`. -/
def settings : Record.Decoder Settings
  | node => do
    let fields ← settingsShape.read node
    let name ← fields.get? "name" Record.text
    let author ← fields.get? "author" Record.text
    let comment ← fields.get? "comment" Record.text
    return Settings.override {} name author comment

/-- The fields of the file. -/
def settingsFileShape : Record.Shape where
  name := "AppConfig"
  fields := [Record.optional "model" settings]
  closed := false

/-- Reads the file. -/
def settingsFile : Record.Decoder Settings
  | node => do
    let fields ← settingsFileShape.read node
    fields.getD "model" settings {}

/-- Reads settings from a text. -/
def Settings.parse (source : String) : Except ReadError Settings :=
  readText settingsFile source

end NetDiagram.Module
