import Minifier.Json.Record
import Minifier.Options

/-!
# Options as JSON

A set of options is an object with all nine of them. Settings are an object with some of them, and
may name options that do not exist.
-/

namespace Minifier

open Json

/-- Decodes the name of an option. -/
def OptionName.ofDraft : Draft → Decoded OptionName :=
  nameOfDraft (OptionName.all.map OptionName.text) OptionName.all

namespace Options

/-- All options as an object. -/
def toJson (o : Options) : Json :=
  .obj (OptionName.all.map fun name => (name.text, .bool (o.get name)))

/-- The field of an option. -/
def field (name : OptionName) : Record Draft Bool :=
  .required name.text (ofPeek toBool)

/-- Decodes a whole set of options. -/
def ofDraft : Draft → Decoded Options :=
  (Options.mk <$> field .sequences <*> field .properties <*> field .deadCode <*>
    field .dropDebugger <*> field .pristine <*> field .conditionals <*> field .comparisons <*>
    field .evaluate <*> field .warnings).ofDraft (.record "CompressOptions")

/-- Decodes settings. -/
def settingsOfDraft : Draft → Decoded (List (String × Bool)) :=
  mapOfDraft (ofPeek toBool)

/-- Decodes the text of settings. -/
def settingsOfText : String → Decoded (List (String × Bool)) :=
  Json.ofText settingsOfDraft

end Options

end Minifier
