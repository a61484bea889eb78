import Playthrough.Json
import Playthrough.Report.Basic

/-!
# Reports as data

The JSON form of a report. Parts that were not asked for are left out; the time of a story that
cannot end is `null`.
-/

namespace Playthrough

open Reading

/-- A member that is left out if it has no value. -/
def Json.optional (key : String) (value : Option Json) : List (String × Json) :=
  (value.map fun value => (key, value)).toList

/-- A share as data. -/
def Share.toJson (share : Share Float) : Json :=
  .object [("name", .string share.category.display), ("builtin", .bool share.category.isBuiltin),
    ("time", .float share.time)]

/-- A line as data. -/
def SpokenLine.toJson (line : SpokenLine) : Json :=
  .object [("speaker", .string line.speaker.display), ("text", .string line.text)]

/-- A block as data. -/
def BlockEntry.toJson (entry : BlockEntry) : Json :=
  .object (Json.optional "label" (entry.label.map fun label => .string label.display)
    ++ Json.optional "texts" (entry.texts.map fun texts => .array (texts.map SpokenLine.toJson)))

/-- A step as data. -/
def PathEntry.toJson : PathEntry → Json
  | .block entry => .object [("block", entry.toJson)]
  | .loop members => .object [("loop", .array (members.map BlockEntry.toJson))]

/-- A route as data. -/
def BoundReport.toJson (report : BoundReport Float) : Json :=
  .object (("time", (report.time.map Json.float).getD .null)
    :: Json.optional "by_characters"
        (report.shares.map fun shares => .array (shares.map Share.toJson))
    ++ Json.optional "path" (report.path.map fun path => .array (path.map PathEntry.toJson)))

/-- The settings of a report as data. -/
def settingsJson (settings : Settings Float) : Json :=
  .object
    [("speed", .object [("ncjk", .float settings.speed), ("cjk", .float settings.cjkSpeed)]),
     ("extra", .object [("pause", .bool settings.pause), ("scene", .float settings.scene),
       ("show", .float settings.image), ("next", .float settings.next)])]

/-- A report as data. -/
def FileReport.toJson (report : FileReport Float) : Json :=
  .object (("file", .string report.file)
    :: Json.optional "minimum" (report.minimum.map BoundReport.toJson)
    ++ Json.optional "maximum" (report.maximum.map BoundReport.toJson)
    ++ [("config", settingsJson report.settings)])

end Playthrough
