import StatusLine.Configuration.Basic
import StatusLine.Datum.Key
import StatusLine.Text.Substring

/-!
Configurations as data, with the field names of configuration files, and the features that data name.
-/

namespace StatusLine

def Monitoring.recordKind : RecordKind :=
  ⟨⟨"slc.config", "SystemMonitoring"⟩, true⟩

def Monitoring.datum (monitoring : Monitoring) : Datum :=
  .record recordKind
    [("refresh_rate", .int monitoring.refreshRate), ("cpu_threshold", .int monitoring.cpuThreshold),
      ("memory_threshold", .int monitoring.memoryThreshold),
      ("load_threshold", .float monitoring.loadThreshold)]

def Configuration.recordKind : RecordKind :=
  ⟨⟨"slc.config", "StatuslineConfig"⟩, true⟩

def Configuration.datum (config : Configuration) : Datum :=
  .record recordKind
    [("features", .frozenSet (config.features.map .text)), ("theme", .text config.theme.name),
      ("colors", .bool config.colors), ("custom_emojis", .bool config.customEmojis),
      ("usage_integration", .bool config.usageIntegration), ("logging", .bool config.logging),
      ("system_monitoring", (config.monitoring?.map Monitoring.datum).getD .null)]

def orderedFeaturesOf (features : Datum) : Except Failure (List String) :=
  match features, features.items? with
  | .text text, _ =>
      .ok (orderedFeatures fun name => Text.contains name.toList text.toList)
  | _, some items => .ok (orderedFeatures fun name => items.any fun item => item.same (.text name))
  | _, none =>
      .error (.wrongKind ("argument of type '" ++ features.kindName ++ "' is not iterable"))

end StatusLine
