import StatusLine.Names

/-!
The declarative configuration of a status line, and the order of the features that it can name.
-/

namespace StatusLine

inductive Theme
  | minimal
  | detailed
  | compact
  deriving Repr, DecidableEq

def Theme.name : Theme → String
  | minimal => "minimal"
  | detailed => "detailed"
  | compact => "compact"

def themes : List Theme :=
  [.minimal, .detailed, .compact]

def Theme.ofName? (name : String) : Option Theme :=
  themes.find? fun theme => theme.name == name

/-- How often system metrics are collected, and from which values on they raise an alert. -/
structure Monitoring where
  /-- Seconds between two collections. -/
  refreshRate : Int
  /-- Percent. -/
  cpuThreshold : Int
  /-- Percent. -/
  memoryThreshold : Int
  /-- Average load over one minute. -/
  loadThreshold : Float
  deriving Repr

def Monitoring.standard : Monitoring :=
  ⟨3, 80, 85, 2.0⟩

instance : BEq Monitoring where
  beq a b :=
    a.refreshRate == b.refreshRate && a.cpuThreshold == b.cpuThreshold &&
      a.memoryThreshold == b.memoryThreshold && a.loadThreshold == b.loadThreshold

structure Configuration where
  /-- The wanted features, in order and each once, whatever the order in which they were given. -/
  features : List String
  theme : Theme
  colors : Bool
  customEmojis : Bool
  usageIntegration : Bool
  logging : Bool
  monitoring? : Option Monitoring
  deriving Repr

namespace Configuration

def standard : Configuration :=
  ⟨["directory", "git", "model"], .detailed, true, false, false, false, none⟩

instance : BEq Configuration where
  beq a b :=
    a.features == b.features && a.theme == b.theme && a.colors == b.colors &&
      a.customEmojis == b.customEmojis && a.usageIntegration == b.usageIntegration &&
      a.logging == b.logging && a.monitoring? == b.monitoring?

def has (config : Configuration) (feature : String) : Bool :=
  config.features.contains feature

def monitoring (config : Configuration) : Monitoring :=
  config.monitoring?.getD .standard

end Configuration

def knownFeatures : List String :=
  ["directory", "git", "model", "cpu", "memory", "load", "usage", "session", "tokens", "burnrate",
    "cache", "projections", "alerts"]

def orderedFeatures (wanted : String → Bool) : List String :=
  knownFeatures.filter wanted

theorem orderedFeatures_congr (a b : String → Bool)
    (agree : ∀ name ∈ knownFeatures, a name = b name) : orderedFeatures a = orderedFeatures b :=
  List.filter_congr agree

end StatusLine
