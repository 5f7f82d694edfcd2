import StatusLine.Feature.Directory
import StatusLine.Feature.Git
import StatusLine.Feature.Model
import StatusLine.Feature.Metrics
import StatusLine.Feature.Usage

/-!
Encoders: what turns a group of features into a fragment. `Encoder.all` is the order in which the
fragments stand in a script.
-/

namespace StatusLine

inductive Encoder
  | directory
  | git
  | model
  | metrics
  | usage
  deriving Repr, DecidableEq

/-- What an encoder takes from a configuration. -/
inductive EncoderOptions
  | directory
  | git (options : Git.Options)
  | model (options : Model.Options)
  | metrics (options : Metrics.Options)
  | usage (options : Usage.Options)
  deriving Repr

def Directory.signature : Signature :=
  ⟨⟨⟨"slc.features.directory", "DirectoryConfig"⟩, false⟩, []⟩

def EncoderOptions.datum : EncoderOptions → Datum
  | directory => .record Directory.signature.made []
  | git options => options.datum
  | model options => options.datum
  | metrics options => options.datum
  | usage options => options.datum

def EncoderOptions.ofDatum (fields : Datum) : Encoder → Except Failure EncoderOptions
  | .directory => (Directory.signature.make fields).map fun _ => directory
  | .git => (Git.Options.ofDatum fields).map git
  | .model => (Model.Options.ofDatum fields).map model
  | .metrics => (Metrics.Options.ofDatum fields).map metrics
  | .usage => (Usage.Options.ofDatum fields).map usage

namespace Encoder

def all : List Encoder :=
  [.directory, .git, .model, .metrics, .usage]

def name : Encoder → String
  | directory => "directory"
  | git => "git"
  | model => "model"
  | metrics => "system"
  | usage => "usage"

def ofName? (name : String) : Option Encoder :=
  all.find? fun encoder => encoder.name == name

def configure (settings : Settings) (config : Configuration) : Encoder → Option EncoderOptions
  | directory => if Directory.isWanted config then some .directory else none
  | git => (Git.Options.ofConfiguration? settings config).map .git
  | model => (Model.Options.ofConfiguration? config).map .model
  | metrics => (Metrics.Options.ofConfiguration? config).map .metrics
  | usage => (Usage.Options.ofConfiguration? settings config).map .usage

end Encoder

def EncoderOptions.encode (context : Context) (style : Style) :
    EncoderOptions → Except Failure Fragment
  | directory => Directory.encode style
  | git options => Git.encode context options style
  | model options => Model.encode options style
  | metrics options => Metrics.encode context options style
  | usage options => Usage.encode context options style

end StatusLine
