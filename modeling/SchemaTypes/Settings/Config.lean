import SchemaTypes.Settings.Options

/-!
Configuration in layers: defaults, then the conventional file, then what the caller gives. Each leaf
is replaced on its own.
-/

namespace SchemaTypes

structure EnvNames where
  uri : String
  database : String
  deriving DecidableEq, Repr

structure Config where
  options : Options
  path : String
  env : EnvNames
  deriving DecidableEq, Repr

structure EnvLayer where
  uri : Option String
  database : Option String
  deriving DecidableEq, Repr

structure ConfigLayer where
  options : OptionLayer
  path : Option String
  env : Option EnvLayer
  deriving DecidableEq, Repr

def configFileName : String := "bson-typegen.json"

def EnvNames.standard : EnvNames where
  uri := "MONGODB_URI"
  database := "MONGODB_DATABASE"

def Config.standard : Config where
  options := Options.standard
  path := "./types"
  env := EnvNames.standard

def EnvLayer.empty : EnvLayer := ⟨none, none⟩

def ConfigLayer.empty : ConfigLayer := ⟨.empty, none, none⟩

def EnvNames.merge (names : EnvNames) (layer : EnvLayer) : EnvNames where
  uri := layer.uri.getD names.uri
  database := layer.database.getD names.database

namespace Config

def merge (config : Config) (layer : ConfigLayer) : Config where
  options := config.options.merge layer.options
  path := layer.path.getD config.path
  env := config.env.merge (layer.env.getD .empty)

/-- The file's layer over the defaults, and the caller's over both. -/
def ofLayers (file caller : ConfigLayer) : Config :=
  (Config.standard.merge file).merge caller

end Config

end SchemaTypes
