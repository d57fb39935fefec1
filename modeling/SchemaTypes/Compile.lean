import SchemaTypes.Annotation
import SchemaTypes.Schema.Reading
import SchemaTypes.Schema.Typing
import SchemaTypes.Source.Module

namespace SchemaTypes

def typeModule (schema : Json) (suggested banner : String) (flags : Flags) : Except Malformed String :=
  ((Schema.ofJson schema).declarations suggested flags.ignoreBounds).outcome.map fun result =>
    moduleText banner flags result.1

structure Assignment where
  schema : Json
  suggested : String
  banner : String
  flags : Flags
  deriving DecidableEq

/-- The banner's lines, and the import if any node names decimals. -/
def bannerLines (validator : Json) (options : Options) : List String :=
  options.banner ++ (if validator.namesDecimal then [decimalImport] else [])

def assignment (validator : Json) (layer : OptionLayer) : Assignment :=
  let options := Options.standard.merge layer
  { schema := validator.annotate
    suggested := ""
    banner := String.intercalate "\n" (bannerLines validator options)
    flags := options.flags }

def compile (validator : Json) (layer : OptionLayer) : Except Malformed String :=
  let assigned := assignment validator layer
  typeModule assigned.schema assigned.suggested assigned.banner assigned.flags

end SchemaTypes
