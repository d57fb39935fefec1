namespace SchemaTypes

structure Flags where
  /-- Enumerations are `const enum` rather than `enum`. -/
  constEnums : Bool
  /-- Lengths of arrays do not become tuples. -/
  ignoreBounds : Bool
  /-- Index signatures admit `undefined`. -/
  strictIndex : Bool
  /-- What is not typed is `unknown` rather than `any`. -/
  unknownAny : Bool
  deriving DecidableEq, Repr

structure Options where
  banner : List String
  flags : Flags
  deriving DecidableEq, Repr

def Flags.standard : Flags where
  constEnums := true
  ignoreBounds := false
  strictIndex := false
  unknownAny := true

def Options.standard : Options where
  banner := [
    "/* eslint-disable */",
    "/**",
    " * This file was automatically generated by bson-typegen.",
    " * DO NOT MODIFY IT BY HAND. Instead, modify the collection's $jsonSchema",
    " * validator and rerun bson-typegen to regenerate this file.",
    " */"]
  flags := Flags.standard

structure OptionLayer where
  banner : Option (List String)
  constEnums : Option Bool
  ignoreBounds : Option Bool
  strictIndex : Option Bool
  unknownAny : Option Bool
  deriving DecidableEq, Repr

def OptionLayer.empty : OptionLayer :=
  ⟨none, none, none, none, none⟩

namespace Options

def merge (options : Options) (layer : OptionLayer) : Options where
  banner := layer.banner.getD options.banner
  flags := {
    constEnums := layer.constEnums.getD options.flags.constEnums
    ignoreBounds := layer.ignoreBounds.getD options.flags.ignoreBounds
    strictIndex := layer.strictIndex.getD options.flags.strictIndex
    unknownAny := layer.unknownAny.getD options.flags.unknownAny }

def toLayer (options : Options) : OptionLayer where
  banner := some options.banner
  constEnums := some options.flags.constEnums
  ignoreBounds := some options.flags.ignoreBounds
  strictIndex := some options.flags.strictIndex
  unknownAny := some options.flags.unknownAny

theorem merge_toLayer (options other : Options) : options.merge other.toLayer = other := rfl

end Options

end SchemaTypes
