import SchemaTypes.TypeExpr.Basic

namespace SchemaTypes.TypeExpr

def arms : TypeExpr → List TypeExpr
  | union arms => arms
  | type => [type]

def parts : TypeExpr → List TypeExpr
  | intersection parts => parts
  | type => [type]

def firstOfKeys : List (TypeExpr × TypeExpr) → List (TypeExpr × TypeExpr)
  | [] => []
  | keyed :: others => keyed :: (firstOfKeys others).filter fun other => !decide (keyed.1 = other.1)

def withKey (type : TypeExpr) : TypeExpr × TypeExpr :=
  (type.canonical, type)

/-- The first of each class of same types, in order. -/
def distinct (types : List TypeExpr) : List TypeExpr :=
  (firstOfKeys (types.map withKey)).map (·.2)

theorem map_withKey_map (types : List TypeExpr) : (types.map withKey).map (·.2) = types := by
  rw [List.map_map]
  exact List.map_id types

theorem filter_map_withKey (key : TypeExpr) (types : List TypeExpr) :
    (types.map withKey).filter (fun other => !decide (key = other.1)) =
      (types.filter fun type => !decide (key = type.canonical)).map withKey :=
  List.filter_map

theorem firstOfKeys_withKey (types : List TypeExpr) :
    firstOfKeys (types.map withKey) = (distinct types).map withKey := by
  induction types with
  | nil => rfl
  | cons type types ih =>
    rw [distinct, List.map_cons, firstOfKeys, ih, filter_map_withKey, ← List.map_cons,
      map_withKey_map]

theorem distinct_nil : distinct [] = [] := rfl

theorem distinct_cons (type : TypeExpr) (types : List TypeExpr) :
    distinct (type :: types) = type :: (distinct types).filter fun other => !type.same other := by
  rw [distinct, List.map_cons, firstOfKeys, firstOfKeys_withKey, filter_map_withKey,
    ← List.map_cons, map_withKey_map]
  rfl

/-- A union of no arms is `never`. -/
def unionOf (types : List TypeExpr) : TypeExpr :=
  match distinct (types.flatMap arms) with
  | [] => never
  | [arm] => arm
  | arms => union arms

/-- An intersection of no parts is `unknown`. -/
def intersectionOf (types : List TypeExpr) : TypeExpr :=
  match types.flatMap parts with
  | [] => unknown
  | [part] => part
  | parts => intersection parts

end SchemaTypes.TypeExpr
