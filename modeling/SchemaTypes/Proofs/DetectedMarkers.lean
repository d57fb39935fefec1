import SchemaTypes.Proofs.DecimalImport
import SchemaTypes.Proofs.Selections

/-!
Detection before and after annotation. Markers are kept by annotation, so decimals are detected after it
wherever they are before, except behind hints that are written over.
-/

namespace SchemaTypes

open Json

theorem namesMarker_annotate (name : String) (marker : Json) :
    namesMarker name marker.annotate = namesMarker name marker := by
  cases marker with
  | array names => rw [annotate, namesMarker, namesMarker, texts_annotateElements]
  | _ => rfl

theorem marksDecimal_annotatedNode (members : List (String × Json)) :
    marksDecimal (annotatedNode members) = marksDecimal members := by
  rw [marksDecimal, marksDecimal, lookup_annotatedNode (by decide), Option.any_map]
  simp only [namesMarker_annotate]

variable {value : Json}

/-- The pointer leads to an object that is marked as a decimal. -/
def Json.MarkedAt (value : Json) (pointer : Pointer) : Prop :=
  ∃ members, value.select? pointer = some (.object members) ∧ marksDecimal members = true

theorem namesDecimal_iff (distinct : value.hasDistinctKeys = true) :
    value.namesDecimal = true ↔ ∃ pointer, value.MarkedAt pointer := by
  rw [namesDecimal_eq, Bool.not_eq_true', ← Bool.not_eq_true, everyObject_iff_select? distinct]
  simp only [MarkedAt, Bool.not_eq_true', not_forall, Bool.not_eq_false, exists_prop]

theorem markedAt_annotate {pointer : Pointer} :
    value.annotate.MarkedAt pointer ↔ value.MarkedAt pointer ∧ ¬value.Overwritten pointer := by
  simp only [MarkedAt, select?_annotate_iff]
  constructor
  · rintro ⟨_, ⟨members, found, kept, rfl⟩, marked⟩
    rw [marksDecimal_annotatedNode] at marked
    exact ⟨⟨members, found, marked⟩, kept⟩
  · rintro ⟨⟨members, found, marked⟩, kept⟩
    rw [← marksDecimal_annotatedNode] at marked
    exact ⟨annotatedNode members, ⟨members, found, kept, rfl⟩, marked⟩

/--
Decimals that are detected after annotation are detected before it. The two agree just if, where any
object is marked as a decimal, one is so that is not behind a hint that annotation writes over.
-/
theorem detection_kept_iff (distinct : value.hasDistinctKeys = true) :
    (value.annotate.namesDecimal = true → value.namesDecimal = true) ∧
      (value.annotate.namesDecimal = value.namesDecimal ↔
        ((∃ pointer, value.MarkedAt pointer) →
          ∃ pointer, value.MarkedAt pointer ∧ ¬value.Overwritten pointer)) := by
  have before := namesDecimal_iff distinct
  have after := namesDecimal_iff (hasDistinctKeys_annotate distinct)
  simp only [markedAt_annotate] at after
  have narrower : value.annotate.namesDecimal = true → value.namesDecimal = true := by
    intro detected
    obtain ⟨pointer, marked, _⟩ := after.mp detected
    exact before.mpr ⟨pointer, marked⟩
  refine ⟨narrower, ?_⟩
  rw [← before, ← after]
  constructor
  · intro same detected
    rwa [same]
  · intro wider
    exact Bool.eq_iff_iff.mpr ⟨narrower, wider⟩

def hintedAmount : Json :=
  .object [("properties", .object [("amount", .object [
    ("bsonType", .string "decimal"), ("tsType", .object [("bsonType", .string "decimal")])])])]

theorem hintedAmount_detected :
    hintedAmount.hasDistinctKeys = true ∧
      hintedAmount.annotate.namesDecimal = hintedAmount.namesDecimal := by
  have distinct : hintedAmount.hasDistinctKeys = true := by decide +kernel
  refine ⟨distinct, (detection_kept_iff distinct).2.mpr fun _ => ⟨["properties", "amount"], ?_, ?_⟩⟩
  · exact ⟨_, rfl, by decide⟩
  · rintro ⟨front, back, holder, same, _⟩
    have inside : hintKey ∈ ["properties", "amount"] := by simp [same]
    revert inside
    decide

def overwrittenDecimal : Json :=
  .object [("bsonType", .string "string"), ("tsType", .object [("bsonType", .string "decimal")])]

/-- The import is asked for by a marker that annotation removes. -/
theorem overwrittenDecimal_lost :
    overwrittenDecimal.hasDistinctKeys = true ∧ overwrittenDecimal.namesDecimal = true ∧
      overwrittenDecimal.annotate.namesDecimal = false := by
  decide +kernel

end SchemaTypes
