import SchemaTypes.Json.Reader
import SchemaTypes.Proofs.SchemaNodes

namespace SchemaTypes

section

variable {Value : Type}

theorem mem_putMember {key : String} {value : Value} {members : List (String × Value)}
    {member : String × Value} (inside : member ∈ putMember key value members) :
    member = (key, value) ∨ member ∈ members := by
  induction members with
  | nil => exact Or.inl (List.mem_singleton.mp inside)
  | cons first others ih =>
    rw [putMember] at inside
    split at inside
    · rcases List.mem_cons.mp inside with same | later
      · exact Or.inl same
      · exact Or.inr (List.mem_cons_of_mem first later)
    · rcases List.mem_cons.mp inside with rfl | later
      · exact Or.inr List.mem_cons_self
      · exact (ih later).imp_right (List.mem_cons_of_mem first)

theorem putMember_nodup {key : String} {value : Value} {members : List (String × Value)}
    (distinct : (members.map (·.1)).Nodup) : ((putMember key value members).map (·.1)).Nodup := by
  induction members with
  | nil => simp [putMember]
  | cons first others ih =>
    rw [List.map_cons, List.nodup_cons] at distinct
    rw [putMember]
    split
    · rename_i same
      rw [same] at distinct
      rw [List.map_cons, List.nodup_cons]
      exact distinct
    · rename_i other
      rw [List.map_cons, List.nodup_cons]
      refine ⟨?_, ih distinct.2⟩
      intro inside
      obtain ⟨member, there, same⟩ := List.mem_map.mp inside
      rcases mem_putMember there with rfl | later
      · exact other same.symm
      · rw [← same] at distinct
        exact distinct.1 (List.mem_map_of_mem later)

theorem foldl_putMember (kept members : List (String × Value)) (distinct : (kept.map (·.1)).Nodup) :
    ((members.foldl (fun kept member => putMember member.1 member.2 kept) kept).map (·.1)).Nodup ∧
      members.foldl (fun kept member => putMember member.1 member.2 kept) kept ⊆ kept ++ members := by
  induction members generalizing kept with
  | nil =>
    rw [List.foldl_nil, List.append_nil]
    exact ⟨distinct, List.Subset.refl kept⟩
  | cons member members ih =>
    obtain ⟨apart, known⟩ := ih (putMember member.1 member.2 kept) (putMember_nodup distinct)
    refine ⟨apart, fun other inside => ?_⟩
    rcases List.mem_append.mp (known inside) with put | later
    · rcases mem_putMember put with rfl | before
      · exact List.mem_append_right kept List.mem_cons_self
      · exact List.mem_append_left _ before
    · exact List.mem_append_right kept (List.mem_cons_of_mem member later)

theorem settleWritten_nodup (members : List (String × Value)) :
    ((settleWritten members).map (·.1)).Nodup := by
  rw [settleWritten_eq]
  exact (foldl_putMember [] members List.nodup_nil).1

theorem settleWritten_subset (members : List (String × Value)) : settleWritten members ⊆ members := by
  rw [settleWritten_eq]
  exact (foldl_putMember [] members List.nodup_nil).2

theorem readElements_forall {Property : Value → Prop} {item : Reader Value}
    (each : ∀ chars value rest, item.read chars = .ok (value, rest) → Property value)
    {index : Nat} {chars rest : List Char} {values : List Value}
    (read : readElements item index chars = .ok (values, rest)) : ∀ value ∈ values, Property value := by
  fun_induction readElements item index chars generalizing values rest with
  | case1 => cases read
  | case2 => cases read
  | case3 index chars value tail itemRead rest' nextRead =>
    cases read
    simpa using each _ _ _ itemRead
  | case4 => cases read
  | case5 index chars value tail itemRead _ next nextRead _ _ values' rest' _ ih =>
    cases read
    rw [List.forall_mem_cons]
    exact ⟨each _ _ _ itemRead, ih ‹_›⟩

theorem readMembers_forall {Property : Value → Prop} {item : String → Reader Value}
    (each : ∀ key chars value rest, (item key).read chars = .ok (value, rest) → Property value)
    {chars rest : List Char} {members : List (String × Value)}
    (read : readMembers item chars = .ok (members, rest)) : ∀ member ∈ members, Property member.2 := by
  fun_induction readMembers item chars generalizing members rest with
  | case1 => cases read
  | case2 => cases read
  | case3 => cases read
  | case4 chars key afterKey keyRead value tail itemRead rest' nextRead =>
    cases read
    simpa using each _ _ _ _ itemRead
  | case5 => cases read
  | case6 chars key afterKey keyRead value tail itemRead _ next nextRead _ _ _ members' rest' _ ih =>
    cases read
    rw [List.forall_mem_cons]
    exact ⟨each _ _ _ _ itemRead, ih ‹_›⟩

end

namespace Json

def hasDistinctKeys (value : Json) : Bool :=
  value.everyObject fun members => decide (members.map (·.1)).Nodup

theorem hasDistinctKeys_array {elements : List Json} :
    (array elements).hasDistinctKeys = true ↔ ∀ element ∈ elements, element.hasDistinctKeys = true :=
  everyObject_array

theorem table_nodup {members table : List (String × Json)} {key : String}
    (distinct : (object members).hasDistinctKeys = true)
    (found : members.lookup key = some (.object table)) : (table.map (·.1)).Nodup := by
  have whole := everyObject_of_lookup distinct found
  exact of_decide_eq_true (everyObject_object.mp whole).1

theorem hasDistinctKeys_ofWritten {members : List (String × Json)}
    (each : ∀ member ∈ members, member.2.hasDistinctKeys = true) :
    (ofWritten members).hasDistinctKeys = true := by
  refine everyObject_object.mpr ⟨decide_eq_true (settleWritten_nodup members), ?_⟩
  exact fun member inside => each member (settleWritten_subset members inside)

theorem ok_of_map {Error Content Other : Type} {result : Except Error (Content × List Char)}
    {make : Content → Other} {value : Other} {rest : List Char}
    (mapped : (result.map fun read => (make read.1, read.2)) = .ok (value, rest)) :
    ∃ inner, result = .ok (inner, rest) ∧ value = make inner := by
  cases result with
  | error => cases mapped
  | ok read =>
    cases mapped
    exact ⟨read.1, rfl, rfl⟩

theorem eq_of_word {letters unread rest : List Char} {result value : Json}
    (mapped : ((readWord letters unread).map fun rest => (result, rest)) = .ok (value, rest)) :
    value = result := by
  cases here : readWord letters unread with
  | error => simp [here, Except.map] at mapped
  | ok unread =>
    rw [here] at mapped
    cases mapped
    rfl

/-- What a reader of parts keeps distinct, a reader of wholes does. -/
theorem readWith_distinct {nested : Option (Reader Json)}
    (parts : ∀ item, nested = some item → ∀ chars value rest,
      item.read chars = .ok (value, rest) → value.hasDistinctKeys = true)
    {chars rest : List Char} {value : Json} (read : readWith nested chars = .ok (value, rest)) :
    value.hasDistinctKeys = true := by
  unfold readWith at read
  simp only at read
  split at read
  · cases read
  · obtain rfl := eq_of_word read
    rfl
  · obtain rfl := eq_of_word read
    rfl
  · obtain rfl := eq_of_word read
    rfl
  · obtain ⟨text, _, rfl⟩ := ok_of_map read
    rfl
  · obtain ⟨number, _, rfl⟩ := ok_of_map read
    rfl
  · split at read
    · cases read
    · rename_i item
      obtain ⟨elements, elementsRead, rfl⟩ := ok_of_map read
      rw [hasDistinctKeys_array]
      unfold readList at elementsRead
      split at elementsRead
      · cases elementsRead
      · cases elementsRead
        simp
      · exact readElements_forall (parts item rfl) elementsRead
  · split at read
    · cases read
    · rename_i item
      obtain ⟨members, membersRead, rfl⟩ := ok_of_map read
      apply hasDistinctKeys_ofWritten
      unfold readTable at membersRead
      split at membersRead
      · cases membersRead
      · cases membersRead
        simp
      · exact readMembers_forall (fun _ => parts item rfl) membersRead
  · split at read
    · obtain ⟨number, _, rfl⟩ := ok_of_map read
      rfl
    · cases read

theorem reader_distinct (depth : Nat) (chars : List Char) (value : Json) (rest : List Char)
    (read : (reader depth).read chars = .ok (value, rest)) : value.hasDistinctKeys = true := by
  induction depth generalizing chars value rest with
  | zero =>
    have flat : readWith none chars = .ok (value, rest) := read
    refine readWith_distinct ?_ flat
    intro item given
    cases given
  | succ depth ih =>
    have nested : readWith (some (reader depth)) chars = .ok (value, rest) := read
    refine readWith_distinct ?_ nested
    intro item given
    cases given
    exact ih

theorem readDocument_distinct {text : String} {value : Json} (read : readDocument text = .ok value) :
    value.hasDistinctKeys = true := by
  simp only [readDocument, readFront] at read
  cases here : (reader depthLimit).read text.toList with
  | error => simp [here, Except.map] at read
  | ok result =>
    rw [here] at read
    cases read
    exact reader_distinct depthLimit text.toList result.1 result.2 here

end Json

end SchemaTypes
