import SchemaTypes.Json.Members

namespace SchemaTypes

variable {Value : Type}

def mergeWritten (members : List (String × Value)) : List (String × Value) :=
  members.foldl (fun kept member => putMember member.1 member.2 kept) []

def hasTwins : List String → Bool
  | first :: second :: keys => first = second || hasTwins (second :: keys)
  | _ => false

/-- Merging changes nothing unless a key is written twice, and then it has a twin among the sorted keys. -/
def settleWritten (members : List (String × Value)) : List (String × Value) :=
  if hasTwins ((members.map (·.1)).mergeSort fun left right => left ≤ right) then mergeWritten members
  else members

theorem nodup_of_hasTwins {keys : List String} (ordered : keys.Pairwise (· ≤ ·))
    (apart : hasTwins keys = false) : keys.Nodup := by
  fun_induction hasTwins keys with
  | case1 first second keys ih =>
    simp only [Bool.or_eq_false_iff, decide_eq_false_iff_not] at apart
    obtain ⟨least, rest⟩ := List.pairwise_cons.1 ordered
    refine List.nodup_cons.2 ⟨fun found => ?_, ih rest apart.2⟩
    rcases List.mem_cons.1 found with same | later
    · exact apart.1 same
    · exact apart.1 (String.le_antisymm (least second List.mem_cons_self)
        ((List.pairwise_cons.1 rest).1 first later))
  | case2 keys short =>
    cases keys with
    | nil => exact List.nodup_nil
    | cons key keys =>
      cases keys with
      | nil => simp
      | cons second keys => exact absurd rfl (short key second keys)

theorem putMember_of_not_mem {key : String} {value : Value} {members : List (String × Value)}
    (absent : key ∉ members.map (·.1)) : putMember key value members = members ++ [(key, value)] := by
  induction members with
  | nil => rfl
  | cons member members ih =>
    simp only [List.map_cons, List.mem_cons, not_or] at absent
    have other : member.1 ≠ key := fun same => absent.1 same.symm
    simp [putMember, other, ih absent.2]

theorem foldl_putMember_of_nodup (kept members : List (String × Value))
    (apart : ((kept ++ members).map (·.1)).Nodup) :
    members.foldl (fun kept member => putMember member.1 member.2 kept) kept = kept ++ members := by
  induction members generalizing kept with
  | nil => simp
  | cons member members ih =>
    have absent : member.1 ∉ kept.map (·.1) := by
      intro found
      rw [List.map_append, List.nodup_append] at apart
      exact apart.2.2 member.1 found member.1 (by simp) rfl
    rw [List.foldl_cons, putMember_of_not_mem absent]
    rw [ih _ (by simpa using apart)]
    simp

theorem settleWritten_eq (members : List (String × Value)) :
    settleWritten members = mergeWritten members := by
  unfold settleWritten
  split
  · rfl
  · rename_i apart
    have ordered := @List.pairwise_mergeSort String (fun left right => left ≤ right)
      (by simpa using fun _ _ _ => String.le_trans) (by simpa using String.le_total)
      (members.map (·.1))
    have nodup := nodup_of_hasTwins (by simpa using ordered) (by simpa using apart)
    have keys := (List.mergeSort_perm _ _).nodup_iff.1 nodup
    exact (foldl_putMember_of_nodup [] members (by simpa using keys)).symm

end SchemaTypes
