namespace SchemaTypes

variable {Value : Type}

def putMember (key : String) (value : Value) : List (String × Value) → List (String × Value)
  | [] => [(key, value)]
  | member :: members =>
    if member.1 = key then (key, value) :: members else member :: putMember key value members

def hasMember (key : String) (members : List (String × Value)) : Bool :=
  (members.lookup key).isSome

def placeByKey (member : String × Value) : List (String × Value) → List (String × Value)
  | [] => [member]
  | next :: members =>
    if member.1 ≤ next.1 then member :: next :: members else next :: placeByKey member members

theorem lookup_cons_of_ne {key name : String} (other : key ≠ name) (value : Value)
    (members : List (String × Value)) : ((name, value) :: members).lookup key = members.lookup key := by
  have differs : (key == name) = false := by simpa using other
  rw [List.lookup_cons, differs]

theorem lookup_putMember_self (key : String) (value : Value) (members : List (String × Value)) :
    (putMember key value members).lookup key = some value := by
  induction members with
  | nil => simp [putMember]
  | cons member members ih =>
    obtain ⟨name, content⟩ := member
    by_cases found : name = key
    · simp [putMember, found]
    · rw [putMember, if_neg found, lookup_cons_of_ne (Ne.symm found), ih]

theorem lookup_putMember_of_ne {key other : String} (differs : other ≠ key) (value : Value)
    (members : List (String × Value)) :
    (putMember key value members).lookup other = members.lookup other := by
  induction members with
  | nil => exact lookup_cons_of_ne differs value []
  | cons member members ih =>
    obtain ⟨name, content⟩ := member
    by_cases found : name = key
    · rw [putMember, if_pos found, found, lookup_cons_of_ne differs, lookup_cons_of_ne differs]
    · rw [putMember, if_neg found]
      by_cases here : other = name
      · rw [here, List.lookup_cons_self, List.lookup_cons_self]
      · rw [lookup_cons_of_ne here, lookup_cons_of_ne here, ih]

theorem lookup_map_member {Other : Type} (change : String → Value → Other) (key : String)
    (members : List (String × Value)) :
    (members.map fun member => (member.1, change member.1 member.2)).lookup key =
      (members.lookup key).map (change key) := by
  induction members with
  | nil => rfl
  | cons member members ih =>
    obtain ⟨name, content⟩ := member
    cases here : key == name
    · simp [List.lookup_cons, here, ih]
    · have same : key = name := by simpa using here
      subst same
      simp

end SchemaTypes
