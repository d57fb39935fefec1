import SchemaTypes.Proofs.Operands

namespace SchemaTypes.TypeExpr

variable {flags : Flags} {depth : Nat}

/-! Tuples -/

inductive Slot where
  | needed (type : TypeExpr)
  | optional (type : TypeExpr)
  | spread (type : TypeExpr)

namespace Slot

def type : Slot → TypeExpr
  | needed type => type
  | optional type => type
  | spread type => type

def element? : Slot → Option TypeExpr
  | needed type => some type
  | optional type => some type
  | spread _ => none

def isNeeded : Slot → Bool
  | needed _ => true
  | _ => false

def spread? : Slot → Option TypeExpr
  | spread type => some type
  | _ => none

def text (flags : Flags) (depth : Nat) : Slot → List Char
  | needed type => (type.render flags depth).toList
  | optional type => operand flags depth type ++ ['?']
  | spread type => '.' :: '.' :: '.' :: operand flags depth (list type)

end Slot

def elementSlots : Nat → List TypeExpr → List Slot
  | _, [] => []
  | 0, element :: elements => .optional element :: elementSlots 0 elements
  | required + 1, element :: elements => .needed element :: elementSlots required elements

def slots (elements : List TypeExpr) (required : Nat) (rest : Option TypeExpr) : List Slot :=
  elementSlots required elements ++ rest.toList.map .spread

theorem renderElements_eq (required : Nat) (elements : List TypeExpr) :
    (renderElements flags depth required elements).map String.toList =
      (elementSlots required elements).map (Slot.text flags depth) := by
  induction elements generalizing required with
  | nil => rfl
  | cons element elements ih =>
    cases required with
    | zero =>
      rw [renderElements, if_pos rfl, List.map_cons, ih, elementSlots, List.map_cons,
        String.toList_append, Slot.text, operand]
      rfl
    | succ required =>
      rw [renderElements, if_neg (Nat.succ_ne_zero required), List.map_cons, ih, elementSlots,
        List.map_cons, Slot.text]
      rfl

theorem operand_tuple (elements : List TypeExpr) (required : Nat) (rest : Option TypeExpr) :
    operand flags depth (tuple elements required rest) =
      '[' :: ([',', ' '].intercalate ((slots elements required rest).map (Slot.text flags depth)) ++
        [']']) := by
  rw [operand_of_simple rfl]
  cases rest with
  | none =>
    rw [render, String.toList_append, String.toList_append, String.toList_intercalate,
      renderElements_eq, slots, Option.toList_none, List.map_nil, List.append_nil]
    rfl
  | some rest =>
    have spread : ("..." ++ parenthesized rest.isCompound (rest.render flags depth) ++ "[]").toList =
        Slot.text flags depth (.spread rest) := by
      rw [Slot.text, operand_list, operand, String.toList_append, String.toList_append]
      rfl
    rw [render, String.toList_append, String.toList_append, String.toList_intercalate, List.map_append,
      renderElements_eq, List.map_singleton, spread, slots, List.map_append]
    rfl

theorem slots_elements (elements : List TypeExpr) (required : Nat) (rest : Option TypeExpr) :
    (slots elements required rest).filterMap Slot.element? = elements := by
  have spelled : ∀ required, (elementSlots required elements).filterMap Slot.element? = elements := by
    induction elements with
    | nil => exact fun _ => rfl
    | cons element elements ih =>
      intro required
      cases required with
      | zero => simp [elementSlots, Slot.element?, ih]
      | succ required => simp [elementSlots, Slot.element?, ih]
  rw [slots, List.filterMap_append, spelled]
  cases rest <;> simp [Slot.element?]

theorem slots_required {elements : List TypeExpr} {required : Nat} (rest : Option TypeExpr)
    (enough : required ≤ elements.length) :
    (slots elements required rest).countP Slot.isNeeded = required := by
  have counted : (elementSlots required elements).countP Slot.isNeeded = required := by
    induction elements generalizing required with
    | nil =>
      rw [Nat.le_zero.mp enough]
      rfl
    | cons element elements ih =>
      cases required with
      | zero => simp [elementSlots, Slot.isNeeded, ih (Nat.zero_le _)]
      | succ required =>
        simp [elementSlots, List.countP_cons, Slot.isNeeded, ih (Nat.le_of_succ_le_succ enough)]
  rw [slots, List.countP_append, counted]
  cases rest <;> simp [Slot.isNeeded]

theorem slots_rest (elements : List TypeExpr) (required : Nat) (rest : Option TypeExpr) :
    (slots elements required rest).findSome? Slot.spread? = rest := by
  have unspread : ∀ required, (elementSlots required elements).findSome? Slot.spread? = none := by
    induction elements with
    | nil => exact fun _ => rfl
    | cons element elements ih =>
      intro required
      cases required with
      | zero => exact ih 0
      | succ required => exact ih required
  rw [slots, List.findSome?_append, unspread, Option.none_or]
  cases rest <;> rfl

/-! Object types -/

inductive Member where
  | named (field : Field TypeExpr)
  | indexed (type : TypeExpr)

namespace Member

def type : Member → TypeExpr
  | named field => field.content
  | indexed type => type

def field? : Member → Option (Field TypeExpr)
  | named field => some field
  | indexed _ => none

def index? : Member → Option TypeExpr
  | named _ => none
  | indexed type => some type

def isUndocumented : Member → Bool
  | named field => field.docs.isNone
  | indexed _ => true

def head : Member → String
  | named field => memberKey field.name ++ (if field.required then "" else "?") ++ ": "
  | indexed _ => "[k: string]: "

/-- What an index signature adds to its type. -/
def suffix (flags : Flags) : Member → String
  | named _ => ""
  | indexed _ => if flags.strictIndex then " | undefined" else ""

def line (flags : Flags) (depth : Nat) (member : Member) : String :=
  indentation depth ++ member.head ++ member.type.render flags depth ++ member.suffix flags ++ ";\n"

def text (flags : Flags) (depth : Nat) (member : Member) : List Char :=
  (member.line flags depth).toList

end Member

def members (fields : List (Field TypeExpr)) (index : Option TypeExpr) : List Member :=
  fields.map .named ++ index.toList.map .indexed

theorem fieldText_eq (name : String) (content : TypeExpr) (required : Bool) :
    fieldText depth name required none (content.render flags depth) =
      (Member.named ⟨name, content, required, none⟩).line flags depth := by
  simp only [fieldText, docBlock, Member.line, Member.head, Member.type, Member.suffix,
    String.empty_append, String.append_empty, String.append_assoc]

theorem renderFields_eq {fields : List (Field TypeExpr)}
    (undocumented : ∀ field ∈ fields, field.docs = none) :
    (String.join (renderFields flags depth fields)).toList =
      (fields.map Member.named).flatMap (Member.text flags depth) := by
  induction fields with
  | nil => rfl
  | cons field fields ih =>
    rw [List.forall_mem_cons] at undocumented
    obtain ⟨name, content, required, docs⟩ := field
    obtain rfl : docs = none := undocumented.1
    rw [renderFields, String.join_cons, String.toList_append, ih undocumented.2, fieldText_eq,
      List.map_cons, List.flatMap_cons, Member.text]

theorem render_object (fields : List (Field TypeExpr)) (index : Option TypeExpr) :
    (object fields index).render flags depth =
      objectText flags depth (renderFields flags (depth + 1) fields)
        (index.map (render flags (depth + 1))) := by
  cases index <;> rw [render] <;> rfl

theorem objectText_eq {fields : List String} {index : Option String}
    (filled : fields ≠ [] ∨ index ≠ none) :
    objectText flags depth fields index = "\x7b\n" ++ (String.join fields ++ index.elim "" fun type =>
      indentation (depth + 1) ++ "[k: string]: " ++ type ++
        (if flags.strictIndex then " | undefined" else "") ++ ";\n") ++ indentation depth ++ "\x7d" := by
  unfold objectText
  split
  · simp at filled
  · cases index with
    | none => simp only [Option.elim, String.append_assoc]
    | some type => simp only [Option.elim, String.append_assoc]

def membersText (flags : Flags) (depth : Nat) : List Member → List Char
  | [] => ['}']
  | members =>
    '\n' :: (members.flatMap (Member.text flags (depth + 1)) ++ ((indentation depth).toList ++ ['}']))

theorem membersText_filled {members : List Member} (filled : members ≠ []) :
    membersText flags depth members = '\n' ::
      (members.flatMap (Member.text flags (depth + 1)) ++ ((indentation depth).toList ++ ['}'])) := by
  cases members with
  | nil => exact absurd rfl filled
  | cons member members => rfl

theorem operand_object {fields : List (Field TypeExpr)} {index : Option TypeExpr}
    (undocumented : ∀ field ∈ fields, field.docs = none) :
    operand flags depth (object fields index) =
      '{' :: membersText flags depth (members fields index) := by
  rw [operand_of_simple rfl, render_object]
  by_cases bare : fields = [] ∧ index = none
  · obtain ⟨rfl, rfl⟩ := bare
    have empty : objectText flags depth [] none = "\x7b\x7d" := rfl
    rw [Option.map_none, renderFields, empty]
    rfl
  · have filled : renderFields flags (depth + 1) fields ≠ [] ∨
        index.map (render flags (depth + 1)) ≠ none := by
      cases fields <;> cases index <;> simp_all [renderFields]
    have some_left : members fields index ≠ [] := by
      cases fields <;> cases index <;> simp_all [members]
    have indexed : (index.toList.map Member.indexed).flatMap (Member.text flags (depth + 1)) =
        ((index.map (render flags (depth + 1))).elim "" fun type =>
          indentation (depth + 1) ++ "[k: string]: " ++ type ++
            (if flags.strictIndex then " | undefined" else "") ++ ";\n").toList := by
      cases index with
      | none => rfl
      | some index => exact List.append_nil _
    rw [objectText_eq filled, membersText_filled some_left, members, List.flatMap_append, indexed,
      ← renderFields_eq undocumented]
    simp only [String.toList_append, List.append_assoc]
    rfl

theorem members_fields (fields : List (Field TypeExpr)) (index : Option TypeExpr) :
    (members fields index).filterMap Member.field? = fields := by
  rw [members, List.filterMap_append, List.filterMap_map]
  cases index <;> simp [Function.comp_def, Member.field?]

theorem members_index (fields : List (Field TypeExpr)) (index : Option TypeExpr) :
    (members fields index).findSome? Member.index? = index := by
  have unindexed : (fields.map Member.named).findSome? Member.index? = none := by
    rw [List.findSome?_eq_none_iff, List.forall_mem_map]
    exact fun _ _ => rfl
  rw [members, List.findSome?_append, unindexed, Option.none_or]
  cases index <;> rfl

/-! Openers -/

theorem undocumented_of_regular {fields : List (Field TypeExpr)} {index : Option TypeExpr}
    (regular : (object fields index).isRegular = true) : ∀ field ∈ fields, field.docs = none := by
  have here := (isRegular_iff.mp regular).1
  simpa [isRegularHere] using here

theorem operand_opener (flags : Flags) (depth : Nat) {type : TypeExpr} {opener : Char}
    (regular : type.isRegular = true) (opened : type.opener? = some opener) : ∃ chars, operand flags depth type = opener :: chars := by
  unfold opener? at opened
  split at opened
  · cases opened
    exact ⟨_, operand_literal _⟩
  · cases opened
    exact ⟨_, operand_tuple _ _ _⟩
  · cases opened
    exact ⟨_, operand_object (undocumented_of_regular regular)⟩
  · cases opened
    exact ⟨_, operand_of_compound rfl⟩
  · cases opened
    exact ⟨_, operand_of_compound rfl⟩
  · cases opened

/-- Operands that agree at their beginning have cores of one kind. -/
theorem opener_eq {type other : TypeExpr} (proper : type.IsCore) (proper' : other.IsCore)
    {rest rest' : List Char}
    (same : operand flags depth type ++ rest = operand flags depth other ++ rest') :
    type.opener? = other.opener? := by
  have kind : ∀ type : TypeExpr, type.IsCore → ∀ rest, ∃ char,
      (operand flags depth type ++ rest).head? = some char ∧
        type.opener? = if isWordChar char then none else some char := by
    intro type proper rest
    cases opened : type.opener? with
    | some opener =>
      obtain ⟨chars, spelled⟩ := operand_opener flags depth proper.1 opened
      rw [spelled]
      exact ⟨opener, rfl, by rw [opener_not_word opened]; rfl⟩
    | none =>
      obtain ⟨char, chars, spelled, usable⟩ :=
        isWord_cons (operand_word flags depth proper opened)
      rw [spelled]
      exact ⟨char, rfl, by rw [usable]; rfl⟩
  obtain ⟨char, first, opened⟩ := kind type proper rest
  obtain ⟨char', first', opened'⟩ := kind other proper' rest'
  rw [same, first', Option.some.injEq] at first
  rw [opened, opened', first]

theorem operand_starts (flags : Flags) (depth : Nat) {type : TypeExpr} (regular : type.isRegular = true) :
    ∃ char chars, operand flags depth type = char :: chars ∧ char ∉ [']', '.', ' '] := by
  have proper : type.core.IsCore := ⟨core_isRegular regular, core_not_list type⟩
  rw [operand_core]
  cases opened : type.core.opener? with
  | some opener =>
    obtain ⟨chars, spelled⟩ := operand_opener flags depth proper.1 opened
    refine ⟨opener, chars ++ brackets type.ranks, by rw [spelled]; rfl, ?_⟩
    unfold opener? at opened
    split at opened <;> cases opened <;> decide
  | none =>
    obtain ⟨char, chars, spelled, usable⟩ :=
      isWord_cons (operand_word flags depth proper opened)
    refine ⟨char, chars ++ brackets type.ranks, by rw [spelled]; rfl, ?_⟩
    have others : [']', '.', ' '].all (!isWordChar ·) = true := by decide
    intro other
    have unusable := List.all_eq_true.mp others char other
    rw [usable] at unusable
    cases unusable

theorem render_starts (flags : Flags) (depth : Nat) {type : TypeExpr} (regular : type.isRegular = true) :
    ∃ char chars, (type.render flags depth).toList = char :: chars ∧ char ∉ [']', '.', ' '] := by
  obtain ⟨char, chars, spelled, other⟩ :=
    operand_starts flags depth (isRegular_links regular).1
  exact ⟨char, _, by rw [render_links flags depth regular, spelled]; rfl, other⟩

/-! Types told apart -/

/-- Before what may follow there, the type is told apart as an operand, by its first operand, and whole. -/
structure ToldApart (flags : Flags) (type : TypeExpr) : Prop where
  core : ∀ depth, Delimits (operand flags depth) IsCore Unworded type.core
  first : ∀ depth, Delimits (operand flags depth) (isRegular · = true) Unbracketed type.first
  whole : ∀ depth, Delimits (fun type => (type.render flags depth).toList) (isRegular · = true)
    (Ends flags) type

theorem ToldApart.operand {type : TypeExpr} (told : ToldApart flags type) (depth : Nat) :
    Delimits (operand flags depth) (isRegular · = true) Unbracketed type :=
  delimits_operand (told.core depth)

def SlotEnds (rest : List Char) : Prop :=
  rest.head? = some ',' ∨ rest.head? = some ']'

theorem SlotEnds.ends (flags : Flags) {rest : List Char} (ended : SlotEnds rest) : Ends flags rest := by
  cases rest with
  | nil => simp [SlotEnds] at ended
  | cons char rest =>
    rw [SlotEnds, List.head?_cons, Option.some.injEq, Option.some.injEq] at ended
    rcases ended with rfl | rfl
    · exact ends_cons (by decide) (by decide) (by decide) rest
    · exact ends_cons (by decide) (by decide) (by decide) rest

theorem unbracketed_mark (rest : List Char) : Unbracketed ('?' :: rest) :=
  unbracketed_cons (by decide) (by decide) rest

theorem mark_ne {rest : List Char} (ended : SlotEnds rest) (links : List (Operator × TypeExpr))
    (rest' : List Char) : links.flatMap (linkText flags depth) ++ rest ≠ '?' :: rest' := by
  intro same
  cases links with
  | nil =>
    rw [List.flatMap_nil, List.nil_append] at same
    simp [SlotEnds, same] at ended
  | cons link links =>
    obtain ⟨operator, type⟩ := link
    cases operator <;> simp [linkText, Operator.chars] at same

theorem slot_starts (flags : Flags) (depth : Nat) {slot : Slot} (regular : slot.type.isRegular = true) :
    ∃ char chars, slot.text flags depth = char :: chars ∧ char ≠ ']' := by
  cases slot with
  | needed type =>
    obtain ⟨char, chars, spelled, other⟩ := render_starts flags depth regular
    exact ⟨char, chars, spelled, fun same => other (by simp [same])⟩
  | optional type =>
    have proper : type.isRegular = true := regular
    obtain ⟨char, chars, spelled, other⟩ := operand_starts flags depth proper
    exact ⟨char, chars ++ ['?'], by rw [Slot.text, spelled]; rfl, fun same => other (by simp [same])⟩
  | spread type => exact ⟨'.', _, rfl, by decide⟩

theorem not_spread {type : TypeExpr} (regular : type.isRegular = true) (rest rest' : List Char) :
    (type.render flags depth).toList ++ rest ≠ '.' :: rest' ∧
      operand flags depth type ++ rest ≠ '.' :: rest' := by
  obtain ⟨char, chars, spelled, dot⟩ := render_starts flags depth regular
  obtain ⟨char', chars', spelled', dot'⟩ := operand_starts flags depth regular
  rw [spelled, spelled']
  constructor
  · exact fun same => dot (by simp [(List.cons.inj same).1])
  · exact fun same => dot' (by simp [(List.cons.inj same).1])

theorem delimits_slot {slot : Slot} (regular : slot.type.isRegular = true)
    (told : ToldApart flags slot.type) :
    Delimits (Slot.text flags depth) (·.type.isRegular = true) SlotEnds slot := by
  intro other rest rest' regular' ended ended' same
  cases slot with
  | needed type =>
    cases other with
    | needed type' =>
      obtain ⟨rfl, rfl⟩ := told.whole depth type' rest rest' regular' (ended.ends flags)
        (ended'.ends flags) same
      exact ⟨rfl, rfl⟩
    | optional type' =>
      have links := render_links flags depth (show type.isRegular = true from regular)
      simp only [Slot.text, links, List.append_assoc] at same
      obtain ⟨_, mark⟩ := told.first depth type' _ _ regular'
        (unbracketed_links type.links (ended.ends flags)) (unbracketed_mark rest') same
      exact absurd mark (mark_ne ended type.links rest')
    | spread type' => exact absurd same (not_spread regular rest _).1
  | optional type =>
    cases other with
    | needed type' =>
      have links := render_links flags depth (show type'.isRegular = true from regular')
      simp only [Slot.text, links, List.append_assoc] at same
      obtain ⟨_, mark⟩ := told.operand depth type'.first _ _ (isRegular_links regular').1
        (unbracketed_mark rest) (unbracketed_links type'.links (ended'.ends flags)) same
      exact absurd mark.symm (mark_ne ended' type'.links rest)
    | optional type' =>
      simp only [Slot.text, List.append_assoc] at same
      obtain ⟨rfl, mark⟩ := told.operand depth type' _ _ regular' (unbracketed_mark rest)
        (unbracketed_mark rest') same
      exact ⟨rfl, (List.cons.inj mark).2⟩
    | spread type' =>
      simp only [Slot.text, List.append_assoc] at same
      exact absurd same (not_spread regular _ _).2
  | spread type =>
    cases other with
    | needed type' => exact absurd same.symm (not_spread regular' rest' _).1
    | optional type' =>
      simp only [Slot.text, List.append_assoc] at same
      exact absurd same.symm (not_spread regular' _ _).2
    | spread type' =>
      have spread : Delimits (operand flags depth) (isRegular · = true) Unbracketed (list type) :=
        delimits_operand (told.core depth)
      have regular'' : (list type').isRegular = true :=
        isRegular_iff.mpr ⟨rfl, fun part inside => by rwa [List.mem_singleton.mp inside]⟩
      simp only [Slot.text, List.cons_append, List.cons.injEq, true_and] at same
      obtain ⟨lists, rfl⟩ := spread (list type') rest rest' regular'' (ended.ends flags).unbracketed
        (ended'.ends flags).unbracketed same
      rw [list.inj lists]
      exact ⟨rfl, rfl⟩

theorem mem_elementSlots {required : Nat} {elements : List TypeExpr} {slot : Slot}
    (inside : slot ∈ elementSlots required elements) : slot.type ∈ elements := by
  induction elements generalizing required with
  | nil => cases inside
  | cons element elements ih =>
    cases required with
    | zero =>
      rcases List.mem_cons.mp inside with rfl | later
      · exact List.mem_cons_self
      · exact List.mem_cons_of_mem element (ih later)
    | succ required =>
      rcases List.mem_cons.mp inside with rfl | later
      · exact List.mem_cons_self
      · exact List.mem_cons_of_mem element (ih later)

theorem mem_slots {elements : List TypeExpr} {required : Nat} {rest : Option TypeExpr} {slot : Slot}
    (inside : slot ∈ slots elements required rest) :
    slot.type ∈ (tuple elements required rest).inner := by
  rcases List.mem_append.mp inside with element | spread
  · exact List.mem_append_left _ (mem_elementSlots element)
  · obtain ⟨type, there, rfl⟩ := List.mem_map.mp spread
    exact List.mem_append_right _ there

theorem tuple_of_opener {type : TypeExpr} (opened : type.opener? = some '[') :
    ∃ elements required rest, type = tuple elements required rest := by
  unfold opener? at opened
  split at opened <;> simp at opened
  exact ⟨_, _, _, rfl⟩

theorem delimits_tuple {elements : List TypeExpr} {required : Nat} {rest : Option TypeExpr}
    (regular : (tuple elements required rest).isRegular = true)
    (told : ∀ part ∈ (tuple elements required rest).inner, ToldApart flags part) :
    Delimits (operand flags depth) (fun other => other.isRegular = true ∧ other.opener? = some '[')
      Unworded (tuple elements required rest) := by
  have each : ∀ {elements required rest}, (tuple elements required rest).isRegular = true →
      ∀ slot ∈ slots elements required rest, slot.type.isRegular = true :=
    fun regular slot inside => (isRegular_iff.mp regular).2 slot.type (mem_slots inside)
  have enough : ∀ {elements required rest}, (tuple elements required rest).isRegular = true →
      required ≤ elements.length := fun regular => of_decide_eq_true (isRegular_iff.mp regular).1
  have separated : Delimits (fun slots => [',', ' '].intercalate (slots.map (Slot.text flags depth)))
      (∀ slot ∈ ·, slot.type.isRegular = true) (·.head? = some ']') (slots elements required rest) := by
    have closing : ∀ rest : List Char, rest.head? = some ']' → SlotEnds rest := fun _ => Or.inr
    have comma : ∀ rest : List Char, SlotEnds ([',', ' '] ++ rest) := fun _ => Or.inl rfl
    apply delimits_intercalate closing comma _ _ (each regular)
    · exact fun slot inside => delimits_slot (each regular slot inside) (told slot.type (mem_slots inside))
    · intro rest closed
      simp at closed
    · intro slot rest regular closed
      obtain ⟨char, chars, spelled, other⟩ := slot_starts flags depth regular
      rw [spelled] at closed
      exact other (Option.some.inj closed)
  rintro other after after' ⟨regular', opened⟩ _ _ same
  obtain ⟨elements', required', rest', rfl⟩ := tuple_of_opener opened
  simp only [operand_tuple, List.cons_append, List.append_assoc, List.cons.injEq, true_and,
    List.nil_append] at same
  obtain ⟨equal, closed⟩ := separated _ (']' :: after) (']' :: after') (each regular') rfl rfl same
  have spelled := congrArg (List.filterMap Slot.element?) equal
  have counted := congrArg (List.countP Slot.isNeeded) equal
  have spread := congrArg (List.findSome? Slot.spread?) equal
  rw [slots_elements, slots_elements] at spelled
  rw [slots_required _ (enough regular), slots_required _ (enough regular')] at counted
  rw [slots_rest, slots_rest] at spread
  rw [spelled, counted, spread]
  exact ⟨rfl, (List.cons.inj closed).2⟩

/-! Object types told apart -/

theorem object_of_opener {type : TypeExpr} (opened : type.opener? = some '{') :
    ∃ fields index, type = object fields index := by
  unfold opener? at opened
  split at opened <;> simp at opened
  exact ⟨_, _, rfl⟩

/-- No operand is the word that strict index signatures add. -/
theorem operand_ne_undefined {type : TypeExpr} (regular : type.isRegular = true) {rest : List Char}
    (follow : Unworded rest) (rest' : List Char) :
    operand flags depth type ++ rest ≠ "undefined".toList ++ ';' :: rest' := by
  intro same
  have proper : type.core.IsCore := ⟨core_isRegular regular, core_not_list type⟩
  rw [operand_core, List.append_assoc] at same
  cases opened : type.core.opener? with
  | some opener =>
    obtain ⟨chars, spelled⟩ := operand_opener flags depth proper.1 opened
    rw [spelled] at same
    have first : opener = 'u' := Option.some.inj (congrArg List.head? same)
    have closed := opener_not_word opened
    rw [first] at closed
    exact absurd closed (by decide)
  | none =>
    have identifier : isIdentifier "undefined".toList = true := by decide
    obtain ⟨word, _⟩ := delimits_isWord (operand_word flags depth proper opened) "undefined".toList _ _
      (isIdentifier_word identifier) (unworded_brackets _ follow) (unworded_cons (by decide) rest') same
    rcases atom_cases flags proper opened with ⟨keyword, listed⟩ | ⟨name, atom, named⟩ | ⟨value, atom⟩
    · rw [operand_keyword listed] at word
      exact (keyword_small listed).2.2 (String.toList_inj.mp word)
    · rw [atom, operand_reference] at word
      have large := (isTypeName_identifier named).2
      rw [word] at large
      exact absurd large (by decide)
    · rw [atom, operand_literal, Json.chars] at word
      rw [← word, integer_not_identifier] at identifier
      cases identifier

theorem ends_suffix (member : Member) (rest : List Char) :
    Ends flags ((member.suffix flags).toList ++ (";\n".toList ++ rest)) := by
  have semicolon : Ends flags (";\n".toList ++ rest) := ends_cons (by decide) (by decide) (by decide) _
  cases member with
  | named field => exact semicolon
  | indexed type =>
    rw [Member.suffix]
    by_cases strict : flags.strictIndex = true
    · rw [if_pos strict]
      refine ⟨unbracketed_cons (by decide) (by decide) _, ?_⟩
      rintro depth ⟨operator, type'⟩ rest' regular follow same
      cases operator with
      | bar =>
        have below := (List.cons.inj (List.cons.inj (List.cons.inj same).2).2).2
        exact operand_ne_undefined regular follow.1 _ below
      | ampersand =>
        have second := (List.cons.inj (List.cons.inj same).2).1
        exact absurd second (by decide)
    · rw [if_neg strict]
      exact semicolon

theorem memberKey_starts (name : String) :
    ∃ char chars, (memberKey name).toList = char :: chars ∧ char ≠ '[' := by
  rw [memberKey]
  by_cases bare : isIdentifier name.toList = true
  · rw [if_pos bare]
    obtain ⟨first, rest, spelled, usable⟩ := isWord_cons (isIdentifier_word bare)
    refine ⟨first, rest, spelled, fun same => ?_⟩
    rw [same] at usable
    exact absurd usable (by decide)
  · rw [if_neg bare]
    obtain ⟨chars, spelled, _⟩ := readString_quoted name []
    rw [List.append_nil] at spelled
    exact ⟨'"', chars, spelled, by decide⟩

theorem head_named (field : Field TypeExpr) (rest : List Char) :
    (Member.named field).head.toList ++ rest =
      (memberKey field.name).toList ++
        ((if field.required then "" else "?").toList ++ (": ".toList ++ rest)) := by
  simp only [Member.head, String.toList_append, List.append_assoc]

theorem head_indexed (type : TypeExpr) :
    (Member.indexed type).head.toList = '[' :: "k: string]: ".toList := by
  rw [Member.head]
  decide

theorem head_inj {member other : Member} {rest rest' : List Char}
    (same : member.head.toList ++ rest = other.head.toList ++ rest') :
    rest = rest' ∧
      ((∃ field field', member = .named field ∧ other = .named field' ∧ field.name = field'.name ∧
          field.required = field'.required) ∨
        ∃ type type', member = .indexed type ∧ other = .indexed type') := by
  have key_ne : ∀ (field : Field TypeExpr) (type : TypeExpr) (rest rest' : List Char),
      (Member.named field).head.toList ++ rest ≠ (Member.indexed type).head.toList ++ rest' := by
    intro field type rest rest' same
    obtain ⟨char, chars, spelled, other⟩ := memberKey_starts field.name
    rw [head_named, spelled, head_indexed] at same
    exact other (List.cons.inj same).1
  have unworded : ∀ (required : Bool) (rest : List Char),
      Unworded ((if required then "" else "?").toList ++ (": ".toList ++ rest)) := by
    intro required rest
    cases required <;> exact unworded_cons (by decide) _
  cases member with
  | named field =>
    cases other with
    | indexed type => exact absurd same (key_ne field type rest rest')
    | named field' =>
      rw [head_named, head_named] at same
      obtain ⟨names, below⟩ := delimits_memberKey field.name field'.name _ _ trivial
        (unworded field.required rest) (unworded field'.required rest') same
      have needed : field.required = field'.required := by
        cases here : field.required <;> cases here' : field'.required <;> simp_all
      rw [needed] at below
      refine ⟨List.append_cancel_left (List.append_cancel_left below), Or.inl ?_⟩
      exact ⟨field, field', rfl, rfl, names, needed⟩
  | indexed type =>
    cases other with
    | named field => exact absurd same.symm (key_ne field type rest' rest)
    | indexed type' =>
      exact ⟨List.append_cancel_left same, Or.inr ⟨type, type', rfl, rfl⟩⟩

theorem delimits_member {member : Member} (told : ToldApart flags member.type)
    (undocumented : member.isUndocumented = true) :
    Delimits (Member.text flags depth) (fun other => other.type.isRegular = true ∧
      other.isUndocumented = true) (fun _ => True) member := by
  rintro other rest rest' ⟨regular', undocumented'⟩ _ _ same
  simp only [Member.text, Member.line, String.toList_append, List.append_assoc,
    List.append_cancel_left_eq] at same
  obtain ⟨below, kinds⟩ := head_inj same
  obtain ⟨types, after⟩ := told.whole depth other.type _ _ regular' (ends_suffix member rest)
    (ends_suffix other rest') below
  rcases kinds with ⟨field, field', rfl, rfl, names, needed⟩ | ⟨type, type', rfl, rfl⟩
  · obtain ⟨name, content, required, docs⟩ := field
    obtain ⟨name', content', required', docs'⟩ := field'
    obtain rfl : docs = none := Option.isNone_iff_eq_none.mp undocumented
    obtain rfl : docs' = none := Option.isNone_iff_eq_none.mp undocumented'
    obtain rfl : name = name' := names
    obtain rfl : required = required' := needed
    obtain rfl : content = content' := types
    exact ⟨rfl, List.append_cancel_left (List.append_cancel_left after)⟩
  · obtain rfl : type = type' := types
    exact ⟨rfl, List.append_cancel_left (List.append_cancel_left after)⟩

theorem mem_members {fields : List (Field TypeExpr)} {index : Option TypeExpr} {member : Member}
    (inside : member ∈ members fields index) : member.type ∈ (object fields index).inner := by
  rcases List.mem_append.mp inside with named | indexed
  · obtain ⟨field, there, rfl⟩ := List.mem_map.mp named
    exact List.mem_append_left _ (List.mem_map_of_mem there)
  · obtain ⟨type, there, rfl⟩ := List.mem_map.mp indexed
    exact List.mem_append_right _ there

theorem members_regular {fields : List (Field TypeExpr)} {index : Option TypeExpr}
    (regular : (object fields index).isRegular = true) :
    ∀ member ∈ members fields index, member.type.isRegular = true ∧ member.isUndocumented = true := by
  intro member inside
  refine ⟨(isRegular_iff.mp regular).2 member.type (mem_members inside), ?_⟩
  rcases List.mem_append.mp inside with named | indexed
  · obtain ⟨field, there, rfl⟩ := List.mem_map.mp named
    exact Option.isNone_iff_eq_none.mpr (undocumented_of_regular regular field there)
  · obtain ⟨type, _, rfl⟩ := List.mem_map.mp indexed
    rfl

def MembersEnd (depth : Nat) (rest : List Char) : Prop :=
  ∃ after, rest = (indentation depth).toList ++ '}' :: after

theorem indentation_succ (depth : Nat) :
    (indentation (depth + 1)).toList = (indentation depth).toList ++ [' ', ' '] := by
  simp only [indentation, String.toList_ofList, Nat.mul_succ, List.replicate_add]
  rfl

theorem member_not_end (member : Member) (rest : List Char) :
    ¬MembersEnd depth (member.text flags (depth + 1) ++ rest) := by
  rintro ⟨after, same⟩
  simp only [Member.text, Member.line, String.toList_append, indentation_succ, List.append_assoc,
    List.append_cancel_left_eq] at same
  exact absurd (List.cons.inj same).1 (by decide)

theorem delimits_membersText {members : List Member} (told : ∀ member ∈ members, ToldApart flags member.type)
    (regular : ∀ member ∈ members, member.type.isRegular = true ∧ member.isUndocumented = true) :
    Delimits (membersText flags depth)
      (∀ member ∈ ·, member.type.isRegular = true ∧ member.isUndocumented = true) (fun _ => True)
      members := by
  have lines : Delimits (·.flatMap (Member.text flags (depth + 1)))
      (∀ member ∈ ·, member.type.isRegular = true ∧ member.isUndocumented = true) (MembersEnd depth)
      members := by
    apply delimits_flatMap (fun _ _ => trivial) (fun _ _ _ _ => trivial) _ regular
    · exact fun member inside => delimits_member (told member inside) (regular member inside).2
    · exact fun member rest _ _ => member_not_end member rest
  have brace : ∀ {members : List Member}, members ≠ [] → ∀ rest rest' : List Char,
      membersText flags depth members ++ rest ≠ '}' :: rest' := by
    intro members filled rest rest' same
    rw [membersText_filled filled] at same
    exact absurd (List.cons.inj same).1 (by decide)
  intro others rest rest' regular' _ _ same
  by_cases filled : members = []
  · by_cases filled' : others = []
    · rw [filled, filled'] at same
      exact ⟨by rw [filled, filled'], (List.cons.inj same).2⟩
    · rw [filled] at same
      exact absurd same.symm (brace filled' rest' rest)
  · by_cases filled' : others = []
    · rw [filled'] at same
      exact absurd same (brace filled rest rest')
    · rw [membersText_filled filled, membersText_filled filled'] at same
      simp only [List.cons_append, List.append_assoc, List.cons.injEq, true_and, List.nil_append] at same
      obtain ⟨equal, closed⟩ := lines others _ _ regular' ⟨rest, rfl⟩ ⟨rest', rfl⟩ same
      exact ⟨equal, (List.cons.inj (List.append_cancel_left closed)).2⟩

theorem delimits_object {fields : List (Field TypeExpr)} {index : Option TypeExpr}
    (regular : (object fields index).isRegular = true)
    (told : ∀ part ∈ (object fields index).inner, ToldApart flags part) :
    Delimits (operand flags depth) (fun other => other.isRegular = true ∧ other.opener? = some '{')
      Unworded (object fields index) := by
  rintro other rest rest' ⟨regular', opened⟩ _ _ same
  obtain ⟨fields', index', rfl⟩ := object_of_opener opened
  rw [operand_object (undocumented_of_regular regular),
    operand_object (undocumented_of_regular regular')] at same
  obtain ⟨equal, ended⟩ := delimits_membersText (fun member inside => told member.type (mem_members inside))
    (members_regular regular) _ rest rest' (members_regular regular') trivial trivial
    (List.cons.inj same).2
  have named := congrArg (List.filterMap Member.field?) equal
  have indexed := congrArg (List.findSome? Member.index?) equal
  rw [members_fields, members_fields] at named
  rw [members_index, members_index] at indexed
  rw [named, indexed]
  exact ⟨rfl, ended⟩

/-! All types told apart -/

theorem string_of_opener {type : TypeExpr} (opened : type.opener? = some '"') :
    ∃ text, type = literal (.string text) := by
  unfold opener? at opened
  split at opened <;> simp at opened
  exact ⟨_, rfl⟩

theorem compound_of_opener {type : TypeExpr} (opened : type.opener? = some '(') :
    type.isCompound = true := by
  unfold opener? at opened
  split at opened <;> simp at opened
  · rfl
  · rfl

theorem delimits_string (text : String) :
    Delimits (operand flags depth) (fun other => other.isRegular = true ∧ other.opener? = some '"')
      Unworded (literal (.string text)) := by
  rintro other rest rest' ⟨_, opened⟩ _ _ same
  obtain ⟨text', rfl⟩ := string_of_opener opened
  have spelled : ∀ text : String, operand flags depth (literal (.string text)) = (quoted text).toList := by
    intro text
    rw [operand_literal, Json.chars, quoted, String.toList_ofList]
  rw [spelled, spelled] at same
  obtain ⟨rfl, rfl⟩ := delimits_quoted text text' rest rest' trivial trivial trivial same
  exact ⟨rfl, rfl⟩

theorem delimits_compound {type : TypeExpr} (compound : type.isCompound = true)
    (whole : Delimits (fun type => (type.render flags depth).toList) (isRegular · = true)
      (Ends flags) type) :
    Delimits (operand flags depth) (fun other => other.isRegular = true ∧ other.opener? = some '(')
      Unworded type := by
  rintro other rest rest' ⟨regular', opened⟩ _ _ same
  have closing : ∀ rest : List Char, Ends flags (')' :: rest) :=
    ends_cons (by decide) (by decide) (by decide)
  simp only [operand_of_compound compound, operand_of_compound (compound_of_opener opened),
    List.cons_append, List.append_assoc, List.cons.injEq, true_and, List.nil_append] at same
  obtain ⟨equal, closed⟩ := whole other _ _ regular' (closing rest) (closing rest') same
  exact ⟨equal, (List.cons.inj closed).2⟩

theorem delimits_core {type : TypeExpr} (proper : type.IsCore)
    (kindred : ∀ opener, type.opener? = some opener → Delimits (operand flags depth)
      (fun other => other.isRegular = true ∧ other.opener? = some opener) Unworded type) :
    Delimits (operand flags depth) IsCore Unworded type := by
  intro other rest rest' proper' follow follow' same
  have kinds := opener_eq proper proper' same
  cases opened : type.opener? with
  | some opener =>
    rw [opened] at kinds
    exact kindred opener opened other rest rest' ⟨proper'.1, kinds.symm⟩ follow follow' same
  | none =>
    rw [opened] at kinds
    obtain ⟨words, ended⟩ := delimits_isWord (operand_word flags depth proper opened) _ rest rest'
      (operand_word flags depth proper' kinds.symm) follow follow' same
    exact ⟨operand_word_inj proper proper' opened kinds.symm words, ended⟩

theorem mem_links {type : TypeExpr} {link : Operator × TypeExpr} (inside : link ∈ type.links) :
    link.2 ∈ type.inner := by
  unfold links at inside
  split at inside
  · obtain ⟨arm, there, rfl⟩ := List.mem_map.mp inside
    exact List.mem_cons_of_mem _ there
  · obtain ⟨part, there, rfl⟩ := List.mem_map.mp inside
    exact List.mem_cons_of_mem _ there
  · cases inside

theorem mem_first {type : TypeExpr} (regular : type.isRegular = true)
    (compound : type.isCompound = true) : type.first ∈ type.inner := by
  rw [isCompound_regular regular] at compound
  cases type with
  | union arms =>
    obtain ⟨several, _⟩ := isRegular_union regular
    cases arms with
    | nil => simp at several
    | cons arm arms => exact List.mem_cons_self
  | intersection parts =>
    obtain ⟨several, _⟩ := isRegular_intersection regular
    cases parts with
    | nil => simp at several
    | cons part parts => exact List.mem_cons_self
  | _ => cases compound

/-- What is told apart inside a type makes its core so, given the whole of a compound type. -/
theorem delimits_core_of_inner (depth : Nat) {type : TypeExpr} (regular : type.isRegular = true)
    (told : ∀ part ∈ type.inner, ToldApart flags part)
    (whole : type.isCompound = true → Delimits (fun type => (type.render flags depth).toList)
      (isRegular · = true) (Ends flags) type) :
    Delimits (operand flags depth) IsCore Unworded type.core := by
  cases listed : type.isList with
  | true =>
    cases type with
    | list item => exact (told item (List.mem_singleton_self item)).core depth
    | _ => cases listed
  | false =>
    rw [(core_of_not_list listed).1]
    apply delimits_core ⟨regular, listed⟩
    intro opener opened
    cases type with
    | literal value =>
      cases value with
      | string text =>
        cases opened
        exact delimits_string text
      | _ => cases opened
    | tuple elements required rest =>
      cases opened
      exact delimits_tuple regular told
    | object fields index =>
      cases opened
      exact delimits_object regular told
    | union arms =>
      cases opened
      exact delimits_compound rfl (whole rfl)
    | intersection parts =>
      cases opened
      exact delimits_compound rfl (whole rfl)
    | _ => cases opened

theorem regular_toldApart (flags : Flags) {type : TypeExpr} (regular : type.isRegular = true) :
    ToldApart flags type := by
  induction type using innerInduction with
  | step type ih =>
    have told : ∀ part ∈ type.inner, ToldApart flags part :=
      fun part inside => ih part inside ((isRegular_iff.mp regular).2 part inside)
    have linked : ∀ depth, ∀ link ∈ type.links,
        Delimits (operand flags depth) (isRegular · = true) Unbracketed link.2 :=
      fun depth link inside => (told link.2 (mem_links inside)).operand depth
    by_cases compound : type.isCompound = true
    · have first := (told type.first (mem_first regular compound)).operand
      have whole := fun depth => delimits_render regular (first depth) (linked depth)
      exact ⟨fun depth => delimits_core_of_inner depth regular told fun _ => whole depth, first, whole⟩
    · have core := fun depth =>
        delimits_core_of_inner depth regular told fun grouped => absurd grouped compound
      have first : ∀ depth,
          Delimits (operand flags depth) (isRegular · = true) Unbracketed type.first := by
        rw [Bool.not_eq_true] at compound
        rw [(links_of_simple compound).1]
        exact fun depth => delimits_operand (core depth)
      exact ⟨core, first, fun depth => delimits_render regular (first depth) (linked depth)⟩

end SchemaTypes.TypeExpr
