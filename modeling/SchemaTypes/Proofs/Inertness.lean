import SchemaTypes.Compile
import SchemaTypes.Proofs.Hints
import SchemaTypes.Proofs.Lockstep

namespace SchemaTypes

/-- The declarations that are written for a validator. -/
def declaredFor (validator : Json) (layer : OptionLayer) : Except Malformed (List Declaration) :=
  ((Schema.ofJson validator.annotate).declarations ""
    (Options.standard.merge layer).flags.ignoreBounds).outcome.map (·.1)

theorem compile_eq (validator : Json) (layer : OptionLayer) :
    compile validator layer = (declaredFor validator layer).map
      (moduleText (assignment validator layer).banner (Options.standard.merge layer).flags) := by
  simp only [compile, assignment, typeModule, declaredFor]
  cases ((Schema.ofJson validator.annotate).declarations ""
    (Options.standard.merge layer).flags.ignoreBounds).outcome <;> rfl

theorem rootBase_undescribed (value : Json) (suggested : String) :
    rootBase (Schema.ofJson value.undescribed) suggested = rootBase (Schema.ofJson value) suggested := by
  have title : (Schema.ofJson value.undescribed).title = (Schema.ofJson value).title := by
    cases value with
    | object members =>
      rw [Schema.title, ofJson_undescribed, ofJson_object]
      rfl
    | _ => rfl
  rw [rootBase, rootBase, title]

theorem writableNodes_annotate {permitted : Option String → Bool} {validator : Json}
    (hintless : validator.isHintless = true) (absent : permitted none = true)
    (described : ∀ members, HasNode validator members →
      permitted (stringMember "description" members) = true) :
    WritableNodes permitted validator.annotate where
  absent := absent
  described annotated node := by
    obtain ⟨members, node', rfl⟩ := hasNode_annotate node
    rw [description_annotatedNode]
    exact described members node'
  hinted annotated node text given := hints_plain hintless node given

/-- Without descriptions a validator fails alike, or it declares what agrees. -/
theorem declaredFor_undescribed {permitted : Option String → Bool} {validator : Json}
    (nodes : WritableNodes permitted validator.annotate) (layer : OptionLayer) :
    (∃ malformed, declaredFor validator layer = .error malformed ∧
        declaredFor validator.undescribed layer = .error malformed) ∨
      ∃ declarations others, declaredFor validator layer = .ok declarations ∧
        declaredFor validator.undescribed layer = .ok others ∧
        AgreeDeclarations permitted declarations others := by
  have body : BodyInStep permitted (Options.standard.merge layer).flags.ignoreBounds
      validator.annotate := inStep_body validator.annotate nodes
  have step := inStep_declare (rootBase_isTypeName (Schema.ofJson validator.annotate) "")
    (enumMembers?_ofJson validator.annotate) (description_ofJson validator.annotate)
    nodes.description body
  obtain ⟨_, failed | succeeded⟩ := step []
  · obtain ⟨malformed, here, there⟩ := failed
    refine Or.inl ⟨malformed, ?_, ?_⟩
    · simp [declaredFor, Schema.declarations, here, Except.map]
    · simp [declaredFor, Schema.declarations, Json.annotate_undescribed, rootBase_undescribed, there,
        Except.map]
  · obtain ⟨_, _, declarations, others, here, there, _, agree⟩ := succeeded
    refine Or.inr ⟨declarations, others, ?_, ?_, agree⟩
    · simp [declaredFor, Schema.declarations, here, Except.map]
    · simp [declaredFor, Schema.declarations, Json.annotate_undescribed, rootBase_undescribed, there,
        Except.map]

theorem permits_of_agree {permitted : Option String → Bool} {declarations others : List Declaration}
    (agree : AgreeDeclarations permitted declarations others) :
    ∀ declaration ∈ declarations, declaration.permits permitted = true := by
  induction agree with
  | nil => simp
  | cons first _ ih => exact List.forall_mem_cons.mpr ⟨first.permits, ih⟩

theorem declaredFor_sealed {validator : Json} (hintless : validator.isHintless = true)
    (described : ∀ members, HasNode validator members →
      sealedDocs (stringMember "description" members) = true) {layer : OptionLayer}
    {declarations : List Declaration} (declared : declaredFor validator layer = .ok declarations) :
    ∀ declaration ∈ declarations, declaration.permits sealedDocs = true := by
  have nodes := writableNodes_annotate hintless rfl described
  rcases declaredFor_undescribed nodes layer with ⟨_, failed, _⟩ | ⟨_, _, declared', _, agree⟩
  · rw [declared] at failed
    cases failed
  · rw [declared] at declared'
    cases declared'
    exact permits_of_agree agree

/-- Descriptions decide nothing about the code: all are sealed, and none keeps two arms apart. -/
def areInert (declarations : List Declaration) : Bool :=
  declarations.all fun declaration => declaration.permits sealedDocs && declaration.toldApart

theorem undocumented_of_agree {permitted : Option String → Bool}
    {declarations others : List Declaration} (agree : AgreeDeclarations permitted declarations others)
    (inert : areInert declarations = true) :
    (∀ declaration ∈ declarations, declaration.permits sealedDocs = true) ∧
      (∀ declaration ∈ declarations, declaration.isPlainText = true) ∧
      declarations.map Declaration.undocumented = others := by
  induction agree with
  | nil => simp
  | cons first _ ih =>
    rw [areInert, List.all_cons, Bool.and_eq_true, Bool.and_eq_true] at inert
    obtain ⟨closed, plain, same⟩ := ih inert.2
    refine ⟨?_, ?_, ?_⟩
    · rw [List.forall_mem_cons]
      exact ⟨inert.1.1, closed⟩
    · rw [List.forall_mem_cons]
      exact ⟨first.plain, plain⟩
    · rw [List.map_cons, first.same inert.1.2, same]

def standardBanner (namesDecimal : Bool) : String :=
  String.intercalate "\n" (Options.standard.banner ++ (if namesDecimal then [decimalImport] else []))

theorem assignment_banner {layer : OptionLayer} (standard : layer.banner = none) (validator : Json) :
    (assignment validator layer).banner = standardBanner validator.namesDecimal := by
  simp only [assignment, bannerLines, standardBanner, Options.merge, standard, Option.getD_none]

theorem settled_standardBanner (namesDecimal : Bool) : Settled (standardBanner namesDecimal) := by
  have lines : Settled (String.intercalate "\n" Options.standard.banner) := by
    -- as lists of characters, since reading characters off text is slow
    rw [Settled, String.toList_intercalate]
    simp only [Options.standard, List.map_cons, List.map_nil]
    repeat rw [String.toList_ofList]
    decide +kernel
  cases namesDecimal with
  | false =>
    rw [standardBanner, if_neg Bool.false_ne_true, List.append_nil]
    exact lines
  | true =>
    have line : Settled "\n" := rfl
    have imported : Settled decimalImport := by
      rw [Settled, decimalImport, String.toList_ofList]
      decide +kernel
    have several : Options.standard.banner ≠ [] := List.cons_ne_nil _ _
    have one : [decimalImport] ≠ [] := List.cons_ne_nil _ _
    rw [standardBanner, if_pos rfl, String.intercalate_append_of_ne_nil several one,
      String.intercalate_singleton]
    exact settled_append (settled_append lines line) imported

theorem settled_bannerText (namesDecimal : Bool) :
    Settled (bannerText (standardBanner namesDecimal)) := by
  have lines : Settled "\n\n" := rfl
  unfold bannerText
  split
  · rfl
  · exact settled_append (settled_standardBanner namesDecimal) lines

theorem withoutComments_undescribed {validator : Json} (hintless : validator.isHintless = true)
    {layer : OptionLayer} (standard : layer.banner = none) :
    (∃ malformed, compile validator layer = .error malformed ∧
        compile validator.undescribed layer = .error malformed) ∨
      ∃ declarations text other, declaredFor validator layer = .ok declarations ∧
        compile validator layer = .ok text ∧ compile validator.undescribed layer = .ok other ∧
        (areInert declarations = true → withoutComments text = withoutComments other) := by
  have banner := assignment_banner standard validator
  have banner' := assignment_banner standard validator.undescribed
  rw [Json.namesDecimal_undescribed] at banner'
  have nodes : WritableNodes (fun _ => true) validator.annotate :=
    writableNodes_annotate hintless rfl fun _ _ => rfl
  rcases declaredFor_undescribed nodes layer with failed | succeeded
  · obtain ⟨malformed, here, there⟩ := failed
    refine Or.inl ⟨malformed, ?_, ?_⟩
    · rw [compile_eq, here]
      rfl
    · rw [compile_eq, there]
      rfl
  · obtain ⟨declarations, others, here, there, agree⟩ := succeeded
    let written :=
      moduleText (standardBanner validator.namesDecimal) (Options.standard.merge layer).flags
    refine Or.inr ⟨declarations, written declarations, written others, here, ?_, ?_, fun inert => ?_⟩
    · rw [compile_eq, here, banner]
      rfl
    · rw [compile_eq, there, banner']
      rfl
    · obtain ⟨closed, plain, rfl⟩ := undocumented_of_agree agree inert
      exact (alike_moduleText (settled_standardBanner _) closed plain).withoutComments_eq

theorem withoutComments_same {layer : OptionLayer} (standard : layer.banner = none)
    {validator other : Json} (hintless : validator.isHintless = true)
    (hintless' : other.isHintless = true) (same : validator.undescribed = other.undescribed) :
    (∃ malformed, compile validator layer = .error malformed ∧
        compile other layer = .error malformed) ∨
      ∃ declarations declarations' text text', declaredFor validator layer = .ok declarations ∧
        declaredFor other layer = .ok declarations' ∧ compile validator layer = .ok text ∧
        compile other layer = .ok text' ∧
        (areInert declarations = true → areInert declarations' = true →
          withoutComments text = withoutComments text') := by
  rcases withoutComments_undescribed hintless standard with failed | succeeded
  · obtain ⟨malformed, here, bare⟩ := failed
    rcases withoutComments_undescribed hintless' standard with failed' | succeeded'
    · obtain ⟨malformed', there, bare'⟩ := failed'
      rw [same, bare'] at bare
      cases bare
      exact Or.inl ⟨malformed, here, there⟩
    · obtain ⟨_, _, _, _, _, bare', _⟩ := succeeded'
      rw [same, bare'] at bare
      cases bare
  · obtain ⟨declarations, text, plain, declared, here, bare, alike⟩ := succeeded
    rcases withoutComments_undescribed hintless' standard with failed' | succeeded'
    · obtain ⟨_, _, bare'⟩ := failed'
      rw [same, bare'] at bare
      cases bare
    · obtain ⟨declarations', text', plain', declared', there, bare', alike'⟩ := succeeded'
      rw [same, bare'] at bare
      cases bare
      refine Or.inr ⟨declarations, declarations', text, text', declared, declared', here, there, ?_⟩
      intro inert inert'
      exact (alike inert).trans (alike' inert').symm

end SchemaTypes
