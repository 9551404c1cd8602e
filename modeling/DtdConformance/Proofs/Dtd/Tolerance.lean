import DtdConformance.Proofs.Conformance.MixedContent
import DtdConformance.Proofs.Dtd.Redeclaration

/-! # Content models that are never refused

A content model that begins with the character data mark is taken whatever follows the mark. Only a
content model without the mark can leave its element unconstrained. What stands between the bars of
a mixed content model is taken for a name, so names that no element can have are listed if it is
not written as mixed content models are.
-/
namespace DtdConformance.Dtd
set_option autoImplicit false

open Text

/-! ## Content models without a meaning -/

/-- A content model that leaves its element unconstrained because it has no meaning. -/
structure Degrades (bare : List Char) : Prop where
  notEmpty : removeBlanks bare ≠ emptyWord
  notAny : removeBlanks bare ≠ anyWord
  unmarked : ¬ characterDataMark <+: removeBlanks bare
  refused : ∃ fault, ContentModel.compile bare = .error fault

theorem exists_ruleOf_eq_error_iff (bare : List Char) :
    (∃ fault, ruleOf bare = .error fault) ↔ Degrades bare := by
  have hStands := standsFor_ruleOf bare
  generalize ruleOf bare = outcome at hStands
  cases hStands with
  | empty hWord => exact ⟨nofun, fun h => absurd hWord h.notEmpty⟩
  | any hWord => exact ⟨nofun, fun h => absurd hWord h.notAny⟩
  | text hMark => exact ⟨nofun, fun h => absurd ⟨_, hMark.symm⟩ h.unmarked⟩
  | mixed hMark => exact ⟨nofun, fun h => absurd hMark h.unmarked⟩
  | children hEmpty hAny hMark =>
    cases hCompile : ContentModel.compile bare with
    | error fault => exact ⟨fun _ => ⟨hEmpty, hAny, hMark, fault, hCompile⟩, fun _ => ⟨fault, rfl⟩⟩
    | ok automaton =>
      refine ⟨nofun, fun h => ?_⟩
      obtain ⟨fault, hFault⟩ := h.refused
      cases hCompile.symm.trans hFault

instance (bare : List Char) : Decidable (Degrades bare) :=
  match hRule : ruleOf bare with
  | .ok _ => .isFalse fun h => by
    obtain ⟨_, hFault⟩ := (exists_ruleOf_eq_error_iff bare).mpr h
    cases hRule.symm.trans hFault
  | .error fault => .isTrue ((exists_ruleOf_eq_error_iff bare).mp ⟨fault, hRule⟩)

theorem isSome_define_iff (name : String) (spec : List Char) (line : Int) :
    (define name spec line).2.isSome = true ↔ Degrades (bareSpec spec) := by
  rw [← exists_ruleOf_eq_error_iff]
  obtain ⟨hNone, hRule⟩ | ⟨fault, hSome, -, hRule⟩ := define_cases name spec line
  · simp [hNone, hRule]
  · simp [hSome, hRule]

theorem degraded_of_compile {cs : List Char} {index : LineIndex} {found : Compilation}
    (h : compile cs index = .ok found) :
    found.degraded =
      ((declarations cs).filter fun declaration => Degrades (bareSpec declaration.spec)).map
        Declaration.key := by
  obtain ⟨log, rfl⟩ := exists_eq_after_of_compile h
  rw [Compilation.degraded_after]
  refine congrArg (List.map Declaration.key) (List.filter_congr fun declaration _ => ?_)
  rw [Bool.eq_iff_iff, decide_eq_true_iff]
  exact isSome_define_iff ..

/-! ## Names between bars -/

/-- What stands behind the mark of a mixed content model without blanks, up to the end of its
group. -/
def listing (compact : List Char) : List Char :=
  dropGroupEnd (compact.drop characterDataMark.length)

def pieces (compact : List Char) : List String :=
  (splitOn '|' (listing compact)).map String.ofList

def IsName (name : String) : Prop := ∀ c ∈ name.toList, isNameChar c = true

/-- The written form of a mixed content model, without blanks. -/
def IsMixedForm (compact : List Char) : Prop :=
  ∃ alternatives starred, (∀ name ∈ alternatives, IsName name) ∧
    compact = mixedSpec alternatives starred

theorem listsFirst_pieces (compact : List Char) : ListsFirst (mixedNames compact) (pieces compact) := by
  have hNames : mixedNames compact =
      ((pieces compact).filter fun name => !name.toList.isEmpty).eraseDups := by
    rw [mixedNames, pieces, List.filter_map]
    simp [Function.comp_def, listing]
  rw [hNames]
  refine ⟨fun name => ?_, pairwise_eraseDups_filter _ _⟩
  rw [List.mem_eraseDups, List.mem_filter, and_comm]
  simp

theorem forall_isName_iff (compact : List Char) :
    (∀ name ∈ mixedNames compact, IsName name) ↔
      ∀ c ∈ listing compact, c = '|' ∨ isNameChar c = true := by
  have hMem (c : Char) := exists_mem_splitOn_iff '|' c (listing compact)
  constructor
  · intro h c hChar
    by_cases hBar : c = '|'
    · exact .inl hBar
    · obtain ⟨piece, hPiece, hIn⟩ := (hMem c).mpr ⟨hChar, hBar⟩
      have hSome : String.ofList piece ≠ "" := by
        rw [ne_eq, ← String.toList_inj, String.toList_ofList]
        exact List.ne_nil_of_mem hIn
      have hListed := ((listsFirst_pieces compact).mem_iff _).mpr
        ⟨hSome, List.mem_map_of_mem hPiece⟩
      exact .inr (h _ hListed c (by rwa [String.toList_ofList]))
  · intro h name hName c hChar
    obtain ⟨-, hPieces⟩ := ((listsFirst_pieces compact).mem_iff name).mp hName
    obtain ⟨piece, hPiece, rfl⟩ := List.mem_map.mp hPieces
    rw [String.toList_ofList] at hChar
    obtain ⟨hIn, hBar⟩ := (hMem c).mp ⟨piece, hPiece, hChar⟩
    exact (h c hIn).resolve_left hBar

theorem listing_mixedSpec (alternatives : List String) (starred : Bool) :
    listing (mixedSpec alternatives starred) = barred alternatives := by
  rw [listing, mixedSpec, List.drop_left, dropGroupEnd_append]

theorem isName_of_isMixedForm {compact : List Char} (h : IsMixedForm compact) :
    ∀ name ∈ mixedNames compact, IsName name := by
  obtain ⟨alternatives, starred, hNames, rfl⟩ := h
  rw [forall_isName_iff, listing_mixedSpec]
  intro c hChar
  simp only [barred, List.mem_flatMap, List.mem_map, List.mem_cons] at hChar
  obtain ⟨_, ⟨name, hName, rfl⟩, rfl | hIn⟩ := hChar
  · exact .inl rfl
  · exact .inr (hNames name hName c hIn)

/-! ## Definitions -/

section

variable {cs : List Char} {index : LineIndex} {found : Compilation}
  (hCompile : compile cs index = .ok found) {definition : Definition}
  (hDefinition : definition ∈ found.table.definitions)
include hCompile hDefinition

/-- A definition has its rule from the content model that it shows, or no constraint if that has no
meaning. -/
theorem rule_of_compile :
    ruleOf definition.spec.toList = .ok definition.rule ∨
      Degrades definition.spec.toList ∧ definition.rule = .any := by
  obtain ⟨declaration, -, rfl⟩ := exists_declaration_of_compile hCompile hDefinition
  rw [Declaration.defined, spec_define, String.toList_ofList]
  obtain ⟨-, hRule⟩ | ⟨fault, -, hAny, hFault⟩ := define_cases declaration.key declaration.spec
    (index.lineAt declaration.offset)
  · exact .inl hRule
  · exact .inr ⟨(exists_ruleOf_eq_error_iff _).mp ⟨fault, hFault⟩, hAny⟩

theorem rule_of_mark (hMark : characterDataMark <+: removeBlanks definition.spec.toList) :
    definition.rule =
      if removeBlanks definition.spec.toList = characterDataMark ++ [')'] then .text
      else .mixed (mixedNames (removeBlanks definition.spec.toList)) := by
  obtain hRule | ⟨hDegrades, -⟩ := rule_of_compile hCompile hDefinition
  · exact (Except.ok.inj ((ruleOf_of_mark hMark).symm.trans hRule)).symm
  · exact absurd hMark hDegrades.unmarked

theorem allowed_of_no_mark (hMark : ¬ characterDataMark <+: removeBlanks definition.spec.toList) :
    definition.allowed = [] := by
  obtain hRule | ⟨-, hAny⟩ := rule_of_compile hCompile hDefinition
  · cases hKind : definition.rule with
    | mixed listed =>
      rw [hKind] at hRule
      exact absurd (mark_of_ruleOf_eq_mixed hRule) hMark
    | _ => simp [Definition.allowed, hKind]
  · simp [Definition.allowed, hAny]

end

/-- Exactly the declarations without the character data mark whose content model has no meaning
are degraded. What begins with the mark is text or mixed content, whatever follows. It then lists
what stands between the bars, which are names exactly when nothing but characters of names and bars
stands there, and so whenever it is written as mixed content models are. -/
theorem compile_marked {cs : List Char} {index : LineIndex} {found : Compilation}
    (hCompile : compile cs index = .ok found) :
    found.degraded =
        ((declarations cs).filter fun declaration => Degrades (bareSpec declaration.spec)).map
          Declaration.key ∧
      ∀ definition ∈ found.table.definitions,
        let compact := removeBlanks definition.spec.toList
        (¬ characterDataMark <+: compact → definition.allowed = []) ∧
          (characterDataMark <+: compact →
            (compact = characterDataMark ++ [')'] ∧ definition.rule = .text ∨
              compact ≠ characterDataMark ++ [')'] ∧ definition.rule = .mixed definition.allowed ∧
                ListsFirst definition.allowed (pieces compact)) ∧
            ((∀ name ∈ definition.allowed, IsName name) ↔
              ∀ c ∈ listing compact, c = '|' ∨ isNameChar c = true) ∧
            (IsMixedForm compact → ∀ name ∈ definition.allowed, IsName name)) := by
  refine ⟨degraded_of_compile hCompile, fun definition hDefinition => ?_⟩
  intro compact
  refine ⟨allowed_of_no_mark hCompile hDefinition, fun hMark => ?_⟩
  have hRule := rule_of_mark hCompile hDefinition hMark
  by_cases hText : compact = characterDataMark ++ [')']
  · rw [if_pos hText] at hRule
    have hNone : definition.allowed = [] := by simp [Definition.allowed, hRule]
    have hListing : listing compact = [] := by
      rw [hText]
      rfl
    refine ⟨.inl ⟨hText, hRule⟩, ?_, ?_⟩
    · simp [hNone, hListing]
    · simp [hNone]
  · rw [if_neg hText] at hRule
    have hAllowed : definition.allowed = mixedNames compact := by
      simp [Definition.allowed, hRule, compact]
    rw [hAllowed]
    exact ⟨.inr ⟨hText, hRule, listsFirst_pieces compact⟩, forall_isName_iff compact,
      isName_of_isMixedForm⟩

/-- A group that is opened inside a mixed content model and never closed. -/
def unclosedText : List Char := "<!ELEMENT e (#PCDATA|(a)*>".toList

def unclosed : Definition := ⟨"e", .mixed ["(a"], "(#PCDATA|(a)*", 1⟩

theorem compile_unclosedText : ∃ found, compile unclosedText (.ofText unclosedText) = .ok found ∧
    found.degraded = [] ∧ found.table.definitions = [unclosed] := by
  have hRun : (compile unclosedText (.ofText unclosedText)).toOption.map
      (fun found => (found.degraded, found.table.definitions)) = some ([], [unclosed]) := by
    decide +kernel
  cases hCompile : compile unclosedText (.ofText unclosedText) with
  | error fault => simp [hCompile, Except.toOption] at hRun
  | ok found =>
    simp only [hCompile, Except.toOption, Option.map_some, Option.some.injEq, Prod.mk.injEq] at hRun
    exact ⟨found, rfl, hRun⟩

theorem compile_marked_of_unclosed :
    ∃ found, compile unclosedText (.ofText unclosedText) = .ok found ∧
      characterDataMark <+: removeBlanks unclosed.spec.toList ∧
      ListsFirst unclosed.allowed (pieces (removeBlanks unclosed.spec.toList)) := by
  obtain ⟨found, hFound, -, hDefinitions⟩ := compile_unclosedText
  have hMark : characterDataMark <+: removeBlanks unclosed.spec.toList := by decide +kernel
  have hMember : unclosed ∈ found.table.definitions := hDefinitions ▸ List.mem_singleton_self _
  obtain ⟨⟨-, hText⟩ | ⟨-, -, hListed⟩, -⟩ :=
    ((compile_marked hFound).2 unclosed hMember).2 hMark
  · cases hText
  · exact ⟨found, hFound, hMark, hListed⟩

/-- The group that is not closed leaves a parenthesis in the name that is listed, and the element is
not degraded. -/
theorem parenthesis_listed_of_unclosed :
    ∃ found, compile unclosedText (.ofText unclosedText) = .ok found ∧ found.degraded = [] ∧
      unclosed ∈ found.table.definitions ∧
      characterDataMark <+: removeBlanks unclosed.spec.toList ∧
      ¬ IsMixedForm (removeBlanks unclosed.spec.toList) ∧
      unclosed.rule ≠ .any ∧ "(a" ∈ unclosed.allowed ∧ ¬ IsName "(a" := by
  obtain ⟨found, hFound, hDegraded, hDefinitions⟩ := compile_unclosedText
  have hMember : unclosed ∈ found.table.definitions := hDefinitions ▸ List.mem_singleton_self _
  have hListed : "(a" ∈ mixedNames (removeBlanks unclosed.spec.toList) := by decide +kernel
  have hNoName : ¬ IsName "(a" := fun h => absurd (h '(' (by decide)) (by decide)
  exact ⟨found, hFound, hDegraded, hMember, by decide +kernel,
    fun hForm => hNoName (isName_of_isMixedForm hForm _ hListed), by decide +kernel,
    by decide +kernel, hNoName⟩

end DtdConformance.Dtd
