import DtdConformance.Proofs.Dtd.Tolerance
import DtdConformance.Proofs.Markup.Mask

/-! # What every table keeps to

A table is found by reading declaration after declaration, and each definition in it is what one of
them stands for. So the names are distinct, each definition is on a line on which a declaration
opens outside comments, its parts agree with its kind, and it is unconstrained and known as degraded
when its content model has no meaning. None of this depends on how the text is written.
-/
namespace DtdConformance.Dtd
set_option autoImplicit false

open Text

/-! ## Places of declarations -/

theorem declarationAt?_sound {cs name spec rest : List Char}
    (h : declarationAt? cs = some (name, spec, rest)) :
    declarationOpener <+: cs ∧ rest <:+ cs := by
  obtain ⟨inside, hAfter, hParts⟩ := Option.bind_eq_some_iff.mp h
  obtain rfl := (after?_eq_some_iff ..).mp hAfter
  obtain ⟨gap, space, rfl, -⟩ := afterOpener?_sound hParts
  refine ⟨List.prefix_append _ _, declarationOpener ++ (gap ++ (name ++ (space ++ (spec ++ ['>'])))),
    ?_⟩
  simp only [List.append_assoc, List.singleton_append]

/-- What is found has been read at its offset. -/
theorem declarationAt?_of_mem {offset : Nat} {cs : List Char} {declaration : Declaration}
    (h : declaration ∈ declarationsFrom offset cs) :
    ∃ place rest, declaration.offset = offset + place ∧
      declarationAt? (cs.drop place) = some (declaration.name, declaration.spec, rest) := by
  fun_induction declarationsFrom offset cs with
  | case1 offset cs name spec rest hSome ih =>
    rcases List.mem_cons.mp h with rfl | hLater
    · exact ⟨0, rest, rfl, hSome⟩
    · obtain ⟨front, rfl⟩ := (declarationAt?_sound hSome).2
      obtain ⟨place, after, hOffset, hRead⟩ := ih hLater
      refine ⟨front.length + place, after, ?_, ?_⟩
      · rw [hOffset, List.length_append, Nat.add_sub_cancel, Nat.add_assoc]
      · rwa [List.drop_length_add_append]
  | case2 => cases h
  | case3 offset c cs hNone ih =>
    obtain ⟨place, after, hOffset, hRead⟩ := ih h
    exact ⟨place + 1, after, by omega, hRead⟩

theorem opener_visible : ∀ c ∈ declarationOpener, c ≠ '\n' ∧ c ≠ ' ' := by
  simp [declarationOpener]

/-- The opening of a declaration is no part of a comment and stands in the text as it is written. -/
theorem opener_of_mem_declarations {cs : List Char} {declaration : Declaration}
    (h : declaration ∈ declarations cs) :
    declarationOpener <+: cs.drop declaration.offset ∧
      ¬ Markup.IsMasked [.comment] cs declaration.offset := by
  obtain ⟨place, rest, hOffset, hRead⟩ := declarationAt?_of_mem h
  rw [Nat.zero_add] at hOffset
  subst hOffset
  have hOpens := (declarationAt?_sound hRead).1
  have hFirst := List.prefix_iff_getElem?.mp hOpens 0 (by decide)
  rw [List.getElem?_drop, Nat.add_zero] at hFirst
  exact ⟨Markup.isPrefix_drop_of_mask opener_visible hOpens,
    ((Markup.getElem?_mask_eq_some_iff (by decide) (by decide)).mp hFirst).2⟩

/-! ## Names of tables -/

theorem Table.nodup_names_insert {table : Table} (h : table.names.Nodup)
    (definition : Definition) : (table.insert definition).names.Nodup := by
  rw [names_insert]
  split
  · exact h
  · next hNew => exact List.nodup_append.mpr ⟨h, List.nodup_singleton _, by
      rintro name hName _ hHere rfl
      exact hNew (List.mem_singleton.mp hHere ▸ hName)⟩

theorem Compilation.nodup_names_after (index : LineIndex) (declarations : List Declaration) :
    (after index declarations).table.names.Nodup := by
  induction declarations using List.reverseRecOn with
  | nil => exact List.nodup_nil
  | append_singleton declarations declaration ih =>
    rw [table_after_append]
    exact Table.nodup_names_insert ih _

theorem nodup_names_of_compile {cs : List Char} {index : LineIndex} {found : Compilation}
    (h : compile cs index = .ok found) : found.table.names.Nodup := by
  obtain ⟨log, rfl⟩ := exists_eq_after_of_compile h
  exact Compilation.nodup_names_after index _

theorem Table.find?_eq_some_iff {table : Table} (h : table.names.Nodup) (name : String)
    (definition : Definition) : table.find? name = some definition ↔
      definition ∈ table.definitions ∧ definition.name = name := by
  constructor
  · intro hFind
    exact ⟨mem_definitions_of_find? hFind, by simpa using List.find?_some hFind⟩
  · rintro ⟨hMem, rfl⟩
    cases hFind : table.find? definition.name with
    | none =>
      have hAbsent := List.find?_eq_none.mp hFind definition hMem
      exact absurd (decide_eq_true rfl) hAbsent
    | some other =>
      have hName : other.name = definition.name := by simpa using List.find?_some hFind
      exact congrArg some
        (List.inj_on_of_nodup_map h (mem_definitions_of_find? hFind) hMem hName)

/-! ## Definitions -/

theorem ListsFirst.nodup {listed alternatives : List String} (h : ListsFirst listed alternatives) :
    listed.Nodup :=
  nodup_of_pairwise_idxOf h.ordered

namespace Definition

theorem isSome_automaton?_iff (definition : Definition) :
    definition.automaton?.isSome = true ↔ definition.rule.kind = "CHILDREN" := by
  cases hRule : definition.rule <;> simp [automaton?, ContentRule.kind, hRule]

theorem rule_of_automaton? {definition : Definition} {automaton : ContentModel.Automaton}
    (h : definition.automaton? = some automaton) : definition.rule = .children automaton := by
  unfold automaton? at h
  split at h
  · next hRule => rw [hRule, Option.some.inj h]
  · cases h

theorem allowed_eq_nil {definition : Definition} (h : definition.rule.kind ≠ "MIXED") :
    definition.allowed = [] := by
  cases hRule : definition.rule with
  | mixed listed => exact absurd (congrArg ContentRule.kind hRule) h
  | _ => simp [allowed, hRule]

/-- The definition agrees with the text in which it stands, and its parts agree with each other. The
names are those whose content model has no meaning. -/
structure Sound (definition : Definition) (cs : List Char) (degraded : List String) : Prop where
  line_pos : 1 ≤ definition.line
  line_le : definition.line ≤ (LineIndex.ofText cs).lineCount
  /-- Its declaration opens outside comments, on the line that is named. -/
  declared : ∃ declaration ∈ declarations cs, definition.name = declaration.key ∧
    definition.spec.toList = bareSpec declaration.spec ∧
    declarationOpener <+: cs.drop declaration.offset ∧
    ¬ Markup.IsMasked [.comment] cs declaration.offset ∧
    definition.line = 1 + (cs.take declaration.offset).count '\n'
  automaton_iff : definition.automaton?.isSome = true ↔ definition.rule.kind = "CHILDREN"
  automaton : ∀ automaton ∈ definition.automaton?,
    ContentModel.compile definition.spec.toList = .ok automaton
  unlisted : definition.rule.kind ≠ "MIXED" → definition.allowed = []
  nodup : definition.allowed.Nodup
  nonempty : "" ∉ definition.allowed
  first : ∀ c ∈ definition.spec.toList.head?, isBlank c = false
  last : ∀ c ∈ definition.spec.toList.getLast?, isBlank c = false
  unconstrained : Degrades definition.spec.toList →
    definition.rule.kind = "ANY" ∧ definition.name ∈ degraded

end Definition

section

variable {cs : List Char} {found : Compilation} (hCompile : compile cs (.ofText cs) = .ok found)
  {definition : Definition} (hDefinition : definition ∈ found.table.definitions)
include hCompile hDefinition

/-- What is listed comes from the pieces between the bars, so nothing is listed twice. -/
theorem exists_listsFirst_allowed : ∃ alternatives, ListsFirst definition.allowed alternatives := by
  by_cases hMark : characterDataMark <+: removeBlanks definition.spec.toList
  · have hRule := rule_of_mark hCompile hDefinition hMark
    split at hRule
    · exact ⟨[], by simp [Definition.allowed, hRule], by simp [Definition.allowed, hRule]⟩
    · refine ⟨pieces (removeBlanks definition.spec.toList), ?_⟩
      rw [Definition.allowed, hRule]
      exact listsFirst_pieces _
  · rw [allowed_of_no_mark hCompile hDefinition hMark]
    exact ⟨[], by simp, .nil⟩

theorem sound_of_mem : definition.Sound cs found.degraded := by
  obtain ⟨declaration, hDeclaration, hDefined⟩ := exists_declaration_of_compile hCompile hDefinition
  have hLine : definition.line = (LineIndex.ofText cs).lineAt declaration.offset := by
    rw [hDefined, Declaration.defined, line_define]
  have hSpec : definition.spec.toList = bareSpec declaration.spec := by
    rw [hDefined, Declaration.defined, spec_define, String.toList_ofList]
  have hName : definition.name = declaration.key := by
    rw [hDefined, Declaration.defined, name_define]
  have hBounds := LineIndex.lineAt_bounds cs declaration.offset
  obtain ⟨hOpens, hClear⟩ := opener_of_mem_declarations hDeclaration
  obtain ⟨alternatives, hListed⟩ := exists_listsFirst_allowed hCompile hDefinition
  refine
    { line_pos := by omega
      line_le := by rw [LineIndex.lineCount_ofText]; omega
      declared := ⟨declaration, hDeclaration, hName, hSpec, hOpens, hClear, ?counted⟩
      automaton_iff := definition.isSome_automaton?_iff
      automaton := fun automaton hSome => faithful_of_compile hCompile definition hDefinition
        automaton (Definition.rule_of_automaton? hSome)
      unlisted := Definition.allowed_eq_nil
      nodup := hListed.nodup
      nonempty := fun hEmpty => ((hListed.mem_iff "").mp hEmpty).1 rfl
      first := ?first
      last := ?last
      unconstrained := fun hDegrades => ⟨?kind, ?degraded⟩ }
  case counted =>
    rw [hLine, LineIndex.lineAt_ofText]
    omega
  case first =>
    rw [hSpec]
    exact head?_trim _
  case last =>
    rw [hSpec]
    exact getLast?_trim _
  case kind =>
    obtain hRule | ⟨-, hAny⟩ := rule_of_compile hCompile hDefinition
    · obtain ⟨fault, hFault⟩ := (exists_ruleOf_eq_error_iff _).mpr hDegrades
      cases hFault.symm.trans hRule
    · rw [hAny, ContentRule.kind]
  case degraded =>
    rw [degraded_of_compile hCompile, hName]
    apply List.mem_map_of_mem
    rw [List.mem_filter, decide_eq_true_iff, ← hSpec]
    exact ⟨hDeclaration, hDegrades⟩

end

/-- The names of the table are distinct, each is bound to the definition that bears it, and all
definitions agree with the text. -/
structure Table.Sound (table : Table) (cs : List Char) (degraded : List String) : Prop where
  nodup : table.names.Nodup
  bound : ∀ name definition, table.find? name = some definition ↔
    definition ∈ table.definitions ∧ definition.name = name
  definitions : ∀ definition ∈ table.definitions, definition.Sound cs degraded

/-- Whatever text is accepted, the table agrees with it and with the names that the compiler then
knows as degraded. -/
theorem Compiler.sound_of_compile {compiler later : Compiler} {cs : List Char} {found : Compilation}
    (h : compiler.compile cs (.ofText cs) = (.ok found, later)) :
    found.table.Sound cs later.degraded := by
  cases hCompile : Dtd.compile cs (.ofText cs) with
  | error fault => cases (compiler.compile_of_error hCompile).symm.trans h
  | ok result =>
    cases (compiler.compile_of_ok hCompile).symm.trans h
    have hNames := nodup_names_of_compile hCompile
    exact ⟨hNames, Table.find?_eq_some_iff hNames, fun _ => sound_of_mem hCompile⟩

/-- A comment, a content model without a meaning on the third line and one that lists a name twice. -/
def degradedText : List Char :=
  "<!-- <!ELEMENT x\nANY> -->\n<!ELEMENT a ((b>\n<!ELEMENT m (#PCDATA|b||b)*>".toList

def degradedDefinitions : List Definition :=
  [⟨"a", .any, "((b", 3⟩, ⟨"m", .mixed ["b"], "(#PCDATA|b||b)*", 4⟩]

theorem Compiler.sound_of_compile_of_degraded :
    ∃ found later, Compiler.compile ⟨["x"]⟩ degradedText (.ofText degradedText) =
        (.ok found, later) ∧
      found.table.Sound degradedText later.degraded ∧
      later.degraded = ["a"] ∧ found.table.definitions = degradedDefinitions := by
  have hRun : (Dtd.compile degradedText (.ofText degradedText)).toOption.map
      (fun found => (found.degraded, found.table.definitions)) =
        some (["a"], degradedDefinitions) := by
    decide +kernel
  cases hCompile : Dtd.compile degradedText (.ofText degradedText) with
  | error fault => simp [hCompile, Except.toOption] at hRun
  | ok found =>
    simp only [hCompile, Except.toOption, Option.map_some, Option.some.injEq, Prod.mk.injEq] at hRun
    have hCompiler := Compiler.compile_of_ok hCompile ⟨["x"]⟩
    exact ⟨found, _, hCompiler, Compiler.sound_of_compile hCompiler, hRun⟩

end DtdConformance.Dtd
