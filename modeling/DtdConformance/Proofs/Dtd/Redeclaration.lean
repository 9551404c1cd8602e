import DtdConformance.Proofs.Dtd.Classification
import DtdConformance.Proofs.Dtd.Compilation
import DtdConformance.Proofs.Dtd.Source

/-! # What a written text declares

The table of a written text binds every name to the last declaration of it and lists the names in
the order of their first declarations. A definition has the line on which its declaration opens,
counted in the text with its comments. What a compiler has compiled before does not show.
-/
namespace DtdConformance.Dtd
set_option autoImplicit false

open Text

theorem trimLeft_trimLeft (cs : List Char) : trimLeft (trimLeft cs) = trimLeft cs :=
  List.dropWhile_idempotent isBlank cs

/-- Blanks before a content model do not count. -/
theorem define_trimLeft (name : String) (spec : List Char) (line : Int) :
    define name (trimLeft spec) line = define name spec line := by
  have hBare : bareSpec (trimLeft spec) = bareSpec spec := by
    simp only [bareSpec, trim, trimLeft_trimLeft]
  rw [define, define, hBare]

/-! ## What the declarations leave behind -/

namespace Compilation

theorem degraded_add (index : LineIndex) (found : Compilation) (declaration : Declaration) :
    (found.add index declaration).degraded =
      if (declaration.defined index).2.isSome then found.degraded ++ [declaration.key]
      else found.degraded := by
  have hName : (declaration.defined index).1.name = declaration.key := name_define ..
  rw [← hName]
  rfl

theorem eraseDups_append_singleton (names : List String) (name : String) :
    (names ++ [name]).eraseDups =
      if name ∈ names then names.eraseDups else names.eraseDups ++ [name] := by
  rw [List.eraseDups_append]
  by_cases hMem : name ∈ names
  · simp [List.removeAll, hMem]
  · simp [List.removeAll, hMem, List.eraseDups_cons]

theorem names_after (index : LineIndex) (declarations : List Declaration) :
    (after index declarations).table.names = (declarations.map Declaration.key).eraseDups := by
  induction declarations using List.reverseRecOn with
  | nil => rfl
  | append_singleton declarations declaration ih =>
    have hName : (declaration.defined index).1.name = declaration.key := name_define ..
    rw [table_after_append, Table.names_insert, hName, ih, List.map_append, List.map_singleton,
      eraseDups_append_singleton]
    simp only [List.mem_eraseDups]

theorem find?_after (index : LineIndex) (declarations : List Declaration) (name : String) :
    (after index declarations).table.find? name =
      ((declarations.filter fun declaration => declaration.key = name).getLast?).map
        fun declaration => (declaration.defined index).1 := by
  induction declarations using List.reverseRecOn with
  | nil => rfl
  | append_singleton declarations declaration ih =>
    have hName : (declaration.defined index).1.name = declaration.key := name_define ..
    rw [table_after_append, List.filter_append]
    by_cases hKey : declaration.key = name
    · rw [List.filter_cons_of_pos (by simpa using hKey), List.filter_nil, List.getLast?_concat,
        Option.map_some, ← hKey, ← hName, Table.find?_insert_self]
    · rw [List.filter_cons_of_neg (by simpa using hKey), List.filter_nil, List.append_nil, ← ih,
        Table.find?_insert_of_ne _ _ (by rw [hName]; exact Ne.symm hKey)]

theorem degraded_after (index : LineIndex) (declarations : List Declaration) :
    (after index declarations).degraded =
      (declarations.filter fun declaration => (declaration.defined index).2.isSome).map
        Declaration.key := by
  induction declarations using List.reverseRecOn with
  | nil => rfl
  | append_singleton declarations declaration ih =>
    rw [after_append, degraded_add, ih, List.filter_append, List.map_append]
    cases hFault : (declaration.defined index).2 <;> simp [hFault]

end Compilation

/-- The lines of a text are counted from one. -/
theorem line_pos_of_compile {cs : List Char} {found : Compilation}
    (h : compile cs (.ofText cs) = .ok found) {definition : Definition}
    (hDefinition : definition ∈ found.table.definitions) : 0 < definition.line := by
  obtain ⟨declaration, _, rfl⟩ := exists_declaration_of_compile h hDefinition
  rw [Declaration.defined, line_define, LineIndex.lineAt_ofText]
  omega

namespace Compiler

theorem compile_of_ok {cs : List Char} {index : LineIndex} {found : Compilation}
    (h : Dtd.compile cs index = .ok found) (compiler : Compiler) :
    compiler.compile cs index = (.ok found, ⟨found.degraded⟩) := by
  rw [compile, h]

theorem compile_of_error {cs : List Char} {index : LineIndex} {fault : TableFault}
    (h : Dtd.compile cs index = .error fault) (compiler : Compiler) :
    compiler.compile cs index = (.error fault, ⟨[]⟩) := by
  rw [compile, h]

end Compiler

/-! ## Compiling a written text -/

/-- The name of a declaration that stands after the given text. -/
def nameOf (entry : List Char × WrittenDeclaration) : String := String.ofList entry.2.name

/-- The definition that a declaration stands for, and the fault of its content model if it has
one. The declaration is on the line that the text before it reaches. -/
def definitionOf (entry : List Char × WrittenDeclaration) :
    Definition × Option ContentModel.Fault :=
  define (nameOf entry) entry.2.spec (1 + entry.1.count '\n' : Nat)

theorem defined_placed {source : Source} {entry : List Char × WrittenDeclaration}
    (h : entry ∈ source.declared) :
    (placed entry).defined (.ofText source.chars) = definitionOf entry := by
  obtain ⟨rest, hRest⟩ := isPrefix_of_mem_declaredIn h
  rw [List.append_assoc] at hRest
  have hLine := LineIndex.lineAt_length entry.1 (entry.2.chars ++ rest)
  rw [hRest] at hLine
  rw [Declaration.defined, definitionOf, placed, define_trimLeft]
  exact congrArg _ (congrArg Nat.cast hLine)

theorem find?_after_declared (source : Source) (name : String) :
    (Compilation.after (.ofText source.chars) (source.declared.map placed)).table.find? name =
      ((source.declared.filter fun entry => nameOf entry = name).getLast?).map
        fun entry => (definitionOf entry).1 := by
  rw [Compilation.find?_after, List.filter_map, List.getLast?_map, Option.map_map]
  refine Option.map_congr fun entry hEntry => ?_
  have hMem := List.mem_of_mem_filter (List.mem_of_getLast? hEntry)
  exact congrArg Prod.fst (defined_placed hMem)

theorem degraded_after_declared (source : Source) :
    (Compilation.after (.ofText source.chars) (source.declared.map placed)).degraded =
      (source.declared.filter fun entry => (definitionOf entry).2.isSome).map nameOf := by
  rw [Compilation.degraded_after, List.filter_map, List.map_map]
  refine congrArg (List.map nameOf) (List.filter_congr fun entry hEntry => ?_)
  exact congrArg (fun definition => definition.2.isSome) (defined_placed hEntry)

/-- Compiling a written text fails exactly when it declares nothing. Otherwise the table lists the
declared names by their first declarations and binds each to its last one. In either case the
compiler then remembers the names whose content model has a fault, one for each such declaration,
and nothing of what it compiled before. -/
theorem compile_source (compiler : Compiler) (source : Source) :
    let outcome := compiler.compile source.chars (.ofText source.chars)
    (∀ entry ∈ source.declared, entry.1 ++ entry.2.chars <+: source.chars) ∧
      (source.declared = [] ∧ outcome.1 = .error .noDeclarations ∨
        source.declared ≠ [] ∧ ∃ found, outcome.1 = .ok found ∧
          found.table.names = (source.declared.map nameOf).eraseDups ∧
          ∀ name, found.table.find? name =
            ((source.declared.filter fun entry => nameOf entry = name).getLast?).map
              fun entry => (definitionOf entry).1) ∧
      outcome.2.degraded =
        (source.declared.filter fun entry => (definitionOf entry).2.isSome).map nameOf := by
  intro outcome
  refine ⟨fun entry hEntry => isPrefix_of_mem_declaredIn hEntry, ?_⟩
  have hDeclarations := source.declarations_chars
  by_cases hNone : source.declared = []
  · have hNil : declarations source.chars = [] := by
      rw [hDeclarations, hNone]
      rfl
    have hOutcome : outcome = (.error .noDeclarations, ⟨[]⟩) :=
      compiler.compile_of_error (compile_of_declarations_eq_nil hNil _)
    rw [hOutcome, hNone]
    exact ⟨Or.inl ⟨rfl, rfl⟩, rfl⟩
  · have hSome : declarations source.chars ≠ [] := by
      rwa [hDeclarations, ne_eq, List.map_eq_nil_iff]
    obtain ⟨log, hCompile⟩ := exists_compile_eq_after hSome (.ofText source.chars)
    rw [hDeclarations] at hCompile
    rw [show outcome = _ from compiler.compile_of_ok hCompile]
    refine ⟨Or.inr ⟨hNone, _, rfl, ?_, find?_after_declared source⟩,
      degraded_after_declared source⟩
    exact (Compilation.names_after _ _).trans (by rw [List.map_map]; rfl)

/-- A declaration that a comment quotes does not count, but its line does. -/
example : ∃ source : Source,
    source.chars = "<!--<!ELEMENT a\nANY>-->\n<!ELEMENT a EMPTY>".toList ∧
      source.declared.map (fun entry => (nameOf entry, (definitionOf entry).1.line)) =
        [("a", 3)] := by
  refine ⟨⟨⟨[], by decide, by decide⟩,
    [(.comment ⟨"<!ELEMENT a\nANY>".toList, by decide +kernel⟩, ⟨['\n'], by decide, by decide⟩),
      (.declaration ⟨[' '], ['a'], [' '], "EMPTY".toList, by decide, by decide, by decide,
        by decide +kernel, by decide +kernel, by decide +kernel⟩, ⟨[], by decide, by decide⟩)]⟩, ?_⟩
  decide +kernel

end DtdConformance.Dtd
