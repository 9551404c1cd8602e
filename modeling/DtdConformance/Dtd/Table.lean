import DtdConformance.Dtd.Declaration
import DtdConformance.Log
import DtdConformance.Markup.Block
import DtdConformance.Text.LineIndex
import DtdConformance.Text.Word

/-! # The table of definitions

A declaration stands where its opening is followed by blanks, a name, blanks and a content model
that reaches to the next greater-than sign. Comments hold no declaration. The table keeps the
declared names in the order of their first declarations and binds each to its last one.
-/
namespace DtdConformance.Dtd
set_option autoImplicit false

open Text

structure Table where
  definitions : List Definition
  deriving DecidableEq

namespace Table

def empty : Table := ⟨[]⟩

def names (table : Table) : List String := table.definitions.map Definition.name

def size (table : Table) : Nat := table.definitions.length

def find? (table : Table) (name : String) : Option Definition :=
  table.definitions.find? (fun definition => definition.name = name)

def contains (table : Table) (name : String) : Bool :=
  table.definitions.any (fun definition => definition.name = name)

def insert (table : Table) (definition : Definition) : Table :=
  if table.contains definition.name then
    ⟨table.definitions.map fun other =>
      if other.name = definition.name then definition else other⟩
  else ⟨table.definitions ++ [definition]⟩

theorem contains_eq_true_iff (table : Table) (name : String) :
    table.contains name = true ↔ name ∈ table.names := by
  simp [contains, names]

theorem names_insert (table : Table) (definition : Definition) :
    (table.insert definition).names =
      if definition.name ∈ table.names then table.names else table.names ++ [definition.name] := by
  unfold insert
  by_cases hName : definition.name ∈ table.names
  · rw [if_pos ((table.contains_eq_true_iff _).mpr hName), if_pos hName]
    simp only [names, List.map_map]
    refine List.map_congr_left fun other _ => ?_
    by_cases hSame : other.name = definition.name <;> simp [hSame]
  · rw [if_neg (fun h => hName ((table.contains_eq_true_iff _).mp h)), if_neg hName]
    simp [names]

theorem find?_map_replace (definition : Definition) (definitions : List Definition)
    (h : definition.name ∈ definitions.map Definition.name) :
    (definitions.map fun other => if other.name = definition.name then definition else other).find?
      (fun other => other.name = definition.name) = some definition := by
  induction definitions with
  | nil => simp at h
  | cons other definitions ih =>
    by_cases hSame : other.name = definition.name
    · simp [hSame]
    · have hRest : definition.name ∈ definitions.map Definition.name := by
        simpa [Ne.symm hSame] using h
      simpa [hSame] using ih hRest

theorem find?_insert_self (table : Table) (definition : Definition) :
    (table.insert definition).find? definition.name = some definition := by
  unfold insert find?
  by_cases hName : definition.name ∈ table.names
  · rw [if_pos ((table.contains_eq_true_iff _).mpr hName)]
    exact find?_map_replace definition table.definitions hName
  · rw [if_neg (fun h => hName ((table.contains_eq_true_iff _).mp h))]
    simp only [names, List.mem_map, not_exists, not_and] at hName
    rw [List.find?_append, List.find?_eq_none.mpr (by simpa using hName)]
    simp

theorem find?_insert_of_ne (table : Table) (definition : Definition) {name : String}
    (h : name ≠ definition.name) : (table.insert definition).find? name = table.find? name := by
  unfold insert find?
  split
  · dsimp only
    induction table.definitions with
    | nil => rfl
    | cons other definitions ih =>
      by_cases hSame : other.name = definition.name
      · simpa [hSame, Ne.symm h] using ih
      · simp only [List.map_cons, hSame, if_false, List.find?_cons, ih]
  · simp [List.find?_append, Ne.symm h]

end Table

/-- A declaration as it is written: its name, its content model and the offset of its opening. -/
structure Declaration where
  name : List Char
  spec : List Char
  offset : Nat
  deriving Repr, DecidableEq

def declarationOpener : List Char := ['<', '!', 'E', 'L', 'E', 'M', 'E', 'N', 'T']

/-- The content model between a name and the next greater-than sign, and what follows. When
nothing but blanks stands there, the last blank is the content model if another one precedes
it. -/
def specAfterName? (cs : List Char) : Option (List Char × List Char) :=
  let blanks := cs.takeWhile isBlank
  let body := (cs.dropWhile isBlank).takeWhile (fun c => c != '>')
  match (cs.dropWhile isBlank).dropWhile (fun c => c != '>') with
  | [] => none
  | _ :: rest =>
    if blanks.isEmpty then none
    else if !body.isEmpty then some (body, rest)
    else if 2 ≤ blanks.length then some (blanks.drop (blanks.length - 1), rest)
    else none

def afterOpener? (cs : List Char) : Option (List Char × List Char × List Char) :=
  let named := cs.dropWhile isBlank
  let name := named.takeWhile isNameChar
  if (cs.takeWhile isBlank).isEmpty || name.isEmpty then none
  else (specAfterName? (named.dropWhile isNameChar)).map fun (spec, rest) => (name, spec, rest)

theorem length_lt_of_specAfterName? {cs spec rest : List Char}
    (h : specAfterName? cs = some (spec, rest)) : rest.length < cs.length := by
  have hBlank := (List.dropWhile_sublist (p := isBlank) (l := cs)).length_le
  have hBody := (List.dropWhile_sublist (p := fun c => c != '>')
    (l := cs.dropWhile isBlank)).length_le
  unfold specAfterName? at h
  simp only at h
  split at h
  · simp at h
  · next hClose =>
    rw [hClose, List.length_cons] at hBody
    split at h
    · simp at h
    · split at h
      · simp only [Option.some.injEq, Prod.mk.injEq] at h
        rw [← h.2]
        omega
      · split at h
        · simp only [Option.some.injEq, Prod.mk.injEq] at h
          rw [← h.2]
          omega
        · simp at h

theorem length_lt_of_afterOpener? {cs name spec rest : List Char}
    (h : afterOpener? cs = some (name, spec, rest)) : rest.length < cs.length := by
  unfold afterOpener? at h
  simp only at h
  split at h
  · simp at h
  · simp only [Option.map_eq_some_iff, Prod.mk.injEq, Prod.exists] at h
    obtain ⟨spec', rest', hSpec, _, _, hRest⟩ := h
    subst hRest
    have hLess := length_lt_of_specAfterName? hSpec
    have hBlank := (List.dropWhile_sublist (p := isBlank) (l := cs)).length_le
    have hName := (List.dropWhile_sublist (p := isNameChar)
      (l := cs.dropWhile isBlank)).length_le
    omega

def declarationAt? (cs : List Char) : Option (List Char × List Char × List Char) :=
  (after? declarationOpener cs).bind afterOpener?

theorem length_lt_of_declarationAt? {cs name spec rest : List Char}
    (h : declarationAt? cs = some (name, spec, rest)) : rest.length < cs.length := by
  simp only [declarationAt?, Option.bind_eq_some_iff] at h
  obtain ⟨inside, hAfter, hRest⟩ := h
  have hLess := length_lt_of_afterOpener? hRest
  rw [(after?_eq_some_iff ..).mp hAfter]
  simp only [List.length_append]
  omega

/-- The declarations of a text without comments, which stands at the given offset. -/
def declarationsFrom (offset : Nat) (cs : List Char) : List Declaration :=
  match _hDeclaration : declarationAt? cs with
  | some (name, spec, rest) =>
    ⟨name, spec, offset⟩ :: declarationsFrom (offset + (cs.length - rest.length)) rest
  | none =>
    match cs with
    | [] => []
    | _ :: cs => declarationsFrom (offset + 1) cs
termination_by cs.length
decreasing_by
  · exact length_lt_of_declarationAt? _hDeclaration
  · simp

def declarations (cs : List Char) : List Declaration :=
  declarationsFrom 0 (Markup.maskComments cs)

/-- The table of a text, the names whose content model has no meaning in the order of their
declarations, and what was reported on the way. -/
structure Compilation where
  table : Table
  degraded : List String
  log : List Log.Entry
  deriving DecidableEq

namespace Compilation

def degradedEntry (definition : Definition) (fault : ContentModel.Fault) : Log.Entry where
  channel := .compiler
  level := .warning
  text := s!"Failed to parse content spec for <{definition.name}> (line {definition.line}): " ++
    s!"{quoted definition.spec}: {fault.message}"

def redeclaredEntry (definition : Definition) : Log.Entry where
  channel := .compiler
  level := .debug
  text := s!"Element <{definition.name}> redeclared on line {definition.line}; " ++
    "later declaration wins"

def add (index : LineIndex) (found : Compilation) (declaration : Declaration) : Compilation :=
  let line : Int := index.lineAt declaration.offset
  let (definition, fault?) := define (String.ofList declaration.name) declaration.spec line
  let log := match fault? with
    | some fault => found.log ++ [degradedEntry definition fault]
    | none => found.log
  { table := found.table.insert definition
    degraded := if fault?.isSome then found.degraded ++ [definition.name] else found.degraded
    log := if found.table.contains definition.name then log ++ [redeclaredEntry definition]
      else log }

def summaryEntry (found : Compilation) : Log.Entry where
  channel := .compiler
  level := .info
  text := s!"Compiled {found.table.size} element definition(s)" ++
    if found.degraded.isEmpty then "" else s!", {found.degraded.length} degraded to ANY"

end Compilation

inductive TableFault where
  | noDeclarations
  deriving Repr, DecidableEq

def TableFault.message : TableFault → String
  | noDeclarations => "No valid ELEMENT definitions found in DTD."

def compile (cs : List Char) (index : LineIndex) : Except TableFault Compilation :=
  let found := (declarations cs).foldl (Compilation.add index) ⟨.empty, [], []⟩
  if found.table.definitions.isEmpty then .error .noDeclarations
  else .ok { found with log := found.log ++ [found.summaryEntry] }

/-- A compiler compiles one text after another and remembers which names the last one degraded. -/
structure Compiler where
  degraded : List String := []
  deriving Repr, DecidableEq

/-- What was degraded before is forgotten, also when the text holds no declaration. -/
def Compiler.compile (_compiler : Compiler) (cs : List Char) (index : LineIndex) :
    Except TableFault Compilation × Compiler :=
  match Dtd.compile cs index with
  | .ok found => (.ok found, ⟨found.degraded⟩)
  | .error fault => (.error fault, ⟨[]⟩)

end DtdConformance.Dtd
