import DtdConformance.Proofs.Document.Edit
import DtdConformance.Proofs.Run.Line
import DtdConformance.Proofs.Text.Spacing

/-! # Findings under edits

What is found in a tree is found in the gathered tree. So asides may be put anywhere into a tree, and
the findings stay as they are. Blanks may be put anywhere into its texts, or taken out, and the
findings still are about the same elements and say the same but for the texts that they quote.
-/
namespace DtdConformance.Conformance
set_option autoImplicit false

open Document Dtd

/-! ## One element -/

/-- The problem without the text that it quotes. -/
def Problem.unquoted : Problem → Problem
  | textBetweenChildren _ => textBetweenChildren ""
  | problem => problem

theorem Problem.eq_or_of_unquoted_eq {problem other : Problem}
    (h : other.unquoted = problem.unquoted) :
    other = problem ∨ ∃ quote quote', problem = textBetweenChildren quote ∧
      other = textBetweenChildren quote' := by
  cases problem <;> cases other <;> simp_all [unquoted]

section

variable {α β : Type} {previewLength : Int}

theorem map_unquoted_problems_congr (definition : Definition) {e : Element α} {other : Element β}
    (hNames : e.children.map Element.name = other.children.map Element.name)
    (hText : Text.removeBlanks e.directText = Text.removeBlanks other.directText) :
    (problems previewLength definition e).map Problem.unquoted =
      (problems previewLength definition other).map Problem.unquoted := by
  unfold problems
  cases definition.rule with
  | empty =>
    dsimp only
    rw [isEmpty_children_congr hNames, Text.hasText_eq, hText, ← Text.hasText_eq]
  | any => rfl
  | text =>
    dsimp only
    rw [isEmpty_children_congr hNames]
  | mixed allowed =>
    exact congrArg (List.map Problem.unquoted) (unexpectedChildren_congr definition allowed hNames)
  | children automaton =>
    dsimp only
    rw [List.map_append, List.map_append, hNames, Text.isEmpty_trim, hText, ← Text.isEmpty_trim]
    congr 1
    split <;> rfl

theorem problems_map (f : α → β) (definition : Definition) (e : Element α) :
    problems previewLength definition (e.map f) = problems previewLength definition e := by
  refine problems_congr previewLength definition ?_ (e.directText_map f)
  rw [Element.children_map, List.map_map]
  rfl

theorem problems_gather_all (definition : Definition) (e : Element α) :
    problems previewLength definition (e.gather fun _ => true) =
      problems previewLength definition e := by
  refine problems_congr previewLength definition (e.names_children_gather _) ?_
  rw [Element.directText_gather, List.filter_true]

theorem map_unquoted_problems_gather (definition : Definition) (e : Element α) :
    (problems previewLength definition (e.gather fun c => !Text.isBlank c)).map Problem.unquoted =
      (problems previewLength definition e).map Problem.unquoted := by
  refine map_unquoted_problems_congr definition (e.names_children_gather _) ?_
  rw [Element.directText_gather]
  exact Text.removeBlanks_eq_self fun c hMem => ((Text.mem_removeBlanks_iff c _).mp hMem).2

end

/-! ## All elements -/

/-- The finding with its problem said in other words. -/
def Finding.reword (words : Problem → Problem) (finding : Finding) : Finding :=
  { finding with problem := words finding.problem }

section

variable {α : Type} (table : Table) (previewLength : Int) (lineOf : α → Option Nat)

/-- The findings of a tree, each with the label of the element that was looked at. -/
def labelled (root : Element α) : List (α × Finding) :=
  (attributed table previewLength lineOf root).map fun entry => (entry.1.label, entry.2)

theorem map_snd_labelled (root : Element α) :
    (labelled table previewLength lineOf root).map Prod.snd =
      findings table previewLength (root.map lineOf) := by
  rw [← map_snd_attributed, labelled, List.map_map]
  rfl

theorem map_reword_findingsAt (words : Problem → Problem) (e : Element α) :
    (findingsAt table previewLength (e.map lineOf)).map (Finding.reword words) =
      match table.find? e.name with
      | none => [⟨e.name, lineOf e.label, none, words .undeclared⟩]
      | some definition => ((problems previewLength definition e).map words).map fun problem =>
          ⟨e.name, lineOf e.label, some definition.line, problem⟩ := by
  have hName : (e.map lineOf).name = e.name := rfl
  rw [findingsAt, hName]
  cases table.find? e.name with
  | none => rfl
  | some definition =>
    dsimp only
    rw [problems_map, List.map_map, List.map_map]
    rfl

/-- A tree and its gathered tree have the same elements, so the findings agree in those words in
which the problems of each single element agree. -/
theorem map_reword_labelled_gather {keeps : Char → Bool} {words : Problem → Problem}
    (h : ∀ (definition : Definition) (e : Element α),
      (problems previewLength definition (e.gather keeps)).map words =
        (problems previewLength definition e).map words) (root : Element α) :
    (labelled table previewLength lineOf (root.gather keeps)).map
        (fun entry => (entry.1, entry.2.reword words)) =
      (labelled table previewLength lineOf root).map
        fun entry => (entry.1, entry.2.reword words) := by
  have hAt (e : Element α) :
      (findingsAt table previewLength ((e.gather keeps).map lineOf)).map (Finding.reword words) =
        (findingsAt table previewLength (e.map lineOf)).map (Finding.reword words) := by
    rw [map_reword_findingsAt, map_reword_findingsAt]
    simp only [h]
    rfl
  simp only [labelled, attributed, Element.reached_gather, List.map_flatMap, List.flatMap_map,
    List.map_map]
  apply List.flatMap_congr
  intro e _
  have hEntry := congrArg (List.map fun finding => (e.label, finding)) (hAt e)
  rw [List.map_map, List.map_map] at hEntry
  exact hEntry

theorem map_reword_labelled_of_edited {change : Content α → Content α → Prop}
    {keeps : Char → Bool} {words : Problem → Problem}
    (hChange : ∀ content other, change content other → other.gather keeps = content.gather keeps)
    (hWords : ∀ (definition : Definition) (e : Element α),
      (problems previewLength definition (e.gather keeps)).map words =
        (problems previewLength definition e).map words)
    {root other : Element α} (h : root.Edited change other) :
    (labelled table previewLength lineOf other).map
        (fun entry => (entry.1, entry.2.reword words)) =
      (labelled table previewLength lineOf root).map
        fun entry => (entry.1, entry.2.reword words) := by
  rw [← map_reword_labelled_gather table previewLength lineOf hWords other, h.gather_eq hChange,
    map_reword_labelled_gather table previewLength lineOf hWords root]

end

/-- Both findings are about the same element and of the same kind. What they say may differ in the
text that is quoted. -/
structure Finding.SameButQuote (finding other : Finding) : Prop where
  element_eq : other.element = finding.element
  line_eq : other.line = finding.line
  declaredAt_eq : other.declaredAt = finding.declaredAt
  problem_eq : other.problem = finding.problem ∨
    ∃ quote quote', finding.problem = .textBetweenChildren quote ∧
      other.problem = .textBetweenChildren quote'

theorem Finding.sameButQuote_of_unquoted_eq {finding other : Finding}
    (h : other.reword Problem.unquoted = finding.reword Problem.unquoted) :
    finding.SameButQuote other := by
  obtain ⟨element, line, declaredAt, problem⟩ := finding
  obtain ⟨element', line', declaredAt', problem'⟩ := other
  injection h with hElement hLine hDeclared hProblem
  exact ⟨hElement, hLine, hDeclared, Problem.eq_or_of_unquoted_eq hProblem⟩

/-- Asides put into the content of any elements change no finding. When blanks are put into the
texts or taken out of them as well, there are as many findings in the same order, about the same
elements and of the same kinds, and only quoted texts may differ. -/
theorem findings_edited {α : Type} (table : Table) (previewLength : Int)
    (lineOf : α → Option Nat) (root : Element α) :
    let told (tree : Element α) := labelled table previewLength lineOf tree
    (∀ tree, (told tree).map Prod.snd = findings table previewLength (tree.map lineOf)) ∧
      (∀ other, root.Edited Content.PutsAside other → told other = told root ∧
        findings table previewLength (other.map lineOf) =
          findings table previewLength (root.map lineOf)) ∧
      (∀ other, root.Edited Content.Respaces other →
        List.Forall₂ (fun entry entry' => entry'.1 = entry.1 ∧ entry.2.SameButQuote entry'.2)
          (told root) (told other)) := by
  intro told
  refine ⟨map_snd_labelled table previewLength lineOf, fun other hEdited => ?_,
    fun other hEdited => ?_⟩
  · have hSame : told other = told root := by
      have hReword := map_reword_labelled_of_edited table previewLength lineOf
        (fun _ _ hAside => hAside.gather_eq _)
        (fun definition e => congrArg (List.map id) (problems_gather_all definition e)) hEdited
      exact ((List.map_id _).symm.trans hReword).trans (List.map_id _)
    refine ⟨hSame, ?_⟩
    rw [← map_snd_labelled, ← map_snd_labelled]
    exact congrArg (List.map Prod.snd) hSame
  · have hReword := map_reword_labelled_of_edited table previewLength lineOf
      (fun _ _ hRespaces => hRespaces.gather_eq) map_unquoted_problems_gather hEdited
    rw [eq_comm, ← List.forall₂_eq_eq_eq, List.forall₂_map_left_iff,
      List.forall₂_map_right_iff] at hReword
    refine hReword.imp fun entry entry' hEq => ?_
    obtain ⟨hLabel, hFinding⟩ := Prod.mk.inj hEq
    exact ⟨hLabel.symm, Finding.sameButQuote_of_unquoted_eq hFinding.symm⟩

/-- A shelf holds books and nothing else. -/
def shelfTable : Table :=
  ⟨[⟨"shelf", .children (.ofExpression "(book)*" (.repetition .many (.leaf "book"))), "(book)*", 1⟩,
    ⟨"book", .empty, "EMPTY", 2⟩]⟩

def shelf (front : Content Nat → Content Nat) : Element Nat :=
  ⟨"shelf", 1, front (.element "book" 2 .done .done)⟩

/-- A comment in the middle of a stray word does not show. Blanks show in the word as it is quoted. -/
theorem findings_edited_of_stray_word :
    let plain := shelf (.text ['\n', 'o', 'l', 'd'])
    let commented := shelf fun rest => .text ['\n', 'o'] (.aside .comment (.text ['l', 'd'] rest))
    let spread := shelf fun rest => .text ['o'] (.aside .comment (.text [' ', 'l', 'd'] rest))
    plain.Edited Content.PutsAside commented ∧ plain.Edited Content.Respaces spread ∧
      findings shelfTable 20 (commented.map some) = findings shelfTable 20 (plain.map some) ∧
      findings shelfTable 20 (plain.map some) =
        [⟨"shelf", some 1, some 1, .textBetweenChildren "old"⟩] ∧
      findings shelfTable 20 (spread.map some) =
        [⟨"shelf", some 1, some 1, .textBetweenChildren "o ld"⟩] ∧
      List.Forall₂ (fun entry entry' => entry'.1 = entry.1 ∧ entry.2.SameButQuote entry'.2)
        (labelled shelfTable 20 some plain) (labelled shelfTable 20 some spread) := by
  intro plain commented spread
  have hCommented : plain.Edited Content.PutsAside commented :=
    ⟨rfl, rfl, .single (.here (.amid .comment ['\n', 'o'] ['l', 'd'] _))⟩
  have hSpread : plain.Edited Content.Respaces spread :=
    ⟨rfl, rfl, .tail (.tail (.single (.here (.noBlank (.amid rfl [] ['o', 'l', 'd'] _))))
      (.here (.aside (.amid .comment ['o'] ['l', 'd'] _))))
      (.afterText ['o'] (.afterAside .comment (.here (.blank (.amid rfl [] ['l', 'd'] _)))))⟩
  obtain ⟨_, hAsides, hBlanks⟩ := findings_edited shelfTable 20 some plain
  exact ⟨hCommented, hSpread, (hAsides commented hCommented).2, by decide +kernel,
    by decide +kernel, hBlanks spread hSpread⟩

end DtdConformance.Conformance
