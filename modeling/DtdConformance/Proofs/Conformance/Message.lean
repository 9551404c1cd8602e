import DtdConformance.Conformance.Finding
import DtdConformance.Proofs.Text.Character

/-! # How messages begin

Every message names its element in angle brackets first. From a message that begins in this way the
name can be told, as long as it holds no greater-than sign.
-/
namespace DtdConformance.Conformance
set_option autoImplicit false

def messageOpening (name : String) : List Char :=
  ['E', 'l', 'e', 'm', 'e', 'n', 't', ' ', '<'] ++ (name.toList ++ ['>', ' '])

/-- The message begins with the name of the element in angle brackets. -/
def Diagnostic.TellsOf (diagnostic : Diagnostic) (name : String) : Prop :=
  messageOpening name <+: diagnostic.message.toList

instance (diagnostic : Diagnostic) (name : String) : Decidable (diagnostic.TellsOf name) :=
  inferInstanceAs (Decidable (messageOpening name <+: diagnostic.message.toList))

theorem messageOpening_isPrefix_append (name : String) {text : List Char}
    (h : ['>', ' '] <+: text) :
    messageOpening name <+: "Element <".toList ++ (name.toList ++ text) := by
  have hElement : "Element <".toList = ['E', 'l', 'e', 'm', 'e', 'n', 't', ' ', '<'] :=
    String.toList_ofList
  rw [messageOpening, hElement, List.prefix_append_right_inj, List.prefix_append_right_inj]
  exact h

theorem messageOpening_isPrefix (name : String) (problem : Problem) :
    messageOpening name <+: (problem.message name).toList := by
  unfold Problem.message
  cases problem <;> simp only [String.toList_append, List.append_assoc]
  case undeclared | notEmpty | childInText =>
    exact messageOpening_isPrefix_append name ⟨_, String.toList_ofList.symm⟩
  case unexpectedChild | textBetweenChildren | unfitChildren =>
    apply messageOpening_isPrefix_append
    exact List.IsPrefix.trans ⟨_, String.toList_ofList.symm⟩ (List.prefix_append _ _)

theorem eq_of_messageOpening_isPrefix {name other : String} {text : List Char}
    (hName : '>' ∉ name.toList) (hOther : '>' ∉ other.toList)
    (h : messageOpening name <+: text) (hText : messageOpening other <+: text) : other = name := by
  obtain ⟨rest, rfl⟩ := h
  obtain ⟨more, hMore⟩ := hText
  simp only [messageOpening, List.append_assoc, List.append_cancel_left_eq] at hMore
  have hRun (cs : List Char) (hClose : '>' ∉ cs) (rest : List Char) :
      (cs ++ (['>', ' '] ++ rest)).takeWhile (fun c => c != '>') = cs := by
    apply Text.takeWhile_run
    · intro c hMem
      have hNe : c ≠ '>' := fun hEq => hClose (hEq ▸ hMem)
      simpa using hNe
    · rintro c ⟨⟩
      rfl
  have hTaken := congrArg (List.takeWhile fun c => c != '>') hMore
  rw [hRun _ hOther, hRun _ hName] at hTaken
  exact String.toList_injective hTaken

theorem tellsOf_element (finding : Finding) : finding.diagnostic.TellsOf finding.element :=
  messageOpening_isPrefix ..

theorem tellsOf_iff {finding : Finding} {name : String} (hElement : '>' ∉ finding.element.toList)
    (hName : '>' ∉ name.toList) : finding.diagnostic.TellsOf name ↔ finding.element = name := by
  constructor
  · intro h
    exact eq_of_messageOpening_isPrefix hName hElement h (tellsOf_element finding)
  · rintro rfl
    exact tellsOf_element finding

end DtdConformance.Conformance
