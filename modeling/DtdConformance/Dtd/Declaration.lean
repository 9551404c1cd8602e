import DtdConformance.Dtd.Definition
import DtdConformance.Text.Search

/-! # Reading one declaration

A content model may hold comments between double hyphens on one line. What is left is classified
without its blanks: two words stand for empty and for unconstrained content, the character data
mark alone for text, the mark with alternatives for mixed content, and all else is a content
model. A content model that has no meaning leaves the element unconstrained.
-/
namespace DtdConformance.Dtd
set_option autoImplicit false

open Text

def hyphens : List Char := ['-', '-']

/-- What follows an inline comment whose opening hyphens have just been read. A comment ends on
its line. -/
def afterComment? : List Char → Option (List Char)
  | [] => none
  | c :: cs =>
    match after? hyphens (c :: cs) with
    | some rest => some rest
    | none => if c = '\n' then none else afterComment? cs

theorem length_lt_of_afterComment? {cs rest : List Char} (h : afterComment? cs = some rest) :
    rest.length < cs.length := by
  induction cs with
  | nil => simp [afterComment?] at h
  | cons c cs ih =>
    rw [afterComment?] at h
    split at h
    · next hAfter =>
      simp only [Option.some.injEq] at h
      subst h
      have hEq := (after?_eq_some_iff ..).mp hAfter
      rw [hEq]
      simp only [hyphens, List.cons_append, List.nil_append, List.length_cons]
      omega
    · split at h
      · simp at h
      · have := ih h
        simp only [List.length_cons]
        omega

def dropComment? (cs : List Char) : Option (List Char) :=
  (after? hyphens cs).bind afterComment?

theorem length_lt_of_dropComment? {cs rest : List Char} (h : dropComment? cs = some rest) :
    rest.length < cs.length := by
  simp only [dropComment?, Option.bind_eq_some_iff] at h
  obtain ⟨inside, hAfter, hRest⟩ := h
  have hLess := length_lt_of_afterComment? hRest
  rw [(after?_eq_some_iff ..).mp hAfter]
  simp only [List.length_append]
  omega

def stripComments (cs : List Char) : List Char :=
  match _hComment : dropComment? cs with
  | some rest => stripComments rest
  | none =>
    match cs with
    | [] => []
    | c :: cs => c :: stripComments cs
termination_by cs.length
decreasing_by
  · exact length_lt_of_dropComment? _hComment
  · simp

def characterDataMark : List Char := ['(', '#', 'P', 'C', 'D', 'A', 'T', 'A']

/-- Drops a closing parenthesis, with an asterisk after it or without one, from the end. -/
def dropGroupEnd (cs : List Char) : List Char :=
  match cs.reverse with
  | '*' :: ')' :: front => front.reverse
  | ')' :: front => front.reverse
  | _ => cs

/-- The names listed in a mixed model without blanks, which begins with the character data mark.
Each name counts once, at its first place. -/
def mixedNames (cs : List Char) : List String :=
  (((splitOn '|' (dropGroupEnd (cs.drop characterDataMark.length))).filter
    (fun piece => !piece.isEmpty)).map String.ofList).eraseDups

/-- A content model without comments and outer blanks. -/
def bareSpec (spec : List Char) : List Char := trim (stripComments (trim spec))

def ruleOf (bare : List Char) : Except ContentModel.Fault ContentRule :=
  let compact := removeBlanks bare
  if compact = ['E', 'M', 'P', 'T', 'Y'] then .ok .empty
  else if compact = ['A', 'N', 'Y'] then .ok .any
  else if compact = characterDataMark ++ [')'] then .ok .text
  else match after? characterDataMark compact with
    | some _ => .ok (.mixed (mixedNames compact))
    | none => (ContentModel.compile bare).map .children

def define (name : String) (spec : List Char) (line : Int) :
    Definition × Option ContentModel.Fault :=
  let bare := bareSpec spec
  match ruleOf bare with
  | .ok rule => (⟨name, rule, String.ofList bare, line⟩, none)
  | .error fault => (⟨name, .any, String.ofList bare, line⟩, some fault)

end DtdConformance.Dtd
