import DtdConformance.ContentModel.Expression
import DtdConformance.ContentModel.Token

/-! # The grammar of content models

A model is a choice. A choice is a list of sequences between bars, a sequence holds items and
commas in any number and order, an item is an atom with at most one repetition mark, and an atom is
a name or a choice in parentheses. Each phrase stands for an expression. The grammar knows no limit
on the nesting of groups and nothing of the way in which tokens are read.
-/
namespace DtdConformance.ContentModel
set_option autoImplicit false

inductive Phrase where
  | choice
  | sequence
  | item
  | atom
  deriving Repr, DecidableEq

/-- The tokens form a phrase that stands for the expression. -/
inductive Derives : Phrase → List Token → Expression String → Prop
  | single {tokens : List Token} {e : Expression String} :
      Derives .sequence tokens e → Derives .choice tokens e
  | bar {tokens others : List Token} {e f : Expression String} :
      Derives .choice tokens e → Derives .sequence others f →
      Derives .choice (tokens ++ .operator .bar :: others) (.choice e f)
  | nothing : Derives .sequence [] .empty
  | comma {tokens : List Token} {e : Expression String} :
      Derives .sequence tokens e → Derives .sequence (tokens ++ [.operator .comma]) e
  | next {tokens others : List Token} {e f : Expression String} :
      Derives .sequence tokens e → Derives .item others f →
      Derives .sequence (tokens ++ others) (.sequence e f)
  | bare {tokens : List Token} {e : Expression String} :
      Derives .atom tokens e → Derives .item tokens e
  | marked {tokens : List Token} {e : Expression String} (mark : Repetition) :
      Derives .atom tokens e →
      Derives .item (tokens ++ [.operator (.mark mark)]) (.repetition mark e)
  | name (text : String) : Derives .atom [.name text] (.leaf text)
  | group {tokens : List Token} {e : Expression String} :
      Derives .choice tokens e →
      Derives .atom (.operator .openGroup :: tokens ++ [.operator .closeGroup]) e

/-- The tokens form a content model. -/
def Derivable (tokens : List Token) : Prop := ∃ e, Derives .choice tokens e

/-- The tokens begin a content model. -/
def Viable (tokens : List Token) : Prop := ∃ rest, Derivable (tokens ++ rest)

theorem Derivable.viable {tokens : List Token} (h : Derivable tokens) : Viable tokens :=
  ⟨[], by simpa using h⟩

theorem Viable.of_append {tokens others : List Token} (h : Viable (tokens ++ others)) :
    Viable tokens := by
  obtain ⟨rest, hRest⟩ := h
  exact ⟨others ++ rest, by simpa [List.append_assoc] using hRest⟩

theorem Viable.take {tokens : List Token} (h : Viable tokens) (n : Nat) :
    Viable (tokens.take n) := by
  rw [← List.take_append_drop n tokens] at h
  exact h.of_append

/-- No beginning of the tokens leaves more than the given number of groups open. -/
def NestsWithin (limit : Nat) (tokens : List Token) : Prop :=
  ∀ n ≤ tokens.length, (tokens.take n).count (.operator .openGroup) ≤
    (tokens.take n).count (.operator .closeGroup) + limit

instance (limit : Nat) (tokens : List Token) : Decidable (NestsWithin limit tokens) :=
  inferInstanceAs (Decidable (∀ n ≤ tokens.length, _))

theorem NestsWithin.count_le {limit : Nat} {tokens others : List Token}
    (h : NestsWithin limit (tokens ++ others)) :
    tokens.count (.operator .openGroup) ≤ tokens.count (.operator .closeGroup) + limit := by
  have hFront := h tokens.length (by simp)
  simpa using hFront

end DtdConformance.ContentModel
