import Mathlib.Data.List.Chain
import DtdConformance.ContentModel.Token
import DtdConformance.Proofs.Text.Character
import DtdConformance.Proofs.Text.Spacing

/-! # Tokens and their printed form

A list of tokens is canonical when its names are made of name characters and an operator stands
between any two names. Such a list is read back from its printed form, with blanks put in anywhere,
and no other list is ever read. A text that cannot be read is blank or has a run of characters
between two operators that is no name.
-/
namespace DtdConformance.ContentModel
set_option autoImplicit false

open Text

/-! ## Canonical lists -/

def Token.isName : Token → Bool
  | .name _ => true
  | .operator _ => false

def printed (tokens : List Token) : List Char := tokens.flatMap Token.chars

/-- At least one character of a name and nothing else. -/
def IsModelName (cs : List Char) : Prop := cs ≠ [] ∧ ∀ c ∈ cs, isModelNameChar c = true

instance (cs : List Char) : Decidable (IsModelName cs) :=
  decidable_of_iff (cs ≠ [] ∧ cs.all isModelNameChar = true) (by rw [IsModelName, List.all_eq_true])

structure Legible (tokens : List Token) : Prop where
  named : ∀ text, .name text ∈ tokens → IsModelName text.toList
  apart : tokens.IsChain fun token next => ¬ (token.isName = true ∧ next.isName = true)

structure Canonical (tokens : List Token) : Prop extends Legible tokens where
  nonempty : tokens ≠ []

theorem legible_nil : Legible [] where
  named _ hMem := nomatch hMem
  apart := .nil

theorem legible_cons_operator_iff (op : Operator) (tokens : List Token) :
    Legible (.operator op :: tokens) ↔ Legible tokens := by
  constructor
  · intro h
    exact ⟨fun text hMem => h.named text (List.mem_cons_of_mem _ hMem), h.apart.tail⟩
  · intro h
    refine ⟨fun text hMem => h.named text ?_, h.apart.cons ?_⟩
    · simpa using hMem
    · rintro next - ⟨hName, -⟩
      cases hName

theorem legible_cons_name_iff (text : String) (tokens : List Token) :
    Legible (.name text :: tokens) ↔
      IsModelName text.toList ∧ (∀ next ∈ tokens.head?, next.isName = false) ∧ Legible tokens := by
  constructor
  · intro h
    have hChain := List.isChain_cons.mp h.apart
    refine ⟨h.named text List.mem_cons_self, fun next hNext => ?_,
      fun other hMem => h.named other (List.mem_cons_of_mem _ hMem), hChain.2⟩
    exact Bool.eq_false_iff.mpr fun hName => hChain.1 next hNext ⟨rfl, hName⟩
  · rintro ⟨hText, hHead, h⟩
    refine ⟨fun other hMem => ?_, h.apart.cons fun next hNext hBoth => ?_⟩
    · rcases List.mem_cons.mp hMem with hHere | hLater
      · cases hHere
        exact hText
      · exact h.named other hLater
    · rw [hHead next hNext] at hBoth
      cases hBoth.2

/-! ## Characters of tokens -/

theorem isModelNameChar_toChar (op : Operator) : isModelNameChar op.toChar = false := by
  cases op with
  | mark repetition => cases repetition <;> decide
  | _ => decide

theorem isBlank_toChar (op : Operator) : isBlank op.toChar = false := by
  cases op with
  | mark repetition => cases repetition <;> decide
  | _ => decide

theorem ofChar?_of_isModelNameChar {c : Char} (h : isModelNameChar c = true) :
    Operator.ofChar? c = none := by
  cases hOp : Operator.ofChar? c with
  | none => rfl
  | some op =>
    rw [← Operator.toChar_of_ofChar? hOp, isModelNameChar_toChar] at h
    cases h

theorem isBlank_of_isModelNameChar {c : Char} (h : isModelNameChar c = true) :
    isBlank c = false := by
  rw [isModelNameChar, Bool.or_eq_true, beq_iff_eq] at h
  rcases h with hName | rfl
  · exact isBlank_eq_false_of_isNameChar hName
  · decide

/-- The character is an operator or belongs to a name. -/
def isTokenChar (c : Char) : Bool := (Operator.ofChar? c).isSome || isModelNameChar c

theorem isTokenChar_eq_false_iff (c : Char) :
    isTokenChar c = false ↔ Operator.ofChar? c = none ∧ isModelNameChar c = false := by
  rw [isTokenChar, Bool.or_eq_false_iff, Option.isSome_eq_false_iff, Option.isNone_iff_eq_none]

theorem isBlank_of_isTokenChar {c : Char} (h : isTokenChar c = true) : isBlank c = false := by
  rcases Bool.or_eq_true _ _ ▸ h with hOp | hName
  · obtain ⟨op, hOp⟩ := Option.isSome_iff_exists.mp hOp
    rw [← Operator.toChar_of_ofChar? hOp]
    exact isBlank_toChar op
  · exact isBlank_of_isModelNameChar hName

theorem printed_ne_nil {tokens : List Token} (h : Canonical tokens) : printed tokens ≠ [] := by
  obtain ⟨token, rest, rfl⟩ := List.exists_cons_of_ne_nil h.nonempty
  have hChars : token.chars ≠ [] := by
    cases token with
    | name text => exact (h.named text List.mem_cons_self).1
    | operator op => exact List.cons_ne_nil _ _
  exact List.append_ne_nil_of_left_ne_nil hChars _

theorem isTokenChar_of_mem_printed {tokens : List Token} (h : Legible tokens) :
    ∀ c ∈ printed tokens, isTokenChar c = true := by
  intro c hMem
  obtain ⟨token, hToken, hChar⟩ := List.mem_flatMap.mp hMem
  cases token with
  | name text => rw [isTokenChar, (h.named text hToken).2 c hChar, Bool.or_true]
  | operator op =>
    rw [List.mem_singleton.mp hChar, isTokenChar, Operator.ofChar?_toChar]
    rfl

/-! ## Reading -/

/-- A text cut at its operators. -/
inductive Cut : List Char → Prop
  | last {run : List Char} (hRun : ∀ c ∈ run, Operator.ofChar? c = none) : Cut run
  | operator {run cs : List Char} (hRun : ∀ c ∈ run, Operator.ofChar? c = none) (op : Operator)
      (rest : Cut cs) : Cut (run ++ op.toChar :: cs)

theorem cut (cs : List Char) : Cut cs := by
  induction cs with
  | nil => exact .last (by simp)
  | cons c cs ih =>
    cases hOp : Operator.ofChar? c with
    | some op =>
      rw [← Operator.toChar_of_ofChar? hOp]
      exact @Cut.operator [] cs (by simp) op ih
    | none =>
      cases ih with
      | last hRun => exact .last (List.forall_mem_cons.mpr ⟨hOp, hRun⟩)
      | @operator run cs hRun op rest =>
        exact @Cut.operator (c :: run) cs (List.forall_mem_cons.mpr ⟨hOp, hRun⟩) op rest

/-- A run between two operators is empty, a name, or the fault. -/
theorem nameToken_cases (run : List Char) :
    (run = [] ∧ nameToken run = .ok []) ∨
      (IsModelName run ∧ nameToken run = .ok [.name (String.ofList run)]) ∨
      (∃ c ∈ run, isModelNameChar c = false) ∧
        nameToken run = .error (.invalidName (String.ofList run)) := by
  cases hEmpty : run.isEmpty with
  | true =>
    obtain rfl := List.isEmpty_iff.mp hEmpty
    exact .inl ⟨rfl, rfl⟩
  | false =>
    have hNonempty : run ≠ [] := by simpa using hEmpty
    cases hAll : run.all isModelNameChar with
    | true =>
      refine .inr (.inl ⟨⟨hNonempty, List.all_eq_true.mp hAll⟩, ?_⟩)
      simp [nameToken, hEmpty, hAll]
    | false =>
      refine .inr (.inr ⟨?_, by simp [nameToken, hEmpty, hAll]⟩)
      simpa using hAll

theorem nameToken_of_isModelName {run : List Char} (h : IsModelName run) :
    nameToken run = .ok [.name (String.ofList run)] := by
  rcases nameToken_cases run with ⟨hNil, _⟩ | ⟨_, hOk⟩ | ⟨⟨c, hMem, hChar⟩, _⟩
  · exact absurd hNil h.1
  · exact hOk
  · simp [h.2 c hMem] at hChar

theorem nameToken_of_mem {run : List Char} {c : Char} (hMem : c ∈ run)
    (hChar : isModelNameChar c = false) :
    nameToken run = .error (.invalidName (String.ofList run)) := by
  rcases nameToken_cases run with ⟨rfl, _⟩ | ⟨hName, _⟩ | ⟨_, hError⟩
  · cases hMem
  · simp [hName.2 c hMem] at hChar
  · exact hError

section

variable {run : List Char}

theorem tokensFrom_append (hRun : ∀ c ∈ run, Operator.ofChar? c = none) (before cs : List Char) :
    tokensFrom before (run ++ cs) = tokensFrom (run.reverse ++ before) cs := by
  induction run generalizing before with
  | nil => rfl
  | cons c run ih =>
    obtain ⟨hHere, hLater⟩ := List.forall_mem_cons.mp hRun
    rw [List.cons_append, tokensFrom, hHere]
    dsimp only
    rw [ih hLater, List.reverse_cons, List.append_assoc, List.singleton_append]

theorem tokensFrom_last (hRun : ∀ c ∈ run, Operator.ofChar? c = none) :
    tokensFrom [] run = nameToken run := by
  have hAppend := tokensFrom_append hRun [] []
  rwa [List.append_nil, List.append_nil, tokensFrom, List.reverse_reverse] at hAppend

/-- An operator ends the run before it, and the rest is read for itself. -/
theorem tokensFrom_operator (hRun : ∀ c ∈ run, Operator.ofChar? c = none) (op : Operator)
    (cs : List Char) :
    tokensFrom [] (run ++ op.toChar :: cs) =
      (nameToken run).bind fun name =>
        (tokensFrom [] cs).map fun tokens => name ++ .operator op :: tokens := by
  rw [tokensFrom_append hRun, List.append_nil, tokensFrom, Operator.ofChar?_toChar,
    List.reverse_reverse]
  cases nameToken run <;> cases tokensFrom [] cs <;> rfl

end

/-- What is read is legible, and printing it gives the text again. -/
theorem legible_of_tokensFrom {cs : List Char} {tokens : List Token}
    (h : tokensFrom [] cs = .ok tokens) : Legible tokens ∧ printed tokens = cs := by
  have hName {run : List Char} (hRun : IsModelName run) :
      IsModelName (String.ofList run).toList := by rwa [String.toList_ofList]
  induction cut cs generalizing tokens with
  | @last run hRun =>
    rw [tokensFrom_last hRun] at h
    rcases nameToken_cases run with ⟨rfl, hOk⟩ | ⟨hIsName, hOk⟩ | ⟨_, hError⟩
    · cases hOk.symm.trans h
      exact ⟨legible_nil, rfl⟩
    · cases hOk.symm.trans h
      exact ⟨(legible_cons_name_iff _ _).mpr ⟨hName hIsName, by simp, legible_nil⟩,
        by simp [printed, Token.chars]⟩
    · cases hError.symm.trans h
  | @operator run cs hRun op _ ih =>
    rw [tokensFrom_operator hRun] at h
    cases hRest : tokensFrom [] cs with
    | error fault =>
      rw [hRest] at h
      cases hRead : nameToken run <;> rw [hRead] at h <;> cases h
    | ok rest =>
      obtain ⟨hLegible, rfl⟩ := ih hRest
      have hLegible := (legible_cons_operator_iff op rest).mpr hLegible
      rw [hRest] at h
      rcases nameToken_cases run with ⟨rfl, hOk⟩ | ⟨hIsName, hOk⟩ | ⟨_, hError⟩
      · rw [hOk] at h
        cases h
        exact ⟨hLegible, rfl⟩
      · rw [hOk] at h
        cases h
        refine ⟨(legible_cons_name_iff _ _).mpr ⟨hName hIsName, ?_, hLegible⟩, ?_⟩
        · rintro next hNext
          cases hNext
          rfl
        · simp [printed, Token.chars]
      · rw [hError] at h
        cases h

theorem printed_cons (token : Token) (tokens : List Token) :
    printed (token :: tokens) = token.chars ++ printed tokens :=
  List.flatMap_cons

theorem tokensFrom_printed : ∀ {tokens : List Token}, Legible tokens →
    tokensFrom [] (printed tokens) = .ok tokens
  | [], _ => rfl
  | .operator op :: tokens, h => by
    have hRest := tokensFrom_printed ((legible_cons_operator_iff op tokens).mp h)
    have hHere := @tokensFrom_operator [] (by simp) op (printed tokens)
    rw [hRest] at hHere
    exact hHere
  | [.name text], h => by
    obtain ⟨hText, _⟩ := (legible_cons_name_iff text []).mp h
    have hRun (c : Char) (hMem : c ∈ text.toList) := ofChar?_of_isModelNameChar (hText.2 c hMem)
    rw [printed_cons, Token.chars, printed, List.flatMap_nil, List.append_nil,
      tokensFrom_last hRun, nameToken_of_isModelName hText, String.ofList_toList]
  | .name text :: .operator op :: tokens, h => by
    obtain ⟨hText, _, hLegible⟩ := (legible_cons_name_iff text _).mp h
    have hRest := tokensFrom_printed ((legible_cons_operator_iff op tokens).mp hLegible)
    have hRun (c : Char) (hMem : c ∈ text.toList) := ofChar?_of_isModelNameChar (hText.2 c hMem)
    have hHere := tokensFrom_operator hRun op (printed tokens)
    rw [hRest, nameToken_of_isModelName hText, String.ofList_toList] at hHere
    exact hHere
  | .name text :: .name next :: tokens, h => by
    obtain ⟨_, hHead, _⟩ := (legible_cons_name_iff text _).mp h
    cases hHead _ rfl

/-! ## Refusal -/

/-- The piece is a whole run between two operators and no name. Nothing is wrong before it. -/
structure Unfit (before piece after : List Char) : Prop where
  before_fits : ∀ c ∈ before, isTokenChar c = true
  before_ends : ∀ c ∈ before.getLast?, Operator.ofChar? c ≠ none
  whole : ∀ c ∈ piece, Operator.ofChar? c = none
  unfit : ∃ c ∈ piece, isModelNameChar c = false
  after_begins : ∀ c ∈ after.head?, Operator.ofChar? c ≠ none

theorem unfit_operator_iff {run before piece after : List Char} (op : Operator)
    (hRun : ∀ c ∈ run, isModelNameChar c = true) :
    Unfit (run ++ op.toChar :: before) piece after ↔ Unfit before piece after := by
  have hLast : (∀ c ∈ (run ++ op.toChar :: before).getLast?, Operator.ofChar? c ≠ none) ↔
      ∀ c ∈ before.getLast?, Operator.ofChar? c ≠ none := by
    rw [List.getLast?_append_of_ne_nil _ (List.cons_ne_nil _ _)]
    cases before with
    | nil => simp
    | cons c before => rw [List.getLast?_cons_cons]
  constructor
  · intro h
    exact ⟨fun c hMem => h.before_fits c (by simp [hMem]), hLast.mp h.before_ends, h.whole, h.unfit,
      h.after_begins⟩
  · intro h
    refine ⟨fun c hMem => ?_, hLast.mpr h.before_ends, h.whole, h.unfit, h.after_begins⟩
    rcases List.mem_append.mp hMem with hFront | hBack
    · rw [isTokenChar, hRun c hFront, Bool.or_true]
    · rcases List.mem_cons.mp hBack with rfl | hBefore
      · rw [isTokenChar, Operator.ofChar?_toChar]
        rfl
      · exact h.before_fits c hBefore

theorem exists_nameToken_eq_ok {run : List Char} (h : ∀ c ∈ run, isModelNameChar c = true) :
    ∃ name, nameToken run = .ok name := by
  rcases nameToken_cases run with ⟨_, hOk⟩ | ⟨_, hOk⟩ | ⟨⟨c, hMem, hChar⟩, _⟩
  · exact ⟨_, hOk⟩
  · exact ⟨_, hOk⟩
  · simp [h c hMem] at hChar

/-- The fault names the first run that is no name. -/
theorem exists_unfit_of_tokensFrom {cs : List Char} {fault : Fault}
    (h : tokensFrom [] cs = .error fault) :
    ∃ before piece after, cs = before ++ piece ++ after ∧ Unfit before piece after ∧
      fault = .invalidName (String.ofList piece) := by
  induction cut cs with
  | @last run hRun =>
    rw [tokensFrom_last hRun] at h
    rcases nameToken_cases run with ⟨_, hOk⟩ | ⟨_, hOk⟩ | ⟨hUnfit, hError⟩
    · cases hOk.symm.trans h
    · cases hOk.symm.trans h
    · cases hError.symm.trans h
      exact ⟨[], run, [], by simp, ⟨by simp, by simp, hRun, hUnfit, by simp⟩, rfl⟩
  | @operator run cs hRun op _ ih =>
    rw [tokensFrom_operator hRun] at h
    by_cases hFits : ∀ c ∈ run, isModelNameChar c = true
    · obtain ⟨name, hName⟩ := exists_nameToken_eq_ok hFits
      cases hRest : tokensFrom [] cs with
      | ok rest =>
        rw [hName, hRest] at h
        cases h
      | error other =>
        rw [hName, hRest] at h
        cases h
        obtain ⟨before, piece, after, rfl, hUnfit, hFault⟩ := ih hRest
        exact ⟨run ++ op.toChar :: before, piece, after, by simp,
          (unfit_operator_iff op hFits).mpr hUnfit, hFault⟩
    · push Not at hFits
      obtain ⟨c, hMem, hChar⟩ := hFits
      have hChar := Bool.eq_false_iff.mpr hChar
      rw [nameToken_of_mem hMem hChar] at h
      cases h
      exact ⟨[], run, op.toChar :: cs, rfl,
        ⟨by simp, by simp, hRun, ⟨c, hMem, hChar⟩, by simp⟩, rfl⟩

theorem tokensFrom_of_unfit {before piece after : List Char} (h : Unfit before piece after) :
    tokensFrom [] (before ++ piece ++ after) = .error (.invalidName (String.ofList piece)) := by
  induction cut before with
  | @last run hRun =>
    -- Without an operator in it, the text before the piece is empty.
    obtain rfl : run = [] := by
      rcases List.eq_nil_or_concat run with hNil | ⟨front, c, rfl⟩
      · exact hNil
      · exact absurd (hRun c (by simp)) (h.before_ends c (by simp))
    obtain ⟨c, hMem, hChar⟩ := h.unfit
    rw [List.nil_append]
    cases after with
    | nil => rw [List.append_nil, tokensFrom_last h.whole, nameToken_of_mem hMem hChar]
    | cons d after =>
      obtain ⟨op, hOp⟩ := Option.ne_none_iff_exists'.mp (h.after_begins d rfl)
      rw [← Operator.toChar_of_ofChar? hOp, tokensFrom_operator h.whole,
        nameToken_of_mem hMem hChar]
      rfl
  | @operator run cs hRun op _ ih =>
    have hFits : ∀ c ∈ run, isModelNameChar c = true := by
      intro c hMem
      have hToken := h.before_fits c (by simp [hMem])
      rwa [isTokenChar, hRun c hMem] at hToken
    obtain ⟨name, hName⟩ := exists_nameToken_eq_ok hFits
    have hRest := ih ((unfit_operator_iff op hFits).mp h)
    rw [List.append_assoc, List.append_assoc, List.cons_append, ← List.append_assoc cs,
      tokensFrom_operator hRun, hName, hRest]
    rfl

/-! ## Texts with blanks -/

theorem tokenize_eq_ok_iff (spec : List Char) (tokens : List Token) :
    tokenize spec = .ok tokens ↔ Canonical tokens ∧ printed tokens = removeBlanks spec := by
  unfold tokenize
  constructor
  · intro h
    cases hTokens : tokensFrom [] (removeBlanks spec) with
    | error fault =>
      rw [hTokens] at h
      cases h
    | ok found =>
      simp only [hTokens, bind, Except.bind] at h
      split at h
      · cases h
      · next hNonempty =>
        cases h
        obtain ⟨hLegible, hPrinted⟩ := legible_of_tokensFrom hTokens
        exact ⟨⟨hLegible, by simpa using hNonempty⟩, hPrinted⟩
  · rintro ⟨hCanonical, hPrinted⟩
    rw [← hPrinted, tokensFrom_printed hCanonical.toLegible]
    exact if_neg (by simpa using hCanonical.nonempty)

theorem tokenize_eq_error_iff (spec : List Char) (fault : Fault) :
    tokenize spec = .error fault ↔ (removeBlanks spec = [] ∧ fault = .noTokens) ∨
      ∃ before piece after, removeBlanks spec = before ++ piece ++ after ∧
        Unfit before piece after ∧ fault = .invalidName (String.ofList piece) := by
  unfold tokenize
  constructor
  · intro h
    cases hTokens : tokensFrom [] (removeBlanks spec) with
    | error other =>
      rw [hTokens] at h
      cases h
      exact .inr (exists_unfit_of_tokensFrom hTokens)
    | ok found =>
      simp only [hTokens, bind, Except.bind] at h
      split at h
      · next hEmpty =>
        cases h
        obtain rfl := List.isEmpty_iff.mp hEmpty
        exact .inl ⟨(legible_of_tokensFrom hTokens).2.symm, rfl⟩
      · cases h
  · rintro (⟨hBlank, rfl⟩ | ⟨before, piece, after, hText, hUnfit, rfl⟩)
    · rw [hBlank]
      rfl
    · rw [hText, tokensFrom_of_unfit hUnfit]
      rfl

theorem exists_tokenize_eq_error_iff (spec : List Char) :
    (∃ fault, tokenize spec = .error fault) ↔
      removeBlanks spec = [] ∨ ∃ c ∈ removeBlanks spec, isTokenChar c = false := by
  constructor
  · rintro ⟨fault, h⟩
    rcases (tokenize_eq_error_iff spec fault).mp h with ⟨hBlank, _⟩ | ⟨before, piece, after, hText,
      hUnfit, _⟩
    · exact .inl hBlank
    · obtain ⟨c, hMem, hChar⟩ := hUnfit.unfit
      refine .inr ⟨c, by simp [hText, hMem], ?_⟩
      exact (isTokenChar_eq_false_iff c).mpr ⟨hUnfit.whole c hMem, hChar⟩
  · intro h
    cases hTokens : tokenize spec with
    | error fault => exact ⟨fault, rfl⟩
    | ok tokens =>
      obtain ⟨hCanonical, hPrinted⟩ := (tokenize_eq_ok_iff spec tokens).mp hTokens
      rw [← hPrinted] at h
      rcases h with hEmpty | ⟨c, hMem, hChar⟩
      · exact absurd hEmpty (printed_ne_nil hCanonical)
      · simp [isTokenChar_of_mem_printed hCanonical.toLegible c hMem] at hChar

/-- Tokens are read back from their printed form, with blanks put in anywhere, and whatever is read
prints as the text without its blanks. A text is refused exactly when nothing is left of it or a
character belongs to no token, and the fault tells the first run that is no name. -/
theorem tokenize_inverts_printed (spec : List Char) (tokens : List Token) :
    (Canonical tokens → Spaced (printed tokens) spec → tokenize spec = .ok tokens) ∧
      (tokenize spec = .ok tokens → Canonical tokens ∧ printed tokens = removeBlanks spec) ∧
      ((∃ fault, tokenize spec = .error fault) ↔
        removeBlanks spec = [] ∨
          ∃ c ∈ removeBlanks spec, Operator.ofChar? c = none ∧ isModelNameChar c = false) ∧
      ∀ fault, tokenize spec = .error fault ↔
        (removeBlanks spec = [] ∧ fault = .noTokens) ∨
          ∃ before piece after, removeBlanks spec = before ++ piece ++ after ∧
            Unfit before piece after ∧ fault = .invalidName (String.ofList piece) := by
  refine ⟨fun hCanonical hSpaced => ?_, (tokenize_eq_ok_iff spec tokens).mp, ?_,
    tokenize_eq_error_iff spec⟩
  · have hNoBlank (c : Char) (hMem : c ∈ printed tokens) : isBlank c = false :=
      isBlank_of_isTokenChar (isTokenChar_of_mem_printed hCanonical.toLegible c hMem)
    exact (tokenize_eq_ok_iff spec tokens).mpr
      ⟨hCanonical, ((spaced_iff hNoBlank).mp hSpaced).symm⟩
  · simp only [exists_tokenize_eq_error_iff, isTokenChar_eq_false_iff]

/-- A name that is broken by a blank is read as one name. -/
theorem tokenize_inverts_printed_of_broken_name :
    let tokens : List Token :=
      [.operator .openGroup, .name "#PC", .operator .bar, .operator .comma, .name "a.b",
        .operator .closeGroup, .operator (.mark .many)]
    let spec := ['(', ' ', '#', 'P', '\n', 'C', '|', ',', 'a', '.', '\t', 'b', ')', '*', ' ']
    Canonical tokens ∧ Spaced (printed tokens) spec ∧ tokenize spec = .ok tokens := by
  intro tokens spec
  have hCanonical : Canonical tokens := by
    refine ⟨⟨fun text hMem => ?_, by decide⟩, by decide⟩
    have hText : text ∈ ["#PC", "a.b"] := by simpa [tokens] using hMem
    exact (by decide : ∀ text ∈ ["#PC", "a.b"], IsModelName text.toList) text hText
  have hPrinted : printed tokens = removeBlanks spec := by decide
  have hSpaced : Spaced (printed tokens) spec := hPrinted ▸ spaced_removeBlanks spec
  exact ⟨hCanonical, hSpaced, (tokenize_inverts_printed spec tokens).1 hCanonical hSpaced⟩

end DtdConformance.ContentModel
