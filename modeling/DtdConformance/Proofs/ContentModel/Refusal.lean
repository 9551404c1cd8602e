import DtdConformance.Proofs.ContentModel.Reading

/-! # Where a model is refused

A list of tokens has an expression exactly when the grammar derives it. A list that it does not
derive is refused at its end when groups are still open, and otherwise at the first token with
which no model can go on. All this holds up to the deepest nesting that is read.
-/
namespace DtdConformance.ContentModel
set_option autoImplicit false

namespace Reading

/-! ## Open groups and marks -/

/-- A step opens or closes as many groups as its token says. -/
theorem depth_step {reading after : Reading} {token : Token} (h : reading.Steps token after) :
    after.outer.length + [token].count (.operator .closeGroup) =
      reading.outer.length + [token].count (.operator .openGroup) := by
  cases h <;> simp

theorem depth_advance {reading after : Reading} {index : Nat} {tokens : List Token}
    (h : reading.advance index tokens = .ok after) :
    after.outer.length + tokens.count (.operator .closeGroup) =
      reading.outer.length + tokens.count (.operator .openGroup) := by
  induction tokens generalizing reading index with
  | nil =>
    cases h
    simp
  | cons token tokens ih =>
    rw [advance] at h
    split at h
    · next next hStep =>
      have hHere := depth_step (steps_of_step hStep)
      have hLater := ih h
      rw [← List.singleton_append, List.count_append, List.count_append]
      omega
    · cases h

/-- The last item has its mark exactly when the mark has just been read. -/
theorem marked_step_iff {reading after : Reading} {token : Token}
    (h : reading.Steps token after) :
    (∃ item, after.inner.last = .marked item) ↔ ∃ mark, token = .operator (.mark mark) := by
  cases h <;> simp [Group.addItem, Group.new, Group.endItem, Group.endSequence]

theorem marked_advance_iff {after : Reading} {tokens : List Token}
    (h : start.advance 0 tokens = .ok after) :
    (∃ item, after.inner.last = .marked item) ↔
      ∃ mark, tokens.getLast? = some (.operator (.mark mark)) := by
  rcases List.eq_nil_or_concat tokens with rfl | ⟨front, token, rfl⟩
  · cases h
    simp [start, Group.new]
  · rw [List.concat_eq_append, advance_append] at h
    cases hFront : start.advance 0 front with
    | error refusal => simp [hFront, Except.bind] at h
    | ok reading =>
      simp only [hFront, Except.bind, advance] at h
      split at h
      · next next hStep =>
        cases h
        simpa using marked_step_iff (steps_of_step hStep)
      · cases h

/-- The token that is refused, and the reading up to it. -/
theorem exists_step_of_advance_eq_error {reading : Reading} {index : Nat} {tokens : List Token}
    {refusal : Refusal} (h : reading.advance index tokens = .error refusal) :
    ∃ front token rest after, tokens = front ++ token :: rest ∧
      reading.advance index front = .ok after ∧ after.step token = .error refusal.fault ∧
      refusal.index = index + front.length := by
  induction tokens generalizing reading index with
  | nil => cases h
  | cons token tokens ih =>
    rw [advance] at h
    cases hStep : reading.step token with
    | error fault =>
      rw [hStep] at h
      cases h
      exact ⟨[], token, tokens, reading, rfl, rfl, hStep, rfl⟩
    | ok next =>
      rw [hStep] at h
      obtain ⟨front, refused, rest, after, rfl, hFront, hRefused, hIndex⟩ := ih h
      refine ⟨token :: front, refused, rest, after, rfl, ?_, hRefused, ?_⟩
      · rw [advance, hStep]
        exact hFront
      · rw [hIndex, List.length_cons]
        omega

end Reading

/-! ## Faults -/

/-- What a message says of a token after which no model can go on, the given tokens standing
before it. -/
inductive Blames : List Token → Token → String → Prop
  | close {front : List Token} :
      Blames front (.operator .closeGroup) "Unbalanced ')' in content spec"
  | again {front : List Token} {before mark : Repetition} :
      front.getLast? = some (.operator (.mark before)) →
      Blames front (.operator (.mark mark))
        ("Repeated occurrence indicator '" ++ String.singleton mark.toChar ++ "'")
  | alone {front : List Token} {mark : Repetition} :
      (∀ before, front.getLast? ≠ some (.operator (.mark before))) →
      Blames front (.operator (.mark mark))
        ("Nothing to repeat before '" ++ String.singleton mark.toChar ++ "'")

theorem message_repeatedMark (mark : Repetition) : (Fault.repeatedMark mark).message =
    "Repeated occurrence indicator '" ++ String.singleton mark.toChar ++ "'" := by
  cases mark <;> decide

theorem message_nothingToRepeat (mark : Repetition) : (Fault.nothingToRepeat mark).message =
    "Nothing to repeat before '" ++ String.singleton mark.toChar ++ "'" := by
  cases mark <;> decide

theorem blames_of_refuses {reading : Reading} {front : List Token} {token : Token}
    {fault : Fault} (hFront : Reading.start.advance 0 front = .ok reading)
    (hRefuses : reading.Refuses token fault) (hDeep : fault ≠ .tooDeep) :
    Blames front token fault.message := by
  have hMarked := Reading.marked_advance_iff hFront
  cases hRefuses with
  | openGroup inner hDepth => exact absurd rfl hDeep
  | closeGroup inner => exact .close
  | markAlone finished sequence outer mark =>
    rw [message_nothingToRepeat]
    refine .alone fun before hBefore => ?_
    obtain ⟨item, hItem⟩ := hMarked.mpr ⟨before, hBefore⟩
    cases hItem
  | markAgain finished sequence item outer mark =>
    rw [message_repeatedMark]
    obtain ⟨before, hBefore⟩ := hMarked.mp ⟨item, rfl⟩
    exact .again hBefore

/-- No group is too deep for tokens that keep within the limit. -/
theorem fault_ne_tooDeep {reading : Reading} {front rest : List Token} {token : Token}
    {fault : Fault} (hDepth : NestsWithin depthLimit (front ++ token :: rest))
    (hFront : Reading.start.advance 0 front = .ok reading)
    (hRefuses : reading.Refuses token fault) : fault ≠ .tooDeep := by
  rintro rfl
  have hCount := Reading.depth_advance hFront
  rw [← List.singleton_append, ← List.append_assoc] at hDepth
  have hLimit := hDepth.count_le
  cases hRefuses with
  | openGroup inner hOuter =>
    simp [Reading.start, List.count_append] at hCount hLimit
    omega

/-! ## Verdicts on a list of tokens -/

section Verdict

variable {tokens : List Token}

theorem Derives.advance_start {e : Expression String} (h : Derives .choice tokens e) :
    (∃ inner, Reading.start.advance 0 tokens = .ok ⟨inner, []⟩ ∧ inner.expression = e) ∨
      ∃ index, Reading.start.advance 0 tokens = .error ⟨.tooDeep, index⟩ := by
  rcases h.leads [] 0 with
    ⟨⟨inner, outer⟩, hAdvance, hOuter, hExpression⟩ | ⟨⟨fault, index⟩, hAdvance, hDeep⟩
  · dsimp only at hOuter hExpression
    subst hOuter
    exact Or.inl ⟨inner, hAdvance, hExpression⟩
  · dsimp only at hDeep
    subst hDeep
    exact Or.inr ⟨index, hAdvance⟩

theorem derives_of_ofTokens {e : Expression String} (h : Expression.ofTokens tokens = .ok e) :
    Derives .choice tokens e := by
  unfold Expression.ofTokens at h
  cases hAdvance : Reading.start.advance 0 tokens with
  | error refusal => simp [hAdvance, bind, Except.bind] at h
  | ok reading =>
    obtain ⟨inner, outer⟩ := reading
    have hReads : Reading.Reads ⟨inner, outer⟩ tokens := by
      simpa using Reading.Reads.start.advance hAdvance
    cases outer with
    | nil =>
      simp [hAdvance, bind, Except.bind, Reading.finish] at h
      exact h ▸ hReads.derives
    | cons group outer => simp [hAdvance, bind, Except.bind, Reading.finish] at h

/-- The expression of a list of tokens is the only one that it can stand for. -/
theorem eq_of_derives_of_ofTokens {e f : Expression String}
    (h : Expression.ofTokens tokens = .ok e) (hDerives : Derives .choice tokens f) : f = e := by
  unfold Expression.ofTokens at h
  rcases hDerives.advance_start with ⟨inner, hAdvance, hExpression⟩ | ⟨index, hAdvance⟩
  · simp [hAdvance, bind, Except.bind, Reading.finish] at h
    exact hExpression.symm.trans h
  · simp [hAdvance, bind, Except.bind] at h

/-- Where a reading stops, no model goes on. -/
theorem not_viable_of_step_eq_error {reading : Reading} {front : List Token} {token : Token}
    {fault : Fault} (hFront : Reading.start.advance 0 front = .ok reading)
    (hStep : reading.step token = .error fault) (hDeep : fault ≠ .tooDeep) :
    ¬ Viable (front ++ [token]) := by
  rintro ⟨rest, e, hDerives⟩
  have hStop : Reading.start.advance 0 (front ++ [token] ++ rest) =
      .error ⟨fault, 0 + front.length⟩ := by
    rw [List.append_assoc, Reading.advance_append, hFront]
    simp [Except.bind, Reading.advance, hStep]
  rcases hDerives.advance_start with ⟨inner, hAdvance, _⟩ | ⟨index, hAdvance⟩
  · cases hAdvance.symm.trans hStop
  · cases hAdvance.symm.trans hStop
    exact hDeep rfl

/-- A refusal on the way is one of the first token with which no model goes on. -/
theorem exists_blames_of_advance_eq_error {refusal : Refusal}
    (hDepth : NestsWithin depthLimit tokens)
    (h : Reading.start.advance 0 tokens = .error refusal) :
    ∃ front token rest, tokens = front ++ token :: rest ∧ refusal.index = front.length ∧
      Viable front ∧ ¬ Viable (front ++ [token]) ∧
      Blames front token refusal.fault.message := by
  obtain ⟨front, token, rest, reading, rfl, hFront, hStep, hIndex⟩ :=
    Reading.exists_step_of_advance_eq_error h
  have hRefuses := Reading.refuses_of_step hStep
  have hDeep := fault_ne_tooDeep hDepth hFront hRefuses
  have hReads := Reading.Reads.start.advance hFront
  exact ⟨front, token, rest, rfl, by simpa using hIndex, hReads.viable,
    not_viable_of_step_eq_error hFront hStep hDeep, blames_of_refuses hFront hRefuses hDeep⟩

theorem ofTokens_eq_ok_of_derives (hDepth : NestsWithin depthLimit tokens) {e : Expression String}
    (h : Derives .choice tokens e) : Expression.ofTokens tokens = .ok e := by
  unfold Expression.ofTokens
  rcases h.advance_start with ⟨inner, hAdvance, hExpression⟩ | ⟨index, hAdvance⟩
  · simp [hAdvance, bind, Except.bind, Reading.finish, hExpression]
  · obtain ⟨front, token, rest, rfl, _, _, hNot, _⟩ :=
      exists_blames_of_advance_eq_error hDepth hAdvance
    refine absurd ?_ hNot
    have hViable : Viable (front ++ token :: rest) := Derivable.viable ⟨e, h⟩
    rw [← List.singleton_append, ← List.append_assoc] at hViable
    exact hViable.of_append

theorem ofTokens_eq_error_of_viable (hDepth : NestsWithin depthLimit tokens)
    (hNot : ¬ Derivable tokens) (hViable : Viable tokens) :
    Expression.ofTokens tokens = .error ⟨.unbalancedOpen, tokens.length⟩ := by
  unfold Expression.ofTokens
  cases hAdvance : Reading.start.advance 0 tokens with
  | error refusal =>
    obtain ⟨front, token, rest, rfl, _, _, hStop, _⟩ :=
      exists_blames_of_advance_eq_error hDepth hAdvance
    rw [← List.singleton_append, ← List.append_assoc] at hViable
    exact absurd hViable.of_append hStop
  | ok reading =>
    obtain ⟨inner, outer⟩ := reading
    cases outer with
    | nil =>
      have hReads := Reading.Reads.start.advance hAdvance
      exact absurd ⟨_, by simpa using hReads.derives⟩ hNot
    | cons group outer => simp [bind, Except.bind, Reading.finish]

theorem exists_blames_of_not_viable (hDepth : NestsWithin depthLimit tokens)
    (hNot : ¬ Viable tokens) :
    ∃ front token rest fault, tokens = front ++ token :: rest ∧
      Expression.ofTokens tokens = .error ⟨fault, front.length⟩ ∧
      Viable front ∧ ¬ Viable (front ++ [token]) ∧ Blames front token fault.message := by
  cases hAdvance : Reading.start.advance 0 tokens with
  | error refusal =>
    obtain ⟨front, token, rest, hTokens, hIndex, hViable, hStop, hBlames⟩ :=
      exists_blames_of_advance_eq_error hDepth hAdvance
    refine ⟨front, token, rest, refusal.fault, hTokens, ?_, hViable, hStop, hBlames⟩
    rw [← hIndex, Expression.ofTokens, hAdvance]
    rfl
  | ok reading =>
    have hReads := Reading.Reads.start.advance hAdvance
    exact absurd (by simpa using hReads.viable) hNot

end Verdict

/-- Up to the nesting that is read, exactly the derivable lists have an expression, which is the
derived one. A list that could still become a model is refused at its end. Any other is refused at
the first token that ends all hope of one, with a message that says what is wrong with that
token. -/
theorem ofTokens_verdict (tokens : List Token) (hDepth : NestsWithin depthLimit tokens) :
    ((∃ e, Expression.ofTokens tokens = .ok e) ↔ Derivable tokens) ∧
    (∀ e, Expression.ofTokens tokens = .ok e ↔ Derives .choice tokens e) ∧
    (¬ Derivable tokens → Viable tokens → ∃ fault,
      Expression.ofTokens tokens = .error ⟨fault, tokens.length⟩ ∧
      fault.message = "Unbalanced '(' in content spec") ∧
    (¬ Viable tokens → ∃ fault index token,
      Expression.ofTokens tokens = .error ⟨fault, index⟩ ∧ tokens[index]? = some token ∧
      ¬ Viable (tokens.take (index + 1)) ∧ (∀ j < index, Viable (tokens.take (j + 1))) ∧
      Blames (tokens.take index) token fault.message) := by
  have hOk (e : Expression String) :
      Expression.ofTokens tokens = .ok e ↔ Derives .choice tokens e :=
    ⟨derives_of_ofTokens, ofTokens_eq_ok_of_derives hDepth⟩
  refine ⟨exists_congr hOk, hOk, ?_, ?_⟩
  · intro hNot hViable
    exact ⟨.unbalancedOpen, ofTokens_eq_error_of_viable hDepth hNot hViable, rfl⟩
  · intro hNot
    obtain ⟨front, token, rest, fault, rfl, hError, hFront, hStop, hBlames⟩ :=
      exists_blames_of_not_viable hDepth hNot
    refine ⟨fault, front.length, token, hError, by simp, ?_, ?_, by simpa using hBlames⟩
    · simpa [List.take_append, List.take_of_length_le] using hStop
    · intro j hLess
      rw [List.take_append_of_le_length hLess]
      exact hFront.take (j + 1)

/-- A second mark is refused where it stands, whatever follows. -/
theorem ofTokens_verdict_second_mark :
    let tokens : List Token := [.operator .openGroup, .name "a", .operator (.mark .many),
      .operator (.mark .some), .operator .closeGroup, .operator .closeGroup]
    NestsWithin depthLimit tokens ∧ ¬ Viable tokens ∧ Viable (tokens.take 3) ∧
      Blames (tokens.take 3) (.operator (.mark .some)) "Repeated occurrence indicator '+'" := by
  intro tokens
  have hDepth : NestsWithin depthLimit tokens := by decide
  have hError : Expression.ofTokens tokens = .error ⟨.repeatedMark .some, 3⟩ := rfl
  obtain ⟨hDerivable, _, hOpen, hBlames⟩ := ofTokens_verdict tokens hDepth
  have hNot : ¬ Viable tokens := by
    intro hViable
    have hNone : ¬ Derivable tokens := by
      intro hSome
      obtain ⟨e, he⟩ := hDerivable.mpr hSome
      cases he.symm.trans hError
    obtain ⟨fault, hFault, _⟩ := hOpen hNone hViable
    cases hFault.symm.trans hError
  obtain ⟨fault, index, token, hFault, hToken, _, hFirst, hMessage⟩ := hBlames hNot
  cases hFault.symm.trans hError
  cases hToken
  exact ⟨hDepth, hNot, hFirst 2 (by decide), hMessage⟩

end DtdConformance.ContentModel
