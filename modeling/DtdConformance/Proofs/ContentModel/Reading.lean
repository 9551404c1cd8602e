import DtdConformance.ContentModel.Reading
import DtdConformance.Proofs.ContentModel.Grammar

/-! # Readings and the grammar

What the state of a reading says about the tokens read so far, and where phrases of the grammar
lead a reading. The first makes every expression that is read a derived one and every list that is
read a beginning of a model. The second shows that a reading gets through every phrase, so a token
that it refuses ends all hope of a model.
-/
namespace DtdConformance.ContentModel
set_option autoImplicit false

/-! ## Steps -/

/-- What a token does to a reading that goes on with it. -/
inductive Reading.Steps : Reading → Token → Reading → Prop
  | name (inner : Group) (outer : List Group) (text : String) :
      Steps ⟨inner, outer⟩ (.name text) ⟨inner.addItem (.leaf text), outer⟩
  | openGroup (inner : Group) {outer : List Group} :
      outer.length < depthLimit →
      Steps ⟨inner, outer⟩ (.operator .openGroup) ⟨.new, inner :: outer⟩
  | closeGroup (inner group : Group) (outer : List Group) :
      Steps ⟨inner, group :: outer⟩ (.operator .closeGroup)
        ⟨group.addItem inner.expression, outer⟩
  | comma (inner : Group) (outer : List Group) :
      Steps ⟨inner, outer⟩ (.operator .comma) ⟨inner.endItem, outer⟩
  | bar (inner : Group) (outer : List Group) :
      Steps ⟨inner, outer⟩ (.operator .bar) ⟨inner.endSequence, outer⟩
  | mark (finished : Option (Expression String)) (sequence item : Expression String)
      (outer : List Group) (mark : Repetition) :
      Steps ⟨⟨finished, sequence, .unmarked item⟩, outer⟩ (.operator (.mark mark))
        ⟨⟨finished, sequence, .marked (.repetition mark item)⟩, outer⟩

/-- Why a reading does not go on with a token. -/
inductive Reading.Refuses : Reading → Token → Fault → Prop
  | openGroup (inner : Group) {outer : List Group} :
      depthLimit ≤ outer.length → Refuses ⟨inner, outer⟩ (.operator .openGroup) .tooDeep
  | closeGroup (inner : Group) :
      Refuses ⟨inner, []⟩ (.operator .closeGroup) .unbalancedClose
  | markAlone (finished : Option (Expression String)) (sequence : Expression String)
      (outer : List Group) (mark : Repetition) :
      Refuses ⟨⟨finished, sequence, .absent⟩, outer⟩ (.operator (.mark mark))
        (.nothingToRepeat mark)
  | markAgain (finished : Option (Expression String)) (sequence item : Expression String)
      (outer : List Group) (mark : Repetition) :
      Refuses ⟨⟨finished, sequence, .marked item⟩, outer⟩ (.operator (.mark mark))
        (.repeatedMark mark)

namespace Reading

theorem step_cases (reading : Reading) (token : Token) :
    (∃ after, reading.step token = .ok after ∧ reading.Steps token after) ∨
      ∃ fault, reading.step token = .error fault ∧ reading.Refuses token fault := by
  obtain ⟨⟨finished, sequence, last⟩, outer⟩ := reading
  cases token with
  | name text => exact Or.inl ⟨_, rfl, .name _ _ text⟩
  | operator op =>
    cases op with
    | openGroup =>
      by_cases hDepth : outer.length < depthLimit
      · exact Or.inl ⟨_, by simp only [step, hDepth, if_true], .openGroup _ hDepth⟩
      · exact Or.inr ⟨_, by simp only [step, hDepth, if_false],
          .openGroup _ (Nat.le_of_not_lt hDepth)⟩
    | closeGroup =>
      cases outer with
      | nil => exact Or.inr ⟨_, rfl, .closeGroup _⟩
      | cons group outer => exact Or.inl ⟨_, rfl, .closeGroup _ group outer⟩
    | comma => exact Or.inl ⟨_, rfl, .comma _ _⟩
    | bar => exact Or.inl ⟨_, rfl, .bar _ _⟩
    | mark mark =>
      cases last with
      | absent => exact Or.inr ⟨_, rfl, .markAlone finished sequence outer mark⟩
      | unmarked item => exact Or.inl ⟨_, rfl, .mark finished sequence item outer mark⟩
      | marked item => exact Or.inr ⟨_, rfl, .markAgain finished sequence item outer mark⟩

theorem steps_of_step {reading after : Reading} {token : Token}
    (h : reading.step token = .ok after) : reading.Steps token after := by
  rcases reading.step_cases token with ⟨next, hNext, hSteps⟩ | ⟨fault, hFault, _⟩
  · cases hNext.symm.trans h
    exact hSteps
  · cases hFault.symm.trans h

theorem refuses_of_step {reading : Reading} {token : Token} {fault : Fault}
    (h : reading.step token = .error fault) : reading.Refuses token fault := by
  rcases reading.step_cases token with ⟨next, hNext, _⟩ | ⟨other, hOther, hRefuses⟩
  · cases hNext.symm.trans h
  · cases hOther.symm.trans h
    exact hRefuses

end Reading

/-! ## What has been read -/

inductive LastItem.Reads : LastItem → List Token → Prop
  | absent : Reads .absent []
  | unmarked {tokens : List Token} {e : Expression String} :
      Derives .atom tokens e → Reads (.unmarked e) tokens
  | marked {tokens : List Token} {e : Expression String} (mark : Repetition) :
      Derives .atom tokens e →
      Reads (.marked (.repetition mark e)) (tokens ++ [.operator (.mark mark)])

/-- The finished sequences of a group stand with the bar after them. -/
inductive ReadsFinished : Option (Expression String) → List Token → Prop
  | none : ReadsFinished none []
  | some {tokens : List Token} {e : Expression String} :
      Derives .choice tokens e → ReadsFinished (some e) (tokens ++ [.operator .bar])

inductive Group.Reads : Group → List Token → Prop
  | parts {finished : Option (Expression String)} {sequence : Expression String} {last : LastItem}
      {front middle back : List Token} :
      ReadsFinished finished front → Derives .sequence middle sequence → last.Reads back →
      Reads ⟨finished, sequence, last⟩ (front ++ (middle ++ back))

inductive Reading.Reads : Reading → List Token → Prop
  | whole {group : Group} {tokens : List Token} : group.Reads tokens → Reads ⟨group, []⟩ tokens
  | inside {group inner : Group} {outer : List Group} {tokens others : List Token} :
      Reads ⟨group, outer⟩ tokens → inner.Reads others →
      Reads ⟨inner, group :: outer⟩ (tokens ++ .operator .openGroup :: others)

namespace Group.Reads

theorem new : Group.new.Reads [] := .parts .none .nothing .absent

theorem wholeSequence {group : Group} {tokens : List Token} (h : group.Reads tokens) :
    ∃ front middle, tokens = front ++ middle ∧ ReadsFinished group.finished front ∧
      Derives .sequence middle group.wholeSequence := by
  cases h with
  | @parts finished sequence last front middle back hFinished hSequence hLast =>
    refine ⟨front, middle ++ back, rfl, hFinished, ?_⟩
    cases hLast with
    | absent => simpa [Group.wholeSequence] using hSequence
    | unmarked hAtom => exact .next hSequence (.bare hAtom)
    | marked mark hAtom => exact .next hSequence (.marked mark hAtom)

theorem derives_choice {group : Group} {tokens : List Token} (h : group.Reads tokens) :
    Derives .choice tokens group.expression := by
  obtain ⟨front, middle, rfl, hFinished, hSequence⟩ := h.wholeSequence
  unfold Group.expression
  generalize group.finished = finished at hFinished
  cases hFinished with
  | none => simpa using Derives.single hSequence
  | some hChoice => simpa using Derives.bar hChoice hSequence

theorem addItem {group : Group} {tokens others : List Token} {e : Expression String}
    (h : group.Reads tokens) (hAtom : Derives .atom others e) :
    (group.addItem e).Reads (tokens ++ others) := by
  obtain ⟨front, middle, rfl, hFinished, hSequence⟩ := h.wholeSequence
  rw [List.append_assoc]
  exact .parts hFinished hSequence (.unmarked hAtom)

theorem endItem {group : Group} {tokens : List Token} (h : group.Reads tokens) :
    group.endItem.Reads (tokens ++ [.operator .comma]) := by
  obtain ⟨front, middle, rfl, hFinished, hSequence⟩ := h.wholeSequence
  simpa [Group.endItem, List.append_assoc] using
    Group.Reads.parts hFinished (.comma hSequence) .absent

theorem endSequence {group : Group} {tokens : List Token} (h : group.Reads tokens) :
    group.endSequence.Reads (tokens ++ [.operator .bar]) := by
  simpa [Group.endSequence] using
    Group.Reads.parts (.some h.derives_choice) .nothing .absent

theorem mark {finished : Option (Expression String)} {sequence item : Expression String}
    {tokens : List Token} (h : Group.Reads ⟨finished, sequence, .unmarked item⟩ tokens)
    (mark : Repetition) :
    Group.Reads ⟨finished, sequence, .marked (.repetition mark item)⟩
      (tokens ++ [.operator (.mark mark)]) := by
  cases h with
  | parts hFinished hSequence hLast =>
    cases hLast with
    | unmarked hAtom =>
      simpa [List.append_assoc] using Group.Reads.parts hFinished hSequence (.marked mark hAtom)

end Group.Reads

namespace Reading.Reads

theorem start : Reading.start.Reads [] := .whole .new

theorem mapInner {group after : Group} {outer : List Group} {tokens others : List Token}
    (h : Reading.Reads ⟨group, outer⟩ tokens)
    (hGroup : ∀ read, group.Reads read → after.Reads (read ++ others)) :
    Reading.Reads ⟨after, outer⟩ (tokens ++ others) := by
  cases h with
  | whole hWhole => exact .whole (hGroup _ hWhole)
  | inside hOuter hInner =>
    simpa [List.append_assoc] using Reading.Reads.inside hOuter (hGroup _ hInner)

theorem close {group inner : Group} {outer : List Group} {tokens : List Token}
    (h : Reading.Reads ⟨inner, group :: outer⟩ tokens) :
    Reading.Reads ⟨group.addItem inner.expression, outer⟩
      (tokens ++ [.operator .closeGroup]) := by
  cases h with
  | @inside _ _ _ tokens others hOuter hInner =>
    have hAtom := Derives.group hInner.derives_choice
    simpa [List.append_assoc] using hOuter.mapInner fun _ hRead => hRead.addItem hAtom

theorem step {reading after : Reading} {tokens : List Token} {token : Token}
    (h : reading.Reads tokens) (hStep : reading.Steps token after) :
    after.Reads (tokens ++ [token]) := by
  cases hStep with
  | name inner outer text => exact h.mapInner fun _ hRead => hRead.addItem (.name text)
  | openGroup inner hDepth => exact .inside h .new
  | closeGroup inner group outer => exact h.close
  | comma inner outer => exact h.mapInner fun _ hRead => hRead.endItem
  | bar inner outer => exact h.mapInner fun _ hRead => hRead.endSequence
  | mark finished sequence item outer mark => exact h.mapInner fun _ hRead => hRead.mark mark

theorem advance {reading after : Reading} {index : Nat} {tokens others : List Token}
    (h : reading.Reads tokens) (hAdvance : reading.advance index others = .ok after) :
    after.Reads (tokens ++ others) := by
  induction others generalizing reading index tokens with
  | nil =>
    cases hAdvance
    simpa using h
  | cons token others ih =>
    rw [Reading.advance] at hAdvance
    split at hAdvance
    · next next hStep =>
      have hNext := h.step (steps_of_step hStep)
      simpa [List.append_assoc] using ih hNext hAdvance
    · cases hAdvance

/-- Closing the open groups completes a model. -/
theorem viable {reading : Reading} {tokens : List Token} (h : reading.Reads tokens) :
    Viable tokens := by
  obtain ⟨inner, outer⟩ := reading
  induction outer generalizing inner tokens with
  | nil =>
    cases h with
    | whole hWhole => exact Derivable.viable ⟨_, hWhole.derives_choice⟩
  | cons group outer ih => exact (ih _ h.close).of_append

theorem derives {group : Group} {tokens : List Token}
    (h : Reading.Reads ⟨group, []⟩ tokens) : Derives .choice tokens group.expression := by
  cases h with
  | whole hWhole => exact hWhole.derives_choice

end Reading.Reads

/-! ## Where phrases lead -/

namespace Reading

theorem advance_append (reading : Reading) (index : Nat) (tokens others : List Token) :
    reading.advance index (tokens ++ others) =
      (reading.advance index tokens).bind fun after =>
        after.advance (index + tokens.length) others := by
  induction tokens generalizing reading index with
  | nil => rfl
  | cons token tokens ih =>
    simp only [List.cons_append, advance, List.length_cons]
    cases reading.step token with
    | error fault => rfl
    | ok next =>
      dsimp only
      rw [ih, Nat.add_assoc, Nat.add_comm 1]

/-- The tokens are read from the given state to one with a property, unless the groups nest too
deeply on the way. -/
def Takes (reading : Reading) (tokens : List Token) (property : Reading → Prop) : Prop :=
  ∀ index, (∃ after, reading.advance index tokens = .ok after ∧ property after) ∨
    ∃ refusal, reading.advance index tokens = .error refusal ∧ refusal.fault = .tooDeep

namespace Takes

theorem append {reading : Reading} {tokens others : List Token} {middle last : Reading → Prop}
    (h : reading.Takes tokens middle) (hOthers : ∀ after, middle after → after.Takes others last) :
    reading.Takes (tokens ++ others) last := by
  intro index
  rw [advance_append]
  rcases h index with ⟨after, hAfter, hMiddle⟩ | ⟨refusal, hRefusal, hDeep⟩
  · rw [hAfter]
    exact hOthers after hMiddle _
  · rw [hRefusal]
    exact Or.inr ⟨refusal, rfl, hDeep⟩

theorem cons {reading : Reading} {token : Token} {tokens : List Token}
    {middle last : Reading → Prop} (h : reading.Takes [token] middle)
    (hTokens : ∀ after, middle after → after.Takes tokens last) :
    reading.Takes (token :: tokens) last :=
  h.append hTokens

theorem mono {reading : Reading} {tokens : List Token} {property weaker : Reading → Prop}
    (h : reading.Takes tokens property) (hWeaker : ∀ after, property after → weaker after) :
    reading.Takes tokens weaker := by
  intro index
  rcases h index with ⟨after, hAfter, hProperty⟩ | hRefusal
  · exact Or.inl ⟨after, hAfter, hWeaker after hProperty⟩
  · exact Or.inr hRefusal

theorem nil {reading : Reading} {property : Reading → Prop} (h : property reading) :
    reading.Takes [] property :=
  fun _ => Or.inl ⟨reading, rfl, h⟩

theorem token {reading after : Reading} {token : Token} {property : Reading → Prop}
    (hStep : reading.step token = .ok after) (h : property after) :
    reading.Takes [token] property := by
  intro index
  refine Or.inl ⟨after, ?_, h⟩
  simp [advance, hStep]

theorem openGroup {inner : Group} {outer : List Group} {property : Reading → Prop}
    (h : property ⟨.new, inner :: outer⟩) :
    Reading.Takes ⟨inner, outer⟩ [.operator .openGroup] property := by
  by_cases hDepth : outer.length < depthLimit
  · exact token (by simp [step, hDepth]) h
  · intro index
    exact Or.inr ⟨⟨.tooDeep, index⟩, by simp [advance, step, hDepth], rfl⟩

end Takes

end Reading

/-- Where a phrase leads a reading. A choice starts with its group, a sequence with its bar. -/
def Phrase.Leads (tokens : List Token) (e : Expression String) : Phrase → Prop
  | .choice => ∀ outer, Reading.Takes ⟨.new, outer⟩ tokens fun after =>
      after.outer = outer ∧ after.inner.expression = e
  | .sequence => ∀ finished outer, Reading.Takes ⟨⟨finished, .empty, .absent⟩, outer⟩ tokens
      fun after => after.outer = outer ∧ after.inner.finished = finished ∧
        after.inner.wholeSequence = e
  | .item => ∀ inner outer, Reading.Takes ⟨inner, outer⟩ tokens fun after =>
      after.outer = outer ∧ after.inner.finished = inner.finished ∧
        after.inner.wholeSequence = .sequence inner.wholeSequence e
  | .atom => ∀ inner outer, Reading.Takes ⟨inner, outer⟩ tokens fun after =>
      after = ⟨inner.addItem e, outer⟩

theorem Derives.leads {phrase : Phrase} {tokens : List Token} {e : Expression String}
    (h : Derives phrase tokens e) : phrase.Leads tokens e := by
  induction h with
  | single _ ih =>
    intro outer
    refine (ih none outer).mono ?_
    rintro after ⟨hOuter, hFinished, hWhole⟩
    exact ⟨hOuter, by simp [Group.expression, hFinished, hWhole]⟩
  | @bar tokens others e f _ _ ihChoice ihSequence =>
    intro outer
    refine (ihChoice outer).append ?_
    rintro ⟨inner, rest⟩ ⟨hOuter, hExpression⟩
    dsimp only at hOuter hExpression
    subst hOuter hExpression
    refine Reading.Takes.cons (.token rfl rfl) ?_
    rintro after rfl
    refine (ihSequence (some inner.expression) rest).mono ?_
    rintro after ⟨hOuter, hFinished, hWhole⟩
    exact ⟨hOuter, by rw [Group.expression, hFinished, hWhole]⟩
  | nothing =>
    intro finished outer
    exact .nil ⟨rfl, rfl, rfl⟩
  | comma _ ih =>
    intro finished outer
    refine (ih finished outer).append ?_
    rintro after ⟨hOuter, hFinished, hWhole⟩
    exact .token rfl ⟨hOuter, hFinished, hWhole⟩
  | next _ _ ihSequence ihItem =>
    intro finished outer
    refine (ihSequence finished outer).append ?_
    rintro after ⟨hOuter, hFinished, hWhole⟩
    refine (ihItem after.inner after.outer).mono ?_
    rintro last ⟨hLastOuter, hLastFinished, hLastWhole⟩
    exact ⟨hLastOuter.trans hOuter, hLastFinished.trans hFinished, by rw [hLastWhole, hWhole]⟩
  | bare _ ih =>
    intro inner outer
    refine (ih inner outer).mono ?_
    rintro after rfl
    exact ⟨rfl, rfl, rfl⟩
  | marked mark _ ih =>
    intro inner outer
    refine (ih inner outer).append ?_
    rintro after rfl
    exact .token rfl ⟨rfl, rfl, rfl⟩
  | name text =>
    intro inner outer
    exact .token rfl rfl
  | @group tokens e _ ih =>
    intro inner outer
    refine Reading.Takes.cons (.openGroup rfl) ?_
    rintro after rfl
    refine (ih (inner :: outer)).append ?_
    rintro ⟨last, rest⟩ ⟨hOuter, hExpression⟩
    dsimp only at hOuter hExpression
    subst hOuter hExpression
    exact .token rfl rfl

end DtdConformance.ContentModel
