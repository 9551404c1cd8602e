import DtdConformance.Data.Json
import DtdConformance.Data.Yaml

/-! # Mappings that are read

A mapping binds each key once, in whichever format it is written: a key that is written again takes
the later value in the place of the earlier one.
-/
namespace DtdConformance.Data
set_option autoImplicit false

namespace Value

/-- No two entries have the same key. -/
def KeysDistinct (entries : List (Value × Value)) : Prop :=
  (entries.map Prod.fst).Pairwise fun key other => sameKey key other = false

/-- If the value is a mapping, it binds each key once. -/
def WellKeyed (value : Value) : Prop := ∀ entries, value = mapping entries → KeysDistinct entries

theorem keysDistinct_nil : KeysDistinct [] := List.Pairwise.nil

theorem KeysDistinct.wellKeyed {entries : List (Value × Value)} (h : KeysDistinct entries) :
    (mapping entries).WellKeyed := by
  rintro _ ⟨⟩
  exact h

theorem wellKeyed_list (items : List Value) : (list items).WellKeyed := nofun

theorem KeysDistinct.insertEntry {entries : List (Value × Value)} (h : KeysDistinct entries)
    (key value : Value) : KeysDistinct (insertEntry entries key value) := by
  unfold Value.insertEntry
  split
  · have hKeys : (entries.map fun entry =>
        if sameKey entry.1 key = true then (entry.1, value) else entry).map Prod.fst =
          entries.map Prod.fst := by
      rw [List.map_map]
      refine List.map_congr_left fun entry _ => ?_
      simp only [Function.comp_apply]
      split <;> rfl
    rwa [KeysDistinct, hKeys]
  · next hNew =>
    rw [KeysDistinct, List.map_append, List.pairwise_append]
    refine ⟨h, List.pairwise_singleton _ _, fun old hOld other hOther => ?_⟩
    obtain ⟨entry, hEntry, rfl⟩ := List.mem_map.mp hOld
    obtain rfl := List.mem_singleton.mp hOther
    exact eq_false_of_ne_true fun hSame => hNew (List.any_eq_true.mpr ⟨entry, hEntry, hSame⟩)

theorem wellKeyed_of_map {α : Type} {found : Option α} {f : α → Value × List Char} {value : Value}
    {rest : List Char} (h : found.map f = some (value, rest))
    (hf : ∀ a, found = some a → (f a).1.WellKeyed) : value.WellKeyed := by
  obtain ⟨a, hFound, hValue⟩ := Option.map_eq_some_iff.mp h
  simpa [hValue] using hf a hFound

/-- Keys that are texts are distinct as texts. -/
theorem KeysDistinct.nodup_of_text {names : List String} {entries : List (Value × Value)}
    (h : KeysDistinct entries) (hNames : entries.map Prod.fst = names.map text) : names.Nodup := by
  rw [KeysDistinct, hNames, List.pairwise_map] at h
  exact h.imp fun hOther hSame => by simp [sameKey, hSame] at hOther

end Value

open Value

/-! ## JSON -/

namespace Json

theorem wellKeyed_word? {cs rest : List Char} {value : Value} (h : word? cs = some (value, rest)) :
    value.WellKeyed := by
  obtain ⟨⟨word, meant⟩, hWord, hRest⟩ := List.exists_of_findSome?_eq_some h
  obtain ⟨_, -, hEq⟩ := Option.map_eq_some_iff.mp hRest
  cases hEq
  simp only [List.mem_cons, Prod.mk.injEq, List.not_mem_nil, or_false] at hWord
  obtain ⟨-, rfl⟩ | ⟨-, rfl⟩ | ⟨-, rfl⟩ | ⟨-, rfl⟩ | ⟨-, rfl⟩ | ⟨-, rfl⟩ := hWord <;> nofun

theorem wellKeyed_number? {negative : Bool} {cs rest : List Char} {value : Value}
    (h : number? negative cs = some (value, rest)) : value.WellKeyed := by
  unfold number? at h
  dsimp only at h
  repeat' split at h
  all_goals cases h <;> nofun

/-- Reading ends with the next entry or goes on behind it. -/
theorem entries?_step {fuel : Nat} {read entries : List (Value × Value)} {cs rest : List Char}
    (h : entries? (fuel + 1) read cs = some (entries, rest)) :
    ∃ key value, entries = insertEntry read key value ∨
      ∃ later, entries? fuel (insertEntry read key value) later = some (entries, rest) := by
  unfold entries? at h
  repeat' split at h
  all_goals grind

theorem keysDistinct_entries? {fuel : Nat} {read entries : List (Value × Value)}
    {cs rest : List Char} (hRead : KeysDistinct read)
    (h : entries? fuel read cs = some (entries, rest)) : KeysDistinct entries := by
  induction fuel generalizing read cs with
  | zero => cases h
  | succ fuel ih =>
    obtain ⟨key, value, rfl | ⟨later, hLater⟩⟩ := entries?_step h
    · exact hRead.insertEntry key value
    · exact ih (hRead.insertEntry key value) hLater

theorem wellKeyed_value? {fuel : Nat} {cs rest : List Char} {value : Value}
    (h : value? fuel cs = some (value, rest)) : value.WellKeyed := by
  cases fuel with
  | zero => cases h
  | succ fuel =>
    cases cs with
    | nil => cases h
    | cons c cs =>
      rw [value?] at h
      split at h
      · exact wellKeyed_of_map h fun _ _ => nofun
      · split at h
        · split at h
          · cases h
            exact wellKeyed_list _
          · exact wellKeyed_of_map h fun _ _ => wellKeyed_list _
        · split at h
          · split at h
            · cases h
              exact keysDistinct_nil.wellKeyed
            · exact wellKeyed_of_map h fun _ hEntries =>
                (keysDistinct_entries? keysDistinct_nil hEntries).wellKeyed
          · split at h
            · next hWord =>
              cases h
              exact wellKeyed_word? hWord
            · split at h
              all_goals exact wellKeyed_number? h

theorem wellKeyed_read? {cs : List Char} {value : Value} (h : read? cs = some value) :
    value.WellKeyed := by
  unfold read? at h
  split at h
  · next hValue =>
    split at h
    · cases h
      exact wellKeyed_value? hValue
    · cases h
  · cases h

end Json

/-! ## YAML -/

namespace Yaml

theorem wellKeyed_number? {cs : List Char} {value : Value} (h : number? cs = some value) :
    value.WellKeyed := by
  have hUnsigned : ∀ n : Int ⊕ Float, (number?.ofUnsigned n).WellKeyed := by
    rintro (n | x) <;> nofun
  unfold number? at h
  split at h
  · obtain ⟨n, -, rfl⟩ := Option.map_eq_some_iff.mp h
    cases n <;> nofun
  · obtain ⟨n, -, rfl⟩ := Option.map_eq_some_iff.mp h
    exact hUnsigned n
  · split at h
    · cases h
      nofun
    · obtain ⟨n, -, rfl⟩ := Option.map_eq_some_iff.mp h
      exact hUnsigned n

theorem wellKeyed_plainValue? {cs : List Char} {value : Value} (h : plainValue? cs = some value) :
    value.WellKeyed := by
  have hNumeral : ((number? cs).getD (.text (String.ofList cs))).WellKeyed := by
    cases hNumber : number? cs with
    | none => nofun
    | some n => exact wellKeyed_number? hNumber
  unfold plainValue? at h
  dsimp only at h
  repeat' split at h
  all_goals cases h
  · nofun
  · nofun
  · nofun
  · exact hNumeral

theorem wellKeyed_scalar? {inBrackets : Bool} {least : Nat} {cs rest : List Char} {value : Value}
    (h : scalar? inBrackets least cs = some (value, rest)) : value.WellKeyed := by
  unfold scalar? at h
  split at h
  · cases h
    nofun
  · split at h
    · exact wellKeyed_of_map h fun _ hPlain => wellKeyed_plainValue? hPlain
    · cases h

/-- Reading goes on with one more entry or ends, with one more entry or with none. -/
theorem flowEntries?_step {fuel : Nat} {read entries : List (Value × Value)} {cs rest : List Char}
    (h : flowEntries? (fuel + 1) read cs = some (entries, rest)) :
    entries = read ∨ ∃ key value, entries = insertEntry read key value ∨
      ∃ later, flowEntries? fuel (insertEntry read key value) later = some (entries, rest) := by
  unfold flowEntries? at h
  simp only [bind, Option.bind, pure] at h
  repeat' split at h
  all_goals grind

theorem keysDistinct_flowEntries? {fuel : Nat} {read entries : List (Value × Value)}
    {cs rest : List Char} (hRead : KeysDistinct read)
    (h : flowEntries? fuel read cs = some (entries, rest)) : KeysDistinct entries := by
  induction fuel generalizing read cs with
  | zero => simp [flowEntries?] at h
  | succ fuel ih =>
    obtain rfl | ⟨key, value, rfl | ⟨later, hLater⟩⟩ := flowEntries?_step h
    · exact hRead
    · exact hRead.insertEntry key value
    · exact ih (hRead.insertEntry key value) hLater

theorem wellKeyed_flow? {fuel : Nat} {cs rest : List Char} {value : Value}
    (h : flow? fuel cs = some (value, rest)) : value.WellKeyed := by
  unfold flow? at h
  split at h
  · cases h
  · split at h
    · exact wellKeyed_of_map h fun _ _ => wellKeyed_list _
    · exact wellKeyed_of_map h fun _ hEntries =>
        (keysDistinct_flowEntries? keysDistinct_nil hEntries).wellKeyed
    · exact wellKeyed_scalar? h

theorem entries?_step {fuel column : Nat} {read entries : List (Value × Value)} {key : Value}
    {cs rest : List Char} (h : entries? (fuel + 1) column read key cs = some (entries, rest)) :
    ∃ value, entries = insertEntry read key value ∨
      ∃ next later, entries? fuel column (insertEntry read key value) next later =
        some (entries, rest) := by
  unfold entries? at h
  simp only [bind, Option.bind, pure] at h
  repeat' split at h
  all_goals grind

theorem keysDistinct_entries? {fuel column : Nat} {read entries : List (Value × Value)}
    {key : Value} {cs rest : List Char} (hRead : KeysDistinct read)
    (h : entries? fuel column read key cs = some (entries, rest)) : KeysDistinct entries := by
  induction fuel generalizing read key cs with
  | zero => simp [entries?] at h
  | succ fuel ih =>
    obtain ⟨value, rfl | ⟨next, later, hLater⟩⟩ := entries?_step h
    · exact hRead.insertEntry key value
    · exact ih (hRead.insertEntry key value) hLater

theorem wellKeyed_block? {fuel around : Nat} {mayNest : Bool} {place : Place} {rest : List Char}
    {value : Value} (h : block? fuel around mayNest place = some (value, rest)) :
    value.WellKeyed := by
  unfold block? at h
  split at h
  · cases h
  · split at h
    · split at h
      · exact wellKeyed_of_map h fun _ _ => wellKeyed_list _
      · cases h
    · split at h
      · cases h
      · split at h
        · exact wellKeyed_flow? h
        · split at h
          · split at h
            · exact wellKeyed_of_map h fun _ hEntries =>
                (keysDistinct_entries? keysDistinct_nil hEntries).wellKeyed
            · cases h
          · exact wellKeyed_scalar? h

theorem wellKeyed_document? {mayNest : Bool} {cs rest : List Char} {value : Value}
    (h : document? mayNest cs = some (value, rest)) : value.WellKeyed := by
  unfold document? at h
  dsimp only at h
  split at h
  · cases h
    nofun
  · exact wellKeyed_block? h

theorem wellKeyed_read? {cs : List Char} {value : Value} (h : read? cs = some value) :
    value.WellKeyed := by
  unfold read? at h
  dsimp only at h
  split at h
  · cases h
  · split at h
    · next hFound =>
      split at h
      · cases h
        split at hFound
        all_goals exact wellKeyed_document? hFound
      · cases h
    · cases h

end Yaml

end DtdConformance.Data
