import DtdConformance.Proofs.Settings.Coercion
import DtdConformance.Proofs.Settings.Refusal

/-! # Laying new values over settings

New values under names of fields are either all taken or refused, whatever the settings are. The
result is told field by field, and so does not depend on the order in which the values are given.
-/
namespace DtdConformance.Settings
set_option autoImplicit false

open Data (Value)

/-- New values under names, at most one a name. -/
structure Overrides where
  entries : List (String × Value)
  distinct : (entries.map Prod.fst).Nodup

/-- Some field has the name, and the value stands for a value of the field. -/
def Fits (entry : String × Value) : Prop :=
  ∃ field denoted, Field.name field = entry.1 ∧ Denotes field.kind entry.2 denoted

/-- The result has the new values in the fields that are named and the old values in the others. -/
structure Lays (entries : List (String × Value)) (settings result : Settings) : Prop where
  given : ∀ {field : Field} {value}, (field.name, value) ∈ entries →
    Denotes field.kind value (result.valueOf field)
  kept : ∀ {field : Field}, field.name ∉ entries.map Prod.fst →
    result.valueOf field = settings.valueOf field

namespace Overrides

/-- The entries as a data file holds them. -/
def asRead (entries : List (String × Value)) : List (Value × Value) :=
  entries.map fun entry => (.text entry.1, entry.2)

def names (overrides : Overrides) : List String := overrides.entries.map Prod.fst

theorem mem_names_of_mem {overrides : Overrides} {name : String} {value : Value}
    (h : (name, value) ∈ overrides.entries) : name ∈ overrides.names :=
  List.mem_map_of_mem h

/-- The values of both, those of the second where both have one. -/
def overlay (first second : Overrides) : Overrides where
  entries := second.entries ++ first.entries.filter fun entry => entry.1 ∉ second.names
  distinct := by
    rw [List.map_append, List.nodup_append]
    refine ⟨second.distinct, first.distinct.sublist (List.filter_sublist.map _), ?_⟩
    rintro name hSecond _ hFirst rfl
    obtain ⟨entry, hEntry, rfl⟩ := List.mem_map.mp hFirst
    exact of_decide_eq_true (List.mem_filter.mp hEntry).2 hSecond

theorem mem_overlay {first second : Overrides} {entry : String × Value} :
    entry ∈ (first.overlay second).entries ↔
      entry ∈ second.entries ∨ entry ∈ first.entries ∧ entry.1 ∉ second.names := by
  simp [overlay]

theorem mem_names_overlay {first second : Overrides} {name : String} :
    name ∈ (first.overlay second).names ↔ name ∈ first.names ∨ name ∈ second.names := by
  constructor
  · intro h
    obtain ⟨entry, hEntry, rfl⟩ := List.mem_map.mp h
    obtain hSecond | ⟨hFirst, -⟩ := mem_overlay.mp hEntry
    · exact .inr (mem_names_of_mem hSecond)
    · exact .inl (mem_names_of_mem hFirst)
  · intro h
    by_cases hSecond : name ∈ second.names
    · obtain ⟨entry, hEntry, rfl⟩ := List.mem_map.mp hSecond
      exact mem_names_of_mem (mem_overlay.mpr (.inl hEntry))
    · obtain ⟨entry, hEntry, rfl⟩ := List.mem_map.mp (h.resolve_right hSecond)
      exact mem_names_of_mem (mem_overlay.mpr (.inr ⟨hEntry, hSecond⟩))

/-- The values of all fields. -/
def ofSettings (settings : Settings) : Overrides where
  entries := Field.all.map fun field => (field.name, settings.valueOf field)
  distinct := by
    rw [List.map_map]
    exact (by decide : (Field.all.map Field.name).Nodup)

end Overrides

open Overrides (asRead)

theorem toValue_eq (settings : Settings) :
    settings.toValue = .mapping (asRead (Overrides.ofSettings settings).entries) := rfl

/-! ## What an update makes -/

section

variable {settings result : Settings} {entries : List (String × Value)}

theorem not_holdsForeignKey_asRead (entries : List (String × Value)) :
    ¬ HoldsForeignKey (asRead entries) := by
  rintro ⟨_, hEntry, hForeign⟩
  obtain ⟨entry, -, rfl⟩ := List.mem_map.mp hEntry
  exact hForeign entry.1 rfl

theorem assignAll_cons {field : Field} {value : Value} {rest : List (Value × Value)} :
    settings.assignAll ((.text field.name, value) :: rest) = .ok result ↔
      ∃ assigned, settings.assign? field value = some assigned ∧
        assigned.assignAll rest = .ok result := by
  have hField : fieldOf? (.text field.name) = some field := field.ofName?_name
  cases hAssign : settings.assign? field value with
  | none => simp [assignAll, hField, assign, hAssign, bind, Except.bind]
  | some assigned => simp [assignAll, hField, assign, hAssign, bind, Except.bind]

/-- The values are taken one after another, and no later one is for the same field. -/
theorem Lays.cons_iff {field : Field} {value : Value} {assigned : Settings}
    (hFresh : field.name ∉ entries.map Prod.fst)
    (hAssign : settings.assign? field value = some assigned) :
    Lays ((field.name, value) :: entries) settings result ↔ Lays entries assigned result := by
  obtain ⟨hDenotes, hOthers⟩ := assign?_eq_some_iff.mp hAssign
  constructor
  · intro h
    refine ⟨fun hMem => h.given (.tail _ hMem), fun {other} hOther => ?_⟩
    by_cases hSame : other = field
    · rw [hSame]
      exact hDenotes.unique (h.given (.head _))
    · rw [hOthers other hSame]
      exact h.kept (by simpa [Field.name_injective.eq_iff, hSame] using hOther)
  · intro h
    refine ⟨fun {other _} hMem => ?_, fun {other} hOther => ?_⟩
    · obtain hHead | hTail := List.mem_cons.mp hMem
      · obtain ⟨hName, rfl⟩ := Prod.mk.inj hHead
        rw [Field.name_injective hName, h.kept hFresh]
        exact hDenotes
      · exact h.given hTail
    · obtain ⟨hNe, hRest⟩ := not_or.mp (mt List.mem_cons.mpr hOther)
      rw [h.kept hRest]
      exact hOthers other fun hSame => hNe (congrArg Field.name hSame)

theorem exists_assignAll_of_fits (h : ∀ entry ∈ entries, Fits entry) (settings : Settings) :
    ∃ result, settings.assignAll (asRead entries) = .ok result := by
  induction entries generalizing settings with
  | nil => exact ⟨settings, rfl⟩
  | cons entry entries ih =>
    obtain ⟨hEntry, hEntries⟩ := List.forall_mem_cons.mp h
    obtain ⟨name, value⟩ := entry
    obtain ⟨field, denoted, rfl, hDenotes⟩ := hEntry
    obtain ⟨assigned, hAssign⟩ := exists_assign?_of_denotes hDenotes settings
    obtain ⟨result, hResult⟩ := ih hEntries assigned
    exact ⟨result, assignAll_cons.mpr ⟨assigned, hAssign, hResult⟩⟩

theorem assignAll_asRead_eq_ok_iff (hDistinct : (entries.map Prod.fst).Nodup)
    (hKnown : ∀ entry ∈ entries, ∃ field, Field.name field = entry.1) :
    settings.assignAll (asRead entries) = .ok result ↔
      (∀ entry ∈ entries, Fits entry) ∧ Lays entries settings result := by
  -- each value changes the settings that the next one is laid over
  induction entries generalizing settings with
  | nil =>
    constructor
    · rintro ⟨⟩
      exact ⟨by simp, by simp, fun _ => rfl⟩
    · rintro ⟨-, hLays⟩
      exact congrArg Except.ok (ext_valueOf fun field => (hLays.kept (by simp)).symm)
  | cons entry entries ih =>
    obtain ⟨name, value⟩ := entry
    obtain ⟨⟨field, rfl⟩, hRestKnown⟩ := List.forall_mem_cons.mp hKnown
    obtain ⟨hFresh, hDistinct⟩ := List.nodup_cons.mp hDistinct
    refine assignAll_cons.trans ⟨?_, ?_⟩
    · rintro ⟨assigned, hAssign, hRest⟩
      obtain ⟨hFits, hLays⟩ := (ih hDistinct hRestKnown).mp hRest
      have hHead : Fits (field.name, value) :=
        ⟨field, _, rfl, (assign?_eq_some_iff.mp hAssign).1⟩
      exact ⟨List.forall_mem_cons.mpr ⟨hHead, hFits⟩, (Lays.cons_iff hFresh hAssign).mpr hLays⟩
    · rintro ⟨hFits, hLays⟩
      obtain ⟨⟨other, denoted, hName, hDenotes⟩, hFits⟩ := List.forall_mem_cons.mp hFits
      cases Field.name_injective hName
      obtain ⟨assigned, hAssign⟩ := exists_assign?_of_denotes hDenotes settings
      exact ⟨assigned, hAssign,
        (ih hDistinct hRestKnown).mpr ⟨hFits, (Lays.cons_iff hFresh hAssign).mp hLays⟩⟩

end

section

variable {settings result last : Settings} {first second : Overrides}

/-- New values are taken exactly when each fits, and what is made of the settings is then told
field by field. -/
theorem update_eq_ok_iff (overrides : Overrides) :
    settings.update (asRead overrides.entries) = .ok result ↔
      (∀ entry ∈ overrides.entries, Fits entry) ∧ Lays overrides.entries settings result := by
  by_cases hKnown : ∀ entry ∈ asRead overrides.entries, fieldOf? entry.1 ≠ none
  · rw [update_of_known settings hKnown]
    refine assignAll_asRead_eq_ok_iff overrides.distinct fun entry hEntry => ?_
    have hSome := hKnown _ (List.mem_map_of_mem hEntry)
    obtain ⟨field, hField⟩ := Option.ne_none_iff_exists'.mp hSome
    exact ⟨field, (Field.ofName?_eq_some_iff _ _).mp hField⟩
  · obtain ⟨_, hEntry, hNone⟩ : ∃ entry ∈ asRead overrides.entries, fieldOf? entry.1 = none := by
      simpa using hKnown
    obtain ⟨names, hRefused⟩ :=
      update_of_unknown settings ⟨_, hEntry, hNone⟩ (not_holdsForeignKey_asRead _)
    obtain ⟨entry, hMem, rfl⟩ := List.mem_map.mp hEntry
    constructor
    · intro h
      cases hRefused.symm.trans h
    · rintro ⟨hFits, -⟩
      obtain ⟨field, -, hName, -⟩ := hFits entry hMem
      rw [← hName, fieldOf?, field.ofName?_name] at hNone
      cases hNone

theorem exists_update_eq_ok_iff (settings : Settings) (overrides : Overrides) :
    (∃ result, settings.update (asRead overrides.entries) = .ok result) ↔
      ∀ entry ∈ overrides.entries, Fits entry := by
  constructor
  · rintro ⟨result, h⟩
    exact ((update_eq_ok_iff overrides).mp h).1
  · intro h
    obtain ⟨result, hResult⟩ := exists_assignAll_of_fits h settings
    refine ⟨result, ?_⟩
    rw [update_of_known, hResult]
    intro entry hEntry
    obtain ⟨_, hMem, rfl⟩ := List.mem_map.mp hEntry
    obtain ⟨field, -, hName, -⟩ := h _ hMem
    simp [fieldOf?, ← hName, field.ofName?_name]

/-! ## Updates in a row -/

theorem Lays.idem (h : Lays first.entries settings result) : Lays first.entries result result :=
  ⟨h.given, fun _ => rfl⟩

theorem Lays.overlay (hFirst : Lays first.entries settings result)
    (hSecond : Lays second.entries result last) :
    Lays (first.overlay second).entries settings last where
  given {field value} hMem := by
    obtain hMem | ⟨hMem, hAbsent⟩ := Overrides.mem_overlay.mp hMem
    · exact hSecond.given hMem
    · rw [hSecond.kept hAbsent]
      exact hFirst.given hMem
  kept {field} hAbsent := by
    obtain ⟨hAbsentFirst, hAbsentSecond⟩ := not_or.mp (mt Overrides.mem_names_overlay.mpr hAbsent)
    rw [hSecond.kept hAbsentSecond, hFirst.kept hAbsentFirst]

theorem Lays.perm {entries others : List (String × Value)} (h : Lays entries settings result)
    (hPerm : others.Perm entries) : Lays others settings result :=
  ⟨fun hMem => h.given (hPerm.mem_iff.mp hMem),
    fun hAbsent => h.kept (mt (hPerm.map _).mem_iff.mpr hAbsent)⟩

theorem fits_ofSettings (settings : Settings) :
    ∀ entry ∈ (Overrides.ofSettings settings).entries, Fits entry := by
  intro entry hEntry
  obtain ⟨field, -, rfl⟩ := List.mem_map.mp hEntry
  exact ⟨field, _, rfl, denotes_valueOf settings field⟩

theorem lays_ofSettings (settings : Settings) :
    Lays (Overrides.ofSettings settings).entries settings settings := by
  refine ⟨fun {field value} hMem => ?_, fun _ => rfl⟩
  obtain ⟨other, -, hEntry⟩ := List.mem_map.mp hMem
  obtain ⟨hName, rfl⟩ := Prod.mk.inj hEntry
  rw [Field.name_injective hName]
  exact denotes_valueOf settings field

/-- Keys that are texts leave no fault without a message. -/
theorem update_refused_iff (overrides : Overrides) :
    (∃ fault message, settings.update (asRead overrides.entries) = .error fault ∧
        fault.message? = some message) ↔
      ∃ entry ∈ overrides.entries, ¬ Fits entry := by
  have hAccepted := exists_update_eq_ok_iff settings overrides
  cases hUpdate : settings.update (asRead overrides.entries) with
  | ok result =>
    have hFits := hAccepted.mp ⟨result, hUpdate⟩
    simpa using fun name value hMem => hFits (name, value) hMem
  | error fault =>
    have hForeign : fault ≠ .foreignKey := by
      rintro rfl
      exact not_holdsForeignKey_asRead _ ((update_eq_foreignKey_iff settings).mp hUpdate)
    obtain ⟨message, hMessage⟩ :=
      Option.ne_none_iff_exists'.mp (mt fault.message?_eq_none_iff.mp hForeign)
    refine ⟨fun _ => ?_, fun _ => ⟨fault, message, rfl, hMessage⟩⟩
    refine Classical.byContradiction fun hNone => ?_
    have hFits : ∀ entry ∈ overrides.entries, Fits entry := fun entry hMem =>
      Classical.byContradiction fun hUnfit => hNone ⟨entry, hMem, hUnfit⟩
    obtain ⟨result, hResult⟩ := hAccepted.mpr hFits
    cases hUpdate.symm.trans hResult

/-- New values are refused, with a message, exactly when one of them does not fit, whatever the
settings are. Otherwise the result has them in their fields, each brought to its kind, and the old
values in the others; the old settings are a value of their own and stay what they are. Taking the
new values again changes nothing, taking others afterwards is taking both at once in any order, and
taking the values of the settings themselves gives these settings. -/
theorem update_laws (settings : Settings) (first : Overrides) :
    ((∃ fault message, settings.update (asRead first.entries) = .error fault ∧
          fault.message? = some message) ↔
        ∃ entry ∈ first.entries, ¬ Fits entry) ∧
      ((∃ result, settings.update (asRead first.entries) = .ok result) ↔
        ∀ entry ∈ first.entries, Fits entry) ∧
      (∀ result, settings.update (asRead first.entries) = .ok result →
        (∀ field, (result.valueOf field).kind = field.kind.name) ∧
        Lays first.entries settings result ∧
        result.update (asRead first.entries) = .ok result ∧
        ∀ (second : Overrides) (last : Settings),
          result.update (asRead second.entries) = .ok last →
          ∀ both, both.Perm (first.overlay second).entries →
            settings.update (asRead both) = .ok last) ∧
      ∃ own, settings.toValue = .mapping own ∧ settings.update own = .ok settings := by
  refine ⟨update_refused_iff first, exists_update_eq_ok_iff settings first,
    fun result hResult => ?_, _, toValue_eq settings,
    (update_eq_ok_iff _).mpr ⟨fits_ofSettings settings, lays_ofSettings settings⟩⟩
  obtain ⟨hFits, hLays⟩ := (update_eq_ok_iff first).mp hResult
  refine ⟨kind_valueOf result, hLays, (update_eq_ok_iff first).mpr ⟨hFits, hLays.idem⟩, ?_⟩
  intro second last hLast both hPerm
  obtain ⟨hFitsSecond, hLaysSecond⟩ := (update_eq_ok_iff second).mp hLast
  have hDistinct : (both.map Prod.fst).Nodup :=
    (hPerm.map _).nodup_iff.mpr (first.overlay second).distinct
  refine (update_eq_ok_iff ⟨both, hDistinct⟩).mpr
    ⟨fun entry hEntry => ?_, (hLays.overlay hLaysSecond).perm hPerm⟩
  obtain hSecond | ⟨hFirst, -⟩ := Overrides.mem_overlay.mp (hPerm.mem_iff.mp hEntry)
  · exact hFitsSecond entry hSecond
  · exact hFits entry hFirst

example : ({} : Settings).update (asRead [("max_workers", .text " 7 "), ("huge_tree", .bool true)]) =
    .ok { maxWorkers := 7, hugeTree := true } := by cbv

end

end DtdConformance.Settings
