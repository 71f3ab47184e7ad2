import Mathlib
import Bezout.Settings
import Bezout.Proofs.GivenValues

/-!
Restored values through the later life of settings. A restore decides over the values of all settings, of those
that are declared already and of those that will be (`Registry.Restored`), and no step but another restore takes
this back, except for the settings that it gives a value itself (`Registry.Touches`).
-/
namespace Bezout

/-! ### Where reading leaves settings as they are -/

namespace Settings
variable {values : NamedValues} {old new : List Setting} {fault : Option Fault}

theorem ReadsTo.length_eq (reads : ReadsTo values old new fault) : new.length = old.length := by
  cases reads with
  | all given => exact given.length_eq.symm
  | stopped given _ => rw [List.length_append,List.length_append,given.length_eq]

/-- A setting stays as it is unless it and all that are declared before it are given values. -/
theorem ReadsTo.getElem? {place : ℕ} (reads : ReadsTo values old new fault)
    (beyond : ¬ (place < old.length ∧ ∀ setting ∈ old.take (place + 1), ∃ v, setting.Given values v)) :
    new[place]? = old[place]? := by
  cases reads with
  | all given =>
    have outside : old.length ≤ place := by
      by_contra inside
      refine beyond ⟨not_le.mp inside,fun setting member => ?_⟩
      exact exists_given given setting (List.mem_of_mem_take member)
    rw [List.getElem?_eq_none outside,List.getElem?_eq_none (given.length_eq ▸ outside)]
  | @stopped front given behind setting cause inFront _ =>
    have reached : front.length ≤ place := by
      by_contra inside
      have inside : place < front.length := not_le.mp inside
      refine beyond ⟨inside.trans_le (by simp),fun setting member => ?_⟩
      rw [List.take_append_of_le_length inside] at member
      exact exists_given inFront setting (List.mem_of_mem_take member)
    rw [List.getElem?_append_right reached,List.getElem?_append_right (inFront.length_eq ▸ reached),
      inFront.length_eq]

end Settings

namespace Registry

theorem run_append (r : Registry) (earlier later : List SettingsStep) :
    r.run (earlier ++ later) = (r.run earlier).run later := by
  induction earlier generalizing r with
  | nil => rfl
  | cons first rest ih => exact ih (r.step first).1

theorem step_restore {r : Registry} {source : RestoredFrom} {taken : NamedValues}
    (given : r.valuesFrom? source = some taken) :
    (r.step (.restore source)).1 = { r with settings := r.settings.restore taken } := by
  rw [step,given]

/-- Whether a step gives the setting at a place a value: it is set, or it is reached when the settings are read
    in their order. -/
def Touches (r : Registry) (place : ℕ) (s : SettingsStep) : Prop :=
  place < r.settings.declared.length ∧
    match s with
    | .set other _ => other = place
    | .read values => ∀ setting ∈ r.settings.declared.take (place + 1), ∃ v, setting.Given values v
    | _ => False

/-- No step of a run gives the setting at a place a value. -/
def Untouched (place : ℕ) : Registry → List SettingsStep → Prop
  | _, [] => True
  | r, first :: later => ¬ r.Touches place first ∧ Untouched place (r.step first).1 later

/-- What a restore of `taken` leads to at a place: a setting that is named in `taken` has the value there, and any
    other the value that it had before, or its default if it was not declared then. -/
structure Restored (taken : NamedValues) (before : List Setting) (place : ℕ) (r : Registry) : Prop where
  overrides : r.settings.overrides = taken
  longer : before.length ≤ r.settings.declared.length
  value : ∀ setting, r.settings.declared[place]? = some setting →
    (∀ old, before[place]? = some old → setting.toDeclaration = old.toDeclaration) ∧
      setting.value = (taken.lookup setting.name).getD ((before[place]?.map Setting.value).getD setting.default)

namespace Restored
variable {taken : NamedValues} {before : List Setting} {place : ℕ} {r : Registry}

theorem restore (r : Registry) (taken : NamedValues) (place : ℕ) :
    Restored taken r.settings.declared place { r with settings := r.settings.restore taken } where
  overrides := rfl
  longer := (List.length_map _).ge
  value setting found := by
    obtain ⟨old,there,rfl⟩ := Option.map_eq_some_iff.mp (List.getElem?_map.symm.trans found)
    rw [there]
    exact ⟨fun _ same => Option.some.inj same ▸ rfl,rfl⟩

/-- What does not change the setting at the place takes nothing back. -/
theorem of_same {s : Settings} (restored : Restored taken before place r)
    (overrides : s.overrides = r.settings.overrides) (length : s.declared.length = r.settings.declared.length)
    (same : s.declared[place]? = r.settings.declared[place]?) :
    Restored taken before place { r with settings := s } where
  overrides := overrides.trans restored.overrides
  longer := length ▸ restored.longer
  value setting found := restored.value setting (same ▸ found)

theorem declare (restored : Restored taken before place r) (d : Declaration) :
    Restored taken before place (r.step (.declare d)).1 where
  overrides := restored.overrides
  longer := restored.longer.trans (by simp [step,Settings.declare])
  value setting found := by
    rw [step,Settings.declare] at found
    by_cases inside : place < r.settings.declared.length
    · rw [List.getElem?_append_left inside] at found
      exact restored.value setting found
    · have outside := not_lt.mp inside
      rw [List.getElem?_append_right outside,List.getElem?_singleton] at found
      have undeclared : before[place]? = none := List.getElem?_eq_none (restored.longer.trans outside)
      rw [undeclared]
      split at found
      · cases found
        rw [restored.overrides]
        exact ⟨fun _ impossible => (Option.some_ne_none _ impossible.symm).elim,rfl⟩
      · cases found

theorem set (restored : Restored taken before place r) {other : ℕ} {v : Value}
    (untouched : ¬ r.Touches place (.set other v)) : Restored taken before place (r.step (.set other v)).1 := by
  refine restored.of_same rfl (List.length_modify _ _ _) ?_
  rw [Settings.set,List.getElem?_modify]
  by_cases inside : place < r.settings.declared.length
  · have elsewhere : other ≠ place := fun same => untouched ⟨inside,same⟩
    simp [elsewhere]
  · rw [List.getElem?_eq_none (not_lt.mp inside)]
    rfl

theorem read (restored : Restored taken before place r) {values : NamedValues}
    (untouched : ¬ r.Touches place (.read values)) : Restored taken before place (r.step (.read values)).1 := by
  have reads := Settings.readFrom_readsTo values r.settings.declared
  exact restored.of_same rfl reads.length_eq (reads.getElem? untouched)

theorem step (restored : Restored taken before place r) {s : SettingsStep}
    (other : ∀ source, s ≠ .restore source) (untouched : ¬ r.Touches place s) :
    Restored taken before place (r.step s).1 := by
  cases s with
  | declare d => exact restored.declare d
  | set place v => exact restored.set untouched
  | read values => exact restored.read untouched
  | snapshot name => exact ⟨restored.overrides,restored.longer,restored.value⟩
  | restore source => exact absurd rfl (other source)

theorem run (restored : Restored taken before place r) {later : List SettingsStep}
    (last : ∀ source, .restore source ∉ later) (untouched : Untouched place r later) :
    Restored taken before place (r.run later) := by
  induction later generalizing r with
  | nil => exact restored
  | cons first rest ih =>
    have other : ∀ source, first ≠ .restore source := by
      rintro source rfl
      exact last source List.mem_cons_self
    exact ih (restored.step other untouched.1) (fun source member => last source (List.mem_cons_of_mem _ member))
      untouched.2

end Restored

/-- After the last restore of a run, whatever came before it: a setting that no later step gave a value has the
    value that it is restored to. If it is named in what was restored, this is the value there, also if it was
    declared later. Otherwise a setting that was declared before has the value that it had then, and one that was
    declared later has its default. -/
theorem restored_values_last (r : Registry) (earlier later : List SettingsStep) {source : RestoredFrom}
    {taken : NamedValues} (given : (r.run earlier).valuesFrom? source = some taken)
    (last : ∀ other, .restore other ∉ later) {place : ℕ} {setting : Setting}
    (found : (r.run (earlier ++ .restore source :: later)).settings.declared[place]? = some setting)
    (untouched : Untouched place (r.run (earlier ++ [.restore source])) later) :
    (∀ v, taken.lookup setting.name = some v → setting.value = v) ∧
    (taken.lookup setting.name = none → ∀ old, (r.run earlier).settings.declared[place]? = some old →
      setting.toDeclaration = old.toDeclaration ∧ setting.value = old.value) ∧
    (taken.lookup setting.name = none → (r.run earlier).settings.declared[place]? = none →
      setting.value = setting.default) := by
  have restored : Restored taken (r.run earlier).settings.declared place
      (r.run (earlier ++ [.restore source])) := by
    rw [run_append]
    show Restored taken _ place ((r.run earlier).step (.restore source)).1
    rw [step_restore given]
    exact .restore _ taken place
  rw [List.append_cons,run_append] at found
  obtain ⟨declared,value⟩ := (restored.run last untouched).value setting found
  refine ⟨?_,?_,?_⟩
  · intro v named
    rw [value,named]
    rfl
  · intro unnamed old before
    rw [value,unnamed,before]
    exact ⟨declared old before,rfl⟩
  · intro unnamed before
    rw [value,unnamed,before]
    rfl

/-- A setting that an earlier restore fixed another value for, declared after the last one, while a text setting
    is set. -/
theorem restored_value_of_late_setting : let r : Registry := ⟨.empty,[]⟩
    let late : Declaration := ⟨"late",.integer,.integer 2,none,none⟩
    let taken : NamedValues := [("late",.integer 4)]
    let earlier : List SettingsStep :=
      [.restore (.values [("late",.integer 9)]),.declare ⟨"title",.text,.text "old",none,none⟩]
    let later : List SettingsStep := [.declare late,.set 0 (.text "new")]
    let setting : Setting := ⟨late,.integer 4⟩
    (r.run earlier).valuesFrom? (.values taken) = some taken ∧ (∀ other, .restore other ∉ later) ∧
    (r.run (earlier ++ .restore (.values taken) :: later)).settings.declared[1]? = some setting ∧
    Untouched 1 (r.run (earlier ++ [.restore (.values taken)])) later ∧
    (∀ v, taken.lookup setting.name = some v → setting.value = v) ∧
    (taken.lookup setting.name = none → ∀ old, (r.run earlier).settings.declared[1]? = some old →
      setting.toDeclaration = old.toDeclaration ∧ setting.value = old.value) ∧
    (taken.lookup setting.name = none → (r.run earlier).settings.declared[1]? = none →
      setting.value = setting.default) := by
  intro r late taken earlier later setting
  have last : ∀ other, .restore other ∉ later := by simp [later]
  have untouched : Untouched 1 (r.run (earlier ++ [.restore (.values taken)])) later := by
    simp [Untouched,Touches,later]
  exact ⟨rfl,last,rfl,untouched,restored_values_last r earlier later rfl last rfl untouched⟩

end Registry
end Bezout
