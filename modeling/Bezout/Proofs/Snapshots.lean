import Mathlib
import Bezout.Proofs.Restoration

/-!
Snapshots. If no two settings have one name, a snapshot holds the value of each, and to restore it at once leaves
the settings as they are. What it changes are the values that settings declared later start with: those that
earlier restores had fixed are forgotten, and those of the declared settings stand for their names from then on.
Nothing else is ever different (`Registry.Alike`).
-/
namespace Bezout

/-! ### Values by name -/

namespace NamedValues

theorem lookup_cons (name key : String) (v : Value) (rest : NamedValues) :
    List.lookup name ((key,v) :: rest) = if name = key then some v else rest.lookup name := by
  rw [List.lookup_cons]
  split <;> simp_all

theorem lookup_store (values : NamedValues) (key : String) (v : Value) (name : String) :
    (values.store key v).lookup name = if name = key then some v else values.lookup name := by
  induction values with
  | nil => exact lookup_cons name key v []
  | cons first rest ih =>
    obtain ⟨other,w⟩ := first
    rw [store]
    by_cases stored : other = key
    · rw [if_pos stored,lookup_cons,lookup_cons,stored]
      split <;> rfl
    · rw [if_neg stored,lookup_cons,lookup_cons,ih]
      by_cases same : name = other
      · rw [if_pos same,if_neg (same ▸ stored),if_pos same]
      · rw [if_neg same,if_neg same]

/-- Named values that are the same under some names. -/
def Agree (kept : String → Prop) (as bs : NamedValues) : Prop :=
  ∀ name, kept name → as.lookup name = bs.lookup name

end NamedValues

namespace Settings
variable {s : Settings} {name : String}

/-- The names of the settings in the order of their declaration. -/
def names (s : Settings) : List String := s.declared.map fun setting => setting.name

/-- A name that is not declared, and that no value was fixed for. -/
def Open (s : Settings) (name : String) : Prop := name ∉ s.names ∧ s.overrides.lookup name = none

/-- A snapshot holds under each name the value of the last setting with that name. -/
theorem lookup_snapshot (s : Settings) (name : String) :
    s.snapshot.lookup name = (s.declared.reverse.find? (·.name = name)).map Setting.value := by
  rw [snapshot]
  induction s.declared using List.reverseRecOn with
  | nil => rfl
  | append_singleton front last ih =>
    rw [List.foldl_append,List.foldl_cons,List.foldl_nil,NamedValues.lookup_store,ih,List.reverse_append,
      List.reverse_singleton,List.singleton_append,List.find?_cons]
    by_cases same : last.name = name
    · simp [same]
    · simp [same,Ne.symm same]

theorem lookup_snapshot_of_not_mem (absent : name ∉ s.names) : s.snapshot.lookup name = none := by
  rw [lookup_snapshot,Option.map_eq_none_iff,List.find?_eq_none]
  intro setting member same
  exact absent (List.mem_map.mpr ⟨setting,List.mem_reverse.mp member,of_decide_eq_true same⟩)

theorem lookup_snapshot_of_mem (distinct : s.names.Nodup) {setting : Setting} (member : setting ∈ s.declared) :
    s.snapshot.lookup setting.name = some setting.value := by
  rw [lookup_snapshot]
  cases found : s.declared.reverse.find? (·.name = setting.name) with
  | none =>
    rw [List.find?_eq_none] at found
    exact absurd (decide_eq_true rfl) (found setting (List.mem_reverse.mpr member))
  | some other =>
    have declared := List.mem_reverse.mp (List.mem_of_find?_eq_some found)
    have same : other.name = setting.name := by simpa using List.find?_some found
    rw [List.inj_on_of_nodup_map distinct declared member same]
    rfl

/-- Settings with different names are not changed when a snapshot of them is restored. -/
theorem declared_restore_snapshot (distinct : s.names.Nodup) : (s.restore s.snapshot).declared = s.declared := by
  rw [restore]
  refine (List.map_congr_left fun setting member => ?_).trans (List.map_id _)
  rw [lookup_snapshot_of_mem distinct member]
  rfl

-- Of two settings with one name the first is given the value of the second.
example : let d : Declaration := ⟨"n",.integer,.integer 1,none,none⟩
    let s := ((Settings.empty.declare d).declare d).set 1 (.integer 2)
    (s.restore s.snapshot).declared.map Setting.value = [.integer 2,.integer 2] := by
  cbv

end Settings

/-! ### Settings that differ under some names only -/

/-- Settings that are declared alike, with the same value if their name is among some. -/
def Setting.Agree (kept : String → Prop) (a b : Setting) : Prop :=
  a.toDeclaration = b.toDeclaration ∧ (kept a.name → a.value = b.value)

namespace Settings
variable {kept : String → Prop} {s t : Settings} {xs ys : List Setting}

/-- Each of the settings agrees with the one at its place. -/
abbrev AllAgree (kept : String → Prop) : List Setting → List Setting → Prop :=
  List.Forall₂ (Setting.Agree kept)

theorem agree_modify (agree : AllAgree kept xs ys) (place : ℕ) (v : Value) :
    AllAgree kept (xs.modify place fun setting => { setting with value := v })
      (ys.modify place fun setting => { setting with value := v }) := by
  induction agree generalizing place with
  | nil => cases place <;> exact .nil
  | cons first rest ih =>
    cases place with
    | zero => exact .cons ⟨first.1,fun _ => rfl⟩ rest
    | succ place => exact .cons first (ih place)

theorem agree_readFrom (agree : AllAgree kept xs ys) (values : NamedValues) :
    AllAgree kept (readFrom values xs).1 (readFrom values ys).1 := by
  induction agree with
  | nil => exact .nil
  | @cons a b _ _ first rest ih =>
    have same : a.valueIn values = b.valueIn values := congrArg (Declaration.valueIn · values) first.1
    rw [readFrom,readFrom,same]
    cases b.valueIn values with
    | error cause => exact .cons first rest
    | ok v => exact .cons ⟨first.1,fun _ => rfl⟩ ih

theorem agree_restore (agree : AllAgree kept s.declared t.declared) {as bs : NamedValues}
    (same : as.Agree kept bs) : AllAgree kept (s.restore as).declared (t.restore bs).declared := by
  rw [restore,restore,AllAgree,List.forall₂_map_left_iff,List.forall₂_map_right_iff]
  refine agree.imp fun a b pair => ⟨pair.1,fun member => ?_⟩
  have names : a.name = b.name := congrArg Declaration.name pair.1
  show (as.lookup a.name).getD a.value = (bs.lookup b.name).getD b.value
  rw [same a.name member,pair.2 member,names]

theorem agree_find? (agree : AllAgree kept xs ys) {name : String} (member : kept name) :
    (xs.find? (·.name = name)).map Setting.value = (ys.find? (·.name = name)).map Setting.value := by
  induction agree with
  | nil => rfl
  | @cons a b _ _ first _ ih =>
    have names : a.name = b.name := congrArg Declaration.name first.1
    rw [List.find?_cons,List.find?_cons,← names]
    by_cases same : a.name = name
    · simp [same,first.2 (same.symm ▸ member)]
    · simpa [same] using ih

theorem agree_snapshot (agree : AllAgree kept s.declared t.declared) : s.snapshot.Agree kept t.snapshot := by
  intro name member
  rw [lookup_snapshot,lookup_snapshot]
  exact agree_find? (List.forall₂_reverse_iff.mpr agree) member

end Settings

namespace Registry

/-- Registries that have the same values under some names: `kept` are these names, and settings that are declared
    from now on have names in `fresh`. The overrides may differ under other names, as no setting asks for these. -/
structure Alike (kept fresh : String → Prop) (r q : Registry) : Prop where
  settings : Settings.AllAgree kept r.settings.declared q.settings.declared
  overrides : r.settings.overrides.Agree (fun name => fresh name ∧ kept name) q.settings.overrides
  snapshots : List.Forall₂ (fun a b => a.1 = b.1 ∧ a.2.Agree kept b.2) r.snapshots q.snapshots

theorem agree_lookup {kept : String → Prop} {xs ys : List (String × NamedValues)}
    (agree : List.Forall₂ (fun a b => a.1 = b.1 ∧ a.2.Agree kept b.2) xs ys) (name : String) :
    Option.Rel (NamedValues.Agree kept) (xs.lookup name) (ys.lookup name) := by
  induction agree with
  | nil => exact .none
  | @cons a b _ _ first _ ih =>
    rw [List.lookup_cons,List.lookup_cons,← first.1]
    cases name == a.1 with
    | true => exact .some first.2
    | false => exact ih

namespace Alike
variable {kept fresh : String → Prop} {r q : Registry}

theorem declare (alike : Alike kept fresh r q) {d : Declaration} (new : fresh d.name) :
    Alike kept fresh (r.step (.declare d)).1 (q.step (.declare d)).1 where
  settings := by
    refine List.rel_append alike.settings (.cons ⟨rfl,fun member => ?_⟩ .nil)
    show (r.settings.overrides.lookup d.name).getD d.default = (q.settings.overrides.lookup d.name).getD d.default
    rw [alike.overrides d.name ⟨new,member⟩]
  overrides := alike.overrides
  snapshots := alike.snapshots

/-- There is something to restore in both, or in neither. -/
theorem valuesFrom? (alike : Alike kept fresh r q) (source : RestoredFrom) :
    Option.Rel (NamedValues.Agree kept) (r.valuesFrom? source) (q.valuesFrom? source) := by
  cases source with
  | values taken => exact .some fun _ _ => rfl
  | snapshot name => exact agree_lookup alike.snapshots name

theorem restore (alike : Alike kept fresh r q) (source : RestoredFrom) :
    Alike kept fresh (r.step (.restore source)).1 (q.step (.restore source)).1 := by
  have sources := alike.valuesFrom? source
  rw [Registry.step,Registry.step]
  generalize r.valuesFrom? source = here at sources ⊢
  generalize q.valuesFrom? source = there at sources ⊢
  cases sources with
  | none => exact alike
  | some same =>
    exact ⟨Settings.agree_restore alike.settings same,fun name names => same name names.2,alike.snapshots⟩

theorem step (alike : Alike kept fresh r q) {s : SettingsStep} (new : ∀ d, s = .declare d → fresh d.name) :
    Alike kept fresh (r.step s).1 (q.step s).1 := by
  cases s with
  | declare d => exact alike.declare (new d rfl)
  | set place v => exact ⟨Settings.agree_modify alike.settings place v,alike.overrides,alike.snapshots⟩
  | read values => exact ⟨Settings.agree_readFrom alike.settings values,alike.overrides,alike.snapshots⟩
  | snapshot name =>
    have same := Settings.agree_snapshot alike.settings
    exact ⟨alike.settings,alike.overrides,.cons ⟨rfl,same⟩ alike.snapshots⟩
  | restore source => exact alike.restore source

theorem run (alike : Alike kept fresh r q) {steps : List SettingsStep}
    (new : ∀ d, .declare d ∈ steps → fresh d.name) : Alike kept fresh (r.run steps) (q.run steps) := by
  induction steps generalizing r q with
  | nil => exact alike
  | cons first later ih =>
    refine ih (alike.step fun d same => new d (same ▸ List.mem_cons_self)) fun d member => ?_
    exact new d (List.mem_cons_of_mem _ member)

end Alike

/-- Only a restore changes which values decide over later defaults. -/
theorem overrides_run (r : Registry) {steps : List SettingsStep}
    (unrestored : ∀ source, .restore source ∉ steps) :
    (r.run steps).settings.overrides = r.settings.overrides := by
  induction steps generalizing r with
  | nil => rfl
  | cons first later ih =>
    have same : (r.step first).1.settings.overrides = r.settings.overrides := by
      cases first with
      | restore source => exact absurd List.mem_cons_self (unrestored source)
      | _ => rfl
    exact (ih _ fun source member => unrestored source (List.mem_cons_of_mem _ member)).trans same

/-! ### A snapshot that is restored at once -/

section Restored
variable (r : Registry) (earlier : List SettingsStep) (name : String)

theorem run_snapshot : r.run (earlier ++ [.snapshot name]) =
    { r.run earlier with
      snapshots := (name,(r.run earlier).settings.snapshot) :: (r.run earlier).snapshots } :=
  r.run_append earlier _

theorem run_restored_snapshot : r.run (earlier ++ [.snapshot name,.restore (.snapshot name)]) =
    { r.run (earlier ++ [.snapshot name]) with
      settings := (r.run earlier).settings.restore (r.run earlier).settings.snapshot } := by
  have found : (r.run (earlier ++ [.snapshot name])).valuesFrom? (.snapshot name) =
      some (r.run earlier).settings.snapshot := by
    rw [run_snapshot,valuesFrom?,List.lookup_cons_self]
  rw [List.append_cons,run_append]
  show ((r.run (earlier ++ [.snapshot name])).step (.restore (.snapshot name))).1 = _
  rw [step_restore found,run_snapshot]

/-- With a snapshot that is restored at once all is as it is without, under the names that are new and open if
    settings are declared with them. -/
theorem alike_restored_snapshot (distinct : (r.run earlier).settings.names.Nodup) (fresh : String → Prop) :
    Alike (fun name => fresh name → (r.run earlier).settings.Open name) fresh
      (r.run (earlier ++ [.snapshot name,.restore (.snapshot name)])) (r.run (earlier ++ [.snapshot name])) := by
  rw [run_restored_snapshot,run_snapshot]
  constructor
  · show Settings.AllAgree _ ((r.run earlier).settings.restore (r.run earlier).settings.snapshot).declared _
    rw [Settings.declared_restore_snapshot distinct]
    exact List.forall₂_same.mpr fun _ _ => ⟨rfl,fun _ => rfl⟩
  · rintro name ⟨new,unclaimed⟩
    obtain ⟨undeclared,unfixed⟩ := unclaimed new
    exact (Settings.lookup_snapshot_of_not_mem undeclared).trans unfixed.symm
  · exact List.forall₂_same.mpr fun _ _ => ⟨rfl,fun _ _ => rfl⟩

end Restored

/-- In the course of any run, settings with different names are not changed when a snapshot of them is taken and
    restored at once. However the run goes on, all settings are then as they would be without the restore, but for
    those with a name that is declared later although it was declared before, or a value had been fixed for it by
    an earlier restore. What was fixed is forgotten: until there is another restore, a setting that is declared
    starts with its default, or with the value of the setting that had its name. -/
theorem restored_snapshot_total_correct (r : Registry) (earlier : List SettingsStep) (name : String)
    (distinct : (r.run earlier).settings.names.Nodup) :
    let s := (r.run earlier).settings
    let taken := r.run (earlier ++ [.snapshot name])
    let restored := r.run (earlier ++ [.snapshot name,.restore (.snapshot name)])
    taken.settings = s ∧ restored.settings.declared = s.declared ∧
    (∀ later, Settings.AllAgree (fun name => (∃ d, .declare d ∈ later ∧ d.name = name) → s.Open name)
      (restored.run later).settings.declared (taken.run later).settings.declared) ∧
    ∀ later, (∀ source, .restore source ∉ later) → ∀ d : Declaration, ∃ v,
      ((restored.run later).settings.declare d).declared = (restored.run later).settings.declared ++ [⟨d,v⟩] ∧
      (d.name ∉ s.names → v = d.default) ∧
      ∀ setting ∈ s.declared, setting.name = d.name → v = setting.value := by
  intro s taken restored
  have restoring : restored.settings = s.restore s.snapshot :=
    congrArg (·.settings) (r.run_restored_snapshot earlier name)
  have taking : taken.settings = s := congrArg (·.settings) (r.run_snapshot earlier name)
  refine ⟨taking,?_,?_,?_⟩
  · rw [restoring,Settings.declared_restore_snapshot distinct]
  · intro later
    have alike := r.alike_restored_snapshot earlier name distinct fun name =>
      ∃ d, .declare d ∈ later ∧ d.name = name
    exact (alike.run fun d member => ⟨d,member,rfl⟩).settings
  · intro later unrestored d
    have overrides : (restored.run later).settings.overrides = s.snapshot := by
      rw [overrides_run restored unrestored,restoring]
      rfl
    refine ⟨(s.snapshot.lookup d.name).getD d.default,?_,?_,?_⟩
    · rw [Settings.declare,overrides]
    · intro new
      rw [Settings.lookup_snapshot_of_not_mem new]
      rfl
    · intro setting member same
      rw [← same,Settings.lookup_snapshot_of_mem distinct member]
      rfl

/-- A text setting that was changed, and a value that was fixed for a setting not declared yet. -/
theorem restored_snapshot_with_fixed_value : let r : Registry := ⟨.empty,[]⟩
    let earlier : List SettingsStep := [.restore (.values [("late",.integer 5)]),
      .declare ⟨"title",.text,.text "old",none,none⟩,.set 0 (.text "new")]
    let s := (r.run earlier).settings
    let taken := r.run (earlier ++ [.snapshot "now"])
    let restored := r.run (earlier ++ [.snapshot "now",.restore (.snapshot "now")])
    s.names.Nodup ∧ taken.settings = s ∧ restored.settings.declared = s.declared ∧
    (∀ later, Settings.AllAgree (fun name => (∃ d, .declare d ∈ later ∧ d.name = name) → s.Open name)
      (restored.run later).settings.declared (taken.run later).settings.declared) ∧
    ∀ later, (∀ source, .restore source ∉ later) → ∀ d : Declaration, ∃ v,
      ((restored.run later).settings.declare d).declared = (restored.run later).settings.declared ++ [⟨d,v⟩] ∧
      (d.name ∉ s.names → v = d.default) ∧
      ∀ setting ∈ s.declared, setting.name = d.name → v = setting.value := by
  intro r earlier s taken restored
  have distinct : s.names.Nodup := List.nodup_singleton "title"
  exact ⟨distinct,restored_snapshot_total_correct r earlier "now" distinct⟩

/-- A value that was fixed for a setting before its declaration is lost when a snapshot is taken and restored at
    once. -/
theorem restored_snapshot_forgets_values :
    ¬ ∀ (r : Registry) (earlier : List SettingsStep) (name : String) (d : Declaration),
      (r.run earlier).settings.names.Nodup → d.name ∉ (r.run earlier).settings.names →
        (r.run (earlier ++ [.snapshot name,.restore (.snapshot name),.declare d])).settings.declared =
          (r.run (earlier ++ [.snapshot name,.declare d])).settings.declared := by
  intro unobservable
  have same := unobservable ⟨.empty,[]⟩ [.restore (.values [("late",.integer 5)])] "now"
    ⟨"late",.integer,.integer 1,none,none⟩ .nil (List.not_mem_nil)
  have values : ([.integer 1] : List Value) = [.integer 5] := congrArg (List.map Setting.value) same
  simp at values

end Registry
end Bezout
