import Mathlib
import Bezout.Settings

/-!
Values given to settings by name, as they come from an argument vector. A setting is given what stands under
the name of its option (`Declaration.Given`), or there is a reason why it is not (`Declaration.Withheld`).
Settings are given their values in the order of their declaration, up to the first that none is given to.
-/
namespace Bezout
namespace Declaration
variable {d : Declaration} {values : NamedValues} {v w : Value} {cause : Fault}

/-- The value that named values give to a setting: to a flag that is on by default the contrary of what stands
    under the name of its option, to an integer setting the integer that this is read as, and to all other
    settings what stands there. -/
inductive Given (d : Declaration) (values : NamedValues) : Value → Prop
  | switched {w : Value} (found : values.lookup (underscored d.optionName) = some w) (flag : d.kind = .flag)
      (on : d.default.isTrue = true) : Given d values (.boolean (!w.isTrue))
  | converted {w : Value} {n : ℤ} (found : values.lookup (underscored d.optionName) = some w)
      (integer : d.kind = .integer) (readable : w.toInteger = .ok n) : Given d values (.integer n)
  | plain {w : Value} (found : values.lookup (underscored d.optionName) = some w)
      (other : d.kind = .text ∨ d.kind = .flag ∧ d.default.isTrue = false) : Given d values w

/-- Why named values give no value to a setting: nothing stands under the name of its option, or what stands
    there is read as no integer where the setting asks for one. -/
inductive Withheld (d : Declaration) (values : NamedValues) : Fault → Prop
  | missing (absent : values.lookup (underscored d.optionName) = none) : Withheld d values .missingPart
  | unreadable {w : Value} {cause : Fault} (found : values.lookup (underscored d.optionName) = some w)
      (integer : d.kind = .integer) (fails : w.toInteger = .error cause) : Withheld d values cause

/-! ### What the lookup comes to -/

theorem valueIn_of_missing (absent : values.lookup (underscored d.optionName) = none) :
    d.valueIn values = .error .missingPart := by
  rw [valueIn,absent]

theorem valueIn_of_integer (found : values.lookup (underscored d.optionName) = some w)
    (integer : d.kind = .integer) : d.valueIn values = w.toInteger.map .integer := by
  simp [valueIn,found,integer]

theorem valueIn_of_flag (found : values.lookup (underscored d.optionName) = some w) (flag : d.kind = .flag) :
    d.valueIn values = .ok (if d.default.isTrue then .boolean (!w.isTrue) else w) := by
  simp [valueIn,found,flag]

theorem valueIn_of_text (found : values.lookup (underscored d.optionName) = some w) (text : d.kind = .text) :
    d.valueIn values = .ok w := by
  simp [valueIn,found,text]

theorem Given.valueIn (given : d.Given values v) : d.valueIn values = .ok v := by
  cases given with
  | switched found flag on => rw [valueIn_of_flag found flag,if_pos on]
  | converted found integer readable =>
    rw [valueIn_of_integer found integer,readable]
    rfl
  | plain found other =>
    rcases other with text | ⟨flag,off⟩
    · exact valueIn_of_text found text
    · rw [valueIn_of_flag found flag,if_neg (Bool.not_eq_true _ ▸ off)]

theorem Withheld.valueIn (withheld : d.Withheld values cause) : d.valueIn values = .error cause := by
  cases withheld with
  | missing absent => exact valueIn_of_missing absent
  | unreadable found integer fails =>
    rw [valueIn_of_integer found integer,fails]
    rfl

/-- A setting is given a value, or there is a reason why it is not. -/
theorem given_or_withheld (d : Declaration) (values : NamedValues) :
    (∃ v, d.Given values v) ∨ ∃ cause, d.Withheld values cause := by
  cases found : values.lookup (underscored d.optionName) with
  | none => exact .inr ⟨_,.missing found⟩
  | some w =>
    cases kind : d.kind with
    | text => exact .inl ⟨w,.plain found (.inl kind)⟩
    | flag =>
      cases on : d.default.isTrue with
      | true => exact .inl ⟨_,.switched found kind on⟩
      | false => exact .inl ⟨w,.plain found (.inr ⟨kind,on⟩)⟩
    | integer =>
      cases read : w.toInteger with
      | ok n => exact .inl ⟨_,.converted found kind read⟩
      | error cause => exact .inr ⟨cause,.unreadable found kind read⟩

theorem Withheld.not_given (withheld : d.Withheld values cause) : ¬ d.Given values v := by
  intro given
  have found := given.valueIn
  rw [withheld.valueIn] at found
  cases found

end Declaration

namespace Settings
variable {values : NamedValues}

/-- A setting before and after named values gave it its value. -/
def GivenFrom (values : NamedValues) (old new : Setting) : Prop :=
  new.toDeclaration = old.toDeclaration ∧ old.Given values new.value

/-- What settings are when they are read, and the fault that this stops with. -/
inductive ReadsTo (values : NamedValues) : List Setting → List Setting → Option Fault → Prop
  | all {old new : List Setting} (given : List.Forall₂ (GivenFrom values) old new) : ReadsTo values old new none
  /-- The setting that reading stops at and those behind it stay as they are. -/
  | stopped {front new behind : List Setting} {setting : Setting} {cause : Fault}
      (given : List.Forall₂ (GivenFrom values) front new) (withheld : setting.Withheld values cause) :
      ReadsTo values (front ++ setting :: behind) (new ++ setting :: behind) (some cause)

/-- A setting in front that is given a value is read as well. -/
theorem ReadsTo.cons {setting : Setting} {v : Value} {rest new : List Setting} {fault : Option Fault}
    (given : setting.Given values v) (later : ReadsTo values rest new fault) :
    ReadsTo values (setting :: rest) ({ setting with value := v } :: new) fault := by
  have first : GivenFrom values setting { setting with value := v } := ⟨rfl,given⟩
  cases later with
  | all others => exact .all (.cons first others)
  | stopped others withheld => exact .stopped (.cons first others) withheld

theorem readFrom_readsTo (values : NamedValues) (settings : List Setting) :
    ReadsTo values settings (readFrom values settings).1 (readFrom values settings).2 := by
  induction settings with
  | nil => exact .all .nil
  | cons setting rest ih =>
    rcases setting.given_or_withheld values with ⟨v,given⟩ | ⟨cause,withheld⟩
    · rw [readFrom,given.valueIn]
      exact ih.cons given
    · rw [readFrom,withheld.valueIn]
      exact .stopped .nil withheld

theorem exists_given {old new : List Setting} (given : List.Forall₂ (GivenFrom values) old new) :
    ∀ setting ∈ old, ∃ v, setting.Given values v := by
  induction given with
  | nil => exact List.forall_mem_nil _
  | cons first _ ih => exact List.forall_mem_cons.mpr ⟨⟨_,first.2⟩,ih⟩

/-- Reading ends without a fault exactly if all settings are given values. -/
theorem ReadsTo.fault_eq_none_iff {old new : List Setting} {fault : Option Fault}
    (reads : ReadsTo values old new fault) :
    fault = none ↔ ∀ setting ∈ old, ∃ v, setting.Given values v := by
  cases reads with
  | all given => exact iff_of_true rfl (exists_given given)
  | stopped _ withheld =>
    refine iff_of_false (Option.some_ne_none _) fun all => ?_
    obtain ⟨v,given⟩ := all _ (List.mem_append_right _ List.mem_cons_self)
    exact withheld.not_given given

/-- Settings are read in the order of their declaration. If all are given values, each has the value that it is
    given. Otherwise the first that there is none for is at fault: those declared before it have the values that
    they are given, it and those declared after it have the values that they had. -/
theorem read_total_correct (s : Settings) (values : NamedValues) :
    ReadsTo values s.declared (s.read values).1.declared (s.read values).2 ∧
    (s.read values).1.overrides = s.overrides ∧
    ((s.read values).2 = none ↔ ∀ setting ∈ s.declared, ∃ v, setting.Given values v) :=
  ⟨readFrom_readsTo values s.declared,rfl,(readFrom_readsTo values s.declared).fault_eq_none_iff⟩

/-- A reading that stops at a text that is no integer may have changed settings in front of it. -/
theorem faulty_read_changes_settings :
    ¬ ∀ (s : Settings) (spec : ArgumentSpec) (args : List String) (values : NamedValues) (text : String),
      s.addOptions ⟨[],[]⟩ = .ok spec → spec.read args = .values values →
        (s.read values).2 = some (.notInteger text) →
          (s.read values).1.declared.map Setting.value = s.declared.map Setting.value := by
  intro unchanged
  let s := (empty.declare ⟨"title",.text,.text "old",none,none⟩).declare
    ⟨"count",.integer,.integer 3,none,none⟩
  let values : NamedValues := [("title",.text "new"),("count",.text "many")]
  have fault : (s.read values).2 = some (.notInteger "many") := by cbv
  have changed : (s.read values).1.declared.map Setting.value = [.text "new",.integer 3] := by cbv
  have same := unchanged s _ ["--title","new","--count","many"] values "many" (by cbv) (by cbv) fault
  have titles : ([.text "new",.integer 3] : List Value) = [.text "old",.integer 3] := changed.symm.trans same
  simp at titles

end Settings
end Bezout
