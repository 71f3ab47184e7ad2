import Bezout.Annotation
import Bezout.Proofs.Outcomes

/-!
Values against annotations. A mismatch has a path, the indices of the entries that lead to it, and checking a
value reports the mismatch whose path comes first in lexicographic order (`Annotation.check_eq_error_iff`).
A call reports the first argument with a mismatch, the arguments by position before those by name, and then
does nothing else (`Signature.call_of_refused`).
-/
namespace Bezout
namespace Annotation

/-! ### What fits -/

/-- A value fits an annotation if that requires nothing, names a kind of the value, or annotates as many
    entries as the value has and each of them fits. -/
inductive Fits : Annotation → Value → Prop
  | any (v : Value) : Fits .any v
  | kind {k : Kind} {v : Value} (isOf : v.isOf k = true) : Fits (.kind k) v
  | tuple {entries : List Annotation} {items : List Value} (length : items.length = entries.length)
      (fit : ∀ (i : ℕ) (a : Annotation) (v : Value), entries[i]? = some a → items[i]? = some v → Fits a v) :
      Fits (.tuple entries) (.tuple items)

/-- What a path leads to in an annotation and a value. A tuple is entered only if it has as many entries as
    its annotation. -/
inductive Reaches : Annotation → Value → List ℕ → Annotation → Value → Prop
  | here (a : Annotation) (v : Value) : Reaches a v [] a v
  | entry {entries : List Annotation} {items : List Value} {i : ℕ} {a b : Annotation} {v w : Value}
      {path : List ℕ} (length : items.length = entries.length) (element : entries[i]? = some a)
      (item : items[i]? = some v) (inside : Reaches a v path b w) :
      Reaches (.tuple entries) (.tuple items) (i :: path) b w

/-- A value that is of another kind or length than its annotation requires, whatever its entries are. -/
inductive Clash (label : String) : Annotation → Value → Fault → Prop
  | kind {k : Kind} {v : Value} (other : v.isOf k = false) :
      Clash label (.kind k) v (.wrongKind label v.kindOf k)
  | single {entries : List Annotation} {v : Value} (other : v.kindOf ≠ .tuple) :
      Clash label (.tuple entries) v (.wrongKind label v.kindOf .tuple)
  | length {entries : List Annotation} {items : List Value} (other : items.length ≠ entries.length) :
      Clash label (.tuple entries) (.tuple items) (.wrongLength label items.length entries.length)

/-- The name of what a path leads to: each index in brackets behind the name of the whole. -/
def labelAt (label : String) (path : List ℕ) : String := path.foldl (fun name i => s!"{name}[{i}]") label

/-- The fault of what a path leads to, under its name. -/
def Mismatch (label : String) (a : Annotation) (v : Value) (path : List ℕ) (fault : Fault) : Prop :=
  ∃ b w, Reaches a v path b w ∧ Clash (labelAt label path) b w fault

/-- The mismatch that comes first when the entries are gone through from left to right, each with all that is
    inside it. -/
def FirstMismatch (label : String) (a : Annotation) (v : Value) (fault : Fault) : Prop :=
  ∃ path, Mismatch label a v path fault ∧
    ∀ other cause, Mismatch label a v other cause → other = path ∨ List.Lex (· < ·) path other

variable {a b : Annotation} {v w : Value} {label : String} {path : List ℕ} {fault : Fault}

theorem Fits.of_reaches (fits : a.Fits v) (reaches : Reaches a v path b w) : b.Fits w := by
  induction reaches with
  | here => exact fits
  | entry _ element item _ ih =>
    cases fits with
    | tuple _ fit => exact ih (fit _ _ _ element item)

theorem Clash.not_fits (clash : Clash label a v fault) : ¬ a.Fits v := by
  intro fits
  cases clash with
  | kind other =>
    cases fits with
    | kind isOf =>
      rw [isOf] at other
      cases other
  | single other =>
    cases fits with
    | tuple => exact other rfl
  | length other =>
    cases fits with
    | tuple length => exact other length

/-- What fits has no mismatch. -/
theorem Fits.not_mismatch (fits : a.Fits v) : ¬ Mismatch label a v path fault := by
  rintro ⟨b,w,reaches,clash⟩
  exact clash.not_fits (fits.of_reaches reaches)

theorem Reaches.unique {c : Annotation} {x : Value} (first : Reaches a v path b w)
    (second : Reaches a v path c x) : b = c ∧ w = x := by
  induction first with
  | here =>
    cases second
    exact ⟨rfl,rfl⟩
  | entry _ element item _ ih =>
    cases second with
    | entry _ element' item' inside =>
      cases element.symm.trans element'
      cases item.symm.trans item'
      exact ih inside

theorem Clash.unique {cause : Fault} (first : Clash label a v fault) (second : Clash label a v cause) :
    fault = cause := by
  cases first with
  | kind =>
    cases second
    rfl
  | single other =>
    cases second with
    | single => rfl
    | length => exact absurd rfl other
  | length =>
    cases second with
    | single other => exact absurd rfl other
    | length => rfl

/-- There is one first mismatch at most. -/
theorem FirstMismatch.unique {cause : Fault} (first : FirstMismatch label a v fault)
    (second : FirstMismatch label a v cause) : fault = cause := by
  obtain ⟨path,⟨b,w,reaches,clash⟩,least⟩ := first
  obtain ⟨other,⟨c,x,reaches',clash'⟩,least'⟩ := second
  have same : other = path := by
    rcases least other cause ⟨c,x,reaches',clash'⟩ with same | before
    · exact same
    · rcases least' path fault ⟨b,w,reaches,clash⟩ with same | after
      · exact same.symm
      · exact absurd after (asymm before)
  subst same
  obtain ⟨rfl,rfl⟩ := reaches.unique reaches'
  exact clash.unique clash'

/-! ### What is reported -/

/-- A clash at the top comes before all that is inside. -/
theorem Clash.firstMismatch (clash : Clash label a v fault) : FirstMismatch label a v fault :=
  ⟨[],⟨a,v,.here a v,clash⟩,fun other _ _ => (List.lex_nil_or_eq_nil other).symm⟩

/-- Entries are checked one after the other up to the first with a mismatch. -/
theorem checkEntries_cases (label : String) (i : ℕ) (entries : List Annotation) (items : List Value) :
    (checkEntries label i entries items = .ok () ∧
      ∀ (j : ℕ) a v, entries[j]? = some a → items[j]? = some v → check s!"{label}[{i + j}]" a v = .ok ()) ∨
    ∃ (j : ℕ) (a : Annotation) (v : Value) (fault : Fault), entries[j]? = some a ∧ items[j]? = some v ∧
      check s!"{label}[{i + j}]" a v = .error fault ∧ checkEntries label i entries items = .error fault ∧
      ∀ k < j, ∀ b w, entries[k]? = some b → items[k]? = some w → check s!"{label}[{i + k}]" b w = .ok () := by
  induction entries generalizing i items with
  | nil => exact .inl ⟨by simp [checkEntries],nofun⟩
  | cons a entries ih =>
    cases items with
    | nil => exact .inl ⟨by simp [checkEntries],nofun⟩
    | cons v items =>
      have shift : ∀ j, i + 1 + j = i + (j + 1) := by omega
      cases first : check s!"{label}[{i}]" a v with
      | error fault =>
        refine .inr ⟨0,a,v,fault,rfl,rfl,first,?_,fun k before => absurd before (Nat.not_lt_zero k)⟩
        rw [checkEntries,first]
      | ok =>
        rw [checkEntries,first]
        -- The entry at `i` fits, and those behind it keep their places.
        have from_first : ∀ j (passed : ∀ k < j, ∀ b w, entries[k]? = some b → items[k]? = some w →
            check s!"{label}[{i + 1 + k}]" b w = .ok ()), ∀ k < j + 1, ∀ b w,
            (a :: entries)[k]? = some b → (v :: items)[k]? = some w → check s!"{label}[{i + k}]" b w = .ok () := by
          rintro j passed (_ | k) before b w element item
          · cases element
            cases item
            exact first
          · rw [← shift]
            exact passed k (by omega) b w element item
        rcases ih (i + 1) items with ⟨ended,passed⟩ | ⟨j,b,w,fault,element,item,failed,ended,passed⟩
        · exact .inl ⟨ended,fun k => from_first k (fun k _ => passed k) k (Nat.lt_succ_self k)⟩
        · exact .inr ⟨j + 1,b,w,fault,element,item,shift j ▸ failed,ended,from_first j passed⟩

/-- The first mismatch of a tuple is that of its first entry with one. -/
theorem FirstMismatch.entry {entries : List Annotation} {items : List Value} {i : ℕ}
    (length : items.length = entries.length) (element : entries[i]? = some a) (item : items[i]? = some v)
    (before : ∀ k < i, ∀ b w, entries[k]? = some b → items[k]? = some w → b.Fits w)
    (first : FirstMismatch s!"{label}[{i}]" a v fault) :
    FirstMismatch label (.tuple entries) (.tuple items) fault := by
  obtain ⟨path,⟨b,w,reaches,clash⟩,least⟩ := first
  refine ⟨i :: path,⟨b,w,.entry length element item reaches,clash⟩,?_⟩
  rintro other cause ⟨c,x,reaches',clash'⟩
  cases reaches' with
  | here =>
    cases clash' with
    | single tuple => exact absurd rfl tuple
    | length different => exact absurd length different
  | @entry _ _ k b' _ w' _ path' _ element' item' inside =>
    rcases lt_trichotomy i k with earlier | rfl | later
    · exact .inr (.rel earlier)
    · cases element.symm.trans element'
      cases item.symm.trans item'
      rcases least path' cause ⟨c,x,inside,clash'⟩ with rfl | before
      · exact .inl rfl
      · exact .inr (.cons before)
    · exact absurd ⟨c,x,inside,clash'⟩ (before k later b' w' element' item').not_mismatch

theorem exists_items_of_kindOf (tuple : v.kindOf = .tuple) : ∃ items, v = .tuple items := by
  cases v with
  | tuple items => exact ⟨items,rfl⟩
  | number n => cases n <;> cases tuple
  | ring r => cases r <;> cases tuple
  | _ => cases tuple

/-- Either a value fits, or its first mismatch is reported. -/
theorem check_cases (label : String) (a : Annotation) (v : Value) :
    (check label a v = .ok () ∧ a.Fits v) ∨
      ∃ fault, check label a v = .error fault ∧ FirstMismatch label a v fault := by
  cases a with
  | any => exact .inl ⟨by simp [check],.any v⟩
  | kind k =>
    rw [check]
    cases isOf : v.isOf k with
    | true => exact .inl ⟨rfl,.kind isOf⟩
    | false => exact .inr ⟨_,rfl,(Clash.kind isOf).firstMismatch⟩
  | tuple entries =>
    by_cases tuple : v.kindOf = .tuple
    · obtain ⟨items,rfl⟩ := exists_items_of_kindOf tuple
      rw [check]
      by_cases length : items.length = entries.length
      · rw [if_pos length]
        -- An entry that is checked without a fault fits.
        have fits : ∀ (k : ℕ) b w, entries[k]? = some b → items[k]? = some w →
            check s!"{label}[{0 + k}]" b w = .ok () → b.Fits w := by
          intro k b w element item passed
          have smaller := List.sizeOf_lt_of_mem (List.mem_of_getElem? element)
          rcases check_cases s!"{label}[{0 + k}]" b w with ⟨-,fits⟩ | ⟨fault,failed,-⟩
          · exact fits
          · cases passed.symm.trans failed
        rcases checkEntries_cases label 0 entries items with ⟨ended,passed⟩ |
          ⟨i,b,w,fault,element,item,failed,ended,passed⟩
        · exact .inl ⟨ended,.tuple length fun k b w element item =>
            fits k b w element item (passed k b w element item)⟩
        · have smaller := List.sizeOf_lt_of_mem (List.mem_of_getElem? element)
          rcases check_cases s!"{label}[{0 + i}]" b w with ⟨ok,-⟩ | ⟨cause,reported,first⟩
          · cases failed.symm.trans ok
          · cases failed.symm.trans reported
            rw [Nat.zero_add] at first
            exact .inr ⟨fault,ended,.entry length element item (fun k before b w element item =>
              fits k b w element item (passed k before b w element item)) first⟩
      · rw [if_neg length]
        exact .inr ⟨_,rfl,(Clash.length length).firstMismatch⟩
    · have failed : check label (.tuple entries) v = .error (.wrongKind label v.kindOf .tuple) := by
        rw [check]
        rintro items rfl
        exact tuple rfl
      exact .inr ⟨_,failed,(Clash.single tuple).firstMismatch⟩
termination_by sizeOf a
decreasing_by
  all_goals
    have whole := Annotation.tuple.sizeOf_spec entries
    subst_vars
    omega

theorem check_eq_ok_iff : check label a v = .ok () ↔ a.Fits v := by
  rcases check_cases label a v with ⟨passed,fits⟩ | ⟨fault,failed,path,mismatch,-⟩
  · exact iff_of_true passed fits
  · refine iff_of_false ?_ fun fits => fits.not_mismatch mismatch
    rw [failed]
    exact nofun

theorem check_eq_error_iff : check label a v = .error fault ↔ FirstMismatch label a v fault := by
  rcases check_cases label a v with ⟨passed,fits⟩ | ⟨cause,failed,first⟩
  · rw [passed]
    refine iff_of_false nofun ?_
    rintro ⟨path,mismatch,-⟩
    exact fits.not_mismatch mismatch
  · rw [failed]
    constructor
    · rintro ⟨⟩
      exact first
    · intro also
      rw [first.unique also]

/-- A message about a kind or a length starts with the name of the value. -/
theorem Clash.message (clash : Clash label a v fault) : ∃ rest, fault.message = label ++ " has " ++ rest := by
  have kinds : ∀ found expected : Kind, (Fault.wrongKind label found expected).message =
      label ++ " has " ++ ("type " ++ found.name ++ ", not " ++ expected.name) := by
    intro found expected
    have has : " has type " = " has " ++ "type " := rfl
    show label ++ " has type " ++ found.name ++ ", not " ++ expected.name = _
    simp only [has,String.append_assoc]
  cases clash with
  | kind => exact ⟨_,kinds _ _⟩
  | single => exact ⟨_,kinds _ _⟩
  | @length entries items =>
    refine ⟨toString items.length ++ " entries, not " ++ toString entries.length,?_⟩
    show label ++ " has " ++ toString items.length ++ " entries, not " ++ toString entries.length = _
    simp only [String.append_assoc]

end Annotation

/-! ### Calls -/

/-- An argument of a call with its annotation. -/
structure Argument where
  label : String
  annotation : Annotation
  value : Value

namespace Argument

/-- Checks arguments one after the other. -/
def checkAll : List Argument → Except Fault Unit
  | [] => .ok ()
  | x :: rest =>
    match x.annotation.check x.label x.value with
    | .ok _ => checkAll rest
    | .error fault => .error fault

/-- The first argument that does not fit has a fault for its first mismatch. -/
def FirstRefused (arguments : List Argument) (fault : Fault) : Prop :=
  ∃ before x after, arguments = before ++ x :: after ∧ (∀ y ∈ before, y.annotation.Fits y.value) ∧
    x.annotation.FirstMismatch x.label x.value fault

theorem checkAll_append (first second : List Argument) : checkAll (first ++ second) =
    match checkAll first with
    | .ok _ => checkAll second
    | .error fault => .error fault := by
  induction first with
  | nil => rfl
  | cons x rest ih =>
    rw [List.cons_append,checkAll,checkAll]
    cases x.annotation.check x.label x.value with
    | ok => exact ih
    | error => rfl

/-- Either all arguments fit, or the first that does not is reported. -/
theorem checkAll_cases (arguments : List Argument) :
    (checkAll arguments = .ok () ∧ ∀ x ∈ arguments, x.annotation.Fits x.value) ∨
      ∃ fault, checkAll arguments = .error fault ∧ FirstRefused arguments fault := by
  induction arguments with
  | nil => exact .inl ⟨rfl,nofun⟩
  | cons x rest ih =>
    rw [checkAll]
    rcases Annotation.check_cases x.label x.annotation x.value with ⟨passed,fits⟩ | ⟨fault,failed,first⟩
    · rw [passed]
      rcases ih with ⟨ended,others⟩ | ⟨fault,failed,before,y,after,rfl,others,first⟩
      · exact .inl ⟨ended,List.forall_mem_cons.mpr ⟨fits,others⟩⟩
      · exact .inr ⟨fault,failed,x :: before,y,after,rfl,List.forall_mem_cons.mpr ⟨fits,others⟩,first⟩
    · rw [failed]
      exact .inr ⟨fault,rfl,[],x,rest,rfl,nofun,first⟩

end Argument

namespace Signature

/-- The arguments of a call in the order in which they are checked: those by position with the parameters in
    their order, then those by name in the order of the call. -/
def arguments (s : Signature) (positional : List Value) (named : List (String × Value)) : List Argument :=
  (s.parameters.zip positional).map (fun (p,v) => ⟨p.name, p.annotation, v⟩) ++
    named.map fun (name,v) => ⟨name,s.annotationOf name,v⟩

theorem checkPositional_eq (parameters : List Parameter) (values : List Value) :
    checkPositional parameters values =
      Argument.checkAll ((parameters.zip values).map fun (p,v) => ⟨p.name, p.annotation, v⟩) := by
  induction parameters generalizing values with
  | nil => simp [checkPositional,Argument.checkAll]
  | cons p parameters ih =>
    cases values with
    | nil => simp [checkPositional,Argument.checkAll]
    | cons v values =>
      rw [checkPositional,List.zip_cons_cons,List.map_cons,Argument.checkAll]
      cases p.annotation.check p.name v with
      | ok => exact ih values
      | error => rfl

theorem checkNamed_eq (s : Signature) (named : List (String × Value)) :
    s.checkNamed named = Argument.checkAll (named.map fun (name,v) => ⟨name,s.annotationOf name,v⟩) := by
  induction named with
  | nil => rfl
  | cons entry named ih =>
    obtain ⟨name,v⟩ := entry
    rw [checkNamed,List.map_cons,Argument.checkAll]
    cases (s.annotationOf name).check name v with
    | ok => exact ih
    | error => rfl

/-- What is left of a call whose arguments fit: its report is that of the body, and its outcome the fault or
    the result of the body, unless that result does not fit. -/
structure Returns (s : Signature) (body called : Work Value) : Prop where
  report : called.report = body.report
  failed : ∀ fault, body.outcome = .error fault → called.outcome = .error fault
  fitting : ∀ v, body.outcome = .ok v → s.result.Fits v → called.outcome = .ok v
  refused : ∀ v fault, body.outcome = .ok v → s.result.FirstMismatch "return" v fault →
    called.outcome = .error fault

/-- Goes on from a body with its result, if that fits under the name `return`. -/
def returned (s : Signature) (body : Work Value) : Work Value := do
  let result ← body
  Work.ofExcept (s.result.check "return" result)
  .done result

theorem returned_of_ok (s : Signature) (v : Value) (report : List Event) :
    s.returned ⟨.ok v,report⟩ = ⟨(s.result.check "return" v).map fun _ => v,report⟩ := by
  have step : s.returned ⟨.ok v,report⟩ =
      ⟨(Work.ofExcept (s.result.check "return" v) >>= fun _ => Work.done v).outcome,
        report ++ (Work.ofExcept (s.result.check "return" v) >>= fun _ => Work.done v).report⟩ := rfl
  rw [step]
  cases s.result.check "return" v with
  | ok => exact congrArg (Work.mk _) (List.append_nil report)
  | error => exact congrArg (Work.mk _) (List.append_nil report)

theorem returns_returned (s : Signature) (body : Work Value) : s.Returns body (s.returned body) := by
  obtain ⟨outcome,report⟩ := body
  cases outcome with
  | error cause => exact ⟨rfl,fun fault failed => failed,nofun,nofun⟩
  | ok result =>
    rw [returned_of_ok]
    refine ⟨rfl,nofun,?_,?_⟩
    · rintro v ⟨⟩ fits
      have passed : s.result.check "return" result = .ok () := Annotation.check_eq_ok_iff.mpr fits
      show (s.result.check "return" result).map _ = _
      rw [passed]
      rfl
    · rintro v fault ⟨⟩ first
      have failed : s.result.check "return" result = .error fault :=
        Annotation.check_eq_error_iff.mpr first
      show (s.result.check "return" result).map _ = _
      rw [failed]
      rfl

variable {s : Signature} {positional : List Value} {named : List (String × Value)}

/-- A call is nothing but a fault if an argument does not fit, whatever the body is. -/
theorem call_of_refused {fault : Fault} (failed : Argument.checkAll (s.arguments positional named) = .error fault)
    (body : List Value → Work Value) : s.call body positional named = .fail fault := by
  rw [arguments,Argument.checkAll_append,← checkPositional_eq,← checkNamed_eq] at failed
  rw [call]
  cases first : checkPositional s.parameters positional with
  | error cause =>
    rw [first] at failed
    cases failed
    rfl
  | ok =>
    rw [first] at failed
    have second : s.checkNamed named = .error fault := failed
    rw [second]
    rfl

/-- If all arguments fit, they are matched with the parameters, and the body runs. -/
theorem call_of_fitting (passed : Argument.checkAll (s.arguments positional named) = .ok ())
    (body : List Value → Work Value) : s.call body positional named =
      Work.ofExcept (s.bind positional named) >>= fun values => s.returned (body values) := by
  rw [arguments,Argument.checkAll_append,← checkPositional_eq,← checkNamed_eq] at passed
  rw [call]
  cases first : checkPositional s.parameters positional with
  | error cause =>
    rw [first] at passed
    cases passed
  | ok =>
    rw [first] at passed
    have second : s.checkNamed named = .ok () := passed
    rw [second]
    rfl

end Signature

/-- Checking a value succeeds exactly if it fits, and fails exactly with its first mismatch, in a message that
    starts with the path to it. A call whose arguments do not all fit is nothing but the fault of the first
    that does not; otherwise it is the body on the values of the parameters, and its result is checked. -/
theorem Annotation.checks_total_correct :
    (∀ label a v, (check label a v = .ok () ↔ a.Fits v) ∧
      ∀ fault, check label a v = .error fault ↔ FirstMismatch label a v fault) ∧
    (∀ label a v path fault, Mismatch label a v path fault →
      ∃ rest, fault.message = labelAt label path ++ " has " ++ rest) ∧
    ∀ (s : Signature) positional named,
      (∃ fault, Argument.FirstRefused (s.arguments positional named) fault ∧
        ∀ body, s.call body positional named = .fail fault) ∨
      (∀ x ∈ s.arguments positional named, x.annotation.Fits x.value) ∧
        ∀ body, (∀ fault, s.bind positional named = .error fault → s.call body positional named = .fail fault) ∧
          ∀ values, s.bind positional named = .ok values →
            s.Returns (body values) (s.call body positional named) := by
  refine ⟨fun label a v => ⟨check_eq_ok_iff,fun fault => check_eq_error_iff⟩,?_,?_⟩
  · rintro label a v path fault ⟨b,w,-,clash⟩
    exact clash.message
  · intro s positional named
    rcases Argument.checkAll_cases (s.arguments positional named) with ⟨passed,fit⟩ | ⟨fault,failed,refused⟩
    · refine .inr ⟨fit,fun body => ⟨fun fault unbound => ?_,fun values bound => ?_⟩⟩
      · rw [Signature.call_of_fitting passed,unbound]
        rfl
      · rw [Signature.call_of_fitting passed,bound]
        exact s.returns_returned (body values)
    · exact .inl ⟨fault,refused,Signature.call_of_refused failed⟩

end Bezout
