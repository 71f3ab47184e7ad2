import Bezout.Certificate
import Bezout.Factor
import Bezout.Proofs.Outcomes

/-!
What working on polynomials reports. The operations open tasks and write messages of one line each, but
they show no results (`Event.Quiet`). That is so whatever they are given, also when they end with a
fault.
-/
namespace Bezout

/-! ### Lines -/

/-- A text without a line break. -/
def OneLine (text : String) : Prop := '\n' ∉ text.toList

instance (text : String) : Decidable (OneLine text) := inferInstanceAs (Decidable (_ ∉ _))

theorem OneLine.append {s t : String} (first : OneLine s) (second : OneLine t) : OneLine (s ++ t) := by
  rw [OneLine,String.toList_append,List.mem_append,not_or]
  exact ⟨first,second⟩

theorem oneLine_nat (n : ℕ) : OneLine (toString n) := by
  have digits : (toString n).toList = Nat.toDigits 10 n := Nat.toList_repr
  rw [OneLine,digits]
  intro member
  cases Nat.isDigit_of_mem_toDigits (by decide) (by decide) member

theorem oneLine_int (n : ℤ) : OneLine (toString n) := by
  cases n with
  | ofNat n => exact oneLine_nat n
  | negSucc n => exact .append (s := "-") (by decide) (oneLine_nat (n + 1))

theorem oneLine_intercalate {separator : String} (line : OneLine separator) {texts : List String}
    (lines : ∀ text ∈ texts, OneLine text) : OneLine (separator.intercalate texts) := by
  induction texts with
  | nil =>
    show OneLine ""
    decide
  | cons text rest ih =>
    rw [List.forall_mem_cons] at lines
    cases rest with
    | nil => simpa using lines.1
    | cons next more =>
      rw [String.intercalate_cons_cons]
      exact (lines.1.append line).append (ih lines.2)

namespace Event

theorem oneLine_detailsText {details : List (String × String)}
    (lines : ∀ detail ∈ details, OneLine detail.1 ∧ OneLine detail.2) :
    OneLine (detailsText details) := by
  cases details with
  | nil =>
    show OneLine ""
    decide
  | cons first rest =>
    refine .append (.append (by decide) (oneLine_intercalate (by decide) ?_)) (by decide)
    rw [List.forall_mem_map]
    intro detail member
    obtain ⟨key,value⟩ := lines detail member
    exact (key.append (by decide)).append value

/-- A split at line breaks, where some lines were found and one is being read. -/
theorem splitOnAux_eq (before line rest : List Char) (found : List String) :
    String.splitOnAux (.ofList (before ++ line ++ rest)) "\n" ⟨String.utf8Len before⟩
        ⟨String.utf8Len (before ++ line)⟩ 0 found =
      found.reverse ++ (List.splitOnPPrepend (· == '\n') rest line.reverse).map String.ofList := by
  induction rest generalizing before line found with
  | nil =>
    have last := String.extract_of_valid before line []
    have finished : String.Pos.Raw.atEnd (.ofList (before ++ line ++ []))
        ⟨String.utf8Len (before ++ line)⟩ = true := by
      simp [String.Pos.Raw.atEnd,← String.utf8ByteSize_ofList]
    rw [← String.utf8Len_append] at last
    rw [String.splitOnAux,finished,last,List.splitOnPPrepend_nil,List.reverse_reverse]
    exact List.reverse_cons
  | cons c rest ih =>
    have inside : String.Pos.Raw.atEnd (.ofList (before ++ line ++ c :: rest))
        ⟨String.utf8Len (before ++ line)⟩ = false := by
      have positive := c.utf8Size_pos
      simp only [String.Pos.Raw.atEnd,decide_eq_false_iff_not,String.utf8ByteSize_ofList,
        String.utf8Len_append,String.utf8Len_cons]
      omega
    have here : String.Pos.Raw.get (.ofList (before ++ line ++ c :: rest))
        ⟨String.utf8Len (before ++ line)⟩ = c := String.get_of_valid (before ++ line) (c :: rest)
    have separator : String.Pos.Raw.get "\n" 0 = '\n' := rfl
    have single : String.Pos.Raw.atEnd "\n" (String.Pos.Raw.next "\n" 0) = true := rfl
    have read : String.Pos.Raw.extract (.ofList (before ++ line ++ c :: rest)) ⟨String.utf8Len before⟩
        ⟨String.utf8Len (before ++ line)⟩ = .ofList line := by
      rw [String.utf8Len_append]
      exact String.extract_of_valid before line (c :: rest)
    rw [String.splitOnAux,inside,here,separator,String.Pos.Raw.unoffsetBy_zero,String.next_of_valid]
    by_cases broken : c = '\n'
    · subst broken
      have next := ih (before ++ line ++ ['\n']) [] (String.ofList line :: found)
      have back : (⟨String.utf8Len (before ++ line) + '\n'.utf8Size⟩ : String.Pos.Raw).unoffsetBy
          (String.Pos.Raw.next "\n" 0) = ⟨String.utf8Len (before ++ line)⟩ := rfl
      rw [List.append_nil,List.append_assoc _ ['\n'],String.utf8Len_append _ ['\n']] at next
      simp only [single,back,read]
      rw [List.splitOnPPrepend_cons_pos (p := (· == '\n')) rfl,List.reverse_reverse]
      simpa using next
    · have next := ih before (line ++ [c]) found
      rw [← List.append_assoc,List.append_assoc _ [c],List.singleton_append,
        String.utf8Len_append _ [c],List.reverse_append] at next
      rw [List.splitOnPPrepend_cons_neg (p := (· == '\n')) (beq_false_of_ne broken)]
      simpa [broken] using next

/-- The lines of a text lie between its line breaks. -/
theorem linesOf_eq_splitOn (text : String) :
    linesOf text = (text.toList.splitOn '\n').map String.ofList := by
  have split := splitOnAux_eq [] [] text.toList []
  rw [List.append_nil,List.nil_append,String.ofList_toList] at split
  rw [linesOf,String.splitOn,if_neg (by decide)]
  exact split

/-- A text without a line break is its only line. -/
theorem linesOf_eq {text : String} (line : OneLine text) : linesOf text = [text] := by
  rw [linesOf_eq_splitOn,List.splitOn_eq_singleton line,List.map_singleton,String.ofList_toList]

/-- Events that show no results and whose messages have one line each. -/
inductive Quiet : List Event → Prop
  | nil : Quiet []
  | note {text : String} {rest : List Event} (line : OneLine text) (later : Quiet rest) :
      Quiet (.note text :: rest)
  | task {name : String} {details : List (String × String)} {body rest : List Event}
      (line : OneLine name) (described : OneLine (detailsText details)) (inside : Quiet body)
      (later : Quiet rest) : Quiet (.task name details body :: rest)

theorem Quiet.append {events more : List Event} (first : Quiet events) (second : Quiet more) :
    Quiet (events ++ more) := by
  induction first with
  | nil => exact second
  | note line _ ih => exact .note line ih
  | task line described inside _ _ ih => exact .task line described inside ih

/-- Nothing is shown of them unless reports are wanted. -/
theorem Quiet.allLines_eq_nil {events : List Event} (quiet : Quiet events) (depth : ℕ) :
    allLines false depth events = [] := by
  induction quiet generalizing depth with
  | nil => rfl
  | note _ _ ih => exact ih depth
  | task _ _ _ _ inside later =>
    rw [allLines,lines,inside,later]
    rfl

end Event

namespace Work
variable {α β : Type}

/-- Work that shows no results and whose messages have one line each. -/
def Quiet (w : Work α) : Prop := Event.Quiet w.report

theorem quiet_done (a : α) : (done a).Quiet := .nil

theorem quiet_fail (fault : Fault) : (fail fault : Work α).Quiet := .nil

theorem quiet_ofExcept (outcome : Except Fault α) : (ofExcept outcome).Quiet := .nil

theorem quiet_note {text : String} (line : OneLine text) : (note text).Quiet := .note line .nil

theorem Quiet.map {w : Work α} (quiet : w.Quiet) (f : α → β) : (w.map f).Quiet := quiet

theorem Quiet.bind {w : Work α} {next : α → Work β} (first : w.Quiet) (later : ∀ a, (next a).Quiet) :
    (w >>= next).Quiet := by
  show (andThen w next).Quiet
  rw [andThen]
  split
  · exact first.append (later _)
  · exact first

/-- What was found without a report is gone on from. -/
theorem quiet_ofExcept_bind {e : Except Fault α} {next : α → Work β} (later : ∀ a, (next a).Quiet) :
    (ofExcept e >>= next).Quiet := (quiet_ofExcept e).bind later

theorem Quiet.task {w : Work α} {name : String} {details : List (String × String)} (quiet : w.Quiet)
    (line : OneLine name) (described : OneLine (Event.detailsText details)) :
    (Work.task name details w).Quiet := Event.Quiet.task line described quiet .nil

end Work

/-! ### Division -/

namespace Dense
variable {R : Type} [Coefficient R]

theorem quiet_exactFrom (q : Dense R) (inverse : R) (quotient remainder : Dense R) :
    (exactFrom q inverse quotient remainder).Quiet := by
  fun_induction exactFrom q inverse quotient remainder with
  | case1 quotient remainder fits m next smaller ih =>
    exact (Work.quiet_note (.append (by decide) (oneLine_nat _))).bind fun _ => ih
  | case2 => exact Work.quiet_done _
  | case3 => exact Work.quiet_done _

theorem quiet_pseudoFrom (q : Dense R) (steps : ℕ) (quotient remainder : Dense R) :
    (pseudoFrom q steps quotient remainder).Quiet := by
  fun_induction pseudoFrom q steps quotient remainder with
  | case1 steps quotient remainder fits m next smaller ih =>
    refine (Work.quiet_note ?_).bind fun _ => ih
    exact .append (.append (.append (by decide) (oneLine_nat _)) (by decide)) (oneLine_nat _)
  | case2 => exact Work.quiet_done _
  | case3 => exact Work.quiet_done _

end Dense

namespace Poly

theorem oneLine_sizes (p q : Poly) : OneLine (Event.detailsText (sizes p q)) := by
  apply Event.oneLine_detailsText
  rw [sizes,List.forall_mem_cons,List.forall_mem_singleton]
  have first : OneLine "p_size" := by decide
  have second : OneLine "q_size" := by decide
  exact ⟨⟨first,oneLine_nat p.size⟩,second,oneLine_nat q.size⟩

theorem quiet_pseudoDivide (p q : Poly) : (pseudoDivide p q).Quiet := by
  rw [pseudoDivide]
  split
  · exact Work.quiet_done _
  · refine .task ?_ (by decide) (oneLine_sizes p q)
    split
    · exact (Dense.quiet_pseudoFrom _ _ _ _).map _
    split
    · exact Work.quiet_done _
    · exact Work.quiet_ofExcept_bind fun _ => Work.quiet_fail _

theorem quiet_divide (p q : Poly) : (divide p q).Quiet := by
  rw [divide]
  split
  · exact Work.quiet_done _
  split
  · split
    · exact .task ((Dense.quiet_exactFrom _ _ _ _).map _) (by decide) (oneLine_sizes p q)
    · exact quiet_pseudoDivide p q
  · refine Work.quiet_ofExcept_bind fun unit => ?_
    split
    · refine Work.quiet_ofExcept_bind fun _ => .task ?_ (by decide) (oneLine_sizes p q)
      split
      · exact Work.quiet_done _
      · exact Work.quiet_fail _
    · exact quiet_pseudoDivide p q

theorem quiet_div (p q : Poly) : (div p q).Quiet := (quiet_divide p q).map _

theorem quiet_mod (p q : Poly) : (mod p q).Quiet := (quiet_divide p q).map _

theorem quiet_divides (d p : Poly) : (divides d p).Quiet := (quiet_mod p d).map _

theorem quiet_associated (p q : Poly) : (associated p q).Quiet := by
  refine (quiet_divides p q).bind fun answer => ?_
  split
  · exact quiet_divides q p
  · exact Work.quiet_done _

theorem quiet_powerModFrom (modulus result base : Poly) (e : ℕ) :
    (powerModFrom modulus result base e).Quiet := by
  induction e using Nat.strong_induction_on generalizing result base with
  | h e ih =>
    rw [powerModFrom]
    split
    · exact Work.quiet_done _
    · rename_i positive
      have later : ∀ next, (do
          let square ← mod (← Work.ofExcept (base.mul base)) modulus
          powerModFrom modulus next square (e / 2)).Quiet := fun next =>
        Work.quiet_ofExcept_bind fun square => (quiet_mod square modulus).bind fun _ =>
          ih (e / 2) (by omega) next _
      split
      · exact Work.quiet_ofExcept_bind fun product => (quiet_mod product modulus).bind later
      · exact (Work.quiet_done result).bind later

theorem quiet_powerMod (base : Poly) (e : ℤ) (modulus : Poly) : (powerMod base e modulus).Quiet := by
  rw [powerMod]
  split
  · exact Work.quiet_fail _
  · exact Work.quiet_ofExcept_bind fun one => (quiet_mod one modulus).bind fun _ =>
      (quiet_mod base modulus).bind fun _ => quiet_powerModFrom _ _ _ _

/-! ### Greatest common divisors -/

theorem quiet_gcdRounds (rounds : ℕ) (p q : Poly) : (gcdRounds rounds p q).Quiet := by
  induction rounds generalizing p q with
  | zero => exact Work.quiet_done q
  | succ rounds ih =>
    rw [gcdRounds]
    refine (quiet_mod p q).bind fun r => ?_
    split
    · exact Work.quiet_done q
    · exact (Work.quiet_note (.append (by decide) (oneLine_nat _))).bind fun _ => ih q r

theorem quiet_gcdOrdered (p q : Poly) : (gcdOrdered p q).Quiet := by
  rw [gcdOrdered]
  split
  · exact Work.quiet_done q
  · exact .task (quiet_gcdRounds _ p q) (by decide) (oneLine_sizes p q)

theorem quiet_gcd (p q : Poly) : (gcd p q).Quiet := by
  rw [gcd]
  split
  · exact quiet_gcdOrdered q p
  · exact quiet_gcdOrdered p q

theorem quiet_gcdFrom (start : Poly) (ps : List Poly) : (gcdFrom start ps).Quiet := by
  induction ps generalizing start with
  | nil => exact Work.quiet_done start
  | cons p rest ih => exact (quiet_gcd start p).bind fun g => ih g

theorem quiet_gcdAll (ps : List Poly) (ring? : Option BaseRing) : (gcdAll ps ring?).Quiet := by
  rw [gcdAll.eq_def]
  split
  · exact quiet_gcdFrom _ _
  · exact quiet_gcdFrom _ _
  · exact Work.quiet_fail _

theorem quiet_cofactorRounds (r : BaseRing) (rounds : ℕ) (p q : Poly) :
    (cofactorRounds r rounds p q).Quiet := by
  have stop : (do Work.done (← Work.ofExcept (one r),zero r)).Quiet :=
    Work.quiet_ofExcept_bind fun _ => Work.quiet_done _
  induction rounds generalizing p q with
  | zero => exact stop
  | succ rounds ih =>
    rw [cofactorRounds]
    split
    · exact stop
    · refine (quiet_divide p q).bind fun d => Work.quiet_ofExcept_bind fun factor => ?_
      exact (ih q d.remainder).bind fun _ => Work.quiet_ofExcept_bind fun _ =>
        Work.quiet_ofExcept_bind fun _ => Work.quiet_ofExcept_bind fun _ => Work.quiet_done _

theorem quiet_egcd (p q : Poly) : (egcd p q).Quiet := by
  refine .task ?_ (by decide) (oneLine_sizes p q)
  split
  · exact quiet_cofactorRounds _ _ p q
  · exact (quiet_cofactorRounds _ _ q p).map _

theorem quiet_coprime (p q : Poly) : (coprime p q).Quiet := (quiet_gcd p q).map _

theorem quiet_gdcopRounds (r : BaseRing) (q : Poly) (rounds : ℕ) (p : Poly) :
    (gdcopRounds r q rounds p).Quiet := by
  induction rounds generalizing p with
  | zero => exact Work.quiet_ofExcept _
  | succ rounds ih =>
    rw [gdcopRounds]
    refine (quiet_coprime p q).bind fun apart => ?_
    split
    · exact Work.quiet_done p
    · exact (quiet_gcd p q).bind fun g => (quiet_div p g).bind fun quotient => ih quotient

theorem quiet_gdcop (q p : Poly) : (gdcop q p).Quiet := quiet_gdcopRounds _ q _ p

theorem quiet_multiplicityRounds (factor : Poly) (rounds count : ℕ) (p : Poly) :
    (multiplicityRounds factor rounds count p).Quiet := by
  induction rounds generalizing count p with
  | zero => exact Work.quiet_done count
  | succ rounds ih =>
    rw [multiplicityRounds]
    split
    · exact Work.quiet_done count
    · refine (quiet_divides factor p).bind fun divides => ?_
      split
      · exact (quiet_div p factor).bind fun quotient => ih (count + 1) quotient
      · exact Work.quiet_done count

theorem quiet_multiplicity (v : Value) (p : Poly) : (multiplicity v p).Quiet :=
  Work.quiet_ofExcept_bind fun factor => quiet_multiplicityRounds factor _ 0 p

theorem quiet_lcm (p q : Poly) : (lcm p q).Quiet := by
  rw [lcm]
  split
  · exact Work.quiet_done _
  · exact Work.quiet_ofExcept_bind fun product => (quiet_gcd p q).bind fun g => quiet_div product g

theorem quiet_isSquareFree (p : Poly) : (isSquareFree p).Quiet := quiet_coprime p p.derivative

theorem quiet_squareFreePart (p : Poly) : (squareFreePart p).Quiet := by
  rw [squareFreePart]
  split
  · exact Work.quiet_fail _
  split
  · exact Work.quiet_done p
  · exact (quiet_gcd p p.derivative).bind fun g => (quiet_div p g).bind fun q => Work.quiet_ofExcept _

/-! ### Roots and irreducibility -/

theorem quiet_multiplicities (p : Poly) (xs : List ℤ) : (multiplicities p xs).Quiet := by
  induction xs with
  | nil => exact Work.quiet_done _
  | cons x rest ih => exact (quiet_multiplicity _ p).bind fun _ => ih.bind fun _ => Work.quiet_done _

theorem quiet_roots (p : Poly) : (roots p).Quiet := by
  rw [roots]
  split
  · exact Work.quiet_fail _
  split
  · exact Work.quiet_fail _
  · exact quiet_multiplicities p _

theorem quiet_irreducibleRounds (prime : ℤ) (f x : Poly) (rounds i : ℕ) (h : Poly) :
    (irreducibleRounds prime f x rounds i h).Quiet := by
  induction rounds generalizing i h with
  | zero => exact Work.quiet_done true
  | succ rounds ih =>
    rw [irreducibleRounds]
    refine (quiet_powerMod h prime f).bind fun next => Work.quiet_ofExcept_bind fun difference => ?_
    refine (quiet_gcd f difference).bind fun g => (Work.quiet_note ?_).bind fun _ => ?_
    · exact .append (.append (.append (by decide) (oneLine_nat i)) (by decide)) (oneLine_nat _)
    · split
      · exact ih (i + 1) next
      · exact Work.quiet_done false

theorem quiet_isIrreducible (p : Poly) : (isIrreducible p).Quiet := by
  rw [isIrreducible]
  split
  · split
    · exact Work.quiet_done false
    split
    · exact Work.quiet_done true
    · refine Work.quiet_ofExcept_bind fun f => Work.quiet_ofExcept_bind fun x => ?_
      refine .task (quiet_irreducibleRounds _ f x _ 1 x) (by decide) (Event.oneLine_detailsText ?_)
      have key : OneLine "degree" := by decide
      rw [List.forall_mem_singleton]
      exact ⟨key,oneLine_int p.degree⟩
  · exact Work.quiet_fail _

end Poly

/-! ### Certificates -/

namespace Certificate

theorem quiet_ask (solver : Solver) (query : Query) : (ask solver query).Quiet :=
  .task (Work.quiet_done _) (by decide) (by decide)

theorem quiet_proveIdentity (solver : Solver) (r : BaseRing) (left right : Side) :
    (proveIdentity solver r left right).Quiet :=
  Work.quiet_ofExcept_bind fun query => (quiet_ask solver query).map _

theorem quiet_equivalent (p q : Poly) (solver : Solver) : (equivalent p q solver).Quiet := by
  rw [equivalent]
  split
  · exact quiet_proveIdentity _ _ _ _
  · exact Work.quiet_fail _

theorem quiet_haveCounterexample (p q : Poly) (solver : Solver) :
    (haveCounterexample p q solver).Quiet := by
  rw [haveCounterexample]
  split
  · exact Work.quiet_fail _
  split
  · exact Work.quiet_fail _
  · exact quiet_ask _ _

theorem quiet_checkDivision (p q : Poly) (d : Division Poly) (solver : Solver) :
    (checkDivision p q d solver).Quiet := by
  rw [checkDivision]
  split
  · exact Work.quiet_done false
  · exact Work.quiet_ofExcept_bind fun factor => quiet_proveIdentity _ _ _ _

theorem quiet_checkBezout (p q u v : Poly) (solver : Solver) : (checkBezout p q u v solver).Quiet := by
  refine (Poly.quiet_gcd p q).bind fun g => Work.quiet_ofExcept_bind fun up => ?_
  refine Work.quiet_ofExcept_bind fun vq => Work.quiet_ofExcept_bind fun h => ?_
  split
  · exact Work.quiet_done _
  · exact quiet_proveIdentity _ _ _ _

end Certificate
end Bezout
