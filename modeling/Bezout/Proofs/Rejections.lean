import Bezout.Proofs.ViablePrefixes

/-!
Texts that are refused. An illegal character or another name than the variable is reported before anything
else, whichever stands further left (`Flaw`). A text without these is refused with the first obstacle among
its tokens (`Poly.ofText_error_iff`).
-/
namespace Bezout

/-! ### Places -/

/-- Places from a start on, in the order of the tokens, with an illegal character last. -/
structure Scan.Ordered (s : Scan) (start : ℕ) : Prop where
  tokens : s.tokens.Pairwise fun a b => a.position < b.position
  from_start : ∀ t ∈ s.tokens, start ≤ t.position
  illegal : ∀ c position, s.illegal = some (c,position) → start ≤ position
  illegal_last : ∀ c position, s.illegal = some (c,position) → ∀ t ∈ s.tokens, t.position < position

theorem Scan.Ordered.mono {s : Scan} {start earlier : ℕ} (ordered : s.Ordered start)
    (before : earlier ≤ start) : s.Ordered earlier where
  tokens := ordered.tokens
  from_start t member := before.trans (ordered.from_start t member)
  illegal c position found := before.trans (ordered.illegal c position found)
  illegal_last := ordered.illegal_last

theorem scanFrom_ordered (start : ℕ) (cs : List Char) : (scanFrom start cs).Ordered start := by
  fun_induction scanFrom start cs with
  | case1 start => exact ⟨.nil,nofun,nofun,nofun⟩
  | case2 start c rest gap ih => exact ih.mono (Nat.le_succ start)
  | case3 start c rest gap found =>
    refine ⟨.nil,nofun,?_,nofun⟩
    rintro _ _ ⟨⟩
    exact le_rfl
  | case4 start c rest gap token more found later ih =>
    have first : start < start + 1 + more := by omega
    refine ⟨.cons (fun t member => first.trans_le (ih.from_start t member)) ih.tokens,?_,?_,?_⟩
    · rintro t (_ | ⟨_,member⟩)
      · exact le_rfl
      · exact first.le.trans (ih.from_start t member)
    · exact fun c position illegal => first.le.trans (ih.illegal c position illegal)
    · rintro c position illegal t (_ | ⟨_,member⟩)
      · exact first.trans_le (ih.illegal c position illegal)
      · exact ih.illegal_last c position illegal t member

theorem scan_ordered (text : String) : (scan text).Ordered 0 := scanFrom_ordered 0 text.toList

/-! ### Flaws -/

/-- What the first pass over a text reports, and where: a character that starts no token, or a name other
    than the variable. -/
inductive Flaw (text name : String) : ℕ → ParseFault → Prop
  | illegal {c : Char} {position : ℕ} (found : (scan text).illegal = some (c,position)) :
      Flaw text name position (.illegalCharacter c position)
  | stray {t : Placed} {word : String} (member : t ∈ (scan text).tokens) (token : t.token = .word word)
      (other : word ≠ name) : Flaw text name t.position (.unknownVariable word (Text.quoted name))

/-- The fault of a text. Flaws come before the obstacles among the tokens. -/
inductive TextFault (text name : String) : ParseFault → Prop
  | flaw {position : ℕ} {fault : ParseFault} (flaw : Flaw text name position fault)
      (leftmost : ∀ place other, Flaw text name place other → position ≤ place) : TextFault text name fault
  | obstacle {ts : List Placed} {fault : ParseFault} (legal : tokenize text = .ok ts)
      (named : ∀ t ∈ ts, ∀ word, t.token = .word word → word = name) (first : FirstObstacle ts fault) :
      TextFault text name fault

section Texts
variable {text name : String}

/-- A text without flaws is one of legal characters whose names are the variable. -/
theorem exists_tokenize_of_flawless (flawless : ∀ position fault, ¬ Flaw text name position fault) :
    ∃ ts, tokenize text = .ok ts ∧ ∀ t ∈ ts, ∀ word, t.token = .word word → word = name := by
  rw [tokenize]
  split
  · rename_i ts found
    refine ⟨ts,rfl,fun t member word token => ?_⟩
    by_contra other
    exact flawless _ _ (.stray (by rwa [found]) token other)
  · rename_i ts c position found
    exact absurd (.illegal (by rw [found])) (flawless position _)

/-- The leftmost flaw is reported. -/
theorem parseExpr_of_flaw {position : ℕ} {fault : ParseFault} (flaw : Flaw text name position fault)
    (leftmost : ∀ place other, Flaw text name place other → position ≤ place) :
    parseExpr text name = .error fault := by
  cases flaw with
  | illegal found =>
    have named : ∀ t ∈ (scan text).tokens, ∀ word, t.token = .word word → word = name := by
      intro t member word token
      by_contra other
      have before := (scan_ordered text).illegal_last _ _ found t member
      exact absurd (leftmost _ _ (.stray member token other)) before.not_ge
    rw [parseExpr,strayName?_eq_none named,tokenize_of_illegal found]
  | @stray t word member token other =>
    obtain ⟨before,after,split⟩ := List.append_of_mem member
    have ordered := (scan_ordered text).tokens
    rw [split,List.pairwise_append] at ordered
    -- Names before this one are the variable, as they stand further left.
    have named : ∀ u ∈ before, ∀ earlier, u.token = .word earlier → earlier = name := by
      intro u inside earlier uToken
      by_contra stray
      have later := ordered.2.2 u inside t List.mem_cons_self
      have uMember : u ∈ (scan text).tokens := by
        rw [split]
        exact List.mem_append_left _ inside
      exact absurd (leftmost _ _ (.stray uMember uToken stray)) later.not_ge
    have found : Parse.strayName? name (scan text).tokens = some word := by
      have nothing := strayName?_eq_none named
      rw [Parse.strayName?] at nothing ⊢
      rw [split,List.findSome?_append,nothing,Option.none_or]
      simp [token,other]
    rw [parseExpr,found]

/-- The outcome of a text without flaws is that of its tokens. -/
theorem parseExpr_eq_error_iff_of_tokenize {ts : List Placed} (legal : tokenize text = .ok ts)
    (named : ∀ t ∈ ts, ∀ word, t.token = .word word → word = name) (fault : ParseFault) :
    parseExpr text name = .error fault ↔ FirstObstacle ts fault := by
  rw [Parse.firstObstacle_iff,parseExpr,scan_of_tokenize legal,strayName?_eq_none named,legal]

theorem parseExpr_eq_error_iff (fault : ParseFault) :
    parseExpr text name = .error fault ↔ TextFault text name fault := by
  constructor
  · intro failed
    by_cases flawed : ∃ position cause, Flaw text name position cause
    · classical
      obtain ⟨cause,flaw⟩ := Nat.find_spec flawed
      have leftmost : ∀ place other, Flaw text name place other → Nat.find flawed ≤ place :=
        fun place other also => Nat.find_min' flawed ⟨other,also⟩
      rw [parseExpr_of_flaw flaw leftmost] at failed
      cases failed
      exact .flaw flaw leftmost
    · push Not at flawed
      obtain ⟨ts,legal,named⟩ := exists_tokenize_of_flawless flawed
      exact .obstacle legal named ((parseExpr_eq_error_iff_of_tokenize legal named fault).mp failed)
  · rintro (⟨flaw,leftmost⟩ | ⟨legal,named,first⟩)
    · exact parseExpr_of_flaw flaw leftmost
    · exact (parseExpr_eq_error_iff_of_tokenize legal named fault).mpr first

end Texts

namespace Poly

/-- A text is refused over the rational numbers exactly with its fault: the leftmost illegal character or
    name other than the variable, if there is one, and otherwise the first obstacle among its tokens, where a
    zero for a denominator is none if a slash follows. -/
theorem ofText_error_iff (text name : String) (fault : Fault) :
    ofText text .rationals name = .error fault ↔
      ∃ cause, TextFault text name cause ∧ fault = .parse cause := by
  simp only [← parseExpr_eq_error_iff]
  cases parsed : parseExpr text name with
  | ok e => simp [ofText_rationals_of_expr parsed]
  | error cause => simp [ofText,parsed,eq_comm]

/-- A zero for a denominator is not reported if a slash follows, although nothing before it stops reading: in
    `1/0/2` the second slash is. -/
theorem zero_before_slash_not_reported :
    ¬ ∀ (text name : String) (ts : List Placed), tokenize text = .ok ts →
      (∀ t ∈ ts, ∀ word, t.token = .word word → word = name) →
      ∀ (before after : List Placed) (t : Placed) (n : ℕ), ts = before ++ t :: after →
        Viable ((before ++ [t]).map Placed.token) →
        [.numeral n,.slash,.numeral 0] <:+ (before ++ [t]).map Placed.token →
        (∀ earlier m, earlier <+: before.map Placed.token → ¬ [.numeral m,.slash,.numeral 0] <:+ earlier) →
        (∃ fault, ofText text .rationals name = .error fault) →
          ofText text .rationals name = .error (.parse (.zeroDenominator n)) := by
  intro reported
  have legal : tokenize "1/0/2" = .ok ([⟨.numeral 1,['1'],0⟩,⟨.slash,['/'],1⟩] ++
      ⟨.numeral 0,['0'],2⟩ :: [⟨.slash,['/'],3⟩,⟨.numeral 2,['2'],4⟩]) := by cbv
  have refused : ofText "1/0/2" .rationals "x" = .error (.parse (.unexpected .slash 3)) := by cbv
  have viable : Viable [.numeral 1,.slash,.numeral 0] := ⟨[],.term (.power (.atom (.fraction 1 0))),rfl⟩
  have first (earlier : List Token) (m : ℕ) (before : earlier <+: [.numeral 1,.slash]) :
      ¬ [.numeral m,.slash,.numeral 0] <:+ earlier := by
    intro fraction
    have short := before.length_le
    have long := fraction.length_le
    simp only [List.length_cons,List.length_nil] at short long
    omega
  have same := refused.symm.trans
    (reported "1/0/2" "x" _ legal (by simp) _ _ _ 1 rfl viable (List.suffix_refl _) first ⟨_,refused⟩)
  simp at same

end Poly
end Bezout
