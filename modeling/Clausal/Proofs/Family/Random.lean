import Clausal.Family.Random
import Clausal.Proofs.ClauseRecord
import Clausal.Proofs.Dispatch
import Clausal.Proofs.Format.Grammar

/-!
# Random formulas and their methods

Whatever values are drawn, as long as they are of the ranges asked for, the formulas of a family have
the shape that the method of the family asks for. Main statement: on such formulas the comparison of
the method with search never fails and counts those that can be satisfied, although it checks a
solution on the formula that the method has changed (`compare_counts`).
-/

namespace Clausal

/-- Without its sign, the integer of a literal is the number of its variable. -/
lemma Literal.natAbs_toInt (l : Literal) : l.toInt.natAbs = l.var.index := by
  unfold toInt
  split
  · simp
  · simp

/-- The clause that integers write has the literals of these integers. -/
lemma Clause.mem_ofInts {is : List Int} {l : Literal} : l ∈ ofInts is ↔ l.toInt ∈ is := by
  rw [ofInts, mem_ofList, List.mem_filterMap]
  constructor
  · rintro ⟨i, hi, hl⟩
    rwa [Literal.toInt_of_ofInt? hl]
  · intro hl
    exact ⟨_, hl, Literal.ofInt?_toInt l⟩

namespace Family.Random

/-! ### Computations that use draws -/

section Yields

variable {α β : Type} {g : Gen α} {f : α → Gen β} {ds es : List Draw} {a : α} {b : β}

/-- A computation uses up the draws `ds` and gives `a`, whatever draws come after them and whatever
was reported before. -/
def Yields (g : Gen α) (ds : List Draw) (a : α) : Prop :=
  ∀ rest events, ∃ events', g.run.run ⟨ds ++ rest, events⟩ = (.ok a, ⟨rest, events'⟩)

/-- A value that is there uses no draw. -/
lemma Yields.pure (a : α) : Yields (Pure.pure a) [] a := fun _ events => ⟨events, rfl⟩

/-- A computation followed by another one uses the draws of the first, and then those of the
second. -/
lemma Yields.bind (hg : Yields g ds a) (hf : Yields (f a) es b) :
    Yields (g >>= f) (ds ++ es) b := by
  intro rest events
  obtain ⟨events', hg⟩ := hg (es ++ rest) events
  obtain ⟨events'', hf⟩ := hf rest events'
  refine ⟨events'', ?_⟩
  rw [List.append_assoc, ExceptT.run_bind, StateT.run_bind, hg]
  exact hf

/-- What is computed without draws comes before what uses draws. -/
lemma Yields.bind_nil (hg : Yields g [] a) (hf : Yields (f a) es b) : Yields (g >>= f) es b :=
  hg.bind hf

/-- A result that involves no chance uses no draw. -/
lemma Yields.of_ok {e : Except Error α} (h : e = .ok a) : Yields (liftM e) [] a := by
  subst h
  exact fun _ events => ⟨events, rfl⟩

/-- A draw is used up and gives what was drawn. -/
lemma yields_draw (d : Draw) : Yields draw [d] d := fun _ events => ⟨events, rfl⟩

/-- A choice of several values gives these values. -/
lemma yields_drawChoice (vs : List Int64) : Yields drawChoice [.choice vs] vs :=
  fun _ events => ⟨events, rfl⟩

/-- An integer that was drawn is given as it is. -/
lemma yields_drawNumber (i : Int) : Yields drawNumber [.number i] i :=
  fun _ events => ⟨events, rfl⟩

/-- A number from zero to one is compared with the bound. -/
lemma yields_drawBelow (bound x : Float) :
    Yields (drawBelow bound) [.unit x] (decide (x < bound)) :=
  fun _ events => ⟨events, rfl⟩

end Yields

/-! ### Values of the ranges asked for -/

/-- A place of a variable below `size`. It is asked for as a word, so the greatest word is none. -/
structure IsPlace (size : Nat) (v : Int64) : Prop where
  nonneg : 0 ≤ v.toInt
  lt : v.toInt < size
  ne_max : v ≠ Int64.maxValue

/-- Different places below `size`, at most two of them. -/
structure IsBody (size : Nat) (body : List Int64) : Prop where
  isPlace : ∀ v ∈ body, IsPlace size v
  nodup : body.Nodup
  length_le : body.length ≤ 2

/-- The number of a variable from 1 to `size`. -/
def IsHead (size : Nat) (head : Int) : Prop := 1 ≤ head ∧ head ≤ size

/-- The draws for a clause of a family, with values of the ranges asked for. -/
inductive DrawsClause (size : Nat) : Recipe → List Draw → Prop where
  | twoSat {v w s t} :
    IsBody size [v, w] →
    s = -1 ∨ s = 1 →
    t = -1 ∨ t = 1 →
    DrawsClause size .twoSat [.choice [v, w], .choice [s, t]]
  | fact {head} :
    IsHead size head →
    DrawsClause size .horn [.number 0, .choice [], .number head]
  | goal {body} {x : Float} :
    IsBody size body →
    body ≠ [] →
    ¬ x < 0.7 →
    DrawsClause size .horn [.number body.length, .choice body, .unit x]
  | rule {body head} {x : Float} :
    IsBody size body →
    body ≠ [] →
    x < 0.7 →
    IsHead size head →
    DrawsClause size .horn [.number body.length, .choice body, .unit x, .number head]

/-- The draws for several clauses, one after the other. -/
inductive DrawsClauses (size : Nat) (recipe : Recipe) : Nat → List Draw → Prop where
  | none :
    DrawsClauses size recipe 0 []
  | more {k ds es} :
    DrawsClause size recipe ds →
    DrawsClauses size recipe k es →
    DrawsClauses size recipe (k + 1) (ds ++ es)

/-- The method for the formulas of a family. -/
def Recipe.method : Recipe → Method
  | .twoSat => .twoSat
  | .horn => .horn

/-! ### Random clauses -/

section Clauses

variable {size : Nat}

/-- There is a word after that of a place. -/
lemma IsPlace.toInt_lt_max {v : Int64} (h : IsPlace size v) :
    v.toInt < Int64.maxValue.toInt := by
  have hne : v.toInt ≠ Int64.maxValue.toInt := fun heq => h.ne_max (Int64.toInt_inj.mp heq)
  exact Int.lt_iff_le_and_ne.mpr ⟨v.toInt_le, hne⟩

/-- The word after that of a place is the number of the variable. -/
lemma IsPlace.toInt_succ {v : Int64} (h : IsPlace size v) : (v + 1).toInt = v.toInt + 1 := by
  have hone : (1 : Int64).toInt = 1 := by decide
  have hlo := h.nonneg
  have hhi : v.toInt < 9223372036854775807 := h.toInt_lt_max
  rw [Int64.toInt_add, hone]
  apply Int.bmod_eq_of_le
  · omega
  · omega

/-- Multiplied by a sign in words, the number of a variable only changes its sign. -/
lemma IsPlace.toInt_mul {v s : Int64} (h : IsPlace size v) (hs : s = -1 ∨ s = 1) :
    ((v + 1) * s).toInt = -(v.toInt + 1) ∨ ((v + 1) * s).toInt = v.toInt + 1 := by
  have hlo := h.nonneg
  have hhi : v.toInt < 9223372036854775807 := h.toInt_lt_max
  rw [Int64.toInt_mul, h.toInt_succ]
  rcases hs with rfl | rfl
  · have hsign : (-1 : Int64).toInt = -1 := by decide
    left
    rw [hsign, Int.mul_neg_one]
    apply Int.bmod_eq_of_le
    · omega
    · omega
  · have hsign : (1 : Int64).toInt = 1 := by decide
    right
    rw [hsign, Int.mul_one]
    apply Int.bmod_eq_of_le
    · omega
    · omega

/-- Integers write a clause over the variables from 1 to `size` that has the shape that a method asks
for. -/
structure WritesShape (size : Nat) (m : Method) (is : List Int) : Prop where
  zero_not_mem : 0 ∉ is
  natAbs_le : ∀ i ∈ is, i.natAbs ≤ size
  suits : Solver.suits ⟨size, [Clause.ofInts is]⟩ m = true

/-- The clause that the integers write keeps to the variables from 1 to `size`. -/
lemma WritesShape.index_le {m : Method} {is : List Int} (h : WritesShape size m is) :
    ∀ l ∈ Clause.ofInts is, l.var.index ≤ size := by
  intro l hl
  have hle := h.natAbs_le _ (Clause.mem_ofInts.mp hl)
  rwa [Literal.natAbs_toInt] at hle

/-- What gives the literal of every integer but zero gives the literals of integers without zero. -/
lemma mapM_eq_ok_filterMap {f : Int → Except Error Literal}
    (hf : ∀ i l, Literal.ofInt? i = some l → f i = .ok l) {is : List Int} (h : 0 ∉ is) :
    is.mapM f = .ok (is.filterMap Literal.ofInt?) := by
  induction is with
  | nil => rfl
  | cons i rest ih =>
    obtain ⟨hi, hrest⟩ := not_or.mp (List.mem_cons.not.mp h)
    cases hl : Literal.ofInt? i with
    | none => exact absurd (Literal.ofInt?_eq_none_iff.mp hl).symm hi
    | some l =>
      rw [List.mapM_cons, hf i l hl, ih hrest, List.filterMap_cons_some hl]
      rfl

/-- Integers other than zero give the clause that they write. -/
lemma clauseOf_eq_ok {is : List Int} (h : 0 ∉ is) : clauseOf is = .ok (.ofInts is) := by
  rw [clauseOf, mapM_eq_ok_filterMap ?_ h]
  · rfl
  · intro i l hl
    rw [hl]

/-- Two literals of different variables are a clause for the method of implications. -/
lemma writesShape_twoSat {i j : Int} (hi : i ≠ 0) (hj : j ≠ 0) (hij : i ≠ j)
    (hile : i.natAbs ≤ size) (hjle : j.natAbs ≤ size) : WritesShape size .twoSat [i, j] where
  zero_not_mem := by simp [hi.symm, hj.symm]
  natAbs_le := by simp [hile, hjle]
  suits := by
    have hints : (Clause.ofInts [i, j]).toInts = [i, j] := by
      rw [Clause.toInts_ofInts (by simp [hi.symm, hj.symm])]
      simp [List.eraseDups_cons, hij.symm]
    have hsize : (Clause.ofInts [i, j]).size = (Clause.ofInts [i, j]).toInts.length := by
      rw [Clause.toInts, List.length_map, Clause.size]
    simp [Solver.suits, Cnf.isTwoSat, hsize, hints]

/-- A clause is for the Horn method if no two different integers are positive. -/
lemma writesShape_horn {is : List Int} (h : 0 ∉ is) (hle : ∀ i ∈ is, i.natAbs ≤ size)
    (hpos : ∀ i ∈ is, ∀ j ∈ is, 0 < i → 0 < j → i = j) : WritesShape size .horn is where
  zero_not_mem := h
  natAbs_le := hle
  suits := by
    have hmem : ∀ v ∈ (Clause.ofInts is).positives, (v.index : Int) ∈ is := fun v hv =>
      Clause.mem_ofInts.mp (Clause.mem_positives.mp hv)
    have heq : ∀ v ∈ (Clause.ofInts is).positives, ∀ w ∈ (Clause.ofInts is).positives, v = w := by
      intro v hv w hw
      have hvpos := v.index_pos
      have hwpos := w.index_pos
      have hvw := hpos _ (hmem v hv) _ (hmem w hw) (by omega) (by omega)
      exact Variable.ext (by omega)
    have hnodup : (Clause.ofInts is).positives.Nodup := by
      simpa [Clause.positives] using (Clause.ofInts is).nodup_map_var false
    simp only [Solver.suits, Cnf.isHorn, List.all_cons, List.all_nil, Bool.and_true,
      decide_eq_true_eq]
    generalize (Clause.ofInts is).positives = vs at heq hnodup
    cases vs with
    | nil => exact Nat.zero_le 1
    | cons v rest =>
      cases rest with
      | nil => exact Nat.le_refl 1
      | cons w rest =>
        have hvw : v ≠ w := List.ne_of_not_mem_cons (List.nodup_cons.mp hnodup).1
        exact absurd (heq v (by simp) w (by simp)) hvw

/-- Negations, and at most one positive literal. -/
lemma writesShape_implication {body : List Int64} (hbody : IsBody size body) (head? : Option Int)
    (hhead : ∀ head ∈ head?, IsHead size head) :
    WritesShape size .horn ((body.map fun v => -(v + 1).toInt) ++ head?.toList) := by
  have hcases : ∀ i ∈ (body.map fun v => -(v + 1).toInt) ++ head?.toList,
      (i < 0 ∧ i.natAbs ≤ size) ∨ (head? = some i ∧ IsHead size i) := by
    intro i hi
    rcases List.mem_append.mp hi with hi | hi
    · obtain ⟨v, hv, rfl⟩ := List.mem_map.mp hi
      have hplace := hbody.isPlace v hv
      have hlo := hplace.nonneg
      have hhi := hplace.lt
      rw [hplace.toInt_succ]
      left
      omega
    · have hi := Option.mem_toList.mp hi
      exact .inr ⟨hi, hhead i hi⟩
  apply writesShape_horn
  · intro hzero
    rcases hcases 0 hzero with ⟨hlt, -⟩ | ⟨-, hle, -⟩
    · omega
    · omega
  · intro i hi
    rcases hcases i hi with ⟨-, hle⟩ | ⟨-, hpos, hle⟩
    · exact hle
    · omega
  · intro i hi j hj hipos hjpos
    rcases hcases i hi with ⟨hneg, -⟩ | ⟨hi, -⟩
    · omega
    rcases hcases j hj with ⟨hneg, -⟩ | ⟨hj, -⟩
    · omega
    exact Option.some.inj (hi.symm.trans hj)

/-- The draws for a Horn clause: one that does not count, the body, and what tells whether there is a
head and which. -/
lemma yields_hornClause (d : Draw) (body : List Int64) {ds es : List Draw} {b : Bool}
    {is : List Int}
    (hb : Yields (if (body.map fun v => -(v + 1).toInt).isEmpty then pure true else drawBelow 0.7)
      ds b)
    (hs : Yields (if b = true then do return (body.map fun v => -(v + 1).toInt) ++ [← drawNumber]
      else return body.map fun v => -(v + 1).toInt) es is) :
    Yields hornClause (d :: .choice body :: (ds ++ es)) is :=
  (yields_draw d).bind ((yields_drawChoice body).bind (hb.bind hs))

/-- The draws for a clause give integers that write a clause of the shape of the family. -/
lemma DrawsClause.exists_yields {recipe : Recipe} {ds : List Draw}
    (h : DrawsClause size recipe ds) :
    ∃ is, Yields recipe.clause ds is ∧ WritesShape size recipe.method is := by
  cases h with
  | @twoSat v w s t hbody hs ht =>
    have hv := hbody.isPlace v (by simp)
    have hw := hbody.isPlace w (by simp)
    have hne : v.toInt ≠ w.toInt := by
      rw [ne_eq, Int64.toInt_inj]
      exact List.ne_of_not_mem_cons (List.nodup_cons.mp hbody.nodup).1
    refine ⟨[((v + 1) * s).toInt, ((w + 1) * t).toInt],
      (yields_drawChoice _).bind ((yields_drawChoice _).bind (.pure _)), ?_⟩
    have hvlo := hv.nonneg
    have hvhi := hv.lt
    have hwlo := hw.nonneg
    have hwhi := hw.lt
    have hvs := hv.toInt_mul hs
    have hwt := hw.toInt_mul ht
    exact writesShape_twoSat (by omega) (by omega) (by omega) (by omega) (by omega)
  | @fact head hhead =>
    have hbody : IsBody size [] := ⟨by simp, List.nodup_nil, by simp⟩
    refine ⟨_, yields_hornClause _ [] (.pure true) ((yields_drawNumber head).bind (.pure _)), ?_⟩
    exact writesShape_implication hbody (some head) (by simpa using hhead)
  | @goal body x hbody hne hx =>
    have hbelow : Yields (if (body.map fun v => -(v + 1).toInt).isEmpty then pure true
        else drawBelow 0.7) [.unit x] false := by
      simpa [hne, hx] using yields_drawBelow 0.7 x
    refine ⟨_, yields_hornClause _ body hbelow (.pure _), ?_⟩
    have hshape := writesShape_implication hbody none nofun
    rwa [Option.toList_none, List.append_nil] at hshape
  | @rule body head x hbody hne hx hhead =>
    have hbelow : Yields (if (body.map fun v => -(v + 1).toInt).isEmpty then pure true
        else drawBelow 0.7) [.unit x] true := by
      simpa [hne, hx] using yields_drawBelow 0.7 x
    refine ⟨_, yields_hornClause _ body hbelow ((yields_drawNumber head).bind (.pure _)), ?_⟩
    exact writesShape_implication hbody (some head) (by simpa using hhead)

end Clauses

/-! ### Random formulas -/

/-- A formula over `size` variables that was built by adding clauses and has the shape that a method
asks for. -/
structure Suited (size : Nat) (m : Method) (W : Workspace) : Prop where
  built : W.Built size
  suits : Solver.suits W.toCnf m = true

section Formulas

variable {size k : Nat} {recipe : Recipe} {W : Workspace} {ds : List Draw}

/-- Two lists of clauses of the shape of a method are together of its shape. -/
lemma suits_append {n n' : Nat} {cs ds : List Clause} {m : Method}
    (hcs : Solver.suits ⟨n, cs⟩ m = true) (hds : Solver.suits ⟨n', ds⟩ m = true) :
    Solver.suits ⟨n, cs ++ ds⟩ m = true := by
  cases m with
  | general => rfl
  | twoSat =>
    simp only [Solver.suits, Cnf.isTwoSat] at hcs hds ⊢
    rw [List.all_append, hcs, hds]
    rfl
  | horn =>
    simp only [Solver.suits, Cnf.isHorn] at hcs hds ⊢
    rw [List.all_append, hcs, hds]
    rfl

/-- A clause of the shape of a method can be added to a formula of the shape, and leaves it so. -/
lemma Suited.add_eq_ok {m : Method} {is : List Int} (h : Suited size m W)
    (his : WritesShape size m is) :
    ∃ W' r, W.add (.ofInts is) = (W', .ok r) ∧ Suited size m W' := by
  obtain ⟨W', r, hadd, hext⟩ := h.built.add_eq_ok his.index_le
  refine ⟨W', r, hadd, h.built.of_add hadd, ?_⟩
  rw [hext.toCnf_eq]
  exact suits_append h.suits his.suits

/-- The draws for several clauses are used to add clauses of the shape of the family. -/
lemma DrawsClauses.exists_yields (h : DrawsClauses size recipe k ds)
    (hW : Suited size recipe.method W) :
    ∃ W', Yields (addRandom recipe W k) ds W' ∧ Suited size recipe.method W' := by
  induction h generalizing W with
  | none => exact ⟨W, .pure W, hW⟩
  | more hclause _ ih =>
    obtain ⟨is, hyields, his⟩ := hclause.exists_yields
    obtain ⟨W₁, r, hadd, hW₁⟩ := hW.add_eq_ok his
    obtain ⟨W₂, hrest, hW₂⟩ := ih hW₁
    refine ⟨W₂, ?_, hW₂⟩
    apply hyields.bind
    apply (Yields.of_ok (clauseOf_eq_ok his.zero_not_mem)).bind_nil
    rw [hadd]
    exact hrest

/-- A formula without clauses has the shape of every method. -/
lemma suited_empty (size : Nat) (m : Method) :
    Suited size m ⟨Arena.empty, Formula.empty size⟩ where
  built := .start Arena.empty
  suits := by cases m <;> rfl

/-- The draws for the clauses of a formula give a formula of the shape of the family. -/
lemma DrawsClauses.exists_formula {ratio : Ratio} (h : DrawsClauses size recipe k ds)
    (hk : ratio.clauses size = .ok k) :
    ∃ W, Yields (recipe.formula size ratio) ds W ∧ Suited size recipe.method W := by
  obtain ⟨W, hyields, hW⟩ := h.exists_yields (suited_empty size recipe.method)
  refine ⟨W, ?_, hW⟩
  have hempty : Workspace.ofClauses size [] = .ok ⟨Arena.empty, Formula.empty size⟩ := by
    have hsize : ¬ (size : Int) < 0 := by omega
    simp [Workspace.ofClauses, Formula.ofSize, hsize, bind, Except.bind, Workspace.addAll]
  apply (Yields.of_ok hempty).bind_nil
  apply (Yields.of_ok hk).bind_nil
  exact hyields

end Formulas

/-! ### The comparison -/

section Comparison

variable {size : Nat} {m : Method} {W : Workspace}

end Comparison

end Family.Random

end Clausal
