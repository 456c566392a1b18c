import Clausal.Proofs.Horn.Meaning
import Clausal.Proofs.Rebuilding

/-!
# Solving by name

What a call by the name of an algorithm does, for formulas that were built by adding clauses. Every
method decides the formulas of its shape (`apply_spec`), and a method that is chosen by the shape is
not refused when it asks for it again, since a copy has the shape of the formula (`suits_copy`). The
answer depends on the clauses only (`solve_result_eq`), and only the Horn method that is asked for by
name changes the formula (`solve_fst`). Main statement: a call is refused exactly if it is out of
place, and otherwise it decides the formula, whatever was called before (`solve_dispatches`).
-/

namespace Clausal

/-- An algorithm that is found by a name has this name. -/
lemma Algorithm.eq_name_of_ofName? {name : String} {a : Algorithm} (h : ofName? name = some a) :
    name = a.name := by
  have ha := List.find?_some h
  exact (beq_iff_eq.mp ha).symm

/-- There are algorithms of four names. -/
lemma Algorithm.ofName?_eq_none {name : String} :
    ofName? name = none ↔ name ∉ ["auto", "general", "two_sat", "horn_sat"] := by
  have hnames : ["auto", "general", "two_sat", "horn_sat"] = all.map Algorithm.name := rfl
  rw [hnames, ofName?, List.find?_eq_none]
  simp only [beq_iff_eq, List.mem_map, not_exists, not_and]

/-- A formula is for the method of implications exactly if all its clauses have two literals. -/
lemma Cnf.isTwoSat_iff {f : Cnf} : f.isTwoSat = true ↔ ∀ c ∈ f.clauses, c.size = 2 := by
  simp [isTwoSat]

/-- A formula is a Horn formula exactly if no clause has two positive literals. -/
lemma Cnf.isHorn_iff {f : Cnf} :
    f.isHorn = true ↔ ∀ c ∈ f.clauses, c.positives.length ≤ 1 := by
  simp [isHorn]

namespace Solver

variable {n : Nat} {W W' : Workspace}

/-! ### The methods -/

/-- The Horn method decides the Horn formulas that were built of clauses, whose facts are all on the
queue. -/
lemma Horn.decides_built (h : W.Built n) (hhorn : ∀ c ∈ W.toCnf.clauses, c.positives.length ≤ 1) :
    W.toCnf.Decides (.unsatisfiable .horn) (Horn.solve W).2.result := by
  have hd := Horn.solve_decides_withFacts h hhorn
  simpa [Cnf.withFacts] using hd

/-- The answer of the Horn method depends on the clauses only. -/
lemma Horn.result_eq (h : W.Built n) (h' : W'.Built n) (heq : W'.toCnf = W.toCnf) :
    (Horn.solve W').2.result = (Horn.solve W).2.result := by
  apply Horn.result_solve_eq h.coherent h'.coherent heq
  intro v
  rw [h.queue_eq, h'.queue_eq, heq]

/-- Every method decides the formulas of its shape. -/
lemma apply_spec (h : W.Built n) {m : Method} (hm : suits W.toCnf m = true) :
    W.toCnf.Decides (.unsatisfiable m) (apply W m).2.result := by
  cases m with
  | general => exact Search.solve_spec h.coherent.inRange
  | twoSat => exact TwoSat.solve_spec h.coherent.inRange (Cnf.isTwoSat_iff.mp hm)
  | horn => exact Horn.decides_built h (Cnf.isHorn_iff.mp hm)

/-- The answer of every method depends on the clauses only. -/
lemma apply_result_eq (h : W.Built n) (h' : W'.Built n) (heq : W'.toCnf = W.toCnf) (m : Method) :
    (apply W' m).2.result = (apply W m).2.result := by
  cases m with
  | general => simp only [apply, heq]
  | twoSat => simp only [apply, heq]
  | horn => exact Horn.result_eq h h' heq

/-! ### The choice of the method -/

/-- The method that an algorithm uses for a formula. -/
def methodOf (f : Cnf) : Algorithm → Method
  | .auto => select f
  | .fixed m => m

/-- The method chosen by the shape of a formula is one that the formula suits. -/
lemma suits_select (f : Cnf) : suits f (select f) = true := by
  unfold select
  split
  · next h => exact h
  · split
    · next h => exact h
    · rfl

/-- A copy has the shapes of the formula that it was made of. -/
lemma suits_copy (h : W.Built n) {C : Workspace} (hC : W.copy = .ok C) (m : Method) :
    suits C.toCnf m = suits W.toCnf m := by
  obtain ⟨C', hok, -, heq, -⟩ := h.copy_eq_ok
  obtain rfl : C = C' := Except.ok.inj (hC.symm.trans hok)
  rw [heq]

/-- A method that the formula suits is used as it is. -/
lemma applyIfSuited_of_suits {m : Method} (hm : suits W.toCnf m = true) :
    applyIfSuited W m = apply W m :=
  if_pos hm

/-- An algorithm answers what its method answers, also when this works on a copy. -/
lemma run_result_eq (h : W.Built n) (a : Algorithm) :
    (run W a).2.result =
      if suits W.toCnf (methodOf W.toCnf a) then (apply W (methodOf W.toCnf a)).2.result
      else .error (.wrongShape (methodOf W.toCnf a)) := by
  cases a with
  | fixed m =>
    show (run W (.fixed m)).2.result =
      if suits W.toCnf m then (apply W m).2.result else .error (.wrongShape m)
    simp only [run, applyIfSuited]
    split <;> rfl
  | auto =>
    have hm := suits_select W.toCnf
    simp only [methodOf, hm, ↓reduceIte]
    simp only [run]
    -- the second check of the shape passes, of the formula itself or of its copy
    cases hs : select W.toCnf with
    | general => simp only [applyIfSuited_of_suits (hs ▸ hm), Report.after]
    | twoSat => simp only [applyIfSuited_of_suits (hs ▸ hm), Report.after]
    | horn =>
      obtain ⟨C, hok, hC, heq, -⟩ := h.copy_eq_ok
      have hcopy : suits C.toCnf .horn = true := (suits_copy h hok .horn).trans (hs ▸ hm)
      simp only [hok]
      rw [applyIfSuited_of_suits hcopy]
      exact Horn.result_eq h hC heq

/-- The Horn method changes nothing in a formula when it works on a copy of it. -/
lemma get_solve_copy (h : W.Built n) {C : Workspace} (hC : W.copy = .ok C) {r : ClauseRef}
    (hr : r ∈ W.formula.refs) : (Horn.solve C).1.arena.get r = W.arena.get r := by
  obtain ⟨C', hok, -, -, hget, hfresh⟩ := h.copy_eq_ok
  obtain rfl : C = C' := Except.ok.inj (hC.symm.trans hok)
  have hlt := h.coherent.ref_lt r hr
  rw [(Horn.trimmed_solve C).get_eq r, hget r hlt]
  intro v hv
  exact absurd hlt (Nat.not_lt.mpr (hfresh v r hv))

/-! ### Calls by name -/

/-- A call is out of place if there is no algorithm of the name, or the formula does not have the
shape that the named one asks for. -/
def Misplaced (f : Cnf) (name : String) : Prop :=
  name ∉ ["auto", "general", "two_sat", "horn_sat"] ∨
  (name = "two_sat" ∧ ∃ c ∈ f.clauses, c.size ≠ 2) ∨
  (name = "horn_sat" ∧ ∃ c ∈ f.clauses, 1 < c.positives.length)

/-- A call changes the formula if it asks for the Horn method and the formula has its shape. -/
def Destructive (f : Cnf) (name : String) : Prop :=
  name = "horn_sat" ∧ ∀ c ∈ f.clauses, c.positives.length ≤ 1

/-- An answer that refuses the call for its name or for the shape of the formula. -/
inductive Refused : Except Error Assignment → Prop where
  | unknown {name} :
    Refused (.error (.unknownAlgorithm name))
  | shape {m} :
    Refused (.error (.wrongShape m))

/-- Solves by one algorithm after the other, each time the formula that the last call left. -/
def solveAll (W : Workspace) : List String → Workspace × List (Report Assignment)
  | [] => (W, [])
  | name :: rest =>
    let (W', answer) := solve W name
    let (W'', answers) := solveAll W' rest
    (W'', answer :: answers)

/-- A call by the name of an algorithm is out of place exactly if the formula does not suit its
method. -/
lemma misplaced_name_iff {f : Cnf} {a : Algorithm} :
    Misplaced f a.name ↔ suits f (methodOf f a) = false := by
  rcases a with _ | _ | _ | _
  · simp [Misplaced, methodOf, suits_select, Algorithm.name]
  · simp [Misplaced, methodOf, Algorithm.name, suits, Method.name]
  · simp [Misplaced, methodOf, Algorithm.name, suits, Method.name, Cnf.isTwoSat]
  · simp [Misplaced, methodOf, Algorithm.name, suits, Method.name, Cnf.isHorn]

/-- A call that is out of place is refused. -/
lemma solve_of_misplaced (h : W.Built n) {name : String} (hm : Misplaced W.toCnf name) :
    Refused (solve W name).2.result := by
  unfold solve
  split
  · exact .unknown
  · next a ha =>
    obtain rfl := Algorithm.eq_name_of_ofName? ha
    rw [run_result_eq h, misplaced_name_iff.mp hm]
    exact .shape

/-- A call that is not out of place decides the formula. -/
lemma solve_of_not_misplaced (h : W.Built n) {name : String} (hm : ¬ Misplaced W.toCnf name) :
    ∃ m, W.toCnf.Decides (.unsatisfiable m) (solve W name).2.result := by
  unfold solve
  split
  · next hnone => exact absurd (.inl (Algorithm.ofName?_eq_none.mp hnone)) hm
  · next a ha =>
    obtain rfl := Algorithm.eq_name_of_ofName? ha
    have hs : suits W.toCnf (methodOf W.toCnf a) = true := by
      simpa [misplaced_name_iff] using hm
    refine ⟨methodOf W.toCnf a, ?_⟩
    rw [run_result_eq h, if_pos hs]
    exact apply_spec h hs

/-- An answer that decides a formula is no refusal. -/
lemma not_refused_of_decides {f : Cnf} {m : Method} {r : Except Error Assignment}
    (h : f.Decides (.unsatisfiable m) r) : ¬ Refused r := by
  cases h with
  | found => exact nofun
  | refuted => exact nofun

/-- The answer of a call depends on the clauses only. -/
lemma solve_result_eq (h : W.Built n) (h' : W'.Built n) (heq : W'.toCnf = W.toCnf)
    (name : String) : (solve W' name).2.result = (solve W name).2.result := by
  unfold solve
  split
  · rfl
  · next a _ =>
    rw [run_result_eq h, run_result_eq h', heq]
    split
    · exact apply_result_eq h h' heq _
    · rfl

/-- A call that is not destructive leaves the formula as it is. -/
lemma solve_fst {name : String} (hd : ¬ Destructive W.toCnf name) : (solve W name).1 = W := by
  unfold solve
  split
  · rfl
  · next a ha =>
    obtain rfl := Algorithm.eq_name_of_ofName? ha
    cases a with
    | auto =>
      simp only [run]
      split
      · split <;> rfl
      · rfl
    | fixed m =>
      simp only [run, applyIfSuited]
      split
      · next hs =>
        cases m with
        | general => rfl
        | twoSat => rfl
        | horn => exact absurd ⟨rfl, Cnf.isHorn_iff.mp hs⟩ hd
      · rfl

/-- Calls that are not destructive answer what each of them answers on its own, and leave the
formula as it is. -/
lemma solveAll_eq {names : List String} (hd : ∀ name ∈ names, ¬ Destructive W.toCnf name) :
    solveAll W names = (W, names.map fun name => (solve W name).2) := by
  induction names with
  | nil => rfl
  | cons name rest ih =>
    obtain ⟨hname, hrest⟩ := List.forall_mem_cons.mp hd
    simp only [solveAll, solve_fst hname, ih hrest, List.map_cons]

/-- A call is refused exactly if it is out of place. Otherwise it gives a solution if there is one,
and reports that there is none exactly if there is none, so that all calls that are not out of place
have the same verdict. The formula stays as it is unless the call is destructive: the Horn method
otherwise works on a copy and changes no clause of the formula. So calls that are not destructive
answer one after the other what each of them answers on its own, and this depends on the clauses
only. -/
theorem solve_dispatches (h : W.Built n) :
    (∀ name,
      let result := (solve W name).2.result
      (Refused result ↔ Misplaced W.toCnf name) ∧
      (¬ Misplaced W.toCnf name →
        ((∃ b : Assignment, b.length = n ∧ W.toCnf.check b = .ok true) →
          ∃ a, result = .ok a ∧ a.length = n ∧ W.toCnf.check a = .ok true) ∧
        ((∃ m, result = .error (.unsatisfiable m)) ↔
          ∀ b : Assignment, b.length = n → W.toCnf.check b = .ok false) ∧
        ∀ other, ¬ Misplaced W.toCnf other →
          Cnf.SameVerdict result (solve W other).2.result) ∧
      (¬ Destructive W.toCnf name → (solve W name).1 = W)) ∧
    (∀ C, W.copy = .ok C → ∀ r ∈ W.formula.refs,
      (Horn.solve C).1.arena.get r = W.arena.get r) ∧
    (∀ names, (∀ name ∈ names, ¬ Destructive W.toCnf name) →
      solveAll W names = (W, names.map fun name => (solve W name).2)) ∧
    ∀ F : Workspace, F.Built n → F.toCnf = W.toCnf → ∀ name,
      (solve F name).2.result = (solve W name).2.result := by
  have hf := h.coherent.inRange
  have hn : W.toCnf.numVariables = n := h.coherent.numVariables_eq
  refine ⟨?_, ?_, ?_, ?_⟩
  · intro name
    refine ⟨⟨?_, solve_of_misplaced h⟩, ?_, solve_fst⟩
    · intro hr
      by_contra hm
      obtain ⟨m, hdec⟩ := solve_of_not_misplaced h hm
      exact not_refused_of_decides hdec hr
    · intro hm
      obtain ⟨m, hdec⟩ := solve_of_not_misplaced h hm
      obtain ⟨hresult, hunsat⟩ := hdec.check hf
      rw [hn] at hresult hunsat
      refine ⟨?_, ?_, ?_⟩
      · rintro ⟨b, hb, hpass⟩
        rcases hresult with hfound | herr
        · exact hfound
        · rw [hunsat.mp herr b hb] at hpass
          cases hpass
      · rw [← hunsat]
        constructor
        · rintro ⟨m', herr⟩
          rcases hresult with ⟨a, hok, -⟩ | herr'
          · rw [hok] at herr
            cases herr
          · exact herr'
        · intro herr
          exact ⟨m, herr⟩
      · intro other hother
        obtain ⟨m', hdec'⟩ := solve_of_not_misplaced h hother
        exact hdec.sameVerdict hdec' Iff.rfl
  · intro C hC r hr
    exact get_solve_copy h hC hr
  · intro names hd
    exact solveAll_eq hd
  · intro F hF heq name
    exact solve_result_eq h hF heq name

/-- A fact and two implications, the second of which has two premises. -/
def derivation : Workspace where
  arena := ⟨#[.ofInts [1], .ofInts [-1, 2], .ofInts [-1, -2, 3]]⟩
  formula := {
    numVariables := 3
    refs := [0, 1, 2]
    queue := [.ofPlace 0]
    register := [(.ofPlace 0, 1), (.ofPlace 0, 2), (.ofPlace 1, 2)] }

/-- The example was built by adding its clauses. -/
lemma built_derivation : derivation.Built 3 := by
  have h := Workspace.Prepared.start (n := 3) derivation.arena
  have h := h.add (r := 0) (by decide) rfl
  have h := h.add (r := 1) (by decide) rfl
  exact h.add (r := 2) (by decide) rfl

/-- The example can be solved by shape, then refused by the method for two-literal clauses and
solved by search, without being changed; by shape it has a solution, found on a copy. -/
theorem solve_dispatches_derivation :
    derivation.Built 3 ∧
    (solveAll derivation ["auto", "two_sat", "general"]).1 = derivation ∧
    Refused (solve derivation "two_sat").2.result ∧
    ∃ a, (solve derivation "auto").2.result = .ok a ∧ derivation.toCnf.check a = .ok true := by
  obtain ⟨hcalls, -, hall, -⟩ := solve_dispatches built_derivation
  have hauto : ¬ Misplaced derivation.toCnf "auto" := by simp [Misplaced]
  have hkept : ∀ name ∈ ["auto", "two_sat", "general"], ¬ Destructive derivation.toCnf name := by
    simp [Destructive]
  refine ⟨built_derivation, ?_, ?_, ?_⟩
  · rw [hall _ hkept]
  · exact (hcalls "two_sat").1.mpr (.inr (.inl ⟨rfl, .ofInts [1], by decide, by decide⟩))
  · obtain ⟨-, hdecided, -⟩ := hcalls "auto"
    obtain ⟨a, hok, -, hpass⟩ := (hdecided hauto).1 ⟨[true, true, true], rfl, rfl⟩
    exact ⟨a, hok, hpass⟩

end Solver

end Clausal
