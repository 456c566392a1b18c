import Clausal.Proofs.Format.Grammar
import Clausal.Proofs.Text.Layout
import Clausal.Proofs.Text.Numeral

/-!
# Reading written formulas

The text of a formula has each clause on a line of its own. Main statements: it is read as the
formula without its empty clauses (`read_render`), because the line of an empty clause is blank and
blank lines are skipped. The queue and the register stay the same, but if there is an empty clause,
an unsatisfiable formula may be read as one that has a solution (`parse_render`).
-/

namespace Clausal

/-- The formula without its empty clauses. -/
def Cnf.dropEmpty (f : Cnf) : Cnf := ⟨f.numVariables, f.clauses.filter (· ≠ .empty)⟩

namespace Cnf

variable {f : Cnf}

/-- Without its empty clauses a formula keeps to its variables. -/
lemma inRange_dropEmpty (h : f.InRange) : f.dropEmpty.InRange := by
  intro c hc
  exact h c (List.mem_of_mem_filter hc)

/-- A formula stays the same without its empty clauses exactly if it has none. -/
lemma dropEmpty_eq_self_iff : f.dropEmpty = f ↔ Clause.empty ∉ f.clauses := by
  have hself : f.dropEmpty = f ↔ f.clauses.filter (· ≠ .empty) = f.clauses := by
    cases f
    simp [dropEmpty]
  rw [hself, List.filter_eq_self]
  constructor
  · intro h hmem
    simpa using h .empty hmem
  · intro h c hc
    simp only [ne_eq, decide_not, Bool.not_eq_true', decide_eq_false_iff_not]
    rintro rfl
    exact h hc

/-- No empty clause is a fact, so the facts of a formula stay. -/
lemma facts_dropEmpty : f.dropEmpty.facts = f.facts := by
  have hnote : ∀ q c, (if decide (c ≠ Clause.empty) then c.noteFact q else q) = c.noteFact q := by
    intro q c
    split
    · rfl
    · next hc =>
      have hc : c = .empty := by simpa using hc
      rw [hc]
      rfl
  simp only [facts, dropEmpty, List.foldl_filter, hnote]

/-- No empty clause negates a variable, so the clauses that do stay. -/
lemma filter_negated_dropEmpty (v : Variable) :
    f.dropEmpty.clauses.filter (fun c => (⟨v, true⟩ : Literal) ∈ c) =
      f.clauses.filter fun c => (⟨v, true⟩ : Literal) ∈ c := by
  rw [dropEmpty, List.filter_filter]
  apply List.filter_congr
  intro c _
  simp only [ne_eq, decide_not, Bool.and_eq_left_iff_imp, decide_eq_true_eq, Bool.not_eq_true',
    decide_eq_false_iff_not]
  rintro hv rfl
  cases hv

/-- A formula has a solution exactly if it has one without its empty clauses, and there are none. -/
lemma satisfiable_iff_dropEmpty :
    f.Satisfiable ↔ f.dropEmpty.Satisfiable ∧ Clause.empty ∉ f.clauses := by
  constructor
  · rintro ⟨σ, hσ⟩
    have hnone : Clause.empty ∉ f.clauses := by
      intro hmem
      obtain ⟨l, hl, -⟩ := hσ .empty hmem
      cases hl
    rw [dropEmpty_eq_self_iff.mpr hnone]
    exact ⟨⟨σ, hσ⟩, hnone⟩
  · rintro ⟨hsat, hnone⟩
    rwa [dropEmpty_eq_self_iff.mpr hnone] at hsat

end Cnf

/-! ### Literals and clauses -/

/-- New literals come to the end of a clause in their order. -/
lemma Clause.literals_foldl_insert {c : Clause} {ls : List Literal}
    (h : (c.literals ++ ls).Nodup) : (ls.foldl insert c).literals = c.literals ++ ls := by
  induction ls generalizing c with
  | nil => simp
  | cons l rest ih =>
    have hl : l ∉ c := by
      intro hl
      exact (List.nodup_append.mp h).2.2 l hl l List.mem_cons_self rfl
    have hinsert : (c.insert l).literals = c.literals ++ [l] := by simp [insert, hl]
    have happend : (c.insert l).literals ++ rest = c.literals ++ l :: rest := by simp [hinsert]
    rw [List.foldl_cons, ih (happend ▸ h), happend]

/-- A clause is that of the list of its literals. -/
lemma Clause.ofList_literals (c : Clause) : ofList c.literals = c := by
  apply ext_literals
  apply literals_foldl_insert
  exact c.nodup

namespace Format

open Text

/-! ### The characters of a line -/

/-- The characters from the comma to the digit nine, of which the lines of a formula consist. They
are neither white space nor line breaks. -/
def IsPlain (x : Char) : Prop := 0x2C ≤ x.toNat ∧ x.toNat ≤ 0x39

/-- The characters of a line are no white space. -/
lemma IsPlain.isBlank_eq_false {x : Char} (h : IsPlain x) : isBlank x = false := by
  obtain ⟨hlo, hhi⟩ := h
  simp only [isBlank, Bool.or_eq_false_iff, Bool.and_eq_false_iff, decide_eq_false_iff_not,
    beq_eq_false_iff_ne]
  omega

/-- The characters of a line do not break it. -/
lemma IsPlain.isLineBreak_eq_false {x : Char} (h : IsPlain x) : isLineBreak x = false := by
  obtain ⟨hlo, hhi⟩ := h
  simp only [isLineBreak, Bool.or_eq_false_iff, Bool.and_eq_false_iff, decide_eq_false_iff_not,
    beq_eq_false_iff_ne]
  omega

/-- A line has no white space around it to be taken off. -/
lemma strip_of_isPlain {s : List Char} (h : ∀ x ∈ s, IsPlain x) : strip s = s := by
  apply strip_eq_self
  intro x hx
  exact (h x hx).isBlank_eq_false

/-- A natural number is written in the characters of a line. -/
lemma isPlain_of_mem_repr {n : Nat} {x : Char} (h : x ∈ (Nat.repr n).toList) : IsPlain x := by
  obtain ⟨hlo, hhi⟩ := toNat_of_mem_repr h
  exact ⟨Nat.le_trans (by decide) hlo, hhi⟩

/-- An integer is written in the characters of a line. -/
lemma isPlain_of_mem_showInt {i : Int} {x : Char} (h : x ∈ (showInt i).toList) : IsPlain x := by
  obtain ⟨hlo, hhi⟩ := toNat_of_mem_showInt h
  exact ⟨Nat.le_trans (by decide) hlo, hhi⟩

/-- No integer is written with a comma, so commas separate the fields. -/
lemma comma_not_mem_showInt (i : Int) : ',' ∉ (showInt i).toList := by
  intro h
  exact absurd (toNat_of_mem_showInt h).1 (by decide)

/-- A clause is written in the characters of a line. -/
lemma isPlain_of_mem_renderClause {c : Clause} {x : Char} (h : x ∈ renderClause c) :
    IsPlain x := by
  cases mem_join h with
  | inl h =>
    cases List.mem_singleton.mp h
    exact ⟨by decide, by decide⟩
  | inr h =>
    obtain ⟨f, hf, hx⟩ := h
    obtain ⟨i, -, rfl⟩ := List.mem_map.mp hf
    exact isPlain_of_mem_showInt hx

/-- All lines of a formula are written in the characters of a line. -/
lemma isPlain_of_mem_renderLines {f : Cnf} {line : List Char} {x : Char}
    (h : line ∈ renderLines f) (hx : x ∈ line) : IsPlain x := by
  cases h with
  | head => exact isPlain_of_mem_repr hx
  | tail _ h =>
    cases h with
    | head => exact isPlain_of_mem_repr hx
    | tail _ h =>
      obtain ⟨c, -, rfl⟩ := List.mem_map.mp h
      exact isPlain_of_mem_renderClause hx

/-- The text of a formula splits into the lines that it was made of. -/
lemma lines_render (f : Cnf) : lines (render f) = renderLines f := by
  apply lines_flatMap
  intro line hline x hx
  exact (isPlain_of_mem_renderLines hline hx).isLineBreak_eq_false

/-! ### Reading a line -/

/-- A number of variables with at most as many digits as are read comes back. -/
lemma readSize_repr {n : Nat} (h : n < 10 ^ maxDigits) :
    readSize (Nat.repr n).toList = .ok n := by
  apply readSize_eq_ok
  rw [strip_of_isPlain fun _ => isPlain_of_mem_repr]
  exact parseInt?_repr h

/-- A written literal is read as itself. -/
lemma readLiteral_showInt {n line : Nat} {l : Literal} (hl : l.var.index ≤ n)
    (hn : n < 10 ^ maxDigits) : readLiteral n line (showInt l.toInt).toList = .ok l := by
  have habs : l.toInt.natAbs = l.var.index := (Literal.index_of_ofInt? l.ofInt?_toInt).symm
  have hparse : parseInt? (strip (showInt l.toInt).toList) = some l.toInt := by
    rw [strip_of_isPlain fun _ => isPlain_of_mem_showInt]
    apply parseInt?_showInt
    rw [habs]
    exact Nat.lt_of_le_of_lt hl hn
  obtain ⟨m, hm, hread⟩ := readLiteral_eq_ok hparse (habs ▸ l.var.index_pos) (habs ▸ hl)
  cases l.ofInt?_toInt.symm.trans hm
  exact hread

/-- Written literals are read by adding these literals one after the other. -/
lemma readLiterals_showInt {n line : Nat} {c : Clause} {ls : List Literal}
    (hls : ∀ l ∈ ls, l.var.index ≤ n) (hn : n < 10 ^ maxDigits) :
    readLiterals n line c (ls.map fun l => (showInt l.toInt).toList) =
      .ok (ls.foldl Clause.insert c) := by
  induction ls generalizing c with
  | nil => rfl
  | cons l rest ih =>
    obtain ⟨hl, hrest⟩ := List.forall_mem_cons.mp hls
    simp only [List.map_cons, readLiterals, readLiteral_showInt hl hn, bind, Except.bind,
      ih hrest, List.foldl_cons]

/-- The line of a clause splits into the integers of its literals. -/
lemma fields_renderClause {c : Clause} (h : c ≠ .empty) :
    fields ',' (renderClause c) = c.literals.map fun l => (showInt l.toInt).toList := by
  have hne : c.literals ≠ [] := fun hnil => h (Clause.ext_literals hnil)
  rw [renderClause, fields_join]
  · simp [Clause.toInts]
  · intro f hf
    obtain ⟨i, -, rfl⟩ := List.mem_map.mp hf
    exact comma_not_mem_showInt i
  · simpa [Clause.toInts] using hne

/-- The line of a clause that is not empty is read as the clause. -/
lemma readLiterals_renderClause {n line : Nat} {c : Clause} (h : c ≠ .empty)
    (hc : ∀ l ∈ c, l.var.index ≤ n) (hn : n < 10 ^ maxDigits) :
    readLiterals n line .empty (fields ',' (renderClause c)) = .ok c := by
  rw [fields_renderClause h, readLiterals_showInt hc hn]
  exact congrArg Except.ok c.ofList_literals

/-- The line of a clause that is not empty has characters. -/
lemma renderClause_ne_nil {c : Clause} (h : c ≠ .empty) : renderClause c ≠ [] := by
  intro hnil
  -- a line without characters has one field, in which no literal is written
  have hfields := fields_renderClause h
  rw [hnil] at hfields
  have hmem : [] ∈ c.literals.map fun l => (showInt l.toInt).toList := by
    rw [← hfields]
    exact List.mem_singleton_self []
  obtain ⟨l, -, hl⟩ := List.mem_map.mp hmem
  exact toList_showInt_ne_nil _ hl

/-- The line of a clause is blank exactly if the clause is empty. -/
lemma isEmpty_strip_renderClause_iff {c : Clause} :
    (strip (renderClause c)).isEmpty = true ↔ c = .empty := by
  rw [strip_of_isPlain fun _ => isPlain_of_mem_renderClause, List.isEmpty_iff]
  constructor
  · intro hnil
    by_contra h
    exact renderClause_ne_nil h hnil
  · rintro rfl
    rfl

/-- Reading written clauses passes over the empty ones. -/
lemma readClauses_render {n line : Nat} {cs : List Clause}
    (hcs : ∀ c ∈ cs, ∀ l ∈ c, l.var.index ≤ n) (hn : n < 10 ^ maxDigits) :
    readClauses n line (cs.map renderClause) = .ok (cs.filter (· ≠ .empty)) := by
  induction cs generalizing line with
  | nil => rfl
  | cons c rest ih =>
    obtain ⟨hc, hrest⟩ := List.forall_mem_cons.mp hcs
    simp only [List.map_cons, readClauses, isEmpty_strip_renderClause_iff, ih hrest]
    split
    · next h => simp [h]
    · next h =>
      rw [readLiterals_renderClause h hc hn]
      simp [h, bind, Except.bind, pure, Except.pure]

/-- A written formula is read without its empty clauses. -/
theorem read_render {f : Cnf} (hf : f.InRange) (hn : f.numVariables < 10 ^ maxDigits) :
    read (render f) = .ok f.dropEmpty := by
  simp only [read, lines_render, renderLines, readSize_repr hn, bind, Except.bind, List.drop_one,
    List.tail_cons, readClauses_render hf hn]
  rfl

/-- A written formula is read as a formula with the same clauses except for the empty ones, the same
queue and the same register. So it is the formula itself exactly if it has no empty clause; else it
is unsatisfiable, which what is read need not be. -/
theorem parse_render {n : Nat} {W : Workspace} (h : W.Built n) (hn : n < 10 ^ maxDigits) :
    ∃ W' : Workspace,
      parse (render W.toCnf) = ⟨[.parsed n W.toCnf.dropEmpty.clauses.length], .ok W'⟩ ∧
      W'.Built n ∧
      W'.toCnf = W.toCnf.dropEmpty ∧
      W'.formula.queue = W.formula.queue ∧
      (∀ v, (W'.formula.withNegation v).map W'.arena.get =
        (W.formula.withNegation v).map W.arena.get) ∧
      (W'.toCnf = W.toCnf ↔ Clause.empty ∉ W.toCnf.clauses) ∧
      (W.toCnf.Satisfiable ↔ W'.toCnf.Satisfiable ∧ Clause.empty ∉ W.toCnf.clauses) := by
  have hsize : W.toCnf.numVariables = n := h.coherent.numVariables_eq
  have hread : read (render W.toCnf) = .ok W.toCnf.dropEmpty :=
    read_render h.coherent.inRange (hsize ▸ hn)
  have hrange : W.toCnf.dropEmpty.InRange := Cnf.inRange_dropEmpty h.coherent.inRange
  have hdrop : W.toCnf.dropEmpty.numVariables = n := hsize
  obtain ⟨W', hok, hbuilt, hcnf⟩ := Workspace.exists_built hrange
  rw [hdrop] at hok hbuilt
  refine ⟨W', ?_, hbuilt, hcnf, ?_, ?_, ?_, ?_⟩
  · simp only [parse, hread, hok, hdrop]
  · rw [hbuilt.queue_eq, hcnf, Cnf.facts_dropEmpty, h.queue_eq]
  · intro v
    rw [hbuilt.map_withNegation, hcnf, Cnf.filter_negated_dropEmpty, h.map_withNegation]
  · rw [hcnf]
    exact Cnf.dropEmpty_eq_self_iff
  · rw [hcnf]
    exact Cnf.satisfiable_iff_dropEmpty

/-- An implication, which is added twice, an empty clause and a fact. -/
def gap : Workspace where
  arena := ⟨#[.ofInts [2, -1], .empty, .ofInts [1]]⟩
  formula := {
    numVariables := 2
    refs := [0, 1, 2, 0]
    queue := [.ofPlace 0]
    register := [(.ofPlace 0, 0), (.ofPlace 0, 0)] }

/-- The example was built by adding its clauses, one of them twice. -/
lemma built_gap : gap.Built 2 := by
  have h := Workspace.Prepared.start (n := 2) gap.arena
  have h := h.add (r := 0) (by decide) rfl
  have h := h.add (r := 1) (by decide) rfl
  have h := h.add (r := 2) (by decide) rfl
  exact h.add (r := 0) (by decide) rfl

/-- The example comes back with three of its four clauses, ready to propagate the fact to both
copies of the implication. -/
theorem parse_render_gap :
    gap.Built 2 ∧ 2 < 10 ^ maxDigits ∧ gap.toCnf.clauses.length = 4 ∧
    ∃ W' : Workspace, (parse (render gap.toCnf)).result = .ok W' ∧
      W'.toCnf = ⟨2, [.ofInts [2, -1], .ofInts [1], .ofInts [2, -1]]⟩ ∧
      W'.formula.queue = [.ofPlace 0] ∧
      (W'.formula.withNegation (.ofPlace 0)).map W'.arena.get =
        [.ofInts [2, -1], .ofInts [2, -1]] := by
  have hn : 2 < 10 ^ maxDigits := Nat.lt_of_lt_of_le (by decide : 2 < 10 ^ 1)
    (Nat.pow_le_pow_right (by decide) (by decide))
  refine ⟨built_gap, hn, rfl, ?_⟩
  obtain ⟨W', hparse, -, hcnf, hqueue, hregister, -⟩ := parse_render built_gap hn
  refine ⟨W', ?_, ?_, ?_, ?_⟩
  · rw [hparse]
  · rw [hcnf]
    decide
  · rw [hqueue]
    rfl
  · rw [hregister]
    decide

/-- An empty clause and nothing else, over one variable. -/
def emptyAlone : Workspace where
  arena := ⟨#[.empty]⟩
  formula := {
    numVariables := 1
    refs := [0]
    queue := []
    register := [] }

/-- What nothing satisfies is read as the formula without clauses, which has a solution. -/
theorem parse_render_emptyAlone :
    emptyAlone.Built 1 ∧ emptyAlone.toCnf.clauses = [.empty] ∧ ¬ emptyAlone.toCnf.Satisfiable ∧
      parse (render emptyAlone.toCnf) =
        ⟨[.parsed 1 0], .ok ⟨Arena.empty, Formula.empty 1⟩⟩ ∧
      ((Formula.empty 1).toCnf Arena.empty).Satisfiable := by
  have h := Workspace.Prepared.start (n := 1) emptyAlone.arena
  refine ⟨h.add (r := 0) (by decide) rfl, rfl, ?_, rfl, ?_⟩
  · rintro ⟨σ, hσ⟩
    obtain ⟨l, hl, -⟩ := hσ .empty (by decide)
    cases hl
  · refine ⟨fun _ => false, ?_⟩
    intro c hc
    cases hc

end Format

end Clausal
