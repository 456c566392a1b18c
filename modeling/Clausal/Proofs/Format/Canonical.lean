import Clausal.Proofs.Format.RoundTrip

/-!
# Canonical texts

Many texts are read as the same formula: they differ in blank lines and white space, in the second
line, in signs, zeros and scripts of numbers, and in literals that are repeated on a line. The text in
which a formula is written stands for all of them. Main statements: no text is read as a formula with
an empty clause or with more variables than can be written (`WritesFormula.empty_not_mem`,
`WritesFormula.lt_pow`), so that what is read and written is read as before, and the text tells which
formula it was (`parse_canonical`).
-/

namespace Clausal.Format

open Text

variable {n : Nat} {text : List Char}

/-- A line of the grammar that is not blank writes at least one integer. -/
lemma lineInts_ne_nil {l : List Char} (h : WritesClause n l) (hl : strip l ≠ []) :
    lineInts l ≠ [] := by
  obtain ⟨field, rest, hfields⟩ := List.exists_cons_of_ne_nil (fields_ne_nil ',' l)
  obtain ⟨i, hi, -⟩ := h.resolve_left hl field (by simp [hfields])
  simp [lineInts, hfields, hi]

/-- A line that is not blank has a literal. -/
lemma WritesFormula.empty_not_mem (h : WritesFormula n text) :
    Clause.empty ∉ (clauseInts text).map Clause.ofInts := by
  intro hmem
  obtain ⟨is, his, hempty⟩ := List.mem_map.mp hmem
  have hnil : is.eraseDups = [] := by
    rw [← Clause.toInts_ofInts (h.zero_not_mem his), hempty]
    rfl
  obtain ⟨first, rest, hlines, -, hrest⟩ := h
  obtain ⟨l, hl, rfl⟩ := List.mem_map.mp his
  obtain ⟨hmem, hne⟩ := List.mem_filter.mp hl
  rw [hlines, List.drop_succ_cons] at hmem
  obtain ⟨i, hi⟩ := List.exists_mem_of_ne_nil _ (lineInts_ne_nil (hrest l hmem) (by simpa using hne))
  rw [← List.mem_eraseDups, hnil] at hi
  cases hi

/-- The number of variables was written with at most as many digits as are read. -/
lemma WritesFormula.lt_pow (h : WritesFormula n text) : n < 10 ^ maxDigits := by
  obtain ⟨first, rest, -, hn, -⟩ := h
  exact natAbs_lt_of_parseInt? hn

/-- What a text of the grammar is read as is read as before when it is written. -/
lemma WritesFormula.read_render (h : WritesFormula n text) {f : Cnf} (hf : read text = .ok f) :
    read (render f) = .ok f := by
  cases h.read_eq_ok.symm.trans hf
  rw [Format.read_render h.inRange h.lt_pow, Cnf.dropEmpty_eq_self_iff.mpr h.empty_not_mem]

/-- A text is read as a workspace with the formula that it is read as. -/
lemma read_eq_of_parse {W : Workspace} (h : (parse text).result = .ok W) :
    (∃ n, WritesFormula n text) ∧ read text = .ok W.toCnf := by
  obtain ⟨n, hn⟩ := exists_parse_eq_ok_iff.mp ⟨W, h⟩
  obtain ⟨W', hparse, -, hcnf⟩ := hn.parse_eq
  rw [hparse] at h
  cases h
  exact ⟨⟨n, hn⟩, hcnf ▸ hn.read_eq_ok⟩

/-- What any text is read as is read as before when it is written. -/
lemma read_render_of_parse {W : Workspace} (h : (parse text).result = .ok W) :
    read (render W.toCnf) = .ok W.toCnf := by
  obtain ⟨⟨n, hn⟩, hread⟩ := read_eq_of_parse h
  exact hn.read_render hread

/-- When a text is read as a formula, the text in which this formula is written is read as the very
same formula, with the same queue and register, so that it is written in the same text again. Two
texts that are read lead to the same text exactly if they are read as formulas with the same number
of variables and the same clauses, with their literals in the same order. -/
theorem parse_canonical {W : Workspace} (h : (parse text).result = .ok W) :
    parse (render W.toCnf) = parse text ∧
    (∀ W', (parse (render W.toCnf)).result = .ok W' →
      W' = W ∧ render W'.toCnf = render W.toCnf) ∧
    ∀ text' W', (parse text').result = .ok W' →
      (render W'.toCnf = render W.toCnf ↔
        W'.toCnf.numVariables = W.toCnf.numVariables ∧ W'.toCnf.clauses = W.toCnf.clauses) := by
  have hparse : parse (render W.toCnf) = parse text := by
    simp only [parse, read_render_of_parse h, (read_eq_of_parse h).2]
  refine ⟨hparse, ?_, ?_⟩
  · intro W' h'
    rw [hparse, h] at h'
    cases h'
    exact ⟨rfl, rfl⟩
  · intro text' W' h'
    constructor
    · intro heq
      have hread := read_render_of_parse h'
      rw [heq, read_render_of_parse h, Except.ok.injEq] at hread
      exact ⟨congrArg Cnf.numVariables hread.symm, congrArg Cnf.clauses hread.symm⟩
    · rintro ⟨hsize, hclauses⟩
      have heq : W'.toCnf = W.toCnf := congrArg₂ Cnf.mk hsize hclauses
      rw [heq]

/-- The two clauses of `repeating`, with other blanks, signs and digits. -/
def scribbled : List Char := "+0_2\r\n\r\n\t01 ,-2, 1\r\n\u0662".toList

/-- Both texts lead to the same text, which is read as they are. -/
theorem parse_canonical_scribbled :
    ∃ W, (parse repeating).result = .ok W ∧
      render W.toCnf = "2\n2\n1,-2\n2\n".toList ∧
      parse "2\n2\n1,-2\n2\n".toList = parse repeating ∧
      ∃ W', (parse scribbled).result = .ok W' ∧ render W'.toCnf = render W.toCnf := by
  have hone : ∃ W, (parse repeating).result = .ok W ∧
      W.toCnf = ⟨2, [.ofInts [1, -2], .ofInts [2]]⟩ := ⟨_, rfl, by decide⟩
  have htwo : ∃ W, (parse scribbled).result = .ok W ∧
      W.toCnf = ⟨2, [.ofInts [1, -2], .ofInts [2]]⟩ := ⟨_, rfl, by decide⟩
  obtain ⟨W, h, hcnf⟩ := hone
  obtain ⟨W', h', hcnf'⟩ := htwo
  obtain ⟨hparse, -, hiff⟩ := parse_canonical h
  have hrender : render W.toCnf = "2\n2\n1,-2\n2\n".toList := by
    rw [hcnf]
    rfl
  refine ⟨W, h, hrender, hrender ▸ hparse, W', h', ?_⟩
  rw [hiff scribbled W' h', hcnf, hcnf']
  exact ⟨rfl, rfl⟩

end Clausal.Format
