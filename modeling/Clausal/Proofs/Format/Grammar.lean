import Clausal.Format
import Clausal.Proofs.Rebuilding

/-!
# The grammar of formula files

The first line of a formula file tells the number of variables, and each line from the third on is
blank or writes the literals of a clause between commas. Main statements: a text of the grammar is
read as the formula of the integers on its lines, and any other text is refused for its first
malformed line and the first malformed field on it (`parse_grammar`).
-/

namespace Clausal

/-! ### Literals and clauses by their integers -/

namespace Literal

/-- The literal of an integer has the variable of its absolute value. -/
lemma index_of_ofInt? {i : Int} {l : Literal} (h : ofInt? i = some l) :
    l.var.index = i.natAbs := by
  obtain ⟨v, hv, rfl⟩ := Option.map_eq_some_iff.mp h
  unfold Variable.ofInt? at hv
  split at hv
  · cases hv
  · cases hv
    rfl

/-- The literal of an integer is written as this integer. -/
lemma toInt_of_ofInt? {i : Int} {l : Literal} (h : ofInt? i = some l) : l.toInt = i := by
  have habs := index_of_ofInt? h
  obtain ⟨v, -, rfl⟩ := Option.map_eq_some_iff.mp h
  simp only at habs
  simp only [toInt, habs, decide_eq_true_eq]
  split
  · omega
  · omega

/-- Zero is the only integer that writes no literal. -/
lemma ofInt?_eq_none_iff {i : Int} : ofInt? i = none ↔ i = 0 := by
  simp [ofInt?, Variable.ofInt?]

end Literal

namespace Clause

/-- The integers of a clause are those of its literals and no others. -/
lemma toInt_mem_toInts {c : Clause} {l : Literal} : l.toInt ∈ c.toInts ↔ l ∈ c := by
  constructor
  · intro h
    obtain ⟨m, hm, heq⟩ := List.mem_map.mp h
    rwa [← Literal.toInt_injective heq]
  · intro h
    exact List.mem_map_of_mem h

/-- Of the literals that come to a clause, it takes those that it does not have, each once. -/
lemma toInts_foldl_insert (c : Clause) (ls : List Literal) :
    (ls.foldl insert c).toInts =
      c.toInts ++ ((ls.map Literal.toInt).filter (· ∉ c.toInts)).eraseDups := by
  induction ls generalizing c with
  | nil => simp
  | cons l rest ih =>
    rw [List.foldl_cons, ih, List.map_cons]
    by_cases hl : l ∈ c
    · have hinsert : c.insert l = c := by simp [insert, hl]
      rw [hinsert, List.filter_cons_of_neg (by simpa [toInt_mem_toInts] using hl)]
    · have hinsert : (c.insert l).toInts = c.toInts ++ [l.toInt] := by simp [insert, hl, toInts]
      rw [hinsert, List.filter_cons_of_pos (by simpa [toInt_mem_toInts] using hl),
        List.eraseDups_cons, List.filter_filter, List.append_assoc, List.singleton_append]
      congr 3
      apply List.filter_congr
      intro i _
      rw [Bool.eq_iff_iff]
      simp [and_comm]

/-- The clause of integers other than zero has each of them once, at its first place. -/
lemma toInts_ofInts {is : List Int} (h : 0 ∉ is) : (ofInts is).toInts = is.eraseDups := by
  have hmap : (is.filterMap Literal.ofInt?).map Literal.toInt = is := by
    induction is with
    | nil => rfl
    | cons i rest ih =>
      obtain ⟨hi, hrest⟩ := not_or.mp (List.mem_cons.not.mp h)
      cases hl : Literal.ofInt? i with
      | none => exact absurd (Literal.ofInt?_eq_none_iff.mp hl).symm hi
      | some l =>
        rw [List.filterMap_cons_some hl, List.map_cons, ih hrest, Literal.toInt_of_ofInt? hl]
  rw [ofInts, ofList, toInts_foldl_insert, hmap]
  simp [toInts, empty]

end Clause

namespace Format

open Text

/-! ### The grammar -/

/-- A field writes a literal over the variables from 1 to `n`: without the white space around it, it
is an integer whose absolute value is the number of one of them. -/
def WritesLiteral (n : Nat) (field : List Char) : Prop :=
  ∃ i, parseInt? (strip field) = some i ∧ 1 ≤ i.natAbs ∧ i.natAbs ≤ n

/-- A line is blank or writes a clause: all its fields write literals. -/
def WritesClause (n : Nat) (line : List Char) : Prop :=
  strip line = [] ∨ ∀ field ∈ fields ',' line, WritesLiteral n field

instance (n : Nat) (field : List Char) : Decidable (WritesLiteral n field) :=
  match h : parseInt? (strip field) with
  | none => .isFalse (by
      rintro ⟨i, hi, -⟩
      cases h.symm.trans hi)
  | some i => decidable_of_iff (1 ≤ i.natAbs ∧ i.natAbs ≤ n) (by
      constructor
      · intro hin
        exact ⟨i, h, hin⟩
      · rintro ⟨j, hj, hin⟩
        cases h.symm.trans hj
        exact hin)

instance (n : Nat) (line : List Char) : Decidable (WritesClause n line) :=
  inferInstanceAs (Decidable (_ ∨ _))

/-- A text writes a formula over `n` variables: the first line is the integer `n`, and each line from
the third on is blank or writes a clause. -/
def WritesFormula (n : Nat) (text : List Char) : Prop :=
  ∃ first rest, lines text = first :: rest ∧ parseInt? (strip first) = some (n : Int) ∧
    ∀ line ∈ rest.drop 1, WritesClause n line

/-- The integers that the fields of a line write. -/
def lineInts (line : List Char) : List Int :=
  (fields ',' line).filterMap fun field => parseInt? (strip field)

/-- The integers of the lines that are not blank, from the third on. -/
def clauseInts (text : List Char) : List (List Int) :=
  (((lines text).drop 2).filter fun line => !(strip line).isEmpty).map lineInts

/-! ### What is said about a malformed text -/

/-- A field writes no literal over the variables from 1 to `n`, and what is said about it. -/
inductive BadField (n : Nat) : List Char → String → Prop where
  | invalid {field} :
    parseInt? (strip field) = none →
    BadField n field ("invalid literal " ++ quote (String.ofList (strip field)))
  | outOfRange {field i} :
    parseInt? (strip field) = some i →
    (i = 0 ∨ n < i.natAbs) →
    BadField n field ("literal " ++ showInt i ++ " outside of variables 1.." ++ Nat.repr n)

/-- The first of some lines is no number of variables, and what is said about it. -/
inductive BadSize : List (List Char) → String → Prop where
  | missing :
    BadSize [] "missing number of variables"
  | blank {first rest} :
    strip first = [] →
    BadSize (first :: rest) "missing number of variables"
  | invalid {first rest} :
    strip first ≠ [] →
    parseInt? (strip first) = none →
    BadSize (first :: rest) ("invalid number of variables " ++ quote (String.ofList (strip first)))
  | negative {first rest i} :
    parseInt? (strip first) = some i →
    i < 0 →
    BadSize (first :: rest) "negative number of variables"

/-- A text is malformed at a line, which is the first malformed one, and what is said about this
line, which is about the first malformed field on it. -/
inductive Malformed (text : List Char) : Nat → String → Prop where
  | size {wording} :
    BadSize (lines text) wording →
    Malformed text 1 wording
  | clause {first rest} {n : Nat} {before line after before' field after' wording} :
    lines text = first :: rest →
    parseInt? (strip first) = some (n : Int) →
    rest.drop 1 = before ++ line :: after →
    (∀ other ∈ before, WritesClause n other) →
    strip line ≠ [] →
    fields ',' line = before' ++ field :: after' →
    (∀ other ∈ before', WritesLiteral n other) →
    BadField n field wording →
    Malformed text (3 + before.length) wording

/-- An answer refuses a text at a line with the given words. -/
def Refuses {α : Type} (line : Nat) (wording : String) (answer : Except Error α) : Prop :=
  ∃ fault : FormatFault, answer = .error (.format line fault) ∧ fault.message = wording

/-- A list in which not all elements have a property has a first one that has it not. -/
lemma exists_first_not {α : Type} {P : α → Prop} {xs : List α} (h : ¬ ∀ x ∈ xs, P x) :
    ∃ before x after, xs = before ++ x :: after ∧ (∀ y ∈ before, P y) ∧ ¬ P x := by
  induction xs with
  | nil => exact absurd (List.forall_mem_nil P) h
  | cons x rest ih =>
    by_cases hx : P x
    · have hrest : ¬ ∀ y ∈ rest, P y := fun hall => h (List.forall_mem_cons.mpr ⟨hx, hall⟩)
      obtain ⟨before, y, after, rfl, hbefore, hy⟩ := ih hrest
      exact ⟨x :: before, y, after, rfl, List.forall_mem_cons.mpr ⟨hx, hbefore⟩, hy⟩
    · exact ⟨[], x, rest, rfl, List.forall_mem_nil P, hx⟩

/-! ### Reading a field -/

variable {n k : Nat}

/-- A field with the integer of a variable up to `n` is read as its literal. -/
lemma readLiteral_eq_ok {field : List Char} {i : Int} (hi : parseInt? (strip field) = some i)
    (hpos : 1 ≤ i.natAbs) (hle : i.natAbs ≤ n) :
    ∃ l, Literal.ofInt? i = some l ∧ readLiteral n k field = .ok l := by
  cases hl : Literal.ofInt? i with
  | none =>
    rw [Literal.ofInt?_eq_none_iff.mp hl] at hpos
    cases hpos
  | some l =>
    refine ⟨l, rfl, ?_⟩
    rw [← Literal.index_of_ofInt? hl] at hle
    simp only [readLiteral, hi, hl, if_neg (Nat.not_lt.mpr hle)]

/-- Something is said about every field that writes no literal. -/
lemma exists_badField {field : List Char} (h : ¬ WritesLiteral n field) :
    ∃ wording, BadField n field wording := by
  cases hi : parseInt? (strip field) with
  | none => exact ⟨_, .invalid hi⟩
  | some i =>
    refine ⟨_, .outOfRange hi ?_⟩
    by_contra hin
    exact h ⟨i, hi, by omega, by omega⟩

/-- Reading a field refuses it with the words that are said about it. -/
lemma BadField.refuses {field : List Char} {wording : String} (h : BadField n field wording) :
    Refuses k wording (readLiteral n k field) := by
  cases h with
  | invalid hi => exact ⟨.invalidLiteral _, by simp only [readLiteral, hi], rfl⟩
  | @outOfRange i hi hout =>
    refine ⟨.literalOutOfRange i n, ?_, ?_⟩
    · cases hl : Literal.ofInt? i with
      | none => simp only [readLiteral, hi, hl]
      | some l =>
        have hne : i ≠ 0 := fun h0 => by
          rw [Literal.ofInt?_eq_none_iff.mpr h0] at hl
          cases hl
        have hlt : n < l.var.index := by
          rw [Literal.index_of_ofInt? hl]
          exact hout.resolve_left hne
        simp only [readLiteral, hi, hl, if_pos hlt]
    · rfl

/-! ### Reading a line -/

/-- Fields that all write literals are read by adding these one after the other. -/
lemma readLiterals_eq_ok {c : Clause} {fs : List (List Char)} (h : ∀ f ∈ fs, WritesLiteral n f) :
    readLiterals n k c fs =
      .ok (((fs.filterMap fun f => parseInt? (strip f)).filterMap Literal.ofInt?).foldl
        Clause.insert c) := by
  induction fs generalizing c with
  | nil => rfl
  | cons f rest ih =>
    obtain ⟨⟨i, hi, hpos, hle⟩, hrest⟩ := List.forall_mem_cons.mp h
    obtain ⟨l, hl, hread⟩ := readLiteral_eq_ok (k := k) hi hpos hle
    simp only [readLiterals, hread, bind, Except.bind, ih hrest, List.filterMap_cons, hi, hl,
      List.foldl_cons]

/-- Reading fields refuses the first of them that writes no literal. -/
lemma BadField.refuses_literals {c : Clause} {before after : List (List Char)} {field : List Char}
    {wording : String} (h : BadField n field wording) (hbefore : ∀ f ∈ before, WritesLiteral n f) :
    Refuses k wording (readLiterals n k c (before ++ field :: after)) := by
  induction before generalizing c with
  | nil =>
    obtain ⟨fault, herr, hmsg⟩ := h.refuses (k := k)
    refine ⟨fault, ?_, hmsg⟩
    simp only [List.nil_append, readLiterals, herr, bind, Except.bind]
  | cons f rest ih =>
    obtain ⟨⟨i, hi, hpos, hle⟩, hrest⟩ := List.forall_mem_cons.mp hbefore
    obtain ⟨l, -, hread⟩ := readLiteral_eq_ok (k := k) hi hpos hle
    obtain ⟨fault, herr, hmsg⟩ := ih (c := c.insert l) hrest
    refine ⟨fault, ?_, hmsg⟩
    simp only [List.cons_append, readLiterals, hread, bind, Except.bind, herr]

/-! ### Reading the lines -/

/-- Lines that are blank or write clauses are read as the clauses of those that are not blank. -/
lemma readClauses_eq_ok {ls : List (List Char)} (h : ∀ l ∈ ls, WritesClause n l) :
    readClauses n k ls =
      .ok (((ls.filter fun l => !(strip l).isEmpty).map lineInts).map Clause.ofInts) := by
  induction ls generalizing k with
  | nil => rfl
  | cons l rest ih =>
    obtain ⟨hl, hrest⟩ := List.forall_mem_cons.mp h
    rw [readClauses]
    split
    · next hblank =>
      rw [ih hrest, List.filter_cons_of_neg (by simp [hblank])]
    · next hblank =>
      have hfields := hl.resolve_left fun hnil => hblank (List.isEmpty_iff.mpr hnil)
      rw [readLiterals_eq_ok hfields, List.filter_cons_of_pos (by simp [hblank])]
      simp only [ih hrest, bind, Except.bind, pure, Except.pure]
      rfl

/-- Reading refuses the first malformed line, whose number counts all lines before it. -/
lemma BadField.refuses_clauses {before after : List (List Char)} {l field : List Char}
    {before' after' : List (List Char)} {wording : String} (h : BadField n field wording)
    (hbefore : ∀ other ∈ before, WritesClause n other) (hl : strip l ≠ [])
    (hfields : fields ',' l = before' ++ field :: after')
    (hbefore' : ∀ f ∈ before', WritesLiteral n f) :
    Refuses (k + before.length) wording (readClauses n k (before ++ l :: after)) := by
  induction before generalizing k with
  | nil =>
    have hread : Refuses k wording
        (readLiterals n k .empty (before' ++ field :: after')) := h.refuses_literals hbefore'
    obtain ⟨fault, herr, hmsg⟩ := hread
    refine ⟨fault, ?_, hmsg⟩
    simp only [List.nil_append, readClauses, List.isEmpty_iff, if_neg hl, hfields, herr, bind,
      Except.bind, List.length_nil, Nat.add_zero]
  | cons other rest ih =>
    obtain ⟨hother, hrest⟩ := List.forall_mem_cons.mp hbefore
    have hcount : k + (other :: rest).length = k + 1 + rest.length := by
      rw [List.length_cons]
      omega
    obtain ⟨fault, herr, hmsg⟩ := ih (k := k + 1) hrest
    rw [hcount]
    refine ⟨fault, ?_, hmsg⟩
    rw [List.cons_append, readClauses]
    split
    · exact herr
    · next hblank =>
      have hgood := hother.resolve_left fun hnil => hblank (List.isEmpty_iff.mpr hnil)
      simp only [readLiterals_eq_ok hgood, herr, bind, Except.bind]

/-! ### Reading the text -/

/-- A first line with a natural number is read as this number. -/
lemma readSize_eq_ok {first : List Char} (h : parseInt? (strip first) = some (n : Int)) :
    readSize first = .ok n := by
  have hne : (strip first).isEmpty = false := by
    cases hs : strip first with
    | nil =>
      rw [hs] at h
      cases h
    | cons c rest => rfl
  have hsize : ¬ (n : Int) < 0 := by omega
  simp only [readSize, hne, h, Bool.false_eq_true, if_false, if_neg hsize, Int.toNat_natCast]

/-- Reading refuses a first line that is no number of variables, with the words that are said about
it. -/
lemma BadSize.refuses {text : List Char} {wording : String} (h : BadSize (lines text) wording) :
    Refuses 1 wording (read text) := by
  unfold read
  generalize lines text = ls at h
  cases h with
  | missing => exact ⟨.missingSize, rfl, rfl⟩
  | blank hnil => exact ⟨.missingSize, by simp [readSize, hnil, bind, Except.bind], rfl⟩
  | invalid hne hi =>
    refine ⟨.invalidSize _, ?_, rfl⟩
    simp [readSize, hne, hi, bind, Except.bind]
  | @negative first rest i hi hneg =>
    have hne : strip first ≠ [] := by
      intro hnil
      rw [hnil] at hi
      cases hi
    exact ⟨.negativeSize, by simp [readSize, hne, hi, hneg, bind, Except.bind], rfl⟩

/-- Something is said about the first line unless it is a natural number. -/
lemma exists_badSize {ls : List (List Char)}
    (h : ∀ n : Nat, ∀ first rest, ls = first :: rest → parseInt? (strip first) ≠ some (n : Int)) :
    ∃ wording, BadSize ls wording := by
  cases ls with
  | nil => exact ⟨_, .missing⟩
  | cons first rest =>
    by_cases hnil : strip first = []
    · exact ⟨_, .blank hnil⟩
    · cases hi : parseInt? (strip first) with
      | none => exact ⟨_, .invalid hnil hi⟩
      | some i =>
        refine ⟨_, .negative hi ?_⟩
        by_contra hneg
        obtain ⟨n, rfl⟩ := Int.eq_ofNat_of_zero_le (Int.not_lt.mp hneg)
        exact h n first rest rfl hi

/-- A text that is not of the grammar has a first malformed line. -/
lemma exists_malformed {text : List Char} (h : ¬ ∃ n, WritesFormula n text) :
    ∃ line wording, Malformed text line wording := by
  by_cases hsize : ∃ n : Nat, ∃ first rest, lines text = first :: rest ∧
      parseInt? (strip first) = some (n : Int)
  · obtain ⟨n, first, rest, hlines, hn⟩ := hsize
    have hbad : ¬ ∀ line ∈ rest.drop 1, WritesClause n line := fun hall =>
      h ⟨n, first, rest, hlines, hn, hall⟩
    obtain ⟨before, line, after, hrest, hbefore, hline⟩ := exists_first_not hbad
    obtain ⟨hne, hfields⟩ := not_or.mp hline
    obtain ⟨before', field, after', hsplit, hbefore', hfield⟩ := exists_first_not hfields
    obtain ⟨wording, hword⟩ := exists_badField hfield
    exact ⟨_, _, .clause hlines hn hrest hbefore hne hsplit hbefore' hword⟩
  · have hsize' : ∀ n : Nat, ∀ first rest, lines text = first :: rest →
        parseInt? (strip first) ≠ some (n : Int) := fun n first rest hlines hn =>
      hsize ⟨n, first, rest, hlines, hn⟩
    obtain ⟨wording, hword⟩ := exists_badSize hsize'
    exact ⟨1, wording, .size hword⟩

/-- A text of the grammar is read as the formula of the integers on its lines. -/
lemma WritesFormula.read_eq_ok {text : List Char} (h : WritesFormula n text) :
    read text = .ok ⟨n, (clauseInts text).map Clause.ofInts⟩ := by
  obtain ⟨first, rest, hlines, hn, hrest⟩ := h
  simp only [read, clauseInts, hlines, readSize_eq_ok hn, readClauses_eq_ok hrest, bind,
    Except.bind, pure, Except.pure, List.drop_succ_cons]

/-- Reading refuses a malformed text at its first malformed line. -/
lemma Malformed.refuses {text : List Char} {wording : String} (h : Malformed text k wording) :
    Refuses k wording (read text) := by
  cases h with
  | size hword => exact hword.refuses
  | @clause first rest n before l after _ _ _ _ hlines hn hrest hbefore hne hsplit hbefore' hword =>
    have hread : Refuses (3 + before.length) wording (readClauses n 3 (before ++ l :: after)) :=
      hword.refuses_clauses hbefore hne hsplit hbefore'
    obtain ⟨fault, herr, hmsg⟩ := hread
    refine ⟨fault, ?_, hmsg⟩
    simp only [read, hlines, readSize_eq_ok hn, bind, Except.bind, hrest, herr]

/-! ### The formula of a text -/

/-- The integers of a line that writes a clause are those of variables from 1 to `n`. -/
lemma forall_mem_lineInts {l : List Char} (h : WritesClause n l) (hl : strip l ≠ []) {i : Int}
    (hi : i ∈ lineInts l) : 1 ≤ i.natAbs ∧ i.natAbs ≤ n := by
  obtain ⟨field, hfield, hread⟩ := List.mem_filterMap.mp hi
  obtain ⟨j, hj, hpos, hle⟩ := h.resolve_left hl field hfield
  cases hread.symm.trans hj
  exact ⟨hpos, hle⟩

/-- The integers of a text of the grammar are those of variables from 1 to `n`. -/
lemma WritesFormula.forall_mem_clauseInts {text : List Char} (h : WritesFormula n text)
    {is : List Int} (his : is ∈ clauseInts text) {i : Int} (hi : i ∈ is) :
    1 ≤ i.natAbs ∧ i.natAbs ≤ n := by
  obtain ⟨first, rest, hlines, -, hrest⟩ := h
  obtain ⟨l, hl, rfl⟩ := List.mem_map.mp his
  obtain ⟨hmem, hne⟩ := List.mem_filter.mp hl
  rw [hlines, List.drop_succ_cons] at hmem
  exact forall_mem_lineInts (hrest l hmem) (by simpa using hne) hi

/-- No line of a text of the grammar has a zero among its integers. -/
lemma WritesFormula.zero_not_mem {text : List Char} (h : WritesFormula n text) {is : List Int}
    (his : is ∈ clauseInts text) : 0 ∉ is := by
  intro h0
  have hpos := (h.forall_mem_clauseInts his h0).1
  cases hpos

/-- The clauses of a text of the grammar keep to the variables of its formula. -/
lemma WritesFormula.inRange {text : List Char} (h : WritesFormula n text) :
    Cnf.InRange ⟨n, (clauseInts text).map Clause.ofInts⟩ := by
  intro c hc l hl
  obtain ⟨is, his, rfl⟩ := List.mem_map.mp hc
  rw [← Clause.toInt_mem_toInts, Clause.toInts_ofInts (h.zero_not_mem his),
    List.mem_eraseDups] at hl
  rw [Literal.index_of_ofInt? l.ofInt?_toInt]
  exact (h.forall_mem_clauseInts his hl).2

/-- A text of the grammar gives the workspace that is built of its clauses, and the event that it
was read. -/
lemma WritesFormula.parse_eq {text : List Char} (h : WritesFormula n text) :
    ∃ W, parse text = ⟨[.parsed n (clauseInts text).length], .ok W⟩ ∧
      Workspace.ofClauses n ((clauseInts text).map Clause.ofInts) = .ok W ∧
      W.toCnf = ⟨n, (clauseInts text).map Clause.ofInts⟩ := by
  obtain ⟨W, hok, -, hcnf⟩ := Workspace.exists_built h.inRange
  refine ⟨W, ?_, hok, hcnf⟩
  simp only [parse, h.read_eq_ok, hok, List.length_map]

/-- A malformed text gives the error for its first malformed line, and no event. -/
lemma Malformed.parse_eq {text : List Char} {wording : String} (h : Malformed text k wording) :
    ∃ fault : FormatFault, parse text = .silent (.error (.format k fault)) ∧
      fault.message = wording := by
  obtain ⟨fault, herr, hmsg⟩ := h.refuses
  exact ⟨fault, by simp only [parse, herr], hmsg⟩

/-- A text is read as a formula exactly if it is one of the grammar. -/
lemma exists_parse_eq_ok_iff {text : List Char} :
    (∃ W, (parse text).result = .ok W) ↔ ∃ n, WritesFormula n text := by
  constructor
  · rintro ⟨W, hok⟩
    by_contra h
    obtain ⟨line, wording, hbad⟩ := exists_malformed h
    obtain ⟨fault, herr, -⟩ := hbad.parse_eq
    rw [herr] at hok
    cases hok
  · rintro ⟨n, h⟩
    obtain ⟨W, hok, -⟩ := h.parse_eq
    exact ⟨W, by rw [hok]⟩

/-- Two texts that differ in their second lines only are read alike. -/
lemma read_congr {text text' : List Char}
    (h : (lines text').eraseIdx 1 = (lines text).eraseIdx 1) : read text' = read text := by
  unfold read
  generalize lines text = ls at h
  generalize lines text' = ls' at h
  cases ls with
  | nil =>
    cases ls' with
    | nil => rfl
    | cons first' rest' => cases h
  | cons first rest =>
    cases ls' with
    | nil => cases h
    | cons first' rest' =>
      simp only [List.eraseIdx_cons_succ, List.eraseIdx_zero, List.cons.injEq] at h
      obtain ⟨rfl, hrest⟩ := h
      simp only [List.drop_one, hrest]

/-- A text is read as a formula exactly if it is one of the grammar, and then as the formula over
the integer on its first line that is built of the integers on its lines, of which those repeated on
a line count at their first place only. Any other text is refused for its first malformed line, and
what is said is about the first malformed field on this line. The second line does not count. -/
theorem parse_grammar (text : List Char) :
    ((∃ W, (parse text).result = .ok W) ↔ ∃ n, WritesFormula n text) ∧
    (∀ n, WritesFormula n text → ∃ W,
      parse text = ⟨[.parsed n (clauseInts text).length], .ok W⟩ ∧
      Workspace.ofClauses n ((clauseInts text).map Clause.ofInts) = .ok W ∧
      W.toCnf.numVariables = n ∧
      W.toCnf.clauses.map Clause.toInts = (clauseInts text).map List.eraseDups) ∧
    ((¬ ∃ n, WritesFormula n text) → ∃ line wording fault,
      Malformed text line wording ∧
      parse text = .silent (.error (.format line fault)) ∧
      (Error.format line fault).message = "line " ++ Nat.repr line ++ ": " ++ wording) ∧
    ∀ text', (lines text').eraseIdx 1 = (lines text).eraseIdx 1 → parse text' = parse text := by
  refine ⟨exists_parse_eq_ok_iff, ?_, ?_, ?_⟩
  · intro n h
    obtain ⟨W, hparse, hok, hcnf⟩ := h.parse_eq
    refine ⟨W, hparse, hok, by rw [hcnf], ?_⟩
    rw [hcnf, List.map_map]
    apply List.map_congr_left
    intro is his
    exact Clause.toInts_ofInts (h.zero_not_mem his)
  · intro h
    obtain ⟨line, wording, hbad⟩ := exists_malformed h
    obtain ⟨fault, herr, rfl⟩ := hbad.parse_eq
    exact ⟨line, _, fault, hbad, herr, rfl⟩
  · intro text' h
    simp only [parse, read_congr h]

/-- Two clauses, of which the first one writes a literal twice, with a blank line between them. -/
def repeating : List Char := "2\nheader\n1, -2,+1\n\n2\n".toList

/-- A text whose fourth line has a field that is no number. -/
def misspelt : List Char := "2\n\n1\n2,x,3\n".toList

/-- The first of the two texts is read, and the second one is refused for its fourth line, whatever
stands on its second line. -/
theorem parse_grammar_misspelt :
    WritesFormula 2 repeating ∧
    (∃ W, (parse repeating).result = .ok W ∧ W.toCnf.clauses.map Clause.toInts = [[1, -2], [2]]) ∧
    (¬ ∃ n, WritesFormula n misspelt) ∧
    (∃ wording, Malformed misspelt 4 wording ∧
      (Error.format 4 (.invalidLiteral "x")).message = "line 4: " ++ wording) ∧
    parse "2\nheader\n1\n2,x,3".toList = parse misspelt := by
  have hgood : WritesFormula 2 repeating := ⟨_, _, rfl, rfl, by decide⟩
  have hbad : ¬ ∃ n, WritesFormula n misspelt := by
    rintro ⟨n, first, rest, hlines, hn, hrest⟩
    cases hlines
    have htwo : parseInt? (strip ['2']) = some 2 := rfl
    have hline := hrest "2,x,3".toList (by decide)
    obtain rfl : 2 = n := Int.ofNat.inj (Option.some.inj (htwo.symm.trans hn))
    exact absurd hline (by decide)
  obtain ⟨-, hread, -, -⟩ := parse_grammar repeating
  obtain ⟨-, -, hrefuse, hsecond⟩ := parse_grammar misspelt
  refine ⟨hgood, ?_, hbad, ?_, hsecond _ rfl⟩
  · obtain ⟨W, hparse, -, -, hclauses⟩ := hread 2 hgood
    refine ⟨W, by rw [hparse], ?_⟩
    rw [hclauses]
    decide
  · obtain ⟨line, wording, fault, hword, herr, hmsg⟩ := hrefuse hbad
    have hrun : parse misspelt = .silent (.error (.format 4 (.invalidLiteral "x"))) := rfl
    cases herr.symm.trans hrun
    exact ⟨wording, hword, hmsg⟩

end Format

end Clausal
