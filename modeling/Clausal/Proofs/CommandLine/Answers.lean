import Clausal.Proofs.CommandLine.Loading
import Clausal.Proofs.Dispatch
import Clausal.Proofs.Text.Layout

/-!
# The answers of the commands

The numbers with which the commands that solve a formula and check values end. Main statement: they
tell whether there is a formula of the asked kind at the path, and whether it has a solution or the
values are one; and a solution that is listed passes the check when its words are given as values
(`transcript_answers`).
-/

namespace Clausal

namespace Assignment

/-- The word for a truth value in listed assignments. -/
def word (b : Bool) : String := if b then "true" else "false"

/-- What stands between the brackets of a listed assignment. -/
def listing (a : Assignment) : List Char :=
  [',', ' '].intercalate (a.map fun b => (word b).toList)

/-- An assignment is written as its listing between brackets. -/
lemma toList_render (a : Assignment) : a.render.toList = '[' :: a.listing ++ [']'] := by
  simp [render, listing, String.toList_intercalate, Function.comp_def, word]

/-- A comma and a blank stand between two values of a listing. -/
lemma listing_cons_cons (b b' : Bool) (a : Assignment) :
    listing (b :: b' :: a) = (word b).toList ++ [',', ' '] ++ listing (b' :: a) :=
  List.intercalate_cons_cons

/-- No listing has a closing bracket, so the first one ends it. -/
lemma bracket_not_mem_listing (a : Assignment) : ']' ∉ a.listing := by
  have hword : ∀ b, ']' ∉ (word b).toList := by decide
  induction a with
  | nil => simp [listing]
  | cons b rest ih =>
    cases rest with
    | nil => simpa [listing] using hword b
    | cons b' rest =>
      rw [listing_cons_cons]
      simp [hword b, ih]

end Assignment

namespace CommandLine

/-! ### Listed assignments -/

/-- A text with blanks for its commas. -/
def blankCommas (s : List Char) : List Char := s.map fun c => if c = ',' then ' ' else c

/-- The words of a listed assignment: those between its brackets, without the commas. -/
def listedWords (s : String) : List String :=
  Text.words (String.ofList
    (blankCommas (((s.toList.dropWhile (· ≠ '[')).drop 1).takeWhile (· ≠ ']'))))

/-- With blanks for its commas, a listing splits into the words for its values. -/
lemma wordsFrom_listing (a : Assignment) :
    Text.wordsFrom [] (blankCommas a.listing) = a.map fun b => (Assignment.word b).toList := by
  have hword : ∀ b, Text.wordsFrom [] (blankCommas (Assignment.word b).toList) =
      [(Assignment.word b).toList] := by
    decide
  induction a with
  | nil => rfl
  | cons b rest ih =>
    cases rest with
    | nil => simpa [Assignment.listing] using hword b
    | cons b' rest =>
      have hsplit : blankCommas (Assignment.listing (b :: b' :: rest)) =
          blankCommas (Assignment.word b).toList ++
            ' ' :: ' ' :: blankCommas (Assignment.listing (b' :: rest)) := by
        simp [blankCommas, Assignment.listing_cons_cons]
      have hblank : ∀ s, Text.wordsFrom [] (' ' :: s) = Text.wordsFrom [] s := fun _ => rfl
      rw [hsplit, Text.wordsFrom_append_blank (by decide), hword, hblank, ih]
      rfl

/-- The words of a listed assignment are those for its values, whatever stands around it, as long as
no bracket opens before it. -/
lemma listedWords_render (a : Assignment) {before after : String} (h : '[' ∉ before.toList) :
    listedWords (before ++ a.render ++ after) = a.map Assignment.word := by
  have hbefore : ∀ c ∈ before.toList, decide (c ≠ '[') = true := by
    intro c hc
    rw [decide_eq_true_iff]
    rintro rfl
    exact h hc
  have hlisting : ∀ c ∈ a.listing, decide (c ≠ ']') = true := by
    intro c hc
    rw [decide_eq_true_iff]
    rintro rfl
    exact a.bracket_not_mem_listing hc
  have hinside : ((before ++ a.render ++ after).toList.dropWhile (· ≠ '[')).drop 1 =
      a.listing ++ ']' :: after.toList := by
    rw [String.toList_append, String.toList_append, a.toList_render, List.append_assoc,
      List.dropWhile_append_of_pos hbefore]
    simp
  have htake : (a.listing ++ ']' :: after.toList).takeWhile (· ≠ ']') = a.listing := by
    rw [List.takeWhile_append_of_pos hlisting]
    simp
  rw [listedWords, hinside, htake, Text.words, String.toList_ofList, wordsFrom_listing,
    List.map_map]
  simp [Function.comp_def]

/-- The word for a value is read as that value. -/
lemma valueOf_comp_word : Settings.valueOf ∘ Assignment.word = id := by
  funext b
  cases b <;> decide

/-! ### Solving -/

variable {W : Workspace} {n : Nat} {f : Cnf}

/-- What is written about a formula that an algorithm was to solve, and the answer: the formula is
not of the kind that the algorithm is for, or it has no solution, or one is listed. -/
inductive Solved (f : Cnf) (name : String) : String → Except Error Nat → Prop where
  | refused {m : Method} :
    Solver.Misplaced f name →
    m ≠ .general →
    name = m.name →
    Solved f name ("The formula entered is not " ++ m.problem ++ ".\n") (.ok exitError)
  | refuted {output} :
    ¬ Solver.Misplaced f name →
    ¬ f.Satisfiable →
    Solved f name output (.ok exitFalse)
  | found {a : Assignment} :
    ¬ Solver.Misplaced f name →
    a.length = f.numVariables →
    f.Holds a.valuation →
    Solved f name ("The solution of the SAT problem is:\n" ++ a.render ++ "\n") (.ok exitOk)

/-- An algorithm that is given a formula never breaks the program off. -/
lemma Solved.exists_code {name output : String} {result : Except Error Nat}
    (h : Solved f name output result) : ∃ code, result = .ok code := by
  cases h with
  | refused => exact ⟨_, rfl⟩
  | refuted => exact ⟨_, rfl⟩
  | found => exact ⟨_, rfl⟩

/-- An algorithm whose method does not suit a formula is one of the two special methods. -/
lemma exists_special {a : Algorithm} (h : Solver.suits f (Solver.methodOf f a) = false) :
    ∃ m, m ≠ .general ∧ a = .fixed m := by
  cases a with
  | auto =>
    rw [Solver.methodOf, Solver.suits_select] at h
    cases h
  | fixed m =>
    refine ⟨m, ?_, rfl⟩
    rintro rfl
    cases h

/-- Solving a formula that was built of clauses says what is true of it. -/
lemma saySolution_solved (h : W.Built n) (a : Algorithm) :
    Solved W.toCnf a.name (saySolution W a).output (saySolution W a).result := by
  have hresult := Solver.run_result_eq h a
  cases hs : Solver.suits W.toCnf (Solver.methodOf W.toCnf a) with
  | false =>
    rw [if_neg (by simp [hs])] at hresult
    obtain ⟨m, hm, rfl⟩ := exists_special hs
    simp only [saySolution, hresult]
    exact .refused (Solver.misplaced_name_iff.mpr hs) hm rfl
  | true =>
    have hm : ¬ Solver.Misplaced W.toCnf a.name := by
      simp [Solver.misplaced_name_iff, hs]
    rw [if_pos hs] at hresult
    have hdec := Solver.apply_spec h hs
    rw [← hresult] at hdec
    simp only [saySolution]
    generalize (Solver.run W a).2.result = r at hdec
    cases hdec with
    | found hlen hholds => exact .found hm hlen hholds
    | refuted hnone => exact .refuted hm hnone

/-! ### Checking -/

/-- The answer to values for the variables of a formula: they are too many or too few, or the
formula is false for them, or it is true. -/
inductive Checked (f : Cnf) (values : List String) : Except Error Nat → Prop where
  | refused :
    values.length ≠ f.numVariables →
    Checked f values (.ok exitError)
  | fails :
    values.length = f.numVariables →
    ¬ f.Holds (Assignment.valuation (values.map Settings.valueOf)) →
    Checked f values (.ok exitFalse)
  | holds :
    values.length = f.numVariables →
    f.Holds (Assignment.valuation (values.map Settings.valueOf)) →
    Checked f values (.ok exitOk)

/-- A check of values never breaks the program off. -/
lemma Checked.exists_code {values : List String} {result : Except Error Nat}
    (h : Checked f values result) : ∃ code, result = .ok code := by
  cases h with
  | refused => exact ⟨_, rfl⟩
  | fails => exact ⟨_, rfl⟩
  | holds => exact ⟨_, rfl⟩

/-- Checking values says whether the formula is true for them, unless they are too many or too
few. -/
lemma sayCheckWords_checked (hf : f.InRange) (values : List String) :
    Checked f values (sayCheckWords f values).result := by
  by_cases hlen : values.length = f.numVariables
  · have hle : f.numVariables ≤ (values.map Settings.valueOf).length :=
      Nat.le_of_eq (by rw [List.length_map, hlen])
    by_cases hholds : f.Holds (Assignment.valuation (values.map Settings.valueOf))
    · simp only [sayCheckWords, if_pos hlen, sayCheck, (Cnf.check_eq_true_iff hf hle).mpr hholds]
      exact .holds hlen hholds
    · simp only [sayCheckWords, if_pos hlen, sayCheck, (Cnf.check_eq_false_iff hf hle).mpr hholds]
      exact .fails hlen hholds
  · simp only [sayCheckWords, if_neg hlen]
    exact .refused hlen

/-! ### The commands -/

variable {fetch : Path → Content} {path : String}

/-- What is done with the formula at a path, or the answer that there is none. -/
lemma Loads.withFormula {loaded : Report Loaded} (h : Loads fetch path loaded)
    (use : Workspace → Transcript Nat) :
    (∃ W, FormulaAt fetch path W.toCnf ∧ W.Built W.toCnf.numVariables ∧
      (withFormula path loaded exitError use).output = (use W).output ∧
      (withFormula path loaded exitError use).result = (use W).result) ∨
    (¬ ∃ f, FormulaAt fetch path f) ∧
      (withFormula path loaded exitError use).result = .ok exitError := by
  cases h with
  | @formula W f events hf hbuilt hcnf =>
    subst hcnf
    exact .inl ⟨W, hf, hbuilt, String.empty_append, rfl⟩
  | unreadable hnone => exact .inr ⟨hnone, rfl⟩

/-- The command that solves says what is true of the formula at the path, or that there is none. -/
lemma transcript_solve (h : Accessible fetch path) (input : String) (a : Algorithm) :
    (∃ f, FormulaAt fetch path f ∧
      Solved f a.name ((Command.solve path (some a)).transcript fetch input).output
        ((Command.solve path (some a)).transcript fetch input).result) ∨
    (¬ ∃ f, FormulaAt fetch path f) ∧
      ((Command.solve path (some a)).transcript fetch input).result = .ok exitError := by
  rcases (loads_of_accessible h).withFormula fun W => saySolution W a with
    ⟨W, hf, hbuilt, hout, hresult⟩ | hnone
  · left
    refine ⟨W.toCnf, hf, ?_⟩
    have hsolved := saySolution_solved hbuilt a
    rwa [← hout, ← hresult] at hsolved
  · exact .inr hnone

/-- The command that checks says what is true of the formula at the path and the values, or that
there is no formula. -/
lemma transcript_check (h : Accessible fetch path) (input : String) (values : List String) :
    (∃ f, FormulaAt fetch path f ∧
      Checked f values ((Command.check path values).transcript fetch input).result) ∨
    (¬ ∃ f, FormulaAt fetch path f) ∧
      ((Command.check path values).transcript fetch input).result = .ok exitError := by
  rcases (loads_of_accessible h).withFormula fun W => sayCheckWords W.toCnf values with
    ⟨W, hf, hbuilt, -, hresult⟩ | hnone
  · left
    refine ⟨W.toCnf, hf, ?_⟩
    have hchecked := sayCheckWords_checked hbuilt.coherent.inRange values
    rwa [← hresult] at hchecked
  · exact .inr hnone

/-- An answer tells which of three things holds: that the question has no answer, that it is no, or
that it is yes. -/
structure Tells (result : Except Error Nat) (unanswered no yes : Prop) : Prop where
  exitError_iff : result = .ok exitError ↔ unanswered
  exitFalse_iff : result = .ok exitFalse ↔ no
  exitOk_iff : result = .ok exitOk ↔ yes
  exists_code : ∃ code, result = .ok code

section Tells

variable {unanswered no yes : Prop}

/-- The number for a question without an answer tells that there is none, if this excludes the other
two. -/
lemma Tells.of_unanswered (h : unanswered) (hno : ¬ no) (hyes : ¬ yes) :
    Tells (.ok exitError) unanswered no yes where
  exitError_iff := by simp [h]
  exitFalse_iff := by simp [hno, exitError, exitFalse]
  exitOk_iff := by simp [hyes, exitError, exitOk]
  exists_code := ⟨_, rfl⟩

/-- The number for no tells that the answer is no, if this excludes the other two. -/
lemma Tells.of_no (h : no) (hun : ¬ unanswered) (hyes : ¬ yes) :
    Tells (.ok exitFalse) unanswered no yes where
  exitError_iff := by simp [hun, exitError, exitFalse]
  exitFalse_iff := by simp [h]
  exitOk_iff := by simp [hyes, exitFalse, exitOk]
  exists_code := ⟨_, rfl⟩

/-- The number for yes tells that the answer is yes, if this excludes the other two. -/
lemma Tells.of_yes (h : yes) (hun : ¬ unanswered) (hno : ¬ no) :
    Tells (.ok exitOk) unanswered no yes where
  exitError_iff := by simp [hun, exitError, exitOk]
  exitFalse_iff := by simp [hno, exitFalse, exitOk]
  exitOk_iff := by simp [h]
  exists_code := ⟨_, rfl⟩

end Tells

/-- Where there is no formula, every question about it has no answer. -/
lemma Tells.of_no_formula {P Q R : Cnf → Prop} (h : ¬ ∃ f, FormulaAt fetch path f) :
    Tells (.ok exitError) ((¬ ∃ f, FormulaAt fetch path f) ∨ ∃ f, FormulaAt fetch path f ∧ P f)
      (∃ f, FormulaAt fetch path f ∧ Q f) (∃ f, FormulaAt fetch path f ∧ R f) := by
  refine .of_unanswered (.inl h) ?_ ?_
  · rintro ⟨f, hf, -⟩
    exact h ⟨f, hf⟩
  · rintro ⟨f, hf, -⟩
    exact h ⟨f, hf⟩

/-- What an answer tells about the formula that is at the path. -/
lemma FormulaAt.tells {P Q R : Cnf → Prop} {result : Except Error Nat}
    (hf : FormulaAt fetch path f) (h : Tells result (P f) (Q f) (R f)) :
    Tells result ((¬ ∃ f, FormulaAt fetch path f) ∨ ∃ f, FormulaAt fetch path f ∧ P f)
      (∃ f, FormulaAt fetch path f ∧ Q f) (∃ f, FormulaAt fetch path f ∧ R f) := by
  have hsome : ∃ f, FormulaAt fetch path f := ⟨f, hf⟩
  simpa only [hf.exists_iff, hsome, not_true_eq_false, false_or] using h

/-- The number with which the command that solves ends tells whether there is a formula of the kind
of the algorithm, and whether it has a solution. -/
lemma solve_tells (h : Accessible fetch path) (input : String) (a : Algorithm) :
    Tells ((Command.solve path (some a)).transcript fetch input).result
      ((¬ ∃ f, FormulaAt fetch path f) ∨
        ∃ f, FormulaAt fetch path f ∧ Solver.Misplaced f a.name)
      (∃ f, FormulaAt fetch path f ∧ ¬ Solver.Misplaced f a.name ∧ ¬ f.Satisfiable)
      (∃ f, FormulaAt fetch path f ∧ ¬ Solver.Misplaced f a.name ∧ f.Satisfiable) := by
  rcases transcript_solve h input a with ⟨f, hf, hsolved⟩ | ⟨hnone, hresult⟩
  · apply hf.tells
    generalize ((Command.solve path (some a)).transcript fetch input).result = result at hsolved ⊢
    generalize ((Command.solve path (some a)).transcript fetch input).output = output at hsolved
    cases hsolved with
    | refused hm => exact .of_unanswered hm (fun hno => hno.1 hm) fun hyes => hyes.1 hm
    | refuted hm hunsat => exact .of_no ⟨hm, hunsat⟩ hm fun hyes => hunsat hyes.2
    | @found b hm hlen hholds =>
      have hsat : f.Satisfiable := ⟨b.valuation, hholds⟩
      exact .of_yes ⟨hm, hsat⟩ hm fun hno => hno.2 hsat
  · rw [hresult]
    exact .of_no_formula hnone

/-- The number with which the command that checks ends tells whether there is a formula with as many
variables as values, and whether it is true for them. -/
lemma check_tells (h : Accessible fetch path) (input : String) (values : List String) :
    Tells ((Command.check path values).transcript fetch input).result
      ((¬ ∃ f, FormulaAt fetch path f) ∨
        ∃ f, FormulaAt fetch path f ∧ values.length ≠ f.numVariables)
      (∃ f, FormulaAt fetch path f ∧ values.length = f.numVariables ∧
        ¬ f.Holds (Assignment.valuation (values.map Settings.valueOf)))
      (∃ f, FormulaAt fetch path f ∧ values.length = f.numVariables ∧
        f.Holds (Assignment.valuation (values.map Settings.valueOf))) := by
  rcases transcript_check h input values with ⟨f, hf, hchecked⟩ | ⟨hnone, hresult⟩
  · apply hf.tells
    generalize ((Command.check path values).transcript fetch input).result = result at hchecked ⊢
    cases hchecked with
    | refused hne => exact .of_unanswered hne (fun hno => hne hno.1) fun hyes => hne hyes.1
    | fails hlen hfalse => exact .of_no ⟨hlen, hfalse⟩ (· hlen) fun hyes => hfalse hyes.2
    | holds hlen htrue => exact .of_yes ⟨hlen, htrue⟩ (· hlen) fun hno => hno.2 htrue
  · rw [hresult]
    exact .of_no_formula hnone

/-- Where the algorithm is not for the formula, the name of the kind that it is for is written. -/
lemma solve_output_of_misplaced (h : Accessible fetch path) (input : String) (a : Algorithm)
    (hf : FormulaAt fetch path f) (hm : Solver.Misplaced f a.name) :
    ∃ m : Method, m ≠ .general ∧ a.name = m.name ∧
      ((Command.solve path (some a)).transcript fetch input).output =
        "The formula entered is not " ++ m.problem ++ ".\n" := by
  rcases transcript_solve h input a with ⟨g, hg, hsolved⟩ | ⟨hnone, -⟩
  · obtain rfl := hf.unique hg
    generalize ((Command.solve path (some a)).transcript fetch input).result = result at hsolved
    generalize ((Command.solve path (some a)).transcript fetch input).output = output at hsolved ⊢
    cases hsolved with
    | @refused m _ hspecial hname => exact ⟨m, hspecial, hname, rfl⟩
    | refuted hm' => exact absurd hm hm'
    | found hm' => exact absurd hm hm'
  · exact absurd ⟨f, hf⟩ hnone

/-- A solution that is listed passes the check when its words are given as values. -/
lemma check_of_solve (h : Accessible fetch path) (input : String) (a : Algorithm)
    (hok : ((Command.solve path (some a)).transcript fetch input).result = .ok exitOk) :
    ∃ b : Assignment, ((Command.solve path (some a)).transcript fetch input).output =
        "The solution of the SAT problem is:\n" ++ b.render ++ "\n" ∧
      ((Command.check path (b.map Assignment.word)).transcript fetch input).result =
        .ok exitOk := by
  rcases transcript_solve h input a with ⟨f, hf, hsolved⟩ | ⟨-, hresult⟩
  · rw [hok] at hsolved
    generalize ((Command.solve path (some a)).transcript fetch input).output = output at hsolved ⊢
    cases hsolved with
    | @found b _ hlen hholds =>
      have hvalues : (b.map Assignment.word).map Settings.valueOf = b := by
        rw [List.map_map, valueOf_comp_word, List.map_id]
      refine ⟨b, rfl, (check_tells h input _).exitOk_iff.mpr ⟨f, hf, ?_, ?_⟩⟩
      · rw [List.length_map, hlen]
      · rwa [hvalues]
  · cases hok.symm.trans hresult

/-- For every file that is missing or holds text. Solving ends with two exactly if there is no
formula at the path or it is not of the kind that the algorithm is for, with one exactly if it is of
the kind and has no solution, and with zero exactly if it is of the kind and has one; it does not end
otherwise. Only the special methods say that a formula is not of their kind. A solution is listed,
and its words pass the check. Checking ends with two exactly if there is no formula at the
path or there are not as many values as variables, and else tells whether the formula is true for
the values. -/
theorem transcript_answers (h : Accessible fetch path) (input : String) :
    (∀ name ∈ ["auto", "general", "two_sat", "horn_sat"],
      let solved := (Command.solve path (Algorithm.ofName? name)).transcript fetch input
      Tells solved.result
        ((¬ ∃ f, FormulaAt fetch path f) ∨
          ∃ f, FormulaAt fetch path f ∧ Solver.Misplaced f name)
        (∃ f, FormulaAt fetch path f ∧ ¬ Solver.Misplaced f name ∧ ¬ f.Satisfiable)
        (∃ f, FormulaAt fetch path f ∧ ¬ Solver.Misplaced f name ∧ f.Satisfiable) ∧
      (∀ f, FormulaAt fetch path f → Solver.Misplaced f name →
        ∃ m : Method, m ≠ .general ∧ name = m.name ∧
          solved.output = "The formula entered is not " ++ m.problem ++ ".\n") ∧
      (solved.result = .ok exitOk → ∃ a : Assignment,
        solved.output = "The solution of the SAT problem is:\n" ++ a.render ++ "\n" ∧
        listedWords solved.output = a.map Assignment.word ∧
        ((Command.check path (listedWords solved.output)).transcript fetch input).result =
          .ok exitOk)) ∧
    ∀ values,
      Tells ((Command.check path values).transcript fetch input).result
        ((¬ ∃ f, FormulaAt fetch path f) ∨
          ∃ f, FormulaAt fetch path f ∧ values.length ≠ f.numVariables)
        (∃ f, FormulaAt fetch path f ∧ values.length = f.numVariables ∧
          ¬ f.Holds (Assignment.valuation (values.map Settings.valueOf)))
        (∃ f, FormulaAt fetch path f ∧ values.length = f.numVariables ∧
          f.Holds (Assignment.valuation (values.map Settings.valueOf))) := by
  refine ⟨?_, check_tells h input⟩
  intro name hname
  cases ha : Algorithm.ofName? name with
  | none => exact absurd hname (Algorithm.ofName?_eq_none.mp ha)
  | some a =>
    obtain rfl := Algorithm.eq_name_of_ofName? ha
    refine ⟨solve_tells h input a, ?_, ?_⟩
    · intro f hf hm
      exact solve_output_of_misplaced h input a hf hm
    · intro hok
      obtain ⟨b, hout, hcheck⟩ := check_of_solve h input a hok
      have hwords : listedWords ((Command.solve path (some a)).transcript fetch input).output =
          b.map Assignment.word := by
        rw [hout]
        exact listedWords_render b (by decide)
      exact ⟨b, hout, hwords, hwords ▸ hcheck⟩

/-- The only file that there is says that one of two variables is true, and one of them is false. -/
def exclusiveFile (p : Path) : Content :=
  if p = .ofString "xor" then .ok [50, 10, 10, 49, 44, 50, 10, 45, 49, 44, 45, 50, 10]
  else .error .missing

/-- The formula of the file. -/
def exclusive : Cnf := ⟨2, [.ofInts [1, 2], .ofInts [-1, -2]]⟩

/-- The bytes of the example are those of its formula. -/
lemma formulaAt_exclusive : FormulaAt exclusiveFile "xor" exclusive := by
  refine ⟨"2\n\n1,2\n-1,-2\n".toList, ⟨_, _, rfl, rfl, rfl⟩, ?_, ?_⟩
  · exact ⟨_, _, rfl, rfl, by decide⟩
  · decide

/-- The one file of the example holds text. -/
lemma textual_exclusiveFile : Textual exclusiveFile := by
  intro p bytes hbytes
  unfold exclusiveFile at hbytes
  split at hbytes
  · cases hbytes
    exact ⟨_, rfl⟩
  · cases hbytes

/-- The formula of the example is no Horn formula, it is solved as one of two-literal clauses, and
what is listed passes the check; it is false if both variables are true. Where there is no file,
there is no answer. -/
theorem transcript_answers_exclusive :
    ((Command.solve "xor" (Algorithm.ofName? "horn_sat")).transcript exclusiveFile "").result =
      .ok exitError ∧
    (∃ words,
      ((Command.solve "xor" (Algorithm.ofName? "two_sat")).transcript exclusiveFile "").result =
        .ok exitOk ∧
      ((Command.check "xor" words).transcript exclusiveFile "").result = .ok exitOk) ∧
    ((Command.check "xor" ["yes", "y"]).transcript exclusiveFile "").result = .ok exitFalse ∧
    ((Command.check "or" []).transcript exclusiveFile "").result = .ok exitError := by
  have hxor : Accessible exclusiveFile "xor" := textual_exclusiveFile.accessible (by decide)
  have hor : Accessible exclusiveFile "or" := textual_exclusiveFile.accessible (by decide)
  have hrange : ∀ c ∈ exclusive.clauses, ∀ l ∈ c.literals, l.var.index ≤ 2 := by decide
  have hsat : exclusive.Satisfiable :=
    ⟨_, (Cnf.check_eq_true_iff (a := [true, false]) hrange (by decide)).mp (by decide)⟩
  have hhorn : Solver.Misplaced exclusive "horn_sat" :=
    (Solver.misplaced_name_iff (a := .fixed .horn)).mpr (by decide)
  have htwo : ¬ Solver.Misplaced exclusive "two_sat" :=
    (Solver.misplaced_name_iff (a := .fixed .twoSat)).not.mpr (by decide)
  have hfalse : ¬ exclusive.Holds (Assignment.valuation (["yes", "y"].map Settings.valueOf)) :=
    (Cnf.check_eq_false_iff hrange (by decide)).mp (by decide)
  obtain ⟨hsolve, hcheck⟩ := transcript_answers hxor ""
  obtain ⟨htells, -, -⟩ := hsolve "horn_sat" (by decide)
  obtain ⟨htells', -, hlisted⟩ := hsolve "two_sat" (by decide)
  have hok := htells'.exitOk_iff.mpr ⟨exclusive, formulaAt_exclusive, htwo, hsat⟩
  obtain ⟨a, -, -, hpass⟩ := hlisted hok
  refine ⟨?_, ⟨_, hok, hpass⟩, ?_, ?_⟩
  · exact htells.exitError_iff.mpr (.inr ⟨exclusive, formulaAt_exclusive, hhorn⟩)
  · exact (hcheck ["yes", "y"]).exitFalse_iff.mpr ⟨exclusive, formulaAt_exclusive, rfl, hfalse⟩
  · obtain ⟨-, hcheck'⟩ := transcript_answers hor ""
    refine (hcheck' []).exitError_iff.mpr (.inl ?_)
    rintro ⟨f, text, ⟨bytes, cs, hfetch, -⟩, -⟩
    cases hfetch

end CommandLine

end Clausal
