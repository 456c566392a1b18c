import Clausal.CommandLine.Program
import Clausal.Proofs.Format.Grammar

/-!
# Loading a formula

What there is at a path, for files that stay as they are. Main statement: what is loaded from a path
is the formula that the text of the file writes, and if there is none it is reported that the file
is unreadable (`loads_of_accessible`).
-/

namespace Clausal

namespace Format

/-- A text of the grammar writes the formula of the integers on its lines. -/
def Writes (text : List Char) (f : Cnf) : Prop :=
  WritesFormula f.numVariables text ∧ f.clauses = (clauseInts text).map Clause.ofInts

/-- A text writes formulas over one number of variables only. -/
lemma WritesFormula.unique {text : List Char} {n k : Nat} (h : WritesFormula n text)
    (h' : WritesFormula k text) : n = k := by
  obtain ⟨first, rest, hlines, hn, -⟩ := h
  obtain ⟨first', rest', hlines', hk, -⟩ := h'
  obtain ⟨rfl, -⟩ := List.cons.inj (hlines.symm.trans hlines')
  exact Int.ofNat.inj (Option.some.inj (hn.symm.trans hk))

/-- A text writes one formula at most. -/
lemma Writes.unique {text : List Char} {f g : Cnf} (h : Writes text f) (h' : Writes text g) :
    f = g := by
  obtain ⟨n, cs⟩ := f
  obtain ⟨k, ds⟩ := g
  obtain ⟨hn, rfl⟩ := h
  obtain ⟨hk, rfl⟩ := h'
  obtain rfl := hn.unique hk
  rfl

/-- Reading a text of the grammar gives the formula that it writes, built of its clauses. -/
lemma Writes.parse_eq {text : List Char} {f : Cnf} (h : Writes text f) :
    ∃ W, (parse text).result = .ok W ∧ W.Built f.numVariables ∧ W.toCnf = f := by
  obtain ⟨n, cs⟩ := f
  obtain ⟨hn, rfl⟩ := h
  obtain ⟨W, hparse, hbuild, hcnf⟩ := hn.parse_eq
  exact ⟨W, by rw [hparse], Workspace.built_of_ofClauses hbuild, hcnf⟩

/-- Reading a text that writes no formula ends with an error. -/
lemma parse_eq_error {text : List Char} (h : ¬ ∃ f, Writes text f) :
    ∃ e, (parse text).result = .error e := by
  cases hparse : (parse text).result with
  | error e => exact ⟨e, rfl⟩
  | ok W =>
    obtain ⟨n, hn⟩ := exists_parse_eq_ok_iff.mp ⟨W, hparse⟩
    exact absurd ⟨⟨n, _⟩, hn, rfl⟩ h

end Format

namespace CommandLine

variable {fetch : Path → Content} {path : String} {f g : Cnf}

/-! ### What there is at a path -/

/-- The file at a path has the given text. -/
def TextAt (fetch : Path → Content) (path : String) (text : List Char) : Prop :=
  ∃ bytes cs, fetch (.ofString path) = .ok bytes ∧ Text.Utf8.decode bytes = .ok cs ∧
    text = Text.unifyNewlines cs

/-- There is a formula at a path: the text of the file writes it. -/
def FormulaAt (fetch : Path → Content) (path : String) (f : Cnf) : Prop :=
  ∃ text, TextAt fetch path text ∧ Format.Writes text f

/-- The path is that of a file, which holds text if it can be opened. No file has a path with a zero
character. -/
structure Accessible (fetch : Path → Content) (path : String) : Prop where
  noZero : '\x00' ∉ path.toList
  decodes : ∀ bytes, fetch (.ofString path) = .ok bytes → ∃ cs, Text.Utf8.decode bytes = .ok cs

/-- Every file that can be opened holds text. -/
def Textual (fetch : Path → Content) : Prop :=
  ∀ p bytes, fetch p = .ok bytes → ∃ cs, Text.Utf8.decode bytes = .ok cs

/-- Where all files hold text, every path without a zero character is accessible. -/
lemma Textual.accessible (h : Textual fetch) (hzero : '\x00' ∉ path.toList) :
    Accessible fetch path where
  noZero := hzero
  decodes := h (.ofString path)

/-- There is one text at a path at most. -/
lemma TextAt.unique {s t : List Char} (h : TextAt fetch path s) (h' : TextAt fetch path t) :
    s = t := by
  obtain ⟨bytes, cs, hfetch, hdecode, rfl⟩ := h
  obtain ⟨bytes', cs', hfetch', hdecode', rfl⟩ := h'
  obtain rfl := Except.ok.inj (hfetch.symm.trans hfetch')
  obtain rfl := Except.ok.inj (hdecode.symm.trans hdecode')
  rfl

/-- There is one formula at a path at most. -/
lemma FormulaAt.unique (h : FormulaAt fetch path f) (h' : FormulaAt fetch path g) : f = g := by
  obtain ⟨text, htext, hwrites⟩ := h
  obtain ⟨text', htext', hwrites'⟩ := h'
  obtain rfl := htext.unique htext'
  exact hwrites.unique hwrites'

/-- What holds of some formula at a path holds of the one that is there. -/
lemma FormulaAt.exists_iff {P : Cnf → Prop} (h : FormulaAt fetch path f) :
    (∃ g, FormulaAt fetch path g ∧ P g) ↔ P f := by
  constructor
  · rintro ⟨g, hg, hP⟩
    rwa [h.unique hg]
  · exact fun hP => ⟨f, h, hP⟩

/-! ### What is loaded -/

/-- What comes of loading from a path: the formula that is there, or, if there is none, a reason why
the file is unreadable. -/
inductive Loads (fetch : Path → Content) (path : String) : Report Loaded → Prop where
  | formula {W f events} :
    FormulaAt fetch path f →
    W.Built f.numVariables →
    W.toCnf = f →
    Loads fetch path ⟨events, .ok (.formula W)⟩
  | unreadable {reason events} :
    (¬ ∃ f, FormulaAt fetch path f) →
    Loads fetch path ⟨events, .ok (.unreadable reason)⟩

/-- Where there is a formula, it is loaded. -/
lemma Loads.eq_formula {loaded : Report Loaded} (h : Loads fetch path loaded)
    (hf : FormulaAt fetch path f) : ∃ W events, loaded = ⟨events, .ok (.formula W)⟩ ∧
      W.Built f.numVariables ∧ W.toCnf = f := by
  cases h with
  | @formula W g events hg hbuilt hcnf =>
    obtain rfl := hf.unique hg
    exact ⟨W, events, rfl, hbuilt, hcnf⟩
  | unreadable hnone => exact absurd ⟨f, hf⟩ hnone

/-- Where there is no formula, the file is reported as unreadable. -/
lemma Loads.eq_unreadable {loaded : Report Loaded} (h : Loads fetch path loaded)
    (hnone : ¬ ∃ f, FormulaAt fetch path f) :
    ∃ reason events, loaded = ⟨events, .ok (.unreadable reason)⟩ := by
  cases h with
  | formula hf => exact absurd ⟨_, hf⟩ hnone
  | @unreadable reason events => exact ⟨reason, events, rfl⟩

/-- Nothing is read from a path with a zero character. -/
lemma loadAt_eq_of_zero (h : '\x00' ∈ path.toList) :
    Id.run (loadAt fetch path) = .silent (.error .zeroInPath) := by
  have hzero : path.toList.contains '\x00' = true := by simpa using h
  simp only [loadAt, hzero, if_true]
  rfl

/-- A path without a zero character is looked up, and what the file holds is read. -/
lemma loadAt_eq_load (h : '\x00' ∉ path.toList) :
    Id.run (loadAt fetch path) = load (.ofString path) (fetch (.ofString path)) := by
  have hzero : path.toList.contains '\x00' = false := by simpa using h
  simp only [loadAt, hzero]
  rfl

/-- What is loaded from a path is the formula that is there, and if there is none the file is
reported as unreadable. -/
lemma loads_of_accessible (h : Accessible fetch path) :
    Loads fetch path (Id.run (loadAt fetch path)) := by
  rw [loadAt_eq_load h.noZero]
  unfold load
  cases hfetch : fetch (.ofString path) with
  | error fault =>
    apply Loads.unreadable
    rintro ⟨f, text, ⟨bytes, cs, hbytes, -⟩, -⟩
    cases hfetch.symm.trans hbytes
  | ok bytes =>
    obtain ⟨cs, hcs⟩ := h.decodes bytes hfetch
    have htext : TextAt fetch path (Text.unifyNewlines cs) := ⟨bytes, cs, hfetch, hcs, rfl⟩
    simp only [hcs]
    by_cases hwrites : ∃ f, Format.Writes (Text.unifyNewlines cs) f
    · obtain ⟨f, hf⟩ := hwrites
      obtain ⟨W, hparse, hbuilt, hcnf⟩ := hf.parse_eq
      rw [hparse]
      exact .formula ⟨_, htext, hf⟩ hbuilt hcnf
    · obtain ⟨e, hparse⟩ := Format.parse_eq_error hwrites
      rw [hparse]
      apply Loads.unreadable
      rintro ⟨f, text, htext', hf⟩
      rw [htext'.unique htext] at hf
      exact hwrites ⟨f, hf⟩

/-! ### What is done with it -/

section WithFormula

variable {α β : Type} {a : α} {b : β} {use : Workspace → Transcript α}
  {use' : Workspace → Transcript β} {loaded : Report Loaded}

/-- A text written first stands before all others. -/
@[simp]
lemma Transcript.output_after (output : String) (events : List Event) (t : Transcript α) :
    (t.after output events).output = output ++ t.output := rfl

/-- A text written first does not change the answer. -/
@[simp]
lemma Transcript.result_after (output : String) (events : List Event) (t : Transcript α) :
    (t.after output events).result = t.result := rfl

/-- A formula that was loaded is used, after the events of loading it. -/
lemma withFormula_formula (W : Workspace) (events : List Event) :
    withFormula path ⟨events, .ok (.formula W)⟩ a use = (use W).after "" events := rfl

/-- For an unreadable file one line is written and one event is reported, and the answer is that
without a formula. -/
lemma withFormula_unreadable (reason : String) (events : List Event) :
    withFormula path ⟨events, .ok (.unreadable reason)⟩ a use =
      ⟨"Cannot read formula from " ++ path ++ ": " ++ reason ++ "\n",
        events ++ [.unreadable path reason], .ok a⟩ := rfl

/-- Two uses of a formula write the same if they do for every formula. -/
lemma withFormula_output_congr (h : ∀ W, (use W).output = (use' W).output) :
    (withFormula path loaded a use).output = (withFormula path loaded b use').output := by
  unfold withFormula
  split
  · rfl
  · rfl
  · next W _ => simp only [Transcript.output_after, h W]

/-- What every use of a formula answers is the answer without a formula, too. -/
lemma Loads.withFormula_result (h : Loads fetch path loaded)
    (huse : ∀ n W, Workspace.Built n W → (use W).result = .ok a) :
    (withFormula path loaded a use).result = .ok a := by
  cases h with
  | formula _ hbuilt _ => exact huse _ _ hbuilt
  | unreadable _ => rfl

end WithFormula

/-- What a command writes and answers when the files stay as they are. -/
def Command.transcript (fetch : Path → Content) (input : String) (c : Command) : Transcript Nat :=
  Id.run (c.run fetch input)

/-- The command that asks for a shape loads the formula and says whether it has the shape. -/
lemma transcript_classify_eq (fetch : Path → Content) (input path : String) (m : Method) :
    (Command.classify m path).transcript fetch input =
      withFormula path (Id.run (loadAt fetch path)) exitError fun W => sayShape W.toCnf m := rfl

/-- The command that solves loads the formula and says what the algorithm finds. -/
lemma transcript_solve_eq (fetch : Path → Content) (input path : String) (a : Algorithm) :
    (Command.solve path (some a)).transcript fetch input =
      withFormula path (Id.run (loadAt fetch path)) exitError fun W => saySolution W a := rfl

/-- The command that checks loads the formula and says whether it is true for the values. -/
lemma transcript_check_eq (fetch : Path → Content) (input path : String) (values : List String) :
    (Command.check path values).transcript fetch input =
      withFormula path (Id.run (loadAt fetch path)) exitError
        fun W => sayCheckWords W.toCnf values := rfl

end CommandLine

end Clausal
